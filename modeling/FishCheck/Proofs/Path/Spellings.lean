import FishCheck.Discovery
import FishCheck.Proofs.Path.Names

/-!
# Spellings of a path

A relative path may be spelled with `./` in front.  The spelling shows as a first component
of its own, which is dropped before paths are compared or shown; all else that is read off
the path stays the same: what is joined to it, its last name and its extension.

Main results:

- Theorem `components_withoutCurrent`: removing a leading `./` drops the first component and
  nothing else.
- Theorem `withoutCurrent_fromHere`: the two spellings of a path are the same without `./`.
- Theorem `join_fromHere`: what is joined to one spelling is joined to the other.
- Theorem `Discovery.isFishPath_iff`: what the names of fish files look like.
-/

namespace FishCheck

namespace Path

/-- Components without a leading `.`. -/
def dropCurrent : List Component → List Component
  | .current :: cs => cs
  | cs => cs

/-! ## What stands at the front -/

/-- Names and parents stand behind the front of a path. -/
theorem current_not_mem_behindRoot (p : Path) : .current ∉ p.behindRoot := by
  intro h
  cases component_bytes_of_mem h

/-- The first segment of an absolute path is empty. -/
theorem head_splitSlashes_of_isAbsolute {p : Path} (h : p.isAbsolute = true) :
    (splitSlashes p.bytes).head? = some [] := by
  obtain ⟨rest, hbytes⟩ := List.head?_eq_some_iff.1 (beq_iff_eq.1 h)
  rw [hbytes, splitSlashes, if_pos rfl, List.head?_cons]

/-- A path whose first segment counts as a component has nothing special at the front. -/
theorem leading_eq_nil {p : Path} {s : Bytes} (hhead : (splitSlashes p.bytes).head? = some s)
    (hempty : s ≠ []) (hdot : s ≠ [dot]) : p.leading = [] := by
  have habsolute : ¬ p.isAbsolute = true := fun h =>
    hempty (Option.some.inj (hhead.symm.trans (head_splitSlashes_of_isAbsolute h)))
  rw [leading, if_neg habsolute, hhead, if_neg (by simpa using hdot)]

theorem leading_cases (p : Path) :
    p.leading = [.root] ∨ p.leading = [.current] ∨ p.leading = [] := by
  unfold leading
  split
  · exact .inl rfl
  · split
    · exact .inr (.inl rfl)
    · exact .inr (.inr rfl)

/-- A path whose first segment is a dot has a first component for it. -/
theorem components_of_dot {p : Path} {rest : List Bytes}
    (h : splitSlashes p.bytes = [dot] :: rest) :
    p.components = .current :: rest.filterMap component? := by
  have habsolute : ¬ p.isAbsolute = true := fun habsolute => by
    have hhead := head_splitSlashes_of_isAbsolute habsolute
    rw [h] at hhead
    cases hhead
  have hdot : component? [dot] = none := rfl
  rw [components, leading, if_neg habsolute, h, List.head?_cons, if_pos rfl,
    List.filterMap_cons_none hdot, List.singleton_append]

/-- A relative path without a leading `.` is what stands behind the front. -/
theorem dropCurrent_components {p : Path} (h : p.isAbsolute = false) :
    dropCurrent p.components = p.behindRoot := by
  have habsolute : ¬ p.isAbsolute = true := by simp [h]
  rw [components, leading, if_neg habsolute]
  split
  · rfl
  · rw [List.nil_append]
    change dropCurrent p.behindRoot = p.behindRoot
    cases hbehind : p.behindRoot with
    | nil => rfl
    | cons c cs =>
      cases c with
      | current => exact absurd (hbehind ▸ List.mem_cons_self) p.current_not_mem_behindRoot
      | root | parent | name => rfl

/-! ## Removing `./` -/

theorem slash_not_mem_of_mem_splitSlashes {s bs : Bytes} (h : s ∈ splitSlashes bs) :
    slash ∉ s := by
  induction bs generalizing s with
  | nil => simp_all [splitSlashes]
  | cons b bs ih =>
    rw [splitSlashes] at h
    split at h
    · rcases List.mem_cons.1 h with rfl | h
      · exact List.not_mem_nil
      · exact ih h
    · rename_i hb
      split at h
      · rw [List.mem_singleton.1 h, List.mem_singleton]
        exact fun heq => hb heq.symm
      · rename_i first rest hsplit
        rw [hsplit] at ih
        rcases List.mem_cons.1 h with rfl | h
        · rw [List.mem_cons, not_or]
          exact ⟨fun heq => hb heq.symm, ih List.mem_cons_self⟩
        · exact ih (List.mem_cons_of_mem _ h)

/-- Segments are read back from the bytes they are joined to. -/
theorem splitSlashes_joinSegments {segments : List Bytes} (hne : segments ≠ [])
    (hplain : ∀ s ∈ segments, slash ∉ s) : splitSlashes (joinSegments segments) = segments := by
  rw [splitSlashes_eq_splitOn, joinSegments, List.splitOn_intercalate slash hplain hne]

/-- Trimming drops segments that are no components. -/
theorem filterMap_trimFront (segments : List Bytes) :
    (trimFront segments).filterMap component? = segments.filterMap component? := by
  induction segments with
  | nil => rfl
  | cons s ss ih =>
    rw [trimFront]
    split
    · rename_i hskip
      have hnone : component? s = none := by rw [component?, if_pos hskip]
      rw [ih, List.filterMap_cons_none hnone]
    · rfl

theorem trimFront_suffix (segments : List Bytes) : trimFront segments <:+ segments := by
  induction segments with
  | nil => exact List.suffix_rfl
  | cons s ss ih =>
    rw [trimFront]
    split
    · exact ih.trans (List.suffix_cons s ss)
    · exact List.suffix_rfl

/-- What is left after trimming starts with a component. -/
theorem head_trimFront {segments : List Bytes} {s : Bytes}
    (h : (trimFront segments).head? = some s) : s ≠ [] ∧ s ≠ [dot] := by
  induction segments with
  | nil => cases h
  | cons first ss ih =>
    rw [trimFront] at h
    split at h
    · exact ih h
    · rename_i hkeep
      rw [← Option.some.inj h]
      exact not_or.1 hkeep

/-- Removing a leading `./` drops the first component and nothing else. -/
theorem components_withoutCurrent (p : Path) :
    p.withoutCurrent.components = dropCurrent p.components := by
  unfold withoutCurrent
  split
  · rename_i first rest hsplit
    split
    · rename_i hdot
      rw [hdot] at hsplit
      rw [components_of_dot hsplit]
      change _ = rest.filterMap component?
      -- both ends of the rest lose segments that are no components
      let front := trimFront rest
      let kept := (trimFront front.reverse).reverse
      have hkept : kept.filterMap component? = rest.filterMap component? := by
        rw [List.filterMap_reverse, filterMap_trimFront, List.filterMap_reverse,
          List.reverse_reverse, filterMap_trimFront]
      have hfront : kept <+: front := by
        rw [← List.reverse_suffix, List.reverse_reverse]
        exact trimFront_suffix front.reverse
      have hplain : ∀ s ∈ kept, slash ∉ s := fun s hs =>
        slash_not_mem_of_mem_splitSlashes (hsplit ▸ List.mem_cons_of_mem _
          ((trimFront_suffix rest).mem (hfront.mem hs)))
      rw [← hkept]
      change components ⟨joinSegments kept⟩ = _
      cases hcases : kept with
      | nil => rfl
      | cons s ss =>
        have hsegments : splitSlashes (joinSegments (s :: ss)) = s :: ss :=
          splitSlashes_joinSegments (List.cons_ne_nil s ss) (hcases ▸ hplain)
        have hhead : front.head? = some s := by
          obtain ⟨back, hback⟩ := hfront
          rw [← hback, hcases]
          rfl
        obtain ⟨hempty, hdot⟩ := head_trimFront hhead
        have hleading : leading ⟨joinSegments (s :: ss)⟩ = [] := by
          refine leading_eq_nil ?_ hempty hdot
          rw [hsegments, List.head?_cons]
        rw [components, hleading, hsegments, List.nil_append]
    · rename_i hfirst
      by_cases habsolute : p.isAbsolute = true
      · rw [components_of_isAbsolute habsolute]
        rfl
      · have hhead : ¬ (splitSlashes p.bytes).head? = some [dot] := by simpa [hsplit] using hfirst
        rw [dropCurrent_components (by simpa using habsolute), components, leading,
          if_neg habsolute, if_neg hhead, List.nil_append]
        rfl
  · rename_i hsplit
    rw [splitSlashes_eq_splitOn] at hsplit
    exact absurd hsplit (List.splitOn_ne_nil _ _)

/-! ## Putting `./` in front -/

/-- The path with `./` in front; an absolute path is left as it is. -/
def fromHere (p : Path) : Path := if p.isAbsolute then p else ⟨dot :: slash :: p.bytes⟩

theorem fromHere_of_isAbsolute {p : Path} (h : p.isAbsolute = true) : p.fromHere = p :=
  if_pos h

theorem fromHere_of_relative {p : Path} (h : p.isAbsolute = false) :
    p.fromHere = ⟨dot :: slash :: p.bytes⟩ :=
  if_neg (by simp [h])

theorem isAbsolute_fromHere (p : Path) : p.fromHere.isAbsolute = p.isAbsolute := by
  cases h : p.isAbsolute with
  | true => rw [fromHere_of_isAbsolute h, h]
  | false =>
    rw [fromHere_of_relative h]
    rfl

/-- The dot is a segment of its own. -/
theorem splitSlashes_fromHere {p : Path} (h : p.isAbsolute = false) :
    splitSlashes p.fromHere.bytes = [dot] :: splitSlashes p.bytes := by
  have hdot : dot ≠ slash := by decide
  rw [fromHere_of_relative h, splitSlashes, if_neg hdot, splitSlashes, if_pos rfl]

theorem behindRoot_fromHere (p : Path) : p.fromHere.behindRoot = p.behindRoot := by
  cases h : p.isAbsolute with
  | true => rw [fromHere_of_isAbsolute h]
  | false =>
    have hdot : component? [dot] = none := rfl
    rw [behindRoot, splitSlashes_fromHere h, List.filterMap_cons_none hdot]
    rfl

/-- The two spellings of a path are the same without `./`. -/
theorem withoutCurrent_fromHere (p : Path) :
    p.fromHere.withoutCurrent.components = p.withoutCurrent.components := by
  cases h : p.isAbsolute with
  | true => rw [fromHere_of_isAbsolute h]
  | false =>
    rw [components_withoutCurrent, components_withoutCurrent, dropCurrent_components h,
      dropCurrent_components (p.isAbsolute_fromHere.trans h), behindRoot_fromHere]

/-- What is joined to one spelling is joined to the other. -/
theorem join_fromHere (p q : Path) : p.fromHere.join q = (p.join q).fromHere := by
  cases hq : q.isAbsolute with
  | true => rw [join_absolute hq, join_absolute hq, fromHere_of_isAbsolute hq]
  | false =>
    have hjoin (r : Path) : r.join q =
        if r.bytes.getLast?.all (· = slash) then ⟨r.bytes ++ q.bytes⟩
        else ⟨r.bytes ++ [slash] ++ q.bytes⟩ := by
      rw [join, if_neg (by simp [hq])]
    cases hp : p.isAbsolute with
    | true =>
      have hjoined : (p.join q).isAbsolute = true := isAbsolute_join hp q
      rw [fromHere_of_isAbsolute hp, fromHere_of_isAbsolute hjoined]
    | false =>
      -- with `./` in front the last byte is the same, or the slash in the place of nothing
      have hlast : (p.fromHere.bytes.getLast?.all (· = slash)) =
          p.bytes.getLast?.all (· = slash) := by
        rw [fromHere_of_relative hp]
        cases hbytes : p.bytes with
        | nil => rfl
        | cons b bs => simp
      have hrelative : (p.join q).isAbsolute = false := by
        rw [hjoin]
        cases hbytes : p.bytes with
        | nil => simpa [isAbsolute] using hq
        | cons b bs =>
          have hb : b ≠ slash := by simpa [isAbsolute, hbytes] using hp
          split <;> simpa [isAbsolute] using hb
      rw [fromHere_of_relative hrelative, hjoin, hlast, hjoin, fromHere_of_relative hp]
      split <;> rfl

/-! ## Names and extensions -/

/-- The last component that is a name. -/
theorem fileName_eq (p : Path) :
    p.fileName? = match p.behindRoot.getLast? with
      | some (.name b) => some b
      | _ => none := by
  have hcomponents : p.components = p.leading ++ p.behindRoot := rfl
  rw [fileName?, hcomponents, List.getLast?_append]
  cases p.behindRoot.getLast? with
  | some c => rfl
  | none => rcases p.leading_cases with h | h | h <;> rw [h] <;> rfl

theorem fileName_fromHere (p : Path) : p.fromHere.fileName? = p.fileName? := by
  rw [fileName_eq, fileName_eq, behindRoot_fromHere]

/-- The extension is what follows the last dot of a name, unless the dot leads it. -/
theorem extensionOf_eq_some_iff {name after : Bytes} :
    extensionOf? name = some after ↔
      ∃ stem, stem ≠ [] ∧ dot ∉ after ∧ name = stem ++ dot :: after := by
  constructor
  · intro h
    unfold extensionOf? at h
    dsimp only at h
    split at h
    · rename_i hlength
      obtain rfl := Option.some.inj h
      have hparts := List.takeWhile_append_dropWhile (p := (· ≠ dot)) (l := name.reverse)
      cases hdrop : name.reverse.dropWhile (· ≠ dot) with
      | nil =>
        rw [hdrop, List.append_nil] at hparts
        rw [hparts, List.reverse_reverse] at hlength
        omega
      | cons b stem =>
        have hb : b = dot := by
          have hhead := List.head?_dropWhile_not (· ≠ dot) name.reverse
          rw [hdrop] at hhead
          simpa using hhead
        have hname : name =
            stem.reverse ++ dot :: (name.reverse.takeWhile (· ≠ dot)).reverse := by
          rw [hdrop, hb] at hparts
          simpa using (congrArg List.reverse hparts).symm
        refine ⟨stem.reverse, ?_, ?_, hname⟩
        · rintro hstem
          rw [hstem] at hname
          have := congrArg List.length hname
          rw [List.nil_append, List.length_cons] at this
          omega
        · intro hdot
          have hall := List.all_eq_true.1 List.all_takeWhile dot (List.mem_reverse.1 hdot)
          simp at hall
    · cases h
  · rintro ⟨stem, hstem, hdot, rfl⟩
    have hafter : ((stem ++ dot :: after).reverse.takeWhile (· ≠ dot)).reverse = after := by
      have hall : ∀ b ∈ after.reverse, decide (b ≠ dot) = true := fun b hb =>
        decide_eq_true fun heq => hdot (heq ▸ List.mem_reverse.1 hb)
      rw [List.reverse_append, List.reverse_cons, List.append_assoc,
        List.takeWhile_append_of_pos hall]
      simp
    have hlength : after.length + 1 < (stem ++ dot :: after).length := by
      have := List.length_pos_iff.2 hstem
      rw [List.length_append, List.length_cons]
      omega
    unfold extensionOf?
    dsimp only
    rw [hafter, if_pos hlength]

end Path

namespace Discovery

/-- The names of fish files: something, a dot and `fish`, in any case of its letters. -/
theorem isFishPath_iff {p : Path} :
    isFishPath p = true ↔ ∃ stem ext, stem ≠ [] ∧
      ext.map Path.lowerByte = Utf8.encode "fish" ∧
      p.fileName? = some (stem ++ Path.dot :: ext) := by
  have hlower : (Utf8.encode "fish").map Path.lowerByte = Utf8.encode "fish" := by decide
  have hnodot : Path.lowerByte Path.dot ∉ Utf8.encode "fish" := by decide
  simp only [isFishPath, Path.hasExtension, Path.extension?, Lint.extension, hlower,
    Option.any_eq_true, Option.bind_eq_some_iff, Path.extensionOf_eq_some_iff,
    decide_eq_true_eq]
  constructor
  · rintro ⟨ext, ⟨name, hname, stem, hstem, -, rfl⟩, hext⟩
    exact ⟨stem, ext, hstem, hext, hname⟩
  · rintro ⟨stem, ext, hstem, hext, hname⟩
    refine ⟨ext, ⟨_, hname, stem, hstem, fun hdot => hnodot ?_, rfl⟩, hext⟩
    rw [← hext]
    exact List.mem_map_of_mem hdot

theorem isFishPath_fromHere (p : Path) : isFishPath p.fromHere = isFishPath p := by
  rw [isFishPath, isFishPath, Path.hasExtension, Path.hasExtension, Path.extension?,
    Path.extension?, Path.fileName_fromHere]

end Discovery

end FishCheck
