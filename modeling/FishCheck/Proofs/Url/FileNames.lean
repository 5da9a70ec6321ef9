import FishCheck.Proofs.Path.Spellings

/-!
# File names in file URLs

The URL of a path writes the bytes of each component as they are or in escapes.  A dot is
written as it is and no escape holds one, so the names of the path and of its URL are cut at the
same dots, and an extension that the URL shows without escapes is the extension of the path.

Main results:

- Theorem `behindRoot_writeComponents`: the path of a URL, read as a path, has the escaped
  components.
- Theorem `extensionOf_escape`: the extension of an escaped name is the escaped extension.
- Theorem `hasExtension_writeComponents`: a path and its URL agree on an extension of letters.
- Theorem `fish_url_iff_fish_path`: a path and its URL agree on what is fish.
-/

namespace FishCheck

namespace Percent

/-! ## Escapes as bytes -/

/-- Whether a byte is written as it is. -/
def IsPlain (set : Set) (b : UInt8) : Prop := b.toNat < 0x80 ∧ set b = false

instance (set : Set) (b : UInt8) : Decidable (IsPlain set b) :=
  inferInstanceAs (Decidable (b.toNat < 0x80 ∧ set b = false))

/-- The bytes of the text that spells a byte sequence. -/
def escape (set : Set) (bs : Bytes) : Bytes := Utf8.encode (encode set bs)

/-- The bytes of hexadecimal digits. -/
def digitBytes : Bytes := Utf8.encode "0123456789ABCDEF"

theorem encodeChar_digit {n : Nat} (h : n < 16) :
    ∃ d ∈ digitBytes, Utf8.encodeChar (digit n) = [d] := by
  have hall : ∀ m : Fin 16, ∃ d ∈ digitBytes, Utf8.encodeChar (digit m.val) = [d] := by decide
  exact hall ⟨n, h⟩

section

variable {set : Set} {b : UInt8} {bs : Bytes}

@[simp] theorem escape_nil : escape set [] = [] := rfl

@[simp] theorem escape_append (as bs : Bytes) :
    escape set (as ++ bs) = escape set as ++ escape set bs := by
  simp only [escape, encode, List.flatMap_append, Utf8.encode_append]

theorem escape_cons_of_plain (h : IsPlain set b) (bs : Bytes) :
    escape set (b :: bs) = b :: escape set bs := by
  have hbyte : encodeByte set b = [Char.ofNat b.toNat] := by
    rw [encodeByte, if_neg]
    rintro (hhigh | hset)
    · exact absurd h.1 (by omega)
    · rw [h.2] at hset
      cases hset
  have hchar : Utf8.encode [Char.ofNat b.toNat] = [b] := by
    simpa [Utf8.encode] using encodeChar_ofNat h.1
  rw [escape, encode_cons, hbyte, Utf8.encode_append, hchar]
  rfl

theorem escape_cons_of_not_plain (h : ¬ IsPlain set b) (bs : Bytes) :
    ∃ high ∈ digitBytes, ∃ low ∈ digitBytes,
      escape set (b :: bs) = 0x25 :: high :: low :: escape set bs := by
  have hlt := UInt8.toNat_lt b
  obtain ⟨high, hhigh, heq⟩ := encodeChar_digit (show b.toNat / 16 < 16 by omega)
  obtain ⟨low, hlow, heq'⟩ := encodeChar_digit (show b.toNat % 16 < 16 by omega)
  have hbyte : encodeByte set b = ['%', digit (b.toNat / 16), digit (b.toNat % 16)] := by
    rw [encodeByte, if_pos]
    by_contra hneither
    obtain ⟨hascii, hset⟩ := not_or.1 hneither
    exact h ⟨by omega, by simpa using hset⟩
  have hpercent : Utf8.encodeChar '%' = [0x25] := rfl
  have hchars :
      Utf8.encode ['%', digit (b.toNat / 16), digit (b.toNat % 16)] = [0x25, high, low] := by
    simp [Utf8.encode, hpercent, heq, heq']
  refine ⟨high, hhigh, low, hlow, ?_⟩
  rw [escape, encode_cons, hbyte, Utf8.encode_append, hchars]
  rfl

theorem escape_eq_nil_iff : escape set bs = [] ↔ bs = [] := by
  cases bs with
  | nil => simp
  | cons b bs =>
    by_cases hb : IsPlain set b
    · simp [escape_cons_of_plain hb]
    · obtain ⟨high, -, low, -, heq⟩ := escape_cons_of_not_plain hb bs
      simp [heq]

/-- What is neither a percent sign nor a digit is no part of an escape. -/
theorem mem_escape_singleton_iff (hpercent : b ≠ 0x25) (hdigit : b ∉ digitBytes) {c : UInt8} :
    b ∈ escape set [c] ↔ b = c ∧ IsPlain set b := by
  by_cases hc : IsPlain set c
  · rw [escape_cons_of_plain hc, escape_nil, List.mem_singleton]
    exact ⟨fun heq => ⟨heq, heq ▸ hc⟩, And.left⟩
  · obtain ⟨high, hhigh, low, hlow, heq⟩ := escape_cons_of_not_plain hc []
    have hne : b ≠ high := fun h => hdigit (h ▸ hhigh)
    have hne' : b ≠ low := fun h => hdigit (h ▸ hlow)
    have hnot : ¬ (b = c ∧ IsPlain set b) := fun ⟨h, hb⟩ => hc (h ▸ hb)
    rw [heq, escape_nil]
    simp only [List.mem_cons, hpercent, hne, hne', List.not_mem_nil, or_self, hnot]

theorem mem_escape_iff (hpercent : b ≠ 0x25) (hdigit : b ∉ digitBytes) :
    b ∈ escape set bs ↔ b ∈ bs ∧ IsPlain set b := by
  induction bs with
  | nil => simp
  | cons c cs ih =>
    rw [← List.singleton_append, escape_append, List.mem_append, List.mem_append, ih,
      mem_escape_singleton_iff hpercent hdigit, List.mem_singleton, or_and_right]

/-- Bytes that are all written as they are spell themselves. -/
theorem escape_eq_self (h : ∀ b ∈ bs, IsPlain set b) : escape set bs = bs := by
  induction bs with
  | nil => rfl
  | cons b bs ih =>
    obtain ⟨hb, hbs⟩ := List.forall_mem_cons.1 h
    rw [escape_cons_of_plain hb, ih hbs]

/-- Any other byte shows as a percent sign. -/
theorem percent_mem_escape (hmem : b ∈ bs) (h : ¬ IsPlain set b) : 0x25 ∈ escape set bs := by
  obtain ⟨front, back, rfl⟩ := List.append_of_mem hmem
  obtain ⟨high, -, low, -, heq⟩ := escape_cons_of_not_plain h back
  rw [escape_append, heq]
  exact List.mem_append_right _ List.mem_cons_self

/-- When percent signs are escaped, nothing else is spelled alike. -/
theorem escape_injective (hset : set 0x25 = true) : Function.Injective (escape set) := by
  intro as bs heq
  have htext : encode set as = encode set bs := by
    rw [← Utf8.lenient_encode (encode set as), ← Utf8.lenient_encode (encode set bs)]
    exact congrArg Utf8.lenient heq
  rw [← decode_encode hset as, htext, decode_encode hset bs]

end

end Percent

namespace Path

/-! ## Components -/

/-- A component as a URL writes it. -/
def Component.escape : Component → Component
  | .name bytes => .name (Percent.escape Percent.component bytes)
  | c => c

/-- The escaped bytes of a component spell the escaped component. -/
theorem component_escape {c : Component} (h : component? c.bytes = some c) :
    component? (Percent.escape Percent.component c.bytes) = some c.escape := by
  cases c with
  | root | current => cases h
  | parent => decide
  | name bytes =>
    -- nothing but the special spellings is escaped to one of them
    have hspecial : ∀ special : Bytes, (∀ b ∈ special, b = dot) → bytes ≠ special →
        Percent.escape Percent.component bytes ≠ special := by
      intro special hdots hne heq
      have hplain : Percent.escape Percent.component special = special :=
        Percent.escape_eq_self fun b hb => by rw [hdots b hb]; decide
      exact hne (Percent.escape_injective (by decide) (heq.trans hplain.symm))
    have hname : bytes ≠ [] ∧ bytes ≠ [dot] ∧ bytes ≠ [dot, dot] := by
      refine ⟨?_, ?_, ?_⟩ <;>
      · rintro rfl
        cases h
    obtain ⟨hempty, hdot, hparent⟩ := hname
    rw [Component.bytes, component?, if_neg, if_neg (hspecial _ (by simp) hparent)]
    · rfl
    · rw [not_or]
      exact ⟨hspecial [] (by simp) hempty, hspecial [dot] (by simp) hdot⟩

/-- Segments, each behind a slash, are the segments behind an empty one. -/
theorem splitSlashes_flatMap {segments : List Bytes} (h : ∀ s ∈ segments, slash ∉ s) :
    splitSlashes (segments.flatMap (slash :: ·)) = [] :: segments := by
  cases segments with
  | nil => rfl
  | cons s ss =>
    have hjoin : (s :: ss).flatMap (slash :: ·) = slash :: joinSegments (s :: ss) := by
      induction ss generalizing s with
      | nil => simp [joinSegments]
      | cons t ts ih =>
        have hrest := ih t fun u hu => h u (List.mem_cons_of_mem s hu)
        rw [List.flatMap_cons, hrest]
        simp [joinSegments]
    rw [hjoin, splitSlashes, if_pos rfl, splitSlashes_joinSegments (List.cons_ne_nil s ss) h]

/-- The path of a URL, read as a path, has the escaped components. -/
theorem behindRoot_writeComponents {cs : List Component}
    (h : ∀ c ∈ cs, component? c.bytes = some c) :
    (ofText (Url.writeComponents cs)).behindRoot = cs.map Component.escape := by
  have hslash : ∀ bs, slash ∉ Percent.escape Percent.component bs := by
    intro bs hmem
    have hplain := ((Percent.mem_escape_iff (by decide) (by decide)).1 hmem).2
    exact absurd hplain (by decide)
  cases cs with
  | nil => decide
  | cons c rest =>
    let segments := (c :: rest).map fun c => Percent.escape Percent.component c.bytes
    have hbytes : (ofText (Url.writeComponents (c :: rest))).bytes =
        segments.flatMap (slash :: ·) := by
      rw [List.flatMap_map]
      simp only [ofText, Url.writeComponents, Utf8.encode, List.flatMap_assoc]
      rfl
    have hsegments : ∀ s ∈ segments, slash ∉ s := by
      intro s hs
      obtain ⟨d, -, rfl⟩ := List.mem_map.1 hs
      exact hslash d.bytes
    rw [behindRoot, hbytes, splitSlashes_flatMap hsegments, List.filterMap_cons_none rfl,
      List.filterMap_map]
    have hread : ∀ d ∈ c :: rest,
        component? (Percent.escape Percent.component d.bytes) = some d.escape :=
      fun d hd => component_escape (h d hd)
    rw [← List.filterMap_eq_map]
    exact List.filterMap_congr hread

/-- The URL of a path ends in the escaped name of the path. -/
theorem fileName_writeComponents (p : Path) :
    (ofText (Url.writeComponents p.behindRoot)).fileName? =
      p.fileName?.map (Percent.escape Percent.component) := by
  rw [fileName_eq, fileName_eq,
    behindRoot_writeComponents fun c hc => component_bytes_of_mem hc, List.getLast?_map]
  cases p.behindRoot.getLast? with
  | none => rfl
  | some c => cases c <;> rfl

/-! ## Extensions -/

section

variable {set : Percent.Set}

/-- A name has no extension when it has no dot, or one that leads it. -/
theorem extensionOf_eq_none_iff {name : Bytes} :
    extensionOf? name = none ↔ dot ∉ name ∨ ∃ after, dot ∉ after ∧ name = dot :: after := by
  rw [Option.eq_none_iff_forall_ne_some]
  constructor
  · intro hnone
    by_cases hdot : dot ∈ name
    · obtain ⟨after, stem, hname, hafter⟩ :=
        List.eq_append_cons_of_mem (List.mem_reverse.2 hdot)
      have hcut : name = stem.reverse ++ dot :: after.reverse := by
        simpa using congrArg List.reverse hname
      have hlast : dot ∉ after.reverse := fun hmem => hafter (List.mem_reverse.1 hmem)
      cases hstem : stem.reverse with
      | nil => exact .inr ⟨after.reverse, hlast, by rw [hcut, hstem, List.nil_append]⟩
      | cons b bs =>
        have hsome := extensionOf_eq_some_iff.2
          ⟨stem.reverse, by rw [hstem]; exact List.cons_ne_nil b bs, hlast, hcut⟩
        exact absurd hsome (hnone _)
    · exact .inl hdot
  · intro hname after hsome
    obtain ⟨stem, hstem, -, hcut⟩ := extensionOf_eq_some_iff.1 hsome
    rcases hname with hdot | ⟨rest, hrest, rfl⟩
    · exact hdot (by rw [hcut]; simp)
    · cases stem with
      | nil => exact hstem rfl
      | cons b bs =>
        obtain ⟨-, rfl⟩ := List.cons.inj hcut
        exact hrest (by simp)

/-- The extension of an escaped name is the escaped extension. -/
theorem extensionOf_escape (hdot : Percent.IsPlain set dot) (name : Bytes) :
    extensionOf? (Percent.escape set name) = (extensionOf? name).map (Percent.escape set) := by
  have hmem : ∀ bs, dot ∉ Percent.escape set bs ↔ dot ∉ bs := by
    intro bs
    rw [Percent.mem_escape_iff (by decide) (by decide)]
    simp [hdot]
  cases hext : extensionOf? name with
  | some after =>
    obtain ⟨stem, hstem, hafter, rfl⟩ := extensionOf_eq_some_iff.1 hext
    refine extensionOf_eq_some_iff.2 ⟨Percent.escape set stem, ?_, (hmem after).2 hafter, ?_⟩
    · rwa [ne_eq, Percent.escape_eq_nil_iff]
    · rw [Percent.escape_append, Percent.escape_cons_of_plain hdot]
  | none =>
    refine extensionOf_eq_none_iff.2 ?_
    rcases extensionOf_eq_none_iff.1 hext with hname | ⟨after, hafter, rfl⟩
    · exact .inl ((hmem name).2 hname)
    · exact .inr ⟨_, (hmem after).2 hafter, Percent.escape_cons_of_plain hdot after⟩

/-- An extension of bytes that are written as they are is seen through the escapes. -/
theorem map_lowerByte_escape {extension : Bytes} (hpercent : set 0x25 = true)
    (hplain : ∀ b, lowerByte b ∈ extension.map lowerByte → Percent.IsPlain set b) (found : Bytes) :
    (Percent.escape set found).map lowerByte = extension.map lowerByte ↔
      found.map lowerByte = extension.map lowerByte := by
  have hletters : ∀ bs : Bytes, bs.map lowerByte = extension.map lowerByte →
      ∀ b ∈ bs, Percent.IsPlain set b :=
    fun bs hbs b hb => hplain b (hbs ▸ List.mem_map_of_mem hb)
  constructor
  · intro hfound
    have hall : ∀ b ∈ found, Percent.IsPlain set b := by
      intro b hb
      by_contra hescaped
      -- the escape would show a percent sign, which is escaped itself
      have hshown : set 0x25 = false :=
        (hletters _ hfound _ (Percent.percent_mem_escape hb hescaped)).2
      rw [hpercent] at hshown
      cases hshown
    rwa [Percent.escape_eq_self hall] at hfound
  · intro hfound
    rwa [Percent.escape_eq_self (hletters found hfound)]

end

/-- A path and its URL agree on an extension that the URL writes as it is. -/
theorem hasExtension_writeComponents {extension : Bytes}
    (hplain : ∀ b, lowerByte b ∈ extension.map lowerByte →
      Percent.IsPlain Percent.component b) (p : Path) :
    (ofText (Url.writeComponents p.behindRoot)).hasExtension extension =
      p.hasExtension extension := by
  have hdot : Percent.IsPlain Percent.component dot := by decide
  have hextension : (ofText (Url.writeComponents p.behindRoot)).extension? =
      p.extension?.map (Percent.escape Percent.component) := by
    rw [extension?, extension?, fileName_writeComponents]
    cases p.fileName? with
    | none => rfl
    | some name => exact extensionOf_escape hdot name
  rw [hasExtension, hasExtension, hextension]
  cases p.extension? with
  | none => rfl
  | some found =>
    simp only [Option.map_some, Option.any_some, decide_eq_decide]
    exact map_lowerByte_escape (by decide) hplain found

end Path

namespace Lint

/-! ## Fish files -/

/-- The letters of the extension of fish files are written as they are, in either case. -/
theorem plain_of_extension (b : UInt8) (h : Path.lowerByte b ∈ extension.map Path.lowerByte) :
    Percent.IsPlain Percent.component b := by
  have hall : ∀ n : Fin 256,
      Path.lowerByte (UInt8.ofNat n.val) ∈ extension.map Path.lowerByte →
        Percent.IsPlain Percent.component (UInt8.ofNat n.val) := by
    decide +kernel
  have hb := hall ⟨b.toNat, UInt8.toNat_lt b⟩
  rw [UInt8.ofNat_toNat] at hb
  exact hb h

/-- Every absolute path has a file URL, and when the editor names no language, the URL is that
of a fish document exactly when the path is that of a fish file: the last name is something, a
dot and `fish` in any case of its letters. -/
theorem fish_url_iff_fish_path {p : Path} (h : p.isAbsolute = true) :
    ∃ u, Url.ofPath? p = some u ∧
      (isFishDocument u [] = true ↔ Discovery.isFishPath p = true) ∧
      (isFishDocument u [] = true ↔ ∃ stem ext, stem ≠ [] ∧
        ext.map Path.lowerByte = Utf8.encode "fish" ∧
        p.fileName? = some (stem ++ Path.dot :: ext)) := by
  refine ⟨_, Url.ofPath_of_isAbsolute h, ?_⟩
  rw [← Discovery.isFishPath_iff, isFishDocument, Discovery.isFishPath,
    ← Path.hasExtension_writeComponents plain_of_extension p]
  exact ⟨Iff.rfl, Iff.rfl⟩

/-- A name with dots, characters to escape and what looks like an escape, below a directory and
with spelling behind it, is that of a fish file; a name that only decodes to one is not. -/
theorem fish_url_iff_fish_path_escaped :
    let p : Path := "/d.fish/../ ?#\\..é%2e.FiSh/.//"
    let q : Path := "/d.fish/a%2Efish"
    (p.isAbsolute = true ∧
      ∃ u, Url.ofPath? p = some u ∧ isFishDocument u [] = true ∧
        p.fileName? = some (Utf8.encode " ?#\\..é%2e" ++ Path.dot :: Utf8.encode "FiSh")) ∧
    q.isAbsolute = true ∧
      ∃ v, Url.ofPath? q = some v ∧ isFishDocument v [] = false ∧
        Discovery.isFishPath q = false := by
  intro p q
  have hp : p.isAbsolute = true := by decide
  have hq : q.isAbsolute = true := by decide
  have hname : p.fileName? =
      some (Utf8.encode " ?#\\..é%2e" ++ Path.dot :: Utf8.encode "FiSh") := by
    decide +kernel
  have hnot : Discovery.isFishPath q = false := by decide +kernel
  obtain ⟨u, hu, -, hfish⟩ := fish_url_iff_fish_path hp
  obtain ⟨v, hv, hagree, -⟩ := fish_url_iff_fish_path hq
  refine ⟨⟨hp, u, hu, hfish.2 ⟨_, _, by decide, by decide, hname⟩, hname⟩, hq, v, hv, ?_, hnot⟩
  rw [Bool.eq_false_iff, ne_eq, hagree, hnot]
  exact Bool.false_ne_true

end Lint

end FishCheck
