import FishCheck.Toml.Reader
import Mathlib.Data.List.Nodup

/-!
# Keys of a TOML document

However the statements of a document add to its tables, what is changed at the top is changed
by setting the value of a key, in its place or at the end.  So each key of the document comes
once, and looking a key up finds the one entry that has it.

Main results:

- Theorem `Entries.find_eq_some_iff`: among distinct keys, the value of a key is the one that
  stands with it.
- Theorem `distinct_read`: the keys of a document are distinct.
-/

namespace FishCheck

namespace Toml

namespace Entries

/-! ## Distinct keys -/

/-- Whether each key comes once. -/
def Distinct (es : Entries) : Prop := (es.map (·.1.name)).Nodup

theorem distinct_nil : Distinct [] := List.nodup_nil

/-- Setting the value of a key adds its name unless it is there. -/
theorem names_insert (key : Key) (value : Node) (es : Entries) :
    (insert key value es).map (·.1.name) =
      if key.name ∈ es.map (·.1.name) then es.map (·.1.name)
      else es.map (·.1.name) ++ [key.name] := by
  induction es with
  | nil => rfl
  | cons e es ih =>
    obtain ⟨k, v⟩ := e
    rw [insert]
    by_cases hk : k.name = key.name
    · simp [hk]
    · rw [if_neg hk, List.map_cons, ih, List.map_cons]
      have hmem : key.name ∈ k.name :: es.map (·.1.name) ↔ key.name ∈ es.map (·.1.name) := by
        simp [Ne.symm hk]
      by_cases hin : key.name ∈ es.map (·.1.name)
      · rw [if_pos hin, if_pos (hmem.2 hin)]
      · rw [if_neg hin, if_neg (fun h => hin (hmem.1 h))]
        rfl

theorem distinct_insert {es : Entries} (h : Distinct es) (key : Key) (value : Node) :
    Distinct (insert key value es) := by
  rw [Distinct, names_insert]
  split
  · exact h
  · rename_i hnew
    rw [← List.concat_eq_append]
    exact List.Nodup.concat hnew h

/-- Among distinct keys, the value of a key is the one that stands with it. -/
theorem find_eq_some_iff {es : Entries} (h : Distinct es) {name : Text} {value : Node} :
    find? name es = some value ↔ ∃ e ∈ es, e.1.name = name ∧ e.2 = value := by
  induction es with
  | nil => simp [find?]
  | cons e es ih =>
    obtain ⟨k, v⟩ := e
    obtain ⟨hfirst, hrest⟩ := List.nodup_cons.1 h
    rw [find?]
    by_cases hk : k.name = name
    · rw [if_pos hk]
      constructor
      · intro hv
        exact ⟨(k, v), List.mem_cons_self, hk, Option.some.inj hv⟩
      · rintro ⟨e, he, hname, rfl⟩
        rcases List.mem_cons.1 he with rfl | he
        · rfl
        · -- another entry of the name would repeat the first key
          exact absurd (List.mem_map.2 ⟨e, he, hname.trans hk.symm⟩) hfirst
    · rw [if_neg hk, ih hrest]
      constructor
      · rintro ⟨e, he, hname, hvalue⟩
        exact ⟨e, List.mem_cons_of_mem _ he, hname, hvalue⟩
      · rintro ⟨e, he, hname, hvalue⟩
        rcases List.mem_cons.1 he with rfl | he
        · exact absurd hname hk
        · exact ⟨e, he, hname, hvalue⟩

theorem find_eq_none_iff {es : Entries} {name : Text} :
    find? name es = none ↔ ∀ e ∈ es, e.1.name ≠ name := by
  induction es with
  | nil => simp [find?]
  | cons e es ih =>
    obtain ⟨k, v⟩ := e
    rw [find?]
    by_cases hk : k.name = name <;> simp [hk, ih]

/-- Among distinct keys, their order does not matter. -/
theorem find_perm {es es' : Entries} (hperm : es.Perm es') (h : Distinct es) (name : Text) :
    find? name es = find? name es' := by
  have h' : Distinct es' := (hperm.map _).nodup_iff.1 h
  refine Option.ext fun value => ?_
  rw [find_eq_some_iff h, find_eq_some_iff h']
  simp only [hperm.mem_iff]

end Entries

open Entries

/-! ## Building a document -/

/-- A change of entries that sets the value of one key. -/
def SetsOne (change : Entries → Option Entries) : Prop :=
  ∀ es es', change es = some es' → ∃ key value, es' = insert key value es

/-- Going down a path changes one value at the top. -/
theorem setsOne_descend {viaDots : Bool} {change : Entries → Option Entries}
    (h : SetsOne change) (path : List Key) : SetsOne (descend viaDots change path) := by
  intro es es' hchange
  cases path with
  | nil => exact h es es' hchange
  | cons k ks =>
    rw [descend] at hchange
    split at hchange
    · obtain ⟨inner, -, hinsert⟩ := Option.bind_eq_some_iff.1 hchange
      exact ⟨_, _, (Option.some.inj hinsert).symm⟩
    · split at hchange
      · cases hchange
      · obtain ⟨inner, -, hinsert⟩ := Option.bind_eq_some_iff.1 hchange
        exact ⟨_, _, (Option.some.inj hinsert).symm⟩
    · split at hchange
      · cases hchange
      · obtain ⟨inner, -, hinsert⟩ := Option.bind_eq_some_iff.1 hchange
        exact ⟨_, _, (Option.some.inj hinsert).symm⟩
    · cases hchange

theorem setsOne_inOpened {change : Entries → Option Entries} (h : SetsOne change)
    (path : List Key) : SetsOne (inOpened change path) := by
  intro es es' hchange
  cases path with
  | nil => exact h es es' hchange
  | cons k ks =>
    rw [inOpened] at hchange
    split at hchange
    · obtain ⟨inner, -, hinsert⟩ := Option.bind_eq_some_iff.1 hchange
      exact ⟨_, _, (Option.some.inj hinsert).symm⟩
    · obtain ⟨inner, -, hinsert⟩ := Option.bind_eq_some_iff.1 hchange
      exact ⟨_, _, (Option.some.inj hinsert).symm⟩
    · cases hchange

theorem setsOne_addPair (path : List Key) (value : Node) : SetsOne (addPair path value) := by
  unfold addPair
  split
  · intro es es' hchange
    cases hchange
  · refine setsOne_descend (fun es es' hchange => ?_) _
    split at hchange
    · cases hchange
    · exact ⟨_, _, (Option.some.inj hchange).symm⟩

theorem setsOne_openTable (path : List Key) (span : Span) : SetsOne (openTable path span) := by
  unfold openTable
  split
  · intro es es' hchange
    cases hchange
  · refine setsOne_descend (fun es es' hchange => ?_) _
    split at hchange
    · exact ⟨_, _, (Option.some.inj hchange).symm⟩
    · exact ⟨_, _, (Option.some.inj hchange).symm⟩
    · cases hchange

theorem setsOne_openElement (path : List Key) (span : Span) :
    SetsOne (openElement path span) := by
  unfold openElement
  split
  · intro es es' hchange
    cases hchange
  · refine setsOne_descend (fun es es' hchange => ?_) _
    split at hchange
    · exact ⟨_, _, (Option.some.inj hchange).symm⟩
    · exact ⟨_, _, (Option.some.inj hchange).symm⟩
    · cases hchange

/-! ## Reading a document -/

/-- A header sets one value at the top. -/
theorem insert_of_header {p p' : Progress} {t rest : Text} (h : header? p t = some (p', rest)) :
    ∃ key value, p'.entries = insert key value p.entries := by
  have hclose (path : List Key) (rest' : Text) {change : Entries → Option Entries}
      (hchange : SetsOne change)
      (hdone : ((change p.entries).bind fun entries =>
        some ((⟨entries, path⟩ : Progress), rest')) = some (p', rest)) :
      ∃ key value, p'.entries = insert key value p.entries := by
    obtain ⟨entries, hentries, hp⟩ := Option.bind_eq_some_iff.1 hdone
    have hentries' : entries = p'.entries :=
      congrArg (fun r : Progress × Text => r.1.entries) (Option.some.inj hp)
    rw [← hentries']
    exact hchange _ _ hentries
  simp only [header?, Option.bind_eq_bind, Option.bind_eq_some_iff] at h
  obtain ⟨⟨path, _⟩, -, _, -, h⟩ := h
  split at h
  · -- double brackets
    obtain ⟨_, -, h⟩ := Option.bind_eq_some_iff.1 h
    exact hclose path _ (setsOne_openElement path _) h
  · rw [Option.bind_some] at h
    exact hclose path _ (setsOne_openTable path _) h

/-- A pair sets one value at the top. -/
theorem insert_of_pair {p p' : Progress} {t rest : Text} (h : pair? p t = some (p', rest)) :
    ∃ key value, p'.entries = insert key value p.entries := by
  simp only [pair?, Option.bind_eq_bind, Option.bind_eq_some_iff] at h
  obtain ⟨⟨path, _⟩, -, _, -, ⟨value, _⟩, -, entries, hentries, hp⟩ := h
  have hentries' : entries = p'.entries :=
    congrArg (fun r : Progress × Text => r.1.entries) (Option.some.inj hp)
  rw [← hentries']
  exact setsOne_inOpened (setsOne_addPair path value) p.opened _ _ hentries

/-- Reading on keeps the keys at the top distinct. -/
theorem distinct_statements {fuel : Nat} {p : Progress} {t : Text} {es : Entries}
    (hp : Distinct p.entries) (h : statements? fuel p t = some es) : Distinct es := by
  induction fuel generalizing p t with
  | zero => cases h
  | succ fuel ih =>
    rw [statements?] at h
    split at h
    · exact Option.some.inj h ▸ hp
    · obtain ⟨⟨p', rest⟩, hheader, h⟩ := Option.bind_eq_some_iff.1 h
      obtain ⟨after, -, h⟩ := Option.bind_eq_some_iff.1 h
      obtain ⟨key, value, hinsert⟩ := insert_of_header hheader
      exact ih (hinsert ▸ distinct_insert hp key value) h
    · split at h
      · obtain ⟨after, -, h⟩ := Option.bind_eq_some_iff.1 h
        exact ih hp h
      · obtain ⟨⟨p', rest⟩, hpair, h⟩ := Option.bind_eq_some_iff.1 h
        obtain ⟨after, -, h⟩ := Option.bind_eq_some_iff.1 h
        obtain ⟨key, value, hinsert⟩ := insert_of_pair hpair
        exact ih (hinsert ▸ distinct_insert hp key value) h

/-- The keys of a document are distinct. -/
theorem distinct_read {t : Text} {es : Entries} (h : read? t = some es) : Distinct es :=
  distinct_statements distinct_nil h

end Toml

end FishCheck
