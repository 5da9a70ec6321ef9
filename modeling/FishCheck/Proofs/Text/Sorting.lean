import FishCheck.Proofs.Ascending
import FishCheck.Text.Order
import FishCheck.Text.Utf8

/-!
# Sorted texts

Texts are compared by the code points of their characters.  This is a lawful order, and it is
the order of the bytes that encode the texts, so texts that are sorted by characters are
sorted wherever they are compared as bytes.

Main results:

- Theorem `compare_eq_compareLex`: texts are compared like words in a dictionary.
- Theorem `encode_lt_of_compare`: the order of texts is that of their bytes.
- Theorem `ascending_sortUnique`: sorting without repetitions gives an ascending list.
-/

namespace FishCheck

namespace Text

/-! ## The order is lawful -/

/-- Texts are compared like words in a dictionary. -/
theorem compare_eq_compareLex :
    compare = List.compareLex fun c d : Char => Ord.compare c.toNat d.toNat :=
  eq_compareLex rfl (fun _ _ => rfl) (fun _ _ => rfl) fun _ _ _ _ => rfl

/-- The numbers of characters are compared lawfully. -/
instance : Std.TransCmp fun c d : Char => Ord.compare c.toNat d.toNat where
  eq_swap := Std.OrientedOrd.eq_swap
  isLE_trans := Std.TransOrd.isLE_trans

instance : Std.LawfulEqCmp fun c d : Char => Ord.compare c.toNat d.toNat where
  compare_self := Std.ReflOrd.compare_self
  eq_of_compare h := Char.toNat_inj.1 (Nat.compare_eq_eq.1 h)

instance : Std.TransCmp compare := by
  rw [compare_eq_compareLex]
  infer_instance

instance : Std.LawfulEqCmp compare := by
  rw [compare_eq_compareLex]
  infer_instance

/-! ## The order of bytes -/

/-- The bytes of a character come before those of a greater one, whatever follows. -/
theorem encodeChar_append_lt {c d : Char} (h : c.toNat < d.toNat) (bs bs' : Bytes) :
    Utf8.encodeChar c ++ bs < Utf8.encodeChar d ++ bs' := by
  have hd : d.toNat < 0x110000 := by
    rcases d.valid with hlow | hhigh
    · exact Nat.lt_trans hlow (by decide)
    · exact hhigh.2
  simp only [Utf8.encodeChar]
  -- a longer encoding has a greater first byte; at one length the digits decide
  repeat' split
  all_goals
    simp (disch := omega) only [List.cons_append, List.nil_append, List.cons_lt_cons_iff,
      UInt8.lt_iff_toNat_lt, ← UInt8.toNat_inj, Utf8.toNat_ofNat_of_lt]
    omega

/-- The order of texts is that of their bytes. -/
theorem encode_lt_of_compare {s t : Text} (h : compare s t = .lt) :
    Utf8.encode s < Utf8.encode t := by
  induction s generalizing t with
  | nil =>
    cases t with
    | nil => cases h
    | cons d ds =>
      have hne : Utf8.encode (d :: ds) ≠ [] := by
        rw [← List.length_pos_iff, Utf8.length_encode, Utf8.size]
        exact Nat.add_pos_left (Utf8.sizeChar_pos d) _
      obtain ⟨b, bs, hbytes⟩ := List.exists_cons_of_ne_nil hne
      rw [hbytes]
      exact List.nil_lt_cons b bs
  | cons c cs ih =>
    cases t with
    | nil => cases h
    | cons d ds =>
      have hcs : Utf8.encode (c :: cs) = Utf8.encodeChar c ++ Utf8.encode cs := rfl
      have hds : Utf8.encode (d :: ds) = Utf8.encodeChar d ++ Utf8.encode ds := rfl
      rw [hcs, hds]
      rcases Ordering.then_eq_lt.1 h with hlt | ⟨heq, hrest⟩
      · exact encodeChar_append_lt (Nat.compare_eq_lt.1 hlt) _ _
      · rw [Char.toNat_inj.1 (Nat.compare_eq_eq.1 heq)]
        exact List.append_left_lt (ih hrest)

/-! ## Sorting -/

/-- Sorting without repetitions gives an ascending list. -/
theorem ascending_sortUnique (ts : List Text) : Ascending compare (sortUnique ts) :=
  ascending_eraseDups (pairwise_mergeSort_not_gt ts)

@[simp] theorem mem_sortUnique {t : Text} {ts : List Text} : t ∈ sortUnique ts ↔ t ∈ ts := by
  rw [sortUnique, List.mem_eraseDups, List.mem_mergeSort]

end Text

end FishCheck
