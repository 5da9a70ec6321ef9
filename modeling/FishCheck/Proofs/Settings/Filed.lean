import FishCheck.Proofs.Settings.Fields
import FishCheck.Proofs.Toml.Keys
import FishCheck.Settings.Source

/-!
# What a settings file says

A settings file is taken as a whole or not at all: it has to be there, be text, be well formed,
and each of its keys has to be that of a setting, with a value that fits.  Then each setting is
what stands with its own key, in whatever order the keys come and whatever the others say.

Main results:

- Theorem `toOption_readEntries`: entries are read when all of them fit, and each for itself.
- Theorem `Settings.toOption_load`: what a file gives, if it can be used.
-/

namespace FishCheck

/-! ## Values -/

namespace Toml.Node

/-- The text of a string. -/
def text? : Node → Option Text
  | .scalar _ (.string t) => some t
  | _ => none

/-- A truth value. -/
def truth? : Node → Option Bool
  | .scalar _ (.boolean b) => some b
  | _ => none

/-- A whole number of 64 bits. -/
def whole? : Node → Option Nat
  | .scalar _ (.integer i) =>
    if 0 ≤ i ∧ i ≤ 18446744073709551615 then some i.toNat else none
  | _ => none

/-- The texts of a list of strings. -/
def texts? : Node → Option (List Text)
  | .array _ items => items.mapM text?
  | .tables _ items => items.reverse.mapM text?
  | _ => none

end Toml.Node

namespace Setting

/-- The key of a setting in a file. -/
def fileKey : Setting → Text
  | .checker => "checker"
  | .formatter => "formatter"
  | .formatterArgs => "formatter-args"
  | .timeout => "timeout"
  | .enableLinting => "enable-linting"
  | .enableFormatting => "enable-formatting"

/-- The value that a TOML value gives a setting, if it fits. -/
def ofNode? : (k : Setting) → Toml.Node → Option k.Value
  | .checker | .formatter => Toml.Node.text?
  | .formatterArgs => Toml.Node.texts?
  | .timeout => Toml.Node.whole?
  | .enableLinting | .enableFormatting => Toml.Node.truth?

theorem fileKey_injective {j k : Setting} (h : j.fileKey = k.fileKey) : j = k := by
  revert h
  cases j <;> cases k <;> decide

end Setting

namespace SettingsFile

open Toml (Entries Key)

theorem toOption_readString (node : Toml.Node) : (readString node).toOption = node.text? := by
  cases node with
  | scalar span value => cases value <;> rfl
  | array | tables | table => rfl

theorem toOption_readTruth (node : Toml.Node) : (readTruth node).toOption = node.truth? := by
  cases node with
  | scalar span value => cases value <;> rfl
  | array | tables | table => rfl

theorem toOption_readWhole (node : Toml.Node) : (readWhole node).toOption = node.whole? := by
  cases node with
  | scalar span value =>
    cases value with
    | integer i =>
      simp only [readWhole, Toml.Node.whole?]
      by_cases hfits : 0 ≤ i ∧ i ≤ 18446744073709551615
      · rw [if_pos hfits, if_pos hfits]
        rfl
      · rw [if_neg hfits, if_neg hfits]
        split <;> rfl
    | string | float | boolean | dateTime => rfl
  | array | tables | table => rfl

theorem toOption_readStrings (node : Toml.Node) : (readStrings node).toOption = node.texts? := by
  cases node with
  | array span items => exact toOption_mapM toOption_readString items
  | tables span items => exact toOption_mapM toOption_readString items.reverse
  | scalar | table => rfl

/-! ## Entries -/

/-- Whether an entry has the key of a setting and a value that fits. -/
def entryFits (e : Key × Toml.Node) : Bool :=
  Setting.all.any fun k => e.1.name == k.fileKey && (k.ofNode? e.2).isSome

/-- What entries say. -/
def layerOf (es : Entries) : Layer := .ofGet fun k => (Entries.find? k.fileKey es).bind k.ofNode?

theorem entryFits_setting {e : Key × Toml.Node} {k : Setting} (h : e.1.name = k.fileKey) :
    entryFits e = (k.ofNode? e.2).isSome := by
  rw [entryFits, Bool.eq_iff_iff, List.any_eq_true]
  constructor
  · rintro ⟨j, -, hj⟩
    obtain ⟨hname, hfits⟩ := Bool.and_eq_true_iff.1 hj
    rw [Setting.fileKey_injective (h.symm.trans (beq_iff_eq.1 hname))]
    exact hfits
  · intro hfits
    exact ⟨k, k.mem_all, Bool.and_eq_true_iff.2 ⟨beq_iff_eq.2 h, hfits⟩⟩

theorem entryFits_other {e : Key × Toml.Node} (h : ∀ k : Setting, e.1.name ≠ k.fileKey) :
    entryFits e = false := by
  rw [entryFits, List.any_eq_false]
  intro k _
  rw [beq_eq_false_iff_ne.2 (h k), Bool.false_and]
  exact Bool.false_ne_true

/-- Reading the entry of a setting. -/
theorem toOption_readEntry_setting (l : Layer) {key : Key} {k : Setting}
    (h : key.name = k.fileKey) (value : Toml.Node) :
    (readEntry l key value).toOption = (k.ofNode? value).map fun v => l.put k (some v) := by
  have hstring := toOption_readString value
  have hstrings := toOption_readStrings value
  have hwhole := toOption_readWhole value
  have htruth := toOption_readTruth value
  cases k <;>
    simp +decide only [readEntry, h, ↓reduceIte, toOption_map, hstring, hstrings, hwhole,
      htruth] <;>
    rfl

/-- An entry with another key is an error. -/
theorem toOption_readEntry_other (l : Layer) {key : Key} (value : Toml.Node)
    (h : ∀ k : Setting, key.name ≠ k.fileKey) : (readEntry l key value).toOption = none := by
  have hunknown : readEntry l key value = .error (.unknownKey key.span key.name) := by
    refine (if_neg (h .checker)).trans ((if_neg (h .formatter)).trans ?_)
    refine (if_neg (h .formatterArgs)).trans ((if_neg (h .timeout)).trans ?_)
    exact (if_neg (h .enableLinting)).trans (if_neg (h .enableFormatting))
  rw [hunknown]
  rfl

theorem find_concat (es : Entries) (e : Key × Toml.Node) (name : Text) :
    Entries.find? name (es ++ [e]) =
      (Entries.find? name es).or (if e.1.name = name then some e.2 else none) := by
  induction es with
  | nil => rfl
  | cons first es ih =>
    obtain ⟨k, v⟩ := first
    rw [List.cons_append, Entries.find?, Entries.find?, ih]
    split <;> rfl

/-- One more entry, with a key of its own, is read on top of those before it. -/
theorem toOption_readEntry (es : Entries) (e : Key × Toml.Node) (h : Entries.Distinct (es ++ [e])) :
    (readEntry (layerOf es) e.1 e.2).toOption =
      if entryFits e then some (layerOf (es ++ [e])) else none := by
  by_cases hsetting : ∃ k : Setting, e.1.name = k.fileKey
  · obtain ⟨k, hk⟩ := hsetting
    have hnew : Entries.find? k.fileKey es = none := by
      refine Entries.find_eq_none_iff.2 fun e' he' hname => ?_
      rw [Entries.Distinct, List.map_append, List.nodup_append] at h
      exact h.2.2 _ (List.mem_map_of_mem he') _ (List.mem_map_of_mem (List.mem_singleton_self e))
        (hname.trans hk.symm)
    rw [toOption_readEntry_setting _ hk, entryFits_setting hk]
    cases hvalue : k.ofNode? e.2 with
    | none => rfl
    | some v =>
      have hlayer : (layerOf es).put k (some v) = layerOf (es ++ [e]) := by
        refine Layer.put_eq_ofGet ?_ fun j hj => ?_
        · rw [find_concat, hnew, if_pos hk, Option.none_or, Option.bind_some, hvalue]
        · have hname : e.1.name ≠ j.fileKey := fun heq =>
            hj (Setting.fileKey_injective (hk.symm.trans heq)).symm
          rw [find_concat, if_neg hname, Option.or_none, layerOf, Layer.get_ofGet]
      rw [Option.map_some, hlayer]
      rfl
  · have hnames : ∀ k : Setting, e.1.name ≠ k.fileKey := fun k hk => hsetting ⟨k, hk⟩
    rw [toOption_readEntry_other _ _ hnames, entryFits_other hnames]
    rfl

/-- Entries are read when all of them fit, and each for itself. -/
theorem toOption_readEntries {es : Entries} (h : Entries.Distinct es) :
    (readEntries es).toOption = if es.all entryFits then some (layerOf es) else none := by
  let sorted := es.mergeSort fun a b => Text.atMost a.1.name b.1.name
  have hperm : sorted.Perm es := List.mergeSort_perm es _
  have hsorted : Entries.Distinct sorted := (hperm.map _).nodup_iff.2 h
  have hread : (readEntries es).toOption =
      if sorted.all entryFits then some (layerOf sorted) else none := by
    refine toOption_foldlM layerOf Entries.Distinct (fun es e hes => ?_) toOption_readEntry hsorted
    rw [Entries.Distinct, List.map_append] at hes
    exact hes.of_append_left
  have hall : sorted.all entryFits = es.all entryFits := hperm.all_eq
  have hlayer : layerOf sorted = layerOf es := by
    simp only [layerOf, Entries.find_perm hperm hsorted]
  rw [hread, hall, hlayer]

/-! ## Files -/

/-- The entries of the file at a path, if it can be used: it is there, it is text and well
formed, and all its entries fit. -/
def entries? (files : FileView) (path : Path) : Option Entries :=
  if files.present path then
    (((files.readText path).toOption.bind Toml.read?).filter fun es => es.all entryFits)
  else none

/-- What the text of a file gives, if all its entries fit. -/
theorem toOption_read (source : Text) :
    (read source).toOption =
      ((Toml.read? source).filter fun es => es.all entryFits).map layerOf := by
  unfold read
  cases hsource : Toml.read? source with
  | none => rfl
  | some es =>
    dsimp only
    rw [toOption_readEntries (Toml.distinct_read hsource), Option.filter_some]
    split <;> rfl

end SettingsFile

/-- What the file at a path gives, if it can be used. -/
theorem Settings.toOption_load (files : FileView) (path : Path) :
    (load files path).toOption =
      (SettingsFile.entries? files path).map fun es =>
        ({} : Settings).apply (SettingsFile.layerOf es) := by
  unfold load SettingsFile.entries?
  split
  · cases files.readText path with
    | error cause => rfl
    | ok source =>
      have happly : (ofText source path).toOption =
          (SettingsFile.read source).toOption.map fun l => ({} : Settings).apply l := by
        unfold ofText
        cases SettingsFile.read source <;> rfl
      change (ofText source path).toOption = _
      rw [happly, SettingsFile.toOption_read, Option.map_map]
      rfl
  · rfl

end FishCheck
