import FishCheck.Settings.Basic
import Mathlib.Data.List.Basic
import Mathlib.Data.List.Induction

/-!
# The six settings

Settings and layers are records, and what is said about one of their fields is said about the
others in the same words.  This module names the fields, each with the type of its values, so
that it can be said once for all of them: a layer on top of settings decides each field alone.

Main results:

- Theorem `Settings.get_apply`: each setting is the layer's own if the layer has it, and
  otherwise the one below.
- Theorem `Layer.ext_get`: a layer is settled by what it has for each setting.
- Theorem `toOption_foldlM`: what reading item by item gives.
-/

namespace FishCheck

/-- One of the settings. -/
inductive Setting
  | checker
  | formatter
  | formatterArgs
  | timeout
  | enableLinting
  | enableFormatting
deriving DecidableEq, Repr

namespace Setting

/-- What the values of a setting are. -/
def Value : Setting → Type
  | .checker | .formatter => Text
  | .formatterArgs => List Text
  | .timeout => Nat
  | .enableLinting | .enableFormatting => Bool

instance : (k : Setting) → DecidableEq k.Value
  | .checker | .formatter => inferInstanceAs (DecidableEq Text)
  | .formatterArgs => inferInstanceAs (DecidableEq (List Text))
  | .timeout => inferInstanceAs (DecidableEq Nat)
  | .enableLinting | .enableFormatting => inferInstanceAs (DecidableEq Bool)

/-- All settings. -/
def all : List Setting :=
  [.checker, .formatter, .formatterArgs, .timeout, .enableLinting, .enableFormatting]

theorem mem_all (k : Setting) : k ∈ all := by
  cases k <;> decide

end Setting

namespace Settings

/-- The value of a setting. -/
def get (s : Settings) : (k : Setting) → k.Value
  | .checker => s.checker
  | .formatter => s.formatter
  | .formatterArgs => s.formatterArgs
  | .timeout => s.timeout
  | .enableLinting => s.enableLinting
  | .enableFormatting => s.enableFormatting

end Settings

namespace Layer

/-- What a layer has for a setting. -/
def get? (l : Layer) : (k : Setting) → Option k.Value
  | .checker => l.checker
  | .formatter => l.formatter
  | .formatterArgs => l.formatterArgs
  | .timeout => l.timeout
  | .enableLinting => l.enableLinting
  | .enableFormatting => l.enableFormatting

/-- The layer that has given things for the settings. -/
def ofGet (f : (k : Setting) → Option k.Value) : Layer where
  checker := f .checker
  formatter := f .formatter
  formatterArgs := f .formatterArgs
  timeout := f .timeout
  enableLinting := f .enableLinting
  enableFormatting := f .enableFormatting

/-- Changes what a layer has for one setting. -/
def put (l : Layer) : (k : Setting) → Option k.Value → Layer
  | .checker, v => { l with checker := v }
  | .formatter, v => { l with formatter := v }
  | .formatterArgs, v => { l with formatterArgs := v }
  | .timeout, v => { l with timeout := v }
  | .enableLinting, v => { l with enableLinting := v }
  | .enableFormatting, v => { l with enableFormatting := v }

@[simp] theorem get_ofGet (f : (k : Setting) → Option k.Value) (k : Setting) :
    (ofGet f).get? k = f k := by
  cases k <;> rfl

@[simp] theorem get_put_self (l : Layer) (k : Setting) (v : Option k.Value) :
    (l.put k v).get? k = v := by
  cases k <;> rfl

theorem get_put_of_ne (l : Layer) {j k : Setting} (h : j ≠ k) (v : Option k.Value) :
    (l.put k v).get? j = l.get? j := by
  cases j <;> cases k <;> first | rfl | exact absurd rfl h

/-- A layer is settled by what it has for each setting. -/
theorem ext_get {l l' : Layer} (h : ∀ k, l.get? k = l'.get? k) : l = l' := by
  cases l
  cases l'
  rw [mk.injEq]
  exact ⟨h .checker, h .formatter, h .formatterArgs, h .timeout, h .enableLinting,
    h .enableFormatting⟩

/-- A layer with one more thing for a setting. -/
theorem put_eq_ofGet {l : Layer} {k : Setting} {v : Option k.Value}
    {f : (k : Setting) → Option k.Value} (hk : f k = v) (h : ∀ j, j ≠ k → f j = l.get? j) :
    l.put k v = ofGet f := by
  refine ext_get fun j => ?_
  rw [get_ofGet]
  by_cases hj : j = k
  · subst hj
    rw [get_put_self, hk]
  · rw [get_put_of_ne l hj, h j hj]

end Layer

/-- The value that holds for a setting when nothing else is said. -/
def Setting.fallback (k : Setting) : k.Value := Settings.get {} k

/-- Each setting is the layer's own if the layer has it, and otherwise the one below. -/
theorem Settings.get_apply (s : Settings) (l : Layer) (k : Setting) :
    (s.apply l).get k = (l.get? k).getD (s.get k) := by
  cases k <;> rfl

/-! ## Reading item by item -/

section Reading

variable {α β σ ε : Type}

theorem toOption_map (r : Except ε α) (f : α → β) : (r.map f).toOption = r.toOption.map f := by
  cases r <;> rfl

/-- Items are read to a list when each of them is read. -/
theorem toOption_mapM {read : α → Except ε β} {read' : α → Option β}
    (h : ∀ a, (read a).toOption = read' a) (items : List α) :
    (items.mapM read).toOption = items.mapM read' := by
  induction items with
  | nil => rfl
  | cons item items ih =>
    rw [List.mapM_cons, List.mapM_cons, ← ih, ← h]
    cases read item with
    | error e => rfl
    | ok b => cases items.mapM read <;> rfl

/-- Reading item by item succeeds when every item fits, if one more item is read exactly when it
fits.  Something may be known of the items, as long as it is known of every beginning of them. -/
theorem toOption_foldlM {read : σ → α → Except ε σ} {fits : α → Bool} (state : List α → σ)
    (Known : List α → Prop) (hfront : ∀ items item, Known (items ++ [item]) → Known items)
    (hstep : ∀ items item, Known (items ++ [item]) → (read (state items) item).toOption =
      if fits item then some (state (items ++ [item])) else none)
    {items : List α} (hitems : Known items) :
    (items.foldlM read (state [])).toOption =
      if items.all fits then some (state items) else none := by
  induction items using List.reverseRecOn with
  | nil => rfl
  | append_singleton items item ih =>
    have hlast : ((items ++ [item]).foldlM read (state [])).toOption =
        (items.foldlM read (state [])).toOption.bind fun s => (read s item).toOption := by
      rw [List.foldlM_append]
      cases items.foldlM read (state []) with
      | error e => rfl
      | ok s =>
        change ([item].foldlM read s).toOption = (read s item).toOption
        rw [List.foldlM_cons]
        simp only [List.foldlM_nil, bind_pure]
    rw [hlast, ih (hfront items item hitems), List.all_append, List.all_cons, List.all_nil,
      Bool.and_true]
    by_cases hfits : items.all fits = true
    · rw [if_pos hfits, Option.bind_some, hstep items item hitems, hfits, Bool.true_and]
    · rw [if_neg hfits, Option.bind_none, Bool.eq_false_iff.2 hfits, Bool.false_and]
      rfl

end Reading

end FishCheck
