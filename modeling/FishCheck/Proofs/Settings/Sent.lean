import FishCheck.Proofs.Settings.Fields
import FishCheck.Session.Activation

/-!
# What an editor sends

The options of an editor are members with names, and among members of one name the last one
counts.  They are taken as a whole or not at all: each member whose name means something has to
be null or to fit, and then each setting is what its own member says, whatever the others say.

Main results:

- Theorem `toOption_readMembers`: members are read when all of them fit, and each for itself.
- Theorem `toOption_read`: so are options.
- Theorem `Activation.optionsOf_eq`: what a session is set up with of what the editor sends.
-/

namespace FishCheck

/-! ## Values -/

namespace Setting

/-- The name under which an editor sends a setting. -/
def editorName : Setting → Text
  | .checker => "checker"
  | .formatter => "formatter"
  | .formatterArgs => "formatterArgs"
  | .timeout => "timeout"
  | .enableLinting => "enableLinting"
  | .enableFormatting => "enableFormatting"

/-- The value that a JSON value gives a setting, if it fits. -/
def ofJson? : (k : Setting) → Json → Option k.Value
  | .checker | .formatter => Json.text?
  | .formatterArgs => fun j => j.items?.bind fun items => items.mapM Json.text?
  | .timeout => fun j => j.int?.bind fun i => if 0 ≤ i then some i.toNat else none
  | .enableLinting | .enableFormatting => Json.bool?

theorem editorName_injective {j k : Setting} (h : j.editorName = k.editorName) : j = k := by
  revert h
  cases j <;> cases k <;> decide

theorem ofJson_null (k : Setting) : k.ofJson? .null = none := by
  cases k <;> rfl

end Setting

namespace EditorOptions

/-- The name under which an editor sends the path of a settings file. -/
def pathName : Text := "configPath"

theorem editorName_ne_pathName (k : Setting) : k.editorName ≠ pathName := by
  cases k <;> decide

/-- A value that may be null. -/
def nullOr {α : Type} (read : Json → Option α) : Json → Option (Option α)
  | .null => some none
  | j => (read j).map some

/-- What was read is what the value says. -/
theorem eq_of_nullOr {α : Type} {read : Json → Option α} (hnull : read .null = none) {j : Json}
    {v : Option α} (h : nullOr read j = some v) : read j = v := by
  unfold nullOr at h
  split at h
  · rw [hnull, ← Option.some.inj h]
  · obtain ⟨a, ha, rfl⟩ := Option.map_eq_some_iff.1 h
    exact ha

theorem toOption_readString (j : Json) : (readString j).toOption = j.text? := by
  cases j <;> rfl

theorem toOption_readTruth (j : Json) : (readTruth j).toOption = j.bool? := by
  cases j <;> rfl

theorem toOption_readWhole (j : Json) :
    (readWhole j).toOption = Setting.ofJson? .timeout j := by
  cases j with
  | int i =>
    simp only [readWhole, Setting.ofJson?, Json.int?, Option.bind_some]
    split <;> rfl
  | null | bool | real | str | arr | obj => rfl

theorem toOption_readStrings (j : Json) :
    (readStrings j).toOption = Setting.ofJson? .formatterArgs j := by
  cases j with
  | arr items => exact toOption_mapM toOption_readString items
  | null | bool | int | real | str | obj => rfl

theorem toOption_optional {α : Type} {read : Json → Except Problem α} {read' : Json → Option α}
    (h : ∀ j, (read j).toOption = read' j) (j : Json) :
    (optional read j).toOption = nullOr read' j := by
  have hmap : ((read j).map some).toOption = (read' j).map some := by
    rw [toOption_map, h]
  cases j <;> first | rfl | exact hmap

/-! ## Members -/

/-- Whether a member is null or fits, if its name means something. -/
def memberFits (m : Text × Json) : Bool :=
  (m.1 != pathName || (nullOr Json.text? m.2).isSome) &&
    Setting.all.all fun k => m.1 != k.editorName || (nullOr k.ofJson? m.2).isSome

/-- What members say; the last one of a name counts. -/
def ofMembers (members : List (Text × Json)) : EditorOptions where
  configPath := (Json.lookup pathName members.reverse).bind Json.text?
  layer := .ofGet fun k => (Json.lookup k.editorName members.reverse).bind k.ofJson?

theorem layer_ofMembers (members : List (Text × Json)) : (ofMembers members).layer =
    .ofGet fun k => (Json.lookup k.editorName members.reverse).bind k.ofJson? :=
  rfl

theorem memberFits_setting {m : Text × Json} {k : Setting} (h : m.1 = k.editorName) :
    memberFits m = (nullOr k.ofJson? m.2).isSome := by
  have hpath : (m.1 != pathName) = true := by
    rw [h]
    exact bne_iff_ne.2 (editorName_ne_pathName k)
  rw [memberFits, hpath, Bool.true_or, Bool.true_and, Bool.eq_iff_iff, List.all_eq_true]
  constructor
  · intro hall
    simpa [h] using hall k k.mem_all
  · intro hfits j _
    by_cases hj : j = k
    · subst hj
      rw [hfits, Bool.or_true]
    · have hname : (m.1 != j.editorName) = true := by
        rw [h]
        exact bne_iff_ne.2 fun heq => hj (Setting.editorName_injective heq).symm
      rw [hname, Bool.true_or]

theorem memberFits_path {m : Text × Json} (h : m.1 = pathName) :
    memberFits m = (nullOr Json.text? m.2).isSome := by
  have hall : (Setting.all.all fun k =>
      m.1 != k.editorName || (nullOr k.ofJson? m.2).isSome) = true := by
    refine List.all_eq_true.2 fun k _ => ?_
    rw [h, bne_iff_ne.2 (editorName_ne_pathName k).symm, Bool.true_or]
  rw [memberFits, hall, Bool.and_true, h, bne_self_eq_false, Bool.false_or]

theorem memberFits_other {m : Text × Json} (hpath : m.1 ≠ pathName)
    (hsettings : ∀ k : Setting, m.1 ≠ k.editorName) : memberFits m = true := by
  rw [memberFits, bne_iff_ne.2 hpath, Bool.true_or, Bool.true_and]
  refine List.all_eq_true.2 fun k _ => ?_
  rw [bne_iff_ne.2 (hsettings k), Bool.true_or]

/-- Reading the member of a setting. -/
theorem toOption_readMember_setting (o : EditorOptions) (k : Setting) (value : Json) :
    (readMember o k.editorName value).toOption =
      (nullOr k.ofJson? value).map fun v => { o with layer := o.layer.put k v } := by
  have hstring := toOption_optional toOption_readString value
  have hstrings := toOption_optional toOption_readStrings value
  have hwhole := toOption_optional toOption_readWhole value
  have htruth := toOption_optional toOption_readTruth value
  cases k <;>
    simp +decide only [readMember, ↓reduceIte, toOption_map, hstring, hstrings, hwhole, htruth] <;>
    rfl

/-- Reading the member with the path of a settings file. -/
theorem toOption_readMember_path (o : EditorOptions) (value : Json) :
    (readMember o pathName value).toOption =
      (nullOr Json.text? value).map fun v => { o with configPath := v } := by
  have hread : readMember o pathName value =
      (optional readString value).map fun v => { o with configPath := v } :=
    if_pos rfl
  rw [hread, toOption_map, toOption_optional toOption_readString value]

/-- A member whose name means nothing is ignored. -/
theorem readMember_other (o : EditorOptions) {name : Text} (value : Json)
    (hpath : name ≠ pathName) (hsettings : ∀ k : Setting, name ≠ k.editorName) :
    readMember o name value = .ok o := by
  refine (if_neg hpath).trans ((if_neg (hsettings .checker)).trans ?_)
  refine (if_neg (hsettings .formatter)).trans ((if_neg (hsettings .formatterArgs)).trans ?_)
  refine (if_neg (hsettings .timeout)).trans ((if_neg (hsettings .enableLinting)).trans ?_)
  exact if_neg (hsettings .enableFormatting)

theorem lookup_cons (m : Text × Json) (members : List (Text × Json)) (name : Text) :
    Json.lookup name (m :: members) =
      if m.1 = name then some m.2 else Json.lookup name members :=
  rfl

/-- One more member is read on top of those before it. -/
theorem toOption_readMember (members : List (Text × Json)) (m : Text × Json) :
    (readMember (ofMembers members) m.1 m.2).toOption =
      if memberFits m then some (ofMembers (members ++ [m])) else none := by
  have hreverse : (members ++ [m]).reverse = m :: members.reverse := by simp
  by_cases hpath : m.1 = pathName
  · rw [hpath, toOption_readMember_path, memberFits_path hpath]
    cases hvalue : nullOr Json.text? m.2 with
    | none => rfl
    | some v =>
      have htext : m.2.text? = v := eq_of_nullOr rfl hvalue
      simp [ofMembers, hreverse, lookup_cons, hpath, htext,
        (editorName_ne_pathName _).symm]
  · by_cases hsetting : ∃ k : Setting, m.1 = k.editorName
    · obtain ⟨k, hk⟩ := hsetting
      rw [hk, toOption_readMember_setting, memberFits_setting hk]
      cases hvalue : nullOr k.ofJson? m.2 with
      | none => rfl
      | some v =>
        have hfits : k.ofJson? m.2 = v := eq_of_nullOr k.ofJson_null hvalue
        have hlayer : (ofMembers members).layer.put k v = (ofMembers (members ++ [m])).layer := by
          rw [layer_ofMembers (members ++ [m])]
          refine Layer.put_eq_ofGet ?_ fun j hj => ?_
          · rw [hreverse, lookup_cons, if_pos hk, Option.bind_some, hfits]
          · have hname : m.1 ≠ j.editorName := fun h =>
              hj (Setting.editorName_injective (hk.symm.trans h)).symm
            rw [hreverse, lookup_cons, if_neg hname, layer_ofMembers, Layer.get_ofGet]
        have hconfig : (ofMembers members).configPath = (ofMembers (members ++ [m])).configPath := by
          simp only [ofMembers, hreverse, lookup_cons, if_neg hpath]
        simp only [Option.map_some, hlayer, hconfig, Option.isSome_some, if_true]
    · have hnames : ∀ k : Setting, m.1 ≠ k.editorName := fun k h => hsetting ⟨k, h⟩
      have hsame : ofMembers (members ++ [m]) = ofMembers members := by
        simp only [ofMembers, hreverse, lookup_cons, if_neg hpath, if_neg (hnames _)]
      rw [readMember_other _ _ hpath hnames, memberFits_other hpath hnames, hsame]
      rfl

/-- Members are read when all of them fit, and each for itself. -/
theorem toOption_readMembers (members : List (Text × Json)) :
    (readMembers members).toOption =
      if members.all memberFits then some (ofMembers members) else none := by
  exact toOption_foldlM ofMembers (fun _ => True) (fun _ _ h => h)
    (fun members m _ => toOption_readMember members m) trivial

/-! ## Options -/

/-- The members that a value gives: those of an object, or at most as many items as there are
names, in the order of the names. -/
def membersOf? : Json → Option (List (Text × Json))
  | .obj members => some members
  | .arr items => if items.length ≤ names.length then some (names.zip items) else none
  | _ => none

/-- The members of options that can be used; none when anything about the options is wrong. -/
def usable? (j : Json) : Option (List (Text × Json)) :=
  (membersOf? j).filter fun members => members.all memberFits

/-- Options are read when they can be used, and each member for itself. -/
theorem toOption_read (j : Json) : (read j).toOption = (usable? j).map ofMembers := by
  have hmembers (members : List (Text × Json)) : (readMembers members).toOption =
      ((some members).filter fun members => members.all memberFits).map ofMembers := by
    rw [toOption_readMembers, Option.filter_some]
    split <;> rfl
  cases j with
  | obj members => exact hmembers members
  | arr items =>
    have hread : (read (.arr items)).toOption = (readMembers (names.zip items)).toOption.bind
        fun o => if names.length < items.length then none else some o := by
      change ((readMembers (names.zip items)).bind fun o =>
        if names.length < items.length then .error (.tooMany items.length) else .ok o).toOption = _
      cases readMembers (names.zip items) with
      | error e => rfl
      | ok o =>
        simp only [Except.bind, Except.toOption, Option.bind_some]
        by_cases hlength : names.length < items.length <;> simp [hlength]
    rw [hread, hmembers, usable?, membersOf?]
    by_cases hlength : items.length ≤ names.length
    · simp [if_pos hlength, if_neg (Nat.not_lt.2 hlength)]
    · simp [if_neg hlength, if_pos (Nat.lt_of_not_le hlength)]
  | null | bool | int | real | str => rfl

/-- The members that count of what an editor sends: all of them, or none when anything about
them is wrong. -/
def membersOf (options : Option Json) : List (Text × Json) := (options.bind usable?).getD []

end EditorOptions

/-- What an editor says about a setting. -/
def Setting.sent? (k : Setting) (options : Option Json) : Option k.Value :=
  (Json.lookup k.editorName (EditorOptions.membersOf options).reverse).bind k.ofJson?

/-- The path of a settings file that an editor names. -/
def EditorOptions.sentPath? (options : Option Json) : Option Text :=
  (Json.lookup pathName (membersOf options).reverse).bind Json.text?

/-- What a session is set up with of what the editor sends. -/
theorem Activation.optionsOf_eq (p : Params.SetUp) :
    optionsOf p =
      { configPath := EditorOptions.sentPath? p.options
        layer := .ofGet fun k => k.sent? p.options } := by
  have hmembers : optionsOf p = EditorOptions.ofMembers (EditorOptions.membersOf p.options) := by
    unfold optionsOf EditorOptions.membersOf
    cases p.options with
    | none => rfl
    | some j =>
      dsimp only [Option.bind_some]
      rw [EditorOptions.toOption_read]
      cases EditorOptions.usable? j <;> rfl
  rw [hmembers]
  rfl

end FishCheck
