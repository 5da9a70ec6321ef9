import FishCheck.Proofs.Session.Turns

/-!
# What the store holds

The store is changed event by event, and each event changes only some parts of an entry.
This module says what comes of that without the store: an entry is there from the last
opening of its document to the closing, and each of its parts is what the editor told last
about that part.

Main results:

- Theorem `get_run`: the events of a document alone decide what is stored for it.
- Theorem `follows_of_opened`: an entry that was opened and not closed holds what the
  editor told last.
- Theorem `store_follows_editor`: the store after any run, in terms of its events.
-/

namespace FishCheck

namespace Session

/-! ## What events tell -/

/-- Whether an event opens a document. -/
def Event.opens (u : Url) : Event → Bool
  | .opened v .. => v = u
  | _ => false

/-- Whether an event closes a document. -/
def Event.closes (u : Url) : Event → Bool
  | .closed v => v = u
  | _ => false

/-- Whether an event saves a document. -/
def Event.saves (u : Url) : Event → Bool
  | .saved v _ => v = u
  | _ => false

/-- Whether an event changes a document and brings at least one text. -/
def Event.alters (u : Url) : Event → Bool
  | .changed v texts _ => v = u && !texts.isEmpty
  | _ => false

/-- The text that an event after the opening tells of a document. -/
def Event.text? (u : Url) : Event → Option Text
  | .changed v texts _ => if v = u then texts.getLast? else none
  | .saved v text? => if v = u then text? else none
  | _ => none

/-- The version that an event after the opening tells of a document. -/
def Event.version? (u : Url) : Event → Option Int
  | .changed v texts version => if v = u && !texts.isEmpty then some version else none
  | _ => none

/-- The entry of a document holds what the editor told last, given how the document was
opened and the events since then. -/
structure Follows (u : Url) (text language : Text) (version : Int) (later : List Event)
    (e : Entry) : Prop where
  language : e.language = language
  text : e.text = (later.filterMap (Event.text? u)).getLastD text
  version : e.version = (later.filterMap (Event.version? u)).getLastD version
  /-- Every change was saved later. -/
  saved : e.saved = true ↔ ∀ before change after, later = before ++ change :: after →
    change.alters u = true → ∃ save ∈ after, save.saves u = true

/-! ## The events of one document -/

/-- What an event makes of the stored entry of a document. -/
def Event.touch (u : Url) (stored? : Option Entry) (e : Event) : Option Entry :=
  if e.edits u then e.rewrite stored? else stored?

/-- The events of a document alone decide what is stored for it. -/
theorem get_run (s : Session) (es : List Event) (u : Url) :
    (s.run es).1.documents.get? u = es.foldl (Event.touch u) (s.documents.get? u) := by
  induction es generalizing s with
  | nil => rfl
  | cons e es ih =>
    have hstep : (s.step e).1.documents.get? u = Event.touch u (s.documents.get? u) e :=
      Moment.get_after ⟨s, e⟩ u
    rw [run, List.foldl_cons, ← hstep]
    exact ih _

section Touch

variable {u : Url} {e : Event}

/-- Only an opening brings an entry. -/
theorem Event.touch_none (h : e.opens u = false) : e.touch u none = none := by
  unfold touch
  split
  · cases e with
    | opened v text language version => simp_all [opens, edits]
    | changed v texts version => simp only [rewrite]; split <;> rfl
    | _ => rfl
  · rfl

/-- Without an opening there is no entry. -/
theorem foldl_touch_none {es : List Event} (h : ∀ e ∈ es, e.opens u = false) :
    es.foldl (Event.touch u) none = none := by
  induction es with
  | nil => rfl
  | cons e es ih =>
    rw [List.foldl_cons, Event.touch_none (h e List.mem_cons_self)]
    exact ih fun e he => h e (List.mem_cons_of_mem _ he)

theorem Event.touch_opened (text language : Text) (version : Int) (stored? : Option Entry) :
    (Event.opened u text language version).touch u stored? =
      some ⟨text, language, version, true⟩ := by
  simp [touch, edits, rewrite]

theorem Event.touch_of_closes (h : e.closes u = true) (stored? : Option Entry) :
    e.touch u stored? = none := by
  cases e with
  | closed v => simp_all [touch, edits, closes, rewrite]
  | _ => cases h

/-- A document is absent once it was closed, until it is opened again. -/
theorem foldl_touch_of_closes {later : List Event} (hopens : ∀ e ∈ later, e.opens u = false)
    (hcloses : ∃ e ∈ later, e.closes u = true) (stored? : Option Entry) :
    later.foldl (Event.touch u) stored? = none := by
  obtain ⟨e, he, hclose⟩ := hcloses
  obtain ⟨before, after, rfl⟩ := List.append_of_mem he
  rw [List.foldl_append, List.foldl_cons, Event.touch_of_closes hclose]
  exact foldl_touch_none fun e he => hopens e (by simp [he])

/-! ## An open document -/

/-- What one more event tells, if it tells anything, is what was told last. -/
theorem getLastD_filterMap_concat {α β : Type} (f : α → Option β) (xs : List α) (x : α) (d : β) :
    ((xs ++ [x]).filterMap f).getLastD d = (f x).getD ((xs.filterMap f).getLastD d) := by
  cases hx : f x <;> simp [hx]

/-- A change is saved later in a sequence that grows by a save, and in one that grows by
something else if it was saved before. -/
theorem forall_saved_concat_iff {later : List Event} :
    (∀ before change after, later ++ [e] = before ++ change :: after →
      change.alters u = true → ∃ save ∈ after, save.saves u = true) ↔
    e.alters u = false ∧
      (e.saves u = true ∨ ∀ before change after, later = before ++ change :: after →
        change.alters u = true → ∃ save ∈ after, save.saves u = true) := by
  constructor
  · intro h
    have hlast : e.alters u = false := by
      rw [Bool.eq_false_iff]
      intro halters
      obtain ⟨save, hsave, -⟩ := h later e [] rfl halters
      cases hsave
    refine ⟨hlast, or_iff_not_imp_left.2 fun hsaves before change after hlater halters => ?_⟩
    obtain ⟨save, hsave, hsaved⟩ := h before change (after ++ [e]) (by simp [hlater]) halters
    rcases List.mem_append.1 hsave with hsave | hsave
    · exact ⟨save, hsave, hsaved⟩
    · rw [List.mem_singleton.1 hsave] at hsaved
      exact absurd hsaved hsaves
  · rintro ⟨hlast, hsaved⟩ before change after hlater halters
    rcases List.eq_nil_or_concat after with rfl | ⟨after, last, rfl⟩
    · obtain rfl : e = change := List.singleton_inj.1 (List.append_inj' hlater rfl).2
      rw [hlast] at halters
      cases halters
    · rw [List.concat_eq_append, ← List.cons_append, ← List.append_assoc] at hlater
      obtain ⟨hinit, hend⟩ := List.append_inj' hlater rfl
      obtain rfl : e = last := List.singleton_inj.1 hend
      rcases hsaved with hsaves | hsaved
      · exact ⟨e, by simp, hsaves⟩
      · obtain ⟨save, hsave, hsaved⟩ := hsaved before change after hinit halters
        exact ⟨save, by simp [hsave], hsaved⟩

/-- One more event keeps an entry up with what the editor tells. -/
theorem Follows.touch {text language : Text} {version : Int} {later : List Event} {entry : Entry}
    (h : Follows u text language version later entry) (hopens : e.opens u = false)
    (hcloses : e.closes u = false) :
    ∃ entry', e.touch u (some entry) = some entry' ∧
      Follows u text language version (later ++ [e]) entry' := by
  -- an event that tells nothing of the document leaves the entry as it is
  have hquiet (htouch : e.touch u (some entry) = some entry) (htext : e.text? u = none)
      (hversion : e.version? u = none) (halters : e.alters u = false)
      (hsaves : e.saves u = false) :
      ∃ entry', e.touch u (some entry) = some entry' ∧
        Follows u text language version (later ++ [e]) entry' := by
    refine ⟨entry, htouch, h.language, ?_, ?_, ?_⟩
    · rw [getLastD_filterMap_concat, htext, Option.getD_none, h.text]
    · rw [getLastD_filterMap_concat, hversion, Option.getD_none, h.version]
    · rw [forall_saved_concat_iff, h.saved]
      simp [halters, hsaves]
  cases e with
  | opened v vtext vlanguage vversion =>
    have hv : ¬ v = u := by simpa [Event.opens] using hopens
    exact hquiet (by simp [Event.touch, Event.edits, hv]) rfl rfl rfl rfl
  | closed v =>
    have hv : ¬ v = u := by simpa [Event.closes] using hcloses
    exact hquiet (by simp [Event.touch, Event.edits, hv]) rfl rfl rfl rfl
  | changed v texts vversion =>
    by_cases hv : v = u
    · subst hv
      cases hlast : texts.getLast? with
      | none =>
        have htexts : texts = [] := List.getLast?_eq_none_iff.1 hlast
        exact hquiet (by simp [Event.touch, Event.edits, Event.rewrite, hlast])
          (by simp [Event.text?, hlast]) (by simp [Event.version?, htexts])
          (by simp [Event.alters, htexts]) rfl
      | some t =>
        have htexts : texts ≠ [] := by rintro rfl; cases hlast
        refine ⟨{ entry with text := t, version := vversion, saved := false },
          by simp [Event.touch, Event.edits, Event.rewrite, hlast], h.language, ?_, ?_, ?_⟩
        · simp [Event.text?, hlast]
        · simp [Event.version?, htexts]
        · rw [forall_saved_concat_iff]
          simp [Event.alters, htexts]
    · exact hquiet (by simp [Event.touch, Event.edits, hv]) (by simp [Event.text?, hv])
        (by simp [Event.version?, hv]) (by simp [Event.alters, hv]) rfl
  | saved v text? =>
    by_cases hv : v = u
    · subst hv
      refine ⟨{ entry with text := text?.getD entry.text, saved := true },
        by simp [Event.touch, Event.edits, Event.rewrite], h.language, ?_, ?_, ?_⟩
      · simp [Event.text?, h.text]
      · simp [Event.version?, h.version]
      · rw [forall_saved_concat_iff]
        simp [Event.alters, Event.saves]
    · exact hquiet (by simp [Event.touch, Event.edits, hv]) (by simp [Event.text?, hv])
        rfl rfl (by simp [Event.saves, hv])
  | _ => exact hquiet rfl rfl rfl rfl rfl

/-- An entry that was opened and not closed holds what the editor told last. -/
theorem follows_of_opened {later : List Event} (text language : Text) (version : Int)
    (hlater : ∀ e ∈ later, e.opens u = false ∧ e.closes u = false) :
    ∃ entry, later.foldl (Event.touch u) (some ⟨text, language, version, true⟩) = some entry ∧
      Follows u text language version later entry := by
  induction later using List.reverseRecOn with
  | nil => exact ⟨_, rfl, rfl, rfl, rfl, by simp⟩
  | append_singleton later e ih =>
    obtain ⟨entry, hentry, hfollows⟩ := ih fun e he => hlater e (by simp [he])
    obtain ⟨hopens, hcloses⟩ := hlater e (by simp)
    obtain ⟨entry', htouch, hfollows'⟩ := hfollows.touch hopens hcloses
    exact ⟨entry', by simp [hentry, htouch], hfollows'⟩

end Touch

/-! ## The store after a run -/

/-- Among the openings of a document, if there are any, one is the last. -/
theorem exists_last_opening {u : Url} {es : List Event} (h : ∃ e ∈ es, e.opens u = true) :
    ∃ before text language version later, es = before ++ .opened u text language version :: later ∧
      ∀ e ∈ later, e.opens u = false := by
  induction es using List.reverseRecOn with
  | nil => simp at h
  | append_singleton es e ih =>
    cases hopens : e.opens u with
    | true =>
      cases e with
      | opened v text language version =>
        obtain rfl : v = u := by simpa [Event.opens] using hopens
        exact ⟨es, text, language, version, [], rfl, by simp⟩
      | _ => cases hopens
    | false =>
      obtain ⟨before, text, language, version, later, rfl, hlater⟩ := ih (by simpa [hopens] using h)
      refine ⟨before, text, language, version, later ++ [e], by simp, fun e' he' => ?_⟩
      rcases List.mem_append.1 he' with he' | he'
      · exact hlater e' he'
      · rwa [List.mem_singleton.1 he']

/-- An event that is about no open document, and opens none, changes no entry. -/
theorem get_step_of_unopened {s : Session} {e : Event}
    (h : ∀ v, e.edits v = true → e.opens v = false ∧ s.documents.get? v = none) (w : Url) :
    (s.step e).1.documents.get? w = s.documents.get? w := by
  have hstep : (s.step e).1.documents.get? w = e.touch w (s.documents.get? w) :=
    Moment.get_after ⟨s, e⟩ w
  cases hedits : e.edits w with
  | true =>
    obtain ⟨hopens, hnone⟩ := h w hedits
    rw [hstep, hnone, Event.touch_none hopens]
  | false => simp [hstep, Event.touch, hedits]

/-- After every run of a session, a document has no entry exactly if it was never opened or
was closed after its last opening; otherwise its entry holds what the editor told last.
Events of documents that are not open, ends of runs and requests for formatting change no
entry. -/
theorem store_follows_editor (settings : Settings) (root : Option Path) (version : Option Version)
    (home : Option Path) (es : List Event) (u : Url) :
    let stored? := ((justSetUp settings root version home).run es).1.documents.get? u
    (stored? = none ↔
      (∀ e ∈ es, e.opens u = false) ∨
      ∃ before opening later, es = before ++ opening :: later ∧ opening.opens u = true ∧
        (∀ e ∈ later, e.opens u = false) ∧ ∃ e ∈ later, e.closes u = true) ∧
    (∀ before text language version later,
      es = before ++ .opened u text language version :: later →
      (∀ e ∈ later, e.opens u = false ∧ e.closes u = false) →
      ∃ entry, stored? = some entry ∧ Follows u text language version later entry) ∧
    (∀ before e after, es = before ++ e :: after →
      let s := ((justSetUp settings root version home).run before).1
      (∀ v, e.edits v = true → e.opens v = false ∧ s.documents.get? v = none) →
      ∀ w, (s.step e).1.documents.get? w = s.documents.get? w) := by
  have hrun : ∀ es, ((justSetUp settings root version home).run es).1.documents.get? u =
      es.foldl (Event.touch u) none := fun es => get_run _ es u
  have hpresent : ∀ before text language version later,
      es = before ++ .opened u text language version :: later →
      (∀ e ∈ later, e.opens u = false ∧ e.closes u = false) →
      ∃ entry, es.foldl (Event.touch u) none = some entry ∧
        Follows u text language version later entry := by
    rintro before text language version later rfl hlater
    rw [List.foldl_append, List.foldl_cons, Event.touch_opened]
    exact follows_of_opened text language version hlater
  simp only [hrun]
  refine ⟨⟨fun hnone => or_iff_not_imp_left.2 fun hopened => ?_, ?_⟩, hpresent,
    fun before e after _ => get_step_of_unopened⟩
  · have hopening : ∃ e ∈ es, e.opens u = true := by simpa using hopened
    obtain ⟨before, text, language, version, later, hes, hlater⟩ := exists_last_opening hopening
    refine ⟨before, _, later, hes, by simp [Event.opens], hlater, ?_⟩
    by_contra hopen
    obtain ⟨entry, hentry, -⟩ := hpresent before text language version later hes
      fun e he => ⟨hlater e he, by simpa using fun hcloses => hopen ⟨e, he, hcloses⟩⟩
    rw [hnone] at hentry
    cases hentry
  · rintro (hnever | ⟨before, opening, later, rfl, -, hlater, hclosed⟩)
    · exact foldl_touch_none hnever
    · rw [List.foldl_append, List.foldl_cons]
      exact foldl_touch_of_closes hlater hclosed _

/-- A document that is opened again starts anew; a save brings a text, and of a change the
last text counts. -/
theorem store_follows_editor_reopened :
    let later : List Event :=
      [.saved sampleUrl (some "d"), .checked 1 (.ok ⟨0, [], []⟩),
        .changed sampleUrl ["e", "f"] 7, .formatRequested (.number 1) sampleUrl none,
        .changed sampleUrl [] 8]
    let es : List Event := [.opened sampleUrl "a" "sh" 1, .changed sampleUrl ["b"] 2,
      .closed sampleUrl, .opened sampleUrl "c" "fish" 5] ++ later
    (∀ e ∈ later, e.opens sampleUrl = false ∧ e.closes sampleUrl = false) ∧
      ∃ entry, ((justSetUp {} none none none).run es).1.documents.get? sampleUrl = some entry ∧
        Follows sampleUrl "c" "fish" 5 later entry ∧
        entry.text = "f" ∧ entry.language = "fish" ∧ entry.version = 7 := by
  intro later es
  have hlater : ∀ e ∈ later, e.opens sampleUrl = false ∧ e.closes sampleUrl = false := by
    decide +kernel
  obtain ⟨-, hpresent, -⟩ := store_follows_editor {} none none none es sampleUrl
  obtain ⟨entry, hentry, hfollows⟩ := hpresent
    [.opened sampleUrl "a" "sh" 1, .changed sampleUrl ["b"] 2, .closed sampleUrl]
    "c" "fish" 5 later rfl hlater
  have htext : (later.filterMap (Event.text? sampleUrl)).getLastD "c" = "f" := by decide +kernel
  have hversion : (later.filterMap (Event.version? sampleUrl)).getLastD 5 = 7 := by
    decide +kernel
  exact ⟨hlater, entry, hentry, hfollows, hfollows.text.trans htext, hfollows.language,
    hfollows.version.trans hversion⟩

end Session

end FishCheck
