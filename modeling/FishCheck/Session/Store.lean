import FishCheck.Table
import FishCheck.Url.Basic

/-!
# The open documents

The editor opens, changes, saves and closes documents. The store keeps, for each open
document, the text, language and version that the editor last gave, and whether the
text has been saved since it last changed.

Main results:

- Theorems `get_opened` and `get_closed`: a document is there from its opening to its
  closing.
- Theorem `get_changed_of_ne`: a change of one document leaves the others alone.
-/

namespace FishCheck

/-- An open document. -/
structure Entry where
  text : Text
  language : Text
  version : Int
  /-- Whether the text was saved, or opened, after its last change. -/
  saved : Bool
deriving DecidableEq, Repr

/-- The open documents by their URL. -/
abbrev Store := Table Url Entry

namespace Store

/-- The editor opens a document; it counts as saved. -/
def opened (s : Store) (u : Url) (text language : Text) (version : Int) : Store :=
  s.set u ⟨text, language, version, true⟩

/-- The editor changes an open document; each of the texts is the whole document and the
last one counts. -/
def changed (s : Store) (u : Url) (texts : List Text) (version : Int) : Store :=
  match texts.getLast? with
  | none => s
  | some t => s.update u fun e => { e with text := t, version := version, saved := false }

/-- The editor saves an open document, perhaps telling its text. -/
def saved (s : Store) (u : Url) (text? : Option Text) : Store :=
  s.update u fun e => { e with text := text?.getD e.text, saved := true }

/-- The editor closes a document. -/
def closed (s : Store) (u : Url) : Store := s.erase u

theorem get_opened (s : Store) (u : Url) (text language : Text) (version : Int) (v : Url) :
    (s.opened u text language version).get? v =
      if v = u then some ⟨text, language, version, true⟩ else s.get? v :=
  Table.get_set ..

theorem get_closed (s : Store) (u v : Url) :
    (s.closed u).get? v = if v = u then none else s.get? v :=
  Table.get_erase ..

theorem get_changed_of_ne (s : Store) {u v : Url} (h : v ≠ u) (texts : List Text) (version : Int) :
    (s.changed u texts version).get? v = s.get? v := by
  unfold changed
  split
  · rfl
  · rw [Table.get_update, if_neg h]

end Store

end FishCheck
