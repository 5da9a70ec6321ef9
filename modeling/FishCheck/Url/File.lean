import FishCheck.Path
import FishCheck.Url.Basic

/-!
# File URLs

The URL of an absolute path writes each of its components, percent-encoded, after a
slash; the way back undoes the escapes byte by byte. A URL has a local path when its
path is made of segments and its host is this machine.

Main results:

- Theorem `ofPath_eq_none_iff`: exactly the relative paths have no URL.
-/

namespace FishCheck

namespace Url

/-! ## From a path -/

/-- The URL path of a list of components after the root. -/
def writeComponents (components : List Path.Component) : Text :=
  match components with
  | [] => "/"
  | _ => components.flatMap fun c => '/' :: Percent.encode Percent.component c.bytes

/-- The file URL of an absolute path. -/
def ofPath? (p : Path) : Option Url :=
  if p.isAbsolute then
    some ⟨"file", some ⟨[], [], []⟩, writeComponents (p.components.drop 1), none, none⟩
  else none

/-! ## To a path -/

/-- Whether a URL's host is this machine. -/
def isLocal (u : Url) : Bool :=
  match u.authority with
  | none => true
  | some a => a.host.isEmpty || a.host == "localhost"

/-- Whether a path ends in a letter and a colon or bar, as the root of a drive does. -/
def endsInDrive (bs : Bytes) : Bool :=
  match bs.reverse with
  | mark :: letter :: _ :: _ =>
    (mark == 0x3A || mark == 0x7C) && (Char.ofNat letter.toNat).isAlpha
  | _ => false

/-- The bytes that the segments of a URL path spell, each after a slash. The root of a
drive gets the slash it needs to name a directory. -/
def decodeSegments (path : Text) : Bytes :=
  let bytes := (segmentsOf false (path.drop 1)).flatMap fun s => Path.slash :: Percent.decode s
  if endsInDrive bytes then bytes ++ [Path.slash] else bytes

/-- The local path of a URL. -/
def toPath? (u : Url) : Option Path :=
  if u.path.head? = some '/' ∧ u.isLocal = true then some ⟨decodeSegments u.path⟩ else none

/-- Exactly the relative paths have no URL. -/
theorem ofPath_eq_none_iff (p : Path) : ofPath? p = none ↔ p.isAbsolute = false := by
  unfold ofPath?
  split <;> simp_all

end Url

end FishCheck
