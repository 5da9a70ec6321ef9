import FishCheck.Url.File
import Mathlib.Data.List.Basic

/-!
# File URLs and the paths they name

The URL of an absolute path spells its components behind the root, each after a slash and
with its own slashes and percent signs escaped.  Reading the spelling back gives the
components, so two absolute paths have the same URL exactly when they have the same
components: spelling differences of the paths do not show, and nothing else is lost.

Main results:

- Theorem `readComponents_writeComponents`: a URL path spells its components back.
- Theorem `toText_of_ofPath`: how the URL of a path is written.
- Theorem `ofPath_eq_ofPath_iff`: paths share a URL exactly when they share components.
- Theorem `isAbsolute_of_toPath`: the local path of a URL starts at the root.
-/

namespace FishCheck

namespace Path

/-! ## Components and their bytes -/

/-- A component is spelled by the stretch it was read from. -/
theorem bytes_of_component {segment : Bytes} {c : Component} (h : component? segment = some c) :
    c.bytes = segment := by
  unfold component? at h
  split at h
  · cases h
  · split at h
    · rename_i hparent
      obtain rfl := Option.some.inj h
      exact hparent.symm
    · obtain rfl := Option.some.inj h
      rfl

/-- The components of a path behind its root. -/
def behindRoot (p : Path) : List Component := (splitSlashes p.bytes).filterMap component?

/-- An absolute path has the root as its first component. -/
theorem components_of_isAbsolute {p : Path} (h : p.isAbsolute = true) :
    p.components = .root :: p.behindRoot := by
  rw [components, leading, if_pos h]
  rfl

/-- Components behind the root are read back from their own bytes. -/
theorem component_bytes_of_mem {p : Path} {c : Component} (h : c ∈ p.behindRoot) :
    component? c.bytes = some c := by
  obtain ⟨segment, -, hc⟩ := List.mem_filterMap.1 h
  rw [bytes_of_component hc, hc]

/-- The text of an absolute path starts with a slash. -/
theorem head_of_isAbsolute {t : Text} (h : (ofText t).isAbsolute = true) : t.head? = some '/' := by
  cases t with
  | nil => exact absurd h (by decide)
  | cons c cs =>
    have hhead : (Utf8.encode (c :: cs)).head? = some slash := by
      simpa [isAbsolute, ofText] using h
    obtain ⟨rest, hbytes⟩ := List.head?_eq_some_iff.1 hhead
    -- both sides are decoded: the first byte alone is a character already
    have hdecoded : some c :: cs.map some = some '/' :: Utf8.unitsFrom .idle rest := by
      rw [← List.map_cons, ← Utf8.units_encode, hbytes]
      rfl
    have hc : c = '/' := by simpa using (List.cons.inj hdecoded).1
    rw [hc]
    rfl

end Path

namespace Percent

/-- An escape is made of a percent sign and two digits, and none of them is a slash. -/
theorem slash_ne_digit {n : Nat} (h : n < 16) : digit n ≠ '/' := by
  have hall : ∀ m : Fin 16, digit m.val ≠ '/' := by decide
  exact hall ⟨n, h⟩

/-- A component is written without slashes. -/
theorem slash_not_mem_encode (bs : Bytes) : '/' ∉ encode component bs := by
  intro h
  obtain ⟨b, -, hb⟩ := List.mem_flatMap.1 h
  have hlt := UInt8.toNat_lt b
  unfold encodeByte at hb
  split at hb
  · have hhigh := slash_ne_digit (show b.toNat / 16 < 16 by omega)
    have hlow := slash_ne_digit (show b.toNat % 16 < 16 by omega)
    simp [hhigh.symm, hlow.symm] at hb
  · rename_i hplain
    obtain ⟨hascii, hset⟩ := not_or.1 hplain
    have hslash : '/' = Char.ofNat b.toNat := List.mem_singleton.1 hb
    have hnumber : b.toNat = 0x2F := by
      have hvalid : b.toNat.isValidChar := Or.inl (by omega)
      rw [← Text.charToNat_ofNat hvalid, ← hslash]
      rfl
    have hbyte : b = 0x2F := UInt8.toNat_inj.1 hnumber
    exact hset (by rw [hbyte]; decide)

end Percent

namespace Url

/-! ## Segments of a URL path -/

/-- A segment ends at the first slash. -/
theorem segmentsOf_cons {s : Text} (h : '/' ∉ s) (t : Text) :
    segmentsOf false (s ++ '/' :: t) = s :: segmentsOf false t := by
  induction s with
  | nil => simp [segmentsOf, isSeparator]
  | cons c cs ih =>
    rw [List.mem_cons, not_or] at h
    have hc : isSeparator false c = false := by
      simp [isSeparator, Ne.symm h.1]
    rw [List.cons_append, segmentsOf, hc, ih h.2]
    rfl

/-- Without a slash there is one segment. -/
theorem segmentsOf_single {s : Text} (h : '/' ∉ s) : segmentsOf false s = [s] := by
  induction s with
  | nil => rfl
  | cons c cs ih =>
    rw [List.mem_cons, not_or] at h
    have hc : isSeparator false c = false := by
      simp [isSeparator, Ne.symm h.1]
    rw [segmentsOf, hc, ih h.2]
    rfl

/-- A path of segments is cut into those segments. -/
theorem segmentsOf_writePath {segments : List Text} (hne : segments ≠ [])
    (h : ∀ s ∈ segments, '/' ∉ s) :
    segmentsOf false ((writePath segments).drop 1) = segments := by
  induction segments with
  | nil => exact absurd rfl hne
  | cons s rest ih =>
    have hs := h s List.mem_cons_self
    cases rest with
    | nil => simpa [writePath] using segmentsOf_single hs
    | cons r rs =>
      have hrest := ih (List.cons_ne_nil r rs) fun t ht => h t (List.mem_cons_of_mem s ht)
      have hcut : (writePath (s :: r :: rs)).drop 1 =
          s ++ '/' :: (writePath (r :: rs)).drop 1 := by
        simp [writePath]
      rw [hcut, segmentsOf_cons hs, hrest]

/-! ## Components of a URL path -/

/-- The components that a URL path spells. -/
def readComponents (path : Text) : List Path.Component :=
  (segmentsOf false (path.drop 1)).filterMap fun s => Path.component? (Percent.decode s)

/-- Components that are read back from their own bytes are read back from the path of a
URL that spells them. -/
theorem readComponents_writeComponents {cs : List Path.Component}
    (h : ∀ c ∈ cs, Path.component? c.bytes = some c) : readComponents (writeComponents cs) = cs := by
  cases cs with
  | nil => simp [readComponents, writeComponents, segmentsOf, Percent.decode, Path.component?]
  | cons c rest =>
    have hpath : writeComponents (c :: rest) =
        writePath ((c :: rest).map fun c => Percent.encode Percent.component c.bytes) := by
      simp [writeComponents, writePath, List.flatMap_map]
    have hsegments : segmentsOf false ((writeComponents (c :: rest)).drop 1) =
        (c :: rest).map fun c => Percent.encode Percent.component c.bytes := by
      rw [hpath]
      refine segmentsOf_writePath (by simp) fun s hs => ?_
      obtain ⟨c, -, rfl⟩ := List.mem_map.1 hs
      exact Percent.slash_not_mem_encode _
    have hpercent : Percent.component 0x25 = true := by decide
    have hread : ∀ d ∈ c :: rest,
        Path.component? (Percent.decode (Percent.encode Percent.component d.bytes)) = some d := by
      intro d hd
      rw [Percent.decode_encode hpercent, h d hd]
    calc readComponents (writeComponents (c :: rest))
      _ = (c :: rest).filterMap fun d =>
          Path.component? (Percent.decode (Percent.encode Percent.component d.bytes)) := by
        rw [readComponents, hsegments, List.filterMap_map]
        rfl
      _ = (c :: rest).filterMap some := List.filterMap_congr hread
      _ = c :: rest := List.filterMap_some

/-- The URL of an absolute path. -/
theorem ofPath_of_isAbsolute {p : Path} (h : p.isAbsolute = true) :
    ofPath? p = some ⟨"file", some ⟨[], [], []⟩, writeComponents p.behindRoot, none, none⟩ := by
  rw [ofPath?, if_pos h, Path.components_of_isAbsolute h]
  rfl

/-- The URL of a path is written as its scheme and its components. -/
theorem toText_of_ofPath {p : Path} {u : Url} (h : ofPath? p = some u) :
    p.isAbsolute = true ∧ u.toText = "file://".toList ++ writeComponents p.behindRoot := by
  cases hp : p.isAbsolute with
  | false =>
    rw [(ofPath_eq_none_iff p).2 hp] at h
    cases h
  | true =>
    rw [ofPath_of_isAbsolute hp] at h
    obtain rfl := Option.some.inj h
    refine ⟨rfl, ?_⟩
    simp [toText, introduced, Authority.toText]

/-- Two absolute paths have the same URL exactly when they have the same components. -/
theorem ofPath_eq_ofPath_iff {p q : Path} (hp : p.isAbsolute = true) (hq : q.isAbsolute = true) :
    ofPath? p = ofPath? q ↔ p.components = q.components := by
  have hread : ∀ r : Path, readComponents (writeComponents r.behindRoot) = r.behindRoot :=
    fun r => readComponents_writeComponents fun c hc => Path.component_bytes_of_mem hc
  rw [ofPath_of_isAbsolute hp, ofPath_of_isAbsolute hq, Path.components_of_isAbsolute hp,
    Path.components_of_isAbsolute hq]
  constructor
  · intro h
    have hpath : writeComponents p.behindRoot = writeComponents q.behindRoot := by
      simpa using h
    rw [← hread p, hpath, hread q]
  · intro h
    rw [(List.cons.inj h).2]

/-! ## Local paths -/

theorem segmentsOf_ne_nil (special : Bool) (t : Text) : segmentsOf special t ≠ [] := by
  induction t with
  | nil => simp [segmentsOf]
  | cons c cs ih =>
    unfold segmentsOf
    split
    · simp
    · cases h : segmentsOf special cs with
      | nil => exact absurd h ih
      | cons s ss => simp [Text.consPiece]

/-- The local path of a URL starts at the root. -/
theorem isAbsolute_of_toPath {u : Url} {p : Path} (h : u.toPath? = some p) :
    p.isAbsolute = true := by
  unfold toPath? at h
  split at h
  · obtain rfl := Option.some.inj h
    obtain ⟨s, rest, hsegments⟩ :=
      List.exists_cons_of_ne_nil (segmentsOf_ne_nil false (u.path.drop 1))
    rw [Path.isAbsolute, decodeSegments, hsegments]
    simp only [List.flatMap_cons, List.cons_append]
    split <;> rfl
  · cases h

end Url

end FishCheck
