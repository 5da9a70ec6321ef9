import FishCheck.Proofs.Url.FilePaths

/-!
# The local path of a URL

A URL with a local path spells that path in escapes.  The path is read segment by segment,
but a slash ends every escape, so the bytes are those that the whole URL path decodes to;
only the root of a drive gets a slash at its end that the URL need not have.

Main results:

- Theorem `decode_append_slash`: decoding goes on afresh behind a slash.
- Theorem `decodeSegments_eq`: the segments of a URL path decode to what the path does.
- Theorem `toPath_eq_some_iff`: which URLs have a local path, and which path it is.
-/

namespace FishCheck

namespace Percent

/-! ## Escapes and slashes -/

/-- Two hexadecimal digits, as they stand behind the percent sign of an escape. -/
def StartsWithDigits (t : Text) : Prop :=
  ∃ a b rest, t = a :: b :: rest ∧ (digitValue? a).isSome ∧ (digitValue? b).isSome

/-- A percent sign and two digits are one byte. -/
theorem decode_escape {a b : Char} (ha : (digitValue? a).isSome) (hb : (digitValue? b).isSome) :
    ∃ byte, ∀ rest, decode ('%' :: a :: b :: rest) = byte :: decode rest := by
  obtain ⟨x, hx⟩ := Option.isSome_iff_exists.1 ha
  obtain ⟨y, hy⟩ := Option.isSome_iff_exists.1 hb
  exact ⟨UInt8.ofNat (16 * x + y), fun rest => by simp only [decode, hx, hy]⟩

/-- A percent sign that no two digits follow stands for itself. -/
theorem decode_percent {rest : Text} (h : ¬ StartsWithDigits rest) :
    decode ('%' :: rest) = 0x25 :: decode rest := by
  have hbyte : Utf8.encodeChar '%' = [0x25] := rfl
  match rest, h with
  | [], _ => simp [decode, hbyte]
  | [a], _ => simp [decode, hbyte]
  | a :: b :: rest', h =>
    rw [decode]
    cases ha : digitValue? a with
    | none => rfl
    | some x =>
      cases hb : digitValue? b with
      | none => rfl
      | some y => exact absurd ⟨a, b, rest', rfl, by rw [ha]; rfl, by rw [hb]; rfl⟩ h

/-- A slash is no digit, so it adds none to a text that does not start with two. -/
theorem startsWithDigits_of_append_slash {s t : Text} (h : StartsWithDigits (s ++ '/' :: t)) :
    StartsWithDigits s := by
  obtain ⟨a, b, rest, heq, ha, hb⟩ := h
  have hslash : digitValue? '/' = none := by decide
  cases s with
  | nil =>
    obtain rfl : '/' = a := (List.cons.inj heq).1
    rw [hslash] at ha
    cases ha
  | cons c s =>
    obtain ⟨rfl, htail⟩ := List.cons.inj heq
    cases s with
    | nil =>
      obtain rfl : '/' = b := (List.cons.inj htail).1
      rw [hslash] at hb
      cases hb
    | cons d s =>
      obtain ⟨rfl, -⟩ := List.cons.inj htail
      exact ⟨c, d, s, rfl, ha, hb⟩

/-- Decoding goes on afresh behind a slash. -/
theorem decode_append_slash (s t : Text) :
    decode (s ++ '/' :: t) = decode s ++ Path.slash :: decode t := by
  induction hlength : s.length using Nat.strongRecOn generalizing s with
  | ind length ih =>
    subst hlength
    cases s with
    | nil =>
      have hempty : decode [] = [] := by simp [decode]
      rw [hempty]
      exact decode_cons_ne (by decide) t
    | cons c s =>
      have hs : decode (s ++ '/' :: t) = decode s ++ Path.slash :: decode t :=
        ih s.length (Nat.lt_succ_self _) s rfl
      by_cases hc : c = '%'
      · subst hc
        by_cases hdigits : StartsWithDigits s
        · obtain ⟨a, b, rest, rfl, ha, hb⟩ := hdigits
          obtain ⟨byte, hbyte⟩ := decode_escape ha hb
          have hrest := ih rest.length (by simp only [List.length_cons]; omega) rest rfl
          simp only [List.cons_append] at hrest ⊢
          rw [hbyte, hbyte, hrest, List.cons_append]
        · rw [List.cons_append, decode_percent hdigits,
            decode_percent fun h => hdigits (startsWithDigits_of_append_slash h), hs,
            List.cons_append]
      · rw [List.cons_append, decode_cons_ne hc, decode_cons_ne hc, hs, List.append_assoc]

end Percent

namespace Url

/-! ## Segments -/

/-- Segments, each behind a slash, decode to what the text behind a slash decodes to. -/
theorem flatMap_segmentsOf (t : Text) :
    ((segmentsOf false t).flatMap fun s => Path.slash :: Percent.decode s) =
      Path.slash :: Percent.decode t := by
  induction hlength : t.length using Nat.strongRecOn generalizing t with
  | ind length ih =>
    subst hlength
    by_cases hslash : '/' ∈ t
    · obtain ⟨s, rest, rfl, hs⟩ := List.eq_append_cons_of_mem hslash
      have hrest := ih rest.length (by simp only [List.length_append, List.length_cons]; omega)
        rest rfl
      rw [segmentsOf_cons hs, List.flatMap_cons, hrest, Percent.decode_append_slash,
        List.cons_append]
    · rw [segmentsOf_single hslash, List.flatMap_singleton]

/-- Bytes, with the slash that the root of a drive needs. -/
def closeDrive (bytes : Bytes) : Bytes :=
  if endsInDrive bytes then bytes ++ [Path.slash] else bytes

/-- The segments of a URL path decode to what the path does. -/
theorem decodeSegments_eq {path : Text} (h : path.head? = some '/') :
    decodeSegments path = closeDrive (Percent.decode path) := by
  obtain ⟨rest, rfl⟩ := List.head?_eq_some_iff.1 h
  have hpath : Percent.decode ('/' :: rest) = Path.slash :: Percent.decode rest :=
    Percent.decode_cons_ne (by decide) rest
  rw [hpath, ← flatMap_segmentsOf]
  rfl

/-- A URL has a local path when its path starts at the root and its host is this machine; the
local path is what the path of the URL decodes to, but for the slash of a drive. -/
theorem toPath_eq_some_iff {u : Url} {p : Path} :
    u.toPath? = some p ↔
      u.path.head? = some '/' ∧ u.isLocal = true ∧ p.bytes = closeDrive (Percent.decode u.path) := by
  unfold toPath?
  constructor
  · intro h
    split at h
    · rename_i hlocal
      obtain rfl := Option.some.inj h
      exact ⟨hlocal.1, hlocal.2, decodeSegments_eq hlocal.1⟩
    · cases h
  · rintro ⟨hhead, hlocal, hbytes⟩
    rw [if_pos ⟨hhead, hlocal⟩, decodeSegments_eq hhead, ← hbytes]

end Url

end FishCheck
