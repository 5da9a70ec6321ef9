import FishCheck.Proofs.Complaint.Lines
import FishCheck.Proofs.Path.Names

/-!
# Which document a complaint is about

A complaint is kept for a document when both have file URLs and the URLs are the same.  A
URL escapes what its path may not hold, so this could be taken for a rough comparison; this
module shows that it is none.  Absolute paths with the same names are kept together, however
they are spelled, and no two paths with different names are taken for one another, whatever
their names look like.

Main results:

- Theorem `isAbout_iff_samePlace`: a complaint is about the absolute paths with its names.
- Theorem `readFor_exact`: what is read for a document is what was read, but for complaints
  of other places.
-/

namespace FishCheck

namespace Complaint

/-- A complaint is about the absolute paths with its names. -/
theorem isAbout_iff_samePlace {c : Complaint} {document : Path} {home : Option Path} :
    c.isAbout document home = true ↔ (c.path home).SamePlace document := by
  rw [isAbout_iff]
  constructor
  · rintro ⟨hdocument, hpath, hcomponents⟩
    exact ⟨hpath, hdocument, (Path.components_eq_iff hpath hdocument).1 hcomponents⟩
  · rintro ⟨hpath, hdocument, hnames⟩
    exact ⟨hdocument, hpath, (Path.components_eq_iff hpath hdocument).2 hnames⟩

/-- A complaint is kept for a document when it was read and is about it. -/
theorem mem_readFor_iff {c : Complaint} {output : Text} {document : Path} {home : Option Path} :
    c ∈ readFor output document home ↔ c ∈ readAll output ∧ (c.path home).SamePlace document := by
  rw [readFor, List.mem_filter, isAbout_iff_samePlace]

/-- What is read for a document are the complaints that were read, in order, but for those of
other places.  Comparing file URLs as they are written is comparing names, so no complaint is
read for two documents with different names, and none for or from a relative path. -/
theorem readFor_exact (output : Text) (document : Path) (home : Option Path) :
    readFor output document home =
      (readAll output).filter (fun c => decide ((c.path home).SamePlace document)) ∧
    (∀ c : Complaint, c.isAbout document home = true ↔
      ∃ u v, Url.ofPath? (c.path home) = some u ∧ Url.ofPath? document = some v ∧
        u.toText = v.toText) ∧
    (∀ c ∈ readFor output document home, ∀ other : Path, other.names ≠ document.names →
      c ∉ readFor output other home) ∧
    (document.isAbsolute = false → readFor output document home = []) ∧
    ∀ c : Complaint, (c.path home).isAbsolute = false → c ∉ readFor output document home := by
  refine ⟨?_, fun c => ?_, fun c hc other hother hkept => ?_, fun hrelative => ?_,
    fun c hrelative hkept => ?_⟩
  · refine List.filter_congr fun c _ => ?_
    rw [Bool.eq_iff_iff, isAbout_iff_samePlace, decide_eq_true_iff]
  · rw [isAbout_iff_samePlace, Path.samePlace_iff_toText]
  · obtain ⟨-, -, -, hdocument⟩ := mem_readFor_iff.1 hc
    obtain ⟨-, -, -, hnames⟩ := mem_readFor_iff.1 hkept
    exact hother (hnames.symm.trans hdocument)
  · rw [List.eq_nil_iff_forall_not_mem]
    intro c hc
    obtain ⟨-, -, habsolute, -⟩ := mem_readFor_iff.1 hc
    rw [hrelative] at habsolute
    cases habsolute
  · obtain ⟨-, habsolute, -⟩ := mem_readFor_iff.1 hkept
    rw [hrelative] at habsolute
    cases habsolute

/-- A name with an escape, a query and a backslash in it, reported under two spellings, next
to names that only look the same once escapes are read or written. -/
theorem readFor_exact_lookalikes :
    let document : Path := "/home/me/a%20?\\b/../é.fish"
    let other : Path := "/home/me/a ?\\b/../é.fish"
    let spelled : Complaint := ⟨"/home//me/./a%20?\\b/../é.fish/", 1, "own"⟩
    let expanded : Complaint := ⟨"~/a%20?\\b/..//é.fish", 2, "own"⟩
    let relative : Complaint := ⟨"a%20?\\b/../é.fish", 6, "relative"⟩
    let output := Text.closeLines [spelled.toLine, expanded.toLine,
      "/home/me/a%2520?\\b/../é.fish (line 3): escaped", "/home/me/a ?\\b/../é.fish (line 4): read",
      "/home/me/a%20?/b/../é.fish (line 5): slash", relative.toLine,
      "/home/me/é.fish (line 7): resolved", "/home/me/a%20?\\B/../é.fish (line 8): case"]
    readFor output document (some "/home/me") = [spelled, expanded] ∧
      other.names ≠ document.names ∧ spelled ∉ readFor output other (some "/home/me") ∧
      (relative.path (some "/home/me")).isAbsolute = false ∧
      relative ∉ readFor output document (some "/home/me") ∧
      (Path.ofText relative.file).isAbsolute = false ∧
      readFor output (Path.ofText relative.file) (some "/home/me") = [] := by
  intro document other spelled expanded relative output
  obtain ⟨hread, -, hothers, -, hrelatives⟩ := readFor_exact output document (some "/home/me")
  have hown : readFor output document (some "/home/me") = [spelled, expanded] := by
    rw [hread]
    decide +kernel
  have hnames : other.names ≠ document.names := by decide +kernel
  have hpath : (relative.path (some "/home/me")).isAbsolute = false := by decide +kernel
  have hdocument : (Path.ofText relative.file).isAbsolute = false := by decide +kernel
  have hmem : spelled ∈ readFor output document (some "/home/me") := by
    rw [hown]
    exact List.mem_cons_self
  exact ⟨hown, hnames, hothers spelled hmem other hnames, hpath, hrelatives relative hpath,
    hdocument, (readFor_exact output _ _).2.2.2.1 hdocument⟩

end Complaint

end FishCheck
