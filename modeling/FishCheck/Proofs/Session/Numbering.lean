import FishCheck.Session.Generations
import Mathlib.Data.List.Induction

/-!
# Numbers over a history

Runs are started and documents retired in any order, and each start hands out a number.
The table of newest numbers forgets a document when it is retired, while the counter
belongs to all documents.  This module records what each operation handed out and shows
that the table never says more or less than that record: a number is current exactly when
the last operation on its document is the start that handed it out.

Main results:

- Theorem `numbers_eq`: the numbers handed out are one, two, three and so on.
- Theorem `latest_eq`: the table holds what the last operation on a document handed out.
- Theorem `isCurrent_iff_last`: currency is read off the record, and a number that was
  overtaken or retired is never current again.
-/

namespace FishCheck

namespace Generations

/-- What is done to the numbers. -/
inductive Operation
  /-- A run of a document starts. -/
  | start (u : Url)
  /-- A document is retired. -/
  | retire (u : Url)
deriving DecidableEq, Repr

namespace Operation

/-- The document that an operation concerns. -/
def url : Operation → Url
  | .start u => u
  | .retire u => u

/-- Carries an operation out. -/
def apply (g : Generations) : Operation → Generations
  | .start u => g.start u
  | .retire u => g.retire u

/-- The number that an operation hands out. -/
def number? (g : Generations) : Operation → Option Nat
  | .start _ => some g.next
  | .retire _ => none

end Operation

/-- An operation that was carried out, and the number that it handed out. -/
structure Record where
  operation : Operation
  number? : Option Nat
deriving DecidableEq, Repr

/-- Carries operations out one after the other. -/
def run (g : Generations) (ops : List Operation) : Generations := ops.foldl Operation.apply g

/-- The record of operations that are carried out one after the other. -/
def records (g : Generations) : List Operation → List Record
  | [] => []
  | op :: ops => ⟨op, op.number? g⟩ :: records (op.apply g) ops

/-- The numbers that were handed out, in order. -/
def numbers (R : List Record) : List Nat := R.filterMap Record.number?

/-- The records of the operations on a document, in order. -/
def recordsOf (u : Url) (R : List Record) : List Record :=
  R.filter fun r => r.operation.url = u

/-! ## Histories that grow by an operation -/

theorem run_concat (g : Generations) (ops : List Operation) (op : Operation) :
    g.run (ops ++ [op]) = op.apply (g.run ops) := by
  simp [run]

theorem records_concat (g : Generations) (ops : List Operation) (op : Operation) :
    g.records (ops ++ [op]) = g.records ops ++ [⟨op, op.number? (g.run ops)⟩] := by
  induction ops generalizing g with
  | nil => rfl
  | cons o os ih =>
    rw [List.cons_append, records, ih, records, List.cons_append]
    rfl

/-- Only starts hand numbers out. -/
theorem operation_of_number {g : Generations} {ops : List Operation} {r : Record} {n : Nat}
    (hr : r ∈ g.records ops) (hn : r.number? = some n) :
    r.operation = .start r.operation.url := by
  induction ops generalizing g with
  | nil => cases hr
  | cons op ops ih =>
    rcases List.mem_cons.1 hr with rfl | hr
    · cases op with
      | start u => rfl
      | retire u => cases hn
    · exact ih hr

/-! ## The counter and the table -/

/-- The numbers handed out are one, two, three and so on, as many as the counter says. -/
theorem numbers_eq (ops : List Operation) :
    numbers (records {} ops) = List.range' 1 (run {} ops).issued := by
  induction ops using List.reverseRecOn with
  | nil => rfl
  | append_singleton ops op ih =>
    rw [records_concat, run_concat, numbers, List.filterMap_append]
    change numbers (records {} ops) ++ _ = _
    rw [ih]
    cases op with
    | start u =>
      change _ = List.range' 1 ((run {} ops).issued + 1)
      rw [List.range'_1_concat]
      simp [Operation.number?, next, Nat.add_comm]
    | retire u => simp [Operation.number?, Operation.apply, retire]

/-- Later numbers are larger. -/
theorem numbers_pairwise (ops : List Operation) :
    (numbers (records {} ops)).Pairwise (· < ·) := by
  rw [numbers_eq]
  exact List.pairwise_lt_range'

/-- No number is larger than the number of starts. -/
theorem le_length_numbers {ops : List Operation} {n : Nat} (h : n ∈ numbers (records {} ops)) :
    n ≤ (numbers (records {} ops)).length := by
  rw [numbers_eq] at h ⊢
  rw [List.length_range']
  have hbounds := List.mem_range'_1.1 h
  omega

/-- The table holds what the last operation on a document handed out. -/
theorem latest_eq (ops : List Operation) (u : Url) :
    (run {} ops).latest.get? u =
      (recordsOf u (records {} ops)).getLast?.bind Record.number? := by
  induction ops using List.reverseRecOn with
  | nil => rfl
  | append_singleton ops op ih =>
    rw [records_concat, run_concat, recordsOf, List.filter_append]
    change _ = (recordsOf u (records {} ops) ++ _).getLast?.bind Record.number?
    by_cases hu : op.url = u
    · have hlast : [(⟨op, op.number? (run {} ops)⟩ : Record)].filter
          (fun r => r.operation.url = u) = [⟨op, op.number? (run {} ops)⟩] := by
        simp [hu]
      rw [hlast, List.getLast?_concat, Option.bind_some]
      cases op with
      | start v => simp_all [Operation.apply, Operation.number?, Operation.url, start,
          Table.get_set]
      | retire v => simp_all [Operation.apply, Operation.number?, Operation.url, retire,
          Table.get_erase]
    · have hnone : [(⟨op, op.number? (run {} ops)⟩ : Record)].filter
          (fun r => r.operation.url = u) = [] := by
        simp [hu]
      rw [hnone, List.append_nil, ← ih]
      cases op with
      | start v =>
        have hne : u ≠ v := Ne.symm hu
        rw [Operation.apply, start, Table.get_set, if_neg hne]
      | retire v =>
        have hne : u ≠ v := Ne.symm hu
        rw [Operation.apply, retire, Table.get_erase, if_neg hne]

/-- A number is current exactly when the last operation on its document is the start that
handed it out. -/
theorem isCurrent_iff (ops : List Operation) (u : Url) (n : Nat) :
    (run {} ops).isCurrent u n = true ↔
      (recordsOf u (records {} ops)).getLast? = some ⟨.start u, some n⟩ := by
  rw [isCurrent, latest_eq, beq_iff_eq]
  constructor
  · intro hnumber
    obtain ⟨r, hlast, hn⟩ := Option.bind_eq_some_iff.1 hnumber
    have hmem := List.mem_filter.1 (List.mem_of_getLast? hlast)
    have hurl : r.operation.url = u := by simpa using hmem.2
    have hstart := operation_of_number hmem.1 hn
    rw [hurl] at hstart
    rw [hlast, ← hstart, ← hn]
  · intro hlast
    rw [hlast]
    rfl

/-- A number is in the record once. -/
theorem not_mem_of_handedOut {ops : List Operation} {A B : List Record} {r : Record} {n : Nat}
    (hsplit : records {} ops = A ++ r :: B) (hn : r.number? = some n) : r ∉ B := by
  intro hmem
  have hincreasing := numbers_pairwise ops
  rw [hsplit, numbers, List.filterMap_append, List.filterMap_cons_some hn] at hincreasing
  have hafter := (List.pairwise_cons.1 (List.pairwise_append.1 hincreasing).2.1).1
  exact Nat.lt_irrefl n (hafter n (List.mem_filterMap.2 ⟨r, hmem, hn⟩))

/-- Over any sequence of starts and retirements the numbers handed out increase, and there
is none beyond the number of starts, so that a counter of 64 bits does for fewer than 2^64
of them.  Afterwards a number is current for a document exactly when the last operation on
that document is the start that handed the number out.  So a number is never current again
once another operation on its document followed its start, whatever came after that. -/
theorem isCurrent_iff_last (ops : List Operation) :
    let R := records {} ops
    (numbers R).Pairwise (· < ·) ∧
    (∀ n ∈ numbers R, n ≤ (numbers R).length) ∧
    (∀ u n, (run {} ops).isCurrent u n = true ↔
      (recordsOf u R).getLast? = some ⟨.start u, some n⟩) ∧
    (∀ u n A B, R = A ++ ⟨.start u, some n⟩ :: B → recordsOf u B ≠ [] →
      (run {} ops).isCurrent u n = false) := by
  intro R
  refine ⟨numbers_pairwise ops, fun n hn => le_length_numbers hn, isCurrent_iff ops, ?_⟩
  intro u n A B hsplit hlater
  rw [← Bool.not_eq_true, isCurrent_iff]
  intro hlast
  obtain ⟨earlier, r, hB⟩ := List.eq_nil_or_concat (recordsOf u B) |>.resolve_left hlater
  have hrecords : recordsOf u R = recordsOf u (A ++ [⟨.start u, some n⟩]) ++ recordsOf u B := by
    rw [hsplit, recordsOf, recordsOf, recordsOf, ← List.filter_append, List.append_assoc,
      List.singleton_append]
  have hr : r = ⟨.start u, some n⟩ := by
    change (recordsOf u R).getLast? = _ at hlast
    rw [hrecords, hB, List.concat_eq_append, ← List.append_assoc, List.getLast?_concat] at hlast
    exact Option.some_inj.1 hlast
  have hmem : r ∈ recordsOf u B := by
    rw [hB]
    simp
  rw [hr] at hmem
  exact not_mem_of_handedOut hsplit rfl (List.mem_filter.1 hmem).1

/-- A document is retired and started again while another one is started in between: its
first number is never current again, its second one is. -/
theorem isCurrent_iff_last_reopened :
    let u : Url := ⟨"file", some ⟨[], [], []⟩, "/a.fish", none, none⟩
    let v : Url := ⟨"file", some ⟨[], [], []⟩, "/b.fish", none, none⟩
    let ops : List Operation := [.start u, .start v, .retire u, .start u]
    let B : List Record := [⟨.start v, some 2⟩, ⟨.retire u, none⟩, ⟨.start u, some 3⟩]
    records {} ops = [] ++ ⟨.start u, some 1⟩ :: B ∧ recordsOf u B ≠ [] ∧
      (run {} ops).isCurrent u 1 = false ∧ (run {} ops).isCurrent u 3 = true ∧
      (run {} ops).isCurrent v 2 = true := by
  intro u v ops B
  have hsplit : records {} ops = [] ++ ⟨.start u, some 1⟩ :: B := rfl
  have hlater : recordsOf u B ≠ [] := by decide +kernel
  have hlast : (recordsOf u (records {} ops)).getLast? = some ⟨.start u, some 3⟩ := by
    decide +kernel
  have hother : (recordsOf v (records {} ops)).getLast? = some ⟨.start v, some 2⟩ := by
    decide +kernel
  obtain ⟨-, -, hcurrent, hnever⟩ := isCurrent_iff_last ops
  exact ⟨hsplit, hlater, hnever u 1 [] B hsplit hlater, (hcurrent u 3).2 hlast,
    (hcurrent v 2).2 hother⟩

end Generations

end FishCheck
