/-! # Tables of characters

A set of characters as the runs of code points it is made of, in increasing order.
-/

set_option autoImplicit false

namespace JsSyntax

/-- First and last code point of every run, in increasing order. -/
abbrev CharTable := List (Nat × Nat)

namespace CharTable

/-- Is the code point in one of the runs? The search ends at the first run beyond it. -/
def holds : CharTable → Nat → Bool
  | [], _ => false
  | (first, last) :: table, n =>
    if n < first then false else n ≤ last || holds table n

/-- The runs are in order and do not touch. -/
def sorted : CharTable → Bool
  | [] => true
  | [(first, last)] => first ≤ last
  | (first, last) :: (next, stop) :: table =>
    first ≤ last && last + 1 < next && sorted ((next, stop) :: table)

theorem le_of_sorted {first last : Nat} {table : CharTable}
    (h : sorted ((first, last) :: table)) : first ≤ last := by
  cases table with
  | nil => simpa [sorted] using h
  | cons run table => simp [sorted] at h; exact h.1.1

theorem sorted_of_cons {run : Nat × Nat} {table : CharTable}
    (h : sorted (run :: table)) : sorted table := by
  cases table with
  | nil => rfl
  | cons next table => simp [sorted] at h; exact h.2

theorem lt_of_sorted {first last : Nat} {table : CharTable}
    (h : sorted ((first, last) :: table)) : ∀ run ∈ table, last < run.1 := by
  induction table generalizing first last with
  | nil => simp
  | cons next table ih =>
    obtain ⟨lo, hi⟩ := next
    have hnext := sorted_of_cons h
    have hlo := le_of_sorted hnext
    simp only [sorted, Bool.and_eq_true, decide_eq_true_eq] at h
    intro run hrun
    rcases List.mem_cons.1 hrun with rfl | hrun
    · exact Nat.lt_of_succ_lt h.1.2
    · exact Nat.lt_of_lt_of_le (by omega) (Nat.le_of_lt (ih hnext run hrun))

/-- In a sorted table the search finds what is in any of the runs. -/
theorem holds_iff {table : CharTable} (h : sorted table) (n : Nat) :
    holds table n ↔ ∃ run ∈ table, run.1 ≤ n ∧ n ≤ run.2 := by
  induction table with
  | nil => simp [holds]
  | cons run table ih =>
    obtain ⟨first, last⟩ := run
    have hle := le_of_sorted h
    have hlt := lt_of_sorted h
    simp only [holds]
    split
    · next hn =>
      simp only [Bool.false_eq_true, false_iff]
      rintro ⟨run, hrun, hlo, hhi⟩
      rcases List.mem_cons.1 hrun with rfl | hrun
      · exact absurd hlo (Nat.not_le.2 hn)
      · have := hlt run hrun
        omega
    · next hn => simp [ih (sorted_of_cons h), Nat.not_lt.1 hn]

end CharTable

end JsSyntax
