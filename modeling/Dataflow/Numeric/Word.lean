/-
  Integer arithmetic that must stay within a word of 64 bits.

  A word is an integer in range; an operation is done on integers and then checked, so a result
  is exact or absent and nothing ever wraps.
-/

namespace Dataflow.Numeric

/-- The least signed word. -/
def leastWord : Int := -9223372036854775808

/-- The greatest signed word. -/
def greatestWord : Int := 9223372036854775807

/-- How many words there are; every unsigned word is less. -/
def wordLimit : Nat := 18446744073709551616

/-- Whether an integer fits a signed word. -/
def isWord (n : Int) : Bool := leastWord ≤ n && n ≤ greatestWord

/-- An integer, if it fits a signed word. -/
def word? (n : Int) : Option Int := if isWord n then some n else none

theorem word?_eq_some_iff {n m : Int} :
    word? n = some m ↔ m = n ∧ leastWord ≤ n ∧ n ≤ greatestWord := by
  unfold word? isWord
  split
  · next h =>
    simp only [Bool.and_eq_true, decide_eq_true_eq] at h
    simp only [Option.some.injEq]
    constructor
    · rintro rfl
      exact ⟨rfl, h.1, h.2⟩
    · exact fun h => h.1.symm
  · next h =>
    simp only [Bool.and_eq_true, decide_eq_true_eq] at h
    simp only [reduceCtorEq, false_iff, not_and]
    exact fun _ h1 h2 => h ⟨h1, h2⟩

end Dataflow.Numeric
