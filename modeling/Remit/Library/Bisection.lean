import Mathlib.Algebra.Order.Group.Nat
import Mathlib.Order.Bounds.Basic

/-!
# Bisection on a machine

A loop that halves a range of numbers to find the last one that passes a test.
It is written with the checks of a machine: sums have to fit a word, only
numbers up to a size may be tested, nothing is subtracted from zero, and the
test may refuse to answer.
-/

namespace Bisections

/-- How the loop ends. -/
inductive Outcome where
  | found (last : Nat)
  | refused (number : Nat)
  | outOfFuel
  | overflow
  | outOfRange
  | underflow
deriving DecidableEq

/-- Test the upper middle of the range, and go on above or below it. -/
def bisect (test : Nat → Option Bool) (size word : Nat) :
    Nat → Nat → Nat → Outcome
  | 0, _, _ => .outOfFuel
  | fuel + 1, low, high =>
      if low < high then
        if low + high < word then
          let mid := (low + high + 1) / 2
          if mid ≤ size then
            match test mid with
            | none => .refused mid
            | some true => bisect test size word fuel mid high
            | some false =>
                if mid = 0 then .underflow
                else bisect test size word fuel low (mid - 1)
          else .outOfRange
        else .overflow
      else .found low

/-- What is found passes unless it is where the search began, and its successor
does not pass unless the search ends there. -/
structure Boundary (test : Nat → Option Bool) (low high last : Nat) : Prop
    where
  above : low ≤ last
  below : last ≤ high
  passes : last = low ∨ test last = some true
  fails : last = high ∨ test (last + 1) = some false

/-- The loop ends with a boundary, or where the test refuses to answer. -/
inductive Ends (test : Nat → Option Bool) (low high : Nat) : Outcome → Prop
    where
  | found {last : Nat} :
      Boundary test low high last → Ends test low high (.found last)
  | refused {number : Nat} :
      low < number → number ≤ high → test number = none →
        Ends test low high (.refused number)

variable {test : Nat → Option Bool} {size word low mid high fuel : Nat}

theorem bisect_done (done : ¬ low < high) :
    bisect test size word (fuel + 1) low high = .found low :=
  if_neg done

/-- In a round nothing goes wrong, since the middle is inside the range and
above its lower end. -/
theorem bisect_round
    (test : Nat → Option Bool) (fuel : Nat)
    (more : low < high) (inside : high ≤ size) (room : size + size < word) :
    bisect test size word (fuel + 1) low high =
      match test ((low + high + 1) / 2) with
      | none => .refused ((low + high + 1) / 2)
      | some true => bisect test size word fuel ((low + high + 1) / 2) high
      | some false =>
          bisect test size word fuel low ((low + high + 1) / 2 - 1) := by
  have fits : low + high < word := by omega
  have within : (low + high + 1) / 2 ≤ size := by omega
  have positive : (low + high + 1) / 2 ≠ 0 := by omega
  rw [bisect, if_pos more, if_pos fits]
  dsimp only
  rw [if_pos within, if_neg positive]

theorem Boundary.at {low : Nat} : Boundary test low low low :=
  ⟨Nat.le_refl low, Nat.le_refl low, .inl rfl, .inl rfl⟩

/-- A search above a number that passes. -/
theorem Ends.raise
    {outcome : Outcome} (ends : Ends test mid high outcome)
    (above : low < mid) (passes : test mid = some true) :
    Ends test low high outcome := by
  cases ends with
  | found boundary =>
      have lowest := Nat.le_trans above.le boundary.above
      refine .found ⟨lowest, boundary.below, .inr ?_, boundary.fails⟩
      rcases boundary.passes with same | tested
      · rw [same]
        exact passes
      · exact tested
  | refused beyond within unanswered =>
      exact .refused (Nat.lt_trans above beyond) within unanswered

/-- A search below a number that does not pass. -/
theorem Ends.lower
    {outcome : Outcome} (ends : Ends test low (mid - 1) outcome)
    (positive : 0 < mid) (below : mid ≤ high)
    (fails : test mid = some false) :
    Ends test low high outcome := by
  have smaller : mid - 1 ≤ high := by omega
  cases ends with
  | found boundary =>
      have highest := Nat.le_trans boundary.below smaller
      refine .found ⟨boundary.above, highest, boundary.passes, .inr ?_⟩
      rcases boundary.fails with same | tested
      · rw [same, Nat.sub_add_cancel positive]
        exact fails
      · exact tested
  | refused beyond within unanswered =>
      exact .refused beyond (Nat.le_trans within smaller) unanswered

/-- The loop halves the range in every round, so it ends within as many rounds
as the size has digits, and then with a boundary or a refusal. -/
theorem bisect_ends
    (test : Nat → Option Bool)
    (ordered : low ≤ high) (inside : high ≤ size)
    (room : size + size < word) (enough : high - low < 2 ^ fuel) :
    Ends test low high (bisect test size word (fuel + 1) low high) := by
  induction fuel generalizing low high with
  | zero =>
      rw [Nat.pow_zero] at enough
      have same : low = high := by omega
      subst same
      rw [bisect_done (Nat.lt_irrefl low)]
      exact .found .at
  | succ fuel inductionHypothesis =>
      rw [Nat.pow_succ] at enough
      by_cases more : low < high
      case neg =>
          have same : low = high := by omega
          subst same
          rw [bisect_done more]
          exact .found .at
      case pos =>
          have above : low < (low + high + 1) / 2 := by omega
          have below : (low + high + 1) / 2 ≤ high := by omega
          rw [bisect_round test (fuel + 1) more inside room]
          rcases answer : test ((low + high + 1) / 2) with _ | passes
          · exact .refused above below answer
          · cases passes with
            | true =>
                have upper := inductionHypothesis below inside (by omega)
                exact upper.raise above answer
            | false =>
                have left : low ≤ (low + high + 1) / 2 - 1 := by omega
                have lower :=
                  inductionHypothesis left (by omega) (by omega)
                exact lower.lower (by omega) below answer

/-- Where everything below a number that passes passes, too, the boundary is
the last number that passes. -/
theorem Boundary.isGreatest
    {last : Nat} (boundary : Boundary test 0 high last)
    (downward : ∀ smaller larger, 0 < smaller → smaller ≤ larger →
      larger ≤ high → test larger = some true →
        test smaller ≠ some false) :
    IsGreatest {number | number ≤ high ∧
      (number = 0 ∨ test number = some true)} last := by
  refine ⟨⟨boundary.below, boundary.passes⟩, ?_⟩
  intro number member
  obtain ⟨inside, nothing | passes⟩ := member
  · rw [nothing]
    exact Nat.zero_le last
  · by_contra beyond
    have next : last + 1 ≤ number := by omega
    rcases boundary.fails with same | fails
    · omega
    · exact downward _ _ (Nat.succ_pos last) next inside passes fails

end Bisections
