import Mathlib.Algebra.Order.BigOperators.Group.Finset
import Mathlib.Data.Finsupp.Basic

/-!
# Money in purses

Money lies in purses, of which only finitely many hold any.  It is issued into
a purse, retired from one, or shifted from one to another.  What a list of
moves leaves can be read off its moves: shifting keeps the total, and a purse
that no move names is left alone.
-/

namespace Purses

variable {κ : Type}

/-- A movement of money. -/
inductive Move (κ : Type) where
  | issue (target : κ) (amount : Nat)
  | retire (source : κ) (amount : Nat)
  | shift (source target : κ) (amount : Nat)
deriving DecidableEq

/-- All the money there is. -/
def total (purses : κ →₀ Nat) : Nat :=
  purses.sum fun _ amount => amount

/-- Put an amount into a purse. -/
noncomputable def put (purses : κ →₀ Nat) (purse : κ) (amount : Nat) :
    κ →₀ Nat :=
  purses.update purse (purses purse + amount)

/-- Take an amount out of a purse, or all that is in it. -/
noncomputable def take (purses : κ →₀ Nat) (purse : κ) (amount : Nat) :
    κ →₀ Nat :=
  purses.update purse (purses purse - amount)

section Applying

variable {purses : κ →₀ Nat} {purse other : κ} {amount : Nat}

@[simp]
theorem put_self : put purses purse amount purse = purses purse + amount := by
  classical
  simp [put]

@[simp]
theorem take_self :
    take purses purse amount purse = purses purse - amount := by
  classical
  simp [take]

theorem put_of_ne (away : other ≠ purse) :
    put purses purse amount other = purses other := by
  classical
  simp [put, Function.update_of_ne away]

theorem take_of_ne (away : other ≠ purse) :
    take purses purse amount other = purses other := by
  classical
  simp [take, Function.update_of_ne away]

theorem total_put :
    total (put purses purse amount) = total purses + amount := by
  have sum := Finsupp.sum_update_add purses purse (purses purse + amount)
    (fun _ amount => amount) (fun _ => rfl) (fun _ _ _ => rfl)
  unfold total put
  omega

theorem total_take (enough : amount ≤ purses purse) :
    total (take purses purse amount) + amount = total purses := by
  have sum := Finsupp.sum_update_add purses purse (purses purse - amount)
    (fun _ amount => amount) (fun _ => rfl) (fun _ _ _ => rfl)
  unfold total take
  omega

/-- No purse holds more than there is. -/
theorem le_total : purses purse ≤ total purses := by
  have sum : total (take purses purse (purses purse)) + purses purse =
      total purses := total_take (Nat.le_refl _)
  omega

/-- Two purses together hold no more than there is. -/
theorem add_le_total (different : purse ≠ other) :
    purses purse + purses other ≤ total purses := by
  have sum : total (take purses purse (purses purse)) + purses purse =
      total purses := total_take (Nat.le_refl _)
  have rest : take purses purse (purses purse) other ≤ _ := le_total
  rw [take_of_ne different.symm] at rest
  omega

end Applying

/-- Neither do any others. -/
theorem sum_le_total (purses : κ →₀ Nat) (part : Finset κ) :
    ∑ purse ∈ part, purses purse ≤ total purses := by
  classical
  have whole : total purses = ∑ purse ∈ part ∪ purses.support, purses purse :=
    Finsupp.sum_of_support_subset purses Finset.subset_union_right _
      fun _ _ => rfl
  rw [whole]
  exact Finset.sum_le_sum_of_subset Finset.subset_union_left

@[simp]
theorem total_zero : total (0 : κ →₀ Nat) = 0 :=
  Finsupp.sum_zero_index

/-- Carry out a move, if its source holds the amount. -/
noncomputable def Move.run (purses : κ →₀ Nat) :
    Move κ → Option (κ →₀ Nat)
  | issue target amount => some (put purses target amount)
  | retire source amount =>
      if amount ≤ purses source then some (take purses source amount)
      else none
  | shift source target amount =>
      if amount ≤ purses source then
        some (put (take purses source amount) target amount)
      else none

/-- Carry out moves one after another. -/
noncomputable def runAll (purses : κ →₀ Nat) (moves : List (Move κ)) :
    Option (κ →₀ Nat) :=
  moves.foldlM Move.run purses

/-- What a move issues. -/
def Move.issued : Move κ → Nat
  | issue _ amount => amount
  | _ => 0

/-- What a move retires. -/
def Move.retired : Move κ → Nat
  | retire _ amount => amount
  | _ => 0

/-- The purses that a move names. -/
def Move.purses : Move κ → List κ
  | issue target _ => [target]
  | retire source _ => [source]
  | shift source target _ => [source, target]

/-- The purse that a move takes from. -/
def Move.source : Move κ → Option κ
  | issue _ _ => none
  | retire source _ => some source
  | shift source _ _ => some source

/-- What moves issue. -/
def issued (moves : List (Move κ)) : Nat :=
  (moves.map Move.issued).sum

/-- What moves retire. -/
def retired (moves : List (Move κ)) : Nat :=
  (moves.map Move.retired).sum

section Running

variable {purses after : κ →₀ Nat} {move : Move κ} {moves more : List (Move κ)}

theorem runAll_nil : runAll purses [] = some purses :=
  rfl

theorem runAll_append :
    runAll purses (moves ++ more) =
      (runAll purses moves).bind (runAll · more) :=
  List.foldlM_append ..

theorem runAll_cons :
    runAll purses (move :: moves) =
      (move.run purses).bind (runAll · moves) :=
  rfl

theorem runAll_singleton : runAll purses [move] = move.run purses := by
  rw [runAll_cons]
  exact Option.bind_fun_some _

theorem run_shift
    {source target : κ} {amount : Nat} (enough : amount ≤ purses source) :
    (Move.shift source target amount).run purses =
      some (put (take purses source amount) target amount) :=
  if_pos enough

/-- Shift two parts out of one purse. -/
theorem runAll_split
    {source target other : κ} {amount rest : Nat}
    (away : source ≠ target) (enough : amount + rest ≤ purses source) :
    runAll purses
        [.shift source target amount, .shift source other rest] =
      some (put
        (take (put (take purses source amount) target amount) source rest)
        other rest) := by
  have left : rest ≤ put (take purses source amount) target amount source := by
    rw [put_of_ne away, take_self]
    omega
  rw [runAll_cons, run_shift (by omega), Option.bind_some, runAll_singleton,
    run_shift left]

theorem Move.total_run (ran : move.run purses = some after) :
    total after + move.retired = total purses + move.issued := by
  cases move with
  | issue target amount =>
      cases ran
      exact total_put
  | retire source amount =>
      obtain ⟨enough, same⟩ := Option.ite_none_right_eq_some.mp ran
      cases same
      exact total_take enough
  | shift source target amount =>
      obtain ⟨enough, same⟩ := Option.ite_none_right_eq_some.mp ran
      cases same
      have left := total_take enough
      rw [total_put]
      simp only [Move.retired, Move.issued]
      omega

/-- There is as much as there was, and what was issued, less what was
retired. -/
theorem total_runAll (ran : runAll purses moves = some after) :
    total after + retired moves = total purses + issued moves := by
  induction moves generalizing purses with
  | nil =>
      cases ran
      rfl
  | cons move rest inductionHypothesis =>
      obtain ⟨between, first, others⟩ := Option.bind_eq_some_iff.mp ran
      have once := Move.total_run first
      have later := inductionHypothesis others
      simp only [retired, issued, List.map_cons, List.sum_cons] at later ⊢
      omega

theorem Move.run_elsewhere
    {purse : κ} (ran : move.run purses = some after)
    (away : purse ∉ move.purses) : after purse = purses purse := by
  cases move with
  | issue target amount =>
      cases ran
      exact put_of_ne (by simpa [Move.purses] using away)
  | retire source amount =>
      obtain ⟨_, same⟩ := Option.ite_none_right_eq_some.mp ran
      cases same
      exact take_of_ne (by simpa [Move.purses] using away)
  | shift source target amount =>
      obtain ⟨_, same⟩ := Option.ite_none_right_eq_some.mp ran
      cases same
      have apart : purse ≠ source ∧ purse ≠ target := by
        simpa [Move.purses] using away
      rw [put_of_ne apart.2, take_of_ne apart.1]

/-- Moves leave a purse alone that none of them names. -/
theorem runAll_elsewhere
    {purse : κ} (ran : runAll purses moves = some after)
    (away : ∀ move ∈ moves, purse ∉ move.purses) :
    after purse = purses purse := by
  induction moves generalizing purses with
  | nil =>
      cases ran
      rfl
  | cons move rest inductionHypothesis =>
      obtain ⟨between, first, others⟩ := Option.bind_eq_some_iff.mp ran
      rw [inductionHypothesis others fun other member =>
          away other (List.mem_cons_of_mem move member),
        Move.run_elsewhere first (away move List.mem_cons_self)]

theorem le_put {purse other : κ} {amount : Nat} :
    purses other ≤ put purses purse amount other := by
  by_cases here : other = purse
  · subst here
    rw [put_self]
    exact Nat.le_add_right ..
  · rw [put_of_ne here]

theorem Move.le_run
    {purse : κ} (ran : move.run purses = some after)
    (keeps : move.source ≠ some purse) : purses purse ≤ after purse := by
  cases move with
  | issue target amount =>
      cases ran
      exact le_put
  | retire source amount =>
      obtain ⟨_, same⟩ := Option.ite_none_right_eq_some.mp ran
      cases same
      have away : purse ≠ source := fun same => keeps (congrArg some same.symm)
      rw [take_of_ne away]
  | shift source target amount =>
      obtain ⟨_, same⟩ := Option.ite_none_right_eq_some.mp ran
      cases same
      have away : purse ≠ source := fun same => keeps (congrArg some same.symm)
      exact Nat.le_trans (Nat.le_of_eq (take_of_ne away).symm) le_put

/-- A purse that no move takes from holds at least what it held. -/
theorem le_runAll
    {purse : κ} (ran : runAll purses moves = some after)
    (keeps : ∀ move ∈ moves, move.source ≠ some purse) :
    purses purse ≤ after purse := by
  induction moves generalizing purses with
  | nil =>
      cases ran
      exact Nat.le_refl _
  | cons move rest inductionHypothesis =>
      obtain ⟨between, first, others⟩ := Option.bind_eq_some_iff.mp ran
      exact Nat.le_trans (Move.le_run first (keeps move List.mem_cons_self))
        (inductionHypothesis others fun other member =>
          keeps other (List.mem_cons_of_mem move member))

end Running
end Purses
