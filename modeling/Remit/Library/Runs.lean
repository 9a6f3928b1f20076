import Mathlib.Data.List.Basic

/-!
# Runs of a labelled transition system

A run is a start state and the labelled steps taken from it, each with the
state it leads to.  The rules turn a property of one step into a property of
all states of a run.  The last rule serves systems whose steps go wrong in a
known way: when every step that violates a condition leads straight to a bad
state, a run stays good exactly when each of its steps meets the condition.
-/

namespace Runs

variable {σ ε : Type}

/-- The steps of `trace` can be taken one after another from the first state. -/
inductive Run (step : σ → ε → σ → Prop) : σ → List (ε × σ) → Prop where
  | stay (s : σ) : Run step s []
  | next {s t : σ} {event : ε} {rest : List (ε × σ)} :
      step s event t → Run step t rest → Run step s ((event, t) :: rest)

/-- The states of a run, the first one included. -/
def visited (s : σ) (trace : List (ε × σ)) : List σ :=
  s :: trace.map Prod.snd

/-- Every step of the run is taken from a state in which its event meets the
condition. -/
def EachStep (condition : σ → ε → Prop) : σ → List (ε × σ) → Prop
  | _, [] => True
  | s, (event, t) :: rest => condition s event ∧ EachStep condition t rest

/-- The steps of a run, each with the state it is taken from. -/
def transitions : σ → List (ε × σ) → List (σ × ε × σ)
  | _, [] => []
  | s, (event, t) :: rest => (s, event, t) :: transitions t rest

/-- The state in which a run ends. -/
def final : σ → List (ε × σ) → σ
  | s, [] => s
  | _, (_, t) :: rest => final t rest

@[simp]
theorem mem_visited_nil {s t : σ} :
    t ∈ visited s ([] : List (ε × σ)) ↔ t = s := by
  simp [visited]

@[simp]
theorem mem_visited_cons {s t u : σ} {event : ε} {rest : List (ε × σ)} :
    t ∈ visited s ((event, u) :: rest) ↔ t = s ∨ t ∈ visited u rest := by
  simp [visited]

theorem final_mem_visited (s : σ) (trace : List (ε × σ)) :
    final s trace ∈ visited s trace := by
  induction trace generalizing s with
  | nil => exact mem_visited_nil.mpr rfl
  | cons step rest inductionHypothesis =>
      exact mem_visited_cons.mpr (.inr (inductionHypothesis step.2))

namespace Run

variable {step : σ → ε → σ → Prop} {s : σ} {trace : List (ε × σ)}

/-- A property that every step keeps holds in every state of a run. -/
theorem invariant
    {holds : σ → Prop}
    (run : Run step s trace)
    (start : holds s)
    (kept : ∀ s event t, holds s → step s event t → holds t) :
    ∀ t ∈ visited s trace, holds t := by
  induction run with
  | stay s =>
      intro t member
      rw [mem_visited_nil] at member
      exact member ▸ start
  | next first _ inductionHypothesis =>
      intro t member
      rcases mem_visited_cons.mp member with rfl | later
      · exact start
      · exact inductionHypothesis (kept _ _ _ start first) t later

/-- Every step of a run is taken from a state that has the properties which
every step keeps. -/
theorem transition
    {holds : σ → Prop}
    (run : Run step s trace)
    (start : holds s)
    (kept : ∀ s event t, holds s → step s event t → holds t) :
    ∀ before event after, (before, event, after) ∈ transitions s trace →
      holds before ∧ step before event after := by
  induction run with
  | stay s =>
      intro before event after member
      cases member
  | next first _ inductionHypothesis =>
      intro before event after member
      rcases List.mem_cons.mp member with same | later
      · cases same
        exact ⟨start, first⟩
      · exact inductionHypothesis (kept _ _ _ start first) before event after
          later

/-- A property that every step meeting `condition` keeps holds in every state
of a run whose steps all meet it. -/
theorem invariant_of_eachStep
    {holds : σ → Prop} {condition : σ → ε → Prop}
    (run : Run step s trace)
    (start : holds s)
    (met : EachStep condition s trace)
    (kept : ∀ s event t,
      holds s → condition s event → step s event t → holds t) :
    ∀ t ∈ visited s trace, holds t := by
  induction run with
  | stay s =>
      intro t member
      rw [mem_visited_nil] at member
      exact member ▸ start
  | next first _ inductionHypothesis =>
      intro t member
      rcases mem_visited_cons.mp member with rfl | later
      · exact start
      · exact inductionHypothesis (kept _ _ _ start met.1 first) met.2 t later

/-- When steps that meet `condition` keep `inv`, which implies `good`, and
steps that violate it lead to a state that is not good, a run is good
throughout exactly when each of its steps meets the condition. -/
theorem good_iff_eachStep
    {inv good : σ → Prop} {condition : σ → ε → Prop}
    (implied : ∀ s, inv s → good s)
    (kept : ∀ s event t,
      inv s → condition s event → step s event t → inv t)
    (broken : ∀ s event t,
      inv s → ¬ condition s event → step s event t → ¬ good t)
    (run : Run step s trace) (start : inv s) :
    (∀ t ∈ visited s trace, good t) ↔ EachStep condition s trace := by
  constructor
  · intro allGood
    induction run with
    | stay s => trivial
    | @next s t event rest first _ inductionHypothesis =>
        have met : condition s event := by
          by_contra violated
          exact broken s event t start violated first <|
            allGood t (mem_visited_cons.mpr (Or.inr (by simp [visited])))
        exact ⟨met, inductionHypothesis (kept s event t start met first)
          fun u member => allGood u (mem_visited_cons.mpr (Or.inr member))⟩
  · intro met t member
    exact implied t <|
      run.invariant_of_eachStep start met kept t member

end Run
end Runs
