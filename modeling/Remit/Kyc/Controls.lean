import Remit.Library.Runs
import Remit.Solana.Instruction

/-!
# Two separate controls

What the freeze authority controls, seen from one account: the state that new
accounts start in, and whether this account is frozen.  Each decision changes
one of them.  The account may also be opened and closed, about which the
freeze authority decides nothing.
-/

namespace Remit

open Runs

/-- The controls, as far as they concern one account. -/
structure Controls where
  default : Option AccountState
  frozen : Option Bool
deriving DecidableEq

inductive ControlEvent where
  | clear
  | revoke
  | policy (state : AccountState)
  | opening
  | closing
deriving DecidableEq

namespace ControlEvent

/-- Whether the freeze authority decides about it. -/
def isDecision : ControlEvent → Bool
  | clear | revoke | policy _ => true
  | opening | closing => false

/-- Whether it is a decision about the account. -/
def isClearance : ControlEvent → Bool
  | clear | revoke => true
  | _ => false

end ControlEvent

/-- A cleared account was frozen, a revoked one was not.  A policy decides about
accounts that are opened from then on. -/
inductive ControlStep : Controls → ControlEvent → Controls → Prop where
  | clear (default : Option AccountState) :
      ControlStep ⟨default, some true⟩ .clear ⟨default, some false⟩
  | revoke (default : Option AccountState) :
      ControlStep ⟨default, some false⟩ .revoke ⟨default, some true⟩
  | policy (was state : AccountState) (frozen : Option Bool) :
      ControlStep ⟨some was, frozen⟩ (.policy state) ⟨some state, frozen⟩
  | opening (default : Option AccountState) :
      ControlStep ⟨default, none⟩ .opening
        ⟨default, some (decide (default.getD .initialized = .frozen))⟩
  | closing (default : Option AccountState) (frozen : Bool) :
      ControlStep ⟨default, some frozen⟩ .closing ⟨default, none⟩

/-- The decisions of a run. -/
def decisions (trace : List (ControlEvent × Controls)) : List ControlEvent :=
  (trace.map Prod.fst).filter (·.isDecision)

/-- Some decisions lead from one state of the controls to another one, whatever
else happened to the account in between. -/
def Controlled (before : Controls) (made : List ControlEvent)
    (after : Controls) : Prop :=
  ∃ trace, Run ControlStep before trace ∧ decisions trace = made ∧
    final before trace = after

namespace Controlled

variable {before between after : Controls} {made later : List ControlEvent}
  {event : ControlEvent}

theorem refl (state : Controls) : Controlled state [] state :=
  ⟨[], .stay state, rfl, rfl⟩

theorem of_step (step : ControlStep before event after) :
    Controlled before ([event].filter (·.isDecision)) after :=
  ⟨[(event, after)], .next step (.stay after), rfl, rfl⟩

theorem trans
    (first : Controlled before made between)
    (second : Controlled between later after) :
    Controlled before (made ++ later) after := by
  obtain ⟨trace, run, rfl, ends⟩ := first
  obtain ⟨rest, runOn, rfl, endsOn⟩ := second
  induction run with
  | stay state =>
      obtain rfl : state = between := ends
      exact ⟨rest, runOn, rfl, endsOn⟩
  | next step _ inductionHypothesis =>
      obtain ⟨joined, ran, made, reached⟩ := inductionHypothesis ends
      refine ⟨_ :: joined, .next step ran, ?_, reached⟩
      unfold decisions at made ⊢
      rw [List.map_cons, List.filter_cons, made, List.map_cons,
        List.filter_cons]
      split
      · rfl
      · rfl

/-- Where new accounts start frozen throughout, an account that is not frozen
was cleared last, or nothing was decided about it and it was not frozen
before. -/
theorem thawed
    (controlled : Controlled before made after)
    (frozen : before.default = some .frozen)
    (stays : ∀ state, .policy state ∈ made → state = .frozen)
    (thawed : after.frozen = some false) :
    (made.filter (·.isClearance)).getLast? = some .clear ∨
      made.filter (·.isClearance) = [] ∧ before.frozen = some false := by
  obtain ⟨trace, run, rfl, rfl⟩ := controlled
  induction run with
  | stay state => exact .inr ⟨rfl, thawed⟩
  | @next state next event rest step _ inductionHypothesis =>
      have restStays : ∀ policy, .policy policy ∈ decisions rest →
          policy = .frozen := by
        intro policy member
        refine stays policy ?_
        unfold decisions at member ⊢
        rw [List.map_cons, List.filter_cons]
        split
        · exact List.mem_cons_of_mem _ member
        · exact member
      have last : (((decisions rest).filter (·.isClearance)).getLast? =
            some .clear) →
          ((decisions ((event, next) :: rest)).filter
            (·.isClearance)).getLast? = some .clear := by
        intro clears
        unfold decisions at clears ⊢
        rw [List.map_cons, List.filter_cons]
        split
        · rw [List.filter_cons]
          split
          · rw [List.getLast?_cons, clears]
            rfl
          · exact clears
        · exact clears
      cases step with
      | clear =>
          rcases inductionHypothesis frozen restStays thawed with
            clears | ⟨none, _⟩
          · exact .inl (last clears)
          · refine .inl ?_
            change (ControlEvent.clear :: (decisions rest).filter
              (·.isClearance)).getLast? = _
            rw [none]
            rfl
      | revoke =>
          rcases inductionHypothesis frozen restStays thawed with
            clears | ⟨_, impossible⟩
          · exact .inl (last clears)
          · cases impossible
      | policy was state =>
          have same : state = .frozen := stays state List.mem_cons_self
          rcases inductionHypothesis (congrArg some same) restStays thawed with
            clears | unchanged
          · exact .inl (last clears)
          · exact .inr unchanged
      | opening default =>
          rcases inductionHypothesis frozen restStays thawed with
            clears | ⟨_, impossible⟩
          · exact .inl (last clears)
          · obtain rfl : default = some .frozen := frozen
            cases impossible
      | closing =>
          rcases inductionHypothesis frozen restStays thawed with
            clears | ⟨_, impossible⟩
          · exact .inl (last clears)
          · cases impossible

end Controlled

/-- The last of several lists in which something is found. -/
theorem getLast?_flatMap_filter
    {α β : Type} {wanted : β → Bool} {items : List α} {parts : α → List β}
    {found : β}
    (last : ((items.flatMap parts).filter wanted).getLast? = some found) :
    ∃ item ∈ items, ((parts item).filter wanted).getLast? = some found := by
  induction items with
  | nil => cases last
  | cons item rest inductionHypothesis =>
      rw [List.flatMap_cons, List.filter_append, List.getLast?_append] at last
      cases later : ((rest.flatMap parts).filter wanted).getLast? with
      | none =>
          rw [later] at last
          exact ⟨item, List.mem_cons_self, last⟩
      | some other =>
          rw [later] at last
          cases last
          obtain ⟨one, member, ends⟩ := inductionHypothesis later
          exact ⟨one, List.mem_cons_of_mem _ member, ends⟩

end Remit
