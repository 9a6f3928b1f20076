import Remit.Confidential.Execution
import Remit.Confidential.Ledger

/-!
# Replaying a ledger

With transparent cryptography the runs of a ledger can be computed: a history
takes the steps that some moves ask for, and every history is a run.
-/

namespace Remit

open Flows Runs

namespace Transparent

/-! ## Taking steps -/

/-- What happens next on a ledger: a call begins, or the one that began as
`index` last ends. -/
inductive Move where
  | begin (call : Call)
  | land (index : Nat)
  | drop (index : Nat)

section Moves

variable (roster : Roster crypto) (exclusive : Address → Prop)
  [DecidablePred exclusive]

/-- Begin a call. -/
def begin (ledger : Ledger) (call : Call) : Option (Event × Ledger) :=
  match call.prepare roster ledger.chain with
  | .error _ => none
  | .ok started =>
      if (∀ address ∈ call.addresses, address ∈ roster.accounts) ∧
          (exclusive started.account →
            ∀ other ∈ ledger.inFlight, other.account ≠ started.account) then
        some
          (.begin call, { ledger with inFlight := started :: ledger.inFlight })
      else none

/-- Land a call. -/
def land (ledger : Ledger) (index : Nat) : Option (Event × Ledger) :=
  match ledger.inFlight[index]? with
  | none => none
  | some call =>
      (execute ledger.chain call.execution).map fun chain =>
        (.land call,
          { chain
            inFlight := ledger.inFlight.erase call
            received := call.execution.received ledger.received })

/-- Drop a call. -/
def dropCall (ledger : Ledger) (index : Nat) : Option (Event × Ledger) :=
  (ledger.inFlight[index]?).map fun call =>
    (.drop call, { ledger with inFlight := ledger.inFlight.erase call })

def advance (ledger : Ledger) : Move → Option (Event × Ledger)
  | .begin call => begin roster exclusive ledger call
  | .land index => land ledger index
  | .drop index => dropCall ledger index

theorem advance_step
    {ledger after : Ledger} {move : Move} {event : Event}
    (advanced :
      advance roster exclusive ledger move = some (event, after)) :
    Step roster exclusive ledger event after := by
  cases move with
  | begin call =>
      simp only [advance, begin] at advanced
      split at advanced
      case h_1 => cases advanced
      case h_2 started prepared =>
          split at advanced
          case isTrue allowed =>
              cases advanced
              exact .begin allowed.1 prepared allowed.2
          case isFalse => cases advanced
  | land index =>
      simp only [advance, land] at advanced
      split at advanced
      case h_1 => cases advanced
      case h_2 call found =>
          obtain ⟨chain, executed, same⟩ :=
            Option.map_eq_some_iff.mp advanced
          cases same
          exact .land (List.mem_of_getElem? found) (execute_sound executed)
  | drop index =>
      obtain ⟨call, found, same⟩ := Option.map_eq_some_iff.mp advanced
      cases same
      exact .drop (List.mem_of_getElem? found)

/-- The steps that moves lead to, up to the first one that is not possible. -/
def history : Ledger → List Move → List (Event × Ledger)
  | _, [] => []
  | ledger, move :: rest =>
      match advance roster exclusive ledger move with
      | none => []
      | some (event, next) => (event, next) :: history next rest

/-- A history is a run. -/
theorem history_run (ledger : Ledger) (moves : List Move) :
    Run (Step roster exclusive) ledger
      (history roster exclusive ledger moves) := by
  induction moves generalizing ledger with
  | nil => exact .stay ledger
  | cons move rest inductionHypothesis =>
      unfold history
      split
      case h_1 => exact .stay ledger
      case h_2 event next advanced =>
          exact .next (advance_step roster exclusive advanced)
            (inductionHypothesis next)

end Moves

/-! ## Two owners -/

def owners : Roster crypto where
  accounts := {alice, bob}
  keys _ := ⟨⟨⟨0⟩, ()⟩, ()⟩
  withheldKeys := ⟨⟨0⟩, ()⟩
  withheld_opens := rfl

/-- Both have opened their accounts. -/
def opening (amount : Nat) : Ledger where
  chain address :=
    if address = alice ∨ address = bob then some (openAccount address amount)
    else none
  inFlight := []
  received _ := 0

theorem opening_chain
    {address : Address} (member : address ∈ owners.accounts) (amount : Nat) :
    (opening amount).chain address = some (openAccount address amount) := by
  simp only [owners, Finset.mem_insert, Finset.mem_singleton] at member
  exact if_pos member

/-- Whether the owner of an account reads one balance where the ciphertext
holds another number. -/
def misreads (address : Address) (read actual : Nat) (ledger : Ledger) :
    Bool :=
  match TokenAccounts.configured ledger.chain address with
  | none => false
  | some (account, state) =>
      decide
        ((availableBalance account (owners.keys address)).toOption =
            some read ∧
          state.availableBalance = encrypt actual)

end Transparent

end Remit
