import Remit.Solana.Address

/-!
# Errors of the client library

The error type shared by every flow, and the errors of the runtime and of the
program interface crates that it carries.
-/

namespace Remit

/-- The errors of `solana_program_error` the code names; other values are kept
apart by their number. -/
inductive ProgramError where
  | invalidAccountData
  | invalidArgument
  | invalidInstructionData
  | notEnoughAccountKeys
  | custom (code : Nat)
  | other (number : Nat)
deriving DecidableEq, Repr

inductive InstructionError where
  | custom (code : Nat)
  | other (number : Nat)
deriving DecidableEq, Repr

inductive TransactionError where
  | instructionError (index : Nat) (error : InstructionError)
  | other (number : Nat)
deriving DecidableEq, Repr

/-- Everything that can go wrong in a flow. -/
inductive Error where
  /-- The cluster executed the transaction and it failed. -/
  | transaction (err : TransactionError) (logs : List String)
  /-- The transaction would not fit in a network packet. -/
  | transactionTooLarge (size limit : Nat)
  | accountNotFound (address : Address)
  /-- Decoding or instruction-building error of a program interface crate. -/
  | program (error : ProgramError)
  | crypto (text : String)
  | insufficientConfidentialBalance (available requested : Nat)
  /-- A precondition was violated before anything was sent. -/
  | invalid (text : String)
deriving DecidableEq

namespace Error

/-- Index and error of the failing instruction of a failed transaction. -/
def instructionError : Error → Option (Nat × InstructionError)
  | transaction (.instructionError index err) _ => some (index, err)
  | _ => none

/-- Custom program error code, if the failing instruction returned one. -/
def customCode (error : Error) : Option Nat :=
  match error.instructionError with
  | some (_, .custom code) => some code
  | _ => none

end Error

/-- Propagate a program error as `?` does through `From<ProgramError>`. -/
def ofProgram {α : Type} : Except ProgramError α → Except Error α
  | .ok a => .ok a
  | .error e => .error (.program e)

theorem ofProgram_eq_ok
    {α : Type} {outcome : Except ProgramError α} {a : α}
    (equality : ofProgram outcome = .ok a) : outcome = .ok a := by
  cases outcome with
  | error e => cases equality
  | ok value =>
      cases equality
      rfl

end Remit
