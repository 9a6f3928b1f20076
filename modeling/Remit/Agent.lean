import Remit.Library.Flow
import Remit.Solana.Derived
import Remit.Token.Public

/-!
# The agent

An on-chain program that moves tokens under an allowance.  The delegate that a
user approves is the mandate address, which is derived from the source, the
destination and the amount of each payment; the program signs for it.
-/

namespace Remit
namespace Agent

open Flows

/-- The address of the program. -/
def ID : Address :=
  ⟨[143, 234, 183, 51, 210, 26, 142, 239, 164, 131, 95, 80, 24, 100, 235, 214,
    119, 18, 215, 104, 179, 173, 255, 17, 227, 14, 237, 238, 63, 171, 154,
    112], rfl⟩

/-- Seed prefix of the mandate address. -/
def MANDATE_SEED : Bytes :=
  "mandate".toUTF8.toList

/-- Errors of the agent. -/
inductive AgentError where
  | wrongTokenProgram
  | mandateMismatch
  | mintNotOwnedByToken2022
  | feeOverflow
deriving DecidableEq

/-- The codes start at 6000, above those of Token-2022. -/
def AgentError.code : AgentError → Nat
  | wrongTokenProgram => 6000
  | mandateMismatch => 6001
  | mintNotOwnedByToken2022 => 6002
  | feeOverflow => 6003

def AgentError.toProgramError (error : AgentError) : ProgramError :=
  .custom error.code

inductive AgentInstruction where
  | executeMandate (amount : UInt64)
deriving DecidableEq

namespace AgentInstruction

/-- Serialize: a tag and the amount. -/
def pack : AgentInstruction → Bytes
  | executeMandate amount => 0 :: leBytes 8 amount.toNat

/-- Deserialize. -/
def unpack : Bytes → Except ProgramError AgentInstruction
  | 0 :: amount =>
      if amount.length = 8 then
        .ok (.executeMandate (UInt64.ofNat (leValue amount)))
      else .error .invalidInstructionData
  | _ => .error .invalidInstructionData

end AgentInstruction

/-- The seeds of a mandate without the bump. -/
def mandateSeeds (source destination : Address) (amount : UInt64) :
    List Bytes :=
  [MANDATE_SEED, source.bytes, destination.bytes, leBytes 8 amount.toNat]

/-- The mandate address for paying `amount` from `source` to `destination`. -/
def mandateAddress (hash : AddressHash) (source destination : Address)
    (amount : UInt64) : Option (Address × UInt8) :=
  findProgramAddress hash (mandateSeeds source destination amount) ID

/-- An account as the runtime passes it to a program. -/
structure AccountInfo (Data : Type) where
  key : Address
  isSigner : Bool
  isWritable : Bool
  owner : Address
  data : Data
deriving DecidableEq

/-- A call of another program: the instruction, the accounts handed over and
the seeds of the addresses that the calling program signs for. -/
structure Invocation (Data : Type) where
  program : Address
  instruction : TokenInstruction
  accounts : List (AccountInfo Data)
  signerSeeds : List (List Bytes)
deriving DecidableEq

section Processing

variable {Data : Type} (hash : AddressHash) (programs : Programs)
  (interface : TokenInterface Data)

/-- Take the next account of a list. -/
def nextAccountInfo : List (AccountInfo Data) →
    Except (Stop ProgramError) (AccountInfo Data × List (AccountInfo Data))
  | [] => .error (.error .notEnoughAccountKeys)
  | account :: rest => .ok (account, rest)

/-- Decimals and transfer-fee config of a Token-2022 mint.  Nothing else has
borrowed the data of the account. -/
def readMint (mint : AccountInfo Data) :
    Except ProgramError (Nat × Option TransferFeeConfig) :=
  if mint.owner ≠ programs.token2022 then
    .error AgentError.mintNotOwnedByToken2022.toProgramError
  else do
    let state ← interface.unpackMint mint.data
    let feeConfig :=
      (state.getExtension .transferFeeConfig 108
        interface.transferFeeConfig).toOption
    pure (state.base.decimals, feeConfig)

/-- Fee for an amount in the current epoch. -/
def epochFee (epoch : Nat) (feeConfig : Option TransferFeeConfig)
    (amount : Nat) : Except ProgramError Nat :=
  match feeConfig with
  | none => .ok 0
  | some config =>
      match config.calculateEpochFee epoch amount with
      | some fee => .ok fee
      | none => .error AgentError.feeOverflow.toProgramError

/-- Program entrypoint, up to the call of the token program that it ends
with.  Deriving an address panics where no bump seed works. -/
def processInstruction (epoch : Nat) (programId : Address)
    (accounts : List (AccountInfo Data)) (instructionData : Bytes) :
    Except (Stop ProgramError) (Invocation Data) := do
  let .executeMandate amount ←
    (AgentInstruction.unpack instructionData).mapError Stop.error
  let (source, accounts) ← nextAccountInfo accounts
  let (mint, accounts) ← nextAccountInfo accounts
  let (destination, accounts) ← nextAccountInfo accounts
  let (mandate, accounts) ← nextAccountInfo accounts
  let (tokenProgram, _) ← nextAccountInfo accounts
  if tokenProgram.key ≠ programs.token2022 then
    throw (.error AgentError.wrongTokenProgram.toProgramError)
  let seeds := mandateSeeds source.key destination.key amount
  match findProgramAddress hash seeds programId with
  | none => throw .panic
  | some (expected, bump) =>
      if mandate.key ≠ expected then
        throw (.error AgentError.mandateMismatch.toProgramError)
      let (decimals, feeConfig) ←
        (readMint programs interface mint).mapError Stop.error
      let fee ← (epochFee epoch feeConfig amount.toNat).mapError Stop.error
      let transfer := TokenInstruction.transferCheckedWithFee source.key
        mint.key destination.key mandate.key amount.toNat decimals fee
      (programs.tokenCheck transfer).mapError Stop.error
      pure
        { program := tokenProgram.key
          instruction := transfer
          accounts := [source, mint, destination, mandate, tokenProgram]
          signerSeeds := [seeds ++ [[bump]]] }

end Processing

/-! ## What the entrypoint lets through -/

section Passing

variable {Data : Type} {hash : AddressHash} {programs : Programs}
  {interface : TokenInterface Data}

/-- What is invoked is a transfer by the token program of the amount in the
mandate, from its source to its destination, signed with its seeds. -/
theorem processInstruction_eq_ok
    {epoch : Nat} {programId : Address} {accounts : List (AccountInfo Data)}
    {instructionData : Bytes} {invocation : Invocation Data}
    (processed :
      processInstruction hash programs interface epoch programId accounts
        instructionData = .ok invocation) :
    ∃ source destination mint mandate amount bump decimals fee,
      findProgramAddress hash (mandateSeeds source destination amount)
          programId = some (mandate, bump) ∧
        invocation.program = programs.token2022 ∧
        invocation.instruction =
          .transferCheckedWithFee source mint destination mandate amount.toNat
            decimals fee ∧
        invocation.signerSeeds =
          [mandateSeeds source destination amount ++ [[bump]]] := by
  unfold processInstruction at processed
  obtain ⟨⟨amount⟩, _, processed⟩ := except_bind_eq_ok processed
  obtain ⟨⟨source, _⟩, _, processed⟩ := except_bind_eq_ok processed
  obtain ⟨⟨mint, _⟩, _, processed⟩ := except_bind_eq_ok processed
  obtain ⟨⟨destination, _⟩, _, processed⟩ := except_bind_eq_ok processed
  obtain ⟨⟨mandate, _⟩, _, processed⟩ := except_bind_eq_ok processed
  obtain ⟨⟨tokenProgram, _⟩, _, processed⟩ := except_bind_eq_ok processed
  dsimp only at processed
  split at processed
  case isTrue => cases processed
  case isFalse ofToken2022 =>
      split at processed
      case h_1 => cases processed
      case h_2 expected bump found =>
          split at processed
          case isTrue => cases processed
          case isFalse same =>
              obtain ⟨⟨decimals, feeConfig⟩, _, processed⟩ :=
                except_bind_eq_ok processed
              obtain ⟨fee, _, processed⟩ := except_bind_eq_ok processed
              obtain ⟨_, _, processed⟩ := except_bind_eq_ok processed
              cases processed
              refine ⟨source.key, destination.key, mint.key, mandate.key,
                amount, bump, decimals, fee, ?_, not_not.mp ofToken2022, rfl,
                rfl⟩
              rw [found, not_not.mp same]

end Passing

end Agent
end Remit
