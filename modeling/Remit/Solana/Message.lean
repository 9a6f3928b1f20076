import Remit.Solana.Instruction
import Mathlib.Data.List.Dedup

/-!
# Legacy messages and their size

`Message::new` collects the distinct account keys of the payer and of all
instructions.  A key signs when it signs in any instruction.  The size of the
signed transaction follows from the numbers of keys, signers and instructions
and from the account lists and data of the instructions.
-/

namespace Remit

namespace Message

/-- The distinct account keys of a message. -/
def accountKeys (payer : Address) (instructions : List WireInstruction) :
    List Address :=
  (payer :: instructions.flatMap fun instruction =>
    instruction.programId :: instruction.accounts.map (·.pubkey)).dedup

/-- The distinct keys that must sign. -/
def signerKeys (payer : Address) (instructions : List WireInstruction) :
    List Address :=
  (payer :: instructions.flatMap fun instruction =>
    (instruction.accounts.filter (·.isSigner)).map (·.pubkey)).dedup

/-- The distinct keys some instruction may write, the payer included. -/
def writableKeys (payer : Address) (instructions : List WireInstruction) :
    List Address :=
  (payer :: instructions.flatMap fun instruction =>
    (instruction.accounts.filter (·.isWritable)).map (·.pubkey)).dedup

/-- Whether the header counts fit one byte each.  `Message::new` panics on a
message whose counts do not. -/
def headerFits (payer : Address) (instructions : List WireInstruction) :
    Bool :=
  let signers := signerKeys payer instructions
  let readonly :=
    (accountKeys payer instructions).filter
      (· ∉ writableKeys payer instructions)
  decide (signers.length ≤ 255) &&
    decide ((readonly.filter (· ∈ signers)).length ≤ 255) &&
    decide ((readonly.filter (· ∉ signers)).length ≤ 255)

/-- Bytes of a compact-u16 length prefix. -/
def compactLength (n : Nat) : Nat :=
  if n < 2 ^ 7 then 1 else if n < 2 ^ 14 then 2 else 3

/-- Bytes of a compiled instruction: program index, accounts, data. -/
def instructionLength (instruction : WireInstruction) : Nat :=
  1 + (compactLength instruction.accounts.length +
      instruction.accounts.length) +
    (compactLength instruction.data.length + instruction.data.length)

/-- Bytes of a serialized message: header, keys, blockhash, instructions. -/
def serializedLength (payer : Address) (instructions : List WireInstruction) :
    Nat :=
  let keys := (accountKeys payer instructions).length
  3 + (compactLength keys + 32 * keys) + 32 +
    (compactLength instructions.length +
      (instructions.map instructionLength).sum)

end Message

/-- Largest serialized transaction the network accepts. -/
def PACKET_DATA_SIZE : Nat := 1232

variable (programs : Programs)

/-- Serialized size of a legacy transaction carrying `instructions`. -/
def transactionSize (instructions : List Instruction) (payer : Address) : Nat :=
  let wires := instructions.map (Instruction.wire programs)
  1 + (Message.signerKeys payer wires).length * 64 +
    Message.serializedLength payer wires

/-- Whether `instructions` fit in a single transaction. -/
def fitsInOneTransaction (instructions : List Instruction) (payer : Address) :
    Bool :=
  decide (transactionSize programs instructions payer ≤ PACKET_DATA_SIZE)

/-- Prepend a `SetComputeUnitLimit` instruction. -/
def withComputeUnitLimit (units : Nat) (instructions : List Instruction) :
    List Instruction :=
  .setComputeUnitLimit units :: instructions

end Remit
