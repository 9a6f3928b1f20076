import Remit.Solana.Message
import Mathlib.Algebra.Order.BigOperators.Group.List
import Mathlib.Algebra.Order.Group.Nat
import Mathlib.Data.Nat.Cast.Basic
import Mathlib.Data.List.Perm.Subperm

/-!
# How large a transaction gets

A transaction that carries fewer instructions is not larger, and one that fits
a packet has few account keys, so its message can be compiled.
-/

namespace Remit

namespace Message

variable {payer key : Address} {fewer more instructions : List WireInstruction}

theorem mem_accountKeys :
    key ∈ accountKeys payer instructions ↔
      key = payer ∨ ∃ instruction ∈ instructions,
        key = instruction.programId ∨
          ∃ account ∈ instruction.accounts, account.pubkey = key := by
  simp [accountKeys]

theorem mem_signerKeys :
    key ∈ signerKeys payer instructions ↔
      key = payer ∨ ∃ instruction ∈ instructions,
        ∃ account ∈ instruction.accounts,
          account.isSigner = true ∧ account.pubkey = key := by
  simp [signerKeys, and_assoc]

theorem mem_writableKeys :
    key ∈ writableKeys payer instructions ↔
      key = payer ∨ ∃ instruction ∈ instructions,
        ∃ account ∈ instruction.accounts,
          account.isWritable = true ∧ account.pubkey = key := by
  simp [writableKeys, and_assoc]

/-- More instructions bring no fewer keys, and no fewer of them sign. -/
theorem accountKeys_mono
    (payer : Address) (subset : fewer ⊆ more) :
    accountKeys payer fewer ⊆ accountKeys payer more := by
  intro key member
  rcases mem_accountKeys.mp member with isPayer | ⟨instruction, here, of⟩
  · exact mem_accountKeys.mpr (.inl isPayer)
  · exact mem_accountKeys.mpr (.inr ⟨instruction, subset here, of⟩)

theorem signerKeys_mono
    (payer : Address) (subset : fewer ⊆ more) :
    signerKeys payer fewer ⊆ signerKeys payer more := by
  intro key member
  rcases mem_signerKeys.mp member with isPayer | ⟨instruction, here, of⟩
  · exact mem_signerKeys.mpr (.inl isPayer)
  · exact mem_signerKeys.mpr (.inr ⟨instruction, subset here, of⟩)

theorem length_accountKeys_mono
    (payer : Address) (subset : fewer ⊆ more) :
    (accountKeys payer fewer).length ≤ (accountKeys payer more).length :=
  ((List.nodup_dedup _).subperm (accountKeys_mono payer subset)).length_le

theorem length_signerKeys_mono
    (payer : Address) (subset : fewer ⊆ more) :
    (signerKeys payer fewer).length ≤ (signerKeys payer more).length :=
  ((List.nodup_dedup _).subperm (signerKeys_mono payer subset)).length_le

theorem signerKeys_subset :
    signerKeys payer instructions ⊆ accountKeys payer instructions := by
  intro key member
  rcases mem_signerKeys.mp member with
    isPayer | ⟨instruction, here, account, inside, _, same⟩
  · exact mem_accountKeys.mpr (.inl isPayer)
  · exact mem_accountKeys.mpr
      (.inr ⟨instruction, here, .inr ⟨account, inside, same⟩⟩)

theorem compactLength_mono {smaller larger : Nat} (le : smaller ≤ larger) :
    compactLength smaller ≤ compactLength larger := by
  unfold compactLength
  split <;> split <;> (try split) <;> (try split) <;> omega

/-- A message with some instructions left out is not longer. -/
theorem serializedLength_mono
    (payer : Address) (sublist : fewer.Sublist more) :
    serializedLength payer fewer ≤ serializedLength payer more := by
  have keys := length_accountKeys_mono payer sublist.subset
  have prefixes := compactLength_mono keys
  have count := compactLength_mono sublist.length_le
  have lengths :
      (fewer.map instructionLength).sum ≤ (more.map instructionLength).sum :=
    (sublist.map instructionLength).sum_le_sum (by simp)
  unfold serializedLength
  dsimp only
  omega

theorem length_accountKeys_le
    (payer : Address) (instructions : List WireInstruction) :
    (accountKeys payer instructions).length ≤
      1 + (instructions.map fun wire => 1 + wire.accounts.length).sum := by
  apply Nat.le_trans (List.dedup_sublist _).length_le
  simp [List.length_flatMap, Nat.add_comm]

/-- A message whose keys are the same but for some that are read only can be
compiled as well. -/
theorem headerFits_mono
    (keys : accountKeys payer fewer ⊆ accountKeys payer more)
    (signers : ∀ key,
      key ∈ signerKeys payer fewer ↔ key ∈ signerKeys payer more)
    (writable : writableKeys payer more ⊆ writableKeys payer fewer)
    (fits : headerFits payer more = true) :
    headerFits payer fewer = true := by
  have length_le : ∀ left right : List Address, left.Nodup → left ⊆ right →
      left.length ≤ right.length := fun left right distinct subset =>
    (distinct.subperm subset).length_le
  have readonly : ∀ chosen : Address → Bool, ∀ also : Address → Bool,
      (∀ key, chosen key = true → also key = true) →
      (((accountKeys payer fewer).filter
          (· ∉ writableKeys payer fewer)).filter chosen).length ≤
        (((accountKeys payer more).filter
          (· ∉ writableKeys payer more)).filter also).length := by
    intro chosen also implied
    apply length_le
    · exact ((List.nodup_dedup _).filter _).filter _
    · intro key member
      simp only [List.mem_filter, decide_eq_true_eq] at member ⊢
      exact ⟨⟨keys member.1.1, fun write => member.1.2 (writable write)⟩,
        implied key member.2⟩
  simp only [headerFits, Bool.and_eq_true, decide_eq_true_eq] at fits ⊢
  obtain ⟨⟨few, signed⟩, unsigned⟩ := fits
  refine ⟨⟨Nat.le_trans ?_ few, Nat.le_trans ?_ signed⟩,
    Nat.le_trans ?_ unsigned⟩
  · exact length_le _ _ (List.nodup_dedup _) fun key => (signers key).mp
  · exact readonly _ _ fun key => by simp [signers key]
  · exact readonly _ _ fun key => by simp [signers key]

/-- Bytes of a transaction no two of whose keys are equal. -/
def looseSize (instructions : List WireInstruction) : Nat :=
  let keys :=
    1 + (instructions.map fun wire => 1 + wire.accounts.length).sum
  let signers :=
    1 + (instructions.map fun wire =>
      (wire.accounts.filter (·.isSigner)).length).sum
  1 + signers * 64 +
    (3 + (compactLength keys + 32 * keys) + 32 +
      (compactLength instructions.length +
        (instructions.map instructionLength).sum))

/-- The header counts of a message with few keys fit. -/
theorem headerFits_of_few
    (few : (accountKeys payer instructions).length ≤ 255) :
    headerFits payer instructions = true := by
  have signers :
      (signerKeys payer instructions).length ≤
        (accountKeys payer instructions).length :=
    ((List.nodup_dedup _).subperm signerKeys_subset).length_le
  have readonly : ∀ choose also : Address → Bool,
      (((accountKeys payer instructions).filter choose).filter also).length ≤
        255 := fun choose also =>
    Nat.le_trans (List.length_filter_le ..)
      (Nat.le_trans (List.length_filter_le ..) few)
  simp only [headerFits, Bool.and_eq_true, decide_eq_true_eq]
  exact ⟨⟨Nat.le_trans signers few, readonly _ _⟩, readonly _ _⟩

end Message

namespace WireInstruction

/-- The estimated size of a signed transaction. -/
def transactionSize (instructions : List WireInstruction) (payer : Address) :
    Nat :=
  1 + (Message.signerKeys payer instructions).length * 64 +
    Message.serializedLength payer instructions

def fitsInOneTransaction (instructions : List WireInstruction)
    (payer : Address) : Bool :=
  decide (transactionSize instructions payer ≤ PACKET_DATA_SIZE)

theorem transactionSize_mono
    {fewer more : List WireInstruction} {payer : Address}
    (sublist : fewer.Sublist more) :
    transactionSize fewer payer ≤ transactionSize more payer := by
  have signers := Message.length_signerKeys_mono payer sublist.subset
  have message := Message.serializedLength_mono payer sublist
  unfold transactionSize
  omega

end WireInstruction

section Size

variable {programs : Programs} {payer : Address}
  {fewer more instructions : List Instruction}

/-- The wire form of a list of instructions. -/
theorem wires_subset
    (programs : Programs) (subset : fewer ⊆ more) :
    fewer.map (Instruction.wire programs) ⊆
      more.map (Instruction.wire programs) :=
  List.map_subset _ subset

theorem transactionSize_mono (sublist : fewer.Sublist more) :
    transactionSize programs fewer payer ≤
      transactionSize programs more payer :=
  WireInstruction.transactionSize_mono (sublist.map (Instruction.wire programs))

theorem fitsInOneTransaction_mono
    (sublist : fewer.Sublist more)
    (fits : fitsInOneTransaction programs more payer = true) :
    fitsInOneTransaction programs fewer payer = true := by
  have small := of_decide_eq_true fits
  exact decide_eq_true (Nat.le_trans (transactionSize_mono sublist) small)

/-- The size of a transaction in its parts. -/
theorem transactionSize_ge
    (programs : Programs) (instructions : List Instruction)
    (payer : Address) :
    64 * (Message.signerKeys payer
          (instructions.map (Instruction.wire programs))).length +
        32 * (Message.accountKeys payer
          (instructions.map (Instruction.wire programs))).length +
        (instructions.map fun instruction =>
          Message.instructionLength (instruction.wire programs)).sum ≤
      transactionSize programs instructions payer := by
  unfold transactionSize Message.serializedLength
  dsimp only
  rw [List.map_map]
  simp only [Function.comp_def]
  omega

/-- A transaction is at most as large as if no two of its keys were equal. -/
theorem transactionSize_le
    (programs : Programs) (instructions : List Instruction)
    (payer : Address) :
    transactionSize programs instructions payer ≤
      Message.looseSize (instructions.map (Instruction.wire programs)) := by
  generalize wiresAre : instructions.map (Instruction.wire programs) = wires
  have keys := Message.length_accountKeys_le payer wires
  have signers :
      (Message.signerKeys payer wires).length ≤
        1 + (wires.map fun wire =>
          (wire.accounts.filter (·.isSigner)).length).sum := by
    apply Nat.le_trans (List.dedup_sublist _).length_le
    simp [List.length_flatMap, Nat.add_comm]
  have prefixes := Message.compactLength_mono keys
  unfold transactionSize Message.serializedLength Message.looseSize
  rw [wiresAre]
  dsimp only
  omega

/-- Whatever fits a packet has few account keys. -/
theorem accountKeys_of_fits
    (fits : fitsInOneTransaction programs instructions payer = true) :
    (Message.accountKeys payer
      (instructions.map (Instruction.wire programs))).length ≤ 38 := by
  have small := of_decide_eq_true fits
  have parts := transactionSize_ge programs instructions payer
  unfold PACKET_DATA_SIZE at small
  omega

/-- Every instruction takes at least three bytes. -/
theorem length_of_fits
    (fits : fitsInOneTransaction programs instructions payer = true) :
    3 * instructions.length ≤ PACKET_DATA_SIZE := by
  have small := of_decide_eq_true fits
  have parts := transactionSize_ge programs instructions payer
  have prefixed : ∀ n, 1 ≤ Message.compactLength n := fun n => by
    unfold Message.compactLength
    split <;> (try split) <;> decide
  have each : ∀ length ∈ instructions.map (fun instruction =>
      Message.instructionLength (instruction.wire programs)), 3 ≤ length := by
    intro length member
    obtain ⟨instruction, _, rfl⟩ := List.mem_map.mp member
    have accounts := prefixed (instruction.wire programs).accounts.length
    have data := prefixed (instruction.wire programs).data.length
    unfold Message.instructionLength
    omega
  have lengths := List.card_nsmul_le_sum _ 3 each
  rw [List.length_map, nsmul_eq_mul, Nat.cast_id] at lengths
  omega

/-- One more instruction brings at most its own keys. -/
theorem length_accountKeys_append
    (payer : Address) (instructions : List WireInstruction)
    (last : WireInstruction) :
    (Message.accountKeys payer (instructions ++ [last])).length ≤
      (Message.accountKeys payer instructions).length +
        (1 + last.accounts.length) := by
  have inside :
      Message.accountKeys payer (instructions ++ [last]) ⊆
        Message.accountKeys payer instructions ++
          last.programId :: last.accounts.map (·.pubkey) := by
    intro key member
    rw [List.mem_append, List.mem_cons, List.mem_map]
    rcases Message.mem_accountKeys.mp member with
      isPayer | ⟨instruction, among, of⟩
    · exact .inl (Message.mem_accountKeys.mpr (.inl isPayer))
    · rcases List.mem_append.mp among with earlier | here
      · exact .inl
          (Message.mem_accountKeys.mpr (.inr ⟨instruction, earlier, of⟩))
      · rw [List.mem_singleton.mp here] at of
        exact .inr of
  have distinct : (Message.accountKeys payer (instructions ++ [last])).Nodup :=
    List.nodup_dedup _
  have bound := (distinct.subperm inside).length_le
  rw [List.length_append, List.length_cons, List.length_map] at bound
  omega

/-- Every compute budget takes the same room. -/
theorem transactionSize_withComputeUnitLimit
    (units other : Nat) (instructions : List Instruction) :
    transactionSize programs (withComputeUnitLimit units instructions) payer =
      transactionSize programs (withComputeUnitLimit other instructions)
        payer := by
  simp [transactionSize, withComputeUnitLimit, Message.serializedLength,
    Message.signerKeys, Message.accountKeys, Message.instructionLength,
    Instruction.wire]

theorem fitsInOneTransaction_withComputeUnitLimit
    (units other : Nat) (instructions : List Instruction) :
    fitsInOneTransaction programs (withComputeUnitLimit units instructions)
        payer =
      fitsInOneTransaction programs (withComputeUnitLimit other instructions)
        payer := by
  unfold fitsInOneTransaction
  rw [transactionSize_withComputeUnitLimit units other]

end Size
end Remit
