import Remit.Proofs.Dispatch

/-!
# What a transaction is charged

The runtime charges every instruction and stops a transaction that has used up
its compute budget.  What the library puts into a transaction besides proofs
and records are account creations and the budget itself: a packet has room for
so few of them that one constant allowance covers them.
-/

namespace Remit

variable {C : Cluster}

/-- What one system-program or compute-budget instruction is charged. -/
def BUILTIN_UNITS : Nat := 150

/-- What the runtime charges for the instructions that the library builds. -/
structure Charges (charge : Instruction → Nat) : Prop where
  setComputeUnitLimit : ∀ units,
    charge (.setComputeUnitLimit units) ≤ BUILTIN_UNITS
  createAccount : ∀ fromAddress toAddress lamports space owner,
    charge (.createAccount fromAddress toAddress lamports space owner) ≤
      BUILTIN_UNITS
  verifyProof : ∀ instruction context proof,
    charge (.verifyProof instruction context proof) ≤ computeUnits instruction
  verifyProofFromAccount : ∀ instruction context account offset,
    charge (.verifyProofFromAccount instruction context account offset) ≤
      computeUnits instruction
  closeContextState : ∀ context destination,
    charge (.closeContextState context destination) ≤
      computeUnits .closeContextState
  recordWrite : ∀ record authority offset data,
    charge (.recordWrite record authority offset data) ≤ RECORD_WRITE_UNITS
  recordCloseAccount : ∀ record authority receiver,
    charge (.recordCloseAccount record authority receiver) ≤
      RECORD_CLOSE_UNITS

/-- The transaction starts with a compute budget that covers its charges. -/
def Covered (charge : Instruction → Nat) (transaction : List Instruction) :
    Prop :=
  ∃ limit instructions,
    transaction = withComputeUnitLimit limit instructions ∧
      (transaction.map charge).sum ≤ limit

/-- Some instruction is one of the ZK ElGamal Proof program. -/
def Proves (programs : Programs) (transaction : List Instruction) : Prop :=
  ∃ instruction ∈ transaction,
    (instruction.wire programs).programId = programs.zkElGamalProof

theorem Programs.system_ne_zk (programs : Programs) :
    programs.system ≠ programs.zkElGamalProof := by
  have distinct := programs.distinct
  intro same
  rw [same] at distinct
  simp at distinct

theorem Programs.record_ne_zk (programs : Programs) :
    programs.record ≠ programs.zkElGamalProof := by
  have distinct := programs.distinct
  intro same
  rw [same] at distinct
  simp at distinct

theorem not_proves_writing
    (programs : Programs) (record payer : Address) (offset : Nat)
    (data : Bytes) :
    ¬ Proves programs [.recordWrite record payer offset data] := by
  rintro ⟨instruction, member, isProof⟩
  rw [List.mem_singleton.mp member] at isProof
  exact programs.record_ne_zk isProof

theorem not_proves_recordOpening
    (programs : Programs) (payer record : Address) (lamports space : Nat)
    (chunk : Bytes) :
    ¬ Proves programs
      (recordOpening programs payer record lamports space chunk) := by
  rintro ⟨instruction, member, isProof⟩
  simp only [recordOpening, List.mem_cons, List.not_mem_nil, or_false]
    at member
  rcases member with rfl | rfl | rfl
  · exact programs.system_ne_zk isProof
  · exact programs.record_ne_zk isProof
  · exact programs.record_ne_zk isProof

/-! ## How many contexts a packet creates -/

/-- A transaction that creates `created` has room for few of them: each is a
key of its own and signs. -/
theorem few_created_of_fits
    {programs : Programs} {payer : Address} {instructions : List Instruction}
    {created : List Address}
    (fits : fitsInOneTransaction programs instructions payer = true)
    (distinct : created.Nodup)
    (creates : ∀ address ∈ created, ∃ lamports space owner,
      .createAccount payer address lamports space owner ∈ instructions) :
    created.length ≤ 12 := by
  have signing : created ⊆ Message.signerKeys payer
      (instructions.map (Instruction.wire programs)) := by
    intro address member
    obtain ⟨lamports, space, owner, here⟩ := creates address member
    apply Message.mem_signerKeys.mpr
    refine .inr ⟨_, List.mem_map_of_mem here, ⟨address, true, true⟩, ?_, rfl,
      rfl⟩
    exact List.mem_cons_of_mem _ List.mem_cons_self
  have signers := (distinct.subperm signing).length_le
  have keys := (distinct.subperm
    (List.Subset.trans signing Message.signerKeys_subset)).length_le
  have parts := transactionSize_ge programs instructions payer
  have small := of_decide_eq_true fits
  unfold PACKET_DATA_SIZE at small
  omega

/-! ## The transactions of the proof operations -/

section Covering

variable {charge : Instruction → Nat} (charges : Charges charge)

include charges

theorem covered_verifying
    (programs : Programs) (payer context : Address) (lamports space : Nat)
    (instruction : ProofInstruction) (proof : Bytes) :
    Covered charge
      (verifying programs payer context
        (computeUnits instruction + OVERHEAD_UNITS) lamports space instruction
        proof) := by
  refine ⟨_, _, rfl, ?_⟩
  have budget := charges.setComputeUnitLimit
    (computeUnits instruction + OVERHEAD_UNITS)
  have create := charges.createAccount payer context lamports space
    programs.zkElGamalProof
  have verify := charges.verifyProof instruction
    (some (contextInfo context payer)) proof
  unfold BUILTIN_UNITS at budget create
  simp only [verifying, withComputeUnitLimit, List.map_cons, List.map_nil,
    List.sum_cons, List.sum_nil, OVERHEAD_UNITS] at budget ⊢
  omega

theorem charge_close_le
    {payer : Address} {item : Instruction × Nat}
    (isClose : IsClose payer item) : charge item.1 ≤ item.2 := by
  rcases isClose with ⟨context, rfl⟩ | ⟨record, rfl⟩
  · exact charges.closeContextState _ _
  · exact charges.recordCloseAccount _ _ _

theorem covered_closing
    {payer : Address} {batch : List (Instruction × Nat)}
    (closes : ∀ item ∈ batch, IsClose payer item) :
    Covered charge (batchTransaction batch) := by
  refine ⟨_, _, rfl, ?_⟩
  have each :
      ((batch.map Prod.fst).map charge).sum ≤ (batch.map Prod.snd).sum := by
    rw [List.map_map]
    exact List.sum_le_sum fun item member =>
      charge_close_le charges (closes item member)
  have budget := charges.setComputeUnitLimit
    ((batch.map Prod.snd).sum + OVERHEAD_UNITS)
  unfold BUILTIN_UNITS at budget
  simp only [batchTransaction, withComputeUnitLimit, List.map_cons,
    List.sum_cons, OVERHEAD_UNITS] at budget ⊢
  omega

/-- The part of one staged proof is charged one account creation more than its
budget. -/
theorem charge_stagedPart_le
    {staged : Staged} (settled : staged.Settled C) (withTails : Bool) :
    ((ProofAccounts.stagedPart withTails staged).map charge).sum ≤
      ProofAccounts.stagedUnits withTails staged + BUILTIN_UNITS := by
  obtain ⟨instruction, record, verify, units, tails⟩ := settled.charged
  obtain ⟨lamports, space, create⟩ := settled.create
  have created := charges.createAccount C.payer staged.context.pubkey lamports
    space C.programs.zkElGamalProof
  have verified := charges.verifyProofFromAccount instruction
    (some (contextInfo staged.context.pubkey C.payer)) record
    RecordData.WRITABLE_START_INDEX
  rw [← create] at created
  rw [← verify, ← units] at verified
  cases withTails with
  | false =>
      simp only [ProofAccounts.stagedPart, ProofAccounts.stagedUnits]
      simp
      omega
  | true =>
      cases kept : staged.tailWrite with
      | none =>
          simp only [ProofAccounts.stagedPart, ProofAccounts.stagedUnits, kept]
          simp
          omega
      | some write =>
          obtain ⟨offset, data, isWrite, _⟩ := tails write kept
          have written := charges.recordWrite record C.payer offset data
          rw [← isWrite] at written
          simp only [ProofAccounts.stagedPart, ProofAccounts.stagedUnits, kept]
          simp
          omega

theorem charge_staged_le
    {staged : List Staged} (settled : ∀ one ∈ staged, one.Settled C)
    (withTails : Bool) :
    ((staged.flatMap (ProofAccounts.stagedPart withTails)).map charge).sum ≤
      (staged.map (ProofAccounts.stagedUnits withTails)).sum +
        staged.length * BUILTIN_UNITS := by
  induction staged with
  | nil => exact Nat.le_refl _
  | cons one rest inductionHypothesis =>
      have first := charge_stagedPart_le charges
        (settled one List.mem_cons_self) withTails
      have others := inductionHypothesis fun other member =>
        settled other (List.mem_cons_of_mem _ member)
      rw [List.flatMap_cons, List.map_append, List.sum_append, List.map_cons,
        List.sum_cons, List.length_cons, Nat.succ_mul]
      omega

theorem charge_closes_le (contexts records : List Address) (payer : Address) :
    ((contexts.map fun context =>
          Instruction.closeContextState (contextInfo context payer)
            payer).map charge).sum +
        ((records.map fun record =>
          Instruction.recordCloseAccount record payer payer).map charge).sum ≤
      contexts.length * computeUnits .closeContextState +
        records.length * RECORD_CLOSE_UNITS := by
  have closing := List.sum_le_card_nsmul
    ((contexts.map fun context =>
      Instruction.closeContextState (contextInfo context payer) payer).map
        charge) (computeUnits .closeContextState) (by
      intro units member
      simp only [List.map_map, List.mem_map, Function.comp_apply] at member
      obtain ⟨context, _, rfl⟩ := member
      exact charges.closeContextState _ _)
  have removing := List.sum_le_card_nsmul
    ((records.map fun record =>
      Instruction.recordCloseAccount record payer payer).map charge)
    RECORD_CLOSE_UNITS (by
      intro units member
      simp only [List.map_map, List.mem_map, Function.comp_apply] at member
      obtain ⟨record, _, rfl⟩ := member
      exact charges.recordCloseAccount _ _ _)
  simp only [List.length_map, nsmul_eq_mul, Nat.cast_id] at closing removing
  exact Nat.add_le_add closing removing

/-- The allowance covers the budget instruction and every creation of a staged
context, as there is no room for more of them. -/
theorem covered_consuming
    {self : ProofAccounts} {instructions : List Instruction} {units : Nat}
    {withTails : Bool}
    (settled : ∀ staged ∈ self.staged, staged.Settled C)
    (distinct : (self.staged.map (·.context.pubkey)).Nodup)
    (caller : (instructions.map charge).sum ≤ units)
    (fits : fitsInOneTransaction C.programs
      (withComputeUnitLimit (self.consumingUnits units withTails)
        (self.consuming C.payer instructions withTails)) C.payer = true) :
    Covered charge
      (withComputeUnitLimit (self.consumingUnits units withTails)
        (self.consuming C.payer instructions withTails)) := by
  refine ⟨_, _, rfl, ?_⟩
  have few : self.staged.length ≤ 12 := by
    rw [← List.length_map (·.context.pubkey)]
    refine few_created_of_fits fits distinct ?_
    intro address member
    obtain ⟨staged, among, rfl⟩ := List.mem_map.mp member
    obtain ⟨lamports, space, create⟩ := (settled staged among).create
    refine ⟨lamports, space, C.programs.zkElGamalProof, ?_⟩
    rw [← create]
    refine List.mem_cons_of_mem _ ?_
    simp only [ProofAccounts.consuming, List.mem_append, List.mem_flatMap]
    exact .inl (.inl (.inl ⟨staged, among, by
      simp [ProofAccounts.stagedPart]⟩))
  have budget := charges.setComputeUnitLimit
    (self.consumingUnits units withTails)
  have staged := charge_staged_le charges settled withTails
  have closes := charge_closes_le charges
    (self.contexts ++ self.staged.map (·.context.pubkey)) self.records C.payer
  simp only [List.length_append, List.length_map] at closes
  unfold BUILTIN_UNITS at budget staged
  simp only [withComputeUnitLimit, ProofAccounts.consuming, List.map_cons,
    List.map_append, List.sum_cons, List.sum_append] at closes ⊢
  have total :
      self.consumingUnits units withTails =
        units + 2000 +
            (self.staged.map
              (ProofAccounts.stagedUnits withTails)).sum +
          (self.contexts.length + self.staged.length) *
            computeUnits .closeContextState +
          self.records.length * RECORD_CLOSE_UNITS := rfl
  omega

end Covering
end Remit
