import Remit.Proofs.Assembly
import Remit.Proofs.ExactReading
import Remit.Proofs.Packets

/-!
# The consuming transaction is well formed

Whatever was verified and staged, the transaction that uses the proofs meets
what each of its parts requires, on the chain as the earlier sends left it.
-/

namespace Remit

open Flows Flow

variable {C : Cluster}

/-- The parts of a transaction that uses `proofs` and closes `tracked`, signed
by `keys` and executed on `accounts`. -/
structure WellFormed (C : Cluster) (proofs : List VerifiedProof)
    (tracked : List Address) (keys : List Address) (accounts : Accounts)
    (staging instructions closings : List Instruction) : Prop where
  /-- The key of every context that is created signs. -/
  signed : ∀ address ∈ created staging, address ∈ keys
  runs : ∃ used,
    runTransaction C.programs keys staging accounts = some used
  /-- A verification comes after the creation of its context, and finds the
  whole proof in its record. -/
  complete : ∀ before instruction context record offset after,
    staging =
        before ++
          .verifyProofFromAccount instruction (some context) record offset ::
            after →
      ∃ proof ∈ proofs,
        proof.instruction = instruction ∧
          context = contextInfo proof.context C.payer ∧
          offset = RecordData.WRITABLE_START_INDEX ∧
          proof.context ∈ created before ∧
          ∀ reached,
            runTransaction C.programs keys before accounts = some reached →
              reached record = some (.record C.payer proof.bytes)
  /-- Wherever an instruction of the caller runs, every proof is verified and
  its context is open. -/
  verified : ∀ before after, instructions = before ++ after → ∀ reached,
    runTransaction C.programs keys (staging ++ before) accounts =
        some reached →
      ∀ proof ∈ proofs,
        reached proof.context =
          some (.context C.payer proof.instruction proof.bytes)
  /-- Nothing is closed before the caller's instructions, and everything
  exactly once after them. -/
  keepsOpen : ∀ instruction ∈ staging, instruction.closes = none
  closes : closings.map Instruction.closes = tracked.map some
  once : tracked.Nodup
  finishes : ∀ reached,
    runTransaction C.programs keys (staging ++ instructions) accounts =
        some reached →
      ∃ after,
        runTransaction C.programs keys closings reached = some after ∧
          ∀ address ∈ tracked, after address = none

/-- The addresses that the consuming transaction closes, in order. -/
def ProofAccounts.closed (self : ProofAccounts) : List Address :=
  self.contexts ++ self.staged.map (·.context.pubkey) ++ self.records

/-- `one` carries the caller's instructions in one piece between well-formed
parts. -/
def Assembled (C : Cluster) (proofs : List VerifiedProof)
    (self : ProofAccounts) (instructions : List Instruction)
    (one : Sent C.State) : Prop :=
  ∃ limit staging closings,
    one.transaction =
        withComputeUnitLimit limit (staging ++ instructions ++ closings) ∧
      WellFormed C proofs self.closed
        (C.payer :: one.signers.map (·.pubkey))
        (C.accounts one.delivery.before) staging instructions closings

/-! ## The staged parts -/

/-- An element of a concatenation lies in one of its pieces. -/
theorem flatMap_eq_append_cons
    {α β : Type} {f : α → List β} {items : List α} {before after : List β}
    {b : β} (split : items.flatMap f = before ++ b :: after) :
    ∃ finished item rest first last,
      items = finished ++ item :: rest ∧ f item = first ++ b :: last ∧
        before = finished.flatMap f ++ first := by
  induction items generalizing before with
  | nil => simp at split
  | cons item rest inductionHypothesis =>
      rw [List.flatMap_cons] at split
      rcases List.append_eq_append_iff.mp split with
        ⟨between, isBefore, others⟩ | ⟨between, here, others⟩
      · obtain ⟨finished, found, rest, first, last, items, inside, same⟩ :=
          inductionHypothesis others
        refine ⟨item :: finished, found, rest, first, last, ?_, inside, ?_⟩
        · rw [items, List.cons_append]
        · rw [isBefore, same, List.flatMap_cons, List.append_assoc]
      · cases between with
        | nil =>
            have regrouped : rest.flatMap f = [] ++ b :: after := others.symm
            obtain ⟨finished, found, rest, first, last, items, inside,
              same⟩ := inductionHypothesis regrouped
            refine ⟨item :: finished, found, rest, first, last, ?_, inside,
              ?_⟩
            · rw [items, List.cons_append]
            · rw [List.flatMap_cons, List.append_assoc, ← same, here,
                List.append_nil, List.append_nil]
        | cons head between =>
            cases others
            exact ⟨[], item, rest, before, between, rfl, here, by simp⟩

section Parts

variable {programs : Programs} {payer : Address} {keys : List Address}
  {accounts : Accounts} {log : ProofLog} {withTails : Bool}
  {proof : StagedProof} {instruction : Instruction}

namespace StagedProof

theorem Carried.mem_preparation
    (carried : proof.Carried programs payer accounts)
    (member : instruction ∈ proof.preparation withTails) :
    (∃ offset data, instruction = .recordWrite proof.record payer offset data) ∨
      ∃ lamports space,
        instruction =
          .createAccount payer proof.context lamports space
            programs.zkElGamalProof := by
  obtain ⟨lamports, space, create⟩ := carried.create
  rcases List.mem_append.mp member with tail | creation
  · obtain ⟨position, _, _, _, _, noTail | kept⟩ := carried.written
    · simp [noTail.1] at tail
    · refine .inl ⟨position, proof.bytes.drop position, ?_⟩
      rw [kept] at tail
      split at tail
      · exact List.mem_singleton.mp tail
      · cases tail
  · exact .inr ⟨lamports, space, (List.mem_singleton.mp creation).trans create⟩

/-- The only verification of a part is its last instruction. -/
theorem Carried.part_split
    {first last : List Instruction} {proofInstruction : ProofInstruction}
    {context : Option ContextStateInfo} {record : Address} {offset : Nat}
    (carried : proof.Carried programs payer accounts)
    (split : proof.part withTails =
      first ++
        .verifyProofFromAccount proofInstruction context record offset ::
          last) :
    first = proof.preparation withTails ∧
      proof.staged.verify =
        .verifyProofFromAccount proofInstruction context record offset := by
  rw [part_eq] at split
  rcases List.eq_nil_or_concat last with rfl | ⟨others, final, rfl⟩
  · have same := List.append_inj' split rfl
    exact ⟨same.1.symm, List.singleton_inj.mp same.2⟩
  · rw [List.concat_eq_append, ← List.cons_append, ← List.append_assoc]
      at split
    have inside :
        .verifyProofFromAccount proofInstruction context record offset ∈
          proof.preparation withTails := by
      rw [(List.append_inj' split rfl).1]
      exact List.mem_append_right _ List.mem_cons_self
    rcases carried.mem_preparation inside with
      ⟨_, _, impossible⟩ | ⟨_, _, impossible⟩
    · cases impossible
    · cases impossible

theorem Carried.mem_part
    (carried : proof.Carried programs payer accounts)
    (member : instruction ∈ proof.part withTails) :
    instruction.closes = none ∧
      ∀ address, instruction.creates = some address →
        address = proof.context := by
  rw [part_eq] at member
  rcases List.mem_append.mp member with preparing | verifying
  · rcases carried.mem_preparation preparing with
      ⟨_, _, rfl⟩ | ⟨_, _, rfl⟩
    · exact ⟨rfl, fun _ impossible => by cases impossible⟩
    · exact ⟨rfl, fun _ creates => (Option.some.inj creates).symm⟩
  · rw [List.mem_singleton.mp verifying, carried.verify]
    exact ⟨rfl, fun _ impossible => by cases impossible⟩

theorem Carried.created_preparation
    (carried : proof.Carried programs payer accounts) :
    proof.context ∈ created (proof.preparation withTails) := by
  obtain ⟨lamports, space, create⟩ := carried.create
  refine List.mem_filterMap.mpr ⟨proof.staged.create, ?_, ?_⟩
  · exact List.mem_append_right _ (List.mem_singleton_self _)
  · rw [create]
    rfl

end StagedProof

namespace ProofLog

/-- The proof that a staged proof becomes. -/
def proofs (log : ProofLog) : List VerifiedProof :=
  log.verified ++
    log.staged.map fun proof =>
      ⟨proof.context, proof.instruction, proof.bytes⟩

@[simp]
theorem withoutTails_proofs (log : ProofLog) :
    log.withoutTails.proofs = log.proofs := by
  simp [proofs, withoutTails, StagedProof.withoutTail, StagedProof.context]

theorem closed_proofAccounts (log : ProofLog) :
    log.proofAccounts.closed =
      log.verified.map (·.context) ++ log.stagedContexts ++ log.records := by
  simp only [ProofAccounts.closed, proofAccounts, stagedContexts,
    List.map_map]
  rfl

end ProofLog

/-- When the parts have run, every proof is verified and every record is still
there. -/
theorem Tracked.used
    {used : Accounts}
    (tracked : Tracked programs payer accounts log)
    (written : ∀ proof ∈ log.staged,
      withTails = false → proof.staged.tailWrite = none)
    (ran :
      runTransaction programs keys
        (log.staged.flatMap (StagedProof.part withTails)) accounts =
          some used) :
    (∀ proof ∈ log.proofs,
        used proof.context =
          some (.context payer proof.instruction proof.bytes)) ∧
      ∀ record ∈ log.records, ∃ payload,
        used record = some (.record payer payload) := by
  have verified := run_stagedParts tracked.staged tracked.distinct written ran
  constructor
  · intro proof member
    rcases List.mem_append.mp member with before | staged
    · exact tracked.verified_kept written ran proof before
    · obtain ⟨one, among, rfl⟩ := List.mem_map.mp staged
      exact verified.contexts one among
  · intro record member
    by_cases own : ∃ proof ∈ log.staged, proof.record = record
    · obtain ⟨proof, among, rfl⟩ := own
      exact ⟨proof.bytes, verified.records proof among⟩
    · push Not at own
      obtain ⟨payload, found⟩ := tracked.records record member
      refine ⟨payload, ?_⟩
      rw [verified.elsewhere]
      · exact found
      · intro proof among
        refine ⟨?_, fun same => own proof among same.symm⟩
        intro same
        rw [same, verified.fresh proof among] at found
        cases found

end Parts

/-- The parts of the consuming transaction are well formed on a chain that
agrees with the log, where the staged contexts are empty. -/
theorem Tracked.wellFormed
    {log : ProofLog} {keys : List Address} {accounts : Accounts}
    {instructions : List Instruction} {withTails : Bool}
    (tracked : Tracked C.programs C.payer accounts log)
    (written : ∀ proof ∈ log.staged,
      withTails = false → proof.staged.tailWrite = none)
    (distinct : (log.targets ++ log.stagedContexts).Nodup)
    (paid : C.payer ∈ keys)
    (signed : ∀ proof ∈ log.staged, proof.context ∈ keys)
    (blank : ∀ proof ∈ log.staged, accounts proof.context = none)
    (uses : ∀ instruction ∈ instructions, instruction.UsesProofs) :
    WellFormed C log.proofs log.proofAccounts.closed keys accounts
      (log.staged.flatMap (StagedProof.part withTails)) instructions
      (log.closings C.payer) := by
  have once : log.proofAccounts.closed.Nodup := by
    rw [log.closed_proofAccounts]
    refine List.Perm.nodup ?_ distinct
    rw [ProofLog.targets, List.append_assoc, List.append_assoc]
    exact .append_left _ List.perm_append_comm
  have closes : (log.closings C.payer).map Instruction.closes =
      log.proofAccounts.closed.map some := by
    rw [log.closed_proofAccounts]
    exact log.closes_closings C.payer
  constructor
  case signed =>
      intro address member
      obtain ⟨instruction, among, creates⟩ := List.mem_filterMap.mp member
      obtain ⟨proof, staged, inside⟩ := List.mem_flatMap.mp among
      rw [((tracked.staged proof staged).mem_part inside).2 address creates]
      exact signed proof staged
  case runs =>
      refine runs_stagedParts tracked.staged tracked.distinct ?_ written paid
        signed blank
      exact (List.nodup_append.mp distinct).2.1
  case complete =>
      intro before instruction context record offset after split
      obtain ⟨finished, proof, rest, first, last, staged, inside, rfl⟩ :=
        flatMap_eq_append_cons split
      have member : proof ∈ log.staged := by simp [staged]
      have carried := tracked.staged proof member
      obtain ⟨rfl, verify⟩ := carried.part_split inside
      rw [carried.verify] at verify
      cases verify
      refine ⟨⟨proof.context, proof.instruction, proof.bytes⟩, ?_, rfl, rfl,
        rfl, ?_, ?_⟩
      · exact List.mem_append_right _ (List.mem_map_of_mem member)
      · rw [created, List.filterMap_append]
        exact List.mem_append_right _ carried.created_preparation
      · exact fun reached ran => tracked.record_complete written staged ran
  case verified =>
      rintro before after rfl reached ran proof member
      obtain ⟨used, parts, rest⟩ := runTransaction_append_eq_some ran
      refine runTransaction_usesProofs ?_
        ((tracked.used written parts).1 proof member) trivial rest
      exact fun instruction among =>
        uses instruction (List.mem_append_left _ among)
  case keepsOpen =>
      intro instruction member
      obtain ⟨proof, staged, inside⟩ := List.mem_flatMap.mp member
      exact ((tracked.staged proof staged).mem_part inside).1
  case closes => exact closes
  case once => exact once
  case finishes =>
      intro reached ran
      obtain ⟨used, parts, rest⟩ := runTransaction_append_eq_some ran
      obtain ⟨verified, records⟩ := tracked.used written parts
      have stays : ∀ {address account}, used address = some account →
          account.HoldsProof → reached address = some account :=
        fun found holds => runTransaction_usesProofs uses found holds rest
      obtain ⟨after, closing⟩ := runs_closings
        closes once paid fun instruction member => by
          rcases List.mem_append.mp member with context | record
          · obtain ⟨address, among, rfl⟩ := List.mem_map.mp context
            have proven : ∃ proof ∈ log.proofs, proof.context = address := by
              rcases List.mem_append.mp among with early | staged
              · obtain ⟨proof, inside, same⟩ := List.mem_map.mp early
                exact ⟨proof, List.mem_append_left _ inside, same⟩
              · obtain ⟨proof, inside, same⟩ := List.mem_map.mp staged
                exact ⟨_, List.mem_append_right _
                  (List.mem_map_of_mem inside), same⟩
            obtain ⟨proof, inside, rfl⟩ := proven
            exact .inl ⟨proof.context, proof.instruction, proof.bytes, rfl,
              stays (verified proof inside) trivial⟩
          · obtain ⟨address, among, rfl⟩ := List.mem_map.mp record
            obtain ⟨payload, found⟩ := records address among
            exact .inr ⟨address, payload, rfl, stays found trivial⟩
      refine ⟨after, closing, fun address member => ?_⟩
      rw [runTransaction_closes closes closing address, if_pos member]

end Remit
