import Remit.Proofs.Tracking

/-!
# What the consuming and the closing transactions do

The staged proofs are completed, verified into their contexts, used and closed
in one transaction.  The lemmas follow its instructions in order, from the
accounts a `ProofLog` describes.
-/

namespace Remit

open ProofAccounts

variable {programs : Programs} {payer : Address} {signers : List Address}
  {accounts after : Accounts} {log : ProofLog}

namespace StagedProof

variable {proof : StagedProof}

/-- The instructions of a staged proof in the consuming transaction. -/
def part (withTails : Bool) (proof : StagedProof) : List Instruction :=
  stagedPart withTails proof.staged

/-- The instructions of a staged proof that come before its verification. -/
def preparation (withTails : Bool) (proof : StagedProof) : List Instruction :=
  (if withTails then proof.staged.tailWrite.toList else []) ++
    [proof.staged.create]

theorem part_eq (withTails : Bool) (proof : StagedProof) :
    proof.part withTails =
      proof.preparation withTails ++ [proof.staged.verify] := by
  simp [part, preparation, stagedPart]

/-- Either way the tail travels, the record is complete before the context is
created. -/
theorem Carried.run_preparation
    {withTails : Bool}
    (carried : proof.Carried programs payer accounts)
    (written : withTails = false → proof.staged.tailWrite = none)
    (ran :
      runTransaction programs signers (proof.preparation withTails) accounts =
        some after) :
    accounts proof.context = none ∧
      ∃ space, after =
        Function.update
          (Function.update accounts proof.record
            (some (.record payer proof.bytes)))
          proof.context
          (some (.uninitialized programs.zkElGamalProof space)) := by
  obtain ⟨lamports, space, create⟩ := carried.create
  obtain ⟨old, found⟩ := carried.isRecord
  have completed :
      ∃ middle,
        middle =
            Function.update accounts proof.record
              (some (.record payer proof.bytes)) ∧
          proof.staged.create.run programs signers middle = some after := by
    rcases kept : proof.staged.tailWrite with _ | tail
    · refine ⟨accounts, ?_, ?_⟩
      · rw [← carried.complete kept, Function.update_eq_self]
      · simpa [preparation, kept] using ran
    · have tailed : withTails = true := by
        by_contra untailed
        rw [written (by simpa using untailed)] at kept
        cases kept
      simp only [preparation, tailed, kept, if_true, Option.toList_some] at ran
      obtain ⟨middle, first, second⟩ := runTransaction_append_eq_some ran
      rw [runTransaction_singleton] at first second
      exact ⟨middle, carried.landTail kept first, second⟩
  obtain ⟨middle, rfl, creation⟩ := completed
  rw [create] at creation
  obtain ⟨blank, rfl⟩ := run_createAccount (Or.inr rfl) creation
  have different : proof.context ≠ proof.record := by
    rintro same
    rw [same, Function.update_self] at blank
    cases blank
  rw [Function.update_of_ne different] at blank
  exact ⟨blank, space, rfl⟩

/-- A staged proof is verified from its complete record into its context. -/
theorem Carried.run_part
    {withTails : Bool}
    (carried : proof.Carried programs payer accounts)
    (written : withTails = false → proof.staged.tailWrite = none)
    (ran :
      runTransaction programs signers (proof.part withTails) accounts =
        some after) :
    accounts proof.context = none ∧
      after =
        Function.update
          (Function.update accounts proof.record
            (some (.record payer proof.bytes)))
          proof.context
          (some (.context payer proof.instruction proof.bytes)) := by
  rw [part_eq] at ran
  obtain ⟨middle, prepared, verification⟩ := runTransaction_append_eq_some ran
  obtain ⟨blank, _, rfl⟩ := carried.run_preparation written prepared
  rw [runTransaction_singleton, carried.verify] at verification
  obtain ⟨authority, payload, found, rfl⟩ :=
    run_verifyProofFromAccount verification
  obtain ⟨old, isRecord⟩ := carried.isRecord
  have different : proof.record ≠ proof.context := by
    intro same
    rw [same, blank] at isRecord
    cases isRecord
  rw [Function.update_of_ne different, Function.update_self] at found
  cases found
  exact ⟨blank, Function.update_idem ..⟩

end StagedProof

/-- The accounts between the staged verifications and the caller's
instructions. -/
structure Verified (payer : Address) (accounts : Accounts)
    (proofs : List StagedProof) (after : Accounts) : Prop where
  contexts : ∀ proof ∈ proofs,
    after proof.context =
      some (.context payer proof.instruction proof.bytes)
  records : ∀ proof ∈ proofs,
    after proof.record = some (.record payer proof.bytes)
  fresh : ∀ proof ∈ proofs, accounts proof.context = none
  elsewhere : ∀ address,
    (∀ proof ∈ proofs,
      address ≠ proof.context ∧ address ≠ proof.record) →
    after address = accounts address

/-- One more part, before which its context is empty and which leaves the other
records alone. -/
theorem Verified.cons
    {proof : StagedProof} {rest : List StagedProof} {middle : Accounts}
    (blank : accounts proof.context = none)
    (landed : middle =
      Function.update
        (Function.update accounts proof.record
          (some (.record payer proof.bytes)))
        proof.context (some (.context payer proof.instruction proof.bytes)))
    (apart : ∀ other ∈ proof :: rest, other.record ≠ proof.context)
    (own : proof.record ∉ rest.map (·.record))
    (later : Verified payer middle rest after) :
    Verified payer accounts (proof :: rest) after := by
  have middleContext :
      middle proof.context =
        some (.context payer proof.instruction proof.bytes) := by
    rw [landed, Function.update_self]
  have middleRecord :
      middle proof.record = some (.record payer proof.bytes) := by
    rw [landed, Function.update_of_ne (apart proof List.mem_cons_self),
      Function.update_self]
  have contextUntouched : ∀ other ∈ rest,
      proof.context ≠ other.context ∧ proof.context ≠ other.record := by
    intro other member
    refine ⟨?_, fun same => apart other (by simp [member]) same.symm⟩
    intro same
    have blankLater := later.fresh other member
    rw [← same, middleContext] at blankLater
    cases blankLater
  have recordUntouched : ∀ other ∈ rest,
      proof.record ≠ other.context ∧ proof.record ≠ other.record := by
    intro other member
    refine ⟨?_, fun same => own (same ▸ List.mem_map_of_mem member)⟩
    intro same
    have blankLater := later.fresh other member
    rw [← same, middleRecord] at blankLater
    cases blankLater
  constructor
  · intro other member
    rcases List.mem_cons.mp member with rfl | member
    · rw [later.elsewhere _ contextUntouched, middleContext]
    · exact later.contexts other member
  · intro other member
    rcases List.mem_cons.mp member with rfl | member
    · rw [later.elsewhere _ recordUntouched, middleRecord]
    · exact later.records other member
  · intro other member
    rcases List.mem_cons.mp member with rfl | member
    · exact blank
    · have blankLater := later.fresh other member
      by_cases same : other.context = proof.context
      · rw [same]
        exact blank
      · by_cases onRecord : other.context = proof.record
        · rw [onRecord, middleRecord] at blankLater
          cases blankLater
        · rwa [landed, Function.update_of_ne same,
            Function.update_of_ne onRecord] at blankLater
  · intro address away
    have awayHere := away proof List.mem_cons_self
    rw [later.elsewhere address fun other member =>
        away other (by simp [member]),
      landed, Function.update_of_ne awayHere.1,
      Function.update_of_ne awayHere.2]

/-- The staged parts run one after another; each finds its own record intact. -/
theorem run_stagedParts
    {withTails : Bool} {proofs : List StagedProof}
    (carried : ∀ proof ∈ proofs, proof.Carried programs payer accounts)
    (distinct : (proofs.map (·.record)).Nodup)
    (written : ∀ proof ∈ proofs,
      withTails = false → proof.staged.tailWrite = none)
    (ran :
      runTransaction programs signers
        (proofs.flatMap (StagedProof.part withTails)) accounts = some after) :
    Verified payer accounts proofs after := by
  induction proofs generalizing accounts with
  | nil =>
      cases ran
      exact ⟨by simp, by simp, by simp, fun _ _ => rfl⟩
  | cons proof rest inductionHypothesis =>
      rw [List.flatMap_cons] at ran
      obtain ⟨middle, first, restRan⟩ := runTransaction_append_eq_some ran
      obtain ⟨blank, landed⟩ :=
        (carried proof List.mem_cons_self).run_part
          (written proof List.mem_cons_self) first
      simp only [List.map_cons, List.nodup_cons] at distinct
      -- The context was empty, so it is no record that is still to be read.
      have apart : ∀ other ∈ proof :: rest, other.record ≠ proof.context := by
        intro other member same
        obtain ⟨_, isRecord⟩ := (carried other member).isRecord
        rw [same, blank] at isRecord
        cases isRecord
      have intact : ∀ other ∈ rest,
          middle other.record = accounts other.record := by
        intro other member
        rw [landed, Function.update_of_ne (apart other (by simp [member])),
          Function.update_of_ne]
        intro same
        exact distinct.1 (same ▸ List.mem_map_of_mem member)
      have later := inductionHypothesis
        (fun other member =>
          (carried other (by simp [member])).frame (intact other member))
        distinct.2 (fun other member => written other (by simp [member]))
        restRan
      exact later.cons blank landed apart distinct.1

/-- The parts of the staged proofs leave the verified contexts as they are. -/
theorem Tracked.verified_kept
    {withTails : Bool}
    (tracked : Tracked programs payer accounts log)
    (written : ∀ proof ∈ log.staged,
      withTails = false → proof.staged.tailWrite = none)
    (ran :
      runTransaction programs signers
        (log.staged.flatMap (StagedProof.part withTails)) accounts =
          some after) :
    ∀ proof ∈ log.verified,
      after proof.context =
        some (.context payer proof.instruction proof.bytes) := by
  have verified := run_stagedParts tracked.staged tracked.distinct written ran
  intro proof member
  have found := tracked.verified proof member
  rw [verified.elsewhere]
  · exact found
  · intro other otherMember
    constructor
    · intro same
      rw [same, verified.fresh other otherMember] at found
      cases found
    · intro same
      obtain ⟨_, isRecord⟩ := (tracked.staged other otherMember).isRecord
      rw [same, isRecord] at found
      cases found

/-- Where the verification of a staged proof is reached, its record holds the
whole proof. -/
theorem Tracked.record_complete
    {withTails : Bool} {finished rest : List StagedProof} {proof : StagedProof}
    (tracked : Tracked programs payer accounts log)
    (written : ∀ proof ∈ log.staged,
      withTails = false → proof.staged.tailWrite = none)
    (split : log.staged = finished ++ proof :: rest)
    (ran :
      runTransaction programs signers
        (finished.flatMap (StagedProof.part withTails) ++
          proof.preparation withTails) accounts = some after) :
    after proof.record = some (.record payer proof.bytes) := by
  have member : proof ∈ log.staged := by simp [split]
  have carried := tracked.staged proof member
  obtain ⟨middle, before, preparing⟩ := runTransaction_append_eq_some ran
  have distinct := tracked.distinct
  rw [split, List.map_append, List.nodup_append] at distinct
  have verified := run_stagedParts
    (fun other otherMember =>
      tracked.staged other (by simp [split, otherMember]))
    distinct.1
    (fun other otherMember => written other (by simp [split, otherMember]))
    before
  have untouched : middle proof.record = accounts proof.record := by
    apply verified.elsewhere
    intro other otherMember
    constructor
    · intro same
      obtain ⟨_, found⟩ := carried.isRecord
      rw [same, verified.fresh other otherMember] at found
      cases found
    · intro same
      exact distinct.2.2 _ (List.mem_map_of_mem otherMember) _
        (by simp) same.symm
  obtain ⟨blank, _, rfl⟩ :=
    (carried.frame untouched).run_preparation (written proof member)
      preparing
  obtain ⟨_, found⟩ := (carried.frame untouched).isRecord
  rw [Function.update_of_ne, Function.update_self]
  intro same
  rw [same, blank] at found
  cases found

namespace ProofLog

/-- The accounts that a log would have closed. -/
def targets (log : ProofLog) : List Address :=
  log.verified.map (·.context) ++ log.records

/-- The contexts that only exist inside the consuming transaction. -/
def stagedContexts (log : ProofLog) : List Address :=
  log.staged.map StagedProof.context

/-- The log once the tail writes were taken out. -/
def withoutTails (log : ProofLog) : ProofLog :=
  { log with staged := log.staged.map StagedProof.withoutTail }

@[simp]
theorem proofAccounts_withoutTails (log : ProofLog) :
    log.withoutTails.proofAccounts = log.proofAccounts.withoutTails := by
  simp [proofAccounts, withoutTails, ProofAccounts.withoutTails,
    StagedProof.withoutTail]

@[simp]
theorem proofAccounts_unstaged (log : ProofLog) :
    log.unstaged.proofAccounts = { log.proofAccounts with staged := [] } :=
  rfl

@[simp]
theorem targets_withoutTails (log : ProofLog) :
    log.withoutTails.targets = log.targets :=
  rfl

/-- The close instructions at the end of the consuming transaction. -/
def closings (log : ProofLog) (payer : Address) : List Instruction :=
  (log.verified.map (·.context) ++ log.stagedContexts).map
      (fun context =>
        .closeContextState (contextInfo context payer) payer) ++
    log.records.map fun record => .recordCloseAccount record payer payer

/-- The consuming transaction of a log, part by part. -/
theorem consuming_eq
    (log : ProofLog) (payer : Address) (instructions : List Instruction)
    (withTails : Bool) :
    log.proofAccounts.consuming payer instructions withTails =
      log.staged.flatMap (StagedProof.part withTails) ++ instructions ++
        log.closings payer := by
  simp only [consuming, proofAccounts, closings, stagedContexts,
    List.flatMap_map, List.map_map, List.append_assoc]
  rfl

end ProofLog

theorem ProofLog.closes_closings (log : ProofLog) (payer : Address) :
    (log.closings payer).map Instruction.closes =
      (log.verified.map (·.context) ++ log.stagedContexts ++
        log.records).map some := by
  simp [ProofLog.closings, Instruction.closes, contextInfo,
    Function.comp_def]

/-- What a landed consuming transaction went through: when the caller's
instructions ran, every proof was verified in its context; afterwards every
proof account is gone. -/
structure Consumed (payer : Address) (log : ProofLog) (accounts : Accounts)
    (used after : Accounts) : Prop where
  verified : ∀ proof ∈ log.verified,
    used proof.context = some (.context payer proof.instruction proof.bytes)
  staged : ∀ proof ∈ log.staged,
    used proof.context = some (.context payer proof.instruction proof.bytes)
  closed : ∀ address ∈ log.targets, after address = none
  stagedClosed : ∀ proof ∈ log.staged, after proof.context = none
  elsewhere : ∀ address, address ∉ log.targets →
    (∀ proof ∈ log.staged, address ≠ proof.context) →
    after address = accounts address

theorem Tracked.consume
    {instructions : List Instruction} {withTails : Bool} {units : Nat}
    (tracked : Tracked programs payer accounts log)
    (inert : ∀ instruction ∈ instructions, instruction.Inert)
    (written : ∀ proof ∈ log.staged,
      withTails = false → proof.staged.tailWrite = none)
    (ran :
      runTransaction programs signers
        (withComputeUnitLimit units
          (log.proofAccounts.consuming payer instructions withTails))
        accounts = some after) :
    ∃ used,
      runTransaction programs signers
          (withComputeUnitLimit units
            (log.staged.flatMap (StagedProof.part withTails))) accounts =
        some used ∧
      Consumed payer log accounts used after := by
  rw [ProofLog.consuming_eq] at ran
  obtain ⟨_, limited, ran⟩ := runTransaction_cons_eq_some ran
  cases limited
  obtain ⟨idle, ran, closing⟩ := runTransaction_append_eq_some ran
  obtain ⟨used, parts, idling⟩ := runTransaction_append_eq_some ran
  rw [runTransaction_inert inert idling] at closing
  refine ⟨used, parts, ?_⟩
  have verified := run_stagedParts tracked.staged tracked.distinct written parts
  have emptied := runTransaction_closes (log.closes_closings payer) closing
  have gone : ∀ address,
      address ∈ log.targets ∨ address ∈ log.stagedContexts →
        after address = none := by
    intro address member
    rw [emptied address, if_pos]
    simp only [ProofLog.targets, List.mem_append] at member ⊢
    tauto
  constructor
  · exact tracked.verified_kept written parts
  · exact verified.contexts
  · exact fun address member => gone address (Or.inl member)
  · exact fun proof member =>
      gone proof.context (Or.inr (List.mem_map_of_mem member))
  · intro address untracked away
    have notStaged : address ∉ log.stagedContexts := by
      intro member
      obtain ⟨proof, proofMember, same⟩ := List.mem_map.mp member
      exact away proof proofMember same.symm
    rw [emptied address, if_neg]
    · apply verified.elsewhere
      intro proof member
      refine ⟨away proof member, ?_⟩
      rintro rfl
      exact untracked <|
        List.mem_append_right _ (tracked.recorded proof member)
    · simp only [ProofLog.targets, List.mem_append] at untracked ⊢
      tauto

end Remit
