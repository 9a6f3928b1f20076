import Remit.Proofs.Transactions

/-!
# The tracked proof accounts are the ones on chain

`ProofLog` remembers, beside what the library tracks, which proof each account
was made for.  `Tracked` says that the chain agrees: every context holds its
own verified proof, every record holds its proof up to the tail that was kept
back, and all of them belong to the payer.
-/

namespace Remit

/-- A proof that was verified into a context-state account. -/
structure VerifiedProof where
  context : Address
  instruction : ProofInstruction
  bytes : Bytes

/-- A proof that was written into a record, and what is staged for it. -/
structure StagedProof where
  staged : Staged
  record : Address
  instruction : ProofInstruction
  bytes : Bytes

/-- What is tracked, together with the proofs it was tracked for. -/
structure ProofLog where
  verified : List VerifiedProof := []
  records : List Address := []
  staged : List StagedProof := []

namespace ProofLog

/-- The tracked accounts of a log. -/
def proofAccounts (log : ProofLog) : ProofAccounts where
  contexts := log.verified.map (·.context)
  records := log.records
  staged := log.staged.map (·.staged)

def withVerified (log : ProofLog) (proof : VerifiedProof) : ProofLog :=
  { log with verified := log.verified ++ [proof] }

def withRecord (log : ProofLog) (record : Address) : ProofLog :=
  { log with records := log.records ++ [record] }

def withStaged (log : ProofLog) (proof : StagedProof) : ProofLog :=
  { log with staged := log.staged ++ [proof] }

/-- The log without anything staged. -/
def unstaged (log : ProofLog) : ProofLog :=
  { log with staged := [] }

end ProofLog

namespace StagedProof

/-- The address of the context the proof will be verified into. -/
def context (proof : StagedProof) : Address :=
  proof.staged.context.pubkey

/-- The staged proof once its tail write was taken out. -/
def withoutTail (proof : StagedProof) : StagedProof :=
  { proof with staged := { proof.staged with tailWrite := none } }

/-- The record holds the proof below the offset of the tail, and the tail is
the rest of the proof. -/
structure Carried (programs : Programs) (payer : Address) (accounts : Accounts)
    (proof : StagedProof) : Prop where
  create : ∃ lamports space,
    proof.staged.create =
      .createAccount payer proof.context lamports space programs.zkElGamalProof
  verify :
    proof.staged.verify =
      .verifyProofFromAccount proof.instruction
        (some (contextInfo proof.context payer)) proof.record
        RecordData.WRITABLE_START_INDEX
  written : ∃ position payload,
    accounts proof.record = some (.record payer payload) ∧
      Overwrite.Filled proof.bytes position payload ∧
      position ≤ proof.bytes.length ∧
      (proof.staged.tailWrite = none ∧ position = proof.bytes.length ∨
        proof.staged.tailWrite =
          some (.recordWrite proof.record payer position
            (proof.bytes.drop position)))

variable {programs : Programs} {payer : Address} {accounts after : Accounts}
  {proof : StagedProof}

theorem Carried.frame
    (carried : proof.Carried programs payer accounts)
    (unchanged : after proof.record = accounts proof.record) :
    proof.Carried programs payer after where
  create := carried.create
  verify := carried.verify
  written := by
    rw [unchanged]
    exact carried.written

theorem Carried.isRecord
    (carried : proof.Carried programs payer accounts) :
    ∃ payload, accounts proof.record = some (.record payer payload) := by
  obtain ⟨_, payload, found, _⟩ := carried.written
  exact ⟨payload, found⟩

/-- Without a tail, the record holds the whole proof. -/
theorem Carried.complete
    (carried : proof.Carried programs payer accounts)
    (noTail : proof.staged.tailWrite = none) :
    accounts proof.record = some (.record payer proof.bytes) := by
  obtain ⟨position, payload, found, filled, _, tail⟩ := carried.written
  rcases tail with ⟨_, rfl⟩ | tail
  · rw [found, filled.complete (Nat.le_refl _)]
  · rw [noTail] at tail
    cases tail

/-- Landing the tail completes the record and changes nothing else. -/
theorem Carried.landTail
    {signers : List Address} {tail : Instruction}
    (carried : proof.Carried programs payer accounts)
    (kept : proof.staged.tailWrite = some tail)
    (ran : tail.run programs signers accounts = some after) :
    after =
      Function.update accounts proof.record
        (some (.record payer proof.bytes)) := by
  obtain ⟨position, payload, found, filled, inside, noTail | kept'⟩ :=
    carried.written
  · rw [noTail.1] at kept
    cases kept
  · rw [kept] at kept'
    cases kept'
    obtain ⟨payload', found', fits, rfl⟩ := run_recordWrite ran
    rw [found] at found'
    cases found'
    have cut :
        proof.bytes.drop position =
          (proof.bytes.drop position).take
            (proof.bytes.drop position).length :=
      (List.take_length ..).symm
    have reaches :
        position + (proof.bytes.drop position).length =
          proof.bytes.length := by
      rw [List.length_drop]
      omega
    have extended := filled.extend cut (Nat.le_of_eq reaches)
    rw [extended.complete (Nat.le_of_eq reaches.symm)]

theorem Carried.withoutTail
    (carried : proof.Carried programs payer accounts)
    (found : after proof.record = some (.record payer proof.bytes)) :
    proof.withoutTail.Carried programs payer after where
  create := carried.create
  verify := carried.verify
  written :=
    ⟨proof.bytes.length, proof.bytes, found, ⟨rfl, rfl⟩, Nat.le_refl _,
      Or.inl ⟨rfl, rfl⟩⟩

end StagedProof

/-- The chain agrees with the log. -/
structure Tracked (programs : Programs) (payer : Address) (accounts : Accounts)
    (log : ProofLog) : Prop where
  verified : ∀ proof ∈ log.verified,
    accounts proof.context =
      some (.context payer proof.instruction proof.bytes)
  records : ∀ record ∈ log.records, ∃ payload,
    accounts record = some (.record payer payload)
  staged : ∀ proof ∈ log.staged, proof.Carried programs payer accounts
  recorded : ∀ proof ∈ log.staged, proof.record ∈ log.records
  distinct : (log.staged.map (·.record)).Nodup

namespace Tracked

variable {programs : Programs} {payer : Address} {accounts after : Accounts}
  {log : ProofLog} {held : Address → Prop}

theorem empty : Tracked programs payer accounts {} where
  verified := by simp
  records := by simp
  staged := by simp
  recorded := by simp
  distinct := by simp

/-- The log is kept by every change that spares its accounts. -/
theorem frame
    (tracked : Tracked programs payer accounts log)
    (unchanged : ∀ address,
      (∃ authority instruction bytes,
          accounts address = some (.context authority instruction bytes)) ∨
        address ∈ log.records →
      after address = accounts address) :
    Tracked programs payer after log where
  verified proof member := by
    have found := tracked.verified proof member
    rw [unchanged _ (Or.inl ⟨_, _, _, found⟩)]
    exact found
  records record member := by
    rw [unchanged _ (Or.inr member)]
    exact tracked.records record member
  staged proof member :=
    (tracked.staged proof member).frame <|
      unchanged _ (Or.inr (tracked.recorded proof member))
  recorded := tracked.recorded
  distinct := tracked.distinct

/-- What other parties do leaves the tracked accounts as they are. -/
theorem outsiders
    (tracked : Tracked programs payer accounts log)
    (payerHeld : held payer)
    (outside : Outsiders programs held accounts after) :
    Tracked programs payer after log where
  verified proof member := by
    have found := tracked.verified proof member
    rw [outside.unchanged (by rw [found]; exact payerHeld)]
    exact found
  records record member := by
    obtain ⟨payload, found⟩ := tracked.records record member
    rw [outside.unchanged (by rw [found]; exact payerHeld)]
    exact ⟨payload, found⟩
  staged proof member := by
    obtain ⟨payload, found⟩ := (tracked.staged proof member).isRecord
    exact (tracked.staged proof member).frame <|
      outside.unchanged (by rw [found]; exact payerHeld)
  recorded := tracked.recorded
  distinct := tracked.distinct

/-- An empty address is neither a tracked context nor a tracked record. -/
private theorem update_of_empty
    {address : Address}
    (account : Option Account)
    (tracked : Tracked programs payer accounts log)
    (blank : accounts address = none) :
    Tracked programs payer (Function.update accounts address account) log := by
  apply tracked.frame
  intro other occupied
  apply Function.update_of_ne
  rintro rfl
  rcases occupied with ⟨_, _, _, found⟩ | member
  · rw [blank] at found
    cases found
  · obtain ⟨_, found⟩ := tracked.records other member
    rw [blank] at found
    cases found

theorem verify
    {context : Address} {instruction : ProofInstruction} {bytes : Bytes}
    (tracked : Tracked programs payer accounts log)
    (blank : accounts context = none) :
    Tracked programs payer
      (Function.update accounts context
        (some (.context payer instruction bytes)))
      (log.withVerified ⟨context, instruction, bytes⟩) := by
  have kept :=
    update_of_empty (some (.context payer instruction bytes)) tracked blank
  refine { kept with verified := ?_ }
  intro proof member
  rcases List.mem_append.mp member with old | new
  · exact kept.verified proof old
  · rw [List.mem_singleton.mp new]
    exact Function.update_self ..

theorem openRecord
    {record : Address} {payload : Bytes}
    (tracked : Tracked programs payer accounts log)
    (blank : accounts record = none) :
    Tracked programs payer
      (Function.update accounts record (some (.record payer payload)))
      (log.withRecord record) := by
  have kept := update_of_empty (some (.record payer payload)) tracked blank
  refine { kept with records := ?_, recorded := ?_ }
  · intro other member
    rcases List.mem_append.mp member with old | new
    · exact kept.records other old
    · rw [List.mem_singleton.mp new]
      exact ⟨payload, Function.update_self ..⟩
  · intro proof member
    exact List.mem_append_left _ (kept.recorded proof member)

/-- Writing into a record that belongs to no staged proof. -/
theorem writeRecord
    {record : Address} {old payload : Bytes}
    (tracked : Tracked programs payer accounts log)
    (found : accounts record = some (.record payer old))
    (free : ∀ proof ∈ log.staged, proof.record ≠ record) :
    Tracked programs payer
      (Function.update accounts record (some (.record payer payload)))
      log where
  verified proof member := by
    have holds := tracked.verified proof member
    rw [Function.update_of_ne]
    · exact holds
    · intro same
      rw [same, found] at holds
      cases holds
  records other member := by
    by_cases same : other = record
    · rw [same]
      exact ⟨payload, Function.update_self ..⟩
    · rw [Function.update_of_ne same]
      exact tracked.records other member
  staged proof member :=
    (tracked.staged proof member).frame <|
      Function.update_of_ne (free proof member) ..
  recorded := tracked.recorded
  distinct := tracked.distinct

theorem stage
    {proof : StagedProof}
    (tracked : Tracked programs payer accounts log)
    (carried : proof.Carried programs payer accounts)
    (recorded : proof.record ∈ log.records)
    (free : ∀ other ∈ log.staged, other.record ≠ proof.record) :
    Tracked programs payer accounts (log.withStaged proof) where
  verified := tracked.verified
  records := tracked.records
  staged other member := by
    rcases List.mem_append.mp member with old | new
    · exact tracked.staged other old
    · rw [List.mem_singleton.mp new]
      exact carried
  recorded other member := by
    rcases List.mem_append.mp member with old | new
    · exact tracked.recorded other old
    · rw [List.mem_singleton.mp new]
      exact recorded
  distinct := by
    have apart : proof.record ∉ log.staged.map (·.record) := by
      intro member
      obtain ⟨other, otherMember, same⟩ := List.mem_map.mp member
      exact free other otherMember same
    simp only [ProofLog.withStaged, List.map_append, List.map_cons,
      List.map_nil]
    exact List.nodup_append.mpr
      ⟨tracked.distinct, by simp, by
        intro left leftMember right rightMember same
        rw [List.mem_singleton.mp rightMember] at same
        exact apart (same ▸ leftMember)⟩

/-- The records of the other staged proofs are different ones. -/
theorem others_apart
    {finished rest : List StagedProof} {proof : StagedProof}
    (tracked :
      Tracked programs payer accounts
        { log with staged := finished ++ proof :: rest }) :
    ∀ other ∈ finished ++ rest, other.record ≠ proof.record := by
  have distinct := tracked.distinct
  simp only [List.map_append, List.map_cons, List.nodup_append,
    List.nodup_cons] at distinct
  intro other member same
  rcases List.mem_append.mp member with before | behind
  · exact distinct.2.2 _ (List.mem_map_of_mem before) _
      List.mem_cons_self same
  · exact distinct.2.1.1 (same ▸ List.mem_map_of_mem behind)

/-- Landing the tail of one staged proof completes it and spares the rest. -/
theorem landTail
    {signers : List Address} {finished rest : List StagedProof}
    {proof : StagedProof} {tail : Instruction}
    (tracked :
      Tracked programs payer accounts
        { log with staged := finished ++ proof :: rest })
    (kept : proof.staged.tailWrite = some tail)
    (ran : tail.run programs signers accounts = some after) :
    Tracked programs payer after
      { log with staged := finished ++ proof.withoutTail :: rest } := by
  have carried := tracked.staged proof (by simp)
  have landed := carried.landTail kept ran
  obtain ⟨old, found⟩ := carried.isRecord
  have free := tracked.others_apart
  subst landed
  constructor
  · intro other member
    have holds := tracked.verified other member
    rw [Function.update_of_ne]
    · exact holds
    · intro same
      rw [same, found] at holds
      cases holds
  · intro record member
    by_cases same : record = proof.record
    · rw [same]
      exact ⟨_, Function.update_self ..⟩
    · rw [Function.update_of_ne same]
      exact tracked.records record member
  · intro other member
    rcases List.mem_append.mp member with before | behind
    · exact (tracked.staged other (by simp [before])).frame <|
        Function.update_of_ne (free other (by simp [before])) ..
    · rcases List.mem_cons.mp behind with rfl | behind
      · exact carried.withoutTail (Function.update_self ..)
      · exact (tracked.staged other (by simp [behind])).frame <|
          Function.update_of_ne (free other (by simp [behind])) ..
  · intro other member
    rcases List.mem_append.mp member with before | behind
    · exact tracked.recorded other (by simp [before])
    · rcases List.mem_cons.mp behind with rfl | behind
      · exact tracked.recorded proof (by simp)
      · exact tracked.recorded other (by simp [behind])
  · have same :
        (finished ++ proof.withoutTail :: rest).map (·.record) =
          (finished ++ proof :: rest).map (·.record) := by
      simp [StagedProof.withoutTail]
    rw [same]
    exact tracked.distinct

end Tracked
end Remit
