import Remit.Proofs.Finishing

/-!
# The verifier reads exactly the proof

Proofs are staged in any number and order, with failures passed over, and then
consumed.  Whichever way the last chunks travel, the record of each proof holds
its bytes when its verification runs, and the chunks tile them.
-/

namespace Remit

open Flows Overwrite

variable {C : Cluster}

/-- One attempt to get a proof on chain. -/
inductive StagingCall where
  | verify (instruction : ProofInstruction) (proof : ProofData)
  | stageFromRecord (instruction : ProofInstruction) (proof : ProofData)

namespace StagingCall

def run : StagingCall → Flow (Session C) Error Address
  | verify instruction proof => ProofAccounts.verify instruction proof
  | stageFromRecord instruction proof =>
      ProofAccounts.stageFromRecord instruction proof

/-- The proof that a successful attempt leaves staged. -/
def stagedProof : StagingCall → Option (ProofInstruction × Bytes)
  | verify _ _ => none
  | stageFromRecord instruction proof => some (instruction, proof.bytes)

end StagingCall

/-- Make the attempts one after another and tell which proofs got staged. -/
def stageAll :
    List StagingCall →
      Flow (Session C) Error (List (ProofInstruction × Bytes))
  | [] => pure []
  | call :: rest => do
      let result ← Flow.result call.run
      let later ← stageAll rest
      match result with
      | .ok _ => pure (call.stagedProof.toList ++ later)
      | .error _ => pure later

/-- The session represents a log with these staged proofs, and nothing was used
yet. -/
def Prepared (proofs : List (ProofInstruction × Bytes)) (session : Session C) :
    Prop :=
  (∀ one ∈ session.world.sent, Plain one.transaction) ∧
    ∃ log, Represents session log ∧
      log.staged.map (fun proof => (proof.instruction, proof.bytes)) = proofs

private theorem plain_of_clean
    {base sent : List (Sent C.State)}
    (plain : ∀ one ∈ base, Plain one.transaction) (clean : Clean base sent) :
    ∀ one ∈ sent, Plain one.transaction := by
  obtain ⟨later, rfl, good⟩ := clean
  intro one member
  rcases List.mem_append.mp member with old | new
  · exact plain one old
  · exact (good one new).2

private theorem plain_of_stopped
    {base sent : List (Sent C.State)} {error : Error}
    (plain : ∀ one ∈ base, Plain one.transaction)
    (stopped : Stopped base error sent) :
    ∀ one ∈ sent, Plain one.transaction := by
  rcases stopped with ⟨clean, _⟩ | ⟨earlier, last, rfl, clean, lastPlain, _⟩
  · exact plain_of_clean plain clean
  · intro one member
    rcases List.mem_append.mp member with old | new
    · exact plain_of_clean plain clean one old
    · rw [List.mem_singleton.mp new]
      exact lastPlain

/-- An attempt succeeds with one list of staged proofs or fails with another. -/
def Attempted {α : Type} (failed succeeded : List (ProofInstruction × Bytes)) :
    Except (Stop Error) α → Session C → Prop
  | .ok _, session => Prepared succeeded session
  | .error (.error _), session => Prepared failed session
  | .error .panic, session =>
      ∀ one ∈ session.world.sent, Plain one.transaction

private theorem Attempted.of_proceeds
    {α : Type} {session : Session C} {log : ProofLog}
    {good : α → ProofLog → Prop}
    {grown : List (ProofInstruction × Bytes)}
    {outcome : Except (Stop Error) α} {reached : Session C}
    (plain : ∀ one ∈ session.world.sent, Plain one.transaction)
    (grows : ∀ a log', good a log' →
      log'.staged.map (fun proof => (proof.instruction, proof.bytes)) = grown)
    (ended :
      Proceeds session.world.sent good
        (fun left =>
          left.verified = log.verified ∧ left.staged = log.staged)
        outcome reached) :
    Attempted
      (log.staged.map fun proof => (proof.instruction, proof.bytes)) grown
      outcome reached := by
  rcases outcome with (error | _) | a
  · obtain ⟨left, ⟨_, same⟩, represents, stopped⟩ := ended
    exact ⟨plain_of_stopped plain stopped, left, represents, by rw [same]⟩
  · exact plain_of_clean plain ended
  · obtain ⟨log', isGood, represents, clean⟩ := ended
    exact ⟨plain_of_clean plain clean, log', represents, grows a log' isGood⟩

/-- One attempt adds its proof, or nothing if it fails. -/
theorem ensures_call
    {session : Session C} {proofs : List (ProofInstruction × Bytes)}
    (call : StagingCall) (prepared : Prepared proofs session) :
    Flow.Ensures call.run session
      (Attempted proofs (proofs ++ call.stagedProof.toList)) := by
  obtain ⟨plain, log, represents, rfl⟩ := prepared
  cases call with
  | verify instruction proof =>
      refine (ensures_verify instruction proof represents
        (.refl _)).mono fun outcome reached ended => .of_proceeds plain ?_ ended
      rintro _ _ rfl
      simp [ProofLog.withVerified, StagingCall.stagedProof]
  | stageFromRecord instruction proof =>
      refine (ensures_stageFromRecord instruction proof represents
        (.refl _)).mono fun outcome reached ended => .of_proceeds plain ?_ ended
      rintro _ _ ⟨staged, _, rfl, bytes, rfl⟩
      simp [ProofLog.withStaged, ProofLog.withRecord, bytes,
        StagingCall.stagedProof]

theorem ensures_stageAll
    {session : Session C} {proofs : List (ProofInstruction × Bytes)}
    (calls : List StagingCall) (prepared : Prepared proofs session) :
    Flow.Ensures (stageAll calls) session fun outcome reached =>
      match outcome with
      | .ok later => Prepared (proofs ++ later) reached
      | .error (.error _) => False
      | .error .panic => ∀ one ∈ reached.world.sent, Plain one.transaction := by
  induction calls generalizing session proofs with
  | nil =>
      refine .pure ?_
      show Prepared (proofs ++ []) session
      rwa [List.append_nil]
  | cons call rest inductionHypothesis =>
      unfold stageAll
      refine .bind (.result ((ensures_call call prepared).mono ?_))
      rintro ((error | _) | address) reached ended
      · refine .bind ((inductionHypothesis ended).mono ?_)
        rintro ((_ | _) | later) last done
        · exact done
        · exact done
        · exact .pure done
      · exact ended
      · refine .bind ((inductionHypothesis ended).mono ?_)
        rintro ((_ | _) | later) last done
        · exact done
        · exact done
        · refine .pure ?_
          show Prepared (proofs ++ (call.stagedProof.toList ++ later)) last
          rwa [← List.append_assoc]

/-- `one` verifies the staged proofs in order.  Where the verification of a
proof is reached, the record it reads holds exactly the proof; and the chunks
that landed in the record before, followed by the chunk that is written right
before the verification if it travels along, tile the proof. -/
def ReadsExactly (proofs : List (ProofInstruction × Bytes))
    (instructions : List Instruction) (earlier : List (Sent C.State))
    (one : Sent C.State) : Prop :=
  ∃ (staged : List StagedProof) (units : Nat) (withTails : Bool)
      (closing : List Instruction),
    staged.map (fun proof => (proof.instruction, proof.bytes)) = proofs ∧
      one.transaction =
        withComputeUnitLimit units
          (staged.flatMap (StagedProof.part withTails) ++ instructions ++
            closing) ∧
      (∀ instruction ∈ closing, instruction.closes.isSome) ∧
      ∀ finished proof rest, staged = finished ++ proof :: rest →
        proof.staged.verify =
            .verifyProofFromAccount proof.instruction
              (some (contextInfo proof.context C.payer)) proof.record
              RecordData.WRITABLE_START_INDEX ∧
          Tiles proof.bytes 0
            (landedWrites proof.record earlier ++
              writesTo proof.record (proof.preparation withTails)) ∧
          ∀ signers reached,
            runTransaction C.programs signers
                (withComputeUnitLimit units
                  (finished.flatMap (StagedProof.part withTails) ++
                    proof.preparation withTails))
                (C.accounts one.delivery.before) = some reached →
              reached proof.record = some (.record C.payer proof.bytes)

theorem Consumption.readsExactly
    {log : ProofLog} {instructions : List Instruction}
    {signers : List Keypair} {earlier : List (Sent C.State)}
    {one : Sent C.State}
    (consumption : Consumption log instructions signers earlier one) :
    ReadsExactly
      (log.staged.map fun proof => (proof.instruction, proof.bytes))
      instructions earlier one := by
  obtain ⟨units, withTails, shape, written⟩ := consumption.shape
  refine ⟨log.staged, units, withTails, log.closings C.payer, rfl, ?_, ?_,
    ?_⟩
  · rw [shape, ProofLog.consuming_eq]
  · intro instruction member
    have closing :=
      List.mem_map_of_mem (f := Instruction.closes) member
    rw [ProofLog.closes_closings] at closing
    obtain ⟨target, _, same⟩ := List.mem_map.mp closing
    rw [← same]
    rfl
  · intro finished proof rest split
    have member : proof ∈ log.staged := by simp [split]
    have carried := consumption.tracked.staged proof member
    refine ⟨carried.verify, ?_, ?_⟩
    · have laid := consumption.laid proof member
      obtain ⟨_, _, create⟩ := carried.create
      have same :
          writesTo proof.record (proof.preparation withTails) =
            proof.keptBack := by
        simp only [writesTo, StagedProof.preparation, StagedProof.keptBack,
          create, List.filterMap_append]
        cases withTails with
        | true => simp [Instruction.writeTo, List.filterMap_cons]
        | false =>
            simp [written proof member rfl, Instruction.writeTo,
              List.filterMap_cons]
      rwa [same]
    · intro keys reached ran
      obtain ⟨_, limited, ran⟩ := runTransaction_cons_eq_some ran
      cases limited
      exact consumption.tracked.record_complete written split ran

/-- Every transaction sent until a result is there either only prepares or
closes accounts, or reads each staged proof exactly. -/
def Reads (proofs : List (ProofInstruction × Bytes))
    (instructions : List Instruction) (reached : World C) : Prop :=
  ∀ earlier one later, reached.sent = earlier ++ one :: later →
    Plain one.transaction ∨
      ReadsExactly proofs instructions earlier one

private theorem reads_of_plain
    {proofs : List (ProofInstruction × Bytes)}
    {instructions : List Instruction} {reached : World C}
    (plain : ∀ one ∈ reached.sent, Plain one.transaction) :
    Reads proofs instructions reached := by
  intro earlier one later sent
  exact Or.inl (plain one (by simp [sent]))

/-- Among transactions that are plain but for one, a transaction that is not
plain is that one. -/
private theorem reads_of_one
    {proofs : List (ProofInstruction × Bytes)}
    {instructions : List Instruction} {reached : World C}
    {before after : List (Sent C.State)} {used : Sent C.State}
    (sent : reached.sent = before ++ used :: after)
    (plainBefore : ∀ one ∈ before, Plain one.transaction)
    (plainAfter : ∀ one ∈ after, Plain one.transaction)
    (reads : ReadsExactly proofs instructions before used) :
    Reads proofs instructions reached := by
  intro earlier one later split
  rw [sent] at split
  rcases List.append_eq_append_iff.mp split with
    ⟨between, rfl, tail⟩ | ⟨between, rfl, tail⟩
  · cases between with
    | nil =>
        rw [List.nil_append] at tail
        cases tail
        rw [List.append_nil]
        exact Or.inr reads
    | cons head between =>
        cases tail
        exact Or.inl (plainAfter one (by simp))
  · cases between with
    | nil =>
        rw [List.nil_append] at tail
        cases tail
        rw [List.append_nil] at reads
        exact Or.inr reads
    | cons head between =>
        cases tail
        exact Or.inl (plainBefore one (by simp))

theorem ProofLog.proofs_withoutTails (log : ProofLog) :
    log.withoutTails.staged.map
        (fun proof => (proof.instruction, proof.bytes)) =
      log.staged.map fun proof => (proof.instruction, proof.bytes) := by
  simp [ProofLog.withoutTails, StagedProof.withoutTail]

/-- Consuming prepared proofs reads them exactly. -/
theorem Prepared.ensures_consume
    {session : Session C} {proofs : List (ProofInstruction × Bytes)}
    (prepared : Prepared proofs session) (instructions : List Instruction)
    (signers : List Keypair) (units : Nat) :
    Flow.Ensures (session.accounts.consume instructions signers units)
      session.world fun _ reached => Reads proofs instructions reached := by
  obtain ⟨plain, log, represents, rfl⟩ := prepared
  have readsLog : ∀ {used : ProofLog} {earlier : List (Sent C.State)}
      {one : Sent C.State},
      (used = log ∨ used = log.withoutTails) →
      Consumption used instructions signers earlier one →
        ReadsExactly
          (log.staged.map fun proof => (proof.instruction, proof.bytes))
          instructions earlier one := by
    rintro used earlier one (rfl | rfl) consumption
    · exact consumption.readsExactly
    · rw [← log.proofs_withoutTails]
      exact consumption.readsExactly
  rw [represents.accounts]
  refine (Remit.ensures_consume units represents.sound (.refl _)).mono ?_
  rintro (stop | receipt) reached ended
  · rcases ended with
      ⟨_, clean⟩ | ⟨error, main, cause, cleanup, sent, cleanupPlain, _⟩
    · exact reads_of_plain (plain_of_clean plain clean)
    rcases cause with
      stopped | ⟨used, earlier, one, origin, rfl, clean, consumption, _⟩
    · refine reads_of_plain ?_
      intro one member
      rw [sent] at member
      rcases List.mem_append.mp member with old | new
      · exact plain_of_stopped plain stopped one old
      · exact cleanupPlain one new
    · rw [List.append_assoc] at sent
      exact reads_of_one sent (plain_of_clean plain clean) cleanupPlain
        (readsLog origin consumption)
  · obtain ⟨used, earlier, one, origin, sent, clean, consumption, _⟩ := ended
    exact reads_of_one sent (plain_of_clean plain clean) (by simp)
      (readsLog origin consumption)

/-! ## The writing loop ends -/

theorem sent_writeChunks
    {record : Address} {bytes : Bytes} {position : Nat} (world : World C) :
    Flow.Ensures (writeChunks record bytes position) world
      fun _ reached =>
        reached.sent.length ≤
          world.sent.length + (bytes.length - position) := by
  rw [writeChunks]
  split
  case isFalse => exact .pure (Nat.le_add_right ..)
  case isTrue unfinished =>
      dsimp only
      split
      case h_1 => exact .panicking (Nat.le_add_right ..)
      case h_2 len found =>
          have inside := largestChunk_le found
          rw [List.length_drop] at inside
          split
          case isTrue => exact .fail (Nat.le_add_right ..)
          case isFalse progress =>
              split
              case isTrue => exact .pure (Nat.le_add_right ..)
              case isFalse =>
                  have one : ∀ signers,
                      (world.deliver
                        [.recordWrite record C.payer position
                          ((bytes.drop position).take len)]
                        signers).sent.length = world.sent.length + 1 := by
                    simp [World.deliver]
                  refine .bind (World.ensures_send ?_ ?_)
                  · intro receipt _
                    refine (sent_writeChunks _).mono fun _ _ bounded => ?_
                    rw [one] at bounded
                    omega
                  · intro error _
                    show (World.deliver ..).sent.length ≤ _
                    rw [one]
                    omega
termination_by bytes.length - position

/-! ## The result -/

/-- Staging any proofs in any order and consuming them with any instructions:
no send reads anything but the exact proofs, and no writing loop sends more
transactions than the proof has bytes. -/
theorem verifier_reads_exactly_the_proof
    (C : Cluster) (state : C.State) (drawn : Nat)
    (calls : List StagingCall) (instructions : List Instruction)
    (signers : List Keypair) (units : Nat) :
    Flow.Ensures (stageAll calls) ⟨{}, World.initial state drawn⟩
        (fun outcome session =>
          match outcome with
          | .ok proofs =>
              Flow.Ensures
                (session.accounts.consume instructions signers units)
                session.world
                fun _ reached => Reads proofs instructions reached
          | .error _ => ∀ one ∈ session.world.sent, Plain one.transaction) ∧
      ∀ (world : World C) (record : Address) (bytes : Bytes)
        (position : Nat),
        Flow.Ensures (writeChunks record bytes position) world
          fun _ reached =>
            reached.sent.length ≤
              world.sent.length + (bytes.length - position) := by
  constructor
  · have start :
        Prepared []
          (⟨{}, World.initial state drawn⟩ : Session C) :=
      ⟨by simp [World.initial], {}, ⟨rfl, .initial state drawn⟩, rfl⟩
    refine (ensures_stageAll calls start).mono ?_
    rintro ((error | _) | proofs) session ended
    · exact ended.elim
    · exact ended
    · exact Prepared.ensures_consume ended instructions signers units
  · intro world record bytes position
    exact sent_writeChunks world

end Remit
