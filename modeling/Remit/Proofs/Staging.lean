import Remit.Proofs.Chunks
import Remit.Proofs.Soundness

/-!
# Verifying and staging proofs

What `verify` and `stageFromRecord` guarantee, whatever the sends do.  On
success the log grows by the proof; on an error everything that was opened is
tracked, and the error is that of the one send that failed or the library's
own.
-/

namespace Remit

open Flows Overwrite

variable {C : Cluster}

/-- The errors that the library raises by itself while it sends. -/
inductive LocalError (C : Cluster) : Error → Prop where
  | verifyTooLarge (instruction : ProofInstruction) :
      LocalError C (.invalid
        (instruction.name ++
          " does not fit next to its CreateAccount; use stage_from_record"))
  | writeTooLarge :
      LocalError C (.invalid "record write does not fit a transaction")
  | consumingTooLarge :
      LocalError C (.invalid
        "proofs and instruction do not fit one transaction")
  | builder {instruction : TokenInstruction} {error : ProgramError} :
      C.programs.tokenCheck instruction = .error error →
      LocalError C (.program error)

/-- Everything sent after `base` landed, and nothing was used yet. -/
def Clean {State : Type} (base sent : List (Sent State)) : Prop :=
  ∃ later, sent = base ++ later ∧
    ∀ one ∈ later, one.landed = true ∧ Plain one.transaction

/-- The error is that of the first failing send since `base`, which is the last
one made, or the library's own after nothing failed. -/
def Stopped (base : List (Sent C.State)) (error : Error)
    (sent : List (Sent C.State)) : Prop :=
  (Clean base sent ∧ LocalError C error) ∨
    ∃ earlier last,
      sent = earlier ++ [last] ∧ Clean base earlier ∧
        Plain last.transaction ∧ last.delivery.outcome = .error error

theorem Clean.refl {State : Type} (base : List (Sent State)) :
    Clean base base :=
  ⟨[], (List.append_nil base).symm, by simp⟩

section Deliver

variable {world : World C} {transaction : List Instruction}
  {signers : List Keypair} {base : List (Sent C.State)}

theorem Clean.landed_deliver
    {receipt : Receipt}
    (clean : Clean base world.sent)
    (plain : Plain transaction)
    (landed :
      (C.send world.state transaction signers).outcome = .ok receipt) :
    Clean base (world.deliver transaction signers).sent := by
  obtain ⟨later, sent, good⟩ := clean
  refine ⟨later ++ [world.sending transaction signers], ?_, ?_⟩
  · simp only [World.deliver, sent, List.append_assoc]
  · intro one member
    rcases List.mem_append.mp member with old | new
    · exact good one old
    · rw [List.mem_singleton.mp new]
      exact ⟨World.landed_sending landed, plain⟩

theorem Clean.stopped_deliver
    {error : Error}
    (clean : Clean base world.sent)
    (plain : Plain transaction)
    (failed :
      (C.send world.state transaction signers).outcome = .error error) :
    Stopped base error (world.deliver transaction signers).sent :=
  Or.inr ⟨world.sent, world.sending transaction signers, rfl, clean, plain,
    failed⟩

end Deliver

/-- The session tracks exactly what the log says, and the chain agrees. -/
structure Represents (session : Session C) (log : ProofLog) : Prop where
  accounts : session.accounts = log.proofAccounts
  sound : Sound session.world log

/-- How a staging step may end: with a value and a log that are `good`, or
with an error and a log that is `left` by it. -/
def Proceeds {α : Type} (base : List (Sent C.State))
    (good : α → ProofLog → Prop) (left : ProofLog → Prop) :
    Except (Stop Error) α → Session C → Prop
  | .ok a, session =>
      ∃ log, good a log ∧ Represents session log ∧
        Clean base session.world.sent
  | .error (.error error), session =>
      ∃ log, left log ∧ Represents session log ∧
        Stopped base error session.world.sent
  | .error .panic, session => Clean base session.world.sent

/-- Staging steps follow one another. -/
theorem Proceeds.bind
    {α β : Type} {flow : Flow (Session C) Error α}
    {next : α → Flow (Session C) Error β} {session : Session C}
    {base : List (Sent C.State)}
    {good : α → ProofLog → Prop} {good' : β → ProofLog → Prop}
    {left left' : ProofLog → Prop}
    (first : Flow.Ensures flow session (Proceeds base good left))
    (failed : ∀ log, left log → left' log)
    (onward : ∀ a log reached,
      good a log → Represents reached log → Clean base reached.world.sent →
        Flow.Ensures (next a) reached (Proceeds base good' left')) :
    Flow.Ensures (flow >>= next) session (Proceeds base good' left') := by
  apply Flow.Ensures.bind
  apply first.mono
  rintro ((error | _) | a) reached ended
  · obtain ⟨log, isLeft, represents, stopped⟩ := ended
    exact ⟨log, failed log isLeft, represents, stopped⟩
  · exact ended
  · obtain ⟨log, isGood, represents, clean⟩ := ended
    exact onward a log reached isGood represents clean

/-- Drawing a key changes nothing that the invariant is about. -/
theorem Sound.draw
    {world : World C} {log : ProofLog}
    (sound : Sound world log) (drawn : Nat) :
    Sound { world with drawn } log :=
  ⟨sound.tracked, sound.residue, sound.laid, sound.unwritten,
    sound.contextsHeld⟩

/-- The landed transaction of `verify`. -/
theorem Sound.verify
    {world : World C} {log : ProofLog} {receipt : Receipt} {number : Nat}
    {lamports space units : Nat} {instruction : ProofInstruction}
    {bytes : Bytes} {transaction : List Instruction} {signers : List Keypair}
    (sound : Sound world log)
    (transaction_eq :
      transaction =
        withComputeUnitLimit units
          [.createAccount C.payer (C.keypairs number).pubkey lamports space
              C.programs.zkElGamalProof,
            .verifyProof instruction
              (some (contextInfo (C.keypairs number).pubkey C.payer)) bytes])
    (landed :
      (C.send world.state transaction signers).outcome = .ok receipt) :
    Sound (world.deliver transaction signers)
      (log.withVerified ⟨(C.keypairs number).pubkey, instruction, bytes⟩) := by
  subst transaction_eq
  apply sound.landed landed
  · simp [ProofLog.targets, ProofLog.withVerified]
  · intro address creation
    have same : address = (C.keypairs number).pubkey :=
      List.mem_singleton.mp creation
    rw [same]
    exact ⟨C.held_keypair number, by
      simp [ProofLog.targets, ProofLog.withVerified]⟩
  · intro before after tracked ran
    obtain ⟨blank, rfl⟩ := runTransaction_verify ran
    refine ⟨tracked.verify blank, ?_⟩
    intro address vacant
    by_cases same : address = (C.keypairs number).pubkey
    · right
      simp [ProofLog.targets, ProofLog.withVerified, same]
    · left
      rw [Function.update_of_ne same, vacant]
  · intro staged member
    have laid := sound.laid staged member
    rwa [← List.append_nil (landedWrites ..)] at laid
  · exact fun record untracked => ⟨untracked, rfl⟩
  · exact sound.contextsHeld

theorem ensures_verify
    {session : Session C} {log : ProofLog} {base : List (Sent C.State)}
    (instruction : ProofInstruction) (proof : ProofData)
    (represents : Represents session log) (clean : Clean base session.world.sent) :
    Flow.Ensures (ProofAccounts.verify instruction proof) session
      (Proceeds base
        (fun context grown =>
          grown = log.withVerified ⟨context, instruction, proof.bytes⟩)
        fun left => left.verified = log.verified ∧ left.staged = log.staged) := by
  unfold ProofAccounts.verify
  refine .bind (.zoom (World.ensures_newKeypair ?_))
  refine .bind (.zoom (.bind (World.ensures_rent fun lamports => ?_)))
  refine .pure ?_
  refine .bind (.zoom (World.ensures_fits (fun fits _ => ?_) clean))
  have sound := represents.sound.draw (session.world.drawn + 1)
  cases fits with
  | false =>
      exact .fail
        ⟨log, ⟨rfl, rfl⟩, ⟨represents.accounts, sound⟩,
          Or.inl ⟨clean, .verifyTooLarge instruction⟩⟩
  | true =>
      refine .bind (.zoom (World.ensures_send ?_ ?_))
      · intro receipt landed
        refine .bind (.update (.pure ?_))
        refine ⟨_, rfl, ⟨?_, sound.verify rfl landed⟩,
          clean.landed_deliver rfl landed⟩
        simp [represents.accounts, ProofLog.proofAccounts,
          ProofLog.withVerified]
      · intro error failed
        exact ⟨log, ⟨rfl, rfl⟩, ⟨represents.accounts, sound.failed failed⟩,
          clean.stopped_deliver rfl failed⟩

/-! ## Records -/

/-- The record holds the proof up to `position`, written by chunks that tile
this part. -/
structure Writing (world : World C) (record : Address) (bytes : Bytes)
    (position : Nat) : Prop where
  inside : position ≤ bytes.length
  found : ∃ payload,
    world.accounts record = some (.record C.payer payload) ∧
      Filled bytes position payload
  laid : LaidTo bytes (landedWrites record world.sent) position

/-- The write that is left when a record is filled up to `position`. -/
def TailWrite (payer record : Address) (bytes : Bytes) (position : Nat)
    (tail : Option Instruction) : Prop :=
  tail = none ∧ position = bytes.length ∨
    tail =
      some (.recordWrite record payer position (bytes.drop position))

section Record

variable {world : World C} {log : ProofLog} {record : Address}
  {bytes : Bytes} {position : Nat}

/-- The landed transaction that writes one chunk. -/
theorem Sound.writeChunk
    {chunk : Bytes} {receipt : Receipt}
    (sound : Sound world log)
    (recorded : record ∈ log.records)
    (free : ∀ proof ∈ log.staged, proof.record ≠ record)
    (landed :
      (C.send world.state [.recordWrite record C.payer position chunk]
        []).outcome = .ok receipt) :
    Sound (world.deliver [.recordWrite record C.payer position chunk] [])
      log := by
  apply sound.landed landed (List.Subset.refl _)
  · intro address creation
    cases creation
  · intro before after tracked ran
    rw [runTransaction_singleton] at ran
    obtain ⟨payload, found, _, rfl⟩ := run_recordWrite ran
    refine ⟨tracked.writeRecord found free, ?_⟩
    intro address vacant
    left
    rw [Function.update_of_ne, vacant]
    rintro rfl
    rw [found] at vacant
    cases vacant
  · intro proof member
    have elsewhere :
        writesTo proof.record
          [.recordWrite record C.payer position chunk] = [] := by
      simp [writesTo, Instruction.writeTo, (free proof member).symm]
    rw [elsewhere, List.append_nil]
    exact sound.laid proof member
  · intro other untracked
    refine ⟨untracked, ?_⟩
    have different : record ≠ other := by
      rintro rfl
      exact untracked recorded
    simp [writesTo, Instruction.writeTo, different]
  · exact sound.contextsHeld

theorem Writing.writeChunk
    {length : Nat} {receipt : Receipt}
    (writing : Writing world record bytes position)
    (inside : position + length ≤ bytes.length)
    (landed :
      (C.send world.state
        [.recordWrite record C.payer position
          ((bytes.drop position).take length)] []).outcome = .ok receipt) :
    Writing
      (world.deliver
        [.recordWrite record C.payer position
          ((bytes.drop position).take length)] [])
      record bytes (position + length) where
  inside := inside
  found := by
    obtain ⟨payload, found, filled⟩ := writing.found
    obtain ⟨before, after, outside, ran, later⟩ := landed_steps landed
    have secured :
        Secured C.held record (world.accounts record) := by
      rw [found]
      exact C.held_payer
    rw [runTransaction_singleton] at ran
    obtain ⟨payload', found', _, rfl⟩ := run_recordWrite ran
    rw [outside.unchanged secured, found] at found'
    cases found'
    have chunkLength :
        ((bytes.drop position).take length).length = length := by
      simp only [List.length_take, List.length_drop]
      omega
    refine ⟨overwrite payload position ((bytes.drop position).take length),
      ?_, ?_⟩
    · rw [later.unchanged (by
        rw [Function.update_self]
        exact C.held_payer), Function.update_self]
    · have cut :
          (bytes.drop position).take length =
            (bytes.drop position).take
              ((bytes.drop position).take length).length := by
        rw [chunkLength]
      have extended := filled.extend cut (by rw [chunkLength]; exact inside)
      rwa [chunkLength] at extended
  laid := by
    rw [landedWrites_deliver_of_landed landed]
    have written :
        writesTo record
            [.recordWrite record C.payer position
              ((bytes.drop position).take length)] =
          [(position, (bytes.drop position).take length)] := by
      simp [writesTo, Instruction.writeTo]
    rw [written]
    exact writing.laid.extend inside

/-- The loop ends with the record filled up to the tail it returns. -/
theorem ensures_writeChunks
    {world : World C} {position : Nat} {base : List (Sent C.State)}
    (sound : Sound world log) (clean : Clean base world.sent)
    (recorded : record ∈ log.records)
    (free : ∀ proof ∈ log.staged, proof.record ≠ record)
    (writing : Writing world record bytes position) :
    Flow.Ensures (writeChunks record bytes position) world
      fun outcome reached =>
        match outcome with
        | .ok tail =>
            Sound reached log ∧ Clean base reached.sent ∧
              ∃ position', Writing reached record bytes position' ∧
                TailWrite C.payer record bytes position' tail
        | .error (.error error) =>
            Sound reached log ∧ Stopped base error reached.sent
        | .error .panic => Clean base reached.sent := by
  rw [writeChunks]
  split
  case isFalse done =>
      exact .pure ⟨sound, clean, position, writing,
        Or.inl ⟨rfl, Nat.le_antisymm writing.inside (Nat.le_of_not_lt done)⟩⟩
  case isTrue unfinished =>
      dsimp only
      split
      case h_1 => exact .panicking clean
      case h_2 len found =>
          have inside := largestChunk_le found
          rw [List.length_drop] at inside
          split
          case isTrue =>
              exact .fail ⟨sound, Or.inl ⟨clean, .writeTooLarge⟩⟩
          case isFalse progress =>
              split
              case isTrue =>
                  exact .pure ⟨sound, clean, position, writing, Or.inr rfl⟩
              case isFalse =>
                  refine .bind (World.ensures_send ?_ ?_)
                  · intro receipt landed
                    exact ensures_writeChunks
                      (sound.writeChunk recorded free landed)
                      (clean.landed_deliver rfl landed) recorded free
                      (writing.writeChunk (by omega) landed)
                  · intro error failed
                    exact ⟨sound.failed failed,
                      clean.stopped_deliver rfl failed⟩
termination_by bytes.length - position

end Record
/-! ## Staging -/

section Stage

variable {world : World C} {log : ProofLog} {bytes : Bytes}
  {lamports length number : Nat} {receipt : Receipt}

/-- The opening transaction of the record of the `number`-th keypair. -/
private abbrev opening (C : Cluster) (number lamports : Nat) (bytes : Bytes)
    (length : Nat) : List Instruction :=
  recordOpening C.programs C.payer (C.keypairs number).pubkey lamports
    (recordSpace bytes) (bytes.take length)

/-- An opening lands only at an address that nothing tracked is at. -/
private theorem opening_fresh
    (sound : Sound world log)
    (landed :
      (C.send world.state (opening C number lamports bytes length)
        [C.keypairs number]).outcome = .ok receipt) :
    (C.keypairs number).pubkey ∉ log.records := by
  obtain ⟨before, after, outside, ran, _⟩ := landed_steps landed
  obtain ⟨blank, _⟩ := runTransaction_recordOpening ran
  intro member
  have tracked := sound.tracked.outsiders C.held_payer outside
  obtain ⟨_, found⟩ := tracked.records _ member
  rw [blank] at found
  cases found

private theorem writesTo_opening
    {record : Address} (different : (C.keypairs number).pubkey ≠ record) :
    writesTo record (opening C number lamports bytes length) = [] := by
  simp [writesTo, Instruction.writeTo, recordOpening, different]

theorem Sound.openRecord
    (sound : Sound world log)
    (landed :
      (C.send world.state (opening C number lamports bytes length)
        [C.keypairs number]).outcome = .ok receipt) :
    Sound
      (world.deliver (opening C number lamports bytes length)
        [C.keypairs number])
      (log.withRecord (C.keypairs number).pubkey) := by
  have fresh := opening_fresh sound landed
  apply sound.landed landed
  · intro address member
    simp only [ProofLog.targets, ProofLog.withRecord, List.mem_append]
      at member ⊢
    tauto
  · intro address creation
    have same : address = (C.keypairs number).pubkey :=
      List.mem_singleton.mp creation
    rw [same]
    exact ⟨C.held_keypair number, by
      simp [ProofLog.targets, ProofLog.withRecord]⟩
  · intro before after tracked ran
    obtain ⟨blank, _, rfl⟩ := runTransaction_recordOpening ran
    refine ⟨tracked.openRecord blank, ?_⟩
    intro address vacant
    by_cases same : address = (C.keypairs number).pubkey
    · right
      simp [ProofLog.targets, ProofLog.withRecord, same]
    · left
      rw [Function.update_of_ne same, vacant]
  · intro proof member
    rw [writesTo_opening, List.append_nil]
    · exact sound.laid proof member
    · intro same
      exact fresh (same ▸ sound.tracked.recorded proof member)
  · intro record untracked
    simp only [ProofLog.withRecord, List.mem_append, List.mem_singleton,
      not_or] at untracked
    exact ⟨untracked.1, writesTo_opening fun same => untracked.2 same.symm⟩
  · exact sound.contextsHeld

theorem Writing.openRecord
    (sound : Sound world log)
    (inside : length ≤ bytes.length)
    (landed :
      (C.send world.state (opening C number lamports bytes length)
        [C.keypairs number]).outcome = .ok receipt) :
    Writing
      (world.deliver (opening C number lamports bytes length)
        [C.keypairs number])
      (C.keypairs number).pubkey bytes length where
  inside := inside
  found := by
    obtain ⟨before, after, _, ran, later⟩ := landed_steps landed
    obtain ⟨_, _, rfl⟩ := runTransaction_recordOpening ran
    have blank :
        Filled bytes 0
          (List.replicate
            (recordSpace bytes - RecordData.WRITABLE_START_INDEX)
            (0 : UInt8)) :=
      .zero (by simp [recordSpace])
    refine ⟨overwrite (List.replicate
      (recordSpace bytes - RecordData.WRITABLE_START_INDEX) 0) 0
        (bytes.take length), ?_, ?_⟩
    · rw [later.unchanged (by
        rw [Function.update_self]
        exact C.held_payer), Function.update_self]
    · have chunkLength : (bytes.take length).length = length := by
        rw [List.length_take, Nat.min_eq_left inside]
      have extended := blank.extend
        (by rw [List.drop_zero, chunkLength]) (by
          rw [chunkLength, Nat.zero_add]
          exact inside)
      rwa [chunkLength, Nat.zero_add] at extended
  laid := by
    have first :
        writesTo (C.keypairs number).pubkey
            (opening C number lamports bytes length) =
          [(0, bytes.take length)] := by
      simp [writesTo, Instruction.writeTo, recordOpening, List.filterMap_cons]
    have laid := (LaidTo.zero bytes).extend
      (show 0 + length ≤ bytes.length by omega)
    rw [landedWrites_deliver_of_landed landed,
      sound.unwritten _ (opening_fresh sound landed), first]
    rwa [List.drop_zero, Nat.zero_add] at laid

/-- The finished record and its tail are staged. -/
theorem Sound.stage
    {proof : StagedProof} {position : Nat}
    (sound : Sound world log)
    (create : ∃ lamports space,
      proof.staged.create =
        .createAccount C.payer proof.context lamports space
          C.programs.zkElGamalProof)
    (verify :
      proof.staged.verify =
        .verifyProofFromAccount proof.instruction
          (some (contextInfo proof.context C.payer)) proof.record
          RecordData.WRITABLE_START_INDEX)
    (writing : Writing world proof.record proof.bytes position)
    (tail :
      TailWrite C.payer proof.record proof.bytes position
        proof.staged.tailWrite)
    (recorded : proof.record ∈ log.records)
    (free : ∀ other ∈ log.staged, other.record ≠ proof.record)
    (contextHeld : C.held proof.context) :
    Sound world (log.withStaged proof) where
  tracked := by
    obtain ⟨payload, found, filled⟩ := writing.found
    refine sound.tracked.stage ⟨create, verify, ?_⟩ recorded free
    refine ⟨position, payload, found, filled, writing.inside, ?_⟩
    rcases tail with ⟨noTail, complete⟩ | kept
    · exact Or.inl ⟨noTail, complete⟩
    · exact Or.inr kept
  residue := sound.residue
  laid other member := by
    rcases List.mem_append.mp member with old | new
    · exact sound.laid other old
    · rw [List.mem_singleton.mp new]
      rcases tail with ⟨noTail, complete⟩ | kept
      · have laid := writing.laid
        rw [complete] at laid
        simpa [StagedProof.keptBack, noTail, writesTo] using laid.complete
      · have last :
            Tiles proof.bytes position
              [(position, proof.bytes.drop position)] := by
          have inside := writing.inside
          refine ⟨rfl, List.take_length.symm, ?_, ?_⟩
          · rw [List.length_drop]
            omega
          · show position + (proof.bytes.drop position).length =
              proof.bytes.length
            rw [List.length_drop]
            omega
        simpa [StagedProof.keptBack, kept, writesTo, Instruction.writeTo]
          using writing.laid _ last
  unwritten := sound.unwritten
  contextsHeld other member := by
    rcases List.mem_append.mp member with old | new
    · exact sound.contextsHeld other old
    · rw [List.mem_singleton.mp new]
      exact contextHeld

theorem ensures_stageFromRecord
    {session : Session C} {log : ProofLog} {base : List (Sent C.State)}
    (instruction : ProofInstruction) (proof : ProofData)
    (represents : Represents session log) (clean : Clean base session.world.sent) :
    Flow.Ensures (ProofAccounts.stageFromRecord instruction proof) session
      (Proceeds base
        (fun context grown =>
          ∃ staged : StagedProof,
            staged.context = context ∧ staged.instruction = instruction ∧
              staged.bytes = proof.bytes ∧
              grown = (log.withRecord staged.record).withStaged staged)
        fun left => left.verified = log.verified ∧ left.staged = log.staged) := by
  unfold ProofAccounts.stageFromRecord
  refine .bind (.zoom (World.ensures_newKeypair ?_))
  refine .bind (.zoom (World.ensures_rent fun lamports => ?_))
  have sound := represents.sound.draw (session.world.drawn + 1)
  refine .bind (.zoom (ensures_foundOrPanic (fun offset found => ?_) clean))
  have inside := largestChunk_le found
  refine .bind (.zoom (World.ensures_send ?_ ?_))
  rotate_left
  · intro error failed
    exact ⟨log, ⟨rfl, rfl⟩, ⟨represents.accounts, sound.failed failed⟩,
      clean.stopped_deliver rfl failed⟩
  intro receipt landed
  have fresh := opening_fresh sound landed
  have free : ∀ other ∈ log.staged,
      other.record ≠ (C.keypairs session.world.drawn).pubkey := by
    intro other member same
    exact fresh (same ▸ represents.sound.tracked.recorded other member)
  refine .bind (.update ?_)
  have written := ensures_writeChunks (sound.openRecord landed)
    (clean.landed_deliver rfl landed)
    (List.mem_append_right _ (List.mem_singleton_self _)) free
    (Writing.openRecord sound inside landed)
  refine .bind (.zoom (written.mono ?_))
  rintro ((error | _) | tail) reached ended
  · refine ⟨log.withRecord (C.keypairs session.world.drawn).pubkey,
      ⟨rfl, rfl⟩, ⟨?_, ended.1⟩, ended.2⟩
    simp [represents.accounts, ProofLog.proofAccounts, ProofLog.withRecord]
  · exact ended
  · obtain ⟨filled, stillClean, position, writing, kept⟩ := ended
    refine .bind (.zoom (World.ensures_newKeypair ?_))
    refine .bind (.zoom (.bind (World.ensures_rent fun lamports' => ?_)))
    refine .pure ?_
    refine .bind (.update (.pure ?_))
    let staged : StagedProof :=
      { staged :=
          { context := C.keypairs reached.drawn
            tailWrite := tail
            create :=
              .createAccount C.payer (C.keypairs reached.drawn).pubkey
                lamports' (contextStateSize proof.contextSize)
                C.programs.zkElGamalProof
            verify :=
              .verifyProofFromAccount instruction
                (some (contextInfo (C.keypairs reached.drawn).pubkey C.payer))
                (C.keypairs session.world.drawn).pubkey
                RecordData.WRITABLE_START_INDEX
            units := computeUnits instruction }
        record := (C.keypairs session.world.drawn).pubkey
        instruction := instruction
        bytes := proof.bytes }
    refine ⟨_, ⟨staged, rfl, rfl, rfl, rfl⟩, ⟨?_, ?_⟩, stillClean⟩
    · simp [represents.accounts, ProofLog.proofAccounts, ProofLog.withRecord,
        ProofLog.withStaged, staged]
    · have recorded : staged.record ∈
          (log.withRecord staged.record).records :=
        List.mem_append_right _ (List.mem_singleton_self _)
      have grown : Sound reached
          ((log.withRecord staged.record).withStaged staged) :=
        filled.stage ⟨_, _, rfl⟩ rfl writing kept recorded free
          (C.held_keypair _)
      exact grown.draw _

end Stage
end Remit
