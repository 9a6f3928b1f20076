import Remit.Proofs.Composition
import Remit.Cluster.Quiet

/-!
# Whatever was staged is used well

Proofs are verified and staged in any number and order, with failures passed
over.  What `consume` then sends are the tails, one well-formed transaction,
and batches that clean up after a failure.
-/

namespace Remit

open Flows Flow

variable {C : Cluster}

/-- Make the attempts one after another and tell how each ended. -/
def attemptAll :
    List StagingCall →
      Flow (Session C) Error (List (Except Error Address))
  | [] => pure []
  | call :: rest => do
      let result ← Flow.result call.run
      let later ← attemptAll rest
      pure (result :: later)

/-- The proof that a successful attempt gets on chain. -/
def StagingCall.proofAt (context : Address) : StagingCall → VerifiedProof
  | verify instruction proof => ⟨context, instruction, proof.bytes⟩
  | stageFromRecord instruction proof => ⟨context, instruction, proof.bytes⟩

/-- The proofs of the successful attempts, at the addresses returned. -/
def delivered :
    List StagingCall → List (Except Error Address) → List VerifiedProof
  | call :: calls, .ok context :: results =>
      call.proofAt context :: delivered calls results
  | _ :: calls, .error _ :: results => delivered calls results
  | _, _ => []

/-- The keys with numbers from `first` up to `limit` are different, and nothing
is at their addresses. -/
structure FreshKeys (C : Cluster) (state : C.State) (first limit : Nat) :
    Prop where
  distinct : DistinctDraws C first limit
  unused : ∀ number ∈ Set.Ico first limit,
    C.accounts state (C.keypairs number).pubkey = none

/-- What `consume` sends: tails, then at most one consuming transaction, which
is well formed, and cleanup unless that one landed. -/
def ConsumesWell (proofs : List VerifiedProof) (self : ProofAccounts)
    (instructions : List Instruction) (before : World C)
    (outcome : Except (Stop Error) Receipt) (reached : World C) : Prop :=
  ∃ (tails : List (Sent C.State)) (final : Option (Sent C.State))
      (cleanup : List (Sent C.State)),
    reached.sent = before.sent ++ (tails ++ (final.toList ++ cleanup)) ∧
      (∀ one ∈ tails, ∃ tail ∈ self.tails, one.transaction = [tail]) ∧
      (∀ one ∈ final, Assembled C proofs self instructions one ∧
        (one.landed = true → cleanup = [])) ∧
      (∀ one ∈ cleanup, Cleaning C one.transaction) ∧
      (final = none → outcome = .error .panic ∨
        (∃ one ∈ tails, one.landed = false) ∨ self.TooLarge C instructions)

/-! ## Before the consuming transaction -/

/-- The world agrees with the log, whose accounts are all different, and the
staged contexts were never used. -/
structure Ready (world : World C) (log : ProofLog) : Prop where
  sound : Sound world log
  distinct : (log.targets ++ log.stagedContexts).Nodup
  vacant : ∀ proof ∈ log.staged,
    C.accounts world.start proof.context = none

theorem Ready.blank
    {world : World C} {log : ProofLog} (ready : Ready world log) :
    ∀ proof ∈ log.staged, world.accounts proof.context = none := by
  intro proof member
  refine ready.sound.empty (ready.sound.contextsHeld proof member)
    (ready.vacant proof member) ?_
  intro tracked
  exact (List.nodup_append.mp ready.distinct).2.2 _ tracked _
    (List.mem_map_of_mem member) rfl

/-- What a log with its tails taken out is ready for. -/
theorem Ready.withoutTails
    {world reached : World C} {log : ProofLog} (ready : Ready world log)
    (sound : Sound reached log.withoutTails)
    (start : reached.start = world.start) :
    Ready reached log.withoutTails where
  sound := sound
  distinct := by
    have same : log.withoutTails.stagedContexts = log.stagedContexts := by
      simp [ProofLog.stagedContexts, ProofLog.withoutTails,
        StagedProof.withoutTail, StagedProof.context]
    rw [same, log.targets_withoutTails]
    exact ready.distinct
  vacant proof member := by
    obtain ⟨original, among, rfl⟩ := List.mem_map.mp member
    rw [start]
    exact ready.vacant original among

section Consuming

variable {world : World C} {log : ProofLog} {instructions : List Instruction}

/-- Sent in a world that is ready, the consuming transaction is well formed. -/
theorem Ready.assembled
    {withTails : Bool}
    (ready : Ready world log)
    (written : ∀ proof ∈ log.staged,
      withTails = false → proof.staged.tailWrite = none)
    (uses : ∀ instruction ∈ instructions, instruction.UsesProofs)
    (units : Nat) (signers : List Keypair) :
    Assembled C log.proofs log.proofAccounts instructions
      (world.sending
        (withComputeUnitLimit units
          (log.proofAccounts.consuming C.payer instructions withTails))
        (signers ++ log.proofAccounts.staged.map (·.context))) := by
  have outside := C.outsiders_before world.state
    (withComputeUnitLimit units
      (log.proofAccounts.consuming C.payer instructions withTails))
    (signers ++ log.proofAccounts.staged.map (·.context))
  refine ⟨units, log.staged.flatMap (StagedProof.part withTails),
    log.closings C.payer, ?_, ?_⟩
  · rw [← ProofLog.consuming_eq]
    rfl
  · refine (ready.sound.tracked.outsiders C.held_payer outside).wellFormed
      written ready.distinct List.mem_cons_self ?_ ?_ uses
    · intro proof member
      refine List.mem_cons_of_mem _ (List.mem_map.mpr
        ⟨proof.staged.context, List.mem_append_right _ ?_, rfl⟩)
      simp only [ProofLog.proofAccounts, List.map_map]
      exact List.mem_map.mpr ⟨proof, member, rfl⟩
    · intro proof member
      exact outside.empty (ready.sound.contextsHeld proof member)
        (ready.blank proof member)

/-- Sending the consuming transaction, if it fits. -/
theorem Ready.ensures_sendConsuming
    {withTails : Bool} {units : Nat}
    (ready : Ready world log)
    (written : ∀ proof ∈ log.staged,
      withTails = false → proof.staged.tailWrite = none)
    (uses : ∀ instruction ∈ instructions, instruction.UsesProofs)
    (signers : List Keypair) :
    Ensures
      (log.proofAccounts.sendConsuming
        (withComputeUnitLimit units
          (log.proofAccounts.consuming C.payer instructions withTails))
        signers) world
      fun outcome reached =>
        ∃ (final : Option (Sent C.State)) (cleanup : List (Sent C.State)),
          reached.sent = world.sent ++ (final.toList ++ cleanup) ∧
            (∀ one ∈ final,
              Assembled C log.proofs log.proofAccounts instructions one ∧
                (one.landed = true → cleanup = [])) ∧
            (∀ one ∈ cleanup, Cleaning C one.transaction) ∧
            (final = none → outcome = .error .panic ∨
              batchFits C.programs C.payer
                (log.proofAccounts.consuming C.payer instructions
                  withTails) = false) := by
  unfold ProofAccounts.sendConsuming
  refine .bind (World.ensures_fits (fun fits measured => ?_)
    ⟨none, [], by simp, by simp, by simp, fun _ => .inl rfl⟩)
  rw [fits_withComputeUnitLimit] at measured
  cases fits with
  | false =>
      refine ((ProofAccounts.cleans_closeAfter _ _) world).mono ?_
      intro outcome reached ended
      obtain ⟨cleanup, sent, cleans⟩ := ended.1.sent
      exact ⟨none, cleanup, sent, by simp, cleans, fun _ => .inr measured⟩
  | true =>
      have assembled := ready.assembled written uses units signers
      refine .bind (.result (World.ensures_send ?_ ?_))
      · intro receipt landed
        refine .pure ⟨some _, [], rfl, ?_, by simp, by simp⟩
        rintro one ⟨⟩
        exact ⟨assembled, fun _ => rfl⟩
      · intro error failed
        refine ((ProofAccounts.cleans_closeAfter _ _) _).mono ?_
        intro outcome reached ended
        obtain ⟨cleanup, sent, cleans⟩ := ended.1.sent
        refine ⟨some _, cleanup, sent.trans (List.append_assoc ..), ?_, cleans,
          by simp⟩
        rintro one ⟨⟩
        refine ⟨assembled, fun landed => ?_⟩
        rw [World.not_landed_sending failed] at landed
        cases landed

/-- The tails are sent one by one, and the last one sent is the only one that
may have failed. -/
theorem sends_sendTails (tails : List Instruction) :
    ∀ world : World C, Ensures (ProofAccounts.sendTails tails) world
      fun outcome reached =>
        reached.start = world.start ∧
          ∃ sent, reached.sent = world.sent ++ sent ∧
            (∀ one ∈ sent, ∃ tail ∈ tails, one.transaction = [tail]) ∧
            (outcome ≠ .ok () → ∃ one ∈ sent, one.landed = false) := by
  induction tails with
  | nil => exact fun world => .pure ⟨rfl, [], by simp, by simp, by simp⟩
  | cons tail rest inductionHypothesis =>
      intro world
      refine .bind (World.ensures_send ?_ ?_)
      · intro receipt landed
        refine (inductionHypothesis _).mono ?_
        rintro outcome reached ⟨start, sent, grown, tails, failing⟩
        refine ⟨start, world.sending [tail] [] :: sent,
          grown.trans (List.append_assoc ..), ?_, ?_⟩
        · intro one member
          rcases List.mem_cons.mp member with rfl | later
          · exact ⟨tail, List.mem_cons_self, rfl⟩
          · obtain ⟨other, among, same⟩ := tails one later
            exact ⟨other, List.mem_cons_of_mem _ among, same⟩
        · intro failed
          obtain ⟨one, member, lost⟩ := failing failed
          exact ⟨one, List.mem_cons_of_mem _ member, lost⟩
      · intro error failed
        refine ⟨rfl, [world.sending [tail] []], rfl, ?_, ?_⟩
        · intro one member
          rw [List.mem_singleton.mp member]
          exact ⟨tail, List.mem_cons_self, rfl⟩
        · exact fun _ => ⟨_, List.mem_singleton_self _,
            World.not_landed_sending failed⟩

theorem Ready.ensures_consume
    (ready : Ready world log)
    (uses : ∀ instruction ∈ instructions, instruction.UsesProofs)
    (signers : List Keypair) (units : Nat) :
    Ensures (log.proofAccounts.consume instructions signers units) world
      (ConsumesWell log.proofs log.proofAccounts instructions world) := by
  have panicked :
      ConsumesWell log.proofs log.proofAccounts instructions world
        (.error .panic) world :=
    ⟨[], none, [], by simp, by simp, by simp, by simp, fun _ => .inl rfl⟩
  unfold ProofAccounts.consume ProofAccounts.build
  refine .bind (.bind (ensures_checkedUnits (.pure ?_) panicked))
  refine .bind (World.ensures_fits (fun fits measured => ?_) panicked)
  rw [fits_withComputeUnitLimit] at measured
  cases fits with
  | true =>
      refine (ready.ensures_sendConsuming ?_ uses signers).mono ?_
      · exact fun _ _ impossible => by cases impossible
      · rintro outcome reached ⟨final, cleanup, sent, assembled, cleans, lost⟩
        refine ⟨[], final, cleanup, sent, by simp, assembled, cleans, ?_⟩
        intro unsent
        rcases lost unsent with panic | tooLarge
        · exact .inl panic
        · rw [measured] at tooLarge
          cases tooLarge
  | false =>
      have tails :
          log.proofAccounts.tails =
            log.staged.filterMap (·.staged.tailWrite) := by
        simp only [ProofAccounts.tails, ProofLog.proofAccounts,
          List.filterMap_map]
        rfl
      have wrote := ensures_sendTails
        (show Sound world { log with staged := [] ++ log.staged }
          from ready.sound) (.refl world.sent)
      rw [← tails] at wrote
      refine .bind (.result ((wrote.and (sends_sendTails _ world)).mono ?_))
      rintro ((error | _) | ⟨⟩) reached ⟨ended, start, sent, grown, each, lost⟩
      · refine ((ProofAccounts.cleans_closeAfter _ _) reached).mono ?_
        intro outcome later closed
        obtain ⟨cleanup, more, cleans⟩ := closed.1.sent
        refine ⟨sent, none, cleanup, ?_, each, by simp, cleans, ?_⟩
        · rw [more, grown, List.append_assoc]
          rfl
        · exact fun _ => .inr (.inl (lost (by simp)))
      · exact ended.elim
      · have readyNow := ready.withoutTails ended.1 start
        refine .bind (.bind (ensures_checkedUnits (.pure ?_)
          ⟨sent, none, [], by simp [grown], each, by simp, by simp,
            fun _ => .inl rfl⟩))
        rw [← log.proofAccounts_withoutTails]
        refine (readyNow.ensures_sendConsuming ?_ uses signers).mono ?_
        · intro proof member _
          obtain ⟨original, _, rfl⟩ := List.mem_map.mp member
          rfl
        · rintro outcome later
            ⟨final, cleanup, more, assembled, cleans, unsent⟩
          rw [log.withoutTails_proofs, log.proofAccounts_withoutTails]
            at assembled
          rw [log.proofAccounts_withoutTails,
            ProofAccounts.consuming_withoutTails] at unsent
          refine ⟨sent, final, cleanup, ?_, each, ?_, cleans, ?_⟩
          · rw [more, grown, List.append_assoc]
          · intro one isFinal
            obtain ⟨⟨limit, staging, closings, shape, parts⟩, landed⟩ :=
              assembled one isFinal
            have same : log.proofAccounts.withoutTails.closed =
                log.proofAccounts.closed := by
              simp [ProofAccounts.closed, ProofAccounts.withoutTails]
            rw [same] at parts
            exact ⟨⟨limit, staging, closings, shape, parts⟩, landed⟩
          · intro none
            rcases unsent none with panic | tooLarge
            · exact .inl panic
            · refine .inr (.inr fun withTails => ?_)
              cases withTails with
              | true => exact measured
              | false => exact tooLarge

end Consuming

/-! ## The attempts -/

theorem WellFormed.of_same_proofs
    {proofs others : List VerifiedProof} {tracked keys : List Address}
    {accounts : Accounts} {staging instructions closings : List Instruction}
    (wellFormed : WellFormed C proofs tracked keys accounts staging
      instructions closings)
    (same : ∀ proof, proof ∈ proofs ↔ proof ∈ others) :
    WellFormed C others tracked keys accounts staging instructions closings :=
  { wellFormed with
    complete := by
      intro before instruction context record offset after split
      obtain ⟨proof, member, holds⟩ :=
        wellFormed.complete before instruction context record offset after
          split
      exact ⟨proof, (same proof).mp member, holds⟩
    verified := fun before after split reached ran proof member =>
      wellFormed.verified before after split reached ran proof
        ((same proof).mpr member) }

theorem ConsumesWell.of_same_proofs
    {proofs others : List VerifiedProof} {self : ProofAccounts}
    {instructions : List Instruction} {before reached : World C}
    {outcome : Except (Stop Error) Receipt}
    (consumes : ConsumesWell proofs self instructions before outcome reached)
    (same : ∀ proof, proof ∈ proofs ↔ proof ∈ others) :
    ConsumesWell others self instructions before outcome reached := by
  obtain ⟨tails, final, cleanup, sent, each, assembled, rest⟩ := consumes
  refine ⟨tails, final, cleanup, sent, each, ?_, rest⟩
  intro one isFinal
  obtain ⟨⟨limit, staging, closings, shape, parts⟩, landed⟩ :=
    assembled one isFinal
  exact ⟨⟨limit, staging, closings, shape, parts.of_same_proofs same⟩, landed⟩

/-- The log of the session has the given proofs. -/
def Holding (proofs : List VerifiedProof) (session : Session C) : Prop :=
  ∃ log, Represents session log ∧
    ∀ proof, proof ∈ log.proofs ↔ proof ∈ proofs

/-- One attempt adds its proof, or nothing if it fails. -/
theorem holding_call
    {session : Session C} {proofs : List VerifiedProof} (call : StagingCall)
    (holding : Holding proofs session) :
    Ensures call.run session fun outcome reached =>
      match outcome with
      | .ok context => Holding (proofs ++ [call.proofAt context]) reached
      | .error (.error _) => Holding proofs reached
      | .error .panic => True := by
  obtain ⟨log, represents, same⟩ := holding
  have unchanged : ∀ {left : ProofLog} {reached : Session C},
      left.verified = log.verified ∧ left.staged = log.staged →
      Represents reached left → Holding proofs reached := by
    intro left reached kept representsLeft
    refine ⟨left, representsLeft, fun proof => ?_⟩
    rw [ProofLog.proofs, kept.1, kept.2]
    exact same proof
  cases call with
  | verify instruction proof =>
      refine (ensures_verify instruction proof represents (.refl _)).mono ?_
      rintro ((error | _) | context) reached ended
      · obtain ⟨left, kept, representsLeft, _⟩ := ended
        exact unchanged kept representsLeft
      · trivial
      · obtain ⟨_, rfl, grown, _⟩ := ended
        refine ⟨_, grown, fun other => ?_⟩
        rw [List.mem_append, ← same other]
        simp only [ProofLog.proofs, ProofLog.withVerified,
          StagingCall.proofAt, List.mem_append]
        tauto
  | stageFromRecord instruction proof =>
      refine (ensures_stageFromRecord instruction proof represents
        (.refl _)).mono ?_
      rintro ((error | _) | context) reached ended
      · obtain ⟨left, kept, representsLeft, _⟩ := ended
        exact unchanged kept representsLeft
      · trivial
      · obtain ⟨_, ⟨staged, rfl, rfl, bytes, rfl⟩, grown, _⟩ := ended
        refine ⟨_, grown, fun other => ?_⟩
        rw [List.mem_append, ← same other]
        simp only [ProofLog.proofs, ProofLog.withStaged, ProofLog.withRecord,
          StagingCall.proofAt, List.mem_append, List.map_append,
          List.map_singleton, bytes]
        tauto

theorem holding_attemptAll
    {session : Session C} {proofs : List VerifiedProof}
    (calls : List StagingCall) (holding : Holding proofs session) :
    Ensures (attemptAll calls) session fun outcome reached =>
      ∀ results, outcome = .ok results →
        Holding (proofs ++ delivered calls results) reached := by
  induction calls generalizing session proofs with
  | nil =>
      refine .pure ?_
      rintro _ ⟨⟩
      rw [delivered, List.append_nil]
      · exact holding
      · simp
      · simp
  | cons call rest inductionHypothesis =>
      unfold attemptAll
      refine .bind (.result ((holding_call call holding).mono ?_))
      rintro ((error | _) | context) reached ended
      · refine .bind ((inductionHypothesis ended).mono ?_)
        rintro (stop | results) last held
        · exact fun _ impossible => by cases impossible
        · refine .pure ?_
          rintro _ ⟨⟩
          exact held results rfl
      · exact fun _ impossible => by cases impossible
      · refine .bind ((inductionHypothesis ended).mono ?_)
        rintro (stop | results) last held
        · exact fun _ impossible => by cases impossible
        · refine .pure ?_
          rintro _ ⟨⟩
          have together := held results rfl
          rwa [List.append_assoc] at together

theorem posts_attemptAll
    (asked : Nat → List Instruction → Nat → Prop) (calls : List StagingCall) :
    Within (Session.Posts (Dispatched C asked)) (fun _ => True)
      (attemptAll calls :
        Flow (Session C) Error (List (Except Error Address))) := by
  induction calls with
  | nil => exact .pure trivial
  | cons call rest inductionHypothesis =>
      have attempted :
          Within (Session.Posts (Dispatched C asked)) (fun _ => True)
            (call.run : Flow (Session C) Error Address) := by
        cases call with
        | verify instruction proof =>
            exact ProofAccounts.posts_verify asked instruction proof
        | stageFromRecord instruction proof =>
            exact ProofAccounts.posts_stageFromRecord asked instruction proof
      exact .bind attempted.result fun _ _ =>
        .bind inductionHypothesis fun _ _ => .pure trivial

/-- The proofs of the successful attempts are used in a well-formed
transaction, whatever was attempted and whatever the caller's instructions do
with them. -/
theorem consuming_transaction_is_well_formed
    (C : Cluster) (state : C.State) (drawn limit : Nat)
    (calls : List StagingCall) (instructions : List Instruction)
    (signers : List Keypair) (units : Nat)
    (fresh : FreshKeys C state drawn limit)
    (uses : ∀ instruction ∈ instructions, instruction.UsesProofs) :
    Ensures (attemptAll calls) ⟨{}, World.initial state drawn⟩
      fun outcome session =>
        ∀ results, outcome = .ok results → session.world.drawn ≤ limit →
          Ensures (session.accounts.consume instructions signers units)
            session.world
            (ConsumesWell (delivered calls results) session.accounts
              instructions session.world) := by
  have start :
      Holding [] (⟨{}, World.initial state drawn⟩ : Session C) :=
    ⟨{}, ⟨rfl, .initial state drawn⟩, by simp [ProofLog.proofs]⟩
  have posts := posts_attemptAll (C := C) (fun _ _ _ => True) calls
  refine ((holding_attemptAll calls start).and (posts _)).mono ?_
  rintro outcome session ⟨held, moved, _⟩ results returned few
  obtain ⟨log, represents, same⟩ := held results returned
  have settled := moved.settled drawn (.empty (Nat.le_refl _))
  have draws : Drawn C drawn session.world.drawn
      (log.targets ++ log.stagedContexts) := by
    have addresses : session.accounts.addresses =
        log.targets ++ log.stagedContexts := by
      rw [represents.accounts]
      simp only [ProofAccounts.addresses, ProofLog.proofAccounts,
        ProofLog.targets, ProofLog.stagedContexts, List.map_map]
      rfl
    rw [← addresses]
    exact settled.draws
  have ready : Ready session.world log :=
    { sound := represents.sound
      distinct := draws.nodup fresh.distinct (Nat.le_refl _) few
      vacant := by
        intro proof member
        obtain ⟨number, inside, isKey⟩ := draws.exists_number
          (List.mem_append_right _ (List.mem_map_of_mem member))
        rw [← isKey, moved.world.start]
        exact fresh.unused number
          ⟨inside.1, Nat.lt_of_lt_of_le inside.2 few⟩ }
  rw [represents.accounts]
  exact (ready.ensures_consume uses signers units).mono
    fun _ _ consumes => consumes.of_same_proofs same

/-! ## Both kinds of proofs on a quiet cluster -/

namespace Quiet

/-- Proofs that are verified at once and proofs that are staged. -/
def proofCalls : List StagingCall :=
  [.stageFromRecord .verifyBatchedRangeProofU256 ⟨List.replicate 1000 7, 40⟩,
    .verify .verifyPubkeyValidity ⟨[1, 2, 3], 33⟩,
    .stageFromRecord .verifyPercentageWithCap ⟨List.replicate 20 9, 72⟩]

def unused : cluster.State :=
  ⟨fun _ => none, fun _ => none⟩

theorem freshKeys (limit : Nat) (few : limit ≤ 2 ^ 64) :
    FreshKeys cluster unused 0 limit where
  distinct := by
    intro left leftInside right rightInside same
    have leftBelow := leftInside.2
    have rightBelow := rightInside.2
    exact keypair_injOn (Nat.lt_of_lt_of_le leftBelow few)
      (Nat.lt_of_lt_of_le rightBelow few) (congrArg Keypair.mk same)
  unused _ _ := rfl

theorem proofCalls_drawn :
    (Flow.exec (attemptAll proofCalls)
      (⟨{}, World.initial unused 0⟩ : Session cluster)).2.world.drawn = 5 := by
  decide +kernel

/-- An inline proof after the staged ones. -/
theorem proofCalls_are_used_well :
    ∃ results,
      (Flow.exec (attemptAll proofCalls)
          (⟨{}, World.initial unused 0⟩ : Session cluster)).1 =
        .ok results ∧
      (delivered proofCalls results).length = 3 ∧
      Ensures
        ((Flow.exec (attemptAll proofCalls)
          (⟨{}, World.initial unused 0⟩ :
            Session cluster)).2.accounts.consume
          [.verifyProof .verifyPubkeyValidity none [4, 5, 6]] [] 2600)
        (Flow.exec (attemptAll proofCalls)
          (⟨{}, World.initial unused 0⟩ : Session cluster)).2.world
        (ConsumesWell (delivered proofCalls results)
          (Flow.exec (attemptAll proofCalls)
            (⟨{}, World.initial unused 0⟩ : Session cluster)).2.accounts
          [.verifyProof .verifyPubkeyValidity none [4, 5, 6]]
          (Flow.exec (attemptAll proofCalls)
            (⟨{}, World.initial unused 0⟩ : Session cluster)).2.world) := by
  have used := consuming_transaction_is_well_formed cluster unused 0 5
    proofCalls [.verifyProof .verifyPubkeyValidity none [4, 5, 6]] [] 2600
    (freshKeys 5 (by decide)) fun instruction member => by
      rw [List.mem_singleton.mp member]
      rfl
  refine ⟨[.ok (keypair 1).pubkey, .ok (keypair 2).pubkey,
    .ok (keypair 4).pubkey], ?_, rfl, ?_⟩
  · decide +kernel
  · exact used.holds _ (by decide +kernel) (Nat.le_of_eq proofCalls_drawn)

end Quiet
end Remit
