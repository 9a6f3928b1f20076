import Remit.Confidential
import Remit.Proofs.Finishing

/-!
# Debits happen exactly once and leave nothing behind

`transfer` and `withdraw` prepare, move their proofs on-chain and consume them.
If such a call returns, its Token-2022 instruction landed in one transaction
and every proof account is gone; if it fails, the instruction did not land, the
error is that of the first failing send or the library's own, and what the
call created is gone unless a cleanup transaction failed too.
-/

namespace Remit

open Flows

variable {crypto : Crypto} {C : Cluster}

/-! ## Staging the proofs of a debit -/

/-- The instructions of a staged transfer, and the proofs behind them. -/
structure TransferStaged (plan : TransferPlan) (source destination : Address)
    (owner : Keypair) (instructions : List Instruction) (log : ProofLog) :
    Prop where
  staged : ∃ equality amountValidity feeSigma feeValidity,
    ∃ range : StagedProof,
      instructions =
          [.token (.transferWithFee
            (plan.instruction source destination owner equality
              amountValidity feeSigma feeValidity range.context))] ∧
        log.verified =
          [⟨equality, .verifyCiphertextCommitmentEquality,
              plan.proof.equalityProofData.bytes⟩,
            ⟨amountValidity, .verifyBatchedGroupedCiphertext3HandlesValidity,
              plan.proof.transferAmountCiphertextValidityProofDataWithCiphertext.proofData.bytes⟩,
            ⟨feeSigma, .verifyPercentageWithCap,
              plan.proof.percentageWithCapProofData.bytes⟩,
            ⟨feeValidity, .verifyBatchedGroupedCiphertext2HandlesValidity,
              plan.proof.feeCiphertextValidityProofData.bytes⟩] ∧
        log.staged = [range] ∧
        range.instruction = .verifyBatchedRangeProofU256 ∧
        range.bytes = plan.proof.rangeProofData.bytes

structure WithdrawStaged (plan : WithdrawPlan) (tokenAccount : Address)
    (owner : Keypair) (amount : Nat) (instructions : List Instruction)
    (log : ProofLog) : Prop where
  staged : ∃ range : StagedProof,
    instructions =
        [.token (.withdraw
            (plan.instruction tokenAccount owner amount range.context)),
          .verifyProof .verifyCiphertextCommitmentEquality none
            plan.proof.equalityProofData.bytes] ∧
      log.verified = [] ∧ log.staged = [range] ∧
      range.instruction = .verifyBatchedRangeProofU64 ∧
      range.bytes = plan.proof.rangeProofData.bytes

theorem TransferPlan.ensures_stage
    {session : Session C} {base : List (Sent C.State)}
    (plan : TransferPlan) (source destination : Address) (owner : Keypair)
    (represents : Represents session {})
    (clean : Clean base session.world.sent) :
    Flow.Ensures (plan.stage source destination owner) session
      (Proceeds base (TransferStaged plan source destination owner)
        fun _ => True) := by
  unfold TransferPlan.stage
  refine Proceeds.bind (ensures_verify _ _ represents clean)
    (fun _ _ => trivial) ?_
  rintro equality _ session rfl represents clean
  refine Proceeds.bind (ensures_verify _ _ represents clean)
    (fun _ _ => trivial) ?_
  rintro amountValidity _ session rfl represents clean
  refine Proceeds.bind (ensures_verify _ _ represents clean)
    (fun _ _ => trivial) ?_
  rintro feeSigma _ session rfl represents clean
  refine Proceeds.bind (ensures_verify _ _ represents clean)
    (fun _ _ => trivial) ?_
  rintro feeValidity _ session rfl represents clean
  refine Proceeds.bind (ensures_stageFromRecord _ _ represents clean)
    (fun _ _ => trivial) ?_
  rintro _ _ session ⟨range, rfl, kind, bytes, rfl⟩ represents clean
  refine Flow.Ensures.bind (ensures_ofExcept_tokenInstruction ?_ ?_)
  · exact .pure
      ⟨_, ⟨_, _, _, _, range, rfl, rfl, rfl, kind, bytes⟩, represents, clean⟩
  · intro error refused
    exact ⟨_, trivial, represents, Or.inl ⟨clean, .builder refused⟩⟩

theorem WithdrawPlan.ensures_stage
    {session : Session C} {base : List (Sent C.State)}
    (plan : WithdrawPlan) (tokenAccount : Address) (owner : Keypair)
    (amount : Nat) (represents : Represents session {})
    (clean : Clean base session.world.sent) :
    Flow.Ensures (plan.stage tokenAccount owner amount) session
      (Proceeds base (WithdrawStaged plan tokenAccount owner amount)
        fun _ => True) := by
  unfold WithdrawPlan.stage
  refine Proceeds.bind (ensures_stageFromRecord _ _ represents clean)
    (fun _ _ => trivial) ?_
  rintro _ _ session ⟨range, rfl, kind, bytes, rfl⟩ represents clean
  refine Flow.Ensures.bind (ensures_ofExcept_tokenInstruction ?_ ?_)
  · exact .pure
      ⟨_, ⟨range, rfl, rfl, rfl, kind, bytes⟩, represents, clean⟩
  · intro error refused
    exact ⟨_, trivial, represents, Or.inl ⟨clean, .builder refused⟩⟩

/-! ## The contract of a debit -/

/-- The Token-2022 instructions that landed. -/
def landedTokens {State : Type} (sent : List (Sent State)) :
    List TokenInstruction :=
  (sent.filter Sent.landed).flatMap fun one => tokenInstructions one.transaction

/-- The error is that of the last of the sends `main`, all others of which
landed, or it is one of the errors `own` and all of them landed. -/
def FirstError (own : Error → Prop) (error : Error)
    (main : List (Sent C.State)) : Prop :=
  (own error ∧ ∀ one ∈ main, one.landed = true) ∨
    ∃ earlier last,
      main = earlier ++ [last] ∧ (∀ one ∈ earlier, one.landed = true) ∧
        last.delivery.outcome = .error error

/-- How a call may end that lands an instruction with a given purpose.  A
panic is the caller's end as well, and nothing has landed by then. -/
def ExactlyOnce {α : Type} (purpose : TokenInstruction → Prop)
    (own : Error → Prop) (outcome : Except (Stop Error) α)
    (reached : World C) : Prop :=
  match outcome with
  | .ok _ =>
      (∃ instruction,
        purpose instruction ∧ landedTokens reached.sent = [instruction]) ∧
        Residue reached []
  | .error (.error error) =>
      landedTokens reached.sent = [] ∧
        ∃ main cleanup,
          reached.sent = main ++ cleanup ∧ FirstError own error main ∧
            ((∀ one ∈ cleanup, one.landed = true) → Residue reached [])
  | .error .panic => landedTokens reached.sent = []

theorem ExactlyOnce.map
    {α β : Type} {purpose : TokenInstruction → Prop} {own : Error → Prop}
    {outcome : Except (Stop Error) α} {reached : World C}
    (once : ExactlyOnce purpose own outcome reached) (f : α → β) :
    ExactlyOnce purpose own (outcome.map f) reached := by
  rcases outcome with (error | _) | a
  · exact once
  · exact once
  · exact once

theorem landedTokens_append
    {State : Type} (first second : List (Sent State)) :
    landedTokens (first ++ second) =
      landedTokens first ++ landedTokens second := by
  simp [landedTokens]

theorem landedTokens_of_plain
    {State : Type} {sent : List (Sent State)}
    (plain : ∀ one ∈ sent, Plain one.transaction) :
    landedTokens sent = [] := by
  apply List.flatMap_eq_nil_iff.mpr
  intro one member
  exact (plain one (List.mem_of_mem_filter member)).tokenInstructions

theorem Clean.plain
    {State : Type} {sent : List (Sent State)} (clean : Clean [] sent) :
    ∀ one ∈ sent, one.landed = true ∧ Plain one.transaction := by
  obtain ⟨later, rfl, good⟩ := clean
  exact good

theorem Clean.landedTokens
    {State : Type} {sent : List (Sent State)} (clean : Clean [] sent) :
    Remit.landedTokens sent = [] :=
  landedTokens_of_plain fun one member => (clean.plain one member).2

theorem tokenInstructions_append (first second : List Instruction) :
    tokenInstructions (first ++ second) =
      tokenInstructions first ++ tokenInstructions second :=
  List.filterMap_append ..

/-- The consuming transaction carries the caller's Token-2022 instructions and
no others. -/
theorem Consumption.tokenInstructions
    {log : ProofLog} {instructions : List Instruction}
    {signers : List Keypair} {earlier : List (Sent C.State)}
    {one : Sent C.State}
    (consumption : Consumption log instructions signers earlier one) :
    Remit.tokenInstructions one.transaction =
      Remit.tokenInstructions instructions := by
  obtain ⟨units, withTails, shape, _⟩ := consumption.shape
  have parts :
      Remit.tokenInstructions
        (log.staged.flatMap (StagedProof.part withTails)) = [] := by
    apply List.filterMap_eq_nil_iff.mpr
    intro instruction member
    obtain ⟨proof, staged, member⟩ := List.mem_flatMap.mp member
    have carried := consumption.tracked.staged proof staged
    obtain ⟨_, _, create⟩ := carried.create
    obtain ⟨_, _, _, _, _, tail⟩ := carried.written
    simp only [StagedProof.part, ProofAccounts.stagedPart, List.mem_append,
      List.mem_cons, List.not_mem_nil, or_false] at member
    rcases member with isTail | rfl | rfl
    · rcases tail with ⟨noTail, _⟩ | hasTail
      · simp [noTail] at isTail
      · rw [hasTail] at isTail
        split at isTail
        · rw [Option.toList_some, List.mem_singleton] at isTail
          rw [isTail]
          rfl
        · cases isTail
    · rw [create]
      rfl
    · rw [carried.verify]
      rfl
  have closings :
      Remit.tokenInstructions (log.closings C.payer) = [] := by
    apply List.filterMap_eq_nil_iff.mpr
    intro instruction member
    rcases List.mem_append.mp member with context | record
    · obtain ⟨_, _, rfl⟩ := List.mem_map.mp context
      rfl
    · obtain ⟨_, _, rfl⟩ := List.mem_map.mp record
      rfl
  rw [shape, ProofLog.consuming_eq, withComputeUnitLimit]
  show Remit.tokenInstructions (_ ++ _ ++ _) = _
  rw [tokenInstructions_append, tokenInstructions_append, parts, closings,
    List.append_nil, List.nil_append]

/-- After a failure, cleanup sends follow that carry no Token-2022
instruction. -/
theorem Abandons.exactlyOnce
    {α β : Type} {purpose : TokenInstruction → Prop} {own : Error → Prop}
    {error : Error} {main : List (Sent C.State)} {stop : Stop Error}
    {reached : World C}
    (abandons :
      Abandons error main (.error stop : Except (Stop Error) α) reached)
    (unused : landedTokens main = [])
    (first : FirstError own error main) :
    ExactlyOnce purpose own (.error stop : Except (Stop Error) β) reached := by
  obtain ⟨cleanup, sent, plain, ended⟩ := abandons
  have nothing : landedTokens reached.sent = [] := by
    rw [sent, landedTokens_append, unused, landedTokens_of_plain plain,
      List.append_nil]
  rcases stop with returned | _
  · obtain ⟨rfl, settled⟩ := ended
    refine ⟨nothing, main, cleanup, sent, first, fun allLanded => ?_⟩
    rcases settled with gone | ⟨one, member, failed⟩
    · exact gone
    · rw [allLanded one member] at failed
      cases failed
  · exact nothing

theorem Stopped.firstError
    {own : Error → Prop} {error : Error} {main : List (Sent C.State)}
    (localErrors : ∀ error, LocalError C error → own error)
    (stopped : Stopped [] error main) :
    FirstError own error main ∧ landedTokens main = [] := by
  rcases stopped with
    ⟨clean, isLocal⟩ | ⟨earlier, last, rfl, clean, plain, failed⟩
  · exact ⟨Or.inl ⟨localErrors error isLocal,
      fun one member => (clean.plain one member).1⟩, clean.landedTokens⟩
  · refine ⟨Or.inr ⟨earlier, last, rfl,
      fun one member => (clean.plain one member).1, failed⟩, ?_⟩
    rw [landedTokens_append, clean.landedTokens,
      landedTokens_of_plain (by simpa using plain), List.append_nil]

/-- What `consume` does with one Token-2022 instruction. -/
theorem Finishes.exactlyOnce
    {log : ProofLog} {instructions : List Instruction}
    {signers : List Keypair} {outcome : Except (Stop Error) Receipt}
    {reached : World C} {purpose : TokenInstruction → Prop}
    {own : Error → Prop} {instruction : TokenInstruction}
    (localErrors : ∀ error, LocalError C error → own error)
    (inert : ∀ instruction ∈ instructions, instruction.Inert)
    (carries : tokenInstructions instructions = [instruction])
    (meant : purpose instruction)
    (finishes : Finishes [] log instructions signers outcome reached) :
    ExactlyOnce purpose own outcome reached := by
  rcases outcome with stop | receipt
  · rcases finishes with ⟨rfl, clean⟩ | ⟨error, main, cause, abandons⟩
    · exact clean.landedTokens
    rcases cause with
      stopped | ⟨used, earlier, one, _, rfl, clean, consumption, failed⟩
    · obtain ⟨first, unused⟩ := stopped.firstError localErrors
      exact abandons.exactlyOnce unused first
    · refine abandons.exactlyOnce ?_ (Or.inr ⟨earlier, one, rfl,
        fun other member => (clean.plain other member).1, failed⟩)
      have notLanded : one.landed = false := by
        simp [Sent.landed, failed, Except.toBool]
      rw [landedTokens_append, clean.landedTokens]
      simp [landedTokens, notLanded]
  · obtain ⟨used, earlier, one, _, sent, clean, consumption, landed, gone⟩ :=
      finishes
    refine ⟨⟨instruction, meant, ?_⟩, gone inert⟩
    have hasLanded : one.landed = true := by
      simp [Sent.landed, landed, Except.toBool]
    rw [sent, landedTokens_append, clean.landedTokens, List.nil_append,
      ← carries, ← consumption.tokenInstructions]
    simp [landedTokens, hasLanded]

/-! ## The calls -/

/-- A flow that reads the world and leaves it as it is. -/
def Reading {α : Type} (flow : Flow (World C) Error α) : Prop :=
  ∀ world, (Flow.exec flow world).2 = world

namespace Reading

variable {α β : Type} {flow : Flow (World C) Error α}

theorem read (observe : World C → α) :
    Reading (Flow.read observe : Flow (World C) Error α) :=
  fun _ => rfl

theorem ofExcept (outcome : Except Error α) :
    Reading (Flow.ofExcept outcome : Flow (World C) Error α) := by
  intro world
  cases outcome <;> rfl

theorem ofStop (outcome : Except (Stop Error) α) :
    Reading (Remit.ofStop outcome : Flow (World C) Error α) := by
  intro world
  cases outcome <;> rfl

theorem bind
    {next : α → Flow (World C) Error β}
    (first : Reading flow) (onward : ∀ a, Reading (next a)) :
    Reading (flow >>= next) := by
  intro world
  have unchanged := first world
  rw [Flow.exec_bind]
  rcases run : Flow.exec flow world with ⟨outcome, reached⟩
  rw [run] at unchanged
  cases unchanged
  cases outcome with
  | ok a => exact onward a reached
  | error stop => rfl

/-- Both parts of a reading flow that returns have returned. -/
theorem bind_eq_ok
    {next : α → Flow (World C) Error β} {world : World C} {b : β}
    (first : Reading flow)
    (returned : (Flow.exec (flow >>= next) world).1 = .ok b) :
    ∃ a, (Flow.exec flow world).1 = .ok a ∧
      (Flow.exec (next a) world).1 = .ok b := by
  have unchanged := first world
  rw [Flow.exec_bind] at returned
  rcases run : Flow.exec flow world with ⟨outcome, reached⟩
  rw [run] at unchanged returned
  cases unchanged
  cases outcome with
  | ok a => exact ⟨a, rfl, returned⟩
  | error stop => cases returned

theorem loadMint (address : Address) :
    Reading (World.loadMint address : Flow (World C) Error MintSnapshot) :=
  (read _).bind fun _ => .ofExcept _

theorem loadAccount (address : Address) :
    Reading (World.loadAccount address : Flow (World C) Error AccountSnapshot) :=
  (read _).bind fun _ => .ofExcept _

/-- What follows a reading flow starts in the same world. -/
theorem ensures
    {world : World C} {post : Except (Stop Error) α → World C → Prop}
    (reading : Reading flow)
    (holds : ∀ outcome,
      (Flow.exec flow world).1 = outcome → post outcome world) :
    Flow.Ensures flow world post := by
  unfold Flow.Ensures
  rw [reading world]
  exact holds _ rfl

end Reading

theorem World.exec_loadMint
    {address : Address} {world : World C} {mint : MintSnapshot}
    (loaded : (Flow.exec (World.loadMint address) world).1 = .ok mint) :
    Remit.loadMint world address = .ok mint := by
  unfold World.loadMint at loaded
  rw [Flow.exec_bind, Flow.exec_read] at loaded
  rcases outcome : Remit.loadMint world address with error | found
  · rw [outcome] at loaded
    cases loaded
  · rw [outcome] at loaded
    cases loaded
    rfl

theorem World.exec_loadAccount
    {address : Address} {world : World C} {account : AccountSnapshot}
    (loaded : (Flow.exec (World.loadAccount address) world).1 = .ok account) :
    Remit.loadAccount world address = .ok account := by
  unfold World.loadAccount at loaded
  rw [Flow.exec_bind, Flow.exec_read] at loaded
  rcases outcome : Remit.loadAccount world address with error | found
  · rw [outcome] at loaded
    cases loaded
  · rw [outcome] at loaded
    cases loaded
    rfl

theorem TransferPlan.reading_load
    (source destination : Address) (keys : ConfidentialKeys crypto)
    (amount : Nat) :
    Reading
      (load source destination keys amount : Flow (World C) Error TransferPlan) :=
  (Reading.loadAccount _).bind fun _ =>
    (Reading.loadAccount _).bind fun _ =>
      (Reading.loadMint _).bind fun _ =>
        (Reading.read _).bind fun _ => .ofExcept _

theorem WithdrawPlan.reading_load
    (tokenAccount : Address) (keys : ConfidentialKeys crypto)
    (balanceCiphertext : PodElGamalCiphertext) (balance amount : Nat) :
    Reading
      (load tokenAccount keys balanceCiphertext balance amount :
        Flow (World C) Error WithdrawPlan) :=
  (Reading.loadAccount _).bind fun _ =>
    (Reading.loadMint _).bind fun _ => .ofStop _

/-- What `withdraw` reads and prepares. -/
def WithdrawPlan.loadAvailable (tokenAccount : Address)
    (keys : ConfidentialKeys crypto) (amount : Nat) :
    Flow (World C) Error WithdrawPlan := do
  let account ← World.loadAccount tokenAccount
  let (ciphertext, available) ←
    Flow.ofExcept (withdrawable account keys amount)
  WithdrawPlan.load tokenAccount keys ciphertext available amount

theorem WithdrawPlan.reading_loadAvailable
    (tokenAccount : Address) (keys : ConfidentialKeys crypto) (amount : Nat) :
    Reading
      (loadAvailable tokenAccount keys amount :
        Flow (World C) Error WithdrawPlan) :=
  (Reading.loadAccount _).bind fun _ =>
    (Reading.ofExcept _).bind fun ⟨_, _⟩ => reading_load _ _ _ _ _

/-- The part that the debits have in common. -/
def debiting {Plan : Type} (load : Flow (World C) Error Plan)
    (stage : Plan → Flow (Session C) Error (List Instruction))
    (owner : Keypair) (units : Nat) : Flow (World C) Error Plan := do
  let plan ← load
  let (prepared, accounts) ← Session.prepare (stage plan)
  let _ ← finish prepared accounts [owner] units
  pure plan

theorem transfer_eq
    (source destination : Address) (owner : Keypair)
    (keys : ConfidentialKeys crypto) (amount : Nat) :
    (transfer source destination owner keys amount :
        Flow (World C) Error ConfidentialTransfer) =
      (fun plan : TransferPlan =>
          { amount
            fee := plan.fee
            epoch := plan.epoch
            auditorCiphertextLo := plan.auditorLo
            auditorCiphertextHi := plan.auditorHi }) <$>
        debiting (TransferPlan.load source destination keys amount)
          (·.stage source destination owner) owner TRANSFER_WITH_FEE_UNITS := by
  simp [transfer, debiting]

theorem withdrawAgainst_eq
    (tokenAccount : Address) (owner : Keypair)
    (keys : ConfidentialKeys crypto)
    (balanceCiphertext : PodElGamalCiphertext) (balance amount : Nat) :
    (withdrawAgainst tokenAccount owner keys balanceCiphertext balance amount :
        Flow (World C) Error Unit) =
      (fun _ => ()) <$>
        debiting
          (WithdrawPlan.load tokenAccount keys balanceCiphertext balance amount)
          (·.stage tokenAccount owner amount) owner
          (WITHDRAW_UNITS +
            computeUnits .verifyCiphertextCommitmentEquality) := by
  simp [withdrawAgainst, debiting]

theorem withdraw_eq
    (tokenAccount : Address) (owner : Keypair)
    (keys : ConfidentialKeys crypto) (amount : Nat) :
    (withdraw tokenAccount owner keys amount : Flow (World C) Error Unit) =
      (fun _ => ()) <$>
        debiting (WithdrawPlan.loadAvailable tokenAccount keys amount)
          (·.stage tokenAccount owner amount) owner
          (WITHDRAW_UNITS +
            computeUnits .verifyCiphertextCommitmentEquality) := by
  simp [withdraw, withdrawAgainst, debiting, WithdrawPlan.loadAvailable]

theorem Session.ensures_prepare
    {α : Type} {flow : Flow (Session C) Error α} {world : World C}
    {post : Except (Stop Error) (Except Error α × ProofAccounts) →
      World C → Prop}
    (ensured : Flow.Ensures flow ⟨{}, world⟩ fun outcome session =>
      match outcome with
      | .ok a => post (.ok (.ok a, session.accounts)) session.world
      | .error (.error error) =>
          post (.ok (.error error, session.accounts)) session.world
      | .error .panic => post (.error .panic) session.world) :
    Flow.Ensures (Session.prepare flow) world post := by
  unfold Flow.Ensures at ensured ⊢
  simp only [Session.prepare, Flow.exec_mk]
  rcases run : Flow.exec flow ⟨{}, world⟩ with ⟨outcome, session⟩
  rw [run] at ensured
  rcases outcome with (error | _) | a
  · exact ensured
  · exact ensured
  · exact ensured

/-- A debit that returns has loaded a plan, staged its proofs and consumed
them. -/
def Returns {Plan : Type} (load : Flow (World C) Error Plan)
    (good : Plan → List Instruction → ProofLog → Prop) (owner : Keypair)
    (start : World C) (outcome : Except (Stop Error) Plan)
    (reached : World C) : Prop :=
  ∀ plan, outcome = .ok plan →
    (Flow.exec load start).1 = .ok plan ∧
      ∃ instructions log receipt,
        good plan instructions log ∧
          Finishes [] log instructions [owner] (.ok receipt) reached

/-- A debit whose stages carry one inert Token-2022 instruction lands it
exactly once. -/
theorem ensures_debiting
    {Plan : Type} {load : Flow (World C) Error Plan}
    {stage : Plan → Flow (Session C) Error (List Instruction)}
    {state : C.State} {drawn : Nat} {purpose : TokenInstruction → Prop}
    {own : Error → Prop} {good : Plan → List Instruction → ProofLog → Prop}
    (owner : Keypair) (units : Nat) (reading : Reading load)
    (localErrors : ∀ error, LocalError C error → own error)
    (refusals : ∀ error,
      (Flow.exec load (World.initial state drawn)).1 = .error (.error error) →
        own error)
    (staged : ∀ plan,
      Flow.Ensures (stage plan) ⟨{}, World.initial state drawn⟩
        (Proceeds [] (good plan) fun _ => True))
    (carries : ∀ plan instructions log,
      (Flow.exec load (World.initial state drawn)).1 = .ok plan →
      good plan instructions log →
        (∀ instruction ∈ instructions, instruction.Inert) ∧
          ∃ instruction, purpose instruction ∧
            tokenInstructions instructions = [instruction]) :
    Flow.Ensures (debiting load stage owner units) (World.initial state drawn)
      fun outcome reached =>
        ExactlyOnce purpose own outcome reached ∧
          Returns load good owner (World.initial state drawn) outcome
            reached := by
  unfold debiting
  refine .bind (reading.ensures ?_)
  rintro ((error | _) | plan) loaded
  · refine ⟨⟨rfl, [], [], rfl, Or.inl ⟨refusals error loaded, by simp⟩,
      fun _ => by simp [Residue, World.initial]⟩, ?_⟩
    rintro _ ⟨⟩
  · refine ⟨rfl, ?_⟩
    rintro _ ⟨⟩
  refine .bind (Session.ensures_prepare ((staged plan).mono ?_))
  rintro ((error | _) | instructions) session ended
  · obtain ⟨log, _, represents, stopped⟩ := ended
    obtain ⟨first, unused⟩ := stopped.firstError localErrors
    have closed := ensures_closeAfter (α := Receipt)
      log.proofAccounts error represents.sound.residue
    simp only [finish, represents.accounts]
    refine .bind (closed.mono ?_)
    rintro (stop | receipt) reached abandons
    · refine ⟨abandons.exactlyOnce unused first, ?_⟩
      rintro _ ⟨⟩
    · exact abandons.choose_spec.2.2.elim
  · refine ⟨ended.landedTokens, ?_⟩
    rintro _ ⟨⟩
  · obtain ⟨log, isGood, represents, clean⟩ := ended
    obtain ⟨inert, instruction, meant, carried⟩ :=
      carries plan instructions log loaded isGood
    simp only [finish, represents.accounts]
    refine .bind ((ensures_consume units represents.sound clean).mono ?_)
    intro outcome reached finishes
    have once := finishes.exactlyOnce localErrors inert carried meant
    rcases outcome with stop | receipt
    · refine ⟨once.map fun _ => plan, ?_⟩
      rintro _ ⟨⟩
    · refine .pure ⟨once, ?_⟩
      rintro _ ⟨⟩
      exact ⟨loaded, instructions, log, receipt, isGood, finishes⟩

/-- A call of one of the debiting operations. -/
inductive Debit (crypto : Crypto) where
  | transfer (source destination : Address) (owner : Keypair)
      (keys : ConfidentialKeys crypto) (amount : Nat)
  | withdraw (tokenAccount : Address) (owner : Keypair)
      (keys : ConfidentialKeys crypto) (amount : Nat)
  | withdrawAgainst (tokenAccount : Address) (owner : Keypair)
      (keys : ConfidentialKeys crypto)
      (balanceCiphertext : PodElGamalCiphertext) (balance amount : Nat)

namespace Debit

/-- Make a call, whatever it returns. -/
def run : Debit crypto → Flow (World C) Error Unit
  | transfer source destination owner keys amount =>
      (fun _ => ()) <$> Remit.transfer source destination owner keys amount
  | withdraw tokenAccount owner keys amount =>
      Remit.withdraw tokenAccount owner keys amount
  | withdrawAgainst tokenAccount owner keys balanceCiphertext balance amount =>
      Remit.withdrawAgainst tokenAccount owner keys balanceCiphertext balance
        amount

/-- The Token-2022 instruction a call is for: the one that the plan it made in
a world builds. -/
def IsFor (world : World C) (instruction : TokenInstruction) :
    Debit crypto → Prop
  | transfer source destination owner keys amount =>
      ∃ plan equality amountValidity feeSigma feeValidity range,
        (Flow.exec (TransferPlan.load source destination keys amount) world).1 =
            .ok plan ∧
          instruction =
            .transferWithFee (plan.instruction source destination owner
              equality amountValidity feeSigma feeValidity range)
  | withdraw tokenAccount owner keys amount =>
      ∃ plan range,
        (Flow.exec (WithdrawPlan.loadAvailable tokenAccount keys amount)
            world).1 = .ok plan ∧
          instruction =
            .withdraw (plan.instruction tokenAccount owner amount range)
  | withdrawAgainst tokenAccount owner keys balanceCiphertext balance amount =>
      ∃ plan range,
        (Flow.exec
            (WithdrawPlan.load tokenAccount keys balanceCiphertext balance
              amount) world).1 = .ok plan ∧
          instruction =
            .withdraw (plan.instruction tokenAccount owner amount range)

/-- The errors with which a call refuses to start in a world. -/
def Refuses (world : World C) (error : Error) : Debit crypto → Prop
  | transfer source destination _ keys amount =>
      (Flow.exec (TransferPlan.load source destination keys amount) world).1 =
        .error (.error error)
  | withdraw tokenAccount _ keys amount =>
      (Flow.exec (WithdrawPlan.loadAvailable tokenAccount keys amount)
          world).1 = .error (.error error)
  | withdrawAgainst tokenAccount _ keys balanceCiphertext balance amount =>
      (Flow.exec
          (WithdrawPlan.load tokenAccount keys balanceCiphertext balance amount)
          world).1 = .error (.error error)

end Debit

theorem TransferStaged.carries
    {plan : TransferPlan} {source destination : Address} {owner : Keypair}
    {instructions : List Instruction} {log : ProofLog}
    (staged :
      TransferStaged plan source destination owner instructions log) :
    (∀ instruction ∈ instructions, instruction.Inert) ∧
      ∃ equality amountValidity feeSigma feeValidity range,
        tokenInstructions instructions =
          [.transferWithFee (plan.instruction source destination owner
            equality amountValidity feeSigma feeValidity range)] := by
  obtain ⟨equality, amountValidity, feeSigma, feeValidity, range, rfl, _⟩ :=
    staged.staged
  refine ⟨?_, equality, amountValidity, feeSigma, feeValidity,
    range.context, rfl⟩
  intro instruction member
  rw [List.mem_singleton.mp member]
  trivial

private theorem WithdrawStaged.carries
    {plan : WithdrawPlan} {tokenAccount : Address} {owner : Keypair}
    {amount : Nat} {instructions : List Instruction} {log : ProofLog}
    (staged : WithdrawStaged plan tokenAccount owner amount instructions log) :
    (∀ instruction ∈ instructions, instruction.Inert) ∧
      ∃ range,
        tokenInstructions instructions =
          [.withdraw (plan.instruction tokenAccount owner amount range)] := by
  obtain ⟨range, rfl, _⟩ := staged.staged
  refine ⟨?_, range.context, rfl⟩
  rintro instruction (_ | ⟨_, _ | ⟨_, impossible⟩⟩)
  · trivial
  · rfl
  · cases impossible

/-- Whatever the cluster does, a debit lands its instruction exactly once and
leaves nothing behind when it returns, and does not land it when it fails. -/
theorem debit_lands_exactly_once
    (crypto : Crypto) (C : Cluster) (state : C.State) (drawn : Nat)
    (debit : Debit crypto) :
    Flow.Ensures debit.run (World.initial state drawn)
      (ExactlyOnce
        (fun instruction =>
          debit.IsFor (World.initial (C := C) state drawn) instruction)
        fun error =>
          LocalError C error ∨
            debit.Refuses (World.initial (C := C) state drawn) error) := by
  have start :
      Represents (⟨{}, World.initial state drawn⟩ : Session C) {} :=
    ⟨rfl, .initial state drawn⟩
  have clean : Clean [] (World.initial (C := C) state drawn).sent := .refl []
  cases debit with
  | transfer source destination owner keys amount =>
      simp only [Debit.run, transfer_eq, Functor.map_map]
      refine .map (Flow.Ensures.mono (ensures_debiting owner _
        (TransferPlan.reading_load _ _ _ _) (fun _ => Or.inl) (fun _ => Or.inr)
        (fun plan => plan.ensures_stage source destination owner start clean)
        ?_) fun _ _ debited => debited.1.map _)
      intro plan instructions log loaded staged
      obtain ⟨inert, equality, amountValidity, feeSigma, feeValidity, range,
        carried⟩ := staged.carries
      exact ⟨inert, _, ⟨plan, equality, amountValidity, feeSigma, feeValidity,
        range, loaded, rfl⟩, carried⟩
  | withdraw tokenAccount owner keys amount =>
      simp only [Debit.run, withdraw_eq]
      refine .map (Flow.Ensures.mono (ensures_debiting owner _
        (WithdrawPlan.reading_loadAvailable _ _ _) (fun _ => Or.inl)
        (fun _ => Or.inr)
        (fun plan => plan.ensures_stage tokenAccount owner amount start clean)
        ?_) fun _ _ debited => debited.1.map _)
      intro plan instructions log loaded staged
      obtain ⟨inert, range, carried⟩ := staged.carries
      exact ⟨inert, _, ⟨plan, range, loaded, rfl⟩, carried⟩
  | withdrawAgainst tokenAccount owner keys balanceCiphertext balance amount =>
      simp only [Debit.run, withdrawAgainst_eq]
      refine .map (Flow.Ensures.mono (ensures_debiting owner _
        (WithdrawPlan.reading_load _ _ _ _ _) (fun _ => Or.inl) (fun _ => Or.inr)
        (fun plan => plan.ensures_stage tokenAccount owner amount start clean)
        ?_) fun _ _ debited => debited.1.map _)
      intro plan instructions log loaded staged
      obtain ⟨inert, range, carried⟩ := staged.carries
      exact ⟨inert, _, ⟨plan, range, loaded, rfl⟩, carried⟩

end Remit
