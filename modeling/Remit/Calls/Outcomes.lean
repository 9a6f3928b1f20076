import Remit.Calls.Signatures

/-!
# What a result tells

Of what a call has done its caller sees the result and no more.  When the call
returns, its instructions of Token-2022 have landed, all of them and once.  When
it does not, none has, and it can be made again.  The exceptions go on after a
transaction has landed: a mint may be left without a description, and fees may
be collected without their amount being told.
-/

namespace Remit

open Flows Flow

section Reporting

variable {C : Cluster} {α β : Type}

theorem exec_ofExcept_eq_ok
    {outcome : Except Error α} {world : World C} {a : α}
    (ended : (Flow.exec (Flow.ofExcept outcome) world).1 = .ok a) :
    outcome = .ok a := by
  cases outcome with
  | error error => cases ended
  | ok value =>
      cases ended
      rfl

/-- The instructions of Token-2022 that have landed, transaction by
transaction. -/
def landedBatches {State : Type} (sent : List (Sent State)) :
    List (List TokenInstruction) :=
  ((sent.filter Sent.landed).map fun one =>
    tokenInstructions one.transaction).filter (· ≠ [])

theorem flatten_landedBatches {State : Type} (sent : List (Sent State)) :
    (landedBatches sent).flatten = landedTokens sent := by
  unfold landedBatches landedTokens
  rw [List.flatten_filter_ne_nil, List.flatMap_def]

/-- Where one instruction has landed, one transaction has landed it. -/
theorem landedBatches_eq_singleton
    {State : Type} {sent : List (Sent State)} {instruction : TokenInstruction}
    (landed : landedTokens sent = [instruction]) :
    landedBatches sent = [[instruction]] := by
  have carrying : ∀ carried ∈ landedBatches sent, carried ≠ [] :=
    fun carried member => of_decide_eq_true (List.mem_filter.mp member).2
  rw [← flatten_landedBatches] at landed
  obtain ⟨before, after, split, nothing, nothingElse⟩ :=
    List.flatten_eq_singleton_iff.mp landed
  rw [split] at carrying ⊢
  have first : before = [] := by
    apply List.eq_nil_iff_forall_not_mem.mpr
    intro carried member
    exact carrying carried (List.mem_append_left _ member)
      (nothing carried member)
  have last : after = [] := by
    apply List.eq_nil_iff_forall_not_mem.mpr
    intro carried member
    exact carrying carried
      (List.mem_append_right _ (List.mem_cons_of_mem _ member))
      (nothingElse carried member)
  rw [first, last]
  rfl

theorem landedBatches_eq_nil
    {State : Type} {sent : List (Sent State)}
    (landed : landedTokens sent = []) :
    landedBatches sent = [] := by
  rw [← flatten_landedBatches] at landed
  apply List.eq_nil_iff_forall_not_mem.mpr
  intro carried member
  have nothing := List.flatten_eq_nil_iff.mp landed carried member
  exact of_decide_eq_true (List.mem_filter.mp member).2 nothing

/-- A transaction that carries instructions of Token-2022 adds them if it
lands. -/
theorem landedBatches_deliver
    (world : World C) {transaction : List Instruction}
    (carries : tokenInstructions transaction ≠ []) (signers : List Keypair) :
    landedBatches (world.deliver transaction signers).sent =
      landedBatches world.sent ++
        if (world.sending transaction signers).landed then
          [tokenInstructions transaction]
        else [] := by
  have last : landedBatches [world.sending transaction signers] =
      if (world.sending transaction signers).landed then
        [tokenInstructions transaction]
      else [] := by
    unfold landedBatches
    by_cases landed : (world.sending transaction signers).landed = true
    · rw [List.filter_cons_of_pos landed, if_pos landed]
      exact List.filter_cons_of_pos (decide_eq_true carries)
    · rw [List.filter_cons_of_neg landed, if_neg landed]
      rfl
  rw [← last]
  unfold landedBatches
  rw [← List.filter_append, ← List.map_append, ← List.filter_append]
  rfl

/-- After given transactions have landed, what has landed in the end is the
whole when the flow returns and a remainder when it does not. -/
def Reports (whole late : List (List TokenInstruction) → Prop)
    (done : List (List TokenInstruction)) (flow : Flow (World C) Error α) :
    Prop :=
  ∀ world, landedBatches world.sent = done →
    Flow.Ensures flow world fun outcome reached =>
      match outcome with
      | .ok _ => whole (landedBatches reached.sent)
      | .error _ => late (landedBatches reached.sent)

namespace Reports

variable {whole late : List (List TokenInstruction) → Prop}
  {done : List (List TokenInstruction)} {flow : Flow (World C) Error α}
  {next : α → Flow (World C) Error β}

theorem pure {a : α} (holds : whole done) :
    Reports whole late done (Pure.pure a : Flow (World C) Error α) := by
  intro world same
  subst same
  exact .pure holds

/-- What is read first changes nothing. -/
theorem after
    (reading : Reading flow) (fails : late done)
    (onward : ∀ world a, (Flow.exec flow world).1 = .ok a →
      Reports whole late done (next a)) :
    Reports whole late done (flow >>= next) := by
  intro world same
  refine .bind (reading.ensures ?_)
  intro outcome ended
  cases outcome with
  | error stop =>
      subst same
      exact fails
  | ok a => exact onward world a ended world same

/-- Neither does what is read last. -/
theorem ending
    (reading : Reading flow) (fails : late done) (holds : whole done) :
    Reports whole late done flow := by
  intro world same
  subst same
  refine reading.ensures ?_
  intro outcome _
  cases outcome with
  | error stop => exact fails
  | ok a => exact holds

theorem built
    {outcome : Except Error α} (fails : late done)
    (onward : ∀ a, outcome = .ok a → Reports whole late done (next a)) :
    Reports whole late done (Flow.ofExcept outcome >>= next) := by
  refine .after (.ofExcept _) fails ?_
  intro world a ended
  exact onward a (exec_ofExcept_eq_ok ended)

/-- What is returned in the end does not matter. -/
theorem returning
    (reports : Reports whole late done flow) (f : α → β) :
    Reports whole late done (flow >>= fun a => Pure.pure (f a)) := by
  intro world same
  refine .bind ((reports world same).mono ?_)
  intro outcome reached holds
  cases outcome with
  | error stop => exact holds
  | ok a => exact .pure holds

/-- A transaction lands before the flow goes on, or the flow ends. -/
theorem sends
    {transaction : List Instruction} {signers : List Keypair}
    {next : Receipt → Flow (World C) Error β}
    (carries : tokenInstructions transaction ≠ []) (fails : late done)
    (onward : ∀ receipt,
      Reports whole late (done ++ [tokenInstructions transaction])
        (next receipt)) :
    Reports whole late done (World.send transaction signers >>= next) := by
  intro world same
  subst same
  have grown := landedBatches_deliver world carries signers
  refine .bind (World.ensures_send ?_ ?_)
  · intro receipt landed
    rw [World.landed_sending landed, if_pos rfl] at grown
    exact onward receipt _ grown
  · intro error failed
    rw [World.not_landed_sending failed, if_neg Bool.false_ne_true,
      List.append_nil] at grown
    exact grown ▸ fails

/-- One instruction is built and sent. -/
theorem token
    {instruction : TokenInstruction} {authority : Keypair} {b : β}
    (fails : late []) (holds : whole [[instruction]]) :
    Reports whole late []
      (Flow.ofExcept (tokenInstruction C.programs instruction) >>= fun built =>
        World.send [built] [authority] >>= fun _ =>
          (Pure.pure b : Flow (World C) Error β)) := by
  refine .built fails fun _ isBuilt => ?_
  obtain rfl := tokenInstruction_eq_ok isBuilt
  exact .sends (List.cons_ne_nil _ _) fails fun _ => .pure holds

end Reports
end Reporting

/-! ## Creating a mint -/

/-- The initialization of a mint. -/
def initializationTokens (mint : Address) (authorities : Authorities)
    (params : StablecoinParams) (inits : List ExtensionInit) :
    List TokenInstruction :=
  tokenInstructions (inits.map Prod.snd) ++
    [.initializeMint2 mint authorities.mint.pubkey
      (some authorities.freeze.pubkey) params.decimals]

section Creating

variable {C : Cluster}

/-- What a plan sends, if it is made. -/
theorem exec_planFromInits_eq_ok
    {mint : Address} {authorities : Authorities} {params : StablecoinParams}
    {inits : List ExtensionInit} {world : World C} {plan : MintPlan}
    (planned : (Flow.exec
      (planFromInits mint authorities params inits :
        Flow (World C) Error MintPlan) world).1 = .ok plan) :
    tokenInstructions plan.initializeInstructions =
        initializationTokens mint authorities params inits ∧
      tokenInstructions plan.metadata =
        metadataTokens mint authorities params := by
  unfold planFromInits at planned
  obtain ⟨space, _, planned⟩ := (Reading.ofExcept _).bind_eq_ok planned
  obtain ⟨metadata, _, planned⟩ := (Reading.ofExcept _).bind_eq_ok planned
  obtain ⟨metadataLen, _, planned⟩ := (Reading.ofExcept _).bind_eq_ok planned
  obtain ⟨lamports, _, planned⟩ := (Reading.read _).bind_eq_ok planned
  obtain ⟨instruction, built, planned⟩ :=
    (Reading.ofExcept _).bind_eq_ok planned
  cases planned
  refine ⟨?_, tokenInstructions_metadata mint authorities params⟩
  obtain rfl := tokenInstruction_eq_ok (exec_ofExcept_eq_ok built)
  exact tokenInstructions_append (inits.map Prod.snd) [_]

/-- Two transactions create a mint.  Between them it has no description. -/
theorem reports_createMint
    {plan : MintPlan} {mint : Keypair} {authorities : Authorities}
    {whole late : List (List TokenInstruction) → Prop}
    (initializes : tokenInstructions plan.initializeInstructions ≠ [])
    (describes : tokenInstructions plan.metadata ≠ [])
    (fails : late [])
    (halfway : late [tokenInstructions plan.initializeInstructions])
    (holds : whole [tokenInstructions plan.initializeInstructions,
      tokenInstructions plan.metadata]) :
    Reports whole late []
      (createMint plan mint authorities : Flow (World C) Error Unit) :=
  .sends initializes fails fun _ => .sends describes halfway fun _ =>
    .pure holds

end Creating

namespace LibraryCall

variable {crypto : Crypto}

/-- The initialization and the description of the mint that a call creates. -/
def Creates (programs : Programs) :
    LibraryCall crypto → List TokenInstruction → List TokenInstruction → Prop
  | createV1 mint authorities params, initialization, description =>
      ∃ inits,
        v1ExtensionInits programs mint.pubkey authorities params = .ok inits ∧
          initialization =
            initializationTokens mint.pubkey authorities params inits ∧
          description = metadataTokens mint.pubkey authorities params
  | createV2 mint authorities compliance params, initialization, description =>
      ∃ inits added,
        v1ExtensionInits programs mint.pubkey authorities params = .ok inits ∧
          v2AddedExtensionInits programs mint.pubkey authorities compliance =
            .ok added ∧
          initialization =
            initializationTokens mint.pubkey authorities params
              (inits ++ added) ∧
          description = metadataTokens mint.pubkey authorities params
  | _, _, _ => False

/-- What a call lands that returns: the two transactions of a mint, or one that
carries all that the call is for. -/
def Lands (programs : Programs) (payer : Address) (call : LibraryCall crypto)
    (landed : List (List TokenInstruction)) : Prop :=
  match call with
  | createV1 .. | createV2 .. =>
      ∃ initialization description,
        call.Creates programs initialization description ∧
          landed = [initialization, description]
  | _ => ∃ carried, call.Carries payer carried ∧ landed = [carried]

/-- What a call may land that does not return, apart from nothing: a mint
without a description, or all that there was to land when its last step is to
read a balance again. -/
def Leaves (programs : Programs) (payer : Address) (call : LibraryCall crypto)
    (landed : List (List TokenInstruction)) : Prop :=
  match call with
  | createV1 .. | createV2 .. =>
      ∃ initialization description,
        call.Creates programs initialization description ∧
          landed = [initialization]
  | collectFees .. => ∃ carried, call.Carries payer carried ∧ landed = [carried]
  | _ => False

/-- Neither of the two is empty. -/
theorem Creates.ne_nil
    {call : LibraryCall crypto} {programs : Programs}
    {initialization description : List TokenInstruction}
    (creates : call.Creates programs initialization description) :
    initialization ≠ [] ∧ description ≠ [] := by
  cases call with
  | createV1 =>
      obtain ⟨inits, _, rfl, rfl⟩ := creates
      exact ⟨List.concat_ne_nil _ _, List.cons_ne_nil _ _⟩
  | createV2 =>
      obtain ⟨inits, added, _, _, rfl, rfl⟩ := creates
      exact ⟨List.concat_ne_nil _ _, List.cons_ne_nil _ _⟩
  | _ => cases creates

/-- A call that debits a confidential balance, which it does in several
transactions. -/
def Debits : LibraryCall crypto → Prop
  | transfer .. | withdraw .. | withdrawAgainst .. => True
  | _ => False

variable {C : Cluster}

/-- A created mint has both its parts, or the first one or none. -/
theorem reports_create
    {call : LibraryCall crypto} {mint : Keypair} {authorities : Authorities}
    {planning : Flow (World C) Error MintPlan}
    (creates : ∀ landed, call.Lands C.programs C.payer landed ↔
      ∃ initialization description,
        call.Creates C.programs initialization description ∧
          landed = [initialization, description])
    (halfway : ∀ landed, call.Leaves C.programs C.payer landed ↔
      ∃ initialization description,
        call.Creates C.programs initialization description ∧
          landed = [initialization])
    (reading : Reading planning)
    (plans : ∀ world plan, (Flow.exec planning world).1 = .ok plan →
      call.Creates C.programs (tokenInstructions plan.initializeInstructions)
        (tokenInstructions plan.metadata)) :
    Reports (call.Lands C.programs C.payer)
      (fun landed => landed = [] ∨ call.Leaves C.programs C.payer landed) []
      (planning >>= fun plan => createMint plan mint authorities >>= fun _ =>
        pure plan) := by
  refine .after reading (.inl rfl) ?_
  intro world plan planned
  have created := plans world plan planned
  refine .returning (reports_createMint created.ne_nil.1 created.ne_nil.2
    (.inl rfl) (.inr ?_) ?_) _
  · exact (creates _).mpr ⟨_, _, created, rfl⟩
  · exact (halfway _).mpr ⟨_, _, created, rfl⟩

/-- Any call but a debit reports what it has landed, wherever it starts. -/
theorem reports_run
    (call : LibraryCall crypto) (other : ¬ call.Debits) :
    Reports (call.Lands C.programs C.payer)
      (fun landed => landed = [] ∨ call.Leaves C.programs C.payer landed) []
      (call.run : Flow (World C) Error Unit) := by
  cases call with
  | transfer | withdraw | withdrawAgainst => exact absurd trivial other
  | createV1 mint authorities params =>
      refine .returning (reports_create (fun _ => .rfl) (fun _ => .rfl)
        ((Reading.ofExcept _).bind fun _ => reading_planFromInits _ _ _ _) ?_) _
      intro world plan planned
      obtain ⟨inits, built, planned⟩ :=
        (Reading.ofExcept _).bind_eq_ok planned
      have sent := exec_planFromInits_eq_ok planned
      exact ⟨inits, exec_ofExcept_eq_ok built, sent.1, sent.2⟩
  | createV2 mint authorities compliance params =>
      refine .returning (reports_create (fun _ => .rfl) (fun _ => .rfl)
        ((Reading.ofExcept _).bind fun _ => (Reading.ofExcept _).bind fun _ =>
          reading_planFromInits _ _ _ _) ?_) _
      intro world plan planned
      obtain ⟨inits, built, planned⟩ :=
        (Reading.ofExcept _).bind_eq_ok planned
      obtain ⟨added, builtToo, planned⟩ :=
        (Reading.ofExcept _).bind_eq_ok planned
      have sent := exec_planFromInits_eq_ok planned
      exact ⟨inits, added, exec_ofExcept_eq_ok built,
        exec_ofExcept_eq_ok builtToo, sent.1, sent.2⟩
  | closeMint => exact .token (.inl rfl) ⟨_, rfl, rfl⟩
  | mintTo =>
      refine .after (.loadMint _) (.inl rfl) fun _ mint _ => ?_
      exact .token (.inl rfl) ⟨_, ⟨mint.decimals, rfl⟩, rfl⟩
  | approve =>
      refine .after (.loadAccount _) (.inl rfl) fun _ account _ => ?_
      refine .after (.loadMint _) (.inl rfl) fun _ mint _ => ?_
      exact .token (.inl rfl) ⟨_, ⟨account.mint, mint.decimals, rfl⟩, rfl⟩
  | enableCpiGuard =>
      refine .built (.inl rfl) fun _ reallocates => ?_
      refine .built (.inl rfl) fun _ enables => ?_
      obtain rfl := tokenInstruction_eq_ok reallocates
      obtain rfl := tokenInstruction_eq_ok enables
      exact .sends (List.cons_ne_nil _ _) (.inl rfl) fun _ =>
        .pure ⟨_, rfl, rfl⟩
  | transferWithFee =>
      refine .returning ?_ _
      refine .after (.loadAccount _) (.inl rfl) fun _ account _ => ?_
      refine .after (.loadMint _) (.inl rfl) fun _ mint _ => ?_
      refine .after (.read _) (.inl rfl) fun _ epoch _ => ?_
      refine .built (.inl rfl) fun fee _ => ?_
      exact .token (.inl rfl)
        ⟨_, ⟨account.mint, mint.decimals, fee, rfl⟩, rfl⟩
  | setTransferFee => exact .token (.inl rfl) ⟨_, rfl, rfl⟩
  | collectFees =>
      refine .returning ?_ _
      refine .after (.loadAccount _) (.inl rfl) fun _ before _ => ?_
      refine .built (.inl rfl) fun _ harvests => ?_
      refine .built (.inl rfl) fun _ withdraws => ?_
      obtain rfl := tokenInstruction_eq_ok harvests
      obtain rfl := tokenInstruction_eq_ok withdraws
      -- The balance is read once more after the fees have landed.
      refine .sends (List.cons_ne_nil _ _) (.inl rfl) fun _ =>
        .ending ?_ (.inr ⟨_, rfl, rfl⟩) ⟨_, rfl, rfl⟩
      exact (Reading.loadAccount _).bind fun _ => .ofStop _
  | approveKyc =>
      refine .after (.loadAccount _) (.inl rfl) fun _ account _ => ?_
      refine .built (.inl rfl) fun _ clears => ?_
      obtain ⟨_, _, rfl⟩ := kycClearance_eq_ok clears
      exact .sends (List.cons_ne_nil _ _) (.inl rfl) fun _ =>
        .pure ⟨_, ⟨account.mint, rfl⟩, rfl⟩
  | revokeKyc =>
      refine .after (.loadAccount _) (.inl rfl) fun _ account _ => ?_
      refine .built (.inl rfl) fun _ revokes => ?_
      obtain ⟨_, rfl⟩ := kycRevocation_eq_ok revokes
      exact .sends (List.cons_ne_nil _ _) (.inl rfl) fun _ =>
        .pure ⟨_, ⟨account.mint, rfl⟩, rfl⟩
  | setDefaultAccountState => exact .token (.inl rfl) ⟨_, rfl, rfl⟩
  | seize =>
      refine .returning ?_ _
      refine .after (.loadAccount _) (.inl rfl) fun _ account _ => ?_
      refine .after (.loadMint _) (.inl rfl) fun _ mint _ => ?_
      refine .after (.read _) (.inl rfl) fun _ epoch _ => ?_
      refine .built (.inl rfl) fun seizure prepared => ?_
      obtain ⟨fee, _, _, shape⟩ := Seizure.prepare_eq_ok prepared
      rcases shape with ⟨_, instructions, _⟩ | ⟨_, instructions, _⟩
      · rw [instructions]
        exact .sends (List.cons_ne_nil _ _) (.inl rfl) fun _ =>
          .pure ⟨_, ⟨mint.address, mint.decimals, fee, .inr rfl⟩, rfl⟩
      · rw [instructions]
        exact .sends (List.cons_ne_nil _ _) (.inl rfl) fun _ =>
          .pure ⟨_, ⟨mint.address, mint.decimals, fee, .inl rfl⟩, rfl⟩
  | configureAccount =>
      refine .after (.loadAccount _) (.inl rfl) fun _ account _ => ?_
      refine .built (.inl rfl) fun _ reallocates => ?_
      refine .built (.inl rfl) fun _ configured => ?_
      obtain rfl := tokenInstruction_eq_ok reallocates
      obtain ⟨proof, _, configured⟩ := except_bind_eq_ok configured
      obtain ⟨_, configures, configured⟩ := except_bind_eq_ok configured
      obtain rfl := tokenInstruction_eq_ok configures
      cases configured
      exact .sends (List.cons_ne_nil _ _) (.inl rfl) fun _ =>
        .pure ⟨_, ⟨account.mint, rfl⟩, rfl⟩
  | approveAccount =>
      refine .after (.loadAccount _) (.inl rfl) fun _ account _ => ?_
      exact .token (.inl rfl) ⟨_, ⟨account.mint, rfl⟩, rfl⟩
  | deposit =>
      refine .after (.loadAccount _) (.inl rfl) fun _ account _ => ?_
      refine .after (.loadMint _) (.inl rfl) fun _ mint _ => ?_
      exact .token (.inl rfl) ⟨_, ⟨mint.address, mint.decimals, rfl⟩, rfl⟩
  | applyPendingBalance =>
      refine .returning ?_ _
      refine .after (.loadAccount _) (.inl rfl) fun _ account _ => ?_
      refine .after (.ofStop _) (.inl rfl) fun _ plan _ => ?_
      exact .token (.inl rfl)
        ⟨_, ⟨plan.credits, plan.newDecryptable, rfl⟩, rfl⟩

/-- A debit lands its instruction when it returns, in one transaction, and
nothing otherwise. -/
theorem ensures_debit
    {Plan : Type} {load : Flow (World C) Error Plan}
    {stage : Plan → Flow (Session C) Error (List Instruction)}
    {whole : List TokenInstruction → Prop} {state : C.State} {drawn : Nat}
    {good : Plan → List Instruction → ProofLog → Prop}
    (owner : Keypair) (units : Nat) (reading : Reading load)
    (staged : ∀ plan,
      Flow.Ensures (stage plan) ⟨{}, World.initial state drawn⟩
        (Proceeds [] (good plan) fun _ => True))
    (carries : ∀ plan instructions log, good plan instructions log →
      (∀ instruction ∈ instructions, instruction.Inert) ∧
        ∃ instruction, whole [instruction] ∧
          tokenInstructions instructions = [instruction]) :
    Flow.Ensures (debiting load stage owner units >>= fun _ => pure ())
      (World.initial state drawn) fun outcome reached =>
        match outcome with
        | .ok _ => ∃ carried, whole carried ∧
            landedBatches reached.sent = [carried]
        | .error _ => landedBatches reached.sent = [] := by
  have once : Flow.Ensures (debiting load stage owner units)
      (World.initial state drawn) fun outcome reached =>
        ExactlyOnce (fun instruction => whole [instruction]) (fun _ => True)
            outcome reached ∧
          Returns load good owner (World.initial state drawn) outcome
            reached :=
    ensures_debiting owner units reading (fun _ _ => trivial)
      (fun _ _ => trivial) staged
      fun plan instructions log _ => carries plan instructions log
  refine .bind (once.mono ?_)
  rintro ((error | _) | plan) reached ⟨debited, _⟩
  · exact landedBatches_eq_nil debited.1
  · exact landedBatches_eq_nil debited
  · obtain ⟨⟨instruction, meant, landed⟩, _⟩ := debited
    exact .pure ⟨_, meant, landedBatches_eq_singleton landed⟩

/-- The instruction of a staged withdrawal. -/
theorem carries_withdraw
    {plan : WithdrawPlan} {tokenAccount : Address} {owner : Keypair}
    {amount : Nat} {instructions : List Instruction} {log : ProofLog}
    (staged : WithdrawStaged plan tokenAccount owner amount instructions log) :
    (∀ instruction ∈ instructions, instruction.Inert) ∧
      ∃ instruction,
        (∃ request, [instruction] = [.withdraw request] ∧
          request.tokenAccount = tokenAccount ∧ request.amount = amount ∧
          request.authority = owner.pubkey) ∧
        tokenInstructions instructions = [instruction] := by
  obtain ⟨range, rfl, _⟩ := staged.staged
  refine ⟨?_, _, ⟨_, rfl, rfl, rfl, rfl⟩, rfl⟩
  intro instruction member
  rcases List.mem_cons.mp member with rfl | member
  · trivial
  · rw [List.mem_singleton.mp member]
    rfl

/-- So does any call that is a debit. -/
theorem ensures_run_of_debits
    (call : LibraryCall crypto) (debits : call.Debits) (state : C.State)
    (drawn : Nat) :
    Flow.Ensures call.run (World.initial state drawn : World C)
      fun outcome reached =>
        match outcome with
        | .ok _ => call.Lands C.programs C.payer (landedBatches reached.sent)
        | .error _ => landedBatches reached.sent = [] := by
  have start :
      Represents (⟨{}, World.initial state drawn⟩ : Session C) {} :=
    ⟨rfl, .initial state drawn⟩
  have clean : Clean [] (World.initial (C := C) state drawn).sent := .refl []
  cases call with
  | transfer source destination owner keys amount =>
      rw [run, transfer_eq, bind_map_left]
      refine ensures_debit owner _
        (TransferPlan.reading_load source destination keys amount)
        (fun plan => plan.ensures_stage source destination owner start clean)
        ?_
      intro plan instructions log staged
      obtain ⟨inert, _, _, _, _, _, carried⟩ := staged.carries
      exact ⟨inert, _, ⟨_, rfl, rfl, rfl, rfl⟩, carried⟩
  | withdraw tokenAccount owner keys amount =>
      rw [run, withdraw_eq, ← bind_pure_comp]
      exact ensures_debit owner _
        (WithdrawPlan.reading_loadAvailable tokenAccount keys amount)
        (fun plan => plan.ensures_stage tokenAccount owner amount start clean)
        fun _ _ _ staged => carries_withdraw staged
  | withdrawAgainst tokenAccount owner keys balanceCiphertext balance amount =>
      rw [run, withdrawAgainst_eq, ← bind_pure_comp]
      exact ensures_debit owner _
        (WithdrawPlan.reading_load tokenAccount keys balanceCiphertext balance
          amount)
        (fun plan => plan.ensures_stage tokenAccount owner amount start clean)
        fun _ _ _ staged => carries_withdraw staged
  | _ => cases debits

end LibraryCall

/-- Whatever the cluster and others do: when a call returns, its instructions of
Token-2022 have landed, all of them and once, in one transaction or, for a mint,
in two.  When it does not, none has landed, unless the call is one that goes on
after a transaction has landed. -/
theorem results_tell_what_landed
    (C : Cluster) (crypto : Crypto) (call : LibraryCall crypto)
    (state : C.State) (drawn : Nat) :
    Flow.Ensures call.run (World.initial state drawn : World C)
      fun outcome reached =>
        match outcome with
        | .ok _ => call.Lands C.programs C.payer (landedBatches reached.sent)
        | .error _ =>
            landedBatches reached.sent = [] ∨
              call.Leaves C.programs C.payer (landedBatches reached.sent) := by
  by_cases debits : call.Debits
  · refine (call.ensures_run_of_debits debits state drawn).mono ?_
    intro outcome reached holds
    cases outcome with
    | error stop => exact .inl holds
    | ok done => exact holds
  · have reports := call.reports_run debits (World.initial state drawn) rfl
    refine reports.mono ?_
    intro outcome reached holds
    cases outcome with
    | error stop => exact holds
    | ok done => exact holds

end Remit
