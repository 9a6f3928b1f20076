import Remit.Cluster.Market
import Remit.Confidential.Payments
import Remit.Transfer.StatedFees

/-!
# Confidential transfers state their fee

The proofs of a confidential transfer are about an amount, a fee, and the rate
and the cap that the fee was worked out from.  Several transactions lie between
the reading of the schedule and the transfer, which is checked on rate and cap.
-/

namespace Remit

open Flows

variable {crypto : Crypto} {C : Cluster}

/-! ## What a debit sends -/

/-- A sent transaction was delivered by the cluster. -/
theorem Chained.delivered
    {start s : C.State} {sent : List (Sent C.State)}
    (chained : Chained C start sent s) :
    ∀ one ∈ sent, ∃ state,
      one.delivery = C.send state one.transaction one.signers := by
  induction chained with
  | nil => simp
  | send transaction signers chained inductionHypothesis =>
      intro one member
      rcases List.mem_append.mp member with old | new
      · exact inductionHypothesis one old
      · rw [List.mem_singleton.mp new]
        exact ⟨_, rfl⟩

/-- The sends of a debit: none with a Token-2022 instruction, or exactly the
consuming transaction, which landed if and only if the debit returns. -/
inductive DebitSends {Plan : Type}
    (good : Plan → List Instruction → ProofLog → Prop) (owner : Keypair)
    (loaded : Plan → Prop) (outcome : Except (Stop Error) Plan)
    (sent : List (Sent C.State)) : Prop where
  | idle :
      (∀ plan, outcome ≠ .ok plan) →
      (∀ one ∈ sent, Plain one.transaction) →
      DebitSends good owner loaded outcome sent
  | consuming {plan : Plan} {instructions : List Instruction}
      {log used : ProofLog} {earlier later : List (Sent C.State)}
      {one : Sent C.State} :
      loaded plan → good plan instructions log →
      used.verified = log.verified → sent = earlier ++ one :: later →
      (∀ other ∈ earlier ++ later, Plain other.transaction) →
      Consumption used instructions [owner] earlier one →
      (∀ returned, outcome = .ok returned →
        returned = plan ∧ one.landed = true) →
      ((∀ returned, outcome ≠ .ok returned) → one.landed = false) →
      DebitSends good owner loaded outcome sent

theorem Clean.all_plain
    {State : Type} {sent : List (Sent State)} (clean : Clean [] sent) :
    ∀ one ∈ sent, Plain one.transaction :=
  fun one member => (clean.plain one member).2

theorem Stopped.all_plain
    {error : Error} {sent : List (Sent C.State)}
    (stopped : Stopped [] error sent) :
    ∀ one ∈ sent, Plain one.transaction := by
  rcases stopped with ⟨clean, _⟩ | ⟨earlier, last, rfl, clean, plain, _⟩
  · exact clean.all_plain
  · intro one member
    rcases List.mem_append.mp member with old | new
    · exact clean.all_plain one old
    · rw [List.mem_singleton.mp new]
      exact plain

/-- After a failure only plain transactions follow. -/
theorem Abandons.sent
    {α : Type} {error : Error} {main : List (Sent C.State)}
    {outcome : Except (Stop Error) α} {reached : World C}
    (abandons : Abandons error main outcome reached) :
    ∃ cleanup, reached.sent = main ++ cleanup ∧
      ∀ one ∈ cleanup, Plain one.transaction := by
  obtain ⟨cleanup, sent, plain, _⟩ := abandons
  exact ⟨cleanup, sent, plain⟩

section Debiting

variable {Plan : Type} {load : Flow (World C) Error Plan}
  {stage : Plan → Flow (Session C) Error (List Instruction)}
  {good : Plan → List Instruction → ProofLog → Prop}
  {state : C.State} {drawn : Nat} {loaded : Plan → Prop}

/-- What `consume` sends. -/
theorem Finishes.debitSends
    {plan : Plan} {log : ProofLog} {instructions : List Instruction}
    {owner : Keypair} {outcome : Except (Stop Error) Receipt}
    {reached : World C}
    (isLoaded : loaded plan) (isGood : good plan instructions log)
    (finishes : Finishes [] log instructions [owner] outcome reached) :
    DebitSends good owner loaded (outcome.map fun _ => plan) reached.sent := by
  have sameVerified {used : ProofLog}
      (origin : used = log ∨ used = log.withoutTails) :
      used.verified = log.verified := by
    rcases origin with rfl | rfl
    · rfl
    · rfl
  rcases outcome with stop | receipt
  · rcases finishes with ⟨rfl, clean⟩ | ⟨error, main, cause, abandons⟩
    · exact .idle (fun _ => by simp [Except.map]) clean.all_plain
    obtain ⟨cleanup, sent, plain⟩ := abandons.sent
    rcases cause with
      stopped | ⟨used, earlier, one, origin, rfl, clean, consumption, failed⟩
    · refine .idle (fun _ => by simp [Except.map]) ?_
      rw [sent]
      exact List.forall_mem_append.mpr ⟨stopped.all_plain, plain⟩
    · refine .consuming isLoaded isGood (sameVerified origin)
        (sent.trans (by simp)) (List.forall_mem_append.mpr
          ⟨clean.all_plain, plain⟩) consumption
        (fun _ => by simp [Except.map]) fun _ => ?_
      simp [Sent.landed, failed, Except.toBool]
  · obtain ⟨used, earlier, one, origin, sent, clean, consumption, landed, _⟩ :=
      finishes
    refine .consuming isLoaded isGood (sameVerified origin) sent
      (by simpa using clean.all_plain) consumption (fun returned same => ?_)
      fun never => (never plan rfl).elim
    cases same
    exact ⟨rfl, by simp [Sent.landed, landed, Except.toBool]⟩

theorem ensures_debiting_sends
    (owner : Keypair) (units : Nat) (reading : Reading load)
    (loads : ∀ plan,
      (Flow.exec load (World.initial state drawn)).1 = .ok plan → loaded plan)
    (staged : ∀ plan,
      Flow.Ensures (stage plan) ⟨{}, World.initial state drawn⟩
        (Proceeds [] (good plan) fun _ => True)) :
    Flow.Ensures (debiting load stage owner units) (World.initial state drawn)
      fun outcome reached =>
        DebitSends good owner loaded outcome reached.sent := by
  unfold debiting
  refine .bind (reading.ensures ?_)
  rintro (stop | plan) outcome
  · exact .idle (fun _ => by simp) (by simp [World.initial])
  refine .bind (Session.ensures_prepare ((staged plan).mono ?_))
  rintro ((error | _) | instructions) session ended
  · obtain ⟨log, _, represents, stopped⟩ := ended
    have closed := ensures_closeAfter (α := Receipt)
      log.proofAccounts error represents.sound.residue
    simp only [finish, represents.accounts]
    refine .bind (closed.mono ?_)
    rintro (stop | receipt) reached abandons
    · obtain ⟨cleanup, sent, plain⟩ := abandons.sent
      refine .idle (fun _ => by simp) ?_
      rw [sent]
      exact List.forall_mem_append.mpr ⟨stopped.all_plain, plain⟩
    · exact abandons.choose_spec.2.2.elim
  · exact .idle (fun _ => by simp) (Clean.all_plain ended)
  · obtain ⟨log, isGood, represents, clean⟩ := ended
    simp only [finish, represents.accounts]
    refine .bind ((ensures_consume units represents.sound clean).mono ?_)
    intro finished reached finishes
    have sends := finishes.debitSends (loads plan outcome) isGood
    rcases finished with stop | receipt
    · exact sends
    · exact .pure sends

end Debiting

/-! ## What is promised -/

/-- A transaction that leaves the accounts of Token-2022 as they are. -/
def Untouched (owned : C.State → Address → Prop) (sent : Sent C.State) : Prop :=
  ∀ address, owned sent.delivery.before address →
    C.accountData sent.delivery.after address =
      C.accountData sent.delivery.before address

/-- What a confidential transfer to another account has done: the ciphertext of
the source encrypts the amount less, that of the withheld fees the fee more. -/
structure ConfidentiallyPaid (crypto : Crypto)
    (withheldKey : PodElGamalPubkey) (source destination : Address)
    (amount fee : Nat) (before after : TokenAccounts) : Prop where
  debit : ∃ payer paying left leaving,
    before source = some payer ∧ payer.confidential = some paying ∧
      after source = some left ∧ left.confidential = some leaving ∧
      crypto.Adds (crypto.secretOf paying.elgamalPubkey)
        paying.availableBalance (-amount) leaving.availableBalance
  withheld : ∃ payee fees paid left,
    before destination = some payee ∧ payee.confidentialWithheld = some fees ∧
      after destination = some paid ∧ paid.confidentialWithheld = some left ∧
      crypto.Adds (crypto.secretOf withheldKey) fees.withheldAmount fee
        left.withheldAmount

/-- The transactions that a confidential transfer has sent by the time it ends,
and how it ends. -/
structure ConfidentiallyStatesItsFee (crypto : Crypto)
    (withheldKey : PodElGamalPubkey) (owned : C.State → Address → Prop)
    (source destination : Address) (amount : Nat) (sent : List (Sent C.State))
    (outcome : Except (Stop Error) ConfidentialTransfer) : Prop where
  paid : ∀ moved, outcome = .ok moved →
    moved.amount = amount ∧ ∃ earlier one later,
      sent = earlier ++ one :: later ∧ one.landed = true ∧
        (∀ other ∈ earlier ++ later, Untouched owned other) ∧
        (source ≠ destination →
          ConfidentiallyPaid crypto withheldKey source destination amount
            moved.fee (C.tokenAccounts one.delivery.before)
            (C.tokenAccounts one.delivery.after))
  unmoved : (∀ moved, outcome ≠ .ok moved) → ∀ one ∈ sent, Untouched owned one

theorem Executes.confidentiallyPaid
    {withheldKey : PodElGamalPubkey} {before after : TokenAccounts}
    {source destination : Address} {statement : TransferStatement}
    {newDecryptable : DecryptableBalance}
    (executes :
      Executes crypto withheldKey before
        (.transfer source destination statement newDecryptable) after)
    (different : source ≠ destination) :
    ConfidentiallyPaid crypto withheldKey source destination statement.amount
      statement.fee before after := by
  cases executes with
  | transferToSelf => exact absurd rfl different
  | transfer _ found configured _ found' _ _ _ withheld _ _ _ debits _ adds =>
      constructor
      · refine ⟨_, _, _, _, found, configured,
          (Function.update_of_ne different _ _).trans
            (Function.update_self ..), rfl, ?_⟩
        rw [debits.2.1]
        exact debits.2.2.1
      · exact ⟨_, _, _, _, found', withheld, Function.update_self .., rfl,
          adds⟩

section Paying

variable {owned : C.State → Address → Prop} {proofs : FeeProofs crypto}
  {rejected : Error → Prop} {withheldKey : PodElGamalPubkey}
  {source destination : Address} {keys : ConfidentialKeys crypto}
  {amount : Nat}

theorem OwnedContract.untouched
    (contract : OwnedContract C owned) {one : Sent C.State}
    (delivered : ∃ state,
      one.delivery = C.send state one.transaction one.signers)
    (idle : tokenInstructions one.transaction = [] ∨ one.landed = false) :
    Untouched owned one := by
  obtain ⟨state, delivered⟩ := delivered
  intro address isOwned
  rcases outcome : one.delivery.outcome with error | receipt
  · rw [delivered] at outcome isOwned ⊢
    exact contract.notLanded _ _ _ _ _ outcome isOwned
  · rcases idle with none | failed
    · rw [delivered] at outcome isOwned ⊢
      exact contract.plain _ _ _ _ _ none outcome isOwned
    · simp [Sent.landed, outcome, Except.toBool] at failed

/-- The plan of a transfer, made from what was read. -/
def PlannedFrom (keys : ConfidentialKeys crypto) (amount : Nat)
    (mint : MintSnapshot) (epoch : Nat) (plan : TransferPlan) : Prop :=
  ∃ payer payee,
    TransferPlan.prepare payer payee mint epoch keys amount = .ok plan

/-- The proofs of a plan are about the rate and the cap that were read. -/
theorem PlannedFrom.terms
    {mint : MintSnapshot} {epoch : Nat} {plan : TransferPlan}
    (planned : PlannedFrom keys amount mint epoch plan)
    (proofs : FeeProofs crypto) :
    ∃ config, mint.transferFee = some config ∧ plan.mint = mint.address ∧
      proofs.agrees plan.proof.percentageWithCapProofData.bytes
        plan.proof.transferAmountCiphertextValidityProofDataWithCiphertext.proofData.bytes
        plan.proof.feeCiphertextValidityProofData.bytes
        (config.getEpochFee epoch).terms ∧
      (plan.statement crypto).amount = amount ∧
      (plan.statement crypto).fee = plan.fee := by
  obtain ⟨payer, payee, prepared⟩ := planned
  obtain ⟨state, available, config, _, _, _, required, _, stated, _, named,
    decryptable, pubkey, auditor, withheld, generated⟩ :=
    TransferPlan.prepare_eq_ok prepared
  have present := MintSnapshot.requireTransferFee_eq_ok required
  have agrees := proofs.transfer_agrees _ _ _ _ _ _ _ _ _ _ _ generated
  exact ⟨config, present, named, agrees, by rw [stated], by rw [stated]⟩

/-- What the consuming transaction of a transfer has done, if it landed. -/
theorem Consumption.confidentiallyPaid
    (contract : TokenContract C crypto withheldKey)
    {plan : TransferPlan} {owner : Keypair} {instructions : List Instruction}
    {log used : ProofLog} {earlier : List (Sent C.State)}
    {one : Sent C.State}
    (consumption : Consumption used instructions [owner] earlier one)
    (staged : TransferStaged plan source destination owner instructions log)
    (same : used.verified = log.verified) (landed : one.landed = true)
    (different : source ≠ destination) :
    ConfidentiallyPaid crypto withheldKey source destination
      (plan.statement crypto).amount (plan.statement crypto).fee
      (C.tokenAccounts one.delivery.before)
      (C.tokenAccounts one.delivery.after) := by
  obtain ⟨transfer, carried, fromSource, toDestination, _, contexts, _⟩ :=
    staged.contexts same consumption.tracked
  obtain ⟨state, delivered⟩ := consumption.delivered
  rcases outcome : one.delivery.outcome with error | receipt
  · simp [Sent.landed, outcome, Except.toBool] at landed
  have executes := contract.transfers state one.transaction one.signers receipt
    transfer _ _ _ (by rw [← delivered]; exact outcome)
    (by rw [consumption.tokenInstructions]; exact carried)
    (by rw [← delivered]; exact contexts)
  rw [← delivered, fromSource, toDestination] at executes
  exact executes.confidentiallyPaid different

/-- The consuming transaction is not rejected for its fee while the schedule
stays. -/
theorem Consumption.feeAccepted
    (contract : FeeContract C proofs rejected) {mint : MintSnapshot}
    {epoch : Nat} {plan : TransferPlan} {owner : Keypair}
    {instructions : List Instruction} {log used : ProofLog}
    {earlier : List (Sent C.State)} {one : Sent C.State}
    (consumption : Consumption used instructions [owner] earlier one)
    (staged : TransferStaged plan source destination owner instructions log)
    (same : used.verified = log.verified)
    (planned : PlannedFrom keys amount mint epoch plan) :
    FeeAccepted rejected mint.address mint epoch [one] := by
  intro other member kept error failed refused
  obtain rfl := List.mem_singleton.mp member
  obtain ⟨transfer, carried, _, _, ofMint, contexts, authority, sigma⟩ :=
    staged.contexts same consumption.tracked
  obtain ⟨config, present, named, agrees, _⟩ := planned.terms proofs
  obtain ⟨state, delivered⟩ := consumption.delivered
  obtain ⟨landed, found, differs⟩ :=
    contract.confidentialFee state other.transaction other.signers error
      transfer _ _ _ authority _
      (by rw [consumption.tokenInstructions]; exact carried)
      (by rw [← delivered]; exact contexts) (by rw [← delivered]; exact sigma)
      (by rw [← delivered]; exact failed) refused
  rw [← delivered, ofMint, named] at found
  rw [← delivered] at differs
  obtain ⟨later, laterPresent, sameTerms⟩ := kept config present landed found
  exact differs later laterPresent (by rw [sameTerms]; exact agrees)

/-- A plain transaction is not rejected for a fee. -/
theorem FeeContract.plain_accepted
    (contract : FeeContract C proofs rejected) {mint : MintSnapshot}
    {address : Address} {epoch : Nat} {sent : List (Sent C.State)}
    (delivered : ∀ one ∈ sent, ∃ state,
      one.delivery = C.send state one.transaction one.signers)
    (plain : ∀ one ∈ sent, Plain one.transaction) :
    FeeAccepted rejected address mint epoch sent := by
  intro one member _ error failed
  obtain ⟨state, here⟩ := delivered one member
  exact contract.plainFee state one.transaction one.signers error
    (plain one member).tokenInstructions (by rw [← here]; exact failed)

/-- Of the sends of a transfer only the consuming one can be rejected for its
fee. -/
theorem DebitSends.feeAccepted
    (contract : FeeContract C proofs rejected) {owner : Keypair}
    {loaded : TransferPlan → Prop} {outcome : Except (Stop Error) TransferPlan}
    {sent : List (Sent C.State)} {mint : MintSnapshot} {epoch : Nat}
    (sends : DebitSends (TransferStaged · source destination owner) owner
      loaded outcome sent)
    (delivered : ∀ one ∈ sent, ∃ state,
      one.delivery = C.send state one.transaction one.signers)
    (planned : ∀ plan, loaded plan →
      PlannedFrom keys amount mint epoch plan) :
    FeeAccepted rejected mint.address mint epoch sent := by
  cases sends with
  | idle _ plain => exact contract.plain_accepted delivered plain
  | @consuming plan _ _ _ earlier later one isLoaded staged same shape plain
      consumption _ _ =>
      subst shape
      have rest : FeeAccepted rejected mint.address mint epoch
          (earlier ++ later) := by
        refine contract.plain_accepted (fun other member => ?_) plain
        refine delivered other ?_
        simp only [List.mem_append, List.mem_cons] at member ⊢
        tauto
      have accepted := consumption.feeAccepted contract staged same
        (planned plan isLoaded)
      intro other member
      simp only [List.mem_append, List.mem_cons] at member
      rcases member with before | rfl | after
      · exact rest other (List.mem_append_left _ before)
      · exact accepted other List.mem_cons_self
      · exact rest other (List.mem_append_right _ after)

/-- The sends of a transfer pay what it returns, or nothing. -/
theorem DebitSends.statesItsFee
    (tokens : TokenContract C crypto withheldKey)
    (owns : OwnedContract C owned) {owner : Keypair}
    {loaded : TransferPlan → Prop} {outcome : Except (Stop Error) TransferPlan}
    {sent : List (Sent C.State)} {returned : TransferPlan → ConfidentialTransfer}
    (sends : DebitSends (TransferStaged · source destination owner) owner
      loaded outcome sent)
    (delivered : ∀ one ∈ sent, ∃ state,
      one.delivery = C.send state one.transaction one.signers)
    (returns : ∀ plan, (returned plan).amount = amount ∧
      (returned plan).fee = plan.fee)
    (planned : ∀ plan, loaded plan →
      (plan.statement crypto).amount = amount ∧
        (plan.statement crypto).fee = plan.fee) :
    ConfidentiallyStatesItsFee crypto withheldKey owned source destination
      amount sent (outcome.map returned) := by
  cases sends with
  | idle never plain =>
      refine ⟨fun moved same => ?_, fun _ one member => ?_⟩
      · rcases outcome with stop | plan
        · cases same
        · exact absurd rfl (never plan)
      · exact owns.untouched (delivered one member)
          (.inl (plain one member).tokenInstructions)
  | @consuming plan instructions log used earlier later one isLoaded staged
      same shape plain consumption succeeds fails =>
      subst shape
      have others : ∀ other ∈ earlier ++ later, Untouched owned other := by
        intro other member
        refine owns.untouched (delivered other ?_)
          (.inl (plain other member).tokenInstructions)
        simp only [List.mem_append, List.mem_cons] at member ⊢
        tauto
      refine ⟨fun moved ended => ?_, fun never other member => ?_⟩
      · rcases outcome with stop | other
        · cases ended
        obtain ⟨rfl, landed⟩ := succeeds other rfl
        obtain rfl : returned other = moved := Except.ok.inj ended
        refine ⟨(returns other).1, earlier, one, later, rfl, landed, others,
          fun different => ?_⟩
        have paid := consumption.confidentiallyPaid tokens staged same landed
          different
        rw [(planned other isLoaded).1, (planned other isLoaded).2] at paid
        rw [(returns other).2]
        exact paid
      · have failed : one.landed = false := by
          refine fails fun other ended => ?_
          subst ended
          exact never _ rfl
        simp only [List.mem_append, List.mem_cons] at member
        rcases member with before | rfl | after
        · exact others other (List.mem_append_left _ before)
        · exact owns.untouched (delivered other (by simp)) (.inr failed)
        · exact others other (List.mem_append_right _ after)

/-- A transfer whose plan is made from what was read. -/
theorem ensures_transferPaying
    (tokens : TokenContract C crypto withheldKey)
    (owns : OwnedContract C owned) (fees : FeeContract C proofs rejected)
    {load : Flow (World C) Error TransferPlan}
    (keys : ConfidentialKeys crypto) (owner : Keypair)
    (state : C.State) (drawn : Nat) (reading : Reading load)
    (planned : ∀ plan,
      (Flow.exec load (World.initial state drawn)).1 = .ok plan →
        ∃ mint epoch, PlannedFrom keys amount mint epoch plan) :
    Flow.Ensures
      ((fun plan : TransferPlan =>
          { amount
            fee := plan.fee
            epoch := plan.epoch
            auditorCiphertextLo := plan.auditorLo
            auditorCiphertextHi := plan.auditorHi }) <$>
        debiting load (·.stage source destination owner) owner
          TRANSFER_WITH_FEE_UNITS)
      (World.initial state drawn) fun outcome reached =>
        ConfidentiallyStatesItsFee crypto withheldKey owned source destination
          amount reached.sent outcome ∧
        ∀ mint epoch, (∀ plan,
          (Flow.exec load (World.initial state drawn)).1 = .ok plan →
            PlannedFrom keys amount mint epoch plan) →
          FeeAccepted rejected mint.address mint epoch reached.sent := by
  have start :
      Represents (⟨{}, World.initial state drawn⟩ : Session C) {} :=
    ⟨rfl, .initial state drawn⟩
  have clean : Clean [] (World.initial (C := C) state drawn).sent := .refl []
  refine .map (Flow.Ensures.mono (ensures_debiting_sends owner _ reading
    (fun _ loaded => loaded)
    fun plan => plan.ensures_stage source destination owner start clean) ?_)
  intro outcome reached sends
  refine ⟨sends.statesItsFee tokens owns reached.chained.delivered
    (fun _ => ⟨rfl, rfl⟩) fun plan loaded => ?_, fun mint epoch made =>
    sends.feeAccepted fees reached.chained.delivered made⟩
  obtain ⟨mint, epoch, made⟩ := planned plan loaded
  obtain ⟨_, _, _, _, stated⟩ := made.terms proofs
  exact stated

end Paying
/-! ## The calls -/

/-- What is left to do of a transfer once the accounts, the mint and the epoch
were read. -/
def TransferPlan.conclude (source destination : Address) (owner : Keypair)
    (keys : ConfidentialKeys crypto) (amount : Nat)
    (payer payee : AccountSnapshot) (mint : MintSnapshot) (epoch : Nat) :
    Flow (World C) Error ConfidentialTransfer := do
  let plan ← Flow.ofExcept <|
    TransferPlan.prepare payer payee mint epoch keys amount
  let (prepared, accounts) ←
    Session.prepare (plan.stage source destination owner)
  let _ ← finish prepared accounts [owner] TRANSFER_WITH_FEE_UNITS
  pure
    { amount
      fee := plan.fee
      epoch := plan.epoch
      auditorCiphertextLo := plan.auditorLo
      auditorCiphertextHi := plan.auditorHi }

theorem transfer_eq_conclude
    (source destination : Address) (owner : Keypair)
    (keys : ConfidentialKeys crypto) (amount : Nat) :
    (transfer source destination owner keys amount :
        Flow (World C) Error ConfidentialTransfer) = (do
      let payer ← World.loadAccount source
      let payee ← World.loadAccount destination
      let mint ← World.loadMint payer.mint
      let epoch ← World.epoch
      TransferPlan.conclude source destination owner keys amount payer payee
        mint epoch) := by
  simp [transfer, TransferPlan.load, TransferPlan.conclude]

theorem conclude_eq
    (source destination : Address) (owner : Keypair)
    (keys : ConfidentialKeys crypto) (amount : Nat)
    (payer payee : AccountSnapshot) (mint : MintSnapshot) (epoch : Nat) :
    (TransferPlan.conclude source destination owner keys amount payer payee
        mint epoch : Flow (World C) Error ConfidentialTransfer) =
      (fun plan : TransferPlan =>
          { amount
            fee := plan.fee
            epoch := plan.epoch
            auditorCiphertextLo := plan.auditorLo
            auditorCiphertextHi := plan.auditorHi }) <$>
        debiting
          (Flow.ofExcept <|
            TransferPlan.prepare payer payee mint epoch keys amount)
          (·.stage source destination owner) owner TRANSFER_WITH_FEE_UNITS := by
  simp [TransferPlan.conclude, debiting]

section Transferring

variable {owned : C.State → Address → Prop} {proofs : FeeProofs crypto}
  {rejected : Error → Prop} {withheldKey : PodElGamalPubkey}
  {source destination : Address} {keys : ConfidentialKeys crypto}
  {amount : Nat}

theorem ensures_conclude
    (tokens : TokenContract C crypto withheldKey)
    (owns : OwnedContract C owned) (fees : FeeContract C proofs rejected)
    (owner : Keypair) (state : C.State) (drawn : Nat)
    (payer payee : AccountSnapshot) (mint : MintSnapshot) (epoch : Nat) :
    Flow.Ensures
      (TransferPlan.conclude source destination owner keys amount payer
        payee mint epoch) (World.initial state drawn)
      fun outcome reached =>
        ConfidentiallyStatesItsFee crypto withheldKey owned source
          destination amount reached.sent outcome ∧
        FeeAccepted rejected mint.address mint epoch reached.sent := by
  have made : ∀ plan,
      (Flow.exec (Flow.ofExcept <|
        TransferPlan.prepare payer payee mint epoch keys amount)
        (World.initial (C := C) state drawn)).1 = .ok plan →
        PlannedFrom keys amount mint epoch plan := by
    intro plan loaded
    rcases prepared : TransferPlan.prepare payer payee mint epoch keys amount
      with error | other
    · rw [prepared] at loaded
      cases loaded
    · rw [prepared] at loaded
      cases loaded
      exact ⟨payer, payee, prepared⟩
  rw [conclude_eq]
  refine (ensures_transferPaying tokens owns fees keys owner state
    drawn (.ofExcept _) fun plan loaded => ⟨mint, epoch, made plan loaded⟩).mono
    fun outcome reached pays => ?_
  exact ⟨pays.1, pays.2 mint epoch made⟩

theorem ensures_transfer_states
    (tokens : TokenContract C crypto withheldKey)
    (owns : OwnedContract C owned) (fees : FeeContract C proofs rejected)
    (owner : Keypair) (state : C.State) (drawn : Nat) :
    Flow.Ensures (transfer source destination owner keys amount)
      (World.initial state drawn)
      fun outcome reached =>
        ConfidentiallyStatesItsFee crypto withheldKey owned source
          destination amount reached.sent outcome ∧
        ∀ mint epoch,
          (World.initial (C := C) state drawn).Reads source mint epoch →
            FeeAccepted rejected mint.address mint epoch reached.sent := by
  rw [transfer_eq]
  refine (ensures_transferPaying tokens owns fees keys owner state
    drawn (TransferPlan.reading_load _ _ _ _) fun plan loaded => ?_).mono
    fun outcome reached pays => ⟨pays.1, fun mint epoch reads => ?_⟩
  · obtain ⟨payer, payee, mint, _, _, prepared⟩ :=
      TransferPlan.load_eq_ok loaded
    exact ⟨mint, _, payer, payee, prepared⟩
  · refine pays.2 mint epoch fun plan loaded => ?_
    obtain ⟨payer, payee, other, payerLoaded, mintLoaded, prepared⟩ :=
      TransferPlan.load_eq_ok loaded
    obtain ⟨_, sameAccount, sameMint, sameEpoch⟩ := reads
    obtain rfl := Except.ok.inj (payerLoaded.symm.trans sameAccount)
    obtain rfl := Except.ok.inj (mintLoaded.symm.trans sameMint)
    obtain rfl := sameEpoch
    exact ⟨payer, payee, prepared⟩

end Transferring

/-- A fee that is set is not in force yet. -/
theorem ensures_setTransferFee
    {proofs : FeeProofs crypto} {rejected : Error → Prop}
    (contract : PublicContract C) (fees : FeeContract C proofs rejected)
    (address : Address) (feeAuthority : Keypair) (basisPoints maximumFee : Nat)
    (world : World C) :
    Flow.Ensures (setTransferFee address feeAuthority basisPoints maximumFee)
      world
      fun _ reached => ∃ later, reached.sent = world.sent ++ later ∧
        later.length ≤ 1 ∧ ∀ one ∈ later, ∀ mint,
          (C.tokenChain one.delivery.before).mints address = some mint →
            (C.tokenChain one.delivery.after).KeepsSchedule address mint
              (C.tokenChain one.delivery.before).epoch := by
  refine .bind (.ofExcept (fun instruction built => ?_)
    fun error _ => ⟨[], by simp⟩)
  obtain rfl := tokenInstruction_eq_ok built
  refine .bind (World.ensures_send (fun receipt landed => .pure ?_)
    fun error failed => ?_)
  · refine ⟨_, rfl, Nat.le_refl 1, fun one member mint found => ?_⟩
    obtain rfl := List.mem_singleton.mp member
    exact .of_setTransferFee (fees.setsFee _ _ _ _ _ _ receipt landed) found
  · refine ⟨_, rfl, Nat.le_refl 1, fun one member mint found => ?_⟩
    obtain rfl := List.mem_singleton.mp member
    have same := contract.leavesAlone _ _ _ _ failed
    change (C.tokenChain (C.send world.state _ _).after).KeepsSchedule _ _ _
    rw [same]
    exact .refl found

/-- Whatever the fee authority and the clock do between the reads of a call and
the landing of its transaction, the fee that is withheld is the fee that the
call returns, or nothing has moved.  A call is not rejected for its fee while
the schedule in force stays, which only a new epoch can change. -/
theorem nobody_pays_an_unstated_fee
    {withheldKey : PodElGamalPubkey} {owned : C.State → Address → Prop}
    {proofs : FeeProofs crypto} {rejected : Error → Prop}
    (contract : PublicContract C) (tokens : TokenContract C crypto withheldKey)
    (owns : OwnedContract C owned) (fees : FeeContract C proofs rejected) :
    (∀ (landing : TokenChain) address (read : MintSnapshot),
      (∀ config, read.transferFee = some config →
        ∀ mint, landing.mints address = some mint →
          ∃ later, mint.transferFee = some later ∧
            TransferFeeConfig.History (config, landing.epoch)
              (later, landing.epoch)) →
        landing.KeepsSchedule address read landing.epoch) ∧
    (∀ address feeAuthority basisPoints maximumFee (world : World C),
      Flow.Ensures (setTransferFee address feeAuthority basisPoints maximumFee)
        world
        fun _ reached => ∃ later, reached.sent = world.sent ++ later ∧
          later.length ≤ 1 ∧ ∀ one ∈ later, ∀ mint,
            (C.tokenChain one.delivery.before).mints address = some mint →
              (C.tokenChain one.delivery.after).KeepsSchedule address mint
                (C.tokenChain one.delivery.before).epoch) ∧
    (∀ source destination authority amount (world : World C),
      (∀ address mint epoch,
        Flow.Ensures
          (concludeTransfer source destination authority amount address mint
            epoch) world
          fun outcome reached => ∃ later, reached.sent = world.sent ++ later ∧
            StatesItsFee source destination amount later outcome ∧
            FeeAccepted rejected address mint epoch later) ∧
      Flow.Ensures (transferWithFee source destination authority amount) world
        fun outcome reached => ∃ later, reached.sent = world.sent ++ later ∧
          StatesItsFee source destination amount later outcome ∧
          ∀ mint epoch, world.Reads source mint epoch →
            FeeAccepted rejected mint.address mint epoch later) ∧
    (∀ source destination freezeAuthority permanentDelegate amount
        (world : World C),
      (∀ account mint epoch,
        Flow.Ensures
          (Seizure.conclude source destination freezeAuthority
            permanentDelegate amount account mint epoch) world
          fun outcome reached => ∃ later, reached.sent = world.sent ++ later ∧
            StatesItsFee source destination amount later outcome ∧
            FeeAccepted rejected mint.address mint epoch later) ∧
      Flow.Ensures
        (seize source destination freezeAuthority permanentDelegate amount)
        world
        fun outcome reached => ∃ later, reached.sent = world.sent ++ later ∧
          StatesItsFee source destination amount later outcome ∧
          ∀ mint epoch, world.Reads source mint epoch →
            FeeAccepted rejected mint.address mint epoch later) ∧
    ∀ source destination owner (keys : ConfidentialKeys crypto) amount
        (state : C.State) drawn,
      (∀ payer payee mint epoch,
        Flow.Ensures
          (TransferPlan.conclude source destination owner keys amount payer
            payee mint epoch) (World.initial state drawn)
          fun outcome reached =>
            ConfidentiallyStatesItsFee crypto withheldKey owned source
              destination amount reached.sent outcome ∧
            FeeAccepted rejected mint.address mint epoch reached.sent) ∧
      Flow.Ensures (transfer source destination owner keys amount)
        (World.initial state drawn)
        fun outcome reached =>
          ConfidentiallyStatesItsFee crypto withheldKey owned source
            destination amount reached.sent outcome ∧
          ∀ mint epoch,
            (World.initial (C := C) state drawn).Reads source mint epoch →
              FeeAccepted rejected mint.address mint epoch reached.sent := by
  refine ⟨fun _ _ _ => .of_history, ensures_setTransferFee contract fees, ?_,
    ?_, ?_⟩
  · intro source destination authority amount world
    exact ⟨fun address mint epoch => ensures_concludeTransfer contract
      fees.publicFee authority address mint epoch world,
      ensures_transferWithFee contract fees.publicFee authority world⟩
  · intro source destination freezeAuthority permanentDelegate amount world
    exact ⟨fun account mint epoch => Seizure.ensures_conclude_states contract
      fees.publicFee freezeAuthority permanentDelegate account mint epoch world,
      ensures_seize_states contract fees.publicFee freezeAuthority
        permanentDelegate world⟩
  · intro source destination owner keys amount state drawn
    exact ⟨ensures_conclude tokens owns fees owner state drawn,
      ensures_transfer_states tokens owns fees owner state drawn⟩

/-! ## A market on which the fee changes -/

namespace Busy

def payer : Keypair :=
  ⟨Address.filled 61⟩

def shop : Address :=
  Address.filled 62

/-- A payer and a shop, under the schedules of their mint. -/
def shopping (older newer : TransferFee) : Quiet.Tokens :=
  tokensAt
    [(stablecoin, stablecoinData older newer),
      (payer.pubkey, holding payer.pubkey 1000 .initialized 0),
      (shop, holding shop 50 .initialized 3)]

/-- In epoch 5 a fee of one percent is set, which is in force from epoch 7 on.
The first transaction is overtaken by this, and the second by epoch 7. -/
def changingFee : State where
  accounts _ := none
  ledger := ⟨shopping ⟨0, 5000, 25⟩ ⟨0, 5000, 25⟩, 5⟩
  turns :=
    [⟨fun ledger =>
        { ledger with tokens := shopping ⟨0, 5000, 25⟩ ⟨7, 5000, 100⟩ }, id⟩,
      ⟨fun ledger => { ledger with epoch := 7 }, id⟩]

/-- Alice can also pay Bob confidentially. -/
def confidentialMarket : State where
  accounts _ := none
  ledger := ⟨Quiet.market.tokens, 0⟩
  turns := []

/-- The first payment is charged what it states, the second would be charged
more and is refused for its fee. -/
def twoPayments : Flow (World market) Error
    (FeeTransfer × Except Error FeeTransfer) := do
  let first ← transferWithFee payer.pubkey shop payer 401
  let second ← Flow.result (transferWithFee payer.pubkey shop payer 401)
  pure (first, second)

theorem market_states_its_fees :
    (Flow.exec twoPayments (World.initial changingFee 0)).1 =
        .ok (⟨401, 2, 5⟩,
          .error (.transaction
            (.instructionError 0 (.custom FEE_MISMATCH)) [])) ∧
    Flow.Ensures (transferWithFee payer.pubkey shop payer 401)
      (World.initial (C := market) changingFee 0)
      (fun outcome reached => ∃ later, reached.sent = [] ++ later ∧
        StatesItsFee payer.pubkey shop 401 later outcome ∧
        ∀ mint epoch,
          (World.initial (C := market) changingFee 0).Reads
              payer.pubkey mint epoch →
            FeeAccepted feeRejected mint.address mint epoch later) ∧
    Flow.Ensures
      (transfer Transparent.alice Transparent.bob ⟨Transparent.alice⟩
        Quiet.ownerKeys 10000)
      (World.initial (C := market) confidentialMarket 0)
      fun outcome reached =>
        ConfidentiallyStatesItsFee Transparent.crypto ⟨0⟩ (fun _ _ => True)
          Transparent.alice Transparent.bob 10000 reached.sent outcome := by
  have states := nobody_pays_an_unstated_fee marketContract (marketTokens ⟨0⟩)
    marketOwned marketFees
  obtain ⟨_, _, pays, _, paysConfidentially⟩ := states
  refine ⟨by decide +kernel, (pays payer.pubkey shop payer 401 _).2, ?_⟩
  exact (paysConfidentially _ _ _ Quiet.ownerKeys 10000 confidentialMarket
    0).2.mono fun _ _ stated => stated.1

end Busy
end Remit
