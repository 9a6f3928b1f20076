import Remit.Cluster.Quiet
import Remit.Confidential.Balances
import Remit.Confidential.Debits

/-!
# Whether a payment can be read

A transfer adds to each half of the recipient's pending balance the half of the
amount less the half of the fee.  The recipient's reader decrypts the halves
one by one, so it needs both differences to be at least zero.
-/

namespace Remit

open Flows

variable {crypto : Crypto} {C : Cluster}

/-! ## The fee -/

/-- A share of the amount, rounded up, and at most the maximum. -/
def scheduledFee (schedule : TransferFee) (amount : Nat) : Nat :=
  min ((amount * schedule.transferFeeBasisPoints + 9999) / 10000)
    schedule.maximumFee

theorem TransferFee.calculateFee_eq_some
    {schedule : TransferFee} {amount fee : Nat}
    (charged : schedule.calculateFee amount = some fee) :
    fee = scheduledFee schedule amount := by
  unfold scheduledFee
  simp only [calculateFee] at charged
  split at charged
  case isTrue free =>
      have nothing : amount * schedule.transferFeeBasisPoints = 0 := by
        rcases free with zero | zero <;> simp [zero]
      cases charged
      simp [nothing]
  case isFalse =>
      split at charged
      case isTrue =>
          cases charged
          rfl
      case isFalse => cases charged

/-- The schedule in force for the mint of an account. -/
def scheduleInForce (world : World C) (source : Address) :
    Except Error TransferFee := do
  let account ← loadAccount world source
  let mint ← loadMint world account.mint
  let config ← mint.requireTransferFee
  pure (config.getEpochFee (C.epoch world.state))

/-! ## The halves -/

/-- The differences of the halves are both readable exactly when the low half
of the fee does not exceed that of the amount. -/
theorem readable_halves_iff
    {amount fee : Nat} (small : amount < 2 ^ 48) (taken : fee ≤ amount) :
    (Readable (lowPart amount - lowPart fee) ∧
        Readable (highPart amount - highPart fee)) ↔
      fee % 2 ^ 16 ≤ amount % 2 ^ 16 := by
  unfold Readable lowPart highPart
  constructor
  · rintro ⟨⟨nonneg, _⟩, _⟩
    omega
  · intro noBorrow
    refine ⟨⟨?_, ?_⟩, ?_, ?_⟩ <;> omega

/-- What a recipient with nothing pending reads after a transfer. -/
theorem Executes.payment_read_iff
    {withheldKey : PodElGamalPubkey} {before after : TokenAccounts}
    {source destination : Address} {statement : TransferStatement}
    {newDecryptable : DecryptableBalance} {keys : ConfidentialKeys crypto}
    {payee : AccountSnapshot} {paid : ConfidentialTransferAccount}
    (executes :
      Executes crypto withheldKey before
        (.transfer source destination statement newDecryptable) after)
    (different : source ≠ destination)
    (found : before destination = some payee)
    (configured : payee.confidential = some paid) (opens : keys.Opens paid)
    (nothing : Pending crypto paid 0 0) :
    ∃ payee', after destination = some payee' ∧
      (pendingBalance payee' keys = .ok (statement.amount - statement.fee) ↔
        statement.fee % 2 ^ 16 ≤ statement.amount % 2 ^ 16) := by
  cases executes with
  | transferToSelf => exact absurd rfl different
  | @transfer _ _ _ payee' _ paid' _ _ _ lo hi _ _ _ _ _ _ found' configured'
      _ _ _ _ small taken _ adds _ =>
      obtain rfl : payee = payee' :=
        Option.some.inj (found.symm.trans found')
      obtain rfl : paid = paid' :=
        Option.some.inj (configured.symm.trans configured')
      refine ⟨_, Function.update_self .., ?_⟩
      have pending : Pending crypto (paid.credited lo hi)
          (lowPart statement.amount - lowPart statement.fee)
          (highPart statement.amount - highPart statement.fee) :=
        { encryptsLow := by
            rw [← zero_add (lowPart _ - _)]
            exact nothing.encryptsLow.adds adds.1
          encryptsHigh := by
            rw [← zero_add (highPart _ - _)]
            exact nothing.encryptsHigh.adds adds.2
          lowSmall := by
            unfold lowPart
            rw [abs_lt]
            omega
          highSmall := by
            unfold highPart
            rw [abs_lt]
            omega }
      have opensStill : keys.Opens (paid.credited lo hi) := opens
      rw [pendingBalance_eq_ok_iff rfl opensStill pending,
        ← readable_halves_iff small taken]
      have amountWhole := lowPart_add_highPart statement.amount
      have feeWhole := lowPart_add_highPart statement.fee
      constructor
      · rintro ⟨low, high, _⟩
        exact ⟨low, high⟩
      · rintro ⟨low, high⟩
        refine ⟨low, high, ?_⟩
        push_cast [taken]
        omega

/-! ## The transfer -/

section Transfer

variable {source destination : Address} {keys : ConfidentialKeys crypto}
  {amount : Nat}

/-- What a plan was loaded from. -/
theorem TransferPlan.load_eq_ok
    {plan : TransferPlan} {world : World C}
    (loaded :
      (Flow.exec (TransferPlan.load source destination keys amount) world).1 =
        .ok plan) :
    ∃ payer payee mint,
      loadAccount world source = .ok payer ∧
        loadMint world payer.mint = .ok mint ∧
        TransferPlan.prepare payer payee mint (C.epoch world.state) keys
          amount = .ok plan := by
  obtain ⟨payer, payerLoaded, loaded⟩ :=
    (Reading.loadAccount source).bind_eq_ok loaded
  obtain ⟨payee, _, loaded⟩ :=
    (Reading.loadAccount destination).bind_eq_ok loaded
  obtain ⟨mint, mintLoaded, loaded⟩ :=
    (Reading.loadMint payer.mint).bind_eq_ok loaded
  obtain ⟨epoch, known, loaded⟩ := (Reading.read _).bind_eq_ok loaded
  cases known
  refine ⟨payer, payee, mint, World.exec_loadAccount payerLoaded,
    World.exec_loadMint mintLoaded, ?_⟩
  rcases prepared : TransferPlan.prepare payer payee mint
      (C.epoch world.state) keys amount with error | other
  · rw [prepared] at loaded
    cases loaded
  · rw [prepared] at loaded
    cases loaded
    rfl

/-- A loaded plan states the amount and the fee of the schedule in force. -/
theorem TransferPlan.load_states
    {plan : TransferPlan} {world : World C} {schedule : TransferFee}
    (loaded :
      (Flow.exec (TransferPlan.load source destination keys amount) world).1 =
        .ok plan)
    (inForce : scheduleInForce world source = .ok schedule) :
    (plan.statement crypto).amount = amount ∧
      (plan.statement crypto).fee = plan.fee ∧
      plan.fee = scheduledFee schedule amount := by
  obtain ⟨payer, payee, mint, payerLoaded, mintLoaded, prepared⟩ :=
    TransferPlan.load_eq_ok loaded
  obtain ⟨state, available, config, _, _, _, required, charged, stated, _⟩ :=
    TransferPlan.prepare_eq_ok prepared
  obtain ⟨_, samePayer, inForce⟩ := except_bind_eq_ok inForce
  obtain ⟨_, sameMint, inForce⟩ := except_bind_eq_ok inForce
  obtain ⟨_, sameConfig, inForce⟩ := except_bind_eq_ok inForce
  obtain rfl := Except.ok.inj (payerLoaded.symm.trans samePayer)
  obtain rfl := Except.ok.inj (mintLoaded.symm.trans sameMint)
  obtain rfl := Except.ok.inj (required.symm.trans sameConfig)
  cases inForce
  exact ⟨by rw [stated], by rw [stated],
    TransferFee.calculateFee_eq_some charged⟩

/-- The contexts of the consuming transaction hold the proofs of the plan. -/
theorem TransferStaged.contexts
    {plan : TransferPlan} {owner : Keypair} {instructions : List Instruction}
    {log used : ProofLog} {accounts : Accounts}
    (staged :
      TransferStaged plan source destination owner instructions log)
    (same : used.verified = log.verified)
    (tracked : Tracked C.programs C.payer accounts used) :
    ∃ transfer,
      tokenInstructions instructions = [.transferWithFee transfer] ∧
        transfer.source = source ∧ transfer.destination = destination ∧
        transfer.mint = plan.mint ∧
        TransferContexts accounts transfer plan.proof.equalityProofData.bytes
          plan.proof.transferAmountCiphertextValidityProofDataWithCiphertext.proofData.bytes
          plan.proof.feeCiphertextValidityProofData.bytes ∧
        ∃ authority, accounts transfer.feeSigma =
          some (.context authority .verifyPercentageWithCap
            plan.proof.percentageWithCapProofData.bytes) := by
  obtain ⟨equality, amountValidity, feeSigma, feeValidity, range, rfl,
    verified, _⟩ := staged.staged
  have holds := tracked.verified
  simp only [same, verified, List.forall_mem_cons] at holds
  obtain ⟨equalityHeld, amountHeld, sigmaHeld, feeHeld, _⟩ := holds
  exact ⟨_, rfl, rfl, rfl, rfl,
    ⟨⟨_, equalityHeld⟩, ⟨_, amountHeld⟩, ⟨_, feeHeld⟩⟩, _, sigmaHeld⟩

end Transfer

/-- What a recipient with nothing pending before a payment reads after it. -/
def ReadsPayment (C : Cluster) (crypto : Crypto) (destination : Address)
    (delivery : Delivery C.State) (paid : Nat) (readable : Prop) : Prop :=
  ∀ (keys : ConfidentialKeys crypto) payee state,
    C.tokenAccounts delivery.before destination = some payee →
      payee.confidential = some state → keys.Opens state →
      Pending crypto state 0 0 →
      ∃ payee', C.tokenAccounts delivery.after destination = some payee' ∧
        (pendingBalance payee' keys = .ok paid ↔ readable)

/-- When a transfer returns, the recipient reads the amount less the fee from
the transaction that paid it exactly when, modulo `2 ^ 16`, the fee in force is
at most the amount. -/
theorem payment_readable_iff
    {withheldKey : PodElGamalPubkey} {schedule : TransferFee}
    (contract : TokenContract C crypto withheldKey)
    (state : C.State) (drawn : Nat) (source destination : Address)
    (owner : Keypair) (keys : ConfidentialKeys crypto) (amount : Nat)
    (different : source ≠ destination)
    (inForce :
      scheduleInForce (World.initial (C := C) state drawn) source =
        .ok schedule) :
    Flow.Ensures (transfer source destination owner keys amount)
      (World.initial state drawn) fun outcome reached =>
        ∀ transferred, outcome = .ok transferred →
          ∃ one ∈ reached.sent,
            landedTokens reached.sent = tokenInstructions one.transaction ∧
              ReadsPayment C crypto destination one.delivery
                (transferred.amount - transferred.fee)
                (scheduledFee schedule amount % 2 ^ 16 ≤ amount % 2 ^ 16) := by
  have start :
      Represents (⟨{}, World.initial state drawn⟩ : Session C) {} :=
    ⟨rfl, .initial state drawn⟩
  have clean : Clean [] (World.initial (C := C) state drawn).sent := .refl []
  have ends :
      Flow.Ensures
        (debiting (TransferPlan.load source destination keys amount)
          (·.stage source destination owner) owner TRANSFER_WITH_FEE_UNITS)
        (World.initial state drawn) fun outcome reached =>
          ExactlyOnce (fun _ => True) (fun _ => True) outcome reached ∧
            Returns (TransferPlan.load source destination keys amount)
              (TransferStaged · source destination owner) owner
              (World.initial state drawn) outcome reached :=
    ensures_debiting owner _ (TransferPlan.reading_load _ _ _ _)
      (fun _ _ => trivial) (fun _ _ => trivial)
      (fun plan => plan.ensures_stage source destination owner start clean)
      fun plan instructions log _ staged => by
        obtain ⟨inert, _, _, _, _, _, carried⟩ := staged.carries
        exact ⟨inert, _, trivial, carried⟩
  rw [transfer_eq]
  refine .map (ends.mono ?_)
  rintro (stop | plan) reached ⟨_, returns⟩ transferred ⟨⟩
  obtain ⟨loaded, instructions, log, receipt, staged, used, earlier, one,
    origin, sent, cleanBefore, consumption, landed, _⟩ := returns plan rfl
  have verified : used.verified = log.verified := by
    rcases origin with rfl | rfl <;> rfl
  obtain ⟨instruction, carried, fromSource, toDestination, _, contexts, _⟩ :=
    staged.contexts verified consumption.tracked
  obtain ⟨amountStated, feeStated, feeInForce⟩ :=
    TransferPlan.load_states loaded inForce
  refine ⟨one, by simp [sent], ?_, ?_⟩
  · have hasLanded : one.landed = true := by
      simp [Sent.landed, landed, Except.toBool]
    rw [sent, landedTokens_append, cleanBefore.landedTokens]
    simp [landedTokens, hasLanded]
  intro recipient payee paid found configured opens nothing
  obtain ⟨s, delivered⟩ := consumption.delivered
  have executes :
      Executes crypto withheldKey (C.tokenAccounts one.delivery.before)
        (.transfer source destination (plan.statement crypto)
          instruction.newDecryptableBalance)
        (C.tokenAccounts one.delivery.after) := by
    have carriedOut := contract.transfers s one.transaction one.signers
      receipt instruction _ _ _ (by rw [← delivered]; exact landed)
      (by rw [consumption.tokenInstructions]; exact carried)
      (by rw [← delivered]; exact contexts)
    rw [← delivered, fromSource, toDestination] at carriedOut
    exact carriedOut
  obtain ⟨payee', found', readable⟩ := executes.payment_read_iff different
    found configured opens nothing
  rw [amountStated, feeStated] at readable
  rw [← feeInForce]
  exact ⟨payee', found', readable⟩

/-! ## Two payments on a quiet cluster -/

namespace Quiet

open Transparent

/-- Alice has a million to spend confidentially, Bob has nothing. -/
def market : State where
  accounts _ := none
  tokens address :=
    if address = alice then
      some <| Layout.writeAccount <| (openAccount alice 0).withConfidential
        { emptyState with
          availableBalance := encrypt 1000000
          decryptableAvailableBalance := ⟨1000000⟩ }
    else if address = bob then some (Layout.writeAccount (openAccount bob 0))
    else if address = sharedMint.address then
      some (Layout.writeMint sharedMint)
    else none

def ownerKeys : ConfidentialKeys Transparent.crypto :=
  ⟨⟨⟨0⟩, ()⟩, ()⟩

/-- Alice pays Bob. -/
def pay (amount : Nat) : Flow (World cluster) Error ConfidentialTransfer :=
  transfer alice bob ⟨alice⟩ ownerKeys amount

/-- Whether a payment returned a fee, and Bob could read what is pending before
its transaction and not after it. -/
def unreadablePayment (fee : Nat)
    (ended : Except (Stop Error) ConfidentialTransfer × World cluster) :
    Bool :=
  match ended.1, ended.2.sent.getLast? with
  | .ok transferred, some one =>
      match cluster.tokenAccounts one.delivery.before bob,
          cluster.tokenAccounts one.delivery.after bob with
      | some before, some after =>
          decide
            (transferred.fee = fee ∧ before = openAccount bob 0 ∧
              (pendingBalance after ownerKeys).toOption = none)
      | _, _ => false
  | _, _ => false

/-- A payment of `2 ^ 16` with a fee of 164 returns and cannot be read: the low
half of the amount is zero. -/
theorem payment_of_65536_unreadable :
    TokenContract cluster Transparent.crypto ⟨0⟩ ∧
      unreadablePayment 164
        (Flow.exec (pay 65536) (World.initial market 0)) = true :=
  ⟨contract ⟨0⟩, by decide +kernel⟩

theorem market_schedule :
    scheduleInForce (World.initial (C := cluster) market 0) alice =
      .ok ⟨0, 5000, 25⟩ :=
  rfl

theorem payment_of_10000_readable_iff :
    Flow.Ensures (pay 10000) (World.initial market 0) fun outcome reached =>
      ∀ transferred, outcome = .ok transferred →
        ∃ one ∈ reached.sent,
          landedTokens reached.sent = tokenInstructions one.transaction ∧
            ReadsPayment cluster Transparent.crypto bob one.delivery
              (transferred.amount - transferred.fee)
              (scheduledFee ⟨0, 5000, 25⟩ 10000 % 2 ^ 16 ≤ 10000 % 2 ^ 16) :=
  payment_readable_iff (contract ⟨0⟩) market 0 alice bob ⟨alice⟩ ownerKeys 10000
    (by decide) market_schedule

end Quiet
end Remit
