import Remit.Confidential.Payments

/-!
# What the auditor learns

The amount of a transfer is encrypted for the auditor of the mint as well.  The
recipient gets its halves less those of the fee, which may be impossible to
read; the auditor gets the halves themselves, which are not.
-/

namespace Remit

open Flows

variable {C : Cluster} {crypto : Crypto}

/-- A transfer proof for an auditor encrypts the halves of the amount under the
auditor's key. -/
def Crypto.SplitsForAuditor (crypto : Crypto) : Prop :=
  ∀ available decryptable amount source aeKey destination auditor withheld
    basisPoints maximumFee proof,
    crypto.transferWithFeeSplitProofData available decryptable amount source
        aeKey destination (some auditor) withheld basisPoints maximumFee =
      .ok proof →
      crypto.Encrypts (crypto.secretOf auditor) (lowPart amount)
          proof.transferAmountCiphertextValidityProofDataWithCiphertext.ciphertextLo ∧
        crypto.Encrypts (crypto.secretOf auditor) (highPart amount)
          proof.transferAmountCiphertextValidityProofDataWithCiphertext.ciphertextHi

/-- The auditor of the mint of an account. -/
def auditorOf (world : World C) (source : Address) :
    Except Error (Option PodElGamalPubkey) := do
  let account ← loadAccount world source
  let mint ← loadMint world account.mint
  pure (mint.confidential.bind (·.auditorElgamalPubkey))

/-! ## Reading the halves -/

/-- The halves of an amount that was proven to be small can be read. -/
theorem decryptLoHi_halves
    {secret : crypto.Secret} {lo hi : PodElGamalCiphertext} {amount : Nat}
    (encryptsLow : crypto.Encrypts secret (lowPart amount) lo)
    (encryptsHigh : crypto.Encrypts secret (highPart amount) hi)
    (small : amount < 2 ^ 48) :
    decryptLoHi crypto secret lo hi = .ok amount := by
  have lowReadable : Readable (lowPart amount) := by
    unfold Readable lowPart
    omega
  have highReadable : Readable (highPart amount) := by
    unfold Readable highPart
    omega
  have lowRead : decryptU32 crypto secret lo = .ok (amount % 2 ^ 16) := by
    rw [decryptU32_eq encryptsLow (by unfold lowPart; rw [abs_lt]; omega),
      if_pos lowReadable]
    rfl
  have highRead : decryptU32 crypto secret hi = .ok (amount / 2 ^ 16) := by
    rw [decryptU32_eq encryptsHigh (by unfold highPart; rw [abs_lt]; omega),
      if_pos highReadable]
    rfl
  have shifted :
      checkedMul (amount / 2 ^ 16) (2 ^ TRANSFER_AMOUNT_LO_BITS) =
        some (amount / 2 ^ 16 * 2 ^ 16) :=
    if_pos (by simp only [TRANSFER_AMOUNT_LO_BITS]; omega)
  have added : checkedAdd (amount / 2 ^ 16 * 2 ^ 16) (amount % 2 ^ 16) =
      some amount := by
    unfold checkedAdd
    rw [if_pos (by omega), Nat.div_add_mod']
  unfold decryptLoHi
  rw [highRead, lowRead]
  simp only [bind, Except.bind, Option.bind, Except.toOption, shifted, added]
  rfl

/-- The auditor whom a proof is for is the one of the mint. -/
theorem auditor_eq_of_parsed
    {auditor parsed : Option PodElGamalPubkey} {invalid : String}
    (mapped : auditor.mapM (elgamalPubkey crypto · invalid) = .ok parsed) :
    parsed = auditor := by
  cases auditor with
  | none =>
      cases mapped
      rfl
  | some pubkey =>
      rw [Option.mapM_some] at mapped
      obtain ⟨same, read, mapped⟩ := except_bind_eq_ok mapped
      cases mapped
      unfold elgamalPubkey at read
      split at read
      case isTrue => exact congrArg some (Except.ok.inj read).symm
      case isFalse => cases read

/-- The ciphertexts of a prepared transfer are for the auditor of the mint. -/
theorem TransferPlan.prepare_audits
    {source destination : AccountSnapshot} {mint : MintSnapshot}
    {epoch amount : Nat} {keys : ConfidentialKeys crypto}
    {plan : TransferPlan} {auditor : PodElGamalPubkey}
    (splits : crypto.SplitsForAuditor)
    (prepared :
      TransferPlan.prepare source destination mint epoch keys amount =
        .ok plan)
    (audited : mint.confidential.bind (·.auditorElgamalPubkey) = some auditor) :
    crypto.Encrypts (crypto.secretOf auditor) (lowPart amount) plan.auditorLo ∧
      crypto.Encrypts (crypto.secretOf auditor) (highPart amount)
        plan.auditorHi := by
  obtain ⟨policy, configured, isAuditor⟩ := Option.bind_eq_some_iff.mp audited
  unfold TransferPlan.prepare at prepared
  rw [configured] at prepared
  obtain ⟨_, _, prepared⟩ := except_bind_eq_ok prepared
  obtain ⟨_, _, prepared⟩ := except_bind_eq_ok prepared
  obtain ⟨_, _, prepared⟩ := except_bind_eq_ok prepared
  obtain ⟨_, _, prepared⟩ := except_bind_eq_ok prepared
  obtain ⟨_, _, prepared⟩ := except_bind_eq_ok prepared
  obtain ⟨_, same, prepared⟩ := except_bind_eq_ok prepared
  cases same
  obtain ⟨parsed, mapped, prepared⟩ := except_bind_eq_ok prepared
  obtain rfl := auditor_eq_of_parsed mapped
  rw [isAuditor] at prepared
  obtain ⟨_, _, prepared⟩ := except_bind_eq_ok prepared
  obtain ⟨_, _, prepared⟩ := except_bind_eq_ok prepared
  obtain ⟨_, _, prepared⟩ := except_bind_eq_ok prepared
  obtain ⟨_, _, prepared⟩ := except_bind_eq_ok prepared
  obtain ⟨_, _, prepared⟩ := except_bind_eq_ok prepared
  obtain ⟨_, _, prepared⟩ := except_bind_eq_ok prepared
  obtain ⟨proof, generated, prepared⟩ := except_bind_eq_ok prepared
  cases prepared
  cases made : crypto.transferWithFeeSplitProofData _ _ _ _ _ _ _ _ _ _ with
  | error text =>
      rw [made] at generated
      cases generated
  | ok other =>
      rw [made] at generated
      cases generated
      exact splits _ _ _ _ _ _ _ _ _ _ _ made

theorem TransferPlan.load_audits
    {plan : TransferPlan} {world : World C} {source destination : Address}
    {keys : ConfidentialKeys crypto} {amount : Nat} {auditor : PodElGamalPubkey}
    (splits : crypto.SplitsForAuditor)
    (loaded :
      (Flow.exec (TransferPlan.load source destination keys amount) world).1 =
        .ok plan)
    (audited : auditorOf world source = .ok (some auditor)) :
    crypto.Encrypts (crypto.secretOf auditor) (lowPart amount) plan.auditorLo ∧
      crypto.Encrypts (crypto.secretOf auditor) (highPart amount)
        plan.auditorHi := by
  obtain ⟨payer, payee, mint, payerLoaded, mintLoaded, prepared⟩ :=
    TransferPlan.load_eq_ok loaded
  obtain ⟨_, samePayer, audited⟩ := except_bind_eq_ok audited
  obtain ⟨_, sameMint, audited⟩ := except_bind_eq_ok audited
  obtain rfl := Except.ok.inj (payerLoaded.symm.trans samePayer)
  obtain rfl := Except.ok.inj (mintLoaded.symm.trans sameMint)
  exact TransferPlan.prepare_audits splits prepared (Except.ok.inj audited)

/-- A loaded plan states the amount. -/
theorem TransferPlan.load_amount
    {plan : TransferPlan} {world : World C} {source destination : Address}
    {keys : ConfidentialKeys crypto} {amount : Nat}
    (loaded :
      (Flow.exec (TransferPlan.load source destination keys amount) world).1 =
        .ok plan) :
    (plan.statement crypto).amount = amount := by
  obtain ⟨_, _, _, _, _, prepared⟩ := TransferPlan.load_eq_ok loaded
  obtain ⟨_, _, _, _, _, _, _, _, stated, _⟩ :=
    TransferPlan.prepare_eq_ok prepared
  rw [stated]

/-! ## What moves -/

/-- Only amounts whose halves can be read are moved. -/
theorem Executes.transfer_small
    {withheldKey : PodElGamalPubkey} {before after : TokenAccounts}
    {source destination : Address} {statement : TransferStatement}
    {newDecryptable : DecryptableBalance}
    (executes :
      Executes crypto withheldKey before
        (.transfer source destination statement newDecryptable) after) :
    statement.amount < 2 ^ 48 := by
  cases executes with
  | transfer _ _ _ _ _ _ _ _ _ _ small => exact small
  | transferToSelf _ _ _ _ small => exact small

/-- What a transfer that returns has loaded, staged and landed. -/
theorem ensures_transfer_returns
    (state : C.State) (drawn : Nat) (source destination : Address)
    (owner : Keypair) (keys : ConfidentialKeys crypto) (amount : Nat) :
    Flow.Ensures
      (debiting (TransferPlan.load source destination keys amount)
        (·.stage source destination owner) owner TRANSFER_WITH_FEE_UNITS)
      (World.initial state drawn) fun outcome reached =>
        ExactlyOnce (fun _ => True) (fun _ => True) outcome reached ∧
          Returns (TransferPlan.load source destination keys amount)
            (TransferStaged · source destination owner) owner
            (World.initial (C := C) state drawn) outcome reached := by
  have start :
      Represents (⟨{}, World.initial state drawn⟩ : Session C) {} :=
    ⟨rfl, .initial state drawn⟩
  have clean : Clean [] (World.initial (C := C) state drawn).sent := .refl []
  refine ensures_debiting owner _ (TransferPlan.reading_load _ _ _ _)
    (fun _ _ => trivial) (fun _ _ => trivial)
    (fun plan => plan.ensures_stage source destination owner start clean) ?_
  intro plan instructions log _ staged
  obtain ⟨inert, _, _, _, _, _, carried⟩ := staged.carries
  exact ⟨inert, _, trivial, carried⟩

/-- When a transfer returns, one transaction has moved the amount, and the
auditor of the mint reads exactly that amount from the ciphertexts that are
returned, which are those that this transaction carries. -/
theorem transfers_are_audited
    {withheldKey : PodElGamalPubkey}
    (contract : TokenContract C crypto withheldKey)
    (splits : crypto.SplitsForAuditor) (state : C.State) (drawn : Nat)
    (source destination : Address) (owner : Keypair)
    (keys : ConfidentialKeys crypto) (amount : Nat)
    (auditor : ElGamalKeypair crypto.Secret)
    (opens : auditor.secret = crypto.secretOf auditor.pubkey)
    (audited :
      auditorOf (World.initial (C := C) state drawn) source =
        .ok (some auditor.pubkey)) :
    Flow.Ensures (transfer source destination owner keys amount)
      (World.initial state drawn) fun outcome reached =>
        ∀ revealed, outcome = .ok revealed →
          revealed.audit auditor = .ok amount ∧
            ∃ one ∈ reached.sent, ∃ request statement,
              landedTokens reached.sent = [.transferWithFee request] ∧
                tokenInstructions one.transaction =
                  [.transferWithFee request] ∧
                request.auditorCiphertextLo = revealed.auditorCiphertextLo ∧
                request.auditorCiphertextHi = revealed.auditorCiphertextHi ∧
                statement.amount = amount ∧
                Executes crypto withheldKey
                  (C.tokenAccounts one.delivery.before)
                  (.transfer source destination statement
                    request.newDecryptableBalance)
                  (C.tokenAccounts one.delivery.after) := by
  have ends := ensures_transfer_returns (C := C) state drawn source destination
    owner keys amount
  rw [transfer_eq]
  refine .map (ends.mono ?_)
  rintro (stop | plan) reached ⟨_, returns⟩ revealed ⟨⟩
  obtain ⟨loaded, instructions, log, receipt, staged, used, earlier, one,
    origin, sent, cleanBefore, consumption, landed, _⟩ := returns plan rfl
  have verified : used.verified = log.verified := by
    rcases origin with rfl | rfl <;> rfl
  obtain ⟨request, carried, fromSource, toDestination, _, contexts, _⟩ :=
    staged.contexts verified consumption.tracked
  obtain ⟨_, _, _, _, _, _, carriedToo⟩ := staged.carries
  have same := TokenInstruction.transferWithFee.inj
    (List.cons.inj (carried.symm.trans carriedToo)).1
  have carries : tokenInstructions one.transaction =
      [.transferWithFee request] := by
    rw [consumption.tokenInstructions]
    exact carried
  have lands : landedTokens reached.sent = [.transferWithFee request] := by
    have hasLanded : one.landed = true := by
      simp [Sent.landed, landed, Except.toBool]
    rw [sent, landedTokens_append, cleanBefore.landedTokens, ← carries]
    simp [landedTokens, hasLanded]
  have executes :
      Executes crypto withheldKey (C.tokenAccounts one.delivery.before)
        (.transfer source destination (plan.statement crypto)
          request.newDecryptableBalance)
        (C.tokenAccounts one.delivery.after) := by
    obtain ⟨s, delivered⟩ := consumption.delivered
    have carriedOut := contract.transfers s one.transaction one.signers
      receipt _ _ _ _ (by rw [← delivered]; exact landed) carries
      (by rw [← delivered]; exact contexts)
    rw [← delivered, fromSource, toDestination] at carriedOut
    exact carriedOut
  have stated := TransferPlan.load_amount loaded
  have small := executes.transfer_small
  rw [stated] at small
  obtain ⟨encryptsLow, encryptsHigh⟩ :=
    TransferPlan.load_audits splits loaded audited
  refine ⟨?_, one, by simp [sent], request, plan.statement crypto, lands,
    carries, ?_, ?_, stated, executes⟩
  · unfold ConfidentialTransfer.audit
    rw [opens]
    exact decryptLoHi_halves encryptsLow encryptsHigh small
  · rw [same]
    rfl
  · rw [same]
    rfl

/-! ## A payment that only the auditor reads -/

namespace Transparent

/-- A small number is a ciphertext of itself. -/
theorem encrypts_self {number : Nat}
    (small : number < 2 ^ 64) :
    Transparent.crypto.Encrypts () (number : Nat) ⟨number⟩ := by
  have valid : number < order := by
    unfold order
    omega
  refine ⟨decide_eq_true valid, ?_⟩
  exact (Int.cast_natCast number).symm

theorem splitsForAuditor : Transparent.crypto.SplitsForAuditor := by
  intro available decryptable amount source aeKey destination auditor withheld
    basisPoints maximumFee proof made
  change transferProof available decryptable.code amount _ = .ok proof at made
  unfold transferProof at made
  split at made
  case isTrue => cases made
  case isFalse possible =>
      push Not at possible
      have small := possible.2.2
      split at made
      case h_1 => cases made
      case h_2 =>
          split at made
          case isTrue => cases made
          case isFalse =>
              cases made
              exact ⟨encrypts_self (by omega), encrypts_self (by omega)⟩

end Transparent

namespace Quiet

open Transparent

def auditorKeys : ElGamalKeypair Transparent.crypto.Secret :=
  ⟨⟨7⟩, ()⟩

/-- The mint of Alice and Bob with an auditor. -/
def auditedMint : MintSnapshot :=
  { sharedMint with confidential := some ⟨none, true, some auditorKeys.pubkey⟩ }

def auditedMarket : State :=
  { market with
    tokens := fun address =>
      if address = auditedMint.address then some (Layout.writeMint auditedMint)
      else market.tokens address }

end Quiet

/-- Bob cannot read a payment of `2 ^ 16`, but the auditor can. -/
theorem payment_of_65536_is_audited :
    let ended := Flow.exec (Quiet.pay 65536)
      (World.initial Quiet.auditedMarket 0)
    Quiet.unreadablePayment 164 ended = true ∧
      ∃ revealed, ended.1 = .ok revealed ∧
        revealed.audit Quiet.auditorKeys = .ok 65536 := by
  have unreadable : Quiet.unreadablePayment 164 (Flow.exec (Quiet.pay 65536)
      (World.initial Quiet.auditedMarket 0)) = true := by
    decide +kernel
  refine ⟨unreadable, ?_⟩
  have audited := transfers_are_audited (Quiet.contract ⟨0⟩)
    Transparent.splitsForAuditor Quiet.auditedMarket 0 Transparent.alice
    Transparent.bob ⟨Transparent.alice⟩ Quiet.ownerKeys 65536 Quiet.auditorKeys
    rfl rfl
  cases ended : (Flow.exec (Quiet.pay 65536)
      (World.initial Quiet.auditedMarket 0)).1 with
  | error stop =>
      unfold Quiet.unreadablePayment at unreadable
      rw [ended] at unreadable
      cases unreadable
  | ok revealed => exact ⟨revealed, rfl, (audited.holds revealed ended).1⟩

end Remit
