import Remit.Confidential
import Remit.Token.Effects

/-!
# What the readers return

The readers return exactly what the ciphertexts encrypt, as long as the
plaintexts are integers far below the order of the scalar field.  What a
successful preparation has read and worked out is spelled out as well.
-/

namespace Remit

open Flows

variable {crypto : Crypto}

/-- The secret of the keys belongs to the account they are used with. -/
def ConfidentialKeys.Opens (keys : ConfidentialKeys crypto)
    (state : ConfidentialTransferAccount) : Prop :=
  keys.elgamal.secret = crypto.secretOf state.elgamalPubkey

/-- The integers that small decryption finds. -/
def Readable (value : Int) : Prop :=
  0 ≤ value ∧ value < 2 ^ 32

instance (value : Int) : Decidable (Readable value) :=
  inferInstanceAs (Decidable (_ ∧ _))

/-- The halves of the pending balance encrypt two integers. -/
structure Pending (crypto : Crypto) (state : ConfidentialTransferAccount)
    (low high : Int) : Prop where
  encryptsLow : crypto.Encrypts (crypto.secretOf state.elgamalPubkey) low
    state.pendingBalanceLo
  encryptsHigh : crypto.Encrypts (crypto.secretOf state.elgamalPubkey) high
    state.pendingBalanceHi
  lowSmall : |low| < 2 ^ 200
  highSmall : |high| < 2 ^ 200

theorem decryptU32_eq
    {secret : crypto.Secret} {value : Int} {pod : PodElGamalCiphertext}
    (encrypts : crypto.Encrypts secret value pod) (small : |value| < 2 ^ 200) :
    decryptU32 crypto secret pod =
      if Readable value then .ok value.toNat
      else .error
        (.crypto "ciphertext does not decrypt to a 32-bit amount") := by
  unfold decryptU32 elgamalCiphertext
  rw [if_pos encrypts.1]
  dsimp only [bind, Except.bind]
  rw [encrypts.decryptU32 small]
  by_cases readable : 0 ≤ value ∧ value < 2 ^ 32
  · rw [if_pos readable, if_pos (show Readable value from readable)]
    rfl
  · rw [if_neg readable, if_neg (show ¬ Readable value from readable)]
    rfl

private theorem checkedAdd_eq_some
    {left right sum : Nat} (added : checkedAdd left right = some sum) :
    sum = left + right := by
  unfold checkedAdd at added
  split at added
  · exact (Option.some.inj added).symm
  · cases added

private theorem checkedMul_eq_some
    {left right product : Nat}
    (multiplied : checkedMul left right = some product) :
    product = left * right := by
  unfold checkedMul at multiplied
  split at multiplied
  · exact (Option.some.inj multiplied).symm
  · cases multiplied

theorem decryptLoHi_eq_ok
    {secret : crypto.Secret} {lo hi : PodElGamalCiphertext} {read : Nat}
    (decrypted : decryptLoHi crypto secret lo hi = .ok read) :
    ∃ low high,
      decryptU32 crypto secret lo = .ok low ∧
        decryptU32 crypto secret hi = .ok high ∧
        read = high * 2 ^ 16 + low := by
  obtain ⟨high, highRead, combined⟩ := except_bind_eq_ok decrypted
  dsimp only at combined
  split at combined
  case h_2 => cases combined
  case h_1 amount parts =>
      cases combined
      simp only [Option.bind_eq_bind, Option.bind_eq_some_iff] at parts
      obtain ⟨shifted, multiplied, low, lowRead, added⟩ := parts
      rw [checkedMul_eq_some multiplied] at added
      rcases lowEq : decryptU32 crypto secret lo with error | value
      · rw [lowEq] at lowRead
        cases lowRead
      · rw [lowEq] at lowRead
        cases lowRead
        exact ⟨low, high, rfl, highRead, checkedAdd_eq_some added⟩

/-- The pending balance is read exactly when both halves can be read, and is
then their sum. -/
theorem pendingBalance_eq
    {account : AccountSnapshot} {state : ConfidentialTransferAccount}
    {keys : ConfidentialKeys crypto} {low high : Int}
    (configured : account.confidential = some state)
    (opens : keys.Opens state) (pending : Pending crypto state low high) :
    pendingBalance account keys =
      if Readable high then
        if Readable low then .ok (low + high * 2 ^ 16).toNat
        else .error (.crypto "lo/hi amounts overflow or fail to decrypt")
      else .error
        (.crypto "ciphertext does not decrypt to a 32-bit amount") := by
  unfold pendingBalance AccountSnapshot.requireConfidential
  rw [configured]
  show decryptLoHi crypto keys.elgamal.secret _ _ = _
  unfold decryptLoHi
  rw [opens, decryptU32_eq pending.encryptsHigh pending.highSmall,
    decryptU32_eq pending.encryptsLow pending.lowSmall]
  by_cases highReadable : Readable high
  · by_cases lowReadable : Readable low
    · rw [if_pos highReadable, if_pos lowReadable, if_pos highReadable,
        if_pos lowReadable]
      obtain ⟨highNonneg, highBelow⟩ := highReadable
      obtain ⟨lowNonneg, lowBelow⟩ := lowReadable
      have shifted :
          checkedMul high.toNat (2 ^ TRANSFER_AMOUNT_LO_BITS) =
            some (high.toNat * 65536) :=
        if_pos (by simp only [TRANSFER_AMOUNT_LO_BITS]; omega)
      have added :
          checkedAdd (high.toNat * 65536) low.toNat =
            some (low + high * 65536).toNat := by
        rw [checkedAdd, if_pos (by omega)]
        congr 1
        omega
      simp [bind, Except.bind, Except.toOption, shifted, added]
      rfl
    · rw [if_pos highReadable, if_neg lowReadable, if_pos highReadable,
        if_neg lowReadable]
      rcases shifted :
          checkedMul high.toNat (2 ^ TRANSFER_AMOUNT_LO_BITS) with _ | product
      · simp [bind, Except.bind, Except.toOption, shifted]
        rfl
      · simp [bind, Except.bind, Except.toOption, shifted]
        rfl
  · rw [if_neg highReadable, if_neg highReadable]
    rfl

theorem pendingBalance_eq_ok_iff
    {account : AccountSnapshot} {state : ConfidentialTransferAccount}
    {keys : ConfidentialKeys crypto} {low high : Int} {read : Nat}
    (configured : account.confidential = some state)
    (opens : keys.Opens state) (pending : Pending crypto state low high) :
    pendingBalance account keys = .ok read ↔
      Readable low ∧ Readable high ∧ (read : Int) = low + high * 2 ^ 16 := by
  rw [pendingBalance_eq configured opens pending]
  split
  case isFalse unreadable =>
      simp [unreadable]
  case isTrue highReadable =>
      split
      case isFalse unreadable => simp [unreadable]
      case isTrue lowReadable =>
          simp only [Except.ok.injEq, lowReadable, highReadable, true_and]
          have := highReadable.1
          have := lowReadable.1
          omega

/-- The available balance is read exactly when the counters agree and the
owner's copy decrypts. -/
theorem availableBalance_eq_ok_iff
    {account : AccountSnapshot} {state : ConfidentialTransferAccount}
    {keys : ConfidentialKeys crypto} {read : Nat}
    (configured : account.confidential = some state) :
    availableBalance account keys = .ok read ↔
      state.expectedPendingBalanceCreditCounter =
          state.actualPendingBalanceCreditCounter ∧
        crypto.validDecryptable state.decryptableAvailableBalance = true ∧
        crypto.aeDecrypt keys.ae state.decryptableAvailableBalance =
          some read := by
  unfold availableBalance AccountSnapshot.requireConfidential aeCiphertext
  rw [configured]
  by_cases agree :
      state.expectedPendingBalanceCreditCounter =
        state.actualPendingBalanceCreditCounter
  · by_cases valid :
        crypto.validDecryptable state.decryptableAvailableBalance = true
    · rcases decrypted :
          crypto.aeDecrypt keys.ae state.decryptableAvailableBalance with
        _ | amount
      · simp [bind, Except.bind, agree, valid, decrypted, throw, throwThe,
          MonadExceptOf.throw]
      · simp [bind, Except.bind, agree, valid, decrypted, pure, Except.pure]
    · simp [bind, Except.bind, agree, valid]
  · simp [bind, Except.bind, agree, throw, throwThe, MonadExceptOf.throw]

/-- Different counters are reported before anything else is looked at. -/
theorem availableBalance_stale
    {account : AccountSnapshot} {state : ConfidentialTransferAccount}
    {keys : ConfidentialKeys crypto}
    (configured : account.confidential = some state)
    (differ :
      state.expectedPendingBalanceCreditCounter ≠
        state.actualPendingBalanceCreditCounter) :
    availableBalance account keys =
      .error (staleBalance account.address
        state.expectedPendingBalanceCreditCounter
        state.actualPendingBalanceCreditCounter) := by
  unfold availableBalance AccountSnapshot.requireConfidential
  rw [configured]
  simp [bind, Except.bind, differ, throw, throwThe, MonadExceptOf.throw]

theorem withheldConfidentialFee_eq_ok_iff
    {account : AccountSnapshot} {withheld : ConfidentialTransferFeeAmount}
    {authority : ElGamalKeypair crypto.Secret} {fees : Int} {read : Nat}
    (present : account.confidentialWithheld = some withheld)
    (encrypts :
      crypto.Encrypts authority.secret fees withheld.withheldAmount)
    (small : |fees| < 2 ^ 200) :
    withheldConfidentialFee account authority = .ok read ↔
      Readable fees ∧ (read : Int) = fees := by
  unfold withheldConfidentialFee
  rw [present]
  show decryptU32 crypto authority.secret withheld.withheldAmount = _ ↔ _
  rw [decryptU32_eq encrypts small]
  split
  case isFalse unreadable => simp [unreadable]
  case isTrue readable =>
      simp only [Except.ok.injEq, readable, true_and]
      have := readable.1
      omega

/-! ## What a preparation has read -/

/-- `applyPendingBalance` is prepared exactly when both balances are read and
their sum fits 64 bits. -/
theorem ApplyPlan.prepare_eq_ok_iff
    {account : AccountSnapshot} {state : ConfidentialTransferAccount}
    {keys : ConfidentialKeys crypto} {plan : ApplyPlan}
    (configured : account.confidential = some state) :
    ApplyPlan.prepare account keys = .ok plan ↔
      ∃ available pending,
        availableBalance account keys = .ok available ∧
          pendingBalance account keys = .ok pending ∧
          available + pending < 2 ^ 64 ∧
          plan =
            { newAvailable := available + pending
              newDecryptable := crypto.aeEncrypt keys.ae (available + pending)
              credits := state.pendingBalanceCreditCounter } := by
  unfold ApplyPlan.prepare AccountSnapshot.requireConfidential sumOrPanic
  rw [configured]
  rcases availableBalance account keys with _ | available
  · simp [bind, Except.bind, Except.mapError]
  rcases pendingBalance account keys with _ | pending
  · simp [bind, Except.bind, Except.mapError]
  by_cases fits : available + pending < 2 ^ 64
  · simp only [bind, Except.bind, Except.mapError, fits, if_true, pure,
      Except.pure, Except.ok.injEq]
    constructor
    · rintro rfl
      exact ⟨available, pending, rfl, rfl, fits, rfl⟩
    · rintro ⟨_, _, rfl, rfl, _, rfl⟩
      rfl
  · simp only [bind, Except.bind, Except.mapError, fits, if_false]
    constructor
    · intro impossible
      cases impossible
    · rintro ⟨_, _, same, same', fits', _⟩
      cases same
      cases same'
      exact absurd fits' fits

private theorem requireSufficient_eq_ok
    {available requested : Nat} {done : Unit}
    (checked : requireSufficient available requested = .ok done) :
    requested ≤ available := by
  by_contra short
  rw [requireSufficient, if_pos (by omega)] at checked
  cases checked

theorem ApplyPlan.prepare_configured
    {account : AccountSnapshot} {keys : ConfidentialKeys crypto}
    {plan : ApplyPlan}
    (prepared : ApplyPlan.prepare account keys = .ok plan) :
    ∃ state, account.confidential = some state := by
  obtain ⟨_, available, _⟩ := except_bind_eq_ok prepared
  obtain ⟨state, required, _⟩ := except_bind_eq_ok (except_mapError_eq_ok available)
  exact ⟨state, AccountSnapshot.requireConfidential_eq_ok required⟩

/-- What the proofs of a prepared transfer state. -/
def TransferPlan.statement (crypto : Crypto) (plan : TransferPlan) :
    TransferStatement where
  against := crypto.provenBalance plan.proof.equalityProofData.bytes
  amount :=
    crypto.provenAmount
      plan.proof.transferAmountCiphertextValidityProofDataWithCiphertext.proofData.bytes
  fee := crypto.provenFee plan.proof.feeCiphertextValidityProofData.bytes

private theorem elgamalCiphertext_eq_ok
    {pod ciphertext : PodElGamalCiphertext}
    (parsed : elgamalCiphertext crypto pod = .ok ciphertext) :
    ciphertext = pod := by
  unfold elgamalCiphertext at parsed
  split at parsed
  · exact (Except.ok.inj parsed).symm
  · cases parsed

private theorem ofGenerator_eq_ok
    {α : Type} {outcome : Except String α} {a : α}
    (generated : ofGenerator outcome = .ok a) : outcome = .ok a := by
  cases outcome with
  | error text => cases generated
  | ok b => exact congrArg Except.ok (Except.ok.inj generated)

/-- A prepared transfer states the amount, the fee of the schedule in force and
the ciphertext it has read, and leaves the owner the rest. -/
theorem TransferPlan.prepare_eq_ok
    {source destination : AccountSnapshot} {mint : MintSnapshot}
    {epoch amount : Nat} {keys : ConfidentialKeys crypto}
    {plan : TransferPlan}
    (prepared :
      TransferPlan.prepare source destination mint epoch keys amount =
        .ok plan) :
    ∃ state available config,
      source.confidential = some state ∧
        availableBalance source keys = .ok available ∧ amount ≤ available ∧
        mint.requireTransferFee = .ok config ∧
        config.calculateEpochFee epoch amount = some plan.fee ∧
        plan.statement crypto =
          ⟨state.availableBalance, amount, plan.fee⟩ ∧
        plan.newDecryptable =
          crypto.aeEncrypt keys.ae (available - amount) ∧
        plan.mint = mint.address ∧
        ∃ decryptable pubkey auditor withheld,
          crypto.transferWithFeeSplitProofData state.availableBalance
            decryptable amount keys.elgamal keys.ae pubkey auditor withheld
            (config.getEpochFee epoch).transferFeeBasisPoints
            (config.getEpochFee epoch).maximumFee = .ok plan.proof := by
  obtain ⟨state, required, prepared⟩ := except_bind_eq_ok prepared
  obtain ⟨available, read, prepared⟩ := except_bind_eq_ok prepared
  obtain ⟨_, checked, prepared⟩ := except_bind_eq_ok prepared
  obtain ⟨_, _, prepared⟩ := except_bind_eq_ok prepared
  obtain ⟨_, _, prepared⟩ := except_bind_eq_ok prepared
  obtain ⟨_, _, prepared⟩ := except_bind_eq_ok prepared
  obtain ⟨_, _, prepared⟩ := except_bind_eq_ok prepared
  obtain ⟨_, _, prepared⟩ := except_bind_eq_ok prepared
  obtain ⟨_, _, prepared⟩ := except_bind_eq_ok prepared
  obtain ⟨config, feeConfig, prepared⟩ := except_bind_eq_ok prepared
  obtain ⟨fee, expected, prepared⟩ := except_bind_eq_ok prepared
  obtain ⟨ciphertext, parsed, prepared⟩ := except_bind_eq_ok prepared
  obtain ⟨_, _, prepared⟩ := except_bind_eq_ok prepared
  obtain ⟨proof, generated, prepared⟩ := except_bind_eq_ok prepared
  cases prepared
  obtain ⟨config', feeConfig', charged⟩ := expectedFee_eq_ok expected
  rw [feeConfig] at feeConfig'
  cases feeConfig'
  obtain ⟨against, stated, feeStated⟩ :=
    crypto.transfer_statement _ _ _ _ _ _ _ _ _ _ _
      (ofGenerator_eq_ok generated)
  have feeEq : some fee = some _ := charged.symm.trans feeStated
  obtain rfl := elgamalCiphertext_eq_ok parsed
  refine ⟨state, available, config,
    AccountSnapshot.requireConfidential_eq_ok required, read,
    requireSufficient_eq_ok checked, feeConfig, charged, ?_, rfl, rfl, _, _, _,
    _, ofGenerator_eq_ok generated⟩
  simp only [TransferPlan.statement, against, stated,
    ← Option.some.inj feeEq]

/-- What the local checks of `withdraw` have found. -/
theorem withdrawable_eq_ok
    {account : AccountSnapshot} {keys : ConfidentialKeys crypto}
    {amount available : Nat} {ciphertext : PodElGamalCiphertext}
    (checked :
      withdrawable account keys amount = .ok (ciphertext, available)) :
    ∃ state,
      account.confidential = some state ∧
        availableBalance account keys = .ok available ∧ amount ≤ available ∧
        ciphertext = state.availableBalance := by
  obtain ⟨available', read, checked⟩ := except_bind_eq_ok checked
  obtain ⟨_, enough, checked⟩ := except_bind_eq_ok checked
  obtain ⟨state, required, checked⟩ := except_bind_eq_ok checked
  obtain ⟨ciphertext', parsed, checked⟩ := except_bind_eq_ok checked
  cases checked
  exact ⟨state, AccountSnapshot.requireConfidential_eq_ok required, read,
    requireSufficient_eq_ok enough, elgamalCiphertext_eq_ok parsed⟩

/-- A prepared withdrawal states the ciphertext it was given. -/
theorem WithdrawPlan.prepare_eq_ok
    {mint : MintSnapshot} {keys : ConfidentialKeys crypto}
    {ciphertext : PodElGamalCiphertext} {balance amount : Nat}
    {plan : WithdrawPlan}
    (prepared :
      WithdrawPlan.prepare mint keys ciphertext balance amount = .ok plan) :
    amount ≤ balance ∧
      crypto.provenBalance plan.proof.equalityProofData.bytes = ciphertext ∧
      plan.newDecryptable = crypto.aeEncrypt keys.ae (balance - amount) := by
  obtain ⟨proof, generated, prepared⟩ := except_bind_eq_ok prepared
  obtain ⟨remaining, difference, prepared⟩ := except_bind_eq_ok prepared
  cases prepared
  obtain ⟨enough, against⟩ :=
    crypto.withdraw_statement _ _ _ _ _
      (ofGenerator_eq_ok (except_mapError_eq_ok generated))
  rw [differenceOrPanic, if_neg (by omega)] at difference
  cases difference
  exact ⟨enough, against, rfl⟩

end Remit
