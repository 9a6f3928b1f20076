import Remit.Token.Effects

/-!
# Transparent cryptography

An instance of `Crypto` that hides nothing: a ciphertext is the number it
encrypts, reduced modulo the order of the scalar field, and a proof is the
number it is about.  What the chain does to such accounts can be computed.
-/

namespace Remit

namespace Transparent

/-- The order of the scalar field. -/
def order : Nat :=
  2 ^ 252 + 27742317777372353535851937790883648493

/-- A proof about a number. -/
def proofOf (width contextSize n : Nat) : ProofData :=
  ⟨leBytes width n, contextSize⟩

theorem leValue_proofOf
    {width contextSize n : Nat} (fits : n < 256 ^ width) :
    leValue (proofOf width contextSize n).bytes = n :=
  leValue_leBytes fits

/-- The proofs of a transfer, unless there is not enough to spend. -/
def transferProof (available : PodElGamalCiphertext) (balance amount : Nat)
    (schedule : TransferFee) : Except String TransferWithFeeProofData :=
  if balance < amount ∨ 2 ^ 256 ≤ available.code ∨ 2 ^ 64 ≤ amount then
    .error "not enough funds"
  else
    match schedule.calculateFee amount with
    | none => .error "fee calculation"
    | some fee =>
        if 2 ^ 64 ≤ fee then .error "fee calculation"
        else
          .ok
            { equalityProofData := proofOf 32 128 available.code
              transferAmountCiphertextValidityProofDataWithCiphertext :=
                { proofData := proofOf 8 544 amount
                  ciphertextLo := ⟨amount % 2 ^ 16⟩
                  ciphertextHi := ⟨amount / 2 ^ 16⟩ }
              percentageWithCapProofData := proofOf 8 104 fee
              feeCiphertextValidityProofData := proofOf 8 352 fee
              rangeProofData := proofOf 32 264 amount }

/-- The proofs of a withdrawal, unless there is not enough to withdraw. -/
def withdrawProof (available : PodElGamalCiphertext) (balance amount : Nat) :
    Except String WithdrawProofData :=
  if balance < amount ∨ 2 ^ 256 ≤ available.code then
    .error "not enough funds"
  else
    .ok
      { equalityProofData := proofOf 32 128 available.code
        rangeProofData := proofOf 32 264 amount }

theorem transferProof_eq_ok
    {available : PodElGamalCiphertext} {balance amount : Nat}
    {schedule : TransferFee} {proof : TransferWithFeeProofData}
    (made : transferProof available balance amount schedule = .ok proof) :
    leValue proof.equalityProofData.bytes = available.code ∧
      leValue
        proof.transferAmountCiphertextValidityProofDataWithCiphertext.proofData.bytes =
          amount ∧
      schedule.calculateFee amount =
        some (leValue proof.feeCiphertextValidityProofData.bytes) := by
  unfold transferProof at made
  split at made
  case isTrue => cases made
  case isFalse possible =>
      split at made
      case h_1 => cases made
      case h_2 fee charged =>
          split at made
          case isTrue => cases made
          case isFalse small =>
              cases made
              push Not at possible small
              have wide : available.code < 256 ^ 32 := by
                norm_num at possible ⊢
                omega
              refine ⟨leValue_proofOf wide, ?_, ?_⟩
              · exact leValue_proofOf (by norm_num at possible ⊢; omega)
              · rw [leValue_proofOf (by norm_num at small ⊢; omega)]
                exact charged

theorem withdrawProof_eq_ok
    {available : PodElGamalCiphertext} {balance amount : Nat}
    {proof : WithdrawProofData}
    (made : withdrawProof available balance amount = .ok proof) :
    amount ≤ balance ∧
      leValue proof.equalityProofData.bytes = available.code := by
  unfold withdrawProof at made
  split at made
  case isTrue => cases made
  case isFalse possible =>
      cases made
      push Not at possible
      refine ⟨possible.1, leValue_proofOf ?_⟩
      norm_num at possible ⊢
      omega

theorem val_code
    {pod : PodElGamalCiphertext} (valid : decide (pod.code < order) = true) :
    ((pod.code : ZMod order)).val = pod.code :=
  ZMod.val_cast_of_lt (of_decide_eq_true valid)

/-- Cryptography in which every ciphertext shows what it encrypts. -/
def crypto : Crypto where
  order := order
  Secret := Unit
  AeKey := Unit
  validCiphertext pod := decide (pod.code < order)
  validPubkey _ := true
  validDecryptable _ := true
  decryptU32 _ pod := if pod.code < 2 ^ 32 then some pod.code else none
  aeEncrypt _ amount := ⟨amount⟩
  aeDecrypt _ pod := if pod.code < 2 ^ 64 then some pod.code else none
  buildPubkeyValidityProofData keypair := .ok (proofOf 32 32 keypair.pubkey.code)
  transferWithFeeSplitProofData available decryptable amount _ _ _ _ _
      basisPoints maximumFee :=
    transferProof available decryptable.code amount ⟨0, maximumFee, basisPoints⟩
  withdrawProofData available balance amount _ :=
    withdrawProof available balance amount
  secretOf _ := ()
  plaintext _ pod := pod.code
  provenBalance bytes := ⟨leValue bytes⟩
  provenAmount := leValue
  provenFee := leValue
  order_large := by decide
  decryptU32_eq := fun _ pod valid => by
    rw [val_code valid]
  validDecryptable_aeEncrypt := fun _ _ => rfl
  aeDecrypt_aeEncrypt := fun _ _ fits => if_pos fits
  aeDecrypt_lt := fun _ pod amount decrypted => by
    split at decrypted
    · cases decrypted
      assumption
    · cases decrypted
  transfer_statement := fun _ _ _ _ _ _ _ _ _ _ _ made => by
    obtain ⟨balance, amount, fee⟩ := transferProof_eq_ok made
    exact ⟨by rw [balance], amount, fee⟩
  withdraw_statement := fun _ _ _ _ _ made => by
    obtain ⟨enough, balance⟩ := withdrawProof_eq_ok made
    exact ⟨enough, by rw [balance]⟩

/-- The ciphertext of an integer. -/
def encrypt (value : Int) : PodElGamalCiphertext :=
  ⟨(value % order).toNat⟩

/-- The ciphertext of a sum. -/
def add (pod : PodElGamalCiphertext) (added : Int) : PodElGamalCiphertext :=
  encrypt (pod.code + added)

theorem order_pos : 0 < order := by decide

theorem valid_encrypt (value : Int) :
    crypto.validCiphertext (encrypt value) = true := by
  have positive := order_pos
  have below : (value % order).toNat < order := by
    have := Int.emod_lt_of_pos value (b := (order : Int)) (by omega)
    omega
  exact decide_eq_true below

theorem plaintext_encrypt (value : Int) :
    crypto.plaintext () (encrypt value) = value := by
  have positive := order_pos
  have same : (((value % order).toNat : Nat) : Int) = value % order :=
    Int.toNat_of_nonneg (Int.emod_nonneg value (by omega))
  show (((value % order).toNat : Nat) : ZMod order) = (value : ZMod order)
  calc
    (((value % order).toNat : Nat) : ZMod order)
        = (((value % order).toNat : Int) : ZMod order) := by norm_cast
    _ = ((value % order : Int) : ZMod order) := by rw [same]
    _ = (value : ZMod order) := ZMod.intCast_mod value order

theorem encrypts_encrypt (value : Int) :
    crypto.Encrypts () value (encrypt value) :=
  ⟨valid_encrypt value, plaintext_encrypt value⟩

theorem adds_add (pod : PodElGamalCiphertext) (added : Int) :
    crypto.Adds () pod added (add pod added) := by
  refine ⟨valid_encrypt _, ?_⟩
  rw [add, plaintext_encrypt]
  push_cast
  rfl

end Transparent
end Remit
