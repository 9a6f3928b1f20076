import Remit.Library.SmallScalar
import Remit.Proofs
import Remit.Token.Interface

/-!
# Encryption and proof generation

The cryptographic crates the library calls.  Balances are encrypted twice: as
ElGamal ciphertexts, on which the chain computes in a scalar field of about 252
bits, and with an authenticated encryption that only the owner uses.  A value
of `encrypt` or of a proof generator stands for one outcome of its randomness.
-/

namespace Remit

/-- A key pair of the homomorphic scheme. -/
structure ElGamalKeypair (Secret : Type) where
  pubkey : PodElGamalPubkey
  secret : Secret

/-- A validity proof of the encrypted transfer amount, with the two halves of
the amount under the auditor key. -/
structure CiphertextValidityProofWithAuditorCiphertext where
  proofData : ProofData
  ciphertextLo : PodElGamalCiphertext
  ciphertextHi : PodElGamalCiphertext
deriving DecidableEq

structure TransferWithFeeProofData where
  equalityProofData : ProofData
  transferAmountCiphertextValidityProofDataWithCiphertext :
    CiphertextValidityProofWithAuditorCiphertext
  percentageWithCapProofData : ProofData
  feeCiphertextValidityProofData : ProofData
  rangeProofData : ProofData
deriving DecidableEq

structure WithdrawProofData where
  equalityProofData : ProofData
  rangeProofData : ProofData
deriving DecidableEq

/-- The cryptography, with what the library relies on.

`secretOf` is the secret that belongs to a public key.  `plaintext` is the
residue a ciphertext encrypts under a key; decryption finds it when it is below
`2 ^ 32`.  `provenBalance`, `provenAmount` and `provenFee`
read off the statements of an equality proof, an amount-validity proof and a
fee-validity proof. -/
structure Crypto where
  order : Nat
  Secret : Type
  AeKey : Type
  validCiphertext : PodElGamalCiphertext → Bool
  validPubkey : PodElGamalPubkey → Bool
  validDecryptable : DecryptableBalance → Bool
  decryptU32 : Secret → PodElGamalCiphertext → Option Nat
  aeEncrypt : AeKey → Nat → DecryptableBalance
  aeDecrypt : AeKey → DecryptableBalance → Option Nat
  buildPubkeyValidityProofData : ElGamalKeypair Secret → Except String ProofData
  transferWithFeeSplitProofData :
    (currentAvailableBalance : PodElGamalCiphertext) →
    (currentDecryptableAvailableBalance : DecryptableBalance) →
    (transferAmount : Nat) →
    (source : ElGamalKeypair Secret) → (aeKey : AeKey) →
    (destination : PodElGamalPubkey) → (auditor : Option PodElGamalPubkey) →
    (withdrawWithheldAuthority : PodElGamalPubkey) →
    (feeRateBasisPoints maximumFee : Nat) →
    Except String TransferWithFeeProofData
  withdrawProofData :
    (currentAvailableBalance : PodElGamalCiphertext) →
    (currentBalance withdrawAmount : Nat) →
    (keypair : ElGamalKeypair Secret) → Except String WithdrawProofData
  secretOf : PodElGamalPubkey → Secret
  plaintext : Secret → PodElGamalCiphertext → ZMod order
  provenBalance : Bytes → PodElGamalCiphertext
  provenAmount : Bytes → Nat
  provenFee : Bytes → Nat
  order_large : 2 ^ 252 ≤ order
  decryptU32_eq : ∀ secret pod, validCiphertext pod = true →
    decryptU32 secret pod =
      if (plaintext secret pod).val < 2 ^ 32 then
        some (plaintext secret pod).val
      else none
  validDecryptable_aeEncrypt : ∀ key amount,
    validDecryptable (aeEncrypt key amount) = true
  aeDecrypt_aeEncrypt : ∀ key amount, amount < 2 ^ 64 →
    aeDecrypt key (aeEncrypt key amount) = some amount
  aeDecrypt_lt : ∀ key pod amount,
    aeDecrypt key pod = some amount → amount < 2 ^ 64
  transfer_statement :
    ∀ available decryptable amount source aeKey destination auditor withheld
      basisPoints maximumFee proof,
    transferWithFeeSplitProofData available decryptable amount source aeKey
        destination auditor withheld basisPoints maximumFee = .ok proof →
      provenBalance proof.equalityProofData.bytes = available ∧
        provenAmount
          proof.transferAmountCiphertextValidityProofDataWithCiphertext.proofData.bytes =
            amount ∧
        (TransferFee.mk 0 maximumFee basisPoints).calculateFee amount =
          some (provenFee proof.feeCiphertextValidityProofData.bytes)
  withdraw_statement : ∀ available balance amount keypair proof,
    withdrawProofData available balance amount keypair = .ok proof →
      amount ≤ balance ∧
        provenBalance proof.equalityProofData.bytes = available

namespace Crypto

variable (crypto : Crypto)

/-- A ciphertext that encrypts `added` more than another one under a key. -/
def Adds (secret : crypto.Secret) (before : PodElGamalCiphertext) (added : Int)
    (after : PodElGamalCiphertext) : Prop :=
  crypto.validCiphertext after = true ∧
    crypto.plaintext secret after = crypto.plaintext secret before + added

/-- The ciphertext is well formed and encrypts an integer under a key. -/
def Encrypts (secret : crypto.Secret) (value : Int)
    (pod : PodElGamalCiphertext) : Prop :=
  crypto.validCiphertext pod = true ∧ crypto.plaintext secret pod = value

variable {crypto} {secret : crypto.Secret}
  {before after : PodElGamalCiphertext} {value added : Int}

theorem Encrypts.adds
    (encrypts : crypto.Encrypts secret value before)
    (adds : crypto.Adds secret before added after) :
    crypto.Encrypts secret (value + added) after := by
  refine ⟨adds.1, ?_⟩
  rw [adds.2, encrypts.2, Int.cast_add]

/-- Small decryption is exact on small integers, and refuses the rest. -/
theorem Encrypts.decryptU32
    (encrypts : crypto.Encrypts secret value before)
    (small : |value| < 2 ^ 200) :
    crypto.decryptU32 secret before =
      if 0 ≤ value ∧ value < 2 ^ 32 then some value.toNat else none := by
  have large := crypto.order_large
  have inside : -(2 : Int) ^ 200 < value ∧ value < 2 ^ 200 := abs_lt.mp small
  rw [crypto.decryptU32_eq _ _ encrypts.1, encrypts.2]
  have below :
      ((value : ZMod crypto.order)).val < 2 ^ 32 ↔
        0 ≤ value ∧ value < (2 ^ 32 : Nat) :=
    SmallScalar.val_intCast_lt_iff (by omega) (by omega)
  by_cases readable : 0 ≤ value ∧ value < 2 ^ 32
  · rw [if_pos (below.mpr (by simpa using readable)), if_pos readable]
    have exact : (((value : ZMod crypto.order)).val : Int) = value :=
      SmallScalar.val_intCast_of_nonneg readable.1 (by omega)
    congr 1
    omega
  · rw [if_neg (fun small => readable (by simpa using below.mp small)),
      if_neg readable]

/-- Two integers far below the order that a ciphertext encrypts are equal. -/
theorem Encrypts.unique
    {other : Int}
    (encrypts : crypto.Encrypts secret value before)
    (encryptsOther : crypto.Encrypts secret other before)
    (small : |value| < 2 ^ 200) (otherSmall : |other| < 2 ^ 200) :
    value = other := by
  have large := crypto.order_large
  have same : ((value : Int) : ZMod crypto.order) = other := by
    rw [← encrypts.2, encryptsOther.2]
  have divides :=
    (ZMod.intCast_eq_intCast_iff_dvd_sub value other crypto.order).mp same
  have valueInside := abs_lt.mp small
  have otherInside := abs_lt.mp otherSmall
  have zero : other - value = 0 :=
    Int.eq_zero_of_abs_lt_dvd divides (by rw [abs_lt]; omega)
  omega

end Crypto
end Remit
