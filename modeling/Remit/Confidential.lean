import Remit.Crypto
import Remit.Transfer

/-!
# The confidential lifecycle

Deposit, apply, transfer and withdraw.  Each call first works out, from the
accounts it has read, what it is going to send; the values it works out are
definitions of their own, so that what a call reads and what it sends can be
spoken about separately.
-/

namespace Remit

open Flows

/-- Compute budget for a Token-2022 `TransferWithFee`. -/
def TRANSFER_WITH_FEE_UNITS : Nat := 80000

/-- Compute budget for a Token-2022 `Withdraw`. -/
def WITHDRAW_UNITS : Nat := 20000

/-- How many credits may pile up before the owner must apply them. -/
def MAXIMUM_PENDING_BALANCE_CREDITS : Nat := 65536

def TRANSFER_AMOUNT_LO_BITS : Nat := 16

variable (crypto : Crypto)

/-- A token account's encryption keys. -/
structure ConfidentialKeys where
  elgamal : ElGamalKeypair crypto.Secret
  ae : crypto.AeKey

/-! ## Readers -/

def elgamalCiphertext (pod : PodElGamalCiphertext) :
    Except Error PodElGamalCiphertext :=
  if crypto.validCiphertext pod then .ok pod
  else .error (.crypto "invalid ElGamal ciphertext")

def elgamalPubkey (pod : PodElGamalPubkey) (invalid : String) :
    Except Error PodElGamalPubkey :=
  if crypto.validPubkey pod then .ok pod else .error (.crypto invalid)

def aeCiphertext (pod : DecryptableBalance) :
    Except Error DecryptableBalance :=
  if crypto.validDecryptable pod then .ok pod
  else .error (.crypto "invalid decryptable balance")

/-- Decrypt a small ElGamal ciphertext. -/
def decryptU32 (secret : crypto.Secret) (pod : PodElGamalCiphertext) :
    Except Error Nat := do
  let ciphertext ← elgamalCiphertext crypto pod
  match crypto.decryptU32 secret ciphertext with
  | some amount => pure amount
  | none => throw (.crypto "ciphertext does not decrypt to a 32-bit amount")

/-- A sum of 64-bit numbers, unless it overflows. -/
def checkedAdd (left right : Nat) : Option Nat :=
  if left + right < 2 ^ 64 then some (left + right) else none

def checkedMul (left right : Nat) : Option Nat :=
  if left * right < 2 ^ 64 then some (left * right) else none

/-- Decrypt the halves of an amount and recombine them as `lo + hi * 2 ^ 16`. -/
def decryptLoHi (secret : crypto.Secret) (lo hi : PodElGamalCiphertext) :
    Except Error Nat := do
  let high ← decryptU32 crypto secret hi
  let combined := do
    let shifted ← checkedMul high (2 ^ TRANSFER_AMOUNT_LO_BITS)
    let low ← (decryptU32 crypto secret lo).toOption
    checkedAdd shifted low
  match combined with
  | some amount => pure amount
  | none => throw (.crypto "lo/hi amounts overflow or fail to decrypt")

/-- The error of a decryptable balance that does not match the encrypted one. -/
def staleBalance (account : Address) (expected actual : Nat) : Error :=
  .invalid <|
    "decryptable balance of " ++ account.display ++
      " is stale: the last ApplyPendingBalance covered " ++
      toString expected ++ " credits but " ++ toString actual ++
      " had arrived; rebuild it from the missed credits first"

variable {crypto}

/-- The owner's available confidential balance, as the owner wrote it down.
It is refused when credits landed that it does not account for. -/
def availableBalance (account : AccountSnapshot)
    (keys : ConfidentialKeys crypto) : Except Error Nat := do
  let state ← account.requireConfidential
  let expected := state.expectedPendingBalanceCreditCounter
  let actual := state.actualPendingBalanceCreditCounter
  if expected ≠ actual then
    throw (staleBalance account.address expected actual)
  let decryptable ← aeCiphertext crypto state.decryptableAvailableBalance
  match crypto.aeDecrypt keys.ae decryptable with
  | some amount => pure amount
  | none =>
      throw (.crypto "decryptable balance does not decrypt with this AE key")

/-- The owner's pending confidential balance. -/
def pendingBalance (account : AccountSnapshot)
    (keys : ConfidentialKeys crypto) : Except Error Nat := do
  let confidential ← account.requireConfidential
  decryptLoHi crypto keys.elgamal.secret confidential.pendingBalanceLo
    confidential.pendingBalanceHi

/-- Fees withheld in an account by confidential transfers. -/
def withheldConfidentialFee (account : AccountSnapshot)
    (withdrawWithheldAuthority : ElGamalKeypair crypto.Secret) :
    Except Error Nat :=
  match account.confidentialWithheld with
  | none => .error (.invalid "account has no ConfidentialTransferFeeAmount")
  | some withheld =>
      decryptU32 crypto withdrawWithheldAuthority.secret
        withheld.withheldAmount

/-- Refuse to move more than there is. -/
def requireSufficient (available requested : Nat) : Except Error Unit :=
  if available < requested then
    .error (.insufficientConfidentialBalance available requested)
  else .ok ()

/-! ## Configuring and approving -/

variable {C : Cluster}

/-- Turn the error of a proof generator into the library's. -/
def ofGenerator {α : Type} : Except String α → Except Error α
  | .ok a => .ok a
  | .error text => .error (.crypto text)

/-- Make room for the confidential extensions. -/
def reallocateInstruction (programs : Programs)
    (tokenAccount payer owner : Address) : Except Error Instruction :=
  tokenInstruction programs <|
    .reallocate tokenAccount payer owner
      [.confidentialTransferAccount, .confidentialTransferFeeAmount]

/-- `ConfigureAccount` followed by its inline proof. -/
def configureInstructions (programs : Programs)
    (tokenAccount mint authority : Address)
    (keys : ConfidentialKeys crypto) : Except Error (List Instruction) := do
  let proof ← ofGenerator (crypto.buildPubkeyValidityProofData keys.elgamal)
  let configure ← tokenInstruction programs <|
    .configureAccount tokenAccount mint (crypto.aeEncrypt keys.ae 0)
      MAXIMUM_PENDING_BALANCE_CREDITS authority 1
  pure [configure, .verifyProof .verifyPubkeyValidity none proof.bytes]

/-- Owner only: make room for the confidential extensions and configure them. -/
def configureAccount (tokenAccount : Address) (owner : Keypair)
    (keys : ConfidentialKeys crypto) : Flow (World C) Error Unit := do
  let mint := (← World.loadAccount tokenAccount).mint
  let reallocate ← Flow.ofExcept <|
    reallocateInstruction C.programs tokenAccount C.payer owner.pubkey
  let configure ← Flow.ofExcept <|
    configureInstructions C.programs tokenAccount mint owner.pubkey keys
  let _ ← World.send (reallocate :: configure) [owner]

/-- Issuer: approve a configured account. -/
def approveAccount (tokenAccount : Address) (confidentialAuthority : Keypair) :
    Flow (World C) Error Unit := do
  let mint := (← World.loadAccount tokenAccount).mint
  let instruction ← Flow.ofExcept <| tokenInstruction C.programs <|
    .approveAccount tokenAccount mint confidentialAuthority.pubkey
  let _ ← World.send [instruction] [confidentialAuthority]

/-! ## Deposit and apply -/

/-- Move `amount` from the public balance into the pending one. -/
def deposit (tokenAccount : Address) (owner : Keypair) (amount : Nat) :
    Flow (World C) Error Unit := do
  let mint ← World.loadMint (← World.loadAccount tokenAccount).mint
  let instruction ← Flow.ofExcept <| tokenInstruction C.programs <|
    .deposit tokenAccount mint.address amount mint.decimals owner.pubkey
  let _ ← World.send [instruction] [owner]

/-- What `applyPendingBalance` works out from the account it has read. -/
structure ApplyPlan where
  newAvailable : Nat
  newDecryptable : DecryptableBalance
  credits : Nat
deriving DecidableEq

/-- A sum, which the compiled code checks: it panics when the sum does not fit
64 bits. -/
def sumOrPanic (left right : Nat) : Except (Stop Error) Nat :=
  if left + right < 2 ^ 64 then .ok (left + right) else .error .panic

/-- The preparation of `applyPendingBalance`. -/
def ApplyPlan.prepare (account : AccountSnapshot)
    (keys : ConfidentialKeys crypto) : Except (Stop Error) ApplyPlan := do
  let available ← (availableBalance account keys).mapError Stop.error
  let pending ← (pendingBalance account keys).mapError Stop.error
  let newAvailable ← sumOrPanic available pending
  let newDecryptable := crypto.aeEncrypt keys.ae newAvailable
  let state ← account.requireConfidential.mapError Stop.error
  pure
    { newAvailable, newDecryptable
      credits := state.pendingBalanceCreditCounter }

/-- Fold the pending balance into the available balance. -/
def applyPendingBalance (tokenAccount : Address) (owner : Keypair)
    (keys : ConfidentialKeys crypto) : Flow (World C) Error Nat := do
  let account ← World.loadAccount tokenAccount
  let plan ← ofStop (ApplyPlan.prepare account keys)
  let instruction ← Flow.ofExcept <| tokenInstruction C.programs <|
    .applyPendingBalance tokenAccount plan.credits plan.newDecryptable
      owner.pubkey
  let _ ← World.send [instruction] [owner]
  pure plan.newAvailable

/-! ## Transfer -/

/-- What a confidential transfer revealed. -/
structure ConfidentialTransfer where
  amount : Nat
  fee : Nat
  epoch : Nat
  auditorCiphertextLo : PodElGamalCiphertext
  auditorCiphertextHi : PodElGamalCiphertext
deriving DecidableEq

/-- What the auditor learns. -/
def ConfidentialTransfer.audit (transfer : ConfidentialTransfer)
    (auditor : ElGamalKeypair crypto.Secret) : Except Error Nat :=
  decryptLoHi crypto auditor.secret transfer.auditorCiphertextLo
    transfer.auditorCiphertextHi

/-- What `transfer` works out from the accounts and the mint it has read. -/
structure TransferPlan where
  mint : Address
  fee : Nat
  epoch : Nat
  proof : TransferWithFeeProofData
  newDecryptable : DecryptableBalance
deriving DecidableEq

/-- The preparation of `transfer`. -/
def TransferPlan.prepare (sourceAccount destinationAccount : AccountSnapshot)
    (mint : MintSnapshot) (epoch : Nat) (keys : ConfidentialKeys crypto)
    (amount : Nat) : Except Error TransferPlan := do
  let sourceState ← sourceAccount.requireConfidential
  let available ← availableBalance sourceAccount keys
  requireSufficient available amount
  let destinationState ← destinationAccount.requireConfidential
  let destinationPubkey ← elgamalPubkey crypto destinationState.elgamalPubkey
    "invalid destination ElGamal pubkey"
  let confidentialMint ← mint.confidential.elim
    (.error (.invalid "mint has no ConfidentialTransferMint")) .ok
  let auditor ← confidentialMint.auditorElgamalPubkey.mapM
    (elgamalPubkey crypto · "invalid auditor ElGamal pubkey")
  let confidentialFee ← mint.confidentialFee.elim
    (.error (.invalid "mint has no ConfidentialTransferFeeConfig")) .ok
  let withdrawWithheld ←
    elgamalPubkey crypto confidentialFee.withdrawWithheldAuthorityElgamalPubkey
      "invalid withdraw-withheld ElGamal pubkey"
  let feeConfig ← mint.requireTransferFee
  let schedule := feeConfig.getEpochFee epoch
  let fee ← expectedFee mint epoch amount
  let availableCiphertext ← elgamalCiphertext crypto sourceState.availableBalance
  let decryptable ← aeCiphertext crypto sourceState.decryptableAvailableBalance
  let proof ← ofGenerator <|
    crypto.transferWithFeeSplitProofData availableCiphertext decryptable amount
      keys.elgamal keys.ae destinationPubkey auditor withdrawWithheld
      schedule.transferFeeBasisPoints schedule.maximumFee
  pure
    { mint := mint.address, fee, epoch, proof
      newDecryptable := crypto.aeEncrypt keys.ae (available - amount) }

namespace TransferPlan

variable (plan : TransferPlan)

def auditorLo : PodElGamalCiphertext :=
  plan.proof.transferAmountCiphertextValidityProofDataWithCiphertext.ciphertextLo

def auditorHi : PodElGamalCiphertext :=
  plan.proof.transferAmountCiphertextValidityProofDataWithCiphertext.ciphertextHi

/-- The `TransferWithFee` of a transfer whose proofs are in given contexts. -/
def instruction (source destination : Address) (owner : Keypair)
    (equality amountValidity feeSigma feeValidity range : Address) :
    TransferWithFee :=
  { source, mint := plan.mint, destination
    newDecryptableBalance := plan.newDecryptable
    auditorCiphertextLo := plan.auditorLo
    auditorCiphertextHi := plan.auditorHi
    authority := owner.pubkey
    equality, amountValidity, feeSigma, feeValidity, range }

/-- Move the five proofs of a transfer on-chain and build its instruction. -/
def stage (source destination : Address) (owner : Keypair) :
    Flow (Session C) Error (List Instruction) := do
  let equality ← ProofAccounts.verify .verifyCiphertextCommitmentEquality
    plan.proof.equalityProofData
  let amountValidity ← ProofAccounts.verify
    .verifyBatchedGroupedCiphertext3HandlesValidity
    plan.proof.transferAmountCiphertextValidityProofDataWithCiphertext.proofData
  let feeSigma ← ProofAccounts.verify .verifyPercentageWithCap
    plan.proof.percentageWithCapProofData
  let feeValidity ← ProofAccounts.verify
    .verifyBatchedGroupedCiphertext2HandlesValidity
    plan.proof.feeCiphertextValidityProofData
  let range ← ProofAccounts.stageFromRecord .verifyBatchedRangeProofU256
    plan.proof.rangeProofData
  let instruction ← Flow.ofExcept <| tokenInstruction C.programs <|
    .transferWithFee <| plan.instruction source destination owner
      equality amountValidity feeSigma feeValidity range
  pure [instruction]

end TransferPlan

/-- Hand the proof accounts over to the consuming transaction, or close them
if the preparation failed. -/
def finish (prepared : Except Error (List Instruction))
    (accounts : ProofAccounts) (signers : List Keypair) (units : Nat) :
    Flow (World C) Error Receipt :=
  match prepared with
  | .ok instructions => accounts.consume instructions signers units
  | .error error => accounts.closeAfter (.error error)

/-- Read the accounts and the mint of a transfer and prepare it. -/
def TransferPlan.load (source destination : Address)
    (keys : ConfidentialKeys crypto) (amount : Nat) :
    Flow (World C) Error TransferPlan := do
  let sourceAccount ← World.loadAccount source
  let destinationAccount ← World.loadAccount destination
  let mint ← World.loadMint sourceAccount.mint
  let epoch ← World.epoch
  Flow.ofExcept <|
    TransferPlan.prepare sourceAccount destinationAccount mint epoch keys amount

/-- Send `amount` confidentially from `source` to `destination`. -/
def transfer (source destination : Address) (owner : Keypair)
    (keys : ConfidentialKeys crypto) (amount : Nat) :
    Flow (World C) Error ConfidentialTransfer := do
  let plan ← TransferPlan.load source destination keys amount
  let (prepared, accounts) ←
    Session.prepare (plan.stage source destination owner)
  let _ ← finish prepared accounts [owner] TRANSFER_WITH_FEE_UNITS
  pure
    { amount
      fee := plan.fee
      epoch := plan.epoch
      auditorCiphertextLo := plan.auditorLo
      auditorCiphertextHi := plan.auditorHi }

/-! ## Withdraw -/

/-- What `withdrawAgainst` works out from what it has read. -/
structure WithdrawPlan where
  mint : Address
  decimals : Nat
  proof : WithdrawProofData
  newDecryptable : DecryptableBalance
deriving DecidableEq

/-- The preparation of `withdrawAgainst`. -/
def WithdrawPlan.prepare (mint : MintSnapshot)
    (keys : ConfidentialKeys crypto)
    (balanceCiphertext : PodElGamalCiphertext) (balance amount : Nat) :
    Except (Stop Error) WithdrawPlan := do
  let proof ← (ofGenerator <|
    crypto.withdrawProofData balanceCiphertext balance amount
      keys.elgamal).mapError Stop.error
  let remaining ← differenceOrPanic balance amount
  pure
    { mint := mint.address
      decimals := mint.decimals
      proof
      newDecryptable := crypto.aeEncrypt keys.ae remaining }

namespace WithdrawPlan

variable (plan : WithdrawPlan)

/-- The `Withdraw` whose range proof is in a given context. -/
def instruction (tokenAccount : Address) (owner : Keypair) (amount : Nat)
    (range : Address) : Withdraw :=
  { tokenAccount, mint := plan.mint, amount
    decimals := plan.decimals
    newDecryptableBalance := plan.newDecryptable
    authority := owner.pubkey
    equalityOffset := 1
    range }

/-- Move the range proof of a withdrawal on-chain and build its instructions.
The equality proof travels inline, right after the `Withdraw`. -/
def stage (tokenAccount : Address) (owner : Keypair) (amount : Nat) :
    Flow (Session C) Error (List Instruction) := do
  let range ← ProofAccounts.stageFromRecord .verifyBatchedRangeProofU64
    plan.proof.rangeProofData
  let instruction ← Flow.ofExcept <| tokenInstruction C.programs <|
    .withdraw (plan.instruction tokenAccount owner amount range)
  pure
    [instruction,
      .verifyProof .verifyCiphertextCommitmentEquality none
        plan.proof.equalityProofData.bytes]

end WithdrawPlan

/-- Read the mint of a withdrawal and prepare it. -/
def WithdrawPlan.load (tokenAccount : Address)
    (keys : ConfidentialKeys crypto)
    (balanceCiphertext : PodElGamalCiphertext) (balance amount : Nat) :
    Flow (World C) Error WithdrawPlan := do
  let account ← World.loadAccount tokenAccount
  let mint ← World.loadMint account.mint
  ofStop (WithdrawPlan.prepare mint keys balanceCiphertext balance amount)

/-- `withdraw` with the proofs built against an arbitrary ciphertext, and
without local checks. -/
def withdrawAgainst (tokenAccount : Address) (owner : Keypair)
    (keys : ConfidentialKeys crypto)
    (balanceCiphertext : PodElGamalCiphertext) (balance amount : Nat) :
    Flow (World C) Error Unit := do
  let plan ←
    WithdrawPlan.load tokenAccount keys balanceCiphertext balance amount
  let (prepared, accounts) ←
    Session.prepare (plan.stage tokenAccount owner amount)
  let _ ← finish prepared accounts [owner] <|
    WITHDRAW_UNITS + computeUnits .verifyCiphertextCommitmentEquality

/-- The local checks of `withdraw`: the ciphertext it finds and its balance. -/
def withdrawable (account : AccountSnapshot) (keys : ConfidentialKeys crypto)
    (amount : Nat) : Except Error (PodElGamalCiphertext × Nat) := do
  let available ← availableBalance account keys
  requireSufficient available amount
  let state ← account.requireConfidential
  let ciphertext ← elgamalCiphertext crypto state.availableBalance
  pure (ciphertext, available)

/-- Move `amount` from the available balance back to the public balance. -/
def withdraw (tokenAccount : Address) (owner : Keypair)
    (keys : ConfidentialKeys crypto) (amount : Nat) :
    Flow (World C) Error Unit := do
  let account ← World.loadAccount tokenAccount
  let (ciphertext, available) ←
    Flow.ofExcept (withdrawable account keys amount)
  withdrawAgainst tokenAccount owner keys ciphertext available amount

end Remit
