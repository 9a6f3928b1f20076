import Remit.Proofs.Soundness
import Remit.Token.Effects

/-!
# What Token-2022 promises about a confidential transfer

A `TransferWithFee` that lands moves what the proofs in its context-state
accounts state.
-/

namespace Remit

variable {C : Cluster}

/-- The token accounts of a state of the cluster, as far as they decode. -/
def Cluster.tokenAccounts (C : Cluster) (state : C.State) : TokenAccounts :=
  fun address =>
    (C.accountData state address).bind fun data =>
      (AccountSnapshot.decode C.interface address data
        (C.lamports state address)).toOption

/-- The token accounts of a state are those that can be loaded. -/
theorem tokenAccounts_eq (world : World C) (address : Address) :
    C.tokenAccounts world.state address =
      (Remit.loadAccount world address).toOption := by
  unfold Cluster.tokenAccounts Remit.loadAccount fetch
  rcases C.accountData world.state address with _ | data
  · rfl
  · rfl

/-- The proofs that the contexts of a transfer hold. -/
structure TransferContexts (accounts : Accounts) (transfer : TransferWithFee)
    (equality amountValidity feeValidity : Bytes) : Prop where
  equality : ∃ authority,
    accounts transfer.equality =
      some (.context authority .verifyCiphertextCommitmentEquality equality)
  amountValidity : ∃ authority,
    accounts transfer.amountValidity =
      some (.context authority .verifyBatchedGroupedCiphertext3HandlesValidity
        amountValidity)
  feeValidity : ∃ authority,
    accounts transfer.feeValidity =
      some (.context authority .verifyBatchedGroupedCiphertext2HandlesValidity
        feeValidity)

/-- What Token-2022 does with a `TransferWithFee` that lands: the transfer that
the proofs in its contexts state. -/
structure TokenContract (C : Cluster) (crypto : Crypto)
    (withheldKey : PodElGamalPubkey) : Prop where
  transfers : ∀ state transaction signers receipt transfer equality
      amountValidity feeValidity,
    (C.send state transaction signers).outcome = .ok receipt →
      tokenInstructions transaction = [.transferWithFee transfer] →
      TransferContexts
        (C.accounts (C.send state transaction signers).before) transfer
        equality amountValidity feeValidity →
      Executes crypto withheldKey
        (C.tokenAccounts (C.send state transaction signers).before)
        (.transfer transfer.source transfer.destination
          ⟨crypto.provenBalance equality, crypto.provenAmount amountValidity,
            crypto.provenFee feeValidity⟩
          transfer.newDecryptableBalance)
        (C.tokenAccounts (C.send state transaction signers).after)

end Remit
