import Remit.Library.Runs
import Remit.Token.Program

/-!
# One coin on the chain

The accounts of one mint, and all that is done to them: the instructions of
Token-2022 that the library builds, and what holders do besides.  A transaction
carries its instructions out one after another, all of them or none, with the
signatures that it was given.  Who sends it does not matter.
-/

namespace Remit

open Runs

/-- The mint of a coin, and the key under which the fees of its confidential
transfers are encrypted. -/
structure Coin where
  mint : Address
  withheldKey : PodElGamalPubkey
deriving DecidableEq

/-- What a transaction asks for.  The library builds the instructions; burning,
revoking, opening an account, changing its settings and reforming a mint is up
to others.  Whatever does not concern the coin happens elsewhere.  Fees leave an
account in public, by being harvested to the mint: nobody withdraws them from it
directly, and nobody takes the fees of confidential transfers out of it.  The
library does neither. -/
inductive CoinInstruction where
  | instruct (instruction : TokenInstruction)
  | burn (source mint authority : Address) (amount decimals : Nat)
  | revoke (source owner : Address)
  | openAccount (account : AccountSnapshot)
  | adjust (address : Address)
  | reform (mint authority : Address) (change : MintReform)
  | elsewhere
deriving DecidableEq

/-- The confidential movement that an authority asks for with an instruction,
as far as the instruction says.  The ciphertext and the amounts that its proofs
are about are in its contexts. -/
def TokenInstruction.Confides (authority : Address) :
    TokenInstruction → Execution → Prop
  | .deposit account _ amount _ owner, execution =>
      owner = authority ∧ execution = .deposit account amount
  | .applyPendingBalance account credits newDecryptable owner, execution =>
      owner = authority ∧
        execution = .applyPendingBalance account credits newDecryptable
  | .transferWithFee request, execution =>
      request.authority = authority ∧ ∃ statement,
        execution = .transfer request.source request.destination statement
          request.newDecryptableBalance
  | .withdraw request, execution =>
      request.authority = authority ∧ ∃ against,
        execution = .withdraw request.tokenAccount request.amount against
          request.newDecryptableBalance
  | _, _ => False

/-- The account whose owner signs a confidential movement. -/
def Execution.payer : Execution → Address
  | .deposit account _ => account
  | .applyPendingBalance account .. => account
  | .transfer source .. => source
  | .withdraw account .. => account

namespace TokenChain

variable (chain : TokenChain)

/-- The account of a mint at an address. -/
def accountOf (mint address : Address) : Option AccountSnapshot :=
  (chain.accounts address).filter (·.mint = mint)

/-- What was issued of a mint and not burnt, if there is such a mint. -/
def supply (mint : Address) : Nat :=
  (chain.mints mint).elim 0 (·.supply)

end TokenChain

section Effects

variable (crypto : Crypto)

/-- Nothing is held confidentially in an account, as far as its owner and the
issuer can see. -/
structure HoldsNothingHidden (withheldKey : PodElGamalPubkey)
    (account : AccountSnapshot) : Prop where
  pendingLo : ∀ state, account.confidential = some state →
    crypto.Encrypts (crypto.secretOf state.elgamalPubkey) 0
      state.pendingBalanceLo
  pendingHi : ∀ state, account.confidential = some state →
    crypto.Encrypts (crypto.secretOf state.elgamalPubkey) 0
      state.pendingBalanceHi
  available : ∀ state, account.confidential = some state →
    crypto.Encrypts (crypto.secretOf state.elgamalPubkey) 0
      state.availableBalance
  fees : ∀ withheld, account.confidentialWithheld = some withheld →
    crypto.Encrypts (crypto.secretOf withheldKey) 0 withheld.withheldAmount

/-- A new mint, of which nothing was issued. -/
structure InitializesMint (mintAuthority : Address)
    (freezeAuthority : Option Address) (decimals : Nat)
    (mint : MintSnapshot) : Prop where
  mintAuthority : mint.mintAuthority = some mintAuthority
  freezeAuthority : mint.freezeAuthority = freezeAuthority
  decimals : mint.decimals = decimals
  supply : mint.supply = 0
  withheld : ∀ config, mint.transferFee = some config →
    config.withheldAmount = 0

/-- A new account of a mint, which holds nothing and starts in the default
state. -/
structure OpensEmpty (mint : MintSnapshot) (account : AccountSnapshot) :
    Prop where
  amount : account.amount = 0
  withheld : account.withheldFee.getD 0 = 0
  delegate : account.delegate = none
  state : account.state = mint.defaultAccountState.getD .initialized
  confidential : account.confidential = none
  confidentialWithheld : account.confidentialWithheld = none

/-- An account that was just configured: the owner's key is attached to it, and
everything that it holds confidentially is zero. -/
structure Configures (policy : ConfidentialTransferMint)
    (withheldKey : PodElGamalPubkey) (zero : DecryptableBalance) (maximum : Nat)
    (account configured : AccountSnapshot)
    (state : ConfidentialTransferAccount) : Prop where
  account : configured =
    { account with
      confidential := some state
      confidentialWithheld := configured.confidentialWithheld
      extensions := configured.extensions }
  approved : state.approved = policy.autoApproveNewAccounts
  decryptable : state.decryptableAvailableBalance = zero
  maximum : state.maximumPendingBalanceCreditCounter = maximum
  pendingCounter : state.pendingBalanceCreditCounter = 0
  expectedCounter : state.expectedPendingBalanceCreditCounter = 0
  actualCounter : state.actualPendingBalanceCreditCounter = 0
  credits : state.allowConfidentialCredits = true
  publicCredits : state.allowNonConfidentialCredits = true
  empty : HoldsNothingHidden crypto withheldKey configured

/-- Settings of an account that do not say what it holds or whose it is. -/
structure Adjusts (account changed : AccountSnapshot) : Prop where
  settings : changed =
    { account with
      extensions := changed.extensions
      cpiGuard := changed.cpiGuard
      confidential := changed.confidential
      dataLen := changed.dataLen
      lamports := changed.lamports }
  confidential : Option.Rel
    (fun was is => is =
      { was with
        allowConfidentialCredits := is.allowConfidentialCredits
        allowNonConfidentialCredits := is.allowNonConfidentialCredits })
    account.confidential changed.confidential

/-- Nothing that concerns the coin has changed, apart from the lamports that
anybody can send to an account. -/
structure Unconcerned (coin : Coin) (before after : TokenChain) : Prop where
  mints : Option.Rel
    (fun was is => is = { was with lamports := is.lamports })
    (before.mints coin.mint) (after.mints coin.mint)
  accounts : ∀ address, Option.Rel
    (fun was is => is = { was with lamports := is.lamports })
    (before.accountOf coin.mint address) (after.accountOf coin.mint address)
  epoch : after.epoch = before.epoch

theorem Unconcerned.refl (coin : Coin) (chain : TokenChain) :
    Unconcerned coin chain chain where
  mints := by
    cases chain.mints coin.mint with
    | none => exact .none
    | some mint => exact .some rfl
  accounts address := by
    cases chain.accountOf coin.mint address with
    | none => exact .none
    | some account => exact .some rfl
  epoch := rfl

/-- Carry out an instruction with the signatures of a transaction. -/
inductive Performs (coin : Coin) (signers : List Address)
    (chain : TokenChain) : CoinInstruction → TokenChain → Prop where
  | perform {instruction : TokenInstruction} {after : TokenChain} :
      instruction.perform signers chain = some after →
      Performs coin signers chain (.instruct instruction) after
  | initializeExtension {mint : Address} {config : ExtensionConfig} :
      chain.mints mint = none →
      Performs coin signers chain (.instruct (.initializeExtension mint config))
        chain
  | initializeMint {address mintAuthority : Address}
      {freezeAuthority : Option Address} {decimals : Nat}
      {mint : MintSnapshot} :
      chain.mints address = none →
      InitializesMint mintAuthority freezeAuthority decimals mint →
      Performs coin signers chain
        (.instruct
          (.initializeMint2 address mintAuthority freezeAuthority decimals))
        (chain.setMint address mint)
  | confide {instruction : TokenInstruction} {execution : Execution}
      {account : AccountSnapshot} {accounts : TokenAccounts} :
      instruction.Confides account.owner execution →
      chain.accounts execution.payer = some account →
      account.mint = coin.mint → account.isFrozen = false →
      account.owner ∈ signers →
      Executes crypto coin.withheldKey chain.accounts execution accounts →
      Performs coin signers chain (.instruct instruction)
        { chain with accounts }
  | foreign {instruction : TokenInstruction} {execution : Execution}
      {account : AccountSnapshot} {after : TokenChain} :
      instruction.Confides account.owner execution →
      chain.accounts execution.payer = some account →
      account.mint ≠ coin.mint → Unconcerned coin chain after →
      Performs coin signers chain (.instruct instruction) after
  | configure {address mint : Address} {zero : DecryptableBalance}
      {maximum : Nat} {offset : Int} {account configured : AccountSnapshot}
      {state : MintSnapshot} {policy : ConfidentialTransferMint}
      {confidential : ConfidentialTransferAccount} :
      chain.accounts address = some account → chain.mints mint = some state →
      account.mint = mint → account.owner ∈ signers →
      state.confidential = some policy → account.confidential = none →
      account.confidentialWithheld = none →
      Configures crypto policy coin.withheldKey zero maximum account configured
        confidential →
      Performs coin signers chain
        (.instruct
          (.configureAccount address mint zero maximum account.owner offset))
        (chain.setAccount address (some configured))
  | reallocate {address payer : Address} {extensions : List ExtensionType}
      {account : AccountSnapshot} (dataLen lamports : Nat) :
      chain.accounts address = some account → account.owner ∈ signers →
      Performs coin signers chain
        (.instruct (.reallocate address payer account.owner extensions))
        (chain.setAccount address (some { account with dataLen, lamports }))
  | burn {source mint authority : Address} {amount decimals : Nat}
      {after : TokenChain} :
      chain.burn signers source mint authority amount decimals = some after →
      Performs coin signers chain (.burn source mint authority amount decimals)
        after
  | revoke {source owner : Address} {after : TokenChain} :
      chain.revoke signers source owner = some after →
      Performs coin signers chain (.revoke source owner) after
  | openAccount {account : AccountSnapshot} {mint : MintSnapshot} :
      chain.accounts account.address = none →
      chain.mints account.mint = some mint → OpensEmpty mint account →
      Performs coin signers chain (.openAccount account)
        (chain.setAccount account.address (some account))
  | closeAccount {address destination authority : Address}
      {account : AccountSnapshot} :
      chain.mints address = none → chain.accounts address = some account →
      authority ∈ signers → account.amount = 0 →
      account.withheldFee.getD 0 = 0 →
      HoldsNothingHidden crypto coin.withheldKey account →
      Performs coin signers chain
        (.instruct (.closeAccount address destination authority))
        (chain.setAccount address none)
  | adjust {address : Address} {account changed : AccountSnapshot} :
      chain.accounts address = some account → account.owner ∈ signers →
      Adjusts account changed →
      Performs coin signers chain (.adjust address)
        (chain.setAccount address (some changed))
  | reform {mint authority : Address} {change : MintReform}
      {after : TokenChain} :
      chain.reform signers mint authority change = some after →
      Performs coin signers chain (.reform mint authority change) after
  | elsewhere {after : TokenChain} :
      Unconcerned coin chain after →
      Performs coin signers chain .elsewhere after

/-- Carry out the instructions of a transaction, all of them. -/
inductive PerformsAll (coin : Coin) (signers : List Address) :
    TokenChain → List CoinInstruction → TokenChain → Prop where
  | nil {chain : TokenChain} : PerformsAll coin signers chain [] chain
  | cons {chain between after : TokenChain} {instruction : CoinInstruction}
      {rest : List CoinInstruction} :
      Performs crypto coin signers chain instruction between →
      PerformsAll coin signers between rest after →
      PerformsAll coin signers chain (instruction :: rest) after

variable {crypto} in
/-- Other instructions are carried out afterwards. -/
theorem PerformsAll.append
    {coin : Coin} {signers : List Address} {chain between after : TokenChain}
    {first second : List CoinInstruction}
    (before : PerformsAll crypto coin signers chain first between)
    (later : PerformsAll crypto coin signers between second after) :
    PerformsAll crypto coin signers chain (first ++ second) after := by
  induction before with
  | nil => exact later
  | cons one _ inductionHypothesis =>
      exact .cons one (inductionHypothesis later)

variable {crypto} in
/-- Instructions are carried out after the ones before them. -/
theorem PerformsAll.append_inv
    {coin : Coin} {signers : List Address} {chain after : TokenChain}
    {first second : List CoinInstruction}
    (performs :
      PerformsAll crypto coin signers chain (first ++ second) after) :
    ∃ between, PerformsAll crypto coin signers chain first between ∧
      PerformsAll crypto coin signers between second after := by
  induction first generalizing chain with
  | nil => exact ⟨chain, .nil, performs⟩
  | cons instruction rest inductionHypothesis =>
      cases performs with
      | cons one others =>
          obtain ⟨between, before, later⟩ := inductionHypothesis others
          exact ⟨between, .cons one before, later⟩

/-- A transaction with its signatures, or an epoch that begins. -/
inductive CoinEvent where
  | transact (signers : List Address) (instructions : List CoinInstruction)
  | begin (epoch : Nat)
deriving DecidableEq

inductive CoinStep (coin : Coin) :
    TokenChain → CoinEvent → TokenChain → Prop where
  | transact {chain after : TokenChain} {signers : List Address}
      {instructions : List CoinInstruction} :
      PerformsAll crypto coin signers chain instructions after →
      CoinStep coin chain (.transact signers instructions) after
  | begin {chain : TokenChain} {epoch : Nat} :
      chain.epoch ≤ epoch →
      CoinStep coin chain (.begin epoch) { chain with epoch }

end Effects
end Remit
