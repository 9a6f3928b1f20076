import Remit.Confidential
import Remit.Crypto.Transparent

/-!
# Executing confidential instructions

With transparent cryptography the effect of an instruction can be computed.
What is computed is what `Executes` allows.
-/

namespace Remit

open Flows

instance (state : ConfidentialTransferAccount) : Decidable state.Creditable :=
  inferInstanceAs (Decidable (_ ∧ _ ∧ _))

namespace Transparent

/-! ## Executing an instruction -/

/-- The snapshot and the confidential state of an account. -/
def TokenAccounts.configured (chain : TokenAccounts) (address : Address) :
    Option (AccountSnapshot × ConfidentialTransferAccount) :=
  match chain address with
  | none => none
  | some account => account.confidential.map (account, ·)

theorem TokenAccounts.configured_eq_some
    {chain : TokenAccounts} {address : Address} {account : AccountSnapshot}
    {state : ConfidentialTransferAccount}
    (configured :
      TokenAccounts.configured chain address = some (account, state)) :
    chain address = some account ∧ account.confidential = some state := by
  unfold TokenAccounts.configured at configured
  split at configured
  case h_1 => cases configured
  case h_2 other found =>
      obtain ⟨_, confidential, same⟩ := Option.map_eq_some_iff.mp configured
      cases same
      exact ⟨found, confidential⟩

/-- A debit that the proofs allow: `against` is what is there, and what remains
fits 64 bits. -/
def Debitable (state : ConfidentialTransferAccount)
    (against : PodElGamalCiphertext) (amount : Nat) : Prop :=
  state.approved = true ∧ state.availableBalance = against ∧
    (add against (-amount)).code < 2 ^ 64

instance (state : ConfidentialTransferAccount)
    (against : PodElGamalCiphertext) (amount : Nat) :
    Decidable (Debitable state against amount) :=
  inferInstanceAs (Decidable (_ ∧ _ ∧ _))

theorem Debitable.debits
    {state : ConfidentialTransferAccount} {against : PodElGamalCiphertext}
    {amount : Nat} (debitable : Debitable state against amount) :
    DebitsAvailable crypto state against amount (add against (-amount)) :=
  ⟨debitable.1, debitable.2.1, adds_add .., _, debitable.2.2,
    valid_encrypt _, by norm_cast⟩

/-- The account once an amount was added to its pending balance in halves. -/
def creditedWith (state : ConfidentialTransferAccount) (low high : Int) :
    ConfidentialTransferAccount :=
  state.credited (add state.pendingBalanceLo low)
    (add state.pendingBalanceHi high)

/-- The account once its pending balance was applied. -/
def appliedWith (state : ConfidentialTransferAccount) (credits : Nat)
    (newDecryptable : DecryptableBalance) : ConfidentialTransferAccount :=
  state.applied
    (encrypt <|
      state.availableBalance.code + state.pendingBalanceLo.code +
        2 ^ 16 * state.pendingBalanceHi.code)
    (encrypt 0) (encrypt 0) credits newDecryptable

theorem appliesPending (state : ConfidentialTransferAccount) :
    AppliesPending crypto state
      (encrypt <|
        state.availableBalance.code + state.pendingBalanceLo.code +
          2 ^ 16 * state.pendingBalanceHi.code)
      (encrypt 0) (encrypt 0) := by
  refine ⟨valid_encrypt _, ?_, encrypts_encrypt 0, encrypts_encrypt 0⟩
  rw [show crypto.secretOf state.elgamalPubkey = () from rfl,
    plaintext_encrypt]
  push_cast
  rfl

/-- Carry out a deposit. -/
def executeDeposit (chain : TokenAccounts) (address : Address)
    (amount : Nat) : Option TokenAccounts :=
  match TokenAccounts.configured chain address with
  | none => none
  | some (account, state) =>
      if account.isFrozen = false ∧ amount ≤ account.amount ∧
          amount < 2 ^ 48 ∧ state.Creditable then
        some <| Function.update chain address <| some
          { account with
            amount := account.amount - amount
            confidential :=
              some (creditedWith state (lowPart amount) (highPart amount)) }
      else none

/-- Carry out an apply. -/
def executeApply (chain : TokenAccounts) (address : Address) (credits : Nat)
    (newDecryptable : DecryptableBalance) : Option TokenAccounts :=
  match TokenAccounts.configured chain address with
  | none => none
  | some (account, state) =>
      if account.isFrozen = false then
        some <| Function.update chain address <| some <|
          account.withConfidential (appliedWith state credits newDecryptable)
      else none

/-- Carry out a transfer to another account. -/
def executeTransfer (chain : TokenAccounts) (source destination : Address)
    (statement : TransferStatement) (newDecryptable : DecryptableBalance) :
    Option TokenAccounts :=
  match TokenAccounts.configured chain source,
      TokenAccounts.configured chain destination with
  | some (payer, paying), some (payee, paid) =>
      match payee.confidentialWithheld with
      | none => none
      | some withheld =>
          if source ≠ destination ∧ payer.isFrozen = false ∧
              payee.isFrozen = false ∧ payee.mint = payer.mint ∧
              paid.Creditable ∧ statement.amount < 2 ^ 48 ∧
              statement.fee ≤ statement.amount ∧
              Debitable paying statement.against statement.amount then
            some <| Function.update
              (Function.update chain source <| some <|
                payer.withConfidential <|
                  paying.debited (add statement.against (-statement.amount))
                    newDecryptable)
              destination <| some
                { payee with
                  confidential := some <|
                    creditedWith paid
                      (lowPart statement.amount - lowPart statement.fee)
                      (highPart statement.amount - highPart statement.fee)
                  confidentialWithheld :=
                    some ⟨add withheld.withheldAmount statement.fee⟩ }
          else none
  | _, _ => none

/-- Carry out a withdrawal. -/
def executeWithdraw (chain : TokenAccounts) (address : Address)
    (amount : Nat) (against : PodElGamalCiphertext)
    (newDecryptable : DecryptableBalance) : Option TokenAccounts :=
  match TokenAccounts.configured chain address with
  | none => none
  | some (account, state) =>
      if account.isFrozen = false ∧ account.amount + amount < 2 ^ 64 ∧
          Debitable state against amount then
        some <| Function.update chain address <| some
          { account with
            amount := account.amount + amount
            confidential := some <|
              state.debited (add against (-amount)) newDecryptable }
      else none

/-- Carry out an instruction.  Transfers to the source itself are left out. -/
def execute (chain : TokenAccounts) : Execution → Option TokenAccounts
  | .deposit address amount => executeDeposit chain address amount
  | .applyPendingBalance address credits newDecryptable =>
      executeApply chain address credits newDecryptable
  | .transfer source destination statement newDecryptable =>
      executeTransfer chain source destination statement newDecryptable
  | .withdraw address amount against newDecryptable =>
      executeWithdraw chain address amount against newDecryptable

section Sound

variable {withheldKey : PodElGamalPubkey} {chain after : TokenAccounts}

theorem executeDeposit_sound
    {address : Address} {amount : Nat}
    (executed : executeDeposit chain address amount = some after) :
    Executes crypto withheldKey chain (.deposit address amount) after := by
  unfold executeDeposit at executed
  split at executed
  case h_1 => cases executed
  case h_2 account state found =>
      obtain ⟨found, configured⟩ := TokenAccounts.configured_eq_some found
      split at executed
      case isTrue possible =>
          cases executed
          obtain ⟨unfrozen, enough, small, room⟩ := possible
          exact .deposit found configured unfrozen enough small room
            ⟨adds_add .., adds_add ..⟩
      case isFalse => cases executed

theorem executeApply_sound
    {address : Address} {credits : Nat} {newDecryptable : DecryptableBalance}
    (executed :
      executeApply chain address credits newDecryptable = some after) :
    Executes crypto withheldKey chain
      (.applyPendingBalance address credits newDecryptable) after := by
  unfold executeApply at executed
  split at executed
  case h_1 => cases executed
  case h_2 account state found =>
      obtain ⟨found, configured⟩ := TokenAccounts.configured_eq_some found
      split at executed
      case isFalse => cases executed
      case isTrue unfrozen =>
          cases executed
          exact .applyPendingBalance found configured unfrozen
            (appliesPending state)

theorem executeTransfer_sound
    {source destination : Address} {statement : TransferStatement}
    {newDecryptable : DecryptableBalance}
    (executed :
      executeTransfer chain source destination statement newDecryptable =
        some after) :
    Executes crypto withheldKey chain
      (.transfer source destination statement newDecryptable) after := by
  unfold executeTransfer at executed
  split at executed
  case h_2 => cases executed
  case h_1 payer paying payee paid payerFound payeeFound =>
      obtain ⟨found, configured⟩ :=
        TokenAccounts.configured_eq_some payerFound
      obtain ⟨otherFound, otherConfigured⟩ :=
        TokenAccounts.configured_eq_some payeeFound
      split at executed
      case h_1 => cases executed
      case h_2 withheld present =>
          split at executed
          case isFalse => cases executed
          case isTrue possible =>
              cases executed
              obtain ⟨different, unfrozen, otherUnfrozen, sameMint, room,
                small, feeSmall, debitable⟩ := possible
              exact .transfer different found configured unfrozen otherFound
                otherConfigured otherUnfrozen sameMint present room small
                feeSmall debitable.debits ⟨adds_add .., adds_add ..⟩
                (adds_add ..)

theorem executeWithdraw_sound
    {address : Address} {amount : Nat} {against : PodElGamalCiphertext}
    {newDecryptable : DecryptableBalance}
    (executed :
      executeWithdraw chain address amount against newDecryptable =
        some after) :
    Executes crypto withheldKey chain
      (.withdraw address amount against newDecryptable) after := by
  unfold executeWithdraw at executed
  split at executed
  case h_1 => cases executed
  case h_2 account state found =>
      obtain ⟨found, configured⟩ := TokenAccounts.configured_eq_some found
      split at executed
      case isTrue possible =>
          cases executed
          obtain ⟨unfrozen, fits, debitable⟩ := possible
          exact .withdraw found configured unfrozen fits debitable.debits
      case isFalse => cases executed

/-- What is carried out is allowed. -/
theorem execute_sound
    {execution : Execution}
    (executed : execute chain execution = some after) :
    Executes crypto withheldKey chain execution after := by
  cases execution with
  | deposit => exact executeDeposit_sound executed
  | applyPendingBalance => exact executeApply_sound executed
  | transfer => exact executeTransfer_sound executed
  | withdraw => exact executeWithdraw_sound executed

end Sound

/-! ## Accounts -/

/-- A configured and approved account that holds nothing confidentially. -/
def emptyState : ConfidentialTransferAccount where
  approved := true
  elgamalPubkey := ⟨0⟩
  pendingBalanceLo := encrypt 0
  pendingBalanceHi := encrypt 0
  availableBalance := encrypt 0
  decryptableAvailableBalance := ⟨0⟩
  allowConfidentialCredits := true
  allowNonConfidentialCredits := true
  pendingBalanceCreditCounter := 0
  maximumPendingBalanceCreditCounter := MAXIMUM_PENDING_BALANCE_CREDITS
  expectedPendingBalanceCreditCounter := 0
  actualPendingBalanceCreditCounter := 0

def alice : Address :=
  Address.filled 1

def bob : Address :=
  Address.filled 2

/-- An account with a public amount and nothing else. -/
def openAccount (address : Address) (amount : Nat) : AccountSnapshot where
  address
  mint := Address.filled 3
  owner := address
  amount
  state := .initialized
  delegate := none
  delegatedAmount := 0
  extensions := [.confidentialTransferAccount, .confidentialTransferFeeAmount]
  withheldFee := none
  cpiGuard := none
  confidential := some emptyState
  confidentialWithheld := some ⟨encrypt 0⟩
  dataLen := 533
  lamports := 0

/-- The mint of their accounts, which takes a quarter of a percent. -/
def sharedMint : MintSnapshot where
  address := Address.filled 3
  decimals := 2
  supply := 0
  mintAuthority := none
  freezeAuthority := none
  extensions :=
    [.transferFeeConfig, .confidentialTransferMint,
      .confidentialTransferFeeConfig]
  transferFee := some ⟨none, none, 0, ⟨0, 5000, 25⟩, ⟨0, 5000, 25⟩⟩
  metadataPointer := none
  defaultAccountState := none
  closeAuthority := none
  permanentDelegate := none
  confidential := some ⟨none, true, none⟩
  confidentialFee := some ⟨none, ⟨0⟩, true, encrypt 0⟩
  metadata := none
  dataLen := 480
  lamports := 0

end Transparent
end Remit
