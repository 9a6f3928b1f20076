import Remit.Crypto
import Remit.State

/-!
# What Token-2022 does to confidential accounts

`Executes` relates the token accounts before and after a confidential
instruction that succeeds.  The new ciphertexts are known by what they encrypt;
everything else is given exactly.  A transfer and a withdrawal are described
by what their verified proofs state.
-/

namespace Remit

abbrev TokenAccounts := Address → Option AccountSnapshot

/-- What the proofs of a transfer state: the ciphertext of the balance it is
taken from, the amount and the fee. -/
structure TransferStatement where
  against : PodElGamalCiphertext
  amount : Nat
  fee : Nat
deriving DecidableEq

/-- A confidential instruction that is carried out. -/
inductive Execution where
  | deposit (account : Address) (amount : Nat)
  | applyPendingBalance (account : Address) (credits : Nat)
      (newDecryptable : DecryptableBalance)
  | transfer (source destination : Address) (statement : TransferStatement)
      (newDecryptable : DecryptableBalance)
  | withdraw (account : Address) (amount : Nat)
      (against : PodElGamalCiphertext) (newDecryptable : DecryptableBalance)
deriving DecidableEq

namespace ConfidentialTransferAccount

/-- Whether another credit is accepted. -/
def Creditable (state : ConfidentialTransferAccount) : Prop :=
  state.approved = true ∧ state.allowConfidentialCredits = true ∧
    state.pendingBalanceCreditCounter <
      state.maximumPendingBalanceCreditCounter

/-- The account once a credit has led to new pending ciphertexts. -/
def credited (state : ConfidentialTransferAccount)
    (lo hi : PodElGamalCiphertext) : ConfidentialTransferAccount :=
  { state with
    pendingBalanceLo := lo
    pendingBalanceHi := hi
    pendingBalanceCreditCounter := state.pendingBalanceCreditCounter + 1 }

/-- The account once its pending balance was applied. -/
def applied (state : ConfidentialTransferAccount)
    (available lo hi : PodElGamalCiphertext) (credits : Nat)
    (newDecryptable : DecryptableBalance) : ConfidentialTransferAccount :=
  { state with
    availableBalance := available
    pendingBalanceLo := lo
    pendingBalanceHi := hi
    decryptableAvailableBalance := newDecryptable
    expectedPendingBalanceCreditCounter := credits
    actualPendingBalanceCreditCounter := state.pendingBalanceCreditCounter
    pendingBalanceCreditCounter := 0 }

/-- The account once its available balance was debited. -/
def debited (state : ConfidentialTransferAccount)
    (available : PodElGamalCiphertext) (newDecryptable : DecryptableBalance) :
    ConfidentialTransferAccount :=
  { state with
    availableBalance := available
    decryptableAvailableBalance := newDecryptable }

end ConfidentialTransferAccount

namespace AccountSnapshot

/-- The account with another confidential state. -/
def withConfidential (account : AccountSnapshot)
    (state : ConfidentialTransferAccount) : AccountSnapshot :=
  { account with confidential := some state }

end AccountSnapshot

section Effects

variable (crypto : Crypto)

/-- The half of an amount below `2 ^ 16`. -/
def lowPart (amount : Nat) : Int :=
  (amount % 2 ^ 16 : Nat)

/-- The half of an amount above `2 ^ 16`. -/
def highPart (amount : Nat) : Int :=
  (amount / 2 ^ 16 : Nat)

theorem lowPart_add_highPart (amount : Nat) :
    lowPart amount + highPart amount * 2 ^ 16 = amount := by
  unfold lowPart highPart
  omega

/-- The pending ciphertexts once a credit added to their plaintexts. -/
def AddsPending (state : ConfidentialTransferAccount) (low high : Int)
    (lo hi : PodElGamalCiphertext) : Prop :=
  crypto.Adds (crypto.secretOf state.elgamalPubkey) state.pendingBalanceLo
      low lo ∧
    crypto.Adds (crypto.secretOf state.elgamalPubkey) state.pendingBalanceHi
      high hi

/-- A debit of the available balance: it is proven against the ciphertext that
is there, and what remains is proven to fit 64 bits. -/
def DebitsAvailable (state : ConfidentialTransferAccount)
    (against : PodElGamalCiphertext) (amount : Nat)
    (available : PodElGamalCiphertext) : Prop :=
  state.approved = true ∧ state.availableBalance = against ∧
    crypto.Adds (crypto.secretOf state.elgamalPubkey) against (-amount)
      available ∧
    ∃ remaining : Nat, remaining < 2 ^ 64 ∧
      crypto.Encrypts (crypto.secretOf state.elgamalPubkey) remaining available

/-- The ciphertexts of an account whose pending balance is applied. -/
def AppliesPending (state : ConfidentialTransferAccount)
    (available lo hi : PodElGamalCiphertext) : Prop :=
  let secret := crypto.secretOf state.elgamalPubkey
  crypto.validCiphertext available = true ∧
    crypto.plaintext secret available =
      crypto.plaintext secret state.availableBalance +
        crypto.plaintext secret state.pendingBalanceLo +
        2 ^ 16 * crypto.plaintext secret state.pendingBalanceHi ∧
    crypto.Encrypts secret 0 lo ∧ crypto.Encrypts secret 0 hi

/-- All that an account holds confidentially, as a residue. -/
def confidentialTotal (state : ConfidentialTransferAccount) :
    ZMod crypto.order :=
  let secret := crypto.secretOf state.elgamalPubkey
  crypto.plaintext secret state.availableBalance +
    crypto.plaintext secret state.pendingBalanceLo +
    2 ^ 16 * crypto.plaintext secret state.pendingBalanceHi

/-- The token accounts before and after a successful instruction.  Fees are
encrypted under `withheldKey`; a transfer to the source itself withholds
none. -/
inductive Executes (withheldKey : PodElGamalPubkey) (accounts : TokenAccounts) :
    Execution → TokenAccounts → Prop where
  | deposit {address : Address} {amount : Nat} {account : AccountSnapshot}
      {state : ConfidentialTransferAccount} {lo hi : PodElGamalCiphertext} :
      accounts address = some account → account.confidential = some state →
      account.isFrozen = false → amount ≤ account.amount → amount < 2 ^ 48 →
      state.Creditable →
      AddsPending crypto state (lowPart amount) (highPart amount) lo hi →
      Executes withheldKey accounts (.deposit address amount)
        (Function.update accounts address <| some
          { account with
            amount := account.amount - amount
            confidential := some (state.credited lo hi) })
  | applyPendingBalance {address : Address} {account : AccountSnapshot}
      {state : ConfidentialTransferAccount}
      {available lo hi : PodElGamalCiphertext} {credits : Nat}
      {newDecryptable : DecryptableBalance} :
      accounts address = some account → account.confidential = some state →
      account.isFrozen = false →
      AppliesPending crypto state available lo hi →
      Executes withheldKey accounts
        (.applyPendingBalance address credits newDecryptable)
        (Function.update accounts address <| some <|
          account.withConfidential
            (state.applied available lo hi credits newDecryptable))
  | transfer {source destination : Address} {payer payee : AccountSnapshot}
      {paying paid : ConfidentialTransferAccount}
      {withheld : ConfidentialTransferFeeAmount}
      {statement : TransferStatement}
      {available lo hi fees : PodElGamalCiphertext}
      {newDecryptable : DecryptableBalance} :
      source ≠ destination →
      accounts source = some payer → payer.confidential = some paying →
      payer.isFrozen = false →
      accounts destination = some payee → payee.confidential = some paid →
      payee.isFrozen = false → payee.mint = payer.mint →
      payee.confidentialWithheld = some withheld → paid.Creditable →
      statement.amount < 2 ^ 48 → statement.fee ≤ statement.amount →
      DebitsAvailable crypto paying statement.against statement.amount
        available →
      AddsPending crypto paid
        (lowPart statement.amount - lowPart statement.fee)
        (highPart statement.amount - highPart statement.fee) lo hi →
      crypto.Adds (crypto.secretOf withheldKey) withheld.withheldAmount
        statement.fee fees →
      Executes withheldKey accounts
        (.transfer source destination statement newDecryptable)
        (Function.update
          (Function.update accounts source <| some <|
            payer.withConfidential (paying.debited available newDecryptable))
          destination <| some
            { payee with
              confidential := some (paid.credited lo hi)
              confidentialWithheld := some ⟨fees⟩ })
  | transferToSelf {address : Address} {account : AccountSnapshot}
      {state : ConfidentialTransferAccount} {statement : TransferStatement}
      {available lo hi : PodElGamalCiphertext}
      {newDecryptable : DecryptableBalance} :
      accounts address = some account → account.confidential = some state →
      account.isFrozen = false → state.Creditable →
      statement.amount < 2 ^ 48 → statement.fee ≤ statement.amount →
      DebitsAvailable crypto state statement.against statement.amount
        available →
      AddsPending crypto state (lowPart statement.amount)
        (highPart statement.amount) lo hi →
      Executes withheldKey accounts
        (.transfer address address statement newDecryptable)
        (Function.update accounts address <| some <|
          account.withConfidential
            ((state.debited available newDecryptable).credited lo hi))
  | withdraw {address : Address} {amount : Nat} {account : AccountSnapshot}
      {state : ConfidentialTransferAccount}
      {against available : PodElGamalCiphertext}
      {newDecryptable : DecryptableBalance} :
      accounts address = some account → account.confidential = some state →
      account.isFrozen = false → account.amount + amount < 2 ^ 64 →
      DebitsAvailable crypto state against amount available →
      Executes withheldKey accounts
        (.withdraw address amount against newDecryptable)
        (Function.update accounts address <| some
          { account with
            amount := account.amount + amount
            confidential := some (state.debited available newDecryptable) })

end Effects
end Remit
