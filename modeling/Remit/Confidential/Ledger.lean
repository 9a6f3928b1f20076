import Remit.Confidential.Balances
import Remit.Library.Runs
import Mathlib.Algebra.BigOperators.Group.Finset.Basic
import Mathlib.Algebra.Order.BigOperators.Group.Finset

/-!
# Many owners, one mint

A ledger is the token accounts of one mint together with the calls that have
read them and not sent their instruction yet.  Between the reading and the
sending of a call anything may happen that other calls do.  A call that is in
flight either lands, and then the chain carries it out, or is dropped.
-/

namespace Remit

open Flows Runs

/-- A set of confidential accounts of one mint, with their owners' keys and the
issuer's key for withheld fees. -/
structure Roster (crypto : Crypto) where
  accounts : Finset Address
  keys : Address → ConfidentialKeys crypto
  withheldKeys : ElGamalKeypair crypto.Secret
  withheld_opens : withheldKeys.secret = crypto.secretOf withheldKeys.pubkey

/-- A call of the library.  The mint and the epoch are what the call reads. -/
inductive Call where
  | deposit (account : Address) (amount : Nat)
  | applyPendingBalance (account : Address)
  | transfer (source destination : Address) (mint : MintSnapshot)
      (epoch amount : Nat)
  | withdraw (account : Address) (mint : MintSnapshot) (amount : Nat)
deriving DecidableEq

/-- A call that has read the accounts and not sent its instruction yet:
the account it is made for, what it has read of it, and what it will send. -/
structure InFlight where
  account : Address
  read : AccountSnapshot
  execution : Execution
deriving DecidableEq

variable {crypto : Crypto}

/-- The snapshot of an account, if there is one. -/
def TokenAccounts.load (chain : TokenAccounts) (address : Address) :
    Except (Stop Error) AccountSnapshot :=
  (chain address).elim (.error (.error (.accountNotFound address))) .ok

namespace Call

/-- The accounts a call is about. -/
def addresses : Call → List Address
  | deposit account _ => [account]
  | applyPendingBalance account => [account]
  | transfer source destination .. => [source, destination]
  | withdraw account .. => [account]

/-- What a call does before it sends anything. -/
def prepare (roster : Roster crypto) (chain : TokenAccounts) :
    Call → Except (Stop Error) InFlight
  | deposit account amount => do
      let read ← chain.load account
      pure ⟨account, read, .deposit account amount⟩
  | applyPendingBalance account => do
      let read ← chain.load account
      let plan ← ApplyPlan.prepare read (roster.keys account)
      pure
        ⟨account, read,
          .applyPendingBalance account plan.credits plan.newDecryptable⟩
  | transfer source destination mint epoch amount => do
      let read ← chain.load source
      let other ← chain.load destination
      let plan ← (TransferPlan.prepare read other mint epoch
        (roster.keys source) amount).mapError Stop.error
      pure
        ⟨source, read,
          .transfer source destination (plan.statement crypto)
            plan.newDecryptable⟩
  | withdraw account mint amount => do
      let read ← chain.load account
      let (ciphertext, available) ←
        (withdrawable read (roster.keys account) amount).mapError Stop.error
      let plan ← WithdrawPlan.prepare mint (roster.keys account) ciphertext
        available amount
      pure
        ⟨account, read,
          .withdraw account amount
            (crypto.provenBalance plan.proof.equalityProofData.bytes)
            plan.newDecryptable⟩

end Call

/-- The net credits since the last apply, after an execution. -/
def Execution.received (received : Address → Nat) :
    Execution → Address → Nat
  | deposit account amount =>
      Function.update received account (received account + amount)
  | applyPendingBalance account .. => Function.update received account 0
  | transfer source destination statement _ =>
      Function.update received destination
        (received destination +
          if source = destination then statement.amount
          else statement.amount - statement.fee)
  | withdraw .. => received

/-- The accounts, the calls in flight, and the net credits each account has
received since its pending balance was last applied. -/
structure Ledger where
  chain : TokenAccounts
  inFlight : List InFlight
  received : Address → Nat

inductive Event where
  | begin (call : Call)
  | land (call : InFlight)
  | drop (call : InFlight)
deriving DecidableEq

/-- The steps of a ledger.  The calls made for an `exclusive` account do not
overlap. -/
inductive Step (roster : Roster crypto) (exclusive : Address → Prop) :
    Ledger → Event → Ledger → Prop where
  | begin {ledger : Ledger} {call : Call} {started : InFlight} :
      (∀ address ∈ call.addresses, address ∈ roster.accounts) →
      call.prepare roster ledger.chain = .ok started →
      (exclusive started.account →
        ∀ other ∈ ledger.inFlight, other.account ≠ started.account) →
      Step roster exclusive ledger (.begin call)
        { ledger with inFlight := started :: ledger.inFlight }
  | land {ledger : Ledger} {call : InFlight} {chain : TokenAccounts} :
      call ∈ ledger.inFlight →
      Executes crypto roster.withheldKeys.pubkey ledger.chain call.execution
        chain →
      Step roster exclusive ledger (.land call)
        { chain
          inFlight := ledger.inFlight.erase call
          received := call.execution.received ledger.received }
  | drop {ledger : Ledger} {call : InFlight} :
      call ∈ ledger.inFlight →
      Step roster exclusive ledger (.drop call)
        { ledger with inFlight := ledger.inFlight.erase call }

/-! ## What is in flight -/

/-- The accounts an execution changes. -/
def Execution.addresses : Execution → List Address
  | deposit account _ => [account]
  | applyPendingBalance account .. => [account]
  | transfer source destination .. => [source, destination]
  | withdraw account .. => [account]

/-- The account whose owner signs an execution. -/
def Execution.owner : Execution → Address
  | deposit account _ => account
  | applyPendingBalance account .. => account
  | transfer source .. => source
  | withdraw account .. => account

/-- What a call in flight was worked out from. -/
inductive Planned (roster : Roster crypto) : InFlight → Prop where
  | deposit (account : Address) (read : AccountSnapshot) (amount : Nat) :
      Planned roster ⟨account, read, .deposit account amount⟩
  | applyPendingBalance {account : Address} {read : AccountSnapshot}
      {plan : ApplyPlan} :
      ApplyPlan.prepare read (roster.keys account) = .ok plan →
      Planned roster
        ⟨account, read,
          .applyPendingBalance account plan.credits plan.newDecryptable⟩
  | transfer {source : Address} (destination : Address)
      {read : AccountSnapshot} {state : ConfidentialTransferAccount}
      {available : Nat} {statement : TransferStatement} :
      read.confidential = some state →
      availableBalance read (roster.keys source) = .ok available →
      statement.amount ≤ available →
      statement.against = state.availableBalance →
      Planned roster
        ⟨source, read,
          .transfer source destination statement
            (crypto.aeEncrypt (roster.keys source).ae
              (available - statement.amount))⟩
  | withdraw {account : Address} {read : AccountSnapshot}
      {state : ConfidentialTransferAccount} {available amount : Nat} :
      read.confidential = some state →
      availableBalance read (roster.keys account) = .ok available →
      amount ≤ available →
      Planned roster
        ⟨account, read,
          .withdraw account amount state.availableBalance
            (crypto.aeEncrypt (roster.keys account).ae (available - amount))⟩

theorem TokenAccounts.load_eq_ok
    {chain : TokenAccounts} {address : Address} {account : AccountSnapshot}
    (loaded : chain.load address = .ok account) :
    chain address = some account := by
  unfold TokenAccounts.load at loaded
  rcases found : chain address with _ | other
  · rw [found] at loaded
    cases loaded
  · rw [found] at loaded
    cases loaded
    rfl

/-- A prepared call is planned on what it has read, for one of its accounts. -/
theorem Call.prepare_eq_ok
    {roster : Roster crypto} {chain : TokenAccounts} {call : Call}
    {started : InFlight}
    (prepared : call.prepare roster chain = .ok started) :
    Planned roster started ∧ started.execution.owner = started.account ∧
      started.execution.addresses = call.addresses ∧
      chain started.account = some started.read := by
  cases call with
  | deposit account amount =>
      obtain ⟨read, loaded, prepared⟩ := except_bind_eq_ok prepared
      cases prepared
      exact ⟨.deposit account read amount, rfl, rfl,
        TokenAccounts.load_eq_ok loaded⟩
  | applyPendingBalance account =>
      obtain ⟨read, loaded, prepared⟩ := except_bind_eq_ok prepared
      obtain ⟨plan, planned, prepared⟩ := except_bind_eq_ok prepared
      cases prepared
      exact ⟨.applyPendingBalance planned, rfl, rfl,
        TokenAccounts.load_eq_ok loaded⟩
  | transfer source destination mint epoch amount =>
      obtain ⟨read, loaded, prepared⟩ := except_bind_eq_ok prepared
      obtain ⟨other, _, prepared⟩ := except_bind_eq_ok prepared
      obtain ⟨plan, planned, prepared⟩ := except_bind_eq_ok prepared
      cases prepared
      obtain ⟨state, available, _, configured, known, enough, _, _,
        statement, decryptable, _⟩ :=
        TransferPlan.prepare_eq_ok (except_mapError_eq_ok planned)
      rw [decryptable]
      have stated : amount = (plan.statement crypto).amount := by
        rw [statement]
      rw [stated] at enough ⊢
      exact ⟨.transfer destination configured known enough
        (by rw [statement]), rfl, rfl, TokenAccounts.load_eq_ok loaded⟩
  | withdraw account mint amount =>
      obtain ⟨read, loaded, prepared⟩ := except_bind_eq_ok prepared
      obtain ⟨⟨ciphertext, available⟩, checked, prepared⟩ :=
        except_bind_eq_ok prepared
      obtain ⟨plan, planned, prepared⟩ := except_bind_eq_ok prepared
      cases prepared
      obtain ⟨state, configured, known, enough, rfl⟩ :=
        withdrawable_eq_ok (except_mapError_eq_ok checked)
      obtain ⟨_, against, decryptable⟩ := WithdrawPlan.prepare_eq_ok planned
      rw [decryptable, against]
      exact ⟨.withdraw configured known enough, rfl, rfl,
        TokenAccounts.load_eq_ok loaded⟩

end Remit
