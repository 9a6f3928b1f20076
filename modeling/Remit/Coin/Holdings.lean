import Remit.Coin.Program
import Remit.Library.Purses

/-!
# What the accounts of a coin hold

Each account has five purses: what it can spend, the fees withheld in it, what
is pending, what is available, and the fees that are withheld under the key of
the issuer.  The mint has one, for the fees that were harvested.  A chain
reflects what is in the purses, partly as ciphertexts.
-/

namespace Remit

open Purses

inductive Compartment where
  | spendable
  | fees
  | pending
  | available
  | hidden
deriving DecidableEq

inductive Purse where
  | account (address : Address) (compartment : Compartment)
  | pool
deriving DecidableEq

/-- What is in the purses of an account. -/
def held (purses : Purse →₀ Nat) (address : Address) : Compartment → Nat :=
  fun compartment => purses (.account address compartment)

section Held

variable {purses : Purse →₀ Nat} {address other : Address}
  {compartment : Compartment} {amount : Nat}

theorem held_put :
    held (put purses (.account address compartment) amount) address =
      Function.update (held purses address) compartment
        (held purses address compartment + amount) := by
  funext one
  by_cases here : one = compartment
  · subst here
    simp [held]
  · rw [Function.update_of_ne here]
    exact put_of_ne (by simpa using here)

theorem held_take :
    held (take purses (.account address compartment) amount) address =
      Function.update (held purses address) compartment
        (held purses address compartment - amount) := by
  funext one
  by_cases here : one = compartment
  · subst here
    simp [held]
  · rw [Function.update_of_ne here]
    exact take_of_ne (by simpa using here)

theorem held_put_of_ne (away : other ≠ address) :
    held (put purses (.account address compartment) amount) other =
      held purses other := by
  funext one
  exact put_of_ne (by simp [away])

theorem held_take_of_ne (away : other ≠ address) :
    held (take purses (.account address compartment) amount) other =
      held purses other := by
  funext one
  exact take_of_ne (by simp [away])

@[simp]
theorem held_put_pool : held (put purses .pool amount) = held purses := by
  funext address one
  exact put_of_ne (by simp)

@[simp]
theorem held_take_pool : held (take purses .pool amount) = held purses := by
  funext address one
  exact take_of_ne (by simp)

@[simp]
theorem put_account_pool :
    put purses (.account address compartment) amount .pool = purses .pool :=
  put_of_ne (by simp)

@[simp]
theorem take_account_pool :
    take purses (.account address compartment) amount .pool = purses .pool :=
  take_of_ne (by simp)

end Held

section Representing

variable (crypto : Crypto)

/-- What an account shows of its purses, to whoever has the keys.  Where nothing
is pending, neither half of it is anything but zero. -/
structure Shows (withheldKey : PodElGamalPubkey) (account : AccountSnapshot)
    (held : Compartment → Nat) : Prop where
  spendable : held .spendable = account.amount
  fees : held .fees = account.withheldFee.getD 0
  unconfigured : account.confidential = none →
    held .pending = 0 ∧ held .available = 0
  pending : ∀ state, account.confidential = some state →
    crypto.plaintext (crypto.secretOf state.elgamalPubkey)
        state.pendingBalanceLo +
      2 ^ 16 * crypto.plaintext (crypto.secretOf state.elgamalPubkey)
        state.pendingBalanceHi = held .pending
  cleared : ∀ state, account.confidential = some state → held .pending = 0 →
    crypto.plaintext (crypto.secretOf state.elgamalPubkey)
        state.pendingBalanceLo = 0 ∧
      crypto.plaintext (crypto.secretOf state.elgamalPubkey)
        state.pendingBalanceHi = 0
  available : ∀ state, account.confidential = some state →
    crypto.plaintext (crypto.secretOf state.elgamalPubkey)
      state.availableBalance = held .available
  unwithheld : account.confidentialWithheld = none → held .hidden = 0
  hidden : ∀ withheld, account.confidentialWithheld = some withheld →
    crypto.plaintext (crypto.secretOf withheldKey) withheld.withheldAmount =
      held .hidden

/-- The purses are those of the accounts and of the mint of a chain. -/
structure Reflects (coin : Coin) (purses : Purse →₀ Nat)
    (chain : TokenChain) : Prop where
  shows : ∀ address account,
    chain.accountOf coin.mint address = some account →
      Shows crypto coin.withheldKey account (held purses address)
  absent : ∀ address, chain.accountOf coin.mint address = none →
    held purses address = 0
  pool : purses .pool = (chain.mintWithheld coin.mint).getD 0

/-- The supply of the mint is all there is in the purses. -/
structure Backed (coin : Coin) (purses : Purse →₀ Nat)
    (chain : TokenChain) : Prop extends Reflects crypto coin purses chain where
  supply : total purses = chain.supply coin.mint
  bounded : total purses < 2 ^ 64

variable {crypto} {coin : Coin} {purses purses' : Purse →₀ Nat}
  {chain after : TokenChain}

/-- No purse of a backed coin holds more than 64 bits. -/
theorem Backed.held_lt
    (backed : Backed crypto coin purses chain)
    (address : Address) (compartment : Compartment) :
    held purses address compartment < 2 ^ 64 :=
  Nat.lt_of_le_of_lt le_total backed.bounded

/-- A residue that is an amount of a purse. -/
theorem natCast_inj
    {value other : Nat} (small : value < 2 ^ 200) (otherSmall : other < 2 ^ 200)
    (same : (value : ZMod crypto.order) = other) : value = other := by
  have large := crypto.order_large
  have equal := (ZMod.natCast_eq_natCast_iff value other crypto.order).mp same
  exact Nat.ModEq.eq_of_lt_of_lt equal (by omega) (by omega)

/-- What was debited was there, since what remains fits 64 bits. -/
theorem DebitsAvailable.le
    {state : ConfidentialTransferAccount}
    {against available : PodElGamalCiphertext} {amount value : Nat}
    (debits : DebitsAvailable crypto state against amount available)
    (small : amount < 2 ^ 64) (valueSmall : value < 2 ^ 64)
    (shown : crypto.plaintext (crypto.secretOf state.elgamalPubkey)
      state.availableBalance = value) :
    amount ≤ value ∧
      crypto.plaintext (crypto.secretOf state.elgamalPubkey) available =
        (value - amount : Nat) := by
  obtain ⟨_, against, adds, remaining, fits, _, plaintext⟩ := debits
  have sum : ((remaining + amount : Nat) : ZMod crypto.order) = value := by
    have added := adds.2
    rw [plaintext, ← against, shown] at added
    push_cast
    rw [show ((remaining : Int) : ZMod crypto.order) = remaining by norm_cast]
      at added
    rw [added]
    push_cast
    ring
  have equal := natCast_inj (by omega) (by omega) sum
  refine ⟨by omega, ?_⟩
  rw [plaintext]
  have rest : value - amount = remaining := by omega
  rw [rest]
  norm_cast

/-! ## Changes that move no money -/

namespace AccountSnapshot

/-- Two states of an account that show the same. -/
structure SameMoney (before after : AccountSnapshot) : Prop where
  mint : after.mint = before.mint
  amount : after.amount = before.amount
  withheldFee : after.withheldFee = before.withheldFee
  confidentialWithheld :
    after.confidentialWithheld = before.confidentialWithheld
  confidential : Option.Rel
    (fun was is =>
      is.elgamalPubkey = was.elgamalPubkey ∧
        is.pendingBalanceLo = was.pendingBalanceLo ∧
        is.pendingBalanceHi = was.pendingBalanceHi ∧
        is.availableBalance = was.availableBalance)
    before.confidential after.confidential

theorem SameMoney.of_eq
    {before after : AccountSnapshot}
    (mint : after.mint = before.mint) (amount : after.amount = before.amount)
    (withheldFee : after.withheldFee = before.withheldFee)
    (confidentialWithheld :
      after.confidentialWithheld = before.confidentialWithheld)
    (confidential : after.confidential = before.confidential) :
    before.SameMoney after := by
  refine ⟨mint, amount, withheldFee, confidentialWithheld, ?_⟩
  rw [confidential]
  cases before.confidential with
  | none => exact .none
  | some state => exact .some ⟨rfl, rfl, rfl, rfl⟩

end AccountSnapshot

theorem Shows.of_sameMoney
    {withheldKey : PodElGamalPubkey} {account changed : AccountSnapshot}
    {held : Compartment → Nat}
    (shows : Shows crypto withheldKey account held)
    (same : account.SameMoney changed) :
    Shows crypto withheldKey changed held := by
  have sameConfidential := same.confidential
  refine
    { spendable := shows.spendable.trans same.amount.symm
      fees := by rw [shows.fees, same.withheldFee]
      unconfigured := fun unconfigured => shows.unconfigured ?_
      pending := fun state configured => ?_
      cleared := fun state configured nothing => ?_
      available := fun state configured => ?_
      unwithheld := fun absent =>
        shows.unwithheld (same.confidentialWithheld ▸ absent)
      hidden := fun withheld present =>
        shows.hidden withheld (same.confidentialWithheld ▸ present) }
  · rw [unconfigured] at sameConfidential
    generalize account.confidential = before at sameConfidential ⊢
    cases sameConfidential
    rfl
  · rw [configured] at sameConfidential
    generalize known : account.confidential = before at sameConfidential
    cases sameConfidential with
    | some equal =>
        obtain ⟨key, low, high, _⟩ := equal
        rw [key, low, high]
        exact shows.pending _ known
  · rw [configured] at sameConfidential
    generalize known : account.confidential = before at sameConfidential
    cases sameConfidential with
    | some equal =>
        obtain ⟨key, low, high, _⟩ := equal
        rw [key, low, high]
        exact shows.cleared _ known nothing
  · rw [configured] at sameConfidential
    generalize known : account.confidential = before at sameConfidential
    cases sameConfidential with
    | some equal =>
        obtain ⟨key, _, _, available⟩ := equal
        rw [key, available]
        exact shows.available _ known

/-- The chain holds the same money in the same accounts. -/
structure SameHoldings (coin : Coin) (before after : TokenChain) : Prop where
  accounts : ∀ address, Option.Rel AccountSnapshot.SameMoney
    (before.accountOf coin.mint address) (after.accountOf coin.mint address)
  pool : after.mintWithheld coin.mint = before.mintWithheld coin.mint
  supply : after.supply coin.mint = before.supply coin.mint

theorem Reflects.of_sameHoldings
    (reflects : Reflects crypto coin purses chain)
    (same : SameHoldings coin chain after) :
    Reflects crypto coin purses after where
  shows address account found := by
    have related := same.accounts address
    rw [found] at related
    generalize known : chain.accountOf coin.mint address = before at related
    cases related with
    | some sameMoney =>
        exact (reflects.shows address _ known).of_sameMoney sameMoney
  absent address missing := by
    have related := same.accounts address
    rw [missing] at related
    generalize known : chain.accountOf coin.mint address = before at related
    cases related
    exact reflects.absent address known
  pool := by rw [reflects.pool, same.pool]

theorem Backed.of_sameHoldings
    (backed : Backed crypto coin purses chain)
    (same : SameHoldings coin chain after) :
    Backed crypto coin purses after where
  toReflects := backed.toReflects.of_sameHoldings same
  supply := by rw [backed.supply, same.supply]
  bounded := backed.bounded

end Representing
end Remit
