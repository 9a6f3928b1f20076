import Remit.Token.Public
import Mathlib.Algebra.BigOperators.Group.Finset.Basic
import Mathlib.Algebra.BigOperators.Group.Finset.Piecewise
import Mathlib.Data.Finset.Dedup

/-!
# What Token-2022 does with withheld fees

Harvesting moves what is withheld in an account to the mint; an account that is
named again has nothing left to harvest.  Withdrawing moves all that the mint
holds to the balance of a token account.
-/

namespace Remit

namespace TokenChain

variable (chain : TokenChain)

/-- The fees that a mint holds, if it has a fee. -/
def mintWithheld (mint : Address) : Option Nat :=
  (chain.mints mint).bind fun state =>
    state.transferFee.map (·.withheldAmount)

/-- The fees withheld in an account of a mint. -/
def withheldBy (mint address : Address) : Nat :=
  match chain.accounts address with
  | none => 0
  | some account =>
      if account.mint = mint then account.withheldFee.getD 0 else 0

/-- The balance of an account. -/
def balance (address : Address) : Option Nat :=
  (chain.accounts address).map (·.amount)

/-- The chain once a mint holds another amount of fees. -/
def setMintWithheld (mint : Address) (amount : Nat) : TokenChain :=
  { chain with
    mints := Function.update chain.mints mint <|
      (chain.mints mint).map fun state =>
        { state with
          transferFee := state.transferFee.map fun config =>
            { config with withheldAmount := amount } } }

/-- The chain once nothing is withheld in an account of a mint. -/
def emptied (mint source : Address) : TokenChain :=
  match chain.accounts source with
  | none => chain
  | some account =>
      if account.mint = mint then
        chain.setAccount source <| some
          { account with withheldFee := account.withheldFee.map fun _ => 0 }
      else chain

/-- Harvest one source. -/
def harvestFrom (mint : Address) (chain : TokenChain) (source : Address) :
    Option TokenChain :=
  match chain.mintWithheld mint with
  | none => none
  | some held =>
      if held + chain.withheldBy mint source < 2 ^ 64 then
        some ((chain.setMintWithheld mint
          (held + chain.withheldBy mint source)).emptied mint source)
      else none

/-- `HarvestWithheldTokensToMint`. -/
def harvest (mint : Address) (sources : List Address) : Option TokenChain :=
  sources.foldlM (harvestFrom mint) chain

/-- `WithdrawWithheldTokensFromMint`. -/
def withdrawWithheld (signers : List Address)
    (mint treasury authority : Address) : Option TokenChain :=
  match chain.mints mint, chain.accounts treasury with
  | some state, some account =>
      match state.transferFee with
      | none => none
      | some config =>
          if config.withdrawWithheldAuthority = some authority ∧
              authority ∈ signers ∧ account.mint = mint ∧
              account.isFrozen = false ∧
              account.amount + config.withheldAmount < 2 ^ 64 then
            some ((chain.setMintWithheld mint 0).setAccount treasury <| some
              { account with
                amount := account.amount + config.withheldAmount })
          else none
  | _, _ => none

/-- Harvest and withdraw. -/
def collect (signers : List Address) (mint : Address)
    (sources : List Address) (treasury authority : Address) :
    Option TokenChain :=
  (chain.harvest mint sources).bind
    (withdrawWithheld · signers mint treasury authority)

/-- What there is to collect: what the mint holds, and what is withheld in the
sources, each counted once. -/
def collectable (mint : Address) (sources : List Address) : Nat :=
  (chain.mintWithheld mint).getD 0 +
    sources.toFinset.sum (chain.withheldBy mint)

variable {chain} {after : TokenChain} {mint source treasury : Address}

@[simp]
theorem mintWithheld_setAccount
    (address : Address) (account : Option AccountSnapshot) :
    (chain.setAccount address account).mintWithheld mint =
      chain.mintWithheld mint :=
  rfl

theorem emptied_mints : (chain.emptied mint source).mints = chain.mints := by
  unfold emptied
  split
  · rfl
  · split
    · rfl
    · rfl

theorem emptied_elsewhere
    {address : Address} (away : address ≠ source) :
    (chain.emptied mint source).accounts address = chain.accounts address := by
  unfold emptied
  split
  · rfl
  · split
    · exact chain.setAccount_of_ne away _
    · rfl

theorem emptied_epoch : (chain.emptied mint source).epoch = chain.epoch := by
  unfold emptied
  split
  · rfl
  · split
    · rfl
    · rfl

/-- Harvesting does not touch a balance. -/
theorem balance_emptied :
    (chain.emptied mint source).balance = chain.balance := by
  funext address
  unfold balance
  by_cases here : address = source
  · subst here
    unfold emptied
    rcases found : chain.accounts address with _ | account
    · simp [found]
    · dsimp only
      split
      · rw [setAccount_self]
        rfl
      · rw [found]
  · rw [emptied_elsewhere here]

/-- What was harvested is not there any more. -/
theorem withheldBy_emptied :
    (chain.emptied mint source).withheldBy mint =
      Function.update (chain.withheldBy mint) source 0 := by
  funext address
  by_cases here : address = source
  · subst here
    rw [Function.update_self]
    unfold withheldBy emptied
    rcases found : chain.accounts address with _ | account
    · simp [found]
    · dsimp only
      by_cases ofMint : account.mint = mint
      · rw [if_pos ofMint, setAccount_self]
        dsimp only
        rw [if_pos ofMint]
        cases account.withheldFee with
        | none => rfl
        | some withheld => rfl
      · simp only [if_neg ofMint, found]
  · rw [Function.update_of_ne here]
    unfold withheldBy
    rw [emptied_elsewhere here]

theorem mintWithheld_setMintWithheld
    {held amount : Nat} (found : chain.mintWithheld mint = some held) :
    (chain.setMintWithheld mint amount).mintWithheld mint = some amount := by
  obtain ⟨state, present, config⟩ := Option.bind_eq_some_iff.mp found
  obtain ⟨fee, hasFee, _⟩ := Option.map_eq_some_iff.mp config
  unfold setMintWithheld mintWithheld
  simp [present, hasFee]

/-- A harvest that succeeds moves what is withheld in its source. -/
theorem harvestFrom_eq_some
    (harvested : harvestFrom mint chain source = some after) :
    ∃ held, chain.mintWithheld mint = some held ∧
      after.mintWithheld mint =
        some (held + chain.withheldBy mint source) ∧
      after.withheldBy mint =
        Function.update (chain.withheldBy mint) source 0 ∧
      after.balance = chain.balance ∧ after.epoch = chain.epoch ∧
      (∀ address, address ≠ source →
        after.accounts address = chain.accounts address) ∧
      ∀ address, address ≠ mint →
        after.mints address = chain.mints address := by
  unfold harvestFrom at harvested
  split at harvested
  case h_1 => cases harvested
  case h_2 held found =>
      split at harvested
      case isFalse => cases harvested
      case isTrue =>
          cases harvested
          refine ⟨held, found, ?_, withheldBy_emptied, balance_emptied,
            emptied_epoch, fun address away => emptied_elsewhere away,
            fun address away => ?_⟩
          · unfold mintWithheld
            rw [emptied_mints]
            exact mintWithheld_setMintWithheld found
          · rw [emptied_mints]
            exact Function.update_of_ne away _ _

/-- Take the summand of one element out of a sum. -/
theorem add_sum_update {α : Type} [DecidableEq α] (s : Finset α) (f : α → Nat)
    (a : α) :
    f a + s.sum (Function.update f a 0) = (insert a s).sum f := by
  by_cases inside : a ∈ s
  · rw [Finset.sum_update_of_mem inside, Finset.insert_eq_of_mem inside,
      Nat.zero_add, Finset.sdiff_singleton_eq_erase,
      Finset.add_sum_erase s f inside]
  · rw [Finset.sum_update_of_notMem inside, Finset.sum_insert inside]

/-- Harvesting a list of sources moves what is withheld in them, whatever their
order and however often they are named. -/
theorem harvest_eq_some
    {sources : List Address}
    (harvested : chain.harvest mint sources = some after) :
    after.mintWithheld mint =
        (chain.mintWithheld mint).map
          (· + sources.toFinset.sum (chain.withheldBy mint)) ∧
      after.balance = chain.balance ∧ after.epoch = chain.epoch ∧
      (∀ address, address ∉ sources →
        after.accounts address = chain.accounts address) ∧
      ∀ address, address ≠ mint →
        after.mints address = chain.mints address := by
  induction sources generalizing chain with
  | nil =>
      cases harvested
      exact ⟨by simp, rfl, rfl, fun _ _ => rfl, fun _ _ => rfl⟩
  | cons source rest inductionHypothesis =>
      obtain ⟨next, first, onward⟩ := Option.bind_eq_some_iff.mp harvested
      obtain ⟨held, found, total, emptied, balances, epochs, accounts, mints⟩ :=
        harvestFrom_eq_some first
      obtain ⟨rests, balancesOn, epochsOn, accountsOn, mintsOn⟩ :=
        inductionHypothesis onward
      refine ⟨?_, balancesOn.trans balances,
        epochsOn.trans epochs, fun address away => ?_,
        fun address away => (mintsOn address away).trans (mints address away)⟩
      · rw [rests, total, found, List.toFinset_cons, ← add_sum_update,
          emptied, Option.map_some, Option.map_some, Nat.add_assoc]
      · have apart : address ≠ source ∧ address ∉ rest := by
          simpa using away
        exact (accountsOn address apart.2).trans (accounts address apart.1)

/-- Withdrawing adds what the mint holds to the treasury. -/
theorem withdrawWithheld_eq_some
    {signers : List Address} {authority : Address}
    (withdrawn :
      chain.withdrawWithheld signers mint treasury authority = some after) :
    ∃ held amount, chain.mintWithheld mint = some held ∧
      chain.balance treasury = some amount ∧
      after.balance treasury = some (amount + held) ∧
      after.epoch = chain.epoch ∧
      (∀ address, address ≠ treasury →
        after.accounts address = chain.accounts address) ∧
      ∀ address, address ≠ mint →
        after.mints address = chain.mints address := by
  unfold withdrawWithheld at withdrawn
  split at withdrawn
  case h_2 => cases withdrawn
  case h_1 state account mintFound found =>
      split at withdrawn
      case h_1 => cases withdrawn
      case h_2 config present =>
          split at withdrawn
          case isFalse => cases withdrawn
          case isTrue =>
              cases withdrawn
              refine ⟨config.withheldAmount, account.amount, ?_, ?_, ?_, rfl,
                fun address away => setAccount_of_ne _ away _,
                fun address away => Function.update_of_ne away _ _⟩
              · simp [mintWithheld, mintFound, present]
              · simp [balance, found]
              · simp [balance]

/-- Collecting adds all there is to collect to the balance of the treasury,
which may be a source itself. -/
theorem collect_eq_some
    {signers : List Address} {sources : List Address} {authority : Address}
    (collected :
      chain.collect signers mint sources treasury authority = some after) :
    ∃ amount, chain.balance treasury = some amount ∧
      after.balance treasury =
        some (amount + chain.collectable mint sources) ∧
      after.epoch = chain.epoch ∧
      (∀ address, address ∉ treasury :: sources →
        after.accounts address = chain.accounts address) ∧
      ∀ address, address ≠ mint →
        after.mints address = chain.mints address := by
  obtain ⟨swept, harvested, withdrawn⟩ := Option.bind_eq_some_iff.mp collected
  obtain ⟨totals, balances, epochs, accounts, mints⟩ :=
    harvest_eq_some harvested
  obtain ⟨held, amount, holds, before, left, epochsOn, accountsOn, mintsOn⟩ :=
    withdrawWithheld_eq_some withdrawn
  refine ⟨amount, by rw [← balances, before], ?_, epochsOn.trans epochs,
    fun address away => ?_,
    fun address away => (mintsOn address away).trans (mints address away)⟩
  · rw [totals] at holds
    obtain ⟨first, found, rfl⟩ := Option.map_eq_some_iff.mp holds
    rw [left, collectable, found, Option.getD_some]
  · have apart : address ≠ treasury ∧ address ∉ sources := by
      simpa using away
    exact (accountsOn address apart.1).trans (accounts address apart.2)

end TokenChain
end Remit
