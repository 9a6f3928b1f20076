import Remit.Token.Guard

/-!
# Switching CPI Guard on

Nothing about a transfer depends on CPI Guard, apart from its being blocked: it
does not matter whether the guard is switched on before or after it.
-/

namespace Remit

namespace AccountSnapshot

/-- The account, with CPI Guard switched on if it is the one at an address. -/
def guardedAt (place address : Address) (account : AccountSnapshot) :
    AccountSnapshot :=
  if address = place then account.guarded else account

variable {place address : Address} {account : AccountSnapshot}

@[simp]
theorem guardedAt_mint : (account.guardedAt place address).mint =
    account.mint := by
  unfold guardedAt
  split
  · rfl
  · rfl

@[simp]
theorem guardedAt_owner : (account.guardedAt place address).owner =
    account.owner := by
  unfold guardedAt
  split
  · rfl
  · rfl

@[simp]
theorem guardedAt_isFrozen : (account.guardedAt place address).isFrozen =
    account.isFrozen := by
  unfold guardedAt
  split
  · rfl
  · rfl

theorem guardedAt_debitedBy
    (permanentDelegate : Option Address) (authority : Address) (amount : Nat) :
    (account.guardedAt place address).debitedBy permanentDelegate authority
        amount =
      (account.debitedBy permanentDelegate authority amount).map
        (·.guardedAt place address) := by
  have switched : account.guarded.debitedBy permanentDelegate authority
      amount =
      (account.debitedBy permanentDelegate authority amount).map
        (·.guarded) := by
    unfold debitedBy guarded
    dsimp only
    split
    · split
      · rfl
      · split
        · split
          · rfl
          · rfl
        · split
          · rfl
          · rfl
    · rfl
  unfold guardedAt
  split
  · exact switched
  · simp

theorem guardedAt_creditedWith (amount fee : Nat) :
    (account.guardedAt place address).creditedWith amount fee =
      (account.creditedWith amount fee).map
        (·.guardedAt place address) := by
  have switched : account.guarded.creditedWith amount fee =
      (account.creditedWith amount fee).map (·.guarded) := by
    unfold creditedWith guarded
    dsimp only
    split
    · split
      · rfl
      · cases account.withheldFee with
        | none => rfl
        | some withheld =>
            dsimp only
            split
            · rfl
            · rfl
    · rfl
  unfold guardedAt
  split
  · exact switched
  · simp

end AccountSnapshot

namespace TokenChain

variable (place : Address) (chain : TokenChain)

/-- The chain once CPI Guard was switched on in an account. -/
def guarding : TokenChain :=
  { chain with
    accounts := fun address =>
      (chain.accounts address).map (·.guardedAt place address) }

variable {place chain} {signers : List Address}

theorem guarding_eq_setAccount
    {account : AccountSnapshot} (found : chain.accounts place = some account) :
    chain.guarding place =
      chain.setAccount place (some account.guarded) := by
  refine TokenChain.ext (funext fun address => ?_) rfl rfl
  by_cases here : address = place
  · subst here
    simp [guarding, found, AccountSnapshot.guardedAt]
  · rw [setAccount_of_ne _ here]
    simp [guarding, AccountSnapshot.guardedAt, here]

/-- Switching the guard on is what the instruction does for the owner. -/
theorem enableCpiGuard_eq_some
    {owner : Address} {after : TokenChain} :
    chain.enableCpiGuard signers place owner = some after ↔
      (∃ account, chain.accounts place = some account ∧
        account.owner = owner) ∧ owner ∈ signers ∧
        after = chain.guarding place := by
  constructor
  · intro enabled
    obtain ⟨account, changed, found, owned, signed, changes, rfl⟩ :=
      asOwner_eq_some enabled
    cases changes
    exact ⟨⟨account, found, owned⟩, signed, (guarding_eq_setAccount found).symm⟩
  · rintro ⟨⟨account, found, owned⟩, signed, rfl⟩
    unfold enableCpiGuard asOwner
    rw [found, guarding_eq_setAccount found]
    exact if_pos ⟨owned, signed⟩

theorem guarding_setAccount
    {address : Address} {account : AccountSnapshot} :
    (chain.guarding place).setAccount address
        (some (account.guardedAt place address)) =
      (chain.setAccount address (some account)).guarding place := by
  refine TokenChain.ext (funext fun other => ?_) rfl rfl
  by_cases here : other = address
  · subst here
    simp [guarding]
  · simp [guarding, setAccount_of_ne _ here]

/-- A transfer does the same before and after. -/
theorem guarding_transferChecked
    {source mint destination authority : Address} {amount decimals fee : Nat} :
    (chain.guarding place).transferChecked signers source mint destination
        authority amount decimals fee =
      (chain.transferChecked signers source mint destination authority amount
        decimals fee).map (·.guarding place) := by
  unfold transferChecked
  cases payerFound : chain.accounts source with
  | none => simp [guarding, payerFound]
  | some payer =>
      cases payeeFound : chain.accounts destination with
      | none => simp [guarding, payerFound, payeeFound]
      | some payee =>
          cases mintFound : chain.mints mint with
          | none => simp [guarding, payerFound, payeeFound, mintFound]
          | some state =>
              have payerSwitched : (chain.guarding place).accounts source =
                  some (payer.guardedAt place source) := by
                simp [guarding, payerFound]
              have payeeSwitched : (chain.guarding place).accounts destination =
                  some (payee.guardedAt place destination) := by
                simp [guarding, payeeFound]
              have mintSame : (chain.guarding place).mints mint = some state :=
                mintFound
              have epochSame : (chain.guarding place).epoch = chain.epoch := rfl
              simp only [payerSwitched, payeeSwitched, mintSame, epochSame,
                AccountSnapshot.guardedAt_mint,
                AccountSnapshot.guardedAt_isFrozen,
                AccountSnapshot.guardedAt_debitedBy,
                AccountSnapshot.guardedAt_creditedWith]
              split
              case isFalse => rfl
              case isTrue =>
                  cases payer.debitedBy state.permanentDelegate authority
                      amount with
                  | none => rfl
                  | some debited =>
                      dsimp only [Option.map_some]
                      split
                      case isTrue => rfl
                      case isFalse =>
                          rw [Option.map_map, Option.map_map]
                          congr 1
                          funext credited
                          dsimp only [Function.comp]
                          rw [guarding_setAccount, guarding_setAccount]

end TokenChain
end Remit
