import Remit.Coin.Accounts

/-!
# Sanctions

What was deposited is out of the reach of everybody but its owner: without the
owner's signature it is neither seized nor burnt, and for as long as it is there
the mint cannot be closed.  A freeze that lands first keeps the owner from
moving anything.
-/

namespace Remit

open Purses Runs

variable {crypto : Crypto} {coin : Coin} {signers : List Address}
  {chain after : TokenChain} {purses : Purse →₀ Nat} {address : Address}
  {account : AccountSnapshot} {move : Move Purse}

/-- The signature is on the transaction. -/
def CoinEvent.SignedBy (signer : Address) : CoinEvent → Prop
  | transact signers _ => signer ∈ signers
  | begin _ => False

instance (signer : Address) (event : CoinEvent) :
    Decidable (event.SignedBy signer) := by
  unfold CoinEvent.SignedBy
  split
  · infer_instance
  · infer_instance

/-! ## Money that only its owner can move -/

theorem OwnerSigns.mem
    (signs : OwnerSigns coin signers chain address)
    (here : chain.accountOf coin.mint address = some account) :
    account.owner ∈ signers := by
  obtain ⟨other, found, signed⟩ := signs
  obtain rfl := Option.some.inj (here.symm.trans found)
  exact signed

/-- Without the owner's signature nothing enters or leaves the available
balance. -/
theorem Permitted.leaves_available
    (permitted : Permitted coin signers chain move)
    (here : chain.accountOf coin.mint address = some account)
    (unsigned : account.owner ∉ signers) :
    .account address .available ∉ move.purses := by
  intro named
  cases permitted with
  | @apply other _ _ signs =>
      have same : address = other := by simpa [Move.purses] using named
      exact unsigned (OwnerSigns.mem signs (same ▸ here))
  | @send source _ _ _ _ signs =>
      have same : address = source := by simpa [Move.purses] using named
      exact unsigned (OwnerSigns.mem signs (same ▸ here))
  | @withhold source _ _ _ _ signs =>
      have same : address = source := by simpa [Move.purses] using named
      exact unsigned (OwnerSigns.mem signs (same ▸ here))
  | @reveal other _ _ signs =>
      have same : address = other := by simpa [Move.purses] using named
      exact unsigned (OwnerSigns.mem signs (same ▸ here))
  | _ => simp [Move.purses] at named

/-- Without the owner's signature nothing leaves the pending balance. -/
theorem Permitted.keeps_pending
    (permitted : Permitted coin signers chain move)
    (here : chain.accountOf coin.mint address = some account)
    (unsigned : account.owner ∉ signers) :
    move.source ≠ some (.account address .pending) := by
  intro taken
  cases permitted with
  | @apply other _ _ signs =>
      have same : other = address := by simpa [Move.source] using taken
      exact unsigned (OwnerSigns.mem signs (same ▸ here))
  | _ => simp [Move.source] at taken

/-- An account of an owner with at least so much pending, and so much
available. -/
def Hides (crypto : Crypto) (coin : Coin) (address owner : Address)
    (pending available : Nat) (chain : TokenChain) : Prop :=
  ∃ purses account, Backed crypto coin purses chain ∧
    chain.accountOf coin.mint address = some account ∧
    account.owner = owner ∧ pending ≤ held purses address .pending ∧
    held purses address .available = available

theorem Hides.performs
    {owner : Address} {pending available : Nat} {instruction : CoinInstruction}
    (hides : Hides crypto coin address owner pending available chain)
    (something : 0 < pending + available) (unsigned : owner ∉ signers)
    (performs : Performs crypto coin signers chain instruction after) :
    Hides crypto coin address owner pending available after := by
  obtain ⟨purses, account, backed, here, rfl, pendingLe, availableEq⟩ := hides
  obtain ⟨moves, left, permitted, ran, next⟩ := performs.settles backed
  have pendingKept : held purses address .pending ≤
      held left address .pending :=
    le_runAll ran fun move member =>
      (permitted move member).keeps_pending here unsigned
  have availableKept : held left address .available =
      held purses address .available :=
    runAll_elsewhere ran fun move member =>
      (permitted move member).leaves_available here unsigned
  cases found : after.accountOf coin.mint address with
  | none =>
      have nothing := next.absent address found
      have noPending : held left address .pending = 0 := congrFun nothing _
      have noAvailable : held left address .available = 0 := congrFun nothing _
      omega
  | some changed =>
      have step := performs.accounts address
      rw [here, found] at step
      cases step with
      | kept rules =>
          have sameOwner : changed.owner = account.owner :=
            rules.owner.resolve_right unsigned
          exact ⟨left, changed, next, found, sameOwner, by omega, by omega⟩

theorem Hides.performsAll
    {owner : Address} {pending available : Nat}
    {instructions : List CoinInstruction}
    (hides : Hides crypto coin address owner pending available chain)
    (something : 0 < pending + available) (unsigned : owner ∉ signers)
    (performs : PerformsAll crypto coin signers chain instructions after) :
    Hides crypto coin address owner pending available after := by
  induction performs with
  | nil => exact hides
  | cons first _ inductionHypothesis =>
      exact inductionHypothesis (hides.performs something unsigned first)

theorem Hides.step
    {owner : Address} {pending available : Nat} {event : CoinEvent}
    (hides : Hides crypto coin address owner pending available chain)
    (something : 0 < pending + available)
    (unsigned : ¬ event.SignedBy owner)
    (step : CoinStep crypto coin chain event after) :
    Hides crypto coin address owner pending available after := by
  cases step with
  | transact performs => exact hides.performsAll something unsigned performs
  | begin =>
      obtain ⟨purses, account, backed, rest⟩ := hides
      exact ⟨purses, account,
        backed.of_sameHoldings ⟨fun _ => sameMoney_refl _, rfl, rfl⟩, rest⟩

/-- What is hidden in an account is part of the supply of a mint that exists. -/
theorem Hides.covered
    {owner : Address} {pending available : Nat}
    (hides : Hides crypto coin address owner pending available chain)
    (something : 0 < pending + available) :
    ∃ mint, chain.mints coin.mint = some mint ∧
      pending + available ≤ mint.supply := by
  obtain ⟨purses, account, backed, _, _, pendingLe, availableEq⟩ := hides
  have both : purses (.account address .pending) +
      purses (.account address .available) ≤ total purses :=
    add_le_total (by simp)
  have supply := backed.supply
  unfold held at pendingLe availableEq
  unfold TokenChain.supply at supply
  cases exists_ : chain.mints coin.mint with
  | none =>
      rw [exists_] at supply
      simp only [Option.elim_none] at supply
      omega
  | some mint =>
      rw [exists_] at supply
      simp only [Option.elim_some] at supply
      exact ⟨mint, rfl, by omega⟩

/-! ## Frozen money -/

/-- No move takes from the balances of a frozen account or adds to them. -/
theorem Permitted.leaves_frozen
    {compartment : Compartment}
    (permitted : Permitted coin signers chain move)
    (here : chain.accountOf coin.mint address = some account)
    (frozen : account.isFrozen = true) (balance : compartment ≠ .fees) :
    .account address compartment ∉ move.purses := by
  have locked : ∀ other, Thawed coin chain other → address ≠ other := by
    rintro _ ⟨thawed, found, unfrozen⟩ rfl
    obtain rfl := Option.some.inj (here.symm.trans found)
    rw [frozen] at unfrozen
    cases unfrozen
  cases permitted with
  | issue _ _ _ _ thawed => simp [Move.purses, locked _ thawed]
  | burn _ thawed => simp [Move.purses, locked _ thawed]
  | pay _ thawed other => simp [Move.purses, locked _ thawed, locked _ other]
  | charge _ thawed => simp [Move.purses, locked _ thawed, balance]
  | harvest => simp [Move.purses, balance]
  | collect _ _ _ _ _ thawed => simp [Move.purses, locked _ thawed]
  | hide _ thawed => simp [Move.purses, locked _ thawed]
  | apply _ thawed => simp [Move.purses, locked _ thawed]
  | send _ thawed other => simp [Move.purses, locked _ thawed, locked _ other]
  | withhold _ thawed other =>
      simp [Move.purses, locked _ thawed, locked _ other]
  | reveal _ thawed => simp [Move.purses, locked _ thawed]

/-- A frozen account with given balances. -/
def FrozenWith (crypto : Crypto) (coin : Coin) (address : Address)
    (balances : Compartment → Nat) (chain : TokenChain) : Prop :=
  ∃ purses account, Backed crypto coin purses chain ∧
    chain.accountOf coin.mint address = some account ∧
    account.isFrozen = true ∧
    ∀ compartment, compartment ≠ .fees →
      held purses address compartment = balances compartment

/-- An instruction that neither thaws an account nor closes it. -/
def CoinInstruction.Spares (address : Address) (instruction : CoinInstruction) :
    Prop :=
  ¬ instruction.Closes address ∧
    ∀ mint authority,
      instruction ≠ .instruct (.thawAccount address mint authority)

/-- Freezing is the only way to toggle an account that is not thawed. -/
theorem Performs.stays_frozen
    {instruction : CoinInstruction} {changed : AccountSnapshot}
    (performs : Performs crypto coin signers chain instruction after)
    (spares : instruction.Spares address)
    (here : chain.accountOf coin.mint address = some account)
    (found : after.accountOf coin.mint address = some changed)
    (frozen : account.isFrozen = true) : changed.isFrozen = true := by
  have step := performs.accounts address
  rw [here, found] at step
  cases step with
  | kept rules =>
      rcases rules.state with same | ⟨toggles, _⟩
      · unfold AccountSnapshot.isFrozen at frozen ⊢
        rw [same]
        exact frozen
      · cases instruction with
        | instruct instruction =>
            cases instruction with
            | thawAccount other mint authority =>
                cases toggles
                exact absurd rfl (spares.2 mint authority)
            | freezeAccount other mint authority =>
                cases toggles
                cases performs with
                | perform performed =>
                    obtain ⟨before, beforeFound, unfrozen, _, _⟩ :=
                      TokenChain.toggleFreeze_eq_some performed
                    obtain ⟨same, _⟩ := TokenChain.accountOf_eq_some.mp here
                    obtain rfl := Option.some.inj (same.symm.trans beforeFound)
                    rw [frozen] at unfrozen
                    cases unfrozen
                | confide confides => cases confides
                | foreign confides => cases confides
            | _ => cases toggles
        | _ => cases toggles

theorem FrozenWith.performs
    {balances : Compartment → Nat} {instruction : CoinInstruction}
    (locked : FrozenWith crypto coin address balances chain)
    (spares : instruction.Spares address)
    (performs : Performs crypto coin signers chain instruction after) :
    FrozenWith crypto coin address balances after := by
  obtain ⟨purses, account, backed, here, frozen, holds⟩ := locked
  obtain ⟨moves, left, permitted, ran, next⟩ := performs.settles backed
  have step := performs.accounts address
  cases found : after.accountOf coin.mint address with
  | none =>
      rw [here, found] at step
      cases step with
      | closed closes => exact absurd closes spares.1
  | some changed =>
      refine ⟨left, changed, next, found,
        performs.stays_frozen spares here found frozen,
        fun compartment balance => ?_⟩
      rw [← holds compartment balance]
      exact runAll_elsewhere ran fun move member =>
        (permitted move member).leaves_frozen here frozen balance

theorem FrozenWith.performsAll
    {balances : Compartment → Nat} {instructions : List CoinInstruction}
    (locked : FrozenWith crypto coin address balances chain)
    (spares : ∀ instruction ∈ instructions, instruction.Spares address)
    (performs : PerformsAll crypto coin signers chain instructions after) :
    FrozenWith crypto coin address balances after := by
  induction performs with
  | nil => exact locked
  | cons first _ inductionHypothesis =>
      exact inductionHypothesis
        (locked.performs (spares _ List.mem_cons_self) first)
        fun other member => spares other (List.mem_cons_of_mem _ member)

/-! ## Seizures -/

/-- Two accounts with the same ciphertexts hide the same. -/
theorem Shows.hidden_eq
    {withheldKey : PodElGamalPubkey} {account changed : AccountSnapshot}
    {before later : Compartment → Nat}
    (shows : Shows crypto withheldKey account before)
    (shown : Shows crypto withheldKey changed later)
    (small : ∀ compartment, before compartment < 2 ^ 64)
    (laterSmall : ∀ compartment, later compartment < 2 ^ 64)
    (confidential : changed.confidential = account.confidential)
    (withheld : changed.confidentialWithheld = account.confidentialWithheld) :
    later .pending = before .pending ∧ later .available = before .available ∧
      later .hidden = before .hidden := by
  have same : ∀ compartment,
      ((later compartment : Nat) : ZMod crypto.order) = before compartment →
        later compartment = before compartment := by
    intro compartment equal
    have bound := small compartment
    have laterBound := laterSmall compartment
    exact natCast_inj (by omega) (by omega) equal
  refine ⟨?_, ?_, ?_⟩
  · cases configured : account.confidential with
    | none =>
        rw [(shows.unconfigured configured).1,
          (shown.unconfigured (confidential.trans configured)).1]
    | some state =>
        refine same _ ?_
        rw [← shows.pending state configured,
          ← shown.pending state (confidential.trans configured)]
  · cases configured : account.confidential with
    | none =>
        rw [(shows.unconfigured configured).2,
          (shown.unconfigured (confidential.trans configured)).2]
    | some state =>
        refine same _ ?_
        rw [← shows.available state configured,
          ← shown.available state (confidential.trans configured)]
  · cases present : account.confidentialWithheld with
    | none =>
        rw [shows.unwithheld present,
          shown.unwithheld (withheld.trans present)]
    | some fees =>
        refine same _ ?_
        rw [← shows.hidden fees present,
          ← shown.hidden fees (withheld.trans present)]

/-- The instructions of a seizure from a frozen account. -/
def seizureOf (source mint destination authority freezer : Address)
    (amount decimals fee : Nat) : List CoinInstruction :=
  [.instruct (.thawAccount source mint freezer),
    .instruct (.transferCheckedWithFee source mint destination authority amount
      decimals fee),
    .instruct (.freezeAccount source mint freezer)]

/-- Three instructions that are carried out. -/
theorem PerformsAll.three
    {first second third : CoinInstruction}
    (performs :
      PerformsAll crypto coin signers chain [first, second, third] after) :
    ∃ one two, Performs crypto coin signers chain first one ∧
      Performs crypto coin signers one second two ∧
      Performs crypto coin signers two third after := by
  cases performs with
  | cons one rest =>
      cases rest with
      | cons two rest =>
          cases rest with
          | cons three rest =>
              cases rest
              exact ⟨_, _, one, two, three⟩

/-- A public instruction is carried out as it is computed. -/
theorem Performs.of_public
    {instruction : TokenInstruction}
    (performs :
      Performs crypto coin signers chain (.instruct instruction) after)
    (isPublic : instruction.isPublic = true) :
    instruction.perform signers chain = some after := by
  cases performs with
  | perform performed => exact performed
  | initializeExtension => cases isPublic
  | initializeMint => cases isPublic
  | confide confides =>
      cases instruction with
      | thawAccount => cases confides
      | freezeAccount => cases confides
      | transferCheckedWithFee => cases confides
      | _ => cases isPublic
  | foreign confides =>
      cases instruction with
      | thawAccount => cases confides
      | freezeAccount => cases confides
      | transferCheckedWithFee => cases confides
      | _ => cases isPublic
  | configure => cases isPublic
  | reallocate => cases isPublic
  | closeAccount => cases isPublic

/-- What a seizure leaves of the account. -/
theorem PerformsAll.seizureOf_account
    {mint destination authority freezer : Address} {amount decimals fee : Nat}
    (performs : PerformsAll crypto coin signers chain
      (seizureOf address mint destination authority freezer amount decimals fee)
      after)
    (different : destination ≠ address)
    (found : chain.accounts address = some account) :
    ∃ left, after.accounts address = some left ∧ left.isFrozen = true ∧
      left.mint = account.mint ∧ amount ≤ account.amount ∧
      left.amount = account.amount - amount ∧
      left.confidential = account.confidential ∧
      left.confidentialWithheld = account.confidentialWithheld := by
  obtain ⟨one, two, thaws, transfers, freezes⟩ := performs.three
  obtain ⟨before, beforeFound, _, _, rfl⟩ :=
    TokenChain.toggleFreeze_eq_some (thaws.of_public rfl)
  obtain rfl := Option.some.inj (found.symm.trans beforeFound)
  obtain ⟨payer, payee, state, debited, payerFound, _, _, _, _, _, debits,
    moved⟩ := TokenChain.transferChecked_eq_some (transfers.of_public rfl)
  rw [TokenChain.setAccount_self] at payerFound
  cases payerFound
  obtain ⟨last, lastFound, _, _, rfl⟩ :=
    TokenChain.toggleFreeze_eq_some (freezes.of_public rfl)
  rcases moved with ⟨same, _⟩ | ⟨_, credited, _, rfl⟩
  · exact absurd same.symm different
  rw [TokenChain.setAccount_of_ne _ (Ne.symm different),
    TokenChain.setAccount_self] at lastFound
  cases lastFound
  have enough := (AccountSnapshot.debitedBy_eq_some debits).1
  have money := AccountSnapshot.debitedBy_money debits
  refine ⟨_, TokenChain.setAccount_self .., rfl, ?_, enough, ?_, ?_, ?_⟩
  all_goals rw [money]

/-- A seizure takes the amount from what can be spent, and nothing else. -/
theorem FrozenWith.seized
    {balances : Compartment → Nat}
    {mint destination authority freezer : Address} {amount decimals fee : Nat}
    (locked : FrozenWith crypto coin address balances chain)
    (different : destination ≠ address)
    (performs : PerformsAll crypto coin signers chain
      (seizureOf address mint destination authority freezer amount decimals fee)
      after) :
    amount ≤ balances .spendable ∧
      FrozenWith crypto coin address
        (Function.update balances .spendable (balances .spendable - amount))
        after := by
  obtain ⟨purses, account, backed, here, frozen, holds⟩ := locked
  obtain ⟨left, next⟩ := performs.isBacked ⟨purses, backed⟩
  obtain ⟨found, ofMint⟩ := TokenChain.accountOf_eq_some.mp here
  obtain ⟨changed, changedFound, stillFrozen, sameMint, enough, rest,
    confidential, withheld⟩ := performs.seizureOf_account different found
  have there : after.accountOf coin.mint address = some changed :=
    TokenChain.accountOf_eq_some.mpr ⟨changedFound, sameMint.trans ofMint⟩
  have shows := backed.shows address account here
  have shown := next.shows address changed there
  obtain ⟨pending, available, hidden⟩ := shows.hidden_eq shown
    (backed.held_lt address) (next.held_lt address) confidential withheld
  have spendable := holds .spendable (by simp)
  rw [shows.spendable] at spendable
  refine ⟨by omega, left, changed, next, there, stillFrozen,
    fun compartment balance => ?_⟩
  cases compartment with
  | fees => exact absurd rfl balance
  | spendable => rw [shown.spendable, rest, Function.update_self, spendable]
  | pending =>
      rw [pending, holds .pending (by simp), Function.update_of_ne (by simp)]
  | available =>
      rw [available, holds .available (by simp),
        Function.update_of_ne (by simp)]
  | hidden =>
      rw [hidden, holds .hidden (by simp), Function.update_of_ne (by simp)]

/-- A transaction that neither thaws the account nor closes it. -/
def CoinEvent.Spares (address : Address) : CoinEvent → Prop
  | transact _ instructions =>
      ∀ instruction ∈ instructions, instruction.Spares address
  | begin _ => True

/-- Whatever spares a frozen account leaves its balances as they are. -/
theorem FrozenWith.spared
    {balances : Compartment → Nat} {event : CoinEvent}
    (locked : FrozenWith crypto coin address balances chain)
    (spares : event.Spares address)
    (step : CoinStep crypto coin chain event after) :
    FrozenWith crypto coin address balances after := by
  cases step with
  | transact performs => exact locked.performsAll spares performs
  | begin =>
      obtain ⟨purses, account, backed, rest⟩ := locked
      exact ⟨purses, account,
        backed.of_sameHoldings ⟨fun _ => sameMoney_refl _, rfl, rfl⟩, rest⟩

end Remit
