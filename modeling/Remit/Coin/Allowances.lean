import Remit.Coin.Mints

/-!
# What others can spend

Without the signatures of its owner and of the permanent delegate, nothing
leaves an account but under the allowance that its owner has granted, which only
shrinks.  CPI Guard stays as it is.
-/

namespace Remit

/-- What is missing from the account afterwards was spent under its allowance,
by its delegate, who is one of those who act. -/
structure AccountSnapshot.SpentUnder (acts : Address → Prop)
    (before after : AccountSnapshot) : Prop where
  mint : after.mint = before.mint
  owner : after.owner = before.owner
  cpiGuard : after.cpiGuard = before.cpiGuard
  delegate : after.delegate = before.delegate ∨ after.delegate = none
  allowance : after.delegatedAmount ≤ before.delegatedAmount
  amount : before.amount + after.delegatedAmount ≤
    after.amount + before.delegatedAmount
  spender : after.amount < before.amount →
    ∃ key, before.delegate = some key ∧ acts key

namespace AccountSnapshot.SpentUnder

variable {acts others : Address → Prop}
  {before between after : AccountSnapshot}

theorem trans
    (first : before.SpentUnder acts between)
    (second : between.SpentUnder acts after) :
    before.SpentUnder acts after where
  mint := second.mint.trans first.mint
  owner := second.owner.trans first.owner
  cpiGuard := second.cpiGuard.trans first.cpiGuard
  delegate := by
    rcases second.delegate with same | gone
    · rw [same]
      exact first.delegate
    · exact .inr gone
  allowance := Nat.le_trans second.allowance first.allowance
  amount := by
    have spentFirst := first.amount
    have spentSecond := second.amount
    omega
  spender less := by
    by_cases earlier : between.amount < before.amount
    · exact first.spender earlier
    · obtain ⟨key, isDelegate, acted⟩ := second.spender (by omega)
      rcases first.delegate with same | gone
      · exact ⟨key, same ▸ isDelegate, acted⟩
      · rw [gone] at isDelegate
        cases isDelegate

theorem mono
    (spent : before.SpentUnder acts after)
    (more : ∀ key, acts key → others key) :
    before.SpentUnder others after :=
  { spent with
    spender := fun less =>
      have ⟨key, isDelegate, acted⟩ := spent.spender less
      ⟨key, isDelegate, more key acted⟩ }

/-- Nothing was spent. -/
theorem of_grown
    (mint : after.mint = before.mint) (owner : after.owner = before.owner)
    (cpiGuard : after.cpiGuard = before.cpiGuard)
    (delegate : after.delegate = before.delegate)
    (allowance : after.delegatedAmount = before.delegatedAmount)
    (grown : before.amount ≤ after.amount) :
    before.SpentUnder acts after where
  mint := mint
  owner := owner
  cpiGuard := cpiGuard
  delegate := .inl delegate
  allowance := Nat.le_of_eq allowance
  amount := by omega
  spender less := absurd less (Nat.not_lt.mpr grown)

theorem refl : before.SpentUnder acts before :=
  .of_grown rfl rfl rfl rfl rfl (Nat.le_refl _)

/-- Whoever debits an account and is neither its owner nor the permanent
delegate uses the allowance. -/
theorem of_debitedBy
    {permanentDelegate : Option Address} {authority : Address} {amount : Nat}
    (debited :
      before.debitedBy permanentDelegate authority amount = some after)
    (notPermanent : permanentDelegate ≠ some authority)
    (notOwner : before.owner ≠ authority) (acted : acts authority) :
    before.SpentUnder acts after := by
  have money := AccountSnapshot.debitedBy_money debited
  obtain ⟨enough, left, terms, entitled, spends⟩ :=
    AccountSnapshot.debitedBy_eq_some debited
  have delegated : before.delegate = some authority := by
    rcases entitled with permanent | owned | delegated
    · exact absurd permanent notPermanent
    · exact absurd owned notOwner
    · exact delegated
  obtain ⟨allowed, allowance, delegate⟩ := spends notPermanent delegated
  exact
    { mint := terms.mint
      owner := terms.owner
      cpiGuard := by rw [money]
      delegate := delegated ▸ delegate
      allowance := by omega
      amount := by omega
      spender := fun _ => ⟨authority, delegated, acted⟩ }

theorem of_creditedWith
    {amount fee : Nat}
    (credited : before.creditedWith amount fee = some after) :
    before.SpentUnder acts after := by
  have money := (AccountSnapshot.creditedWith_money credited).2.1
  obtain ⟨terms, _, delegate, allowance, grown⟩ :=
    AccountSnapshot.creditedWith_eq_some credited
  exact .of_grown terms.mint terms.owner (by rw [money]) delegate allowance
    grown

end AccountSnapshot.SpentUnder

section Spending

variable (coin : Coin) (signers : List Address) (chain : TokenChain)

/-- The permanent delegate of the mint has signed. -/
def SeizerSigns : Prop :=
  ∃ mint authority, chain.mints coin.mint = some mint ∧
    mint.permanentDelegate = some authority ∧ authority ∈ signers

/-- Nothing was spent from an account without its owner but under its
allowance, if the account was not closed. -/
def SpendsAllowances (closes : Address → Prop) (later : TokenChain) : Prop :=
  ∀ address before, chain.accountOf coin.mint address = some before →
    before.owner ∉ signers → ¬ closes address →
      ∃ after, later.accountOf coin.mint address = some after ∧
        before.SpentUnder (· ∈ signers) after

end Spending

section Steps

variable {coin : Coin} {signers : List Address} {chain later : TokenChain}
  {account changed : AccountSnapshot} {address : Address}
  {closes : Address → Prop}

theorem SpendsAllowances.of_accounts
    (same : later.accounts = chain.accounts) :
    SpendsAllowances coin signers chain closes later := by
  intro address before here _ _
  refine ⟨before, ?_, .refl⟩
  unfold TokenChain.accountOf at here ⊢
  rw [same]
  exact here

/-- An account that was there and was changed. -/
theorem spent_accountOf
    (here : chain.accountOf coin.mint address = some account)
    (found : later.accounts address = some changed)
    (spent : account.SpentUnder (· ∈ signers) changed) :
    ∃ after, later.accountOf coin.mint address = some after ∧
      account.SpentUnder (· ∈ signers) after := by
  have ofMint := (TokenChain.accountOf_eq_some.mp here).2
  exact ⟨changed, TokenChain.accountOf_eq_some.mpr
    ⟨found, spent.mint.trans ofMint⟩, spent⟩

/-- One account changes. -/
theorem SpendsAllowances.setAccount
    (found : chain.accounts address = some account)
    (spent : account.owner ∉ signers → account.mint = coin.mint →
      account.SpentUnder (· ∈ signers) changed) :
    SpendsAllowances coin signers chain closes
      (chain.setAccount address (some changed)) := by
  intro other before here unsigned _
  have present := TokenChain.accountOf_eq_some.mp here
  by_cases same : other = address
  · subst same
    cases found.symm.trans present.1
    exact spent_accountOf here (TokenChain.setAccount_self ..)
      (spent unsigned present.2)
  · refine ⟨before, ?_, .refl⟩
    rw [TokenChain.accountOf_setAccount_of_ne same]
    exact here

/-- Two accounts change. -/
theorem SpendsAllowances.setAccounts
    {source destination : Address}
    {payer payee debited credited : AccountSnapshot}
    (different : source ≠ destination)
    (found : chain.accounts source = some payer)
    (payeeFound : chain.accounts destination = some payee)
    (spent : payer.owner ∉ signers → payer.mint = coin.mint →
      payer.SpentUnder (· ∈ signers) debited)
    (received : payee.SpentUnder (· ∈ signers) credited) :
    SpendsAllowances coin signers chain closes
      ((chain.setAccount source (some debited)).setAccount destination
        (some credited)) := by
  intro other before here unsigned open_
  obtain ⟨between, middle, first⟩ := SpendsAllowances.setAccount found spent
    other before here unsigned open_
  have payeeStays : (chain.setAccount source (some debited)).accounts
      destination = some payee := by
    rw [TokenChain.setAccount_of_ne _ different.symm]
    exact payeeFound
  have unsignedStill : between.owner ∉ signers := first.owner ▸ unsigned
  obtain ⟨after, last, second⟩ := SpendsAllowances.setAccount payeeStays
    (fun _ _ => received) other between middle unsignedStill open_
  exact ⟨after, last, first.trans second⟩

/-- A transfer that somebody else than the owner asks for. -/
theorem spent_of_transferChecked
    {source mint destination authority : Address} {amount decimals fee : Nat}
    (unseized : ¬ SeizerSigns coin signers chain)
    (transferred :
      chain.transferChecked signers source mint destination authority amount
        decimals fee = some later)
    (here : chain.accountOf coin.mint address = some account)
    (unowned : source = address → account.owner ≠ authority) :
    ∃ after, later.accountOf coin.mint address = some after ∧
      account.SpentUnder (· ∈ signers) after := by
  have signed := (TokenChain.transferChecked_signed transferred).1
  obtain ⟨found, own⟩ := TokenChain.accountOf_eq_some.mp here
  obtain ⟨payer, payee, state, debited, payerFound, payeeFound, mintFound,
    ofMint, _, _, debits, moved⟩ :=
    TokenChain.transferChecked_eq_some transferred
  rcases moved with ⟨_, rfl⟩ | ⟨different, credited, credits, rfl⟩
  · exact ⟨account, here, .refl⟩
  by_cases paid : address = destination
  · subst paid
    cases found.symm.trans payeeFound
    exact spent_accountOf here (TokenChain.setAccount_self ..)
      (.of_creditedWith credits)
  by_cases paying : address = source
  · subst paying
    cases found.symm.trans payerFound
    refine spent_accountOf here ?_
      (.of_debitedBy debits (fun permanent => unseized ?_) (unowned rfl) signed)
    · rw [TokenChain.setAccount_of_ne _ different]
      exact TokenChain.setAccount_self ..
    · exact ⟨state, authority, own ▸ ofMint ▸ mintFound, permanent, signed⟩
  · refine spent_accountOf here ?_ .refl
    rw [TokenChain.setAccount_of_ne _ paid,
      TokenChain.setAccount_of_ne _ paying]
    exact found

theorem SpendsAllowances.of_transferChecked
    {source mint destination authority : Address} {amount decimals fee : Nat}
    (unseized : ¬ SeizerSigns coin signers chain)
    (transferred :
      chain.transferChecked signers source mint destination authority amount
        decimals fee = some later) :
    SpendsAllowances coin signers chain closes later := by
  intro address before here unsigned _
  have signed := (TokenChain.transferChecked_signed transferred).1
  exact spent_of_transferChecked unseized transferred here
    fun _ owned => unsigned (owned ▸ signed)

theorem SpendsAllowances.of_burn
    {source mint authority : Address} {amount decimals : Nat}
    (unseized : ¬ SeizerSigns coin signers chain)
    (burnt :
      chain.burn signers source mint authority amount decimals = some later) :
    SpendsAllowances coin signers chain closes later := by
  obtain ⟨account, state, debited, found, mintFound, signed, ofMint, _, debits,
    rfl⟩ := TokenChain.burn_eq_some burnt
  have step : SpendsAllowances coin signers chain closes
      (chain.setAccount source (some debited)) := by
    refine .setAccount found fun unsigned own => ?_
    refine .of_debitedBy debits (fun permanent => unseized ?_)
      (fun owned => unsigned (owned ▸ signed)) signed
    exact ⟨state, authority, own ▸ ofMint ▸ mintFound, permanent, signed⟩
  exact step

/-- The owner has signed. -/
theorem SpendsAllowances.of_asOwner
    {owner : Address} {change : AccountSnapshot → Option AccountSnapshot}
    (done : chain.asOwner signers address owner change = some later) :
    SpendsAllowances coin signers chain closes later := by
  obtain ⟨account, changed, found, rfl, signed, _, rfl⟩ :=
    TokenChain.asOwner_eq_some done
  exact .setAccount found fun unsigned => absurd signed unsigned

theorem SpendsAllowances.of_harvest
    {mint : Address} {sources : List Address}
    (harvested : chain.harvest mint sources = some later) :
    SpendsAllowances coin signers chain closes later := by
  intro address before here _ _
  have related := TokenChain.harvest_accounts harvested address
  rw [(TokenChain.accountOf_eq_some.mp here).1] at related
  cases left : later.accounts address with
  | none =>
      rw [left] at related
      cases related
  | some after =>
      rw [left] at related
      cases related with
      | some same =>
          unfold AccountSnapshot.SameButFees at same
          refine spent_accountOf here left ?_
          rw [same]
          exact .of_grown rfl rfl rfl rfl rfl (Nat.le_refl _)

theorem SpendsAllowances.of_perform
    {instruction : TokenInstruction}
    (unseized : ¬ SeizerSigns coin signers chain)
    (performed : instruction.perform signers chain = some later) :
    SpendsAllowances coin signers chain closes later := by
  cases instruction with
  | initializeMetadata metadata updateAuthority mint mintAuthority name symbol
      uri =>
      have described : chain.describe signers
          (.initializeMetadata metadata updateAuthority mint mintAuthority name
            symbol uri) = some later := performed
      exact .of_accounts (TokenChain.describe_elsewhere described).1
  | updateField metadata updateAuthority key value =>
      have described : chain.describe signers
          (.updateField metadata updateAuthority key value) = some later :=
        performed
      exact .of_accounts (TokenChain.describe_elsewhere described).1
  | transferCheckedWithFee => exact .of_transferChecked unseized performed
  | setTransferFee =>
      obtain ⟨_, _, _, _, rfl⟩ := TokenChain.setTransferFee_eq_some performed
      exact .of_accounts rfl
  | harvestWithheldTokensToMint => exact .of_harvest performed
  | withdrawWithheldTokensFromMint _ treasury =>
      obtain ⟨_, config, account, _, _, found, _, _, _, _, rfl⟩ :=
        TokenChain.withdrawWithheld_money performed
      have step : SpendsAllowances coin signers chain closes
          (chain.setAccount treasury
            (some { account with
              amount := account.amount + config.withheldAmount })) :=
        .setAccount found fun _ _ =>
          .of_grown rfl rfl rfl rfl rfl (Nat.le_add_right ..)
      exact step
  | thawAccount | freezeAccount =>
      obtain ⟨account, found, _, _, rfl⟩ :=
        TokenChain.toggleFreeze_eq_some performed
      exact .setAccount found fun _ _ =>
        .of_grown rfl rfl rfl rfl rfl (Nat.le_refl _)
  | updateDefaultAccountState =>
      obtain ⟨_, _, _, _, rfl⟩ := TokenChain.changeMint_eq_some performed
      exact .of_accounts rfl
  | mintToChecked mint destination authority amount decimals =>
      obtain ⟨_, account, _, found, _, _, _, _, _, rfl⟩ :=
        TokenChain.mintTo_eq_some performed
      have step : SpendsAllowances coin signers chain closes
          (chain.setAccount destination
            (some { account with amount := account.amount + amount })) :=
        .setAccount found fun _ _ =>
          .of_grown rfl rfl rfl rfl rfl (Nat.le_add_right ..)
      exact step
  | approveChecked =>
      obtain ⟨account, found, rfl, signed, _, _, rfl⟩ :=
        TokenChain.approve_eq_some performed
      exact .setAccount found fun unsigned => absurd signed unsigned
  | enableCpiGuard => exact .of_asOwner performed
  | closeAccount =>
      obtain ⟨_, _, _, _, _, rfl⟩ := TokenChain.closeMint_eq_some performed
      exact .of_accounts rfl
  | setAuthority account authority type newAuthority =>
      cases type with
      | accountOwner => exact .of_asOwner performed
      | mintTokens | freezeAccount | closeAccount | extension =>
          obtain ⟨_, _, _, _, rfl⟩ := TokenChain.changeMint_eq_some performed
          exact .of_accounts rfl
  | approveAccount =>
      obtain ⟨account, _, _, _, found, _, _, _, _, _, _, rfl⟩ :=
        TokenChain.approveConfidential_eq_some performed
      exact .setAccount found fun _ _ =>
        .of_grown rfl rfl rfl rfl rfl (Nat.le_refl _)
  | _ => cases performed

theorem SpendsAllowances.of_unconcerned
    (unconcerned : Unconcerned coin chain later) :
    SpendsAllowances coin signers chain closes later := by
  intro address before here _ _
  have related := unconcerned.accounts address
  rw [here] at related
  cases left : later.accountOf coin.mint address with
  | none =>
      rw [left] at related
      cases related
  | some after =>
      rw [left] at related
      cases related with
      | some same =>
          refine ⟨after, rfl, ?_⟩
          rw [same]
          exact .of_grown rfl rfl rfl rfl rfl (Nat.le_refl _)

/-- The owner of what is paid has signed, and what is received is hidden. -/
theorem SpendsAllowances.of_executes
    {crypto : Crypto} {withheldKey : PodElGamalPubkey} {execution : Execution}
    {accounts : TokenAccounts}
    (found : chain.accounts execution.payer = some account)
    (signed : account.owner ∈ signers)
    (executes :
      Executes crypto withheldKey chain.accounts execution accounts) :
    SpendsAllowances coin signers chain closes { chain with accounts } := by
  cases executes with
  | deposit | applyPendingBalance | transferToSelf | withdraw =>
      exact SpendsAllowances.setAccount found fun unsigned =>
        absurd signed unsigned
  | transfer different payerFound _ _ otherFound =>
      refine SpendsAllowances.setAccounts different found otherFound
        (fun unsigned => absurd signed unsigned) ?_
      exact .of_grown rfl rfl rfl rfl rfl (Nat.le_refl _)

/-- Whatever is carried out without the permanent delegate. -/
theorem Performs.spends
    {crypto : Crypto} {instruction : CoinInstruction}
    (performs : Performs crypto coin signers chain instruction later)
    (unseized : ¬ SeizerSigns coin signers chain) :
    SpendsAllowances coin signers chain (instruction.Closes ·) later := by
  cases performs with
  | perform performed => exact .of_perform unseized performed
  | initializeExtension => exact .of_accounts rfl
  | initializeMint => exact .of_accounts rfl
  | confide _ found _ _ signed executes =>
      exact .of_executes found signed executes
  | foreign _ _ _ unconcerned => exact .of_unconcerned unconcerned
  | configure found _ _ signed =>
      exact .setAccount found fun unsigned => absurd signed unsigned
  | reallocate _ _ found signed =>
      exact .setAccount found fun unsigned => absurd signed unsigned
  | burn burnt => exact .of_burn unseized burnt
  | revoke revoked => exact .of_asOwner revoked
  | @openAccount account mint missing =>
      intro other before here _ _
      have away : other ≠ account.address := by
        intro same
        have found := (TokenChain.accountOf_eq_some.mp here).1
        rw [same, missing] at found
        cases found
      refine ⟨before, ?_, .refl⟩
      rw [TokenChain.accountOf_setAccount_of_ne away]
      exact here
  | adjust found signed =>
      exact .setAccount found fun unsigned => absurd signed unsigned
  | reform done =>
      obtain ⟨_, _, _, _, _, _, rfl⟩ := TokenChain.reform_eq_some done
      exact .of_accounts rfl
  | @closeAccount closed _ _ account =>
      intro other before here _ stays
      have away : other ≠ closed := fun same => stays same.symm
      refine ⟨before, ?_, .refl⟩
      rw [TokenChain.accountOf_setAccount_of_ne away]
      exact here
  | elsewhere unconcerned => exact .of_unconcerned unconcerned

variable {crypto : Crypto} {instructions : List CoinInstruction}
  {seizer : Option Address}

theorem HeldBy.not_seizerSigns
    (held : HeldBy coin (.extension .permanentDelegate) seizer chain)
    (unsigned : ∀ key ∈ signers, seizer ≠ some key) :
    ¬ SeizerSigns coin signers chain := by
  rintro ⟨mint, key, found, permanent, signed⟩
  obtain ⟨state, stateFound, isHolder⟩ := held
  rw [found] at stateFound
  cases stateFound
  exact unsigned key signed (isHolder.symm.trans permanent)

/-- A transaction without the owner and without the permanent delegate. -/
theorem PerformsAll.spends
    (performs : PerformsAll crypto coin signers chain instructions later)
    (held : HeldBy coin (.extension .permanentDelegate) seizer chain)
    (unseized : ∀ key ∈ signers, seizer ≠ some key)
    (here : chain.accountOf coin.mint address = some account)
    (unsigned : account.owner ∉ signers)
    (stays : ∀ instruction ∈ instructions,
      ¬ instruction.Closes coin.mint ∧ ¬ instruction.Closes address) :
    HeldBy coin (.extension .permanentDelegate) seizer later ∧
      ∃ after, later.accountOf coin.mint address = some after ∧
        account.SpentUnder (· ∈ signers) after := by
  induction performs generalizing account with
  | nil => exact ⟨held, account, here, .refl⟩
  | cons first _ inductionHypothesis =>
      obtain ⟨mintStays, accountStays⟩ := stays _ List.mem_cons_self
      obtain ⟨between, found, spent⟩ :=
        first.spends (held.not_seizerSigns unseized) address account here
          unsigned accountStays
      have heldStill := first.heldBy held mintStays
        fun key signed isSeizer => absurd isSeizer (unseized key signed)
      obtain ⟨last, after, afterFound, spentOn⟩ :=
        inductionHypothesis heldStill found (spent.owner ▸ unsigned)
          fun other member => stays other (List.mem_cons_of_mem _ member)
      exact ⟨last, after, afterFound, spent.trans spentOn⟩

end Steps
end Remit
