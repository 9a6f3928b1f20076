import Remit.Coin.Hidden

/-!
# The supply is backed

Every instruction settles as permitted moves, so in every run from the day on
which the mint is created the supply is all that the accounts and the mint
hold.  A mint that was closed has left nothing behind.
-/

namespace Remit

open Purses Runs

variable {crypto : Crypto} {coin : Coin} {signers : List Address}
  {chain after : TokenChain} {purses : Purse →₀ Nat}

/-! ## Mints and accounts that come and go -/

theorem Backed.purses_of_no_supply
    (backed : Backed crypto coin purses chain)
    (none : chain.supply coin.mint = 0) (purse : Purse) : purses purse = 0 := by
  have below : purses purse ≤ total purses := le_total
  have sum := backed.supply
  omega

/-- Only a mint without supply is closed. -/
theorem settles_closeMint
    {mint authority : Address}
    (backed : Backed crypto coin purses chain)
    (closed : chain.closeMint signers mint authority = some after) :
    Settles coin signers chain crypto purses after := by
  by_cases own : mint = coin.mint
  case neg => exact .still backed (.of_closeMint closed own)
  subst own
  obtain ⟨state, mintFound, _, _, noSupply, rfl⟩ :=
    TokenChain.closeMint_eq_some closed
  have before : chain.supply coin.mint = 0 := by
    unfold TokenChain.supply
    rw [mintFound]
    exact noSupply
  have later : TokenChain.supply
      { chain with mints := Function.update chain.mints coin.mint none }
      coin.mint = 0 := by
    unfold TokenChain.supply
    dsimp only
    rw [Function.update_self]
    rfl
  refine ⟨[], purses, by simp, runAll_nil,
    { shows := backed.shows
      absent := backed.absent
      pool := ?_
      supply := by rw [backed.supply, before, later]
      bounded := backed.bounded }⟩
  rw [backed.purses_of_no_supply before]
  unfold TokenChain.mintWithheld
  dsimp only
  rw [Function.update_self]
  rfl

/-- A new mint has issued nothing. -/
theorem settles_initializeMint
    {address mintAuthority : Address} {freezeAuthority : Option Address}
    {decimals : Nat} {mint : MintSnapshot}
    (backed : Backed crypto coin purses chain)
    (missing : chain.mints address = none)
    (fresh : InitializesMint mintAuthority freezeAuthority decimals mint) :
    Settles coin signers chain crypto purses (chain.setMint address mint) := by
  by_cases own : address = coin.mint
  case neg =>
      refine .still backed ⟨fun _ => sameMoney_refl _, ?_, ?_⟩
      · unfold TokenChain.mintWithheld
        rw [TokenChain.setMint_of_ne (Ne.symm own)]
      · unfold TokenChain.supply
        rw [TokenChain.setMint_of_ne (Ne.symm own)]
  subst own
  have before : chain.supply coin.mint = 0 := by
    unfold TokenChain.supply
    rw [missing]
    rfl
  have later : (chain.setMint coin.mint mint).supply coin.mint = 0 := by
    unfold TokenChain.supply
    rw [TokenChain.setMint_self]
    exact fresh.supply
  refine ⟨[], purses, by simp, runAll_nil,
    { shows := backed.shows
      absent := backed.absent
      pool := ?_
      supply := by rw [backed.supply, before, later]
      bounded := backed.bounded }⟩
  rw [backed.purses_of_no_supply before]
  unfold TokenChain.mintWithheld
  rw [TokenChain.setMint_self, Option.bind_some]
  cases hasFee : mint.transferFee with
  | none => rfl
  | some config => exact (fresh.withheld config hasFee).symm

/-- An account that holds nothing comes or goes. -/
theorem Reflects.setEmpty
    {address : Address} {changed : Option AccountSnapshot}
    (reflects : Reflects crypto coin purses chain)
    (nothing : held purses address = 0)
    (shows : ∀ account, changed = some account →
      Shows crypto coin.withheldKey account 0) :
    Reflects crypto coin purses (chain.setAccount address changed) where
  shows other account found := by
    by_cases here : other = address
    · subst here
      rw [nothing]
      rw [TokenChain.accountOf_setAccount_self] at found
      exact shows account (Option.filter_eq_some_iff.mp found).1
    · rw [TokenChain.accountOf_setAccount_of_ne here] at found
      exact reflects.shows other account found
  absent other missing := by
    by_cases here : other = address
    · exact here ▸ nothing
    · rw [TokenChain.accountOf_setAccount_of_ne here] at missing
      exact reflects.absent other missing
  pool := reflects.pool

theorem Settles.setEmpty
    {address : Address} {changed : Option AccountSnapshot}
    (backed : Backed crypto coin purses chain)
    (nothing : held purses address = 0)
    (shows : ∀ account, changed = some account →
      Shows crypto coin.withheldKey account 0) :
    Settles coin signers chain crypto purses
      (chain.setAccount address changed) :=
  ⟨[], purses, by simp, runAll_nil,
    { toReflects := backed.toReflects.setEmpty nothing shows
      supply := backed.supply
      bounded := backed.bounded }⟩

theorem settles_openAccount
    {account : AccountSnapshot} {mint : MintSnapshot}
    (backed : Backed crypto coin purses chain)
    (missing : chain.accounts account.address = none)
    (opens : OpensEmpty mint account) :
    Settles coin signers chain crypto purses
      (chain.setAccount account.address (some account)) := by
  refine .setEmpty backed (backed.absent _ ?_) fun other same => ?_
  · unfold TokenChain.accountOf
    rw [missing]
    rfl
  · cases same
    exact
      { spendable := opens.amount.symm
        fees := opens.withheld.symm
        unconfigured := fun _ => ⟨rfl, rfl⟩
        pending := by simp [opens.confidential]
        cleared := by simp [opens.confidential]
        available := by simp [opens.confidential]
        unwithheld := fun _ => rfl
        hidden := by simp [opens.confidentialWithheld] }

/-- An account in which nothing can be seen holds nothing. -/
theorem Shows.empty
    {withheldKey : PodElGamalPubkey} {account : AccountSnapshot}
    {held : Compartment → Nat}
    (shows : Shows crypto withheldKey account held)
    (small : ∀ compartment, held compartment < 2 ^ 64)
    (noAmount : account.amount = 0) (noFees : account.withheldFee.getD 0 = 0)
    (nothing : HoldsNothingHidden crypto withheldKey account) : held = 0 := by
  have zero : ∀ compartment,
      ((held compartment : Nat) : ZMod crypto.order) = 0 →
        held compartment = 0 := by
    intro compartment same
    have bound := small compartment
    exact natCast_inj (by omega) (by omega) (same.trans Nat.cast_zero.symm)
  funext compartment
  cases compartment with
  | spendable => exact shows.spendable.trans noAmount
  | fees => exact shows.fees.trans noFees
  | pending =>
      cases configured : account.confidential with
      | none => exact (shows.unconfigured configured).1
      | some state =>
          refine zero _ ?_
          rw [← shows.pending state configured,
            (nothing.pendingLo state configured).2,
            (nothing.pendingHi state configured).2]
          simp
  | available =>
      cases configured : account.confidential with
      | none => exact (shows.unconfigured configured).2
      | some state =>
          refine zero _ ?_
          rw [← shows.available state configured,
            (nothing.available state configured).2]
          simp
  | hidden =>
      cases present : account.confidentialWithheld with
      | none => exact shows.unwithheld present
      | some withheld =>
          refine zero _ ?_
          rw [← shows.hidden withheld present,
            (nothing.fees withheld present).2]
          simp

theorem settles_closeAccount
    {address : Address} {account : AccountSnapshot}
    (backed : Backed crypto coin purses chain)
    (found : chain.accounts address = some account)
    (noAmount : account.amount = 0) (noFees : account.withheldFee.getD 0 = 0)
    (nothing : HoldsNothingHidden crypto coin.withheldKey account) :
    Settles coin signers chain crypto purses
      (chain.setAccount address none) := by
  refine .setEmpty backed ?_ (by simp)
  by_cases ofMint : account.mint = coin.mint
  · exact (backed.shows address account
      (TokenChain.accountOf_eq_some.mpr ⟨found, ofMint⟩)).empty
        (backed.held_lt address) noAmount noFees nothing
  · refine backed.absent address ?_
    unfold TokenChain.accountOf
    rw [found]
    exact TokenChain.accountOf_of_foreign ofMint

/-- A new key sees nothing in an account that held nothing. -/
theorem settles_configure
    {address : Address} {zero : DecryptableBalance} {maximum : Nat}
    {account configured : AccountSnapshot} {policy : ConfidentialTransferMint}
    {confidential : ConfidentialTransferAccount}
    (backed : Backed crypto coin purses chain)
    (found : chain.accounts address = some account)
    (unconfigured : account.confidential = none)
    (unwithheld : account.confidentialWithheld = none)
    (configures : Configures crypto policy coin.withheldKey zero maximum
      account configured confidential) :
    Settles coin signers chain crypto purses
      (chain.setAccount address (some configured)) := by
  have attached := configures.account
  have nothing := configures.empty
  have state : configured.confidential = some confidential := by
    rw [attached]
  have sameMint : configured.mint = account.mint := by rw [attached]
  by_cases ofMint : account.mint = coin.mint
  case neg =>
      refine .still backed (.setForeign (fun other otherFound => ?_)
        fun other same => ?_)
      · obtain rfl := Option.some.inj (found.symm.trans otherFound)
        exact ofMint
      · cases same
        exact sameMint ▸ ofMint
  have shows := backed.shows address account
    (TokenChain.accountOf_eq_some.mpr ⟨found, ofMint⟩)
  refine .of_shifts [] backed (by simp) runAll_nil
    (backed.toReflects.setAccount (fun _ _ => rfl) backed.pool
      (sameMint.trans ofMint) ?_) ⟨rfl, rfl⟩ rfl
  exact
    { spendable := by rw [shows.spendable, attached]
      fees := by rw [shows.fees, attached]
      unconfigured := by simp [state]
      pending := fun other otherState => by
        rw [(nothing.pendingLo other otherState).2,
          (nothing.pendingHi other otherState).2,
          (shows.unconfigured unconfigured).1]
        simp
      cleared := fun other otherState _ => by
        rw [(nothing.pendingLo other otherState).2,
          (nothing.pendingHi other otherState).2]
        simp
      available := fun other otherState => by
        rw [(nothing.available other otherState).2,
          (shows.unconfigured unconfigured).2]
        simp
      unwithheld := fun _ => shows.unwithheld unwithheld
      hidden := fun withheld present => by
        rw [(nothing.fees withheld present).2, shows.unwithheld unwithheld]
        simp }

theorem SameHoldings.of_unconcerned
    (unconcerned : Unconcerned coin chain after) :
    SameHoldings coin chain after := by
  have mints := unconcerned.mints
  refine ⟨fun address => ?_, ?_, ?_⟩
  · have related := unconcerned.accounts address
    generalize chain.accountOf coin.mint address = before at related ⊢
    generalize after.accountOf coin.mint address = later at related ⊢
    cases related with
    | none => exact .none
    | some same =>
        rw [same]
        exact .some (.of_eq rfl rfl rfl rfl rfl)
  · unfold TokenChain.mintWithheld
    generalize chain.mints coin.mint = before at mints ⊢
    generalize after.mints coin.mint = later at mints ⊢
    cases mints with
    | none => rfl
    | some same =>
        rw [same]
        rfl
  · unfold TokenChain.supply
    generalize chain.mints coin.mint = before at mints ⊢
    generalize after.mints coin.mint = later at mints ⊢
    cases mints with
    | none => rfl
    | some same =>
        rw [same]
        rfl

/-- Other settings leave the money as it is. -/
theorem settles_adjust
    {address : Address} {account changed : AccountSnapshot}
    (backed : Backed crypto coin purses chain)
    (found : chain.accounts address = some account)
    (adjusts : Adjusts account changed) :
    Settles coin signers chain crypto purses
      (chain.setAccount address (some changed)) := by
  have same := adjusts.settings
  refine .still backed (.setAccount found ⟨?_, ?_, ?_, ?_, ?_⟩)
  · rw [same]
  · rw [same]
  · rw [same]
  · rw [same]
  · have related := adjusts.confidential
    generalize account.confidential = before at related ⊢
    generalize changed.confidential = later at related ⊢
    cases related with
    | none => exact .none
    | some equal =>
        rw [equal]
        exact .some ⟨rfl, rfl, rfl, rfl⟩

/-! ## Every instruction settles -/

theorem settles_perform
    {instruction : TokenInstruction}
    (backed : Backed crypto coin purses chain)
    (performed : instruction.perform signers chain = some after) :
    Settles coin signers chain crypto purses after := by
  cases instruction with
  | initializeMetadata metadata updateAuthority mint mintAuthority name symbol
      uri =>
      have described : chain.describe signers
          (.initializeMetadata metadata updateAuthority mint mintAuthority name
            symbol uri) = some after := performed
      exact .still backed (.of_describe described)
  | updateField metadata updateAuthority key value =>
      have described : chain.describe signers
          (.updateField metadata updateAuthority key value) = some after :=
        performed
      exact .still backed (.of_describe described)
  | transferCheckedWithFee => exact settles_transferChecked backed performed
  | setTransferFee => exact .still backed (.of_setTransferFee performed)
  | harvestWithheldTokensToMint => exact settles_harvest backed performed
  | withdrawWithheldTokensFromMint =>
      exact settles_withdrawWithheld backed performed
  | thawAccount => exact .still backed (.of_toggleFreeze performed)
  | freezeAccount => exact .still backed (.of_toggleFreeze performed)
  | updateDefaultAccountState =>
      exact .still backed (.of_updateDefaultAccountState performed)
  | mintToChecked => exact settles_mintTo backed performed
  | approveChecked => exact .still backed (.of_approve performed)
  | enableCpiGuard => exact .still backed (.of_enableCpiGuard performed)
  | closeAccount => exact settles_closeMint backed performed
  | setAuthority account authority type newAuthority =>
      cases type with
      | accountOwner => exact .still backed (.of_setOwner performed)
      | mintTokens => exact .still backed (.of_setMintAuthority performed)
      | freezeAccount => exact .still backed (.of_setMintAuthority performed)
      | closeAccount => exact .still backed (.of_setMintAuthority performed)
      | extension => exact .still backed (.of_setMintAuthority performed)
  | approveAccount => exact .still backed (.of_approveConfidential performed)
  | _ => cases performed

/-- Whatever is carried out moves money only as the coin permits. -/
theorem Performs.settles
    {instruction : CoinInstruction}
    (performs : Performs crypto coin signers chain instruction after)
    (backed : Backed crypto coin purses chain) :
    Settles coin signers chain crypto purses after := by
  cases performs with
  | perform performed => exact settles_perform backed performed
  | initializeExtension => exact .still backed .refl
  | initializeMint missing fresh =>
      exact settles_initializeMint backed missing fresh
  | confide _ found ofMint unfrozen signed executes =>
      exact settles_execution backed found ofMint unfrozen signed executes
  | foreign _ _ _ unconcerned =>
      exact .still backed (.of_unconcerned unconcerned)
  | configure found _ _ _ _ unconfigured unwithheld configures =>
      exact settles_configure backed found unconfigured unwithheld configures
  | reallocate dataLen lamports found =>
      exact .still backed (.setAccount found (.of_eq rfl rfl rfl rfl rfl))
  | burn burnt => exact settles_burn backed burnt
  | revoke revoked => exact .still backed (.of_revoke revoked)
  | openAccount missing _ opens =>
      exact settles_openAccount backed missing opens
  | closeAccount _ found _ noAmount noFees nothing =>
      exact settles_closeAccount backed found noAmount noFees nothing
  | adjust found _ adjusts => exact settles_adjust backed found adjusts
  | reform done => exact .still backed (.of_reform done)
  | elsewhere unconcerned =>
      exact .still backed (.of_unconcerned unconcerned)

/-! ## Runs -/

/-- There are purses that back the coin. -/
def IsBacked (crypto : Crypto) (coin : Coin) (chain : TokenChain) : Prop :=
  ∃ purses, Backed crypto coin purses chain

theorem PerformsAll.isBacked
    {instructions : List CoinInstruction}
    (performs : PerformsAll crypto coin signers chain instructions after)
    (backed : IsBacked crypto coin chain) : IsBacked crypto coin after := by
  induction performs with
  | nil => exact backed
  | cons first _ inductionHypothesis =>
      obtain ⟨purses, held⟩ := backed
      obtain ⟨_, left, _, _, next⟩ := first.settles held
      exact inductionHypothesis ⟨left, next⟩

theorem CoinStep.isBacked
    {event : CoinEvent} (step : CoinStep crypto coin chain event after)
    (backed : IsBacked crypto coin chain) : IsBacked crypto coin after := by
  cases step with
  | transact performs => exact performs.isBacked backed
  | begin =>
      obtain ⟨purses, held⟩ := backed
      exact ⟨purses, held.of_sameHoldings ⟨fun _ => sameMoney_refl _, rfl, rfl⟩⟩

/-- Neither the mint of the coin nor any account of it exists. -/
structure Unborn (coin : Coin) (chain : TokenChain) : Prop where
  mint : chain.mints coin.mint = none
  accounts : ∀ address, chain.accountOf coin.mint address = none

theorem Unborn.isBacked (unborn : Unborn coin chain) :
    IsBacked crypto coin chain := by
  refine ⟨0, ⟨?_, fun _ _ => rfl, ?_⟩, ?_, ?_⟩
  · intro address account found
    rw [unborn.accounts address] at found
    cases found
  · unfold TokenChain.mintWithheld
    rw [unborn.mint]
    rfl
  · unfold TokenChain.supply
    rw [unborn.mint]
    exact total_zero
  · rw [total_zero]
    decide

end Remit
