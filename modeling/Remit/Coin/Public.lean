import Remit.Coin.Moves

/-!
# Public money

What each public instruction moves: issuing, burning, paying, harvesting the
fees and collecting them.  All others move nothing.
-/

namespace Remit

open Purses

variable {crypto : Crypto} {coin : Coin} {signers : List Address}
  {chain after : TokenChain} {purses : Purse →₀ Nat}

/-! ## Instructions that move nothing -/

namespace SameHoldings

theorem of_toggleFreeze
    {address mint authority : Address} {freeze : Bool}
    (toggled :
      chain.toggleFreeze signers address mint authority freeze = some after) :
    SameHoldings coin chain after := by
  obtain ⟨account, found, _, _, rfl⟩ :=
    TokenChain.toggleFreeze_eq_some toggled
  exact setAccount found (.of_eq rfl rfl rfl rfl rfl)

theorem of_asOwner
    {address owner : Address}
    {change : AccountSnapshot → Option AccountSnapshot}
    (done : chain.asOwner signers address owner change = some after)
    (same : ∀ account changed, change account = some changed →
      account.SameMoney changed) :
    SameHoldings coin chain after := by
  obtain ⟨account, changed, found, _, _, changes, rfl⟩ :=
    TokenChain.asOwner_eq_some done
  exact setAccount found (same account changed changes)

theorem of_approve
    {source mint delegate owner : Address} {amount decimals : Nat}
    (approved :
      chain.approve signers source mint delegate owner amount decimals =
        some after) :
    SameHoldings coin chain after := by
  obtain ⟨account, found, _, _, _, _, rfl⟩ :=
    TokenChain.approve_eq_some approved
  exact setAccount found (.of_eq rfl rfl rfl rfl rfl)

theorem of_revoke
    {source owner : Address}
    (revoked : chain.revoke signers source owner = some after) :
    SameHoldings coin chain after := by
  refine of_asOwner revoked fun account changed changes => ?_
  obtain ⟨_, same⟩ := Option.ite_none_right_eq_some.mp changes
  cases same
  exact .of_eq rfl rfl rfl rfl rfl

theorem of_enableCpiGuard
    {address owner : Address}
    (enabled : chain.enableCpiGuard signers address owner = some after) :
    SameHoldings coin chain after := by
  refine of_asOwner enabled fun account changed changes => ?_
  cases changes
  exact .of_eq rfl rfl rfl rfl rfl

theorem of_setOwner
    {address owner : Address} {newOwner : Option Address}
    (handed : chain.setOwner signers address owner newOwner = some after) :
    SameHoldings coin chain after := by
  refine of_asOwner handed fun account changed changes => ?_
  obtain ⟨_, same⟩ := Option.ite_none_right_eq_some.mp changes
  obtain ⟨_, _, rfl⟩ := Option.map_eq_some_iff.mp same
  exact .of_eq rfl rfl rfl rfl rfl

theorem of_approveConfidential
    {address mint authority : Address}
    (approved :
      chain.approveConfidential signers address mint authority = some after) :
    SameHoldings coin chain after := by
  obtain ⟨account, state, confidential, policy, found, _, configured, _, _, _,
    _, rfl⟩ := TokenChain.approveConfidential_eq_some approved
  refine setAccount found ⟨rfl, rfl, rfl, rfl, ?_⟩
  rw [configured]
  exact .some ⟨rfl, rfl, rfl, rfl⟩

theorem of_changeMint
    {address : Address} {change : MintSnapshot → Option MintSnapshot}
    (done : chain.changeMint address change = some after)
    (supply : ∀ mint changed, change mint = some changed →
      changed.supply = mint.supply)
    (withheld : ∀ mint changed, change mint = some changed →
      changed.transferFee.map (·.withheldAmount) =
        mint.transferFee.map (·.withheldAmount)) :
    SameHoldings coin chain after := by
  obtain ⟨mint, changed, found, changes, rfl⟩ :=
    TokenChain.changeMint_eq_some done
  exact setMint found (fun _ => supply mint changed changes)
    fun _ => withheld mint changed changes

theorem of_setMintAuthority
    {mint authority : Address} {type : AuthorityType}
    {newAuthority : Option Address}
    (handed :
      chain.setMintAuthority signers mint authority type newAuthority =
        some after) :
    SameHoldings coin chain after := by
  have money : ∀ state changed : MintSnapshot,
      (if state.holder type = some authority ∧ authority ∈ signers then
        state.handing newAuthority type else none) = some changed →
        changed.supply = state.supply ∧
          changed.transferFee.map (·.withheldAmount) =
            state.transferFee.map (·.withheldAmount) := by
    intro state changed changes
    obtain ⟨_, hands⟩ := Option.ite_none_right_eq_some.mp changes
    exact MintSnapshot.handing_money hands
  exact of_changeMint handed (fun state changed changes =>
    (money state changed changes).1) fun state changed changes =>
    (money state changed changes).2

theorem of_reform
    {mint authority : Address} {change : MintReform}
    (done : chain.reform signers mint authority change = some after) :
    SameHoldings coin chain after := by
  obtain ⟨_, _, found, _, _, reformed, rfl⟩ := TokenChain.reform_eq_some done
  have money := MintSnapshot.reforming_money reformed
  exact setMint found (fun _ => money.1) fun _ => money.2

theorem of_updateDefaultAccountState
    {mint authority : Address} {state : AccountState}
    (updated :
      chain.updateDefaultAccountState signers mint authority state =
        some after) :
    SameHoldings coin chain after := by
  refine of_changeMint updated (fun found changed changes => ?_)
    fun found changed changes => ?_
  · obtain ⟨_, same⟩ := Option.ite_none_right_eq_some.mp changes
    cases same
    rfl
  · obtain ⟨_, same⟩ := Option.ite_none_right_eq_some.mp changes
    cases same
    rfl

theorem of_setTransferFee
    {mint authority : Address} {basisPoints maximumFee : Nat}
    (done :
      chain.setTransferFee signers mint authority basisPoints maximumFee =
        some after) :
    SameHoldings coin chain after := by
  obtain ⟨state, config, found, present, rfl⟩ :=
    TokenChain.setTransferFee_eq_some done
  refine setMint found (fun _ => rfl) fun _ => ?_
  rw [present]
  rfl

theorem of_describe
    {instruction : TokenInstruction}
    (described : chain.describe signers instruction = some after) :
    SameHoldings coin chain after := by
  obtain ⟨address, state, metadata, found, rfl⟩ :=
    TokenChain.describe_eq_some described
  exact setMint found (fun _ => rfl) fun _ => rfl

/-- Another mint is closed. -/
theorem of_closeMint
    {mint authority : Address}
    (closed : chain.closeMint signers mint authority = some after)
    (foreign : mint ≠ coin.mint) : SameHoldings coin chain after := by
  obtain ⟨state, _, _, _, _, rfl⟩ := TokenChain.closeMint_eq_some closed
  refine ⟨fun _ => sameMoney_refl _, ?_, ?_⟩
  · unfold TokenChain.mintWithheld
    dsimp only
    rw [Function.update_of_ne foreign.symm]
  · unfold TokenChain.supply
    dsimp only
    rw [Function.update_of_ne foreign.symm]

end SameHoldings

/-! ## Instructions that move money -/

/-- A mint whose withheld fees are the same leaves the accounts alone. -/
theorem Reflects.setMint
    {address : Address} {mint changed : MintSnapshot}
    (reflects : Reflects crypto coin purses chain)
    (found : chain.mints address = some mint)
    (withheld : changed.transferFee = mint.transferFee) :
    Reflects crypto coin purses (chain.setMint address changed) where
  shows := reflects.shows
  absent := reflects.absent
  pool := by
    rw [reflects.pool]
    unfold TokenChain.mintWithheld
    by_cases here : address = coin.mint
    · subst here
      rw [TokenChain.setMint_self, found, Option.bind_some, Option.bind_some,
        withheld]
    · rw [TokenChain.setMint_of_ne (Ne.symm here)]

/-- An instruction on an account of another mint, and perhaps on that mint. -/
theorem SameHoldings.setOthers
    {mint address : Address} {state changed : MintSnapshot}
    {account left : AccountSnapshot}
    (foreign : mint ≠ coin.mint)
    (mintFound : chain.mints mint = some state)
    (found : chain.accounts address = some account)
    (ofMint : account.mint = mint) (same : left.mint = account.mint) :
    SameHoldings coin chain
      ((chain.setMint mint changed).setAccount address (some left)) := by
  have first : SameHoldings coin chain (chain.setMint mint changed) :=
    .setMint mintFound (fun here => absurd here foreign) fun here =>
      absurd here foreign
  refine first.trans (.setForeign (fun other otherFound => ?_)
    fun other isLeft => ?_)
  · obtain rfl := Option.some.inj (found.symm.trans otherFound)
    exact ofMint ▸ foreign
  · cases isLeft
    rw [same, ofMint]
    exact foreign

theorem settles_mintTo
    {mint destination authority : Address} {amount decimals : Nat}
    (backed : Backed crypto coin purses chain)
    (minted :
      chain.mintTo signers mint destination authority amount decimals =
        some after) :
    Settles coin signers chain crypto purses after := by
  obtain ⟨state, account, mintFound, found, isAuthority, signed, ofMint,
    unfrozen, fits, rfl⟩ := TokenChain.mintTo_eq_some minted
  by_cases own : mint = coin.mint
  case neg => exact .still backed (.setOthers own mintFound found ofMint rfl)
  subst own
  have here : chain.accountOf coin.mint destination = some account :=
    TokenChain.accountOf_eq_some.mpr ⟨found, ofMint⟩
  have shows := backed.shows destination account here
  have supply : chain.supply coin.mint = state.supply := by
    unfold TokenChain.supply
    rw [mintFound]
    rfl
  have supplyAfter : TokenChain.supply
      ((chain.setMint coin.mint
        { state with supply := state.supply + amount }).setAccount destination
          (some { account with amount := account.amount + amount }))
      coin.mint = state.supply + amount := by
    unfold TokenChain.supply
    rw [TokenChain.setAccount_mints, TokenChain.setMint_self]
    rfl
  have reflects : Reflects crypto coin purses (chain.setMint coin.mint
      { state with supply := state.supply + amount }) :=
    backed.toReflects.setMint mintFound rfl
  have shown : Shows crypto coin.withheldKey
      { account with amount := account.amount + amount }
      (held (put purses (.account destination .spendable) amount)
        destination) := by
    rw [held_put]
    exact shows.public rfl rfl
      (by rw [Function.update_self, shows.spendable]) (by simp [shows.fees])
      (by simp) (by simp) (by simp)
  refine .of_moves [.issue (.account destination .spendable) amount] backed ?_
    runAll_singleton (reflects.setAccount
      (fun other away => held_put_of_ne away)
      (put_account_pool.trans reflects.pool) ofMint shown) ?_ ?_
  · intro move member
    obtain rfl := List.mem_singleton.mp member
    exact .issue amount mintFound isAuthority signed ⟨account, here, unfrozen⟩
  · rw [supplyAfter, supply]
    simp [issued, retired, Move.issued, Move.retired]
  · rw [supplyAfter]
    exact fits

theorem settles_burn
    {source mint authority : Address} {amount decimals : Nat}
    (backed : Backed crypto coin purses chain)
    (burnt :
      chain.burn signers source mint authority amount decimals = some after) :
    Settles coin signers chain crypto purses after := by
  obtain ⟨account, state, debited, found, mintFound, signed, ofMint, unfrozen,
    debits, rfl⟩ := TokenChain.burn_eq_some burnt
  obtain ⟨enough, left, terms, spender, _⟩ :=
    AccountSnapshot.debitedBy_eq_some debits
  by_cases own : mint = coin.mint
  case neg =>
    exact .still backed (.setOthers own mintFound found ofMint terms.mint)
  subst own
  have here : chain.accountOf coin.mint source = some account :=
    TokenChain.accountOf_eq_some.mpr ⟨found, ofMint⟩
  have shows := backed.shows source account here
  have supply : chain.supply coin.mint = state.supply := by
    unfold TokenChain.supply
    rw [mintFound]
    rfl
  have supplyAfter : TokenChain.supply
      ((chain.setMint coin.mint
        { state with supply := state.supply - amount }).setAccount source
          (some debited)) coin.mint = state.supply - amount := by
    unfold TokenChain.supply
    rw [TokenChain.setAccount_mints, TokenChain.setMint_self]
    rfl
  have inPurse : amount ≤ purses (.account source .spendable) := by
    have shown := shows.spendable
    unfold held at shown
    omega
  have issuedEnough : amount ≤ state.supply := by
    have below : purses (.account source .spendable) ≤ total purses := le_total
    have sum := backed.supply
    omega
  have reflects : Reflects crypto coin purses (chain.setMint coin.mint
      { state with supply := state.supply - amount }) :=
    backed.toReflects.setMint mintFound rfl
  have shown : Shows crypto coin.withheldKey debited
      (held (take purses (.account source .spendable) amount) source) := by
    rw [held_take, AccountSnapshot.debitedBy_money debits]
    exact shows.public rfl rfl
      (by rw [Function.update_self, shows.spendable]) (by simp [shows.fees])
      (by simp) (by simp) (by simp)
  refine .of_moves [.retire (.account source .spendable) amount] backed ?_
    (runAll_singleton.trans (if_pos inPurse)) (reflects.setAccount
      (fun other away => held_take_of_ne away)
      (take_account_pool.trans reflects.pool) (terms.mint.trans ofMint)
      shown) ?_ ?_
  · intro move member
    obtain rfl := List.mem_singleton.mp member
    exact .burn amount ⟨account, here, unfrozen⟩
      ⟨account, state, authority, here, mintFound, signed, spender⟩
  · rw [supplyAfter, supply]
    simp [issued, retired, Move.issued, Move.retired]
    omega
  · rw [supplyAfter]
    have bounded := backed.bounded
    have sum := backed.supply
    omega

/-- A payment leaves the source and arrives as the net amount and the fee. -/
theorem settles_transferChecked
    {source mint destination authority : Address} {amount decimals fee : Nat}
    (backed : Backed crypto coin purses chain)
    (transferred :
      chain.transferChecked signers source mint destination authority amount
        decimals fee = some after) :
    Settles coin signers chain crypto purses after := by
  obtain ⟨payer, payee, state, debited, found, payeeFound, mintFound, ofMint,
    unfrozen, payeeUnfrozen, debits, moved⟩ :=
    TokenChain.transferChecked_eq_some transferred
  obtain ⟨signed, other, otherFound, payeeOfMint⟩ :=
    TokenChain.transferChecked_signed transferred
  obtain rfl := Option.some.inj (payeeFound.symm.trans otherFound)
  rcases moved with ⟨_, rfl⟩ | ⟨different, credited, credits, rfl⟩
  · exact .still backed .refl
  obtain ⟨enough, left, terms, spender, _⟩ :=
    AccountSnapshot.debitedBy_eq_some debits
  have creditTerms := (AccountSnapshot.creditedWith_eq_some credits).1
  by_cases own : mint = coin.mint
  case neg =>
    refine .still backed (.trans
      (.setForeign (fun account accountFound => ?_) fun account same => ?_)
      (.setForeign (fun account accountFound => ?_) fun account same => ?_))
    · obtain rfl := Option.some.inj (found.symm.trans accountFound)
      exact ofMint ▸ own
    · cases same
      rw [terms.mint, ofMint]
      exact own
    · rw [chain.setAccount_of_ne (Ne.symm different), payeeFound]
        at accountFound
      cases accountFound
      exact payeeOfMint ▸ own
    · cases same
      rw [creditTerms.mint, payeeOfMint]
      exact own
  subst own
  obtain ⟨feeSmall, creditMoney, feeMoney⟩ :=
    AccountSnapshot.creditedWith_money credits
  have here : chain.accountOf coin.mint source = some payer :=
    TokenChain.accountOf_eq_some.mpr ⟨found, ofMint⟩
  have there : chain.accountOf coin.mint destination = some payee :=
    TokenChain.accountOf_eq_some.mpr ⟨payeeFound, payeeOfMint⟩
  have shows := backed.shows source payer here
  have payeeShows := backed.shows destination payee there
  have inPurse : amount - fee + fee ≤ purses (.account source .spendable) := by
    have shown := shows.spendable
    unfold held at shown
    omega
  have apart : Purse.account source .spendable ≠
      .account destination .spendable := by simp [different]
  have permitted : Thawed coin chain source ∧ Thawed coin chain destination ∧
      SpenderSigns coin signers chain source :=
    ⟨⟨payer, here, unfrozen⟩, ⟨payee, there, payeeUnfrozen⟩,
      payer, state, authority, here, mintFound, signed, spender⟩
  refine .of_shifts
    [.shift (.account source .spendable) (.account destination .spendable)
        (amount - fee),
      .shift (.account source .spendable) (.account destination .fees) fee]
    backed ?_ (runAll_split apart inPurse)
    (backed.toReflects.setAccounts different (fun other away apart => ?_) ?_
      (terms.mint.trans ofMint) (creditTerms.mint.trans payeeOfMint) ?_ ?_)
    ⟨rfl, rfl⟩ rfl
  · intro move member
    rcases List.mem_cons.mp member with rfl | last
    · exact .pay _ permitted.1 permitted.2.1 permitted.2.2
    · obtain rfl := List.mem_singleton.mp last
      exact .charge _ permitted.1 permitted.2.1 permitted.2.2
  · rw [held_put_of_ne apart, held_take_of_ne away, held_put_of_ne apart,
      held_take_of_ne away]
  · simp
  · rw [held_put_of_ne different, held_take, held_put_of_ne different,
      held_take, AccountSnapshot.debitedBy_money debits]
    exact shows.public rfl rfl
      (by simp [shows.spendable]; omega) (by simp [shows.fees]) (by simp)
      (by simp) (by simp)
  · rw [held_put, held_take_of_ne different.symm, held_put,
      held_take_of_ne different.symm]
    refine payeeShows.public (by rw [creditMoney]) (by rw [creditMoney]) ?_ ?_
      (by simp) (by simp) (by simp)
    · rw [creditMoney]
      simp [payeeShows.spendable]
    · simp [payeeShows.fees, feeMoney]

/-! ## Fees -/

theorem TokenChain.supply_setMintWithheld
    (mint other : Address) (amount : Nat) :
    (chain.setMintWithheld mint amount).supply other = chain.supply other := by
  unfold supply setMintWithheld
  by_cases here : other = mint
  · subst here
    dsimp only
    rw [Function.update_self]
    cases chain.mints other with
    | none => rfl
    | some state => rfl
  · dsimp only
    rw [Function.update_of_ne here]

theorem SameHoldings.setMintWithheld
    {mint : Address} {amount : Nat}
    (same : mint = coin.mint → chain.mintWithheld mint = some amount) :
    SameHoldings coin chain (chain.setMintWithheld mint amount) where
  accounts _ := sameMoney_refl _
  pool := by
    by_cases own : mint = coin.mint
    · subst own
      rw [TokenChain.mintWithheld_setMintWithheld (same rfl), same rfl]
    · unfold TokenChain.mintWithheld TokenChain.setMintWithheld
      dsimp only
      rw [Function.update_of_ne (Ne.symm own)]
  supply := TokenChain.supply_setMintWithheld ..

/-- Harvesting where nothing is withheld of this coin. -/
theorem SameHoldings.emptied
    {mint source : Address}
    (nothing : mint = coin.mint → chain.accountOf mint source = none) :
    SameHoldings coin chain (chain.emptied mint source) := by
  unfold TokenChain.emptied
  split
  case h_1 => exact .refl
  case h_2 account found =>
      split
      case isFalse => exact .refl
      case isTrue ofMint =>
          have foreign : account.mint ≠ coin.mint := by
            intro own
            have none := nothing (ofMint.symm.trans own)
            rw [TokenChain.accountOf_eq_some.mpr ⟨found, ofMint⟩] at none
            cases none
          refine .setForeign (fun other otherFound => ?_) fun other same => ?_
          · obtain rfl := Option.some.inj (found.symm.trans otherFound)
            exact foreign
          · cases same
            exact foreign

section Harvesting

variable {mint source : Address} {account : AccountSnapshot}

theorem TokenChain.withheldBy_of_account
    (here : chain.accountOf mint source = some account) :
    chain.withheldBy mint source = account.withheldFee.getD 0 := by
  obtain ⟨found, ofMint⟩ := accountOf_eq_some.mp here
  unfold withheldBy
  rw [found]
  exact if_pos ofMint

theorem TokenChain.withheldBy_of_absent
    (absent : chain.accountOf mint source = none) :
    chain.withheldBy mint source = 0 := by
  unfold accountOf at absent
  unfold withheldBy
  cases known : chain.accounts source with
  | none => rfl
  | some account =>
      rw [known, Option.filter_eq_none_iff] at absent
      exact if_neg (by simpa using absent account rfl)

theorem TokenChain.emptied_of_account
    (here : chain.accountOf mint source = some account) :
    chain.emptied mint source = chain.setAccount source
      (some { account with
        withheldFee := account.withheldFee.map fun _ => 0 }) := by
  obtain ⟨found, ofMint⟩ := accountOf_eq_some.mp here
  unfold emptied
  rw [found]
  exact if_pos ofMint

/-- Only moves out of the fees of accounts into the pool. -/
def Harvests (moves : List (Move Purse)) : Prop :=
  ∀ move ∈ moves, ∃ address amount,
    move = .shift (.account address .fees) .pool amount

/-- What is withheld in an account of the coin moves to the mint. -/
theorem Backed.harvestAccount
    {amount : Nat}
    (backed : Backed crypto coin purses chain)
    (holds : chain.mintWithheld coin.mint = some amount)
    (here : chain.accountOf coin.mint source = some account) :
    ∃ moves purses', Harvests moves ∧ runAll purses moves = some purses' ∧
      Backed crypto coin purses'
        ((chain.setMintWithheld coin.mint
          (amount + account.withheldFee.getD 0)).emptied coin.mint source) := by
  have ofMint := (TokenChain.accountOf_eq_some.mp here).2
  have shows := backed.shows source account here
  have inPurse : account.withheldFee.getD 0 ≤
      purses (.account source .fees) := Nat.le_of_eq shows.fees.symm
  have pool : purses .pool = amount := by
    rw [backed.pool, holds]
    rfl
  have ran : runAll purses
      [.shift (.account source .fees) .pool (account.withheldFee.getD 0)] =
        some _ := runAll_singleton.trans (run_shift inPurse)
  have sum := total_runAll ran
  refine ⟨_, _, ?_, ran, ?_⟩
  · intro move member
    exact ⟨source, _, List.mem_singleton.mp member⟩
  have harvested : TokenChain.accountOf
      (chain.setMintWithheld coin.mint
        (amount + account.withheldFee.getD 0)) coin.mint source =
          some account := here
  rw [TokenChain.emptied_of_account harvested]
  have reflects : Reflects crypto coin
      (put (take purses (.account source .fees) (account.withheldFee.getD 0))
        .pool (account.withheldFee.getD 0))
      ((chain.setMintWithheld coin.mint
        (amount + account.withheldFee.getD 0)).setAccount source
          (some { account with
            withheldFee := account.withheldFee.map fun _ => 0 })) := by
    refine .change [source] backed.toReflects (fun other away => ?_)
      (fun other away => ?_) ?_ fun address member => ?_
    · rw [TokenChain.accountOf_setAccount_of_ne (by simpa using away)]
      rfl
    · rw [held_put_pool, held_take_of_ne (by simpa using away)]
    · rw [put_self, take_account_pool, pool,
        TokenChain.mintWithheld_setAccount,
        TokenChain.mintWithheld_setMintWithheld holds]
      rfl
    · obtain rfl := List.mem_singleton.mp member
      refine ⟨_, (TokenChain.accountOf_setAccount_self _).trans
        (TokenChain.accountOf_of_mint ofMint), ?_⟩
      rw [held_put_pool, held_take]
      refine shows.public rfl rfl (by simp [shows.spendable]) ?_ (by simp)
        (by simp) (by simp)
      rw [Function.update_self, shows.fees, Nat.sub_self]
      cases account.withheldFee with
      | none => rfl
      | some withheld => rfl
  have same : total (put
      (take purses (.account source .fees) (account.withheldFee.getD 0))
      .pool (account.withheldFee.getD 0)) = total purses := sum
  exact
    { toReflects := reflects
      supply := by
        rw [same, backed.supply]
        exact (TokenChain.supply_setMintWithheld ..).symm
      bounded := same ▸ backed.bounded }

/-- Harvesting one source moves what is withheld in it, if it is of the
coin. -/
theorem Backed.harvestFrom
    (backed : Backed crypto coin purses chain)
    (harvested : chain.harvestFrom mint source = some after) :
    ∃ moves purses', Harvests moves ∧ runAll purses moves = some purses' ∧
      Backed crypto coin purses' after := by
  unfold TokenChain.harvestFrom at harvested
  split at harvested
  case h_1 => cases harvested
  case h_2 amount holds =>
      split at harvested
      case isFalse => cases harvested
      case isTrue =>
          cases harvested
          have still (nothing : mint = coin.mint →
              chain.accountOf mint source = none) :
              SameHoldings coin chain
                ((chain.setMintWithheld mint
                  (amount + chain.withheldBy mint source)).emptied mint
                    source) := by
            refine .trans (.setMintWithheld fun own => ?_) (.emptied nothing)
            rw [holds, TokenChain.withheldBy_of_absent (nothing own),
              Nat.add_zero]
          by_cases own : mint = coin.mint
          case neg =>
              exact ⟨[], purses, by simp [Harvests], runAll_nil,
                backed.of_sameHoldings (still fun here => absurd here own)⟩
          case pos =>
              subst own
              cases here : chain.accountOf coin.mint source with
              | none =>
                  exact ⟨[], purses, by simp [Harvests], runAll_nil,
                    backed.of_sameHoldings (still fun _ => here)⟩
              | some account =>
                  rw [TokenChain.withheldBy_of_account here]
                  exact backed.harvestAccount holds here

/-- Harvesting moves fees of the sources into the pool, whoever asks. -/
theorem Backed.harvest
    {sources : List Address}
    (backed : Backed crypto coin purses chain)
    (harvested : chain.harvest mint sources = some after) :
    ∃ moves purses', Harvests moves ∧ runAll purses moves = some purses' ∧
      Backed crypto coin purses' after := by
  induction sources generalizing chain purses with
  | nil =>
      cases harvested
      exact ⟨[], purses, by simp [Harvests], runAll_nil, backed⟩
  | cons source rest inductionHypothesis =>
      obtain ⟨next, first, onward⟩ := Option.bind_eq_some_iff.mp harvested
      obtain ⟨moves, between, harvests, ran, nextBacked⟩ :=
        backed.harvestFrom first
      obtain ⟨more, purses', harvestsOn, ranOn, afterBacked⟩ :=
        inductionHypothesis nextBacked onward
      refine ⟨moves ++ more, purses', fun move member => ?_, ?_, afterBacked⟩
      · rcases List.mem_append.mp member with early | late
        · exact harvests move early
        · exact harvestsOn move late
      · rw [runAll_append, ran, Option.bind_some, ranOn]

theorem settles_harvest
    {sources : List Address}
    (backed : Backed crypto coin purses chain)
    (harvested : chain.harvest mint sources = some after) :
    Settles coin signers chain crypto purses after := by
  obtain ⟨moves, purses', harvests, ran, afterBacked⟩ :=
    backed.harvest harvested
  refine ⟨moves, purses', fun move member => ?_, ran, afterBacked⟩
  obtain ⟨address, amount, rfl⟩ := harvests move member
  exact .harvest address amount

end Harvesting

/-- What was harvested moves to the treasury. -/
theorem settles_withdrawWithheld
    {mint treasury authority : Address}
    (backed : Backed crypto coin purses chain)
    (withdrawn :
      chain.withdrawWithheld signers mint treasury authority = some after) :
    Settles coin signers chain crypto purses after := by
  obtain ⟨state, config, account, mintFound, hasFee, found, isAuthority, signed,
    ofMint, unfrozen, rfl⟩ := TokenChain.withdrawWithheld_money withdrawn
  by_cases own : mint = coin.mint
  case neg =>
      refine .still backed (.trans
        (.setMintWithheld fun here => absurd here own)
        (.setForeign (fun other otherFound => ?_) fun other same => ?_))
      · obtain rfl := Option.some.inj (found.symm.trans otherFound)
        exact ofMint ▸ own
      · cases same
        exact ofMint ▸ own
  subst own
  have here : chain.accountOf coin.mint treasury = some account :=
    TokenChain.accountOf_eq_some.mpr ⟨found, ofMint⟩
  have shows := backed.shows treasury account here
  have holds : chain.mintWithheld coin.mint = some config.withheldAmount := by
    unfold TokenChain.mintWithheld
    rw [mintFound, Option.bind_some, hasFee]
    rfl
  have pool : purses .pool = config.withheldAmount := by
    rw [backed.pool, holds]
    rfl
  refine .of_shifts
    [.shift .pool (.account treasury .spendable) config.withheldAmount] backed
    ?_ (runAll_singleton.trans (run_shift (Nat.le_of_eq pool.symm)))
    (.change [treasury] backed.toReflects (fun other away => ?_)
      (fun other away => ?_) ?_ fun address member => ?_)
    ⟨rfl, rfl⟩ (TokenChain.supply_setMintWithheld ..)
  · intro move member
    obtain rfl := List.mem_singleton.mp member
    exact .collect _ mintFound hasFee isAuthority signed
      ⟨account, here, unfrozen⟩
  · rw [TokenChain.accountOf_setAccount_of_ne (by simpa using away)]
    rfl
  · rw [held_put_of_ne (by simpa using away), held_take_pool]
  · rw [put_account_pool, take_self, pool, Nat.sub_self,
      TokenChain.mintWithheld_setAccount,
      TokenChain.mintWithheld_setMintWithheld holds]
    rfl
  · obtain rfl := List.mem_singleton.mp member
    refine ⟨_, (TokenChain.accountOf_setAccount_self _).trans
      (TokenChain.accountOf_of_mint ofMint), ?_⟩
    rw [held_put, held_take_pool]
    exact shows.public rfl rfl
      (by rw [Function.update_self, shows.spendable]) (by simp [shows.fees])
      (by simp) (by simp) (by simp)

end Remit
