import Remit.Coin.Holdings

/-!
# How the money of a coin moves

Every instruction that is carried out moves money between purses, and only as
the coin permits: with the signature of an authority, of the owner or of a
delegate, and never out of a frozen account, apart from the fees withheld in it.
-/

namespace Remit

open Purses

/-! ## What is permitted -/

section Permission

variable (coin : Coin) (signers : List Address) (chain : TokenChain)

/-- There is an account of the coin at an address, and it is not frozen. -/
def Thawed (address : Address) : Prop :=
  ∃ account, chain.accountOf coin.mint address = some account ∧
    account.isFrozen = false

/-- The owner of the account has signed. -/
def OwnerSigns (address : Address) : Prop :=
  ∃ account, chain.accountOf coin.mint address = some account ∧
    account.owner ∈ signers

/-- Somebody has signed who may spend from the account: the permanent delegate
of the mint, the owner, or a delegate of the owner. -/
def SpenderSigns (address : Address) : Prop :=
  ∃ account mint authority,
    chain.accountOf coin.mint address = some account ∧
      chain.mints coin.mint = some mint ∧ authority ∈ signers ∧
      (mint.permanentDelegate = some authority ∨ account.owner = authority ∨
        account.delegate = some authority)

/-- The moves that the signatures of a transaction permit. -/
inductive Permitted : Move Purse → Prop where
  | issue {address authority : Address} {mint : MintSnapshot} (amount : Nat) :
      chain.mints coin.mint = some mint →
      mint.mintAuthority = some authority → authority ∈ signers →
      Thawed coin chain address →
      Permitted (.issue (.account address .spendable) amount)
  | burn {address : Address} (amount : Nat) :
      Thawed coin chain address → SpenderSigns coin signers chain address →
      Permitted (.retire (.account address .spendable) amount)
  | pay {source destination : Address} (amount : Nat) :
      Thawed coin chain source → Thawed coin chain destination →
      SpenderSigns coin signers chain source →
      Permitted
        (.shift (.account source .spendable) (.account destination .spendable)
          amount)
  | charge {source destination : Address} (fee : Nat) :
      Thawed coin chain source → Thawed coin chain destination →
      SpenderSigns coin signers chain source →
      Permitted
        (.shift (.account source .spendable) (.account destination .fees) fee)
  | harvest (address : Address) (amount : Nat) :
      Permitted (.shift (.account address .fees) .pool amount)
  | collect {treasury authority : Address} {mint : MintSnapshot}
      {config : TransferFeeConfig} (amount : Nat) :
      chain.mints coin.mint = some mint → mint.transferFee = some config →
      config.withdrawWithheldAuthority = some authority →
      authority ∈ signers → Thawed coin chain treasury →
      Permitted (.shift .pool (.account treasury .spendable) amount)
  | hide {address : Address} (amount : Nat) :
      Thawed coin chain address → OwnerSigns coin signers chain address →
      Permitted
        (.shift (.account address .spendable) (.account address .pending)
          amount)
  | apply {address : Address} (amount : Nat) :
      Thawed coin chain address → OwnerSigns coin signers chain address →
      Permitted
        (.shift (.account address .pending) (.account address .available)
          amount)
  | send {source destination : Address} (amount : Nat) :
      Thawed coin chain source → Thawed coin chain destination →
      OwnerSigns coin signers chain source →
      Permitted
        (.shift (.account source .available) (.account destination .pending)
          amount)
  | withhold {source destination : Address} (fee : Nat) :
      Thawed coin chain source → Thawed coin chain destination →
      OwnerSigns coin signers chain source →
      Permitted
        (.shift (.account source .available) (.account destination .hidden)
          fee)
  | reveal {address : Address} (amount : Nat) :
      Thawed coin chain address → OwnerSigns coin signers chain address →
      Permitted
        (.shift (.account address .available) (.account address .spendable)
          amount)

variable (crypto : Crypto)

/-- What was carried out on a backed coin are permitted moves, and the coin is
backed again. -/
def Settles (purses : Purse →₀ Nat) (after : TokenChain) : Prop :=
  ∃ moves purses',
    (∀ move ∈ moves, Permitted coin signers chain move) ∧
      runAll purses moves = some purses' ∧ Backed crypto coin purses' after

end Permission

/-! ## Accounts of a coin -/

section Accounts

variable {coin : Coin} {signers : List Address} {chain after : TokenChain}
  {mint address other : Address} {account changed : AccountSnapshot}

theorem TokenChain.accountOf_eq_some :
    chain.accountOf mint address = some account ↔
      chain.accounts address = some account ∧ account.mint = mint := by
  unfold accountOf
  rw [Option.filter_eq_some_iff]
  simp

theorem TokenChain.accountOf_setAccount_self
    (account : Option AccountSnapshot) :
    (chain.setAccount address account).accountOf mint address =
      account.filter (·.mint = mint) := by
  unfold accountOf
  rw [setAccount_self]

theorem TokenChain.accountOf_setAccount_of_ne
    (away : other ≠ address) (account : Option AccountSnapshot) :
    (chain.setAccount address account).accountOf mint other =
      chain.accountOf mint other := by
  unfold accountOf
  rw [chain.setAccount_of_ne away]

theorem TokenChain.accountOf_of_mint (ofMint : account.mint = mint) :
    (some account).filter (·.mint = mint) = some account := by
  rw [Option.filter_some, if_pos (by simpa using ofMint)]

theorem TokenChain.accountOf_of_foreign (foreign : account.mint ≠ mint) :
    (some account).filter (·.mint = mint) = none := by
  rw [Option.filter_some, if_neg (by simpa using foreign)]

theorem AccountSnapshot.SameMoney.refl : account.SameMoney account :=
  .of_eq rfl rfl rfl rfl rfl

theorem sameMoney_refl (found : Option AccountSnapshot) :
    Option.Rel AccountSnapshot.SameMoney found found := by
  cases found with
  | none => exact .none
  | some account => exact .some .refl

theorem SameHoldings.refl : SameHoldings coin chain chain :=
  ⟨fun _ => sameMoney_refl _, rfl, rfl⟩

/-- An account that shows the same, or that never was of the coin. -/
theorem SameHoldings.setAccount
    (found : chain.accounts address = some account)
    (same : account.SameMoney changed) :
    SameHoldings coin chain (chain.setAccount address (some changed)) where
  accounts other := by
    by_cases here : other = address
    · subst here
      rw [TokenChain.accountOf_setAccount_self]
      unfold TokenChain.accountOf
      rw [found]
      by_cases ofMint : account.mint = coin.mint
      · rw [TokenChain.accountOf_of_mint ofMint,
          TokenChain.accountOf_of_mint (same.mint.trans ofMint)]
        exact .some same
      · rw [TokenChain.accountOf_of_foreign ofMint,
          TokenChain.accountOf_of_foreign (same.mint ▸ ofMint)]
        exact .none
    · rw [TokenChain.accountOf_setAccount_of_ne here]
      exact sameMoney_refl _
  pool := rfl
  supply := rfl

/-- An account of another mint. -/
theorem SameHoldings.setForeign
    (found : ∀ account, chain.accounts address = some account →
      account.mint ≠ coin.mint)
    {changed : Option AccountSnapshot}
    (foreign : ∀ account, changed = some account → account.mint ≠ coin.mint) :
    SameHoldings coin chain (chain.setAccount address changed) where
  accounts other := by
    by_cases here : other = address
    · subst here
      have before : chain.accountOf coin.mint other = none := by
        unfold TokenChain.accountOf
        cases known : chain.accounts other with
        | none => rfl
        | some account =>
            exact TokenChain.accountOf_of_foreign (found account known)
      have later : changed.filter (·.mint = coin.mint) = none := by
        cases changed with
        | none => rfl
        | some account =>
            exact TokenChain.accountOf_of_foreign (foreign account rfl)
      rw [TokenChain.accountOf_setAccount_self, before, later]
      exact .none
    · rw [TokenChain.accountOf_setAccount_of_ne here]
      exact sameMoney_refl _
  pool := rfl
  supply := rfl

theorem TokenChain.setMint_self (mint : MintSnapshot) :
    (chain.setMint address mint).mints address = some mint :=
  Function.update_self ..

theorem TokenChain.setMint_of_ne
    (away : other ≠ address) (mint : MintSnapshot) :
    (chain.setMint address mint).mints other = chain.mints other :=
  Function.update_of_ne away ..

/-- A mint with the same supply and as many withheld fees, or another mint. -/
theorem SameHoldings.setMint
    {address : Address} {mint changed : MintSnapshot}
    (found : chain.mints address = some mint)
    (supply : address = coin.mint → changed.supply = mint.supply)
    (withheld : address = coin.mint →
      changed.transferFee.map (·.withheldAmount) =
        mint.transferFee.map (·.withheldAmount)) :
    SameHoldings coin chain (chain.setMint address changed) where
  accounts _ := sameMoney_refl _
  pool := by
    unfold TokenChain.mintWithheld
    by_cases here : address = coin.mint
    · subst here
      rw [TokenChain.setMint_self, found]
      exact withheld rfl
    · rw [TokenChain.setMint_of_ne (Ne.symm here)]
  supply := by
    unfold TokenChain.supply
    by_cases here : address = coin.mint
    · subst here
      rw [TokenChain.setMint_self, found]
      exact supply rfl
    · rw [TokenChain.setMint_of_ne (Ne.symm here)]

theorem SameHoldings.trans
    {between : TokenChain}
    (first : SameHoldings coin chain between)
    (second : SameHoldings coin between after) :
    SameHoldings coin chain after where
  accounts address := by
    have before := first.accounts address
    have later := second.accounts address
    generalize chain.accountOf coin.mint address = one at before ⊢
    generalize between.accountOf coin.mint address = two at before later
    generalize after.accountOf coin.mint address = three at later ⊢
    cases before with
    | none => exact later
    | some same =>
        cases later with
        | some next =>
            refine .some ⟨next.mint.trans same.mint,
              next.amount.trans same.amount,
              next.withheldFee.trans same.withheldFee,
              next.confidentialWithheld.trans same.confidentialWithheld, ?_⟩
            have state := same.confidential
            have stateOn := next.confidential
            generalize AccountSnapshot.confidential _ = first at state ⊢
            generalize AccountSnapshot.confidential _ = second
              at state stateOn
            generalize AccountSnapshot.confidential _ = third at stateOn ⊢
            cases state with
            | none => exact stateOn
            | some equal =>
                cases stateOn with
                | some equalOn =>
                    exact .some
                      ⟨equalOn.1.trans equal.1, equalOn.2.1.trans equal.2.1,
                        equalOn.2.2.1.trans equal.2.2.1,
                        equalOn.2.2.2.trans equal.2.2.2⟩
  pool := second.pool.trans first.pool
  supply := second.supply.trans first.supply

end Accounts

/-! ## Moves that settle an instruction -/

section Settling

variable {crypto : Crypto} {coin : Coin} {signers : List Address}
  {chain after : TokenChain} {purses purses' : Purse →₀ Nat}

/-- Nothing moves. -/
theorem Settles.still
    (backed : Backed crypto coin purses chain)
    (same : SameHoldings coin chain after) :
    Settles coin signers chain crypto purses after :=
  ⟨[], purses, by simp, runAll_nil, backed.of_sameHoldings same⟩

/-- The supply follows what is issued and retired. -/
theorem Settles.of_moves
    (moves : List (Move Purse)) (backed : Backed crypto coin purses chain)
    (permitted : ∀ move ∈ moves, Permitted coin signers chain move)
    (ran : runAll purses moves = some purses')
    (reflects : Reflects crypto coin purses' after)
    (supply : after.supply coin.mint + retired moves =
      chain.supply coin.mint + issued moves)
    (bounded : after.supply coin.mint < 2 ^ 64) :
    Settles coin signers chain crypto purses after := by
  have sum := total_runAll ran
  have before := backed.supply
  have same : total purses' = after.supply coin.mint := by omega
  exact ⟨moves, purses', permitted, ran,
    { toReflects := reflects
      supply := same
      bounded := by omega }⟩

/-- Where money is only shifted, the supply stays. -/
theorem Settles.of_shifts
    (moves : List (Move Purse)) (backed : Backed crypto coin purses chain)
    (permitted : ∀ move ∈ moves, Permitted coin signers chain move)
    (ran : runAll purses moves = some purses')
    (reflects : Reflects crypto coin purses' after)
    (shifts : issued moves = 0 ∧ retired moves = 0)
    (supply : after.supply coin.mint = chain.supply coin.mint) :
    Settles coin signers chain crypto purses after := by
  have bounded := backed.bounded
  have before := backed.supply
  exact .of_moves moves backed permitted ran reflects (by omega) (by omega)

/-- Only some accounts and their purses have changed. -/
theorem Reflects.change
    (addresses : List Address)
    (reflects : Reflects crypto coin purses chain)
    (accounts : ∀ other, other ∉ addresses →
      after.accountOf coin.mint other = chain.accountOf coin.mint other)
    (elsewhere : ∀ other, other ∉ addresses →
      held purses' other = held purses other)
    (pool : purses' .pool = (after.mintWithheld coin.mint).getD 0)
    (shows : ∀ address ∈ addresses, ∃ account,
      after.accountOf coin.mint address = some account ∧
        Shows crypto coin.withheldKey account (held purses' address)) :
    Reflects crypto coin purses' after where
  shows address account found := by
    by_cases member : address ∈ addresses
    · obtain ⟨other, otherFound, shown⟩ := shows address member
      rw [found] at otherFound
      cases otherFound
      exact shown
    · rw [elsewhere address member]
      exact reflects.shows address account (accounts address member ▸ found)
  absent address missing := by
    by_cases member : address ∈ addresses
    · obtain ⟨other, otherFound, _⟩ := shows address member
      rw [missing] at otherFound
      cases otherFound
    · rw [elsewhere address member]
      exact reflects.absent address (accounts address member ▸ missing)
  pool := pool

/-- One account of the coin has changed. -/
theorem Reflects.setAccount
    {address : Address} {changed : AccountSnapshot}
    (reflects : Reflects crypto coin purses chain)
    (elsewhere : ∀ other, other ≠ address →
      held purses' other = held purses other)
    (pool : purses' .pool = (chain.mintWithheld coin.mint).getD 0)
    (ofMint : changed.mint = coin.mint)
    (shows : Shows crypto coin.withheldKey changed (held purses' address)) :
    Reflects crypto coin purses' (chain.setAccount address (some changed)) := by
  refine .change [address] reflects (fun other away => ?_)
    (fun other away => elsewhere other (by simpa using away)) pool ?_
  · exact TokenChain.accountOf_setAccount_of_ne (by simpa using away) _
  · intro one member
    obtain rfl := List.mem_singleton.mp member
    exact ⟨changed, (TokenChain.accountOf_setAccount_self _).trans
      (TokenChain.accountOf_of_mint ofMint), shows⟩

/-- Two accounts of the coin have changed. -/
theorem Reflects.setAccounts
    {source destination : Address} {payer payee : AccountSnapshot}
    (reflects : Reflects crypto coin purses chain)
    (different : source ≠ destination)
    (elsewhere : ∀ other, other ≠ source → other ≠ destination →
      held purses' other = held purses other)
    (pool : purses' .pool = purses .pool)
    (ofMint : payer.mint = coin.mint) (payeeOfMint : payee.mint = coin.mint)
    (shows : Shows crypto coin.withheldKey payer (held purses' source))
    (payeeShows :
      Shows crypto coin.withheldKey payee (held purses' destination)) :
    Reflects crypto coin purses'
      ((chain.setAccount source (some payer)).setAccount destination
        (some payee)) := by
  refine .change [source, destination] reflects (fun other away => ?_)
    (fun other away => ?_) ?_ ?_
  · have apart : other ≠ source ∧ other ≠ destination := by simpa using away
    rw [TokenChain.accountOf_setAccount_of_ne apart.2,
      TokenChain.accountOf_setAccount_of_ne apart.1]
  · have apart : other ≠ source ∧ other ≠ destination := by simpa using away
    exact elsewhere other apart.1 apart.2
  · rw [pool, reflects.pool]
    rfl
  · intro one member
    rcases List.mem_cons.mp member with rfl | last
    · refine ⟨payer, ?_, shows⟩
      rw [TokenChain.accountOf_setAccount_of_ne different,
        TokenChain.accountOf_setAccount_self]
      exact TokenChain.accountOf_of_mint ofMint
    · obtain rfl := List.mem_singleton.mp last
      exact ⟨payee, (TokenChain.accountOf_setAccount_self _).trans
        (TokenChain.accountOf_of_mint payeeOfMint), payeeShows⟩

/-- An account of which only the public amounts have changed. -/
theorem Shows.public
    {withheldKey : PodElGamalPubkey} {account changed : AccountSnapshot}
    {before later : Compartment → Nat}
    (shows : Shows crypto withheldKey account before)
    (confidential : changed.confidential = account.confidential)
    (confidentialWithheld :
      changed.confidentialWithheld = account.confidentialWithheld)
    (spendable : later .spendable = changed.amount)
    (fees : later .fees = changed.withheldFee.getD 0)
    (pending : later .pending = before .pending)
    (available : later .available = before .available)
    (hidden : later .hidden = before .hidden) :
    Shows crypto withheldKey changed later where
  spendable := spendable
  fees := fees
  unconfigured absent := by
    rw [pending, available]
    exact shows.unconfigured (confidential ▸ absent)
  pending state configured := by
    rw [pending]
    exact shows.pending state (confidential ▸ configured)
  cleared state configured nothing :=
    shows.cleared state (confidential ▸ configured) (pending ▸ nothing)
  available state configured := by
    rw [available]
    exact shows.available state (confidential ▸ configured)
  unwithheld absent := by
    rw [hidden]
    exact shows.unwithheld (confidentialWithheld ▸ absent)
  hidden withheld present := by
    rw [hidden]
    exact shows.hidden withheld (confidentialWithheld ▸ present)

end Settling
end Remit
