import Remit.Coin.Coining
import Remit.Confidential.Fees

/-!
# Calls and the money

Parties that use the library make calls in any order, on a chain on which others
act as well.  Money moves only as the coin permits to the keys of a call, and a
mint that a call closes has left nothing in any account.
-/

namespace Remit

set_option maxRecDepth 2000

open Flows Flow Purses Runs

variable {C : Cluster} {crypto : Crypto} {coin : Coin}

/-- What is sent by calls from a world in which nothing was sent. -/
theorem LibraryCall.sent_runAll
    (calls : List (LibraryCall crypto)) (state : C.State) (drawn : Nat) :
    Chained C state (runAll (World.initial state drawn) calls).sent
        (runAll (World.initial state drawn) calls).state ∧
      ∀ one ∈ (runAll (World.initial state drawn) calls).sent,
        ∃ call ∈ calls, call.Posts C one.transaction one.signers := by
  obtain ⟨sent, same, chained, posts⟩ :=
    submits_runAll calls (World.initial state drawn)
  rw [show (World.initial state drawn : World C).sent = [] from rfl,
    List.nil_append] at same
  rw [same]
  exact ⟨chained, posts⟩

/-- A coin that others and calls have brought about is backed around every
transaction. -/
theorem LibraryCall.isBacked_runAll
    (contract : CoinContract C crypto coin fun _ => True)
    {state : C.State} (backed : IsBacked crypto coin (C.tokenChain state))
    (calls : List (LibraryCall crypto)) (drawn : Nat) :
    (∀ one ∈ (runAll (World.initial state drawn) calls).sent,
        HoldsAround C (IsBacked crypto coin) one) ∧
      IsBacked crypto coin
        (C.tokenChain (runAll (World.initial state drawn) calls).state) := by
  refine contract.keeps (fun _ _ _ backed _ step => step.isBacked backed)
    (sent_runAll calls state drawn).1 backed ?_
  exact fun _ _ _ _ backed performs => performs.isBacked backed

/-- What a transaction did to the money: it moved as the coin permits to the
signers at that point, and not at all if the transaction failed. -/
def MovesAsPermitted (crypto : Crypto) (coin : Coin) (one : Sent C.State) :
    Prop :=
  ∃ purses moves left,
    Backed crypto coin purses (C.tokenChain one.delivery.before) ∧
      Backed crypto coin left (C.tokenChain one.delivery.after) ∧
      runAll purses moves = some left ∧
      (∀ move ∈ moves,
        PermittedDuring crypto coin (C.signedBy one.signers)
          (C.tokenChain one.delivery.before)
          (coinInstructions one.transaction) move) ∧
      (one.landed = false → moves = [])

/-- From the day before the coin exists, whatever calls are made and whatever
others do, the supply of the mint is what all purses hold together before and
after each transaction.  In between money moves only as the coin permits to its
signers at that point, who are the payer, keys of the calls and keys that were
drawn for proof accounts; a transaction that fails moves nothing. -/
theorem calls_move_money_as_permitted
    (C : Cluster) (crypto : Crypto) (coin : Coin)
    (contract : CoinContract C crypto coin fun _ => True)
    (state : C.State) (unborn : Unborn coin (C.tokenChain state))
    (calls : List (LibraryCall crypto)) (drawn : Nat) :
    ∀ one ∈ (LibraryCall.runAll (World.initial state drawn : World C)
        calls).sent,
      MovesAsPermitted crypto coin one ∧
        ∀ signer ∈ one.signers,
          (∃ call ∈ calls, signer ∈ call.keys) ∨
            ∃ number, signer = C.keypairs number := by
  intro one member
  obtain ⟨chained, posts⟩ := LibraryCall.sent_runAll calls state drawn
  obtain ⟨around, _⟩ :=
    LibraryCall.isBacked_runAll contract unborn.isBacked calls drawn
  obtain ⟨purses, backed⟩ := (around one member).before
  obtain ⟨call, isCall, posted⟩ := posts one member
  have given : ∀ signer ∈ one.signers,
      (∃ call ∈ calls, signer ∈ call.keys) ∨
        ∃ number, signer = C.keypairs number :=
    fun signer signs => (posted.given signer signs).imp
      (fun among => ⟨call, isCall, among⟩) id
  refine ⟨?_, given⟩
  obtain ⟨reached, delivered⟩ := chained.delivered one member
  have delivery := backed
  rw [delivered] at delivery
  cases outcome : (C.send reached one.transaction one.signers).outcome with
  | ok receipt =>
      obtain ⟨moves, left, permitted, ran, next⟩ :=
        (contract.landed _ _ _ _ outcome).settles delivery
      refine ⟨purses, moves, left, backed, ?_, ran, ?_, ?_⟩
      · rw [delivered]
        exact next
      · rw [delivered]
        exact permitted
      · intro failed
        rw [Sent.landed, delivered, outcome] at failed
        cases failed
  | error error =>
      refine ⟨purses, [], purses, backed, ?_, runAll_nil, by simp,
        fun _ => rfl⟩
      rw [delivered, contract.not_landed _ _ _ _ outcome]
      exact delivery

/-- A close that fails for want of the authority, and an issue. -/
theorem an_issue_moves_money :
    let calls : List (LibraryCall Transparent.crypto) :=
      [.closeMint Busy.stablecoin Busy.freezeAuthority Coining.treasury,
        .mintTo Busy.stablecoin Coining.holder Coining.mintAuthority 100]
    let sent := (LibraryCall.runAll
      (World.initial .unborn 0 : World Coining.cluster) calls).sent
    sent.map Sent.landed = [false, true] ∧
      ∀ one ∈ sent,
        MovesAsPermitted Transparent.crypto Coining.token one ∧
          ∀ signer ∈ one.signers,
            (∃ call ∈ calls, signer ∈ call.keys) ∨
              ∃ number, signer = Coining.keypair number := by
  refine ⟨by decide, ?_⟩
  exact calls_move_money_as_permitted Coining.cluster Transparent.crypto
    Coining.token (Coining.contract trivial) .unborn
    ⟨rfl, fun _ => rfl⟩ _ 0

/-! ## Closing the mint -/

/-- Nothing is left of a coin: there is no mint, and its accounts are empty.
Each of their ciphertexts encrypts zero. -/
structure Emptied (crypto : Crypto) (coin : Coin) (chain : TokenChain) :
    Prop where
  mint : chain.mints coin.mint = none
  amount : ∀ address account,
    chain.accountOf coin.mint address = some account → account.amount = 0
  withheld : ∀ address account,
    chain.accountOf coin.mint address = some account →
      account.withheldFee.getD 0 = 0
  pending : ∀ address account confidential,
    chain.accountOf coin.mint address = some account →
    account.confidential = some confidential →
      crypto.plaintext (crypto.secretOf confidential.elgamalPubkey)
          confidential.pendingBalanceLo = 0 ∧
        crypto.plaintext (crypto.secretOf confidential.elgamalPubkey)
          confidential.pendingBalanceHi = 0
  available : ∀ address account confidential,
    chain.accountOf coin.mint address = some account →
    account.confidential = some confidential →
      crypto.plaintext (crypto.secretOf confidential.elgamalPubkey)
        confidential.availableBalance = 0
  fees : ∀ address account fees,
    chain.accountOf coin.mint address = some account →
    account.confidentialWithheld = some fees →
      crypto.plaintext (crypto.secretOf coin.withheldKey)
        fees.withheldAmount = 0

section Closing

variable {signers : List Address} {chain after : TokenChain}

/-- A coin without a mint has nothing. -/
theorem IsBacked.emptied
    (backed : IsBacked crypto coin chain)
    (closed : chain.mints coin.mint = none) : Emptied crypto coin chain := by
  obtain ⟨purses, held⟩ := backed
  have noSupply : chain.supply coin.mint = 0 := by
    unfold TokenChain.supply
    rw [closed]
    rfl
  have empty : ∀ address compartment,
      Remit.held purses address compartment = 0 :=
    fun _ _ => held.purses_of_no_supply noSupply _
  refine
    { mint := closed
      amount := fun address account found => ?_
      withheld := fun address account found => ?_
      pending := fun address account confidential found configured => ?_
      available := fun address account confidential found configured => ?_
      fees := fun address account fees found present => ?_ }
  · rw [← (held.shows address account found).spendable]
    exact empty _ _
  · rw [← (held.shows address account found).fees]
    exact empty _ _
  · exact (held.shows address account found).cleared confidential configured
      (empty _ _)
  · rw [(held.shows address account found).available confidential configured,
      empty]
    exact Nat.cast_zero
  · rw [(held.shows address account found).hidden fees present, empty]
    exact Nat.cast_zero

/-- Closing what is at the address of the mint leaves no mint there. -/
theorem PerformsAll.closeMint
    {destination authority : Address}
    (performs : PerformsAll crypto coin signers chain
      [.instruct (.closeAccount coin.mint destination authority), .elsewhere]
      after) :
    after.mints coin.mint = none := by
  cases performs with
  | @cons _ between _ _ _ first rest =>
      have closed : between.mints coin.mint = none := by
        cases first with
        | perform performed =>
            obtain ⟨_, _, _, _, _, rfl⟩ :=
              TokenChain.closeMint_eq_some performed
            exact Function.update_self ..
        | confide confides => cases confides
        | foreign confides => cases confides
        | closeAccount missing => exact missing
      cases rest with
      | cons second rest =>
          cases rest
          cases second with
          | elsewhere unconcerned =>
              have same := unconcerned.mints
              rw [closed] at same
              generalize after.mints coin.mint = found at same ⊢
              cases same
              rfl

end Closing

/-- When `closeMint` returns, the mint is gone and every account of the coin is
empty, whatever was done before by calls and by others: nothing is spendable or
withheld, and neither half of what is pending, the available balance nor the
hidden fees encrypt anything but zero. -/
theorem closed_mint_leaves_nothing
    (C : Cluster) (crypto : Crypto) (coin : Coin)
    (contract : CoinContract C crypto coin fun _ => True)
    (state : C.State) (unborn : Unborn coin (C.tokenChain state))
    (calls : List (LibraryCall crypto)) (drawn : Nat)
    (closeAuthority : Keypair) (destination : Address) :
    let world := LibraryCall.runAll (World.initial state drawn : World C) calls
    Flow.Ensures (closeMint coin.mint closeAuthority destination) world
      fun outcome reached => outcome = .ok () →
        ∃ one, reached.sent = world.sent ++ [one] ∧ one.landed = true ∧
          Emptied crypto coin (C.tokenChain one.delivery.after) := by
  intro world
  have backed :=
    (LibraryCall.isBacked_runAll contract unborn.isBacked calls drawn).2
  refine .bind (.ofExcept (fun built isBuilt => ?_) fun _ _ failed => by
    cases failed)
  obtain rfl := tokenInstruction_eq_ok isBuilt
  refine .bind (World.ensures_send (fun receipt outcome => .pure fun _ => ?_)
    fun _ _ failed => by cases failed)
  refine ⟨world.sending _ _, rfl, World.landed_sending outcome, ?_⟩
  have before := (contract.before world.state
    [.token (.closeAccount coin.mint destination closeAuthority.pubkey)]
    [closeAuthority]).keep backed fun _ _ _ backed _ step =>
      CoinStep.isBacked step backed
  have performs := contract.landed _ _ _ _ outcome
  exact (performs.isBacked before).emptied (PerformsAll.closeMint performs)

/-- A close by the close authority, of a mint of which some tokens were issued
and burnt by their holder. -/
theorem a_close_leaves_nothing :
    let calls : List (LibraryCall Transparent.crypto) :=
      [.closeMint Busy.stablecoin Busy.freezeAuthority Coining.treasury,
        .mintTo Busy.stablecoin Coining.holder Coining.mintAuthority 100]
    let world := LibraryCall.runAll
      (World.initial .unborn 0 : World (Coining.clusterOf Coining.spent)) calls
    let reached := (Flow.exec
      (closeMint Busy.stablecoin Coining.closeAuthority Coining.treasury)
      world).2
    TokenChain.supply (Cluster.tokenChain _ world.state) Busy.stablecoin =
        100 ∧
      TokenChain.accountOf (Cluster.tokenChain _ reached.state)
          Busy.stablecoin Coining.holder =
        some (Coining.opened Coining.holder Coining.owner.pubkey) ∧
      ∃ one, reached.sent = world.sent ++ [one] ∧ one.landed = true ∧
        Emptied Transparent.crypto Coining.token
          (Cluster.tokenChain _ one.delivery.after) := by
  refine ⟨by decide, by decide, ?_⟩
  have done := closed_mint_leaves_nothing (Coining.clusterOf Coining.spent)
    Transparent.crypto Coining.token
    (Coining.contractOf trivial (Coining.others_spent fun _ => trivial))
    .unborn ⟨rfl, fun _ => rfl⟩
    [.closeMint Busy.stablecoin Busy.freezeAuthority Coining.treasury,
      .mintTo Busy.stablecoin Coining.holder Coining.mintAuthority 100] 0
    Coining.closeAuthority Coining.treasury
  exact done.holds (by decide)

end Remit
