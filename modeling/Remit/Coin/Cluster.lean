import Remit.Calls.Signatures
import Remit.Coin.Sanctions

/-!
# The coin on a cluster

What Token-2022 does with the transactions of the library, and what others do
before and after.  Whatever holds of a coin and is kept by the instructions that
a call carries, and by those of others, holds around every transaction of the
call.
-/

namespace Remit

open Flows Flow Purses Runs

/-- Others carry transactions out, each of which is one of theirs, and epochs
begin. -/
def Others (crypto : Crypto) (coin : Coin) (theirs : CoinEvent → Prop)
    (chain after : TokenChain) : Prop :=
  ∃ trace, Run (CoinStep crypto coin) chain trace ∧
    EachStep (fun _ event => theirs event) chain trace ∧
    after = final chain trace

/-- What a transaction asks of the accounts of a coin.  It may move lamports
besides. -/
def coinInstructions (transaction : List Instruction) :
    List CoinInstruction :=
  (tokenInstructions transaction).map .instruct ++ [.elsewhere]

/-- The keys that have signed a transaction. -/
def Cluster.signedBy (C : Cluster) (signers : List Keypair) : List Address :=
  C.payer :: signers.map (·.pubkey)

/-- What Token-2022 does: a transaction that lands carries its instructions
out, a transaction that does not land does nothing, and the rest of what
happens is done by others. -/
structure CoinContract (C : Cluster) (crypto : Crypto) (coin : Coin)
    (theirs : CoinEvent → Prop) : Prop where
  before : ∀ state transaction signers,
    Others crypto coin theirs (C.tokenChain state)
      (C.tokenChain (C.send state transaction signers).before)
  landed : ∀ state transaction signers receipt,
    (C.send state transaction signers).outcome = .ok receipt →
      PerformsAll crypto coin (C.signedBy signers)
        (C.tokenChain (C.send state transaction signers).before)
        (coinInstructions transaction)
        (C.tokenChain (C.send state transaction signers).after)
  not_landed : ∀ state transaction signers error,
    (C.send state transaction signers).outcome = .error error →
      C.tokenChain (C.send state transaction signers).after =
        C.tokenChain (C.send state transaction signers).before
  after : ∀ state transaction signers,
    Others crypto coin theirs
      (C.tokenChain (C.send state transaction signers).after)
      (C.tokenChain (C.send state transaction signers).next)

section Keeping

variable {C : Cluster} {crypto : Crypto} {coin : Coin}
  {theirs : CoinEvent → Prop} {holds : TokenChain → Prop}
  {chain later : TokenChain}

/-- What the steps of others keep, others keep. -/
theorem Others.keep
    (others : Others crypto coin theirs chain later) (start : holds chain)
    (kept : ∀ before event after, holds before → theirs event →
      CoinStep crypto coin before event after → holds after) :
    holds later := by
  obtain ⟨trace, run, events, rfl⟩ := others
  exact run.invariant_of_eachStep start events kept _ (final_mem_visited ..)

variable (C holds) in
/-- A property holds before a sent transaction is decided about, after that and
when `send` returns. -/
structure HoldsAround (one : Sent C.State) : Prop where
  before : holds (C.tokenChain one.delivery.before)
  after : holds (C.tokenChain one.delivery.after)
  next : holds (C.tokenChain one.delivery.next)

/-- What one transaction and what others keep holds around it. -/
theorem CoinContract.holdsAround
    (contract : CoinContract C crypto coin theirs)
    (kept : ∀ before event after, holds before → theirs event →
      CoinStep crypto coin before event after → holds after)
    {state : C.State} {transaction : List Instruction} {signers : List Keypair}
    (start : holds (C.tokenChain state))
    (ours : ∀ before after, holds before →
      PerformsAll crypto coin (C.signedBy signers) before
        (coinInstructions transaction) after → holds after) :
    HoldsAround C holds
      ⟨transaction, signers, C.send state transaction signers⟩ := by
  have before := (contract.before state transaction signers).keep start kept
  have after :
      holds (C.tokenChain (C.send state transaction signers).after) := by
    cases outcome : (C.send state transaction signers).outcome with
    | ok receipt =>
        exact ours _ _ before (contract.landed _ _ _ _ outcome)
    | error error =>
        rw [contract.not_landed _ _ _ _ outcome]
        exact before
  exact ⟨before, after, (contract.after state transaction signers).keep after
    kept⟩

/-- What all transactions and what others keep holds around each of them. -/
theorem CoinContract.keeps
    (contract : CoinContract C crypto coin theirs)
    (kept : ∀ before event after, holds before → theirs event →
      CoinStep crypto coin before event after → holds after)
    {state reached : C.State} {sent : List (Sent C.State)}
    (chained : Chained C state sent reached)
    (start : holds (C.tokenChain state))
    (ours : ∀ one ∈ sent, ∀ before after, holds before →
      PerformsAll crypto coin (C.signedBy one.signers) before
        (coinInstructions one.transaction) after → holds after) :
    (∀ one ∈ sent, HoldsAround C holds one) ∧ holds (C.tokenChain reached) := by
  induction chained with
  | nil => exact ⟨by simp, start⟩
  | send transaction signers _ inductionHypothesis =>
      obtain ⟨earlier, here⟩ := inductionHypothesis fun one member =>
        ours one (List.mem_append_left _ member)
      have around := contract.holdsAround kept here
        (ours _ (List.mem_append_right _ List.mem_cons_self))
      refine ⟨fun one member => ?_, around.next⟩
      rcases List.mem_append.mp member with before | last
      · exact earlier one before
      · rw [List.mem_singleton.mp last]
        exact around

end Keeping

section Accumulating

variable {C : Cluster} {crypto : Crypto} {coin : Coin}
  {theirs : CoinEvent → Prop} {Event : Type}

/-- What was made by the transactions that were sent, one after another, where
others make nothing and a transaction that fails makes nothing. -/
theorem CoinContract.accumulates
    (contract : CoinContract C crypto coin theirs)
    (made : List Event → TokenChain → TokenChain → Prop)
    (events : Sent C.State → List Event)
    (refl : ∀ chain, made [] chain chain)
    (trans : ∀ {first second chain between later}, made first chain between →
      made second between later → made (first ++ second) chain later)
    (others : ∀ {before event after}, theirs event →
      CoinStep crypto coin before event after → made [] before after)
    (failed : ∀ one, one.landed = false → events one = [])
    {state reached : C.State} {sent : List (Sent C.State)}
    (chained : Chained C state sent reached)
    (landed : ∀ one ∈ sent, one.landed = true → ∀ {before after},
      PerformsAll crypto coin (C.signedBy one.signers) before
        (coinInstructions one.transaction) after →
          made (events one) before after) :
    made (sent.flatMap events) (C.tokenChain state) (C.tokenChain reached) := by
  have nothing : ∀ {before after}, Others crypto coin theirs before after →
      made [] before after := by
    intro before after did
    refine did.keep (refl before) fun between event last madeSoFar their step =>
      ?_
    exact trans madeSoFar (others their step)
  induction chained with
  | nil => exact refl _
  | @send _ reached transaction signers _ inductionHypothesis =>
      have earlier := inductionHypothesis fun one member =>
        landed one (List.mem_append_left _ member)
      have here : made
          (events ⟨transaction, signers, C.send reached transaction signers⟩)
          (C.tokenChain (C.send reached transaction signers).before)
          (C.tokenChain (C.send reached transaction signers).after) := by
        cases outcome : (C.send reached transaction signers).outcome with
        | ok receipt =>
            refine landed _ (List.mem_append_right _ List.mem_cons_self) ?_
              (contract.landed _ _ _ _ outcome)
            unfold Sent.landed
            rw [outcome]
            rfl
        | error error =>
            rw [contract.not_landed _ _ _ _ outcome, failed]
            · exact refl _
            · unfold Sent.landed
              rw [outcome]
              rfl
      have before := nothing (contract.before reached transaction signers)
      have after := nothing (contract.after reached transaction signers)
      have joined := trans (trans (trans earlier before) here) after
      rw [List.append_nil, List.append_nil] at joined
      rw [List.flatMap_append, List.flatMap_cons, List.flatMap_nil,
        List.append_nil]
      exact joined

end Accumulating

/-! ## What a transaction does to the money -/

section Money

variable {crypto : Crypto} {coin : Coin} {signers : List Address}
  {chain after : TokenChain} {purses : Purse →₀ Nat}
  {instructions : List CoinInstruction}

/-- A move that is permitted when some first instructions of a transaction were
carried out. -/
def PermittedDuring (crypto : Crypto) (coin : Coin) (signers : List Address)
    (chain : TokenChain) (instructions : List CoinInstruction)
    (move : Move Purse) : Prop :=
  ∃ done rest reached, instructions = done ++ rest ∧
    PerformsAll crypto coin signers chain done reached ∧
    Permitted coin signers reached move

theorem PermittedDuring.later
    {first : CoinInstruction} {between : TokenChain} {move : Move Purse}
    (performs : Performs crypto coin signers chain first between)
    (permitted :
      PermittedDuring crypto coin signers between instructions move) :
    PermittedDuring crypto coin signers chain (first :: instructions) move := by
  obtain ⟨done, rest, reached, split, carried, moves⟩ := permitted
  exact ⟨first :: done, rest, reached, by rw [split]; rfl,
    .cons performs carried, moves⟩

/-- The instructions of a transaction move money only as the coin permits when
they are carried out. -/
theorem PerformsAll.settles
    (performs : PerformsAll crypto coin signers chain instructions after)
    (backed : Backed crypto coin purses chain) :
    ∃ moves left,
      (∀ move ∈ moves,
        PermittedDuring crypto coin signers chain instructions move) ∧
      runAll purses moves = some left ∧ Backed crypto coin left after := by
  induction performs generalizing purses with
  | nil => exact ⟨[], purses, by simp, runAll_nil, backed⟩
  | @cons before between after instruction rest first _ inductionHypothesis =>
      obtain ⟨moves, middle, permitted, ran, next⟩ := first.settles backed
      obtain ⟨others, left, othersPermitted, othersRan, last⟩ :=
        inductionHypothesis next
      refine ⟨moves ++ others, left, fun move member => ?_, ?_, last⟩
      · rcases List.mem_append.mp member with here | there
        · exact ⟨[], instruction :: rest, before, rfl, .nil,
            permitted move here⟩
        · exact .later first (othersPermitted move there)
      · rw [runAll_append, ran]
        exact othersRan

end Money
end Remit
