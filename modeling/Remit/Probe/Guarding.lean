import Remit.Probe.Separation

/-!
# Guarded accounts

Where CPI Guard is on, an owner can sign calls of any of the programs: what
leaves the account leaves it under the allowance that the owner has granted
before, by the hand of the delegate.
-/

namespace Remit
namespace Probe

open Runs

inductive GuardEvent (Data : Type) where
  | call (call : ProgramCall Data)
  | other (event : CoinEvent)

section Events

variable {Data : Type}

/-- A program is called, which succeeds or fails, or something else happens. -/
inductive GuardStep (setting : ProgramSetting Data) (crypto : Crypto)
    (coin : Coin) : TokenChain → GuardEvent Data → TokenChain → Prop where
  | executed {chain after : TokenChain} {call : ProgramCall Data} :
      setting.Executes call chain after →
      GuardStep setting crypto coin chain (.call call) after
  | refused {chain : TokenChain} {call : ProgramCall Data} :
      (∀ after, ¬ setting.Executes call chain after) →
      GuardStep setting crypto coin chain (.call call) chain
  | other {chain after : TokenChain} {event : CoinEvent} :
      CoinStep crypto coin chain event after →
      GuardStep setting crypto coin chain (.other event) after

/-- Those who sign in an event. -/
def GuardEvent.Acts (setting : ProgramSetting Data) (key : Address) :
    GuardEvent Data → Prop
  | call made => made.Acts setting key
  | other (.transact signers _) => key ∈ signers
  | other (.begin _) => False

/-- The permanent delegate signs nothing.  The owner signs nothing but calls of
the programs, and neither the account nor its mint is closed. -/
def GuardEvent.Unspending (setting : ProgramSetting Data) (coin : Coin)
    (address owner : Address) (seizer : Option Address)
    (event : GuardEvent Data) : Prop :=
  (∀ key, seizer = some key → ¬ event.Acts setting key) ∧
    match event with
    | other (.transact signers instructions) =>
        owner ∉ signers ∧ ∀ instruction ∈ instructions,
          ¬ instruction.Closes coin.mint ∧ ¬ instruction.Closes address
    | _ => True

end Events

/-- An account of the coin on which CPI Guard is on, and the permanent delegate
of the coin. -/
structure Guarded (coin : Coin) (address : Address) (seizer : Option Address)
    (account : AccountSnapshot) (chain : TokenChain) : Prop where
  held : HeldBy coin (.extension .permanentDelegate) seizer chain
  here : chain.accountOf coin.mint address = some account
  guarded : account.isGuarded = true

section Guarding

variable {Data : Type} {setting : ProgramSetting Data} {crypto : Crypto}
  {coin : Coin} {address : Address} {seizer : Option Address}
  {account : AccountSnapshot}
  {chain after : TokenChain}

/-- What is spent under an allowance leaves the guard on. -/
theorem Guarded.spent
    {acts : Address → Prop} {left : AccountSnapshot}
    (guarded : Guarded coin address seizer account chain)
    (held : HeldBy coin (.extension .permanentDelegate) seizer after)
    (found : after.accountOf coin.mint address = some left)
    (spent : account.SpentUnder acts left) :
    Guarded coin address seizer left after where
  held := held
  here := found
  guarded := by
    have on := guarded.guarded
    unfold AccountSnapshot.isGuarded at on ⊢
    rw [spent.cpiGuard]
    exact on

/-- A program cannot use the signature of the owner. -/
theorem Guarded.invoked
    {acts : Address → Prop} {signers : List Address}
    {instruction : TokenInstruction}
    (guarded : Guarded coin address seizer account chain)
    (unseized : ∀ key, seizer = some key → ¬ acts key)
    (signed : ∀ key ∈ signers, acts key)
    (forwardable : instruction.IsForwardable)
    (performed : instruction.performInvoked signers chain = some after) :
    ∃ left, Guarded coin address seizer left after ∧
      account.SpentUnder acts left := by
  obtain ⟨unblocked, performed⟩ :=
    TokenInstruction.performInvoked_eq_some.mp performed
  have unsigned : ¬ SeizerSigns coin signers chain :=
    guarded.held.not_seizerSigns fun key member isSeizer =>
      unseized key isSeizer (signed key member)
  have found := (TokenChain.accountOf_eq_some.mp guarded.here).1
  cases instruction with
  | transferCheckedWithFee source mint destination authority amount decimals
      fee =>
      have unowned : source = address → account.owner ≠ authority := by
        rintro rfl owned
        have blocks : TokenInstruction.blocked chain
            (.transferCheckedWithFee source mint destination authority amount
              decimals fee) = true :=
          TokenInstruction.blocked_transfer.mpr
            ⟨account, found, guarded.guarded, owned⟩
        rw [unblocked] at blocks
        cases blocks
      obtain ⟨left, leftFound, spent⟩ :=
        spent_of_transferChecked unsigned performed guarded.here unowned
      have mints := (TokenChain.transferChecked_sameTerms performed).1
      have held : HeldBy coin (.extension .permanentDelegate) seizer after := by
        unfold HeldBy
        rw [mints]
        exact guarded.held
      exact ⟨left, guarded.spent held leftFound spent, spent.mono signed⟩
  | approveChecked source mint delegate authority amount decimals =>
      obtain ⟨changed, changedFound, _, _, _, _, rfl⟩ :=
        TokenChain.approve_eq_some performed
      have away : address ≠ source := by
        rintro rfl
        have blocks : TokenInstruction.blocked chain
            (.approveChecked address mint delegate authority amount decimals) =
              true :=
          TokenInstruction.blocked_approve.mpr
            ⟨account, found, guarded.guarded⟩
        rw [unblocked] at blocks
        cases blocks
      refine ⟨account, ⟨guarded.held, ?_, guarded.guarded⟩, .refl⟩
      rw [TokenChain.accountOf_setAccount_of_ne away]
      exact guarded.here
  | _ => cases forwardable

/-- Whatever happens, a guarded account stays guarded and is spent from under
its allowance. -/
theorem Guarded.step
    {event : GuardEvent Data}
    (guarded : Guarded coin address seizer account chain)
    (unspending :
      event.Unspending setting coin address account.owner seizer)
    (step : GuardStep setting crypto coin chain event after) :
    ∃ left, Guarded coin address seizer left after ∧
      account.SpentUnder (event.Acts setting ·) left := by
  obtain ⟨unseized, unsigned⟩ := unspending
  cases step with
  | refused => exact ⟨account, guarded, .refl⟩
  | executed executes =>
      rcases executes.performs with
        rfl | ⟨signers, instruction, acts, forwardable, performed⟩
      · exact ⟨account, guarded, .refl⟩
      · exact guarded.invoked unseized acts forwardable performed
  | other step =>
      cases step with
      | begin =>
          exact ⟨account, ⟨guarded.held, guarded.here, guarded.guarded⟩, .refl⟩
      | transact performs =>
          obtain ⟨ownerUnsigned, stays⟩ := unsigned
          obtain ⟨held, left, found, spent⟩ := performs.spends guarded.held
            (fun key member isSeizer => unseized key isSeizer member)
            guarded.here ownerUnsigned stays
          exact ⟨left, guarded.spent held found spent, spent⟩

/-- Whatever happens in a run, a guarded account is spent from under the
allowance that it had in the beginning. -/
theorem Guarded.run
    {trace : List (GuardEvent Data × TokenChain)}
    (run : Run (GuardStep setting crypto coin) chain trace)
    (guarded : Guarded coin address seizer account chain)
    (events : EachStep (fun _ event =>
      event.Unspending setting coin address account.owner seizer) chain trace) :
    (∀ later ∈ visited chain trace, ∃ left,
      Guarded coin address seizer left later ∧
        account.SpentUnder (fun _ => True) left) ∧
    ∀ before event after, (before, event, after) ∈ transitions chain trace →
      ∃ was left, account.SpentUnder (fun _ => True) was ∧
        Guarded coin address seizer was before ∧
        Guarded coin address seizer left after ∧
        was.SpentUnder (event.Acts setting ·) left := by
  induction run generalizing account with
  | stay chain =>
      constructor
      · intro later member
        rw [mem_visited_nil.mp member]
        exact ⟨account, guarded, .refl⟩
      · intro before event after member
        cases member
  | @next chain next event rest step _ inductionHypothesis =>
      obtain ⟨left, leftGuarded, spent⟩ := guarded.step events.1 step
      have unspending := events.2
      rw [← spent.owner] at unspending
      obtain ⟨states, steps⟩ := inductionHypothesis leftGuarded unspending
      constructor
      · intro later member
        rcases mem_visited_cons.mp member with rfl | onward
        · exact ⟨account, guarded, .refl⟩
        · obtain ⟨last, lastGuarded, spentOn⟩ := states later onward
          exact ⟨last, lastGuarded,
            (spent.mono fun _ _ => trivial).trans spentOn⟩
      · intro before earlier after member
        rcases List.mem_cons.mp member with same | onward
        · cases same
          exact ⟨account, left, .refl, guarded, leftGuarded, spent⟩
        · obtain ⟨was, last, spentOn, others⟩ :=
            steps before earlier after onward
          exact ⟨was, last, (spent.mono fun _ _ => trivial).trans spentOn,
            others⟩

end Guarding

/-- Seizures apart, which the permanent delegate signs: while CPI Guard is on,
however many calls of the agent and of the probe are made, whoever else signs
them (the owner, too) and whatever they are given, and whatever others do in
between without closing the account or its mint, what leaves the account in all
is within the allowance that the owner had granted before, the allowance is used
up by as much, each time the delegate has signed, and nobody becomes a delegate
or switches the guard off. -/
theorem guarded_accounts_spend_only_their_allowance
    {Data : Type} (setting : ProgramSetting Data) (crypto : Crypto)
    (coin : Coin)
    (address : Address) {seizer : Option Address} {account : AccountSnapshot}
    {start : TokenChain} {trace : List (GuardEvent Data × TokenChain)}
    (run : Run (GuardStep setting crypto coin) start trace)
    (held : HeldBy coin (.extension .permanentDelegate) seizer start)
    (here : start.accountOf coin.mint address = some account)
    (guarded : account.isGuarded = true)
    (events : EachStep (fun _ event =>
      event.Unspending setting coin address account.owner seizer) start
        trace) :
    (∀ chain ∈ visited start trace, ∃ left,
      chain.accountOf coin.mint address = some left ∧
        left.owner = account.owner ∧ left.isGuarded = true ∧
        (left.delegate = account.delegate ∨ left.delegate = none) ∧
        left.delegatedAmount ≤ account.delegatedAmount ∧
        account.amount ≤
          left.amount + (account.delegatedAmount - left.delegatedAmount)) ∧
    ∀ before event after, (before, event, after) ∈ transitions start trace →
      ∃ was left, before.accountOf coin.mint address = some was ∧
        after.accountOf coin.mint address = some left ∧
        (left.amount < was.amount →
          ∃ key, account.delegate = some key ∧ was.delegate = some key ∧
            event.Acts setting key) := by
  have start : Guarded coin address seizer account start :=
    ⟨held, here, guarded⟩
  obtain ⟨states, steps⟩ := start.run run events
  constructor
  · intro chain member
    obtain ⟨left, leftGuarded, spent⟩ := states chain member
    have within := spent.amount
    refine ⟨left, leftGuarded.here, spent.owner, leftGuarded.guarded,
      spent.delegate, spent.allowance, ?_⟩
    omega
  · intro before event after member
    obtain ⟨was, left, spent, wasGuarded, leftGuarded, spends⟩ :=
      steps before event after member
    refine ⟨was, left, wasGuarded.here, leftGuarded.here, fun less => ?_⟩
    obtain ⟨key, isDelegate, acts⟩ := spends.spender less
    rcases spent.delegate with same | gone
    · exact ⟨key, same ▸ isDelegate, isDelegate, acts⟩
    · rw [gone] at isDelegate
      cases isDelegate

namespace Quiet

open Transparent Remit.Quiet

/-- Alice's account, from which the keeper may pay. -/
def guardedAccount : AccountSnapshot :=
  ({ Agent.Quiet.payer with
    delegate := some Agent.Quiet.mandate
    delegatedAmount := 250 } : AccountSnapshot).guarded

def guardedChain : TokenChain :=
  Agent.Quiet.approvedState.chain.guarding alice

/-- Alice calls the probe, the keeper pays, and an epoch begins. -/
def guardedTrace : List (GuardEvent TokenData × TokenChain) :=
  [(.call probeCall, guardedChain),
    (.call keeperCall, Agent.Quiet.paidChain.guarding alice),
    (.other (.begin 1),
      { Agent.Quiet.paidChain.guarding alice with epoch := 1 })]

theorem guardedTrace_run :
    Run (GuardStep setting Transparent.crypto ⟨sharedMint.address, ⟨0⟩⟩)
      guardedChain guardedTrace := by
  have stopped : ∀ after, ¬ setting.Executes probeCall guardedChain after := by
    intro after executes
    have built : BuiltCall setting guardedChain.epoch (.new bob false) alice
        sharedMint.address alice (.forwardOwnerTransfer 100) 2 1 probeCall :=
      probeCall_built
    have unblocked := (TokenInstruction.performInvoked_eq_some.mp
      ((built.executes_iff setting_builds).mp executes)).1
    have blocks : (ProbeInstruction.forwards alice sharedMint.address bob alice
        2 1 (.forwardOwnerTransfer 100)).blocked guardedChain = true :=
      blocked_forwards _ rfl rfl rfl
    exact Bool.false_ne_true (unblocked.symm.trans blocks)
  have pays : setting.Executes keeperCall guardedChain
      (Agent.Quiet.paidChain.guarding alice) := by
    refine (executes_guarding rfl ?_).mpr ⟨_, keeperCall_executes, rfl⟩
    rintro account ⟨⟩
    exact underivable_alice
  exact .next (.refused stopped)
    (.next (.executed pays) (.next (.other (.begin (Nat.zero_le 1))) (.stay _)))

/-- What the keeper has paid is missing from the allowance. -/
theorem alice_keeps_the_rest :
    ∃ left,
      (final guardedChain guardedTrace).accountOf sharedMint.address alice =
          some left ∧
        left.isGuarded = true ∧
        1000 ≤ left.amount + (250 - left.delegatedAmount) := by
  have events : EachStep (fun _ event =>
      event.Unspending setting ⟨sharedMint.address, ⟨0⟩⟩ alice
        guardedAccount.owner none) guardedChain guardedTrace :=
    ⟨⟨nofun, trivial⟩, ⟨nofun, trivial⟩, ⟨nofun, trivial⟩, trivial⟩
  have here : guardedChain.accountOf sharedMint.address alice =
      some guardedAccount := by
    decide
  obtain ⟨states, _⟩ := guarded_accounts_spend_only_their_allowance setting
    Transparent.crypto ⟨sharedMint.address, ⟨0⟩⟩ alice guardedTrace_run
    ⟨sharedMint, rfl, rfl⟩ here rfl events
  obtain ⟨left, found, _, guarded, _, _, within⟩ :=
    states (final guardedChain guardedTrace) (final_mem_visited ..)
  exact ⟨left, found, guarded, within⟩

end Quiet
end Probe
end Remit
