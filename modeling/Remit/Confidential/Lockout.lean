import Remit.Confidential.Applying
import Remit.Confidential.Conservation

/-!
# Locking an owner out

A credit that lands between the reading and the landing of an apply makes the
counters differ.  From then on the reader refuses, every call that starts with
the reader refuses too, and no other call rewrites the counters.
-/

namespace Remit

open Flows Flow Runs

variable {crypto : Crypto} {roster : Roster crypto}

/-- The counters of the account at an address differ, and the calls in flight
for it are deposits.  The account shows an address in messages. -/
structure Locked (address shown : Address) (expected actual : Nat)
    (ledger : Ledger) : Prop where
  stale : ∃ account state,
    ledger.chain address = some account ∧
      account.confidential = some state ∧ account.address = shown ∧
      state.expectedPendingBalanceCreditCounter = expected ∧
      state.actualPendingBalanceCreditCounter = actual
  differ : expected ≠ actual
  deposits : ∀ call ∈ ledger.inFlight, call.execution.owner = address →
    ∃ amount, call.execution = .deposit address amount

/-- A call that cannot read the balance ends there. -/
theorem ApplyPlan.prepare_refused
    {account : AccountSnapshot} {keys : ConfidentialKeys crypto}
    {error : Error} (refused : availableBalance account keys = .error error) :
    ApplyPlan.prepare account keys = .error (.error error) := by
  unfold ApplyPlan.prepare
  rw [refused]
  rfl

section Locked

variable {address shown : Address} {expected actual : Nat}
  {ledger after : Ledger}

/-- The reader refuses the balance of a locked account. -/
theorem Locked.availableBalance
    {account : AccountSnapshot} (roster : Roster crypto)
    (locked : Locked address shown expected actual ledger)
    (found : ledger.chain address = some account) :
    availableBalance account (roster.keys address) =
      .error (staleBalance shown expected actual) := by
  obtain ⟨⟨account', state, found', configured, rfl, rfl, rfl⟩, differ, _⟩ :=
    locked
  obtain rfl : account = account' :=
    Option.some.inj (found.symm.trans found')
  exact availableBalance_stale configured differ

/-- So does every call that reads it. -/
theorem Locked.refuses
    (roster : Roster crypto) (call : Call)
    (locked : Locked address shown expected actual ledger)
    (own : call.addresses.head? = some address)
    (spends : ∀ amount, call ≠ .deposit address amount) :
    ∃ error, call.prepare roster ledger.chain = .error (.error error) := by
  obtain ⟨account, state, found, configured, _⟩ := locked.stale
  have refused := locked.availableBalance roster found
  cases call with
  | deposit account amount =>
      cases own
      exact absurd rfl (spends amount)
  | applyPendingBalance account =>
      cases own
      refine ⟨staleBalance shown expected actual, ?_⟩
      simp [Call.prepare, TokenAccounts.load, found,
        ApplyPlan.prepare_refused refused, bind, Except.bind]
  | transfer source destination mint epoch amount =>
      cases own
      rcases otherFound : ledger.chain destination with _ | other
      · refine ⟨.accountNotFound destination, ?_⟩
        simp [Call.prepare, TokenAccounts.load, found, otherFound, bind,
          Except.bind]
      · refine ⟨staleBalance shown expected actual, ?_⟩
        simp [Call.prepare, TokenAccounts.load, found, otherFound,
          TransferPlan.prepare, AccountSnapshot.requireConfidential,
          configured, refused, bind, Except.bind, Except.mapError]
  | withdraw account mint amount =>
      cases own
      refine ⟨staleBalance shown expected actual, ?_⟩
      simp [Call.prepare, TokenAccounts.load, found, withdrawable, refused,
        bind, Except.bind, Except.mapError]

/-- No step unlocks a locked account. -/
theorem Locked.step
    {exclusive : Address → Prop} {event : Event}
    (locked : Locked address shown expected actual ledger)
    (step : Step roster exclusive ledger event after) :
    Locked address shown expected actual after := by
  obtain ⟨account, state, found, configured, here, counted, recorded⟩ :=
    locked.stale
  cases step with
  | @begin call started inside prepared _ =>
      refine ⟨locked.stale, locked.differ, ?_⟩
      rintro other (_ | ⟨_, member⟩) own
      · by_contra spends
        obtain ⟨_, owner, addresses, _⟩ := Call.prepare_eq_ok prepared
        have head : call.addresses.head? = some address := by
          rw [← addresses, ← own]
          cases started.execution <;> rfl
        have notDeposit : ∀ amount, call ≠ .deposit address amount := by
          rintro amount rfl
          obtain ⟨read, _, made⟩ := except_bind_eq_ok prepared
          cases made
          exact spends ⟨amount, rfl⟩
        obtain ⟨error, refused⟩ :=
          locked.refuses roster call head notDeposit
        rw [prepared] at refused
        cases refused
      · exact locked.deposits other member own
  | @land call chain member executes =>
      obtain ⟨account', state', found', configured', address', _, moves⟩ :=
        executes.moves found configured
      refine ⟨⟨account', state', found', configured', address'.trans here,
        ?_⟩, locked.differ, fun other left =>
          locked.deposits other (List.mem_of_mem_erase left)⟩
      have owned := locked.deposits call member
      generalize call.execution = execution at moves owned
      cases moves with
      | untouched _ => exact ⟨counted, recorded⟩
      | deposited => exact ⟨counted, recorded⟩
      | credited _ => exact ⟨counted, recorded⟩
      | applied _ => exact absurd (owned rfl).choose_spec (by simp)
      | paid _ => exact ⟨counted, recorded⟩
      | paidToSelf _ => exact ⟨counted, recorded⟩
      | withdrawn _ => exact ⟨counted, recorded⟩
  | drop member =>
      exact ⟨locked.stale, locked.differ, fun other left =>
        locked.deposits other (List.mem_of_mem_erase left)⟩

end Locked

/-! ## One more call -/

/-- Whatever a call sends lands, and until then no credit for the account has
landed. -/
def LandsUncredited (C : Cluster) (crypto : Crypto)
    (withheldKey : PodElGamalPubkey) (address : Address) (state : C.State)
    (sent : List (Sent C.State)) : Prop :=
  ∀ one ∈ sent, one.landed = true ∧
    Credited crypto withheldKey address (C.tokenAccounts state) 0
      (C.tokenAccounts one.delivery.before)

/-- What a further apply comes to on a cluster that has the account as a state
of a ledger has it.  Nothing lands for a frozen account. -/
structure FurtherApply (C : Cluster) (roster : Roster crypto)
    (address : Address) (ledger : Ledger) (account : AccountSnapshot)
    (state : ConfidentialTransferAccount) : Prop where
  returns_iff : ∀ (owner : Keypair) (world : World C),
    C.tokenAccounts world.state address = some account →
      Ensures (applyPendingBalance address owner (roster.keys address)) world
        fun outcome reached => ∀ sent, reached.sent = world.sent ++ sent →
          LandsUncredited C crypto roster.withheldKeys.pubkey address
              world.state sent →
            ((∃ reported one, outcome = .ok reported ∧ sent = [one] ∧
                ReportsBalance (roster.keys address) address reported
                  (C.tokenAccounts one.delivery.after)) ↔
              state.expectedPendingBalanceCreditCounter =
                state.actualPendingBalanceCreditCounter)
  stale :
    state.expectedPendingBalanceCreditCounter ≠
        state.actualPendingBalanceCreditCounter →
      availableBalance account (roster.keys address) =
        .error (staleBalance account.address
          state.expectedPendingBalanceCreditCounter
          state.actualPendingBalanceCreditCounter)
  locked :
    state.expectedPendingBalanceCreditCounter ≠
        state.actualPendingBalanceCreditCounter →
      ∀ trace, Run (Step roster (· = address)) ledger trace →
        ∀ later ∈ visited ledger trace, ∀ (owner : Keypair) (world : World C),
          C.tokenAccounts world.state address = later.chain address →
            Ensures (applyPendingBalance address owner (roster.keys address))
              world fun outcome reached =>
                outcome = .error (.error (staleBalance account.address
                    state.expectedPendingBalanceCreditCounter
                    state.actualPendingBalanceCreditCounter)) ∧
                  reached = world

section Calls

variable {C : Cluster} {world : World C} {address : Address} {owner : Keypair}
  {keys : ConfidentialKeys crypto} {account : AccountSnapshot}

theorem World.ensures_loadAccount_found
    {post : Except (Stop Error) AccountSnapshot → World C → Prop}
    (found : C.tokenAccounts world.state address = some account)
    (holds : post (.ok account) world) :
    Ensures (World.loadAccount address) world post := by
  rw [tokenAccounts_eq] at found
  refine .bind (.read (.ofExcept (fun other loaded => ?_) fun error failed =>
    ?_))
  · rw [loaded] at found
    cases found
    exact holds
  · rw [failed] at found
    cases found

/-- A call that cannot be prepared sends nothing. -/
theorem applyPendingBalance_refused
    {stop : Stop Error}
    (found : C.tokenAccounts world.state address = some account)
    (refused : ApplyPlan.prepare account keys = .error stop) :
    Ensures (applyPendingBalance address owner keys) world
      fun outcome reached => outcome = .error stop ∧ reached = world := by
  unfold applyPendingBalance
  refine .bind (World.ensures_loadAccount_found found ?_)
  refine .bind (ensures_ofStop ?_)
  rw [refused]
  exact ⟨rfl, rfl⟩

/-- A call that is prepared sends one transaction, and returns the sum when it
lands. -/
theorem applyPendingBalance_sends
    {plan : ApplyPlan}
    (found : C.tokenAccounts world.state address = some account)
    (prepared : ApplyPlan.prepare account keys = .ok plan)
    (accepted : C.programs.tokenCheck
      (.applyPendingBalance address plan.credits plan.newDecryptable
        owner.pubkey) = .ok ()) :
    Ensures (applyPendingBalance address owner keys) world
      fun outcome reached =>
        let one := world.sending
          [.token (.applyPendingBalance address plan.credits
            plan.newDecryptable owner.pubkey)] [owner]
        reached.sent = world.sent ++ [one] ∧
          (one.landed = true → outcome = .ok plan.newAvailable) := by
  unfold applyPendingBalance
  refine .bind (World.ensures_loadAccount_found found ?_)
  refine .bind (ensures_ofStop ?_)
  rw [prepared]
  refine .bind (ensures_ofExcept_tokenInstruction ?_ fun error refused => ?_)
  · refine .bind (World.ensures_send (fun receipt landed => .pure ?_)
      fun error failed => ?_)
    · exact ⟨rfl, fun _ => rfl⟩
    · refine ⟨rfl, fun landed => ?_⟩
      rw [World.not_landed_sending failed] at landed
      cases landed
  · rw [accepted] at refused
    cases refused

end Calls

/-- The balances of a readable account fit 64 bits together. -/
theorem Kept.apply_returns
    {exclusive : Address → Prop} {total : Nat} {ledger : Ledger}
    {address : Address} {account : AccountSnapshot}
    {state : ConfidentialTransferAccount} {pending : Nat}
    (kept : Kept roster exclusive total ledger) (fits : total < 2 ^ 64)
    (member : address ∈ roster.accounts) (isExclusive : exclusive address)
    (found : ledger.chain address = some account)
    (configured : account.confidential = some state)
    (readable : pendingBalance account (roster.keys address) = .ok pending)
    (agree :
      state.expectedPendingBalanceCreditCounter =
        state.actualPendingBalanceCreditCounter) :
    ∃ plan, ApplyPlan.prepare account (roster.keys address) = .ok plan := by
  obtain ⟨books, balanced⟩ := kept.balanced
  obtain ⟨account', found', truthful⟩ :=
    (kept.consistent address member isExclusive).now
  obtain rfl : account = account' :=
    Option.some.inj (found.symm.trans found')
  obtain ⟨state', configured', opens, synced⟩ := truthful
  obtain rfl : state = state' :=
    Option.some.inj (configured.symm.trans configured')
  obtain ⟨available, known⟩ := synced.readable configured agree
  have availableEq := balanced.available_eq fits member found
    ⟨state, configured, opens, synced⟩ known
  have pendingEq := balanced.pending_eq member found readable
  have bounded := balanced.worth_le member
  unfold worth at bounded
  exact ⟨_, (ApplyPlan.prepare_eq_ok_iff configured).mpr
    ⟨available, pending, known, readable, by omega, rfl⟩⟩

/-- The counters differ, and the owner has nothing in flight. -/
theorem Kept.locked
    {total : Nat} {ledger : Ledger} {address : Address}
    {account : AccountSnapshot} {state : ConfidentialTransferAccount}
    (kept : Kept roster (· = address) total ledger)
    (member : address ∈ roster.accounts)
    (found : ledger.chain address = some account)
    (configured : account.confidential = some state)
    (idle : ∀ call ∈ ledger.inFlight, call.account ≠ address)
    (differ : state.expectedPendingBalanceCreditCounter ≠
      state.actualPendingBalanceCreditCounter) :
    Locked address account.address state.expectedPendingBalanceCreditCounter
      state.actualPendingBalanceCreditCounter ledger := by
  refine ⟨⟨account, state, found, configured, rfl, rfl, rfl⟩, differ, ?_⟩
  intro call inFlight own
  have consistent := kept.consistent address member rfl
  rw [(consistent.planned call inFlight).2] at own
  exact absurd own (idle call inFlight)

/-- A locked account is refused to every caller. -/
theorem Locked.applyPendingBalance
    {C : Cluster} {world : World C} {address shown : Address}
    {expected actual : Nat} {ledger : Ledger} {owner : Keypair}
    (roster : Roster crypto)
    (locked : Locked address shown expected actual ledger)
    (same : C.tokenAccounts world.state address = ledger.chain address) :
    Ensures (applyPendingBalance address owner (roster.keys address)) world
      fun outcome reached =>
        outcome = .error (.error (staleBalance shown expected actual)) ∧
          reached = world := by
  obtain ⟨account, state, found, _⟩ := locked.stale
  exact applyPendingBalance_refused (same.trans found)
    (ApplyPlan.prepare_refused (locked.availableBalance roster found))

theorem Kept.furtherApply
    {C : Cluster} {total : Nat} {ledger : Ledger} {address : Address}
    {account : AccountSnapshot} {state : ConfidentialTransferAccount}
    {pending : Nat}
    (contract : ApplyContract C crypto roster.withheldKeys.pubkey)
    (accepts : ∀ credits newDecryptable owner, C.programs.tokenCheck
      (.applyPendingBalance address credits newDecryptable owner) = .ok ())
    (kept : Kept roster (· = address) total ledger) (fits : total < 2 ^ 64)
    (member : address ∈ roster.accounts)
    (found : ledger.chain address = some account)
    (configured : account.confidential = some state)
    (readable : pendingBalance account (roster.keys address) = .ok pending)
    (idle : ∀ call ∈ ledger.inFlight, call.account ≠ address) :
    FurtherApply C roster address ledger account state where
  returns_iff owner world here := by
    by_cases agree : state.expectedPendingBalanceCreditCounter =
        state.actualPendingBalanceCreditCounter
    · obtain ⟨plan, prepared⟩ := kept.apply_returns fits member rfl found
        configured readable agree
      refine (applyPendingBalance_sends here prepared (accepts ..)).mono ?_
      rintro outcome reached ⟨posted, returns⟩ sent same lands
      obtain rfl := List.append_cancel_left (posted.symm.trans same)
      obtain ⟨landed, uncredited⟩ := lands _ List.mem_cons_self
      obtain ⟨receipt, arrived⟩ := World.outcome_of_landed landed
      obtain ⟨account', found', state', configured', opens, synced⟩ :=
        (kept.consistent address member rfl).now
      obtain rfl := Option.some.inj (found.symm.trans found')
      obtain rfl := Option.some.inj (configured.symm.trans configured')
      have reports := (ApplyPlan.reports_iff here configured opens prepared
        uncredited (contract _ _ _ _ _ _ _ arrived)).mpr ⟨rfl, synced⟩
      exact ⟨fun _ => agree, fun _ => ⟨_, _, returns landed, rfl, reports⟩⟩
    · have locked := kept.locked member found configured idle agree
      refine (locked.applyPendingBalance roster (here.trans found.symm)).mono ?_
      rintro outcome reached ⟨refused, _⟩ sent _ _
      refine ⟨?_, fun same => absurd same agree⟩
      rintro ⟨reported, one, returned, _⟩
      rw [refused] at returned
      cases returned
  stale differ :=
    (kept.locked member found configured idle differ).availableBalance roster
      found
  locked differ trace run later visitedLater owner world same :=
    (run.invariant (kept.locked member found configured idle differ)
      (fun _ _ _ locked step => locked.step step) later
      visitedLater).applyPendingBalance roster same

/-- One owner's calls do not overlap, credits land at any point.  In every
reachable state in which no call of the owner is in flight and the pending
halves can be read, a further apply during which no credit lands and whose send
lands returns, and restores the copy, exactly when the recorded counters agree;
when they differ, the reader refuses, and so do this call and all later ones. -/
theorem further_apply_returns_iff_counters_agree
    {C : Cluster} (roster : Roster crypto) (address : Address)
    (contract : ApplyContract C crypto roster.withheldKeys.pubkey)
    (accepts : ∀ credits newDecryptable owner, C.programs.tokenCheck
      (.applyPendingBalance address credits newDecryptable owner) = .ok ())
    {ledger : Ledger} {trace : List (Event × Ledger)}
    (member : address ∈ roster.accounts) (genesis : Genesis roster ledger)
    (run : Run (Step roster (· = address)) ledger trace) :
    ∀ reached ∈ visited ledger trace, ∀ account state pending,
      reached.chain address = some account →
        account.confidential = some state →
        pendingBalance account (roster.keys address) = .ok pending →
        (∀ call ∈ reached.inFlight, call.account ≠ address) →
        FurtherApply C roster address reached account state := by
  have isMember : ∀ other, other = address → other ∈ roster.accounts := by
    rintro _ rfl
    exact member
  have kept := run.invariant (genesis.kept _) fun _ _ _ kept step =>
    Kept.step kept genesis.supply isMember step
  intro reached visitedReached account state pending found configured readable
    idle
  exact (kept reached visitedReached).furtherApply contract accepts
    genesis.supply member found configured readable idle

/-! ## A credit between reading and landing -/

namespace Busy

open Transparent (alice bob owners opening_genesis history history_run
  sharedMint TokenAccounts.configured)

/-- Alice's account as a ledger has it. -/
def aliceOf (ledger : Remit.Ledger) : State where
  accounts _ := none
  ledger :=
    { tokens := tokensAt <| (ledger.chain alice).toList.map fun account =>
        (alice, Layout.writeAccount account)
      epoch := 0 }
  turns := []

/-- What Alice is told when she applies what a ledger has pending for her. -/
def appliesNow (ledger : Remit.Ledger) : Except (Stop Error) Nat :=
  (Flow.exec applyForAlice (World.initial (aliceOf ledger) 0)).1

/-- Whether Alice, unfrozen, approved and without a call in flight, reads a
pending balance and is refused when she applies it. -/
def lockedOut (pending : Nat) (ledger : Remit.Ledger) : Bool :=
  match TokenAccounts.configured ledger.chain alice with
  | none => false
  | some (account, state) =>
      decide
        (account.isFrozen = false ∧ state.approved = true ∧
          (∀ call ∈ ledger.inFlight, call.account ≠ alice) ∧
          (pendingBalance account (owners.keys alice)).toOption =
            some pending ∧
          (cluster applyEffect).tokenAccounts (aliceOf ledger) alice =
            some account ∧
          (appliesNow ledger).toOption = none)

/-- Alice applies her pending balance; while her call is in flight Bob pays
her, and after it he pays again. -/
def racedApply : List (Event × Remit.Ledger) :=
  history owners (· = alice) (Transparent.opening 50000)
    [.begin (.deposit bob 40000), .land 0,
      .begin (.applyPendingBalance bob), .land 0,
      .begin (.deposit alice 300), .land 0,
      .begin (.applyPendingBalance alice),
      .begin (.transfer bob alice sharedMint 7 10000), .land 0, .land 0,
      .begin (.transfer bob alice sharedMint 7 10000), .land 0]

/-- She reads the second payment as pending and can never apply it. -/
theorem raced_apply_locks_out :
    Genesis owners (Transparent.opening 50000) ∧
      Run (Step owners (· = alice)) (Transparent.opening 50000) racedApply ∧
      ∃ reached ∈ visited (Transparent.opening 50000) racedApply,
        lockedOut 9975 reached = true := by
  refine ⟨opening_genesis (by decide), history_run .., ?_⟩
  have happens : racedApply.any (lockedOut 9975 ·.2) = true := by
    decide +kernel
  obtain ⟨⟨event, reached⟩, member, locked⟩ := List.any_eq_true.mp happens
  exact ⟨reached, List.mem_cons_of_mem _ (List.mem_map_of_mem member), locked⟩

/-- Before her call lands she can apply what is pending, and never after it. -/
theorem raced_apply_returns_iff :
    racedApply.map (fun step => (appliesNow step.2).toOption) =
        [some 0, some 0, some 0, some 0, some 0, some 300, some 300, some 300,
          some 10275, none, none, none] ∧
      ∀ reached ∈ visited (Transparent.opening 50000) racedApply,
        ∀ account state pending,
          reached.chain alice = some account →
            account.confidential = some state →
            pendingBalance account (owners.keys alice) = .ok pending →
            (∀ call ∈ reached.inFlight, call.account ≠ alice) →
            FurtherApply (cluster applyEffect) owners alice reached account
              state :=
  ⟨by decide +kernel,
    further_apply_returns_iff_counters_agree owners alice applyContract
      (fun _ _ _ => rfl) (by decide) (opening_genesis (by decide))
      (history_run ..)⟩

end Busy
end Remit
