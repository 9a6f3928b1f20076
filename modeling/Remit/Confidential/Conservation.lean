import Remit.Confidential.Bookkeeping
import Remit.Confidential.Synchrony

/-!
# Reported balances conserve the money

The calls made for an exclusive account do not overlap.  What such a call has
read stays as it is until it lands, except for credits, and every credit moves
the counter on.  So an apply that lands on the counter it has read finds the
balance it has read, and the owner's copy stays right.
-/

namespace Remit

open Flows Runs

variable {crypto : Crypto} {roster : Roster crypto}

/-! ## Calls that do not overlap -/

/-- Nothing but credits happened since a state was read, and each of them moved
the counter on. -/
def Undisturbed (read now : ConfidentialTransferAccount) : Prop :=
  read.pendingBalanceCreditCounter ≤ now.pendingBalanceCreditCounter ∧
    (read.pendingBalanceCreditCounter = now.pendingBalanceCreditCounter →
      now = read)

/-- At most one call for the account is in flight, and what it has read is
undisturbed. -/
structure Orderly (address : Address) (ledger : Ledger) : Prop where
  alone : ledger.inFlight.Pairwise fun one other =>
    one.account = address → other.account ≠ address
  undisturbed : ∀ call ∈ ledger.inFlight, call.account = address →
    ∀ account state, ledger.chain address = some account →
      account.confidential = some state →
      ∃ read, call.read.confidential = some read ∧ Undisturbed read state

/-- A call that leaves the list leaves no other call for its account. -/
theorem Orderly.alone_of_mem
    {address : Address} {ledger : Ledger} {call : InFlight}
    (orderly : Orderly address ledger) (member : call ∈ ledger.inFlight)
    (here : call.account = address) :
    ∀ other ∈ ledger.inFlight.erase call, other.account ≠ address := by
  have symmetric : ∀ {one other : InFlight},
      (one.account = address → other.account ≠ address) →
        other.account = address → one.account ≠ address :=
    fun apart otherHere oneHere => apart oneHere otherHere
  have pairwise := (List.perm_cons_erase member).pairwise orderly.alone
    symmetric
  intro other left
  exact (List.pairwise_cons.mp pairwise).1 other left here

/-- An apply that lands on the counter it has read finds what it has read. -/
theorem Orderly.recounts
    {exclusive : Address → Prop} {address : Address} {ledger after : Ledger}
    {event : Event}
    (orderly : Orderly address ledger)
    (consistent : Consistent roster address ledger)
    (step : Step roster exclusive ledger event after) :
    Recounts crypto address ledger event := by
  cases step with
  | begin => trivial
  | drop => trivial
  | @land call chain member executes =>
      intro credits newDecryptable now state readState same found configured
        readConfigured agree
      have here : call.account = address := by
        rw [← (consistent.planned call member).2, same]
        rfl
      obtain ⟨readState', readConfigured', undisturbed⟩ :=
        orderly.undisturbed call member here now state found configured
      rw [readConfigured] at readConfigured'
      cases readConfigured'
      rw [undisturbed.2 agree]

theorem Orderly.step
    {exclusive : Address → Prop} {address : Address} {ledger after : Ledger}
    {event : Event}
    (orderly : Orderly address ledger)
    (consistent : Consistent roster address ledger)
    (isExclusive : exclusive address)
    (step : Step roster exclusive ledger event after) :
    Orderly address after := by
  obtain ⟨⟨account, found, state, configured, _⟩, _, planned⟩ := consistent
  cases step with
  | @begin call started _ prepared apart =>
      obtain ⟨_, _, _, readHere⟩ := Call.prepare_eq_ok prepared
      refine ⟨List.pairwise_cons.mpr ⟨?_, orderly.alone⟩, ?_⟩
      · intro other member here
        exact here ▸ apart (here ▸ isExclusive) other member
      · rintro other (_ | ⟨_, member⟩) here account' state' found' configured'
        · rw [here, found'] at readHere
          cases readHere
          exact ⟨state', configured', Nat.le_refl _, fun _ => rfl⟩
        · exact orderly.undisturbed other member here account' state' found'
            configured'
  | @land call chain member executes =>
      refine ⟨orderly.alone.sublist List.erase_sublist, ?_⟩
      intro other left here account' state' found' configured'
      by_cases own : call.account = address
      · exact absurd here (orderly.alone_of_mem member own other left)
      obtain ⟨readState, readConfigured, undisturbed⟩ :=
        orderly.undisturbed other (List.mem_of_mem_erase left) here account
          state found configured
      obtain ⟨account'', state'', found'', configured'', _, _, moves⟩ :=
        executes.moves found configured
      obtain rfl : account' = account'' :=
        Option.some.inj (found'.symm.trans found'')
      obtain rfl : state' = state'' :=
        Option.some.inj (configured'.symm.trans configured'')
      refine ⟨readState, readConfigured, ?_⟩
      have away : call.execution.owner ≠ address := by
        rw [(planned call member).2]
        exact own
      have credited : ∀ lo hi,
          Undisturbed readState (state.credited lo hi) := by
        intro lo hi
        have := undisturbed.1
        simp only [Undisturbed, ConfidentialTransferAccount.credited]
        omega
      generalize call.execution = execution at moves away
      cases moves with
      | untouched _ => exact undisturbed
      | deposited => exact absurd rfl away
      | credited _ => exact credited _ _
      | applied _ => exact absurd rfl away
      | paid _ => exact absurd rfl away
      | paidToSelf _ => exact absurd rfl away
      | withdrawn _ => exact absurd rfl away
  | drop member =>
      exact
        ⟨orderly.alone.sublist List.erase_sublist,
          fun other left =>
            orderly.undisturbed other (List.mem_of_mem_erase left)⟩

/-! ## The invariant -/

/-- A ledger on which confidential balances are still empty and no call is in
flight.  The public amounts are part of a supply that fits 64 bits. -/
structure Genesis (roster : Roster crypto) (ledger : Ledger) : Prop where
  idle : ledger.inFlight = []
  received : ∀ address ∈ roster.accounts, ledger.received address = 0
  supply :
    ∑ address ∈ roster.accounts, ledger.chain.publicAmount address < 2 ^ 64
  empty : ∀ address ∈ roster.accounts, ∃ account state,
    ledger.chain address = some account ∧
      account.confidential = some state ∧
      state.pendingBalanceCreditCounter = 0 ∧
      Agrees crypto roster.withheldKeys.pubkey (roster.keys address) 0
        ⟨0, 0, 0, 0⟩ account state ∧
      Synced (roster.keys address) state

/-- The invariant of a ledger that started with `total`. -/
structure Kept (roster : Roster crypto) (exclusive : Address → Prop)
    (total : Nat) (ledger : Ledger) : Prop where
  balanced : ∃ books, Balanced roster total ledger books
  within : ∀ call ∈ ledger.inFlight, ∀ address ∈ call.execution.addresses,
    address ∈ roster.accounts
  consistent : ∀ address ∈ roster.accounts, exclusive address →
    Consistent roster address ledger
  orderly : ∀ address, exclusive address → Orderly address ledger

/-- What a ledger starts with. -/
def startingTotal (roster : Roster crypto) (ledger : Ledger) : Nat :=
  ∑ address ∈ roster.accounts, ledger.chain.publicAmount address

theorem Genesis.kept
    {ledger : Ledger} (genesis : Genesis roster ledger)
    (exclusive : Address → Prop) :
    Kept roster exclusive (startingTotal roster ledger) ledger where
  balanced := by
    refine ⟨fun _ => ⟨0, 0, 0, 0⟩, ?_, ?_⟩
    · intro address member
      obtain ⟨account, state, found, configured, _, agrees, _⟩ :=
        genesis.empty address member
      refine ⟨account, state, found, configured, ?_⟩
      rwa [genesis.received address member]
    · apply Finset.sum_congr rfl
      intro address member
      simp [worth, genesis.received address member]
  within := by simp [genesis.idle]
  consistent address member _ := by
    obtain ⟨account, state, found, configured, _, agrees, synced⟩ :=
      genesis.empty address member
    exact
      { now := ⟨account, found, state, configured, agrees.opens, synced⟩
        reads := by simp [genesis.idle]
        planned := by simp [genesis.idle] }
  orderly address _ :=
    { alone := by simp [genesis.idle]
      undisturbed := by simp [genesis.idle] }

theorem Kept.step
    {exclusive : Address → Prop} {total : Nat} {ledger after : Ledger}
    {event : Event}
    (kept : Kept roster exclusive total ledger) (fits : total < 2 ^ 64)
    (members : ∀ address, exclusive address → address ∈ roster.accounts)
    (step : Step roster exclusive ledger event after) :
    Kept roster exclusive total after where
  balanced := by
    obtain ⟨books, balanced⟩ := kept.balanced
    cases step with
    | begin => exact ⟨books, balanced.holds, balanced.total⟩
    | land member executes =>
        obtain ⟨books', balanced'⟩ :=
          balanced.execute fits (kept.within _ member) executes
        exact ⟨books', balanced'.holds, balanced'.total⟩
    | drop => exact ⟨books, balanced.holds, balanced.total⟩
  within := by
    cases step with
    | @begin call started inside prepared _ =>
        rintro other (_ | ⟨_, member⟩)
        · rw [(Call.prepare_eq_ok prepared).2.2.1]
          exact inside
        · exact kept.within other member
    | land => exact fun other left =>
        kept.within other (List.mem_of_mem_erase left)
    | drop => exact fun other left =>
        kept.within other (List.mem_of_mem_erase left)
  consistent address member isExclusive :=
    (kept.consistent address member isExclusive).step
      ((kept.orderly address isExclusive).recounts
        (kept.consistent address member isExclusive) step) step
  orderly address isExclusive :=
    (kept.orderly address isExclusive).step
      (kept.consistent address (members address isExclusive) isExclusive)
      isExclusive step

/-! ## What the readers say -/

/-- What the readers return for the accounts of a ledger that started with
`total` is the truth, it adds up, and no call panics on it. -/
structure Reported (roster : Roster crypto) (total : Nat) (ledger : Ledger) :
    Prop where
  available : Faithful roster ledger
  pending : ∀ address ∈ roster.accounts, ∀ account pending,
    ledger.chain address = some account →
      pendingBalance account (roster.keys address) = .ok pending →
      pending = ledger.received address
  conserved : ∀ available pending withheld : Address → Nat,
    (∀ address ∈ roster.accounts, ∃ account,
      ledger.chain address = some account ∧
        availableBalance account (roster.keys address) =
          .ok (available address) ∧
        pendingBalance account (roster.keys address) =
          .ok (pending address) ∧
        withheldConfidentialFee account roster.withheldKeys =
          .ok (withheld address)) →
    ∑ address ∈ roster.accounts,
        (ledger.chain.publicAmount address + pending address +
          available address + withheld address) = total
  calm : ∀ call : Call,
    (∀ address ∈ call.addresses, address ∈ roster.accounts) →
      call.prepare roster ledger.chain ≠ .error .panic

section Readers

variable {total : Nat} {ledger : Ledger} {books : Address → AccountBook}
  {address : Address} {account : AccountSnapshot}
  {state : ConfidentialTransferAccount} {read : Nat}

theorem Balanced.pending_eq
    (balanced : Balanced roster total ledger books)
    (member : address ∈ roster.accounts)
    (found : ledger.chain address = some account)
    (known : pendingBalance account (roster.keys address) = .ok read) :
    read = ledger.received address := by
  obtain ⟨account', state, found', configured, agrees⟩ :=
    balanced.holds address member
  obtain rfl : account = account' :=
    Option.some.inj (found.symm.trans found')
  have sum := ((pendingBalance_eq_ok_iff configured agrees.opens
    agrees.pending).mp known).2.2
  have := agrees.received
  omega

/-- A right copy shows the integer of the book. -/
theorem Balanced.available_eq
    (balanced : Balanced roster total ledger books) (fits : total < 2 ^ 64)
    (member : address ∈ roster.accounts)
    (found : ledger.chain address = some account)
    (truthful : Truthful (roster.keys address) account)
    (known : availableBalance account (roster.keys address) = .ok read) :
    read = (books address).available := by
  obtain ⟨account', state, found', configured, agrees⟩ :=
    balanced.holds address member
  obtain rfl : account = account' :=
    Option.some.inj (found.symm.trans found')
  obtain ⟨state', configured', _, synced⟩ := truthful
  obtain rfl : state = state' :=
    Option.some.inj (configured.symm.trans configured')
  have bounded := balanced.available_lt fits member
  have readBounded : read < 2 ^ 64 :=
    crypto.aeDecrypt_lt _ _ _
      ((availableBalance_eq_ok_iff configured).mp known).2.2
  have plaintext := synced.availableBalance configured known
  have same : (read : Int) = (books address).available :=
    Crypto.Encrypts.unique
      ⟨agrees.available.1, by rw [plaintext]; norm_cast⟩ agrees.available
      (by rw [abs_lt]; omega) (by rw [abs_lt]; omega)
  omega

theorem Balanced.withheld_eq
    (balanced : Balanced roster total ledger books) (fits : total < 2 ^ 64)
    (member : address ∈ roster.accounts)
    (found : ledger.chain address = some account)
    (known : withheldConfidentialFee account roster.withheldKeys = .ok read) :
    read = (books address).withheld := by
  obtain ⟨account', state, found', configured, agrees⟩ :=
    balanced.holds address member
  obtain rfl : account = account' :=
    Option.some.inj (found.symm.trans found')
  obtain ⟨withheld, present, encrypts⟩ := agrees.withheld
  rw [← roster.withheld_opens] at encrypts
  have bounded := balanced.worth_le member
  unfold worth at bounded
  have same := ((withheldConfidentialFee_eq_ok_iff present encrypts
    (by rw [abs_lt]; omega)).mp known).2
  omega

/-- The sum that `applyPendingBalance` computes fits 64 bits. -/
theorem Balanced.apply_calm
    (balanced : Balanced roster total ledger books) (fits : total < 2 ^ 64)
    (member : address ∈ roster.accounts)
    (found : ledger.chain address = some account)
    (truthful : Truthful (roster.keys address) account) :
    ApplyPlan.prepare account (roster.keys address) ≠ .error .panic := by
  intro panicked
  obtain ⟨state, configured, _⟩ := truthful
  unfold ApplyPlan.prepare AccountSnapshot.requireConfidential at panicked
  rw [configured] at panicked
  rcases known : availableBalance account (roster.keys address) with
    _ | available
  · simp [known, bind, Except.bind, Except.mapError] at panicked
  rcases pendingKnown : pendingBalance account (roster.keys address) with
    _ | pending
  · simp [known, pendingKnown, bind, Except.bind, Except.mapError] at panicked
  have availableEq := balanced.available_eq fits member found
    ⟨state, configured, ‹_›⟩ known
  have pendingEq := balanced.pending_eq member found pendingKnown
  have bounded := balanced.worth_le member
  unfold worth at bounded
  have sum : sumOrPanic available pending = .ok (available + pending) :=
    if_pos (by omega)
  simp [known, pendingKnown, sum, bind, Except.bind, Except.mapError, pure,
    Except.pure] at panicked

end Readers

/-- A withdrawal that passes the local checks does not panic. -/
theorem WithdrawPlan.prepare_calm
    {mint : MintSnapshot} {keys : ConfidentialKeys crypto}
    {ciphertext : PodElGamalCiphertext} {balance amount : Nat}
    (enough : amount ≤ balance) :
    WithdrawPlan.prepare mint keys ciphertext balance amount ≠
      .error .panic := by
  have difference : differenceOrPanic balance amount = .ok (balance - amount) :=
    if_neg (by omega)
  unfold WithdrawPlan.prepare
  rw [difference]
  rcases crypto.withdrawProofData ciphertext balance amount keys.elgamal with
    text | proof
  · simp [ofGenerator, Except.mapError, bind, Except.bind]
  · simp [ofGenerator, Except.mapError, bind, Except.bind, pure, Except.pure]

theorem Kept.reported
    {total : Nat} {ledger : Ledger}
    (kept : Kept roster (· ∈ roster.accounts) total ledger)
    (fits : total < 2 ^ 64) : Reported roster total ledger := by
  obtain ⟨books, balanced⟩ := kept.balanced
  have coherent : Coherent roster ledger :=
    fun address member => kept.consistent address member member
  have truthful : ∀ address ∈ roster.accounts, ∀ account,
      ledger.chain address = some account →
        Truthful (roster.keys address) account := by
    intro address member account found
    obtain ⟨account', found', truthful⟩ := (coherent address member).now
    obtain rfl : account = account' :=
      Option.some.inj (found.symm.trans found')
    exact truthful
  refine ⟨coherent.faithful, ?_, ?_, ?_⟩
  · intro address member account pending found known
    exact balanced.pending_eq member found known
  · intro available pending withheld known
    rw [← balanced.total]
    apply Finset.sum_congr rfl
    intro address member
    obtain ⟨account, found, availableKnown, pendingKnown, withheldKnown⟩ :=
      known address member
    rw [balanced.available_eq fits member found
        (truthful address member account found) availableKnown,
      balanced.pending_eq member found pendingKnown,
      balanced.withheld_eq fits member found withheldKnown]
    rfl
  · intro call inside panicked
    cases call with
    | deposit address amount =>
        rcases found : ledger.chain address with _ | account <;>
          simp [Call.prepare, TokenAccounts.load, found, bind, Except.bind,
            pure, Except.pure] at panicked
    | applyPendingBalance address =>
        have member := inside address (by simp [Call.addresses])
        rcases found : ledger.chain address with _ | account
        · simp [Call.prepare, TokenAccounts.load, found, bind,
            Except.bind] at panicked
        have calm := balanced.apply_calm fits member found
          (truthful address member account found)
        rcases prepared : ApplyPlan.prepare account (roster.keys address) with
          stop | plan <;>
          simp_all [Call.prepare, TokenAccounts.load, bind, Except.bind, pure,
            Except.pure]
    | transfer source destination mint epoch amount =>
        rcases found : ledger.chain source with _ | account
        · simp [Call.prepare, TokenAccounts.load, found, bind,
            Except.bind] at panicked
        rcases otherFound : ledger.chain destination with _ | other
        · simp [Call.prepare, TokenAccounts.load, found, otherFound, bind,
            Except.bind] at panicked
        rcases prepared : TransferPlan.prepare account other mint epoch
            (roster.keys source) amount with error | plan <;>
          simp [Call.prepare, TokenAccounts.load, found, otherFound, prepared,
            bind, Except.bind, Except.mapError, pure, Except.pure] at panicked
    | withdraw address mint amount =>
        rcases found : ledger.chain address with _ | account
        · simp [Call.prepare, TokenAccounts.load, found, bind,
            Except.bind] at panicked
        rcases checked : withdrawable account (roster.keys address) amount with
          error | ⟨ciphertext, available⟩
        · simp [Call.prepare, TokenAccounts.load, found, checked, bind,
            Except.bind, Except.mapError] at panicked
        obtain ⟨_, _, _, enough, _⟩ := withdrawable_eq_ok checked
        have calm : WithdrawPlan.prepare mint (roster.keys address) ciphertext
            available amount ≠ .error .panic :=
          WithdrawPlan.prepare_calm enough
        rcases prepared : WithdrawPlan.prepare mint (roster.keys address)
            ciphertext available amount with stop | plan <;>
          simp_all [Call.prepare, TokenAccounts.load, bind, Except.bind,
            Except.mapError, pure, Except.pure]

/-- From empty confidential balances, and as long as no owner's calls overlap,
everything the readers return in any reachable state is the truth and adds up
to what the ledger started with. -/
theorem reported_balances_conserve_the_money
    (roster : Roster crypto) {ledger : Ledger} {trace : List (Event × Ledger)}
    (genesis : Genesis roster ledger)
    (run : Run (Step roster (· ∈ roster.accounts)) ledger trace) :
    ∀ reached ∈ visited ledger trace,
      Reported roster (startingTotal roster ledger) reached := by
  have kept := run.invariant (genesis.kept _) fun _ _ _ kept step =>
    Kept.step kept genesis.supply (fun _ member => member) step
  exact fun reached member => (kept reached member).reported genesis.supply

/-! ## A payment between two owners -/

namespace Transparent

theorem openAccount_agrees (address : Address) (amount : Nat) :
    Agrees Transparent.crypto owners.withheldKeys.pubkey (owners.keys address)
      0 ⟨0, 0, 0, 0⟩ (openAccount address amount) emptyState where
  opens := rfl
  low := encrypts_encrypt 0
  high := encrypts_encrypt 0
  available := encrypts_encrypt 0
  withheld := ⟨_, rfl, encrypts_encrypt 0⟩
  lowBound := by simp
  highBound := by simp
  counterBound := Nat.zero_le _
  maximumBound := by decide
  received := by simp

theorem opening_genesis
    {amount : Nat} (small : amount < 2 ^ 63) :
    Genesis owners (opening amount) where
  idle := rfl
  received _ _ := rfl
  supply := by
    have publicAmount : ∀ address ∈ owners.accounts,
        (opening amount).chain.publicAmount address = amount := by
      intro address member
      simp [TokenAccounts.publicAmount, opening_chain member amount,
        openAccount]
    have two : owners.accounts.card = 2 := by decide
    rw [Finset.sum_congr rfl publicAmount, Finset.sum_const, two, smul_eq_mul]
    omega
  empty address member :=
    ⟨_, emptyState, opening_chain member amount, rfl, rfl,
      openAccount_agrees address amount, fun _ =>
        ⟨rfl, 0, rfl, plaintext_encrypt 0⟩⟩

/-- Bob deposits, applies, and pays Alice, while she is applying a deposit. -/
def payment : List (Event × Ledger) :=
  history owners (· ∈ owners.accounts) (opening 50000)
    [.begin (.deposit bob 40000), .begin (.deposit alice 300), .land 1,
      .begin (.applyPendingBalance bob), .land 0, .land 0,
      .begin (.transfer bob alice sharedMint 7 10000),
      .begin (.applyPendingBalance alice), .land 1, .land 0,
      .begin (.withdraw bob sharedMint 30000), .land 0]

theorem payment_reported :
    payment.length = 12 ∧
      ∀ reached ∈ visited (opening 50000) payment,
        Reported owners (startingTotal owners (opening 50000)) reached :=
  ⟨by decide +kernel,
    reported_balances_conserve_the_money owners (opening_genesis (by decide))
      (history_run ..)⟩

end Transparent
end Remit
