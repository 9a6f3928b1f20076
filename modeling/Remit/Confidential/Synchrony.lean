import Remit.Confidential.Replay

/-!
# When the owner's copy of the balance is right

The available balance lives twice, as a ciphertext that the chain computes on
and as a copy that the owner writes from what a call has read.  The copy counts
only while two counters agree.  It stays right as long as every apply that
lands on the counter it has read also finds the balance it has read.
-/

namespace Remit

open Flows Runs

variable {crypto : Crypto} {roster : Roster crypto}

/-- The owner's copy decrypts to the plaintext of the available balance,
unless the counters disown it. -/
def Synced (keys : ConfidentialKeys crypto)
    (state : ConfidentialTransferAccount) : Prop :=
  state.expectedPendingBalanceCreditCounter =
      state.actualPendingBalanceCreditCounter →
    crypto.validDecryptable state.decryptableAvailableBalance = true ∧
      ∃ available,
        crypto.aeDecrypt keys.ae state.decryptableAvailableBalance =
            some available ∧
          crypto.plaintext (crypto.secretOf state.elgamalPubkey)
              state.availableBalance = available

/-- A configured account with the owner's keys and a right copy. -/
def Truthful (keys : ConfidentialKeys crypto) (account : AccountSnapshot) :
    Prop :=
  ∃ state,
    account.confidential = some state ∧ keys.Opens state ∧ Synced keys state

section Readers

variable {keys : ConfidentialKeys crypto} {account : AccountSnapshot}
  {state : ConfidentialTransferAccount} {read : Nat}

/-- What is read from a right copy is the plaintext. -/
theorem Synced.availableBalance
    (synced : Synced keys state)
    (configured : account.confidential = some state)
    (known : Remit.availableBalance account keys = .ok read) :
    crypto.plaintext (crypto.secretOf state.elgamalPubkey)
      state.availableBalance = read := by
  obtain ⟨agree, _, decrypted⟩ :=
    (availableBalance_eq_ok_iff configured).mp known
  obtain ⟨_, available, decrypted', plaintext⟩ := synced agree
  rw [decrypted] at decrypted'
  cases decrypted'
  exact plaintext

theorem Synced.readable
    (synced : Synced keys state)
    (configured : account.confidential = some state)
    (agree :
      state.expectedPendingBalanceCreditCounter =
        state.actualPendingBalanceCreditCounter) :
    ∃ read, Remit.availableBalance account keys = .ok read := by
  obtain ⟨valid, available, decrypted, _⟩ := synced agree
  exact ⟨available,
    (availableBalance_eq_ok_iff configured).mpr ⟨agree, valid, decrypted⟩⟩

private theorem decryptU32_plaintext
    {secret : crypto.Secret} {pod : PodElGamalCiphertext}
    (decrypted : decryptU32 crypto secret pod = .ok read) :
    crypto.plaintext secret pod = read := by
  have large := crypto.order_large
  have nonzero : NeZero crypto.order := ⟨by omega⟩
  unfold decryptU32 elgamalCiphertext at decrypted
  split at decrypted
  case isFalse => cases decrypted
  case isTrue valid =>
      dsimp only [bind, Except.bind] at decrypted
      rw [crypto.decryptU32_eq _ _ valid] at decrypted
      split at decrypted
      case h_1 amount found =>
          split at found
          case isTrue =>
              cases found
              cases decrypted
              exact (ZMod.natCast_zmod_val _).symm
          case isFalse => cases found
      case h_2 => cases decrypted

/-- The pending balance that is read is what its halves encrypt. -/
theorem pendingBalance_plaintext
    (configured : account.confidential = some state)
    (opens : keys.Opens state)
    (known : pendingBalance account keys = .ok read) :
    crypto.plaintext (crypto.secretOf state.elgamalPubkey)
          state.pendingBalanceLo +
        2 ^ 16 * crypto.plaintext (crypto.secretOf state.elgamalPubkey)
          state.pendingBalanceHi = read := by
  unfold pendingBalance AccountSnapshot.requireConfidential at known
  rw [configured] at known
  change decryptLoHi crypto keys.elgamal.secret _ _ = _ at known
  rw [opens] at known
  obtain ⟨low, high, lowRead, highRead, rfl⟩ := decryptLoHi_eq_ok known
  rw [decryptU32_plaintext lowRead, decryptU32_plaintext highRead]
  push_cast
  ring

end Readers

/-! ## What an execution does to one account -/

/-- How an execution changes the confidential state of the account at
`address`. -/
inductive Moves (crypto : Crypto) (address : Address)
    (state : ConfidentialTransferAccount) :
    Execution → ConfidentialTransferAccount → Prop where
  | untouched {execution : Execution} :
      execution.owner ≠ address → Moves crypto address state execution state
  | deposited {amount : Nat} {lo hi : PodElGamalCiphertext} :
      Moves crypto address state (.deposit address amount)
        (state.credited lo hi)
  | credited {execution : Execution} {lo hi : PodElGamalCiphertext} :
      execution.owner ≠ address →
      Moves crypto address state execution (state.credited lo hi)
  | applied {available lo hi : PodElGamalCiphertext} {credits : Nat}
      {newDecryptable : DecryptableBalance} :
      AppliesPending crypto state available lo hi →
      Moves crypto address state
        (.applyPendingBalance address credits newDecryptable)
        (state.applied available lo hi credits newDecryptable)
  | paid {destination : Address} {statement : TransferStatement}
      {available : PodElGamalCiphertext}
      {newDecryptable : DecryptableBalance} :
      DebitsAvailable crypto state statement.against statement.amount
        available →
      Moves crypto address state
        (.transfer address destination statement newDecryptable)
        (state.debited available newDecryptable)
  | paidToSelf {statement : TransferStatement}
      {available lo hi : PodElGamalCiphertext}
      {newDecryptable : DecryptableBalance} :
      DebitsAvailable crypto state statement.against statement.amount
        available →
      Moves crypto address state
        (.transfer address address statement newDecryptable)
        ((state.debited available newDecryptable).credited lo hi)
  | withdrawn {amount : Nat} {against available : PodElGamalCiphertext}
      {newDecryptable : DecryptableBalance} :
      DebitsAvailable crypto state against amount available →
      Moves crypto address state
        (.withdraw address amount against newDecryptable)
        (state.debited available newDecryptable)

/-- Every execution moves every configured account in one of these ways. -/
theorem Executes.moves
    {withheldKey : PodElGamalPubkey} {chain after : TokenAccounts}
    {execution : Execution} {address : Address} {account : AccountSnapshot}
    {state : ConfidentialTransferAccount}
    (executes : Executes crypto withheldKey chain execution after)
    (found : chain address = some account)
    (configured : account.confidential = some state) :
    ∃ account' state',
      after address = some account' ∧ account'.confidential = some state' ∧
        account'.address = account.address ∧
        account'.state = account.state ∧
        Moves crypto address state execution state' := by
  have elsewhere : ∀ {changed : Address} {written : Option AccountSnapshot},
      address ≠ changed →
        Function.update chain changed written address = some account := by
    intro changed written away
    rw [Function.update_of_ne away, found]
  cases executes with
  | @deposit changed amount account' state' lo hi found' configured' =>
      by_cases here : address = changed
      · subst here
        rw [found] at found'
        cases found'
        rw [configured] at configured'
        cases configured'
        exact ⟨_, _, Function.update_self .., rfl, rfl, rfl, .deposited⟩
      · exact ⟨_, _, elsewhere here, configured, rfl, rfl,
          .untouched (Ne.symm here)⟩
  | @applyPendingBalance changed account' state' available lo hi credits
      newDecryptable found' configured' _ applies =>
      by_cases here : address = changed
      · subst here
        rw [found] at found'
        cases found'
        rw [configured] at configured'
        cases configured'
        exact ⟨_, _, Function.update_self .., rfl, rfl, rfl, .applied applies⟩
      · exact ⟨_, _, elsewhere here, configured, rfl, rfl,
          .untouched (Ne.symm here)⟩
  | @transfer source destination payer payee paying paid withheld statement
      available lo hi fees newDecryptable different found' configured' _
      otherFound otherConfigured _ _ _ _ _ _ debits _ _ =>
      by_cases there : address = destination
      · subst there
        rw [found] at otherFound
        cases otherFound
        rw [configured] at otherConfigured
        cases otherConfigured
        exact ⟨_, _, Function.update_self .., rfl, rfl, rfl,
          .credited different⟩
      by_cases here : address = source
      · subst here
        rw [found] at found'
        cases found'
        rw [configured] at configured'
        cases configured'
        exact ⟨_, _, (Function.update_of_ne there ..).trans
          (Function.update_self ..), rfl, rfl, rfl, .paid debits⟩
      · exact ⟨_, _, (Function.update_of_ne there ..).trans
          (elsewhere here), configured, rfl, rfl,
          .untouched (Ne.symm here)⟩
  | @transferToSelf changed account' state' statement available lo hi
      newDecryptable found' configured' _ _ _ _ debits _ =>
      by_cases here : address = changed
      · subst here
        rw [found] at found'
        cases found'
        rw [configured] at configured'
        cases configured'
        exact ⟨_, _, Function.update_self .., rfl, rfl, rfl,
          .paidToSelf debits⟩
      · exact ⟨_, _, elsewhere here, configured, rfl, rfl,
          .untouched (Ne.symm here)⟩
  | @withdraw changed amount account' state' against available newDecryptable
      found' configured' _ _ debits =>
      by_cases here : address = changed
      · subst here
        rw [found] at found'
        cases found'
        rw [configured] at configured'
        cases configured'
        exact ⟨_, _, Function.update_self .., rfl, rfl, rfl,
          .withdrawn debits⟩
      · exact ⟨_, _, elsewhere here, configured, rfl, rfl,
          .untouched (Ne.symm here)⟩

/-! ## Keeping the copy right -/

/-- An apply that lands on the pending credit counter it has read finds the
confidential total it has read. -/
def Recounts (crypto : Crypto) (address : Address) (ledger : Ledger) :
    Event → Prop
  | .land call =>
      ∀ credits newDecryptable now state read,
        call.execution =
            .applyPendingBalance address credits newDecryptable →
          ledger.chain address = some now → now.confidential = some state →
          call.read.confidential = some read →
          read.pendingBalanceCreditCounter =
            state.pendingBalanceCreditCounter →
          confidentialTotal crypto state = confidentialTotal crypto read
  | _ => True

/-- The account at an address is truthful, and so is what calls for it have
read. -/
structure Consistent (roster : Roster crypto) (address : Address)
    (ledger : Ledger) : Prop where
  now : ∃ account,
    ledger.chain address = some account ∧
      Truthful (roster.keys address) account
  reads : ∀ call ∈ ledger.inFlight, call.account = address →
    Truthful (roster.keys address) call.read
  planned : ∀ call ∈ ledger.inFlight,
    Planned roster call ∧ call.execution.owner = call.account

section Land

variable {keys : ConfidentialKeys crypto} {read : AccountSnapshot}
  {state readState : ConfidentialTransferAccount}

/-- A debit worked out from a right copy writes a right copy. -/
theorem Synced.debit
    {available amount : Nat} {against ciphertext : PodElGamalCiphertext}
    (readSynced : Synced keys readState)
    (opens : keys.Opens state) (readOpens : keys.Opens readState)
    (configured : read.confidential = some readState)
    (known : Remit.availableBalance read keys = .ok available)
    (enough : amount ≤ available)
    (same : against = readState.availableBalance)
    (debits : DebitsAvailable crypto state against amount ciphertext) :
    Synced keys
      (state.debited ciphertext
        (crypto.aeEncrypt keys.ae (available - amount))) := by
  intro _
  have fits : available < 2 ^ 64 :=
    crypto.aeDecrypt_lt _ _ _
      ((availableBalance_eq_ok_iff configured).mp known).2.2
  refine ⟨crypto.validDecryptable_aeEncrypt _ _, available - amount,
    crypto.aeDecrypt_aeEncrypt _ _ (by omega), ?_⟩
  show crypto.plaintext (crypto.secretOf state.elgamalPubkey) ciphertext = _
  have plaintext := readSynced.availableBalance configured known
  rw [← readOpens, opens] at plaintext
  rw [debits.2.2.1.2, same, plaintext, Nat.cast_sub enough]
  push_cast
  ring

/-- An apply that finds the total it was worked out from writes a right copy. -/
theorem Synced.apply
    {plan : ApplyPlan} {available lo hi : PodElGamalCiphertext}
    (readSynced : Synced keys readState) (readOpens : keys.Opens readState)
    (configured : read.confidential = some readState)
    (prepared : ApplyPlan.prepare read keys = .ok plan)
    (recounts :
      readState.pendingBalanceCreditCounter =
          state.pendingBalanceCreditCounter →
        confidentialTotal crypto state = confidentialTotal crypto readState)
    (applies : AppliesPending crypto state available lo hi) :
    Synced keys
      (state.applied available lo hi plan.credits plan.newDecryptable) := by
  obtain ⟨old, pending, known, pendingKnown, fits, rfl⟩ :=
    (ApplyPlan.prepare_eq_ok_iff configured).mp prepared
  intro agree
  refine ⟨crypto.validDecryptable_aeEncrypt _ _, old + pending,
    crypto.aeDecrypt_aeEncrypt _ _ fits, ?_⟩
  have found : crypto.plaintext (crypto.secretOf state.elgamalPubkey)
      available = confidentialTotal crypto state := applies.2.1
  show crypto.plaintext (crypto.secretOf state.elgamalPubkey) available = _
  rw [found, recounts agree, confidentialTotal, add_assoc,
    readSynced.availableBalance configured known,
    pendingBalance_plaintext configured readOpens pendingKnown]
  push_cast
  rfl

/-- What a landing call leaves of an account with a right copy. -/
theorem Synced.land
    {address : Address} {state' : ConfidentialTransferAccount}
    {call : InFlight}
    (synced : Synced (roster.keys address) state)
    (opens : (roster.keys address).Opens state)
    (planned : Planned roster call)
    (owner : call.execution.owner = call.account)
    (readTruthful : call.account = address →
      Truthful (roster.keys address) call.read)
    (recounts : ∀ credits newDecryptable read,
      call.execution = .applyPendingBalance address credits newDecryptable →
        call.read.confidential = some read →
        read.pendingBalanceCreditCounter =
          state.pendingBalanceCreditCounter →
        confidentialTotal crypto state = confidentialTotal crypto read)
    (moves : Moves crypto address state call.execution state') :
    (roster.keys address).Opens state' ∧
      Synced (roster.keys address) state' := by
  cases planned with
  | deposit account read amount =>
      cases moves with
      | untouched _ => exact ⟨opens, synced⟩
      | deposited => exact ⟨opens, synced⟩
      | credited _ => exact ⟨opens, synced⟩
  | @applyPendingBalance account read plan prepared =>
      cases moves with
      | untouched _ => exact ⟨opens, synced⟩
      | credited _ => exact ⟨opens, synced⟩
      | applied applies =>
          obtain ⟨readState, configured, readOpens, readSynced⟩ :=
            readTruthful rfl
          exact ⟨opens, readSynced.apply readOpens configured prepared
            (recounts _ _ readState rfl configured) applies⟩
  | @transfer source destination read readState available statement configured
      known enough against =>
      cases moves with
      | untouched _ => exact ⟨opens, synced⟩
      | credited _ => exact ⟨opens, synced⟩
      | paid debits =>
          obtain ⟨readState', configured', readOpens, readSynced⟩ :=
            readTruthful rfl
          rw [configured] at configured'
          cases configured'
          exact ⟨opens, readSynced.debit opens readOpens configured known
            enough against debits⟩
      | paidToSelf debits =>
          obtain ⟨readState', configured', readOpens, readSynced⟩ :=
            readTruthful rfl
          rw [configured] at configured'
          cases configured'
          have kept := readSynced.debit opens readOpens configured known
            enough against debits
          exact ⟨opens, kept⟩
  | @withdraw account read readState available amount configured known
      enough =>
      cases moves with
      | untouched _ => exact ⟨opens, synced⟩
      | credited _ => exact ⟨opens, synced⟩
      | withdrawn debits =>
          obtain ⟨readState', configured', readOpens, readSynced⟩ :=
            readTruthful rfl
          rw [configured] at configured'
          cases configured'
          exact ⟨opens, readSynced.debit opens readOpens configured known
            enough rfl debits⟩

end Land

/-- A step that recounts keeps an account consistent. -/
theorem Consistent.step
    {exclusive : Address → Prop} {address : Address} {ledger after : Ledger}
    {event : Event}
    (consistent : Consistent roster address ledger)
    (recounts : Recounts crypto address ledger event)
    (step : Step roster exclusive ledger event after) :
    Consistent roster address after := by
  obtain ⟨⟨account, found, state, configured, opens, synced⟩, reads,
    planned⟩ := consistent
  cases step with
  | @begin call started _ prepared _ =>
      obtain ⟨plannedStart, owner, _, readHere⟩ :=
        Call.prepare_eq_ok prepared
      refine ⟨⟨account, found, state, configured, opens, synced⟩, ?_, ?_⟩
      · rintro other (_ | ⟨_, member⟩) here
        · rw [here, found] at readHere
          cases readHere
          exact ⟨state, configured, opens, synced⟩
        · exact reads other member here
      · rintro other (_ | ⟨_, member⟩)
        · exact ⟨plannedStart, owner⟩
        · exact planned other member
  | @land call chain member executes =>
      obtain ⟨account', state', found', configured', _, _, moves⟩ :=
        executes.moves found configured
      obtain ⟨plannedCall, owner⟩ := planned call member
      obtain ⟨opens', synced'⟩ := synced.land opens plannedCall owner
        (reads call member)
        (fun credits newDecryptable read same =>
          recounts credits newDecryptable account state read same found
            configured) moves
      exact
        ⟨⟨account', found', state', configured', opens', synced'⟩,
          fun other left => reads other (List.mem_of_mem_erase left),
          fun other left => planned other (List.mem_of_mem_erase left)⟩
  | drop member =>
      exact
        ⟨⟨account, found, state, configured, opens, synced⟩,
          fun other left => reads other (List.mem_of_mem_erase left),
          fun other left => planned other (List.mem_of_mem_erase left)⟩

/-! ## Concurrent sessions -/

/-- Whatever is read as the available balance is what is there. -/
def Faithful (roster : Roster crypto) (ledger : Ledger) : Prop :=
  ∀ address ∈ roster.accounts, ∀ account state available,
    ledger.chain address = some account →
      account.confidential = some state →
      availableBalance account (roster.keys address) = .ok available →
      crypto.plaintext (crypto.secretOf state.elgamalPubkey)
        state.availableBalance = available

/-- An apply that lands on the counter it has read, but not on the total it has
read, leaves a wrong copy that is not disowned. -/
theorem not_faithful_of_not_recounts
    {exclusive : Address → Prop} {address : Address} {ledger after : Ledger}
    {event : Event}
    (member : address ∈ roster.accounts)
    (consistent : Consistent roster address ledger)
    (wrong : ¬ Recounts crypto address ledger event)
    (step : Step roster exclusive ledger event after) :
    ¬ Faithful roster after := by
  intro faithful
  apply wrong
  cases step with
  | begin => trivial
  | drop => trivial
  | @land call chain isInFlight executes =>
      intro credits newDecryptable now state readState same found configured
        readConfigured agree
      obtain ⟨account', state', found', configured', _, _, moves⟩ :=
        executes.moves found configured
      obtain ⟨planned, owner⟩ := consistent.planned call isInFlight
      cases planned with
      | deposit => cases same
      | transfer => cases same
      | withdraw => cases same
      | @applyPendingBalance account read plan prepared =>
          cases same
          obtain ⟨readState', readConfigured', readOpens, readSynced⟩ :=
            consistent.reads _ isInFlight rfl
          rw [readConfigured] at readConfigured'
          cases readConfigured'
          obtain ⟨old, pending, known, pendingKnown, fits, rfl⟩ :=
            (ApplyPlan.prepare_eq_ok_iff readConfigured).mp prepared
          cases moves with
          | untouched away => exact absurd rfl away
          | credited away => exact absurd rfl away
          | @applied available lo hi _ _ applies =>
              have reported :
                  availableBalance account' (roster.keys address) =
                    .ok (old + pending) :=
                (availableBalance_eq_ok_iff configured').mpr
                  ⟨agree, crypto.validDecryptable_aeEncrypt _ _,
                    crypto.aeDecrypt_aeEncrypt _ _ fits⟩
              have claimed := faithful address member account' _ _ found'
                configured' reported
              have moved :
                  crypto.plaintext (crypto.secretOf state.elgamalPubkey)
                    available = confidentialTotal crypto state := applies.2.1
              rw [← moved]
              refine Eq.trans claimed ?_
              rw [confidentialTotal, add_assoc,
                readSynced.availableBalance readConfigured known,
                pendingBalance_plaintext readConfigured readOpens
                  pendingKnown]
              push_cast
              rfl

/-- A ledger on which no call is in flight and every account is truthful. -/
structure Fresh (roster : Roster crypto) (ledger : Ledger) : Prop where
  idle : ledger.inFlight = []
  truthful : ∀ address ∈ roster.accounts, ∃ account,
    ledger.chain address = some account ∧
      Truthful (roster.keys address) account

/-- Every account of the roster is consistent. -/
def Coherent (roster : Roster crypto) (ledger : Ledger) : Prop :=
  ∀ address ∈ roster.accounts, Consistent roster address ledger

theorem Fresh.coherent
    {ledger : Ledger} (fresh : Fresh roster ledger) : Coherent roster ledger :=
  fun address member =>
    { now := fresh.truthful address member
      reads := by simp [fresh.idle]
      planned := by simp [fresh.idle] }

theorem Coherent.faithful
    {ledger : Ledger} (coherent : Coherent roster ledger) :
    Faithful roster ledger := by
  intro address member account state available found configured known
  obtain ⟨⟨account', found', state', configured', _, synced⟩, _⟩ :=
    coherent address member
  rw [found] at found'
  cases found'
  rw [configured] at configured'
  cases configured'
  exact synced.availableBalance configured known

/-- However many sessions overlap, a reported balance is the true one in every
reachable state exactly when every apply that lands on the counter it has read
also finds the confidential total it has read. -/
theorem sessions_never_desynchronise_iff
    (roster : Roster crypto) {ledger : Ledger} {trace : List (Event × Ledger)}
    (fresh : Fresh roster ledger)
    (run : Run (Step roster fun _ => False) ledger trace) :
    (∀ reached ∈ visited ledger trace, Faithful roster reached) ↔
      EachStep
        (fun before event =>
          ∀ address ∈ roster.accounts,
            Recounts crypto address before event)
        ledger trace := by
  refine Run.good_iff_eachStep (fun _ => Coherent.faithful) ?_ ?_ run
    fresh.coherent
  · intro before event after coherent recounts step address member
    exact (coherent address member).step (recounts address member) step
  · intro before event after coherent wrong step
    push Not at wrong
    obtain ⟨address, member, wrong⟩ := wrong
    exact not_faithful_of_not_recounts member (coherent address member)
      wrong step

/-! ## Two applies that overlap -/

namespace Transparent

theorem opening_fresh (amount : Nat) : Fresh owners (opening amount) where
  idle := rfl
  truthful _ member :=
    ⟨_, opening_chain member amount, emptyState, rfl, rfl, fun _ =>
      ⟨rfl, 0, rfl, plaintext_encrypt 0⟩⟩

theorem not_faithful_of_misreads
    {address : Address} {read actual : Nat} {ledger : Ledger}
    (member : address ∈ owners.accounts)
    (misread : misreads address read actual ledger = true)
    (differ : read ≠ actual)
    (readSmall : read < 2 ^ 64) (actualSmall : actual < 2 ^ 64) :
    ¬ Faithful owners ledger := by
  intro faithful
  unfold misreads at misread
  split at misread
  case h_1 => cases misread
  case h_2 account state found =>
      obtain ⟨found, configured⟩ := TokenAccounts.configured_eq_some found
      obtain ⟨known, holds⟩ := of_decide_eq_true misread
      have returned :
          availableBalance account (owners.keys address) = .ok read := by
        rcases outcome : availableBalance account (owners.keys address) with
          error | balance
        · rw [outcome] at known
          cases known
        · rw [outcome] at known
          cases known
          rfl
      have claimed := faithful address member account state read found
        configured returned
      have there : Transparent.crypto.Encrypts () actual state.availableBalance :=
        holds ▸ encrypts_encrypt actual
      have here : Transparent.crypto.Encrypts () read state.availableBalance :=
        ⟨there.1, by exact_mod_cast claimed⟩
      have same := here.unique there (by rw [abs_lt]; omega)
        (by rw [abs_lt]; omega)
      omega

/-- Two sessions read a balance of 5 pending and both set out to apply it.
Between their applies a deposit of 7 lands. -/
def overlappingApplies : List (Event × Ledger) :=
  history owners (fun _ => False) (opening 100)
    [.begin (.deposit alice 5), .land 0,
      .begin (.applyPendingBalance alice), .begin (.applyPendingBalance alice),
      .land 1,
      .begin (.deposit alice 7), .land 0,
      .land 0]

/-- The second apply finds one pending credit, as it has read, but another one,
and the owner reads 5 where there are 12. -/
theorem overlapping_applies_desynchronise :
    Fresh owners (opening 100) ∧
      Run (Step owners fun _ => False) (opening 100) overlappingApplies ∧
      ∃ reached ∈ visited (opening 100) overlappingApplies,
        misreads alice 5 12 reached = true ∧ ¬ Faithful owners reached := by
  refine ⟨opening_fresh 100, history_run .., ?_⟩
  have happens :
      overlappingApplies.any (misreads alice 5 12 ·.2) = true := by
    decide +kernel
  obtain ⟨⟨event, reached⟩, member, misread⟩ := List.any_eq_true.mp happens
  exact ⟨reached, List.mem_cons_of_mem _ (List.mem_map_of_mem member), misread,
    not_faithful_of_misreads (by decide) misread (by decide) (by decide)
      (by decide)⟩

/-- Calls that do not overlap, on the same ledger. -/
def successiveApplies : List (Event × Ledger) :=
  history owners (fun _ => False) (opening 100)
    [.begin (.deposit alice 5), .land 0,
      .begin (.applyPendingBalance alice), .land 0,
      .begin (.deposit alice 7), .land 0,
      .begin (.applyPendingBalance alice), .land 0]

theorem successive_applies_faithful_iff :
    successiveApplies.length = 8 ∧
      ((∀ reached ∈ visited (opening 100) successiveApplies,
          Faithful owners reached) ↔
        EachStep
          (fun before event =>
            ∀ address ∈ owners.accounts,
              Recounts Transparent.crypto address before event)
          (opening 100) successiveApplies) :=
  ⟨by decide +kernel,
    sessions_never_desynchronise_iff owners (opening_fresh 100)
      (history_run ..)⟩

end Transparent
end Remit
