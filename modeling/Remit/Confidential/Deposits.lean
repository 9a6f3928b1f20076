import Remit.Confidential.Bookkeeping
import Remit.Confidential.Replay

/-!
# Deposits and the credit cap

A deposit adds the low and the high part of its amount to the two halves of the
pending balance.  The cap on the number of credits bounds the low half, each
addition being below `2 ^ 16`.  The high part of a single deposit may take 32
bits, so the cap does not bound the high half.
-/

namespace Remit

open Flows

variable {crypto : Crypto}

/-- A sequence of deposits into an account, one after another. -/
inductive Deposits (crypto : Crypto) (withheldKey : PodElGamalPubkey)
    (address : Address) : TokenAccounts → List Nat → TokenAccounts → Prop where
  | none (chain : TokenAccounts) :
      Deposits crypto withheldKey address chain [] chain
  | more {chain middle after : TokenAccounts} {amount : Nat}
      {rest : List Nat} :
      Executes crypto withheldKey chain (.deposit address amount) middle →
      Deposits crypto withheldKey address middle rest after →
      Deposits crypto withheldKey address chain (amount :: rest) after

/-- An account whose pending balance was just applied, as the library
configures it. -/
structure JustApplied (keys : ConfidentialKeys crypto)
    (account : AccountSnapshot) (state : ConfidentialTransferAccount) :
    Prop where
  configured : account.confidential = some state
  opens : keys.Opens state
  cap :
    state.maximumPendingBalanceCreditCounter = MAXIMUM_PENDING_BALANCE_CREDITS
  counter : state.pendingBalanceCreditCounter = 0
  low : crypto.Encrypts (crypto.secretOf state.elgamalPubkey) 0
    state.pendingBalanceLo
  high : crypto.Encrypts (crypto.secretOf state.elgamalPubkey) 0
    state.pendingBalanceHi

/-- The sum of the low parts of some amounts. -/
def lowSum (amounts : List Nat) : Nat :=
  (amounts.map (· % 2 ^ 16)).sum

/-- The sum of the high parts of some amounts. -/
def highSum (amounts : List Nat) : Nat :=
  (amounts.map (· / 2 ^ 16)).sum

theorem lowSum_add_highSum (amounts : List Nat) :
    lowSum amounts + highSum amounts * 2 ^ 16 = amounts.sum := by
  induction amounts with
  | nil => rfl
  | cons amount rest inductionHypothesis =>
      simp only [lowSum, highSum, List.map_cons, List.sum_cons] at *
      omega

theorem lowSum_le (amounts : List Nat) :
    lowSum amounts ≤ amounts.length * (2 ^ 16 - 1) := by
  induction amounts with
  | nil => exact Nat.zero_le _
  | cons amount rest inductionHypothesis =>
      simp only [lowSum, List.map_cons, List.sum_cons, List.length_cons] at *
      omega

theorem highSum_lt
    {amounts : List Nat} (small : ∀ amount ∈ amounts, amount < 2 ^ 48) :
    highSum amounts ≤ amounts.length * 2 ^ 32 := by
  induction amounts with
  | nil => exact Nat.zero_le _
  | cons amount rest inductionHypothesis =>
      have first := small amount (by simp)
      have others := inductionHypothesis fun other member =>
        small other (List.mem_cons_of_mem _ member)
      simp only [highSum, List.map_cons, List.sum_cons, List.length_cons] at *
      omega

/-- What a state holds after deposits: the halves and the counter have grown by
the parts and the number of the amounts. -/
structure Grown (keys : ConfidentialKeys crypto) (low high counter : Nat)
    (account : AccountSnapshot) (state : ConfidentialTransferAccount) :
    Prop where
  configured : account.confidential = some state
  opens : keys.Opens state
  cap :
    state.maximumPendingBalanceCreditCounter = MAXIMUM_PENDING_BALANCE_CREDITS
  counted : state.pendingBalanceCreditCounter = counter
  room : counter ≤ MAXIMUM_PENDING_BALANCE_CREDITS
  low : crypto.Encrypts (crypto.secretOf state.elgamalPubkey) low
    state.pendingBalanceLo
  high : crypto.Encrypts (crypto.secretOf state.elgamalPubkey) high
    state.pendingBalanceHi

theorem JustApplied.grown
    {keys : ConfidentialKeys crypto} {account : AccountSnapshot}
    {state : ConfidentialTransferAccount}
    (applied : JustApplied keys account state) :
    Grown keys 0 0 0 account state :=
  { applied with
    counted := applied.counter
    room := Nat.zero_le _ }

/-- One deposit. -/
theorem Grown.deposit
    {withheldKey : PodElGamalPubkey} {keys : ConfidentialKeys crypto}
    {address : Address} {chain after : TokenAccounts}
    {low high counter amount : Nat} {account : AccountSnapshot}
    {state : ConfidentialTransferAccount}
    (grown : Grown keys low high counter account state)
    (found : chain address = some account)
    (executes :
      Executes crypto withheldKey chain (.deposit address amount) after) :
    amount < 2 ^ 48 ∧ ∃ account' state',
      after address = some account' ∧
        Grown keys (low + amount % 2 ^ 16) (high + amount / 2 ^ 16)
          (counter + 1) account' state' := by
  cases executes with
  | @deposit _ _ account' state' lo hi found' configured' _ _ small room
      adds =>
      obtain rfl : account = account' :=
        Option.some.inj (found.symm.trans found')
      obtain rfl : state = state' :=
        Option.some.inj (grown.configured.symm.trans configured')
      refine ⟨small, _, _, Function.update_self .., rfl, grown.opens,
        grown.cap, ?_, ?_, ?_, ?_⟩
      · simp [ConfidentialTransferAccount.credited, grown.counted]
      · have below := room.2.2
        rw [grown.counted, grown.cap] at below
        exact below
      · exact_mod_cast grown.low.adds adds.1
      · exact_mod_cast grown.high.adds adds.2

theorem Grown.deposits
    {withheldKey : PodElGamalPubkey} {keys : ConfidentialKeys crypto}
    {address : Address} {chain after : TokenAccounts}
    {low high counter : Nat} {account : AccountSnapshot}
    {state : ConfidentialTransferAccount} {amounts : List Nat}
    (grown : Grown keys low high counter account state)
    (found : chain address = some account)
    (deposits : Deposits crypto withheldKey address chain amounts after) :
    (∀ amount ∈ amounts, amount < 2 ^ 48) ∧ ∃ account' state',
      after address = some account' ∧
        Grown keys (low + lowSum amounts) (high + highSum amounts)
          (counter + amounts.length) account' state' := by
  induction deposits generalizing low high counter account state with
  | none chain => exact ⟨by simp, account, state, found, grown⟩
  | more executes _ inductionHypothesis =>
      obtain ⟨small, account', state', found', grown'⟩ :=
        grown.deposit found executes
      obtain ⟨restSmall, account'', state'', found'', grown''⟩ :=
        inductionHypothesis grown' found'
      refine ⟨?_, account'', state'', found'', ?_⟩
      · intro other member
        rcases List.mem_cons.mp member with rfl | later
        · exact small
        · exact restSmall other later
      · simpa [lowSum, highSum, Nat.add_assoc, Nat.add_comm 1] using grown''

/-- After any deposits that the cap admits, the pending balance reads as their
sum exactly when the high parts sum up to less than `2 ^ 32`. -/
theorem deposits_read_as_their_sum_iff
    {withheldKey : PodElGamalPubkey} {keys : ConfidentialKeys crypto}
    {address : Address} {chain after : TokenAccounts}
    {account : AccountSnapshot} {state : ConfidentialTransferAccount}
    {amounts : List Nat}
    (found : chain address = some account)
    (applied : JustApplied keys account state)
    (deposits : Deposits crypto withheldKey address chain amounts after) :
    (∃ account', after address = some account' ∧
        pendingBalance account' keys = .ok amounts.sum) ↔
      highSum amounts < 2 ^ 32 := by
  obtain ⟨small, account', state', found', grown⟩ :=
    applied.grown.deposits found deposits
  simp only [Nat.zero_add] at grown
  have few : amounts.length ≤ 65536 := grown.room
  have lowBounded := lowSum_le amounts
  have highBounded := highSum_lt small
  have whole := lowSum_add_highSum amounts
  have pending : Pending crypto state' (lowSum amounts) (highSum amounts) :=
    { encryptsLow := grown.low
      encryptsHigh := grown.high
      lowSmall := by rw [abs_lt]; omega
      highSmall := by rw [abs_lt]; omega }
  have reads :
      pendingBalance account' keys = .ok amounts.sum ↔ _ :=
    pendingBalance_eq_ok_iff grown.configured grown.opens pending
  constructor
  · rintro ⟨other, otherFound, known⟩
    obtain rfl : account' = other :=
      Option.some.inj (found'.symm.trans otherFound)
    have highReadable := (reads.mp known).2.1.2
    exact_mod_cast highReadable
  · intro bounded
    refine ⟨account', found', reads.mpr ⟨⟨?_, ?_⟩, ⟨?_, ?_⟩, ?_⟩⟩ <;> omega

/-! ## Two deposits -/

namespace Transparent

/-- The accounts once some amounts were deposited. -/
def deposited (chain : TokenAccounts) (address : Address) :
    List Nat → Option TokenAccounts
  | [] => some chain
  | amount :: rest =>
      match executeDeposit chain address amount with
      | none => none
      | some middle => deposited middle address rest

theorem deposited_sound
    {withheldKey : PodElGamalPubkey} {chain after : TokenAccounts}
    {address : Address} {amounts : List Nat}
    (executed : deposited chain address amounts = some after) :
    Deposits Transparent.crypto withheldKey address chain amounts after := by
  induction amounts generalizing chain with
  | nil =>
      cases executed
      exact .none _
  | cons amount rest inductionHypothesis =>
      unfold deposited at executed
      split at executed
      case h_1 => cases executed
      case h_2 middle first =>
          exact .more (executeDeposit_sound first)
            (inductionHypothesis executed)

theorem emptyState_justApplied (address : Address) (amount : Nat) :
    JustApplied (owners.keys address) (openAccount address amount)
      emptyState where
  configured := rfl
  opens := rfl
  cap := rfl
  counter := rfl
  low := encrypts_encrypt 0
  high := encrypts_encrypt 0

/-- The pending balance that the owner of an account reads, if any. -/
def pendingRead (address : Address) (chain : TokenAccounts) : Option Nat :=
  match chain address with
  | none => none
  | some account =>
      (pendingBalance account (owners.keys address)).toOption

/-- Two deposits of `2 ^ 47`, both admitted, cannot be read. -/
theorem two_large_deposits_unreadable :
    JustApplied (owners.keys alice) (openAccount alice (2 ^ 48)) emptyState ∧
      ∃ after,
        Deposits Transparent.crypto ⟨0⟩ alice (opening (2 ^ 48)).chain
          [2 ^ 47, 2 ^ 47] after ∧
        (after alice).isSome = true ∧ pendingRead alice after = none := by
  have happens :
      (deposited (opening (2 ^ 48)).chain alice [2 ^ 47, 2 ^ 47]).any
        (fun after =>
          (after alice).isSome && pendingRead alice after = none) = true := by
    decide +kernel
  obtain ⟨after, executed, unreadable⟩ := (Option.any_eq_true ..).mp happens
  rw [Bool.and_eq_true, decide_eq_true_eq] at unreadable
  exact ⟨emptyState_justApplied alice (2 ^ 48), after,
    deposited_sound executed, unreadable⟩

theorem two_small_deposits_read_iff :
    ∃ after,
      Deposits Transparent.crypto ⟨0⟩ alice (opening (2 ^ 48)).chain
          [5, 2 ^ 20] after ∧
        ((∃ account, after alice = some account ∧
            pendingBalance account (owners.keys alice) =
              .ok [5, 2 ^ 20].sum) ↔
          highSum [5, 2 ^ 20] < 2 ^ 32) := by
  have happens :
      (deposited (opening (2 ^ 48)).chain alice [5, 2 ^ 20]).isSome = true := by
    decide +kernel
  obtain ⟨after, executed⟩ := Option.isSome_iff_exists.mp happens
  have deposits :
      Deposits Transparent.crypto ⟨0⟩ alice (opening (2 ^ 48)).chain
        [5, 2 ^ 20] after :=
    deposited_sound executed
  exact ⟨after, deposits,
    deposits_read_as_their_sum_iff (opening_chain (by decide) (2 ^ 48))
      (emptyState_justApplied alice (2 ^ 48)) deposits⟩

end Transparent
end Remit
