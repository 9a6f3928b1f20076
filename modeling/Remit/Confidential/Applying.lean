import Remit.Cluster.Busy
import Remit.Confidential.Execution
import Remit.Confidential.Synchrony

/-!
# What `applyPendingBalance` returns

`applyPendingBalance` returns the sum of the balances that it has read, and the
chain folds whatever is pending when the transaction lands.  Every credit that
lands in between is missing from the sum, and the counters then disown the
owner's copy.
-/

namespace Remit

open Flows

variable {crypto : Crypto} {withheldKey : PodElGamalPubkey}

/-- What Token-2022 does with an `ApplyPendingBalance` that lands: all that is
pending becomes available, whatever counter it was sent with. -/
def ApplyContract (C : Cluster) (crypto : Crypto)
    (withheldKey : PodElGamalPubkey) : Prop :=
  ∀ state address credits newDecryptable owner signers receipt,
    let transaction : List Instruction :=
      [.token (.applyPendingBalance address credits newDecryptable owner)]
    (C.send state transaction signers).outcome = .ok receipt →
      Executes crypto withheldKey
        (C.tokenAccounts (C.send state transaction signers).before)
        (.applyPendingBalance address credits newDecryptable)
        (C.tokenAccounts (C.send state transaction signers).after)

/-! ## Credits that land meanwhile -/

/-- Whether an instruction is a credit for the account at an address. -/
def Execution.Credits (address : Address) : Execution → Prop
  | .deposit account _ => account = address
  | .transfer source destination _ _ =>
      source ≠ address ∧ destination = address
  | _ => False

/-- The confidential state of the account at an address. -/
def TokenAccounts.confidentialAt (accounts : TokenAccounts)
    (address : Address) : Option ConfidentialTransferAccount :=
  (accounts address).bind (·.confidential)

/-- What lands meanwhile: `count` credits for the account at `address`, and
whatever does not change its confidential state. -/
inductive Credited (crypto : Crypto) (withheldKey : PodElGamalPubkey)
    (address : Address) (accounts : TokenAccounts) :
    Nat → TokenAccounts → Prop where
  | nothing : Credited crypto withheldKey address accounts 0 accounts
  | credit {between after : TokenAccounts} {count : Nat}
      {execution : Execution} :
      Credited crypto withheldKey address accounts count between →
      execution.Credits address →
      Executes crypto withheldKey between execution after →
      Credited crypto withheldKey address accounts (count + 1) after
  | elsewhere {between after : TokenAccounts} {count : Nat} :
      Credited crypto withheldKey address accounts count between →
      TokenAccounts.confidentialAt after address =
        TokenAccounts.confidentialAt between address →
      Credited crypto withheldKey address accounts count after

theorem TokenAccounts.confidentialAt_eq_some
    {accounts : TokenAccounts} {address : Address}
    {state : ConfidentialTransferAccount} :
    TokenAccounts.confidentialAt accounts address = some state ↔
      ∃ account, accounts address = some account ∧
        account.confidential = some state :=
  Option.bind_eq_some_iff

/-- A credit is counted. -/
theorem Executes.credits
    {accounts after : TokenAccounts} {execution : Execution}
    {address : Address} {state : ConfidentialTransferAccount}
    (executes : Executes crypto withheldKey accounts execution after)
    (credits : execution.Credits address)
    (known : TokenAccounts.confidentialAt accounts address = some state) :
    ∃ lo hi,
      TokenAccounts.confidentialAt after address =
        some (state.credited lo hi) := by
  obtain ⟨account, found, configured⟩ :=
    TokenAccounts.confidentialAt_eq_some.mp known
  cases executes with
  | @deposit changed _ _ _ lo hi found' configured' =>
      obtain rfl : changed = address := credits
      obtain rfl := Option.some.inj (found.symm.trans found')
      obtain rfl := Option.some.inj (configured.symm.trans configured')
      exact ⟨lo, hi, TokenAccounts.confidentialAt_eq_some.mpr
        ⟨_, Function.update_self .., rfl⟩⟩
  | applyPendingBalance => exact credits.elim
  | @transfer _ _ _ _ _ _ _ _ _ lo hi _ _ _ _ _ _ found' configured' =>
      obtain rfl := credits.2
      obtain rfl := Option.some.inj (found.symm.trans found')
      obtain rfl := Option.some.inj (configured.symm.trans configured')
      exact ⟨lo, hi, TokenAccounts.confidentialAt_eq_some.mpr
        ⟨_, Function.update_self .., rfl⟩⟩
  | transferToSelf => exact absurd credits.2 credits.1
  | withdraw => exact credits.elim

/-- The credits are counted, and without any the confidential state is what it
was. -/
theorem Credited.counted
    {accounts after : TokenAccounts} {address : Address} {count : Nat}
    {state : ConfidentialTransferAccount}
    (credited : Credited crypto withheldKey address accounts count after)
    (configured :
      TokenAccounts.confidentialAt accounts address = some state) :
    ∃ reached,
      TokenAccounts.confidentialAt after address = some reached ∧
        reached.pendingBalanceCreditCounter =
          state.pendingBalanceCreditCounter + count ∧
        (count = 0 → reached = state) := by
  induction credited with
  | nothing => exact ⟨state, configured, rfl, fun _ => rfl⟩
  | @credit between after count execution _ credits executes
      inductionHypothesis =>
      obtain ⟨reached, found, counter, _⟩ := inductionHypothesis
      obtain ⟨lo, hi, left⟩ := executes.credits credits found
      refine ⟨_, left, ?_, fun none => absurd none (Nat.succ_ne_zero count)⟩
      show reached.pendingBalanceCreditCounter + 1 = _
      rw [counter, Nat.add_assoc]
  | elsewhere _ kept inductionHypothesis =>
      rw [kept]
      exact inductionHypothesis

/-! ## The balance that is returned -/

/-- `reported` is the plaintext of the available balance of the account at
`address`, and its owner reads it. -/
def ReportsBalance (keys : ConfidentialKeys crypto) (address : Address)
    (reported : Nat) (accounts : TokenAccounts) : Prop :=
  ∃ account state,
    accounts address = some account ∧ account.confidential = some state ∧
      crypto.Encrypts (crypto.secretOf state.elgamalPubkey) reported
        state.availableBalance ∧
      availableBalance account keys = .ok reported

section Applied

variable {keys : ConfidentialKeys crypto} {read : AccountSnapshot}
  {state reached : ConfidentialTransferAccount} {plan : ApplyPlan}
  {available lo hi : PodElGamalCiphertext} {account : AccountSnapshot}
  {count : Nat}

/-- After credits the counters differ. -/
theorem ApplyPlan.uncounted
    (configured : read.confidential = some state)
    (prepared : ApplyPlan.prepare read keys = .ok plan)
    (counter : reached.pendingBalanceCreditCounter =
      state.pendingBalanceCreditCounter + count)
    (left : account.confidential =
      some (reached.applied available lo hi plan.credits plan.newDecryptable))
    {reported : Nat} (known : availableBalance account keys = .ok reported) :
    count = 0 := by
  obtain ⟨_, _, _, _, _, rfl⟩ :=
    (ApplyPlan.prepare_eq_ok_iff configured).mp prepared
  have agree : state.pendingBalanceCreditCounter =
      reached.pendingBalanceCreditCounter :=
    ((availableBalance_eq_ok_iff left).mp known).1
  omega

/-- Without credits the owner reads what was worked out. -/
theorem ApplyPlan.reads
    (configured : read.confidential = some state)
    (prepared : ApplyPlan.prepare read keys = .ok plan)
    (left : account.confidential =
      some (state.applied available lo hi plan.credits plan.newDecryptable)) :
    availableBalance account keys = .ok plan.newAvailable := by
  obtain ⟨_, _, _, _, fits, rfl⟩ :=
    (ApplyPlan.prepare_eq_ok_iff configured).mp prepared
  apply (availableBalance_eq_ok_iff left).mpr
  exact ⟨rfl, crypto.validDecryptable_aeEncrypt _ _,
    crypto.aeDecrypt_aeEncrypt _ _ fits⟩

/-- What was worked out is what an apply makes available exactly when the
owner's copy is right. -/
theorem ApplyPlan.encrypts_iff
    (configured : read.confidential = some state) (opens : keys.Opens state)
    (prepared : ApplyPlan.prepare read keys = .ok plan)
    (applies : AppliesPending crypto state available lo hi) :
    crypto.Encrypts (crypto.secretOf state.elgamalPubkey) plan.newAvailable
        available ↔
      Synced keys state := by
  obtain ⟨balance, pending, balanceRead, pendingRead, _, rfl⟩ :=
    (ApplyPlan.prepare_eq_ok_iff configured).mp prepared
  have folded := pendingBalance_plaintext configured opens pendingRead
  obtain ⟨valid, plaintext, _⟩ := applies
  rw [add_assoc, folded] at plaintext
  constructor
  · intro encrypts agree
    obtain ⟨_, validCopy, decrypted⟩ :=
      (availableBalance_eq_ok_iff configured).mp balanceRead
    refine ⟨validCopy, balance, decrypted, ?_⟩
    have same := plaintext.symm.trans encrypts.2
    push_cast at same
    exact add_right_cancel same
  · intro synced
    refine ⟨valid, ?_⟩
    rw [plaintext, synced.availableBalance configured balanceRead]
    push_cast
    rfl

end Applied

/-- The sum that was read is the balance after the apply exactly when no credit
has landed in between and the owner's copy was right. -/
theorem ApplyPlan.reports_iff
    {keys : ConfidentialKeys crypto} {address : Address}
    {read : AccountSnapshot} {state : ConfidentialTransferAccount}
    {plan : ApplyPlan} {accounts before after : TokenAccounts} {count : Nat}
    (found : accounts address = some read)
    (configured : read.confidential = some state) (opens : keys.Opens state)
    (prepared : ApplyPlan.prepare read keys = .ok plan)
    (credited : Credited crypto withheldKey address accounts count before)
    (executes : Executes crypto withheldKey before
      (.applyPendingBalance address plan.credits plan.newDecryptable) after) :
    ReportsBalance keys address plan.newAvailable after ↔
      count = 0 ∧ Synced keys state := by
  obtain ⟨reached, foundLater, counter, unchanged⟩ := credited.counted
    (TokenAccounts.confidentialAt_eq_some.mpr ⟨read, found, configured⟩)
  obtain ⟨later, there, configuredLater⟩ :=
    TokenAccounts.confidentialAt_eq_some.mp foundLater
  cases executes with
  | @applyPendingBalance _ other otherState available lo hi _ _ found'
      configured' _ applies =>
  obtain rfl := Option.some.inj (there.symm.trans found')
  obtain rfl := Option.some.inj (configuredLater.symm.trans configured')
  constructor
  · rintro ⟨account, left, here, leftConfigured, encrypts, known⟩
    rw [Function.update_self] at here
    cases here
    have uncredited : count = 0 :=
      ApplyPlan.uncounted configured prepared counter rfl known
    obtain rfl := unchanged uncredited
    cases leftConfigured
    exact ⟨uncredited,
      (ApplyPlan.encrypts_iff configured opens prepared applies).mp encrypts⟩
  · rintro ⟨uncredited, synced⟩
    obtain rfl := unchanged uncredited
    exact ⟨_, _, Function.update_self .., rfl,
      (ApplyPlan.encrypts_iff configured opens prepared applies).mpr synced,
      ApplyPlan.reads configured prepared rfl⟩

variable {C : Cluster}

/-- When `applyPendingBalance` returns a balance after credits have landed, that
is the new available balance, and is read as such, exactly when there were none
and the owner's copy of the balance was right. -/
theorem applied_balance_reported_iff
    (contract : ApplyContract C crypto withheldKey) (address : Address)
    (owner : Keypair) (keys : ConfidentialKeys crypto) (world : World C) :
    Flow.Ensures (applyPendingBalance address owner keys) world
      fun outcome reached => ∀ reported, outcome = .ok reported →
        ∃ read state one,
          C.tokenAccounts world.state address = some read ∧
            read.confidential = some state ∧
            reached.sent = world.sent ++ [one] ∧ one.landed = true ∧
            (keys.Opens state → ∀ count,
              Credited crypto withheldKey address
                  (C.tokenAccounts world.state) count
                  (C.tokenAccounts one.delivery.before) →
                (ReportsBalance keys address reported
                    (C.tokenAccounts one.delivery.after) ↔
                  count = 0 ∧ Synced keys state)) := by
  unfold applyPendingBalance
  refine .bind (World.ensures_loadAccount (fun read loaded => ?_)
    fun _ _ impossible => by cases impossible)
  refine .bind (ensures_ofStop ?_)
  rcases prepared : ApplyPlan.prepare read keys with stop | plan
  · exact fun _ impossible => by cases impossible
  refine .bind (.ofExcept (fun instruction built => ?_)
    fun _ _ _ impossible => by cases impossible)
  obtain rfl := tokenInstruction_eq_ok built
  have found : C.tokenAccounts world.state address = some read := by
    rw [tokenAccounts_eq, loaded]
    rfl
  obtain ⟨state, configured⟩ := ApplyPlan.prepare_configured prepared
  refine .bind (World.ensures_send (fun receipt landed => .pure ?_)
    fun _ _ _ impossible => by cases impossible)
  intro reported same
  obtain rfl := Except.ok.inj same
  refine ⟨read, state, _, found, configured, rfl,
    World.landed_sending landed, fun opens count credited => ?_⟩
  exact ApplyPlan.reports_iff found configured opens prepared credited
    (contract _ _ _ _ _ _ _ landed)

/-! ## A credit that lands in between -/

/-- Other accounts than those of an execution are left as they are. -/
theorem Executes.elsewhere
    {accounts after : TokenAccounts} {execution : Execution}
    {address : Address}
    (executes : Executes crypto withheldKey accounts execution after)
    (away : address ∉ execution.addresses) :
    after address = accounts address := by
  cases executes with
  | transfer =>
      have apart := List.mem_cons.not.mp away
      push Not at apart
      have apartToo := List.mem_singleton.not.mp apart.2
      rw [Function.update_of_ne apartToo, Function.update_of_ne apart.1]
  | transferToSelf =>
      exact Function.update_of_ne (List.mem_cons.not.mp away ∘ .inl) ..
  | deposit =>
      exact Function.update_of_ne (List.mem_singleton.not.mp away) ..
  | applyPendingBalance =>
      exact Function.update_of_ne (List.mem_singleton.not.mp away) ..
  | withdraw =>
      exact Function.update_of_ne (List.mem_singleton.not.mp away) ..

namespace Busy

open Transparent (alice bob openAccount emptyState encrypt owners)

/-- Carry out a confidential instruction. -/
def Ledger.execute (ledger : Ledger) (execution : Execution) :
    Option Quiet.Tokens :=
  match Transparent.execute ledger.chain.accounts execution with
  | none => none
  | some accounts =>
      writeBack ledger { ledger.chain with accounts } execution.addresses

theorem Ledger.execute_sound
    (withheldKey : PodElGamalPubkey) {ledger : Ledger} {execution : Execution}
    {tokens : Quiet.Tokens} (executed : ledger.execute execution = some tokens) :
    Executes Transparent.crypto withheldKey ledger.chain.accounts execution
      (Ledger.chain ⟨tokens, ledger.epoch⟩).accounts := by
  unfold Ledger.execute at executed
  split at executed
  case h_1 => cases executed
  case h_2 accounts done =>
      have sound : Executes Transparent.crypto withheldKey
          ledger.chain.accounts execution accounts :=
        Transparent.execute_sound done
      rw [writeBack_eq_some executed
        (fun address away => ⟨sound.elsewhere away, rfl⟩) rfl]
      exact sound

/-- Carry out an apply. -/
def applyEffect : Effect := fun _ instructions state =>
  match instructions with
  | [.applyPendingBalance address credits newDecryptable _] =>
      state.ledger.execute (.applyPendingBalance address credits newDecryptable)
  | _ => none

theorem applyContract :
    ApplyContract (cluster applyEffect) Transparent.crypto withheldKey := by
  intro (state : State) address credits newDecryptable owner signers receipt
    transaction landed
  obtain ⟨_, ran, sameEpoch⟩ := process_eq_some (send_attempts.ok landed)
  have executed := Ledger.execute_sound withheldKey ran
  rw [← sameEpoch] at executed
  change Executes Transparent.crypto withheldKey
    (send unexplained applyEffect state transaction signers).before.ledger.chain.accounts _
    (send unexplained applyEffect state transaction signers).after.ledger.chain.accounts
  rw [send_attempts.before]
  exact executed

/-- Alice has 20 available and a credit of 10 pending, and Bob has 500. -/
def receiving : Ledger where
  tokens := tokensAt
    [(alice, Layout.writeAccount <| (openAccount alice 0).withConfidential
        { emptyState with
          availableBalance := encrypt 20
          decryptableAvailableBalance := ⟨20⟩
          pendingBalanceLo := encrypt 10
          pendingBalanceCreditCounter := 1 }),
      (bob, Layout.writeAccount <| (openAccount bob 0).withConfidential
        { emptyState with
          availableBalance := encrypt 500
          decryptableAvailableBalance := ⟨500⟩ })]
  epoch := 0

/-- Bob pays 12 to Alice, with a fee of 1. -/
def bobPays (ledger : Ledger) : Option Ledger :=
  match ledger.execute (.transfer bob alice ⟨encrypt 500, 12, 1⟩ ⟨488⟩) with
  | none => none
  | some tokens => some ⟨tokens, ledger.epoch⟩

/-- Before the first transaction lands Bob pays. -/
def overtaken (ledger : Ledger) : State where
  accounts _ := none
  ledger := ledger
  turns := [⟨fun ledger => (bobPays ledger).getD ledger, id⟩]

theorem overtaken_credits
    (withheldKey : PodElGamalPubkey) (ledger : Ledger)
    (pays : (bobPays ledger).isSome = true) :
    Credited Transparent.crypto withheldKey alice
      (overtaken ledger).ledger.chain.accounts 1
      (overtaken ledger).reached.ledger.chain.accounts := by
  obtain ⟨paid, found⟩ := Option.isSome_iff_exists.mp pays
  have reached : (overtaken ledger).reached.ledger = paid := by
    simp [overtaken, State.reached, State.turn, found]
  rw [reached]
  unfold bobPays at found
  split at found
  case h_1 => cases found
  case h_2 tokens executed =>
      cases found
      have credits : Execution.Credits alice
          (.transfer bob alice ⟨encrypt 500, 12, 1⟩ ⟨488⟩) :=
        And.intro (by decide) rfl
      exact .credit .nothing credits (Ledger.execute_sound withheldKey executed)

def applyForAlice : Flow (World (cluster applyEffect)) Error Nat :=
  applyPendingBalance alice ⟨alice⟩ (owners.keys alice)

/-- What Alice reads, and what she has. -/
def aliceReads (accounts : TokenAccounts) : Option (Except Error Nat × Nat) :=
  match accounts alice with
  | none => none
  | some account =>
      account.confidential.map fun state =>
        (availableBalance account (owners.keys alice),
          state.availableBalance.code)

theorem not_reportsBalance
    {accounts : TokenAccounts} {error : Error} {actual : Nat}
    (reported : Nat)
    (reads : aliceReads accounts = some (.error error, actual)) :
    ¬ ReportsBalance (owners.keys alice) alice reported accounts := by
  rintro ⟨account, state, found, configured, _, known⟩
  simp only [aliceReads, found, configured, Option.map_some, known] at reads
  cases reads

/-- Alice is told that she has 30 where she has 41, which she cannot read. -/
theorem applied_balance_misreported :
    let ended := Flow.exec applyForAlice
      (World.initial (overtaken receiving) 0)
    ApplyContract (cluster applyEffect) Transparent.crypto ⟨0⟩ ∧
      Credited Transparent.crypto ⟨0⟩ alice
        (overtaken receiving).ledger.chain.accounts 1
        (overtaken receiving).reached.ledger.chain.accounts ∧
      ended.1 = .ok 30 ∧ ended.2.sent.map Sent.landed = [true] ∧
      aliceReads ((cluster applyEffect).tokenAccounts ended.2.state) =
        some (.error (staleBalance alice 1 2), 41) ∧
      ¬ ReportsBalance (owners.keys alice) alice 30
        ((cluster applyEffect).tokenAccounts ended.2.state) := by
  have reads : aliceReads ((cluster applyEffect).tokenAccounts
      (Flow.exec applyForAlice
        (World.initial (overtaken receiving) 0)).2.state) =
      some (.error (staleBalance alice 1 2), 41) := by decide +kernel
  have credited := overtaken_credits ⟨0⟩ receiving (by decide +kernel)
  have misses := not_reportsBalance 30 reads
  exact ⟨applyContract, credited, by decide +kernel, by decide +kernel, reads,
    misses⟩

/-- Without the payment she is told what she has. -/
theorem applied_balance_reported :
    let undisturbed : State := ⟨fun _ => none, receiving, []⟩
    (Flow.exec applyForAlice (World.initial undisturbed 0)).1 = .ok 30 ∧
      Flow.Ensures applyForAlice (World.initial undisturbed 0)
        fun outcome reached => ∀ reported, outcome = .ok reported →
          ∃ read state one,
            (cluster applyEffect).tokenAccounts undisturbed alice =
                some read ∧
              read.confidential = some state ∧
              reached.sent = [] ++ [one] ∧ one.landed = true ∧
              ((owners.keys alice).Opens state → ∀ count,
                Credited Transparent.crypto ⟨0⟩ alice
                    ((cluster applyEffect).tokenAccounts undisturbed) count
                    ((cluster applyEffect).tokenAccounts
                      one.delivery.before) →
                  (ReportsBalance (owners.keys alice) alice reported
                      ((cluster applyEffect).tokenAccounts
                        one.delivery.after) ↔
                    count = 0 ∧ Synced (owners.keys alice) state)) :=
  ⟨by decide +kernel,
    applied_balance_reported_iff applyContract alice ⟨alice⟩
      (owners.keys alice) (World.initial _ 0)⟩

end Busy
end Remit
