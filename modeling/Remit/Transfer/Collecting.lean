import Remit.Cluster.Busy
import Remit.Token.Harvest

/-!
# What `collectFees` reports

`collectFees` reads the balance of the treasury before and after its
transaction and reports the difference.  Whatever others pay into the treasury
or out of it in between is reported as collected.
-/

namespace Remit

open Flows

variable {C : Cluster}

/-- What Token-2022 does with a transaction that harvests and withdraws. -/
def CollectContract (C : Cluster) : Prop :=
  ∀ state mint sources treasury authority signers receipt,
    let transaction : List Instruction :=
      [.token (.harvestWithheldTokensToMint mint sources),
        .token (.withdrawWithheldTokensFromMint mint treasury authority)]
    (C.send state transaction signers).outcome = .ok receipt →
      (C.tokenChain (C.send state transaction signers).before).collect
          (C.payer :: signers.map (·.pubkey)) mint sources treasury authority =
        some (C.tokenChain (C.send state transaction signers).after)

/-- What the transaction `one` collects: it moves that much into the balance of
the treasury. -/
structure Collects (mint : Address) (sources : List Address)
    (treasury : Address) (one : Sent C.State) (collected : Nat) : Prop where
  landed : one.landed = true
  all : collected =
    (C.tokenChain one.delivery.before).collectable mint sources
  moved : ∃ amount,
    (C.tokenChain one.delivery.before).balance treasury = some amount ∧
      (C.tokenChain one.delivery.after).balance treasury =
        some (amount + collected)

/-- What others pay into the treasury between the first read and the
transaction, and between the transaction and the last read, less what they take
out, is nothing altogether; and the treasury can be read in the end. -/
def EvenTreasury (treasury : Address) (world reached : World C)
    (one : Sent C.State) : Prop :=
  ∃ first before after last : Nat,
    (C.tokenChain world.state).balance treasury = some first ∧
      (C.tokenChain one.delivery.before).balance treasury = some before ∧
      (C.tokenChain one.delivery.after).balance treasury = some after ∧
      (C.tokenChain reached.state).balance treasury = some last ∧
      ((before : Int) - first) + ((last : Int) - after) = 0

/-- The balance that is read is the one on the chain. -/
theorem balance_eq (world : World C) (address : Address) :
    (C.tokenChain world.state).balance address =
      (Remit.loadAccount world address).toOption.map (·.amount) :=
  congrArg (Option.map _) (tokenAccounts_eq world address)

theorem ensures_loadAccount_cases
    {world : World C} {address : Address}
    {post : Except (Stop Error) AccountSnapshot → World C → Prop}
    (loaded : ∀ account, Remit.loadAccount world address = .ok account →
      post (.ok account) world)
    (failed : ∀ error, Remit.loadAccount world address = .error error →
      post (.error (.error error)) world) :
    Flow.Ensures (World.loadAccount address) world post :=
  .bind (.read (.ofExcept loaded failed))

theorem differenceOrPanic_eq_ok_iff {left right difference : Nat} :
    differenceOrPanic left right = .ok difference ↔
      right + difference = left := by
  unfold differenceOrPanic
  split
  case isTrue less =>
      constructor
      · intro impossible
        cases impossible
      · omega
  case isFalse enough =>
      constructor
      · intro same
        have exact := Except.ok.inj same
        omega
      · intro same
        congr 1
        omega

/-- The difference of the balances is what was collected exactly when the
others were even. -/
theorem Collects.reported_iff
    {mint treasury : Address} {sources : List Address} {one : Sent C.State}
    {collected first last : Nat} {world reached : World C}
    (collects : Collects mint sources treasury one collected)
    (readFirst : (C.tokenChain world.state).balance treasury = some first)
    (readLast : (C.tokenChain reached.state).balance treasury = some last) :
    differenceOrPanic last first = .ok collected ↔
      EvenTreasury treasury world reached one := by
  obtain ⟨amount, before, after⟩ := collects.moved
  rw [differenceOrPanic_eq_ok_iff]
  constructor
  · intro same
    refine ⟨first, amount, amount + collected, last, readFirst, before, after,
      readLast, ?_⟩
    push_cast
    omega
  · rintro ⟨_, _, _, _, sameFirst, sameBefore, sameAfter, sameLast, even⟩
    obtain rfl := Option.some.inj (readFirst.symm.trans sameFirst)
    obtain rfl := Option.some.inj (before.symm.trans sameBefore)
    obtain rfl := Option.some.inj (after.symm.trans sameAfter)
    obtain rfl := Option.some.inj (readLast.symm.trans sameLast)
    push_cast at even
    omega

/-- When the transaction of `collectFees` lands, it returns what that collects
exactly when the dealings of the others with the treasury are even. -/
theorem collected_fees_reported_iff
    (contract : CollectContract C) (mint : Address) (sources : List Address)
    (treasury : Address) (withdrawAuthority : Keypair) (world : World C) :
    Flow.Ensures (collectFees mint sources treasury withdrawAuthority) world
      fun outcome reached => ∀ one, reached.sent = world.sent ++ [one] →
        one.landed = true →
          ∃ collected, Collects mint sources treasury one collected ∧
            (outcome = .ok collected ↔
              EvenTreasury treasury world reached one) := by
  have nothing (outcome : Except (Stop Error) Nat) :
      ∀ one, world.sent = world.sent ++ [one] → one.landed = true →
        ∃ collected, Collects mint sources treasury one collected ∧
          (outcome = .ok collected ↔
            EvenTreasury treasury world world one) := by
    intro one impossible
    have lengths := congrArg List.length impossible
    simp at lengths
  unfold collectFees
  refine .bind (ensures_loadAccount_cases (fun account loaded => ?_)
    fun _ _ => nothing _)
  refine .bind (.ofExcept (fun harvest built => ?_) fun _ _ => nothing _)
  refine .bind (.ofExcept (fun withdraw builtToo => ?_) fun _ _ => nothing _)
  obtain rfl := tokenInstruction_eq_ok built
  obtain rfl := tokenInstruction_eq_ok builtToo
  have readFirst := balance_eq world treasury
  rw [loaded] at readFirst
  refine .bind (World.ensures_send (fun receipt landed => ?_)
    fun error failed => ?_)
  · obtain ⟨amount, before, after, _⟩ :=
      TokenChain.collect_eq_some (contract _ _ _ _ _ _ _ landed)
    have collects : Collects mint sources treasury (world.sending _ _) _ :=
      ⟨World.landed_sending landed, rfl, amount, before, after⟩
    refine .bind (ensures_loadAccount_cases (fun last lastLoaded => ?_)
      fun error failed => ?_)
    · refine ensures_ofStop fun one sent _ => ?_
      obtain rfl := (List.cons.inj (List.append_cancel_left sent)).1
      refine ⟨_, collects, collects.reported_iff readFirst ?_⟩
      rw [balance_eq, lastLoaded]
      rfl
    · intro one sent _
      obtain rfl := (List.cons.inj (List.append_cancel_left sent)).1
      refine ⟨_, collects, ?_⟩
      constructor
      · rintro ⟨⟩
      · rintro ⟨_, _, _, _, _, _, _, readable, _⟩
        rw [balance_eq, failed] at readable
        cases readable
  · intro one sent hasLanded
    obtain rfl := (List.cons.inj (List.append_cancel_left sent)).1
    rw [World.not_landed_sending failed] at hasLanded
    cases hasLanded

/-! ## A treasury that is not left alone -/

namespace Busy

/-- Carry out a harvest and a withdrawal. -/
def collectEffect : Effect := fun signers instructions state =>
  match instructions with
  | [.harvestWithheldTokensToMint mint sources,
      .withdrawWithheldTokensFromMint other treasury authority] =>
      if mint = other then
        match state.ledger.chain.collect signers mint sources treasury
            authority with
        | none => none
        | some chain =>
            writeBack state.ledger chain (mint :: treasury :: sources)
      else none
  | _ => none

theorem collectContract : CollectContract (cluster collectEffect) := by
  intro (state : State) mint sources treasury authority signers receipt
    transaction landed
  obtain ⟨_, ran, sameEpoch⟩ := process_eq_some (send_attempts.ok landed)
  change (if mint = mint then
      match state.reached.ledger.chain.collect
          (Quiet.payer :: signers.map (·.pubkey)) mint sources treasury
          authority with
      | none => none
      | some chain =>
          writeBack state.reached.ledger chain (mint :: treasury :: sources)
    else none) = _ at ran
  rw [if_pos rfl] at ran
  split at ran
  case h_1 => cases ran
  case h_2 chain done =>
      obtain ⟨_, _, _, epoch, accounts, mints⟩ :=
        TokenChain.collect_eq_some done
      have left := writeBack_eq_some ran (fun other away => by
        have apart := List.mem_cons.not.mp away
        push Not at apart
        exact ⟨accounts other apart.2, mints other apart.1⟩) epoch
      change (send unexplained collectEffect state transaction
          signers).before.ledger.chain.collect _ _ _ _ _ =
        some (send unexplained collectEffect state transaction signers).after.ledger.chain
      rw [send_attempts.before]
      refine done.trans (congrArg some (left.symm.trans ?_))
      rw [← sameEpoch]

def treasury : Address :=
  Address.filled 71

def payees : List Address :=
  [Address.filled 72, Address.filled 73]

/-- A treasury with a balance, and two payees with 30 and 12 withheld. -/
def revenue (balance : Nat) : Quiet.Tokens :=
  tokensAt
    [(stablecoin, .mint ⟨none, 0, 2, none⟩
        [⟨.transferFeeConfig, Layout.writeFeeConfig
          ⟨none, some feeWithdrawAuthority.pubkey, 5, ⟨0, 5000, 25⟩,
            ⟨0, 5000, 25⟩⟩⟩]),
      (treasury, holding treasury balance .initialized 0),
      (Address.filled 72, holding (Address.filled 72) 100 .initialized 30),
      (Address.filled 73, holding (Address.filled 73) 100 .initialized 12)]

/-- Collect from both payees, from one of them twice, and from the treasury. -/
def collectRevenue (effect : Effect) : Flow (World (cluster effect)) Error Nat :=
  collectFees stablecoin (treasury :: payees ++ payees) treasury
    feeWithdrawAuthority

/-- Before the collection lands somebody pays 8 into the treasury. -/
def paidInto : State where
  accounts _ := none
  ledger := ⟨revenue 1000, 0⟩
  turns := [⟨fun ledger => { ledger with tokens := revenue 1008 }, id⟩]

/-- After the collection lands the treasury pays 300. -/
def paysOut : State where
  accounts _ := none
  ledger := ⟨revenue 1000, 0⟩
  turns := [⟨id, fun ledger => { ledger with tokens := revenue 747 }⟩]

/-- A treasury that others leave alone. -/
def leftAlone : State where
  accounts _ := none
  ledger := ⟨revenue 1000, 0⟩
  turns := []

def collectedOf {effect : Effect}
    (ended : Except (Stop Error) Nat × World (cluster effect)) : Option Nat :=
  ended.2.sent.getLast?.map fun one =>
    one.delivery.before.ledger.chain.collectable stablecoin
      (treasury :: payees ++ payees)

/-- Of 47 tokens collected 55 are reported when somebody has paid into the
treasury, and the subtraction underflows when the treasury has paid. -/
theorem collected_fees_misreported :
    CollectContract (cluster collectEffect) ∧
      (∀ state ∈ [paidInto, paysOut],
        let ended := Flow.exec (collectRevenue collectEffect)
          (World.initial state 0)
        ended.2.sent.map Sent.landed = [true] ∧
          collectedOf ended = some 47 ∧ ended.1 ≠ .ok 47) ∧
      (Flow.exec (collectRevenue collectEffect)
        (World.initial paidInto 0)).1 = .ok 55 ∧
      (Flow.exec (collectRevenue collectEffect)
        (World.initial paysOut 0)).1 = .error .panic :=
  ⟨collectContract, by decide +kernel, by decide +kernel, by decide +kernel⟩

theorem collected_fees_reported :
    (Flow.exec (collectRevenue collectEffect)
        (World.initial leftAlone 0)).1 = .ok 47 ∧
      Flow.Ensures (collectRevenue collectEffect) (World.initial leftAlone 0)
        fun outcome reached => ∀ one, reached.sent = [] ++ [one] →
          one.landed = true →
            ∃ collected,
              Collects stablecoin (treasury :: payees ++ payees) treasury one
                collected ∧
              (outcome = .ok collected ↔
                EvenTreasury treasury
                  (World.initial (C := cluster collectEffect) leftAlone 0)
                  reached one) :=
  ⟨by decide +kernel,
    collected_fees_reported_iff collectContract stablecoin
      (treasury :: payees ++ payees) treasury feeWithdrawAuthority
      (World.initial leftAlone 0)⟩

end Busy
end Remit
