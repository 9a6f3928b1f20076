import Remit.Agent
import Remit.Cluster.Quiet
import Remit.Library.Runs

/-!
# Mandates

An owner approves delegates on a token account and revokes them, and anybody
calls the agent with whatever accounts and data.  What the agent takes from the
account was approved: its destination, its size and its sum.
-/

namespace Remit
namespace Agent

open Flows Runs

/-- The seeds of a mandate determine its accounts and its amount, although
nothing separates them. -/
theorem mandateSeeds_injective
    {source destination otherSource otherDestination : Address}
    {amount otherAmount : UInt64} {bump otherBump : UInt8}
    (same :
      (mandateSeeds source destination amount ++ [[bump]]).flatten =
        (mandateSeeds otherSource otherDestination otherAmount ++
          [[otherBump]]).flatten) :
    source = otherSource ∧ destination = otherDestination ∧
      amount = otherAmount := by
  simp only [mandateSeeds, List.cons_append, List.nil_append,
    List.flatten_cons, List.flatten_nil, List.append_nil] at same
  have afterPrefix := List.append_cancel_left same
  have sources := List.append_inj afterPrefix
    (by rw [source.length_eq, otherSource.length_eq])
  have destinations := List.append_inj sources.2
    (by rw [destination.length_eq, otherDestination.length_eq])
  have amounts := List.append_inj destinations.2
    (by rw [length_leBytes, length_leBytes])
  refine ⟨Address.bytes_injective sources.1,
    Address.bytes_injective destinations.1, ?_⟩
  have fits : ∀ number : UInt64, number.toNat < 256 ^ 8 := by
    intro number
    exact Nat.lt_of_lt_of_eq number.toNat_lt (by decide)
  exact UInt64.toNat_inj.mp
    (leBytes_injective (fits amount) (fits otherAmount) amounts.1)

/-! ## The system -/

/-- What surrounds an account that mandates are approved on: the programs, the
layout of mints, the hash that derives addresses, and the account. -/
structure MandateSetting (Data : Type) where
  programs : Programs
  interface : TokenInterface Data
  hash : AddressHash
  account : Address

/-- The chain, the last approval on the account and its allowance, and what the
agent has debited since. -/
structure MandateState where
  chain : TokenChain
  approved : Option (Address × Nat)
  debited : Nat

/-- A call of the agent. -/
structure AgentCall (Data : Type) where
  signers : List Address
  accounts : List (AccountInfo Data)
  instructionData : Bytes

inductive MandateEvent (Data : Type) where
  | approve (delegate : Address) (allowance : Nat)
  | revoke
  | transfer (mint destination : Address) (amount decimals fee : Nat)
  | invoke (call : AgentCall Data)
  | other

variable {Data : Type}

namespace MandateSetting

variable (setting : MandateSetting Data)

/-- The agent can sign for the address. -/
def Signable (address : Address) : Prop :=
  Derives setting.hash ID address

/-- What the called program does with the instruction and the signatures it is
given.  Token-2022 carries the instruction out; any other program may send
whatever instructions it likes on to Token-2022. -/
inductive Invokes (signers : List Address) (invocation : Invocation Data)
    (chain : TokenChain) : TokenChain → Prop where
  | token {after : TokenChain} :
      invocation.program = setting.programs.token2022 →
      invocation.instruction.carryOut signers chain = some after →
      Invokes signers invocation chain after
  | foreign {after : TokenChain} (instructions : List TokenInstruction) :
      invocation.program ≠ setting.programs.token2022 →
      chain.carryOutAll signers instructions = some after →
      Invokes signers invocation chain after

/-- A call of the agent that succeeds: the entrypoint invokes a program with
the signatures of the call and those of the addresses that its seeds derive. -/
inductive Executes (call : AgentCall Data) (chain : TokenChain) :
    TokenChain → Prop where
  | mk {invocation : Invocation Data} {derived : List Address}
      {after : TokenChain} :
      processInstruction setting.hash setting.programs setting.interface
        chain.epoch ID call.accounts call.instructionData = .ok invocation →
      invocation.signerSeeds.mapM
        (createProgramAddress setting.hash · ID) = some derived →
      setting.Invokes (call.signers ++ derived) invocation chain after →
      Executes call chain after

/-- No mint has a permanent delegate that the agent can sign for. -/
def Unsigned (chain : TokenChain) : Prop :=
  ∀ address mint, chain.mints address = some mint →
    ∀ delegate, mint.permanentDelegate = some delegate →
      ¬ setting.Signable delegate

/-- What a step that is neither the owner's nor the agent's leaves alone: the
owner of the account, and any allowance that the agent could use. -/
def LeavesAlone (before after : TokenChain) : Prop :=
  ∀ account, after.accounts setting.account = some account →
    ∃ earlier, before.accounts setting.account = some earlier ∧
      account.owner = earlier.owner ∧
      ∀ delegate, account.delegate = some delegate →
        setting.Signable delegate →
          earlier.delegate = some delegate ∧
            account.delegatedAmount = earlier.delegatedAmount

end MandateSetting

/-- The public balance of an account. -/
def balanceOf (chain : TokenChain) (address : Address) : Nat :=
  (chain.accounts address).elim 0 (·.amount)

/-- The owner approves a delegate, revokes it or transfers; somebody calls the
agent; or something else happens on the chain. -/
inductive MandateStep (setting : MandateSetting Data) :
    MandateState → MandateEvent Data → MandateState → Prop where
  | approve {state : MandateState} {account : AccountSnapshot}
      (delegate : Address) (allowance : Nat) :
      state.chain.accounts setting.account = some account →
      MandateStep setting state (.approve delegate allowance)
        { chain := state.chain.setAccount setting.account <| some
            { account with
              delegate := some delegate
              delegatedAmount := allowance }
          approved := some (delegate, allowance)
          debited := 0 }
  | revoke {state : MandateState} {account : AccountSnapshot} :
      state.chain.accounts setting.account = some account →
      MandateStep setting state .revoke
        { state with
          chain := state.chain.setAccount setting.account <| some
            { account with delegate := none, delegatedAmount := 0 } }
  | transfer {state : MandateState} {account : AccountSnapshot}
      {chain : TokenChain} {mint destination : Address}
      {amount decimals fee : Nat} :
      state.chain.accounts setting.account = some account →
      state.chain.transferChecked [account.owner] setting.account mint
        destination account.owner amount decimals fee = some chain →
      MandateStep setting state
        (.transfer mint destination amount decimals fee) { state with chain }
  | invoke {state : MandateState} {call : AgentCall Data} {chain : TokenChain} :
      setting.Executes call state.chain chain →
      MandateStep setting state (.invoke call)
        { state with
          chain
          debited := state.debited +
            (balanceOf state.chain setting.account -
              balanceOf chain setting.account) }
  | other {state : MandateState} {chain : TokenChain} :
      setting.LeavesAlone state.chain chain → setting.Unsigned chain →
      MandateStep setting state .other { state with chain }

/-- A payment of a mandate: the delegate of the account is the address that
the destination and the amount derive, the amount leaves the account and its
allowance, and it arrives at the destination. -/
structure Payment (setting : MandateSetting Data) (before after : TokenChain)
    where
  destination : Address
  amount : UInt64
  mandate : Address
  bump : UInt8
  account : AccountSnapshot
  paid : AccountSnapshot
  payee : AccountSnapshot
  received : AccountSnapshot
  derived :
    mandateAddress setting.hash setting.account destination amount =
      some (mandate, bump)
  accountFound : before.accounts setting.account = some account
  paidFound : after.accounts setting.account = some paid
  owner : paid.owner = account.owner
  delegated : account.delegate = some mandate
  delegateLeft : paid.delegate = some mandate ∨ paid.delegate = none
  enough : amount.toNat ≤ account.amount
  debited : paid.amount = account.amount - amount.toNat
  allowed : amount.toNat ≤ account.delegatedAmount
  allowanceLeft :
    paid.delegatedAmount = account.delegatedAmount - amount.toNat
  away : destination ≠ setting.account
  payeeFound : before.accounts destination = some payee
  receivedFound : after.accounts destination = some received
  credited :
    received.amount + received.withheldFee.getD 0 =
      payee.amount + payee.withheldFee.getD 0 + amount.toNat
  elsewhere : ∀ address, address ≠ setting.account → address ≠ destination →
    after.accounts address = before.accounts address

/-- The account was debited, if at all, by a payment of the mandate that its
owner had approved and not revoked. -/
def Mandated (setting : MandateSetting Data) (before : MandateState)
    (after : TokenChain) : Prop :=
  balanceOf after setting.account < balanceOf before.chain setting.account →
    ∃ (payment : Payment setting before.chain after) (allowance : Nat),
      before.approved = some (payment.mandate, allowance)

namespace MandateState

/-- What the agent has debited under an approval of a mandate is a multiple of
its amount and at most the allowance. -/
def WithinAllowance (setting : MandateSetting Data) (state : MandateState) :
    Prop :=
  ∀ destination amount mandate bump allowance,
    mandateAddress setting.hash setting.account destination amount =
        some (mandate, bump) →
      state.approved = some (mandate, allowance) →
        amount.toNat ∣ state.debited ∧ state.debited ≤ allowance

/-- A state from which the approvals are recorded.  The agent cannot sign for
the owner of the account or for a permanent delegate. -/
structure Started (setting : MandateSetting Data) (state : MandateState) :
    Prop where
  owner : ∀ account, state.chain.accounts setting.account = some account →
    ¬ setting.Signable account.owner
  unsigned : setting.Unsigned state.chain
  approved : ∀ account delegate,
    state.chain.accounts setting.account = some account →
      account.delegate = some delegate →
        state.approved = some (delegate, account.delegatedAmount)
  debited : state.debited = 0

/-- What is left of an allowance that the agent can use and what it has debited
make up the allowance. -/
structure Sound (setting : MandateSetting Data) (state : MandateState) :
    Prop where
  owner : ∀ account, state.chain.accounts setting.account = some account →
    ¬ setting.Signable account.owner
  unsigned : setting.Unsigned state.chain
  allowance : ∀ account delegate,
    state.chain.accounts setting.account = some account →
      account.delegate = some delegate → setting.Signable delegate →
        state.approved =
          some (delegate, account.delegatedAmount + state.debited)
  within : state.WithinAllowance setting

theorem Started.sound
    {setting : MandateSetting Data} {state : MandateState}
    (started : state.Started setting) : state.Sound setting where
  owner := started.owner
  unsigned := started.unsigned
  allowance account delegate found delegated _ := by
    rw [started.debited, Nat.add_zero]
    exact started.approved account delegate found delegated
  within _ _ _ _ allowance _ _ := by
    rw [started.debited]
    exact ⟨Nat.dvd_zero _, Nat.zero_le allowance⟩

end MandateState

/-! ## What a call of the agent does -/

section Executing

variable {setting : MandateSetting Data} {chain after : TokenChain}

theorem mandateAddress_signable
    {source destination mandate : Address} {amount : UInt64} {bump : UInt8}
    (found :
      mandateAddress setting.hash source destination amount =
        some (mandate, bump)) :
    setting.Signable mandate :=
  ⟨_, findProgramAddress_eq_some found⟩

/-- Only one pair of a destination and an amount has a mandate address. -/
theorem mandateAddress_injective
    (collisionFree : CollisionFree setting.hash)
    {source destination otherDestination mandate : Address}
    {amount otherAmount : UInt64} {bump otherBump : UInt8}
    (first :
      mandateAddress setting.hash source destination amount =
        some (mandate, bump))
    (second :
      mandateAddress setting.hash source otherDestination otherAmount =
        some (mandate, otherBump)) :
    destination = otherDestination ∧ amount = otherAmount := by
  have sameBytes := flatten_eq_of_createProgramAddress collisionFree
    (findProgramAddress_eq_some first) (findProgramAddress_eq_some second)
  exact (mandateSeeds_injective sameBytes).2

/-- Whatever it is called with, the agent transfers the amount of a mandate
between its accounts, with the mandate address as the authority. -/
theorem MandateSetting.Executes.transfers
    {call : AgentCall Data} (executes : setting.Executes call chain after) :
    ∃ signers source destination mint mandate amount bump decimals fee,
      mandateAddress setting.hash source destination amount =
          some (mandate, bump) ∧
        chain.transferChecked signers source mint destination mandate
          amount.toNat decimals fee = some after := by
  cases executes with
  | @mk invocation derived _ processed _ invokes =>
      obtain ⟨source, destination, mint, mandate, amount, bump, decimals, fee,
        found, ofToken2022, transfers, _⟩ := processInstruction_eq_ok processed
      cases invokes with
      | token _ carried =>
          rw [transfers] at carried
          exact ⟨_, source, destination, mint, mandate, amount, bump, decimals,
            fee, found, carried⟩
      | foreign _ other => exact absurd ofToken2022 other

/-- What a credit leaves of the account and of its allowance. -/
structure Kept (before after : AccountSnapshot) : Prop where
  owner : after.owner = before.owner
  delegate : after.delegate = before.delegate
  delegatedAmount : after.delegatedAmount = before.delegatedAmount
  amount : before.amount ≤ after.amount

abbrev Undebited :=
  Option.Rel Kept

theorem Undebited.refl (account : Option AccountSnapshot) :
    Undebited account account := by
  cases account with
  | none => exact .none
  | some account => exact .some ⟨rfl, rfl, rfl, Nat.le_refl _⟩

theorem Undebited.earlier
    {before : Option AccountSnapshot} {left : AccountSnapshot}
    (undebited : Undebited before (some left)) :
    ∃ earlier, before = some earlier ∧ Kept earlier left := by
  cases undebited with
  | some kept => exact ⟨_, rfl, kept⟩

theorem Undebited.balanceOf
    {address : Address}
    (undebited :
      Undebited (chain.accounts address) (after.accounts address)) :
    balanceOf chain address ≤ Agent.balanceOf after address := by
  unfold Agent.balanceOf
  generalize chain.accounts address = before at undebited ⊢
  generalize after.accounts address = left at undebited ⊢
  cases undebited with
  | none => exact Nat.le_refl _
  | some kept => exact kept.amount

/-- A call of the agent leaves the account undebited or makes a payment. -/
theorem MandateSetting.Executes.cases
    {call : AgentCall Data} (executes : setting.Executes call chain after)
    (unowned : ∀ account, chain.accounts setting.account = some account →
      ¬ setting.Signable account.owner)
    (unsigned : setting.Unsigned chain) :
    Undebited (chain.accounts setting.account)
        (after.accounts setting.account) ∨
      Nonempty (Payment setting chain after) := by
  obtain ⟨signers, source, destination, mint, mandate, amount, bump, decimals,
    fee, found, transferred⟩ := executes.transfers
  obtain ⟨payer, payee, mintState, paid, payerFound, payeeFound, mintFound,
    _, _, _, debits, moved⟩ := TokenChain.transferChecked_eq_some transferred
  rcases moved with ⟨_, rfl⟩ | ⟨different, received, credits, rfl⟩
  · exact .inl (.refl _)
  obtain ⟨receivedTerms, credited, sameDelegate, sameAllowance, grown⟩ :=
    AccountSnapshot.creditedWith_eq_some credits
  by_cases isSource : setting.account = source
  · subst isSource
    obtain ⟨enough, debited, terms, entitled, spends⟩ :=
      AccountSnapshot.debitedBy_eq_some debits
    have signable : setting.Signable mandate := mandateAddress_signable found
    have notPermanent : mintState.permanentDelegate ≠ some mandate :=
      fun permanent => unsigned mint mintState mintFound mandate permanent
        signable
    have notOwner : payer.owner ≠ mandate := by
      intro owned
      apply unowned payer payerFound
      rw [owned]
      exact signable
    have delegated : payer.delegate = some mandate := by
      rcases entitled with permanent | owned | delegated
      · exact absurd permanent notPermanent
      · exact absurd owned notOwner
      · exact delegated
    obtain ⟨allowed, allowanceLeft, delegateLeft⟩ :=
      spends notPermanent delegated
    have away : destination ≠ setting.account := different.symm
    refine .inr ⟨
      { destination, amount, mandate, bump, account := payer, paid, payee
        received, derived := found, accountFound := payerFound
        paidFound := ?_, owner := terms.owner, delegated, delegateLeft, enough
        debited, allowed, allowanceLeft, away, payeeFound
        receivedFound := TokenChain.setAccount_self .., credited
        elsewhere := ?_ }⟩
    · rw [TokenChain.setAccount_of_ne _ different, TokenChain.setAccount_self]
    · intro address awayFromSource awayFromDestination
      rw [TokenChain.setAccount_of_ne _ awayFromDestination,
        TokenChain.setAccount_of_ne _ awayFromSource]
  · left
    by_cases isDestination : setting.account = destination
    · rw [isDestination, TokenChain.setAccount_self, payeeFound]
      exact .some ⟨receivedTerms.owner, sameDelegate, sameAllowance, grown⟩
    · rw [TokenChain.setAccount_of_ne _ isDestination,
        TokenChain.setAccount_of_ne _ isSource]
      exact .refl _

theorem MandateSetting.Executes.mints
    {call : AgentCall Data} (executes : setting.Executes call chain after) :
    after.mints = chain.mints := by
  obtain ⟨_, _, _, _, _, _, _, _, _, _, transferred⟩ := executes.transfers
  exact (TokenChain.transferChecked_sameTerms transferred).1

theorem Payment.balance (payment : Payment setting chain after) :
    balanceOf chain setting.account =
      balanceOf after setting.account + payment.amount.toNat := by
  have enough := payment.enough
  simp only [balanceOf, payment.accountFound, payment.paidFound,
    Option.elim_some, payment.debited]
  omega

end Executing

/-! ## Mandates are kept -/

namespace MandateState

variable {setting : MandateSetting Data} {state after : MandateState}

/-- A step that leaves the allowances alone keeps the state sound. -/
theorem Sound.leftAlone
    {chain : TokenChain} (sound : state.Sound setting)
    (alone : setting.LeavesAlone state.chain chain)
    (unsigned : setting.Unsigned chain) :
    Sound setting { state with chain } where
  owner account found := by
    obtain ⟨earlier, before, sameOwner, _⟩ := alone account found
    rw [sameOwner]
    exact sound.owner earlier before
  unsigned := unsigned
  allowance account delegate found delegated signable := by
    obtain ⟨earlier, before, _, keeps⟩ := alone account found
    obtain ⟨sameDelegate, sameAllowance⟩ := keeps delegate delegated signable
    rw [sameAllowance]
    exact sound.allowance earlier delegate before sameDelegate signable
  within := sound.within

/-- What the owner transfers is no allowance of the agent's. -/
theorem Sound.transfer
    {account : AccountSnapshot} {chain : TokenChain}
    {mint destination : Address} {amount decimals fee : Nat}
    (sound : state.Sound setting)
    (found : state.chain.accounts setting.account = some account)
    (transferred :
      state.chain.transferChecked [account.owner] setting.account mint
        destination account.owner amount decimals fee = some chain) :
    setting.LeavesAlone state.chain chain := by
  obtain ⟨payer, payee, _, paid, payerFound, payeeFound, _, _, _, _, debits,
    moved⟩ := TokenChain.transferChecked_eq_some transferred
  rw [found] at payerFound
  cases payerFound
  intro left present
  refine ⟨account, found, ?_⟩
  rcases moved with ⟨_, rfl⟩ | ⟨different, received, credits, rfl⟩
  · rw [found] at present
    cases present
    exact ⟨rfl, fun delegate delegated _ => ⟨delegated, rfl⟩⟩
  · rw [TokenChain.setAccount_of_ne _ different, TokenChain.setAccount_self]
      at present
    cases present
    refine ⟨(AccountSnapshot.debitedBy_eq_some debits).2.2.1.owner, ?_⟩
    intro delegate delegated signable
    have notOwner : account.owner ≠ delegate := by
      intro owned
      apply sound.owner account found
      rw [owned]
      exact signable
    exact AccountSnapshot.debitedBy_delegate debits notOwner delegated

/-- A payment uses up as much of the allowance as it debits. -/
theorem Sound.pay
    (collisionFree : CollisionFree setting.hash) {chain : TokenChain}
    (sound : state.Sound setting) (payment : Payment setting state.chain chain)
    (mints : chain.mints = state.chain.mints) :
    Sound setting
      { state with
        chain
        debited := state.debited +
          (balanceOf state.chain setting.account -
            balanceOf chain setting.account) } := by
  have approved := sound.allowance payment.account payment.mandate
    payment.accountFound payment.delegated
    (mandateAddress_signable payment.derived)
  have taken :
      balanceOf state.chain setting.account - balanceOf chain setting.account =
        payment.amount.toNat := by
    rw [payment.balance]
    omega
  have allowed := payment.allowed
  rw [taken]
  exact
    { owner := by
        intro account found
        have same := payment.paidFound.symm.trans found
        cases same
        rw [payment.owner]
        exact sound.owner payment.account payment.accountFound
      unsigned := by
        intro address mint found
        rw [mints] at found
        exact sound.unsigned address mint found
      allowance := by
        intro account delegate found delegated _
        have same := payment.paidFound.symm.trans found
        cases same
        have sameDelegate : delegate = payment.mandate := by
          rcases payment.delegateLeft with left | gone
          · exact Option.some.inj (delegated.symm.trans left)
          · rw [gone] at delegated
            cases delegated
        rw [sameDelegate, approved, payment.allowanceLeft]
        congr 2
        dsimp only
        omega
      within := by
        intro destination amount mandate bump allowance derived recorded
        have same := approved.symm.trans recorded
        cases same
        obtain ⟨_, sameAmount⟩ :=
          mandateAddress_injective collisionFree payment.derived derived
        have before := sound.within destination amount payment.mandate bump _
          derived approved
        subst sameAmount
        refine ⟨Nat.dvd_add before.1 (Nat.dvd_refl _), ?_⟩
        dsimp only
        omega }

/-- Every step keeps the state sound. -/
theorem Sound.step
    (collisionFree : CollisionFree setting.hash) {event : MandateEvent Data}
    (sound : state.Sound setting)
    (step : MandateStep setting state event after) :
    after.Sound setting := by
  cases step with
  | @approve account delegate allowance found =>
      refine
        { owner := ?_
          unsigned := sound.unsigned
          allowance := ?_
          within := fun _ _ _ _ _ _ _ =>
            ⟨Nat.dvd_zero _, Nat.zero_le _⟩ }
      · intro left present
        rw [TokenChain.setAccount_self] at present
        cases present
        exact sound.owner account found
      · intro left other present delegated _
        rw [TokenChain.setAccount_self] at present
        cases present
        cases delegated
        rfl
  | @revoke account found =>
      refine sound.leftAlone ?_ sound.unsigned
      intro left present
      rw [TokenChain.setAccount_self] at present
      cases present
      exact ⟨account, found, rfl, fun _ impossible => by cases impossible⟩
  | transfer found transferred =>
      refine sound.leftAlone (sound.transfer found transferred) ?_
      unfold MandateSetting.Unsigned
      rw [(TokenChain.transferChecked_sameTerms transferred).1]
      exact sound.unsigned
  | other alone unsigned => exact sound.leftAlone alone unsigned
  | @invoke call chain executes =>
      rcases executes.cases sound.owner sound.unsigned with
        undebited | ⟨⟨payment⟩⟩
      · have nothing :
            balanceOf state.chain setting.account -
              balanceOf chain setting.account = 0 :=
          Nat.sub_eq_zero_of_le undebited.balanceOf
        rw [nothing, Nat.add_zero]
        refine sound.leftAlone ?_ ?_
        · intro left present
          rw [present] at undebited
          obtain ⟨earlier, before, kept⟩ := undebited.earlier
          refine ⟨earlier, before, kept.owner, ?_⟩
          intro delegate delegated _
          exact ⟨kept.delegate ▸ delegated, kept.delegatedAmount⟩
        · unfold MandateSetting.Unsigned
          rw [executes.mints]
          exact sound.unsigned
      · exact sound.pay collisionFree payment executes.mints

/-- What a call of the agent debits is a payment that the owner approved. -/
theorem Sound.mandated
    {call : AgentCall Data} (sound : state.Sound setting)
    (step : MandateStep setting state (.invoke call) after) :
    Mandated setting state after.chain := by
  intro less
  cases step with
  | @invoke _ chain executes =>
      rcases executes.cases sound.owner sound.unsigned with
        undebited | ⟨⟨payment⟩⟩
      · have grown := undebited.balanceOf
        exact absurd less (Nat.not_lt.mpr grown)
      · exact ⟨payment, _, sound.allowance payment.account payment.mandate
          payment.accountFound payment.delegated
          (mandateAddress_signable payment.derived)⟩

end MandateState

/-- In every run of owner actions, calls of the agent and steps of others, each
debit by the agent is a payment of the mandate that is approved at that moment,
and all that it debits under an approval is a multiple of the amount within the
allowance. -/
theorem mandates_are_safe
    {setting : MandateSetting Data} {start : MandateState}
    {trace : List (MandateEvent Data × MandateState)}
    (collisionFree : CollisionFree setting.hash)
    (started : start.Started setting)
    (run : Run (MandateStep setting) start trace) :
    (∀ before call after,
        (before, .invoke call, after) ∈ transitions start trace →
          Mandated setting before after.chain) ∧
      ∀ state ∈ visited start trace, state.WithinAllowance setting := by
  have kept : ∀ state event after, MandateState.Sound setting state →
      MandateStep setting state event after → after.Sound setting :=
    fun _ _ _ sound step => sound.step collisionFree step
  constructor
  · intro before call after member
    obtain ⟨sound, step⟩ :=
      run.transition started.sound kept before (.invoke call) after member
    exact sound.mandated step
  · intro state member
    exact (run.invariant started.sound kept state member).within

/-! ## A payment out of an allowance -/

namespace Quiet

open Transparent Remit.Quiet

/-- The address derived for Alice's payments of 100 to Bob. -/
def mandate : Address :=
  Address.filled 9

/-- A hash of the bytes that are hashed here. -/
def mandateHash : AddressHash := fun bytes =>
  if bytes =
      (mandateSeeds alice bob 100 ++ [[255]]).flatten ++ ID.bytes ++
        PDA_MARKER then
    some mandate
  else none

def mandateSetting : MandateSetting TokenData where
  programs := programs
  interface := Layout.interface
  hash := mandateHash
  account := alice

/-- An account that a caller passes. -/
def passed (key owner : Address) (data : TokenData) : AccountInfo TokenData :=
  ⟨key, false, true, owner, data⟩

/-- The keeper's call. -/
def keeperCall : AgentCall TokenData where
  signers := []
  accounts :=
    [passed alice programs.token2022 (Layout.writeMint sharedMint),
      passed sharedMint.address programs.token2022
        (Layout.writeMint sharedMint),
      passed bob programs.token2022 (Layout.writeMint sharedMint),
      passed mandate programs.system (Layout.writeMint sharedMint),
      passed programs.token2022 programs.system
        (Layout.writeMint sharedMint)]
  instructionData := (AgentInstruction.executeMandate 100).pack

def payer : AccountSnapshot :=
  openAccount alice 1000

def payee : AccountSnapshot :=
  { openAccount bob 0 with withheldFee := some 0 }

def unmandated : MandateState where
  chain :=
    { accounts := fun address =>
        if address = alice then some payer
        else if address = bob then some payee
        else none
      mints := fun address =>
        if address = sharedMint.address then some sharedMint else none
      epoch := 0 }
  approved := none
  debited := 0

/-- Alice approves payments of 100 up to 250. -/
def approvedState : MandateState where
  chain := unmandated.chain.setAccount alice <| some
    { payer with delegate := some mandate, delegatedAmount := 250 }
  approved := some (mandate, 250)
  debited := 0

/-- The chain once the keeper has called the agent. -/
def paidChain : TokenChain :=
  (approvedState.chain.setAccount alice <| some
    { payer with
      amount := 900
      delegate := some mandate
      delegatedAmount := 150 }).setAccount bob <| some
    { payee with amount := 99, withheldFee := some 1 }

def paidTrace : List (MandateEvent TokenData × MandateState) :=
  [(.approve mandate 250, approvedState),
    (.invoke keeperCall,
      { approvedState with
        chain := paidChain
        debited := approvedState.debited +
          (balanceOf approvedState.chain alice - balanceOf paidChain alice) })]

theorem mandateHash_collisionFree : CollisionFree mandateHash := by
  intro left right address first second
  unfold mandateHash at first second
  split at first
  case isFalse => cases first
  case isTrue leftIs =>
      split at second
      case isFalse => cases second
      case isTrue rightIs => rw [leftIs, rightIs]

/-- The agent can sign for the mandate address only. -/
theorem signable_mandate
    {address : Address} (signable : mandateSetting.Signable address) :
    address = mandate := by
  obtain ⟨seeds, created⟩ := signable
  have hashed := createProgramAddress_eq_some created
  change mandateHash _ = some address at hashed
  unfold mandateHash at hashed
  split at hashed
  case isTrue => exact (Option.some.inj hashed).symm
  case isFalse => cases hashed

theorem unmandated_started : unmandated.Started mandateSetting where
  owner := by
    rintro account ⟨⟩ signable
    exact absurd (signable_mandate signable) (by decide)
  unsigned := by
    intro address mint found delegate permanent
    by_cases here : address = sharedMint.address
    · have same : sharedMint = mint := by
        simpa [unmandated, here] using found
      rw [← same] at permanent
      cases permanent
    · simp [unmandated, here] at found
  approved := by
    rintro account delegate ⟨⟩ ⟨⟩
  debited := rfl

theorem keeperCall_executes :
    mandateSetting.Executes keeperCall approvedState.chain paidChain := by
  have processed :
      processInstruction mandateHash programs Layout.interface 0 ID
          keeperCall.accounts keeperCall.instructionData =
        .ok
          { program := programs.token2022
            instruction :=
              .transferCheckedWithFee alice sharedMint.address bob mandate 100
                2 1
            accounts := keeperCall.accounts
            signerSeeds := [mandateSeeds alice bob 100 ++ [[255]]] } := by
    decide +kernel
  have derived :
      [mandateSeeds alice bob 100 ++ [[255]]].mapM
          (createProgramAddress mandateHash · ID) = some [mandate] := by
    decide +kernel
  exact .mk processed derived (.token rfl rfl)

theorem paidTrace_run :
    Run (MandateStep mandateSetting) unmandated paidTrace := by
  have approves :
      MandateStep mandateSetting unmandated (.approve mandate 250)
        approvedState :=
    MandateStep.approve mandate 250 (rfl : unmandated.chain.accounts alice =
      some payer)
  exact .next approves (.next (.invoke keeperCall_executes) (.stay _))

theorem keeper_is_safe :
    balanceOf approvedState.chain alice = balanceOf paidChain alice + 100 ∧
      (∀ before call after,
        (before, .invoke call, after) ∈ transitions unmandated paidTrace →
          Mandated mandateSetting before after.chain) ∧
      ∀ state ∈ visited unmandated paidTrace,
        state.WithinAllowance mandateSetting :=
  ⟨rfl, mandates_are_safe mandateHash_collisionFree unmandated_started
    paidTrace_run⟩

end Quiet
end Agent
end Remit
