import Remit.Cluster.Quiet
import Remit.Token.Landing

/-!
# A busy cluster

A cluster on which others act around every transaction.  What they do is a
script: one turn for each transaction that is sent, the first part before the
cluster decides about it and the second part after.  What Token-2022 does to
the data, and with which error it refuses to, are parameters.
-/

namespace Remit
namespace Busy

open Quiet (Tokens)

/-- The data of mints and token accounts, and the epoch. -/
structure Ledger where
  tokens : Tokens
  epoch : Nat

/-- What others do around a transaction. -/
structure Turn where
  before : Ledger → Ledger
  after : Ledger → Ledger

structure State where
  accounts : Accounts
  ledger : Ledger
  turns : List Turn

/-- The mints and token accounts, as far as they decode. -/
def Ledger.chain (ledger : Ledger) : TokenChain where
  accounts := Quiet.decoded ledger.tokens
  mints address :=
    (ledger.tokens address).bind fun data =>
      (MintSnapshot.decode Layout.interface address data 0).toOption
  epoch := ledger.epoch

/-- What the Token-2022 instructions of a transaction do to the data, if they
can be carried out. -/
abbrev Effect :=
  List Address → List TokenInstruction → State → Option Tokens

/-- The error of a transaction that cannot be carried out. -/
abbrev Refusal :=
  State → List Instruction → Error

/-- No reason is given. -/
def unexplained : Refusal :=
  fun _ _ => .transaction (.other 0) []

/-! ## Writing back -/

/-- The data once some addresses were written. -/
def written (tokens : Tokens) (chain : TokenChain)
    (touched : List Address) : Tokens :=
  fun address =>
    if address ∈ touched then
      match chain.accounts address with
      | some account => some (Layout.writeAccount account)
      | none => (chain.mints address).map Layout.writeMint
    else tokens address

@[simp]
theorem written_nil (tokens : Tokens) (chain : TokenChain) :
    written tokens chain [] = tokens :=
  funext fun address => if_neg (List.not_mem_nil (a := address))

/-- Write a chain back, if what it has at the written addresses has a
layout. -/
def writeBack (ledger : Ledger) (chain : TokenChain)
    (touched : List Address) : Option Tokens :=
  let next : Ledger := ⟨written ledger.tokens chain touched, ledger.epoch⟩
  if ∀ address ∈ touched,
      next.chain.accounts address = chain.accounts address ∧
        next.chain.mints address = chain.mints address then
    some next.tokens
  else none

theorem writeBack_eq_some
    {ledger : Ledger} {chain : TokenChain} {touched : List Address}
    {tokens : Tokens}
    (wrote : writeBack ledger chain touched = some tokens)
    (elsewhere : ∀ address, address ∉ touched →
      chain.accounts address = ledger.chain.accounts address ∧
        chain.mints address = ledger.chain.mints address)
    (sameEpoch : chain.epoch = ledger.epoch) :
    Ledger.chain ⟨tokens, ledger.epoch⟩ = chain := by
  unfold writeBack at wrote
  dsimp only at wrote
  split at wrote
  case isFalse => cases wrote
  case isTrue laidOut =>
      cases wrote
      have agree : ∀ address,
          (Ledger.chain ⟨written ledger.tokens chain touched,
              ledger.epoch⟩).accounts address = chain.accounts address ∧
            (Ledger.chain ⟨written ledger.tokens chain touched,
              ledger.epoch⟩).mints address = chain.mints address := by
        intro address
        by_cases here : address ∈ touched
        · exact laidOut address here
        · rw [(elsewhere address here).1, (elsewhere address here).2]
          simp only [Ledger.chain, Quiet.decoded, written, if_neg here,
            and_self]
      exact TokenChain.ext (funext fun address => (agree address).1)
        (funext fun address => (agree address).2) sameEpoch.symm

/-! ## The cluster -/

variable (refusal : Refusal) (effect : Effect)

/-- The state after a transaction, if it can be carried out. -/
def process (state : State) (transaction : List Instruction)
    (signers : List Keypair) : Option State :=
  let keys := Quiet.payer :: signers.map (·.pubkey)
  match runTransaction Quiet.programs keys transaction state.accounts with
  | none => none
  | some accounts =>
      (effect keys (tokenInstructions transaction) state).map fun tokens =>
        ⟨accounts, ⟨tokens, state.ledger.epoch⟩, state.turns⟩

/-- The turn for the next transaction. -/
def State.turn (state : State) : Turn :=
  state.turns.headD ⟨id, id⟩

/-- The state in which the cluster decides about a transaction. -/
def State.reached (state : State) : State :=
  { state with
    ledger := state.turn.before state.ledger
    turns := state.turns.tail }

/-- The state once the others have acted after a transaction. -/
def State.left (state : State) (turn : Turn) : State :=
  { state with ledger := turn.after state.ledger }

def send (state : State) (transaction : List Instruction)
    (signers : List Keypair) : Delivery State :=
  match process effect state.reached transaction signers with
  | some after =>
      ⟨.ok ⟨0, 0, []⟩, state.reached, after, after.left state.turn⟩
  | none =>
      ⟨.error (refusal state.reached transaction), state.reached,
        state.reached, state.reached.left state.turn⟩

section Sending

variable {refusal} {effect} {state : State} {transaction : List Instruction}
  {signers : List Keypair}

theorem process_eq_some
    {next : State}
    (processed : process effect state transaction signers = some next) :
    runTransaction Quiet.programs (Quiet.payer :: signers.map (·.pubkey))
        transaction state.accounts = some next.accounts ∧
      effect (Quiet.payer :: signers.map (·.pubkey))
        (tokenInstructions transaction) state = some next.ledger.tokens ∧
      next.ledger.epoch = state.ledger.epoch := by
  unfold process at processed
  dsimp only at processed
  split at processed
  case h_1 => cases processed
  case h_2 accounts ran =>
      obtain ⟨tokens, carried, rfl⟩ := Option.map_eq_some_iff.mp processed
      exact ⟨ran, carried, rfl⟩

theorem send_attempts :
    (send refusal effect state transaction signers).Attempts state.reached
      (process effect state.reached transaction signers)
      (·.left state.turn) := by
  unfold send
  cases process effect state.reached transaction signers with
  | none => exact .leftAlone state.reached (·.left state.turn) _
  | some after => exact .carriedOut state.reached (·.left state.turn) _ after

/-- A transaction that fails is refused. -/
theorem send_refused
    {error : Error}
    (failed :
      (send refusal effect state transaction signers).outcome = .error error) :
    error = refusal state.reached transaction := by
  unfold send at failed
  split at failed
  case h_1 => cases failed
  case h_2 =>
      cases failed
      rfl

end Sending

/-- The cluster.  Others hold no key of a proof account or a mint. -/
def clusterOf : Cluster where
  programs := Quiet.programs
  State := State
  Data := TokenData
  interface := Layout.interface
  payer := Quiet.payer
  keypairs := Quiet.keypair
  held _ := True
  accountData state address := state.ledger.tokens address
  lamports _ _ := 0
  epoch state := state.ledger.epoch
  minimumBalanceForRentExemption _ space := space
  send := send refusal effect
  accounts := State.accounts
  held_payer := trivial
  held_keypair _ := trivial
  outsiders_before state transaction signers := by
    rw [send_attempts.before]
    exact .refl _
  landed state transaction signers receipt landed := by
    have processed := send_attempts.ok landed
    rw [send_attempts.before]
    exact (process_eq_some processed).1
  not_landed state transaction signers error failed := by
    rw [send_attempts.before, send_attempts.error failed]
  outsiders_after state transaction signers := by
    rw [send_attempts.next]
    exact .refl _

/-- The cluster that gives no reasons. -/
def cluster : Cluster :=
  clusterOf unexplained effect

/-! ## Public instructions -/

/-- Carry out public instructions. -/
def publicEffect : Effect := fun signers instructions state =>
  if instructions.all TokenInstruction.isPublic then
    match state.ledger.chain.carryOutAll signers instructions with
    | none => none
    | some chain =>
        writeBack state.ledger chain (instructions.flatMap (·.touched))
  else none

theorem publicEffect_eq_some
    {signers : List Address} {instructions : List TokenInstruction}
    {state : State} {tokens : Tokens}
    (carried : publicEffect signers instructions state = some tokens) :
    state.ledger.chain.carryOutAll signers instructions =
      some (Ledger.chain ⟨tokens, state.ledger.epoch⟩) := by
  unfold publicEffect at carried
  split at carried
  case isFalse => cases carried
  case isTrue =>
      split at carried
      case h_1 => cases carried
      case h_2 chain ran =>
          rw [writeBack_eq_some carried (fun address away => ?_)
            (TokenChain.carryOutAll_epoch ran), ran]
          refine ⟨TokenChain.carryOutAll_elsewhere ran fun one member =>
            ?_, congrFun (TokenChain.carryOutAll_mints ran) address⟩
          exact fun touched =>
            away (List.mem_flatMap.mpr ⟨one, member, touched⟩)

/-- An effect that does what `publicEffect` does to public instructions. -/
def CarriesOutPublic (effect : Effect) : Prop :=
  ∀ signers (instructions : List TokenInstruction) state,
    instructions.all TokenInstruction.isPublic = true →
      effect signers instructions state =
        publicEffect signers instructions state

theorem CarriesOutPublic.lands
    {refusal : Refusal} {effect : Effect}
    (carriesOut : CarriesOutPublic effect) {state : State}
    {instructions : List TokenInstruction} {signers : List Keypair}
    {receipt : Receipt}
    (isPublic : instructions.all TokenInstruction.isPublic = true)
    (landed :
      (send refusal effect state (instructions.map .token) signers).outcome =
        .ok receipt) :
    let delivery := send refusal effect state (instructions.map .token) signers
    delivery.before.ledger.chain.carryOutAll
        (Quiet.payer :: signers.map (·.pubkey)) instructions =
      some delivery.after.ledger.chain := by
  have processed := process_eq_some (send_attempts.ok landed)
  rw [tokenInstructions_map, carriesOut _ _ _ isPublic] at processed
  have carried := publicEffect_eq_some processed.2.1
  rw [← processed.2.2] at carried
  dsimp only
  rw [send_attempts.before]
  exact carried

theorem CarriesOutPublic.contract
    {refusal : Refusal} {effect : Effect}
    (carriesOut : CarriesOutPublic effect) :
    PublicContract (clusterOf refusal effect) where
  carriesOut _ _ _ _ isPublic landed := carriesOut.lands isPublic landed
  leavesAlone _ _ _ _ failed :=
    congrArg (·.ledger.chain)
      ((send_attempts.error failed).trans send_attempts.before.symm)

theorem publicContract : PublicContract (cluster publicEffect) :=
  CarriesOutPublic.contract fun _ _ _ _ => rfl

/-! ## A stablecoin -/

/-- The data at given addresses. -/
def tokensAt (entries : List (Address × TokenData)) : Tokens :=
  fun address => (entries.find? (·.1 = address)).map (·.2)

def stablecoin : Address :=
  Address.filled 3

def freezeAuthority : Keypair :=
  ⟨Address.filled 31⟩

def seizureAuthority : Keypair :=
  ⟨Address.filled 32⟩

def feeWithdrawAuthority : Keypair :=
  ⟨Address.filled 33⟩

/-- A mint whose accounts can be frozen and seized, with a fee. -/
def stablecoinData (older newer : TransferFee) : TokenData :=
  .mint ⟨none, 0, 2, some freezeAuthority.pubkey⟩
    [⟨.transferFeeConfig, Layout.writeFeeConfig
        ⟨none, some feeWithdrawAuthority.pubkey, 0, older, newer⟩⟩,
      ⟨.permanentDelegate, seizureAuthority.pubkey.bytes⟩]

/-- An account of the stablecoin. -/
def holding (owner : Address) (amount : Nat) (state : AccountState)
    (withheld : Nat) : TokenData :=
  .account ⟨stablecoin, owner, amount, none, state, 0⟩
    [⟨.transferFeeAmount, leBytes 8 withheld⟩]

end Busy
end Remit
