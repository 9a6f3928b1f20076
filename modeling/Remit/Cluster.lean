import Remit.Library.Flow
import Remit.Solana.AccountFrames
import Remit.Solana.Encoding
import Remit.Token.Interface

/-!
# The cluster

The I/O boundary.  A cluster may do anything between two of our calls; what
`send` promises is that the transaction either lands, all of it, or does not
land at all, and that the result tells which.  Other parties act before and
after the landing, with the keys they hold.

`World` is a cluster in some state, together with how many keypairs were drawn
and what was sent to get there.
-/

namespace Remit

open Flows

/-- What a landed transaction cost. -/
structure Receipt where
  computeUnits : Nat
  size : Nat
  logs : List String
deriving DecidableEq

/-- What became of a sent transaction: the result returned, the states right
before and right after the cluster decided about it, and the state in which
`send` returns. -/
structure Delivery (State : Type) where
  outcome : Except Error Receipt
  before : State
  after : State
  next : State

/-- The delivery of a transaction that is carried out on a state or leaves it
alone, before others act. -/
structure Delivery.Attempts {State : Type} (delivery : Delivery State)
    (reached : State) (processed : Option State) (left : State → State) :
    Prop where
  before : delivery.before = reached
  next : delivery.next = left delivery.after
  ok : ∀ {receipt}, delivery.outcome = .ok receipt →
    processed = some delivery.after
  error : ∀ {error}, delivery.outcome = .error error →
    delivery.after = reached

namespace Delivery.Attempts

variable {State : Type} (state : State) (left : State → State)

theorem carriedOut (receipt : Receipt) (after : State) :
    Attempts ⟨.ok receipt, state, after, left after⟩ state (some after)
      left where
  before := rfl
  next := rfl
  ok _ := rfl
  error failed := by cases failed

theorem leftAlone (error : Error) :
    Attempts ⟨.error error, state, state, left state⟩ state none left where
  before := rfl
  next := rfl
  ok landed := by cases landed
  error _ := rfl

end Delivery.Attempts

/-- A cluster that obeys the contract of `send`.

`accounts` is the part of a state that proof accounts and mints are part of,
`keypairs` is the supply that `Keypair::new` draws from, and `held` are the
keys no outsider can sign with. -/
structure Cluster where
  programs : Programs
  State : Type
  Data : Type
  interface : TokenInterface Data
  payer : Address
  keypairs : Nat → Keypair
  held : Address → Prop
  accountData : State → Address → Option Data
  lamports : State → Address → Nat
  epoch : State → Nat
  minimumBalanceForRentExemption : State → Nat → Nat
  send : State → List Instruction → List Keypair → Delivery State
  accounts : State → Accounts
  held_payer : held payer
  held_keypair : ∀ n, held (keypairs n).pubkey
  outsiders_before : ∀ s transaction signers,
    Outsiders programs held (accounts s)
      (accounts (send s transaction signers).before)
  landed : ∀ s transaction signers receipt,
    (send s transaction signers).outcome = .ok receipt →
      runTransaction programs (payer :: signers.map (·.pubkey)) transaction
          (accounts (send s transaction signers).before) =
        some (accounts (send s transaction signers).after)
  not_landed : ∀ s transaction signers error,
    (send s transaction signers).outcome = .error error →
      accounts (send s transaction signers).after =
        accounts (send s transaction signers).before
  outsiders_after : ∀ s transaction signers,
    Outsiders programs held
      (accounts (send s transaction signers).after)
      (accounts (send s transaction signers).next)

/-- A transaction that was passed to `send`. -/
structure Sent (State : Type) where
  transaction : List Instruction
  signers : List Keypair
  delivery : Delivery State

/-- Whether the transaction landed. -/
def Sent.landed {State : Type} (sent : Sent State) : Bool :=
  sent.delivery.outcome.toBool

/-- The transactions of `sent` were sent one after another from `start`, and
the last `send` returned in the given state. -/
inductive Chained (C : Cluster) (start : C.State) :
    List (Sent C.State) → C.State → Prop where
  | nil : Chained C start [] start
  | send {sent : List (Sent C.State)} {s : C.State}
      (transaction : List Instruction) (signers : List Keypair) :
      Chained C start sent s →
      Chained C start
        (sent ++ [⟨transaction, signers, C.send s transaction signers⟩])
        (C.send s transaction signers).next

structure World (C : Cluster) where
  start : C.State
  state : C.State
  drawn : Nat
  sent : List (Sent C.State)
  chained : Chained C start sent state

namespace World

variable {C : Cluster}

/-- A world in which nothing was sent yet. -/
def initial (state : C.State) (drawn : Nat) : World C :=
  ⟨state, state, drawn, [], .nil⟩

/-- The proof accounts and mints of the current state. -/
def accounts (world : World C) : Accounts :=
  C.accounts world.state

/-- A transaction sent in this world. -/
def sending (world : World C) (transaction : List Instruction)
    (signers : List Keypair) : Sent C.State :=
  ⟨transaction, signers, C.send world.state transaction signers⟩

/-- What `send` does to the world. -/
def deliver (world : World C) (transaction : List Instruction)
    (signers : List Keypair) : World C where
  start := world.start
  state := (C.send world.state transaction signers).next
  drawn := world.drawn
  sent := world.sent ++ [world.sending transaction signers]
  chained := .send transaction signers world.chained

theorem landed_sending
    {world : World C} {transaction : List Instruction}
    {signers : List Keypair} {receipt : Receipt}
    (landed :
      (C.send world.state transaction signers).outcome = .ok receipt) :
    (world.sending transaction signers).landed = true := by
  simp [sending, Sent.landed, landed, Except.toBool]

theorem not_landed_sending
    {world : World C} {transaction : List Instruction}
    {signers : List Keypair} {error : Error}
    (failed :
      (C.send world.state transaction signers).outcome = .error error) :
    (world.sending transaction signers).landed = false := by
  simp [sending, Sent.landed, failed, Except.toBool]

theorem outcome_of_landed
    {world : World C} {transaction : List Instruction}
    {signers : List Keypair}
    (landed : (world.sending transaction signers).landed = true) :
    ∃ receipt,
      (C.send world.state transaction signers).outcome = .ok receipt := by
  cases outcome : (C.send world.state transaction signers).outcome with
  | ok receipt => exact ⟨receipt, rfl⟩
  | error error =>
      rw [not_landed_sending outcome] at landed
      cases landed

/-- Sign with the fee payer plus `signers`, submit, and wait for the outcome. -/
def send (transaction : List Instruction) (signers : List Keypair) :
    Flow (World C) Error Receipt :=
  Flows.Flow.mk fun world =>
    (((C.send world.state transaction signers).outcome).mapError Stop.error,
      world.deliver transaction signers)

/-- `Keypair::new`. -/
def newKeypair : Flow (World C) Error Keypair :=
  Flows.Flow.mk fun world =>
    (.ok (C.keypairs world.drawn), { world with drawn := world.drawn + 1 })

/-- Whether `instructions` fit in a single transaction.  Measuring panics where
the message cannot be built or cannot be serialized. -/
def fits (instructions : List Instruction) : Flow (World C) Error Bool :=
  match measuredFits C.programs instructions C.payer with
  | some answer => pure answer
  | none => Flow.panicking

def rent (space : Nat) : Flow (World C) Error Nat :=
  Flow.read fun world => C.minimumBalanceForRentExemption world.state space

def epoch : Flow (World C) Error Nat :=
  Flow.read fun world => C.epoch world.state

theorem ensures_send
    {world : World C} {transaction : List Instruction}
    {signers : List Keypair}
    {post : Except (Stop Error) Receipt → World C → Prop}
    (landed : ∀ receipt,
      (C.send world.state transaction signers).outcome = .ok receipt →
        post (.ok receipt) (world.deliver transaction signers))
    (failed : ∀ error,
      (C.send world.state transaction signers).outcome = .error error →
        post (.error (.error error)) (world.deliver transaction signers)) :
    Flow.Ensures (send transaction signers) world post := by
  refine .mk ?_
  rcases outcome : (C.send world.state transaction signers).outcome with
    error | receipt
  · exact failed error outcome
  · exact landed receipt outcome

theorem ensures_newKeypair
    {world : World C} {post : Except (Stop Error) Keypair → World C → Prop}
    (drawn :
      post (.ok (C.keypairs world.drawn))
        { world with drawn := world.drawn + 1 }) :
    Flow.Ensures newKeypair world post :=
  .mk drawn

theorem ensures_fits
    {world : World C} {instructions : List Instruction}
    {post : Except (Stop Error) Bool → World C → Prop}
    (answered : ∀ answer,
      fitsInOneTransaction C.programs instructions C.payer = answer →
        post (.ok answer) world)
    (panicked : post (.error .panic) world) :
    Flow.Ensures (fits instructions) world post := by
  unfold fits
  split
  case h_1 answer measured =>
      exact .pure (answered answer (measuredFits_eq_some measured))
  case h_2 => exact .panicking panicked

theorem ensures_rent
    {world : World C} {space : Nat}
    {post : Except (Stop Error) Nat → World C → Prop}
    (known : ∀ lamports, post (.ok lamports) world) :
    Flow.Ensures (rent space) world post :=
  .read (known _)

end World
end Remit
