import Remit.Compliance.Seizures
import Remit.Token.Fees

/-!
# Public transfers state their fee

A transfer and a seizure work their fee out from a mint and an epoch that may be
outdated when the transaction lands.  Then Token-2022 charges another fee than
the one that is stated, and rejects the transaction.
-/

namespace Remit

open Flows

variable {C : Cluster}

/-! ## What is promised -/

/-- The transactions that a transfer of an amount has sent by the time it ends,
and how it ends. -/
structure StatesItsFee (source destination : Address) (amount : Nat)
    (later : List (Sent C.State))
    (outcome : Except (Stop Error) FeeTransfer) : Prop where
  few : later.length ≤ 1
  paid : ∀ moved, outcome = .ok moved →
    moved.amount = amount ∧ ∃ one, later = [one] ∧ one.landed = true ∧
      (source ≠ destination →
        FeePaid source destination moved (C.tokenChain one.delivery.before)
          (C.tokenChain one.delivery.after))
  unmoved : ∀ error, outcome = .error (.error error) → ∀ one ∈ later,
    C.tokenChain one.delivery.after = C.tokenChain one.delivery.before
  returns : outcome ≠ .error .panic

/-- No transaction is rejected for its fee while the schedule stays the one
that was read. -/
def FeeAccepted (rejected : Error → Prop) (address : Address)
    (mint : MintSnapshot) (epoch : Nat) (later : List (Sent C.State)) : Prop :=
  ∀ one ∈ later,
    (C.tokenChain one.delivery.before).KeepsSchedule address mint epoch →
      ∀ error, one.delivery.outcome = .error error → ¬ rejected error

section Calling

variable {source destination : Address} {amount : Nat}
  {rejected : Error → Prop}

/-- A call that gives up before it sends anything. -/
theorem StatesItsFee.nothing_sent (error : Error) :
    StatesItsFee (C := C) source destination amount []
      (.error (.error error)) where
  few := Nat.zero_le 1
  paid := by simp
  unmoved := by simp
  returns := by simp

/-- The end of a call: its transfer is sent. -/
theorem ensures_paying
    (contract : PublicContract C) (fees : PublicFeeContract C rejected)
    (tokens : List TokenInstruction) {signers : List Keypair}
    {moved : FeeTransfer} {address : Address} {mint : MintSnapshot}
    {epoch : Nat} (world : World C)
    (isPublic : tokens.all TokenInstruction.isPublic = true)
    (named : moved.amount = amount)
    (pays : ∀ (keys : List Address) (chain after : TokenChain),
      chain.carryOutAll keys tokens = some after → source ≠ destination →
        FeePaid source destination moved chain after)
    (stated : ∀ landing : TokenChain,
      landing.KeepsSchedule address mint epoch →
        ∀ instruction ∈ tokens, ¬ instruction.Misstates landing) :
    Flow.Ensures
      (do
        let _ ← World.send (tokens.map .token) signers
        pure moved) world
      fun outcome reached => ∃ later, reached.sent = world.sent ++ later ∧
        StatesItsFee source destination amount later outcome ∧
        FeeAccepted rejected address mint epoch later := by
  refine .bind (contract.ensures_send isPublic
    (fun receipt outcome carried => ?_) fun error outcome unmoved => ?_)
  · refine .pure ⟨_, rfl, ?_, ?_⟩
    · exact
        { few := Nat.le_refl 1
          paid := by
            intro returned same
            cases same
            exact ⟨named, _, rfl, World.landed_sending outcome,
              pays _ _ _ carried⟩
          unmoved := by simp
          returns := by simp }
    · intro one member _ error failed
      rw [List.mem_singleton.mp member, outcome] at failed
      cases failed
  · refine ⟨_, rfl, ?_, ?_⟩
    · exact
        { few := Nat.le_refl 1
          paid := by simp
          unmoved := by simpa using unmoved
          returns := by simp }
    · intro one member kept other failed refused
      rw [List.mem_singleton.mp member] at kept failed
      obtain ⟨instruction, present, misstates⟩ :=
        fees _ _ _ _ isPublic failed refused
      exact stated _ kept instruction present misstates

/-! ## Transfers -/

/-- What is left to do of a transfer once the mint and the epoch were read. -/
def concludeTransfer (source destination : Address) (authority : Keypair)
    (amount : Nat) (mintAddress : Address) (mint : MintSnapshot)
    (epoch : Nat) : Flow (World C) Error FeeTransfer := do
  let fee ← Flow.ofExcept (expectedFee mint epoch amount)
  let instruction ← Flow.ofExcept <| tokenInstruction C.programs <|
    .transferCheckedWithFee source mintAddress destination authority.pubkey
      amount mint.decimals fee
  let _ ← World.send [instruction] [authority]
  pure { amount, fee, epoch }

theorem transferWithFee_eq (authority : Keypair) :
    (transferWithFee source destination authority amount :
        Flow (World C) Error FeeTransfer) = (do
      let account ← World.loadAccount source
      let mint ← World.loadMint account.mint
      let epoch ← World.epoch
      concludeTransfer source destination authority amount account.mint mint
        epoch) :=
  rfl

/-- A fee that was worked out is not misstated while the schedule stays. -/
theorem not_misstates
    {landing : TokenChain} {address authority : Address}
    {mint : MintSnapshot} {epoch decimals fee : Nat}
    (expected : expectedFee mint epoch amount = .ok fee)
    (kept : landing.KeepsSchedule address mint epoch) :
    ¬ (TokenInstruction.transferCheckedWithFee source address destination
        authority amount decimals fee).Misstates landing := by
  rintro ⟨landed, found, differs⟩
  exact differs (kept.chargedFee expected found)

theorem ensures_concludeTransfer
    (contract : PublicContract C) (fees : PublicFeeContract C rejected)
    (authority : Keypair) (mintAddress : Address) (mint : MintSnapshot)
    (epoch : Nat) (world : World C) :
    Flow.Ensures
      (concludeTransfer source destination authority amount mintAddress mint
        epoch) world
      fun outcome reached => ∃ later, reached.sent = world.sent ++ later ∧
        StatesItsFee source destination amount later outcome ∧
        FeeAccepted rejected mintAddress mint epoch later := by
  have nothing (error : Error) :
      ∃ later, world.sent = world.sent ++ later ∧
        StatesItsFee (C := C) source destination amount later
          (.error (.error error)) ∧
        FeeAccepted rejected mintAddress mint epoch later :=
    ⟨[], by simp, .nothing_sent error, by simp [FeeAccepted]⟩
  refine .bind (.ofExcept (fun fee expected => ?_) fun error _ => nothing error)
  refine .bind (.ofExcept (fun instruction built => ?_)
    fun error _ => nothing error)
  obtain rfl := tokenInstruction_eq_ok built
  refine ensures_paying contract fees [_] world rfl rfl ?_ ?_
  · intro keys chain after carried different
    obtain ⟨moved, transferred, rest⟩ := Option.bind_eq_some_iff.mp carried
    cases rest
    exact TokenChain.transferChecked_feePaid transferred different
  · intro landing kept instruction member
    rw [List.mem_singleton.mp member]
    exact not_misstates expected kept

/-! ## Seizures -/

theorem Seizure.ensures_conclude_states
    (contract : PublicContract C) (fees : PublicFeeContract C rejected)
    (freezeAuthority permanentDelegate : Keypair) (account : AccountSnapshot)
    (mint : MintSnapshot) (epoch : Nat) (world : World C) :
    Flow.Ensures
      (conclude source destination freezeAuthority permanentDelegate amount
        account mint epoch) world
      fun outcome reached => ∃ later, reached.sent = world.sent ++ later ∧
        StatesItsFee source destination amount later outcome ∧
        FeeAccepted rejected mint.address mint epoch later := by
  refine .bind (.ofExcept (fun seizure prepared => ?_) fun error _ =>
    ⟨[], by simp, .nothing_sent error, by simp [FeeAccepted]⟩)
  obtain ⟨fee, moved, expected, shape⟩ := prepare_eq_ok prepared
  dsimp only
  rw [moved]
  rcases shape with ⟨_, instructions, signers⟩ | ⟨_, instructions, signers⟩
  · rw [instructions, signers]
    refine ensures_paying contract fees [_, _, _] world rfl rfl
      (fun keys chain after => TokenChain.seizeFrozen_feePaid) ?_
    intro landing kept instruction member
    simp only [List.mem_cons, List.not_mem_nil, or_false] at member
    rcases member with rfl | rfl | rfl
    · exact id
    · exact not_misstates expected kept
    · exact id
  · rw [instructions, signers]
    refine ensures_paying contract fees [_] world rfl rfl ?_ ?_
    · intro keys chain after carried different
      obtain ⟨left, transferred, rest⟩ := Option.bind_eq_some_iff.mp carried
      cases rest
      exact TokenChain.transferChecked_feePaid transferred different
    · intro landing kept instruction member
      rw [List.mem_singleton.mp member]
      exact not_misstates expected kept

/-! ## With the reads -/

/-- What a call reads of the fee when it takes money from an account. -/
def World.Reads (world : World C) (source : Address) (mint : MintSnapshot)
    (epoch : Nat) : Prop :=
  ∃ account, Remit.loadAccount world source = .ok account ∧
    Remit.loadMint world account.mint = .ok mint ∧
    C.epoch world.state = epoch

theorem loadMint_address
    {world : World C} {address : Address} {mint : MintSnapshot}
    (loaded : Remit.loadMint world address = .ok mint) :
    mint.address = address := by
  obtain ⟨_, _, decoded⟩ := except_bind_eq_ok loaded
  exact MintSnapshot.decode_address _ decoded

/-- A call that reads the account, the mint and the epoch, and goes on. -/
theorem ensures_reading_call
    {conclude : AccountSnapshot → MintSnapshot → Nat →
      Flow (World C) Error FeeTransfer} (world : World C)
    (concludes : ∀ account mint epoch,
      Remit.loadMint world account.mint = .ok mint →
      Flow.Ensures (conclude account mint epoch) world
        fun outcome reached => ∃ later, reached.sent = world.sent ++ later ∧
          StatesItsFee source destination amount later outcome ∧
          FeeAccepted rejected mint.address mint epoch later) :
    Flow.Ensures
      (do
        let account ← World.loadAccount source
        let mint ← World.loadMint account.mint
        let epoch ← World.epoch
        conclude account mint epoch) world
      fun outcome reached => ∃ later, reached.sent = world.sent ++ later ∧
        StatesItsFee source destination amount later outcome ∧
        ∀ mint epoch, world.Reads source mint epoch →
          FeeAccepted rejected mint.address mint epoch later := by
  have nothing (error : Error) :
      ∃ later, world.sent = world.sent ++ later ∧
        StatesItsFee (C := C) source destination amount later
          (.error (.error error)) ∧
        ∀ mint epoch, world.Reads source mint epoch →
          FeeAccepted rejected mint.address mint epoch later :=
    ⟨[], by simp, .nothing_sent error, by simp [FeeAccepted]⟩
  refine .bind (World.ensures_loadAccount (fun account loaded => ?_) nothing)
  refine .bind (World.ensures_loadMint (fun mint mintLoaded => ?_) nothing)
  refine .bind (.read ((concludes account mint _ mintLoaded).mono ?_))
  rintro outcome reached ⟨later, sent, states, accepted⟩
  refine ⟨later, sent, states, fun other epoch reads => ?_⟩
  obtain ⟨_, sameAccount, sameMint, sameEpoch⟩ := reads
  obtain rfl := Except.ok.inj (loaded.symm.trans sameAccount)
  obtain rfl := Except.ok.inj (mintLoaded.symm.trans sameMint)
  obtain rfl := sameEpoch
  exact accepted

theorem ensures_transferWithFee
    (contract : PublicContract C) (fees : PublicFeeContract C rejected)
    (authority : Keypair) (world : World C) :
    Flow.Ensures (transferWithFee source destination authority amount) world
      fun outcome reached => ∃ later, reached.sent = world.sent ++ later ∧
        StatesItsFee source destination amount later outcome ∧
        ∀ mint epoch, world.Reads source mint epoch →
          FeeAccepted rejected mint.address mint epoch later := by
  rw [transferWithFee_eq]
  refine ensures_reading_call world fun account mint epoch loaded => ?_
  rw [loadMint_address loaded]
  exact ensures_concludeTransfer contract fees authority account.mint mint
    epoch world

theorem ensures_seize_states
    (contract : PublicContract C) (fees : PublicFeeContract C rejected)
    (freezeAuthority permanentDelegate : Keypair) (world : World C) :
    Flow.Ensures
      (seize source destination freezeAuthority permanentDelegate amount) world
      fun outcome reached => ∃ later, reached.sent = world.sent ++ later ∧
        StatesItsFee source destination amount later outcome ∧
        ∀ mint epoch, world.Reads source mint epoch →
          FeeAccepted rejected mint.address mint epoch later := by
  rw [seize_eq]
  exact ensures_reading_call world fun account mint epoch _ =>
    Seizure.ensures_conclude_states contract fees freezeAuthority
      permanentDelegate account mint epoch world

end Calling
end Remit
