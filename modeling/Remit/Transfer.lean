import Remit.State

/-!
# Public transfers

Transfers go through `TransferCheckedWithFee`.  The fee is recomputed for every
transfer from the schedule that is in force in the current epoch.
-/

namespace Remit

open Flows

variable {C : Cluster}

namespace World

/-- Fetch and decode a mint of the current state. -/
def loadMint (address : Address) : Flow (World C) Error MintSnapshot := do
  Flow.ofExcept (← Flow.read fun world => Remit.loadMint world address)

/-- Fetch and decode a token account of the current state. -/
def loadAccount (address : Address) : Flow (World C) Error AccountSnapshot := do
  Flow.ofExcept (← Flow.read fun world => Remit.loadAccount world address)

theorem ensures_loadMint
    {world : World C} {address : Address}
    {post : Except (Stop Error) MintSnapshot → World C → Prop}
    (loaded : ∀ mint, Remit.loadMint world address = .ok mint →
      post (.ok mint) world)
    (failed : ∀ error, post (.error (.error error)) world) :
    Flow.Ensures (loadMint address) world post :=
  .bind (.read (.ofExcept loaded fun error _ => failed error))

theorem ensures_loadAccount
    {world : World C} {address : Address}
    {post : Except (Stop Error) AccountSnapshot → World C → Prop}
    (loaded : ∀ account, Remit.loadAccount world address = .ok account →
      post (.ok account) world)
    (failed : ∀ error, post (.error (.error error)) world) :
    Flow.Ensures (loadAccount address) world post :=
  .bind (.read (.ofExcept loaded fun error _ => failed error))

end World

/-- An instruction of the Token-2022 interface crate, if it builds it. -/
def tokenInstruction (programs : Programs) (instruction : TokenInstruction) :
    Except Error Instruction := do
  ofProgram (programs.tokenCheck instruction)
  pure (.token instruction)

/-- An instruction that the interface crate has built. -/
theorem tokenInstruction_eq_ok
    {programs : Programs} {token : TokenInstruction}
    {instruction : Instruction}
    (built : tokenInstruction programs token = .ok instruction) :
    instruction = .token token := by
  obtain ⟨_, _, built⟩ := except_bind_eq_ok built
  cases built
  rfl

theorem ensures_ofExcept_tokenInstruction
    {σ : Type} {s : σ} {programs : Programs} {instruction : TokenInstruction}
    {post : Except (Stop Error) Instruction → σ → Prop}
    (built : post (.ok (.token instruction)) s)
    (refused : ∀ error,
      programs.tokenCheck instruction = .error error →
        post (.error (.error (.program error))) s) :
    Flow.Ensures (Flow.ofExcept (tokenInstruction programs instruction)) s
      post := by
  unfold tokenInstruction
  rcases checked : programs.tokenCheck instruction with error | ⟨⟩
  · exact .fail (refused error checked)
  · exact .pure built

/-- A difference, which the compiled code checks: it panics when the
difference is negative. -/
def differenceOrPanic (left right : Nat) : Except (Stop Error) Nat :=
  if left < right then .error .panic else .ok (left - right)

/-- Propagate an error or a panic. -/
def ofStop {α : Type} : Except (Stop Error) α → Flow (World C) Error α
  | .ok a => pure a
  | .error stop => throw stop

theorem ensures_ofStop
    {α : Type} {world : World C} {outcome : Except (Stop Error) α}
    {post : Except (Stop Error) α → World C → Prop}
    (holds : post outcome world) :
    Flow.Ensures (ofStop outcome) world post := by
  cases outcome with
  | ok a => exact .pure holds
  | error stop =>
      cases stop with
      | error error => exact .fail holds
      | panic => exact .panicking holds

/-- What a fee-bearing transfer moved. -/
structure FeeTransfer where
  amount : Nat
  fee : Nat
  epoch : Nat
deriving DecidableEq

/-- Amount the recipient can spend. -/
def FeeTransfer.net (transfer : FeeTransfer) : Except (Stop Error) Nat :=
  differenceOrPanic transfer.amount transfer.fee

/-- Fee Token-2022 will charge for `amount` in `epoch`. -/
def expectedFee (mint : MintSnapshot) (epoch amount : Nat) :
    Except Error Nat := do
  let config ← mint.requireTransferFee
  match config.calculateEpochFee epoch amount with
  | some fee => pure fee
  | none => throw (.invalid ("fee on " ++ toString amount ++ " overflows"))

/-- Move `amount` from `source` to `destination`, signed by the owner or its
delegate. -/
def transferWithFee (source destination : Address) (authority : Keypair)
    (amount : Nat) : Flow (World C) Error FeeTransfer := do
  let mintAddress := (← World.loadAccount source).mint
  let mint ← World.loadMint mintAddress
  let epoch ← World.epoch
  let fee ← Flow.ofExcept (expectedFee mint epoch amount)
  let instruction ← Flow.ofExcept <| tokenInstruction C.programs <|
    .transferCheckedWithFee source mintAddress destination authority.pubkey
      amount mint.decimals fee
  let _ ← World.send [instruction] [authority]
  pure { amount, fee, epoch }

/-- Schedule a new fee. -/
def setTransferFee (mint : Address) (feeAuthority : Keypair)
    (transferFeeBasisPoints maximumFee : Nat) : Flow (World C) Error Unit := do
  let instruction ← Flow.ofExcept <| tokenInstruction C.programs <|
    .setTransferFee mint feeAuthority.pubkey transferFeeBasisPoints maximumFee
  let _ ← World.send [instruction] [feeAuthority]

/-- Sweep the withheld fees of `sources` into the mint, withdraw all that the
mint holds to `treasury`, and return by how much the balance read last exceeds
the one read first. -/
def collectFees (mint : Address) (sources : List Address)
    (treasury : Address) (withdrawAuthority : Keypair) :
    Flow (World C) Error Nat := do
  let before := (← World.loadAccount treasury).amount
  let harvest ← Flow.ofExcept <| tokenInstruction C.programs <|
    .harvestWithheldTokensToMint mint sources
  let withdraw ← Flow.ofExcept <| tokenInstruction C.programs <|
    .withdrawWithheldTokensFromMint mint treasury withdrawAuthority.pubkey
  let _ ← World.send [harvest, withdraw] [withdrawAuthority]
  let after := (← World.loadAccount treasury).amount
  ofStop (differenceOrPanic after before)

/-- A fee that could be computed is the one of the schedule in force. -/
theorem expectedFee_eq_ok
    {mint : MintSnapshot} {epoch amount fee : Nat}
    (expected : expectedFee mint epoch amount = .ok fee) :
    ∃ config, mint.requireTransferFee = .ok config ∧
      config.calculateEpochFee epoch amount = some fee := by
  obtain ⟨config, required, expected⟩ := except_bind_eq_ok expected
  refine ⟨config, required, ?_⟩
  split at expected
  case h_1 charged computed =>
      cases expected
      exact computed
  case h_2 => cases expected

end Remit
