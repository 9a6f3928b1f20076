import Remit.Transfer

/-!
# The unfreeze path

Every new token account starts frozen.  Clearing KYC thaws one account; the
default of the mint is never touched.  What a call builds from the account that
it has read is kept apart from the reading and the sending.
-/

namespace Remit

open Flows

variable {C : Cluster}

/-- The thaw of an account that was read, if it qualifies.  KYC vouches for a
person but the thaw sticks to the account, so its owner must be fixed. -/
def kycClearance (programs : Programs) (tokenAccount freezeAuthority : Address)
    (account : AccountSnapshot) : Except Error Instruction :=
  if .immutableOwner ∉ account.extensions then
    .error (.invalid
      (tokenAccount.display ++
        " lacks ImmutableOwner: its owner could hand the account to someone " ++
        "else after KYC, so only accounts with a fixed owner (such as ATAs) " ++
        "are thawed"))
  else if !account.isFrozen then
    .error (.invalid
      (tokenAccount.display ++ " is not frozen; KYC was already approved"))
  else
    tokenInstruction programs
      (.thawAccount tokenAccount account.mint freezeAuthority)

/-- KYC cleared: thaw `tokenAccount`. -/
def approveKyc (tokenAccount : Address) (freezeAuthority : Keypair) :
    Flow (World C) Error Unit := do
  let account ← World.loadAccount tokenAccount
  let instruction ← Flow.ofExcept <|
    kycClearance C.programs tokenAccount freezeAuthority.pubkey account
  let _ ← World.send [instruction] [freezeAuthority]

/-- The freeze of an account that was read. -/
def kycRevocation (programs : Programs)
    (tokenAccount freezeAuthority : Address) (account : AccountSnapshot) :
    Except Error Instruction :=
  if account.isFrozen then
    .error (.invalid (tokenAccount.display ++ " is already frozen"))
  else
    tokenInstruction programs
      (.freezeAccount tokenAccount account.mint freezeAuthority)

/-- KYC revoked: freeze `tokenAccount` again. -/
def revokeKyc (tokenAccount : Address) (freezeAuthority : Keypair) :
    Flow (World C) Error Unit := do
  let account ← World.loadAccount tokenAccount
  let instruction ← Flow.ofExcept <|
    kycRevocation C.programs tokenAccount freezeAuthority.pubkey account
  let _ ← World.send [instruction] [freezeAuthority]

/-- The state that new accounts of the mint start in. -/
def setDefaultAccountState (mint : Address) (freezeAuthority : Keypair)
    (state : AccountState) : Flow (World C) Error Unit := do
  let instruction ← Flow.ofExcept <| tokenInstruction C.programs <|
    .updateDefaultAccountState mint freezeAuthority.pubkey state
  let _ ← World.send [instruction] [freezeAuthority]

/-- Only a frozen account whose owner is fixed is thawed. -/
theorem kycClearance_eq_ok
    {programs : Programs} {tokenAccount freezeAuthority : Address}
    {account : AccountSnapshot} {instruction : Instruction}
    (cleared :
      kycClearance programs tokenAccount freezeAuthority account =
        .ok instruction) :
    .immutableOwner ∈ account.extensions ∧ account.isFrozen = true ∧
      instruction =
        .token (.thawAccount tokenAccount account.mint freezeAuthority) := by
  unfold kycClearance at cleared
  split at cleared
  case isTrue => cases cleared
  case isFalse fixed =>
      split at cleared
      case isTrue => cases cleared
      case isFalse frozen =>
          exact ⟨not_not.mp fixed, by simpa using frozen,
            tokenInstruction_eq_ok cleared⟩

/-- Only an account that is not frozen is frozen. -/
theorem kycRevocation_eq_ok
    {programs : Programs} {tokenAccount freezeAuthority : Address}
    {account : AccountSnapshot} {instruction : Instruction}
    (revoked :
      kycRevocation programs tokenAccount freezeAuthority account =
        .ok instruction) :
    account.isFrozen = false ∧
      instruction =
        .token (.freezeAccount tokenAccount account.mint freezeAuthority) := by
  unfold kycRevocation at revoked
  split at revoked
  case isTrue => cases revoked
  case isFalse frozen =>
      exact ⟨by simpa using frozen, tokenInstruction_eq_ok revoked⟩

end Remit
