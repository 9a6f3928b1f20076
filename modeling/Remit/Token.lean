import Remit.Transfer

/-!
# Issuing and allowances

What the mint authority and the owner of an account do with public balances
besides transfers: issue an amount, grant an allowance, and forbid that programs
use the owner's signature.
-/

namespace Remit

open Flows

variable {C : Cluster}

/-- Mint `amount` into `destination`. -/
def mintTo (mint destination : Address) (mintAuthority : Keypair)
    (amount : Nat) : Flow (World C) Error Unit := do
  let decimals := (← World.loadMint mint).decimals
  let instruction ← Flow.ofExcept <| tokenInstruction C.programs <|
    .mintToChecked mint destination mintAuthority.pubkey amount decimals
  let _ ← World.send [instruction] [mintAuthority]

/-- The owner grants `delegate` an allowance on `source`. -/
def approve (source delegate : Address) (owner : Keypair) (amount : Nat) :
    Flow (World C) Error Unit := do
  let mint := (← World.loadAccount source).mint
  let decimals := (← World.loadMint mint).decimals
  let instruction ← Flow.ofExcept <| tokenInstruction C.programs <|
    .approveChecked source mint delegate owner.pubkey amount decimals
  let _ ← World.send [instruction] [owner]

/-- The owner turns on CPI Guard, for which there has to be room. -/
def enableCpiGuard (tokenAccount : Address) (owner : Keypair) :
    Flow (World C) Error Unit := do
  let reallocate ← Flow.ofExcept <| tokenInstruction C.programs <|
    .reallocate tokenAccount C.payer owner.pubkey [.cpiGuard]
  let enable ← Flow.ofExcept <| tokenInstruction C.programs <|
    .enableCpiGuard tokenAccount owner.pubkey
  let _ ← World.send [reallocate, enable] [owner]

end Remit
