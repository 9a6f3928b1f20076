import Remit.Kyc.Calls

/-!
# What Token-2022 promises about public instructions

A transaction of public instructions that lands has carried them all out, and a
transaction that does not land has changed no token account and no mint.
-/

namespace Remit

/-- Whether an instruction is one of those that `carryOut` describes. -/
def TokenInstruction.isPublic : TokenInstruction → Bool
  | thawAccount .. | freezeAccount .. | transferCheckedWithFee .. => true
  | _ => false

/-- What Token-2022 does with a transaction of public instructions. -/
structure PublicContract (C : Cluster) : Prop where
  carriesOut : ∀ state instructions signers receipt,
    instructions.all TokenInstruction.isPublic = true →
    (C.send state (instructions.map .token) signers).outcome = .ok receipt →
      (C.tokenChain
          (C.send state (instructions.map .token) signers).before).carryOutAll
          (C.payer :: signers.map (·.pubkey)) instructions =
        some (C.tokenChain
          (C.send state (instructions.map .token) signers).after)
  leavesAlone : ∀ state transaction signers error,
    (C.send state transaction signers).outcome = .error error →
      C.tokenChain (C.send state transaction signers).after =
        C.tokenChain (C.send state transaction signers).before

section Sending

variable {C : Cluster}

/-- A sent transaction of public instructions carries them all out, or
changes nothing. -/
theorem PublicContract.ensures_send
    (contract : PublicContract C)
    {world : World C} {instructions : List TokenInstruction}
    {signers : List Keypair}
    (isPublic : instructions.all TokenInstruction.isPublic = true)
    {post : Except (Flows.Stop Error) Receipt → World C → Prop}
    (landed : ∀ receipt,
      let sent := world.sending (instructions.map .token) signers
      sent.delivery.outcome = .ok receipt →
      (C.tokenChain sent.delivery.before).carryOutAll
          (C.payer :: signers.map (·.pubkey)) instructions =
        some (C.tokenChain sent.delivery.after) →
      post (.ok receipt) (world.deliver (instructions.map .token) signers))
    (failed : ∀ error,
      let sent := world.sending (instructions.map .token) signers
      sent.delivery.outcome = .error error →
      C.tokenChain sent.delivery.after = C.tokenChain sent.delivery.before →
      post (.error (.error error))
        (world.deliver (instructions.map .token) signers)) :
    Flows.Flow.Ensures (World.send (instructions.map .token) signers) world
      post := by
  refine World.ensures_send (fun receipt outcome => ?_) fun error outcome => ?_
  · exact landed receipt outcome
      (contract.carriesOut _ _ _ _ isPublic outcome)
  · exact failed error outcome (contract.leavesAlone _ _ _ _ outcome)

end Sending

end Remit
