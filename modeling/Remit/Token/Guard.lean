import Remit.Token.Program

/-!
# CPI Guard

An instruction of Token-2022 stands in a transaction or is invoked by another
program.  Where the owner of an account has switched CPI Guard on, a program can
do less with the owner's signature: it can neither spend nor approve, hand the
account or its lamports to others, or switch the guard.
-/

namespace Remit

/-- CPI Guard is switched on. -/
def AccountSnapshot.isGuarded (account : AccountSnapshot) : Bool :=
  account.cpiGuard = some true

namespace TokenInstruction

/-- What Token-2022 refuses when a program invokes it.  The guard cannot be
switched by programs at all. -/
def blocked (chain : TokenChain) : TokenInstruction → Bool
  | transferCheckedWithFee source _ _ authority _ _ _ =>
      (chain.accounts source).any fun account =>
        account.isGuarded ∧ account.owner = authority
  | approveChecked source _ _ _ _ _ =>
      (chain.accounts source).any (·.isGuarded)
  | closeAccount account destination _ =>
      (chain.accounts account).any fun found =>
        found.isGuarded ∧ found.owner ≠ destination
  | setAuthority account _ .accountOwner _ =>
      (chain.accounts account).any (·.isGuarded)
  | setAuthority account _ .closeAccount newAuthority =>
      newAuthority.isSome ∧ (chain.accounts account).any (·.isGuarded)
  | enableCpiGuard .. => true
  | _ => false

/-- Carry out an instruction that a program invokes. -/
def performInvoked (signers : List Address) (chain : TokenChain)
    (instruction : TokenInstruction) : Option TokenChain :=
  if instruction.blocked chain then none
  else instruction.perform signers chain

/-- A transfer or an approval. -/
def IsForwardable : TokenInstruction → Prop
  | transferCheckedWithFee .. => True
  | approveChecked .. => True
  | _ => False

variable {signers : List Address} {chain after : TokenChain}
  {instruction : TokenInstruction}

theorem performInvoked_eq_some :
    instruction.performInvoked signers chain = some after ↔
      instruction.blocked chain = false ∧
        instruction.perform signers chain = some after := by
  unfold performInvoked
  cases instruction.blocked chain with
  | true => simp
  | false => simp

/-- Only the owner of a guarded account is stopped from spending. -/
theorem blocked_transfer
    {source mint destination authority : Address} {amount decimals fee : Nat} :
    blocked chain (.transferCheckedWithFee source mint destination authority
        amount decimals fee) = true ↔
      ∃ account, chain.accounts source = some account ∧
        account.isGuarded = true ∧ account.owner = authority := by
  unfold blocked
  cases found : chain.accounts source with
  | none => simp [found]
  | some account => simp [found]

/-- Nobody can approve a delegate of a guarded account. -/
theorem blocked_approve
    {source mint delegate authority : Address} {amount decimals : Nat} :
    blocked chain (.approveChecked source mint delegate authority amount
        decimals) = true ↔
      ∃ account, chain.accounts source = some account ∧
        account.isGuarded = true := by
  unfold blocked
  cases found : chain.accounts source with
  | none => simp [found]
  | some account => simp [found]

end TokenInstruction

/-- Carry out the instructions that a program invokes, all of them or none. -/
def TokenChain.performAllInvoked (signers : List Address) (chain : TokenChain) :
    List TokenInstruction → Option TokenChain
  | [] => some chain
  | instruction :: rest =>
      (instruction.performInvoked signers chain).bind fun next =>
        next.performAllInvoked signers rest

end Remit
