import Remit.Kyc

/-!
# Seizure with the permanent delegate

Tokens in a frozen account cannot be moved, not even by the permanent delegate.
A frozen account is therefore thawed, emptied and frozen again in a single
transaction.
-/

namespace Remit

open Flows

variable {C : Cluster}

/-- What a seizure sends, and what it moves. -/
structure Seizure where
  instructions : List Instruction
  signers : List Keypair
  moved : FeeTransfer

/-- The seizure from an account that was read. -/
def Seizure.prepare (programs : Programs) (source destination : Address)
    (freezeAuthority permanentDelegate : Keypair) (amount : Nat)
    (account : AccountSnapshot) (mint : MintSnapshot) (epoch : Nat) :
    Except Error Seizure := do
  let fee ← expectedFee mint epoch amount
  let transfer ← tokenInstruction programs <|
    .transferCheckedWithFee source mint.address destination
      permanentDelegate.pubkey amount mint.decimals fee
  if account.isFrozen then
    let thaw ← tokenInstruction programs <|
      .thawAccount source mint.address freezeAuthority.pubkey
    let freeze ← tokenInstruction programs <|
      .freezeAccount source mint.address freezeAuthority.pubkey
    pure
      ⟨[thaw, transfer, freeze], [freezeAuthority, permanentDelegate],
        ⟨amount, fee, epoch⟩⟩
  else
    pure ⟨[transfer], [permanentDelegate], ⟨amount, fee, epoch⟩⟩

/-- Move `amount` of the public balance of `source` as the permanent delegate.
A frozen account is thawed and frozen again within the same transaction. -/
def seize (source destination : Address)
    (freezeAuthority permanentDelegate : Keypair) (amount : Nat) :
    Flow (World C) Error FeeTransfer := do
  let account ← World.loadAccount source
  let mint ← World.loadMint account.mint
  let epoch ← World.epoch
  let seizure ← Flow.ofExcept <|
    Seizure.prepare C.programs source destination freezeAuthority
      permanentDelegate amount account mint epoch
  let _ ← World.send seizure.instructions seizure.signers
  pure seizure.moved

/-- A seizure is a transfer, between a thaw and a freeze of its source when
that was frozen. -/
theorem Seizure.prepare_eq_ok
    {programs : Programs} {source destination : Address}
    {freezeAuthority permanentDelegate : Keypair} {amount epoch : Nat}
    {account : AccountSnapshot} {mint : MintSnapshot} {seizure : Seizure}
    (prepared :
      prepare programs source destination freezeAuthority permanentDelegate
        amount account mint epoch = .ok seizure) :
    ∃ fee,
      let transfer : Instruction :=
        .token (.transferCheckedWithFee source mint.address destination
          permanentDelegate.pubkey amount mint.decimals fee)
      seizure.moved = ⟨amount, fee, epoch⟩ ∧
        expectedFee mint epoch amount = .ok fee ∧
        (account.isFrozen = true ∧
            seizure.instructions =
              [.token (.thawAccount source mint.address
                  freezeAuthority.pubkey),
                transfer,
                .token (.freezeAccount source mint.address
                  freezeAuthority.pubkey)] ∧
            seizure.signers = [freezeAuthority, permanentDelegate] ∨
          account.isFrozen = false ∧ seizure.instructions = [transfer] ∧
            seizure.signers = [permanentDelegate]) := by
  unfold prepare at prepared
  obtain ⟨fee, expected, prepared⟩ := except_bind_eq_ok prepared
  obtain ⟨transfer, built, prepared⟩ := except_bind_eq_ok prepared
  obtain rfl := tokenInstruction_eq_ok built
  refine ⟨fee, ?_⟩
  split at prepared
  case isTrue frozen =>
      obtain ⟨thaw, thawBuilt, prepared⟩ := except_bind_eq_ok prepared
      obtain ⟨freeze, freezeBuilt, prepared⟩ := except_bind_eq_ok prepared
      obtain rfl := tokenInstruction_eq_ok thawBuilt
      obtain rfl := tokenInstruction_eq_ok freezeBuilt
      cases prepared
      exact ⟨rfl, expected, .inl ⟨frozen, rfl, rfl⟩⟩
  case isFalse unfrozen =>
      cases prepared
      exact ⟨rfl, expected, .inr ⟨by simpa using unfrozen, rfl, rfl⟩⟩

end Remit
