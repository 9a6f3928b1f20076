import Remit.Compliance
import Remit.Token.Contract
import Remit.Token.Public

/-!
# The calls of the freeze authority

A call reads the chain, prepares a transaction from what it has read, and sends
it.  The preparation is a function of the chain, so that a call can be taken
apart into its reading and its sending.
-/

namespace Remit

open Flows

/-- A call that the freeze authority makes. -/
inductive FreezeCall where
  | approveKyc (tokenAccount : Address)
  | revokeKyc (tokenAccount : Address)
  | seize (source destination : Address) (permanentDelegate : Keypair)
      (amount : Nat)
deriving DecidableEq

/-- A call that has read the chain and not sent its transaction yet: the
account as it was read, and what will be sent. -/
structure PreparedCall where
  call : FreezeCall
  read : AccountSnapshot
  transaction : List Instruction
  signers : List Keypair
deriving DecidableEq

/-- The mints and token accounts of a state of the cluster, and its epoch. -/
def Cluster.tokenChain (C : Cluster) (state : C.State) : TokenChain where
  accounts := C.tokenAccounts state
  mints address :=
    (C.accountData state address).bind fun data =>
      (MintSnapshot.decode C.interface address data
        (C.lamports state address)).toOption
  epoch := C.epoch state

namespace TokenChain

/-- The token account at an address, if there is one. -/
def loadAccount (chain : TokenChain) (address : Address) :
    Except Error AccountSnapshot :=
  (chain.accounts address).elim (.error (.accountNotFound address)) .ok

/-- The mint at an address, if there is one. -/
def loadMint (chain : TokenChain) (address : Address) :
    Except Error MintSnapshot :=
  (chain.mints address).elim (.error (.accountNotFound address)) .ok

end TokenChain

section Reading

variable {C : Cluster} {world : World C} {address : Address}

theorem tokenChain_loadAccount
    {account : AccountSnapshot}
    (loaded : Remit.loadAccount world address = .ok account) :
    (C.tokenChain world.state).loadAccount address = .ok account := by
  obtain ⟨data, fetched, decoded⟩ := except_bind_eq_ok loaded
  unfold fetch at fetched
  split at fetched
  case h_2 => cases fetched
  case h_1 found present =>
      cases fetched
      simp [TokenChain.loadAccount, Cluster.tokenChain, Cluster.tokenAccounts,
        present, decoded, Except.toOption]

theorem tokenChain_loadMint
    {mint : MintSnapshot}
    (loaded : Remit.loadMint world address = .ok mint) :
    (C.tokenChain world.state).loadMint address = .ok mint := by
  obtain ⟨data, fetched, decoded⟩ := except_bind_eq_ok loaded
  unfold fetch at fetched
  split at fetched
  case h_2 => cases fetched
  case h_1 found present =>
      cases fetched
      simp [TokenChain.loadMint, Cluster.tokenChain, present, decoded,
        Except.toOption]

end Reading

namespace FreezeCall

variable (programs : Programs) (freezeAuthority : Keypair)

/-- What a call does before it sends anything. -/
def prepare (chain : TokenChain) :
    FreezeCall → Except Error PreparedCall
  | approveKyc tokenAccount => do
      let read ← chain.loadAccount tokenAccount
      let instruction ←
        kycClearance programs tokenAccount freezeAuthority.pubkey read
      pure ⟨.approveKyc tokenAccount, read, [instruction], [freezeAuthority]⟩
  | revokeKyc tokenAccount => do
      let read ← chain.loadAccount tokenAccount
      let instruction ←
        kycRevocation programs tokenAccount freezeAuthority.pubkey read
      pure ⟨.revokeKyc tokenAccount, read, [instruction], [freezeAuthority]⟩
  | seize source destination permanentDelegate amount => do
      let read ← chain.loadAccount source
      let mint ← chain.loadMint read.mint
      let seizure ← Seizure.prepare programs source destination freezeAuthority
        permanentDelegate amount read mint chain.epoch
      pure
        ⟨.seize source destination permanentDelegate amount, read,
          seizure.instructions, seizure.signers⟩

/-- Make the call. -/
def perform {C : Cluster} : FreezeCall → Flow (World C) Error Unit
  | approveKyc tokenAccount => Remit.approveKyc tokenAccount freezeAuthority
  | revokeKyc tokenAccount => Remit.revokeKyc tokenAccount freezeAuthority
  | seize source destination permanentDelegate amount => do
      let _ ← Remit.seize source destination freezeAuthority permanentDelegate
        amount

/-- Wherever it is made, a call sends nothing or what it has prepared from the
chain that it found. -/
theorem ensures_perform {C : Cluster} (call : FreezeCall) (world : World C) :
    Flow.Ensures (call.perform freezeAuthority) world fun _ reached =>
      reached.sent = world.sent ∨
        ∃ prepared,
          call.prepare C.programs freezeAuthority (C.tokenChain world.state) =
              .ok prepared ∧
            reached.sent =
              world.sent ++
                [world.sending prepared.transaction prepared.signers] := by
  cases call with
  | approveKyc tokenAccount =>
      refine .bind (World.ensures_loadAccount (fun account loaded => ?_)
        fun _ => .inl rfl)
      refine .bind (.ofExcept (fun instruction cleared => ?_)
        fun _ _ => .inl rfl)
      have prepared :
          (approveKyc tokenAccount).prepare C.programs freezeAuthority
              (C.tokenChain world.state) =
            .ok ⟨.approveKyc tokenAccount, account, [instruction],
              [freezeAuthority]⟩ := by
        simp only [prepare, tokenChain_loadAccount loaded, cleared,
          bind, Except.bind, pure, Except.pure]
      exact .bind (World.ensures_send
        (fun _ _ => .pure (.inr ⟨_, prepared, rfl⟩))
        fun _ _ => .inr ⟨_, prepared, rfl⟩)
  | revokeKyc tokenAccount =>
      refine .bind (World.ensures_loadAccount (fun account loaded => ?_)
        fun _ => .inl rfl)
      refine .bind (.ofExcept (fun instruction revoked => ?_)
        fun _ _ => .inl rfl)
      have prepared :
          (revokeKyc tokenAccount).prepare C.programs freezeAuthority
              (C.tokenChain world.state) =
            .ok ⟨.revokeKyc tokenAccount, account, [instruction],
              [freezeAuthority]⟩ := by
        simp only [prepare, tokenChain_loadAccount loaded, revoked,
          bind, Except.bind, pure, Except.pure]
      exact .bind (World.ensures_send
        (fun _ _ => .pure (.inr ⟨_, prepared, rfl⟩))
        fun _ _ => .inr ⟨_, prepared, rfl⟩)
  | seize source destination permanentDelegate amount =>
      refine .bind (.bind (World.ensures_loadAccount
        (fun account loaded => ?_) fun _ => .inl rfl))
      refine .bind (World.ensures_loadMint (fun mint mintLoaded => ?_)
        fun _ => .inl rfl)
      refine .bind (.read ?_)
      refine .bind (.ofExcept (fun seizure planned => ?_)
        fun _ _ => .inl rfl)
      have prepared :
          (seize source destination permanentDelegate amount).prepare
              C.programs freezeAuthority (C.tokenChain world.state) =
            .ok ⟨.seize source destination permanentDelegate amount, account,
              seizure.instructions, seizure.signers⟩ := by
        have sameEpoch :
            (C.tokenChain world.state).epoch = C.epoch world.state := rfl
        simp only [prepare, tokenChain_loadAccount loaded,
          tokenChain_loadMint mintLoaded, sameEpoch, planned, bind, Except.bind,
          pure, Except.pure]
      exact .bind (World.ensures_send
        (fun _ _ => .pure (.pure (.inr ⟨_, prepared, rfl⟩)))
        fun _ _ => .inr ⟨_, prepared, rfl⟩)

end FreezeCall

/-- What the transactions of the freeze authority look like. -/
inductive PreparedCall.Sound (freezeAuthority : Keypair) :
    PreparedCall → Prop where
  | approve (tokenAccount : Address) (read : AccountSnapshot)
      (signers : List Keypair) :
      Sound freezeAuthority
        ⟨.approveKyc tokenAccount, read,
          [.token (.thawAccount tokenAccount read.mint
            freezeAuthority.pubkey)],
          signers⟩
  | revoke (tokenAccount : Address) (read : AccountSnapshot)
      (signers : List Keypair) :
      Sound freezeAuthority
        ⟨.revokeKyc tokenAccount, read,
          [.token (.freezeAccount tokenAccount read.mint
            freezeAuthority.pubkey)],
          signers⟩
  | seizeOpen (source destination : Address) (permanentDelegate : Keypair)
      (amount : Nat) (read : AccountSnapshot) (mint : Address)
      (decimals fee : Nat) (signers : List Keypair) :
      Sound freezeAuthority
        ⟨.seize source destination permanentDelegate amount, read,
          [.token (.transferCheckedWithFee source mint destination
            permanentDelegate.pubkey amount decimals fee)],
          signers⟩
  | seizeFrozen (source destination : Address) (permanentDelegate : Keypair)
      (amount : Nat) (read : AccountSnapshot) (mint : Address)
      (decimals fee : Nat) (signers : List Keypair) :
      Sound freezeAuthority
        ⟨.seize source destination permanentDelegate amount, read,
          [.token (.thawAccount source mint freezeAuthority.pubkey),
            .token (.transferCheckedWithFee source mint destination
              permanentDelegate.pubkey amount decimals fee),
            .token (.freezeAccount source mint freezeAuthority.pubkey)],
          signers⟩

theorem FreezeCall.prepare_sound
    {programs : Programs} {freezeAuthority : Keypair} {chain : TokenChain}
    {call : FreezeCall} {prepared : PreparedCall}
    (ready : call.prepare programs freezeAuthority chain = .ok prepared) :
    prepared.Sound freezeAuthority := by
  cases call with
  | approveKyc tokenAccount =>
      obtain ⟨read, _, ready⟩ := except_bind_eq_ok ready
      obtain ⟨instruction, cleared, ready⟩ := except_bind_eq_ok ready
      obtain ⟨_, _, rfl⟩ := kycClearance_eq_ok cleared
      cases ready
      exact .approve ..
  | revokeKyc tokenAccount =>
      obtain ⟨read, _, ready⟩ := except_bind_eq_ok ready
      obtain ⟨instruction, revoked, ready⟩ := except_bind_eq_ok ready
      obtain ⟨_, rfl⟩ := kycRevocation_eq_ok revoked
      cases ready
      exact .revoke ..
  | seize source destination permanentDelegate amount =>
      obtain ⟨read, _, ready⟩ := except_bind_eq_ok ready
      obtain ⟨mint, _, ready⟩ := except_bind_eq_ok ready
      obtain ⟨seizure, planned, ready⟩ := except_bind_eq_ok ready
      obtain ⟨fee, _, _, shape⟩ := Seizure.prepare_eq_ok planned
      cases ready
      rcases shape with ⟨_, instructions, _⟩ | ⟨_, instructions, _⟩
      · rw [instructions]
        exact .seizeFrozen ..
      · rw [instructions]
        exact .seizeOpen ..

end Remit
