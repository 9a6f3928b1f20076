import Remit.Cluster.Quiet
import Remit.Token.Metadata

/-!
# A cluster on which mints are issued

A cluster that keeps the data of the mints that are created on it, together with
their metadata and what they hold.  Nobody else acts.
-/

namespace Remit
namespace Issuing

open Quiet (Tokens)

structure State where
  accounts : Accounts
  tokens : Tokens
  lamports : Address → Nat

/-- The interface, with metadata in packed bytes. -/
def interface : TokenInterface TokenData :=
  { Layout.interface with
    getPackedLen := fun metadata => .ok metadata.pack.length
    tokenMetadata := fun bytes =>
      match Packed.metadata.read bytes with
      | some metadata => .ok metadata
      | none => .error .invalidAccountData }

/-- The mints and token accounts, as far as they decode. -/
def State.chain (state : State) : TokenChain where
  accounts address :=
    (state.tokens address).bind fun data =>
      (AccountSnapshot.decode interface address data
        (state.lamports address)).toOption
  mints address :=
    (state.tokens address).bind fun data =>
      (MintSnapshot.decode interface address data
        (state.lamports address)).toOption
  epoch := 0

/-! ## Creating a mint -/

/-- The bytes of a new extension. -/
def configValue : ExtensionConfig → Bytes
  | .transferFeeConfig feeAuthority withdrawAuthority basisPoints maximumFee =>
      Layout.writeFeeConfig
        ⟨feeAuthority, withdrawAuthority, 0, ⟨0, maximumFee, basisPoints⟩,
          ⟨0, maximumFee, basisPoints⟩⟩
  | .metadataPointer authority metadataAddress =>
      Layout.writeFields
        [(32, Layout.writeKey authority), (32, Layout.writeKey metadataAddress)]
  | .defaultAccountState .uninitialized => [0]
  | .defaultAccountState .initialized => [1]
  | .defaultAccountState .frozen => [2]
  | .mintCloseAuthority closeAuthority =>
      leBytes 32 (Layout.writeKey closeAuthority)
  | .permanentDelegate delegate => delegate.bytes
  | .confidentialTransferMint authority autoApprove auditor =>
      Layout.writeFields
        [(32, Layout.writeKey authority), (1, autoApprove.toNat),
          (32, auditor.elim 0 (·.code))]
  | .confidentialTransferFeeConfig authority withdrawWithheld =>
      Layout.writeFields
        [(32, Layout.writeKey authority), (32, withdrawWithheld.code), (1, 1),
          (64, 0)]

/-- The extension that an instruction initializes. -/
def configuredBy : TokenInstruction → Option TlvEntry
  | .initializeExtension _ config =>
      some ⟨config.extensionType, configValue config⟩
  | _ => none

/-- The base state that an instruction initializes. -/
def initializedBy : TokenInstruction → Option Mint
  | .initializeMint2 _ mintAuthority freezeAuthority decimals =>
      some ⟨some mintAuthority, 0, decimals, freezeAuthority⟩
  | _ => none

/-- The state with a new mint. -/
def State.withMint (state : State) (mint : Address) (lamports : Nat)
    (instructions : List TokenInstruction) : State :=
  { state with
    tokens := Function.update state.tokens mint <|
      (instructions.findSome? initializedBy).map fun base =>
        .mint base (instructions.filterMap configuredBy)
    lamports := Function.update state.lamports mint lamports }

/-- Create a mint, if it takes exactly the space that it is given. -/
def State.create (state : State) (mint : Address) (lamports space : Nat)
    (instructions : List TokenInstruction) : Option State :=
  let next := state.withMint mint lamports instructions
  match next.chain.mints mint with
  | none => none
  | some created =>
      if created.dataLen = space ∧ created.lamports = lamports ∧
          created.metadata = none then
        some next
      else none

theorem State.create_eq_some
    {state next : State} {mint : Address} {lamports space : Nat}
    {instructions : List TokenInstruction}
    (done : state.create mint lamports space instructions = some next) :
    ∃ created,
      next.chain.mints mint = some created ∧ created.metadata = none ∧
        created.dataLen = space ∧ created.lamports = lamports := by
  unfold State.create at done
  dsimp only at done
  split at done
  case h_1 => cases done
  case h_2 created found =>
      split at done
      case isFalse => cases done
      case isTrue exact =>
          cases done
          exact ⟨created, found, exact.2.2, exact.1, exact.2.1⟩

/-! ## Describing a mint -/

/-- The data of a mint with other metadata. -/
def withMetadata (metadata : TokenMetadata) : TokenData → TokenData
  | .mint base entries =>
      .mint base <|
        entries.filter (·.extensionType ≠ .tokenMetadata) ++
          [⟨.tokenMetadata, metadata.pack⟩]
  | data => data

/-- The state once the metadata of some mints was written. -/
def State.written (state : State) (chain : TokenChain)
    (touched : List Address) : State :=
  { state with
    tokens := fun address =>
      if address ∈ touched then
        match (chain.mints address).bind (·.metadata) with
        | some metadata => (state.tokens address).map (withMetadata metadata)
        | none => state.tokens address
      else state.tokens address }

/-- Carry out instructions about metadata, if what they lead to has a
layout. -/
def State.describe (state : State) (signers : List Address)
    (instructions : List TokenInstruction) : Option State :=
  let touched := instructions.filterMap (·.describedMint)
  match state.chain.describeAll signers instructions with
  | none => none
  | some chain =>
      let next := state.written chain touched
      if ∀ address ∈ touched,
          next.chain.accounts address = chain.accounts address ∧
            next.chain.mints address = chain.mints address then
        some next
      else none

theorem State.describe_eq_some
    {state next : State} {signers : List Address}
    {instructions : List TokenInstruction}
    (done : state.describe signers instructions = some next) :
    state.chain.describeAll signers instructions = some next.chain := by
  unfold State.describe at done
  dsimp only at done
  split at done
  case h_1 => cases done
  case h_2 chain described =>
      split at done
      case isFalse => cases done
      case isTrue laidOut =>
          cases done
          obtain ⟨accounts, epoch, mints⟩ :=
            TokenChain.describeAll_elsewhere described
          rw [described]
          have agree : ∀ address,
              chain.accounts address =
                  (state.written chain (instructions.filterMap
                    (·.describedMint))).chain.accounts address ∧
                chain.mints address =
                  (state.written chain (instructions.filterMap
                    (·.describedMint))).chain.mints address := by
            intro address
            by_cases here :
                address ∈ instructions.filterMap (·.describedMint)
            · exact ⟨(laidOut address here).1.symm,
                (laidOut address here).2.symm⟩
            · rw [accounts, mints address here]
              simp only [State.chain, State.written, if_neg here, and_self]
          exact congrArg some <| TokenChain.ext
            (funext fun address => (agree address).1)
            (funext fun address => (agree address).2) epoch

/-! ## The cluster -/

/-- Carry out a transaction that creates a mint or describes mints. -/
def State.carryOut (state : State) (signers : List Address) :
    List Instruction → Option State
  | .createAccount _ mint lamports space _ :: rest =>
      state.create mint lamports space (tokenInstructions rest)
  | transaction => state.describe signers (tokenInstructions transaction)

/-- The state after a transaction, if it can be carried out. -/
def process (state : State) (transaction : List Instruction)
    (signers : List Keypair) : Option State :=
  let keys := Quiet.payer :: signers.map (·.pubkey)
  match runTransaction Quiet.programs keys transaction state.accounts with
  | none => none
  | some accounts =>
      (state.carryOut keys transaction).map ({ · with accounts })

def send (state : State) (transaction : List Instruction)
    (signers : List Keypair) : Delivery State :=
  match process state transaction signers with
  | some after => ⟨.ok ⟨0, 0, []⟩, state, after, after⟩
  | none => ⟨.error (.transaction (.other 0) []), state, state, state⟩

section Sending

variable {state : State} {transaction : List Instruction}
  {signers : List Keypair}

theorem process_eq_some
    {next : State} (processed : process state transaction signers = some next) :
    runTransaction Quiet.programs (Quiet.payer :: signers.map (·.pubkey))
        transaction state.accounts = some next.accounts ∧
      ∃ carried,
        state.carryOut (Quiet.payer :: signers.map (·.pubkey)) transaction =
            some carried ∧
          next.chain = carried.chain := by
  unfold process at processed
  dsimp only at processed
  split at processed
  case h_1 => cases processed
  case h_2 accounts ran =>
      obtain ⟨carried, done, rfl⟩ := Option.map_eq_some_iff.mp processed
      exact ⟨ran, carried, done, rfl⟩

theorem send_attempts :
    (send state transaction signers).Attempts state
      (process state transaction signers) id := by
  unfold send
  cases process state transaction signers with
  | none => exact .leftAlone state id (.transaction (.other 0) [])
  | some after => exact .carriedOut state id _ after

end Sending

/-- The cluster.  What is rent-exempt grows with the space. -/
def cluster : Cluster where
  programs := Quiet.programs
  State := State
  Data := TokenData
  interface := interface
  payer := Quiet.payer
  keypairs := Quiet.keypair
  held _ := True
  accountData := State.tokens
  lamports := State.lamports
  epoch _ := 0
  minimumBalanceForRentExemption _ space := (128 + space) * 6960
  send := send
  accounts := State.accounts
  held_payer := trivial
  held_keypair _ := trivial
  outsiders_before state transaction signers := by
    rw [send_attempts.before]
    exact .refl _
  landed state transaction signers receipt landed := by
    rw [send_attempts.before]
    exact (process_eq_some (send_attempts.ok landed)).1
  not_landed state transaction signers error failed := by
    rw [send_attempts.error failed, send_attempts.before]
  outsiders_after state transaction signers := by
    rw [send_attempts.next]
    exact .refl _

theorem carryOut_map
    (state : State) (signers : List Address)
    (instructions : List TokenInstruction) :
    state.carryOut signers (instructions.map .token) =
      state.describe signers instructions := by
  rw [← congrArg (state.describe signers) (tokenInstructions_map instructions)]
  cases instructions with
  | nil => rfl
  | cons => rfl

end Issuing
end Remit
