import Remit.Cluster

/-!
# Snapshots of mints and token accounts

The one place where mint and token-account data is decoded.  Each field of a
snapshot comes from the base state or from an extension.
-/

namespace Remit

open Flows

/-- A decoded mint. -/
structure MintSnapshot where
  address : Address
  decimals : Nat
  supply : Nat
  mintAuthority : Option Address
  freezeAuthority : Option Address
  extensions : List ExtensionType
  transferFee : Option TransferFeeConfig
  metadataPointer : Option MetadataPointer
  defaultAccountState : Option AccountState
  closeAuthority : Option Address
  permanentDelegate : Option Address
  confidential : Option ConfidentialTransferMint
  confidentialFee : Option ConfidentialTransferFeeConfig
  metadata : Option TokenMetadata
  dataLen : Nat
  lamports : Nat
deriving DecidableEq

/-- A decoded token account. -/
structure AccountSnapshot where
  address : Address
  mint : Address
  owner : Address
  amount : Nat
  state : AccountState
  delegate : Option Address
  delegatedAmount : Nat
  extensions : List ExtensionType
  withheldFee : Option Nat
  cpiGuard : Option Bool
  confidential : Option ConfidentialTransferAccount
  confidentialWithheld : Option ConfidentialTransferFeeAmount
  dataLen : Nat
  lamports : Nat
deriving DecidableEq

variable {Data : Type} (interface : TokenInterface Data)

/-- The `DefaultAccountState` extension; a state byte that encodes nothing is
an error. -/
def StateWithExtensions.readDefaultAccountState
    (mint : StateWithExtensions Mint) :
    Except ProgramError (Option AccountState) :=
  match mint.getExtension .defaultAccountState 1 (·.headD 0) with
  | .error _ => .ok none
  | .ok byte =>
      match AccountState.ofByte byte with
      | some state => .ok (some state)
      | none => .error .invalidAccountData

namespace MintSnapshot

/-- Decode mint data. -/
def decode (address : Address) (data : Data) (lamports : Nat) :
    Except Error MintSnapshot := do
  let mint ← ofProgram (interface.unpackMint data)
  let defaultAccountState ← ofProgram mint.readDefaultAccountState
  let extensions ← ofProgram mint.getExtensionTypes
  pure
    { address
      decimals := mint.base.decimals
      supply := mint.base.supply
      mintAuthority := mint.base.mintAuthority
      freezeAuthority := mint.base.freezeAuthority
      extensions
      transferFee :=
        (mint.getExtension .transferFeeConfig 108
          interface.transferFeeConfig).toOption
      metadataPointer :=
        (mint.getExtension .metadataPointer 64
          interface.metadataPointer).toOption
      defaultAccountState
      closeAuthority :=
        (mint.getExtension .mintCloseAuthority 32
          interface.mintCloseAuthority).toOption.join
      permanentDelegate :=
        (mint.getExtension .permanentDelegate 32
          interface.permanentDelegate).toOption.join
      confidential :=
        (mint.getExtension .confidentialTransferMint 65
          interface.confidentialTransferMint).toOption
      confidentialFee :=
        (mint.getExtension .confidentialTransferFeeConfig 129
          interface.confidentialTransferFeeConfig).toOption
      metadata :=
        (mint.getVariableLenExtension .tokenMetadata
          interface.tokenMetadata).toOption
      dataLen := interface.length data
      lamports }

/-- The transfer fee config, or an error if the mint has none. -/
def requireTransferFee (mint : MintSnapshot) :
    Except Error TransferFeeConfig :=
  match mint.transferFee with
  | some config => .ok config
  | none =>
      .error (.invalid
        ("mint " ++ mint.address.display ++ " has no TransferFeeConfig"))

theorem requireTransferFee_eq_ok
    {mint : MintSnapshot} {config : TransferFeeConfig}
    (required : mint.requireTransferFee = .ok config) :
    mint.transferFee = some config := by
  unfold requireTransferFee at required
  split at required
  case h_1 found =>
      cases required
      exact found
  case h_2 => cases required

end MintSnapshot

namespace AccountSnapshot

/-- Decode token-account data. -/
def decode (address : Address) (data : Data) (lamports : Nat) :
    Except Error AccountSnapshot := do
  let account ← ofProgram (interface.unpackAccount data)
  let extensions ← ofProgram account.getExtensionTypes
  pure
    { address
      mint := account.base.mint
      owner := account.base.owner
      amount := account.base.amount
      state := account.base.state
      delegate := account.base.delegate
      delegatedAmount := account.base.delegatedAmount
      extensions
      withheldFee :=
        (account.getExtension .transferFeeAmount 8
          interface.transferFeeAmount).toOption
      cpiGuard :=
        (account.getExtension .cpiGuard 1 interface.cpiGuard).toOption
      confidential :=
        (account.getExtension .confidentialTransferAccount 295
          interface.confidentialTransferAccount).toOption
      confidentialWithheld :=
        (account.getExtension .confidentialTransferFeeAmount 64
          interface.confidentialTransferFeeAmount).toOption
      dataLen := interface.length data
      lamports }

/-- Whether the freeze authority has frozen the account. -/
def isFrozen (account : AccountSnapshot) : Bool :=
  account.state = .frozen

/-- The confidential extension, or an error if the account is not configured. -/
def requireConfidential (account : AccountSnapshot) :
    Except Error ConfidentialTransferAccount :=
  match account.confidential with
  | some confidential => .ok confidential
  | none =>
      .error (.invalid
        ("token account " ++ account.address.display ++
          " is not configured for confidential transfers"))

theorem requireConfidential_eq_ok
    {account : AccountSnapshot} {state : ConfidentialTransferAccount}
    (required : account.requireConfidential = .ok state) :
    account.confidential = some state := by
  unfold requireConfidential at required
  split at required
  case h_1 found =>
      cases required
      exact found
  case h_2 => cases required

end AccountSnapshot

variable {C : Cluster}

/-- Fetch raw account data, failing if the account does not exist. -/
def fetch (world : World C) (address : Address) : Except Error C.Data :=
  match C.accountData world.state address with
  | some data => .ok data
  | none => .error (.accountNotFound address)

/-- Fetch and decode a mint. -/
def loadMint (world : World C) (address : Address) :
    Except Error MintSnapshot := do
  let data ← fetch world address
  MintSnapshot.decode C.interface address data
    (C.lamports world.state address)

/-- Fetch and decode a token account. -/
def loadAccount (world : World C) (address : Address) :
    Except Error AccountSnapshot := do
  let data ← fetch world address
  AccountSnapshot.decode C.interface address data
    (C.lamports world.state address)

/-- A decoded snapshot carries the address it was read from. -/
theorem MintSnapshot.decode_address
    {address : Address} {data : Data} {lamports : Nat} {mint : MintSnapshot}
    (decoded : decode interface address data lamports = .ok mint) :
    mint.address = address := by
  obtain ⟨_, _, decoded⟩ := except_bind_eq_ok decoded
  obtain ⟨_, _, decoded⟩ := except_bind_eq_ok decoded
  obtain ⟨_, _, decoded⟩ := except_bind_eq_ok decoded
  cases decoded
  rfl

theorem AccountSnapshot.decode_address
    {address : Address} {data : Data} {lamports : Nat}
    {account : AccountSnapshot}
    (decoded : decode interface address data lamports = .ok account) :
    account.address = address := by
  obtain ⟨_, _, decoded⟩ := except_bind_eq_ok decoded
  obtain ⟨_, _, decoded⟩ := except_bind_eq_ok decoded
  cases decoded
  rfl

end Remit
