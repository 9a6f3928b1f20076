import Remit.Solana.Instruction
import Remit.Library.Overwrite
import Mathlib.Logic.Function.Basic
import Mathlib.Logic.Relation

/-!
# What a successful instruction does to proof accounts and mints

The accounts of interest are those of the ZK ElGamal Proof program, those of
`spl-record` and mints.  `Instruction.effect` states, for an instruction that
succeeds, which one of them it changes and how, as the programs document it:
an account is created only with its own signature and where none exists; a
program initializes an account only once, and needs no signature for it; an
initialized account is written, closed or handed over only with the signature
of its authority.
-/

namespace Remit

/-- What `InitializeMint2` writes. -/
structure MintBase where
  mintAuthority : Option Address
  freezeAuthority : Option Address
  decimals : Nat
deriving DecidableEq

/-- A Token-2022-owned account that is becoming or has become a mint.  `base`
is empty until `InitializeMint2`. -/
structure MintState where
  space : Nat
  extensions : List ExtensionConfig
  base : Option MintBase
deriving DecidableEq

inductive Account where
  /-- Created for `owner` and not yet initialized. -/
  | uninitialized (owner : Address) (space : Nat)
  /-- A context-state account with the proof verified into it. -/
  | context (authority : Address) (instruction : ProofInstruction)
      (proof : Bytes)
  /-- An initialized record account with the bytes after its header. -/
  | record (authority : Address) (payload : Bytes)
  | mint (state : MintState)
deriving DecidableEq

abbrev Accounts := Address → Option Account

namespace RecordData

/-- Bytes of the record header, after which the payload starts. -/
def WRITABLE_START_INDEX : Nat := 33

end RecordData

/-- The authority an extension was initialized with. -/
def ExtensionConfig.authority : ExtensionConfig → Option Address
  | transferFeeConfig feeAuthority .. => feeAuthority
  | metadataPointer authority _ => authority
  | defaultAccountState _ => none
  | mintCloseAuthority closeAuthority => closeAuthority
  | permanentDelegate delegate => some delegate
  | confidentialTransferMint authority .. => authority
  | confidentialTransferFeeConfig authority _ => authority

/-- The extension with another authority. -/
def ExtensionConfig.withAuthority (authority : Option Address) :
    ExtensionConfig → ExtensionConfig
  | transferFeeConfig _ withdrawAuthority basisPoints maximumFee =>
      transferFeeConfig authority withdrawAuthority basisPoints maximumFee
  | metadataPointer _ metadataAddress =>
      metadataPointer authority metadataAddress
  | defaultAccountState state => defaultAccountState state
  | mintCloseAuthority _ => mintCloseAuthority authority
  | permanentDelegate delegate => permanentDelegate (authority.getD delegate)
  | confidentialTransferMint _ autoApprove auditor =>
      confidentialTransferMint authority autoApprove auditor
  | confidentialTransferFeeConfig _ withdrawWithheld =>
      confidentialTransferFeeConfig authority withdrawWithheld

namespace MintState

/-- The authority of an extension, if the mint has it. -/
def extensionAuthority (mint : MintState) (type : ExtensionType) :
    Option Address :=
  (mint.extensions.find? (·.extensionType = type)).bind (·.authority)

/-- Who may exercise a power over an initialized mint. -/
def authority (mint : MintState) : AuthorityType → Option Address
  | .mintTokens => mint.base.bind (·.mintAuthority)
  | .freezeAccount => mint.base.bind (·.freezeAuthority)
  | .accountOwner => none
  | .closeAccount => mint.extensionAuthority .mintCloseAuthority
  | .extension type => mint.extensionAuthority type

/-- Hand a power over the mint to another authority. -/
def setAuthority (mint : MintState) (type : AuthorityType)
    (newAuthority : Option Address) : MintState :=
  let replace (type : ExtensionType) : MintState :=
    { mint with
      extensions := mint.extensions.map fun config =>
        if config.extensionType = type then
          config.withAuthority newAuthority
        else config }
  match type with
  | .mintTokens =>
      { mint with
        base := mint.base.map ({ · with mintAuthority := newAuthority }) }
  | .freezeAccount =>
      { mint with
        base := mint.base.map ({ · with freezeAuthority := newAuthority }) }
  | .accountOwner => mint
  | .closeAccount => replace .mintCloseAuthority
  | .extension type => replace type

end MintState

/-- The one account a successful instruction changes, if any. -/
inductive Change where
  | keep
  | set (address : Address) (account : Option Account)

/-- Carry out a change. -/
def Change.run (accounts : Accounts) : Change → Accounts
  | keep => accounts
  | set address account => Function.update accounts address account

/-- The account `CreateAccount` leaves, if it is one of interest. -/
def createdAccount (programs : Programs) (owner : Address) (space : Nat) :
    Option Account :=
  if owner = programs.record ∨ owner = programs.zkElGamalProof then
    some (.uninitialized owner space)
  else if owner = programs.token2022 then
    some (.mint ⟨space, [], none⟩)
  else none

/-- What a verification writes into its context-state account. -/
def verifiedInto (programs : Programs) (accounts : Accounts)
    (instruction : ProofInstruction) (proof : Bytes) :
    Option ContextStateInfo → Option Change
  | none => some .keep
  | some context =>
      match accounts context.contextStateAccount with
      | some (.uninitialized owner _) =>
          if owner = programs.zkElGamalProof then
            some <| .set context.contextStateAccount <|
              some (.context context.contextStateAuthority instruction proof)
          else none
      | _ => none

/-- What a successful Token-2022 instruction does to mints.  Only
initialization, `SetAuthority` and `CloseAccount` touch what is modelled. -/
def TokenInstruction.effect (signers : List Address) (accounts : Accounts) :
    TokenInstruction → Option Change
  | initializeExtension mint config =>
      match accounts mint with
      | some (.mint state) =>
          if state.base = none ∧
              config.extensionType ∉
                state.extensions.map (·.extensionType) then
            some <| .set mint <| some <| .mint
              { state with extensions := state.extensions ++ [config] }
          else none
      | _ => none
  | initializeMint2 mint mintAuthority freezeAuthority decimals =>
      match accounts mint with
      | some (.mint state) =>
          if state.base = none then
            some <| .set mint <| some <| .mint
              { state with
                base := some ⟨some mintAuthority, freezeAuthority, decimals⟩ }
          else none
      | _ => none
  | closeAccount account _ authority =>
      match accounts account with
      | some (.mint state) =>
          if authority ∈ signers ∧
              state.authority .closeAccount = some authority then
            some (.set account none)
          else none
      | _ => some .keep
  | setAuthority account authority type newAuthority =>
      match accounts account with
      | some (.mint state) =>
          if authority ∈ signers ∧ state.authority type = some authority then
            some <| .set account <| some <| .mint
              (state.setAuthority type newAuthority)
          else none
      | _ => some .keep
  | _ => some .keep

/-- What a successful instruction does, or `none` where the instruction cannot
succeed.  `signers` are the keys that signed the transaction.  Data outside
record accounts is not modelled, so proofs are read from records only. -/
def Instruction.effect (programs : Programs) (signers : List Address)
    (accounts : Accounts) : Instruction → Option Change
  | setComputeUnitLimit _ => some .keep
  | createAccount fromAddress toAddress _ space owner =>
      if fromAddress ∈ signers ∧ toAddress ∈ signers ∧
          accounts toAddress = none then
        some (.set toAddress (createdAccount programs owner space))
      else none
  | recordInitialize record authority =>
      match accounts record with
      | some (.uninitialized owner space) =>
          if owner = programs.record ∧
              RecordData.WRITABLE_START_INDEX ≤ space then
            some <| .set record <| some <| .record authority <|
              List.replicate (space - RecordData.WRITABLE_START_INDEX) 0
          else none
      | _ => none
  | recordWrite record authority offset data =>
      match accounts record with
      | some (.record owner payload) =>
          if owner = authority ∧ authority ∈ signers ∧
              offset + data.length ≤ payload.length then
            some <| .set record <| some <| .record authority <|
              Overwrite.overwrite payload offset data
          else none
      | _ => none
  | recordSetAuthority record authority newAuthority =>
      match accounts record with
      | some (.record owner payload) =>
          if owner = authority ∧ authority ∈ signers then
            some (.set record (some (.record newAuthority payload)))
          else none
      | _ => none
  | recordCloseAccount record authority _ =>
      match accounts record with
      | some (.record owner _) =>
          if owner = authority ∧ authority ∈ signers then
            some (.set record none)
          else none
      | _ => none
  | verifyProof instruction context proof =>
      verifiedInto programs accounts instruction proof context
  | verifyProofFromAccount instruction context account offset =>
      match accounts account with
      | some (.record _ payload) =>
          verifiedInto programs accounts instruction
            (payload.drop (offset - RecordData.WRITABLE_START_INDEX)) context
      | _ => none
  | closeContextState context _ =>
      match accounts context.contextStateAccount with
      | some (.context authority _ _) =>
          if authority = context.contextStateAuthority ∧
              authority ∈ signers then
            some (.set context.contextStateAccount none)
          else none
      | _ => none
  | token instruction => instruction.effect signers accounts

/-- The accounts after one successful instruction. -/
def Instruction.run (programs : Programs) (signers : List Address)
    (accounts : Accounts) (instruction : Instruction) : Option Accounts :=
  (instruction.effect programs signers accounts).map (Change.run accounts)

/-- The accounts after a transaction all of whose instructions succeed. -/
def runTransaction (programs : Programs) (signers : List Address) :
    List Instruction → Accounts → Option Accounts
  | [], accounts => some accounts
  | instruction :: rest, accounts =>
      (instruction.run programs signers accounts).bind
        (runTransaction programs signers rest)

/-- Instructions of parties that hold none of the keys in `held`. -/
def Outsiders (programs : Programs) (held : Address → Prop) :
    Accounts → Accounts → Prop :=
  Relation.ReflTransGen fun before after =>
    ∃ signers instruction,
      (∀ key ∈ signers, ¬ held key) ∧
        Instruction.run programs signers before instruction = some after

end Remit
