import Remit.Solana.Error

/-!
# Instructions

An instruction is modelled by the call of the builder that makes it; `wire`
gives the program, account list and data that the builder puts into it, from
which the size of a transaction is computed.  The builders of the system,
compute-budget, `spl-record` and ZK ElGamal Proof programs have one constructor
each.  Token-2022 instructions form a type of their own; their wire form is a
parameter.
-/

namespace Remit

/-- The instructions of the ZK ElGamal Proof program. -/
inductive ProofInstruction where
  | closeContextState
  | verifyZeroCiphertext
  | verifyCiphertextCiphertextEquality
  | verifyCiphertextCommitmentEquality
  | verifyPubkeyValidity
  | verifyPercentageWithCap
  | verifyBatchedRangeProofU64
  | verifyBatchedRangeProofU128
  | verifyBatchedRangeProofU256
  | verifyGroupedCiphertext2HandlesValidity
  | verifyBatchedGroupedCiphertext2HandlesValidity
  | verifyGroupedCiphertext3HandlesValidity
  | verifyBatchedGroupedCiphertext3HandlesValidity
deriving DecidableEq, Repr

namespace ProofInstruction

/-- The `Debug` text of an instruction. -/
def name : ProofInstruction → String
  | closeContextState => "CloseContextState"
  | verifyZeroCiphertext => "VerifyZeroCiphertext"
  | verifyCiphertextCiphertextEquality => "VerifyCiphertextCiphertextEquality"
  | verifyCiphertextCommitmentEquality => "VerifyCiphertextCommitmentEquality"
  | verifyPubkeyValidity => "VerifyPubkeyValidity"
  | verifyPercentageWithCap => "VerifyPercentageWithCap"
  | verifyBatchedRangeProofU64 => "VerifyBatchedRangeProofU64"
  | verifyBatchedRangeProofU128 => "VerifyBatchedRangeProofU128"
  | verifyBatchedRangeProofU256 => "VerifyBatchedRangeProofU256"
  | verifyGroupedCiphertext2HandlesValidity =>
      "VerifyGroupedCiphertext2HandlesValidity"
  | verifyBatchedGroupedCiphertext2HandlesValidity =>
      "VerifyBatchedGroupedCiphertext2HandlesValidity"
  | verifyGroupedCiphertext3HandlesValidity =>
      "VerifyGroupedCiphertext3HandlesValidity"
  | verifyBatchedGroupedCiphertext3HandlesValidity =>
      "VerifyBatchedGroupedCiphertext3HandlesValidity"

end ProofInstruction

/-- A 64-byte ElGamal ciphertext, as the number its bytes spell. -/
structure PodElGamalCiphertext where
  code : Nat
deriving DecidableEq, Inhabited

structure PodElGamalPubkey where
  code : Nat
deriving DecidableEq, Inhabited

/-- A 36-byte authenticated-encryption ciphertext. -/
structure DecryptableBalance where
  code : Nat
deriving DecidableEq, Inhabited

inductive ExtensionType where
  | transferFeeConfig
  | transferFeeAmount
  | mintCloseAuthority
  | confidentialTransferMint
  | confidentialTransferAccount
  | defaultAccountState
  | immutableOwner
  | cpiGuard
  | permanentDelegate
  | confidentialTransferFeeConfig
  | confidentialTransferFeeAmount
  | metadataPointer
  | tokenMetadata
  | other (number : Nat)
deriving DecidableEq, Repr

inductive AccountState where
  | uninitialized
  | initialized
  | frozen
deriving DecidableEq, Repr

/-- The account state a byte encodes. -/
def AccountState.ofByte : UInt8 → Option AccountState
  | 0 => some uninitialized
  | 1 => some initialized
  | 2 => some frozen
  | _ => none

/-- What an extension-init instruction writes into a mint. -/
inductive ExtensionConfig where
  | transferFeeConfig (feeAuthority withdrawAuthority : Option Address)
      (transferFeeBasisPoints maximumFee : Nat)
  | metadataPointer (authority metadataAddress : Option Address)
  | defaultAccountState (state : AccountState)
  | mintCloseAuthority (closeAuthority : Option Address)
  | permanentDelegate (delegate : Address)
  | confidentialTransferMint (authority : Option Address)
      (autoApproveNewAccounts : Bool) (auditor : Option PodElGamalPubkey)
  | confidentialTransferFeeConfig (authority : Option Address)
      (withdrawWithheld : PodElGamalPubkey)
deriving DecidableEq

/-- The extension an init instruction initializes. -/
def ExtensionConfig.extensionType : ExtensionConfig → ExtensionType
  | transferFeeConfig .. => .transferFeeConfig
  | metadataPointer .. => .metadataPointer
  | defaultAccountState .. => .defaultAccountState
  | mintCloseAuthority .. => .mintCloseAuthority
  | permanentDelegate .. => .permanentDelegate
  | confidentialTransferMint .. => .confidentialTransferMint
  | confidentialTransferFeeConfig .. => .confidentialTransferFeeConfig

inductive AuthorityType where
  | mintTokens
  | freezeAccount
  | accountOwner
  | closeAccount
  | extension (extensionType : ExtensionType)
deriving DecidableEq

/-- The accounts and values of a confidential `TransferWithFee` whose five
proofs are all in context-state accounts. -/
structure TransferWithFee where
  source : Address
  mint : Address
  destination : Address
  newDecryptableBalance : DecryptableBalance
  auditorCiphertextLo : PodElGamalCiphertext
  auditorCiphertextHi : PodElGamalCiphertext
  authority : Address
  equality : Address
  amountValidity : Address
  feeSigma : Address
  feeValidity : Address
  range : Address
deriving DecidableEq

/-- The accounts and values of a confidential `Withdraw` whose equality proof
travels at a relative instruction offset. -/
structure Withdraw where
  tokenAccount : Address
  mint : Address
  amount : Nat
  decimals : Nat
  newDecryptableBalance : DecryptableBalance
  authority : Address
  equalityOffset : Int
  range : Address
deriving DecidableEq

/-- The Token-2022 instructions the library builds, and `SetAuthority`, which
only other parties send. -/
inductive TokenInstruction where
  | initializeExtension (mint : Address) (config : ExtensionConfig)
  | initializeMint2 (mint mintAuthority : Address)
      (freezeAuthority : Option Address) (decimals : Nat)
  | initializeMetadata (metadata updateAuthority mint mintAuthority : Address)
      (name symbol uri : String)
  | updateField (metadata updateAuthority : Address) (key value : String)
  | transferCheckedWithFee (source mint destination authority : Address)
      (amount decimals fee : Nat)
  | setTransferFee (mint authority : Address)
      (transferFeeBasisPoints maximumFee : Nat)
  | harvestWithheldTokensToMint (mint : Address) (sources : List Address)
  | withdrawWithheldTokensFromMint (mint destination authority : Address)
  | thawAccount (account mint authority : Address)
  | freezeAccount (account mint authority : Address)
  | updateDefaultAccountState (mint authority : Address) (state : AccountState)
  | mintToChecked (mint destination authority : Address)
      (amount decimals : Nat)
  | approveChecked (source mint delegate authority : Address)
      (amount decimals : Nat)
  | reallocate (account payer owner : Address)
      (extensions : List ExtensionType)
  | enableCpiGuard (account owner : Address)
  | closeAccount (account destination authority : Address)
  | setAuthority (account authority : Address) (authorityType : AuthorityType)
      (newAuthority : Option Address)
  | configureAccount (account mint : Address)
      (decryptableZeroBalance : DecryptableBalance)
      (maximumPendingBalanceCreditCounter : Nat) (authority : Address)
      (proofOffset : Int)
  | approveAccount (account mint authority : Address)
  | deposit (account mint : Address) (amount decimals : Nat)
      (authority : Address)
  | applyPendingBalance (account : Address)
      (expectedPendingBalanceCreditCounter : Nat)
      (newDecryptableBalance : DecryptableBalance) (authority : Address)
  | transferWithFee (transfer : TransferWithFee)
  | withdraw (withdraw : Withdraw)
deriving DecidableEq

/-- The context-state account of a verification and its future authority. -/
structure ContextStateInfo where
  contextStateAccount : Address
  contextStateAuthority : Address
deriving DecidableEq

/-- Instructions, one constructor for each builder. -/
inductive Instruction where
  | setComputeUnitLimit (units : Nat)
  | createAccount (fromAddress toAddress : Address) (lamports space : Nat)
      (owner : Address)
  | recordInitialize (record authority : Address)
  | recordWrite (record authority : Address) (offset : Nat) (data : Bytes)
  | recordSetAuthority (record authority newAuthority : Address)
  | recordCloseAccount (record authority receiver : Address)
  | verifyProof (instruction : ProofInstruction)
      (context : Option ContextStateInfo) (proof : Bytes)
  | verifyProofFromAccount (instruction : ProofInstruction)
      (context : Option ContextStateInfo) (account : Address) (offset : Nat)
  | closeContextState (context : ContextStateInfo) (destination : Address)
  | token (instruction : TokenInstruction)
deriving DecidableEq

structure AccountMeta where
  pubkey : Address
  isSigner : Bool
  isWritable : Bool
deriving DecidableEq

namespace AccountMeta

def new (pubkey : Address) (isSigner : Bool) : AccountMeta :=
  ⟨pubkey, isSigner, true⟩

def newReadonly (pubkey : Address) (isSigner : Bool) : AccountMeta :=
  ⟨pubkey, isSigner, false⟩

end AccountMeta

/-- An instruction as it enters a message. -/
structure WireInstruction where
  programId : Address
  accounts : List AccountMeta
  data : Bytes
deriving DecidableEq

/-- The programs involved: their distinct addresses, and what the Token-2022
interface crate puts into its instructions or refuses to build. -/
structure Programs where
  system : Address
  computeBudget : Address
  record : Address
  zkElGamalProof : Address
  token2022 : Address
  distinct : [system, computeBudget, record, zkElGamalProof, token2022].Nodup
  tokenWire : TokenInstruction → WireInstruction
  tokenCheck : TokenInstruction → Except ProgramError Unit

namespace ProofInstruction

/-- The one-byte tag of an instruction. -/
def tag : ProofInstruction → UInt8
  | closeContextState => 0
  | verifyZeroCiphertext => 1
  | verifyCiphertextCiphertextEquality => 2
  | verifyCiphertextCommitmentEquality => 3
  | verifyPubkeyValidity => 4
  | verifyPercentageWithCap => 5
  | verifyBatchedRangeProofU64 => 6
  | verifyBatchedRangeProofU128 => 7
  | verifyBatchedRangeProofU256 => 8
  | verifyGroupedCiphertext2HandlesValidity => 9
  | verifyBatchedGroupedCiphertext2HandlesValidity => 10
  | verifyGroupedCiphertext3HandlesValidity => 11
  | verifyBatchedGroupedCiphertext3HandlesValidity => 12

end ProofInstruction

/-- The accounts a verification names for its context-state account. -/
def contextMetas : Option ContextStateInfo → List AccountMeta
  | none => []
  | some context =>
      [.new context.contextStateAccount false,
        .newReadonly context.contextStateAuthority false]

/-- What the builder of an instruction puts into it. -/
def Instruction.wire (programs : Programs) : Instruction → WireInstruction
  | setComputeUnitLimit units =>
      ⟨programs.computeBudget, [], 2 :: leBytes 4 units⟩
  | createAccount fromAddress toAddress lamports space owner =>
      ⟨programs.system,
        [.new fromAddress true, .new toAddress true],
        leBytes 4 0 ++ leBytes 8 lamports ++ leBytes 8 space ++ owner.bytes⟩
  | recordInitialize record authority =>
      ⟨programs.record,
        [.new record false, .newReadonly authority false], [0]⟩
  | recordWrite record authority offset data =>
      ⟨programs.record,
        [.new record false, .newReadonly authority true],
        1 :: leBytes 8 offset ++ leBytes 4 data.length ++ data⟩
  | recordSetAuthority record authority newAuthority =>
      ⟨programs.record,
        [.new record false, .newReadonly authority true,
          .newReadonly newAuthority false], [2]⟩
  | recordCloseAccount record authority receiver =>
      ⟨programs.record,
        [.new record false, .newReadonly authority true,
          .new receiver false], [3]⟩
  | verifyProof instruction context proof =>
      ⟨programs.zkElGamalProof, contextMetas context,
        instruction.tag :: proof⟩
  | verifyProofFromAccount instruction context account offset =>
      ⟨programs.zkElGamalProof,
        .newReadonly account false :: contextMetas context,
        instruction.tag :: leBytes 4 offset⟩
  | closeContextState context destination =>
      ⟨programs.zkElGamalProof,
        [.new context.contextStateAccount false, .new destination false,
          .newReadonly context.contextStateAuthority true],
        [ProofInstruction.closeContextState.tag]⟩
  | token instruction => programs.tokenWire instruction

end Remit
