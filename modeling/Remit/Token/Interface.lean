import Remit.Solana.Instruction

/-!
# The Token-2022 interface crate

Base states and extensions of mints and token accounts, and how the crate
reads them from raw account data.  The layout of the values is the crate's
own: `TokenInterface` has the parsers as parameters.  What `StateWithExtensions`
does with the TLV area is written out, since the snapshots depend on it.
-/

namespace Remit

structure TransferFee where
  epoch : Nat
  maximumFee : Nat
  transferFeeBasisPoints : Nat
deriving DecidableEq, Inhabited

/-- The fee extension of a mint: two schedules, the newer of which holds from
its epoch on. -/
structure TransferFeeConfig where
  transferFeeConfigAuthority : Option Address
  withdrawWithheldAuthority : Option Address
  withheldAmount : Nat
  olderTransferFee : TransferFee
  newerTransferFee : TransferFee
deriving DecidableEq, Inhabited

namespace TransferFee

def ONE_IN_BASIS_POINTS : Nat := 10000

/-- The fee on an amount, rounded up and capped; `none` where the rounded
value does not fit 64 bits. -/
def calculateFee (fee : TransferFee) (preFeeAmount : Nat) : Option Nat :=
  if fee.transferFeeBasisPoints = 0 ∨ preFeeAmount = 0 then
    some 0
  else
    let numerator := preFeeAmount * fee.transferFeeBasisPoints
    let rawFee := (numerator + ONE_IN_BASIS_POINTS - 1) / ONE_IN_BASIS_POINTS
    if rawFee < 2 ^ 64 then some (min rawFee fee.maximumFee) else none

/-- With a rate of at most one, the fee is at most the amount and never
overflows. -/
theorem calculateFee_isSome
    {fee : TransferFee} {amount : Nat}
    (rate : fee.transferFeeBasisPoints ≤ ONE_IN_BASIS_POINTS)
    (fits : amount < 2 ^ 64) :
    ∃ charged, fee.calculateFee amount = some charged ∧ charged ≤ amount := by
  unfold calculateFee
  split
  case isTrue => exact ⟨0, rfl, Nat.zero_le amount⟩
  case isFalse =>
      have bounded :
          (amount * fee.transferFeeBasisPoints + ONE_IN_BASIS_POINTS - 1) /
              ONE_IN_BASIS_POINTS ≤ amount := by
        have product :
            amount * fee.transferFeeBasisPoints ≤
              amount * ONE_IN_BASIS_POINTS :=
          Nat.mul_le_mul_left amount rate
        simp only [ONE_IN_BASIS_POINTS] at product ⊢
        omega
      refine ⟨_, if_pos (Nat.lt_of_le_of_lt bounded fits), ?_⟩
      exact Nat.le_trans (Nat.min_le_left ..) bounded

end TransferFee

namespace TransferFeeConfig

/-- The schedule in force in an epoch. -/
def getEpochFee (config : TransferFeeConfig) (epoch : Nat) : TransferFee :=
  if config.newerTransferFee.epoch ≤ epoch then
    config.newerTransferFee
  else
    config.olderTransferFee

def calculateEpochFee (config : TransferFeeConfig) (epoch amount : Nat) :
    Option Nat :=
  (config.getEpochFee epoch).calculateFee amount

end TransferFeeConfig

structure MetadataPointer where
  authority : Option Address
  metadataAddress : Option Address
deriving DecidableEq

structure ConfidentialTransferMint where
  authority : Option Address
  autoApproveNewAccounts : Bool
  auditorElgamalPubkey : Option PodElGamalPubkey
deriving DecidableEq

structure ConfidentialTransferFeeConfig where
  authority : Option Address
  withdrawWithheldAuthorityElgamalPubkey : PodElGamalPubkey
  harvestToMintEnabled : Bool
  withheldAmount : PodElGamalCiphertext
deriving DecidableEq

structure ConfidentialTransferAccount where
  approved : Bool
  elgamalPubkey : PodElGamalPubkey
  pendingBalanceLo : PodElGamalCiphertext
  pendingBalanceHi : PodElGamalCiphertext
  availableBalance : PodElGamalCiphertext
  decryptableAvailableBalance : DecryptableBalance
  allowConfidentialCredits : Bool
  allowNonConfidentialCredits : Bool
  pendingBalanceCreditCounter : Nat
  maximumPendingBalanceCreditCounter : Nat
  expectedPendingBalanceCreditCounter : Nat
  actualPendingBalanceCreditCounter : Nat
deriving DecidableEq, Inhabited

structure ConfidentialTransferFeeAmount where
  withheldAmount : PodElGamalCiphertext
deriving DecidableEq, Inhabited

/-- The metadata a mint stores about itself. -/
structure TokenMetadata where
  updateAuthority : Option Address
  mint : Address
  name : String
  symbol : String
  uri : String
  additionalMetadata : List (String × String)
deriving DecidableEq

/-- The base state of a mint. -/
structure Mint where
  mintAuthority : Option Address
  supply : Nat
  decimals : Nat
  freezeAuthority : Option Address
deriving DecidableEq

/-- The base state of a token account. -/
structure TokenAccount where
  mint : Address
  owner : Address
  amount : Nat
  delegate : Option Address
  state : AccountState
  delegatedAmount : Nat
deriving DecidableEq

structure TlvEntry where
  extensionType : ExtensionType
  value : Bytes
deriving DecidableEq

/-- An unpacked base state and its TLV area: the entries up to the end or up
to the first structural error, and that error. -/
structure StateWithExtensions (Base : Type) where
  base : Base
  entries : List TlvEntry
  malformed : Option ProgramError

namespace StateWithExtensions

variable {Base α : Type} (state : StateWithExtensions Base)

/-- The bytes of the first entry of a type. -/
def getExtensionBytes (type : ExtensionType) : Except ProgramError Bytes :=
  match state.entries.find? (·.extensionType = type) with
  | some entry => .ok entry.value
  | none => .error (state.malformed.getD .invalidAccountData)

/-- A fixed-size extension, which must have exactly its size. -/
def getExtension (type : ExtensionType) (size : Nat) (ofBytes : Bytes → α) :
    Except ProgramError α := do
  let bytes ← state.getExtensionBytes type
  if bytes.length = size then
    pure (ofBytes bytes)
  else
    throw .invalidArgument

def getVariableLenExtension (type : ExtensionType)
    (unpack : Bytes → Except ProgramError α) : Except ProgramError α := do
  unpack (← state.getExtensionBytes type)

/-- All entry types in order. -/
def getExtensionTypes : Except ProgramError (List ExtensionType) :=
  match state.malformed with
  | some error => .error error
  | none => .ok (state.entries.map (·.extensionType))

end StateWithExtensions

/-- The parsers of the interface crate over raw account data, and the sizes it
calculates: of a mint with given extensions, and of packed metadata. -/
structure TokenInterface (Data : Type) where
  length : Data → Nat
  tryCalculateAccountLen : List ExtensionType → Except ProgramError Nat
  getPackedLen : TokenMetadata → Except ProgramError Nat
  unpackMint : Data → Except ProgramError (StateWithExtensions Mint)
  unpackAccount : Data → Except ProgramError (StateWithExtensions TokenAccount)
  transferFeeConfig : Bytes → TransferFeeConfig
  metadataPointer : Bytes → MetadataPointer
  mintCloseAuthority : Bytes → Option Address
  permanentDelegate : Bytes → Option Address
  confidentialTransferMint : Bytes → ConfidentialTransferMint
  confidentialTransferFeeConfig : Bytes → ConfidentialTransferFeeConfig
  tokenMetadata : Bytes → Except ProgramError TokenMetadata
  transferFeeAmount : Bytes → Nat
  cpiGuard : Bytes → Bool
  confidentialTransferAccount : Bytes → ConfidentialTransferAccount
  confidentialTransferFeeAmount : Bytes → ConfidentialTransferFeeAmount

end Remit
