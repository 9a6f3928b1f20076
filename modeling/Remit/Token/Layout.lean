import Remit.State
import Mathlib.Data.List.Dedup

/-!
# Account data in bytes

An interface whose account data keeps the base state parsed and every extension
in the bytes of its layout: fields of fixed width one after another, numbers
little-endian, a key of zeros for none.
-/

namespace Remit

/-- The data of a mint or of a token account. -/
inductive TokenData where
  | mint (base : Mint) (entries : List TlvEntry)
  | account (base : TokenAccount) (entries : List TlvEntry)
deriving DecidableEq

namespace Layout

/-- The numbers in consecutive fields of given widths. -/
def readFields : List Nat → Bytes → List Nat
  | [], _ => []
  | width :: rest, bytes =>
      leValue (bytes.take width) :: readFields rest (bytes.drop width)

/-- Consecutive fields, each with its width and its number. -/
def writeFields (fields : List (Nat × Nat)) : Bytes :=
  fields.flatMap fun field => leBytes field.1 field.2

/-- An optional key of 32 bytes. -/
def readKey (number : Nat) : Option Address :=
  if number = 0 then none else some ⟨leBytes 32 number, length_leBytes ..⟩

def writeKey (key : Option Address) : Nat :=
  key.elim 0 (leValue ·.bytes)

def confidentialWidths : List Nat :=
  [1, 32, 64, 64, 64, 36, 1, 1, 8, 8, 8, 8]

def readConfidential (bytes : Bytes) : ConfidentialTransferAccount :=
  match readFields confidentialWidths bytes with
  | [approved, pubkey, lo, hi, available, decryptable, allowConfidential,
      allowNonConfidential, counter, maximum, expected, actual] =>
      { approved := approved ≠ 0
        elgamalPubkey := ⟨pubkey⟩
        pendingBalanceLo := ⟨lo⟩
        pendingBalanceHi := ⟨hi⟩
        availableBalance := ⟨available⟩
        decryptableAvailableBalance := ⟨decryptable⟩
        allowConfidentialCredits := allowConfidential ≠ 0
        allowNonConfidentialCredits := allowNonConfidential ≠ 0
        pendingBalanceCreditCounter := counter
        maximumPendingBalanceCreditCounter := maximum
        expectedPendingBalanceCreditCounter := expected
        actualPendingBalanceCreditCounter := actual }
  | _ => default

def writeConfidential (state : ConfidentialTransferAccount) : Bytes :=
  writeFields <| confidentialWidths.zip
    [state.approved.toNat, state.elgamalPubkey.code,
      state.pendingBalanceLo.code, state.pendingBalanceHi.code,
      state.availableBalance.code, state.decryptableAvailableBalance.code,
      state.allowConfidentialCredits.toNat,
      state.allowNonConfidentialCredits.toNat,
      state.pendingBalanceCreditCounter,
      state.maximumPendingBalanceCreditCounter,
      state.expectedPendingBalanceCreditCounter,
      state.actualPendingBalanceCreditCounter]

def feeConfigWidths : List Nat :=
  [32, 32, 8, 8, 8, 2, 8, 8, 2]

def readFeeConfig (bytes : Bytes) : TransferFeeConfig :=
  match readFields feeConfigWidths bytes with
  | [authority, withdraw, withheld, olderEpoch, olderMaximum, olderRate,
      newerEpoch, newerMaximum, newerRate] =>
      { transferFeeConfigAuthority := readKey authority
        withdrawWithheldAuthority := readKey withdraw
        withheldAmount := withheld
        olderTransferFee := ⟨olderEpoch, olderMaximum, olderRate⟩
        newerTransferFee := ⟨newerEpoch, newerMaximum, newerRate⟩ }
  | _ => default

def writeFeeConfig (config : TransferFeeConfig) : Bytes :=
  writeFields <| feeConfigWidths.zip
    [writeKey config.transferFeeConfigAuthority,
      writeKey config.withdrawWithheldAuthority, config.withheldAmount,
      config.olderTransferFee.epoch, config.olderTransferFee.maximumFee,
      config.olderTransferFee.transferFeeBasisPoints,
      config.newerTransferFee.epoch, config.newerTransferFee.maximumFee,
      config.newerTransferFee.transferFeeBasisPoints]

def readConfidentialMint (bytes : Bytes) : ConfidentialTransferMint :=
  match readFields [32, 1, 32] bytes with
  | [authority, autoApprove, auditor] =>
      ⟨readKey authority, autoApprove ≠ 0,
        if auditor = 0 then none else some ⟨auditor⟩⟩
  | _ => ⟨none, false, none⟩

def readConfidentialFee (bytes : Bytes) : ConfidentialTransferFeeConfig :=
  match readFields [32, 32, 1, 64] bytes with
  | [authority, withdrawWithheld, harvest, withheld] =>
      ⟨readKey authority, ⟨withdrawWithheld⟩, harvest ≠ 0, ⟨withheld⟩⟩
  | _ => ⟨none, ⟨0⟩, false, ⟨0⟩⟩

/-- The size of a fixed-size extension of a mint. -/
def extensionLen : ExtensionType → Except ProgramError Nat
  | .transferFeeConfig => .ok 108
  | .mintCloseAuthority => .ok 32
  | .confidentialTransferMint => .ok 65
  | .defaultAccountState => .ok 1
  | .permanentDelegate => .ok 32
  | .confidentialTransferFeeConfig => .ok 129
  | .metadataPointer => .ok 64
  | _ => .error .invalidArgument

/-- The length of data with extensions of the given lengths.  Without any it is
that of the base, and that of a multisignature account is avoided. -/
def accountLen (base : Nat) (lengths : List Nat) : Nat :=
  let extended := 166 + (lengths.map (4 + ·)).sum
  if lengths = [] then base
  else if extended = 355 then extended + 2
  else extended

def packedString (text : String) : Nat :=
  4 + text.utf8ByteSize

/-- The interface over such data.  Metadata is not laid out. -/
def interface : TokenInterface TokenData where
  tryCalculateAccountLen types := do
    pure (accountLen 82 (← types.dedup.mapM extensionLen))
  getPackedLen metadata :=
    .ok <| 64 + packedString metadata.name + packedString metadata.symbol +
      packedString metadata.uri + 4 +
      (metadata.additionalMetadata.map fun field =>
        packedString field.1 + packedString field.2).sum
  length
    | .mint _ entries => accountLen 82 (entries.map (·.value.length))
    | .account _ entries => accountLen 165 (entries.map (·.value.length))
  unpackMint
    | .mint base entries => .ok ⟨base, entries, none⟩
    | .account .. => .error .invalidAccountData
  unpackAccount
    | .account base entries => .ok ⟨base, entries, none⟩
    | .mint .. => .error .invalidAccountData
  transferFeeConfig := readFeeConfig
  metadataPointer bytes :=
    ⟨readKey (leValue (bytes.take 32)), readKey (leValue (bytes.drop 32))⟩
  mintCloseAuthority bytes := readKey (leValue bytes)
  permanentDelegate bytes := readKey (leValue bytes)
  confidentialTransferMint := readConfidentialMint
  confidentialTransferFeeConfig := readConfidentialFee
  tokenMetadata _ := .error .invalidAccountData
  transferFeeAmount := leValue
  cpiGuard bytes := leValue bytes ≠ 0
  confidentialTransferAccount := readConfidential
  confidentialTransferFeeAmount bytes := ⟨⟨leValue bytes⟩⟩

/-- The value of an account's extension. -/
def accountExtension (account : AccountSnapshot) : ExtensionType → Bytes
  | .confidentialTransferAccount =>
      account.confidential.elim [] writeConfidential
  | .confidentialTransferFeeAmount =>
      account.confidentialWithheld.elim [] (leBytes 64 ·.withheldAmount.code)
  | .transferFeeAmount => account.withheldFee.elim [] (leBytes 8)
  | .cpiGuard => account.cpiGuard.elim [] (leBytes 1 ·.toNat)
  | _ => []

/-- The data of a token account. -/
def writeAccount (account : AccountSnapshot) : TokenData :=
  .account
    { mint := account.mint
      owner := account.owner
      amount := account.amount
      delegate := account.delegate
      state := account.state
      delegatedAmount := account.delegatedAmount }
    (account.extensions.map fun type => ⟨type, accountExtension account type⟩)

/-- The value of a mint's extension. -/
def mintExtension (mint : MintSnapshot) : ExtensionType → Bytes
  | .transferFeeConfig => mint.transferFee.elim [] writeFeeConfig
  | .confidentialTransferMint =>
      mint.confidential.elim [] fun config =>
        writeFields
          [(32, writeKey config.authority),
            (1, config.autoApproveNewAccounts.toNat),
            (32, config.auditorElgamalPubkey.elim 0 (·.code))]
  | .confidentialTransferFeeConfig =>
      mint.confidentialFee.elim [] fun config =>
        writeFields
          [(32, writeKey config.authority),
            (32, config.withdrawWithheldAuthorityElgamalPubkey.code),
            (1, config.harvestToMintEnabled.toNat),
            (64, config.withheldAmount.code)]
  | _ => []

/-- The data of a mint. -/
def writeMint (mint : MintSnapshot) : TokenData :=
  .mint
    { mintAuthority := mint.mintAuthority
      supply := mint.supply
      decimals := mint.decimals
      freezeAuthority := mint.freezeAuthority }
    (mint.extensions.map fun type => ⟨type, mintExtension mint type⟩)

end Layout
end Remit
