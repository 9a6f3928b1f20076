import Remit.Transfer

/-!
# Creating the mint

Extension inits need an account without a mint in it and no signature, so the
account is created, its extensions are initialized and the mint is initialized
in one transaction.  The metadata follows in a second one.  The second version
of the mint carries the extensions of the first one forward and adds its own.
-/

namespace Remit

open Flows

/-- Every authority on the mint. -/
structure Authorities where
  mint : Keypair
  freeze : Keypair
  feeConfig : Keypair
  feeWithdraw : Keypair
  close : Keypair
  metadata : Keypair
deriving DecidableEq

/-- The authorities of the second version.  Of the two encryption keys the
public halves are used. -/
structure ComplianceAuthorities where
  seizure : Keypair
  confidential : Keypair
  auditor : PodElGamalPubkey
  feeWithdrawElgamal : PodElGamalPubkey
deriving DecidableEq

/-- The business parameters of the stablecoin. -/
structure StablecoinParams where
  decimals : Nat := 6
  transferFeeBasisPoints : Nat := 25
  maximumFee : Nat := 2500000
  name : String := "Remit USD"
  symbol : String := "rUSD"
  uri : String := "https://example.com/rusd/metadata.json"
  additionalMetadata : List (String × String) :=
    [("issuer", "Remit Labs Ltd."), ("peg", "1 rUSD = 1 USD"),
      ("kyc", "required; new accounts start frozen")]
deriving DecidableEq

/-- The metadata stored in the mint.  An update authority of zeros is none. -/
def StablecoinParams.tokenMetadata (params : StablecoinParams)
    (mint updateAuthority : Address) : Except Error TokenMetadata :=
  if updateAuthority = Address.filled 0 then
    .error (.program .invalidArgument)
  else
    .ok
      { updateAuthority := some updateAuthority
        mint
        name := params.name
        symbol := params.symbol
        uri := params.uri
        additionalMetadata := params.additionalMetadata }

/-- An extension-init instruction with the extension it initializes. -/
abbrev ExtensionInit := ExtensionType × Instruction

/-- Everything needed to create a mint, computed before anything is sent. -/
structure MintPlan where
  mint : Address
  extensions : List ExtensionType
  space : Nat
  metadataLen : Nat
  lamports : Nat
  initializeInstructions : List Instruction
  metadata : List Instruction
deriving DecidableEq

/-- The init of one extension. -/
def extensionInit (programs : Programs) (mint : Address)
    (config : ExtensionConfig) : Except Error ExtensionInit := do
  let instruction ← tokenInstruction programs (.initializeExtension mint config)
  pure (config.extensionType, instruction)

/-- Extension inits of the first version. -/
def v1ExtensionInits (programs : Programs) (mint : Address)
    (authorities : Authorities) (params : StablecoinParams) :
    Except Error (List ExtensionInit) :=
  [.transferFeeConfig (some authorities.feeConfig.pubkey)
      (some authorities.feeWithdraw.pubkey) params.transferFeeBasisPoints
      params.maximumFee,
    -- The pointer targets the mint itself.
    .metadataPointer (some authorities.metadata.pubkey) (some mint),
    .defaultAccountState .frozen,
    .mintCloseAuthority (some authorities.close.pubkey)].mapM
      (extensionInit programs mint)

/-- Extension inits that the second version appends. -/
def v2AddedExtensionInits (programs : Programs) (mint : Address)
    (authorities : Authorities) (compliance : ComplianceAuthorities) :
    Except Error (List ExtensionInit) :=
  [.permanentDelegate compliance.seizure.pubkey,
    .confidentialTransferMint (some compliance.confidential.pubkey) false
      (some compliance.auditor),
    .confidentialTransferFeeConfig (some authorities.feeWithdraw.pubkey)
      compliance.feeWithdrawElgamal].mapM
      (extensionInit programs mint)

/-- Bytes the metadata adds to a mint: a four-byte header and the metadata. -/
def metadataTlvLen {Data : Type} (interface : TokenInterface Data)
    (metadata : TokenMetadata) : Except Error Nat := do
  let length ← ofProgram (interface.getPackedLen metadata)
  pure (2 + 2 + length)

variable {C : Cluster}

/-- The instructions of the metadata transaction. -/
def metadataInstructions (mint : Address) (authorities : Authorities)
    (params : StablecoinParams) : List Instruction :=
  .token (.initializeMetadata mint authorities.metadata.pubkey mint
      authorities.mint.pubkey params.name params.symbol params.uri) ::
    params.additionalMetadata.map fun field =>
      .token (.updateField mint authorities.metadata.pubkey field.1 field.2)

/-- Build a plan from a list of extension inits. -/
def planFromInits (mint : Address) (authorities : Authorities)
    (params : StablecoinParams) (inits : List ExtensionInit) :
    Flow (World C) Error MintPlan := do
  let extensions := inits.map Prod.fst
  let space ← Flow.ofExcept <|
    ofProgram (C.interface.tryCalculateAccountLen extensions)
  let metadata ← Flow.ofExcept <|
    params.tokenMetadata mint authorities.metadata.pubkey
  let metadataLen ← Flow.ofExcept (metadataTlvLen C.interface metadata)
  let lamports ← World.rent (space + metadataLen)
  let initializeMint ← Flow.ofExcept <| tokenInstruction C.programs <|
    .initializeMint2 mint authorities.mint.pubkey
      (some authorities.freeze.pubkey) params.decimals
  pure
    { mint, extensions, space, metadataLen, lamports
      initializeInstructions :=
        .createAccount C.payer mint lamports space C.programs.token2022 ::
          inits.map Prod.snd ++ [initializeMint]
      metadata := metadataInstructions mint authorities params }

/-- Plan the first version. -/
def planV1 (mint : Address) (authorities : Authorities)
    (params : StablecoinParams) : Flow (World C) Error MintPlan := do
  let inits ← Flow.ofExcept <|
    v1ExtensionInits C.programs mint authorities params
  planFromInits mint authorities params inits

/-- Plan the second version. -/
def planV2 (mint : Address) (authorities : Authorities)
    (compliance : ComplianceAuthorities) (params : StablecoinParams) :
    Flow (World C) Error MintPlan := do
  let inits ← Flow.ofExcept <|
    v1ExtensionInits C.programs mint authorities params
  let added ← Flow.ofExcept <|
    v2AddedExtensionInits C.programs mint authorities compliance
  planFromInits mint authorities params (inits ++ added)

/-- Execute a plan: the initialization, then the metadata. -/
def createMint (plan : MintPlan) (mint : Keypair) (authorities : Authorities) :
    Flow (World C) Error Unit := do
  let _ ← World.send plan.initializeInstructions [mint]
  let _ ← World.send plan.metadata [authorities.mint, authorities.metadata]

/-- Plan and create the first version. -/
def createV1 (mint : Keypair) (authorities : Authorities)
    (params : StablecoinParams) : Flow (World C) Error MintPlan := do
  let plan ← planV1 mint.pubkey authorities params
  createMint plan mint authorities
  pure plan

/-- Plan and create the second version. -/
def createV2 (mint : Keypair) (authorities : Authorities)
    (compliance : ComplianceAuthorities) (params : StablecoinParams) :
    Flow (World C) Error MintPlan := do
  let plan ← planV2 mint.pubkey authorities compliance params
  createMint plan mint authorities
  pure plan

/-- Close the mint and reclaim its rent. -/
def closeMint (mint : Address) (closeAuthority : Keypair)
    (destination : Address) : Flow (World C) Error Unit := do
  let instruction ← Flow.ofExcept <| tokenInstruction C.programs <|
    .closeAccount mint destination closeAuthority.pubkey
  let _ ← World.send [instruction] [closeAuthority]

end Remit
