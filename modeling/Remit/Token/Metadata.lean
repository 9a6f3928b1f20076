import Remit.Library.Codec
import Remit.Library.Upsert
import Remit.Token.Public

/-!
# What Token-2022 does to the metadata of a mint

Metadata is stored packed behind a header of four bytes, and the mint is resized
to what it takes.  It is initialized without additional pairs.  Every update of
a field replaces the value that the key has, or adds the pair at the end.
-/

namespace Remit

open Codecs KeyedLists

/-! ## Packed metadata -/

namespace Packed

/-- A little-endian number. -/
def number (width : Nat) : Codec UInt8 Nat :=
  (Codec.block width).via (leBytes width) fun bytes => some (leValue bytes)

/-- A string after the number of its bytes. -/
def text : Codec UInt8 String :=
  (Codec.counted (number 4) .symbol).via (·.toUTF8.data.toList)
    fun bytes => String.fromUTF8? ⟨bytes.toArray⟩

def key : Codec UInt8 Address :=
  (Codec.block 32).via (·.bytes) fun bytes =>
    if width : bytes.length = 32 then some ⟨bytes, width⟩ else none

/-- A key that zeros stand in for. -/
def optionalKey : Codec UInt8 (Option Address) :=
  key.via (·.getD (Address.filled 0)) fun address =>
    some (if address = Address.filled 0 then none else some address)

def metadata : Codec UInt8 TokenMetadata :=
  (((optionalKey.pair key).pair (text.pair (text.pair text))).pair
      (Codec.counted (number 4) (text.pair text))).via
    (fun metadata =>
      (((metadata.updateAuthority, metadata.mint),
        (metadata.name, metadata.symbol, metadata.uri)),
        metadata.additionalMetadata))
    fun (((updateAuthority, mint), (name, symbol, uri)), additionalMetadata) =>
      some { updateAuthority, mint, name, symbol, uri, additionalMetadata }

theorem number_fits {width n : Nat} (small : n < 256 ^ width) :
    (number width).Fits n :=
  And.intro (length_leBytes width n) (congrArg some (leValue_leBytes small))

theorem text_fits {string : String} (small : string.utf8ByteSize < 256 ^ 4) :
    text.Fits string := by
  refine And.intro ⟨number_fits small, fun _ _ => trivial⟩ ?_
  exact dif_pos string.isValidUTF8

theorem key_fits (address : Address) : key.Fits address :=
  And.intro address.length_eq (dif_pos address.length_eq)

theorem length_text (string : String) :
    (text.encode string).length = 4 + string.utf8ByteSize := by
  show ((Codec.counted (number 4) .symbol).encode
    string.toUTF8.data.toList).length = _
  have count : ((number 4).encode string.toUTF8.data.toList.length).length =
      4 := length_leBytes ..
  rw [Codec.length_encode_counted, count]
  simp [Codec.symbol]

theorem length_key (address : Address) : (key.encode address).length = 32 :=
  address.length_eq

end Packed

namespace TokenMetadata

/-- The bytes of the metadata. -/
def pack (metadata : TokenMetadata) : Bytes :=
  Packed.metadata.encode metadata

/-- Bytes that the metadata takes in a mint. -/
def tlvLen (metadata : TokenMetadata) : Nat :=
  4 + metadata.pack.length

/-- Set the value of a key. -/
def setKeyValue (metadata : TokenMetadata) (key value : String) :
    TokenMetadata :=
  { metadata with
    additionalMetadata := upsert key value metadata.additionalMetadata }

/-- Two keys, three strings with their lengths, and the pairs with theirs. -/
theorem length_pack (metadata : TokenMetadata) :
    metadata.pack.length =
      64 + (4 + metadata.name.utf8ByteSize) +
        (4 + metadata.symbol.utf8ByteSize) + (4 + metadata.uri.utf8ByteSize) +
        (4 + (metadata.additionalMetadata.map fun pair =>
          (4 + pair.1.utf8ByteSize) + (4 + pair.2.utf8ByteSize)).sum) := by
  have whole : metadata.pack.length =
      ((((Packed.optionalKey.pair Packed.key).pair
        (Packed.text.pair (Packed.text.pair Packed.text))).pair
          (Codec.counted (Packed.number 4)
            (Packed.text.pair Packed.text))).encode
        (((metadata.updateAuthority, metadata.mint),
          (metadata.name, metadata.symbol, metadata.uri)),
          metadata.additionalMetadata)).length := rfl
  have authority :
      (Packed.optionalKey.encode metadata.updateAuthority).length = 32 :=
    Packed.length_key _
  have count : ((Packed.number 4).encode
      metadata.additionalMetadata.length).length = 4 := length_leBytes ..
  rw [whole]
  simp only [Codec.length_encode_pair, Codec.length_encode_counted,
    Packed.length_text, Packed.length_key, authority, count]
  omega

/-- The lengths fit four bytes, and zeros are nobody's key. -/
structure Packable (metadata : TokenMetadata) : Prop where
  updateAuthority : metadata.updateAuthority ≠ some (Address.filled 0)
  name : metadata.name.utf8ByteSize < 256 ^ 4
  symbol : metadata.symbol.utf8ByteSize < 256 ^ 4
  uri : metadata.uri.utf8ByteSize < 256 ^ 4
  count : metadata.additionalMetadata.length < 256 ^ 4
  pairs : ∀ pair ∈ metadata.additionalMetadata,
    pair.1.utf8ByteSize < 256 ^ 4 ∧ pair.2.utf8ByteSize < 256 ^ 4

/-- Packed metadata is read back. -/
theorem unpack_pack {metadata : TokenMetadata} (packable : metadata.Packable) :
    Packed.metadata.read metadata.pack = some metadata := by
  have authority : Packed.optionalKey.Fits metadata.updateAuthority := by
    refine And.intro (Packed.key_fits _) ?_
    have someone := packable.updateAuthority
    cases known : metadata.updateAuthority with
    | none => rfl
    | some address =>
        rw [known] at someone
        exact congrArg some (if_neg fun zeros => someone (congrArg some zeros))
  have strings :
      (Packed.text.pair (Packed.text.pair Packed.text)).Fits
        (metadata.name, metadata.symbol, metadata.uri) :=
    And.intro (Packed.text_fits packable.name)
      ⟨Packed.text_fits packable.symbol, Packed.text_fits packable.uri⟩
  have pairs :
      (Codec.counted (Packed.number 4) (Packed.text.pair Packed.text)).Fits
        metadata.additionalMetadata :=
    And.intro (Packed.number_fits packable.count) fun pair member =>
      ⟨Packed.text_fits (packable.pairs pair member).1,
        Packed.text_fits (packable.pairs pair member).2⟩
  exact Packed.metadata.read_encode
    (And.intro ⟨⟨⟨authority, Packed.key_fits metadata.mint⟩, strings⟩, pairs⟩
      rfl)

end TokenMetadata

/-! ## Instructions about metadata -/

/-- The mint that an instruction about metadata changes. -/
def TokenInstruction.describedMint : TokenInstruction → Option Address
  | initializeMetadata _ _ mint .. => some mint
  | updateField metadata .. => some metadata
  | _ => none

namespace MintSnapshot

/-- The mint with other metadata, resized to what that takes. -/
def describedBy (mint : MintSnapshot) (metadata : TokenMetadata) :
    MintSnapshot :=
  { mint with
    extensions :=
      if mint.metadata.isSome then mint.extensions
      else mint.extensions ++ [.tokenMetadata]
    metadata := some metadata
    dataLen :=
      mint.dataLen - mint.metadata.elim 0 (·.tlvLen) + metadata.tlvLen }

end MintSnapshot

namespace TokenChain

variable (signers : List Address) (chain : TokenChain)

/-- The chain with another state of one mint. -/
def setMint (address : Address) (mint : MintSnapshot) : TokenChain :=
  { chain with mints := Function.update chain.mints address (some mint) }

/-- Initialize the metadata of a mint.  It is stored in the mint itself. -/
def initializeMetadata
    (metadata updateAuthority mint mintAuthority : Address)
    (name symbol uri : String) : Option TokenChain :=
  match chain.mints mint with
  | none => none
  | some found =>
      if metadata = mint ∧ updateAuthority ≠ Address.filled 0 ∧
          found.mintAuthority = some mintAuthority ∧
          mintAuthority ∈ signers ∧ found.metadata = none then
        some <| chain.setMint mint <| found.describedBy
          { updateAuthority := some updateAuthority
            mint, name, symbol, uri
            additionalMetadata := [] }
      else none

/-- Set a field of the metadata. -/
def updateField (metadata updateAuthority : Address) (key value : String) :
    Option TokenChain :=
  match chain.mints metadata with
  | none => none
  | some found =>
      match found.metadata with
      | none => none
      | some current =>
          if current.updateAuthority = some updateAuthority ∧
              updateAuthority ∈ signers then
            some <| chain.setMint metadata <|
              found.describedBy (current.setKeyValue key value)
          else none

/-- Carry out an instruction about metadata. -/
def describe : TokenInstruction → Option TokenChain
  | .initializeMetadata metadata updateAuthority mint mintAuthority name
      symbol uri =>
      chain.initializeMetadata signers metadata updateAuthority mint
        mintAuthority name symbol uri
  | .updateField metadata updateAuthority key value =>
      chain.updateField signers metadata updateAuthority key value
  | _ => none

/-- Carry out instructions about metadata one after another. -/
def describeAll (instructions : List TokenInstruction) : Option TokenChain :=
  instructions.foldlM (describe signers) chain

variable {signers} {chain} {after : TokenChain}

/-- An instruction about metadata changes nothing but its mint. -/
theorem describe_elsewhere
    {instruction : TokenInstruction}
    (described : chain.describe signers instruction = some after) :
    after.accounts = chain.accounts ∧ after.epoch = chain.epoch ∧
      ∀ address, instruction.describedMint ≠ some address →
        after.mints address = chain.mints address := by
  cases instruction with
  | initializeMetadata metadata updateAuthority mint =>
      change chain.initializeMetadata .. = _ at described
      unfold initializeMetadata at described
      split at described
      case h_1 => cases described
      case h_2 =>
          split at described
          case isFalse => cases described
          case isTrue =>
              cases described
              exact ⟨rfl, rfl, fun address away =>
                Function.update_of_ne (fun same => away (congrArg some same.symm)) ..⟩
  | updateField metadata =>
      change chain.updateField .. = _ at described
      unfold updateField at described
      split at described
      case h_1 => cases described
      case h_2 =>
          split at described
          case h_1 => cases described
          case h_2 =>
              split at described
              case isFalse => cases described
              case isTrue =>
                  cases described
                  exact ⟨rfl, rfl, fun address away =>
                    Function.update_of_ne (fun same => away (congrArg some same.symm)) ..⟩
  | _ => cases described

theorem describeAll_elsewhere
    {instructions : List TokenInstruction}
    (described : chain.describeAll signers instructions = some after) :
    after.accounts = chain.accounts ∧ after.epoch = chain.epoch ∧
      ∀ address ∉ instructions.filterMap (·.describedMint),
        after.mints address = chain.mints address := by
  induction instructions generalizing chain with
  | nil =>
      obtain rfl := Option.some.inj described
      exact ⟨rfl, rfl, fun _ _ => rfl⟩
  | cons instruction rest inductionHypothesis =>
      obtain ⟨between, first, others⟩ := Option.bind_eq_some_iff.mp described
      obtain ⟨accounts, epoch, mints⟩ := describe_elsewhere first
      obtain ⟨accountsToo, epochToo, mintsToo⟩ := inductionHypothesis others
      refine ⟨accountsToo.trans accounts, epochToo.trans epoch,
        fun address away => ?_⟩
      have awayLater : address ∉ rest.filterMap (·.describedMint) := by
        intro later
        apply away
        obtain ⟨other, member, there⟩ := List.mem_filterMap.mp later
        exact List.mem_filterMap.mpr
          ⟨other, List.mem_cons_of_mem instruction member, there⟩
      rw [mintsToo address awayLater]
      apply mints
      intro here
      exact away
        (List.mem_filterMap.mpr ⟨instruction, List.mem_cons_self, here⟩)

/-- The mint at an address has metadata, and has grown by what that takes. -/
structure Describes (chain : TokenChain) (address : Address)
    (plain : MintSnapshot) (description : TokenMetadata)
    (mint : MintSnapshot) : Prop where
  found : chain.mints address = some mint
  metadata : mint.metadata = some description
  dataLen : mint.dataLen = plain.dataLen + description.tlvLen
  lamports : mint.lamports = plain.lamports

theorem initializeMetadata_eq_some
    {metadata updateAuthority mint mintAuthority : Address}
    {name symbol uri : String}
    (initialized :
      chain.initializeMetadata signers metadata updateAuthority mint
        mintAuthority name symbol uri = some after) :
    ∃ plain described,
      chain.mints mint = some plain ∧
        after.Describes mint plain
          { updateAuthority := some updateAuthority
            mint, name, symbol, uri
            additionalMetadata := [] } described := by
  unfold initializeMetadata at initialized
  split at initialized
  case h_1 => cases initialized
  case h_2 plain found =>
      split at initialized
      case isFalse => cases initialized
      case isTrue allowed =>
          cases initialized
          have undescribed := allowed.2.2.2.2
          refine ⟨plain, _, found, Function.update_self .., rfl, ?_, rfl⟩
          simp [MintSnapshot.describedBy, undescribed]

/-- An update keeps the mint as large as its metadata requires. -/
theorem Describes.updateField
    {address updateAuthority : Address} {plain mint : MintSnapshot}
    {metadata : TokenMetadata} {key value : String}
    (describes : chain.Describes address plain metadata mint)
    (updated :
      chain.updateField signers address updateAuthority key value =
        some after) :
    ∃ described,
      after.Describes address plain (metadata.setKeyValue key value)
        described := by
  unfold TokenChain.updateField at updated
  rw [describes.found] at updated
  dsimp only at updated
  rw [describes.metadata] at updated
  dsimp only at updated
  split at updated
  case isFalse => cases updated
  case isTrue =>
      cases updated
      refine ⟨_, Function.update_self .., rfl, ?_, describes.lamports⟩
      simp only [MintSnapshot.describedBy, describes.metadata,
        describes.dataLen, Option.elim_some]
      omega

/-- Updates set the values of their keys one after another. -/
theorem Describes.updateFields
    {address updateAuthority : Address} {plain mint : MintSnapshot}
    {metadata : TokenMetadata} (pairs : List (String × String))
    (describes : chain.Describes address plain metadata mint)
    (updated :
      chain.describeAll signers
          (pairs.map fun pair =>
            .updateField address updateAuthority pair.1 pair.2) =
        some after) :
    ∃ described,
      after.Describes address plain
        { metadata with
          additionalMetadata := upsertAll metadata.additionalMetadata pairs }
        described := by
  induction pairs generalizing chain metadata mint with
  | nil =>
      obtain rfl := Option.some.inj updated
      exact ⟨mint, describes⟩
  | cons pair rest inductionHypothesis =>
      obtain ⟨between, first, others⟩ := Option.bind_eq_some_iff.mp updated
      obtain ⟨described, describesToo⟩ := describes.updateField first
      exact inductionHypothesis describesToo others

/-- The metadata of a mint once it was initialized and some fields were set. -/
theorem describeAll_eq_some
    {updateAuthority mint mintAuthority : Address} {name symbol uri : String}
    {pairs : List (String × String)}
    (described :
      chain.describeAll signers
          (.initializeMetadata mint updateAuthority mint mintAuthority name
              symbol uri ::
            pairs.map fun pair =>
              .updateField mint updateAuthority pair.1 pair.2) =
        some after) :
    ∃ plain stored,
      chain.mints mint = some plain ∧
        after.Describes mint plain
          { updateAuthority := some updateAuthority
            mint, name, symbol, uri
            additionalMetadata := upsertAll [] pairs } stored := by
  obtain ⟨between, first, others⟩ := Option.bind_eq_some_iff.mp described
  obtain ⟨plain, mint, found, describes⟩ := initializeMetadata_eq_some first
  obtain ⟨stored, describesToo⟩ := describes.updateFields pairs others
  exact ⟨plain, stored, found, describesToo⟩

end TokenChain
end Remit
