import Remit.Solana.Sizes

/-!
# Transactions on the wire

`Message::new` orders the account keys by what they may do, and replaces the
keys in the instructions by indices.  A signed transaction is its signatures
followed by its message.  The size that is estimated for it is its length,
except for the prefix of the signatures, which takes more than the one byte
estimated only in transactions that are much too large.
-/

namespace Remit

/-- A length as it is serialized: seven bits a byte, the lowest first. -/
def compactU16 (n : Nat) : Bytes :=
  if n < 2 ^ 7 then [UInt8.ofNat n]
  else if n < 2 ^ 14 then
    [UInt8.ofNat (n % 2 ^ 7 + 2 ^ 7), UInt8.ofNat (n / 2 ^ 7)]
  else
    [UInt8.ofNat (n % 2 ^ 7 + 2 ^ 7), UInt8.ofNat (n / 2 ^ 7 % 2 ^ 7 + 2 ^ 7),
      UInt8.ofNat (n / 2 ^ 14)]

@[simp]
theorem length_compactU16 (n : Nat) :
    (compactU16 n).length = Message.compactLength n := by
  unfold compactU16 Message.compactLength
  split
  · rfl
  · split
    · rfl
    · rfl

structure Blockhash where
  bytes : Bytes
  length_eq : bytes.length = 32

structure Signature where
  bytes : Bytes
  length_eq : bytes.length = 64

/-- The account keys of a message, by what they may do. -/
structure CompiledKeys where
  writableSigners : List Address
  readonlySigners : List Address
  writableNonSigners : List Address
  readonlyNonSigners : List Address

namespace CompiledKeys

def signers (keys : CompiledKeys) : List Address :=
  keys.writableSigners ++ keys.readonlySigners

/-- All keys in the order of the message. -/
def ordered (keys : CompiledKeys) : List Address :=
  keys.signers ++ (keys.writableNonSigners ++ keys.readonlyNonSigners)

end CompiledKeys

namespace Message

section Encoding

variable (payer : Address) (instructions : List WireInstruction)

/-- The account keys but for the payer, in the order of their bytes. -/
def otherKeys : List Address :=
  ((accountKeys payer instructions).erase payer).mergeSort
    (decide <| ·.bytes ≤ ·.bytes)

/-- Group the keys of a message, the payer first. -/
def compileKeys : CompiledKeys :=
  let others := otherKeys payer instructions
  let signers := others.filter (· ∈ signerKeys payer instructions)
  let nonSigners := others.filter (· ∉ signerKeys payer instructions)
  { writableSigners :=
      payer :: signers.filter (· ∈ writableKeys payer instructions)
    readonlySigners :=
      signers.filter (· ∉ writableKeys payer instructions)
    writableNonSigners :=
      nonSigners.filter (· ∈ writableKeys payer instructions)
    readonlyNonSigners :=
      nonSigners.filter (· ∉ writableKeys payer instructions) }

/-- Whether every length has a prefix and every header count a byte. -/
def serializes : Bool :=
  headerFits payer instructions &&
    decide ((accountKeys payer instructions).length < 2 ^ 16) &&
    decide (instructions.length < 2 ^ 16) &&
    instructions.all fun instruction =>
      decide (instruction.accounts.length < 2 ^ 16) &&
        decide (instruction.data.length < 2 ^ 16)

/-- The three counts that a message begins with. -/
def encodeHeader (keys : CompiledKeys) : Bytes :=
  [UInt8.ofNat keys.signers.length, UInt8.ofNat keys.readonlySigners.length,
    UInt8.ofNat keys.readonlyNonSigners.length]

/-- An instruction with the indices of its keys. -/
def encodeInstruction (keys : List Address)
    (instruction : WireInstruction) : Bytes :=
  UInt8.ofNat (keys.idxOf instruction.programId) ::
    (compactU16 instruction.accounts.length ++
        instruction.accounts.map fun account =>
          UInt8.ofNat (keys.idxOf account.pubkey)) ++
      (compactU16 instruction.data.length ++ instruction.data)

def encodeMessage (blockhash : Blockhash) : Bytes :=
  let keys := compileKeys payer instructions
  encodeHeader keys ++
    (compactU16 keys.ordered.length ++ keys.ordered.flatMap (·.bytes)) ++
    blockhash.bytes ++
    (compactU16 instructions.length ++
      instructions.flatMap (encodeInstruction keys.ordered))

/-- The signed transaction: the signatures of the keys that must sign and the
message.  A message that does not serialize has none. -/
def encodeTransaction (blockhash : Blockhash)
    (sign : Address → Signature) : Option Bytes :=
  let signers := (compileKeys payer instructions).signers
  if serializes payer instructions then
    some <|
      compactU16 signers.length ++
        signers.flatMap (fun key => (sign key).bytes) ++
        encodeMessage payer instructions blockhash
  else none

end Encoding

variable {payer : Address} {instructions : List WireInstruction}

/-! ## The length of an encoding -/

theorem otherKeys_perm
    (payer : Address) (instructions : List WireInstruction) :
    (payer :: otherKeys payer instructions).Perm
      (accountKeys payer instructions) := by
  have member : payer ∈ accountKeys payer instructions :=
    mem_accountKeys.mpr (.inl rfl)
  have sorted := List.mergeSort_perm
    ((accountKeys payer instructions).erase payer)
    (decide <| ·.bytes ≤ ·.bytes)
  exact (sorted.cons payer).trans (List.perm_cons_erase member).symm

/-- As many keys sign as the header says. -/
theorem length_signers :
    (compileKeys payer instructions).signers.length =
      (signerKeys payer instructions).length := by
  have sameKeys :
      ((accountKeys payer instructions).filter
          (· ∈ signerKeys payer instructions)).Perm
        (signerKeys payer instructions) := by
    apply (List.perm_ext_iff_of_nodup
      ((List.nodup_dedup _).filter _) (List.nodup_dedup _)).mpr
    intro key
    rw [List.mem_filter, decide_eq_true_eq]
    exact ⟨And.right, fun signs => ⟨signerKeys_subset signs, signs⟩⟩
  have ordered := otherKeys_perm payer instructions
  have signing :=
    (ordered.filter (· ∈ signerKeys payer instructions)).trans sameKeys
  have payerSigns : payer ∈ signerKeys payer instructions :=
    mem_signerKeys.mpr (.inl rfl)
  have count := signing.length_eq
  simp only [List.filter_cons, payerSigns, decide_true, if_true,
    List.length_cons] at count
  have parts :=
    ((otherKeys payer instructions).filter
      (· ∈ signerKeys payer instructions)).length_eq_length_filter_add
        (· ∈ writableKeys payer instructions)
  simp only [CompiledKeys.signers, compileKeys, List.length_append,
    List.length_cons, decide_not] at parts ⊢
  omega

theorem length_ordered :
    (compileKeys payer instructions).ordered.length =
      (accountKeys payer instructions).length := by
  have count := (otherKeys_perm payer instructions).length_eq
  have groups :=
    (otherKeys payer instructions).length_eq_length_filter_add
      (· ∈ signerKeys payer instructions)
  have signers :=
    ((otherKeys payer instructions).filter
      (· ∈ signerKeys payer instructions)).length_eq_length_filter_add
        (· ∈ writableKeys payer instructions)
  have nonSigners :=
    ((otherKeys payer instructions).filter
      (· ∉ signerKeys payer instructions)).length_eq_length_filter_add
        (· ∈ writableKeys payer instructions)
  simp only [CompiledKeys.ordered, CompiledKeys.signers, compileKeys,
    List.length_append, List.length_cons, decide_not] at *
  omega

theorem length_encodeInstruction
    (keys : List Address) (instruction : WireInstruction) :
    (encodeInstruction keys instruction).length =
      instructionLength instruction := by
  simp only [encodeInstruction, instructionLength, List.length_append,
    List.length_cons, List.length_map, length_compactU16]
  omega

/-- An instruction is longer than its account list and its data together. -/
theorem lt_instructionLength (instruction : WireInstruction) :
    instruction.accounts.length + instruction.data.length <
      instructionLength instruction := by
  unfold instructionLength
  omega

/-- Fields of one width, one for each key. -/
theorem length_fields
    {width : Nat} {field : Address → Bytes}
    (wide : ∀ key, (field key).length = width) (keys : List Address) :
    (keys.flatMap field).length = keys.length * width := by
  simp only [List.length_flatMap, wide, List.map_const',
    List.sum_replicate_nat]

theorem length_encodeMessage
    (payer : Address) (instructions : List WireInstruction)
    (blockhash : Blockhash) :
    (encodeMessage payer instructions blockhash).length =
      serializedLength payer instructions := by
  have keys :=
    length_fields Address.length_eq (compileKeys payer instructions).ordered
  have body : ∀ keys : List Address,
      (instructions.flatMap (encodeInstruction keys)).length =
        (instructions.map instructionLength).sum := by
    intro keys
    rw [List.length_flatMap]
    simp only [length_encodeInstruction]
  simp only [encodeMessage, encodeHeader, serializedLength,
    List.length_append, List.length_cons, List.length_nil,
    length_compactU16, blockhash.length_eq, keys, body, length_ordered]
  omega

/-- A message with few keys can be serialized if none of its lists is long. -/
theorem serializes_iff_of_few
    (few : (accountKeys payer instructions).length ≤ 255)
    (count : instructions.length < 2 ^ 16) :
    serializes payer instructions = true ↔
      ∀ instruction ∈ instructions,
        instruction.accounts.length < 2 ^ 16 ∧
          instruction.data.length < 2 ^ 16 := by
  have short : (accountKeys payer instructions).length < 2 ^ 16 := by omega
  simp only [serializes, headerFits_of_few few, Bool.and_eq_true,
    decide_eq_true_eq, List.all_eq_true, true_and, short, count]

theorem serializes_of_few
    (few : (accountKeys payer instructions).length ≤ 255)
    (count : instructions.length < 2 ^ 16)
    (each : ∀ instruction ∈ instructions,
      instruction.accounts.length < 2 ^ 16 ∧
        instruction.data.length < 2 ^ 16) :
    serializes payer instructions = true :=
  (serializes_iff_of_few few count).mpr each

/-- A message with fewer keys, some of them read only now, and with fewer
instructions can be serialized as well. -/
theorem serializes_mono
    {fewer more : List WireInstruction} (sublist : fewer.Sublist more)
    (signers : ∀ key,
      key ∈ signerKeys payer fewer ↔ key ∈ signerKeys payer more)
    (writable : writableKeys payer more ⊆ writableKeys payer fewer)
    (fits : serializes payer more = true) :
    serializes payer fewer = true := by
  simp only [serializes, Bool.and_eq_true, decide_eq_true_eq,
    List.all_eq_true] at fits ⊢
  obtain ⟨⟨⟨header, keys⟩, count⟩, each⟩ := fits
  have subset := sublist.subset
  have fewerKeys := length_accountKeys_mono payer subset
  have shorter := sublist.length_le
  exact ⟨⟨⟨headerFits_mono (accountKeys_mono payer subset) signers writable
      header, by omega⟩, by omega⟩,
    fun instruction member => each instruction (subset member)⟩

theorem encodeTransaction_of_serializes
    (blockhash : Blockhash) (sign : Address → Signature)
    (serializes : serializes payer instructions = true) :
    encodeTransaction payer instructions blockhash sign =
      some
        (compactU16 (compileKeys payer instructions).signers.length ++
          (compileKeys payer instructions).signers.flatMap
            (fun key => (sign key).bytes) ++
          encodeMessage payer instructions blockhash) :=
  if_pos serializes

/-- The length of a signed transaction. -/
theorem length_encodeTransaction
    {blockhash : Blockhash} {sign : Address → Signature} {bytes : Bytes}
    (encoded :
      encodeTransaction payer instructions blockhash sign = some bytes) :
    bytes.length =
      compactLength (signerKeys payer instructions).length +
        (signerKeys payer instructions).length * 64 +
          serializedLength payer instructions := by
  by_cases fits : serializes payer instructions = true
  case neg => simp [encodeTransaction, fits] at encoded
  case pos =>
      rw [encodeTransaction_of_serializes blockhash sign fits] at encoded
      cases encoded
      have signatures :=
        length_fields (fun key => (sign key).length_eq)
          (compileKeys payer instructions).signers
      simp only [List.length_append, length_compactU16, length_signers,
        signatures, length_encodeMessage]

end Message

/-! ## The estimate -/

namespace WireInstruction

/-- The size as it is computed.  There is none where building or serializing
the message panics. -/
def measuredSize (instructions : List WireInstruction) (payer : Address) :
    Option Nat :=
  if Message.serializes payer instructions then
    some (transactionSize instructions payer)
  else none

variable {payer : Address} {instructions : List WireInstruction}

theorem serializes_of_fits
    (fits : transactionSize instructions payer ≤ PACKET_DATA_SIZE) :
    Message.serializes payer instructions = true := by
  unfold transactionSize Message.serializedLength PACKET_DATA_SIZE at fits
  dsimp only at fits
  have few : (Message.accountKeys payer instructions).length ≤ 255 := by
    omega
  have count :
      instructions.length ≤
        (instructions.map Message.instructionLength).sum := by
    have nonempty : ∀ length ∈ instructions.map Message.instructionLength,
        1 ≤ length := by
      intro length member
      obtain ⟨instruction, _, rfl⟩ := List.mem_map.mp member
      have longer := Message.lt_instructionLength instruction
      omega
    have total := List.length_le_sum_of_one_le _ nonempty
    rwa [List.length_map] at total
  have each : ∀ instruction ∈ instructions,
      instruction.accounts.length < 2 ^ 16 ∧
        instruction.data.length < 2 ^ 16 := by
    intro instruction member
    have part :=
      List.single_le_sum (by simp) _
        (List.mem_map_of_mem (f := Message.instructionLength) member)
    have longer := Message.lt_instructionLength instruction
    omega
  exact Message.serializes_of_few few (by omega) each

theorem measuredSize_eq_some
    {size : Nat} (measured : measuredSize instructions payer = some size) :
    transactionSize instructions payer = size := by
  unfold measuredSize at measured
  split at measured
  case isFalse => cases measured
  case isTrue => exact Option.some.inj measured

/-- Whatever fits was measured. -/
theorem measuredSize_of_fits
    (fits : fitsInOneTransaction instructions payer = true) :
    ∃ size, measuredSize instructions payer = some size ∧
      size ≤ PACKET_DATA_SIZE := by
  have small := of_decide_eq_true fits
  exact ⟨_, if_pos (serializes_of_fits small), small⟩

/-- A message that cannot be serialized does not fit. -/
theorem fitsInOneTransaction_of_not_serializes
    (broken : Message.serializes payer instructions = false) :
    fitsInOneTransaction instructions payer = false := by
  apply decide_eq_false
  intro small
  rw [serializes_of_fits small] at broken
  cases broken

/-- The estimate fits a packet exactly when the signed transaction can be
serialized and fits it.  With 128 signatures or more, whose count takes another
byte, neither does. -/
theorem fitsInOneTransaction_iff
    (blockhash : Blockhash) (sign : Address → Signature) :
    fitsInOneTransaction instructions payer = true ↔
      ∃ bytes,
        Message.encodeTransaction payer instructions blockhash sign =
            some bytes ∧
          bytes.length ≤ PACKET_DATA_SIZE := by
  unfold fitsInOneTransaction
  rw [decide_eq_true_eq]
  constructor
  · intro fits
    have encoded := Message.encodeTransaction_of_serializes blockhash sign
      (serializes_of_fits fits)
    refine ⟨_, encoded, ?_⟩
    have length := Message.length_encodeTransaction encoded
    have few :
        Message.compactLength
            (Message.signerKeys payer instructions).length = 1 := by
      unfold transactionSize PACKET_DATA_SIZE at fits
      unfold Message.compactLength
      rw [if_pos (by omega)]
    unfold transactionSize at fits
    omega
  · rintro ⟨bytes, encoded, fits⟩
    have length := Message.length_encodeTransaction encoded
    have signed : 1 ≤ Message.compactLength
        (Message.signerKeys payer instructions).length := by
      unfold Message.compactLength
      split <;> (try split) <;> decide
    unfold transactionSize
    omega

/-- Below 128 signatures the estimate is exact. -/
theorem length_eq_transactionSize
    {blockhash : Blockhash} {sign : Address → Signature} {bytes : Bytes}
    (encoded :
      Message.encodeTransaction payer instructions blockhash sign =
        some bytes)
    (few : (Message.signerKeys payer instructions).length < 128) :
    bytes.length = transactionSize instructions payer := by
  have length := Message.length_encodeTransaction encoded
  have oneByte :
      Message.compactLength
          (Message.signerKeys payer instructions).length = 1 :=
    if_pos few
  unfold transactionSize
  omega

/-- Longer data never makes a transaction smaller. -/
theorem transactionSize_lengthen
    {instruction : WireInstruction} {data : Bytes}
    (longer : instruction.data.length ≤ data.length)
    (before after : List WireInstruction) (payer : Address) :
    transactionSize (before ++ instruction :: after) payer ≤
      transactionSize (before ++ { instruction with data } :: after)
        payer := by
  have signers :
      Message.signerKeys payer (before ++ { instruction with data } :: after) =
        Message.signerKeys payer (before ++ instruction :: after) := by
    simp [Message.signerKeys]
  have keys :
      Message.accountKeys payer
          (before ++ { instruction with data } :: after) =
        Message.accountKeys payer (before ++ instruction :: after) := by
    simp [Message.accountKeys]
  have prefixes := Message.compactLength_mono longer
  have lengths :
      Message.instructionLength instruction ≤
        Message.instructionLength { instruction with data } := by
    unfold Message.instructionLength
    dsimp only
    omega
  unfold transactionSize Message.serializedLength
  rw [signers, keys]
  simp only [List.length_append, List.length_cons, List.map_append,
    List.map_cons, List.sum_append, List.sum_cons]
  omega

/-- The size that is estimated for a transaction decides whether it fits a
packet, and never gets smaller when an instruction is inserted or the data of
one gets longer. -/
theorem estimate_is_exact_and_monotone :
    (∀ programs instructions payer,
      Remit.transactionSize programs instructions payer =
          transactionSize (instructions.map (Instruction.wire programs))
            payer ∧
        Remit.fitsInOneTransaction programs instructions payer =
          fitsInOneTransaction (instructions.map (Instruction.wire programs))
            payer) ∧
      (∀ payer instructions blockhash sign,
        fitsInOneTransaction instructions payer = true ↔
          ∃ bytes,
            Message.encodeTransaction payer instructions blockhash sign =
                some bytes ∧
              bytes.length ≤ PACKET_DATA_SIZE) ∧
      (∀ payer instructions blockhash sign bytes,
        Message.encodeTransaction payer instructions blockhash sign =
            some bytes →
          (Message.signerKeys payer instructions).length < 128 →
            bytes.length = transactionSize instructions payer) ∧
      (∀ payer before instruction after,
        transactionSize (before ++ after) payer ≤
          transactionSize (before ++ instruction :: after) payer) ∧
      ∀ payer before instruction data after,
        instruction.data.length ≤ data.length →
          transactionSize (before ++ instruction :: after) payer ≤
            transactionSize (before ++ { instruction with data } :: after)
              payer := by
  refine ⟨?_, ?_, ?_, ?_, ?_⟩
  · intro programs instructions payer
    exact ⟨rfl, rfl⟩
  · intro payer instructions blockhash sign
    exact fitsInOneTransaction_iff blockhash sign
  · intro payer instructions blockhash sign bytes encoded few
    exact length_eq_transactionSize encoded few
  · intro payer before instruction after
    apply transactionSize_mono
    exact (List.sublist_cons_self instruction after).append_left before
  · intro payer before instruction data after longer
    exact transactionSize_lengthen longer before after payer

end WireInstruction

/-! ## Measuring -/

section Measuring

variable (programs : Programs) (instructions : List Instruction)
  (payer : Address)

/-- Whether the message of `instructions` can be built and serialized. -/
def messageSerializes : Bool :=
  Message.serializes payer (instructions.map (Instruction.wire programs))

/-- Whether `instructions` fit in a single transaction, unless measuring them
panics. -/
def measuredFits : Option Bool :=
  (WireInstruction.measuredSize
      (instructions.map (Instruction.wire programs)) payer).map
    fun size => decide (size ≤ PACKET_DATA_SIZE)

variable {programs instructions payer}

theorem measuredFits_of_serializes
    (serializes : messageSerializes programs instructions payer = true) :
    measuredFits programs instructions payer =
      some (fitsInOneTransaction programs instructions payer) := by
  unfold measuredFits WireInstruction.measuredSize
  unfold messageSerializes at serializes
  rw [if_pos serializes]
  rfl

theorem measuredFits_eq_none_iff :
    measuredFits programs instructions payer = none ↔
      messageSerializes programs instructions payer = false := by
  unfold measuredFits WireInstruction.measuredSize messageSerializes
  rw [Option.map_eq_none_iff]
  constructor
  · intro unmeasured
    apply Bool.eq_false_iff.mpr
    intro serializes
    rw [if_pos serializes] at unmeasured
    cases unmeasured
  · intro broken
    exact if_neg (Bool.eq_false_iff.mp broken)

theorem measuredFits_eq_some
    {answer : Bool}
    (measured : measuredFits programs instructions payer = some answer) :
    fitsInOneTransaction programs instructions payer = answer := by
  cases serializes : messageSerializes programs instructions payer with
  | true =>
      rw [measuredFits_of_serializes serializes] at measured
      exact Option.some.inj measured
  | false =>
      rw [measuredFits_eq_none_iff.mpr serializes] at measured
      cases measured

/-- Whatever cannot be measured does not fit. -/
theorem not_fits_of_not_serializes
    (broken : messageSerializes programs instructions payer = false) :
    fitsInOneTransaction programs instructions payer = false :=
  WireInstruction.fitsInOneTransaction_of_not_serializes broken

theorem messageSerializes_withComputeUnitLimit
    (units other : Nat) (instructions : List Instruction) :
    messageSerializes programs (withComputeUnitLimit units instructions)
        payer =
      messageSerializes programs (withComputeUnitLimit other instructions)
        payer := by
  unfold messageSerializes Message.serializes withComputeUnitLimit
  simp only [List.map_cons, List.all_cons, Instruction.wire,
    List.length_cons, length_leBytes]
  rfl

end Measuring
end Remit
