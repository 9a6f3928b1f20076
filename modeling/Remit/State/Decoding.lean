import Remit.Token.Layout

/-!
# What decoding hides

A snapshot lists the extension types of its account and has fields for some of
them.  A field that cannot be read is none, as if its type did not occur, so a
field shows what the account stores as long as the first entry of its type is
well formed.
-/

namespace Remit

open Flows

variable {Base α Data : Type}

/-! ## What bytes mean -/

/-- Bytes of exactly the size of a value mean the value. -/
def sized (size : Nat) (ofBytes : Bytes → α) (bytes : Bytes) :
    Option (Option α) :=
  if bytes.length = size then some (some (ofBytes bytes)) else none

/-- 32 bytes mean a key, and the zero key means none. -/
def optionalKey (bytes : Bytes) : Option (Option Address) :=
  if wide : bytes.length = 32 then
    some (if bytes = List.replicate 32 0 then none else some ⟨bytes, wide⟩)
  else none

/-- One byte means the account state that it encodes. -/
def stateByte (bytes : Bytes) : Option (Option AccountState) :=
  if bytes.length = 1 then (AccountState.ofByte (bytes.headD 0)).map some
  else none

/-- Bytes that can be parsed mean the value. -/
def parsed (parse : Bytes → Except ProgramError α) (bytes : Bytes) :
    Option (Option α) :=
  (parse bytes).toOption.map some

theorem sized_isSome
    {size : Nat} {ofBytes : Bytes → α} {bytes : Bytes} :
    (sized size ofBytes bytes).isSome = true ↔ bytes.length = size := by
  unfold sized
  split <;> simp_all

theorem optionalKey_isSome {bytes : Bytes} :
    (optionalKey bytes).isSome = true ↔ bytes.length = 32 := by
  unfold optionalKey
  split <;> simp_all

theorem parsed_isSome
    {parse : Bytes → Except ProgramError α} {bytes : Bytes} :
    (parsed parse bytes).isSome = true ↔
      ∃ value, parse bytes = .ok value := by
  unfold parsed
  rcases parse bytes with error | value <;> simp [Except.toOption]

/-- The crate reads optional keys as their bytes. -/
structure TokenInterface.ReadsKeys (interface : TokenInterface Data) : Prop
    where
  mintCloseAuthority : ∀ bytes, bytes.length = 32 →
    optionalKey bytes = some (interface.mintCloseAuthority bytes)
  permanentDelegate : ∀ bytes, bytes.length = 32 →
    optionalKey bytes = some (interface.permanentDelegate bytes)

namespace StateWithExtensions

variable (state : StateWithExtensions Base)

/-- The first entry of a type. -/
def firstOf (type : ExtensionType) : Option TlvEntry :=
  state.entries.find? (·.extensionType = type)

/-- A field reports its type: it is none when the type is not listed, and what
the bytes of the first entry mean when it is. -/
def Reports (extensions : List ExtensionType) (type : ExtensionType)
    (meaning : Bytes → Option (Option α)) (field : Option α) : Prop :=
  (type ∉ extensions → field = none) ∧
    (type ∈ extensions → ∃ entry,
      state.firstOf type = some entry ∧ meaning entry.value = some field)

/-- The first entries of these types, where there are any, have the sizes of
the types. -/
def WellSized (sizes : List (ExtensionType × Nat)) : Prop :=
  ∀ field ∈ sizes, ∀ entry,
    state.firstOf field.1 = some entry → entry.value.length = field.2

instance (sizes : List (ExtensionType × Nat)) :
    Decidable (state.WellSized sizes) :=
  decidable_of_iff
    (∀ field ∈ sizes,
      (state.firstOf field.1).all (·.value.length = field.2) = true)
    (by simp [WellSized, Option.all_eq_true])

variable {state} {type : ExtensionType} {extensions : List ExtensionType}

theorem mem_extensionTypes
    (listed : state.getExtensionTypes = .ok extensions) :
    type ∈ extensions ↔ ∃ entry, state.firstOf type = some entry := by
  have types : state.entries.map (·.extensionType) = extensions := by
    unfold getExtensionTypes at listed
    split at listed
    case h_1 => cases listed
    case h_2 => exact Except.ok.inj listed
  rw [← types, List.mem_map, ← Option.isSome_iff_exists, firstOf,
    List.find?_isSome]
  simp only [decide_eq_true_eq]

/-- A field that is read from the first entry of its type reports the type
unless the bytes of the entry mean nothing. -/
theorem reports_iff
    {meaning : Bytes → Option (Option α)} {field : Option α}
    (listed : state.getExtensionTypes = .ok extensions)
    (read : field =
      (state.firstOf type).bind fun entry => (meaning entry.value).join) :
    state.Reports extensions type meaning field ↔
      ∀ entry, state.firstOf type = some entry →
        (meaning entry.value).isSome = true := by
  unfold Reports
  rw [mem_extensionTypes listed]
  rcases first : state.firstOf type with _ | entry
  · rw [first] at read
    simp [read]
  · rw [first] at read
    have same : field = (meaning entry.value).join := read
    rcases meant : meaning entry.value with _ | value
    · simp [meant]
    · rw [meant] at same
      simp [meant, same]

/-! ## How fields are read -/

/-- Whatever is read of a type is read from its first entry. -/
theorem getExtensionBytes_bind
    (state : StateWithExtensions Base) (type : ExtensionType)
    (read : Bytes → Except ProgramError α) :
    (state.getExtensionBytes type >>= read).toOption =
      (state.firstOf type).bind fun entry => (read entry.value).toOption := by
  unfold getExtensionBytes firstOf
  split
  case h_1 entry found =>
      rw [found]
      rfl
  case h_2 missing =>
      rw [missing]
      rfl

theorem getExtension_toOption (size : Nat) (ofBytes : Bytes → α) :
    (state.getExtension type size ofBytes).toOption =
      (state.firstOf type).bind fun entry =>
        (sized size ofBytes entry.value).join := by
  have first := getExtensionBytes_bind state type fun bytes =>
    if bytes.length = size then pure (ofBytes bytes)
    else throw .invalidArgument
  refine first.trans (congrArg _ (funext fun entry => ?_))
  unfold sized
  split
  · rfl
  · rfl

/-- An optional key is none where there is no key or the zero key. -/
theorem getExtension_join
    {ofBytes : Bytes → Option Address}
    (keys : ∀ bytes, bytes.length = 32 →
      optionalKey bytes = some (ofBytes bytes)) :
    (state.getExtension type 32 ofBytes).toOption.join =
      (state.firstOf type).bind fun entry =>
        (optionalKey entry.value).join := by
  rw [getExtension_toOption]
  rcases state.firstOf type with _ | entry
  · rfl
  · by_cases wide : entry.value.length = 32
    · simp [sized, wide, keys entry.value wide]
    · simp [sized, wide, optionalKey]

theorem getVariableLenExtension_toOption
    (parse : Bytes → Except ProgramError α) :
    (state.getVariableLenExtension type parse).toOption =
      (state.firstOf type).bind fun entry =>
        (parsed parse entry.value).join := by
  refine (getExtensionBytes_bind state type parse).trans
    (congrArg _ (funext fun entry => ?_))
  unfold parsed
  rcases parse entry.value with error | value
  · rfl
  · rfl

/-! ## What fields report -/

theorem reports_sized
    (listed : state.getExtensionTypes = .ok extensions)
    (size : Nat) (ofBytes : Bytes → α) :
    state.Reports extensions type (sized size ofBytes)
        (state.getExtension type size ofBytes).toOption ↔
      ∀ entry, state.firstOf type = some entry →
        entry.value.length = size := by
  rw [reports_iff listed (getExtension_toOption size ofBytes)]
  simp only [sized_isSome]

theorem reports_key
    {ofBytes : Bytes → Option Address}
    (listed : state.getExtensionTypes = .ok extensions)
    (keys : ∀ bytes, bytes.length = 32 →
      optionalKey bytes = some (ofBytes bytes)) :
    state.Reports extensions type optionalKey
        (state.getExtension type 32 ofBytes).toOption.join ↔
      ∀ entry, state.firstOf type = some entry →
        entry.value.length = 32 := by
  rw [reports_iff listed (getExtension_join keys)]
  simp only [optionalKey_isSome]

theorem reports_parsed
    (listed : state.getExtensionTypes = .ok extensions)
    (parse : Bytes → Except ProgramError α) :
    state.Reports extensions type (parsed parse)
        (state.getVariableLenExtension type parse).toOption ↔
      ∀ entry, state.firstOf type = some entry →
        ∃ value, parse entry.value = .ok value := by
  rw [reports_iff listed (getVariableLenExtension_toOption parse)]
  simp only [parsed_isSome]

end StateWithExtensions

theorem stateByte_join (bytes : Bytes) :
    (stateByte bytes).join =
      (sized 1 (·.headD 0) bytes).join.bind AccountState.ofByte := by
  unfold stateByte sized
  split
  · simp only [Option.join_some, Option.bind_some]
    cases AccountState.ofByte (bytes.headD 0) with
    | none => rfl
    | some state => rfl
  · rfl

/-- The default account state that is read, if its byte encodes one. -/
theorem StateWithExtensions.readDefaultAccountState_eq_ok
    {state : StateWithExtensions Mint} {field : Option AccountState}
    (read : state.readDefaultAccountState = .ok field) :
    field = (state.firstOf .defaultAccountState).bind fun entry =>
      (stateByte entry.value).join := by
  have decoded :
      field =
        (state.getExtension .defaultAccountState 1 (·.headD 0)).toOption.bind
          AccountState.ofByte := by
    unfold readDefaultAccountState at read
    split at read
    case h_1 error missing =>
        cases read
        rw [missing]
        rfl
    case h_2 byte found =>
        rw [found]
        split at read
        case h_1 accountState encoded =>
            cases read
            exact encoded.symm
        case h_2 => cases read
  rw [decoded, getExtension_toOption, Option.bind_assoc]
  simp only [stateByte_join]

theorem StateWithExtensions.reports_stateByte
    {state : StateWithExtensions Mint} {field : Option AccountState}
    {extensions : List ExtensionType}
    (listed : state.getExtensionTypes = .ok extensions)
    (read : state.readDefaultAccountState = .ok field) :
    state.Reports extensions .defaultAccountState stateByte field ↔
      ∀ entry, state.firstOf .defaultAccountState = some entry →
        entry.value.length = 1 := by
  rw [reports_iff listed (readDefaultAccountState_eq_ok read)]
  constructor
  · intro means entry first
    have meaning := means entry first
    by_cases wide : entry.value.length = 1
    · exact wide
    · simp [stateByte, wide] at meaning
  · intro wide entry first
    have found :
        (state.getExtension .defaultAccountState 1 (·.headD 0)).toOption =
          some (entry.value.headD 0) := by
      rw [getExtension_toOption, first]
      simp [sized, wide entry first]
    unfold readDefaultAccountState at read
    split at read
    case h_1 error missing =>
        rw [missing] at found
        cases found
    case h_2 byte here =>
        rw [here] at found
        cases found
        -- A byte that encodes no state is an error already.
        split at read
        case h_2 => cases read
        case h_1 accountState encoded =>
            rw [stateByte, if_pos (wide entry first), encoded]
            rfl

/-! ## Decoded snapshots -/

/-- The sizes of the extensions that a mint snapshot has fields for. -/
def mintFieldSizes : List (ExtensionType × Nat) :=
  [(.transferFeeConfig, 108), (.metadataPointer, 64),
    (.defaultAccountState, 1), (.mintCloseAuthority, 32),
    (.permanentDelegate, 32), (.confidentialTransferMint, 65),
    (.confidentialTransferFeeConfig, 129)]

/-- The sizes of the extensions that an account snapshot has fields for. -/
def accountFieldSizes : List (ExtensionType × Nat) :=
  [(.transferFeeAmount, 8), (.cpiGuard, 1),
    (.confidentialTransferAccount, 295), (.confidentialTransferFeeAmount, 64)]

/-- The metadata of a mint, where there is any, can be parsed. -/
def StateWithExtensions.MetadataParses
    (interface : TokenInterface Data) (state : StateWithExtensions Mint) :
    Prop :=
  ∀ entry, state.firstOf .tokenMetadata = some entry →
    ∃ metadata, interface.tokenMetadata entry.value = .ok metadata

/-- Every field of a mint snapshot reports its extension. -/
structure MintSnapshot.Shows (interface : TokenInterface Data)
    (state : StateWithExtensions Mint) (mint : MintSnapshot) : Prop where
  transferFee :
    state.Reports mint.extensions .transferFeeConfig
      (sized 108 interface.transferFeeConfig) mint.transferFee
  metadataPointer :
    state.Reports mint.extensions .metadataPointer
      (sized 64 interface.metadataPointer) mint.metadataPointer
  defaultAccountState :
    state.Reports mint.extensions .defaultAccountState stateByte
      mint.defaultAccountState
  closeAuthority :
    state.Reports mint.extensions .mintCloseAuthority optionalKey
      mint.closeAuthority
  permanentDelegate :
    state.Reports mint.extensions .permanentDelegate optionalKey
      mint.permanentDelegate
  confidential :
    state.Reports mint.extensions .confidentialTransferMint
      (sized 65 interface.confidentialTransferMint) mint.confidential
  confidentialFee :
    state.Reports mint.extensions .confidentialTransferFeeConfig
      (sized 129 interface.confidentialTransferFeeConfig) mint.confidentialFee
  metadata :
    state.Reports mint.extensions .tokenMetadata
      (parsed interface.tokenMetadata) mint.metadata

/-- Every field of an account snapshot reports its extension. -/
structure AccountSnapshot.Shows (interface : TokenInterface Data)
    (state : StateWithExtensions TokenAccount) (account : AccountSnapshot) :
    Prop where
  withheldFee :
    state.Reports account.extensions .transferFeeAmount
      (sized 8 interface.transferFeeAmount) account.withheldFee
  cpiGuard :
    state.Reports account.extensions .cpiGuard (sized 1 interface.cpiGuard)
      account.cpiGuard
  confidential :
    state.Reports account.extensions .confidentialTransferAccount
      (sized 295 interface.confidentialTransferAccount) account.confidential
  confidentialWithheld :
    state.Reports account.extensions .confidentialTransferFeeAmount
      (sized 64 interface.confidentialTransferFeeAmount)
      account.confidentialWithheld

section Decoded

open StateWithExtensions

variable {interface : TokenInterface Data} {address : Address} {data : Data}
  {lamports : Nat}

/-- A mint snapshot shows what its mint stores exactly when the first entries
are well formed. -/
theorem MintSnapshot.shows_iff
    {state : StateWithExtensions Mint} {mint : MintSnapshot}
    (keys : interface.ReadsKeys)
    (unpacked : interface.unpackMint data = .ok state)
    (decoded : decode interface address data lamports = .ok mint) :
    mint.Shows interface state ↔
      state.WellSized mintFieldSizes ∧ state.MetadataParses interface := by
  unfold decode at decoded
  rw [unpacked] at decoded
  obtain ⟨_, ⟨⟩, decoded⟩ := except_bind_eq_ok decoded
  obtain ⟨defaultState, defaultRead, decoded⟩ := except_bind_eq_ok decoded
  obtain ⟨extensions, types, decoded⟩ := except_bind_eq_ok decoded
  have listed := ofProgram_eq_ok types
  have stateRead := ofProgram_eq_ok defaultRead
  cases decoded
  simp only [WellSized, mintFieldSizes, List.forall_mem_cons,
    List.not_mem_nil, false_implies, implies_true, and_true]
  constructor
  · intro shows
    have metadata := (reports_parsed listed _).mp shows.metadata
    refine ⟨⟨?_, ?_, ?_, ?_, ?_, ?_, ?_⟩, metadata⟩
    · exact (reports_sized listed 108 _).mp shows.transferFee
    · exact (reports_sized listed 64 _).mp shows.metadataPointer
    · exact (reports_stateByte listed stateRead).mp shows.defaultAccountState
    · exact (reports_key listed keys.mintCloseAuthority).mp
        shows.closeAuthority
    · exact (reports_key listed keys.permanentDelegate).mp
        shows.permanentDelegate
    · exact (reports_sized listed 65 _).mp shows.confidential
    · exact (reports_sized listed 129 _).mp shows.confidentialFee
  · intro wellFormed
    obtain ⟨⟨fee, pointer, byte, close, delegate, confidential,
      confidentialFee⟩, metadata⟩ := wellFormed
    exact
      { transferFee := (reports_sized listed 108 _).mpr fee
        metadataPointer := (reports_sized listed 64 _).mpr pointer
        defaultAccountState := (reports_stateByte listed stateRead).mpr byte
        closeAuthority :=
          (reports_key listed keys.mintCloseAuthority).mpr close
        permanentDelegate :=
          (reports_key listed keys.permanentDelegate).mpr delegate
        confidential := (reports_sized listed 65 _).mpr confidential
        confidentialFee := (reports_sized listed 129 _).mpr confidentialFee
        metadata := (reports_parsed listed _).mpr metadata }

theorem AccountSnapshot.shows_iff
    {state : StateWithExtensions TokenAccount} {account : AccountSnapshot}
    (unpacked : interface.unpackAccount data = .ok state)
    (decoded : decode interface address data lamports = .ok account) :
    account.Shows interface state ↔ state.WellSized accountFieldSizes := by
  unfold decode at decoded
  rw [unpacked] at decoded
  obtain ⟨_, ⟨⟩, decoded⟩ := except_bind_eq_ok decoded
  obtain ⟨extensions, types, decoded⟩ := except_bind_eq_ok decoded
  have listed := ofProgram_eq_ok types
  cases decoded
  simp only [WellSized, accountFieldSizes, List.forall_mem_cons,
    List.not_mem_nil, false_implies, implies_true, and_true]
  constructor
  · intro shows
    refine ⟨?_, ?_, ?_, ?_⟩
    · exact (reports_sized listed 8 _).mp shows.withheldFee
    · exact (reports_sized listed 1 _).mp shows.cpiGuard
    · exact (reports_sized listed 295 _).mp shows.confidential
    · exact (reports_sized listed 64 _).mp shows.confidentialWithheld
  · intro sizes
    obtain ⟨withheld, guarded, confidential, confidentialWithheld⟩ := sizes
    exact
      { withheldFee := (reports_sized listed 8 _).mpr withheld
        cpiGuard := (reports_sized listed 1 _).mpr guarded
        confidential := (reports_sized listed 295 _).mpr confidential
        confidentialWithheld :=
          (reports_sized listed 64 _).mpr confidentialWithheld }

/-- Decoding hides an extension exactly when the first entry of a type that a
snapshot has a field for is not well formed: a fixed-size one of another size,
or metadata that cannot be parsed. -/
theorem decoding_hides_nothing_iff (keys : interface.ReadsKeys) :
    (∀ address data lamports mint state,
      MintSnapshot.decode interface address data lamports = .ok mint →
        interface.unpackMint data = .ok state →
          (mint.Shows interface state ↔
            state.WellSized mintFieldSizes ∧
              state.MetadataParses interface)) ∧
      ∀ address data lamports account state,
        AccountSnapshot.decode interface address data lamports =
            .ok account →
          interface.unpackAccount data = .ok state →
            (account.Shows interface state ↔
              state.WellSized accountFieldSizes) := by
  constructor
  · intro address data lamports mint state decoded unpacked
    exact MintSnapshot.shows_iff keys unpacked decoded
  · intro address data lamports account state decoded unpacked
    exact AccountSnapshot.shows_iff unpacked decoded

end Decoded

/-! ## A mint with a short fee config -/

namespace Layout

theorem optionalKey_readKey
    {bytes : Bytes} (wide : bytes.length = 32) :
    optionalKey bytes = some (readKey (leValue bytes)) := by
  have written := leBytes_leValue bytes
  rw [wide] at written
  rw [optionalKey, dif_pos wide, readKey]
  by_cases zeros : bytes = List.replicate 32 0
  · rw [if_pos zeros, zeros]
    rfl
  · have nonzero : leValue bytes ≠ 0 := by
      intro zero
      rw [zero] at written
      exact zeros written.symm
    rw [if_neg zeros, if_neg nonzero]
    exact congrArg (some ∘ some) (Address.bytes_injective written.symm)

theorem readsKeys : interface.ReadsKeys where
  mintCloseAuthority _ wide := optionalKey_readKey wide
  permanentDelegate _ wide := optionalKey_readKey wide

/-- The base state of the mints. -/
def decodedBase : Mint where
  mintAuthority := none
  supply := 0
  decimals := 2
  freezeAuthority := none

/-- A fee config that is one byte short. -/
def shortFeeConfig : List TlvEntry :=
  [⟨.transferFeeConfig, List.replicate 107 1⟩]

/-- A fee config, a frozen default state and the zero key. -/
def wholeEntries : List TlvEntry :=
  [⟨.transferFeeConfig, List.replicate 108 1⟩, ⟨.defaultAccountState, [2]⟩,
    ⟨.mintCloseAuthority, List.replicate 32 0⟩]

/-- The mint lists its fee config and yet is said to have none. -/
theorem short_fee_config_hidden :
    ∃ mint,
      MintSnapshot.decode interface (Address.filled 1)
          (.mint decodedBase shortFeeConfig) 0 = .ok mint ∧
        .transferFeeConfig ∈ mint.extensions ∧ mint.transferFee = none ∧
        mint.requireTransferFee =
          .error (.invalid
            ("mint " ++ (Address.filled 1).display ++
              " has no TransferFeeConfig")) ∧
        ¬ mint.Shows interface ⟨decodedBase, shortFeeConfig, none⟩ := by
  refine ⟨_, rfl, .head _, rfl, rfl, ?_⟩
  intro shows
  obtain ⟨entry, first, means⟩ := shows.transferFee.2 (.head _)
  cases first
  cases means

/-- Whole entries are shown, the zero key as none. -/
theorem whole_entries_shown :
    ∃ mint,
      MintSnapshot.decode interface (Address.filled 1)
          (.mint decodedBase wholeEntries) 0 = .ok mint ∧
        mint.Shows interface ⟨decodedBase, wholeEntries, none⟩ ∧
        mint.defaultAccountState = some .frozen ∧
        mint.closeAuthority = none := by
  have wellSized :
      (⟨decodedBase, wholeEntries, none⟩ :
        StateWithExtensions Mint).WellSized mintFieldSizes := by
    decide
  refine ⟨_, rfl, ?_, rfl, rfl⟩
  apply ((decoding_hides_nothing_iff readsKeys).1 (Address.filled 1)
    (.mint decodedBase wholeEntries) 0 _ _ rfl rfl).mpr
  refine ⟨wellSized, ?_⟩
  intro entry first
  cases first

end Layout
end Remit
