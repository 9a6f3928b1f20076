import Remit.Agent.Client
import Remit.Transfer

/-!
# The probe

A program for tests that does what a careless program can do with the signature
of an owner: forward it into a transfer, or approve a delegate with it.
-/

namespace Remit

/-- Two errors that are kept apart by their number. -/
def ProgramError.incorrectProgramId : ProgramError :=
  .other 7

def ProgramError.arithmeticOverflow : ProgramError :=
  .other 24

open Flows in
/-- What a snapshot says is in the data that it was decoded from. -/
theorem MintSnapshot.decode_state
    {Data : Type} {interface : TokenInterface Data} {address : Address}
    {data : Data} {lamports : Nat} {mint : MintSnapshot}
    (decoded : MintSnapshot.decode interface address data lamports = .ok mint) :
    ∃ state, interface.unpackMint data = .ok state ∧
      mint.decimals = state.base.decimals ∧
      mint.transferFee =
        (state.getExtension .transferFeeConfig 108
          interface.transferFeeConfig).toOption := by
  obtain ⟨state, unpacked, decoded⟩ := except_bind_eq_ok decoded
  obtain ⟨_, _, decoded⟩ := except_bind_eq_ok decoded
  obtain ⟨_, _, decoded⟩ := except_bind_eq_ok decoded
  cases decoded
  exact ⟨state, ofProgram_eq_ok unpacked, rfl, rfl⟩

namespace Probe

open Agent (AccountInfo Invocation Passes nextAccountInfo)
open Flows

/-- The address of the program. -/
def ID : Address :=
  ⟨[5, 218, 219, 16, 182, 115, 174, 177, 21, 87, 192, 52, 149, 134, 253, 0, 44,
    77, 209, 113, 37, 226, 156, 150, 228, 198, 23, 91, 67, 236, 149, 49], rfl⟩

inductive ProbeInstruction where
  | forwardOwnerTransfer (amount : UInt64)
  | forwardApprove (amount : UInt64)
deriving DecidableEq

namespace ProbeInstruction

/-- Serialize: a tag and the amount. -/
def pack : ProbeInstruction → Bytes
  | forwardOwnerTransfer amount => 0 :: leBytes 8 amount.toNat
  | forwardApprove amount => 1 :: leBytes 8 amount.toNat

/-- Deserialize.  The amount is read before the tag is looked at. -/
def unpack : Bytes → Except ProgramError ProbeInstruction
  | [] => .error .invalidInstructionData
  | tag :: rest =>
      if rest.length = 8 then
        let amount := UInt64.ofNat (leValue rest)
        match tag with
        | 0 => .ok (forwardOwnerTransfer amount)
        | 1 => .ok (forwardApprove amount)
        | _ => .error .invalidInstructionData
      else .error .invalidInstructionData

end ProbeInstruction

section Processing

variable {Data : Type} (interface : TokenInterface Data)

/-- The fee of a transfer in the current epoch. -/
def epochFee (epoch : Nat) (feeConfig : Option TransferFeeConfig)
    (amount : Nat) : Except ProgramError Nat :=
  match feeConfig with
  | none => .ok 0
  | some config =>
      match config.calculateEpochFee epoch amount with
      | some fee => .ok fee
      | none => .error .arithmeticOverflow

/-- What the interface crate refuses to build for a program. -/
abbrev BuilderCheck :=
  Address → TokenInstruction → Except ProgramError Unit

variable (check : BuilderCheck)

/-- Program entrypoint, up to the call of the token program that it ends with.
Nobody looks at who owns the mint account. -/
def processInstruction (epoch : Nat) (_programId : Address)
    (accounts : List (AccountInfo Data)) (instructionData : Bytes) :
    Except (Stop ProgramError) (Invocation Data) := do
  let instruction ←
    (ProbeInstruction.unpack instructionData).mapError Stop.error
  let (source, accounts) ← nextAccountInfo accounts
  let (mint, accounts) ← nextAccountInfo accounts
  let (target, accounts) ← nextAccountInfo accounts
  let (owner, accounts) ← nextAccountInfo accounts
  let (tokenProgram, _) ← nextAccountInfo accounts
  let accountInfos := [source, mint, target, owner, tokenProgram]
  let state ← (interface.unpackMint mint.data).mapError Stop.error
  let decimals := state.base.decimals
  let feeConfig :=
    (state.getExtension .transferFeeConfig 108
      interface.transferFeeConfig).toOption
  match instruction with
  | .forwardOwnerTransfer amount =>
      let fee ← (epochFee epoch feeConfig amount.toNat).mapError Stop.error
      let transfer := TokenInstruction.transferCheckedWithFee source.key
        mint.key target.key owner.key amount.toNat decimals fee
      (check tokenProgram.key transfer).mapError Stop.error
      pure
        { program := tokenProgram.key
          instruction := transfer
          accounts := accountInfos
          signerSeeds := [] }
  | .forwardApprove amount =>
      let approve := TokenInstruction.approveChecked source.key mint.key
        target.key owner.key amount.toNat decimals
      (check tokenProgram.key approve).mapError Stop.error
      pure
        { program := tokenProgram.key
          instruction := approve
          accounts := accountInfos
          signerSeeds := [] }

end Processing

/-! ## The builders -/

section Building

variable (programs : Programs)

def build (target : AccountMeta) (source mint owner : Address)
    (data : ProbeInstruction) : WireInstruction where
  programId := ID
  accounts :=
    [.new source false, .newReadonly mint false, target,
      .newReadonly owner true, .newReadonly programs.token2022 false]
  data := data.pack

/-- Build `ForwardOwnerTransfer`. -/
def forwardOwnerTransfer (source mint destination owner : Address)
    (amount : UInt64) : WireInstruction :=
  build programs (.new destination false) source mint owner
    (.forwardOwnerTransfer amount)

/-- Build `ForwardApprove`. -/
def forwardApprove (source mint delegate owner : Address) (amount : UInt64) :
    WireInstruction :=
  build programs (.newReadonly delegate false) source mint owner
    (.forwardApprove amount)

end Building

/-! ## The data of an instruction -/

namespace ProbeInstruction

theorem unpack_pack (instruction : ProbeInstruction) :
    unpack instruction.pack = .ok instruction := by
  have fits : ∀ amount : UInt64, amount.toNat < 256 ^ 8 := fun amount =>
    Nat.lt_of_lt_of_eq amount.toNat_lt (by decide)
  cases instruction with
  | forwardOwnerTransfer amount | forwardApprove amount =>
      simp only [pack, unpack, length_leBytes, if_true,
        leValue_leBytes (fits amount), UInt64.ofNat_toNat]

/-- Only what was packed is unpacked. -/
theorem pack_of_unpack
    {bytes : Bytes} {instruction : ProbeInstruction}
    (unpacked : unpack bytes = .ok instruction) :
    bytes = instruction.pack := by
  unfold unpack at unpacked
  split at unpacked
  case h_1 => cases unpacked
  case h_2 tag rest =>
      split at unpacked
      case isFalse => cases unpacked
      case isTrue wide =>
          have fits : leValue rest < 2 ^ 64 := by
            have bound := leValue_lt rest
            rw [wide] at bound
            exact Nat.lt_of_lt_of_eq bound (by decide)
          have same : leBytes 8 (UInt64.ofNat (leValue rest)).toNat = rest := by
            rw [UInt64.toNat_ofNat_of_lt' fits, ← wide]
            exact leBytes_leValue rest
          dsimp only at unpacked
          split at unpacked
          case h_1 =>
              cases unpacked
              rw [pack, same]
          case h_2 =>
              cases unpacked
              rw [pack, same]
          case h_3 => cases unpacked

theorem unpack_eq_ok {bytes : Bytes} {instruction : ProbeInstruction} :
    unpack bytes = .ok instruction ↔ bytes = instruction.pack := by
  constructor
  · exact pack_of_unpack
  · intro packed
    rw [packed]
    exact unpack_pack instruction

/-- The instruction of Token-2022 that the probe sends on. -/
def forwards (source mint target owner : Address) (decimals fee : Nat) :
    ProbeInstruction → TokenInstruction
  | forwardOwnerTransfer amount =>
      .transferCheckedWithFee source mint target owner amount.toNat decimals fee
  | forwardApprove amount =>
      .approveChecked source mint target owner amount.toNat decimals

end ProbeInstruction

/-! ## What the entrypoint lets through -/

section Passing

variable {Data : Type} {interface : TokenInterface Data} {check : BuilderCheck}
  {epoch : Nat} {programId : Address}

theorem nextAccountInfo_eq_ok
    {accounts rest : List (AccountInfo Data)} {account : AccountInfo Data}
    (next : nextAccountInfo accounts = .ok (account, rest)) :
    accounts = account :: rest := by
  cases accounts with
  | nil => cases next
  | cons => cases next; rfl

/-- What is invoked is what the data says, between the accounts that were
passed, and nobody but the signers of the call signs for it. -/
theorem processInstruction_eq_ok
    {accounts : List (AccountInfo Data)} {instructionData : Bytes}
    {invocation : Invocation Data}
    (processed : processInstruction interface check epoch programId accounts
      instructionData = .ok invocation) :
    ∃ source mint target owner tokenProgram rest instruction decimals fee,
      accounts = source :: mint :: target :: owner :: tokenProgram :: rest ∧
        instructionData = ProbeInstruction.pack instruction ∧
        check tokenProgram.key invocation.instruction = .ok () ∧
        invocation.program = tokenProgram.key ∧
        invocation.instruction =
          instruction.forwards source.key mint.key target.key owner.key decimals
            fee ∧
        invocation.signerSeeds = [] := by
  unfold processInstruction at processed
  obtain ⟨instruction, unpacked, processed⟩ := except_bind_eq_ok processed
  obtain ⟨⟨source, _⟩, first, processed⟩ := except_bind_eq_ok processed
  obtain ⟨⟨mint, _⟩, second, processed⟩ := except_bind_eq_ok processed
  obtain ⟨⟨target, _⟩, third, processed⟩ := except_bind_eq_ok processed
  obtain ⟨⟨owner, _⟩, fourth, processed⟩ := except_bind_eq_ok processed
  obtain ⟨⟨tokenProgram, rest⟩, fifth, processed⟩ := except_bind_eq_ok processed
  obtain ⟨state, _, processed⟩ := except_bind_eq_ok processed
  have packed := ProbeInstruction.pack_of_unpack
    (except_mapError_eq_ok unpacked)
  have passed : accounts =
      source :: mint :: target :: owner :: tokenProgram :: rest := by
    rw [nextAccountInfo_eq_ok first, nextAccountInfo_eq_ok second,
      nextAccountInfo_eq_ok third, nextAccountInfo_eq_ok fourth,
      nextAccountInfo_eq_ok fifth]
  cases instruction with
  | forwardOwnerTransfer amount =>
      obtain ⟨fee, _, processed⟩ := except_bind_eq_ok processed
      obtain ⟨_, checked, processed⟩ := except_bind_eq_ok processed
      cases processed
      exact ⟨source, mint, target, owner, tokenProgram, rest,
        .forwardOwnerTransfer amount, state.base.decimals, fee, passed, packed,
        except_mapError_eq_ok checked, rfl, rfl, rfl⟩
  | forwardApprove amount =>
      obtain ⟨_, checked, processed⟩ := except_bind_eq_ok processed
      cases processed
      exact ⟨source, mint, target, owner, tokenProgram, rest,
        .forwardApprove amount, state.base.decimals, 0, passed, packed,
        except_mapError_eq_ok checked, rfl, rfl, rfl⟩

end Passing

/-! ## The client and the processor -/

section Agreement

variable {Data : Type} (interface : TokenInterface Data) (programs : Programs)
  (check : BuilderCheck)

/-- Neither builder has anything against Token-2022. -/
def BuildsForToken2022 : Prop :=
  ∀ source mint target owner decimals fee instruction,
    check programs.token2022
      (ProbeInstruction.forwards source mint target owner decimals fee
        instruction) = .ok ()

variable {interface programs check} {epoch : Nat} {programId : Address}

/-- Five accounts are passed for five. -/
theorem passes_five
    {target : AccountMeta} {source mint owner : Address}
    {data : ProbeInstruction} {accounts : List (AccountInfo Data)}
    (passes : Passes (build programs target source mint owner data) accounts) :
    ∃ one two three four five, accounts = [one, two, three, four, five] ∧
      one.key = source ∧ two.key = mint ∧ three.key = target.pubkey ∧
      four.key = owner ∧ five.key = programs.token2022 := by
  simp only [Passes, build, AccountMeta.new, AccountMeta.newReadonly,
    List.map_cons, List.map_nil, List.map_eq_cons_iff, List.map_eq_nil_iff]
    at passes
  obtain ⟨one, _, rfl, oneIs, two, _, rfl, twoIs, three, _, rfl, threeIs,
    four, _, rfl, fourIs, five, _, rfl, fiveIs, rfl⟩ := passes
  exact ⟨one, two, three, four, five, rfl, oneIs, twoIs, threeIs, fourIs,
    fiveIs⟩

/-- The fee that is read from the data is the one that is charged. -/
theorem epochFee_eq
    (mint : MintSnapshot) (epoch amount : Nat) :
    epochFee epoch mint.transferFee amount =
      match mint.chargedFee epoch amount with
      | some fee => .ok fee
      | none => .error .arithmeticOverflow := by
  unfold epochFee MintSnapshot.chargedFee
  cases mint.transferFee with
  | none => rfl
  | some config => rfl

/-- What a client builds is forwarded, with the fee that is charged in the
epoch. -/
theorem processInstruction_build
    (builds : BuildsForToken2022 programs check)
    {target : AccountMeta} {source mint owner : Address}
    {data : ProbeInstruction} {accounts : List (AccountInfo Data)}
    (passes : Passes (build programs target source mint owner data) accounts)
    {mintInfo : AccountInfo Data} (second : accounts[1]? = some mintInfo)
    {lamports : Nat} {snapshot : MintSnapshot}
    (decoded : MintSnapshot.decode interface mint mintInfo.data lamports =
      .ok snapshot)
    {fee : Nat}
    (charged : ∀ amount, data = .forwardOwnerTransfer amount →
      snapshot.chargedFee epoch amount.toNat = some fee) :
    processInstruction interface check epoch programId accounts data.pack =
      .ok
        { program := programs.token2022
          instruction :=
            data.forwards source mint target.pubkey owner snapshot.decimals fee
          accounts
          signerSeeds := [] } := by
  obtain ⟨payer, info, payee, authority, tokenProgram, rfl, rfl, rfl, isTarget,
    rfl, ofToken2022⟩ := passes_five passes
  cases second
  obtain ⟨state, unpacked, decimals, feeConfig⟩ :=
    MintSnapshot.decode_state decoded
  have built := builds payer.key mintInfo.key target.pubkey authority.key
    snapshot.decimals fee data
  cases data with
  | forwardOwnerTransfer amount =>
      have current : epochFee epoch snapshot.transferFee amount.toNat =
          .ok fee := by
        rw [epochFee_eq, charged amount rfl]
      rw [feeConfig] at current
      rw [decimals, ProbeInstruction.forwards] at built
      simp only [processInstruction, ProbeInstruction.unpack_pack,
        nextAccountInfo, Except.mapError, Bind.bind, Except.bind, unpacked,
        current, ofToken2022, built, pure, Except.pure,
        ProbeInstruction.forwards, decimals, isTarget]
  | forwardApprove amount =>
      rw [decimals, ProbeInstruction.forwards] at built
      simp only [processInstruction, ProbeInstruction.unpack_pack,
        nextAccountInfo, Except.mapError, Bind.bind, Except.bind, unpacked,
        ofToken2022, built, pure, Except.pure, ProbeInstruction.forwards,
        decimals, isTarget]

/-- The fee that the library states is the one that is charged. -/
theorem chargedFee_of_expectedFee
    {mint : MintSnapshot} {amount fee : Nat}
    (expected : expectedFee mint epoch amount = .ok fee) :
    mint.chargedFee epoch amount = some fee := by
  obtain ⟨config, required, computed⟩ := expectedFee_eq_ok expected
  unfold MintSnapshot.chargedFee
  rw [MintSnapshot.requireTransferFee_eq_ok required]
  exact computed

/-- Only packed data gets through the entrypoint of the probe.  What a client
builds is forwarded with the signature of the owner: a transfer with the
decimals and the fee that the library would state for it at that moment, or an
approval as the library would build it. -/
theorem probe_forwards_what_the_library_builds
    (interface : TokenInterface Data) (programs : Programs)
    (check : BuilderCheck) (builds : BuildsForToken2022 programs check)
    (programId source mint target owner : Address) :
    (∀ bytes instruction, ProbeInstruction.unpack bytes = .ok instruction ↔
      bytes = instruction.pack) ∧
    ∀ epoch (amount : UInt64) (accounts : List (AccountInfo Data)) mintInfo
        lamports snapshot,
      accounts[1]? = some mintInfo →
        MintSnapshot.decode interface mint mintInfo.data lamports =
          .ok snapshot →
      (∀ fee, expectedFee snapshot epoch amount.toNat = .ok fee →
        let instruction :=
          forwardOwnerTransfer programs source mint target owner amount
        Passes instruction accounts →
          processInstruction interface check epoch programId accounts
              instruction.data =
            .ok ⟨programs.token2022,
              .transferCheckedWithFee source mint target owner amount.toNat
                snapshot.decimals fee, accounts, []⟩) ∧
      let instruction := forwardApprove programs source mint target owner amount
      Passes instruction accounts →
        processInstruction interface check epoch programId accounts
            instruction.data =
          .ok ⟨programs.token2022,
            .approveChecked source mint target owner amount.toNat
              snapshot.decimals, accounts, []⟩ := by
  refine ⟨fun _ _ => ProbeInstruction.unpack_eq_ok, ?_⟩
  intro epoch amount accounts mintInfo lamports snapshot second decoded
  constructor
  · intro fee expected instruction passes
    refine processInstruction_build builds passes second decoded ?_
    rintro _ ⟨⟩
    exact chargedFee_of_expectedFee expected
  · intro instruction passes
    have noTransfer : ∀ paid, ProbeInstruction.forwardApprove amount =
        .forwardOwnerTransfer paid →
          snapshot.chargedFee epoch paid.toNat = some 0 :=
      fun _ same => by cases same
    exact processInstruction_build builds passes second decoded noTransfer

end Agreement

/-! ## A forwarded transfer -/

namespace Quiet

open Transparent Remit.Quiet

/-- The key that signs for Alice's account. -/
def ownerKey : Address :=
  Address.filled 41

/-- The accounts of Alice's transfer to Bob. -/
def transferAccounts : List (AccountInfo TokenData) :=
  [Agent.Quiet.passed alice programs.token2022 (Layout.writeMint sharedMint),
    Agent.Quiet.passed sharedMint.address programs.token2022
      (Layout.writeMint sharedMint),
    Agent.Quiet.passed bob programs.token2022 (Layout.writeMint sharedMint),
    Agent.Quiet.passed ownerKey programs.system (Layout.writeMint sharedMint),
    Agent.Quiet.passed programs.token2022 programs.system
      (Layout.writeMint sharedMint)]

/-- The mint takes a fee of one, which the probe finds out and states. -/
theorem forwarded_with_its_fee :
    processInstruction Layout.interface (fun _ _ => .ok ()) 0 ID
        transferAccounts
        (forwardOwnerTransfer programs alice sharedMint.address bob ownerKey
          100).data =
      .ok ⟨programs.token2022,
        .transferCheckedWithFee alice sharedMint.address bob ownerKey 100
          sharedMint.decimals 1, transferAccounts, []⟩ := by
  have decoded : MintSnapshot.decode Layout.interface sharedMint.address
      (Layout.writeMint sharedMint) sharedMint.lamports = .ok sharedMint := by
    decide +kernel
  have expected : expectedFee sharedMint 0 100 = .ok 1 := by decide +kernel
  have forwards := (probe_forwards_what_the_library_builds Layout.interface
    programs (fun _ _ => .ok ()) (fun _ _ _ _ _ _ _ => rfl) ID alice
    sharedMint.address bob ownerKey).2
  exact (forwards 0 100 transferAccounts _ _ _ rfl decoded).1 1 expected rfl

end Quiet
end Probe
end Remit
