import Remit.Agent.Mandates

/-!
# The client of the agent

A client derives the mandate address, orders the accounts and packs the data;
the entrypoint derives, takes and unpacks them once more.  The two agree, and
nothing but packed data gets through the entrypoint.
-/

namespace Remit
namespace Agent

open Flows

/-! ## The data of an instruction -/

namespace AgentInstruction

theorem unpack_pack (instruction : AgentInstruction) :
    unpack instruction.pack = .ok instruction := by
  cases instruction with
  | executeMandate amount =>
      have fits : amount.toNat < 256 ^ 8 :=
        Nat.lt_of_lt_of_eq amount.toNat_lt (by decide)
      simp only [pack, unpack, length_leBytes, if_true, leValue_leBytes fits,
        UInt64.ofNat_toNat]

/-- Only what was packed is unpacked. -/
theorem pack_of_unpack
    {bytes : Bytes} {instruction : AgentInstruction}
    (unpacked : unpack bytes = .ok instruction) :
    bytes = instruction.pack := by
  unfold unpack at unpacked
  split at unpacked
  case h_2 => cases unpacked
  case h_1 amount =>
      split at unpacked
      case isFalse => cases unpacked
      case isTrue wide =>
          cases unpacked
          have fits : leValue amount < 2 ^ 64 := by
            have bound := leValue_lt amount
            rw [wide] at bound
            exact Nat.lt_of_lt_of_eq bound (by decide)
          have same := leBytes_leValue amount
          rw [wide] at same
          rw [pack, UInt64.toNat_ofNat_of_lt' fits, same]

theorem unpack_eq_ok {bytes : Bytes} {instruction : AgentInstruction} :
    unpack bytes = .ok instruction ↔ bytes = instruction.pack := by
  constructor
  · exact pack_of_unpack
  · intro packed
    rw [packed]
    exact unpack_pack instruction

theorem unpack_eq_error
    {bytes : Bytes} (unpacked : ∀ instruction, bytes ≠ pack instruction) :
    unpack bytes = .error .invalidInstructionData := by
  rcases outcome : unpack bytes with error | instruction
  · unfold unpack at outcome
    split at outcome
    case h_2 => rw [← outcome]
    case h_1 =>
        split at outcome
        case isTrue => cases outcome
        case isFalse => rw [← outcome]
  · exact absurd (pack_of_unpack outcome) (unpacked instruction)

end AgentInstruction

/-! ## The builder -/

section Building

variable {Data : Type} (hash : AddressHash) (programs : Programs)
  (interface : TokenInterface Data)

/-- Build `ExecuteMandate`.  No signer is needed: the agent signs with the
mandate address.  Deriving it panics where no bump seed works. -/
def executeMandate (source mint destination : Address) (amount : UInt64) :
    Option WireInstruction :=
  (mandateAddress hash source destination amount).map fun (mandate, _) =>
    { programId := ID
      accounts :=
        [.new source false, .newReadonly mint false, .new destination false,
          .newReadonly mandate false, .newReadonly programs.token2022 false]
      data := (AgentInstruction.executeMandate amount).pack }

/-- The current fee of a mint on an amount.  A mint without a fee config takes
none. -/
def mintFee (state : StateWithExtensions Mint) (epoch : Nat)
    (amount : UInt64) : Option Nat :=
  match state.getExtension .transferFeeConfig 108
      interface.transferFeeConfig with
  | .ok config => config.calculateEpochFee epoch amount.toNat
  | .error _ => some 0

/-- What the entrypoint does from the reading of the mint on. -/
def payMandate (epoch : Nat)
    (source mint destination mandate tokenProgram : AccountInfo Data)
    (amount : UInt64) (bump : UInt8) :
    Except (Stop ProgramError) (Invocation Data) := do
  let (decimals, feeConfig) ←
    (readMint programs interface mint).mapError Stop.error
  let fee ← (epochFee epoch feeConfig amount.toNat).mapError Stop.error
  let transfer := TokenInstruction.transferCheckedWithFee source.key mint.key
    destination.key mandate.key amount.toNat decimals fee
  (programs.tokenCheck transfer).mapError Stop.error
  pure
    { program := tokenProgram.key
      instruction := transfer
      accounts := [source, mint, destination, mandate, tokenProgram]
      signerSeeds :=
        [mandateSeeds source.key destination.key amount ++ [[bump]]] }

/-- The runtime passes the accounts of an instruction in their order. -/
def Passes (instruction : WireInstruction)
    (accounts : List (AccountInfo Data)) : Prop :=
  accounts.map (·.key) = instruction.accounts.map (·.pubkey)

/-- The builder of transfers has nothing to check but its token program. -/
def BuildsTransfers : Prop :=
  ∀ source mint destination authority amount decimals fee,
    programs.tokenCheck
      (.transferCheckedWithFee source mint destination authority amount
        decimals fee) = .ok ()

end Building

section Agreement

variable {Data : Type} {hash : AddressHash} {programs : Programs}
  {interface : TokenInterface Data} {epoch : Nat} {amount : UInt64}
  {bump : UInt8}

/-- The processor serves an instruction: it derives the same mandate address,
refuses nothing before it reads the mint, and pays if the mint of Token-2022
decodes and its fee does not overflow. -/
structure Served (hash : AddressHash) (programs : Programs)
    (interface : TokenInterface Data) (epoch : Nat)
    (source mint destination : Address) (amount : UInt64)
    (instruction : WireInstruction) (accounts : List (AccountInfo Data))
    (mandate : Address) (bump : UInt8) : Prop where
  addressed : instruction.programId = ID
  derived :
    mandateAddress hash source destination amount = some (mandate, bump)
  signable :
    createProgramAddress hash
      (mandateSeeds source destination amount ++ [[bump]]) ID = some mandate
  reached : ∃ payer mintInfo payee authority tokenProgram,
    accounts = [payer, mintInfo, payee, authority, tokenProgram] ∧
      processInstruction hash programs interface epoch ID accounts
          instruction.data =
        payMandate programs interface epoch payer mintInfo payee authority
          tokenProgram amount bump
  paid : ∀ mintInfo state fee,
    accounts[1]? = some mintInfo → mintInfo.owner = programs.token2022 →
      interface.unpackMint mintInfo.data = .ok state →
        mintFee interface state epoch amount = some fee →
          processInstruction hash programs interface epoch ID accounts
              instruction.data =
            .ok
              { program := programs.token2022
                instruction :=
                  .transferCheckedWithFee source mint destination mandate
                    amount.toNat state.base.decimals fee
                accounts
                signerSeeds :=
                  [mandateSeeds source destination amount ++ [[bump]]] }

/-- With the accounts in the order of the client and the mandate address of
the data, nothing is refused before the mint is read. -/
theorem processInstruction_eq_payMandate
    {source mint destination mandate tokenProgram : AccountInfo Data}
    {programId : Address}
    (ofToken2022 : tokenProgram.key = programs.token2022)
    (derived :
      findProgramAddress hash (mandateSeeds source.key destination.key amount)
        programId = some (mandate.key, bump)) :
    processInstruction hash programs interface epoch programId
        [source, mint, destination, mandate, tokenProgram]
        (AgentInstruction.executeMandate amount).pack =
      payMandate programs interface epoch source mint destination mandate
        tokenProgram amount bump := by
  simp only [processInstruction, AgentInstruction.unpack_pack,
    nextAccountInfo, Except.mapError, Bind.bind, Except.bind, derived,
    ofToken2022, ne_eq, not_true_eq_false, if_false, payMandate]

/-- The fee of the entrypoint is that of the mint. -/
theorem epochFee_eq_ok
    {state : StateWithExtensions Mint} {fee : Nat}
    (charged : mintFee interface state epoch amount = some fee) :
    epochFee epoch
      (state.getExtension .transferFeeConfig 108
        interface.transferFeeConfig).toOption amount.toNat = .ok fee := by
  unfold mintFee at charged
  split at charged
  case h_1 config found =>
      simp only [found, Except.toOption, epochFee, charged]
  case h_2 error missing =>
      cases charged
      simp only [missing, Except.toOption, epochFee]

/-- A mint of Token-2022 that decodes and takes a fee is paid in. -/
theorem payMandate_eq_ok
    {source mint destination mandate tokenProgram : AccountInfo Data}
    {state : StateWithExtensions Mint} {fee : Nat}
    (builds : BuildsTransfers programs)
    (owned : mint.owner = programs.token2022)
    (unpacked : interface.unpackMint mint.data = .ok state)
    (charged : mintFee interface state epoch amount = some fee) :
    payMandate programs interface epoch source mint destination mandate
        tokenProgram amount bump =
      .ok
        { program := tokenProgram.key
          instruction :=
            .transferCheckedWithFee source.key mint.key destination.key
              mandate.key amount.toNat state.base.decimals fee
          accounts := [source, mint, destination, mandate, tokenProgram]
          signerSeeds :=
            [mandateSeeds source.key destination.key amount ++ [[bump]]] } := by
  have read :
      readMint programs interface mint =
        .ok (state.base.decimals,
          (state.getExtension .transferFeeConfig 108
            interface.transferFeeConfig).toOption) := by
    simp only [readMint, owned, ne_eq, not_true_eq_false, if_false, unpacked]
    rfl
  have built :=
    builds source.key mint.key destination.key mandate.key amount.toNat
      state.base.decimals fee
  simp only [payMandate, read, Except.mapError, Bind.bind, Except.bind,
    epochFee_eq_ok charged, built, pure, Except.pure]

/-- Five accounts are passed for five. -/
theorem Passes.five
    {programId first second third fourth fifth : Address} {data : Bytes}
    {accounts : List (AccountInfo Data)}
    (passes : Passes
      ⟨programId,
        [.new first false, .newReadonly second false, .new third false,
          .newReadonly fourth false, .newReadonly fifth false], data⟩
      accounts) :
    ∃ one two three four five, accounts = [one, two, three, four, five] ∧
      one.key = first ∧ two.key = second ∧ three.key = third ∧
      four.key = fourth ∧ five.key = fifth := by
  simp only [Passes, AccountMeta.new, AccountMeta.newReadonly, List.map_cons,
    List.map_nil, List.map_eq_cons_iff, List.map_eq_nil_iff] at passes
  obtain ⟨one, _, rfl, oneIs, two, _, rfl, twoIs, three, _, rfl, threeIs,
    four, _, rfl, fourIs, five, _, rfl, fiveIs, rfl⟩ := passes
  exact ⟨one, two, three, four, five, rfl, oneIs, twoIs, threeIs, fourIs,
    fiveIs⟩

/-- The processor serves what a client builds. -/
theorem executeMandate_served
    {source mint destination : Address} {instruction : WireInstruction}
    {accounts : List (AccountInfo Data)}
    (builds : BuildsTransfers programs)
    (built :
      executeMandate hash programs source mint destination amount =
        some instruction)
    (passes : Passes instruction accounts) :
    ∃ mandate bump,
      Served hash programs interface epoch source mint destination amount
        instruction accounts mandate bump := by
  obtain ⟨⟨mandate, bump⟩, derived, rfl⟩ := Option.map_eq_some_iff.mp built
  obtain ⟨payer, mintInfo, payee, authority, tokenProgram, rfl, rfl, rfl, rfl,
    rfl, ofToken2022⟩ := passes.five
  have reached :
      processInstruction hash programs interface epoch ID
          [payer, mintInfo, payee, authority, tokenProgram]
          (AgentInstruction.executeMandate amount).pack =
        payMandate programs interface epoch payer mintInfo payee authority
          tokenProgram amount bump :=
    processInstruction_eq_payMandate ofToken2022 derived
  refine ⟨authority.key, bump, rfl, derived,
    findProgramAddress_eq_some derived,
    ⟨payer, mintInfo, payee, authority, tokenProgram, rfl, reached⟩, ?_⟩
  intro first state fee found owned unpacked charged
  cases found
  rw [reached, payMandate_eq_ok builds owned unpacked charged, ofToken2022]

/-- The client and the processor of the agent agree, and the data of an
instruction that gets through was packed. -/
theorem client_agrees_with_processor
    (hash : AddressHash) (programs : Programs)
    (interface : TokenInterface Data) (builds : BuildsTransfers programs) :
    (∀ epoch source mint destination amount instruction
        (accounts : List (AccountInfo Data)),
      executeMandate hash programs source mint destination amount =
          some instruction →
        Passes instruction accounts →
          ∃ mandate bump,
            Served hash programs interface epoch source mint destination
              amount instruction accounts mandate bump) ∧
      (∀ bytes amount,
        AgentInstruction.unpack bytes = .ok (.executeMandate amount) ↔
          bytes = (AgentInstruction.executeMandate amount).pack) ∧
      ∀ epoch programId (accounts : List (AccountInfo Data)) bytes,
        (∀ instruction, bytes ≠ AgentInstruction.pack instruction) →
          processInstruction hash programs interface epoch programId accounts
              bytes =
            .error (.error .invalidInstructionData) := by
  refine ⟨?_, ?_, ?_⟩
  · intro epoch source mint destination amount instruction accounts built
      passes
    exact executeMandate_served builds built passes
  · intro bytes amount
    exact AgentInstruction.unpack_eq_ok
  · intro epoch programId accounts bytes unpacked
    rw [processInstruction, AgentInstruction.unpack_eq_error unpacked]
    rfl

end Agreement

/-! ## A built instruction -/

namespace Quiet

open Transparent Remit.Quiet

/-- What a client builds for Alice's payment of 100 to Bob. -/
def builtInstruction : WireInstruction where
  programId := ID
  accounts :=
    [⟨alice, false, true⟩, ⟨sharedMint.address, false, false⟩,
      ⟨bob, false, true⟩, ⟨mandate, false, false⟩,
      ⟨programs.token2022, false, false⟩]
  data := keeperCall.instructionData

/-- The mint takes a fee of one, which the processor reads and pays. -/
theorem builtInstruction_is_paid :
    executeMandate mandateHash programs alice sharedMint.address bob 100 =
        some builtInstruction ∧
      processInstruction mandateHash programs Layout.interface 0 ID
          keeperCall.accounts builtInstruction.data =
        .ok
          { program := programs.token2022
            instruction :=
              .transferCheckedWithFee alice sharedMint.address bob mandate 100
                2 1
            accounts := keeperCall.accounts
            signerSeeds := [mandateSeeds alice bob 100 ++ [[255]]] } := by
  have built :
      executeMandate mandateHash programs alice sharedMint.address bob 100 =
        some builtInstruction := by
    decide +kernel
  have derived :
      mandateAddress mandateHash alice bob 100 = some (mandate, 255) := by
    decide +kernel
  have agrees :=
    (client_agrees_with_processor mandateHash programs Layout.interface
      fun _ _ _ _ _ _ _ => rfl).1
  obtain ⟨address, bump, served⟩ :=
    agrees 0 alice sharedMint.address bob 100 builtInstruction
      keeperCall.accounts built rfl
  have found := derived.symm.trans served.derived
  cases found
  refine ⟨built, ?_⟩
  have charged :
      mintFee Layout.interface
        (⟨⟨sharedMint.mintAuthority, sharedMint.supply, sharedMint.decimals,
            sharedMint.freezeAuthority⟩,
          sharedMint.extensions.map fun type =>
            ⟨type, Layout.mintExtension sharedMint type⟩, none⟩) 0 100 =
        some 1 := by
    decide +kernel
  exact served.paid _ _ _ rfl rfl rfl charged

end Quiet
end Agent
end Remit
