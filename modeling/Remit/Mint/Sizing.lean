import Remit.Cluster.Issuing
import Remit.Custody.Sending
import Remit.Kyc.Calls
import Remit.Token.Metadata

/-!
# What a mint plan pays for

A plan funds the mint for the length of the planned metadata, and the chain
builds the metadata from one update after another.  They agree exactly when no
key is updated twice.
-/

namespace Remit

open Flows KeyedLists

variable {C : Cluster}

/-! ## What Token-2022 promises about a mint that is created -/

/-- Whether an instruction is one of those that `describe` describes. -/
def TokenInstruction.isMetadata : TokenInstruction → Bool
  | initializeMetadata .. | updateField .. => true
  | _ => false

/-- The sizes that the interface crate and the cluster calculate, and what
Token-2022 does with the two transactions that create a mint. -/
structure MintContract (C : Cluster) : Prop where
  packedLen : ∀ metadata,
    C.interface.getPackedLen metadata = .ok metadata.pack.length
  rent : ∀ state later space,
    C.minimumBalanceForRentExemption later space =
      C.minimumBalanceForRentExemption state space
  creates : ∀ state (planned : PlannedMint) payer signers receipt,
    let transaction := planned.transaction C.programs payer
    (C.send state transaction signers).outcome = .ok receipt →
      ∃ created,
        (C.tokenChain (C.send state transaction signers).after).mints
            planned.mint = some created ∧
          created.metadata = none ∧ created.dataLen = planned.space ∧
          created.lamports = planned.lamports
  describes : ∀ state instructions signers receipt,
    instructions.all TokenInstruction.isMetadata = true →
    (C.send state (instructions.map .token) signers).outcome = .ok receipt →
      (C.tokenChain
          (C.send state (instructions.map .token) signers).before).describeAll
          (C.payer :: signers.map (·.pubkey)) instructions =
        some (C.tokenChain
          (C.send state (instructions.map .token) signers).after)

/-! ## Plans -/

/-- A mint is as it was planned: its metadata is the planned one, it is as long
as was planned, and it holds what that length requires and no more. -/
def MintPlan.Fulfilled (plan : MintPlan) (metadata : TokenMetadata)
    (rent : Nat → Nat) (chain : TokenChain) : Prop :=
  ∃ mint, chain.mints plan.mint = some mint ∧
    mint.metadata = some metadata ∧
    mint.dataLen = plan.space + plan.metadataLen ∧
    mint.lamports = rent mint.dataLen

/-- What a plan says about the mint that it creates. -/
structure Plans (C : Cluster) (authorities : Authorities)
    (params : StablecoinParams) (configs : List ExtensionConfig)
    (state : C.State) (plan : MintPlan) (metadata : TokenMetadata) :
    Prop where
  initializes : plan.initializeInstructions =
    (plannedMint plan.mint authorities params plan.lamports plan.space
      configs).transaction C.programs C.payer
  describes : plan.metadata =
    metadataInstructions plan.mint authorities params
  planned : metadata =
    { updateAuthority := some authorities.metadata.pubkey
      mint := plan.mint
      name := params.name
      symbol := params.symbol
      uri := params.uri
      additionalMetadata := params.additionalMetadata }
  metadataLen : plan.metadataLen = metadata.tlvLen
  lamports : plan.lamports =
    C.minimumBalanceForRentExemption state (plan.space + plan.metadataLen)

theorem StablecoinParams.tokenMetadata_eq_ok
    {params : StablecoinParams} {mint updateAuthority : Address}
    {metadata : TokenMetadata}
    (planned : params.tokenMetadata mint updateAuthority = .ok metadata) :
    metadata =
      { updateAuthority := some updateAuthority
        mint
        name := params.name
        symbol := params.symbol
        uri := params.uri
        additionalMetadata := params.additionalMetadata } := by
  unfold StablecoinParams.tokenMetadata at planned
  split at planned
  case isTrue => cases planned
  case isFalse => exact (Except.ok.inj planned).symm

/-- The inits of the extensions that are configured. -/
theorem extensionInits_eq_ok
    {programs : Programs} {mint : Address} {configs : List ExtensionConfig}
    {inits : List ExtensionInit}
    (built : configs.mapM (extensionInit programs mint) = .ok inits) :
    inits = initsOf mint configs := by
  induction configs generalizing inits with
  | nil => exact (Except.ok.inj built).symm
  | cons config rest inductionHypothesis =>
      rw [List.mapM_cons] at built
      obtain ⟨first, firstBuilt, built⟩ := except_bind_eq_ok built
      obtain ⟨others, othersBuilt, built⟩ := except_bind_eq_ok built
      obtain ⟨instruction, tokenBuilt, firstBuilt⟩ :=
        except_bind_eq_ok firstBuilt
      obtain rfl := tokenInstruction_eq_ok tokenBuilt
      obtain rfl := inductionHypothesis othersBuilt
      cases firstBuilt
      exact (Except.ok.inj built).symm

theorem ensures_planFromInits
    (contract : MintContract C) (mint : Address) (authorities : Authorities)
    (params : StablecoinParams) (configs : List ExtensionConfig)
    (world : World C) :
    Flow.Ensures
      (planFromInits mint authorities params (initsOf mint configs)) world
      fun outcome _ => ∀ plan, outcome = .ok plan →
        ∃ metadata,
          params.tokenMetadata plan.mint authorities.metadata.pubkey =
              .ok metadata ∧
            plan.mint = mint ∧
            Plans C authorities params configs world.state plan metadata := by
  unfold planFromInits
  refine .bind (.ofExcept (fun space _ => ?_)
    fun _ _ _ impossible => by cases impossible)
  refine .bind (.ofExcept (fun metadata described => ?_)
    fun _ _ _ impossible => by cases impossible)
  refine .bind (.ofExcept (fun metadataLen measured => ?_)
    fun _ _ _ impossible => by cases impossible)
  refine .bind (.read ?_)
  refine .bind (.ofExcept (fun initializeMint built => .pure ?_)
    fun _ _ _ impossible => by cases impossible)
  obtain rfl := tokenInstruction_eq_ok built
  rintro plan ⟨⟩
  have length : metadataLen = metadata.tlvLen := by
    unfold metadataTlvLen at measured
    rw [contract.packedLen] at measured
    exact (Except.ok.inj measured).symm
  refine ⟨metadata, described, rfl, ?_, rfl,
    StablecoinParams.tokenMetadata_eq_ok described, length, rfl⟩
  simp [PlannedMint.transaction, PlannedMint.inits, plannedMint, initsOf]

/-! ## Creating what was planned -/

/-- A mint is as long as it was and holds what it held. -/
def SameFooting (address : Address) (before after : TokenChain) : Prop :=
  ∃ left found,
    before.mints address = some left ∧ after.mints address = some found ∧
      found.dataLen = left.dataLen ∧ found.lamports = left.lamports

/-- A plan is fulfilled exactly when its keys are distinct and nobody has
disturbed the mint between the two transactions. -/
theorem Plans.fulfilled_iff
    {authorities : Authorities} {params : StablecoinParams}
    {configs : List ExtensionConfig} {state : C.State} {plan : MintPlan}
    {metadata : TokenMetadata} {first before after : TokenChain}
    {created plain stored : MintSnapshot}
    (plans : Plans C authorities params configs state plan metadata)
    (createdThere : first.mints plan.mint = some created)
    (space : created.dataLen = plan.space)
    (funds : created.lamports = plan.lamports)
    (plainThere : before.mints plan.mint = some plain)
    (describes : after.Describes plan.mint plain
      { metadata with
        additionalMetadata := upsertAll [] params.additionalMetadata }
      stored) :
    plan.Fulfilled metadata (C.minimumBalanceForRentExemption state) after ↔
      DistinctKeys params.additionalMetadata ∧
        SameFooting plan.mint first before := by
  have pairs : metadata.additionalMetadata = params.additionalMetadata := by
    rw [plans.planned]
  constructor
  · rintro ⟨mint, found, described, length, paid⟩
    obtain rfl := Option.some.inj (describes.found.symm.trans found)
    have same := Option.some.inj (describes.metadata.symm.trans described)
    have distinct : DistinctKeys params.additionalMetadata := by
      have stays := congrArg TokenMetadata.additionalMetadata same
      exact upsertAll_nil_eq_self_iff.mp (stays.trans pairs)
    have grown := describes.dataLen
    rw [same, length, plans.metadataLen] at grown
    refine ⟨distinct, created, plain, createdThere, plainThere, by omega, ?_⟩
    rw [← describes.lamports, paid, length, funds, plans.lamports]
  · rintro ⟨distinct, left, found, leftThere, foundThere, sameLength,
      sameFunds⟩
    obtain rfl := Option.some.inj (createdThere.symm.trans leftThere)
    obtain rfl := Option.some.inj (plainThere.symm.trans foundThere)
    have same : { metadata with
        additionalMetadata := upsertAll [] params.additionalMetadata } =
        metadata := by
      rw [upsertAll_nil_eq_self_iff.mpr distinct, ← pairs]
    rw [same] at describes
    have length : stored.dataLen = plan.space + plan.metadataLen := by
      rw [describes.dataLen, sameLength, space, plans.metadataLen]
    refine ⟨stored, describes.found, describes.metadata, length, ?_⟩
    rw [describes.lamports, sameFunds, funds, plans.lamports, length]

/-- The metadata transaction of a plan, without its wrapping. -/
theorem metadataInstructions_eq (mint : Address) (authorities : Authorities)
    (params : StablecoinParams) :
    metadataInstructions mint authorities params =
      (.initializeMetadata mint authorities.metadata.pubkey mint
          authorities.mint.pubkey params.name params.symbol params.uri ::
        params.additionalMetadata.map fun pair =>
          .updateField mint authorities.metadata.pubkey pair.1 pair.2).map
        Instruction.token := by
  simp [metadataInstructions, Function.comp_def]

/-- Wherever, whenever and with whatever keys a plan is executed, when both
transactions land it is fulfilled exactly if its keys are distinct and nobody
has disturbed the mint in between. -/
def CreatedAsPlanned (C : Cluster) (params : StablecoinParams)
    (plan : MintPlan) (metadata : TokenMetadata) : Prop :=
  ∀ (mint : Keypair) (authorities : Authorities) (world : World C),
    Flow.Ensures (createMint plan mint authorities) world
      fun _ reached => ∀ one two,
        reached.sent = world.sent ++ [one, two] →
        one.landed = true → two.landed = true →
          (plan.Fulfilled metadata
              (C.minimumBalanceForRentExemption two.delivery.after)
              (C.tokenChain two.delivery.after) ↔
            DistinctKeys params.additionalMetadata ∧
              SameFooting plan.mint (C.tokenChain one.delivery.after)
                (C.tokenChain two.delivery.before))

/-- The mint after the first transaction of a plan. -/
theorem Plans.created
    {authorities : Authorities} {params : StablecoinParams}
    {configs : List ExtensionConfig} {state before : C.State}
    {plan : MintPlan} {metadata : TokenMetadata} {signers : List Keypair}
    {receipt : Receipt}
    (plans : Plans C authorities params configs state plan metadata)
    (contract : MintContract C)
    (landed :
      (C.send before plan.initializeInstructions signers).outcome =
        .ok receipt) :
    ∃ created,
      (C.tokenChain
          (C.send before plan.initializeInstructions signers).after).mints
          plan.mint = some created ∧
        created.dataLen = plan.space ∧ created.lamports = plan.lamports := by
  rw [plans.initializes] at landed ⊢
  obtain ⟨created, there, _, space, funds⟩ :=
    contract.creates _ _ _ _ _ landed
  exact ⟨created, there, space, funds⟩

/-- The mint before and after the second transaction of a plan. -/
theorem Plans.described
    {authorities : Authorities} {params : StablecoinParams}
    {configs : List ExtensionConfig} {state before : C.State}
    {plan : MintPlan} {metadata : TokenMetadata} {signers : List Keypair}
    {receipt : Receipt}
    (plans : Plans C authorities params configs state plan metadata)
    (contract : MintContract C)
    (landed :
      (C.send before plan.metadata signers).outcome = .ok receipt) :
    ∃ plain stored,
      (C.tokenChain (C.send before plan.metadata signers).before).mints
          plan.mint = some plain ∧
        (C.tokenChain
          (C.send before plan.metadata signers).after).Describes plan.mint
          plain
          { metadata with
            additionalMetadata := upsertAll [] params.additionalMetadata }
          stored := by
  rw [plans.describes, metadataInstructions_eq] at landed ⊢
  rw [plans.planned]
  refine TokenChain.describeAll_eq_some
    (contract.describes _ _ _ _ ?_ landed)
  simp [TokenInstruction.isMetadata]

theorem two_sent
    {sent : List (Sent C.State)} {first second one two : Sent C.State}
    (same : sent ++ [first] ++ [second] = sent ++ [one, two]) :
    first = one ∧ second = two := by
  rw [List.append_assoc] at same
  have pairs := List.cons.inj (List.append_cancel_left same)
  exact ⟨pairs.1, (List.cons.inj pairs.2).1⟩

theorem Plans.createdAsPlanned
    {authorities : Authorities} {params : StablecoinParams}
    {configs : List ExtensionConfig} {state : C.State} {plan : MintPlan}
    {metadata : TokenMetadata}
    (contract : MintContract C)
    (plans : Plans C authorities params configs state plan metadata) :
    CreatedAsPlanned C params plan metadata := by
  intro mint signing world
  unfold createMint
  refine .bind (World.ensures_send (fun receipt landed => ?_)
    fun error failed => ?_)
  · refine .bind (World.ensures_send (fun receiptToo landedToo => .pure ?_)
      fun error failed => ?_)
    · intro one two sent _ _
      obtain ⟨rfl, rfl⟩ := two_sent sent
      obtain ⟨created, createdThere, space, funds⟩ :=
        plans.created contract landed
      obtain ⟨plain, stored, plainThere, describes⟩ :=
        plans.described contract landedToo
      rw [funext (contract.rent state _)]
      exact plans.fulfilled_iff createdThere space funds plainThere describes
    · intro one two sent _ hasLanded
      obtain ⟨rfl, rfl⟩ := two_sent sent
      rw [World.not_landed_sending failed] at hasLanded
      cases hasLanded
  · intro one two sent _ _
    have lengths := congrArg List.length (List.append_cancel_left sent)
    cases lengths

/-- For every parameter, both plans fund and size the mint exactly when no key
occurs twice in the additional metadata and nobody disturbs the mint between
the two transactions. -/
theorem mint_sized_exactly_iff
    (contract : MintContract C) (mint : Address) (authorities : Authorities)
    (params : StablecoinParams) (world : World C) :
    Flow.Ensures (planV1 mint authorities params) world
        (fun outcome _ => ∀ plan, outcome = .ok plan →
          ∃ metadata,
            params.tokenMetadata plan.mint authorities.metadata.pubkey =
                .ok metadata ∧
              plan.mint = mint ∧ CreatedAsPlanned C params plan metadata) ∧
      ∀ compliance,
        Flow.Ensures (planV2 mint authorities compliance params) world
          fun outcome _ => ∀ plan, outcome = .ok plan →
            ∃ metadata,
              params.tokenMetadata plan.mint authorities.metadata.pubkey =
                  .ok metadata ∧
                plan.mint = mint ∧
                CreatedAsPlanned C params plan metadata := by
  have planned (configs : List ExtensionConfig) :
      Flow.Ensures
        (planFromInits mint authorities params (initsOf mint configs)) world
        fun outcome _ => ∀ plan, outcome = .ok plan →
          ∃ metadata,
            params.tokenMetadata plan.mint authorities.metadata.pubkey =
                .ok metadata ∧
              plan.mint = mint ∧ CreatedAsPlanned C params plan metadata := by
    refine (ensures_planFromInits contract mint authorities params configs
      world).mono fun outcome _ planned plan ended => ?_
    obtain ⟨metadata, described, there, plans⟩ := planned plan ended
    exact ⟨metadata, described, there, plans.createdAsPlanned contract⟩
  constructor
  · refine .bind (.ofExcept (fun inits built => ?_)
      fun _ _ _ impossible => by cases impossible)
    rw [extensionInits_eq_ok built]
    exact planned _
  · intro compliance
    refine .bind (.ofExcept (fun inits built => ?_)
      fun _ _ _ impossible => by cases impossible)
    refine .bind (.ofExcept (fun added builtToo => ?_)
      fun _ _ _ impossible => by cases impossible)
    obtain rfl := extensionInits_eq_ok built
    obtain rfl := extensionInits_eq_ok builtToo
    dsimp only
    rw [initsOf, initsOf, ← List.map_append]
    exact planned _

/-! ## A key that occurs twice -/

namespace Issuing

theorem mintContract : MintContract cluster where
  packedLen _ := rfl
  rent _ _ _ := rfl
  creates := by
    intro (state : State) planned payer signers receipt transaction landed
    obtain ⟨_, carried, done, same⟩ := process_eq_some (send_attempts.ok landed)
    change ∃ created,
      (send state transaction signers).after.chain.mints planned.mint =
          some created ∧ _
    rw [same]
    exact State.create_eq_some done
  describes := by
    intro (state : State) instructions signers receipt _ landed
    obtain ⟨_, carried, done, same⟩ := process_eq_some (send_attempts.ok landed)
    rw [carryOut_map] at done
    change (send state (instructions.map .token)
        signers).before.chain.describeAll _ _ =
      some (send state (instructions.map .token) signers).after.chain
    rw [send_attempts.before, same]
    exact State.describe_eq_some done

def issuers : Authorities where
  mint := Quiet.keypair 1000
  freeze := Quiet.keypair 1001
  feeConfig := Quiet.keypair 1002
  feeWithdraw := Quiet.keypair 1003
  close := Quiet.keypair 1004
  metadata := Quiet.keypair 1005

def mintKey : Keypair :=
  Quiet.keypair 1006

/-- A cluster without accounts. -/
def blank : World cluster :=
  World.initial (⟨fun _ => none, fun _ => none, fun _ => 0⟩ : State) 0

/-- The default parameters, with other additional metadata. -/
def issuing (additionalMetadata : List (String × String)) :
    Except (Flows.Stop Error) MintPlan × World cluster :=
  Flow.exec (createV1 mintKey issuers { additionalMetadata }) blank

/-- What was planned: the length and the lamports. -/
def planned (ended : Except (Flows.Stop Error) MintPlan × World cluster) :
    Option (Nat × Nat) :=
  ended.1.toOption.map fun plan =>
    (plan.space + plan.metadataLen, plan.lamports)

/-- What there is: the additional metadata, the length and the lamports. -/
def stored (ended : Except (Flows.Stop Error) MintPlan × World cluster) :
    Option (Option (List (String × String)) × Nat × Nat) :=
  (ended.2.state.chain.mints mintKey.pubkey).map fun mint =>
    (mint.metadata.map (·.additionalMetadata), mint.dataLen, mint.lamports)

/-- An issuer that is given twice. -/
def twoIssuers : List (String × String) :=
  [("issuer", "Remit"), ("kyc", "required"), ("issuer", "Remit Labs")]

/-- A mint that is not as long as was planned is not as it was planned. -/
theorem not_fulfilled
    {additionalMetadata : List (String × String)}
    (shorter : (planned (issuing additionalMetadata)).map Prod.fst ≠
      (stored (issuing additionalMetadata)).map (·.2.1))
    (there : (issuing additionalMetadata).1.toOption.map (·.mint) =
      some mintKey.pubkey) :
    ∃ plan, (issuing additionalMetadata).1 = .ok plan ∧
      ∀ metadata rent,
        ¬ plan.Fulfilled metadata rent
          (issuing additionalMetadata).2.state.chain := by
  unfold planned stored at shorter
  cases ended : (issuing additionalMetadata).1 with
  | error stop =>
      rw [ended] at there
      cases there
  | ok plan =>
      rw [ended] at shorter there
      have same : plan.mint = mintKey.pubkey := Option.some.inj there
      refine ⟨plan, rfl, ?_⟩
      rintro metadata rent ⟨mint, found, _, length, _⟩
      rw [same] at found
      apply shorter
      rw [found]
      exact congrArg some length.symm

/-- The first value of the issuer was replaced, and the mint holds rent for 19
bytes that it does not have. -/
theorem mint_oversized :
    let ended := issuing twoIssuers
    MintContract cluster ∧
      ended.2.sent.map Sent.landed = [true, true] ∧
      planned ended = some (584, (128 + 584) * 6960) ∧
      stored ended =
        some (some [("issuer", "Remit Labs"), ("kyc", "required")], 565,
          (128 + 584) * 6960) ∧
      ∃ plan, ended.1 = .ok plan ∧
        ∀ metadata rent,
          ¬ plan.Fulfilled metadata rent ended.2.state.chain :=
  ⟨mintContract, by decide +kernel, by decide +kernel, by decide +kernel,
    not_fulfilled (by decide +kernel) (by decide +kernel)⟩

/-- With distinct keys everything is as planned. -/
theorem mint_sized_exactly :
    let params : StablecoinParams :=
      { additionalMetadata := [("issuer", "Remit"), ("kyc", "required")] }
    let ended := issuing params.additionalMetadata
    planned ended = some (560, (128 + 560) * 6960) ∧
      stored ended =
        some (some params.additionalMetadata, 560, (128 + 560) * 6960) ∧
      Flow.Ensures (planV1 mintKey.pubkey issuers params) blank
        (fun outcome _ => ∀ plan, outcome = .ok plan →
          ∃ metadata,
            params.tokenMetadata plan.mint issuers.metadata.pubkey =
                .ok metadata ∧
              plan.mint = mintKey.pubkey ∧
                CreatedAsPlanned cluster params plan metadata) :=
  ⟨by decide +kernel, by decide +kernel,
    (mint_sized_exactly_iff mintContract mintKey.pubkey issuers _ blank).1⟩

end Issuing
end Remit
