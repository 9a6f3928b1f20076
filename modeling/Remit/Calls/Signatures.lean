import Remit.Calls.Signing
import Remit.Cluster.Coining
import Remit.Crypto.Transparent
import Remit.Mint.Sizing

/-!
# The signatures of every call

Whatever a call reads and whatever becomes of its transactions, it passes the
keys that each of them asks for and no other.  There is one exception: the
metadata of a mint without additional fields is described by a single
instruction, of which the update authority does not sign.
-/

namespace Remit

open Flows Flow

section Building

variable {C : Cluster} {keys : List Keypair}
  {carries : List TokenInstruction → Prop}

/-- One instruction of Token-2022, of which one authority signs. -/
theorem SignedWith.token
    {instruction : TokenInstruction} {authority : Keypair}
    (asks : instruction.signers = [authority.pubkey])
    (other : instruction.Undescribing) (among : authority ∈ keys)
    (carried : carries [instruction]) :
    SignedWith C keys carries [.token instruction] [authority] :=
  .tokens instruction [] (fun key => by simp [asks]) other
    (fun signer member => List.mem_singleton.mp member ▸ among) carried

/-- One instruction is built and sent. -/
theorem submits_built
    {α : Type} {done : α → Prop} {outcome : Except Error Instruction}
    {authority : Keypair} {next : Receipt → Flow (World C) Error α}
    (builds : ∀ built, outcome = .ok built →
      SignedWith C keys carries [built] [authority])
    (onward : ∀ receipt,
      Within (World.Submits (SignedWith C keys carries)) done (next receipt)) :
    Within (World.Submits (SignedWith C keys carries)) done
      (Flow.ofExcept outcome >>= fun built =>
        World.send [built] [authority] >>= next) :=
  .bind (.ofExcept builds) fun _ signed =>
    .bind (submits_send signed) fun receipt _ => onward receipt

/-- One instruction of Token-2022 is built and sent. -/
theorem submits_token
    {α : Type} {done : α → Prop} {instruction : TokenInstruction}
    {authority : Keypair} {next : Receipt → Flow (World C) Error α}
    (asks : instruction.signers = [authority.pubkey])
    (other : instruction.Undescribing) (among : authority ∈ keys)
    (carried : carries [instruction])
    (onward : ∀ receipt,
      Within (World.Submits (SignedWith C keys carries)) done (next receipt)) :
    Within (World.Submits (SignedWith C keys carries)) done
      (Flow.ofExcept (tokenInstruction C.programs instruction) >>= fun built =>
        World.send [built] [authority] >>= next) :=
  submits_built (fun _ built => tokenInstruction_eq_ok built ▸
    .token asks other among carried) onward

/-- The metadata transaction has exactly the signers that it asks for, unless
it is overdone. -/
theorem signedExactly_metadata
    (mint : Address) (authorities : Authorities) (params : StablecoinParams) :
    SignedExactly C.payer (metadataInstructions mint authorities params)
        [authorities.mint, authorities.metadata] ↔
      ¬ Overdone C.payer (metadataInstructions mint authorities params) := by
  cases fields : params.additionalMetadata with
  | nil =>
      have lone : metadataInstructions mint authorities params =
          [.token (.initializeMetadata mint authorities.metadata.pubkey mint
            authorities.mint.pubkey params.name params.symbol params.uri)] := by
        simp [metadataInstructions, fields]
      rw [lone]
      constructor
      · intro exactly overdone
        have asked := (exactly authorities.metadata.pubkey).mp (by simp)
        rcases List.mem_cons.mp asked with isPayer | isMint
        · exact overdone.1 isPayer
        · exact overdone.2 (List.mem_singleton.mp isMint)
      · intro usual key
        have given : authorities.metadata.pubkey = C.payer ∨
            authorities.metadata.pubkey = authorities.mint.pubkey := by
          by_contra neither
          exact usual (not_or.mp neither)
        simp only [List.map_cons, List.map_nil, List.mem_cons,
          List.not_mem_nil, or_false, List.flatMap_cons, List.flatMap_nil,
          List.append_nil, Instruction.signers, TokenInstruction.signers]
        constructor
        · rintro (isPayer | isMint | isMetadata)
          · exact .inl isPayer
          · exact .inr isMint
          · rcases given with samePayer | sameMint
            · exact .inl (isMetadata.trans samePayer)
            · exact .inr (isMetadata.trans sameMint)
        · rintro (isPayer | isMint)
          · exact .inl isPayer
          · exact .inr (.inl isMint)
  | cons field rest =>
      have several : ∃ others, metadataInstructions mint authorities params =
          .token (.initializeMetadata mint authorities.metadata.pubkey mint
            authorities.mint.pubkey params.name params.symbol params.uri) ::
          .token (.updateField mint authorities.metadata.pubkey field.1
            field.2) :: others := by
        simp [metadataInstructions, fields]
      obtain ⟨others, shape⟩ := several
      have updates : ∀ instruction ∈
          metadataInstructions mint authorities params,
          ∀ key ∈ instruction.signers, key = authorities.mint.pubkey ∨
            key = authorities.metadata.pubkey := by
        intro instruction member key signs
        rcases List.mem_cons.mp member with rfl | member
        · exact .inl (List.mem_singleton.mp signs)
        · obtain ⟨_, _, rfl⟩ := List.mem_map.mp member
          exact .inr (List.mem_singleton.mp signs)
      refine iff_of_true (fun key => ?_) ?_
      · rw [List.mem_cons, List.mem_cons]
        apply or_congr_right
        constructor
        · intro member
          rw [shape]
          rcases List.mem_cons.mp member with isMint | rest
          · rw [isMint]
            simp [Instruction.signers, TokenInstruction.signers]
          · rw [List.mem_singleton.mp rest]
            simp [Instruction.signers, TokenInstruction.signers]
        · intro asked
          obtain ⟨instruction, inside, signs⟩ := List.mem_flatMap.mp asked
          rcases updates instruction inside key signs with isMint | isMetadata
          · simp [isMint]
          · simp [isMetadata]
      · rw [shape]
        exact id

/-- The description of a mint. -/
def metadataTokens (mint : Address) (authorities : Authorities)
    (params : StablecoinParams) : List TokenInstruction :=
  .initializeMetadata mint authorities.metadata.pubkey mint
      authorities.mint.pubkey params.name params.symbol params.uri ::
    params.additionalMetadata.map fun field =>
      .updateField mint authorities.metadata.pubkey field.1 field.2

theorem tokenInstructions_metadata
    (mint : Address) (authorities : Authorities) (params : StablecoinParams) :
    tokenInstructions (metadataInstructions mint authorities params) =
      metadataTokens mint authorities params := by
  have same : metadataInstructions mint authorities params =
      (metadataTokens mint authorities params).map .token := by
    simp [metadataInstructions, metadataTokens]
  rw [same, tokenInstructions_map]

/-- The initialization of a mint. -/
theorem tokenInstructions_planned (plan : PlannedMint) (payer : Address)
    (programs : Programs) :
    tokenInstructions (plan.transaction programs payer) =
      plan.configs.map (.initializeExtension plan.mint) ++
        [.initializeMint2 plan.mint plan.mintAuthority plan.freezeAuthority
          plan.decimals] := by
  have shape : plan.transaction programs payer =
      .createAccount payer plan.mint plan.lamports plan.space
          programs.token2022 ::
        (plan.configs.map (TokenInstruction.initializeExtension plan.mint) ++
          [TokenInstruction.initializeMint2 plan.mint plan.mintAuthority
            plan.freezeAuthority plan.decimals]).map .token := by
    simp [PlannedMint.transaction, PlannedMint.inits]
  rw [shape]
  exact tokenInstructions_map _

/-- What plans a mint reads only. -/
theorem reading_planFromInits
    (mint : Address) (authorities : Authorities) (params : StablecoinParams)
    (inits : List ExtensionInit) :
    Reading
      (planFromInits mint authorities params inits :
        Flow (World C) Error MintPlan) :=
  (Reading.ofExcept _).bind fun _ => (Reading.ofExcept _).bind fun _ =>
    (Reading.ofExcept _).bind fun _ => (Reading.read _).bind fun _ =>
      (Reading.ofExcept _).bind fun _ _ => rfl

/-- The keys that the initialization of a mint asks for. -/
theorem signedExactly_planned (plan : PlannedMint) (mint : Keypair)
    (same : plan.mint = mint.pubkey) :
    SignedExactly C.payer (plan.transaction C.programs C.payer) [mint] := by
  intro key
  rw [List.mem_cons, List.mem_cons]
  constructor
  · rintro (isPayer | isMint)
    · exact .inl isPayer
    · rw [List.map_singleton, List.mem_singleton] at isMint
      simp [isMint, Instruction.signers, PlannedMint.transaction, same]
  · rintro (isPayer | asked)
    · exact .inl isPayer
    · obtain ⟨instruction, inside, signs⟩ := List.mem_flatMap.mp asked
      rcases List.mem_cons.mp inside with rfl | inside
      · simpa [Instruction.signers, same] using signs
      · rcases List.mem_append.mp inside with isInit | isLast
        · obtain ⟨_, _, rfl⟩ := List.mem_map.mp isInit
          cases signs
        · rw [List.mem_singleton.mp isLast] at signs
          cases signs

/-- A mint that is planned from the inits of some extensions and created. -/
theorem submits_createMint
    (params : StablecoinParams) {planning : Flow (World C) Error MintPlan}
    {mint : Keypair} {authorities : Authorities}
    (plans : Within
      (World.Submits
        (SignedWith C [mint, authorities.mint, authorities.metadata] carries))
      (fun plan => ∃ configs lamports space,
        plan.initializeInstructions =
            (plannedMint mint.pubkey authorities params lamports space
              configs).transaction C.programs C.payer ∧
          plan.metadata = metadataInstructions mint.pubkey authorities params)
      planning)
    (initializes : ∀ configs : List ExtensionConfig,
      carries (configs.map (.initializeExtension mint.pubkey) ++
        [.initializeMint2 mint.pubkey authorities.mint.pubkey
          (some authorities.freeze.pubkey) params.decimals]))
    (describes : carries (metadataTokens mint.pubkey authorities params)) :
    Within
      (World.Submits
        (SignedWith C [mint, authorities.mint, authorities.metadata] carries))
      (fun _ => True)
      (do
        let plan ← planning
        createMint plan mint authorities
        pure plan : Flow (World C) Error MintPlan) := by
  refine .bind plans ?_
  rintro plan ⟨configs, lamports, space, planned, described⟩
  have first : SignedWith C [mint, authorities.mint, authorities.metadata]
      carries plan.initializeInstructions [mint] := by
    rw [planned]
    exact
      { exactly :=
          iff_of_true (signedExactly_planned _ mint rfl)
            (not_overdone_cons fun _ impossible => by cases impossible)
        given := by simp
        carried := by
          rw [tokenInstructions_planned]
          exact .inr (initializes configs) }
  have second : SignedWith C [mint, authorities.mint, authorities.metadata]
      carries plan.metadata [authorities.mint, authorities.metadata] := by
    rw [described]
    exact
      { exactly := signedExactly_metadata mint.pubkey authorities params
        given := by simp
        carried := by
          rw [tokenInstructions_metadata]
          exact .inr describes }
  have creates : Within
      (World.Submits
        (SignedWith C [mint, authorities.mint, authorities.metadata] carries))
      (fun _ => True)
      (createMint plan mint authorities : Flow (World C) Error Unit) :=
    .bind (submits_send first) fun _ _ =>
      .bind (submits_send second) fun _ _ => .pure trivial
  exact .bind creates fun _ _ => .pure trivial

/-- The inits of given extensions, planned. -/
theorem submits_planFromInits
    (mint : Address) (authorities : Authorities) (params : StablecoinParams)
    (configs : List ExtensionConfig)
    {good : List Instruction → List Keypair → Prop} :
    Within (World.Submits good)
      (fun plan => ∃ configs lamports space,
        plan.initializeInstructions =
            (plannedMint mint authorities params lamports space
              configs).transaction C.programs C.payer ∧
          plan.metadata = metadataInstructions mint authorities params)
      (planFromInits mint authorities params (initsOf mint configs) :
        Flow (World C) Error MintPlan) := by
  have plans : Within (World.Submits good) _ _ := submits_returning
    (reading_planFromInits mint authorities params (initsOf mint configs))
    (within_planFromInits (C := C) mint authorities params configs)
  exact fun world => (plans world).mono fun _ _ ⟨moved, returned⟩ =>
    ⟨moved, fun plan same => ⟨configs, returned plan same⟩⟩

/-- What a call sends, and with which signers. -/
abbrev LibraryCall.Posts (C : Cluster) {crypto : Crypto}
    (call : LibraryCall crypto) : List Instruction → List Keypair → Prop :=
  SignedWith C call.keys (call.Carries C.payer)

variable {crypto : Crypto}

/-! ## Calls that create a mint -/

theorem submits_createV1
    (mint : Keypair) (authorities : Authorities) (params : StablecoinParams) :
    Within
      (World.Submits
        ((LibraryCall.createV1 mint authorities params :
          LibraryCall crypto).Posts C))
      (fun _ => True)
      (createV1 mint authorities params : Flow (World C) Error MintPlan) := by
  refine submits_createMint params ?_
    (fun configs => .inl ⟨configs, rfl⟩) (.inr rfl)
  refine .bind (.ofExcept fun inits built => extensionInits_eq_ok built) ?_
  rintro _ rfl
  exact submits_planFromInits _ _ _ _

theorem submits_createV2
    (mint : Keypair) (authorities : Authorities)
    (compliance : ComplianceAuthorities) (params : StablecoinParams) :
    Within
      (World.Submits
        ((LibraryCall.createV2 mint authorities compliance params :
          LibraryCall crypto).Posts C))
      (fun _ => True)
      (createV2 mint authorities compliance params :
        Flow (World C) Error MintPlan) := by
  refine submits_createMint params ?_
    (fun configs => .inl ⟨configs, rfl⟩) (.inr rfl)
  refine .bind (.ofExcept fun inits built => extensionInits_eq_ok built) ?_
  rintro _ rfl
  refine .bind (.ofExcept fun inits built => extensionInits_eq_ok built) ?_
  rintro _ rfl
  rw [initsOf, initsOf, ← List.map_append]
  exact submits_planFromInits _ _ _ _

/-! ## Calls with one instruction -/

theorem submits_transferWithFee
    (source destination : Address) (authority : Keypair) (amount : Nat) :
    Within
      (World.Submits
        ((LibraryCall.transferWithFee source destination authority amount :
          LibraryCall crypto).Posts C))
      (fun _ => True)
      (transferWithFee source destination authority amount :
        Flow (World C) Error FeeTransfer) := by
  refine .bind (submits_reading (.loadAccount _)) fun account _ =>
    .bind (submits_reading (.loadMint _)) fun mint _ =>
      .bind (submits_reading (.read _)) fun epoch _ =>
        .bind (.ofExcept_any _) fun fee _ =>
          submits_token rfl ?_ ?_ ?_ fun _ => .pure trivial
  · simp [TokenInstruction.Undescribing]
  · simp [LibraryCall.keys]
  · exact ⟨account.mint, mint.decimals, fee, rfl⟩

theorem submits_applyPendingBalance
    (tokenAccount : Address) (owner : Keypair)
    (keys : ConfidentialKeys crypto) :
    Within
      (World.Submits
        ((LibraryCall.applyPendingBalance tokenAccount owner keys).Posts C))
      (fun _ => True)
      (applyPendingBalance tokenAccount owner keys :
        Flow (World C) Error Nat) := by
  refine .bind (submits_reading (.loadAccount _)) fun account _ =>
    .bind (submits_reading (.ofStop _)) fun plan _ =>
      submits_token rfl ?_ ?_ ?_ fun _ => .pure trivial
  · simp [TokenInstruction.Undescribing]
  · simp [LibraryCall.keys]
  · exact ⟨plan.credits, plan.newDecryptable, rfl⟩

theorem submits_approveKyc
    (tokenAccount : Address) (freezeAuthority : Keypair) :
    Within
      (World.Submits
        ((LibraryCall.approveKyc tokenAccount freezeAuthority :
          LibraryCall crypto).Posts C))
      (fun _ => True)
      (approveKyc tokenAccount freezeAuthority :
        Flow (World C) Error Unit) := by
  refine .bind (submits_reading (.loadAccount _)) fun account _ =>
    submits_built (fun built cleared => ?_) fun _ => .pure trivial
  obtain ⟨_, _, rfl⟩ := kycClearance_eq_ok cleared
  refine .token rfl ?_ ?_ ⟨account.mint, rfl⟩
  · simp [TokenInstruction.Undescribing]
  · simp [LibraryCall.keys]

theorem submits_revokeKyc
    (tokenAccount : Address) (freezeAuthority : Keypair) :
    Within
      (World.Submits
        ((LibraryCall.revokeKyc tokenAccount freezeAuthority :
          LibraryCall crypto).Posts C))
      (fun _ => True)
      (revokeKyc tokenAccount freezeAuthority :
        Flow (World C) Error Unit) := by
  refine .bind (submits_reading (.loadAccount _)) fun account _ =>
    submits_built (fun built revoked => ?_) fun _ => .pure trivial
  obtain ⟨_, rfl⟩ := kycRevocation_eq_ok revoked
  refine .token rfl ?_ ?_ ⟨account.mint, rfl⟩
  · simp [TokenInstruction.Undescribing]
  · simp [LibraryCall.keys]

/-! ## Calls with several instructions -/

theorem submits_configureAccount
    (tokenAccount : Address) (owner : Keypair)
    (keys : ConfidentialKeys crypto) :
    Within
      (World.Submits
        ((LibraryCall.configureAccount tokenAccount owner keys).Posts C))
      (fun _ => True)
      (configureAccount tokenAccount owner keys :
        Flow (World C) Error Unit) := by
  refine .bind (submits_reading (.loadAccount _)) fun account _ => ?_
  refine .bind (submits_tokenInstruction _) ?_
  rintro _ rfl
  refine .bind (show Within _ (fun instructions => ∃ proof,
    instructions =
      [.token (.configureAccount tokenAccount account.mint
        (crypto.aeEncrypt keys.ae 0) MAXIMUM_PENDING_BALANCE_CREDITS
        owner.pubkey 1),
      .verifyProof .verifyPubkeyValidity none proof]) _ from
    .ofExcept fun instructions configured => ?_) ?_
  · obtain ⟨proof, _, configured⟩ := except_bind_eq_ok configured
    obtain ⟨_, built, configured⟩ := except_bind_eq_ok configured
    obtain rfl := tokenInstruction_eq_ok built
    cases configured
    exact ⟨proof.bytes, rfl⟩
  · rintro _ ⟨proof, rfl⟩
    refine .bind (submits_send ?_) fun _ _ => .pure trivial
    exact
      { exactly :=
          iff_of_true
            (fun key => by
              simp [Instruction.signers, TokenInstruction.signers])
            (not_overdone_cons fun _ same => by
              cases same
              simp [TokenInstruction.Undescribing])
        given := by simp [LibraryCall.keys]
        carried := .inr ⟨account.mint, rfl⟩ }

theorem submits_enableCpiGuard (tokenAccount : Address) (owner : Keypair) :
    Within
      (World.Submits
        ((LibraryCall.enableCpiGuard tokenAccount owner :
          LibraryCall crypto).Posts C))
      (fun _ => True)
      (enableCpiGuard tokenAccount owner : Flow (World C) Error Unit) := by
  refine .bind (submits_tokenInstruction _) ?_
  rintro _ rfl
  refine .bind (submits_tokenInstruction _) ?_
  rintro _ rfl
  refine .bind (submits_send (.tokens _ [_] (fun key => ?_) ?_ ?_ ?_))
    fun _ _ => .pure trivial
  · simp [TokenInstruction.signers]
  · simp [TokenInstruction.Undescribing]
  · simp [LibraryCall.keys]
  · rfl

theorem submits_collectFees
    (mint : Address) (sources : List Address) (treasury : Address)
    (withdrawAuthority : Keypair) :
    Within
      (World.Submits
        ((LibraryCall.collectFees mint sources treasury withdrawAuthority :
          LibraryCall crypto).Posts C))
      (fun _ => True)
      (collectFees mint sources treasury withdrawAuthority :
        Flow (World C) Error Nat) := by
  refine .bind (submits_reading (.loadAccount _)) fun before _ => ?_
  refine .bind (submits_tokenInstruction _) ?_
  rintro _ rfl
  refine .bind (submits_tokenInstruction _) ?_
  rintro _ rfl
  refine .bind (submits_send (.tokens _ [_] (fun key => ?_) ?_ ?_ ?_))
    fun _ _ => .bind (submits_reading (.loadAccount _)) fun after _ =>
      submits_reading (.ofStop _)
  · simp [TokenInstruction.signers]
  · simp [TokenInstruction.Undescribing]
  · simp [LibraryCall.keys]
  · rfl

/-- The freeze authority signs for a frozen account only. -/
theorem submits_seize
    (source destination : Address)
    (freezeAuthority permanentDelegate : Keypair) (amount : Nat) :
    Within
      (World.Submits
        ((LibraryCall.seize source destination freezeAuthority
          permanentDelegate amount : LibraryCall crypto).Posts C))
      (fun _ => True)
      (seize source destination freezeAuthority permanentDelegate amount :
        Flow (World C) Error FeeTransfer) := by
  refine .bind (submits_reading (.loadAccount _)) fun account _ =>
    .bind (submits_reading (.loadMint _)) fun mint _ =>
      .bind (submits_reading (.read _)) fun epoch _ => ?_
  refine .bind (show Within _ (fun seizure =>
    (LibraryCall.seize source destination freezeAuthority permanentDelegate
      amount : LibraryCall crypto).Posts C seizure.instructions
        seizure.signers) _ from .ofExcept fun seizure prepared => ?_)
    fun seizure signed => .bind (submits_send signed) fun _ _ => .pure trivial
  obtain ⟨fee, _, _, shape⟩ := Seizure.prepare_eq_ok prepared
  rcases shape with ⟨_, instructions, signers⟩ | ⟨_, instructions, signers⟩
  · rw [instructions, signers]
    refine .tokens _ [_, _] (fun key => ?_) ?_ ?_
      ⟨mint.address, mint.decimals, fee, .inr rfl⟩
    · simp [TokenInstruction.signers]
      tauto
    · simp [TokenInstruction.Undescribing]
    · simp [LibraryCall.keys]
  · rw [instructions, signers]
    exact .token rfl (by simp [TokenInstruction.Undescribing])
      (by simp [LibraryCall.keys]) ⟨mint.address, mint.decimals, fee, .inl rfl⟩

/-! ## Debits -/

theorem submits_transfer
    (source destination : Address) (owner : Keypair)
    (keys : ConfidentialKeys crypto) (amount : Nat) :
    Within
      (World.Submits
        ((LibraryCall.transfer source destination owner keys amount).Posts C))
      (fun _ => True)
      (transfer source destination owner keys amount :
        Flow (World C) Error ConfidentialTransfer) := by
  rw [transfer_eq, ← bind_pure_comp]
  refine .bind (submits_debiting (TransferPlan.reading_load _ _ _ _)
    (fun plan => ?_) _) fun _ _ => .pure trivial
  refine .bind (ProofAccounts.submits_verify _ _) fun _ _ =>
    .bind (ProofAccounts.submits_verify _ _) fun _ _ =>
      .bind (ProofAccounts.submits_verify _ _) fun _ _ =>
        .bind (ProofAccounts.submits_verify _ _) fun _ _ =>
          .bind (ProofAccounts.submits_stageFromRecord _ _) fun _ _ => ?_
  refine .bind (.ofExcept fun _ built => tokenInstruction_eq_ok built) ?_
  rintro _ rfl
  refine .pure ⟨fun key => ?_, ⟨_, rfl, rfl, rfl, rfl⟩⟩
  simp [Instruction.signers, TokenInstruction.signers,
    TransferPlan.instruction]

/-- The proofs and instructions of a withdrawal. -/
theorem submits_stage_withdraw
    {carries : List TokenInstruction → Prop} (plan : WithdrawPlan)
    (tokenAccount : Address) (owner : Keypair) (amount : Nat)
    (carried : ∀ range,
      carries [.withdraw (plan.instruction tokenAccount owner amount range)]) :
    Within (Session.Submits (SignedWith C [owner] carries))
      (ProofAccounts.Asks owner carries)
      (plan.stage tokenAccount owner amount :
        Flow (Session C) Error (List Instruction)) := by
  refine .bind (ProofAccounts.submits_stageFromRecord _ _) fun range _ => ?_
  refine .bind (.ofExcept fun _ built => tokenInstruction_eq_ok built) ?_
  rintro _ rfl
  refine .pure ⟨fun key => ?_, carried range⟩
  simp [Instruction.signers, TokenInstruction.signers,
    WithdrawPlan.instruction]

theorem submits_withdraw
    (tokenAccount : Address) (owner : Keypair)
    (keys : ConfidentialKeys crypto) (amount : Nat) :
    Within
      (World.Submits
        ((LibraryCall.withdraw tokenAccount owner keys amount).Posts C))
      (fun _ => True)
      (withdraw tokenAccount owner keys amount :
        Flow (World C) Error Unit) := by
  rw [withdraw_eq, ← bind_pure_comp]
  exact .bind (submits_debiting (WithdrawPlan.reading_loadAvailable _ _ _)
    (fun plan => submits_stage_withdraw plan _ _ _
      fun _ => ⟨_, rfl, rfl, rfl, rfl⟩) _) fun _ _ => .pure trivial

theorem submits_withdrawAgainst
    (tokenAccount : Address) (owner : Keypair)
    (keys : ConfidentialKeys crypto)
    (balanceCiphertext : PodElGamalCiphertext) (balance amount : Nat) :
    Within
      (World.Submits
        ((LibraryCall.withdrawAgainst tokenAccount owner keys balanceCiphertext
          balance amount).Posts C))
      (fun _ => True)
      (withdrawAgainst tokenAccount owner keys balanceCiphertext balance
        amount : Flow (World C) Error Unit) := by
  rw [withdrawAgainst_eq, ← bind_pure_comp]
  exact .bind (submits_debiting (WithdrawPlan.reading_load _ _ _ _ _)
    (fun plan => submits_stage_withdraw plan _ _ _
      fun _ => ⟨_, rfl, rfl, rfl, rfl⟩) _) fun _ _ => .pure trivial

end Building

/-! ## All calls -/

/-- Whatever a call sends is its own, with the signers that it asks for. -/
theorem LibraryCall.submits_run
    {C : Cluster} {crypto : Crypto} (call : LibraryCall crypto) :
    Within (World.Submits (call.Posts C)) (fun _ => True)
      (call.run : Flow (World C) Error Unit) := by
  cases call with
  | createV1 mint authorities params =>
      exact .bind (submits_createV1 mint authorities params) fun _ _ =>
        .pure trivial
  | createV2 mint authorities compliance params =>
      exact .bind (submits_createV2 mint authorities compliance params)
        fun _ _ => .pure trivial
  | closeMint mint closeAuthority destination =>
      refine submits_token rfl ?_ ?_ rfl fun _ => .pure trivial
      · simp [TokenInstruction.Undescribing]
      · simp [keys]
  | mintTo mint destination mintAuthority amount =>
      refine .bind (submits_reading (.loadMint _)) fun state _ =>
        submits_token rfl ?_ ?_ ⟨state.decimals, rfl⟩ fun _ => .pure trivial
      · simp [TokenInstruction.Undescribing]
      · simp [keys]
  | approve source delegate owner amount =>
      refine .bind (submits_reading (.loadAccount _)) fun account _ =>
        .bind (submits_reading (.loadMint _)) fun mint _ =>
          submits_token rfl ?_ ?_ ⟨account.mint, mint.decimals, rfl⟩
            fun _ => .pure trivial
      · simp [TokenInstruction.Undescribing]
      · simp [keys]
  | enableCpiGuard tokenAccount owner =>
      exact submits_enableCpiGuard tokenAccount owner
  | transferWithFee source destination authority amount =>
      exact .bind (submits_transferWithFee source destination authority amount)
        fun _ _ => .pure trivial
  | setTransferFee mint feeAuthority transferFeeBasisPoints maximumFee =>
      refine submits_token rfl ?_ ?_ rfl fun _ => .pure trivial
      · simp [TokenInstruction.Undescribing]
      · simp [keys]
  | collectFees mint sources treasury withdrawAuthority =>
      exact .bind (submits_collectFees mint sources treasury withdrawAuthority)
        fun _ _ => .pure trivial
  | approveKyc tokenAccount freezeAuthority =>
      exact submits_approveKyc tokenAccount freezeAuthority
  | revokeKyc tokenAccount freezeAuthority =>
      exact submits_revokeKyc tokenAccount freezeAuthority
  | setDefaultAccountState mint freezeAuthority state =>
      refine submits_token rfl ?_ ?_ rfl fun _ => .pure trivial
      · simp [TokenInstruction.Undescribing]
      · simp [keys]
  | seize source destination freezeAuthority permanentDelegate amount =>
      exact .bind (submits_seize source destination freezeAuthority
        permanentDelegate amount) fun _ _ => .pure trivial
  | configureAccount tokenAccount owner keys =>
      exact submits_configureAccount tokenAccount owner keys
  | approveAccount tokenAccount confidentialAuthority =>
      refine .bind (submits_reading (.loadAccount _)) fun account _ =>
        submits_token rfl ?_ ?_ ⟨account.mint, rfl⟩ fun _ => .pure trivial
      · simp [TokenInstruction.Undescribing]
      · simp [keys]
  | deposit tokenAccount owner amount =>
      refine .bind (submits_reading (.loadAccount _)) fun account _ =>
        .bind (submits_reading (.loadMint _)) fun mint _ =>
          submits_token rfl ?_ ?_ ⟨mint.address, mint.decimals, rfl⟩
            fun _ => .pure trivial
      · simp [TokenInstruction.Undescribing]
      · simp [keys]
  | applyPendingBalance tokenAccount owner keys =>
      exact .bind (submits_applyPendingBalance tokenAccount owner keys)
        fun _ _ => .pure trivial
  | transfer source destination owner keys amount =>
      exact .bind (submits_transfer source destination owner keys amount)
        fun _ _ => .pure trivial
  | withdraw tokenAccount owner keys amount =>
      exact submits_withdraw tokenAccount owner keys amount
  | withdrawAgainst tokenAccount owner keys balanceCiphertext balance amount =>
      exact submits_withdrawAgainst tokenAccount owner keys balanceCiphertext
        balance amount

/-- So is whatever several calls send. -/
theorem LibraryCall.submits_runAll
    {C : Cluster} {crypto : Crypto} (calls : List (LibraryCall crypto))
    (world : World C) :
    world.Submits
      (fun transaction signers =>
        ∃ call ∈ calls, call.Posts C transaction signers)
      (runAll world calls) := by
  induction calls generalizing world with
  | nil => exact .refl world
  | cons call rest inductionHypothesis =>
      have first := call.submits_run.moved world
      exact IsTrans.trans _ _ _
        (first.mono fun _ _ posts => ⟨call, List.mem_cons_self, posts⟩)
        ((inductionHypothesis _).mono fun _ _ ⟨other, member, posts⟩ =>
          ⟨other, List.mem_cons_of_mem _ member, posts⟩)

/-- Each transaction of each call is signed with exactly the keys that its
message asks for, if and only if it is not overdone, and with no keys but those
that the call was given and those drawn for its proof accounts.  The
instructions of Token-2022 in it, if there are any, are those of the call. -/
theorem calls_sign_exactly
    (C : Cluster) (marks : MarksSigners C.programs) {crypto : Crypto}
    (call : LibraryCall crypto) (world : World C) :
    ∃ sent, (Flow.exec call.run world).2.sent = world.sent ++ sent ∧
      ∀ one ∈ sent,
        ((∀ key, key ∈ C.payer :: one.signers.map (·.pubkey) ↔
            key ∈ Message.signerKeys C.payer
              (one.transaction.map (Instruction.wire C.programs))) ↔
          ¬ Overdone C.payer one.transaction) ∧
        (∀ signer ∈ one.signers,
          signer ∈ call.keys ∨ ∃ number, signer = C.keypairs number) ∧
        (tokenInstructions one.transaction = [] ∨
          call.Carries C.payer (tokenInstructions one.transaction)) := by
  obtain ⟨sent, grown, _, signed⟩ := call.submits_run.moved world
  refine ⟨sent, grown, fun one member => ?_⟩
  have posted := signed one member
  refine ⟨?_, posted.given, posted.carried⟩
  rw [← posted.exactly]
  exact forall_congr' fun key => by rw [mem_signerKeys_iff marks]

/-- Closing a mint is signed with the close authority and the payer. -/
theorem a_close_is_signed_exactly :
    MarksSigners Coining.programs ∧
      let call : LibraryCall Transparent.crypto :=
        .closeMint Busy.stablecoin Coining.closeAuthority Coining.treasury
      let world : World Coining.cluster := World.initial .unborn 0
      let sent := (Flow.exec call.run world).2.sent
      sent.map (·.signers) = [[Coining.closeAuthority]] ∧
        ∀ one ∈ sent,
          ((∀ key, key ∈ Quiet.payer :: one.signers.map (·.pubkey) ↔
              key ∈ Message.signerKeys Quiet.payer
                (one.transaction.map (Instruction.wire Coining.programs))) ↔
            ¬ Overdone Quiet.payer one.transaction) ∧
          (∀ signer ∈ one.signers,
            signer ∈ call.keys ∨ ∃ number, signer = Coining.keypair number) ∧
          (tokenInstructions one.transaction = [] ∨
            call.Carries Quiet.payer (tokenInstructions one.transaction)) := by
  refine ⟨Coining.marksSigners, by decide, ?_⟩
  obtain ⟨sent, grown, signed⟩ := calls_sign_exactly Coining.cluster
    Coining.marksSigners
    (.closeMint Busy.stablecoin Coining.closeAuthority Coining.treasury :
      LibraryCall Transparent.crypto) (World.initial .unborn 0)
  rw [grown]
  exact signed

end Remit
