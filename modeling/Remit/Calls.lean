import Remit.Compliance
import Remit.Confidential
import Remit.Mint
import Remit.Token

/-!
# The calls of the library

The functions of the library that send Token-2022 instructions, with their
arguments and the keys that they are given.  `create_token_account` is not among
them: it sends one instruction to the associated-token program and passes no
signers, as anyone can.
-/

namespace Remit

open Flows

/-- A call of the library.  Owners have the keys of their confidential
balances, of which the cluster sees nothing. -/
inductive LibraryCall (crypto : Crypto) where
  | createV1 (mint : Keypair) (authorities : Authorities)
      (params : StablecoinParams)
  | createV2 (mint : Keypair) (authorities : Authorities)
      (compliance : ComplianceAuthorities) (params : StablecoinParams)
  | closeMint (mint : Address) (closeAuthority : Keypair)
      (destination : Address)
  | mintTo (mint destination : Address) (mintAuthority : Keypair)
      (amount : Nat)
  | approve (source delegate : Address) (owner : Keypair) (amount : Nat)
  | enableCpiGuard (tokenAccount : Address) (owner : Keypair)
  | transferWithFee (source destination : Address) (authority : Keypair)
      (amount : Nat)
  | setTransferFee (mint : Address) (feeAuthority : Keypair)
      (transferFeeBasisPoints maximumFee : Nat)
  | collectFees (mint : Address) (sources : List Address) (treasury : Address)
      (withdrawAuthority : Keypair)
  | approveKyc (tokenAccount : Address) (freezeAuthority : Keypair)
  | revokeKyc (tokenAccount : Address) (freezeAuthority : Keypair)
  | setDefaultAccountState (mint : Address) (freezeAuthority : Keypair)
      (state : AccountState)
  | seize (source destination : Address)
      (freezeAuthority permanentDelegate : Keypair) (amount : Nat)
  | configureAccount (tokenAccount : Address) (owner : Keypair)
      (keys : ConfidentialKeys crypto)
  | approveAccount (tokenAccount : Address) (confidentialAuthority : Keypair)
  | deposit (tokenAccount : Address) (owner : Keypair) (amount : Nat)
  | applyPendingBalance (tokenAccount : Address) (owner : Keypair)
      (keys : ConfidentialKeys crypto)
  | transfer (source destination : Address) (owner : Keypair)
      (keys : ConfidentialKeys crypto) (amount : Nat)
  | withdraw (tokenAccount : Address) (owner : Keypair)
      (keys : ConfidentialKeys crypto) (amount : Nat)
  | withdrawAgainst (tokenAccount : Address) (owner : Keypair)
      (keys : ConfidentialKeys crypto)
      (balanceCiphertext : PodElGamalCiphertext) (balance amount : Nat)

/-- An instruction that neither decides about accounts, nor hands on a power,
nor closes anything. -/
def TokenInstruction.Ordinary : TokenInstruction → Prop
  | thawAccount .. | freezeAccount .. | updateDefaultAccountState ..
  | closeAccount .. | setAuthority .. => False
  | _ => True

namespace LibraryCall

variable {crypto : Crypto}

/-- The keys that a call can sign with. -/
def keys : LibraryCall crypto → List Keypair
  | createV1 mint authorities _ | createV2 mint authorities _ _ =>
      [mint, authorities.mint, authorities.metadata]
  | closeMint _ authority _ | mintTo _ _ authority _
  | transferWithFee _ _ authority _ | setTransferFee _ authority _ _
  | collectFees _ _ _ authority | approveKyc _ authority
  | revokeKyc _ authority | setDefaultAccountState _ authority _
  | approveAccount _ authority => [authority]
  | approve _ _ owner _ | enableCpiGuard _ owner | configureAccount _ owner _
  | deposit _ owner _ | applyPendingBalance _ owner _ | transfer _ _ owner _ _
  | withdraw _ owner _ _ | withdrawAgainst _ owner _ _ _ _ => [owner]
  | seize _ _ freezeAuthority permanentDelegate _ =>
      [freezeAuthority, permanentDelegate]

/-- The instructions of Token-2022 that a call may send in one transaction.
What it reads decides about the mint, the decimals, the fee and the rest. -/
def Carries (payer : Address) :
    LibraryCall crypto → List TokenInstruction → Prop
  | createV1 mint authorities params, carried
  | createV2 mint authorities _ params, carried =>
      (∃ configs : List ExtensionConfig,
        carried = configs.map (.initializeExtension mint.pubkey) ++
          [.initializeMint2 mint.pubkey authorities.mint.pubkey
            (some authorities.freeze.pubkey) params.decimals]) ∨
        carried =
          .initializeMetadata mint.pubkey authorities.metadata.pubkey
              mint.pubkey authorities.mint.pubkey params.name params.symbol
              params.uri ::
            params.additionalMetadata.map fun field =>
              .updateField mint.pubkey authorities.metadata.pubkey field.1
                field.2
  | closeMint mint closeAuthority destination, carried =>
      carried = [.closeAccount mint destination closeAuthority.pubkey]
  | mintTo mint destination mintAuthority amount, carried =>
      ∃ decimals, carried =
        [.mintToChecked mint destination mintAuthority.pubkey amount decimals]
  | approve source delegate owner amount, carried =>
      ∃ mint decimals, carried =
        [.approveChecked source mint delegate owner.pubkey amount decimals]
  | enableCpiGuard tokenAccount owner, carried =>
      carried =
        [.reallocate tokenAccount payer owner.pubkey [.cpiGuard],
          .enableCpiGuard tokenAccount owner.pubkey]
  | transferWithFee source destination authority amount, carried =>
      ∃ mint decimals fee, carried =
        [.transferCheckedWithFee source mint destination authority.pubkey
          amount decimals fee]
  | setTransferFee mint feeAuthority transferFeeBasisPoints maximumFee,
      carried =>
      carried =
        [.setTransferFee mint feeAuthority.pubkey transferFeeBasisPoints
          maximumFee]
  | collectFees mint sources treasury withdrawAuthority, carried =>
      carried =
        [.harvestWithheldTokensToMint mint sources,
          .withdrawWithheldTokensFromMint mint treasury
            withdrawAuthority.pubkey]
  | approveKyc tokenAccount freezeAuthority, carried =>
      ∃ mint, carried = [.thawAccount tokenAccount mint freezeAuthority.pubkey]
  | revokeKyc tokenAccount freezeAuthority, carried =>
      ∃ mint,
        carried = [.freezeAccount tokenAccount mint freezeAuthority.pubkey]
  | setDefaultAccountState mint freezeAuthority state, carried =>
      carried =
        [.updateDefaultAccountState mint freezeAuthority.pubkey state]
  | seize source destination freezeAuthority permanentDelegate amount,
      carried =>
      ∃ mint decimals fee,
        carried =
            [.transferCheckedWithFee source mint destination
              permanentDelegate.pubkey amount decimals fee] ∨
          carried =
            [.thawAccount source mint freezeAuthority.pubkey,
              .transferCheckedWithFee source mint destination
                permanentDelegate.pubkey amount decimals fee,
              .freezeAccount source mint freezeAuthority.pubkey]
  | configureAccount tokenAccount owner keys, carried =>
      ∃ mint, carried =
        [.reallocate tokenAccount payer owner.pubkey
            [.confidentialTransferAccount, .confidentialTransferFeeAmount],
          .configureAccount tokenAccount mint (crypto.aeEncrypt keys.ae 0)
            MAXIMUM_PENDING_BALANCE_CREDITS owner.pubkey 1]
  | approveAccount tokenAccount confidentialAuthority, carried =>
      ∃ mint, carried =
        [.approveAccount tokenAccount mint confidentialAuthority.pubkey]
  | deposit tokenAccount owner amount, carried =>
      ∃ mint decimals, carried =
        [.deposit tokenAccount mint amount decimals owner.pubkey]
  | applyPendingBalance tokenAccount owner _, carried =>
      ∃ credits newDecryptable, carried =
        [.applyPendingBalance tokenAccount credits newDecryptable owner.pubkey]
  | transfer source destination owner _ _, carried =>
      ∃ request, carried = [.transferWithFee request] ∧
        request.source = source ∧ request.destination = destination ∧
        request.authority = owner.pubkey
  | withdraw tokenAccount owner _ amount, carried
  | withdrawAgainst tokenAccount owner _ _ _ amount, carried =>
      ∃ request, carried = [.withdraw request] ∧
        request.tokenAccount = tokenAccount ∧ request.amount = amount ∧
        request.authority = owner.pubkey

/-- A call that neither decides about accounts nor closes anything. -/
def Ordinary : LibraryCall crypto → Prop
  | closeMint .. | approveKyc .. | revokeKyc .. | setDefaultAccountState ..
  | seize .. => False
  | _ => True

/-- Such a call carries ordinary instructions. -/
theorem Ordinary.carries
    {call : LibraryCall crypto} {payer : Address}
    {carried : List TokenInstruction}
    (ordinary : call.Ordinary) (carries : call.Carries payer carried) :
    ∀ instruction ∈ carried, instruction.Ordinary := by
  have creates : ∀ {configs : List ExtensionConfig} {mint : Address}
      {last instruction : TokenInstruction},
      instruction ∈ configs.map (.initializeExtension mint) ++ [last] →
        last.Ordinary → instruction.Ordinary := by
    intro configs mint last instruction member holds
    rcases List.mem_append.mp member with isInit | isLast
    · obtain ⟨_, _, rfl⟩ := List.mem_map.mp isInit
      trivial
    · rw [List.mem_singleton.mp isLast]
      exact holds
  have describes : ∀ {fields : List (String × String)} {mint update : Address}
      {first instruction : TokenInstruction},
      instruction ∈ first :: fields.map (fun field =>
          .updateField mint update field.1 field.2) →
        first.Ordinary → instruction.Ordinary := by
    intro fields mint update first instruction member holds
    rcases List.mem_cons.mp member with rfl | isField
    · exact holds
    · obtain ⟨_, _, rfl⟩ := List.mem_map.mp isField
      trivial
  intro instruction member
  cases call with
  | closeMint | approveKyc | revokeKyc | setDefaultAccountState | seize =>
      cases ordinary
  | createV1 mint authorities params =>
      rcases carries with ⟨configs, rfl⟩ | rfl
      · exact creates member trivial
      · exact describes member trivial
  | createV2 mint authorities compliance params =>
      rcases carries with ⟨configs, rfl⟩ | rfl
      · exact creates member trivial
      · exact describes member trivial
  | enableCpiGuard | collectFees =>
      obtain rfl := carries
      simp only [List.mem_cons, List.not_mem_nil, or_false] at member
      rcases member with rfl | rfl
      · trivial
      · trivial
  | configureAccount =>
      obtain ⟨_, rfl⟩ := carries
      simp only [List.mem_cons, List.not_mem_nil, or_false] at member
      rcases member with rfl | rfl
      · trivial
      · trivial
  | setTransferFee =>
      obtain rfl := carries
      rw [List.mem_singleton.mp member]
      trivial
  | mintTo | approveAccount =>
      obtain ⟨_, rfl⟩ := carries
      rw [List.mem_singleton.mp member]
      trivial
  | approve | deposit | applyPendingBalance =>
      obtain ⟨_, _, rfl⟩ := carries
      rw [List.mem_singleton.mp member]
      trivial
  | transferWithFee =>
      obtain ⟨_, _, _, rfl⟩ := carries
      rw [List.mem_singleton.mp member]
      trivial
  | transfer | withdraw | withdrawAgainst =>
      obtain ⟨_, rfl, _⟩ := carries
      rw [List.mem_singleton.mp member]
      trivial

/-- Make the call.  What it returns is dropped. -/
def run {C : Cluster} : LibraryCall crypto → Flow (World C) Error Unit
  | createV1 mint authorities params => do
      let _ ← Remit.createV1 mint authorities params
  | createV2 mint authorities compliance params => do
      let _ ← Remit.createV2 mint authorities compliance params
  | closeMint mint closeAuthority destination =>
      Remit.closeMint mint closeAuthority destination
  | mintTo mint destination mintAuthority amount =>
      Remit.mintTo mint destination mintAuthority amount
  | approve source delegate owner amount =>
      Remit.approve source delegate owner amount
  | enableCpiGuard tokenAccount owner =>
      Remit.enableCpiGuard tokenAccount owner
  | transferWithFee source destination authority amount => do
      let _ ← Remit.transferWithFee source destination authority amount
  | setTransferFee mint feeAuthority transferFeeBasisPoints maximumFee =>
      Remit.setTransferFee mint feeAuthority transferFeeBasisPoints maximumFee
  | collectFees mint sources treasury withdrawAuthority => do
      let _ ← Remit.collectFees mint sources treasury withdrawAuthority
  | approveKyc tokenAccount freezeAuthority =>
      Remit.approveKyc tokenAccount freezeAuthority
  | revokeKyc tokenAccount freezeAuthority =>
      Remit.revokeKyc tokenAccount freezeAuthority
  | setDefaultAccountState mint freezeAuthority state =>
      Remit.setDefaultAccountState mint freezeAuthority state
  | seize source destination freezeAuthority permanentDelegate amount => do
      let _ ← Remit.seize source destination freezeAuthority permanentDelegate
        amount
  | configureAccount tokenAccount owner keys =>
      Remit.configureAccount tokenAccount owner keys
  | approveAccount tokenAccount confidentialAuthority =>
      Remit.approveAccount tokenAccount confidentialAuthority
  | deposit tokenAccount owner amount => Remit.deposit tokenAccount owner amount
  | applyPendingBalance tokenAccount owner keys => do
      let _ ← Remit.applyPendingBalance tokenAccount owner keys
  | transfer source destination owner keys amount => do
      let _ ← Remit.transfer source destination owner keys amount
  | withdraw tokenAccount owner keys amount =>
      Remit.withdraw tokenAccount owner keys amount
  | withdrawAgainst tokenAccount owner keys balanceCiphertext balance amount =>
      Remit.withdrawAgainst tokenAccount owner keys balanceCiphertext balance
        amount

/-- Make calls one after another, whatever they return. -/
def runAll {C : Cluster} (world : World C)
    (calls : List (LibraryCall crypto)) : World C :=
  calls.foldl (fun world call => (Flow.exec call.run world).2) world

end LibraryCall
end Remit
