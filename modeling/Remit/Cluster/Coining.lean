import Remit.Calls.Signing
import Remit.Cluster.Busy
import Remit.Token.Program

/-!
# A cluster with a coin

A cluster on which others bring a coin about right before the first transaction
is decided, and then do nothing, or burn what a holder has.  It knows the
instructions that issue, move, freeze, delegate and guard money, that set fees,
approve accounts and close a mint, as Token-2022 carries them out and with the
accounts that they name.
-/

namespace Remit
namespace Coining

open Busy (holding stablecoin freezeAuthority seizureAuthority)
open Quiet (Tokens)

/-! ## The wire form -/

def token2022 : Address :=
  Address.filled 14

/-- The byte of an account state. -/
def stateByte : AccountState → UInt8
  | .uninitialized => 0
  | .initialized => 1
  | .frozen => 2

/-- The accounts and the data of an instruction.  Of those that this cluster
does not know, only the signers. -/
def wire (instruction : TokenInstruction) : WireInstruction where
  programId := token2022
  accounts :=
    match instruction with
    | .mintToChecked mint destination authority _ _ =>
        [.new mint false, .new destination false, .newReadonly authority true]
    | .closeAccount account destination authority =>
        [.new account false, .new destination false,
          .newReadonly authority true]
    | .freezeAccount account mint authority
    | .thawAccount account mint authority
    | .approveAccount account mint authority =>
        [.new account false, .newReadonly mint false,
          .newReadonly authority true]
    | .transferCheckedWithFee source mint destination authority _ _ _ =>
        [.new source false, .newReadonly mint false, .new destination false,
          .newReadonly authority true]
    | .approveChecked source mint delegate authority _ _ =>
        [.new source false, .newReadonly mint false,
          .newReadonly delegate false, .newReadonly authority true]
    | .updateDefaultAccountState mint authority _ =>
        [.new mint false, .newReadonly authority true]
    | .enableCpiGuard account owner =>
        [.new account false, .newReadonly owner true]
    | .setTransferFee mint authority _ _ =>
        [.new mint false, .newReadonly authority true]
    | other => other.signers.map fun key => .newReadonly key true
  data :=
    match instruction with
    | .mintToChecked _ _ _ amount decimals =>
        14 :: leBytes 8 amount ++ leBytes 1 decimals
    | .closeAccount .. => [9]
    | .freezeAccount .. => [10]
    | .thawAccount .. => [11]
    | .transferCheckedWithFee _ _ _ _ amount decimals fee =>
        [26, 1] ++ leBytes 8 amount ++ leBytes 1 decimals ++ leBytes 8 fee
    | .approveChecked _ _ _ _ amount decimals =>
        13 :: leBytes 8 amount ++ leBytes 1 decimals
    | .updateDefaultAccountState _ _ state =>
        [28, 1, stateByte state]
    | .enableCpiGuard .. => [34, 0]
    | .approveAccount .. => [27, 3]
    | .setTransferFee _ _ basisPoints maximumFee =>
        [26, 5] ++ leBytes 2 basisPoints ++ leBytes 8 maximumFee
    | _ => []

def programs : Programs :=
  { Quiet.programs with tokenWire := wire }

theorem signers_wire (instruction : TokenInstruction) :
    ((wire instruction).accounts.filter (·.isSigner)).map (·.pubkey) =
      instruction.signers := by
  cases instruction with
  | _ => rfl

theorem marksSigners : MarksSigners programs := by
  intro instruction key
  rw [← signers_wire instruction, List.mem_map]
  simp only [List.mem_filter, and_assoc]
  exact Iff.rfl

/-! ## The ledger -/

/-- The addresses at which an instruction may change something, if this cluster
knows it. -/
def reach : TokenInstruction → Option (List Address)
  | .mintToChecked mint destination _ _ _ => some [mint, destination]
  | .closeAccount account _ _ => some [account]
  | .freezeAccount account _ _ | .thawAccount account _ _ => some [account]
  | .transferCheckedWithFee source _ destination _ _ _ _ =>
      some [source, destination]
  | .approveChecked source _ _ _ _ _ => some [source]
  | .updateDefaultAccountState mint _ _ => some [mint]
  | .enableCpiGuard account _ => some [account]
  | .setTransferFee mint _ _ _ => some [mint]
  | .approveAccount account _ _ => some [account]
  | _ => none

/-- The data of a mint with another base state, another default and other
fees. -/
def rewritten (mint : MintSnapshot) : TokenData → TokenData
  | .mint _ entries =>
      .mint ⟨mint.mintAuthority, mint.supply, mint.decimals,
        mint.freezeAuthority⟩ <| entries.map fun entry =>
          if entry.extensionType = .defaultAccountState then
            ⟨.defaultAccountState,
              (mint.defaultAccountState.map stateByte).toList⟩
          else if entry.extensionType = .transferFeeConfig then
            mint.transferFee.elim entry fun config =>
              ⟨.transferFeeConfig, Layout.writeFeeConfig config⟩
          else entry
  | data => data

/-- The data once some addresses were written. -/
def written (tokens : Tokens) (chain : TokenChain)
    (touched : List Address) : Tokens :=
  fun address =>
    if address ∈ touched then
      match chain.accounts address with
      | some account => some (Layout.writeAccount account)
      | none =>
          (chain.mints address).bind fun mint =>
            (tokens address).map (rewritten mint)
    else tokens address

/-- Write a chain back, if what it has at the written addresses has a
layout. -/
def writeBack (ledger : Busy.Ledger) (chain : TokenChain)
    (touched : List Address) : Option Busy.Ledger :=
  let next : Busy.Ledger := ⟨written ledger.tokens chain touched, ledger.epoch⟩
  if ∀ address ∈ touched,
      next.chain.accounts address = chain.accounts address ∧
        next.chain.mints address = chain.mints address then
    some next
  else none

/-- Carry out instructions one after another, each of them known. -/
def carryOutAll (signers : List Address) (ledger : Busy.Ledger) :
    List TokenInstruction → Option Busy.Ledger
  | [] => some ledger
  | instruction :: rest =>
      (reach instruction).bind fun touched =>
        (instruction.perform signers ledger.chain).bind fun chain =>
          (writeBack ledger chain touched).bind fun next =>
            carryOutAll signers next rest

section Writing

variable {signers : List Address} {ledger next : Busy.Ledger}
  {chain after : TokenChain} {touched : List Address}
  {instruction : TokenInstruction}

theorem writeBack_eq_some
    (wrote : writeBack ledger chain touched = some next)
    (elsewhere : ∀ address, address ∉ touched →
      chain.accounts address = ledger.chain.accounts address ∧
        chain.mints address = ledger.chain.mints address)
    (sameEpoch : chain.epoch = ledger.epoch) : next.chain = chain := by
  unfold writeBack at wrote
  obtain ⟨laidOut, same⟩ := Option.ite_none_right_eq_some.mp wrote
  cases same
  have agree : ∀ address,
      (Busy.Ledger.chain ⟨written ledger.tokens chain touched,
          ledger.epoch⟩).accounts address = chain.accounts address ∧
        (Busy.Ledger.chain ⟨written ledger.tokens chain touched,
          ledger.epoch⟩).mints address = chain.mints address := by
    intro address
    by_cases here : address ∈ touched
    · exact laidOut address here
    · rw [(elsewhere address here).1, (elsewhere address here).2]
      simp only [Busy.Ledger.chain, Quiet.decoded, written, if_neg here,
        and_self]
  exact TokenChain.ext (funext fun address => (agree address).1)
    (funext fun address => (agree address).2) sameEpoch.symm

/-- An instruction changes nothing where it does not reach, and not the
epoch. -/
theorem perform_frame
    (reached : reach instruction = some touched)
    (performed : instruction.perform signers chain = some after) :
    after.epoch = chain.epoch ∧
      ∀ address, address ∉ touched →
        after.accounts address = chain.accounts address ∧
          after.mints address = chain.mints address := by
  have carried : ∀ instruction : TokenInstruction,
      instruction.carryOut signers chain = some after →
        instruction.touched = touched →
          after.epoch = chain.epoch ∧
            ∀ address, address ∉ touched →
              after.accounts address = chain.accounts address ∧
                after.mints address = chain.mints address := by
    rintro instruction carried rfl
    refine ⟨TokenInstruction.carryOut_epoch carried, fun address away => ?_⟩
    exact ⟨TokenInstruction.carryOut_elsewhere carried away,
      congrFun (TokenInstruction.carryOut_mints carried) address⟩
  cases instruction with
  | mintToChecked mint destination =>
      cases reached
      obtain ⟨_, _, _, _, _, _, _, _, _, rfl⟩ :=
        TokenChain.mintTo_eq_some performed
      refine ⟨rfl, fun address away => ?_⟩
      have others : address ≠ mint ∧ address ≠ destination := by
        simpa using away
      exact ⟨TokenChain.setAccount_of_ne _ others.2 _,
        Function.update_of_ne others.1 ..⟩
  | closeAccount account =>
      cases reached
      obtain ⟨_, _, _, _, _, rfl⟩ := TokenChain.closeMint_eq_some performed
      refine ⟨rfl, fun address away => ⟨rfl, ?_⟩⟩
      exact Function.update_of_ne (by simpa using away) ..
  | updateDefaultAccountState mint =>
      cases reached
      obtain ⟨_, _, _, _, rfl⟩ := TokenChain.changeMint_eq_some performed
      refine ⟨rfl, fun address away => ⟨rfl, ?_⟩⟩
      exact Function.update_of_ne (by simpa using away) ..
  | setTransferFee mint =>
      cases reached
      obtain ⟨_, _, _, _, rfl⟩ := TokenChain.setTransferFee_eq_some performed
      refine ⟨rfl, fun address away => ⟨rfl, ?_⟩⟩
      exact Function.update_of_ne (by simpa using away) ..
  | approveAccount account =>
      cases reached
      obtain ⟨_, _, _, _, _, _, _, _, _, _, _, rfl⟩ :=
        TokenChain.approveConfidential_eq_some performed
      refine ⟨rfl, fun address away => ⟨?_, rfl⟩⟩
      exact TokenChain.setAccount_of_ne _ (by simpa using away) _
  | approveChecked source =>
      cases reached
      obtain ⟨_, _, _, _, _, _, rfl⟩ := TokenChain.approve_eq_some performed
      refine ⟨rfl, fun address away => ⟨?_, rfl⟩⟩
      exact TokenChain.setAccount_of_ne _ (by simpa using away) _
  | enableCpiGuard account =>
      cases reached
      obtain ⟨_, _, _, _, _, _, rfl⟩ := TokenChain.asOwner_eq_some performed
      refine ⟨rfl, fun address away => ⟨?_, rfl⟩⟩
      exact TokenChain.setAccount_of_ne _ (by simpa using away) _
  | thawAccount account mint authority =>
      cases reached
      exact carried (.thawAccount account mint authority) performed rfl
  | freezeAccount account mint authority =>
      cases reached
      exact carried (.freezeAccount account mint authority) performed rfl
  | transferCheckedWithFee source mint destination authority amount decimals
      fee =>
      cases reached
      exact carried (.transferCheckedWithFee source mint destination authority
        amount decimals fee) performed rfl
  | _ => cases reached

theorem carryOutAll_cons_eq_some
    {rest : List TokenInstruction} {last : Busy.Ledger}
    (carried :
      carryOutAll signers ledger (instruction :: rest) = some last) :
    ∃ next : Busy.Ledger,
      instruction.perform signers ledger.chain = some next.chain ∧
        carryOutAll signers next rest = some last := by
  obtain ⟨touched, reached, carried⟩ := Option.bind_eq_some_iff.mp carried
  obtain ⟨chain, performed, carried⟩ := Option.bind_eq_some_iff.mp carried
  obtain ⟨next, wrote, carried⟩ := Option.bind_eq_some_iff.mp carried
  obtain ⟨epoch, elsewhere⟩ := perform_frame reached performed
  have same := writeBack_eq_some wrote elsewhere epoch
  exact ⟨next, same ▸ performed, carried⟩

end Writing

/-! ## The coin -/

def mintAuthority : Keypair :=
  ⟨Address.filled 34⟩

def closeAuthority : Keypair :=
  ⟨Address.filled 35⟩

def owner : Keypair :=
  ⟨Address.filled 41⟩

def holder : Address :=
  Address.filled 40

def treasury : Address :=
  Address.filled 42

/-- The mint, of which some tokens were issued.  There are no fees so far. -/
def mintData (supply : Nat) (default : AccountState) : TokenData :=
  .mint ⟨some mintAuthority.pubkey, supply, 2, some freezeAuthority.pubkey⟩
    [⟨.transferFeeConfig, Layout.writeFeeConfig
        ⟨none, none, 0, ⟨0, 0, 0⟩, ⟨0, 0, 0⟩⟩⟩,
      ⟨.permanentDelegate, seizureAuthority.pubkey.bytes⟩,
      ⟨.mintCloseAuthority, closeAuthority.pubkey.bytes⟩,
      ⟨.defaultAccountState, [stateByte default]⟩]

/-- The ledger when the coin has come about. -/
def born : Busy.Ledger where
  tokens := Busy.tokensAt
    [(stablecoin, mintData 0 .initialized),
      (holder, holding owner.pubkey 0 .initialized 0),
      (treasury, holding mintAuthority.pubkey 0 .initialized 0)]
  epoch := 0

/-! ## The cluster -/

/-- The keypair with a number, which is none of the coin's. -/
def keypair (number : Nat) : Keypair :=
  ⟨⟨leBytes 31 number ++ [1], by simp [length_leBytes]⟩⟩

theorem keypair_ne_filled {byte : UInt8} (other : byte ≠ 1) (number : Nat) :
    (keypair number).pubkey ≠ Address.filled byte := by
  intro same
  have bytes : leBytes 31 number ++ [1] = List.replicate 32 byte :=
    congrArg (·.bytes) same
  have last := congrArg List.getLast? bytes
  simp at last
  exact other last.symm

/-- Before the coin has come about, and since. -/
inductive State where
  | unborn
  | ongoing (accounts : Accounts) (ledger : Busy.Ledger)

namespace State

def accounts : State → Accounts
  | unborn => fun _ => none
  | ongoing accounts _ => accounts

def ledger : State → Busy.Ledger
  | unborn => ⟨fun _ => none, 0⟩
  | ongoing _ ledger => ledger

/-- The state in which the cluster decides about a transaction, where others
act on a coin that has come about. -/
def reached (others : Busy.Ledger → Busy.Ledger) : State → State
  | unborn => ongoing (fun _ => none) born
  | ongoing accounts ledger => ongoing accounts (others ledger)

@[simp]
theorem accounts_reached
    (others : Busy.Ledger → Busy.Ledger) (state : State) :
    (state.reached others).accounts = state.accounts := by
  cases state with
  | unborn => rfl
  | ongoing => rfl

end State

/-- The state after a transaction, if it can be carried out. -/
def process (state : State) (transaction : List Instruction)
    (signers : List Keypair) : Option State :=
  let keys := Quiet.payer :: signers.map (·.pubkey)
  (runTransaction programs keys transaction state.accounts).bind
    fun accounts =>
      (carryOutAll keys state.ledger (tokenInstructions transaction)).map
        (.ongoing accounts)

def send (others : Busy.Ledger → Busy.Ledger) (state : State)
    (transaction : List Instruction) (signers : List Keypair) :
    Delivery State :=
  let before := state.reached others
  match process before transaction signers with
  | some after => ⟨.ok ⟨0, 0, []⟩, before, after, after⟩
  | none => ⟨.error (.transaction (.other 0) []), before, before, before⟩

section Sending

variable {others : Busy.Ledger → Busy.Ledger} {state : State}
  {transaction : List Instruction} {signers : List Keypair}

theorem process_eq_some
    {next : State} (processed : process state transaction signers = some next) :
    runTransaction programs (Quiet.payer :: signers.map (·.pubkey)) transaction
        state.accounts = some next.accounts ∧
      carryOutAll (Quiet.payer :: signers.map (·.pubkey)) state.ledger
        (tokenInstructions transaction) = some next.ledger := by
  obtain ⟨accounts, ran, processed⟩ := Option.bind_eq_some_iff.mp processed
  obtain ⟨ledger, carried, rfl⟩ := Option.map_eq_some_iff.mp processed
  exact ⟨ran, carried⟩

theorem send_attempts :
    (send others state transaction signers).Attempts (state.reached others)
      (process (state.reached others) transaction signers) id := by
  unfold send
  dsimp only
  cases process (state.reached others) transaction signers with
  | none => exact .leftAlone _ id (.transaction (.other 0) [])
  | some after => exact .carriedOut _ id _ after

end Sending

/-- The cluster, with what others do once there is a coin. -/
def clusterOf (others : Busy.Ledger → Busy.Ledger) : Cluster where
  programs := programs
  State := State
  Data := TokenData
  interface := Layout.interface
  payer := Quiet.payer
  keypairs := keypair
  held _ := True
  accountData state address := state.ledger.tokens address
  lamports _ _ := 0
  epoch state := state.ledger.epoch
  minimumBalanceForRentExemption _ space := space
  send := send others
  accounts := State.accounts
  held_payer := trivial
  held_keypair _ := trivial
  outsiders_before state transaction signers := by
    rw [send_attempts.before, State.accounts_reached]
    exact .refl _
  landed state transaction signers receipt landed := by
    rw [send_attempts.before]
    exact (process_eq_some (send_attempts.ok landed)).1
  not_landed state transaction signers error failed := by
    rw [send_attempts.error failed, send_attempts.before]
  outsiders_after state transaction signers := by
    rw [send_attempts.next]
    exact .refl _

/-- The cluster on which others do nothing more. -/
def cluster : Cluster :=
  clusterOf id

/-- The holder burns what it has. -/
def spent (ledger : Busy.Ledger) : Busy.Ledger :=
  ((ledger.chain.burn [owner.pubkey] holder stablecoin owner.pubkey
    ((ledger.chain.accounts holder).elim 0 (·.amount)) 2).bind fun chain =>
      writeBack ledger chain [holder, stablecoin]).getD ledger

/-- It is burnt, or there is nothing to do. -/
theorem spent_eq_or (ledger : Busy.Ledger) :
    spent ledger = ledger ∨
      ∃ amount, ledger.chain.burn [owner.pubkey] holder stablecoin owner.pubkey
        amount 2 = some (spent ledger).chain := by
  unfold spent
  cases result : (ledger.chain.burn [owner.pubkey] holder stablecoin
      owner.pubkey ((ledger.chain.accounts holder).elim 0 (·.amount)) 2).bind
        fun chain => writeBack ledger chain [holder, stablecoin] with
  | none => exact .inl rfl
  | some next =>
      obtain ⟨chain, burnt, wrote⟩ := Option.bind_eq_some_iff.mp result
      have same : next.chain = chain := by
        obtain ⟨_, _, _, _, _, _, _, _, _, rfl⟩ := TokenChain.burn_eq_some burnt
        refine writeBack_eq_some wrote (fun address away => ?_) rfl
        have others : address ≠ holder ∧ address ≠ stablecoin := by
          simpa using away
        exact ⟨TokenChain.setAccount_of_ne _ others.1 _,
          Function.update_of_ne others.2 ..⟩
      rw [← same] at burnt
      exact .inr ⟨_, burnt⟩

theorem tokenChain_eq (state : State) :
    cluster.tokenChain state = state.ledger.chain :=
  rfl

end Coining
end Remit
