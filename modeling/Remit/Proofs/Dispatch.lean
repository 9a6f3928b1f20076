import Remit.Proofs.Chunks
import Remit.Custody.Landing
import Remit.Proofs.Cleanup

/-!
# What the proof operations send

Every transaction that `verify`, `stageFromRecord`, `consume` and `closeAfter`
send is one of five kinds, and fits a packet: it was measured before it was
sent, or the search for the size of its chunk has measured it.
-/

namespace Remit

open Flows Flow

variable {C : Cluster}

/-- A staged proof as staging leaves it: the budget is that of the
verification, and the tail is a write of the verified record that fits. -/
structure Staged.Settled (C : Cluster) (staged : Staged) : Prop
    extends staged.Vetted C where
  charged : ∃ instruction record,
    staged.verify =
        .verifyProofFromAccount instruction
          (some (contextInfo staged.context.pubkey C.payer)) record
          RecordData.WRITABLE_START_INDEX ∧
      staged.units = computeUnits instruction ∧
      ∀ write, staged.tailWrite = some write →
        ∃ offset data, write = .recordWrite record C.payer offset data ∧
          fitsInOneTransaction C.programs [write] C.payer = true

/-- The addresses are those of different draws of the supply of keys, from
number `start` on. -/
def Drawn (C : Cluster) (start drawn : Nat) (addresses : List Address) :
    Prop :=
  start ≤ drawn ∧ ∃ numbers : List Nat,
    addresses.Perm (numbers.map fun number => (C.keypairs number).pubkey) ∧
      numbers.Nodup ∧ ∀ number ∈ numbers, start ≤ number ∧ number < drawn

/-- The keys with numbers from `first` up to `limit` are different. -/
def DistinctDraws (C : Cluster) (first limit : Nat) : Prop :=
  Set.InjOn (fun number => (C.keypairs number).pubkey) (Set.Ico first limit)

/-- The addresses of all proof accounts, those of staged contexts last. -/
def ProofAccounts.addresses (accounts : ProofAccounts) : List Address :=
  accounts.contexts ++ accounts.records ++
    accounts.staged.map (·.context.pubkey)

/-- Every staged proof is settled and in a tracked record, and the proof
accounts are different draws of the supply of keys. -/
structure ProofAccounts.Settled (C : Cluster) (start drawn : Nat)
    (accounts : ProofAccounts) : Prop where
  staged : ∀ staged ∈ accounts.staged, staged.Settled C
  recorded : ∀ staged ∈ accounts.staged, ∀ instruction context record offset,
    staged.verify =
        .verifyProofFromAccount instruction context record offset →
      record ∈ accounts.records
  draws : Drawn C start drawn accounts.addresses

/-- The transactions of the proof operations.  `asked` is what `consume` is
called for: how many keys were drawn by then, the instructions, and their
budget. -/
inductive Dispatch (C : Cluster)
    (asked : Nat → List Instruction → Nat → Prop) :
    List Instruction → Prop where
  | verifying (context : Address) (lamports space : Nat)
      (instruction : ProofInstruction) (proof : Bytes) :
      C.held context →
      Dispatch C asked
        (verifying C.programs C.payer context
          (computeUnits instruction + OVERHEAD_UNITS) lamports space
          instruction proof)
  | opening (record : Address) (lamports space : Nat) (chunk : Bytes) :
      C.held record →
      Dispatch C asked
        (recordOpening C.programs C.payer record lamports space chunk)
  | writing (record : Address) (offset : Nat) (data : Bytes) :
      Dispatch C asked [.recordWrite record C.payer offset data]
  | closing (batch : List (Instruction × Nat)) :
      (∀ item ∈ batch, IsClose C.payer item) →
      Dispatch C asked (batchTransaction batch)
  | consuming (start drawn : Nat) (self : ProofAccounts)
      (instructions : List Instruction) (units : Nat) (withTails : Bool) :
      self.Settled C start drawn → asked drawn instructions units →
      Dispatch C asked
        (withComputeUnitLimit (self.consumingUnits units withTails)
          (self.consuming C.payer instructions withTails))

/-- A transaction of the proof operations that fits a packet. -/
def Dispatched (C : Cluster) (asked : Nat → List Instruction → Nat → Prop)
    (transaction : List Instruction) : Prop :=
  Dispatch C asked transaction ∧
    fitsInOneTransaction C.programs transaction C.payer = true

/-- Between the two worlds, only good transactions were sent. -/
structure World.Posts (good : List Instruction → Prop)
    (before after : World C) : Prop where
  sent : ∃ later, after.sent = before.sent ++ later ∧
    ∀ one ∈ later, good one.transaction
  drawn : before.drawn ≤ after.drawn
  start : after.start = before.start

/-- Between the two sessions, only good transactions were sent, and what was
settled still is. -/
structure Session.Posts (good : List Instruction → Prop)
    (before after : Session C) : Prop where
  world : before.world.Posts good after.world
  settled : ∀ start, before.accounts.Settled C start before.world.drawn →
    after.accounts.Settled C start after.world.drawn

namespace Drawn

variable {start drawn : Nat} {addresses others : List Address}

theorem nil (le : start ≤ drawn) : Drawn C start drawn [] :=
  ⟨le, [], .refl _, List.nodup_nil, fun _ member => by cases member⟩

theorem later
    {later : Nat} (draws : Drawn C start drawn addresses)
    (le : drawn ≤ later) : Drawn C start later addresses := by
  obtain ⟨since, numbers, same, distinct, within⟩ := draws
  exact ⟨Nat.le_trans since le, numbers, same, distinct, fun number member =>
    ⟨(within number member).1,
      Nat.lt_of_lt_of_le (within number member).2 le⟩⟩

/-- One more draw. -/
theorem grow
    (draws : Drawn C start drawn addresses)
    (grown : others.Perm (addresses ++ [(C.keypairs drawn).pubkey])) :
    Drawn C start (drawn + 1) others := by
  obtain ⟨since, numbers, same, distinct, within⟩ := draws
  refine ⟨Nat.le_succ_of_le since, numbers ++ [drawn], ?_, ?_, ?_⟩
  · rw [List.map_append]
    exact grown.trans (same.append_right _)
  · rw [List.nodup_append]
    refine ⟨distinct, List.nodup_singleton _, ?_⟩
    intro left leftMember right rightMember equal
    have less := (within left leftMember).2
    rw [equal, List.mem_singleton.mp rightMember] at less
    exact Nat.lt_irrefl _ less
  · intro number member
    rcases List.mem_append.mp member with earlier | last
    · exact ⟨(within number earlier).1,
        Nat.lt_succ_of_lt (within number earlier).2⟩
    · rw [List.mem_singleton.mp last]
      exact ⟨since, Nat.lt_succ_self _⟩

theorem exists_number
    {address : Address} (draws : Drawn C start drawn addresses)
    (member : address ∈ addresses) :
    ∃ number ∈ Set.Ico start drawn, (C.keypairs number).pubkey = address := by
  obtain ⟨_, numbers, same, _, within⟩ := draws
  obtain ⟨number, among, isKey⟩ := List.mem_map.mp (same.mem_iff.mp member)
  exact ⟨number, within number among, isKey⟩

theorem nodup
    {first limit : Nat} (draws : Drawn C start drawn addresses)
    (distinct : DistinctDraws C first limit) (since : first ≤ start)
    (before : drawn ≤ limit) : addresses.Nodup := by
  obtain ⟨_, numbers, same, nodup, within⟩ := draws
  rw [same.nodup_iff]
  refine List.Nodup.map_on ?_ nodup
  intro left leftMember right rightMember equal
  have inside : ∀ number ∈ numbers, number ∈ Set.Ico first limit :=
    fun number member =>
      ⟨Nat.le_trans since (within number member).1,
        Nat.lt_of_lt_of_le (within number member).2 before⟩
  exact distinct (inside left leftMember) (inside right rightMember) equal

end Drawn

namespace ProofAccounts.Settled

variable {self : ProofAccounts} {start drawn : Nat}

theorem empty (le : start ≤ drawn) :
    ({} : ProofAccounts).Settled C start drawn where
  staged _ member := by cases member
  recorded _ member := by cases member
  draws := .nil le

theorem later
    {later : Nat} (settled : self.Settled C start drawn)
    (le : drawn ≤ later) : self.Settled C start later where
  staged := settled.staged
  recorded := settled.recorded
  draws := settled.draws.later le

/-- The last draw becomes the address of a verified context. -/
theorem openContext (settled : self.Settled C start drawn) :
    ({ self with
        contexts := self.contexts ++ [(C.keypairs drawn).pubkey] } :
      ProofAccounts).Settled C start (drawn + 1) where
  staged := settled.staged
  recorded := settled.recorded
  draws := by
    have moved : ([(C.keypairs drawn).pubkey] ++ (self.records ++
          self.staged.map (·.context.pubkey))).Perm
        (self.records ++ self.staged.map (·.context.pubkey) ++
          [(C.keypairs drawn).pubkey]) := List.perm_append_comm
    refine settled.draws.grow ?_
    simp only [addresses, List.append_assoc] at moved ⊢
    exact .append_left _ moved

/-- The last draw becomes the address of a record. -/
theorem openRecord (settled : self.Settled C start drawn) :
    ({ self with records := self.records ++ [(C.keypairs drawn).pubkey] } :
      ProofAccounts).Settled C start (drawn + 1) where
  staged := settled.staged
  recorded staged member _ _ _ _ verify :=
    List.mem_append_left _ (settled.recorded staged member _ _ _ _ verify)
  draws := by
    refine settled.draws.grow ?_
    simp only [addresses, List.append_assoc]
    exact .append_left _ (.append_left _ List.perm_append_comm)

/-- The last draw becomes the context of a staged proof. -/
theorem stage
    {staged : Staged} (settled : self.Settled C start drawn)
    (one : staged.Settled C)
    (inRecord : ∀ instruction context record offset,
      staged.verify =
          .verifyProofFromAccount instruction context record offset →
        record ∈ self.records)
    (isDraw : staged.context = C.keypairs drawn) :
    ({ self with staged := self.staged ++ [staged] } : ProofAccounts).Settled
      C start (drawn + 1) where
  staged other member := by
    rcases List.mem_append.mp member with earlier | last
    · exact settled.staged other earlier
    · rw [List.mem_singleton.mp last]
      exact one
  recorded other member := by
    rcases List.mem_append.mp member with earlier | last
    · exact settled.recorded other earlier
    · rw [List.mem_singleton.mp last]
      exact inRecord
  draws := by
    refine settled.draws.grow ?_
    simp [addresses, isDraw]

end ProofAccounts.Settled

instance (good : List Instruction → Prop) :
    IsPreorder (World C) (World.Posts good) where
  refl world := ⟨⟨[], by simp, by simp⟩, Nat.le_refl _, rfl⟩
  trans := by
    rintro first second third ⟨⟨later, sent, goods⟩, drawn, start⟩
      ⟨⟨more, sent', goods'⟩, drawn', start'⟩
    refine ⟨⟨later ++ more, by rw [sent', sent, List.append_assoc], ?_⟩,
      Nat.le_trans drawn drawn', start'.trans start⟩
    intro one member
    rcases List.mem_append.mp member with earlier | last
    · exact goods one earlier
    · exact goods' one last

instance (good : List Instruction → Prop) :
    IsPreorder (Session C) (Session.Posts good) where
  refl session := ⟨refl session.world, fun _ => id⟩
  trans _ _ _ first second :=
    ⟨IsTrans.trans _ _ _ first.world second.world,
      fun start => second.settled start ∘ first.settled start⟩

theorem World.Posts.mono
    {good better : List Instruction → Prop} {before after : World C}
    (posts : before.Posts better after)
    (implied : ∀ transaction, better transaction → good transaction) :
    before.Posts good after where
  sent := by
    obtain ⟨later, sent, goods⟩ := posts.sent
    exact ⟨later, sent, fun one member => implied _ (goods one member)⟩
  drawn := posts.drawn
  start := posts.start

/-! ## Steps on the world -/

namespace World

variable {good : List Instruction → Prop}

theorem posts_deliver
    {world : World C} {transaction : List Instruction}
    (holds : good transaction) (signers : List Keypair) :
    world.Posts good (world.deliver transaction signers) where
  sent := by
    refine ⟨[world.sending transaction signers], rfl, ?_⟩
    intro one member
    rw [List.mem_singleton.mp member]
    exact holds
  drawn := Nat.le_refl _
  start := rfl

theorem posts_draw (good : List Instruction → Prop) (world : World C) :
    world.Posts good { world with drawn := world.drawn + 1 } :=
  ⟨⟨[], by simp, by simp⟩, Nat.le_succ _, rfl⟩

theorem posts_send
    {transaction : List Instruction} {signers : List Keypair}
    (holds : good transaction) :
    Within (Posts good) (fun _ => True)
      (World.send transaction signers : Flow (World C) Error Receipt) :=
  fun _ => ensures_send
    (fun _ _ => ⟨posts_deliver holds signers, fun _ _ => trivial⟩)
    fun _ _ => ⟨posts_deliver holds signers, fun _ _ => trivial⟩

/-- What is answered is whether the instructions fit. -/
theorem posts_fits (instructions : List Instruction) :
    Within (Posts good)
      (fun answer =>
        answer = fitsInOneTransaction C.programs instructions C.payer)
      (fits instructions : Flow (World C) Error Bool) := by
  unfold fits
  split
  case h_1 answer measured => exact .pure (measuredFits_eq_some measured).symm
  case h_2 => exact .panicking

theorem posts_rent (space : Nat) :
    Within (Posts good) (fun _ => True)
      (rent space : Flow (World C) Error Nat) :=
  .read fun _ => trivial

end World

section Steps

variable {good : List Instruction → Prop}

theorem posts_checkedUnits (units : Nat) :
    Within (World.Posts good) (fun checked => checked = units)
      (checkedUnits units : Flow (World C) Error Nat) := by
  unfold checkedUnits
  split
  · exact .pure rfl
  · exact .panicking

theorem posts_sendAll
    {transactions : List (List Instruction)}
    (holds : ∀ transaction ∈ transactions, good transaction) :
    Within (World.Posts good) (fun _ => True)
      (sendAll transactions : Flow (World C) Error Unit) := by
  induction transactions with
  | nil => exact .pure trivial
  | cons transaction rest inductionHypothesis =>
      exact .bind (World.posts_send (holds transaction List.mem_cons_self))
        fun _ _ => inductionHypothesis fun other member =>
          holds other (List.mem_cons_of_mem _ member)

end Steps

/-! ## The search for a chunk -/

/-- The chunk that is found fits, if at least the empty one does. -/
theorem fits_largestChunk
    {programs : Programs} {payer : Address} {data : Bytes}
    {build : Bytes → List Instruction} {len : Nat}
    (found : largestChunk programs payer data build = some len)
    (empty : fitsInOneTransaction programs (build []) payer = true) :
    fitsInOneTransaction programs (build (data.take len)) payer = true := by
  rcases (largestChunk_boundary found).passes with nothing | measured
  · rw [nothing, List.take_zero]
    exact empty
  · exact measuredFits_eq_some measured

/-- A record can always be opened with nothing written into it. -/
theorem fits_recordOpening_nil
    (programs : Programs) (payer record : Address) (lamports space : Nat) :
    fitsInOneTransaction programs
      (recordOpening programs payer record lamports space []) payer =
        true := by
  apply decide_eq_true
  apply Nat.le_trans (transactionSize_le ..)
  have owner := programs.record.length_eq
  simp [recordOpening, Instruction.wire, Message.looseSize,
    Message.instructionLength, Message.compactLength, AccountMeta.new,
    AccountMeta.newReadonly, PACKET_DATA_SIZE, owner]

/-- A chunk that is not empty was measured. -/
theorem fits_recordChunk
    {programs : Programs} {payer record : Address} {bytes : Bytes}
    {offset len : Nat}
    (found : recordChunk programs payer record bytes offset = some len)
    (progress : len ≠ 0) :
    fitsInOneTransaction programs
      [.recordWrite record payer offset ((bytes.drop offset).take len)]
      payer = true := by
  rcases (largestChunk_boundary found).passes with nothing | measured
  · exact absurd nothing progress
  · exact measuredFits_eq_some measured

/-! ## Closing -/

section Closing

variable {asked : Nat → List Instruction → Nat → Prop}

/-- A batch of close instructions that fits a packet. -/
def Cleaning (C : Cluster) (transaction : List Instruction) : Prop :=
  ∃ batch, (∀ item ∈ batch, IsClose C.payer item) ∧
    transaction = batchTransaction batch ∧
    fitsInOneTransaction C.programs transaction C.payer = true

theorem Cleaning.dispatched
    {transaction : List Instruction} (cleaning : Cleaning C transaction) :
    Dispatched C asked transaction := by
  obtain ⟨batch, closes, rfl, fits⟩ := cleaning
  exact ⟨.closing batch closes, fits⟩

theorem cleaning_batches (self : ProofAccounts) :
    ∀ transaction ∈
        (self.batches C.programs C.payer).map batchTransaction,
      Cleaning C transaction := by
  intro transaction member
  obtain ⟨batch, among, rfl⟩ := List.mem_map.mp member
  have cut := self.batches_cut C.programs C.payer
  have fits := cut.fits _ (List.mem_map_of_mem among)
  have flattened :
      (self.batches C.programs C.payer).flatten = self.closing C.payer :=
    Packing.greedy_flatten [] (self.closing C.payer)
  refine ⟨batch, fun item inside => ?_, rfl, ?_⟩
  · apply self.isClose_closing C.payer
    rw [← flattened]
    exact List.mem_flatten.mpr ⟨batch, among, inside⟩
  · rw [fits_batchTransaction]
    exact fits

namespace ProofAccounts

/-- Cleanup sends nothing but batches of close instructions. -/
theorem cleans_closeAfter
    {α : Type} (self : ProofAccounts) (result : Except Error α) :
    Within (World.Posts (Cleaning C)) (fun _ => True)
      (self.closeAfter result : Flow (World C) Error α) := by
  have close :
      Within (World.Posts (Cleaning C)) (fun _ => True)
        (({ self with staged := [] } : ProofAccounts).close :
          Flow (World C) Error Unit) := by
    rw [close_eq]
    exact posts_sendAll (cleaning_batches _)
  exact .bind close.result fun _ _ => .bind (.ofExcept_any _) fun _ _ =>
    .bind (.ofExcept_any _) fun _ _ => .pure trivial

theorem posts_closeAfter
    (asked : Nat → List Instruction → Nat → Prop)
    {α : Type} (self : ProofAccounts) (result : Except Error α) :
    Within (World.Posts (Dispatched C asked)) (fun _ => True)
      (self.closeAfter result : Flow (World C) Error α) :=
  (cleans_closeAfter self result).along_mono fun _ _ posts =>
    posts.mono fun _ cleaning => cleaning.dispatched

/-! ## Consuming -/

variable {self : ProofAccounts} {start drawn : Nat}
  {instructions : List Instruction} {units : Nat}

theorem Settled.withoutTails
    (settled : self.Settled C start drawn) :
    self.withoutTails.Settled C start drawn where
  staged staged member := by
    obtain ⟨one, among, rfl⟩ := List.mem_map.mp member
    have was := settled.staged one among
    obtain ⟨instruction, record, verify, units, _⟩ := was.charged
    exact
      { held := was.held
        create := was.create
        verify := was.verify
        tail := fun _ impossible => by cases impossible
        charged := ⟨instruction, record, verify, units,
          fun _ impossible => by cases impossible⟩ }
  recorded staged member := by
    obtain ⟨one, among, rfl⟩ := List.mem_map.mp member
    exact settled.recorded one among
  draws := by
    have same : self.withoutTails.addresses = self.addresses := by
      simp [addresses, ProofAccounts.withoutTails]
    rw [same]
    exact settled.draws

theorem Settled.posts_build
    (settled : self.Settled C start drawn)
    (isAsked : asked drawn instructions units)
    (withTails : Bool) :
    Within (World.Posts (Dispatched C asked)) (Dispatch C asked)
      (self.build instructions units withTails :
        Flow (World C) Error (List Instruction)) := by
  refine .bind (posts_checkedUnits _) ?_
  rintro total rfl
  exact .pure (.consuming start drawn self instructions units withTails
    settled isAsked)

theorem Settled.posts_sendTails (settled : self.Settled C start drawn) :
    Within (World.Posts (Dispatched C asked)) (fun _ => True)
      (sendTails self.tails : Flow (World C) Error Unit) := by
  have writes : ∀ tail ∈ self.tails, Dispatched C asked [tail] := by
    intro tail member
    obtain ⟨staged, among, kept⟩ := List.mem_filterMap.mp member
    obtain ⟨_, record, _, _, tails⟩ := (settled.staged staged among).charged
    obtain ⟨offset, data, rfl, fits⟩ := tails tail kept
    exact ⟨.writing record offset data, fits⟩
  generalize self.tails = tails at writes
  induction tails with
  | nil => exact .pure trivial
  | cons tail rest inductionHypothesis =>
      exact .bind (World.posts_send (writes tail List.mem_cons_self))
        fun _ _ => inductionHypothesis fun other member =>
          writes other (List.mem_cons_of_mem _ member)

theorem posts_sendConsuming
    (self : ProofAccounts) {transaction : List Instruction}
    (dispatch : Dispatch C asked transaction) (signers : List Keypair) :
    Within (World.Posts (Dispatched C asked)) (fun _ => True)
      (self.sendConsuming transaction signers :
        Flow (World C) Error Receipt) := by
  unfold sendConsuming
  refine .bind (World.posts_fits transaction) fun fits measured => ?_
  split
  case isTrue small =>
      have dispatched : Dispatched C asked transaction :=
        ⟨dispatch, measured ▸ small⟩
      refine .bind (World.posts_send dispatched).result fun outcome _ => ?_
      cases outcome with
      | ok receipt => exact .pure trivial
      | error error => exact posts_closeAfter asked _ _
  case isFalse => exact posts_closeAfter asked _ _

theorem Settled.posts_consume
    (settled : self.Settled C start drawn)
    (asked : Nat → List Instruction → Nat → Prop)
    (isAsked : asked drawn instructions units)
    (signers : List Keypair) :
    Within (World.Posts (Dispatched C asked)) (fun _ => True)
      (self.consume instructions signers units :
        Flow (World C) Error Receipt) := by
  unfold consume
  refine .bind (settled.posts_build isAsked true)
    fun transaction dispatch =>
      .bind (World.posts_fits transaction) fun fits _ => ?_
  split
  · exact posts_sendConsuming self dispatch signers
  · refine .bind settled.posts_sendTails.result fun outcome _ => ?_
    cases outcome with
    | error error => exact posts_closeAfter asked _ _
    | ok done =>
        exact .bind (settled.withoutTails.posts_build isAsked false)
          fun transaction dispatch =>
            posts_sendConsuming self.withoutTails dispatch signers

end ProofAccounts
end Closing

/-! ## Verifying and staging -/

section Staging

/-- The tail that is kept back is a write of the record that fits. -/
theorem posts_writeChunks
    (asked : Nat → List Instruction → Nat → Prop)
    (record : Address) (bytes : Bytes) (offset : Nat) :
    Within (World.Posts (Dispatched C asked))
      (fun tail => ∀ write, tail = some write →
        ∃ offset data, write = .recordWrite record C.payer offset data ∧
          fitsInOneTransaction C.programs [write] C.payer = true)
      (writeChunks record bytes offset :
        Flow (World C) Error (Option Instruction)) := by
  fun_induction writeChunks record bytes offset with
  | case1 => exact .panicking
  | case2 => exact .fail
  | case3 offset _ rest found progress =>
      refine .pure ?_
      rintro _ ⟨⟩
      have fits := fits_recordChunk found progress
      rw [List.take_length] at fits
      exact ⟨offset, rest, rfl, fits⟩
  | case4 offset _ _ len found progress _ inductionHypothesis =>
      exact .bind
        (World.posts_send ⟨.writing .., fits_recordChunk found progress⟩)
        fun _ _ => inductionHypothesis
  | case5 =>
      refine .pure ?_
      rintro _ ⟨⟩

namespace ProofAccounts

theorem posts_verify
    (asked : Nat → List Instruction → Nat → Prop)
    (instruction : ProofInstruction) (proof : ProofData) :
    Within (Session.Posts (Dispatched C asked)) (fun _ => True)
      (verify instruction proof : Flow (Session C) Error Address) := by
  intro session
  unfold verify
  refine .bind (.zoom (World.ensures_newKeypair ?_))
  refine .bind (.zoom (.bind (World.ensures_rent fun lamports => .pure ?_)))
  have drawn := World.posts_draw (Dispatched C asked) session.world
  have unused : ∀ {reached : World C},
      session.world.Posts (Dispatched C asked) reached →
        session.Posts (Dispatched C asked) ⟨session.accounts, reached⟩ :=
    fun posts => ⟨posts, fun _ settled => settled.later posts.drawn⟩
  refine .bind (.zoom (World.ensures_fits (fun fits measured => ?_)
    ⟨unused drawn, fun _ _ => trivial⟩))
  cases fits with
  | false => exact .fail ⟨unused drawn, fun _ _ => trivial⟩
  | true =>
      have verifies : Dispatched C asked _ :=
        ⟨.verifying _ lamports (contextStateSize proof.contextSize)
          instruction proof.bytes (C.held_keypair session.world.drawn),
          measured⟩
      have posts := IsTrans.trans _ _ _ drawn
        (World.posts_deliver verifies [C.keypairs session.world.drawn])
      refine .bind (.zoom (World.ensures_send (fun _ _ => ?_) fun _ _ => ?_))
      · exact .bind (.update (.pure
          ⟨⟨posts, fun _ settled => settled.openContext⟩,
            fun _ _ => trivial⟩))
      · exact ⟨unused posts, fun _ _ => trivial⟩

/-- The end of staging: the tail is written, and a context is drawn and
tracked with nothing sent in between. -/
theorem posts_stageTail
    (asked : Nat → List Instruction → Nat → Prop)
    (instruction : ProofInstruction) (proof : ProofData) {record : Address}
    (offset : Nat) {session : Session C}
    (tracked : record ∈ session.accounts.records) :
    Ensures
      (do
        let tailWrite ←
          Session.onWorld (writeChunks record proof.bytes offset)
        let context ← Session.onWorld World.newKeypair
        let createContext ← Session.onWorld <|
          createContextAccount proof.contextSize context.pubkey
        Session.track fun accounts =>
          { accounts with
            staged := accounts.staged ++
              [{ context
                 tailWrite
                 create := createContext
                 verify :=
                   .verifyProofFromAccount instruction
                     (some (contextInfo context.pubkey C.payer)) record
                     RecordData.WRITABLE_START_INDEX
                 units := computeUnits instruction }] }
        pure context.pubkey : Flow (Session C) Error Address)
      session fun _ reached => session.Posts (Dispatched C asked) reached := by
  have writing : Ensures _ session.world _ :=
    posts_writeChunks asked record proof.bytes offset session.world
  refine .bind (.zoom (writing.mono ?_))
  rintro (stop | tailWrite) world ⟨posts, writes⟩
  · exact ⟨posts, fun _ settled => settled.later posts.drawn⟩
  refine .bind (.zoom (World.ensures_newKeypair ?_))
  refine .bind (.zoom (.bind (World.ensures_rent fun lamports => ?_)))
  refine .pure (.bind (.update (.pure ⟨IsTrans.trans _ _ _ posts
    (World.posts_draw _ _), fun start settled => ?_⟩)))
  refine (settled.later posts.drawn).stage ?_ ?_ rfl
  · exact
      { held := C.held_keypair _
        create := ⟨_, _, rfl⟩
        verify := ⟨instruction, _, rfl⟩
        tail := fun write kept => by
          obtain ⟨offset, data, isWrite, _⟩ := writes tailWrite rfl write kept
          exact ⟨_, offset, data, isWrite⟩
        charged := ⟨instruction, record, rfl, rfl, writes tailWrite rfl⟩ }
  · rintro _ _ _ _ ⟨⟩
    exact tracked

theorem posts_stageFromRecord
    (asked : Nat → List Instruction → Nat → Prop)
    (instruction : ProofInstruction) (proof : ProofData) :
    Within (Session.Posts (Dispatched C asked)) (fun _ => True)
      (stageFromRecord instruction proof :
        Flow (Session C) Error Address) := by
  intro session
  unfold stageFromRecord
  refine .bind (.zoom (World.ensures_newKeypair ?_))
  refine .bind (.zoom (World.ensures_rent fun lamports => ?_))
  have drawn := World.posts_draw (Dispatched C asked) session.world
  have unused : ∀ {reached : World C},
      session.world.Posts (Dispatched C asked) reached →
        session.Posts (Dispatched C asked) ⟨session.accounts, reached⟩ :=
    fun posts => ⟨posts, fun _ settled => settled.later posts.drawn⟩
  refine .bind (.zoom (ensures_foundOrPanic (fun offset found => ?_)
    ⟨unused drawn, fun _ _ => trivial⟩))
  have fits := fits_largestChunk found
    (fits_recordOpening_nil C.programs C.payer
      (C.keypairs session.world.drawn).pubkey lamports
      (recordSpace proof.bytes))
  have opens : Dispatched C asked _ :=
    ⟨.opening _ lamports _ _ (C.held_keypair session.world.drawn), fits⟩
  have posts := IsTrans.trans _ _ _ drawn
    (World.posts_deliver opens [C.keypairs session.world.drawn])
  refine .bind (.zoom (World.ensures_send (fun _ _ => ?_) fun _ _ => ?_))
  · refine .bind (.update ?_)
    refine (posts_stageTail asked instruction proof offset
      (List.mem_append_right _ (List.mem_singleton_self _))).mono
        fun _ _ moved => ⟨?_, fun _ _ => trivial⟩
    exact IsTrans.trans _ _ _
      ⟨posts, fun _ settled => settled.openRecord⟩ moved
  · exact ⟨unused posts, fun _ _ => trivial⟩

end ProofAccounts
end Staging
end Remit
