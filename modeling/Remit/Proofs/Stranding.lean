import Remit.Cluster.Quiet
import Remit.Proofs.Cleanup
import Remit.Proofs.Ownership

/-!
# What a failed batch strands

Cleanup stops at the first batch that fails.  The accounts of the batches
behind it are neither closed nor in any transaction that was sent.
-/

namespace Remit

open Flows

variable {C : Cluster}

/-- Sent in this order, every transaction lands, except perhaps the last. -/
def World.LandsAllButLast (world : World C) : List (List Instruction) → Prop
  | [] => True
  | transaction :: rest =>
      rest = [] ∨
        (world.sending transaction []).landed = true ∧
          (world.deliver transaction []).LandsAllButLast rest

/-- Every target is gone, except those that a transaction was to close which
was sent and failed. -/
def NoneStranded (targets : List Address) (sent : List (Sent C.State))
    (accounts : Accounts) : Prop :=
  ∀ address ∈ targets,
    accounts address = none ∨
      ∃ one ∈ sent, one.landed = false ∧
        address ∈ one.transaction.filterMap Instruction.closes

/-- The accounts that a batch closes. -/
def batchTargets (batch : List (Instruction × Nat)) : List Address :=
  batch.filterMap (·.1.closes)

theorem batchTransaction_closes (batch : List (Instruction × Nat)) :
    (batchTransaction batch).filterMap Instruction.closes =
      batchTargets batch := by
  simp only [batchTransaction, withComputeUnitLimit, batchTargets,
    List.filterMap_cons, Instruction.closes, List.filterMap_map]
  rfl

theorem batchTargets_append (first second : List (Instruction × Nat)) :
    batchTargets (first ++ second) =
      batchTargets first ++ batchTargets second :=
  List.filterMap_append ..

section Batch

variable {payer : Address} {batch : List (Instruction × Nat)}

theorem closes_of_isClose
    (closes : ∀ item ∈ batch, IsClose payer item) :
    (batch.map Prod.fst).map Instruction.closes =
      (batchTargets batch).map some := by
  induction batch with
  | nil => rfl
  | cons item rest inductionHypothesis =>
      have others := inductionHypothesis fun other member =>
        closes other (List.mem_cons_of_mem _ member)
      obtain ⟨target, known⟩ : ∃ target, item.1.closes = some target := by
        rcases closes item List.mem_cons_self with ⟨_, rfl⟩ | ⟨_, rfl⟩
        · exact ⟨_, rfl⟩
        · exact ⟨_, rfl⟩
      simp only [batchTargets, List.map_cons, List.filterMap_cons, known]
      rw [others]
      rfl

theorem batchTargets_ne_nil
    (closes : ∀ item ∈ batch, IsClose payer item) (filled : batch ≠ []) :
    batchTargets batch ≠ [] := by
  intro empty
  have lengths := congrArg List.length (closes_of_isClose closes)
  rw [empty] at lengths
  exact filled (by simpa using lengths)

theorem batchTargets_flatten_eq_nil
    {batches : List (List (Instruction × Nat))}
    (closes : ∀ item ∈ batches.flatten, IsClose payer item)
    (filled : ∀ batch ∈ batches, batch ≠ []) :
    batchTargets batches.flatten = [] ↔ batches = [] := by
  constructor
  · intro empty
    by_contra several
    apply batchTargets_ne_nil closes _ empty
    obtain ⟨first, among⟩ := List.exists_mem_of_ne_nil _ several
    obtain ⟨item, member⟩ := List.exists_mem_of_ne_nil _ (filled first among)
    exact List.ne_nil_of_mem (List.mem_flatten_of_mem among member)
  · intro none_
    rw [none_]
    rfl

end Batch

section OneMore

variable {closed others : List Address} {one : Sent C.State}
  {sent : List (Sent C.State)} {accounts : Accounts}

/-- A transaction that landed strands nothing itself. -/
theorem noneStranded_landed
    (landed : one.landed = true)
    (gone : ∀ address ∈ closed, accounts address = none) :
    NoneStranded (closed ++ others) (one :: sent) accounts ↔
      NoneStranded others sent accounts := by
  constructor
  · intro none_ address member
    rcases none_ address (List.mem_append_right _ member) with
      blank | ⟨other, among, failed, closing⟩
    · exact .inl blank
    · rcases List.mem_cons.mp among with rfl | among
      · rw [landed] at failed
        cases failed
      · exact .inr ⟨other, among, failed, closing⟩
  · intro none_ address member
    rcases List.mem_append.mp member with here | there
    · exact .inl (gone address here)
    · rcases none_ address there with
        blank | ⟨other, among, failed, closing⟩
      · exact .inl blank
      · exact .inr
          ⟨other, List.mem_cons_of_mem _ among, failed, closing⟩

/-- A transaction that failed as the last one strands whatever it was not to
close. -/
theorem noneStranded_failed
    (failed : one.landed = false)
    (closing : one.transaction.filterMap Instruction.closes = closed)
    (apart : ∀ address ∈ closed, address ∉ others)
    (present : ∀ address ∈ others, accounts address ≠ none) :
    NoneStranded (closed ++ others) [one] accounts ↔ others = [] := by
  constructor
  · intro none_
    by_contra several
    obtain ⟨address, behind⟩ := List.exists_mem_of_ne_nil _ several
    rcases none_ address (List.mem_append_right _ behind) with
      blank | ⟨other, among, _, closes⟩
    · exact present address behind blank
    · rw [List.mem_singleton.mp among, closing] at closes
      exact apart address closes behind
  · intro noMore address member
    rw [noMore, List.append_nil] at member
    refine .inr ⟨one, List.mem_singleton_self one, failed, ?_⟩
    rw [closing]
    exact member

end OneMore

/-- A landed batch leaves exactly the other accounts open. -/
theorem Open.closeBatch
    {world : World C} {batch : List (Instruction × Nat)}
    {others : List Address} {receipt : Receipt}
    (closes : ∀ item ∈ batch, IsClose C.payer item)
    (isOpen : Open C (batchTargets batch ++ others) world.accounts)
    (landed :
      (C.send world.state (batchTransaction batch) []).outcome =
        .ok receipt) :
    Open C others (world.deliver (batchTransaction batch) []).accounts ∧
      ∀ address ∈ batchTargets batch,
        (world.deliver (batchTransaction batch) []).accounts address =
          none := by
  obtain ⟨before, after, outside, ran, later⟩ := landed_steps landed
  have here := isOpen.outsiders outside
  obtain ⟨_, limited, ran⟩ := runTransaction_cons_eq_some ran
  cases limited
  have emptied := runTransaction_closes (closes_of_isClose closes) ran
  obtain ⟨_, othersDistinct, apart⟩ := List.nodup_append.mp here.distinct
  have afterwards : Open C others after :=
    { distinct := othersDistinct
      held := fun address member =>
        here.held address (List.mem_append_right _ member)
      payers := fun address member => by
        have notHere : address ∉ batchTargets batch := fun closed =>
          apart address closed address member rfl
        rw [emptied address, if_neg notHere]
        exact here.payers address (List.mem_append_right _ member) }
  refine ⟨afterwards.outsiders later, fun address member => ?_⟩
  apply later.empty (here.held address (List.mem_append_left _ member))
  rw [emptied address, if_pos member]

/-- An empty address that no outsider can sign for stays empty while batches
are sent. -/
theorem empty_sendAll
    {batches : List (List (Instruction × Nat))} {address : Address}
    (closes : ∀ item ∈ batches.flatten, IsClose C.payer item)
    (held : C.held address) :
    ∀ world : World C, world.accounts address = none →
      Flow.Ensures (sendAll (batches.map batchTransaction)) world
        fun _ reached => reached.accounts address = none := by
  induction batches with
  | nil => exact fun world blank => .pure blank
  | cons batch rest inductionHypothesis =>
      intro world blank
      rw [List.map_cons]
      unfold sendAll
      refine .bind (World.ensures_send ?_ ?_)
      · intro receipt landed
        refine inductionHypothesis (fun item member => closes item (by
          rw [List.flatten_cons]
          exact List.mem_append_right _ member)) _ ?_
        obtain ⟨before, after, outside, ran, later⟩ := landed_steps landed
        obtain ⟨_, limited, ran⟩ := runTransaction_cons_eq_some ran
        cases limited
        have emptied := runTransaction_closes
          (closes_of_isClose fun item member => closes item (by
            rw [List.flatten_cons]
            exact List.mem_append_left _ member)) ran
        apply later.empty held
        rw [emptied address]
        split
        · rfl
        · exact outside.empty held blank
      · intro error failed
        exact (failed_steps failed).empty held blank

/-- Nothing is stranded exactly when no batch fails but the last. -/
theorem stranded_sendAll
    {batches : List (List (Instruction × Nat))}
    (closes : ∀ item ∈ batches.flatten, IsClose C.payer item)
    (filled : ∀ batch ∈ batches, batch ≠ []) :
    ∀ world : World C,
      Open C (batchTargets batches.flatten) world.accounts →
      Flow.Ensures (sendAll (batches.map batchTransaction)) world
        fun _ reached =>
          ∃ sent, reached.sent = world.sent ++ sent ∧
            (NoneStranded (batchTargets batches.flatten) sent
                reached.accounts ↔
              world.LandsAllButLast (batches.map batchTransaction)) := by
  induction batches with
  | nil =>
      intro world isOpen
      exact .pure ⟨[], (List.append_nil _).symm, by
        simp [NoneStranded, World.LandsAllButLast, batchTargets]⟩
  | cons batch rest inductionHypothesis =>
      intro world isOpen
      rw [List.flatten_cons] at closes
      rw [List.flatten_cons, batchTargets_append] at isOpen ⊢
      have closesFirst : ∀ item ∈ batch, IsClose C.payer item :=
        fun item member => closes item (List.mem_append_left _ member)
      have closesRest : ∀ item ∈ rest.flatten, IsClose C.payer item :=
        fun item member => closes item (List.mem_append_right _ member)
      have filledRest : ∀ other ∈ rest, other ≠ [] := fun other member =>
        filled other (List.mem_cons_of_mem _ member)
      rw [List.map_cons]
      unfold sendAll
      refine .bind (World.ensures_send ?_ ?_)
      · intro receipt landed
        obtain ⟨stillOpen, gone⟩ := isOpen.closeBatch closesFirst landed
        have onward := inductionHypothesis closesRest filledRest _ stillOpen
        have stayGone : Flow.Ensures (sendAll (rest.map batchTransaction))
            (world.deliver (batchTransaction batch) []) fun _ reached =>
              ∀ closed : { address // address ∈ batchTargets batch },
                reached.accounts closed.1 = none :=
          .all fun closed => empty_sendAll closesRest
            (isOpen.held _ (List.mem_append_left _ closed.2)) _
            (gone _ closed.2)
        refine (onward.and stayGone).mono fun outcome reached ended => ?_
        obtain ⟨⟨sent, grown, stranded⟩, closed⟩ := ended
        refine ⟨world.sending (batchTransaction batch) [] :: sent,
          grown.trans (List.append_assoc ..), ?_⟩
        have didLand := World.landed_sending landed
        rw [noneStranded_landed didLand fun address member =>
            closed ⟨address, member⟩,
          stranded, World.LandsAllButLast, didLand]
        constructor
        · intro onwards
          exact .inr ⟨rfl, onwards⟩
        · rintro (last | ⟨_, onwards⟩)
          · rw [last]
            trivial
          · exact onwards
      · intro error failed
        refine ⟨[world.sending (batchTransaction batch) []], rfl, ?_⟩
        have notLanded := World.not_landed_sending failed
        have stillOpen := isOpen.failed failed
        obtain ⟨_, _, apart⟩ := List.nodup_append.mp isOpen.distinct
        have present : ∀ address ∈ batchTargets rest.flatten,
            (world.deliver (batchTransaction batch) []).accounts address ≠
              none := by
          intro address behind blank
          obtain ⟨account, found, _⟩ :=
            stillOpen.payers address (List.mem_append_right _ behind)
          rw [blank] at found
          cases found
        rw [noneStranded_failed notLanded (batchTransaction_closes batch)
            (fun address here there => apart address here address there rfl)
            present,
          batchTargets_flatten_eq_nil closesRest filledRest,
          World.LandsAllButLast, notLanded, List.map_eq_nil_iff]
        simp

/-- Cleanup leaves none of the tracked accounts behind exactly when no batch
fails but the last.  What verifying and staging have tracked is open by
`open_stageAll`. -/
theorem cleanup_strands_none_iff
    {α : Type} (C : Cluster) (self : ProofAccounts) (world : World C)
    (result : Except Error α) (isOpen : Open C self.targets world.accounts) :
    Flow.Ensures (self.closeAfter result) world fun _ reached =>
      ∃ sent, reached.sent = world.sent ++ sent ∧
        (NoneStranded self.targets sent reached.accounts ↔
          world.LandsAllButLast
            ((self.batches C.programs C.payer).map batchTransaction)) := by
  have flattened :
      (self.batches C.programs C.payer).flatten = self.closing C.payer :=
    Packing.greedy_flatten [] (self.closing C.payer)
  have targets : batchTargets (self.closing C.payer) = self.targets := by
    simp [batchTargets, ProofAccounts.closing, ProofAccounts.targets,
      List.filterMap_append, List.filterMap_map, Instruction.closes,
      contextInfo]
  have closed := stranded_sendAll (C := C)
    (by rw [flattened]; exact self.isClose_closing C.payer)
    (self.batches_ne_nil C.programs C.payer) world
    (by rw [flattened, targets]; exact isOpen)
  rw [flattened, targets] at closed
  have cleanup : Flow.Ensures
      (({ self with staged := [] } : ProofAccounts).close) world
      fun _ reached =>
        ∃ sent, reached.sent = world.sent ++ sent ∧
          (NoneStranded self.targets sent reached.accounts ↔
            world.LandsAllButLast
              ((self.batches C.programs C.payer).map batchTransaction)) := by
    rw [ProofAccounts.close_eq]
    exact closed
  unfold ProofAccounts.closeAfter
  refine .bind (.result (cleanup.mono ?_))
  rintro ((error | _) | ⟨⟩) reached ended
  · exact .bind (.ofExcept (fun _ _ => .bind (.fail ended)) fun _ _ => ended)
  · exact ended
  · exact .bind (.ofExcept (fun _ _ => .bind (.pure (.pure ended)))
      fun _ _ => ended)

/-! ## An outage -/

namespace Quiet

/-- The cluster while no transaction gets through. -/
def outage : Cluster where
  programs := programs
  State := State
  Data := TokenData
  interface := Layout.interface
  payer := payer
  keypairs := keypair
  held _ := True
  accountData state address := state.tokens address
  lamports _ _ := 0
  epoch _ := 0
  minimumBalanceForRentExemption _ space := space
  send state _ _ :=
    ⟨.error (.transaction (.other 0) []), state, state, state⟩
  accounts := State.accounts
  held_payer := trivial
  held_keypair _ := trivial
  outsiders_before _ _ _ := .refl _
  landed _ _ _ _ landed := by cases landed
  not_landed _ _ _ _ _ := rfl
  outsiders_after _ _ _ := .refl _

/-- One context more than one transaction can close. -/
def crowd : ProofAccounts where
  contexts := (List.range 27).map fun number => (keypair number).pubkey

def crowded : outage.State where
  accounts address :=
    if address ∈ crowd.contexts then
      some (.context payer .verifyPubkeyValidity [])
    else none
  tokens _ := none

theorem crowd_open :
    Open outage crowd.targets
      (World.initial crowded 27 : World outage).accounts where
  distinct := by
    have injective : ∀ left ∈ List.range 27, ∀ right ∈ List.range 27,
        (keypair left).pubkey = (keypair right).pubkey → left = right := by
      intro left leftSmall right rightSmall same
      have leftBound := List.mem_range.mp leftSmall
      have rightBound := List.mem_range.mp rightSmall
      apply keypair_injOn (by omega) (by omega)
      exact congrArg Keypair.mk same
    have contexts : crowd.contexts.Nodup := List.nodup_range.map_on injective
    simpa [ProofAccounts.targets, crowd] using contexts
  held _ _ := trivial
  payers address member := by
    have tracked : address ∈ crowd.contexts := by
      simpa [ProofAccounts.targets, crowd] using member
    exact ⟨_, if_pos tracked, .context _ _⟩

/-- The cleanup of the crowd. -/
def evacuated : World outage :=
  (Flow.exec (crowd.closeAfter (.ok ())) (World.initial crowded 27)).2

set_option maxRecDepth 4000 in
/-- The first transaction fails, and the last context stays behind without
being in any. -/
theorem outage_strands_a_context :
    Open outage crowd.targets
        (World.initial crowded 27 : World outage).accounts ∧
      ¬ Flow.Ensures (crowd.closeAfter (.ok ()) : Flow _ Error Unit)
        (World.initial crowded 27 : World outage) fun _ reached =>
          NoneStranded crowd.targets reached.sent reached.accounts := by
  refine ⟨crowd_open, fun ensured => ?_⟩
  have none_ := ensured.holds
  have same :
      (Flow.exec (crowd.closeAfter (.ok ()) : Flow _ Error Unit)
        (World.initial crowded 27 : World outage)).2 = evacuated := rfl
  rw [same] at none_
  have left :
      evacuated.accounts (keypair 26).pubkey ≠ none ∧
        ∀ one ∈ evacuated.sent, (keypair 26).pubkey ∉
          one.transaction.filterMap Instruction.closes := by
    decide +kernel
  rcases none_ (keypair 26).pubkey (by decide +kernel) with
    gone | ⟨one, among, _, closing⟩
  · exact left.1 gone
  · exact left.2 one among closing

theorem crowd_strands_none_iff :
    Flow.Ensures (crowd.closeAfter (.ok ()) : Flow _ Error Unit)
      (World.initial crowded 27 : World outage) fun _ reached =>
        ∃ sent, reached.sent = (World.initial crowded 27).sent ++ sent ∧
          (NoneStranded crowd.targets sent reached.accounts ↔
            (World.initial crowded 27 : World outage).LandsAllButLast
              ((crowd.batches outage.programs outage.payer).map
                batchTransaction)) :=
  cleanup_strands_none_iff outage crowd (World.initial crowded 27) (.ok ())
    crowd_open

end Quiet
end Remit
