import Remit.Proofs.Staging

/-!
# Consuming and closing

What `consume` and `closeAfter` guarantee.  When `consume` returns, its
transaction landed and every proof account is gone.  When it fails, the error
is that of the first failing send, and the accounts are gone unless a cleanup
transaction failed as well.
-/

namespace Remit

open Flows Overwrite

variable {C : Cluster}

/-! ## Closing -/

/-- What `sendBatches` leaves behind: nothing, unless one of its own sends
failed. -/
def CleansUp (world : World C) (outcome : Except (Stop Error) Unit)
    (reached : World C) : Prop :=
  ∃ cleanup,
    reached.sent = world.sent ++ cleanup ∧
      (∀ one ∈ cleanup, Plain one.transaction) ∧
      match outcome with
      | .ok () => Residue reached []
      | .error (.error _) => ∃ one ∈ cleanup, one.landed = false
      | .error .panic => True

theorem CleansUp.panic (world : World C) :
    CleansUp world (.error .panic) world :=
  ⟨[], (List.append_nil _).symm, by simp, trivial⟩

theorem ensures_budgeted
    {world : World C} {batch : List (Instruction × Nat)}
    {post : Except (Stop Error) (List Instruction) → World C → Prop}
    (built : ∀ units,
      post (.ok (withComputeUnitLimit units (batch.map Prod.fst))) world)
    (panicked : post (.error .panic) world) :
    Flow.Ensures (budgeted batch) world post :=
  .bind (ensures_checkedUnits (.pure (built _)) panicked)

theorem ensures_overflows
    {world : World C} {batch : List (Instruction × Nat)}
    {post : Except (Stop Error) Bool → World C → Prop}
    (answered : ∀ answer, post (.ok answer) world)
    (panicked : post (.error .panic) world) :
    Flow.Ensures (overflows batch) world post := by
  unfold overflows
  split
  · refine .bind (ensures_budgeted (fun units => ?_) panicked)
    exact .bind
      (World.ensures_fits (fun fits _ => .pure (answered (!fits))) panicked)
  · exact .pure (answered false)

/-- A batch of close instructions and the accounts they close. -/
def Closes (batch : List (Instruction × Nat)) (targets : List Address) :
    Prop :=
  batch.map (fun item => item.1.closes) = targets.map some

theorem Closes.append
    {first second : List (Instruction × Nat)}
    {firstTargets secondTargets : List Address}
    (firstCloses : Closes first firstTargets)
    (secondCloses : Closes second secondTargets) :
    Closes (first ++ second) (firstTargets ++ secondTargets) := by
  unfold Closes at *
  rw [List.map_append, List.map_append, firstCloses, secondCloses]

private theorem plain_of_closes
    {batch : List (Instruction × Nat)} {targets : List Address}
    (closes : Closes batch targets) (units : Nat) :
    Plain (withComputeUnitLimit units (batch.map Prod.fst)) ∧
      created (withComputeUnitLimit units (batch.map Prod.fst)) = [] := by
  have closing : ∀ instruction ∈ batch.map Prod.fst,
      ∃ target, instruction.closes = some target := by
    intro instruction member
    obtain ⟨item, itemMember, rfl⟩ := List.mem_map.mp member
    have inTargets :
        item.1.closes ∈ batch.map fun item => item.1.closes :=
      List.mem_map.mpr ⟨item, itemMember, rfl⟩
    rw [closes] at inTargets
    obtain ⟨target, _, same⟩ := List.mem_map.mp inTargets
    exact ⟨target, same.symm⟩
  constructor
  · apply List.all_eq_true.mpr
    intro instruction member
    rcases List.mem_cons.mp member with rfl | member
    · rfl
    · obtain ⟨_, closing⟩ := closing instruction member
      cases instruction <;> first | rfl | cases closing
  · apply List.filterMap_eq_nil_iff.mpr
    intro instruction member
    rcases List.mem_cons.mp member with rfl | member
    · rfl
    · obtain ⟨_, closing⟩ := closing instruction member
      cases instruction <;> first | rfl | cases closing

/-- A landed batch takes its accounts off the list of open ones. -/
theorem Residue.closeBatch
    {world : World C} {batch : List (Instruction × Nat)}
    {targets others : List Address} {units : Nat} {receipt : Receipt}
    (residue : Residue world (targets ++ others))
    (closes : Closes batch targets)
    (landed :
      (C.send world.state
        (withComputeUnitLimit units (batch.map Prod.fst)) []).outcome =
          .ok receipt) :
    Residue
      (world.deliver (withComputeUnitLimit units (batch.map Prod.fst)) [])
      others := by
  apply residue.landed landed
  intro before after _ ran
  obtain ⟨_, limited, ran⟩ := runTransaction_cons_eq_some ran
  cases limited
  have emptied :=
    runTransaction_closes (by rw [List.map_map]; exact closes) ran
  refine ⟨?_, ?_⟩
  · intro address settled
    rw [emptied address]
    split
    case isTrue => exact Or.inl rfl
    case isFalse untouched =>
        rcases settled with blank | member
        · exact Or.inl blank
        · rcases List.mem_append.mp member with here | there
          · exact absurd here untouched
          · exact Or.inr there
  · rw [(plain_of_closes closes units).2]
    simp

/-- One more send in front of a cleanup. -/
theorem CleansUp.cons
    {world : World C} {transaction : List Instruction} {signers : List Keypair}
    {outcome : Except (Stop Error) Unit} {reached : World C}
    (plain : Plain transaction)
    (later : CleansUp (world.deliver transaction signers) outcome reached) :
    CleansUp world outcome reached := by
  obtain ⟨cleanup, sent, plainLater, ended⟩ := later
  refine ⟨world.sending transaction signers :: cleanup,
    sent.trans (List.append_assoc ..), ?_, ?_⟩
  · rintro other (_ | ⟨_, member⟩)
    · exact plain
    · exact plainLater other member
  · rcases outcome with (error | _) | ⟨⟩
    · obtain ⟨one, member, failed⟩ := ended
      exact ⟨one, List.mem_cons_of_mem _ member, failed⟩
    · trivial
    · exact ended

theorem CleansUp.failed
    {world : World C} {transaction : List Instruction} {signers : List Keypair}
    {error : Error}
    (plain : Plain transaction)
    (failed :
      (C.send world.state transaction signers).outcome = .error error) :
    CleansUp world (.error (.error error))
      (world.deliver transaction signers) := by
  refine ⟨[world.sending transaction signers], rfl, ?_, _,
    List.mem_singleton_self _, ?_⟩
  · intro one member
    rw [List.mem_singleton.mp member]
    exact plain
  · exact World.not_landed_sending failed

theorem ensures_sendBatches
    {world : World C} {batch rest : List (Instruction × Nat)}
    {targets others : List Address}
    (residue : Residue world (targets ++ others))
    (closes : Closes batch targets) (laterCloses : Closes rest others) :
    Flow.Ensures (sendBatches batch rest) world (CleansUp world) := by
  induction rest generalizing world batch targets others with
  | nil =>
      have noOthers : others = [] := by
        simpa [Closes] using laterCloses.symm
      rw [noOthers] at residue
      unfold sendBatches
      split
      case isTrue =>
          refine .bind (ensures_budgeted (fun units => ?_)
            (.panic world))
          have plain := (plain_of_closes closes units).1
          refine .bind (World.ensures_send ?_ ?_)
          · intro receipt landed
            exact .pure (.cons plain
              ⟨[], (List.append_nil _).symm, by simp,
                residue.closeBatch closes landed⟩)
          · intro error failed
            exact .failed plain failed
      case isFalse blank =>
          have noBatch : batch = [] := by simpa using blank
          subst noBatch
          have noTargets : targets = [] := by
            simpa [Closes] using closes.symm
          rw [noTargets] at residue
          exact .pure ⟨[], (List.append_nil _).symm, by simp, residue⟩
  | cons item rest inductionHypothesis =>
      cases others with
      | nil => simp [Closes] at laterCloses
      | cons target others =>
          simp only [Closes, List.map_cons, List.cons.injEq] at laterCloses
          have first : Closes [item] [target] := by
            simp [Closes, laterCloses.1]
          unfold sendBatches
          refine .bind (ensures_overflows (fun answer => ?_) (.panic world))
          cases answer with
          | true =>
              refine .bind (ensures_budgeted (fun units => ?_)
                (.panic world))
              have plain := (plain_of_closes closes units).1
              refine .bind (World.ensures_send ?_ ?_)
              · intro receipt landed
                have remaining := residue.closeBatch closes landed
                exact (inductionHypothesis remaining first
                  laterCloses.2).mono fun _ _ => .cons plain
              · intro error failed
                exact .failed plain failed
          | false =>
              refine inductionHypothesis ?_ (closes.append first)
                laterCloses.2
              rwa [List.append_assoc]

namespace ProofAccounts

theorem closes_closing (self : ProofAccounts) (payer : Address) :
    Closes (self.closing payer) (self.contexts ++ self.records) := by
  simp [Closes, closing, Instruction.closes, contextInfo, Function.comp_def]

end ProofAccounts

/-- How an operation ends that failed with `error` after the sends `main`. -/
def Abandons {α : Type} (error : Error) (main : List (Sent C.State))
    (outcome : Except (Stop Error) α) (reached : World C) : Prop :=
  ∃ cleanup,
    reached.sent = main ++ cleanup ∧
      (∀ one ∈ cleanup, Plain one.transaction) ∧
      match outcome with
      | .ok _ => False
      | .error (.error returned) =>
          returned = error ∧
            (Residue reached [] ∨ ∃ one ∈ cleanup, one.landed = false)
      | .error .panic => True

/-- `closeAfter` hands the error back, whatever becomes of the cleanup. -/
theorem ensures_closeAfter
    {α : Type} {world : World C} (self : ProofAccounts) (error : Error)
    (residue : Residue world (self.contexts ++ self.records)) :
    Flow.Ensures (self.closeAfter (.error error : Except Error α)) world
      (Abandons error world.sent) := by
  unfold ProofAccounts.closeAfter
  have closed := ensures_sendBatches
    (show Residue world ([] ++ (self.contexts ++ self.records)) from residue)
    (show Closes [] [] from rfl)
    (({ self with staged := [] } : ProofAccounts).closes_closing C.payer)
  refine .bind (.result (closed.mono ?_))
  rintro ((closeError | _) | ⟨⟩) reached ⟨cleanup, sent, plain, ended⟩
  · exact .bind (.fail ⟨cleanup, sent, plain, rfl, Or.inr ended⟩)
  · exact ⟨cleanup, sent, plain, trivial⟩
  · exact .bind (.fail ⟨cleanup, sent, plain, rfl, Or.inl ended⟩)

/-! ## Consuming -/

/-- `one` is the consuming transaction of the proofs in `log`, sent after
`earlier`: the chain held the records as far as the log says, and what is
missing from them travels along. -/
structure Consumption (log : ProofLog) (instructions : List Instruction)
    (signers : List Keypair) (earlier : List (Sent C.State))
    (one : Sent C.State) : Prop where
  tracked : Tracked C.programs C.payer (C.accounts one.delivery.before) log
  laid : ∀ proof ∈ log.staged,
    Tiles proof.bytes 0
      (landedWrites proof.record earlier ++ proof.keptBack)
  shape : ∃ units withTails,
    one.transaction =
        withComputeUnitLimit units
          (log.proofAccounts.consuming C.payer instructions withTails) ∧
      ∀ proof ∈ log.staged,
        withTails = false → proof.staged.tailWrite = none
  signed : one.signers =
    signers ++ log.proofAccounts.staged.map (·.context)
  delivered : ∃ s, one.delivery = C.send s one.transaction one.signers

/-- The sends of `consume` before any cleanup, when it failed with `error`: it
stopped before the consuming transaction, or that transaction failed. -/
def Fails (base : List (Sent C.State)) (log : ProofLog)
    (instructions : List Instruction) (signers : List Keypair)
    (error : Error) (main : List (Sent C.State)) : Prop :=
  Stopped base error main ∨
    ∃ used earlier one,
      (used = log ∨ used = log.withoutTails) ∧
        main = earlier ++ [one] ∧ Clean base earlier ∧
        Consumption used instructions signers earlier one ∧
        one.delivery.outcome = .error error

/-- How `consume` may end.  The log is the one it was called with, or that log
once its tails were written. -/
def Finishes (base : List (Sent C.State)) (log : ProofLog)
    (instructions : List Instruction) (signers : List Keypair)
    (outcome : Except (Stop Error) Receipt) (reached : World C) : Prop :=
  match outcome with
  | .ok receipt =>
      ∃ used earlier one,
        (used = log ∨ used = log.withoutTails) ∧
          reached.sent = earlier ++ [one] ∧ Clean base earlier ∧
          Consumption used instructions signers earlier one ∧
          one.delivery.outcome = .ok receipt ∧
          ((∀ instruction ∈ instructions, instruction.Inert) →
            Residue reached [])
  | .error stop =>
      (stop = .panic ∧ Clean base reached.sent) ∨
        ∃ error main,
          Fails base log instructions signers error main ∧
            Abandons error main
              (.error stop : Except (Stop Error) Receipt) reached

section Consume

variable {world : World C} {log : ProofLog} {instructions : List Instruction}
  {signers : List Keypair} {base : List (Sent C.State)}

/-- An error after which only the cleanup follows. -/
theorem Finishes.abandon
    {error : Error} {outcome : Except (Stop Error) Receipt} {reached : World C}
    {main : List (Sent C.State)}
    (fails : Fails base log instructions signers error main)
    (abandoned : Abandons error main outcome reached) :
    Finishes base log instructions signers outcome reached := by
  cases outcome with
  | ok receipt => exact abandoned.choose_spec.2.2.elim
  | error stop => exact Or.inr ⟨error, main, fails, abandoned⟩

/-- A tail that lands completes its record. -/
theorem Sound.landTail
    {finished rest : List StagedProof} {proof : StagedProof}
    {tail : Instruction} {receipt : Receipt}
    (sound : Sound world { log with staged := finished ++ proof :: rest })
    (kept : proof.staged.tailWrite = some tail)
    (landed : (C.send world.state [tail] []).outcome = .ok receipt) :
    Sound (world.deliver [tail] [])
      { log with staged := finished ++ proof.withoutTail :: rest } := by
  have carried := sound.tracked.staged proof (by simp)
  obtain ⟨position, payload, _, _, _, noTail | tail_eq⟩ := carried.written
  · rw [noTail.1] at kept
    cases kept
  rw [kept] at tail_eq
  cases tail_eq
  have free := sound.tracked.others_apart
  have elsewhere : ∀ record, record ≠ proof.record →
      writesTo record
        [.recordWrite proof.record C.payer position
          (proof.bytes.drop position)] = [] := by
    intro record different
    simp [writesTo, Instruction.writeTo, different.symm]
  refine sound.landed landed (fun _ member => member) ?_ ?_ ?_ ?_ ?_
  · intro address creation
    cases creation
  · intro before after tracked ran
    rw [runTransaction_singleton] at ran
    refine ⟨tracked.landTail kept ran, ?_⟩
    intro address vacant
    left
    have completed := (tracked.staged proof (by simp)).landTail kept ran
    obtain ⟨_, found⟩ := (tracked.staged proof (by simp)).isRecord
    rw [completed, Function.update_of_ne, vacant]
    rintro rfl
    rw [found] at vacant
    cases vacant
  · intro other member
    have others : ∀ other ∈ finished ++ rest,
        Tiles other.bytes 0
          (landedWrites other.record world.sent ++
            writesTo other.record
              [.recordWrite proof.record C.payer position
                (proof.bytes.drop position)] ++ other.keptBack) := by
      intro other member
      rw [elsewhere _ (free other member), List.append_nil]
      apply sound.laid other
      rcases List.mem_append.mp member with before | behind
      · simp [before]
      · simp [behind]
    rcases List.mem_append.mp member with before | behind
    · exact others other (List.mem_append_left _ before)
    · rcases List.mem_cons.mp behind with rfl | behind
      · have laid := sound.laid proof (by simp)
        simp only [StagedProof.keptBack, kept] at laid
        simpa [StagedProof.keptBack, StagedProof.withoutTail, writesTo]
          using laid
      · exact others other (List.mem_append_right _ behind)
  · intro record untracked
    refine ⟨untracked, elsewhere record ?_⟩
    rintro rfl
    exact untracked (sound.tracked.recorded proof (by simp))
  · intro other member
    rcases List.mem_append.mp member with before | behind
    · exact sound.contextsHeld other (by simp [before])
    · rcases List.mem_cons.mp behind with rfl | behind
      · exact sound.contextsHeld proof (by simp)
      · exact sound.contextsHeld other (by simp [behind])

/-- The tails are written one after another; if one fails, the accounts that
are open are still the tracked ones. -/
theorem ensures_sendTails
    {finished rest : List StagedProof}
    (sound : Sound world { log with staged := finished ++ rest })
    (clean : Clean base world.sent) :
    Flow.Ensures
      (ProofAccounts.sendTails (rest.filterMap (·.staged.tailWrite))) world
      fun outcome reached =>
        match outcome with
        | .ok () =>
            Sound reached
                { log with
                  staged := finished ++ rest.map StagedProof.withoutTail } ∧
              Clean base reached.sent
        | .error (.error error) =>
            Residue reached log.targets ∧ Stopped base error reached.sent
        | .error .panic => False := by
  induction rest generalizing world finished with
  | nil => exact .pure ⟨sound, clean⟩
  | cons proof rest inductionHypothesis =>
      rcases kept : proof.staged.tailWrite with _ | tail
      · have same : proof.withoutTail = proof := by
          obtain ⟨⟨_, _, _, _, _⟩, _, _, _⟩ := proof
          cases kept
          rfl
        have skipped :
            (proof :: rest).filterMap (·.staged.tailWrite) =
              rest.filterMap (·.staged.tailWrite) := by
          simp [kept]
        rw [skipped, List.map_cons, same, List.append_cons]
        rw [List.append_cons] at sound
        exact inductionHypothesis sound clean
      · have taken :
            (proof :: rest).filterMap (·.staged.tailWrite) =
              tail :: rest.filterMap (·.staged.tailWrite) := by
          simp [kept]
        rw [taken, List.map_cons, List.append_cons]
        have plain : Plain [tail] := by
          obtain ⟨_, _, _, _, _, noTail | tail_eq⟩ :=
            (sound.tracked.staged proof (by simp)).written
          · rw [noTail.1] at kept
            cases kept
          · rw [kept] at tail_eq
            cases tail_eq
            rfl
        refine .bind (World.ensures_send ?_ ?_)
        · intro receipt landed
          have landedSound := sound.landTail kept landed
          rw [List.append_cons] at landedSound
          exact inductionHypothesis landedSound
            (clean.landed_deliver plain landed)
        · intro error failed
          exact ⟨(sound.failed failed).residue,
            clean.stopped_deliver plain failed⟩

/-- The consuming transaction creates the staged contexts and nothing else. -/
theorem created_consuming
    {programs : Programs} {payer : Address} {accounts : Accounts}
    {units : Nat} {withTails : Bool}
    (tracked : Tracked programs payer accounts log)
    (inert : ∀ instruction ∈ instructions, instruction.Inert) :
    ∀ address ∈ created
        (withComputeUnitLimit units
          (log.proofAccounts.consuming payer instructions withTails)),
      ∃ proof ∈ log.staged, address = proof.context := by
  intro address member
  obtain ⟨instruction, member, creation⟩ := List.mem_filterMap.mp member
  rw [ProofLog.consuming_eq] at member
  simp only [withComputeUnitLimit, ProofLog.closings, List.mem_cons,
    List.mem_append, List.mem_flatMap, List.mem_map] at member
  rcases member with rfl | (⟨proof, staged, member⟩ | member) | member
  · cases creation
  · refine ⟨proof, staged, ?_⟩
    have carried := tracked.staged proof staged
    obtain ⟨_, _, create⟩ := carried.create
    simp only [StagedProof.part, ProofAccounts.stagedPart, List.mem_append,
      List.mem_cons, List.not_mem_nil, or_false] at member
    rcases member with tail | rfl | rfl
    · obtain ⟨_, _, _, _, _, noTail | tail_eq⟩ := carried.written
      · simp [noTail.1] at tail
      · simp only [tail_eq, Option.toList_some] at tail
        split at tail
        · rw [List.mem_singleton.mp tail] at creation
          cases creation
        · cases tail
    · rw [create] at creation
      cases creation
      rfl
    · rw [carried.verify] at creation
      cases creation
  · have idle := inert instruction member
    cases instruction <;> first | exact idle.elim | cases creation
  · rcases member with ⟨_, _, rfl⟩ | ⟨_, _, rfl⟩
    · cases creation
    · cases creation

/-- When the consuming transaction lands, nothing is left of the operation. -/
theorem Sound.consumed
    {transaction : List Instruction} {keypairs : List Keypair}
    {units : Nat} {withTails : Bool} {receipt : Receipt}
    (sound : Sound world log)
    (inert : ∀ instruction ∈ instructions, instruction.Inert)
    (written : ∀ proof ∈ log.staged,
      withTails = false → proof.staged.tailWrite = none)
    (transaction_eq :
      transaction =
        withComputeUnitLimit units
          (log.proofAccounts.consuming C.payer instructions withTails))
    (landed :
      (C.send world.state transaction keypairs).outcome = .ok receipt) :
    Residue (world.deliver transaction keypairs) [] := by
  subst transaction_eq
  apply sound.residue.landed landed
  intro before after outside ran
  have tracked := sound.tracked.outsiders C.held_payer outside
  obtain ⟨used, _, consumed⟩ := tracked.consume inert written ran
  constructor
  · rintro address settled
    left
    by_cases target : address ∈ log.targets
    · exact consumed.closed address target
    · by_cases staged : ∃ proof ∈ log.staged, address = proof.context
      · obtain ⟨proof, member, rfl⟩ := staged
        exact consumed.stagedClosed proof member
      · rcases settled with blank | member
        · push Not at staged
          rw [consumed.elsewhere address target staged, blank]
        · exact absurd member target
  · intro address creation
    obtain ⟨proof, member, rfl⟩ := created_consuming tracked inert address creation
    exact ⟨sound.contextsHeld proof member,
      Or.inl (consumed.stagedClosed proof member)⟩

theorem ensures_sendConsuming
    {transaction : List Instruction} {units : Nat} {withTails : Bool}
    {original : ProofLog}
    (origin : log = original ∨ log = original.withoutTails)
    (sound : Sound world log) (clean : Clean base world.sent)
    (written : ∀ proof ∈ log.staged,
      withTails = false → proof.staged.tailWrite = none)
    (transaction_eq :
      transaction =
        withComputeUnitLimit units
          (log.proofAccounts.consuming C.payer instructions withTails)) :
    Flow.Ensures (log.proofAccounts.sendConsuming transaction signers) world
      (Finishes base original instructions signers) := by
  have consumption :
      Consumption log instructions signers world.sent
        (world.sending transaction
          (signers ++ log.proofAccounts.staged.map (·.context))) :=
    { tracked := sound.tracked.outsiders C.held_payer
        (C.outsiders_before ..)
      laid := sound.laid
      shape := ⟨units, withTails, transaction_eq, written⟩
      signed := rfl
      delivered := ⟨world.state, rfl⟩ }
  unfold ProofAccounts.sendConsuming
  refine .bind (World.ensures_fits (fun fits _ => ?_) (Or.inl ⟨rfl, clean⟩))
  cases fits with
  | false =>
      exact (ensures_closeAfter _ _ sound.residue).mono fun _ _ =>
        .abandon (Or.inl (Or.inl ⟨clean, .consumingTooLarge⟩))
  | true =>
      refine .bind (.result (World.ensures_send ?_ ?_))
      · intro receipt landed
        exact .pure ⟨log, world.sent, _, origin, rfl, clean, consumption,
          landed, fun inert =>
            sound.consumed inert written transaction_eq landed⟩
      · intro error failed
        exact (ensures_closeAfter _ _ (sound.failed failed).residue).mono
          fun _ _ => .abandon <| Or.inr
            ⟨log, world.sent, _, origin, rfl, clean, consumption, failed⟩

theorem ensures_consume
    (units : Nat) (sound : Sound world log) (clean : Clean base world.sent) :
    Flow.Ensures
      (log.proofAccounts.consume instructions signers units) world
      (Finishes base log instructions signers) := by
  have panicked :
      Finishes base log instructions signers (.error .panic) world :=
    Or.inl ⟨rfl, clean⟩
  unfold ProofAccounts.consume ProofAccounts.build
  refine .bind (.bind (ensures_checkedUnits ?_ panicked))
  refine .pure ?_
  refine .bind (World.ensures_fits (fun fits _ => ?_) panicked)
  cases fits with
  | true =>
      exact ensures_sendConsuming (Or.inl rfl) sound clean
        (fun _ _ impossible => by cases impossible) rfl
  | false =>
      have tails :
          log.proofAccounts.tails =
            log.staged.filterMap (·.staged.tailWrite) := by
        simp only [ProofAccounts.tails, ProofLog.proofAccounts,
          List.filterMap_map]
        rfl
      have sent := ensures_sendTails
        (show Sound world { log with staged := [] ++ log.staged } from sound)
        clean
      rw [← tails] at sent
      refine .bind (.result (sent.mono ?_))
      rintro ((error | _) | ⟨⟩) reached ended
      · exact (ensures_closeAfter _ _ ended.1).mono fun _ _ =>
          .abandon (Or.inl ended.2)
      · exact ended.elim
      · obtain ⟨written, stillClean⟩ := ended
        refine .bind
          (.bind (ensures_checkedUnits ?_ (Or.inl ⟨rfl, stillClean⟩)))
        refine .pure ?_
        rw [← ProofLog.proofAccounts_withoutTails]
        refine ensures_sendConsuming (Or.inr rfl) written stillClean ?_ rfl
        intro proof member _
        obtain ⟨original, _, rfl⟩ := List.mem_map.mp member
        rfl

end Consume
end Remit
