import Mathlib.Data.List.Infix

/-!
# Packing a sequence into batches

A sequence is cut into consecutive batches each of which fits.  `greedy` keeps
one batch open and closes it when the next item does not fit on it any more.
When every part of a batch that fits also fits, no other cut has fewer batches.
-/

namespace Packing

variable {α : Type}

/-- A sequence cut into consecutive batches that fit. -/
structure Cut (fits : List α → Bool) (items : List α)
    (batches : List (List α)) : Prop where
  flatten : batches.flatten = items
  fits : ∀ batch ∈ batches, fits batch = true

/-- The greedy cut of what is in the open batch and the items after it. -/
def greedy (fits : List α → Bool) : List α → List α → List (List α)
  | batch, [] => if batch = [] then [] else [batch]
  | batch, item :: rest =>
      if batch ≠ [] ∧ fits (batch ++ [item]) = false then
        batch :: greedy fits [item] rest
      else greedy fits (batch ++ [item]) rest

/-- Consecutive parts of what fits fit. -/
def Hereditary (fits : List α → Bool) : Prop :=
  ∀ part whole, part <:+: whole → fits whole = true → fits part = true

variable {fits : List α → Bool} {batch items : List α}

theorem greedy_flatten (batch items : List α) :
    (greedy fits batch items).flatten = batch ++ items := by
  induction items generalizing batch with
  | nil =>
      unfold greedy
      split
      case isTrue empty => simp [empty]
      case isFalse => simp
  | cons item rest inductionHypothesis =>
      unfold greedy
      split
      · rw [List.flatten_cons, inductionHypothesis, List.singleton_append]
      · rw [inductionHypothesis, List.append_assoc, List.singleton_append]

theorem greedy_ne_nil (batch items : List α) :
    ∀ one ∈ greedy fits batch items, one ≠ [] := by
  induction items generalizing batch with
  | nil =>
      intro one member
      unfold greedy at member
      split at member
      case isTrue => cases member
      case isFalse filled =>
          rw [List.mem_singleton.mp member]
          exact filled
  | cons item rest inductionHypothesis =>
      intro one member
      unfold greedy at member
      split at member
      case isTrue full =>
          rcases List.mem_cons.mp member with rfl | later
          · exact full.1
          · exact inductionHypothesis [item] one later
      case isFalse => exact inductionHypothesis (batch ++ [item]) one member

/-- An open batch that fits is only extended to batches that fit. -/
theorem greedy_fits
    (opened : batch = [] ∨ fits batch = true)
    (each : ∀ item ∈ items, fits [item] = true) :
    ∀ one ∈ greedy fits batch items, fits one = true := by
  induction items generalizing batch with
  | nil =>
      intro one member
      unfold greedy at member
      split at member
      case isTrue => cases member
      case isFalse filled =>
          rw [List.mem_singleton.mp member]
          exact opened.resolve_left filled
  | cons item rest inductionHypothesis =>
      have alone : fits [item] = true := each item List.mem_cons_self
      have others : ∀ other ∈ rest, fits [other] = true := fun other member =>
        each other (List.mem_cons_of_mem _ member)
      intro one member
      unfold greedy at member
      split at member
      case isTrue full =>
          rcases List.mem_cons.mp member with rfl | later
          · exact opened.resolve_left full.1
          · exact inductionHypothesis (.inr alone) others one later
      case isFalse room =>
          have extended : fits (batch ++ [item]) = true := by
            by_cases empty : batch = []
            · rw [empty]
              exact alone
            · by_contra overflowing
              exact room ⟨empty, by simpa using overflowing⟩
          exact inductionHypothesis (.inr extended) others one member

/-- Whether a batch fits may be judged by the images of its items. -/
theorem greedy_map
    {β : Type} (f : β → α) (batch items : List β) :
    (greedy (fun one => fits (one.map f)) batch items).map (List.map f) =
      greedy fits (batch.map f) (items.map f) := by
  induction items generalizing batch with
  | nil =>
      by_cases empty : batch = []
      · simp [greedy, empty]
      · simp [greedy, empty]
  | cons item rest inductionHypothesis =>
      have extended : (batch ++ [item]).map f = batch.map f ++ [f item] := by
        rw [List.map_append, List.map_singleton]
      by_cases full :
          batch ≠ [] ∧ fits ((batch ++ [item]).map f) = false
      · have mappedFull :
            batch.map f ≠ [] ∧ fits (batch.map f ++ [f item]) = false :=
          ⟨fun empty => full.1 (List.map_eq_nil_iff.mp empty),
            extended ▸ full.2⟩
        rw [List.map_cons, greedy, greedy, if_pos full, if_pos mappedFull,
          List.map_cons, inductionHypothesis, List.map_singleton]
      · have mappedRoom :
            ¬ (batch.map f ≠ [] ∧ fits (batch.map f ++ [f item]) = false) :=
          fun mapped => full
            ⟨fun empty => mapped.1 (by rw [empty, List.map_nil]),
              extended ▸ mapped.2⟩
        rw [List.map_cons, greedy, greedy, if_neg full, if_neg mappedRoom,
          inductionHypothesis, extended]

/-- The greedy cut is a cut when every item fits alone. -/
theorem greedy_cut
    (each : ∀ item ∈ items, fits [item] = true) :
    Cut fits items (greedy fits [] items) where
  flatten := greedy_flatten [] items
  fits := greedy_fits (.inl rfl) each

/-- A cut of a sequence leaves a cut of its rest that has no more batches. -/
theorem Cut.drop
    {front rest : List α} {batches : List (List α)}
    (hereditary : Hereditary fits) (cut : Cut fits (front ++ rest) batches) :
    ∃ fewer, Cut fits rest fewer ∧ fewer.length ≤ batches.length := by
  induction batches generalizing front with
  | nil =>
      have empty := List.append_eq_nil_iff.mp cut.flatten.symm
      rw [empty.2]
      exact ⟨[], ⟨rfl, by simp⟩, Nat.le_refl _⟩
  | cons first later inductionHypothesis =>
      have firstFits : fits first = true := cut.fits first (by simp)
      have laterFit : ∀ one ∈ later, fits one = true := fun one member =>
        cut.fits one (List.mem_cons_of_mem _ member)
      have together : first ++ later.flatten = front ++ rest := cut.flatten
      rcases List.append_eq_append_iff.mp together with
        ⟨between, frontIs, laterIs⟩ | ⟨between, firstIs, restIs⟩
      · obtain ⟨fewer, shorter, bound⟩ :=
          inductionHypothesis ⟨laterIs, laterFit⟩
        refine ⟨fewer, shorter, Nat.le_trans bound ?_⟩
        rw [List.length_cons]
        exact Nat.le_succ _
      · refine ⟨between :: later, ⟨restIs.symm, ?_⟩, Nat.le_refl _⟩
        intro one member
        rcases List.mem_cons.mp member with rfl | behind
        · have part : one <:+: first :=
            List.IsSuffix.isInfix ⟨front, firstIs.symm⟩
          exact hereditary _ _ part firstFits
        · exact laterFit one behind

/-- No cut of the open batch and the items after it beats the greedy one: the
first batch of another cut ends no later than the open batch does when the
greedy one closes it. -/
theorem greedy_stays_ahead
    {batches : List (List α)} (hereditary : Hereditary fits)
    (cut : Cut fits (batch ++ items) batches) :
    (greedy fits batch items).length ≤ batches.length := by
  induction items generalizing batch batches with
  | nil =>
      unfold greedy
      split
      case isTrue => exact Nat.zero_le _
      case isFalse filled =>
          apply List.length_pos_iff.mpr
          rintro rfl
          have empty : batch ++ [] = [] := cut.flatten.symm
          exact filled (by simpa using empty)
  | cons item rest inductionHypothesis =>
      unfold greedy
      split
      case isFalse =>
          apply inductionHypothesis
          rwa [List.append_assoc, List.singleton_append]
      case isTrue full =>
          obtain ⟨_, overflowing⟩ := full
          cases batches with
          | nil =>
              have impossible := cut.flatten
              simp at impossible
          | cons first later =>
              have firstFits : fits first = true := cut.fits first (by simp)
              have laterFit : ∀ one ∈ later, fits one = true :=
                fun one member => cut.fits one (List.mem_cons_of_mem _ member)
              have together :
                  first ++ later.flatten = batch ++ item :: rest :=
                cut.flatten
              have within : ∃ between,
                  later.flatten = between ++ ([item] ++ rest) := by
                rcases List.append_eq_append_iff.mp together with
                  ⟨between, _, laterIs⟩ | ⟨between, firstIs, restIs⟩
                · exact ⟨between, laterIs⟩
                · cases between with
                  | nil => exact ⟨[], restIs.symm⟩
                  | cons head between =>
                      -- Then the first batch contains what overflows.
                      have same : item = head :=
                        (List.cons.inj restIs).1
                      subst same
                      have part : batch ++ [item] <:+: first :=
                        List.IsPrefix.isInfix ⟨between, by simp [firstIs]⟩
                      rw [hereditary _ _ part firstFits] at overflowing
                      cases overflowing
              obtain ⟨between, laterIs⟩ := within
              obtain ⟨fewer, shorter, bound⟩ :=
                Cut.drop hereditary ⟨laterIs, laterFit⟩
              have ahead := inductionHypothesis shorter
              rw [List.length_cons, List.length_cons]
              exact Nat.succ_le_succ (Nat.le_trans ahead bound)

/-- The greedy cut has the fewest batches. -/
theorem greedy_minimal
    {batches : List (List α)} (hereditary : Hereditary fits)
    (cut : Cut fits items batches) :
    (greedy fits [] items).length ≤ batches.length :=
  greedy_stays_ahead hereditary cut

end Packing
