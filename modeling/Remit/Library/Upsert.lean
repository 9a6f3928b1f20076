import Mathlib.Data.List.Nodup

/-!
# Keyed lists

A list of pairs is used as a table: a value is set by replacing the one that its
key already has, or by appending the pair.  Setting the pairs of a list one
after another gives that list back exactly when no key occurs in it twice.
-/

namespace KeyedLists

variable {κ ν : Type} [DecidableEq κ]

/-- Set the value of a key: replace it where the key first occurs, or append
the pair. -/
def upsert (key : κ) (value : ν) : List (κ × ν) → List (κ × ν)
  | [] => [(key, value)]
  | pair :: rest =>
      if pair.1 = key then (key, value) :: rest
      else pair :: upsert key value rest

/-- Set the values of some pairs one after another. -/
def upsertAll (table pairs : List (κ × ν)) : List (κ × ν) :=
  pairs.foldl (fun table pair => upsert pair.1 pair.2 table) table

/-- Every key occurs once. -/
def DistinctKeys (table : List (κ × ν)) : Prop :=
  (table.map Prod.fst).Nodup

instance (table : List (κ × ν)) : Decidable (DistinctKeys table) :=
  inferInstanceAs (Decidable (List.Nodup _))

variable {key : κ} {value : ν} {table pairs : List (κ × ν)}

/-- A new key is appended. -/
theorem upsert_of_notMem (new : key ∉ table.map Prod.fst) :
    upsert key value table = table ++ [(key, value)] := by
  induction table with
  | nil => rfl
  | cons pair rest inductionHypothesis =>
      rw [List.map_cons, List.mem_cons, not_or] at new
      rw [upsert, if_neg (Ne.symm new.1), inductionHypothesis new.2,
        List.cons_append]

/-- A key that occurs keeps its place. -/
theorem keys_upsert_of_mem (known : key ∈ table.map Prod.fst) :
    (upsert key value table).map Prod.fst = table.map Prod.fst := by
  induction table with
  | nil => cases known
  | cons pair rest inductionHypothesis =>
      rw [upsert]
      split
      case isTrue here => rw [List.map_cons, List.map_cons, here]
      case isFalse away =>
          have later := List.mem_of_ne_of_mem (Ne.symm away) known
          rw [List.map_cons, List.map_cons, inductionHypothesis later]

theorem DistinctKeys.upsert
    (distinct : DistinctKeys table) (key : κ) (value : ν) :
    DistinctKeys (upsert key value table) := by
  unfold DistinctKeys at *
  by_cases known : key ∈ table.map Prod.fst
  · rw [keys_upsert_of_mem known]
    exact distinct
  · rw [upsert_of_notMem known, List.map_append, List.map_singleton,
      ← List.concat_eq_append]
    exact distinct.concat known

theorem DistinctKeys.upsertAll
    (distinct : DistinctKeys table) (pairs : List (κ × ν)) :
    DistinctKeys (upsertAll table pairs) := by
  induction pairs generalizing table with
  | nil => exact distinct
  | cons pair rest inductionHypothesis =>
      exact inductionHypothesis (distinct.upsert pair.1 pair.2)

/-- Pairs with new and distinct keys are appended. -/
theorem upsertAll_of_distinctKeys (distinct : DistinctKeys (table ++ pairs)) :
    upsertAll table pairs = table ++ pairs := by
  induction pairs generalizing table with
  | nil => exact (List.append_nil table).symm
  | cons pair rest inductionHypothesis =>
      have regrouped : table ++ pair :: rest = (table ++ [pair]) ++ rest :=
        List.append_cons ..
      have new : pair.1 ∉ table.map Prod.fst := by
        unfold DistinctKeys at distinct
        rw [List.map_append, List.map_cons] at distinct
        intro known
        exact List.disjoint_of_nodup_append distinct known List.mem_cons_self
      rw [regrouped] at distinct ⊢
      show upsertAll (KeyedLists.upsert pair.1 pair.2 table) rest = _
      rw [upsert_of_notMem new]
      exact inductionHypothesis distinct

/-- Setting the pairs of a list gives the list back exactly when its keys are
distinct. -/
theorem upsertAll_nil_eq_self_iff :
    upsertAll [] pairs = pairs ↔ DistinctKeys pairs := by
  constructor
  · intro same
    have empty : DistinctKeys ([] : List (κ × ν)) := List.nodup_nil
    rw [← same]
    exact empty.upsertAll pairs
  · intro distinct
    exact upsertAll_of_distinctKeys ((List.nil_append pairs).symm ▸ distinct)

end KeyedLists
