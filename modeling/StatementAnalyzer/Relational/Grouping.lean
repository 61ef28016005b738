/-
Grouping the rows of a table by a key.  What the groups add up to is what the
rows add up to.
-/
import Mathlib.Algebra.BigOperators.Ring.Finset
import Mathlib.Data.List.Dedup

namespace Relational

variable {Row Key M : Type} [DecidableEq Key]

/-- The rows of one key. -/
def fiber (key : Row → Key) (rows : List Row) (k : Key) : List Row :=
  rows.filter fun row => key row = k

/-- The keys that occur, each of them once, with their rows. -/
def groups (key : Row → Key) (rows : List Row) : List (Key × List Row) :=
  (rows.map key).dedup.map fun k => (k, fiber key rows k)

theorem groups_keys (key : Row → Key) (rows : List Row) :
    (groups key rows).map Prod.fst = (rows.map key).dedup := by
  rw [groups, List.map_map]
  exact List.map_id _

theorem groups_keys_nodup (key : Row → Key) (rows : List Row) :
    ((groups key rows).map Prod.fst).Nodup := by
  rw [groups_keys]
  exact List.nodup_dedup _

/-- Rows in another order have the same groups, up to the order in them. -/
theorem groups_map_perm {B : Type} (key : Row → Key) {rows rows' : List Row}
    (h : rows.Perm rows') {summary : Key × List Row → B}
    (hsummary : ∀ k members members', members.Perm members' →
      summary (k, members) = summary (k, members')) :
    ((groups key rows).map summary).Perm ((groups key rows').map summary) := by
  have hsame : ∀ k, summary (k, fiber key rows k) =
      summary (k, fiber key rows' k) :=
    fun k => hsummary k _ _ (h.filter _)
  rw [groups, groups, List.map_map, List.map_map]
  have hkeys := ((h.map key).dedup).map fun k => summary (k, fiber key rows' k)
  refine List.Perm.trans (.of_eq ?_) hkeys
  exact List.map_congr_left fun k _ => hsame k

variable [AddCommMonoid M]

/-- Among distinct keys, the weight of one row is met once. -/
theorem sum_indicator {keys : List Key} (hnodup : keys.Nodup) (k : Key)
    (weight : M) :
    (keys.map fun key => if k = key then weight else 0).sum =
      if k ∈ keys then weight else 0 := by
  induction keys with
  | nil => rfl
  | cons key rest ih =>
      obtain ⟨hkey, hrest⟩ := List.nodup_cons.mp hnodup
      rw [List.map_cons, List.sum_cons, ih hrest]
      by_cases hk : k = key
      · subst hk
        simp [hkey]
      · simp [hk]

/-- Distinct keys that cover the rows split their sum. -/
theorem sum_fibers (key : Row → Key) (weight : Row → M) {keys : List Key}
    (hnodup : keys.Nodup) :
    ∀ rows : List Row, (∀ row ∈ rows, key row ∈ keys) →
      (keys.map fun k => ((fiber key rows k).map weight).sum).sum =
        (rows.map weight).sum := by
  intro rows
  induction rows with
  | nil =>
      intro _
      apply List.sum_eq_zero
      intro total htotal
      obtain ⟨k, _, rfl⟩ := List.mem_map.mp htotal
      rfl
  | cons row rest ih =>
      intro hcover
      obtain ⟨hrow, hrest⟩ := List.forall_mem_cons.mp hcover
      have hsplit : ∀ k, ((fiber key (row :: rest) k).map weight).sum =
          (if key row = k then weight row else 0) +
            ((fiber key rest k).map weight).sum := by
        intro k
        by_cases hk : key row = k <;> simp [fiber, hk]
      calc (keys.map fun k => ((fiber key (row :: rest) k).map weight).sum).sum
          = (keys.map fun k => (if key row = k then weight row else 0) +
              ((fiber key rest k).map weight).sum).sum := by simp only [hsplit]
        _ = (keys.map fun k => if key row = k then weight row else 0).sum +
              (keys.map fun k => ((fiber key rest k).map weight).sum).sum :=
            List.sum_map_add
        _ = weight row + (rest.map weight).sum := by
            rw [sum_indicator hnodup, if_pos hrow, ih hrest]
        _ = ((row :: rest).map weight).sum := by
            rw [List.map_cons, List.sum_cons]

/-- The groups add up to the whole table. -/
theorem sum_groups (key : Row → Key) (weight : Row → M) (rows : List Row) :
    ((groups key rows).map fun group => (group.2.map weight).sum).sum =
      (rows.map weight).sum := by
  rw [groups, List.map_map]
  apply sum_fibers key weight (List.nodup_dedup _) rows
  intro row hrow
  exact List.mem_dedup.mpr (List.mem_map_of_mem hrow)

/-- So do their sizes. -/
theorem length_groups (key : Row → Key) (rows : List Row) :
    ((groups key rows).map fun group => group.2.length).sum = rows.length := by
  have h := sum_groups key (fun _ => (1 : Nat)) rows
  simp only [List.map_const', List.sum_replicate_nat, Nat.mul_one] at h
  exact h

end Relational
