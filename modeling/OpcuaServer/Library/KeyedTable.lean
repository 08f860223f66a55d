import Mathlib.Data.List.Nodup
import Mathlib.Data.List.Perm.Basic
import Mathlib.Tactic.Common

/-!
# Tables with a primary key

A `KeyedTable K V` is a list of rows with different keys. Rows are written by
`insertIfAbsent`, which leaves an existing row as it is, and by `upsert`, which replaces its value;
`get` reads the value of a key.
-/

/-- The rows of a table, with different keys. -/
structure KeyedTable (K V : Type) where
  rows : List (K × V)
  nodup : (rows.map Prod.fst).Nodup

namespace KeyedTable

/-- Where the keys are different, a row is found by its key. -/
theorem lookup_eq_some_iff_mem {K V : Type} [BEq K] [LawfulBEq K] {rows : List (K × V)} {k : K}
    {v : V} (hnodup : (rows.map Prod.fst).Nodup) :
  rows.lookup k = some v ↔ (k, v) ∈ rows
  := by
  induction rows with
  | nil => simp
  | cons row rows ih =>
    obtain ⟨k', v'⟩ := row
    obtain ⟨hk', hrows⟩ := List.nodup_cons.mp hnodup
    rw [List.lookup_cons, List.mem_cons]
    by_cases hk : k = k'
    · subst hk
      have hnot : (k, v) ∉ rows := by
        intro hmem
        apply hk' (List.mem_map.mpr ⟨_, hmem, rfl⟩)
      simp [hnot, eq_comm]
    · have hne : (k == k') = false := beq_eq_false_iff_ne.mpr hk
      simp [hne, hk, ih hrows]

variable {K V : Type} [DecidableEq K]

/-- The table without rows. -/
def empty : KeyedTable K V where
  rows := []
  nodup := List.nodup_nil

/-- The value of the row with a key. -/
def get (t : KeyedTable K V) (k : K) : Option V :=
  t.rows.lookup k

/-- The keys of the rows. -/
def keys (t : KeyedTable K V) : List K :=
  t.rows.map Prod.fst

theorem get_eq_some_iff {t : KeyedTable K V} {k : K} {v : V} :
  t.get k = some v ↔ (k, v) ∈ t.rows
  := lookup_eq_some_iff_mem t.nodup

theorem get_isSome_iff {t : KeyedTable K V} {k : K} :
  (t.get k).isSome ↔ k ∈ t.keys
  := by
  rw [get, List.lookup_isSome_iff, keys, List.mem_map]
  constructor
  · rintro ⟨row, hrow, hk⟩
    exact ⟨row, hrow, (beq_iff_eq.mp hk).symm⟩
  · rintro ⟨row, hrow, rfl⟩
    exact ⟨row, hrow, beq_self_eq_true row.1⟩

theorem get_eq_none_iff {t : KeyedTable K V} {k : K} :
  t.get k = none ↔ k ∉ t.keys
  := by
  rw [← get_isSome_iff, Option.not_isSome_iff_eq_none]

/-! ### Writing rows -/

/-- Add a row if there is none with its key. -/
def insertIfAbsent (t : KeyedTable K V) (k : K) (v : V) : KeyedTable K V :=
  if hk : k ∈ t.keys then t
  else
    { rows := t.rows ++ [(k, v)]
      nodup := by
        rw [List.map_append, List.map_singleton]
        apply t.nodup.append (List.nodup_singleton k)
        apply List.disjoint_singleton.mpr hk }

theorem mem_rows_insertIfAbsent {t : KeyedTable K V} {k : K} {v : V} {row : K × V} :
  row ∈ (t.insertIfAbsent k v).rows ↔ row ∈ t.rows ∨ k ∉ t.keys ∧ row = (k, v)
  := by
  rw [insertIfAbsent]
  split
  · next hk => simp [hk]
  · next hk => simp [hk]

theorem insertIfAbsent_of_mem {t : KeyedTable K V} {k : K} {v : V} (hk : k ∈ t.keys) :
  t.insertIfAbsent k v = t
  := dif_pos hk

/-- Add a row, or replace the value of the row with its key. -/
def upsert (t : KeyedTable K V) (k : K) (v : V) : KeyedTable K V :=
  if k ∈ t.keys then
    { rows := t.rows.map fun row => if row.1 = k then (k, v) else row
      nodup := by
        have hkeys : (t.rows.map fun row => if row.1 = k then (k, v) else row).map Prod.fst
            = t.rows.map Prod.fst := by
          rw [List.map_map]
          apply List.map_congr_left
          intro row _
          simp only [Function.comp_apply]
          split
          · next hrow => exact hrow.symm
          · rfl
        rw [hkeys]
        apply t.nodup }
  else t.insertIfAbsent k v

theorem get_insertIfAbsent (t : KeyedTable K V) (k k' : K) (v : V) :
  (t.insertIfAbsent k v).get k' = if k' = k then some ((t.get k).getD v) else t.get k'
  := by
  rw [insertIfAbsent]
  by_cases hk : k ∈ t.keys
  · rw [dif_pos hk]
    split
    · next heq =>
      subst heq
      obtain ⟨u, hu⟩ := Option.isSome_iff_exists.mp (get_isSome_iff.mpr hk)
      rw [hu]
      rfl
    · rfl
  · rw [dif_neg hk]
    simp only [get, List.lookup_append]
    split
    · next heq =>
      subst heq
      have hnone : t.rows.lookup k' = none := get_eq_none_iff.mpr hk
      simp [hnone]
    · next hne =>
      have hne' : (k' == k) = false := beq_eq_false_iff_ne.mpr hne
      simp [List.lookup_cons, hne']

theorem get_upsert (t : KeyedTable K V) (k k' : K) (v : V) :
  (t.upsert k v).get k' = if k' = k then some v else t.get k'
  := by
  rw [upsert]
  split
  · next hk =>
    split
    · next heq =>
      subst heq
      apply get_eq_some_iff.mpr
      obtain ⟨row, hrow, rfl⟩ := List.mem_map.mp hk
      exact List.mem_map.mpr ⟨row, hrow, if_pos rfl⟩
    · next hne =>
      apply Option.ext
      intro u
      rw [get_eq_some_iff, get_eq_some_iff]
      constructor
      · intro hmem
        obtain ⟨row, hrow, heq⟩ := List.mem_map.mp hmem
        split at heq
        · cases heq
          cases hne rfl
        · exact heq ▸ hrow
      · intro hmem
        exact List.mem_map.mpr ⟨_, hmem, if_neg hne⟩
  · next hk =>
    rw [get_insertIfAbsent, get_eq_none_iff.mpr hk]
    rfl

theorem keys_subset_insertIfAbsent (t : KeyedTable K V) (k : K) (v : V) :
  t.keys ⊆ (t.insertIfAbsent k v).keys
  := by
  intro k' hk'
  apply get_isSome_iff.mp
  rw [get_insertIfAbsent]
  split
  · rfl
  · apply get_isSome_iff.mpr hk'

theorem mem_keys_insertIfAbsent (t : KeyedTable K V) (k : K) (v : V) :
  k ∈ (t.insertIfAbsent k v).keys
  := by
  apply get_isSome_iff.mp
  rw [get_insertIfAbsent, if_pos rfl]
  rfl

/-- Add the rows one after the other, where there are none with their keys. -/
def insertAll (t : KeyedTable K V) (rows : List (K × V)) : KeyedTable K V :=
  rows.foldl (fun t row => t.insertIfAbsent row.1 row.2) t

/-- Write the rows one after the other. -/
def upsertAll (t : KeyedTable K V) (rows : List (K × V)) : KeyedTable K V :=
  rows.foldl (fun t row => t.upsert row.1 row.2) t

@[simp]
theorem upsertAll_nil (t : KeyedTable K V) :
  t.upsertAll [] = t
  := rfl

/-- Of the rows with a key the last one written is there. -/
theorem get_upsertAll {rows : List (K × V)} (hnodup : (rows.map Prod.fst).Nodup)
    (t : KeyedTable K V) (k : K) :
  (t.upsertAll rows).get k = (rows.lookup k).or (t.get k)
  := by
  induction rows generalizing t with
  | nil => rfl
  | cons row rows ih =>
    obtain ⟨k', v⟩ := row
    obtain ⟨hk', hrows⟩ := List.nodup_cons.mp hnodup
    have ih := ih hrows (t.upsert k' v)
    rw [upsertAll, List.foldl_cons]
    rw [upsertAll] at ih
    rw [ih, get_upsert, List.lookup_cons]
    by_cases hk : k = k'
    · subst hk
      have hnone : rows.lookup k = none := by
        rw [List.lookup_eq_none_iff]
        intro row hrow
        apply bne_iff_ne.mpr
        rintro rfl
        apply hk' (List.mem_map.mpr ⟨row, hrow, rfl⟩)
      simp [hnone]
    · have hne : (k == k') = false := beq_eq_false_iff_ne.mpr hk
      simp [hne, hk]

/-- The rows written are there, and of the other rows those with other keys. -/
theorem mem_rows_upsertAll {rows : List (K × V)} (hnodup : (rows.map Prod.fst).Nodup)
    {t : KeyedTable K V} {row : K × V} :
  row ∈ (t.upsertAll rows).rows ↔ row ∈ rows ∨ row ∈ t.rows ∧ row.1 ∉ rows.map Prod.fst
  := by
  obtain ⟨k, v⟩ := row
  have hkeys : rows.lookup k = none ↔ k ∉ rows.map Prod.fst :=
    get_eq_none_iff (t := ⟨rows, hnodup⟩)
  rw [← get_eq_some_iff, get_upsertAll hnodup, Option.or_eq_some_iff, hkeys,
    lookup_eq_some_iff_mem hnodup, get_eq_some_iff, and_comm (a := k ∉ _)]

end KeyedTable
