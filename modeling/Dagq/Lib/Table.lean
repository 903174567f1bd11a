/-
# Dagq.Lib.Table -- tables with a primary key, in insertion order.

A `Table κ ν` is a list of rows whose keys are distinct: the constraint a primary key puts on a
table is a field, so a table with two rows of one key cannot be built.  Every operation keeps it and
comes with one `get?` equation; scans (`any`, `select`, `last?`) are characterised by `get?` too, so
a proof about a table never opens the list of rows.
-/
import Mathlib.Data.List.Nodup

namespace Dagq.Lib

/-- Rows of `ν` under distinct keys of `κ`, the oldest row first. -/
structure Table (κ ν : Type) where
  rows : List (κ × ν)
  keyed : (rows.map Prod.fst).Nodup

namespace Table

variable {κ ν : Type} [DecidableEq κ]

/-! ## Operations -/

/-- The table without rows. -/
def empty : Table κ ν := ⟨[], by simp⟩

instance : EmptyCollection (Table κ ν) := ⟨empty⟩

instance : Inhabited (Table κ ν) := ⟨empty⟩

/-- The row under `k`. -/
def get? (t : Table κ ν) (k : κ) : Option ν := (t.rows.find? fun r => r.1 = k).map Prod.snd

/-- The rows `p` holds of, oldest first. -/
def select (t : Table κ ν) (p : κ → ν → Bool) : List (κ × ν) := t.rows.filter fun r => p r.1 r.2

/-- Whether some row satisfies `p`. -/
def any (t : Table κ ν) (p : κ → ν → Bool) : Bool := t.rows.any fun r => p r.1 r.2

/-- The newest row `p` holds of. -/
def last? (t : Table κ ν) (p : κ → ν → Bool) : Option (κ × ν) := (t.select p).getLast?

/-- A new row at the end; a table that has the key already stays as it is (the caller checks). -/
def push (t : Table κ ν) (k : κ) (v : ν) : Table κ ν :=
  if h : k ∈ t.rows.map Prod.fst then t
  else ⟨t.rows ++ [(k, v)], by
    rw [List.map_append]
    exact List.Nodup.append t.keyed (by simp) (by simpa using h)⟩

/-- A table with what `f` makes of each row. -/
def map {μ : Type} (t : Table κ ν) (f : κ → ν → μ) : Table κ μ :=
  ⟨t.rows.map fun r => (r.1, f r.1 r.2), by
    rw [List.map_map]
    exact t.keyed⟩

/-- Every row rewritten in place. -/
def update (t : Table κ ν) (f : κ → ν → ν) : Table κ ν :=
  ⟨t.rows.map fun r => (r.1, f r.1 r.2), by
    rw [List.map_map]
    exact t.keyed⟩

/-- The row under `k` rewritten in place. -/
def modify (t : Table κ ν) (k : κ) (f : ν → ν) : Table κ ν :=
  t.update fun k' v => if k' = k then f v else v

/-- The row under `k` replaced, or a new row at the end. -/
def insert (t : Table κ ν) (k : κ) (v : ν) : Table κ ν := (t.modify k fun _ => v).push k v

/-- The table without the rows `p` holds of. -/
def remove (t : Table κ ν) (p : κ → ν → Bool) : Table κ ν :=
  ⟨t.rows.filter fun r => !p r.1 r.2, t.keyed.sublist (List.filter_sublist.map _)⟩

/-- The table without the row under `k`. -/
def erase (t : Table κ ν) (k : κ) : Table κ ν := t.remove fun k' _ => k' = k

/-- One past the highest key: the next key of a table whose rows are never removed. -/
def nextId (t : Table Nat ν) : Nat := (t.rows.map Prod.fst).foldl max 0 + 1

/-! ## The `get?` equations -/

theorem mem_rows_iff {t : Table κ ν} {k : κ} {v : ν} : (k, v) ∈ t.rows ↔ t.get? k = some v := by
  obtain ⟨rows, keyed⟩ := t
  simp only [get?]
  induction rows with
  | nil => simp
  | cons r rows ih =>
      rw [List.map_cons, List.nodup_cons] at keyed
      rw [List.find?_cons, List.mem_cons]
      by_cases hr : r.1 = k
      · have hk : (k, v) ∉ rows := fun h => keyed.1 (hr ▸ List.mem_map_of_mem (f := Prod.fst) h)
        simp only [hr, decide_true, Option.map_some, Option.some.injEq, hk, or_false]
        constructor
        · intro h
          rw [← h]
        · intro h
          rw [← hr, ← h]
      · have hne : (k, v) ≠ r := fun h => hr (by rw [← h])
        simp only [hr, decide_false, hne, false_or]
        exact ih keyed.2

theorem find?_rows (t : Table κ ν) (k : κ) :
    (t.rows.find? fun r => r.1 = k) = (t.get? k).map (k, ·) := by
  unfold get?
  cases h : t.rows.find? fun r => r.1 = k with
  | none => rfl
  | some r =>
      have hkey : r.1 = k := by simpa using List.find?_some h
      rw [← hkey]
      rfl

theorem mem_keys_iff {t : Table κ ν} {k : κ} : k ∈ t.rows.map Prod.fst ↔ (t.get? k).isSome := by
  rw [List.mem_map, Option.isSome_iff_exists]
  constructor
  · rintro ⟨⟨k', v⟩, h, rfl⟩
    exact ⟨v, mem_rows_iff.mp h⟩
  · rintro ⟨v, h⟩
    exact ⟨(k, v), mem_rows_iff.mpr h, rfl⟩

@[simp] theorem get?_empty (k : κ) : (∅ : Table κ ν).get? k = none := rfl

theorem get?_push {t : Table κ ν} {k : κ} {v : ν} (h : t.get? k = none) (k' : κ) :
    (t.push k v).get? k' = if k' = k then some v else t.get? k' := by
  have hk : k ∉ t.rows.map Prod.fst := by rw [mem_keys_iff, h]; simp
  unfold push
  rw [dif_neg hk]
  simp only [get?, List.find?_append]
  split_ifs with hkk
  · subst hkk
    have hn : t.rows.find? (fun r => r.1 = k') = none := by
      simpa [get?, Option.map_eq_none_iff] using h
    simp [hn]
  · have hne : ¬k = k' := fun h => hkk h.symm
    simp [hne]

theorem push_rows {t : Table κ ν} {k : κ} {v : ν} (h : t.get? k = none) :
    (t.push k v).rows = t.rows ++ [(k, v)] := by
  have hk : k ∉ t.rows.map Prod.fst := by rw [mem_keys_iff, h]; simp
  unfold push
  rw [dif_neg hk]

@[simp] theorem get?_map {μ : Type} (t : Table κ ν) (f : κ → ν → μ) (k : κ) :
    (t.map f).get? k = (t.get? k).map (f k) := by
  apply Option.ext
  intro v
  rw [← mem_rows_iff, Option.map_eq_some_iff]
  simp only [map, List.mem_map, Prod.mk.injEq, Prod.exists]
  constructor
  · rintro ⟨k', v', hmem, rfl, rfl⟩
    exact ⟨v', mem_rows_iff.mp hmem, rfl⟩
  · rintro ⟨v', hget, rfl⟩
    exact ⟨k, v', mem_rows_iff.mpr hget, rfl, rfl⟩

@[simp] theorem get?_update (t : Table κ ν) (f : κ → ν → ν) (k : κ) :
    (t.update f).get? k = (t.get? k).map (f k) := get?_map t f k

@[simp] theorem get?_modify (t : Table κ ν) (k : κ) (f : ν → ν) (k' : κ) :
    (t.modify k f).get? k' = if k' = k then (t.get? k).map f else t.get? k' := by
  rw [modify, get?_update]
  split_ifs with h
  · rw [h]
  · simp

theorem get?_modify_of_get {t : Table κ ν} {k : κ} {f : ν → ν} {v : ν} (h : t.get? k = some v)
    (k' : κ) : (t.modify k f).get? k' = if k' = k then some (f v) else t.get? k' := by
  rw [get?_modify, h, Option.map_some]

theorem modify_modify {t : Table κ ν} {k : κ} {f g : ν → ν} :
    (t.modify k f).modify k g = t.modify k fun v => g (f v) := by
  obtain ⟨rows, keyed⟩ := t
  simp only [modify, update, List.map_map, mk.injEq]
  apply List.map_congr_left
  intro r _
  simp only [Function.comp_apply]
  split_ifs <;> rfl

/-- Nothing is rewritten under a key the table does not have. -/
theorem modify_of_absent {t : Table κ ν} {k : κ} {f : ν → ν} (h : t.get? k = none) :
    t.modify k f = t := by
  obtain ⟨rows, keyed⟩ := t
  have hrows : ((⟨rows, keyed⟩ : Table κ ν).modify k f).rows = rows := by
    refine (List.map_congr_left fun r hr => ?_).trans (List.map_id rows)
    have hget : (⟨rows, keyed⟩ : Table κ ν).get? r.1 = some r.2 := mem_rows_iff.mp hr
    have hne : r.1 ≠ k := by
      intro heq
      rw [heq, h] at hget
      cases hget
    simp [hne]
  cases hm : (⟨rows, keyed⟩ : Table κ ν).modify k f
  rw [hm] at hrows
  cases hrows
  rfl

theorem push_of_mem {t : Table κ ν} {k : κ} {v : ν} (h : ¬t.get? k = none) : t.push k v = t := by
  have hk : k ∈ t.rows.map Prod.fst := mem_keys_iff.mpr (Option.isSome_iff_ne_none.mpr h)
  unfold push
  rw [dif_pos hk]

/-- An upsert: the row under `k` rewritten, or a new one. -/
theorem get?_upsert (t : Table κ ν) (k : κ) (f : ν → ν) (v : ν) (k' : κ) :
    ((t.modify k f).push k v).get? k' = if k' = k then some ((t.get? k).elim v f) else t.get? k' := by
  cases hk : t.get? k with
  | none =>
      have hmodify : (t.modify k f).get? k = none := by rw [get?_modify, if_pos rfl, hk]; rfl
      rw [get?_push hmodify, get?_modify, hk]
      split_ifs <;> rfl
  | some old =>
      have hkey : ¬(t.modify k f).get? k = none := by simp [hk]
      rw [push_of_mem hkey, get?_modify, hk]
      rfl

@[simp] theorem get?_insert (t : Table κ ν) (k : κ) (v : ν) (k' : κ) :
    (t.insert k v).get? k' = if k' = k then some v else t.get? k' := by
  rw [insert, get?_upsert]
  cases t.get? k <;> rfl

@[simp] theorem get?_remove (t : Table κ ν) (p : κ → ν → Bool) (k : κ) :
    (t.remove p).get? k = (t.get? k).filter fun v => !p k v := by
  apply Option.ext
  intro v
  rw [← mem_rows_iff, Option.filter_eq_some_iff, ← mem_rows_iff]
  simp [remove]

@[simp] theorem get?_erase (t : Table κ ν) (k k' : κ) :
    (t.erase k).get? k' = if k' = k then none else t.get? k' := by
  rw [erase, get?_remove]
  split_ifs with h
  · cases t.get? k' <;> simp [h]
  · cases t.get? k' <;> simp [h]

/-! ## Scans -/

theorem mem_select {t : Table κ ν} {p : κ → ν → Bool} {k : κ} {v : ν} :
    (k, v) ∈ t.select p ↔ t.get? k = some v ∧ p k v := by
  rw [select, List.mem_filter, mem_rows_iff]

omit [DecidableEq κ] in
theorem select_keys_nodup {t : Table κ ν} {p : κ → ν → Bool} :
    ((t.select p).map Prod.fst).Nodup :=
  t.keyed.sublist (List.filter_sublist.map _)

theorem any_iff {t : Table κ ν} {p : κ → ν → Bool} :
    t.any p = true ↔ ∃ k v, t.get? k = some v ∧ p k v := by
  simp only [any, List.any_eq_true, Prod.exists, mem_rows_iff]

theorem any_eq_false_iff {t : Table κ ν} {p : κ → ν → Bool} :
    t.any p = false ↔ ∀ k v, t.get? k = some v → p k v = false := by
  rw [← Bool.not_eq_true, any_iff]
  simp

theorem last?_mem {t : Table κ ν} {p : κ → ν → Bool} {k : κ} {v : ν}
    (h : t.last? p = some (k, v)) : t.get? k = some v ∧ p k v :=
  mem_select.mp (List.mem_of_getLast? h)

theorem last?_isSome {t : Table κ ν} {p : κ → ν → Bool} {k : κ} {v : ν}
    (hget : t.get? k = some v) (hp : p k v) : ∃ r, t.last? p = some r := by
  unfold last?
  cases hl : (t.select p).getLast? with
  | some r => exact ⟨r, rfl⟩
  | none =>
      rw [List.getLast?_eq_none_iff] at hl
      have hmem := mem_select.mpr ⟨hget, hp⟩
      simp [hl] at hmem

theorem select_push {t : Table κ ν} {p : κ → ν → Bool} {k : κ} {v : ν} (h : t.get? k = none) :
    (t.push k v).select p = t.select p ++ if p k v then [(k, v)] else [] := by
  rw [select, push_rows h, List.filter_append, ← select]
  split_ifs with hp <;> simp [hp]

theorem last?_push {t : Table κ ν} {p : κ → ν → Bool} {k : κ} {v : ν} (h : t.get? k = none) :
    (t.push k v).last? p = if p k v then some (k, v) else t.last? p := by
  simp only [last?, select_push h]
  split_ifs <;> simp

/-- Rewriting rows keeps the rows of a property the rewriting keeps. -/
theorem select_update {t : Table κ ν} {p : κ → ν → Bool} {f : κ → ν → ν}
    (hp : ∀ k v, t.get? k = some v → p k (f k v) = p k v) :
    (t.update f).select p = (t.select p).map fun r => (r.1, f r.1 r.2) := by
  simp only [select, update, List.filter_map]
  congr 1
  apply List.filter_congr
  rintro ⟨k, v⟩ hmem
  exact hp k v (mem_rows_iff.mp hmem)

/-- Rewriting rows keeps the newest one of a property the rewriting keeps. -/
theorem last?_update_key {t : Table κ ν} {p : κ → ν → Bool} {f : κ → ν → ν}
    (hp : ∀ k v, t.get? k = some v → p k (f k v) = p k v) :
    ((t.update f).last? p).map Prod.fst = (t.last? p).map Prod.fst := by
  simp only [last?, select_update hp, List.getLast?_map, Option.map_map]
  rfl

/-- Rewriting a row keeps the keys of a property the rewriting keeps. -/
theorem select_modify_keys {t : Table κ ν} {p : κ → ν → Bool} {k : κ} {f : ν → ν}
    (hp : ∀ v, p k (f v) = p k v) :
    ((t.modify k f).select p).map Prod.fst = (t.select p).map Prod.fst := by
  rw [modify, select_update, List.map_map]
  · rfl
  · intro k' v _
    split_ifs with h
    · rw [h, hp]
    · rfl

theorem last?_modify_key {t : Table κ ν} {p : κ → ν → Bool} {k : κ} {f : ν → ν}
    (hp : ∀ v, t.get? k = some v → p k (f v) = p k v) :
    ((t.modify k f).last? p).map Prod.fst = (t.last? p).map Prod.fst := by
  apply last?_update_key
  intro k' v hget
  split_ifs with h
  · subst h
    exact hp v hget
  · rfl

/-! ## Fresh keys -/

theorem nextId_fresh (t : Table Nat ν) : t.get? t.nextId = none := by
  rw [← Option.not_isSome_iff_eq_none, ← mem_keys_iff]
  intro h
  have hle : ∀ (xs : List Nat) (a x : Nat), x = a ∨ x ∈ xs → x ≤ xs.foldl max a := by
    intro xs
    induction xs with
    | nil => simp
    | cons y ys ih =>
        intro a x hx
        rw [List.foldl_cons]
        rcases hx with rfl | hx
        · exact Nat.le_trans (Nat.le_max_left _ _) (ih _ _ (.inl rfl))
        · rcases List.mem_cons.mp hx with rfl | hx
          · exact Nat.le_trans (Nat.le_max_right _ _) (ih _ _ (.inl rfl))
          · exact ih _ _ (.inr hx)
  have := hle _ 0 _ (.inr h)
  unfold nextId at this
  omega

end Table

end Dagq.Lib
