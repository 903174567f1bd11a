/-
# Dagq.Lib.Streaks -- how often in a row something was missed.

A record is read from the newest entry on: each is a hit, a miss, or says nothing.  What says nothing
leaves a streak of misses as it is, and a hit ends it.
-/
import Mathlib.Data.List.Basic

namespace Dagq.Lib

/-- The misses since the latest hit, the newest entry first. -/
def streak : List (Option Bool) → Nat
  | [] => 0
  | some true :: _ => 0
  | some false :: rest => streak rest + 1
  | none :: rest => streak rest

/-- The streak after one newer entry. -/
def streakStep (length : Nat) : Option Bool → Nat
  | some true => 0
  | some false => length + 1
  | none => length

/-- Counted up from the oldest entry, it is the same. -/
theorem foldl_streakStep (record : List (Option Bool)) :
    record.reverse.foldl streakStep 0 = streak record := by
  induction record with
  | nil => rfl
  | cons entry rest ih =>
      rw [List.reverse_cons, List.foldl_append, ih]
      cases entry with
      | none => rfl
      | some hit => cases hit <;> rfl

/-- Older entries count up to the hit before them. -/
theorem streak_append (newer older : List (Option Bool)) : streak (newer ++ older) =
    if some true ∈ newer then streak newer else streak newer + streak older := by
  induction newer with
  | nil => exact (Nat.zero_add _).symm
  | cons entry rest ih =>
      cases entry with
      | none =>
          have hiff : some true ∈ none :: rest ↔ some true ∈ rest := by simp
          simp only [List.cons_append, streak, ih, hiff]
      | some hit =>
          cases hit with
          | true => exact (if_pos List.mem_cons_self).symm
          | false =>
              have hiff : some true ∈ some false :: rest ↔ some true ∈ rest := by simp
              simp only [List.cons_append, streak, ih, hiff]
              split <;> omega

/-- A streak is of entries that say something. -/
theorem any_of_streak {record : List (Option Bool)} (h : 0 < streak record) :
    record.any (·.isSome) = true := by
  induction record with
  | nil => exact absurd h (Nat.lt_irrefl 0)
  | cons entry rest ih =>
      cases entry with
      | none => exact ih h
      | some hit => rfl

/-- What says something without a streak says a hit. -/
theorem hit_of_streak_zero {record : List (Option Bool)} (hany : record.any (·.isSome) = true)
    (h : streak record = 0) : some true ∈ record := by
  induction record with
  | nil => cases hany
  | cons entry rest ih =>
      cases entry with
      | none => exact List.mem_cons_of_mem _ (ih hany h)
      | some hit =>
          cases hit with
          | true => exact List.mem_cons_self
          | false => exact absurd h (Nat.succ_ne_zero _)

section Entries

variable {entry : Nat → Option Bool} {k m n : Nat}

/-- The entries numbered below `n`, 0 the newest. -/
def newest (entry : Nat → Option Bool) (n : Nat) : List (Option Bool) := (List.range n).map entry

/-- How many of them say something. -/
def saidBefore (entry : Nat → Option Bool) (n : Nat) : Nat :=
  ((List.range n).filter fun i => (entry i).isSome).length

theorem saidBefore_succ (entry : Nat → Option Bool) (n : Nat) :
    saidBefore entry (n + 1) = saidBefore entry n + if (entry n).isSome then 1 else 0 := by
  unfold saidBefore
  rw [List.range_succ, List.filter_append, List.length_append]
  cases hentry : entry n with
  | none => simp [hentry]
  | some hit => simp [hentry]

theorem newest_add (entry : Nat → Option Bool) (n more : Nat) : newest entry (n + more) =
    newest entry n ++ (List.range more).map fun i => entry (n + i) := by
  unfold newest
  rw [List.range_add, List.map_append, List.map_map]
  rfl

theorem mem_newest {hit : Option Bool} : hit ∈ newest entry n ↔ ∃ i < n, entry i = hit := by
  unfold newest
  rw [List.mem_map]
  simp only [List.mem_range]

/-- Among the newest `n` entries there are `k` misses up to the newest, without a hit between. -/
def InARow (entry : Nat → Option Bool) (k n : Nat) : Prop :=
  ∃ m ≤ n, (∀ i < m, entry i ≠ some true) ∧ k ≤ saidBefore entry m

theorem streak_newest_mono (entry : Nat → Option Bool) (h : m ≤ n) :
    streak (newest entry m) ≤ streak (newest entry n) := by
  obtain ⟨more, rfl⟩ := Nat.exists_eq_add_of_le h
  rw [newest_add, streak_append]
  split <;> omega

/-- Without a hit every entry that says something is a miss. -/
theorem streak_of_no_hit (h : ∀ i < n, entry i ≠ some true) :
    streak (newest entry n) = saidBefore entry n := by
  induction n with
  | zero => rfl
  | succ n ih =>
      have hbefore : some true ∉ newest entry n := by
        intro hmem
        obtain ⟨i, hi, hit⟩ := mem_newest.mp hmem
        exact h i (Nat.lt_succ_of_lt hi) hit
      have hlast := h n (Nat.lt_succ_self n)
      rw [newest_add, streak_append, if_neg hbefore, ih fun i hi => h i (Nat.lt_succ_of_lt hi),
        saidBefore_succ]
      show _ + streak [entry n] = _
      cases hentry : entry n with
      | none => rfl
      | some hit =>
          cases hit with
          | true => exact absurd hentry hlast
          | false => rfl

theorem le_streak_iff : k ≤ streak (newest entry n) ↔ InARow entry k n := by
  constructor
  · intro h
    induction n with
    | zero => exact ⟨0, Nat.le_refl 0, fun i hi => absurd hi (Nat.not_lt_zero i), h⟩
    | succ n ih =>
        by_cases hhit : ∃ i < n + 1, entry i = some true
        · -- Beyond a hit nothing counts.
          have hstays : streak (newest entry (n + 1)) ≤ streak (newest entry n) := by
            rw [newest_add, streak_append]
            split
            · exact Nat.le_refl _
            next hnone =>
              obtain ⟨i, hi, hit⟩ := hhit
              have hlast : i = n := by
                by_contra hne
                exact hnone (mem_newest.mpr ⟨i, by omega, hit⟩)
              subst hlast
              show _ + streak [entry i] ≤ _
              rw [hit]
              exact Nat.le_refl _
          obtain ⟨m, hm, hrest⟩ := ih (Nat.le_trans h hstays)
          exact ⟨m, Nat.le_succ_of_le hm, hrest⟩
        · have hnone : ∀ i < n + 1, entry i ≠ some true := fun i hi hit => hhit ⟨i, hi, hit⟩
          exact ⟨n + 1, Nat.le_refl _, hnone, streak_of_no_hit hnone ▸ h⟩
  · rintro ⟨m, hm, hnone, hk⟩
    exact Nat.le_trans (streak_of_no_hit hnone ▸ hk) (streak_newest_mono entry hm)

end Entries

end Dagq.Lib
