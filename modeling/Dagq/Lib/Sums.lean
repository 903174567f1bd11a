/-
# Dagq.Lib.Sums -- integers added up over a list of keys.
-/
import Mathlib.Data.Int.Order.Basic

namespace Dagq.Lib

variable {κ : Type} {n : Int} {key : κ} {keys : List κ}

/-- The values of some keys, added up. -/
def addUp (value : κ → Int) : List κ → Int
  | [] => 0
  | key :: rest => value key + addUp value rest

theorem addUp_add (f g : κ → Int) (keys : List κ) :
    addUp (fun key => f key + g key) keys = addUp f keys + addUp g keys := by
  induction keys with
  | nil => rfl
  | cons key keys ih =>
      rw [addUp, addUp, addUp, ih]
      omega

theorem addUp_nonneg {f : κ → Int} (h : ∀ key ∈ keys, 0 ≤ f key) : 0 ≤ addUp f keys := by
  induction keys with
  | nil => exact Int.le_refl 0
  | cons key keys ih =>
      have hkey := h key List.mem_cons_self
      have hrest := ih fun other hmem => h other (List.mem_cons_of_mem _ hmem)
      rw [addUp]
      omega

/-- What stands under one key is counted once. -/
theorem addUp_single [DecidableEq κ] (hnodup : keys.Nodup) (hmem : key ∈ keys) :
    addUp (fun other => if key = other then n else 0) keys = n := by
  have hzero : ∀ others : List κ, key ∉ others →
      addUp (fun other => if key = other then n else 0) others = 0 := by
    intro others hnot
    induction others with
    | nil => rfl
    | cons other others ih =>
        have hne : key ≠ other := fun h => hnot (h ▸ List.mem_cons_self)
        rw [addUp, if_neg hne, ih fun h => hnot (List.mem_cons_of_mem _ h), Int.add_zero]
  induction keys with
  | nil => exact absurd hmem List.not_mem_nil
  | cons first keys ih =>
      obtain ⟨hnot, hrest⟩ := List.nodup_cons.mp hnodup
      rw [addUp]
      rcases List.mem_cons.mp hmem with rfl | hmem
      · rw [if_pos rfl, hzero keys hnot, Int.add_zero]
      · have hne : key ≠ first := fun h => hnot (h ▸ hmem)
        rw [if_neg hne, ih hrest hmem, Int.zero_add]

/-- Cutting each value to whole units loses what the remainders add up to. -/
theorem addUp_ediv (f : κ → Int) (unit : Int) (keys : List κ) :
    addUp f keys = unit * addUp (fun key => f key / unit) keys + addUp (fun key => f key % unit) keys := by
  induction keys with
  | nil => simp [addUp]
  | cons key keys ih =>
      have hkey := Int.mul_ediv_add_emod (f key) unit
      rw [addUp, addUp, addUp, Int.mul_add, ih]
      omega

end Dagq.Lib
