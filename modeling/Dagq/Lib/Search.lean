/-
# Dagq.Lib.Search -- searching a graph with a stack.

`search next` takes nodes off a stack; one not seen before is kept and its successors are pushed.  Each
node pushes its successors once, so the search ends within as many steps as there are edges and seeds,
whatever cycles the graph has, and what it keeps is everything the seeds lead to, each node once.
-/
import Mathlib.Algebra.GroupWithZero.Nat
import Mathlib.Logic.Relation
import Mathlib.Tactic.SplitIfs

namespace Dagq.Lib.Search

variable {α : Type} [DecidableEq α]

/-- Search from the nodes of the stack, at most `fuel` steps; `none` when that is not enough. -/
def search (next : α → List α) : Nat → List α → List α → Option (List α)
  | 0, _, _ => none
  | _ + 1, seen, [] => some seen
  | fuel + 1, seen, a :: stack =>
      if a ∈ seen then search next fuel seen stack
      else search next fuel (a :: seen) (next a ++ stack)

/-- One edge. -/
def Edge (next : α → List α) (a b : α) : Prop := b ∈ next a

variable {next : α → List α} {fuel : Nat} {seen stack seeds result : List α} {a : α}

theorem search_sound (h : search next fuel seen stack = some result)
    (hseen : ∀ a ∈ seen, ∃ s ∈ seeds, Relation.ReflTransGen (Edge next) s a)
    (hstack : ∀ a ∈ stack, ∃ s ∈ seeds, Relation.ReflTransGen (Edge next) s a) :
    ∀ a ∈ result, ∃ s ∈ seeds, Relation.ReflTransGen (Edge next) s a := by
  induction fuel generalizing seen stack with
  | zero => cases h
  | succ fuel ih =>
      cases stack with
      | nil =>
          cases h
          exact hseen
      | cons a stack =>
          obtain ⟨ha, hrest⟩ := List.forall_mem_cons.mp hstack
          rw [search] at h
          split_ifs at h
          · exact ih h hseen hrest
          · refine ih h (List.forall_mem_cons.mpr ⟨ha, hseen⟩) fun b hb => ?_
            rcases List.mem_append.mp hb with hb | hb
            · obtain ⟨s, hs, hsa⟩ := ha
              exact ⟨s, hs, hsa.tail hb⟩
            · exact hrest b hb

theorem search_extends (h : search next fuel seen stack = some result) :
    (∀ a ∈ seen, a ∈ result) ∧ ∀ a ∈ stack, a ∈ result := by
  induction fuel generalizing seen stack with
  | zero => cases h
  | succ fuel ih =>
      cases stack with
      | nil =>
          cases h
          exact ⟨fun _ ha => ha, by simp⟩
      | cons a stack =>
          rw [search] at h
          split_ifs at h with hmem
          · obtain ⟨hseen, hstack⟩ := ih h
            exact ⟨hseen, List.forall_mem_cons.mpr ⟨hseen a hmem, hstack⟩⟩
          · obtain ⟨hseen, hstack⟩ := ih h
            obtain ⟨ha, hseen⟩ := List.forall_mem_cons.mp hseen
            refine ⟨hseen, List.forall_mem_cons.mpr ⟨ha, fun b hb => ?_⟩⟩
            exact hstack b (List.mem_append_right _ hb)

/-- What a seen node leads to is seen or on the stack, so at the end it is seen. -/
theorem search_closed (h : search next fuel seen stack = some result)
    (hseen : ∀ a ∈ seen, ∀ b ∈ next a, b ∈ seen ∨ b ∈ stack) :
    ∀ a ∈ result, ∀ b ∈ next a, b ∈ result := by
  induction fuel generalizing seen stack with
  | zero => cases h
  | succ fuel ih =>
      cases stack with
      | nil =>
          cases h
          intro a ha b hb
          exact (hseen a ha b hb).resolve_right (by simp)
      | cons c stack =>
          rw [search] at h
          -- One seen before is dropped; a new one leaves its successors on the stack.
          split_ifs at h with hmem
          · refine ih h fun a ha b hb => ?_
            rcases hseen a ha b hb with hin | hin
            · exact .inl hin
            · rcases List.mem_cons.mp hin with rfl | hin
              · exact .inl hmem
              · exact .inr hin
          · refine ih h fun a ha b hb => ?_
            rcases List.mem_cons.mp ha with rfl | ha
            · exact .inr (List.mem_append_left _ hb)
            · rcases hseen a ha b hb with hin | hin
              · exact .inl (List.mem_cons_of_mem _ hin)
              · rcases List.mem_cons.mp hin with rfl | hin
                · exact .inl List.mem_cons_self
                · exact .inr (List.mem_append_right _ hin)

/-- The search keeps exactly what the seeds lead to, the seeds included. -/
theorem mem_search_iff (h : search next fuel [] seeds = some result) :
    a ∈ result ↔ ∃ s ∈ seeds, Relation.ReflTransGen (Edge next) s a := by
  constructor
  · exact search_sound h (by simp) (fun s hs => ⟨s, hs, .refl⟩) a
  · rintro ⟨s, hs, hsa⟩
    induction hsa with
    | refl => exact (search_extends h).2 s hs
    | tail _ hbc ih => exact search_closed h (by simp) _ ih _ hbc

/-! ## Looking for one node -/

/-- Whether the search comes to `goal`: it stops there. -/
def leads (next : α → List α) (goal : α) : Nat → List α → List α → Option Bool
  | 0, _, _ => none
  | _ + 1, _, [] => some false
  | fuel + 1, seen, a :: stack =>
      if a = goal then some true
      else if a ∈ seen then leads next goal fuel seen stack
      else leads next goal fuel (a :: seen) (next a ++ stack)

/-- Where the whole search ends, the one that stops at `goal` says whether that finds it. -/
theorem leads_of_search {goal : α} (h : search next fuel seen stack = some result)
    (hnew : goal ∉ seen) : leads next goal fuel seen stack = some (decide (goal ∈ result)) := by
  induction fuel generalizing seen stack with
  | zero => cases h
  | succ fuel ih =>
      cases stack with
      | nil =>
          cases h
          rw [leads, decide_eq_false hnew]
      | cons a stack =>
          have hfound : a ∈ result := (search_extends h).2 a List.mem_cons_self
          rw [search] at h
          rw [leads]
          split_ifs at h ⊢ with hgoal hseen hseen
          · rw [← hgoal, decide_eq_true hfound]
          · rw [← hgoal, decide_eq_true hfound]
          · exact ih h hnew
          · refine ih h fun hin => ?_
            rcases List.mem_cons.mp hin with rfl | hin
            · exact hgoal rfl
            · exact hnew hin

/-! ## The search ends -/

/-- The edges that leave nodes not seen yet. -/
def unspent (next : α → List α) (nodes seen : List α) : Nat :=
  (nodes.map fun a => if a ∈ seen then 0 else (next a).length).sum

/-- A node seen for the first time spends its edges. -/
theorem unspent_cons_le {nodes : List α} (hnew : a ∉ seen) (hmem : a ∈ nodes) :
    unspent next nodes (a :: seen) + (next a).length ≤ unspent next nodes seen := by
  -- No node leaves more edges than before.
  have hone (b : α) : (if b ∈ a :: seen then 0 else (next b).length) ≤
      if b ∈ seen then 0 else (next b).length := by
    split_ifs with hb hb'
    · exact Nat.le_refl 0
    · exact Nat.zero_le _
    · exact absurd (List.mem_cons_of_mem a ‹_›) hb
    · exact Nat.le_refl _
  have hmono (rest : List α) : unspent next rest (a :: seen) ≤ unspent next rest seen := by
    induction rest with
    | nil => exact Nat.le_refl _
    | cons b rest ih => exact Nat.add_le_add (hone b) ih
  induction nodes with
  | nil => cases hmem
  | cons b nodes ih =>
      rw [unspent, unspent, List.map_cons, List.map_cons, List.sum_cons, List.sum_cons]
      by_cases hba : a = b
      · subst hba
        have hle : unspent next nodes (a :: seen) ≤ unspent next nodes seen := hmono nodes
        rw [if_pos List.mem_cons_self, if_neg hnew]
        unfold unspent at hle
        omega
      · have hle := ih ((List.mem_cons.mp hmem).resolve_left hba)
        have hb := hone b
        unfold unspent at hle
        omega

theorem search_isSome {nodes : List α} (hnext : ∀ a, ∀ b ∈ next a, b ∈ nodes)
    (hstack : ∀ a ∈ stack, a ∈ nodes) (hfuel : stack.length + unspent next nodes seen < fuel) :
    (search next fuel seen stack).isSome := by
  induction fuel generalizing seen stack with
  | zero => omega
  | succ fuel ih =>
      cases stack with
      | nil => rfl
      | cons a stack =>
          obtain ⟨ha, hrest⟩ := List.forall_mem_cons.mp hstack
          rw [List.length_cons] at hfuel
          rw [search]
          split_ifs with hmem
          · exact ih hrest (by omega)
          · refine ih (fun b hb => ?_) ?_
            · rcases List.mem_append.mp hb with hb | hb
              · exact hnext a b hb
              · exact hrest b hb
            · have hle : unspent next nodes (a :: seen) + (next a).length ≤ unspent next nodes seen :=
                unspent_cons_le hmem ha
              rw [List.length_append]
              omega

end Dagq.Lib.Search
