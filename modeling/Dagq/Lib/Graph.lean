/-
# Dagq.Lib.Graph -- reachability over a finite list of edges, and acyclic relations.

`reached edges seeds` computes what a recursive query over an edge table returns: the seeds and
everything an edge leads to from something already reached.  `mem_reached_iff` says it is exactly
the reflexive transitive closure of the edges.  The second half is about arbitrary relations: an
acyclic relation, and one whose paths all end, stays so when edges go away, and when one edge is added
whose target does not already lead back to its source.
-/
import Mathlib.Logic.Relation
import Mathlib.Order.RelClasses

namespace Dagq.Lib.Graph

variable {α : Type}

/-! ## What a list of edges reaches -/

section Reached

variable [DecidableEq α]

/-- Extend `seen` along one edge that leaves it, at most `n` times. -/
def explore (edges : List (α × α)) : Nat → List α → List α
  | 0, seen => seen
  | n + 1, seen =>
      match edges.find? fun e => e.1 ∈ seen ∧ e.2 ∉ seen with
      | none => seen
      | some e => explore edges n (e.2 :: seen)

/-- Everything the edges lead to from `seeds`, the seeds included. -/
def reached (edges : List (α × α)) (seeds : List α) : List α := explore edges edges.length seeds

/-- The relation a list of edges denotes. -/
def Edge (edges : List (α × α)) (a b : α) : Prop := (a, b) ∈ edges

theorem explore_sound {edges : List (α × α)} {n : Nat} {seen : List α} {b : α}
    (h : b ∈ explore edges n seen) : ∃ a ∈ seen, Relation.ReflTransGen (Edge edges) a b := by
  induction n generalizing seen with
  | zero => exact ⟨b, h, .refl⟩
  | succ n ih =>
      unfold explore at h
      split at h
      · exact ⟨b, h, .refl⟩
      · rename_i e he
        have hfind := List.find?_some he
        simp only [decide_eq_true_eq] at hfind
        obtain ⟨a, ha, hab⟩ := ih h
        rcases List.mem_cons.mp ha with rfl | ha
        · exact ⟨e.1, hfind.1, .head (List.mem_of_find?_eq_some he) hab⟩
        · exact ⟨a, ha, hab⟩

theorem explore_extends {edges : List (α × α)} {n : Nat} {seen : List α} {a : α} (h : a ∈ seen) :
    a ∈ explore edges n seen := by
  induction n generalizing seen with
  | zero => exact h
  | succ n ih =>
      unfold explore
      split
      · exact h
      · exact ih (List.mem_cons_of_mem _ h)

/-- No edge leaves the result: each round spends the edges into the target it adds, so as many
rounds as there are edges with an unseen target are enough. -/
theorem explore_closed {edges : List (α × α)} {n : Nat} {seen : List α}
    (hn : (edges.filter fun e => e.2 ∉ seen).length ≤ n) {a b : α} (hab : (a, b) ∈ edges)
    (ha : a ∈ explore edges n seen) : b ∈ explore edges n seen := by
  induction n generalizing seen with
  | zero =>
      have hnil := List.eq_nil_of_length_eq_zero (Nat.le_zero.mp hn)
      rw [List.filter_eq_nil_iff] at hnil
      simpa [explore] using hnil _ hab
  | succ n ih =>
      unfold explore at ha ⊢
      split at ha
      · rename_i hnone
        rw [List.find?_eq_none] at hnone
        exact Decidable.byContradiction fun hb => hnone _ hab (by simpa using ⟨ha, hb⟩)
      · rename_i e he
        have hfind := List.find?_some he
        simp only [decide_eq_true_eq] at hfind
        have hmem := List.mem_of_find?_eq_some he
        apply ih _ ha
        -- A node is seen that was not: fewer edges lead out of what is seen.
        have hlt : (edges.filter fun x => x.2 ∉ e.2 :: seen).length
            < (edges.filter fun x => x.2 ∉ seen).length := by
          have hsub : (edges.filter fun x => x.2 ∉ e.2 :: seen)
              = (edges.filter fun x => x.2 ∉ seen).filter fun x => x.2 ∉ e.2 :: seen := by
            rw [List.filter_filter]
            apply List.filter_congr
            intro x _
            simp only [List.mem_cons, not_or, Bool.decide_and, decide_not]
            grind
          rw [hsub]
          apply List.length_filter_lt_length_iff_exists.mpr
          exact ⟨e, List.mem_filter.mpr ⟨hmem, by simpa using hfind.2⟩, by simp⟩
        omega

/-- The recursive query computes the reflexive transitive closure. -/
theorem mem_reached_iff {edges : List (α × α)} {seeds : List α} {b : α} :
    b ∈ reached edges seeds ↔ ∃ a ∈ seeds, Relation.ReflTransGen (Edge edges) a b := by
  constructor
  · exact explore_sound
  · rintro ⟨a, ha, hab⟩
    induction hab with
    | refl => exact explore_extends ha
    | tail _ hbc ih => exact explore_closed (List.length_filter_le _ _) hbc ih

end Reached

/-! ## Acyclic relations -/

variable {r s : α → α → Prop}

/-- Nothing leads back to itself. -/
def Acyclic (r : α → α → Prop) : Prop := ∀ a, ¬Relation.TransGen r a a

theorem Acyclic.mono (h : Acyclic r) (hs : ∀ ⦃a b⦄, s a b → r a b) : Acyclic s :=
  fun a ha => h a (Relation.TransGen.mono hs _ _ ha)

/-- `r` with the edge `a → b` besides. -/
def WithEdge (r : α → α → Prop) (a b : α) (x y : α) : Prop := r x y ∨ (x = a ∧ y = b)

/-- A path through `WithEdge` either never takes the new edge, or reaches its source and leaves its
target over the old ones. -/
theorem WithEdge.path {a b x y : α} (h : Relation.ReflTransGen (WithEdge r a b) x y) :
    Relation.ReflTransGen r x y ∨
      (Relation.ReflTransGen r x a ∧ Relation.ReflTransGen r b y) := by
  induction h with
  | refl => exact .inl .refl
  | tail _ hyz ih =>
      rcases hyz with hyz | ⟨rfl, rfl⟩
      · rcases ih with ih | ⟨hxa, hby⟩
        · exact .inl (ih.tail hyz)
        · exact .inr ⟨hxa, hby.tail hyz⟩
      · rcases ih with ih | ⟨hxa, _⟩
        · exact .inr ⟨ih, .refl⟩
        · exact .inr ⟨hxa, .refl⟩

/-- An edge whose target does not lead back to its source closes no cycle. -/
theorem Acyclic.withEdge (h : Acyclic r) {a b : α} (hab : ¬Relation.ReflTransGen r b a) :
    Acyclic (WithEdge r a b) := by
  intro x hx
  obtain ⟨y, hxy, hyx⟩ := Relation.TransGen.tail'_iff.mp hx
  rcases hyx with hyx | ⟨rfl, rfl⟩
  · rcases WithEdge.path hxy with hxy | ⟨hxa, hby⟩
    · exact h x (Relation.TransGen.tail' hxy hyx)
    · exact hab (hby.tail hyx |>.trans hxa)
  · rcases WithEdge.path hxy with hxy | ⟨_, hby⟩
    · exact hab hxy
    · exact hab hby

/-! ## Relations whose paths all end -/

/-- No path goes on forever. -/
def Ends (r : α → α → Prop) : Prop := WellFounded fun b a => r a b

theorem Ends.mono (h : Ends r) (hs : ∀ ⦃a b⦄, s a b → r a b) : Ends s :=
  Subrelation.wf (fun {_ _} hba => hs hba) h

/-- A cycle would be a path that goes on forever. -/
theorem Ends.acyclic (h : Ends r) : Acyclic r := by
  intro a ha
  have hswap : Relation.TransGen (fun y x => r x y) a a := Relation.transGen_swap.mp ha
  exact h.transGen.asymmetric a a hswap hswap

/-- The paths still end with one more edge whose target does not lead back to its source. -/
theorem Ends.withEdge (h : Ends r) {a b : α} (hab : ¬Relation.ReflTransGen r b a) :
    Ends (WithEdge r a b) := by
  -- The new edge is out of reach from the target: paths from there are the old ones.
  have hold : ∀ x, ¬Relation.ReflTransGen r x a → Acc (fun z y => WithEdge r a b y z) x := by
    intro x
    induction h.apply x with
    | intro x _ ih =>
        intro hxa
        refine .intro x fun y hxy => ?_
        rcases hxy with hxy | ⟨rfl, _⟩
        · exact ih y hxy fun hya => hxa (.head hxy hya)
        · exact absurd .refl hxa
  refine ⟨fun x => ?_⟩
  induction h.apply x with
  | intro x _ ih =>
      refine .intro x fun y hxy => ?_
      rcases hxy with hxy | ⟨_, rfl⟩
      · exact ih y hxy
      · exact hold y hab

end Dagq.Lib.Graph
