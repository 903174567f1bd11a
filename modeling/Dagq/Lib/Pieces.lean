/-
# Dagq.Lib.Pieces -- a span of integers cut at bounds.

A sorted list of bounds cuts the span from its first to its last into pieces.  What is the same all over
each piece can be measured piece by piece: the pieces it holds on, added up, are as many integers of the
span as it holds on.
-/
import Mathlib

namespace Dagq.Lib.Pieces

variable {a b x t : Int} {xs : List Int}

/-! ## Bounds -/

/-- Neighbours that are equal, once. -/
def dedupRuns : List Int → List Int
  | [] => []
  | [a] => [a]
  | a :: b :: xs => if a = b then dedupRuns (b :: xs) else a :: dedupRuns (b :: xs)

theorem mem_dedupRuns : x ∈ dedupRuns xs ↔ x ∈ xs := by
  induction xs using dedupRuns.induct with
  | case1 => rfl
  | case2 a => rfl
  | case3 b xs ih =>
      rw [dedupRuns, if_pos rfl, ih]
      simp
  | case4 a b xs hne ih =>
      rw [dedupRuns, if_neg hne, List.mem_cons, ih, ← List.mem_cons]

/-- In order, and none twice. -/
theorem dedupRuns_strict (h : xs.Pairwise (· ≤ ·)) : (dedupRuns xs).Pairwise (· < ·) := by
  induction xs using dedupRuns.induct with
  | case1 => exact .nil
  | case2 a => exact List.pairwise_singleton _ a
  | case3 b xs ih =>
      rw [dedupRuns, if_pos rfl]
      exact ih (List.pairwise_cons.mp h).2
  | case4 a b xs hne ih =>
      obtain ⟨hle, hrest⟩ := List.pairwise_cons.mp h
      have hb : a ≤ b := hle b List.mem_cons_self
      rw [dedupRuns, if_neg hne]
      refine List.pairwise_cons.mpr ⟨fun y hy => ?_, ih hrest⟩
      rcases List.mem_cons.mp (mem_dedupRuns.mp hy) with rfl | hy
      · omega
      · have hby : b ≤ y := (List.pairwise_cons.mp hrest).1 y hy
        omega

/-! ## Pieces -/

/-- The pieces between neighbours. -/
def pieces : List Int → List (Int × Int)
  | a :: b :: xs => (a, b) :: pieces (b :: xs)
  | _ => []

/-- A piece is between two bounds, with no other between them. -/
theorem of_mem_pieces {piece : Int × Int} (h : xs.Pairwise (· < ·)) (hmem : piece ∈ pieces xs) :
    piece.1 ∈ xs ∧ piece.2 ∈ xs ∧ piece.1 < piece.2 ∧ ∀ x ∈ xs, x ≤ piece.1 ∨ piece.2 ≤ x := by
  induction xs using pieces.induct with
  | case1 a b xs ih =>
      obtain ⟨hlt, hrest⟩ := List.pairwise_cons.mp h
      rcases List.mem_cons.mp hmem with rfl | hmem
      · refine ⟨List.mem_cons_self, List.mem_cons_of_mem _ List.mem_cons_self,
          hlt b List.mem_cons_self, fun x hx => ?_⟩
        rcases List.mem_cons.mp hx with rfl | hx
        · exact .inl (Int.le_refl _)
        · rcases List.mem_cons.mp hx with rfl | hx
          · exact .inr (Int.le_refl _)
          · exact .inr (Int.le_of_lt ((List.pairwise_cons.mp hrest).1 x hx))
      · obtain ⟨hstart, hstop, hsize, hnone⟩ := ih hrest hmem
        refine ⟨List.mem_cons_of_mem _ hstart, List.mem_cons_of_mem _ hstop, hsize, fun x hx => ?_⟩
        rcases List.mem_cons.mp hx with rfl | hx
        · exact .inl (Int.le_of_lt (hlt _ hstart))
        · exact hnone x hx
  | case2 xs hshort =>
      rw [pieces.eq_2 xs hshort] at hmem
      exact absurd hmem List.not_mem_nil

/-- An interval between bounds covers all of a piece or none of it. -/
theorem covers_iff {piece : Int × Int} (h : xs.Pairwise (· < ·)) (hmem : piece ∈ pieces xs)
    (ha : a ∈ xs) (hb : b ∈ xs) (ht : piece.1 ≤ t ∧ t < piece.2) :
    (a ≤ piece.1 ∧ piece.2 ≤ b) ↔ a ≤ t ∧ t < b := by
  obtain ⟨_, _, _, hnone⟩ := of_mem_pieces h hmem
  have hstart := hnone a ha
  have hstop := hnone b hb
  omega

/-! ## Measuring piece by piece -/

/-- The lengths of pieces, added up. -/
def lengths : List (Int × Int) → Int
  | [] => 0
  | piece :: rest => piece.2 - piece.1 + lengths rest

theorem lengths_append (ps qs : List (Int × Int)) : lengths (ps ++ qs) = lengths ps + lengths qs := by
  induction ps with
  | nil => exact (Int.zero_add _).symm
  | cons piece ps ih =>
      rw [List.cons_append, lengths, lengths, ih, Int.add_assoc]

/-- The pieces are as long as the span. -/
theorem lengths_pieces (a : Int) (xs : List Int) :
    lengths (pieces (a :: xs)) = (a :: xs).getLast (List.cons_ne_nil a xs) - a := by
  induction xs generalizing a with
  | nil => exact (Int.sub_self a).symm
  | cons b xs ih =>
      rw [pieces, lengths, ih, List.getLast_cons (List.cons_ne_nil b xs)]
      omega

/-- Where `p` does not change within a piece, its pieces are as long as it holds. -/
theorem lengths_filter {p : Int → Prop} [DecidablePred p] (h : (a :: xs).Pairwise (· < ·))
    (hconst : ∀ piece ∈ pieces (a :: xs), ∀ t, piece.1 ≤ t → t < piece.2 → (p t ↔ p piece.1)) :
    lengths ((pieces (a :: xs)).filter fun piece => p piece.1) =
      ((Finset.Ico a ((a :: xs).getLast (List.cons_ne_nil a xs))).filter p).card := by
  induction xs generalizing a with
  | nil => simp [pieces, lengths]
  | cons b xs ih =>
      obtain ⟨hlt, hrest⟩ := List.pairwise_cons.mp h
      have hab : a < b := hlt b List.mem_cons_self
      have hlast : b ≤ (b :: xs).getLast (List.cons_ne_nil b xs) := by
        rcases List.mem_cons.mp (List.getLast_mem (List.cons_ne_nil b xs)) with heq | hmem
        · exact Int.le_of_eq heq.symm
        · exact Int.le_of_lt ((List.pairwise_cons.mp hrest).1 _ hmem)
      -- The first piece counts whole or not at all.
      have hfirst : lengths (([(a, b)] : List (Int × Int)).filter fun piece => p piece.1) =
          ((Finset.Ico a b).filter p).card := by
        have hpiece := hconst (a, b) List.mem_cons_self
        by_cases hp : p a
        · have hall : (Finset.Ico a b).filter p = Finset.Ico a b :=
            Finset.filter_true_of_mem fun t ht =>
              (hpiece t (Finset.mem_Ico.mp ht).1 (Finset.mem_Ico.mp ht).2).mpr hp
          rw [hall, Int.card_Ico]
          simp [hp, lengths]
          omega
        · have hnone : (Finset.Ico a b).filter p = ∅ :=
            Finset.filter_false_of_mem fun t ht hpt =>
              hp ((hpiece t (Finset.mem_Ico.mp ht).1 (Finset.mem_Ico.mp ht).2).mp hpt)
          rw [hnone]
          simp [hp, lengths]
      have hsplit : (Finset.Ico a ((b :: xs).getLast (List.cons_ne_nil b xs))).filter p =
          (Finset.Ico a b).filter p ∪
            (Finset.Ico b ((b :: xs).getLast (List.cons_ne_nil b xs))).filter p := by
        rw [← Finset.filter_union, Finset.Ico_union_Ico_eq_Ico (Int.le_of_lt hab) hlast]
      have hdisjoint : Disjoint ((Finset.Ico a b).filter p)
          ((Finset.Ico b ((b :: xs).getLast (List.cons_ne_nil b xs))).filter p) :=
        Finset.disjoint_filter_filter (Finset.Ico_disjoint_Ico_consecutive a b _)
      rw [List.getLast_cons (List.cons_ne_nil b xs), hsplit, Finset.card_union_of_disjoint hdisjoint]
      have hpieces : pieces (a :: b :: xs) = [(a, b)] ++ pieces (b :: xs) := rfl
      rw [hpieces, List.filter_append, lengths_append, hfirst,
        ih hrest fun piece hmem => hconst piece (List.mem_cons_of_mem _ hmem), Nat.cast_add]

end Dagq.Lib.Pieces
