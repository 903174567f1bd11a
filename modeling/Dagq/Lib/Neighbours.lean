/-
# Dagq.Lib.Neighbours -- neighbours of a list sorted by a key.

Sorting is stable, so the entries of one key stay in the order they came in.  The two neighbours around
a key of the sorted list can therefore be told from the list itself: something at or before the key,
and the first, in the order the entries came in, of the earliest after it.
-/
import Mathlib

namespace Dagq.Lib.Neighbours

variable {α β : Type} [LinearOrder β] {f : α → β} {p q : α → Bool} {l : List α} {b : α} {t : β}

/-- In the order of a key. -/
abbrev byKey (f : α → β) (l : List α) : List α := l.mergeSort fun a b => f a ≤ f b

theorem byKey_sorted (f : α → β) (l : List α) : (byKey f l).Pairwise fun a b => f a ≤ f b := by
  refine (List.pairwise_mergeSort (fun a b c hab hbc => ?_) (fun a b => ?_) l).imp of_decide_eq_true
  · rw [decide_eq_true_eq] at *
    exact hab.trans hbc
  · rw [Bool.or_eq_true, decide_eq_true_eq, decide_eq_true_eq]
    exact le_total (f a) (f b)

/-- Entries of one key stay in the order they came in. -/
theorem filter_byKey (f : α → β) (l : List α) (key : β) :
    (byKey f l).filter (f · = key) = l.filter (f · = key) := by
  have hsame : (l.filter (f · = key)).Pairwise fun a b => decide (f a ≤ f b) = true := by
    refine List.pairwise_of_forall_mem_list fun a ha b hb => decide_eq_true ?_
    rw [of_decide_eq_true (List.mem_filter.mp ha).2, of_decide_eq_true (List.mem_filter.mp hb).2]
  have hsub : (l.filter (f · = key)).Sublist (byKey f l) :=
    List.sublist_mergeSort (fun a b c hab hbc => by
      rw [decide_eq_true_eq] at *
      exact hab.trans hbc) (fun a b => by
      rw [Bool.or_eq_true, decide_eq_true_eq, decide_eq_true_eq]
      exact le_total (f a) (f b)) hsame List.filter_sublist
  have hfilter := hsub.filter (f · = key)
  rw [List.filter_filter] at hfilter
  simp only [Bool.and_self] at hfilter
  exact (hfilter.eq_of_length ((List.mergeSort_perm l _).filter _).length_eq.symm).symm

/-- Of a sorted list the first entry after the key comes first of all entries after it. -/
theorem find?_after_le (hsorted : l.Pairwise fun a b => f a ≤ f b)
    (hfind : l.find? (t < f ·) = some b) : ∀ a ∈ l, t < f a → f b ≤ f a := by
  obtain ⟨_, before, after, rfl, hbefore⟩ := List.find?_eq_some_iff_append.mp hfind
  intro a ha hlt
  rcases List.mem_append.mp ha with ha | ha
  · have hnot := hbefore a ha
    rw [decide_eq_true hlt] at hnot
    cases hnot
  · rcases List.mem_cons.mp ha with rfl | ha
    · exact le_rfl
    · exact (List.pairwise_cons.mp (List.pairwise_append.mp hsorted).2.1).1 a ha

/-- The first entry of the sorted list after the key is the first, in the list itself, of the earliest
entries after it. -/
theorem find?_byKey_iff : (byKey f (l.filter p)).find? (t < f ·) = some b ↔
    ∃ before after, l = before ++ b :: after ∧ p b = true ∧ t < f b ∧
      (∀ a ∈ before, p a = true → t < f a → f b < f a) ∧
        ∀ a ∈ after, p a = true → t < f a → f b ≤ f a := by
  have hfirst {b : α} (hfind : (byKey f (l.filter p)).find? (t < f ·) = some b) :
      l.find? (fun a => p a && decide (f a = f b)) = some b ∧ t < f b ∧
        ∀ a ∈ l, p a = true → t < f a → f b ≤ f a := by
    have hlt := List.find?_some hfind
    rw [decide_eq_true_eq] at hlt
    refine ⟨?_, hlt, fun a ha hp => ?_⟩
    · have hand : (fun a => p a && decide (f a = f b)) =
          fun a => decide (p a = true ∧ decide (f a = f b) = true) := by
        funext a
        rw [Bool.decide_and, Bool.decide_eq_true, Bool.decide_eq_true]
      rw [hand, ← List.find?_filter, ← List.head?_filter, ← filter_byKey, List.head?_filter]
      obtain ⟨_, before, after, hsplit, hbefore⟩ := List.find?_eq_some_iff_append.mp hfind
      refine List.find?_eq_some_iff_append.mpr ⟨decide_eq_true rfl, before, after, hsplit, fun a ha => ?_⟩
      have hnot := hbefore a ha
      rw [Bool.not_eq_true', decide_eq_false_iff_not] at hnot ⊢
      exact fun heq => hnot (heq ▸ hlt)
    · exact find?_after_le (byKey_sorted f _) hfind a
        ((List.mergeSort_perm _ _).mem_iff.mpr (List.mem_filter.mpr ⟨ha, hp⟩))
  constructor
  · intro hfind
    obtain ⟨hfound, hlt, hle⟩ := hfirst hfind
    obtain ⟨hb, before, after, rfl, hbefore⟩ := List.find?_eq_some_iff_append.mp hfound
    rw [Bool.and_eq_true] at hb
    refine ⟨before, after, rfl, hb.1, hlt, fun a ha hp hafter => ?_, fun a ha => ?_⟩
    · refine lt_of_le_of_ne (hle a (List.mem_append_left _ ha) hp hafter) fun heq => ?_
      have hnot := hbefore a ha
      rw [hp, decide_eq_true heq.symm] at hnot
      cases hnot
    · exact hle a (List.mem_append_right _ (List.mem_cons_of_mem _ ha))
  · rintro ⟨before, after, rfl, hp, hlt, hbefore, hafter⟩
    have hmem : b ∈ byKey f ((before ++ b :: after).filter p) :=
      (List.mergeSort_perm _ _).mem_iff.mpr
        (List.mem_filter.mpr ⟨List.mem_append_right _ List.mem_cons_self, hp⟩)
    cases hfind : (byKey f ((before ++ b :: after).filter p)).find? (t < f ·) with
    | none => exact absurd (decide_eq_true hlt) (List.find?_eq_none.mp hfind b hmem)
    | some c =>
        -- Both are the first entry of the key they share.
        obtain ⟨hfound, hltc, hle⟩ := hfirst hfind
        have hcb : f c ≤ f b := hle b (List.mem_append_right _ List.mem_cons_self) hp hlt
        have hc := List.mem_of_find?_eq_some hfound
        have hpc := List.find?_some hfound
        rw [Bool.and_eq_true] at hpc
        have hbc : f b ≤ f c := by
          rcases List.mem_append.mp hc with hc | hc
          · exact (hbefore c hc hpc.1 hltc).le
          · rcases List.mem_cons.mp hc with rfl | hc
            · exact le_rfl
            · exact hafter c hc hpc.1 hltc
        have hfoundb : (before ++ b :: after).find? (fun a => p a && decide (f a = f c)) = some b := by
          refine List.find?_eq_some_iff_append.mpr ⟨?_, before, after, rfl, fun a ha => ?_⟩
          · rw [hp, decide_eq_true (hbc.antisymm hcb)]
            rfl
          · rw [Bool.not_eq_true', Bool.and_eq_false_iff, decide_eq_false_iff_not]
            by_cases hpa : p a = true
            · refine .inr fun heq => ?_
              have hless := hbefore a ha hpa (heq ▸ hltc)
              exact absurd (heq ▸ hless) (not_lt.mpr hcb)
            · exact .inl (eq_false_of_ne_true hpa)
        rw [hfound] at hfoundb
        exact hfoundb

/-- A sorted list has neighbours around the key, the second with `q`, where it has something up to the
key and its first entry after it has `q`. -/
theorem exists_neighbours_iff (hsorted : l.Pairwise fun a b => f a ≤ f b) :
    (∃ pair ∈ l.zip l.tail, q pair.2 = true ∧ f pair.1 ≤ t ∧ t < f pair.2) ↔
      (∃ a ∈ l, f a ≤ t) ∧ ∃ b, l.find? (t < f ·) = some b ∧ q b = true := by
  induction l with
  | nil => simp
  | cons a l ih =>
      obtain ⟨hle, hrest⟩ := List.pairwise_cons.mp hsorted
      by_cases ha : t < f a
      · -- The whole list is after the key.
        have hall : ∀ x ∈ a :: l, t < f x := by
          intro x hx
          rcases List.mem_cons.mp hx with rfl | hx
          · exact ha
          · exact ha.trans_le (hle x hx)
        constructor
        · rintro ⟨pair, hpair, _, hbehind, _⟩
          exact absurd (hall pair.1 (List.of_mem_zip hpair).1) (not_lt.mpr hbehind)
        · rintro ⟨⟨x, hx, hbehind⟩, _⟩
          exact absurd (hall x hx) (not_lt.mpr hbehind)
      · have hbehind : f a ≤ t := not_lt.mp ha
        rw [List.find?_cons_of_neg (by simpa using ha)]
        cases l with
        | nil => simp
        | cons c l =>
            rw [List.tail_cons, List.zip_cons_cons, List.exists_mem_cons_iff]
            rw [List.tail_cons] at ih
            by_cases hc : t < f c
            · have hfind : (c :: l).find? (t < f ·) = some c :=
                List.find?_cons_of_pos (decide_eq_true hc)
              have hnone : ¬∃ x ∈ c :: l, f x ≤ t := by
                rintro ⟨x, hx, hbehind'⟩
                rcases List.mem_cons.mp hx with rfl | hx
                · exact absurd hc (not_lt.mpr hbehind')
                · exact absurd (hc.trans_le ((List.pairwise_cons.mp hrest).1 x hx)) (not_lt.mpr hbehind')
              rw [ih hrest, hfind]
              constructor
              · rintro (⟨hq, _, _⟩ | ⟨hsome, _⟩)
                · exact ⟨⟨a, List.mem_cons_self, hbehind⟩, c, rfl, hq⟩
                · exact absurd hsome hnone
              · rintro ⟨_, x, hx, hq⟩
                obtain rfl := Option.some.inj hx
                exact .inl ⟨hq, hbehind, hc⟩
            · rw [ih hrest]
              constructor
              · rintro (⟨_, _, hlt⟩ | ⟨_, hsome⟩)
                · exact absurd hlt hc
                · exact ⟨⟨a, List.mem_cons_self, hbehind⟩, hsome⟩
              · rintro ⟨_, hsome⟩
                exact .inr ⟨⟨c, List.mem_cons_self, not_lt.mp hc⟩, hsome⟩

end Dagq.Lib.Neighbours
