/-
# Dagq.Lib.Words -- the runs between blanks, and texts cut at a separator.

`words` are the maximal runs free of blanks.  A word is found again wherever the text is put together
from blank-delimited parts, and what the words of the parts are after a cut at a separator depends on
the words of the text alone: not on which blanks there are, nor how many.
-/
import Mathlib.Data.List.Basic
import Mathlib.Data.List.TakeWhile

namespace Dagq.Lib

variable {α : Type}

section Words

variable (blank : α → Bool)

/-- The runs of the text free of blanks, in order. -/
def words (text : List α) : List (List α) := (text.splitOnP blank).filter fun run => !run.isEmpty

/-- A text with no blank and something in it. -/
structure IsWord (w : List α) : Prop where
  nonempty : w ≠ []
  solid : ∀ a ∈ w, blank a = false

theorem IsWord.of_all {w : List α} (hw : w.isEmpty = false) (h : w.all (!blank ·) = true) :
    IsWord blank w := by
  refine ⟨fun hnil => ?_, fun a ha => ?_⟩
  · rw [hnil] at hw
    cases hw
  · simpa using List.all_eq_true.mp h a ha

/-- A word ends before such a text. -/
def Breaks (text : List α) : Prop := ∀ a ∈ text.head?, blank a = true

/-- A word begins after such a text. -/
def Delimits (text : List α) : Prop := ∀ a ∈ text.getLast?, blank a = true

end Words

variable {blank : α → Bool}

theorem Breaks.nil : Breaks blank [] := nofun

theorem Breaks.cons {a : α} (h : blank a = true) (text : List α) : Breaks blank (a :: text) := by
  intro b hb
  rw [List.head?_cons, Option.mem_some_iff] at hb
  exact hb ▸ h

theorem Delimits.nil : Delimits blank ([] : List α) := nofun

theorem Delimits.of_blank {p : List α} (h : ∀ a ∈ p, blank a = true) : Delimits blank p :=
  fun a ha => h a (List.mem_of_getLast? ha)

theorem Delimits.append {p q : List α} (hq : Delimits blank q) (hp : q = [] → Delimits blank p) :
    Delimits blank (p ++ q) := by
  rcases List.eq_nil_or_concat q with rfl | ⟨q, b, rfl⟩
  · rw [List.append_nil]
    exact hp rfl
  · intro a ha
    refine hq a ?_
    simpa using ha

/-- A word does not follow another with no blank between. -/
theorem Delimits.append_left {p v q r : List α} (hv : IsWord blank v)
    (hbreaks : Breaks blank (q ++ (v ++ r))) (hq : q = []) : Delimits blank p := by
  subst hq
  obtain ⟨a, v, rfl⟩ := List.exists_cons_of_ne_nil hv.nonempty
  have hsolid := hv.solid a List.mem_cons_self
  rw [hbreaks a rfl] at hsolid
  cases hsolid

theorem IsWord.append {u v : List α} (hu : IsWord blank u) (hv : ∀ a ∈ v, blank a = false) :
    IsWord blank (u ++ v) := by
  refine ⟨by simp [hu.nonempty], fun a ha => ?_⟩
  rcases List.mem_append.mp ha with ha | ha
  · exact hu.solid a ha
  · exact hv a ha

/-! ## The words of a text -/

@[simp] theorem words_nil : words blank ([] : List α) = [] := rfl

theorem words_append_cons {b : α} (hb : blank b = true) (s t : List α) :
    words blank (s ++ b :: t) = words blank s ++ words blank t := by
  unfold words
  rw [List.splitOnP_append_cons s t hb, List.filter_append]

theorem words_cons {b : α} (hb : blank b = true) (t : List α) :
    words blank (b :: t) = words blank t := words_append_cons hb [] t

theorem words_blanks {p : List α} (hp : ∀ a ∈ p, blank a = true) (t : List α) :
    words blank (p ++ t) = words blank t := by
  induction p with
  | nil => rfl
  | cons b p ih =>
      rw [List.cons_append, words_cons (hp b List.mem_cons_self)]
      exact ih fun a ha => hp a (List.mem_cons_of_mem b ha)

theorem words_append_blanks {p : List α} (hp : ∀ a ∈ p, blank a = true) (t : List α) :
    words blank (t ++ p) = words blank t := by
  cases p with
  | nil => rw [List.append_nil]
  | cons b p =>
      have hrest := words_blanks (fun a ha => hp a (List.mem_cons_of_mem b ha)) ([] : List α)
      rw [List.append_nil, words_nil] at hrest
      rw [words_append_cons (hp b List.mem_cons_self), hrest, List.append_nil]

theorem IsWord.words_eq {w : List α} (h : IsWord blank w) : words blank w = [w] := by
  unfold words
  rw [List.splitOnP_eq_singleton h.solid]
  exact List.filter_cons_of_pos (by simpa using h.nonempty)

theorem IsWord.words_append {w q : List α} (h : IsWord blank w) (hq : Breaks blank q) :
    words blank (w ++ q) = w :: words blank q := by
  cases q with
  | nil => rw [List.append_nil, h.words_eq, words_nil]
  | cons b q =>
      have hb : blank b = true := hq b rfl
      rw [words_append_cons hb, words_cons hb, h.words_eq]
      rfl

/-- A delimited word is one of the words, between those before and those behind it. -/
theorem IsWord.words_mid {p w q : List α} (h : IsWord blank w) (hp : Delimits blank p)
    (hq : Breaks blank q) : words blank (p ++ w ++ q) = words blank p ++ w :: words blank q := by
  rcases List.eq_nil_or_concat p with rfl | ⟨p, b, rfl⟩
  · exact h.words_append hq
  · have hb : blank b = true := hp b (by simp)
    rw [List.concat_eq_append, List.append_assoc, List.append_assoc, List.singleton_append,
      words_append_cons hb, h.words_append hq, words_append_cons hb, words_nil, List.append_nil]

/-- Every text is blanks, a word and a rest that ends it, or blanks alone. -/
theorem words_cases (text : List α) :
    (∀ a ∈ text, blank a = true) ∨
      ∃ p w q, text = p ++ w ++ q ∧ (∀ a ∈ p, blank a = true) ∧ IsWord blank w ∧ Breaks blank q := by
  by_cases hall : ∀ a ∈ text, blank a = true
  · exact .inl hall
  · have hdrop : text.dropWhile blank ≠ [] := by
      rwa [ne_eq, List.dropWhile_eq_nil_iff]
    obtain ⟨c, cs, hcs⟩ := List.exists_cons_of_ne_nil hdrop
    have hc : blank c = false := by
      have hnot := List.head_dropWhile_not blank hdrop
      simpa [hcs] using hnot
    refine .inr ⟨text.takeWhile blank, (c :: cs).takeWhile (!blank ·),
      (c :: cs).dropWhile (!blank ·), ?_, fun a ha => List.mem_takeWhile_imp ha, ?_, ?_⟩
    · rw [List.append_assoc, List.takeWhile_append_dropWhile, ← hcs,
        List.takeWhile_append_dropWhile]
    · refine ⟨by simp [hc], fun a ha => ?_⟩
      simpa using List.mem_takeWhile_imp ha
    · intro a ha
      have hnot := List.head?_dropWhile_not (!blank ·) (c :: cs)
      rw [Option.mem_def] at ha
      rw [ha] at hnot
      simpa using hnot

theorem words_eq_nil_iff {text : List α} : words blank text = [] ↔ ∀ a ∈ text, blank a = true := by
  constructor
  · intro h
    refine (words_cases text).resolve_right ?_
    rintro ⟨p, w, q, rfl, hp, hw, hq⟩
    rw [List.append_assoc, words_blanks hp, hw.words_append hq] at h
    cases h
  · intro h
    simpa using words_blanks h ([] : List α)

/-- The first word, and what stands around it. -/
theorem words_eq_cons {text w : List α} {ws : List (List α)} (h : words blank text = w :: ws) :
    ∃ p q, text = p ++ w ++ q ∧ (∀ a ∈ p, blank a = true) ∧ IsWord blank w ∧ Breaks blank q ∧
      words blank q = ws := by
  rcases words_cases text with hall | ⟨p, v, q, rfl, hp, hv, hq⟩
  · rw [words_eq_nil_iff.mpr hall] at h
    cases h
  · rw [List.append_assoc, words_blanks hp, hv.words_append hq] at h
    cases h
    exact ⟨p, q, rfl, hp, hv, hq, rfl⟩

/-- A letter right before a word is its first. -/
theorem words_cons_solid {a : α} {text w : List α} {ws : List (List α)} (ha : blank a = false)
    (hnot : ¬Breaks blank text) (h : words blank text = w :: ws) :
    words blank (a :: text) = (a :: w) :: ws := by
  obtain ⟨p, q, rfl, hp, hw, hq, rfl⟩ := words_eq_cons h
  cases p with
  | nil =>
      have hword : IsWord blank (a :: w) :=
        ⟨List.cons_ne_nil a w, List.forall_mem_cons.mpr ⟨ha, hw.solid⟩⟩
      exact hword.words_append hq
  | cons b p => exact absurd (.cons (hp b List.mem_cons_self) _) hnot

theorem words_cons_congr {a : α} {s t : List α} (ha : blank a = false)
    (hbreaks : Breaks blank s ↔ Breaks blank t) (h : words blank s = words blank t) :
    words blank (a :: s) = words blank (a :: t) := by
  have hletter : IsWord blank [a] := ⟨List.cons_ne_nil a [], List.forall_mem_singleton.mpr ha⟩
  by_cases hs : Breaks blank s
  · have hsplit := hletter.words_append hs
    have htsplit := hletter.words_append (hbreaks.mp hs)
    rw [h, ← htsplit] at hsplit
    exact hsplit
  · cases hws : words blank s with
    | nil =>
        have hblank := words_eq_nil_iff.mp hws
        exact absurd (fun b hb => hblank b (List.mem_of_mem_head? hb)) hs
    | cons w ws =>
        rw [words_cons_solid ha hs hws, words_cons_solid ha (mt hbreaks.mpr hs) (h ▸ hws)]

/-- A word of the text stands in it, delimited. -/
theorem mem_words {text w : List α} (h : w ∈ words blank text) :
    ∃ p q, text = p ++ w ++ q ∧ Delimits blank p ∧ IsWord blank w ∧ Breaks blank q := by
  generalize hws : words blank text = ws at h
  induction ws generalizing text with
  | nil => cases h
  | cons v ws ih =>
      obtain ⟨p, q, rfl, hp, hv, hq, hrest⟩ := words_eq_cons hws
      rcases List.mem_cons.mp h with rfl | h
      · exact ⟨p, q, rfl, .of_blank hp, hv, hq⟩
      · obtain ⟨p', q', rfl, hp', hw, hq'⟩ := ih hrest h
        refine ⟨p ++ v ++ p', q', by simp only [List.append_assoc], ?_, hw, hq'⟩
        exact hp'.append (.append_left hw (by rwa [List.append_assoc] at hq))

theorem mem_words_isWord {text w : List α} (h : w ∈ words blank text) : IsWord blank w := by
  obtain ⟨_, _, _, _, hw, _⟩ := mem_words h
  exact hw

/-- The words of a text changed letter by letter. -/
theorem words_map {β : Type} {blank' : β → Bool} {f : α → β} (h : ∀ a, blank' (f a) = blank a)
    (text : List α) : words blank' (text.map f) = (words blank text).map (List.map f) := by
  generalize hws : words blank text = ws
  induction ws generalizing text with
  | nil =>
      refine words_eq_nil_iff.mpr fun b hb => ?_
      obtain ⟨a, ha, rfl⟩ := List.mem_map.mp hb
      exact (h a).trans (words_eq_nil_iff.mp hws a ha)
  | cons w ws ih =>
      obtain ⟨p, q, rfl, hp, hw, hq, hrest⟩ := words_eq_cons hws
      have hpblank : ∀ b ∈ p.map f, blank' b = true := by
        intro b hb
        obtain ⟨a, ha, rfl⟩ := List.mem_map.mp hb
        exact (h a).trans (hp a ha)
      have hword : IsWord blank' (w.map f) := by
        refine ⟨by simpa using hw.nonempty, fun b hb => ?_⟩
        obtain ⟨a, ha, rfl⟩ := List.mem_map.mp hb
        exact (h a).trans (hw.solid a ha)
      have hbreaks : Breaks blank' (q.map f) := by
        intro b hb
        rw [List.head?_map, Option.mem_def, Option.map_eq_some_iff] at hb
        obtain ⟨a, ha, rfl⟩ := hb
        exact (h a).trans (hq a ha)
      rw [List.map_append, List.map_append, List.append_assoc, words_blanks hpblank,
        hword.words_append hbreaks, ih q hrest, List.map_cons]

/-- A text up to the last blank, and behind it. -/
theorem exists_delimits (blank : α → Bool) (s : List α) :
    ∃ s₁ s₂, s = s₁ ++ s₂ ∧ Delimits blank s₁ ∧ ∀ a ∈ s₂, blank a = false := by
  refine ⟨(s.reverse.dropWhile (!blank ·)).reverse, (s.reverse.takeWhile (!blank ·)).reverse, ?_,
    fun a ha => ?_, fun a ha => ?_⟩
  · rw [← List.reverse_append, List.takeWhile_append_dropWhile, List.reverse_reverse]
  · have hnot := List.head?_dropWhile_not (!blank ·) s.reverse
    rw [List.getLast?_reverse, Option.mem_def] at ha
    rw [ha] at hnot
    simpa using hnot
  · rw [List.mem_reverse] at ha
    simpa using List.mem_takeWhile_imp ha

/-- A text up to its first blank, and from there. -/
theorem exists_breaks (blank : α → Bool) (t : List α) :
    ∃ t₁ t₂, t = t₁ ++ t₂ ∧ (∀ a ∈ t₁, blank a = false) ∧ Breaks blank t₂ := by
  refine ⟨t.takeWhile (!blank ·), t.dropWhile (!blank ·), List.takeWhile_append_dropWhile.symm,
    fun a ha => ?_, fun a ha => ?_⟩
  · simpa using List.mem_takeWhile_imp ha
  · have hnot := List.head?_dropWhile_not (!blank ·) t
    rw [Option.mem_def] at ha
    rw [ha] at hnot
    simpa using hnot

theorem IsWord.append_left {u v : List α} (hv : IsWord blank v) (hu : ∀ a ∈ u, blank a = false) :
    IsWord blank (u ++ v) := by
  refine ⟨by simp [hv.nonempty], fun a ha => ?_⟩
  rcases List.mem_append.mp ha with ha | ha
  · exact hu a ha
  · exact hv.solid a ha

/-- What has no blank in it stands within a word. -/
theorem exists_word_within {part text : List α} (hpart : IsWord blank part) (h : part <:+: text) :
    ∃ w ∈ words blank text, part <:+: w := by
  obtain ⟨s, t, rfl⟩ := h
  obtain ⟨s₁, s₂, rfl, hbefore, hs₂⟩ := exists_delimits blank s
  obtain ⟨t₁, t₂, rfl, ht₁, hafter⟩ := exists_breaks blank t
  have hwords := ((hpart.append_left hs₂).append ht₁).words_mid hbefore hafter
  have htext : s₁ ++ s₂ ++ part ++ (t₁ ++ t₂) = s₁ ++ (s₂ ++ part ++ t₁) ++ t₂ := by
    simp only [List.append_assoc]
  rw [htext, hwords]
  exact ⟨_, List.mem_append_right _ List.mem_cons_self, s₂, t₁, rfl⟩

/-- A text that ends in a word ends in a word that ends in it. -/
theorem IsWord.words_last {v : List α} (h : IsWord blank v) (s : List α) :
    ∃ ws w, words blank (s ++ v) = ws ++ [w] ∧ v <:+ w := by
  obtain ⟨s₁, s₂, rfl, hbefore, hs₂⟩ := exists_delimits blank s
  have hwords := (h.append_left hs₂).words_mid hbefore .nil
  rw [List.append_nil, words_nil, ← List.append_assoc] at hwords
  exact ⟨_, _, hwords, List.suffix_append s₂ v⟩

/-- A text that begins with a word begins with a word that begins with it. -/
theorem IsWord.words_first {v : List α} (h : IsWord blank v) (t : List α) :
    ∃ w ws, words blank (v ++ t) = w :: ws ∧ v <+: w := by
  obtain ⟨t₁, t₂, rfl, ht₁, hafter⟩ := exists_breaks blank t
  have hwords := (h.append ht₁).words_append hafter
  rw [List.append_assoc] at hwords
  exact ⟨_, _, hwords, List.prefix_append v t₁⟩

/-- Words put together with a blank between are the words again. -/
theorem words_intercalate {sp : α} (hsp : blank sp = true) {ws : List (List α)}
    (h : ∀ w ∈ ws, IsWord blank w) : words blank ([sp].intercalate ws) = ws := by
  induction ws with
  | nil => rfl
  | cons w ws ih =>
      obtain ⟨hw, hws⟩ := List.forall_mem_cons.mp h
      cases ws with
      | nil => rw [List.intercalate_singleton, hw.words_eq]
      | cons v ws =>
          rw [List.intercalate_cons_cons, List.append_assoc, List.singleton_append,
            hw.words_append (.cons hsp _), words_cons hsp, ih hws]

theorem ne_of_blank {a b : α} (ha : blank a = false) (hb : blank b = true) : b ≠ a := by
  rintro rfl
  rw [ha] at hb
  cases hb

/-! ## Cut at a separator -/

section Pieces

variable [BEq α] [LawfulBEq α] {sep : α}

/-- The words of the parts between separators. -/
def pieces (blank : α → Bool) (sep : α) (text : List α) : List (List (List α)) :=
  (text.splitOn sep).map (words blank)

theorem splitOn_cons_self (t : List α) : (sep :: t).splitOn sep = [] :: t.splitOn sep := by
  rw [List.splitOn_cons_eq_if_modifyHead, if_pos (beq_self_eq_true sep)]

theorem splitOn_cons_of_ne {a : α} (h : a ≠ sep) (t : List α) :
    ∃ c cs, t.splitOn sep = c :: cs ∧ (a :: t).splitOn sep = (a :: c) :: cs := by
  obtain ⟨c, cs, hcs⟩ := List.exists_cons_of_ne_nil (List.splitOn_ne_nil sep t)
  refine ⟨c, cs, hcs, ?_⟩
  rw [List.splitOn_cons_eq_if_modifyHead, if_neg (by simpa using h), hcs]
  rfl

theorem mem_splitOn {c text : List α} (h : c ∈ text.splitOn sep) : c <:+: text ∧ sep ∉ c := by
  induction hn : text.length using Nat.strong_induction_on generalizing text with
  | _ n ih =>
      by_cases hmem : sep ∈ text
      · obtain ⟨s, t, rfl, hs⟩ := List.eq_append_cons_of_mem hmem
        rw [List.splitOn_append_cons_self_of_not_mem hs] at h
        rcases List.mem_cons.mp h with rfl | h
        · exact ⟨(List.prefix_append c _).isInfix, hs⟩
        · have hlt : t.length < n := by
            simp only [← hn, List.length_append, List.length_cons]
            omega
          obtain ⟨hwithin, hfree⟩ := ih _ hlt h rfl
          refine ⟨hwithin.trans ?_, hfree⟩
          exact ((List.suffix_cons sep t).trans (List.suffix_append s _)).isInfix
      · rw [List.splitOn_eq_singleton hmem, List.mem_singleton] at h
        subst h
        exact ⟨List.infix_refl c, hmem⟩

theorem pieces_blanks (hsep : blank sep = false) {p : List α} (hp : ∀ a ∈ p, blank a = true)
    (t : List α) : pieces blank sep (p ++ t) = pieces blank sep t := by
  induction p with
  | nil => rfl
  | cons b p ih =>
      have hb : blank b = true := hp b List.mem_cons_self
      obtain ⟨c, cs, hcs, hcons⟩ := splitOn_cons_of_ne (ne_of_blank hsep hb) (p ++ t)
      rw [← ih fun a ha => hp a (List.mem_cons_of_mem b ha), List.cons_append, pieces, pieces, hcons,
        hcs, List.map_cons, List.map_cons, words_cons hb]

theorem Breaks.splitOn {t c : List α} {cs : List (List α)} (h : Breaks blank t)
    (hsep : blank sep = false) (hcs : t.splitOn sep = c :: cs) : Breaks blank c := by
  cases t with
  | nil =>
      cases hcs
      exact .nil
  | cons b t =>
      have hb : blank b = true := h b rfl
      obtain ⟨d, ds, _, hcons⟩ := splitOn_cons_of_ne (ne_of_blank hsep hb) t
      rw [hcons] at hcs
      cases hcs
      exact .cons hb d

/-- Behind a word, only the words of the parts matter. -/
theorem pieces_congr_word {w q r : List α} (hw : ∀ a ∈ w, blank a = false) (hq : Breaks blank q)
    (hr : Breaks blank r) (hsep : blank sep = false)
    (h : pieces blank sep q = pieces blank sep r) :
    pieces blank sep (w ++ q) = pieces blank sep (w ++ r) := by
  induction w with
  | nil => exact h
  | cons a w ih =>
      have hrest := ih fun b hb => hw b (List.mem_cons_of_mem a hb)
      by_cases hne : a = sep
      · subst hne
        rw [List.cons_append, List.cons_append, pieces, pieces, splitOn_cons_self, splitOn_cons_self,
          List.map_cons, List.map_cons]
        exact congrArg _ hrest
      · obtain ⟨c, cs, hcs, hcons⟩ := splitOn_cons_of_ne hne (w ++ q)
        obtain ⟨d, ds, hds, hdcons⟩ := splitOn_cons_of_ne hne (w ++ r)
        rw [pieces, pieces, hcs, hds, List.map_cons, List.map_cons, List.cons.injEq] at hrest
        rw [List.cons_append, List.cons_append, pieces, pieces, hcons, hdcons, List.map_cons,
          List.map_cons, hrest.2]
        refine congrArg (· :: _) ?_
        refine words_cons_congr (hw a List.mem_cons_self) ?_ hrest.1
        cases w with
        | nil => exact iff_of_true (hq.splitOn hsep hcs) (hr.splitOn hsep hds)
        | cons b w =>
            -- Both parts begin with the same letter, or are empty.
            rw [List.cons_append, List.splitOn_cons_eq_if_modifyHead] at hcs hds
            by_cases hb : b = sep
            · subst hb
              rw [if_pos (beq_self_eq_true b)] at hcs hds
              cases hcs
              cases hds
              exact Iff.rfl
            · rw [if_neg (by simpa using hb)] at hcs hds
              obtain ⟨c', cs', hc'⟩ := List.exists_cons_of_ne_nil (List.splitOn_ne_nil sep (w ++ q))
              obtain ⟨d', ds', hd'⟩ := List.exists_cons_of_ne_nil (List.splitOn_ne_nil sep (w ++ r))
              rw [hc', List.modifyHead_cons] at hcs
              rw [hd', List.modifyHead_cons] at hds
              cases hcs
              cases hds
              exact Iff.rfl

/-- What the words of the parts are depends on the words of the text alone. -/
theorem pieces_congr {s t : List α} (hsep : blank sep = false)
    (h : words blank s = words blank t) : pieces blank sep s = pieces blank sep t := by
  generalize hws : words blank s = ws at h
  induction ws generalizing s t with
  | nil =>
      have hs := pieces_blanks hsep (words_eq_nil_iff.mp hws) ([] : List α)
      have ht := pieces_blanks hsep (words_eq_nil_iff.mp h.symm) ([] : List α)
      rw [List.append_nil] at hs ht
      rw [hs, ht]
  | cons w ws ih =>
      obtain ⟨p, q, rfl, hp, hw, hq, hq'⟩ := words_eq_cons hws
      obtain ⟨p', q', rfl, hp', _, hr, hr'⟩ := words_eq_cons h.symm
      rw [List.append_assoc, List.append_assoc, pieces_blanks hsep hp, pieces_blanks hsep hp']
      exact pieces_congr_word hw.solid hq hr hsep (ih hq' hr'.symm)

end Pieces

/-! ## Blanks left out -/

/-- The second text is the first with blanks left out that stand before other blanks, and, when `atEnd`,
maybe the last one. -/
inductive Reflow (blank : α → Bool) : Bool → List α → List α → Prop
  | nil {atEnd : Bool} : Reflow blank atEnd [] []
  | last {b : α} (hb : blank b = true) : Reflow blank true [b] []
  | keep {atEnd : Bool} (a : α) {s t : List α} (h : Reflow blank atEnd s t) :
      Reflow blank atEnd (a :: s) (a :: t)
  | drop {atEnd : Bool} {a b : α} {s t : List α} (ha : blank a = true) (hb : blank b = true)
      (h : Reflow blank atEnd (b :: s) t) : Reflow blank atEnd (a :: b :: s) t

namespace Reflow

variable {atEnd : Bool} {s t : List α}

theorem refl (s : List α) : Reflow blank atEnd s s := by
  induction s with
  | nil => exact .nil
  | cons a s ih => exact .keep a ih

theorem breaks_iff (h : Reflow blank atEnd s t) : Breaks blank s ↔ Breaks blank t := by
  induction h with
  | nil => exact Iff.rfl
  | last hb => exact iff_of_true (.cons hb []) .nil
  | keep a _ _ => exact Iff.rfl
  | drop ha hb _ ih => exact (iff_of_true (.cons ha _) (.cons hb _)).trans ih

theorem words_eq (h : Reflow blank atEnd s t) : words blank s = words blank t := by
  induction h with
  | nil => rfl
  | last hb => exact words_cons hb []
  | keep a h ih =>
      cases ha : blank a with
      | true => rw [words_cons ha, words_cons ha, ih]
      | false => exact words_cons_congr ha h.breaks_iff ih
  | drop ha hb _ ih => rw [words_cons ha, ih]

theorem append {u v : List α} (h : Reflow blank false s t) (h' : Reflow blank atEnd u v) :
    Reflow blank atEnd (s ++ u) (t ++ v) := by
  generalize hend : false = e at h
  induction h with
  | nil => exact h'
  | last hb => cases hend
  | keep a _ ih => exact .keep a (ih hend)
  | drop ha hb _ ih => exact .drop ha hb (ih hend)

/-- Part by part; only the last one may lose its last blank. -/
inductive Parts (blank : α → Bool) (atEnd : Bool) : List (List α) → List (List α) → Prop
  | single {c d : List α} (h : Reflow blank atEnd c d) : Parts blank atEnd [c] [d]
  | cons {c d : List α} {cs ds : List (List α)} (h : Reflow blank false c d)
      (hrest : Parts blank atEnd cs ds) : Parts blank atEnd (c :: cs) (d :: ds)

theorem Parts.keep {c d : List α} {cs ds : List (List α)} (a : α)
    (h : Parts blank atEnd (c :: cs) (d :: ds)) :
    Parts blank atEnd ((a :: c) :: cs) ((a :: d) :: ds) := by
  cases h with
  | single h => exact .single (.keep a h)
  | cons h hrest => exact .cons (.keep a h) hrest

theorem Parts.drop {a b : α} {c : List α} {cs ds : List (List α)} (ha : blank a = true)
    (hb : blank b = true) (h : Parts blank atEnd ((b :: c) :: cs) ds) :
    Parts blank atEnd ((a :: b :: c) :: cs) ds := by
  cases h with
  | single h => exact .single (.drop ha hb h)
  | cons h hrest => exact .cons (.drop ha hb h) hrest

variable [BEq α] [LawfulBEq α] {sep : α}

theorem splitOn (hsep : blank sep = false) (h : Reflow blank atEnd s t) :
    Parts blank atEnd (s.splitOn sep) (t.splitOn sep) := by
  induction h with
  | nil => exact .single .nil
  | last hb =>
      obtain ⟨c, cs, hcs, hcons⟩ := splitOn_cons_of_ne (ne_of_blank hsep hb) []
      cases hcs
      rw [hcons]
      exact .single (.last hb)
  | @keep _ a s t _ ih =>
      by_cases ha : a = sep
      · subst ha
        rw [splitOn_cons_self, splitOn_cons_self]
        exact .cons .nil ih
      · obtain ⟨c, cs, hcs, hcons⟩ := splitOn_cons_of_ne ha s
        obtain ⟨d, ds, hds, hdcons⟩ := splitOn_cons_of_ne ha t
        rw [hcs, hds] at ih
        rw [hcons, hdcons]
        exact ih.keep a
  | @drop _ a b s t ha hb _ ih =>
      obtain ⟨c, cs, hcs, hcons⟩ := splitOn_cons_of_ne (ne_of_blank hsep hb) s
      obtain ⟨d, ds, hds, hdcons⟩ := splitOn_cons_of_ne (ne_of_blank hsep ha) (b :: s)
      rw [hcons] at ih hds
      cases hds
      rw [hdcons]
      exact ih.drop ha hb

end Reflow

end Dagq.Lib
