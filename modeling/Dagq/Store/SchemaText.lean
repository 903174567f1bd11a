/-
# Dagq.Store.SchemaText -- the checker's reading of a text against SQLite's.

Line comments are cut away alike by both where no quotation holds two dashes, up to blanks at the end of
a line; a block comment would stay in the checker's text.  The semicolons of what is left are those
between SQLite's segments.
-/
import Dagq.Store.SchemaTriggers

namespace Dagq.Schema

open Lib Sql

/-! ## Without line comments -/

/-- The text without its line comments, where the first argument says that one has begun. -/
def strip : Bool → List Char → List Char
  | _, [] => []
  | true, '\n' :: text => '\n' :: strip false text
  | true, _ :: text => strip true text
  | false, '-' :: '-' :: text => strip true text
  | false, c :: text => c :: strip false text

attribute [local simp] strip lines in
theorem strip_comment {l : List Char} (h : '\n' ∉ l) (text : List Char) :
    strip true (l ++ '\n' :: text) = '\n' :: strip false text := by
  induction l with
  | nil => rw [List.nil_append, strip]
  | cons c l ih =>
      have hc : c ≠ '\n' := fun heq => h (heq ▸ List.mem_cons_self)
      rw [List.cons_append, strip.eq_3 _ _ hc]
      exact ih (mt (List.mem_cons_of_mem c) h)

theorem strip_comment_end {l : List Char} (h : '\n' ∉ l) : strip true l = [] := by
  induction l with
  | nil => rw [strip]
  | cons c l ih =>
      have hc : c ≠ '\n' := fun heq => h (heq ▸ List.mem_cons_self)
      rw [strip.eq_3 _ _ hc]
      exact ih (mt (List.mem_cons_of_mem c) h)

theorem strip_cons {c : Char} {text : List Char} (h : c = '-' → ∀ d ∈ text.head?, d ≠ '-') :
    strip false (c :: text) = c :: strip false text := by
  refine strip.eq_5 _ _ fun text' hc htext => ?_
  exact h hc '-' (by rw [htext]; rfl) rfl

theorem strip_cons_of_ne {c : Char} (h : c ≠ '-') (text : List Char) :
    strip false (c :: text) = c :: strip false text := strip_cons fun heq => absurd heq h

/-- One line of it. -/
theorem strip_line {l : List Char} (h : '\n' ∉ l) (text : List Char) :
    strip false (l ++ '\n' :: text) = beforeDashes l ++ '\n' :: strip false text := by
  fun_induction beforeDashes l with
  | case1 => exact strip_cons nofun
  | case2 rest =>
      rw [List.cons_append, List.cons_append, strip, List.nil_append]
      exact strip_comment (fun hmem => h (List.mem_cons_of_mem _ (List.mem_cons_of_mem _ hmem))) text
  | case3 c rest hdash ih =>
      rw [List.cons_append, strip_cons, ih (mt (List.mem_cons_of_mem c) h), List.cons_append]
      rintro rfl d hd rfl
      cases rest with
      | nil => cases hd
      | cons e rest =>
          rw [List.cons_append, List.head?_cons, Option.mem_some_iff] at hd
          exact hdash rest rfl (by rw [hd])

theorem strip_last {l : List Char} (h : '\n' ∉ l) : strip false l = beforeDashes l := by
  fun_induction beforeDashes l with
  | case1 => rw [strip]
  | case2 rest =>
      rw [strip]
      exact strip_comment_end fun hmem => h (List.mem_cons_of_mem _ (List.mem_cons_of_mem _ hmem))
  | case3 c rest hdash ih =>
      rw [strip_cons, ih (mt (List.mem_cons_of_mem c) h)]
      rintro rfl d hd rfl
      cases rest with
      | nil => cases hd
      | cons e rest =>
          rw [List.head?_cons, Option.mem_some_iff] at hd
          exact hdash rest rfl (by rw [hd])

/-! ## Line by line -/

/-- A line without the carriage return before its end. -/
def chomp (l : List Char) : List Char :=
  match l.getLast? with
  | some '\r' => l.dropLast
  | _ => l

theorem chomp_cases (l : List Char) : chomp l = l ∨ l = chomp l ++ ['\r'] := by
  unfold chomp
  split
  · rename_i hlast
    obtain ⟨init, rfl⟩ := List.getLast?_eq_some_iff.mp hlast
    exact .inr (by rw [List.dropLast_concat])
  · exact .inl rfl

theorem chomp_cons {c : Char} {l : List Char} (h : l ≠ []) : chomp (c :: l) = c :: chomp l := by
  rw [chomp, chomp, List.getLast?_cons_of_ne_nil h]
  split
  · rw [List.dropLast_cons_of_ne_nil h]
  · rfl

theorem lines_cons {c : Char} {text line : List Char} {rest : List (List Char)} (hc : c ≠ '\n')
    (hreturn : ∀ text', c = '\r' → text = '\n' :: text' → False) (h : lines text = line :: rest) :
    lines (c :: text) = (c :: line) :: rest := by
  rw [lines.eq_4 _ _ hc hreturn, h]

theorem lines_newline {l : List Char} (h : '\n' ∉ l) (text : List Char) :
    lines (l ++ '\n' :: text) = chomp l :: lines text := by
  induction l with
  | nil => rw [List.nil_append, lines, chomp, List.getLast?_nil]
  | cons c l ih =>
      have hc : c ≠ '\n' := fun heq => h (heq ▸ List.mem_cons_self)
      have hrest := ih (mt (List.mem_cons_of_mem c) h)
      cases l with
      | nil =>
          by_cases hreturn : c = '\r'
          · subst hreturn
            rw [List.cons_append, List.nil_append, lines]
            rfl
          · rw [List.cons_append, lines_cons hc (fun _ hr _ => hreturn hr) hrest]
            have hline : chomp [c] = [c] := by
              rw [chomp]
              split
              · rename_i hlast
                exact absurd (Option.some.inj hlast) hreturn
              · rfl
            rw [hline]
            rfl
      | cons d l =>
          have hd : d ≠ '\n' := fun heq => h (heq ▸ List.mem_cons_of_mem c List.mem_cons_self)
          rw [List.cons_append, lines_cons hc ?_ hrest, chomp_cons (List.cons_ne_nil d l)]
          intro text' _ htext
          rw [List.cons_append, List.cons.injEq] at htext
          exact hd htext.1

theorem lines_last {l : List Char} (h : '\n' ∉ l) (hl : l ≠ []) : lines l = [l] := by
  induction l with
  | nil => exact absurd rfl hl
  | cons c l ih =>
      have hc : c ≠ '\n' := fun heq => h (heq ▸ List.mem_cons_self)
      have hrest : '\n' ∉ l := mt (List.mem_cons_of_mem c) h
      have hreturn : ∀ text', c = '\r' → l = '\n' :: text' → False := by
        rintro text' _ rfl
        exact hrest List.mem_cons_self
      cases l with
      | nil => rw [lines.eq_4 _ _ hc hreturn, lines]
      | cons d l => exact lines_cons hc hreturn (ih hrest (List.cons_ne_nil d l))

theorem lines_ne_nil {text : List Char} (h : text ≠ []) : lines text ≠ [] := by
  by_cases hmem : '\n' ∈ text
  · obtain ⟨l, rest, rfl, hl⟩ := List.eq_append_cons_of_mem hmem
    rw [lines_newline hl]
    exact List.cons_ne_nil _ _
  · rw [lines_last hmem h]
    exact List.cons_ne_nil _ _

/-- A carriage return does not begin a comment. -/
theorem beforeDashes_return (l : List Char) :
    beforeDashes (l ++ ['\r']) = beforeDashes l ++ ['\r'] ∨
      beforeDashes (l ++ ['\r']) = beforeDashes l := by
  fun_induction beforeDashes l with
  | case1 => exact .inl rfl
  | case2 rest =>
      right
      rw [List.cons_append, List.cons_append, beforeDashes]
  | case3 c rest hdash ih =>
      have hcons : beforeDashes (c :: (rest ++ ['\r'])) = c :: beforeDashes (rest ++ ['\r']) := by
        refine beforeDashes.eq_3 _ _ fun rest' hc hrest => ?_
        cases rest with
        | nil =>
            rw [List.nil_append, List.cons.injEq] at hrest
            exact absurd hrest.1 (by decide)
        | cons e rest =>
            rw [List.cons_append, List.cons.injEq] at hrest
            exact hdash rest hc (by rw [hrest.1])
      rw [List.cons_append, hcons]
      exact ih.imp (congrArg (c :: ·)) (congrArg (c :: ·))

theorem reflow_line {atEnd : Bool} {l u v : List Char}
    (h : Reflow isWhitespace atEnd ('\n' :: u) v) :
    Reflow isWhitespace atEnd (beforeDashes l ++ '\n' :: u) (beforeDashes (chomp l) ++ v) := by
  rcases chomp_cases l with hl | hl
  · rw [hl]
    exact (Reflow.refl _).append h
  · generalize chomp l = m at hl
    subst hl
    rcases beforeDashes_return m with hm | hm
    · rw [hm, List.append_assoc]
      exact (Reflow.refl _).append (.drop (by decide) (by decide) h)
    · rw [hm]
      exact (Reflow.refl _).append h

/-- The checker cuts the line comments away, and blanks at the ends of the lines. -/
theorem reflow_withoutComments (text : List Char) :
    Reflow isWhitespace true (strip false text) (withoutComments text) := by
  induction hn : text.length using Nat.strong_induction_on generalizing text with
  | _ n ih =>
      by_cases hmem : '\n' ∈ text
      · obtain ⟨l, rest, rfl, hl⟩ := List.eq_append_cons_of_mem hmem
        rw [strip_line hl, withoutComments, lines_newline hl, List.map_cons]
        cases rest with
        | nil =>
            have hend : Reflow isWhitespace true ['\n'] [] := .last (by decide)
            have hlast : Reflow isWhitespace true _ (beforeDashes (chomp l) ++ []) := reflow_line hend
            rw [List.append_nil] at hlast
            rw [strip, lines, List.map_nil, List.intercalate_singleton]
            exact hlast
        | cons c rest =>
            have hlt : (c :: rest).length < n := by
              simp only [← hn, List.length_append, List.length_cons]
              omega
            have hrest := ih _ hlt (c :: rest) rfl
            obtain ⟨line, more, hlines⟩ :=
              List.exists_cons_of_ne_nil (lines_ne_nil (List.cons_ne_nil c rest))
            rw [withoutComments, hlines, List.map_cons] at hrest
            rw [hlines, List.map_cons, List.intercalate_cons_cons, List.append_assoc]
            exact reflow_line (.keep '\n' hrest)
      · rw [strip_last hmem, withoutComments]
        cases text with
        | nil => exact .nil
        | cons c text =>
            rw [lines_last hmem (List.cons_ne_nil c text), List.map_singleton,
              List.intercalate_singleton]
            exact .refl _

/-! ## Token by token -/

theorem contains_dashes_cons {c : Char} {text : List Char} (h : c = '-' → ∀ d ∈ text.head?, d ≠ '-') :
    contains "--" (c :: text) = contains "--" text := by
  have hhead : "--".toList.isPrefixOf (c :: text) = false := by
    refine Bool.eq_false_iff.mpr fun hprefix => ?_
    obtain ⟨more, hmore⟩ := List.isPrefixOf_iff_prefix.mp hprefix
    have hmore : '-' :: '-' :: more = c :: text := hmore
    rw [List.cons.injEq] at hmore
    exact h hmore.1.symm '-' (by rw [← hmore.2]; rfl) rfl
  rw [contains, List.tails_cons, List.any_cons, hhead, Bool.false_or]
  rfl

theorem contains_dashes_tail {c : Char} {text : List Char} (h : contains "--" (c :: text) = false) :
    contains "--" text = false := by
  rw [contains, List.tails_cons, List.any_cons, Bool.or_eq_false_iff] at h
  exact h.2

theorem contains_dashes_of_not_mem {text : List Char} (h : '-' ∉ text) :
    contains "--" text = false := by
  refine Bool.eq_false_iff.mpr fun hwithin => h ?_
  exact (contains_iff.mp hwithin).subset (by decide)

theorem strip_append {u v : List Char} (h : contains "--" u = false)
    (hend : ∀ c ∈ u.getLast?, c = '-' → ∀ d ∈ v.head?, d ≠ '-') :
    strip false (u ++ v) = u ++ strip false v := by
  induction u with
  | nil => rfl
  | cons c u ih =>
      have hcons : c = '-' → ∀ d ∈ (u ++ v).head?, d ≠ '-' := by
        rintro rfl d hd rfl
        cases u with
        | nil => exact hend '-' rfl rfl '-' hd rfl
        | cons e u =>
            rw [List.cons_append, List.head?_cons, Option.mem_some_iff] at hd
            subst hd
            have hdashes : contains "--" ('-' :: '-' :: u) = true := rfl
            rw [hdashes] at h
            cases h
      rw [List.cons_append, strip_cons hcons, List.cons_append, ih (contains_dashes_tail h)]
      intro e he
      cases u with
      | nil => cases he
      | cons d u => exact hend e (by rwa [List.getLast?_cons_cons])

/-- A token that is no comment has no dashes to be cut at, nor with the next token. -/
theorem noDashes {t : Lexeme} (hvalid : t.Valid) (hplain : isPlain t = true)
    (hcode : t.isComment = false) {rest : List Char} (hends : t.Ends rest) :
    contains "--" t.source = false ∧
      ∀ c ∈ t.source.getLast?, c = '-' → ∀ d ∈ rest.head?, d ≠ '-' := by
  have hfree {text : List Char} (hfree : '-' ∉ text) : contains "--" text = false ∧
      ∀ c ∈ text.getLast?, c = '-' → ∀ d ∈ rest.head?, d ≠ '-' :=
    ⟨contains_dashes_of_not_mem hfree, fun c hc heq =>
      absurd (heq ▸ List.mem_of_getLast? hc) hfree⟩
  cases t with
  | space text =>
      refine hfree fun hmem => ?_
      rcases hvalid.2 _ hmem with h | h | h <;> revert h <;> decide
  | comment => cases hcode
  | block => cases hcode
  | word text =>
      refine hfree fun hmem => ?_
      have hid := hvalid.2 _ hmem
      revert hid
      decide
  | quoted mark text =>
      simp only [isPlain, Bool.and_eq_true, Bool.not_eq_true'] at hplain
      obtain ⟨close, inner, hclose, rfl⟩ := hvalid
      have hmarks : mark ≠ '-' ∧ close ≠ '-' := by
        rcases closing_cases hclose with ⟨rfl, rfl⟩ | ⟨rfl, rfl⟩ | ⟨rfl, rfl⟩ | ⟨rfl, rfl⟩ <;> decide
      refine ⟨?_, fun c hc heq => ?_⟩
      · exact (contains_dashes_cons fun heq => absurd heq hmarks.1).trans hplain.1
      · rw [Lexeme.source, ← List.cons_append, List.getLast?_concat, Option.mem_some_iff] at hc
        exact absurd (hc.trans heq) hmarks.2
  | unclosed text =>
      simp only [isPlain, Bool.and_eq_true, Bool.not_eq_true'] at hplain
      refine ⟨hplain.1, fun _ _ _ d hd => ?_⟩
      have hnil : rest = [] := hends
      rw [hnil] at hd
      cases hd
  | semi => exact hfree (by decide)
  | symbol c =>
      refine ⟨?_, fun d hd heq => ?_⟩
      · refine Bool.eq_false_iff.mpr fun hwithin => ?_
        have hlength := (contains_iff.mp hwithin).length_le
        exact absurd hlength (Nat.not_succ_le_self 1)
      · obtain rfl := Option.some.inj hd
        exact hends heq

theorem noSemicolon {t : Lexeme} (hvalid : t.Valid) (hplain : isPlain t = true)
    (hcode : t.isComment = false) (hsemi : t ≠ .semi) : ';' ∉ t.source := by
  intro hmem
  cases t with
  | space text => rcases hvalid.2 _ hmem with h | h | h <;> revert h <;> decide
  | comment => cases hcode
  | block => cases hcode
  | word text =>
      have hid := hvalid.2 _ hmem
      revert hid
      decide
  | quoted mark text =>
      simp only [isPlain, Bool.and_eq_true, Bool.not_eq_true'] at hplain
      obtain ⟨close, _, hclose, _⟩ := hvalid
      rcases List.mem_cons.mp hmem with heq | hmem
      · rcases closing_cases hclose with ⟨rfl, -⟩ | ⟨rfl, -⟩ | ⟨rfl, -⟩ | ⟨rfl, -⟩ <;>
          exact absurd heq (by decide)
      · exact absurd hmem (by simpa using hplain.2)
  | unclosed text =>
      simp only [isPlain, Bool.and_eq_true, Bool.not_eq_true'] at hplain
      have hfree : ';' ∉ text := by simpa using hplain.2
      exact hfree hmem
  | semi => exact hsemi rfl
  | symbol c => exact hvalid.2.1 (List.mem_singleton.mp hmem).symm

/-- The tokens that are no comments are what is left without the line comments, unless a block comment
stays in it. -/
theorem strip_source {text : List Char} {ts : List Lexeme} (h : Lexes text ts)
    (hplain : ∀ t ∈ ts, isPlain t = true) :
    ((∀ t ∈ ts, t.isBlock = false) ∧ strip false text = source (code ts)) ∨
      "/*".toList <:+: strip false text := by
  induction h with
  | nil => exact .inl ⟨fun _ ht => absurd ht List.not_mem_nil, by rw [strip]; rfl⟩
  | @cons c cs ts hrest ih =>
      obtain ⟨hfirst, hplain⟩ := List.forall_mem_cons.mp hplain
      have hvalid := next_valid c cs
      have hends := next_ends c cs
      have hsource := next_source c cs
      generalize next c cs = r at hrest ih hfirst hvalid hends hsource
      obtain ⟨t, rest⟩ := r
      rw [← hsource]
      cases hcode : t.isComment with
      | false =>
          obtain ⟨hdashes, hlast⟩ := noDashes hvalid hfirst hcode hends
          have hstrip := strip_append hdashes hlast
          dsimp only at hstrip ih ⊢
          rw [hstrip]
          rcases ih hplain with ⟨hblock, heq⟩ | hwithin
          · refine .inl ⟨List.forall_mem_cons.mpr ⟨?_, hblock⟩, ?_⟩
            · cases t with
              | block => cases hcode
              | _ => rfl
            · rw [code, List.filter_cons_of_pos (by rw [hcode]; rfl), heq]
              rfl
          · exact .inr (hwithin.trans (List.suffix_append _ _).isInfix)
      | true =>
          cases t with
          | comment text =>
              obtain ⟨line, rfl, hline⟩ := hvalid
              have hstrip : strip false ('-' :: '-' :: line ++ rest) = strip false rest := by
                rw [List.cons_append, List.cons_append, strip]
                cases rest with
                | nil => rw [List.append_nil, strip_comment_end hline, strip]
                | cons d rest =>
                    have hd : d = '\n' := hends d rfl
                    subst hd
                    rw [strip_comment hline, strip_cons_of_ne (show '\n' ≠ '-' by decide)]
              dsimp only [Lexeme.source] at hstrip ih ⊢
              rw [hstrip]
              refine (ih hplain).imp_left ?_
              rintro ⟨hblock, heq⟩
              constructor
              · exact List.forall_mem_cons.mpr ⟨rfl, hblock⟩
              · rw [heq, code, code, List.filter_cons_of_neg (by rw [hcode]; decide)]
          | block text =>
              obtain ⟨inner, rfl⟩ := hvalid
              right
              dsimp only [Lexeme.source]
              rw [List.cons_append, strip_cons_of_ne (show '/' ≠ '-' by decide), List.cons_append,
                strip_cons_of_ne (show '*' ≠ '-' by decide)]
              exact (List.prefix_append ['/', '*'] _).isInfix
          | _ => cases hcode

end Dagq.Schema
