/-
# Dagq.Lib.Wildcard -- patterns with wildcards over any alphabet, and the backtracking that decides them.

A pattern is a list of pieces: a run of any symbols, or one symbol of a kind.  The words it stands for
form a language, piece by piece; the matcher that tries every length of a run decides it.  A word as
short as the pattern allows has to spend each symbol on a piece of its own, which is how a word outside
the language is recognised.
-/
import Mathlib.Computability.Language

namespace Dagq.Lib

/-- A piece of a pattern. -/
inductive Piece (α : Type)
  /-- Any run of symbols, none included. -/
  | run
  /-- One symbol that `kind` holds of. -/
  | one (kind : α → Bool)

namespace Piece

variable {α : Type}

/-- The words a piece stands for. -/
def words : Piece α → Language α
  | .run => ⊤
  | .one kind => { w | ∃ a, kind a = true ∧ w = [a] }

/-- The words a pattern stands for. -/
def language (pattern : List (Piece α)) : Language α := (pattern.map words).prod

/-- Match by backtracking over the lengths of the runs. -/
def matchesAll : List (Piece α) → List α → Bool
  | [], w => w.isEmpty
  | .run :: rest, w => (List.range (w.length + 1)).any fun skip => matchesAll rest (w.drop skip)
  | .one kind :: rest, w =>
      match w with
      | [] => false
      | a :: tail => kind a && matchesAll rest tail

/-- The kinds a word has to spend a symbol on. -/
def kinds (pattern : List (Piece α)) : List (α → Bool) :=
  pattern.filterMap fun
    | .run => none
    | .one kind => some kind

variable {pattern : List (Piece α)} {kind : α → Bool} {w : List α}

@[simp] theorem mem_language_nil : w ∈ language ([] : List (Piece α)) ↔ w = [] :=
  Language.mem_one w

/-- A run takes some of the symbols, from none to all. -/
theorem mem_language_run :
    w ∈ language (.run :: pattern) ↔ ∃ u v, u ++ v = w ∧ v ∈ language pattern := by
  rw [language, List.map_cons, List.prod_cons, Language.mem_mul]
  constructor
  · rintro ⟨u, _, v, hv, h⟩
    exact ⟨u, v, h, hv⟩
  · rintro ⟨u, v, h, hv⟩
    exact ⟨u, Set.mem_univ u, v, hv, h⟩

theorem mem_language_one :
    w ∈ language (.one kind :: pattern) ↔ ∃ a v, w = a :: v ∧ kind a = true ∧
      v ∈ language pattern := by
  rw [language, List.map_cons, List.prod_cons, Language.mem_mul]
  constructor
  · rintro ⟨_, ⟨a, ha, rfl⟩, v, hv, rfl⟩
    exact ⟨a, v, rfl, ha, hv⟩
  · rintro ⟨a, v, rfl, ha, hv⟩
    exact ⟨[a], ⟨a, ha, rfl⟩, v, hv, rfl⟩

/-- A run may take nothing. -/
theorem mem_run_of_mem (h : w ∈ language pattern) : w ∈ language (.run :: pattern) :=
  mem_language_run.mpr ⟨[], w, rfl, h⟩

/-- A run may take more before the word. -/
theorem append_mem_run (u : List α) (h : w ∈ language (.run :: pattern)) :
    u ++ w ∈ language (.run :: pattern) := by
  obtain ⟨v, rest, rfl, hrest⟩ := mem_language_run.mp h
  exact mem_language_run.mpr ⟨u ++ v, rest, List.append_assoc u v rest, hrest⟩

/-- The backtracking decides the language. -/
theorem matchesAll_iff : matchesAll pattern w = true ↔ w ∈ language pattern := by
  induction pattern generalizing w with
  | nil => simp [matchesAll]
  | cons piece rest ih =>
      cases piece with
      | run =>
          rw [matchesAll, List.any_eq_true, mem_language_run]
          constructor
          · rintro ⟨skip, _, h⟩
            exact ⟨w.take skip, w.drop skip, List.take_append_drop skip w, ih.mp h⟩
          · rintro ⟨u, v, rfl, h⟩
            refine ⟨u.length, List.mem_range.mpr (by rw [List.length_append]; omega), ?_⟩
            rw [List.drop_left]
            exact ih.mpr h
      | one kind =>
          rw [mem_language_one]
          cases w with
          | nil => simp [matchesAll]
          | cons a tail => simp [matchesAll, ih]

/-- Every kind costs a symbol. -/
theorem length_kinds_le (h : w ∈ language pattern) : (kinds pattern).length ≤ w.length := by
  induction pattern generalizing w with
  | nil => exact Nat.zero_le _
  | cons piece rest ih =>
      cases piece with
      | run =>
          obtain ⟨u, v, rfl, hv⟩ := mem_language_run.mp h
          have hle : (kinds rest).length ≤ v.length := ih hv
          rw [List.length_append]
          exact hle.trans (Nat.le_add_left _ _)
      | one kind =>
          obtain ⟨a, v, rfl, _, hv⟩ := mem_language_one.mp h
          exact Nat.succ_le_succ (ih hv)

/-- A word with no symbol to spare is matched symbol by symbol. -/
theorem forall₂_of_tight (h : w ∈ language pattern) (hlen : w.length = (kinds pattern).length) :
    List.Forall₂ (fun kind a => kind a = true) (kinds pattern) w := by
  induction pattern generalizing w with
  | nil =>
      rw [mem_language_nil.mp h]
      exact .nil
  | cons piece rest ih =>
      cases piece with
      | run =>
          obtain ⟨u, v, rfl, hv⟩ := mem_language_run.mp h
          have hle := length_kinds_le hv
          have hlen : (u ++ v).length = (kinds rest).length := hlen
          have hnone : u = [] := by
            rw [List.length_append] at hlen
            exact List.length_eq_zero_iff.mp (by omega)
          subst hnone
          exact ih hv hlen
      | one kind =>
          obtain ⟨a, v, rfl, ha, hv⟩ := mem_language_one.mp h
          exact .cons ha (ih hv (Nat.succ_injective hlen))

theorem mem_of_forall₂ (h : List.Forall₂ (fun kind a => kind a = true) (kinds pattern) w) :
    w ∈ language pattern := by
  induction pattern generalizing w with
  | nil => exact mem_language_nil.mpr (List.forall₂_nil_left_iff.mp h)
  | cons piece rest ih =>
      cases piece with
      | run => exact mem_run_of_mem (ih h)
      | one kind =>
          obtain ⟨a, v, ha, hv, rfl⟩ := List.forall₂_cons_left_iff.mp h
          exact mem_language_one.mpr ⟨a, v, rfl, ha, ih hv⟩

end Piece

end Dagq.Lib
