/-
# Dagq.Lib.Lexer -- reading a text token by token.

A lexer is what one step does: a character is taken, and as much of the rest as its token needs.  Since a
step never gives text back, as many steps as there are characters read all of it.  A text written token
by token is read back when each token is read back from what is written for it, whatever follows.
-/
import Mathlib.Data.List.Basic

namespace Dagq.Lib

/-- One step: the token made, if any, and what is left of the text after the character. -/
structure Lexer (σ τ : Type) where
  next : σ → List σ → Option τ × List σ
  next_length_le : ∀ c text, (next c text).2.length ≤ text.length

namespace Lexer

variable {σ τ : Type} (lexer : Lexer σ τ)

/-- The tokens of at most `fuel` steps. -/
def read : Nat → List σ → List τ
  | 0, _ => []
  | _ + 1, [] => []
  | fuel + 1, c :: text => (lexer.next c text).1.toList ++ read fuel (lexer.next c text).2

/-- The tokens of a text. -/
def tokens (text : List σ) : List τ := lexer.read text.length text

variable {lexer} {c : σ} {text rest sep : List σ} {t : τ} {ts : List τ} {fuel : Nat}

theorem read_eq_read {fuel' : Nat} (h : text.length ≤ fuel) (h' : text.length ≤ fuel') :
    lexer.read fuel text = lexer.read fuel' text := by
  induction fuel generalizing text fuel' with
  | zero =>
      obtain rfl := List.eq_nil_of_length_eq_zero (Nat.le_zero.mp h)
      cases fuel' <;> rfl
  | succ fuel ih =>
      cases text with
      | nil => cases fuel' <;> rfl
      | cons c text =>
          obtain ⟨fuel', rfl⟩ := Nat.exists_eq_add_of_lt (Nat.lt_of_lt_of_le (Nat.succ_pos _) h')
          have hleft := lexer.next_length_le c text
          rw [List.length_cons] at h h'
          have hle : (lexer.next c text).2.length ≤ fuel := by omega
          have hle' : (lexer.next c text).2.length ≤ fuel' := by omega
          rw [Nat.zero_add, read, read, ih hle hle']

theorem read_eq_tokens (h : text.length ≤ fuel) : lexer.read fuel text = lexer.tokens text :=
  read_eq_read h (Nat.le_refl _)

@[simp] theorem tokens_nil : lexer.tokens [] = [] := rfl

theorem tokens_cons :
    lexer.tokens (c :: text) = (lexer.next c text).1.toList ++ lexer.tokens (lexer.next c text).2 := by
  rw [tokens, List.length_cons, read, read_eq_tokens (lexer.next_length_le c text)]

variable (lexer) in
/-- A step that makes a token. -/
theorem tokens_of_next (h : lexer.next c text = (some t, rest)) :
    lexer.tokens (c :: text) = t :: lexer.tokens rest := by
  rw [tokens_cons, h]
  rfl

variable (lexer) in
/-- A step that makes none. -/
theorem tokens_of_skip (h : lexer.next c text = (none, rest)) :
    lexer.tokens (c :: text) = lexer.tokens rest := by
  rw [tokens_cons, h]
  rfl

/-- What holds of every token a step makes holds of every token of a text. -/
theorem forall_tokens {p : τ → Prop} (h : ∀ c text, ∀ t ∈ (lexer.next c text).1, p t) :
    ∀ t ∈ lexer.tokens text, p t := by
  have hread (fuel : Nat) : ∀ text, ∀ t ∈ lexer.read fuel text, p t := by
    induction fuel with
    | zero =>
        intro text t ht
        exact absurd ht List.not_mem_nil
    | succ fuel ih =>
        intro text t ht
        cases text with
        | nil => exact absurd ht List.not_mem_nil
        | cons c text =>
            rcases List.mem_append.mp ht with ht | ht
            · exact h c text t (Option.mem_toList.mp ht)
            · exact ih _ t ht
  exact hread _ text

/-- What may follow a token: nothing, or the separator. -/
def Ends (sep rest : List σ) : Prop := rest = [] ∨ ∃ text, rest = sep ++ text

/-- What is written token by token is read back. -/
theorem tokens_intercalate {write : τ → List σ}
    (hsep : ∀ rest, lexer.tokens (sep ++ rest) = lexer.tokens rest)
    (hread : ∀ t ∈ ts, ∀ rest, Ends sep rest →
      lexer.tokens (write t ++ rest) = t :: lexer.tokens rest) :
    lexer.tokens (sep.intercalate (ts.map write)) = ts := by
  induction ts with
  | nil => rfl
  | cons t ts ih =>
      obtain ⟨hhead, htail⟩ := List.forall_mem_cons.mp hread
      cases ts with
      | nil =>
          have h := hhead [] (.inl rfl)
          rw [List.append_nil, tokens_nil] at h
          rw [List.map_singleton, List.intercalate_singleton, h]
      | cons t' ts =>
          rw [List.map_cons, List.map_cons, List.intercalate_cons_cons, List.append_assoc,
            hhead _ (.inr ⟨_, rfl⟩), hsep, ← List.map_cons, ih htail]

end Lexer

end Dagq.Lib
