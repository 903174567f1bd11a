/-
# Dagq.Lib.Checked -- arithmetic that stops where a signed 64-bit integer cannot hold the result.

A computation comes to a value or overflows at one of its steps.  Which inputs it comes to a value on is
read off step by step: a step goes through if and only if its exact result is in range.
-/
import Mathlib.Data.Int.Notation
import Mathlib.Tactic.SplitIfs

namespace Dagq.Lib.I64

/-- The signed 64-bit integers. -/
def InRange (n : Int) : Prop := -9223372036854775808 ≤ n ∧ n ≤ 9223372036854775807

instance (n : Int) : Decidable (InRange n) := inferInstanceAs (Decidable (_ ∧ _))

/-- A result that left the range. -/
inductive Overflow
  | overflow
  deriving DecidableEq

/-- What a computation comes to. -/
abbrev Checked := Except Overflow

def checked (n : Int) : Checked Int := if InRange n then .ok n else .error .overflow

def add (a b : Int) : Checked Int := checked (a + b)
def sub (a b : Int) : Checked Int := checked (a - b)
def mul (a b : Int) : Checked Int := checked (a * b)

/-- Every step stays in range. -/
def Fits {α : Type} (x : Checked α) : Prop := ∃ a, x = .ok a

variable {α β : Type} {a b n : Int} {x : Checked α} {f : α → Checked β}

theorem fits_ok (a : α) : Fits (.ok a : Checked α) := ⟨a, rfl⟩

theorem not_fits_error (stop : Overflow) : ¬Fits (.error stop : Checked α) := by
  rintro ⟨a, hok⟩
  cases hok

theorem checked_of_inRange (h : InRange n) : checked n = .ok n := if_pos h

@[simp] theorem ok_bind (a : α) (f : α → Checked β) : (Except.ok a >>= f) = f a := rfl

/-- A step goes through if and only if its result is in range, and the rest goes on from it. -/
theorem fits_checked_bind {f : Int → Checked β} : Fits (checked n >>= f) ↔ InRange n ∧ Fits (f n) := by
  by_cases h : InRange n
  · rw [checked_of_inRange h, ok_bind]
    exact (and_iff_right h).symm
  · rw [checked, if_neg h]
    exact ⟨fun hfits => absurd hfits (not_fits_error _), fun hand => absurd hand.1 h⟩

theorem fits_checked : Fits (checked n) ↔ InRange n := by
  by_cases h : InRange n
  · rw [checked_of_inRange h]
    exact iff_of_true (fits_ok n) h
  · rw [checked, if_neg h]
    exact iff_of_false (not_fits_error _) h

theorem fits_map {g : α → β} : Fits (g <$> x) ↔ Fits x := by
  cases x with
  | error stop => exact iff_of_false (not_fits_error stop) (not_fits_error stop)
  | ok a => exact iff_of_true (fits_ok (g a)) (fits_ok a)

/-- The value is this one, if there is one. -/
def Computes {α : Type} (x : Checked α) (a : α) : Prop := ∀ v, x = .ok v → v = a

theorem computes_ok (a : α) : Computes (.ok a) a := fun _ hok => (Except.ok.inj hok).symm

theorem computes_checked (n : Int) : Computes (checked n) n := by
  intro v hok
  unfold checked at hok
  split_ifs at hok
  exact (Except.ok.inj hok).symm

theorem Computes.bind {a : α} {b : β} (hx : Computes x a) (hf : Computes (f a) b) :
    Computes (x >>= f) b := by
  intro v hok
  cases x with
  | error stop => cases hok
  | ok a' =>
      obtain rfl := hx a' rfl
      exact hf v hok

theorem Computes.map {a : α} {g : α → β} (hx : Computes x a) : Computes (g <$> x) (g a) := by
  intro v hok
  cases x with
  | error stop => cases hok
  | ok a' =>
      obtain rfl := hx a' rfl
      exact (Except.ok.inj hok).symm

end Dagq.Lib.I64
