/-
# Dagq.Lib.Attempt -- programs that may stop half-way, with what they did so far done.

An attempt over a state `σ` ends with a value or stops for a reason `ε`, and leaves a state either way:
nothing is rolled back.  `Attempt.Keeps R m` says that `m` moves the state along the preorder `R`
however it ends, so instance search finds what a program leaves alone on all of its exits at once; the
equations of the second section say what a program did that did not stop.
-/
import Mathlib.Order.Defs.Unbundled

namespace Dagq.Lib

variable {σ ε α β : Type}

/-- A program over the state `σ`: how it ended, and the state it left. -/
def Attempt (σ ε α : Type) : Type := σ → Except ε α × σ

namespace Attempt

instance : Monad (Attempt σ ε) where
  pure a := fun s => (.ok a, s)
  bind m k := fun s =>
    match m s with
    | (.ok a, s') => k a s'
    | (.error e, s') => (.error e, s')

/-! ## The steps an attempt is written with -/

/-- Read something off the state. -/
def read (f : σ → α) : Attempt σ ε α := fun s => (.ok (f s), s)

/-- Change the state. -/
def write (f : σ → σ) : Attempt σ ε Unit := fun s => (.ok (), f s)

/-- Stop here. -/
def stop (e : ε) : Attempt σ ε α := fun s => (.error e, s)

/-- Stop with `e` unless `c` holds. -/
def ensure (c : Prop) [Decidable c] (e : ε) : Attempt σ ε Unit := if c then pure () else stop e

/-- The value of a computation that does not touch the state, or a stop. -/
def lift (r : Except ε α) : Attempt σ ε α := fun s => (r, s)

/-- The value an optional read found, or a stop. -/
def found (e : ε) (r : Option α) : Attempt σ ε α :=
  lift (match r with | some a => .ok a | none => .error e)

/-- Run `m` only when `c` holds. -/
def when (c : Prop) [Decidable c] (m : Attempt σ ε Unit) : Attempt σ ε Unit :=
  if c then m else pure ()

/-! ## What an attempt did that did not stop -/

@[simp] theorem pure_ok {a b : α} {s s' : σ} :
    (pure a : Attempt σ ε α) s = (.ok b, s') ↔ a = b ∧ s = s' := by
  show ((.ok a, s) : Except ε α × σ) = (.ok b, s') ↔ _
  simp

@[simp] theorem read_ok {f : σ → α} {b : α} {s s' : σ} :
    (read f : Attempt σ ε α) s = (.ok b, s') ↔ f s = b ∧ s = s' := by
  simp [read]

@[simp] theorem write_ok {f : σ → σ} {u : Unit} {s s' : σ} :
    (write f : Attempt σ ε Unit) s = (.ok u, s') ↔ f s = s' := by
  simp [write]

@[simp] theorem stop_ok {e : ε} {b : α} {s s' : σ} :
    (stop e : Attempt σ ε α) s = (.ok b, s') ↔ False := by
  simp [stop]

@[simp] theorem ensure_ok {c : Prop} [Decidable c] {e : ε} {u : Unit} {s s' : σ} :
    (ensure c e : Attempt σ ε Unit) s = (.ok u, s') ↔ c ∧ s = s' := by
  unfold ensure
  split <;> simp [*]

theorem bind_of_ok {m : Attempt σ ε α} {k : α → Attempt σ ε β} {a : α} {s s₁ : σ}
    (h : m s = (.ok a, s₁)) : (m >>= k) s = k a s₁ := by
  show (match m s with | (.ok a, s') => k a s' | (.error e, s') => (.error e, s')) = _
  rw [h]

theorem bind_of_error {m : Attempt σ ε α} {k : α → Attempt σ ε β} {e : ε} {s s₁ : σ}
    (h : m s = (.error e, s₁)) : (m >>= k) s = (.error e, s₁) := by
  show (match m s with | (.ok a, s') => k a s' | (.error e, s') => (.error e, s')) = _
  rw [h]

@[simp] theorem bind_ok {m : Attempt σ ε α} {k : α → Attempt σ ε β} {b : β} {s s' : σ} :
    (m >>= k) s = (.ok b, s') ↔ ∃ a s₁, m s = (.ok a, s₁) ∧ k a s₁ = (.ok b, s') := by
  rcases hm : m s with ⟨⟨e⟩ | ⟨a⟩, s₁⟩
  · rw [bind_of_error hm]
    simp
  · rw [bind_of_ok hm]
    constructor
    · intro h
      exact ⟨a, s₁, rfl, h⟩
    · rintro ⟨a', s₁', heq, h⟩
      cases heq
      exact h

/-! ## What an attempt leaves alone -/

/-- However `m` ends, it moves the state along `R`. -/
class Keeps (R : σ → σ → Prop) (m : Attempt σ ε α) : Prop where
  of_run : ∀ s, R s (m s).2

section Keeps

variable {R : σ → σ → Prop}

theorem Keeps.apply {m : Attempt σ ε α} (h : Keeps R m) {s s' : σ} {r : Except ε α}
    (hrun : m s = (r, s')) : R s s' := by
  have hkeeps := h.of_run s
  rw [hrun] at hkeeps
  exact hkeeps

theorem Keeps.of_write {f : σ → σ} (h : ∀ s, R s (f s)) :
    Keeps R (write f : Attempt σ ε Unit) := ⟨h⟩

instance {c : Prop} [Decidable c] {m n : Attempt σ ε α} [hm : Keeps R m] [hn : Keeps R n] :
    Keeps R (if c then m else n) := by
  split
  · exact hm
  · exact hn

variable [IsPreorder σ R]

instance (a : α) : Keeps R (pure a : Attempt σ ε α) := ⟨fun s => refl_of R s⟩

instance (e : ε) : Keeps R (stop e : Attempt σ ε α) := ⟨fun s => refl_of R s⟩

instance (r : Except ε α) : Keeps R (lift r : Attempt σ ε α) := ⟨fun s => refl_of R s⟩

instance (e : ε) (r : Option α) : Keeps R (found e r : Attempt σ ε α) := ⟨fun s => refl_of R s⟩

instance (c : Prop) [Decidable c] (e : ε) : Keeps R (ensure c e : Attempt σ ε Unit) := by
  unfold ensure
  infer_instance

instance {c : Prop} [Decidable c] {m : Attempt σ ε Unit} [Keeps R m] : Keeps R (when c m) := by
  unfold when
  infer_instance

instance {m : Attempt σ ε α} {k : α → Attempt σ ε β} [hm : Keeps R m] [hk : ∀ a, Keeps R (k a)] :
    Keeps R (m >>= k) := by
  refine ⟨fun s => ?_⟩
  rcases hrun : m s with ⟨⟨e⟩ | ⟨a⟩, s₁⟩
  · rw [bind_of_error hrun]
    exact hm.apply hrun
  · rw [bind_of_ok hrun]
    exact trans_of R (hm.apply hrun) ((hk a).of_run s₁)

end Keeps

end Attempt

end Dagq.Lib
