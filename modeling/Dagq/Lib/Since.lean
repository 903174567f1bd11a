/-
# Dagq.Lib.Since -- what holds since some event of a log.

A reader that goes over a log with a flag, set by some events and cleared by others, ends with the flag
set exactly if a setting event has had no clearing event behind it.  The second form is the one to state
a rule in: it speaks of the log alone.
-/
import Mathlib.Data.List.Induction

namespace Dagq.Lib

variable {ε σ : Type}

/-- An event that is `on` after what came before it, and none of `off` after it. -/
def SinceAt (on : List ε → ε → Prop) (off : ε → Prop) (log : List ε) : Prop :=
  ∃ before event after, log = before ++ event :: after ∧ on before event ∧ ∀ e ∈ after, ¬off e

/-- An event of `on`, and none of `off` after it. -/
def Since (on off : ε → Prop) : List ε → Prop := SinceAt (fun _ => on) off

section Since

variable {off : ε → Prop} {log : List ε} {event : ε}

@[simp] theorem not_sinceAt_nil {on : List ε → ε → Prop} : ¬SinceAt on off [] := by
  intro h
  obtain ⟨before, event, after, h, -⟩ := h
  simp at h

/-- One event later. -/
theorem sinceAt_concat {on : List ε → ε → Prop} :
    SinceAt on off (log ++ [event]) ↔ on log event ∨ SinceAt on off log ∧ ¬off event := by
  constructor
  · rintro ⟨before, start, after, h, hon, hoff⟩
    rcases List.eq_nil_or_concat after with rfl | ⟨after, last, rfl⟩
    · obtain ⟨rfl, hlast⟩ := List.append_inj' h rfl
      cases hlast
      exact .inl hon
    · rw [List.concat_eq_append, ← List.cons_append, ← List.append_assoc] at h
      obtain ⟨rfl, hlast⟩ := List.append_inj' h rfl
      cases hlast
      refine .inr ⟨⟨before, start, after, rfl, hon, fun e he => hoff e ?_⟩, hoff _ ?_⟩ <;> simp [*]
  · rintro (hon | ⟨⟨before, start, after, rfl, hon, hoff⟩, hevent⟩)
    · exact ⟨log, event, [], rfl, hon, by simp⟩
    · refine ⟨before, start, after ++ [event], by simp, hon, fun e he => ?_⟩
      rcases List.mem_append.mp he with he | he
      · exact hoff e he
      · rwa [List.mem_singleton.mp he]

@[simp] theorem not_since_nil {on : ε → Prop} : ¬Since on off [] := not_sinceAt_nil

theorem since_concat {on : ε → Prop} :
    Since on off (log ++ [event]) ↔ on event ∨ Since on off log ∧ ¬off event :=
  sinceAt_concat

/-- What sets a flag and what clears it decide it, whatever else the reader keeps. -/
theorem flag_iff_since {on : ε → Prop} (flag : σ → Prop) {step : σ → ε → σ} {init : σ}
    (hstep : ∀ s e, flag (step s e) ↔ on e ∨ flag s ∧ ¬off e) (hinit : ¬flag init) (log : List ε) :
    flag (log.foldl step init) ↔ Since on off log := by
  induction log using List.reverseRecOn with
  | nil => simpa using hinit
  | append_singleton log event ih =>
      rw [List.foldl_append, List.foldl_cons, List.foldl_nil, hstep, ih, since_concat]

end Since

/-- Every event is lawful after those before it. -/
def Lawful (law : List ε → ε → Prop) (log : List ε) : Prop :=
  ∀ before event after, log = before ++ event :: after → law before event

section Lawful

variable {law : List ε → ε → Prop} {log : List ε} {event : ε}

theorem lawful_nil : Lawful law [] := by
  intro before event after h
  simp at h

theorem lawful_concat : Lawful law (log ++ [event]) ↔ Lawful law log ∧ law log event := by
  constructor
  · intro h
    refine ⟨fun before e after hsplit => h before e (after ++ [event]) ?_, h log event [] rfl⟩
    rw [hsplit, List.append_assoc, List.cons_append]
  · rintro ⟨hlog, hevent⟩ before e after hsplit
    rcases List.eq_nil_or_concat after with rfl | ⟨after, last, rfl⟩
    · obtain ⟨rfl, hlast⟩ := List.append_inj' hsplit rfl
      cases hlast
      exact hevent
    · rw [List.concat_eq_append, ← List.cons_append, ← List.append_assoc] at hsplit
      obtain ⟨rfl, hlast⟩ := List.append_inj' hsplit rfl
      exact hlog before e after rfl

end Lawful

end Dagq.Lib
