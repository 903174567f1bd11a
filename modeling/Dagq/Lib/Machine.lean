/-
# Dagq.Lib.Machine -- deterministic machines driven by labels, and facts about whole runs.

A machine takes one label at a time; everything a step may depend on (a clock, a fresh name, what a
process answered) is part of the label, so a run is a list of labels and a statement about every run
is a statement about every list.  The rules below are the only inductions over runs that a
development needs: an invariant, an invariant under a condition on the steps, the exact condition under
which it holds all along, a preorder that every step moves along, and the step in which a property is
lost; and the first two again for machines that refine a transition system, whose invariants they
inherit.
-/
import Mathlib.Logic.Relation
import Mathlib.Order.Defs.Unbundled

namespace Dagq.Lib

open Relation

/-- A machine with states `σ` and step labels `Λ`. -/
structure Machine (σ Λ : Type) where
  init : σ
  next : σ → Λ → σ

namespace Machine

variable {σ Λ : Type} (M : Machine σ Λ)

/-- The state the labels lead to from `s`. -/
def runFrom (s : σ) (ls : List Λ) : σ := ls.foldl M.next s

/-- The state the labels lead to from the start. -/
def run (ls : List Λ) : σ := M.runFrom M.init ls

/-- Every step of the run from `s` meets `ok` in the state it is taken in. -/
def Meets (ok : σ → Λ → Prop) : σ → List Λ → Prop
  | _, [] => True
  | s, l :: ls => ok s l ∧ Meets ok (M.next s l) ls

instance {ok : σ → Λ → Prop} [∀ s l, Decidable (ok s l)] (s : σ) (ls : List Λ) :
    Decidable (M.Meets ok s ls) :=
  match ls with
  | [] => .isTrue trivial
  | l :: ls =>
      have : Decidable (M.Meets ok (M.next s l) ls) := instDecidableMeets (M.next s l) ls
      inferInstanceAs (Decidable (ok s l ∧ M.Meets ok (M.next s l) ls))

@[simp] theorem runFrom_nil (s : σ) : M.runFrom s [] = s := rfl

@[simp] theorem runFrom_cons (s : σ) (l : Λ) (ls : List Λ) :
    M.runFrom s (l :: ls) = M.runFrom (M.next s l) ls := rfl

theorem runFrom_append (s : σ) (ls ks : List Λ) :
    M.runFrom s (ls ++ ks) = M.runFrom (M.runFrom s ls) ks := by
  simp [runFrom, List.foldl_append]

theorem run_append (ls ks : List Λ) : M.run (ls ++ ks) = M.runFrom (M.run ls) ks :=
  M.runFrom_append _ ls ks

theorem meets_append {ok : σ → Λ → Prop} {s : σ} {ls ks : List Λ} :
    M.Meets ok s (ls ++ ks) ↔ M.Meets ok s ls ∧ M.Meets ok (M.runFrom s ls) ks := by
  induction ls generalizing s with
  | nil => simp [Meets]
  | cons l ls ih => simp [Meets, ih, and_assoc]

/-- A condition on the labels alone. -/
theorem meets_of_forall {ok : Λ → Prop} {ls : List Λ} (h : ∀ l ∈ ls, ok l) (s : σ) :
    M.Meets (fun _ l => ok l) s ls := by
  induction ls generalizing s with
  | nil => trivial
  | cons l ls ih =>
      obtain ⟨hl, hls⟩ := List.forall_mem_cons.mp h
      exact ⟨hl, ih hls (M.next s l)⟩

variable {M}

/-- What every step that meets `ok` preserves holds at the end of every run whose steps meet it. -/
theorem invariant_of_meets {ok : σ → Λ → Prop} {I : σ → Prop}
    (hstep : ∀ s l, ok s l → I s → I (M.next s l)) {s : σ} {ls : List Λ}
    (hok : M.Meets ok s ls) (hs : I s) : I (M.runFrom s ls) := by
  induction ls generalizing s with
  | nil => exact hs
  | cons l ls ih => exact ih hok.2 (hstep s l hok.1 hs)

/-- What every step preserves holds at the end of every run. -/
theorem invariant {I : σ → Prop} (hstep : ∀ s l, I s → I (M.next s l)) {s : σ}
    (hs : I s) (ls : List Λ) : I (M.runFrom s ls) := by
  induction ls generalizing s with
  | nil => exact hs
  | cons l ls ih => exact ih (hstep s l hs)

/-- A preorder every step moves along relates the two ends of every run. -/
theorem moves {R : σ → σ → Prop} [IsPreorder σ R] (hstep : ∀ s l, R s (M.next s l)) (s : σ)
    (ls : List Λ) : R s (M.runFrom s ls) := by
  induction ls generalizing s with
  | nil => exact refl_of R s
  | cons l ls ih => exact trans_of R (hstep s l) (ih _)

/-- When a step out of a state with `I` keeps `I` exactly if it meets `ok`, `I` holds all along a run
exactly if every step of it meets `ok`. -/
theorem always_iff_meets {ok : σ → Λ → Prop} {I J : σ → Prop}
    (hJ : ∀ s l, J s → J (M.next s l)) (hstep : ∀ s l, J s → I s → (I (M.next s l) ↔ ok s l))
    {s : σ} {ls : List Λ} (hs : J s) (hI : I s) :
    (∀ pre post, ls = pre ++ post → I (M.runFrom s pre)) ↔ M.Meets ok s ls := by
  induction ls generalizing s with
  | nil =>
      refine ⟨fun _ => trivial, fun _ pre post h => ?_⟩
      rw [(List.append_eq_nil_iff.mp h.symm).1]
      exact hI
  | cons l ls ih =>
      constructor
      · intro hall
        have hnext : I (M.next s l) := hall [l] ls rfl
        refine ⟨(hstep s l hs hI).mp hnext, (ih (hJ s l hs) hnext).mp fun pre post h => ?_⟩
        exact hall (l :: pre) post (by rw [h]; rfl)
      · rintro ⟨hok, hrest⟩ pre post h
        have hnext : I (M.next s l) := (hstep s l hs hI).mpr hok
        cases pre with
        | nil => exact hI
        | cons l' pre =>
            rw [List.cons_append, List.cons.injEq] at h
            obtain ⟨rfl, h⟩ := h
            exact (ih (hJ s l hs) hnext).mpr hrest pre post h

/-- What holds of the start of a run and not of its end is lost in some step. -/
theorem exists_loss {p : σ → Prop} {s : σ} {ls : List Λ} (hs : p s) (he : ¬p (M.runFrom s ls)) :
    ∃ pre l post, ls = pre ++ l :: post ∧ p (M.runFrom s pre) ∧
      ¬p (M.next (M.runFrom s pre) l) := by
  induction ls generalizing s with
  | nil => exact absurd hs he
  | cons l ls ih =>
      by_cases hnext : p (M.next s l)
      · obtain ⟨pre, l', post, rfl, hp, hlost⟩ := ih hnext he
        exact ⟨l :: pre, l', post, rfl, hp, hlost⟩
      · exact ⟨[], l, ls, rfl, hs, hnext⟩

/-! ## Machines that refine a transition system -/

section Refines

variable {τ : Type} {view : σ → τ} {step : τ → τ → Prop} {I : τ → Prop}

/-- What a step preserves, a sequence of steps preserves. -/
theorem inv_of_steps (hstep : ∀ t t', I t → step t t' → I t') {t t' : τ} (ht : I t)
    (h : ReflTransGen step t t') : I t' := by
  induction h with
  | refl => exact ht
  | tail _ hlast ih => exact hstep _ _ ih hlast

/-- An invariant of the transition system holds in the view of every run whose steps meet `ok`, when
such steps are sequences of the system's steps. -/
theorem view_invariant_of_meets {ok : σ → Λ → Prop}
    (href : ∀ s l, ok s l → ReflTransGen step (view s) (view (M.next s l)))
    (hstep : ∀ t t', I t → step t t' → I t') {s : σ} {ls : List Λ} (hok : M.Meets ok s ls)
    (hs : I (view s)) : I (view (M.runFrom s ls)) :=
  invariant_of_meets (I := fun s => I (view s))
    (fun s l hl hs => inv_of_steps hstep hs (href s l hl)) hok hs

/-- An invariant of the transition system holds in the view of every run, when every step is a
sequence of the system's steps. -/
theorem view_invariant (href : ∀ s l, ReflTransGen step (view s) (view (M.next s l)))
    (hstep : ∀ t t', I t → step t t' → I t') {s : σ} (hs : I (view s)) (ls : List Λ) :
    I (view (M.runFrom s ls)) :=
  invariant (I := fun s => I (view s)) (fun s l hs => inv_of_steps hstep hs (href s l)) hs ls

end Refines

end Machine

end Dagq.Lib
