/-
# Dagq.Sessions.Places -- one span in each place of a run.

Of the places of a run (its session, its review, its triage) each event that opens a span clears that
place first, with one exception: a `revise_unsent` clears only the revise it takes back, and puts the
run's session next to whatever else is open there.
-/
import Dagq.Sessions.Nesting

namespace Dagq.Sessions

open Lib

/-! ## One span in each place -/

/-- The open spans of the run in the place. -/
def Log.occupants (log : Log) (r : RunId) (place : Place) : Nat :=
  log.openNow.countP fun s => s.runId = some r && s.payload.kind.place = some place

/-- Of a run at most one session, one review and one triage is open. -/
def OnePerPlace (log : Log) : Prop := ∀ r place, log.occupants r place ≤ 1

/-- The condition on a write: a `revise_unsent` comes while no worker's and no resume's span of the run
is open, so that the revise it takes back is the run's session, if there is one. -/
def Timely (log : Log) : Label → Prop
  | .run r .reviseUnsent _ _ => ∀ s ∈ log.openNow, s.runId = some r →
      s.payload.kind ≠ .worker ∧ s.payload.kind ≠ .resume
  | _ => True

section Places

variable {taskOf : RunId → TaskId} {log log' : Log}

theorem Outside.occupants_le (h : Outside log log') (r : RunId) (place : Place) :
    log'.occupants r place ≤ log.occupants r place := by
  obtain ⟨closed, opened, heq, hopened⟩ := h.eq
  unfold Log.occupants
  rw [heq, List.countP_append]
  have hnone : opened.countP (fun s => s.runId = some r && s.payload.kind.place = some place) = 0 := by
    rw [List.countP_eq_zero]
    intro s hs
    simp [hopened s hs]
  rw [hnone]
  exact List.filter_sublist.countP_le

/-- After an event of a run's scope: what it leaves of a place, and one more if it opens a span there. -/
theorem WellNested.occupants_record (h : WellNested taskOf log) (r : RunId) {kind : EventKind}
    (payload : Payload) (env : Env) (hscope : scope kind = some .run) :
    ∃ spans found closed opened, Follows kind spans found closed opened ∧ ∀ r' place,
      (log.record (some (taskOf r)) (some r) kind payload env).occupants r' place =
        (log.openNow.countP fun s => (s.runId = some r' && s.payload.kind.place = some place) &&
          !(decide (s.runId = some r) && decide (s.payload.kind ∈ closedKinds kind))) +
        if r' = r ∧ opened.any (·.kind.place = some place) then 1 else 0 := by
  obtain ⟨-, spans, found, closed, opened, id, hfollows, heq⟩ := h.record_run r payload env hscope
  refine ⟨spans, found, closed, opened, hfollows, fun r' place => ?_⟩
  unfold Log.occupants
  rw [heq, List.countP_append, List.countP_filter]
  congr 1
  cases opened with
  | none => simp
  | some p =>
      by_cases hr : r' = r
      · subst hr
        by_cases hp : p.kind.place = some place <;> simp [hp]
      · have hr' : ¬r = r' := fun he => hr he.symm
        simp [hr, hr']

/-- Where every place has one span at most, a write keeps it so exactly if it is timely. -/
theorem WellNested.onePerPlace_next (h : WellNested taskOf log) (hone : OnePerPlace log) (l : Label) :
    OnePerPlace (log.next taskOf l) ↔ Timely log l := by
  by_cases hl : ∃ r kind payload env, l = .run r kind payload env ∧ scope kind = some .run
  · obtain ⟨r, kind, payload, env, rfl, hscope⟩ := hl
    obtain ⟨spans, found, closed, opened, hfollows, hocc⟩ := h.occupants_record r payload env hscope
    have hkept : ∀ r' place, (log.openNow.countP fun s =>
        (s.runId = some r' && s.payload.kind.place = some place) &&
          !(decide (s.runId = some r) && decide (s.payload.kind ∈ closedKinds kind))) ≤ 1 := by
      intro r' place
      refine Nat.le_trans (List.countP_mono_left fun s _ hs => ?_) (hone r' place)
      exact (Bool.and_eq_true _ _ ▸ hs).1
    by_cases hunsent : kind = .reviseUnsent
    · subst hunsent
      obtain ⟨p, rfl, hplace⟩ := hfollows.reopens rfl
      have hrecord : ∀ r' place,
          (log.next taskOf (.run r .reviseUnsent payload env)).occupants r' place = _ := hocc
      constructor
      · intro hnext s hs hr
        have hle := hnext r .session
        rw [hrecord, if_pos ⟨rfl, by simpa using hplace⟩] at hle
        have hzero := List.countP_eq_zero.mp (Nat.eq_zero_of_le_zero (Nat.le_of_succ_le_succ hle)) s hs
        constructor
        · intro hk
          simp [hr, hk, SpanKind.place, closedKinds] at hzero
        · intro hk
          simp [hr, hk, SpanKind.place, closedKinds] at hzero
      · intro htimely r' place
        rw [hrecord]
        split
        next hnew =>
          -- Only the revise was open there, and it was closed.
          obtain ⟨rfl, hp⟩ := hnew
          obtain rfl : Place.session = place := by simpa [hplace] using hp
          refine Nat.succ_le_succ (Nat.le_of_eq (List.countP_eq_zero.mpr fun s hs hin => ?_))
          simp only [Bool.and_eq_true, Bool.not_eq_true', Bool.and_eq_false_iff,
            decide_eq_true_eq, decide_eq_false_iff_not] at hin
          obtain ⟨hworker, hresume⟩ := htimely s hs hin.1.1
          have hk := session_closed hin.1.2
          simp only [List.mem_cons, hworker, hresume, false_or, List.not_mem_nil, or_false] at hk
          rcases hin.2 with hr | hk'
          · exact hr hin.1.1
          · exact hk' (by rw [hk]; decide)
        next => exact hkept r' place
    · refine iff_of_true (fun r' place => ?_) ?_
      · rw [show log.next taskOf (.run r kind payload env) = log.record _ _ _ _ _ from rfl, hocc]
        split
        next hnew =>
          -- What it opens, it has room for: every span of that place was closed.
          obtain ⟨rfl, hplace⟩ := hnew
          obtain ⟨p, rfl, hplace⟩ := (Option.any_eq_true _ _).mp hplace
          refine Nat.succ_le_succ (Nat.le_of_eq (List.countP_eq_zero.mpr fun s _ hs => ?_))
          simp only [Bool.and_eq_true, Bool.not_eq_true', Bool.and_eq_false_iff,
            decide_eq_true_eq, decide_eq_false_iff_not] at hs
          have hclosed := hfollows.places p rfl place (by simpa using hplace) hunsent _ hs.1.2
          rcases hs.2 with hr | hk
          · exact hr hs.1.1
          · exact hk hclosed
        next => exact hkept r' place
      · unfold Timely
        split
        next heq => cases heq; exact absurd rfl hunsent
        next => trivial
  · have hout := h.outside (l := l) fun r kind payload env heq hscope =>
      hl ⟨r, kind, payload, env, heq, hscope⟩
    refine iff_of_true (fun r place => Nat.le_trans (hout.occupants_le r place) (hone r place)) ?_
    unfold Timely
    split
    next r payload env => exact absurd ⟨r, .reviseUnsent, payload, env, rfl, rfl⟩ hl
    next => trivial

end Places

/-! ## Every run -/

theorem wellNested_empty (taskOf : RunId → TaskId) : WellNested taskOf {} where
  increasing := .nil
  fresh row hrow := by cases hrow
  names c hc := by cases hc
  once := .nil
  tasks s hs := by cases hs

theorem wellNested_run (taskOf : RunId → TaskId) (ls : List Label) :
    WellNested taskOf ((recorder taskOf).run ls) :=
  Machine.invariant (fun _ l h => h.next l) (wellNested_empty taskOf) ls

/-- Whatever is recorded: ids increase, each `session_closed` names one `session_opened` before it, no
`session_opened` is closed twice; and all along there is one span in each place of a run at most, exactly
if every `revise_unsent` is timely. -/
theorem spans_nested_iff (taskOf : RunId → TaskId) (ls : List Label) :
    (((recorder taskOf).run ls).rows.Pairwise (·.id < ·.id) ∧
      (∀ c ∈ ((recorder taskOf).run ls).rows, ∀ id, c.closes = some id →
        ∃ s ∈ ((recorder taskOf).run ls).spans, s.id = id ∧ id < c.id) ∧
      ((recorder taskOf).run ls).closedIds.Nodup) ∧
    ((∀ before after, ls = before ++ after → OnePerPlace ((recorder taskOf).run before)) ↔
      (recorder taskOf).Meets Timely (recorder taskOf).init ls) := by
  have hwell := wellNested_run taskOf ls
  refine ⟨⟨hwell.increasing, fun c hc id hid => ?_, hwell.once⟩, ?_⟩
  · obtain ⟨s, hs, hsid, hlt, -⟩ := hwell.names c hc id hid
    exact ⟨s, hs, hsid, hlt⟩
  · refine Machine.always_iff_meets (J := WellNested taskOf) (fun _ l h => h.next l)
      (fun _ l h hone => h.onePerPlace_next hone l) (wellNested_empty taskOf) ?_
    exact fun r place => Nat.zero_le _

/-- A supervisor records a revise and hangs sending it; another one takes the run over, the session
exits, a resume starts; and then the first one finds that its revise was not sent. -/
def staleRevise : List Label :=
  [.run 1 .agentStarted { sessionId := some "one" } {},
   .run 1 .reviseRequested {} {},
   .run 1 (.other "run_adopted") {} {},
   .run 1 .sessionExited {} {},
   .run 1 .resumeStarted {} {},
   .run 1 .agentStarted { sessionId := some "one" } {},
   .run 1 .reviseUnsent {} {}]

/-- It then has two sessions open, both the resume's. -/
theorem two_sessions_open : ¬OnePerPlace ((recorder fun _ => 1).run staleRevise) ∧
    ((recorder fun _ => 1).run staleRevise).openNow.map (·.payload.kind) = [.resume, .resume] := by
  have htwo : ((recorder fun _ => 1).run staleRevise).occupants 1 .session = 2 := by decide +kernel
  refine ⟨fun hone => ?_, by decide +kernel⟩
  have hle := hone 1 .session
  rw [htwo] at hle
  exact absurd hle (by decide)

end Dagq.Sessions
