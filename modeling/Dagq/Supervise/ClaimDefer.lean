/-
# Dagq.Supervise.ClaimDefer -- the deferrals of a supervisor, in memory and on record.

A pass judges the candidates in their order and records the start and the end of each deferral on its
task.  Between passes the supervisor keeps its deferrals in memory; one that starts anew reads them off
the latest deferral event of each task.  The two agree on every task but one that was claimed since,
and on one whose deferral expired and that left the candidates unclaimed: memory forgets such a task,
the log does not.
-/
import Dagq.Domain.Event
import Dagq.Lib.Machine
import Dagq.Lib.Table

namespace Dagq

open Lib

/-! ## A pass -/

/-- What a pass reads about a candidate: whether its effective priority is an interrupt, and where its
files meet the runs in flight. -/
structure Candidate where
  interrupt : Bool
  overlap : Option Overlap

/-- What a pass makes of the candidates: the ones it may claim in order, the ones it passes over, the
events it records and the deferrals it keeps. -/
structure Claimable where
  order : List TaskId := []
  deferred : List TaskId := []
  events : List (TaskId × DeferralEvent) := []
  deferrals : Table TaskId Deferral

/-- The judgement of one candidate, and its deferral after it. -/
def judgement (now maxSecs : Seconds) (deferrals : Table TaskId Deferral) (c : TaskId × Candidate) :
    Decision × Option Deferral :=
  Deferral.decide c.2.interrupt c.2.overlap (deferrals.get? c.1) now maxSecs

/-- One candidate judged. -/
def Claimable.judge (now maxSecs : Seconds) (pass : Claimable) (c : TaskId × Candidate) : Claimable :=
  let judged := judgement now maxSecs pass.deferrals c
  { order := if judged.1.claims = true then pass.order ++ [c.1] else pass.order
    deferred := if judged.1.claims = true then pass.deferred else pass.deferred ++ [c.1]
    events := pass.events ++ (judged.1.event.map (c.1, ·)).toList
    deferrals := match judged.2 with
      | some deferral => pass.deferrals.insert c.1 deferral
      | none => pass.deferrals.erase c.1 }

/-- Every candidate judged, in order. -/
def Claimable.judgeAll (now maxSecs : Seconds) (pass : Claimable) (cs : List (TaskId × Candidate)) :
    Claimable :=
  cs.foldl (Claimable.judge now maxSecs) pass

/-- The ends of the deferrals whose tasks left the candidates. -/
def leftEvents (now : Seconds) (ids : List TaskId) (deferrals : Table TaskId Deferral) :
    List (TaskId × DeferralEvent) :=
  deferrals.rows.filterMap fun r =>
    (if r.1 ∈ ids then none else r.2.left now).map (r.1, ·)

/-- The candidates a pass may claim, in their order: those whose files meet a run in flight on a hotspot
are passed over.  A deferral whose task left the candidates is dropped. -/
def claimable (now maxSecs : Seconds) (candidates : Table TaskId Candidate)
    (deferrals : Table TaskId Deferral) : Claimable :=
  let ids := candidates.rows.map Prod.fst
  let judged := Claimable.judgeAll now maxSecs { deferrals := deferrals } candidates.rows
  { judged with
    events := judged.events ++ leftEvents now ids judged.deferrals
    deferrals := judged.deferrals.remove fun id _ => id ∉ ids }

/-- The deferral an event leaves in place, put under its task. -/
def restore (place : Table TaskId Deferral) (e : Event) : Table TaskId Deferral :=
  match e.taskId, e.body.deferral? with
  | some id, some deferral => place.insert id deferral
  | _, _ => place

/-- The deferrals in place from each task's latest deferral event: what a supervisor starts from. -/
def deferralsInPlace (latest : List Event) : Table TaskId Deferral := latest.foldl restore ∅

/-! ## Passes one after another -/

/-- A supervisor between passes, next to the log.  Its deferrals are `none` until its first pass reads
them from the queue. -/
structure Watch where
  deferrals : Option (Table TaskId Deferral) := none
  events : List Event := []

/-- What happens to the deferrals of a queue: a pass, the claim of a task by anybody, and a supervisor
replaced by another that has read nothing yet. -/
inductive WatchStep
  | pass (now : Seconds) (candidates : Table TaskId Candidate)
  | claimed (taskId : TaskId) (runId : RunId)
  | restart

/-- The clock reading of a pass. -/
def WatchStep.now? : WatchStep → Option Seconds
  | .pass now _ => some now
  | _ => none

/-- A deferral event as it is recorded at `now`. -/
def deferralRecord (now : Seconds) (e : TaskId × DeferralEvent) : Event :=
  { taskId := some e.1, body := .notice (.claimDeferral now e.2) }

namespace Watch

/-- The deferrals the next pass starts from. -/
def inPlace (w : Watch) : Table TaskId Deferral :=
  w.deferrals.getD (deferralsInPlace (latestTaskEvents EventBody.isDeferralKind w.events))

def step (maxSecs : Seconds) (w : Watch) : WatchStep → Watch
  | .pass now candidates =>
      let pass := claimable now maxSecs candidates w.inPlace
      { deferrals := some pass.deferrals
        events := w.events ++ pass.events.map (deferralRecord now) }
  | .claimed taskId runId =>
      let claim : Event := { taskId := some taskId, runId := some runId, body := .notice .runClaimed }
      { w with events := w.events ++ [claim] }
  | .restart => { w with deferrals := none }

/-- The step does not interrupt a deferral of the task: a pass defers it, and nobody claims it. -/
def defers (maxSecs : Seconds) (w : Watch) (id : TaskId) : WatchStep → Prop
  | .pass now candidates => id ∈ (claimable now maxSecs candidates w.inPlace).deferred
  | .claimed taskId _ => taskId ≠ id
  | .restart => True

instance (maxSecs : Seconds) (w : Watch) (id : TaskId) (l : WatchStep) :
    Decidable (w.defers maxSecs id l) :=
  match l with
  | .pass now candidates =>
      inferInstanceAs (Decidable (id ∈ (claimable now maxSecs candidates w.inPlace).deferred))
  | .claimed taskId _ => inferInstanceAs (Decidable (taskId ≠ id))
  | .restart => .isTrue trivial

/-- What a step decides: the candidates to claim, in order, and the ones passed over. -/
def decisions (maxSecs : Seconds) (w : Watch) : WatchStep → Option (List TaskId × List TaskId)
  | .pass now candidates =>
      let pass := claimable now maxSecs candidates w.inPlace
      some (pass.order, pass.deferred)
  | _ => none

end Watch

/-- The passes over one queue, each under the limit `maxSecs`. -/
def watch (maxSecs : Seconds) : Machine Watch WatchStep where
  init := {}
  next := Watch.step maxSecs

/-- What the steps decide from `w` on, one after another. -/
def decisionsFrom (maxSecs : Seconds) : Watch → List WatchStep →
    List (Option (List TaskId × List TaskId))
  | _, [] => []
  | w, l :: ls => w.decisions maxSecs l :: decisionsFrom maxSecs (w.step maxSecs l) ls

/-! ## One pass -/

section Pass

variable {now maxSecs : Seconds} {deferrals : Table TaskId Deferral}

namespace Claimable

variable {pass : Claimable} {c : TaskId × Candidate} {cs : List (TaskId × Candidate)} {id : TaskId}

theorem get?_judge : (pass.judge now maxSecs c).deferrals.get? id =
    if id = c.1 then (judgement now maxSecs pass.deferrals c).2 else pass.deferrals.get? id := by
  unfold judge
  cases h : (judgement now maxSecs pass.deferrals c).2 with
  | none => simp [h]
  | some d => simp [h]

/-- A candidate judged says nothing about the others. -/
theorem judgement_judge {c' : TaskId × Candidate} (h : c'.1 ≠ c.1) :
    judgement now maxSecs (pass.judge now maxSecs c).deferrals c'
      = judgement now maxSecs pass.deferrals c' := by
  rw [judgement, get?_judge, if_neg h]
  rfl

theorem judgeAll_cons : pass.judgeAll now maxSecs (c :: cs)
    = (pass.judge now maxSecs c).judgeAll now maxSecs cs := rfl

/-- A task that is no candidate keeps its deferral. -/
theorem get?_judgeAll_of_notMem (h : id ∉ cs.map Prod.fst) :
    (pass.judgeAll now maxSecs cs).deferrals.get? id = pass.deferrals.get? id := by
  induction cs generalizing pass with
  | nil => rfl
  | cons c cs ih =>
      rw [List.map_cons, List.mem_cons, not_or] at h
      rw [judgeAll_cons, ih h.2, get?_judge, if_neg h.1]

/-- A candidate is left with what its own judgement makes of its deferral. -/
theorem get?_judgeAll (hkeys : (cs.map Prod.fst).Nodup) (h : c ∈ cs) :
    (pass.judgeAll now maxSecs cs).deferrals.get? c.1 = (judgement now maxSecs pass.deferrals c).2 := by
  induction cs generalizing pass with
  | nil => cases h
  | cons c' cs ih =>
      rw [List.map_cons, List.nodup_cons] at hkeys
      rcases List.mem_cons.mp h with rfl | h
      · rw [judgeAll_cons, get?_judgeAll_of_notMem hkeys.1, get?_judge, if_pos rfl]
      · have hne : c.1 ≠ c'.1 := fun heq => hkeys.1 (heq ▸ List.mem_map_of_mem h)
        rw [judgeAll_cons, ih hkeys.2 h, judgement_judge hne]

/-- Candidates under distinct ids are each judged by the deferral the pass started with. -/
theorem judgeAll_lists (hkeys : (cs.map Prod.fst).Nodup) :
    (pass.judgeAll now maxSecs cs).order = pass.order ++
        (cs.filter fun c => (judgement now maxSecs pass.deferrals c).1.claims).map Prod.fst ∧
      (pass.judgeAll now maxSecs cs).deferred = pass.deferred ++
        (cs.filter fun c => !(judgement now maxSecs pass.deferrals c).1.claims).map Prod.fst ∧
      (pass.judgeAll now maxSecs cs).events = pass.events ++
        cs.filterMap fun c => (judgement now maxSecs pass.deferrals c).1.event.map (c.1, ·) := by
  induction cs generalizing pass with
  | nil => simp [judgeAll]
  | cons c cs ih =>
      rw [List.map_cons, List.nodup_cons] at hkeys
      -- Judging one candidate leaves the deferrals of the others.
      have hsame : ∀ c' ∈ cs, judgement now maxSecs (pass.judge now maxSecs c).deferrals c'
          = judgement now maxSecs pass.deferrals c' := fun c' hc' =>
        judgement_judge fun heq => hkeys.1 (heq ▸ List.mem_map_of_mem hc')
      obtain ⟨horder, hdeferred, hevents⟩ := @ih (pass.judge now maxSecs c) hkeys.2
      refine ⟨?_, ?_, ?_⟩
      · have hrest := List.filter_congr fun c' hc' =>
          congrArg (fun j : Decision × Option Deferral => j.1.claims) (hsame c' hc')
        rw [judgeAll_cons, horder, hrest, List.filter_cons]
        cases hclaims : (judgement now maxSecs pass.deferrals c).1.claims <;> simp [judge, hclaims]
      · have hrest := List.filter_congr fun c' hc' =>
          congrArg (fun j : Decision × Option Deferral => !j.1.claims) (hsame c' hc')
        rw [judgeAll_cons, hdeferred, hrest, List.filter_cons]
        cases hclaims : (judgement now maxSecs pass.deferrals c).1.claims <;> simp [judge, hclaims]
      · have hrest := List.filterMap_congr fun c' hc' =>
          congrArg (fun j : Decision × Option Deferral => j.1.event.map (c'.1, ·)) (hsame c' hc')
        rw [judgeAll_cons, hevents, hrest, List.filterMap_cons]
        cases hevent : (judgement now maxSecs pass.deferrals c).1.event <;> simp [judge, hevent]

end Claimable

variable {candidates : Table TaskId Candidate} {id : TaskId} {c : Candidate}

theorem claimable_order : (claimable now maxSecs candidates deferrals).order =
    (candidates.rows.filter fun c => (judgement now maxSecs deferrals c).1.claims).map Prod.fst :=
  (Claimable.judgeAll_lists candidates.keyed).1

theorem claimable_deferred : (claimable now maxSecs candidates deferrals).deferred =
    (candidates.rows.filter fun c => !(judgement now maxSecs deferrals c).1.claims).map Prod.fst :=
  (Claimable.judgeAll_lists candidates.keyed).2.1

theorem claimable_events : (claimable now maxSecs candidates deferrals).events =
    (candidates.rows.filterMap fun c => (judgement now maxSecs deferrals c).1.event.map (c.1, ·)) ++
      leftEvents now (candidates.rows.map Prod.fst)
        (Claimable.judgeAll now maxSecs { deferrals := deferrals } candidates.rows).deferrals :=
  congrArg (· ++ _) (Claimable.judgeAll_lists candidates.keyed).2.2

/-- After a pass the deferral of a candidate is what its judgement made of it, and no other task has
one. -/
theorem get?_claimable : (claimable now maxSecs candidates deferrals).deferrals.get? id =
    (candidates.get? id).bind fun c => (judgement now maxSecs deferrals (id, c)).2 := by
  unfold claimable
  rw [Table.get?_remove]
  cases hc : candidates.get? id with
  | none =>
      have hleft : id ∉ candidates.rows.map Prod.fst := by
        rw [Table.mem_keys_iff, hc]
        simp
      simp only [hleft, not_false_eq_true, decide_true, Bool.not_true, Option.bind_none]
      cases (Claimable.judgeAll now maxSecs { deferrals := deferrals } candidates.rows).deferrals.get? id
        <;> simp
  | some c =>
      have hmem : (id, c) ∈ candidates.rows := Table.mem_rows_iff.mpr hc
      have hstays : id ∈ candidates.rows.map Prod.fst := List.mem_map_of_mem (f := Prod.fst) hmem
      rw [Claimable.get?_judgeAll (c := (id, c)) candidates.keyed hmem]
      simp only [hstays, not_true_eq_false, decide_false, Bool.not_false, Option.bind_some]
      cases (judgement now maxSecs deferrals (id, c)).2 <;> simp

theorem mem_deferred_iff : id ∈ (claimable now maxSecs candidates deferrals).deferred ↔
    ∃ c, candidates.get? id = some c ∧
      (judgement now maxSecs deferrals (id, c)).1.claims = false := by
  rw [claimable_deferred, List.mem_map]
  constructor
  · rintro ⟨⟨id', c⟩, hmem, rfl⟩
    obtain ⟨hmem, hdefers⟩ := List.mem_filter.mp hmem
    exact ⟨c, Table.mem_rows_iff.mp hmem, by simpa using hdefers⟩
  · rintro ⟨c, hc, hdefers⟩
    refine ⟨(id, c), List.mem_filter.mpr ⟨Table.mem_rows_iff.mpr hc, ?_⟩, rfl⟩
    rw [hdefers]
    rfl

theorem mem_order_iff : id ∈ (claimable now maxSecs candidates deferrals).order ↔
    ∃ c, candidates.get? id = some c ∧
      (judgement now maxSecs deferrals (id, c)).1.claims = true := by
  rw [claimable_order, List.mem_map]
  constructor
  · rintro ⟨⟨id', c⟩, hmem, rfl⟩
    obtain ⟨hmem, hclaims⟩ := List.mem_filter.mp hmem
    exact ⟨c, Table.mem_rows_iff.mp hmem, hclaims⟩
  · rintro ⟨c, hc, hclaims⟩
    exact ⟨(id, c), List.mem_filter.mpr ⟨Table.mem_rows_iff.mpr hc, hclaims⟩, rfl⟩

/-! ### What a pass records on one task -/

/-- The events recorded on the task, in order. -/
def recordedOn (id : TaskId) (events : List (TaskId × DeferralEvent)) : List DeferralEvent :=
  events.filterMap fun e => if e.1 = id then some e.2 else none

/-- Rows under distinct keys that record at most one event each record on a task what its own row
does. -/
theorem recordedOn_filterMap {ν : Type} {rows : List (TaskId × ν)}
    {f : TaskId × ν → Option DeferralEvent} (hkeys : (rows.map Prod.fst).Nodup) :
    recordedOn id (rows.filterMap fun r => (f r).map (r.1, ·))
      = ((rows.find? fun r => r.1 = id).bind f).toList := by
  induction rows with
  | nil => rfl
  | cons r rows ih =>
      rw [List.map_cons, List.nodup_cons] at hkeys
      have hrest := ih hkeys.2
      rw [recordedOn] at hrest ⊢
      rw [List.find?_cons, List.filterMap_cons]
      by_cases hr : r.1 = id
      · have hnone : rows.find? (fun r => r.1 = id) = none := by
          rw [List.find?_eq_none]
          intro r' hr' heq
          have hkey : r'.1 = r.1 := (of_decide_eq_true heq).trans hr.symm
          exact hkeys.1 (hkey ▸ List.mem_map_of_mem hr')
        rw [hnone] at hrest
        cases hf : f r <;> simp [hr, hf, hrest]
      · cases hf : f r <;> simp [hr, hrest]

/-- A pass records on a candidate what its judgement says, and on another task the end of its deferral
if that is open. -/
theorem recordedOn_claimable : recordedOn id (claimable now maxSecs candidates deferrals).events =
    match candidates.get? id with
    | some c => (judgement now maxSecs deferrals (id, c)).1.event.toList
    | none => ((deferrals.get? id).bind fun d => d.left now).toList := by
  have happend : ∀ es es', recordedOn id (es ++ es') = recordedOn id es ++ recordedOn id es' :=
    fun es es' => List.filterMap_append
  rw [claimable_events, happend, recordedOn_filterMap candidates.keyed, leftEvents,
    recordedOn_filterMap (Table.keyed _), Table.find?_rows, Table.find?_rows]
  cases hc : candidates.get? id with
  | some c =>
      have hmem : id ∈ candidates.rows.map Prod.fst := by
        rw [Table.mem_keys_iff, hc]
        rfl
      cases (Claimable.judgeAll now maxSecs { deferrals := deferrals } candidates.rows).deferrals.get? id
        <;> simp [hmem]
  | none =>
      have hmem : id ∉ candidates.rows.map Prod.fst := by
        rw [Table.mem_keys_iff, hc]
        simp
      rw [Claimable.get?_judgeAll_of_notMem hmem]
      cases deferrals.get? id <;> simp [hmem]

end Pass

end Dagq
