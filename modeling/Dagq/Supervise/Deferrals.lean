/-
# Dagq.Supervise.Deferrals -- a deferral is bounded, and what a restart keeps of it.

What a supervisor has in memory and what the log says of a task stand alike after every pass, but for
a task that was claimed since and one whose deferral expired and that left the candidates unclaimed.
While neither kind of task is listed again, a supervisor that starts from the log decides what the one
it replaces would have decided.
-/
import Dagq.Supervise.ClaimDefer

namespace Dagq

open Lib

/-! ## What the log says of a task -/

/-- The latest event of the task that says where its deferral stands. -/
def latestMark (id : TaskId) (events : List Event) : Option EventBody :=
  (events.reverse.find? fun e => e.taskId = some id && e.body.isDeferralKind).map Event.body

/-- The deferral that event leaves in place. -/
def onRecord (id : TaskId) (events : List Event) : Option Deferral :=
  (latestMark id events).bind EventBody.deferral?

def EventBody.isClaim : EventBody → Bool
  | .notice .runClaimed => true
  | _ => false

/-- Whether the claim of the task is the last that the log says of its deferral. -/
def claimedLast (id : TaskId) (events : List Event) : Bool :=
  (latestMark id events).any EventBody.isClaim

section Log

variable {id : TaskId} {events : List Event}

theorem latestMark_append {later : List Event} :
    latestMark id (events ++ later) = (latestMark id later).or (latestMark id events) := by
  rw [latestMark, List.reverse_append, List.find?_append]
  cases h : later.reverse.find? fun e => e.taskId = some id && e.body.isDeferralKind <;>
    simp [latestMark, h]

theorem onRecord_of_claimedLast (h : claimedLast id events = true) : onRecord id events = none := by
  unfold claimedLast at h
  unfold onRecord
  cases hmark : latestMark id events with
  | none => rfl
  | some body =>
      rw [hmark, Option.any_some] at h
      unfold EventBody.isClaim at h
      split at h
      · rfl
      · cases h

/-- What one event leaves in place of the task. -/
def deferralOf (id : TaskId) (e : Event) : Option Deferral :=
  if e.taskId = some id then e.body.deferral? else none

theorem get?_restore {place : Table TaskId Deferral} {e : Event} :
    (restore place e).get? id = (deferralOf id e).or (place.get? id) := by
  unfold restore deferralOf
  cases htask : e.taskId with
  | none => simp
  | some t =>
      cases hdeferral : e.body.deferral? with
      | none => simp
      | some deferral =>
          rw [Table.get?_insert]
          by_cases ht : id = t
          · simp [ht]
          · have hne : ¬t = id := fun heq => ht heq.symm
            simp [ht, hne]

theorem get?_foldl_restore {latest : List Event} {place : Table TaskId Deferral} :
    (latest.foldl restore place).get? id
      = (latest.reverse.findSome? (deferralOf id)).or (place.get? id) := by
  induction latest generalizing place with
  | nil => rfl
  | cons e latest ih =>
      rw [List.foldl_cons, ih, get?_restore, List.reverse_cons, List.findSome?_append, Option.or_assoc,
        List.findSome?_singleton]

theorem latestMark_isSome :
    (latestMark id events).isSome = events.any fun e => e.taskId = some id && e.body.isDeferralKind := by
  rw [Bool.eq_iff_iff, latestMark, Option.isSome_map, List.find?_isSome, List.any_eq_true]
  simp only [List.mem_reverse]

/-- What a supervisor starts from is what the log says of each task. -/
theorem get?_deferralsInPlace :
    (deferralsInPlace (latestTaskEvents EventBody.isDeferralKind events)).get? id
      = onRecord id events := by
  rw [deferralsInPlace, get?_foldl_restore, Table.get?_empty, Option.or_none]
  induction events with
  | nil => rfl
  | cons e events ih =>
      -- An event counts only with no later one of its task.
      have hsplit : latestMark id (e :: events) = (latestMark id events).or (latestMark id [e]) :=
        @latestMark_append id [e] events
      have hlast : latestMark id [e] =
          if e.taskId = some id ∧ e.body.isDeferralKind = true then some e.body else none := by
        by_cases he : e.taskId = some id ∧ e.body.isDeferralKind = true
        · simp [latestMark, he.1, he.2]
        · rw [if_neg he]
          simpa [latestMark] using he
      rw [latestTaskEvents, onRecord, hsplit, hlast]
      by_cases htask : e.taskId = some id
      · have hlater : (latestMark id events).isSome =
            events.any fun later => later.taskId = e.taskId && later.body.isDeferralKind := by
          rw [htask]
          exact latestMark_isSome
        cases hkind : e.body.isDeferralKind with
        | false => simpa [htask, hkind, onRecord] using ih
        | true =>
            rw [← hlater]
            cases hmark : latestMark id events with
            | some body =>
                rw [onRecord, hmark] at ih
                simpa using ih
            | none =>
                rw [onRecord, hmark] at ih
                simp [htask, ih, deferralOf]
      · -- An event of another task leaves nothing in place of this one.
        have hother : deferralOf id e = none := if_neg htask
        have hnot : ¬(e.taskId = some id ∧ e.body.isDeferralKind = true) := fun he => htask he.1
        rw [if_neg hnot, Option.or_none, ← onRecord, ← ih]
        split_ifs
        · rw [List.reverse_cons, List.findSome?_append, List.findSome?_singleton, hother, Option.or_none]
        · rfl

end Log

/-! ## One step -/

theorem latestMark_records {id : TaskId} {now : Seconds} {events : List (TaskId × DeferralEvent)} :
    latestMark id (events.map (deferralRecord now))
      = (recordedOn id events).getLast?.map fun e => .notice (.claimDeferral now e) := by
  rw [latestMark, ← List.map_reverse, List.find?_map, Option.map_map, recordedOn,
    ← List.head?_reverse, ← List.filterMap_reverse]
  induction events.reverse with
  | nil => rfl
  | cons e events ih =>
      rw [List.find?_cons, List.filterMap_cons]
      by_cases he : e.1 = id
      · simp [he, deferralRecord, EventBody.isDeferralKind]
      · simpa [he, deferralRecord] using ih

/-- What the event of a judgement leaves in place. -/
theorem deferral?_of_decide {interrupt : Bool} {overlap : Option Overlap} {d : Option Deferral}
    {now maxSecs : Seconds} :
    (Deferral.decide interrupt overlap d now maxSecs).2.map Deferral.standing =
      match (Deferral.decide interrupt overlap d now maxSecs).1.event with
      | some e => (EventBody.notice (.claimDeferral now e)).deferral?.map Deferral.standing
      | none => d.map Deferral.standing := by
  unfold Deferral.decide
  cases overlap.filter fun _ => !interrupt with
  | none =>
      cases d with
      | none => rfl
      | some a => dsimp only; split_ifs <;> rfl
  | some o =>
      cases d with
      | none => dsimp only; split_ifs <;> rfl
      | some a => dsimp only; split_ifs <;> rfl

/-- A deferral on record began, or expired, when it was recorded. -/
theorem deferral?_since {now : Seconds} {e : DeferralEvent} {d : Deferral}
    (h : (EventBody.notice (.claimDeferral now e)).deferral? = some d) : d.since = now := by
  cases e with
  | deferred =>
      cases h
      rfl
  | ended why =>
      cases why <;> cases h
      rfl

namespace Watch

variable {maxSecs now : Seconds} {w : Watch} {candidates : Table TaskId Candidate} {id : TaskId}

/-- The event a pass records on the task, if any. -/
def passEvent (maxSecs : Seconds) (w : Watch) (now : Seconds) (candidates : Table TaskId Candidate)
    (id : TaskId) : Option DeferralEvent :=
  match candidates.get? id with
  | some c => (judgement now maxSecs w.inPlace (id, c)).1.event
  | none => (w.inPlace.get? id).bind fun d => d.left now

theorem latestMark_pass : latestMark id (w.step maxSecs (.pass now candidates)).events =
    ((w.passEvent maxSecs now candidates id).map fun e => .notice (.claimDeferral now e)).or
      (latestMark id w.events) := by
  have hrecorded : recordedOn id (claimable now maxSecs candidates w.inPlace).events
      = (w.passEvent maxSecs now candidates id).toList := by
    rw [recordedOn_claimable, passEvent]
    cases candidates.get? id <;> rfl
  rw [step, latestMark_append, latestMark_records, hrecorded]
  cases w.passEvent maxSecs now candidates id <;> rfl

theorem onRecord_pass : onRecord id (w.step maxSecs (.pass now candidates)).events =
    match w.passEvent maxSecs now candidates id with
    | some e => (EventBody.notice (.claimDeferral now e)).deferral?
    | none => onRecord id w.events := by
  rw [onRecord, latestMark_pass]
  cases w.passEvent maxSecs now candidates id <;> rfl

theorem inPlace_pass : (w.step maxSecs (.pass now candidates)).inPlace.get? id =
    (candidates.get? id).bind fun c => (judgement now maxSecs w.inPlace (id, c)).2 :=
  get?_claimable

theorem latestMark_claimed {taskId : TaskId} {runId : RunId} :
    latestMark id (w.step maxSecs (.claimed taskId runId)).events =
      if taskId = id then some (.notice .runClaimed) else latestMark id w.events := by
  rw [step, latestMark_append]
  by_cases ht : taskId = id <;> simp [latestMark, ht, EventBody.isDeferralKind]

/-- A supervisor that has read nothing starts from the log; another has what it had. -/
theorem inPlace_eq : w.inPlace.get? id =
    match w.deferrals with
    | some deferrals => deferrals.get? id
    | none => onRecord id w.events := by
  unfold inPlace
  cases w.deferrals with
  | some deferrals => rfl
  | none => exact get?_deferralsInPlace

/-- A claim changes the deferrals of a supervisor that has read nothing yet, on its own task. -/
theorem inPlace_claimed {taskId : TaskId} {runId : RunId} :
    (w.step maxSecs (.claimed taskId runId)).inPlace.get? id =
      if taskId = id ∧ w.deferrals = none then none else w.inPlace.get? id := by
  rw [inPlace_eq, inPlace_eq]
  cases hd : w.deferrals with
  | some deferrals => simp [step, hd]
  | none =>
      have hstep : (w.step maxSecs (.claimed taskId runId)).deferrals = none := hd
      rw [hstep, onRecord, latestMark_claimed]
      by_cases ht : taskId = id
      · simp [ht, EventBody.deferral?]
      · simp [ht, onRecord]

/-! ## Memory and log -/

/-- A pass lists no task with a deferral in place that was claimed since, and one whose deferral expired
is off its list only if it was claimed. -/
def orderly (w : Watch) : WatchStep → Bool
  | .pass _ candidates => !w.inPlace.any fun id d => match candidates.get? id with
      | some _ => claimedLast id w.events
      | none => d.expired && !claimedLast id w.events
  | _ => true

theorem orderly_listed {c : Candidate} {d : Deferral} (h : w.orderly (.pass now candidates) = true)
    (hc : candidates.get? id = some c) (hd : w.inPlace.get? id = some d) :
    claimedLast id w.events = false := by
  rw [orderly, Bool.not_eq_true', Table.any_eq_false_iff] at h
  simpa [hc] using h id d hd

theorem orderly_unlisted {d : Deferral} (h : w.orderly (.pass now candidates) = true)
    (hc : candidates.get? id = none) (hd : w.inPlace.get? id = some d) (hexpired : d.expired = true) :
    claimedLast id w.events = true := by
  rw [orderly, Bool.not_eq_true', Table.any_eq_false_iff] at h
  simpa [hc, hexpired] using h id d hd

/-- What the next pass starts from, and what the log says, of one task. -/
def standing (w : Watch) (id : TaskId) : Option (Option Seconds) :=
  (w.inPlace.get? id).map Deferral.standing

def recorded (w : Watch) (id : TaskId) : Option (Option Seconds) :=
  (onRecord id w.events).map Deferral.standing

/-- Memory and log agree on every task, but for one whose claim the log ends with. -/
def Kept (w : Watch) : Prop :=
  ∀ id, w.standing id = w.recorded id ∨ claimedLast id w.events = true

theorem recorded_of_claimedLast (h : claimedLast id w.events = true) : w.recorded id = none := by
  rw [recorded, onRecord_of_claimedLast h]
  rfl

/-- What an event leaves on record of the deferral of its task. -/
def afterEvent (now : Seconds) (before : Option (Option Seconds)) (e : Option DeferralEvent) :
    Option (Option Seconds) :=
  match e with
  | some e => (EventBody.notice (.claimDeferral now e)).deferral?.map Deferral.standing
  | none => before

theorem recorded_pass : (w.step maxSecs (.pass now candidates)).recorded id =
    afterEvent now (w.recorded id) (w.passEvent maxSecs now candidates id) := by
  rw [recorded, onRecord_pass]
  cases w.passEvent maxSecs now candidates id <;> rfl

theorem passEvent_listed {c : Candidate} (hc : candidates.get? id = some c) :
    w.passEvent maxSecs now candidates id = (judgement now maxSecs w.inPlace (id, c)).1.event := by
  rw [passEvent, hc]

theorem passEvent_unlisted (hc : candidates.get? id = none) :
    w.passEvent maxSecs now candidates id = (w.inPlace.get? id).bind fun d => d.left now := by
  rw [passEvent, hc]

theorem standing_listed {c : Candidate} (hc : candidates.get? id = some c) :
    (w.step maxSecs (.pass now candidates)).standing id =
      afterEvent now (w.standing id) (w.passEvent maxSecs now candidates id) := by
  rw [standing, inPlace_pass, hc, passEvent_listed hc]
  exact deferral?_of_decide

theorem standing_unlisted (hc : candidates.get? id = none) :
    (w.step maxSecs (.pass now candidates)).standing id = none := by
  rw [standing, inPlace_pass, hc]
  rfl

/-- The end of a deferral whose task left leaves nothing in place. -/
theorem afterEvent_left {d : Deferral} {before : Option (Option Seconds)}
    (hopen : d.expired = false) : afterEvent now before (d.left now) = none := by
  rw [Deferral.left, if_neg (by simp [hopen])]
  rfl

/-- With nothing on record, nothing is after the task left the candidates. -/
theorem afterEvent_unlisted {d : Option Deferral} :
    afterEvent now none (d.bind fun d => d.left now) = none := by
  cases d with
  | none => rfl
  | some d =>
      cases hexpired : d.expired with
      | false => exact afterEvent_left hexpired
      | true => rw [Option.bind_some, Deferral.left, if_pos hexpired]; rfl

theorem recorded_claimed {taskId : TaskId} {runId : RunId} :
    (w.step maxSecs (.claimed taskId runId)).recorded id
      = if taskId = id then none else w.recorded id := by
  rw [recorded, onRecord, latestMark_claimed]
  split_ifs <;> rfl

theorem claimedLast_claimed {taskId : TaskId} {runId : RunId} :
    claimedLast id (w.step maxSecs (.claimed taskId runId)).events
      = (decide (taskId = id) || claimedLast id w.events) := by
  rw [claimedLast, latestMark_claimed]
  by_cases ht : taskId = id <;> simp [ht, claimedLast, EventBody.isClaim]

theorem standing_restart : (w.step maxSecs .restart).standing id = w.recorded id := by
  rw [standing, inPlace_eq]
  rfl

theorem claimedLast_pass (h : w.passEvent maxSecs now candidates id = none) :
    claimedLast id (w.step maxSecs (.pass now candidates)).events = claimedLast id w.events := by
  rw [claimedLast, latestMark_pass, h]
  rfl

theorem Kept.step {l : WatchStep} (hw : w.Kept) (hl : w.orderly l = true) :
    (w.step maxSecs l).Kept := by
  intro id
  cases l with
  | pass now candidates =>
      cases hc : candidates.get? id with
      | some c =>
          have hagree : w.standing id = w.recorded id := by
            rcases hw id with hagree | hclaimed
            · exact hagree
            · -- A task claimed since has no deferral here, or the pass would not list it.
              rw [recorded_of_claimedLast hclaimed, standing]
              cases hd : w.inPlace.get? id with
              | none => rfl
              | some d =>
                  rw [orderly_listed hl hc hd] at hclaimed
                  cases hclaimed
          rw [standing_listed hc, recorded_pass, hagree]
          exact .inl rfl
      | none =>
          rw [standing_unlisted hc, recorded_pass]
          have hevent : w.passEvent maxSecs now candidates id
              = (w.inPlace.get? id).bind fun d => d.left now := passEvent_unlisted hc
          cases hd : w.inPlace.get? id with
          | none =>
              rw [hd, Option.bind_none] at hevent
              rw [hevent, claimedLast_pass hevent]
              rcases hw id with hagree | hclaimed
              · rw [standing, hd] at hagree
                exact .inl hagree
              · exact .inr hclaimed
          | some d =>
              rw [hd, Option.bind_some] at hevent
              cases hexpired : d.expired with
              | false => exact .inl (by rw [hevent, afterEvent_left hexpired])
              | true =>
                  have hnone : d.left now = none := by rw [Deferral.left, if_pos hexpired]
                  rw [hnone] at hevent
                  rw [claimedLast_pass hevent]
                  exact .inr (orderly_unlisted hl hc hd hexpired)
  | claimed taskId runId =>
      rw [claimedLast_claimed, recorded_claimed]
      by_cases ht : taskId = id
      · exact .inr (by simp [ht])
      · rw [if_neg ht, standing, inPlace_claimed, if_neg fun h => ht h.1]
        simpa [ht, standing] using hw id
  | restart => exact .inl standing_restart

/-! ## Clocks -/

/-- Every deferral, in memory and on record, began by `now`. -/
structure SinceBy (w : Watch) (now : Seconds) : Prop where
  inPlace : ∀ {id d}, w.inPlace.get? id = some d → d.since ≤ now
  onRecord : ∀ {id d}, onRecord id w.events = some d → d.since ≤ now

theorem SinceBy.step {l : WatchStep} (hw : w.SinceBy now) (hl : ∀ at_, l.now? = some at_ → at_ ≤ now) :
    (w.step maxSecs l).SinceBy now := by
  cases l with
  | pass at_ candidates =>
      have hat : at_ ≤ now := hl at_ rfl
      refine ⟨fun {id d} hd => ?_, fun {id d} hd => ?_⟩
      · rw [inPlace_pass] at hd
        obtain ⟨c, _, hjudged⟩ := Option.bind_eq_some_iff.mp hd
        -- A deferral is of this pass, or was there before it.
        rcases Deferral.decide_since hjudged with hnow | ⟨before, hbefore, hsame⟩
        · rw [hnow]
          exact hat
        · rw [hsame]
          exact hw.inPlace hbefore
      · rw [onRecord_pass] at hd
        cases hevent : w.passEvent maxSecs at_ candidates id with
        | none =>
            rw [hevent] at hd
            exact hw.onRecord hd
        | some e =>
            rw [hevent] at hd
            exact deferral?_since hd ▸ hat
  | claimed taskId runId =>
      refine ⟨fun {id d} hd => ?_, fun {id d} hd => ?_⟩
      · rw [inPlace_claimed] at hd
        split_ifs at hd
        exact hw.inPlace hd
      · rw [Dagq.onRecord, latestMark_claimed] at hd
        split_ifs at hd
        · cases hd
        · exact hw.onRecord hd
  | restart =>
      refine ⟨fun {id d} hd => ?_, hw.onRecord⟩
      rw [inPlace_eq] at hd
      exact hw.onRecord hd

/-! ## One deferral, uninterrupted -/

/-- The task is deferred since `since`: in memory, and, where that matters (`R`), on record. -/
structure Held (R : Prop) (id : TaskId) (since : Seconds) (w : Watch) : Prop where
  inPlace : w.inPlace.get? id = some { since := since }
  onRecord : R → onRecord id w.events = some { since := since }

/-- What a pass that defers the task does to its deferral. -/
theorem defers_pass (h : w.defers maxSecs id (.pass now candidates)) :
    ∃ since, (w.step maxSecs (.pass now candidates)).inPlace.get? id = some { since := since } ∧
      now - since < maxSecs ∧
      (w.inPlace.get? id = some { since := since } ∧ w.passEvent maxSecs now candidates id = none ∨
        w.inPlace.get? id = none ∧ since = now ∧
          ∃ o, w.passEvent maxSecs now candidates id = some (.deferred o maxSecs)) := by
  obtain ⟨c, hc, hdefers⟩ := mem_deferred_iff.mp h
  obtain ⟨since, hafter, hlimit, hbefore⟩ := Deferral.decide_defers hdefers
  refine ⟨since, ?_, hlimit, ?_⟩
  · rw [inPlace_pass, hc]
    exact hafter
  · rw [passEvent_listed hc]
    exact hbefore

variable {R : Prop} {since : Seconds}

/-- A deferral that nothing interrupts goes on under its start. -/
theorem Held.step {l : WatchStep} (h : Held R id since w) (hdefers : w.defers maxSecs id l)
    (hrestart : l = .restart → R) : Held R id since (w.step maxSecs l) := by
  cases l with
  | pass now candidates =>
      obtain ⟨since', hafter, _, ⟨hsame, hevent⟩ | ⟨hnone, _⟩⟩ := defers_pass hdefers
      · obtain rfl : since = since' := by
          rw [h.inPlace] at hsame
          cases hsame
          rfl
        refine ⟨hafter, fun hR => ?_⟩
        rw [onRecord_pass, hevent]
        exact h.onRecord hR
      · rw [h.inPlace] at hnone
        cases hnone
  | claimed taskId runId =>
      have hne : ¬taskId = id := hdefers
      refine ⟨?_, fun hR => ?_⟩
      · rw [inPlace_claimed, if_neg fun hb => hne hb.1]
        exact h.inPlace
      · rw [Dagq.onRecord, latestMark_claimed, if_neg hne]
        exact h.onRecord hR
  | restart =>
      refine ⟨?_, h.onRecord⟩
      rw [inPlace_eq]
      exact h.onRecord (hrestart rfl)

theorem Held.run {steps : List WatchStep} (h : Held R id since w)
    (hdefers : (watch maxSecs).Meets (fun w l => w.defers maxSecs id l) w steps)
    (hrestart : ∀ l ∈ steps, l = .restart → R) :
    Held R id since ((watch maxSecs).runFrom w steps) := by
  induction steps generalizing w with
  | nil => exact h
  | cons l ls ih =>
      obtain ⟨hl, hls⟩ := List.forall_mem_cons.mp hrestart
      exact ih (h.step hdefers.1 hl) hdefers.2 hls

/-- The first pass of an uninterrupted deferral leaves it held, since then or before. -/
theorem held_pass (hw : w.SinceBy now) (h : w.defers maxSecs id (.pass now candidates))
    (hkept : R → w.Kept ∧ w.orderly (.pass now candidates) = true) :
    ∃ since, since ≤ now ∧ Held R id since (w.step maxSecs (.pass now candidates)) := by
  obtain ⟨c, hc, _⟩ := mem_deferred_iff.mp h
  obtain ⟨since, hafter, _, ⟨hbefore, hevent⟩ | ⟨_, rfl, o, hevent⟩⟩ := defers_pass h
  · refine ⟨since, hw.inPlace hbefore, hafter, fun hR => ?_⟩
    obtain ⟨hkept, horderly⟩ := hkept hR
    rw [onRecord_pass, hevent]
    rcases hkept id with hagree | hclaimed
    · rw [standing, hbefore, recorded, eq_comm, Option.map_some, Option.map_eq_some_iff] at hagree
      obtain ⟨⟨since', expired⟩, hrecord, hstanding⟩ := hagree
      obtain ⟨hexpired, hsince⟩ := Deferral.standing_eq hstanding
      obtain rfl : expired = false := hexpired
      obtain rfl : since' = since := hsince rfl
      exact hrecord
    · rw [orderly_listed horderly hc hbefore] at hclaimed
      cases hclaimed
  · refine ⟨since, Int.le_refl since, hafter, fun _ => ?_⟩
    rw [onRecord_pass, hevent]
    rfl

/-! ## Two supervisors over one history -/

/-- `w` and a supervisor restarted some time before: the log leaves the same in place, and so does memory,
but for tasks whose claim ends the log. -/
structure Follows (w r : Watch) : Prop where
  unread : w.deferrals = none → r.deferrals = none
  recorded : ∀ id, w.recorded id = r.recorded id
  standing : ∀ id, w.standing id = r.standing id ∨
    claimedLast id w.events = true ∧ r.inPlace.get? id = none

theorem follows_restart (hw : w.Kept) : w.Follows (w.step maxSecs .restart) := by
  have hlog : ∀ id, (w.step maxSecs .restart).inPlace.get? id = onRecord id w.events :=
    fun id => inPlace_eq
  refine ⟨fun _ => rfl, fun _ => rfl, fun id => ?_⟩
  rcases hw id with hagree | hclaimed
  · exact .inl (hagree.trans (congrArg (Option.map Deferral.standing) (hlog id).symm))
  · exact .inr ⟨hclaimed, (hlog id).trans (onRecord_of_claimedLast hclaimed)⟩

variable {r : Watch}

theorem Follows.listed {c : Candidate} (h : w.Follows r) (hl : w.orderly (.pass now candidates) = true)
    (hc : candidates.get? id = some c) : w.standing id = r.standing id := by
  rcases h.standing id with hsame | ⟨hclaimed, hnone⟩
  · exact hsame
  · rw [Watch.standing, Watch.standing, hnone]
    cases hd : w.inPlace.get? id with
    | none => rfl
    | some d =>
        rw [orderly_listed hl hc hd] at hclaimed
        cases hclaimed

/-- The candidates of a pass are judged the same. -/
theorem Follows.judgement {c : Candidate} (h : w.Follows r)
    (hl : w.orderly (.pass now candidates) = true) (hc : candidates.get? id = some c) :
    (judgement now maxSecs w.inPlace (id, c)).1 = (judgement now maxSecs r.inPlace (id, c)).1 :=
  (Deferral.decide_congr (h.listed hl hc)).1

theorem Follows.decisions (h : w.Follows r) {l : WatchStep} (hl : w.orderly l = true) :
    w.decisions maxSecs l = r.decisions maxSecs l := by
  cases l with
  | pass now candidates =>
      have hsame : ∀ c ∈ candidates.rows, (Dagq.judgement now maxSecs w.inPlace c).1.claims
          = (Dagq.judgement now maxSecs r.inPlace c).1.claims := fun c hc =>
        congrArg Decision.claims (h.judgement hl (Table.mem_rows_iff.mp hc))
      simp only [Watch.decisions, claimable_order, claimable_deferred]
      rw [List.filter_congr hsame, List.filter_congr fun c hc => congrArg (!·) (hsame c hc)]
  | claimed => rfl
  | restart => rfl

theorem left_bind_congr (h : w.standing id = r.standing id) :
    ((w.inPlace.get? id).bind fun d => d.left now) = (r.inPlace.get? id).bind fun d => d.left now := by
  rw [Watch.standing, Watch.standing] at h
  cases hw : w.inPlace.get? id with
  | none =>
      rw [hw, Option.map_none, eq_comm, Option.map_eq_none_iff] at h
      rw [h]
  | some a =>
      rw [hw, Option.map_some, eq_comm, Option.map_eq_some_iff] at h
      obtain ⟨b, hb, hstanding⟩ := h
      rw [hb, Option.bind_some, Option.bind_some, Deferral.left_congr hstanding]

theorem Follows.step (h : w.Follows r) {l : WatchStep} (hl : w.orderly l = true) :
    (w.step maxSecs l).Follows (r.step maxSecs l) := by
  cases l with
  | pass now candidates =>
      refine ⟨nofun, fun id => ?_, fun id => .inl ?_⟩
      · rw [recorded_pass, recorded_pass, h.recorded id]
        cases hc : candidates.get? id with
        | some c => rw [passEvent_listed hc, passEvent_listed hc, h.judgement hl hc]
        | none =>
            rw [passEvent_unlisted hc, passEvent_unlisted hc]
            rcases h.standing id with hsame | ⟨hclaimed, hnone⟩
            · rw [left_bind_congr hsame]
            · -- Only the supervisor that kept its memory records an end, after the claim.
              rw [hnone, ← h.recorded id, recorded_of_claimedLast hclaimed, afterEvent_unlisted]
              rfl
      · cases hc : candidates.get? id with
        | some c =>
            rw [standing_listed hc, standing_listed hc, passEvent_listed hc, passEvent_listed hc,
              h.judgement hl hc, h.listed hl hc]
        | none => rw [standing_unlisted hc, standing_unlisted hc]
  | claimed taskId runId =>
      refine ⟨h.unread, fun id => ?_, fun id => ?_⟩
      · rw [recorded_claimed, recorded_claimed, h.recorded id]
      · rw [claimedLast_claimed, Watch.standing, Watch.standing, inPlace_claimed, inPlace_claimed]
        by_cases ht : taskId = id
        · by_cases hr : r.deferrals = none
          · exact .inr ⟨by simp [ht], if_pos ⟨ht, hr⟩⟩
          · have hw : w.deferrals ≠ none := fun hw => hr (h.unread hw)
            rw [if_neg fun hb => hw hb.2, if_neg fun hb => hr hb.2]
            rcases h.standing id with hsame | ⟨_, hnone⟩
            · exact .inl hsame
            · exact .inr ⟨by simp [ht], hnone⟩
        · rw [if_neg fun hb => ht hb.1, if_neg fun hb => ht hb.1]
          simpa [ht, Watch.standing] using h.standing id
  | restart =>
      refine ⟨fun _ => rfl, h.recorded, fun id => .inl ?_⟩
      rw [standing_restart, standing_restart]
      exact h.recorded id

end Watch

/-! ## Runs -/

section Runs

variable {maxSecs : Seconds}

theorem kept_run {steps : List WatchStep} (hok : (watch maxSecs).Meets (fun w l => w.orderly l) {} steps) :
    ((watch maxSecs).run steps).Kept := by
  refine Machine.invariant_of_meets (I := Watch.Kept) (fun w l hl hw => hw.step hl) hok fun id => ?_
  rw [Watch.standing, Watch.recorded, Watch.inPlace_eq]
  exact .inl rfl

/-- Supervisors of which one follows the other decide the same from there on. -/
theorem Watch.Follows.decisionsFrom {w r : Watch} (h : w.Follows r) {steps : List WatchStep}
    (hok : (watch maxSecs).Meets (fun w l => w.orderly l) w steps) :
    decisionsFrom maxSecs w steps = decisionsFrom maxSecs r steps := by
  induction steps generalizing w r with
  | nil => rfl
  | cons l ls ih =>
      rw [Dagq.decisionsFrom, Dagq.decisionsFrom, h.decisions hok.1, ih (h.step hok.1) hok.2]

theorem sinceBy_run {now : Seconds} {steps : List WatchStep}
    (hsteps : ∀ at_ ∈ steps.filterMap WatchStep.now?, at_ ≤ now) :
    ((watch maxSecs).run steps).SinceBy now := by
  suffices h : ∀ w : Watch, w.SinceBy now → ((watch maxSecs).runFrom w steps).SinceBy now by
    refine h {} ⟨fun {id d} hd => ?_, nofun⟩
    rw [Watch.inPlace_eq] at hd
    cases hd
  induction steps with
  | nil => exact fun _ hw => hw
  | cons l ls ih =>
      intro w hw
      refine ih (fun at_ hat => hsteps at_ ?_) _ (hw.step fun at_ hat => hsteps at_ ?_)
      · rw [List.filterMap_cons]
        cases l.now? with
        | none => exact hat
        | some _ => exact List.mem_cons_of_mem _ hat
      · rw [List.filterMap_cons, hat]
        exact List.mem_cons_self

/-- Between two passes of an uninterrupted deferral lies less than the limit; and a supervisor replaced
by one that reads the log decides from there on what it would have decided itself.  Where supervisors
are replaced, the passes are orderly: none lists a task with a deferral in place that was claimed since,
and a task whose deferral expired is off the list of one only if it was claimed. -/
theorem claim_deferral_bounded_and_kept (maxSecs : Seconds) (steps : List WatchStep)
    (hclock : (steps.filterMap WatchStep.now?).Pairwise (· ≤ ·)) :
    (((∀ l ∈ steps, l ≠ .restart) ∨ (watch maxSecs).Meets (fun w l => w.orderly l) {} steps) →
      ∀ pre mid post id first last cs ds,
        steps = pre ++ .pass first cs :: (mid ++ .pass last ds :: post) →
        (watch maxSecs).Meets (fun w l => w.defers maxSecs id l) ((watch maxSecs).run pre)
          (.pass first cs :: (mid ++ [.pass last ds])) →
        last - first < maxSecs) ∧
    ((watch maxSecs).Meets (fun w l => w.orderly l) {} steps →
      ∀ pre post, steps = pre ++ post →
        decisionsFrom maxSecs ((watch maxSecs).run pre) post
          = decisionsFrom maxSecs ((watch maxSecs).run (pre ++ [.restart])) post) := by
  constructor
  · rintro hmode pre mid post id first last cs ds rfl hdefers
    obtain ⟨hfirst, hrest⟩ := hdefers
    obtain ⟨hmid, hlast, _⟩ := (watch maxSecs).meets_append.mp hrest
    have hbefore : ((watch maxSecs).run pre).SinceBy first := by
      apply sinceBy_run
      intro at_ hat
      rw [List.filterMap_append, List.pairwise_append] at hclock
      exact hclock.2.2 at_ hat first List.mem_cons_self
    -- With supervisors replaced on the way, the deferral has to be on record too.
    have hkept : .restart ∈ mid → ((watch maxSecs).run pre).Kept ∧
        ((watch maxSecs).run pre).orderly (.pass first cs) = true := by
      intro hrestart
      rcases hmode with hnone | horderly
      · refine absurd rfl (hnone .restart ?_)
        simp [hrestart]
      · obtain ⟨hpre, hnext⟩ := (watch maxSecs).meets_append.mp horderly
        exact ⟨kept_run hpre, hnext.1⟩
    obtain ⟨since, hsince, hheld⟩ := Watch.held_pass hbefore hfirst hkept
    have hend := Watch.Held.run hheld hmid fun l hl hrestart => hrestart ▸ hl
    obtain ⟨since', _, hlimit, ⟨hsame, _⟩ | ⟨hnone, _⟩⟩ := Watch.defers_pass hlast
    · have hstart : since' = since := by
        have heq := hsame.symm.trans hend.inPlace
        cases heq
        rfl
      rw [hstart] at hlimit
      exact Int.lt_of_le_of_lt (Int.sub_le_sub_left hsince last) hlimit
    · have heq := hnone.symm.trans hend.inPlace
      cases heq
  · rintro horderly pre post rfl
    obtain ⟨hpre, hpost⟩ := (watch maxSecs).meets_append.mp horderly
    rw [Machine.run_append]
    have hfollows : Watch.Follows ((watch maxSecs).run pre)
        (((watch maxSecs).run pre).step maxSecs .restart) := Watch.follows_restart (kept_run hpre)
    exact hfollows.decisionsFrom hpost

end Runs

/-- One candidate whose files meet a run in flight on a hotspot. -/
def hotCandidate (id : TaskId) : Table TaskId Candidate :=
  (∅ : Table TaskId Candidate).insert id
    { interrupt := false, overlap := some { files := ["x.md"], runs := [(1, 9)] } }

/-- Task 1 is deferred under one supervisor and claimed past the limit under the next. -/
def handedOver : List WatchStep :=
  [.pass 0 (hotCandidate 1), .restart, .pass 59 (hotCandidate 1), .pass 60 (hotCandidate 1),
    .claimed 1 2, .pass 61 ∅]

theorem claim_deferral_handed_over :
    (watch 60).Meets (fun w l => w.orderly l) {} handedOver ∧
      decisionsFrom 60 ((watch 60).run [.pass 0 (hotCandidate 1)]) (handedOver.drop 1)
        = decisionsFrom 60 ((watch 60).run [.pass 0 (hotCandidate 1), .restart]) (handedOver.drop 1) ∧
      59 - 0 < (60 : Seconds) := by
  have horderly : (watch 60).Meets (fun w l => w.orderly l) {} handedOver := by decide +kernel
  have hlaw := claim_deferral_bounded_and_kept 60 handedOver (by decide)
  refine ⟨horderly, hlaw.2 horderly [.pass 0 (hotCandidate 1)] _ rfl, ?_⟩
  exact hlaw.1 (.inr horderly) [] [.restart] _ 1 0 59 (hotCandidate 1) (hotCandidate 1) rfl
    (by decide +kernel)

/-- The deferral of task 1 expires, the task leaves the candidates unclaimed and comes back: the
supervisor that kept its memory defers it anew, one that starts from the log claims it. -/
theorem expired_deferral_forgotten :
    let before : List WatchStep :=
      [.pass 0 (hotCandidate 1), .pass 60 (hotCandidate 1), .pass 61 ∅]
    decisionsFrom 60 ((watch 60).run before) [.pass 62 (hotCandidate 1)] = [some ([], [1])] ∧
      decisionsFrom 60 ((watch 60).run (before ++ [.restart])) [.pass 62 (hotCandidate 1)]
        = [some ([1], [])] := by
  decide +kernel

end Dagq
