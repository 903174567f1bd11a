/-
# Dagq.Supervise.Holds -- several supervisors record the holds of one queue.

Each supervisor judges on its own and records what its judgement changes about the latest event.  As long
as none of them stops, their records alternate: no hold is recorded twice for one reason, and nothing
resumes that was not held.  What a judgement changes is changed once, except that a hold of the
supervisor's own is ended by that supervisor alone.
-/
import Dagq.Lib.Machine
import Dagq.Stats.Holds
import Mathlib.Data.List.Chain

namespace Dagq.Holds

open Lib

variable {Num : Type}

/-! ## The records of a queue -/

/-- The event is on the queue, not on a task, a goal or a run. -/
def RunEvent.onQueue (event : RunEvent Num) : Bool :=
  event.runId.isNone && event.taskId.isNone && event.goalId.isNone

/-- The events of the two kinds on the queue, oldest first. -/
def holdEvents (kinds : HoldKinds) (log : List (RunEvent Num)) : List (RunEvent Num) :=
  log.filter fun event => event.onQueue && (event.kind = kinds.held || event.kind = kinds.resumed)

/-- The newest of them. -/
def latestQueueEvent (kinds : HoldKinds) (log : List (RunEvent Num)) : Option (RunEvent Num) :=
  (holdEvents kinds log).getLast?

/-- One judgement: who judges, what it holds, who else runs then, and the time. -/
structure Judgement (Num : Type) where
  supervisor : String
  hold : Option (ClaimHold Num)
  live : String → Bool
  now : String

/-- The event a judgement records on a log. -/
def Judgement.event (n : Numerals Num) (kinds : HoldKinds) (j : Judgement Num)
    (log : List (RunEvent Num)) : Option (RunEvent Num) :=
  (transitionOf n kinds j.hold (latestQueueEvent kinds log) j.supervisor j.live).map fun (kind, payload) =>
    { id := log.length + 1, kind, payload, createdAt := j.now }

/-- A judgement with its record, or anything else that is recorded in between. -/
inductive HoldOp (Num : Type) (kinds : HoldKinds)
  | judge (j : Judgement Num)
  | elsewhere (event : RunEvent Num) (other : event.kind ∉ kinds.kinds)

/-- The log of the queue, under the judgements of one pair of kinds. -/
def holdLog (n : Numerals Num) (kinds : HoldKinds) : Machine (List (RunEvent Num)) (HoldOp Num kinds) where
  init := []
  next log op := match op with
    | .judge j => log ++ (j.event n kinds log).toList
    | .elsewhere event _ => log ++ [event]

/-- One of a team judges, and all of them run. -/
def Judgement.Staffed (team : String → Prop) (j : Judgement Num) : Prop :=
  team j.supervisor ∧ ∀ s, team s → j.live s = true

/-- Where an operation is a judgement, it is one of the team's. -/
def HoldOp.Staffed {kinds : HoldKinds} (team : String → Prop) : HoldOp Num kinds → Prop
  | .judge j => j.Staffed team
  | .elsewhere .. => True

variable {n : Numerals Num} {kinds : HoldKinds} {log : List (RunEvent Num)} {j : Judgement Num}
  {event last : RunEvent Num} {team : String → Prop}

theorem holdEvents_append (log more : List (RunEvent Num)) :
    holdEvents kinds (log ++ more) = holdEvents kinds log ++ holdEvents kinds more :=
  List.filter_append ..

/-! ## What a judgement records -/

/-- What a judgement makes of the latest event, while the holder of a hold in place runs. -/
inductive Judged (kinds : HoldKinds) (j : Judgement Num) (last : Option (RunEvent Num)) :
    Option (RunEvent Num) → Prop
  /-- A hold, or one for another reason. -/
  | held {event : RunEvent Num} {hold : ClaimHold Num} (judged : j.hold = some hold)
      (onQueue : event.onQueue = true) (kind : event.kind = kinds.held)
      (reason : event.payload.reason = some hold.reason.text)
      (supervisor : event.payload.supervisor = some j.supervisor)
      (news : ∀ e, last = some e → e.kind = kinds.held → e.payload.reason ≠ some hold.reason.text) :
      Judged kinds j last (some event)
  /-- The end of a hold. -/
  | resumed {e event : RunEvent Num} (judged : j.hold = none) (onQueue : event.onQueue = true)
      (kind : event.kind = kinds.resumed) (latest : last = some e) (held : e.kind = kinds.held)
      (mayEnd : kinds.own = true → e.payload.supervisor = some j.supervisor) :
      Judged kinds j last (some event)
  /-- A hold in place for the same reason. -/
  | still {e : RunEvent Num} {hold : ClaimHold Num} (judged : j.hold = some hold)
      (latest : last = some e) (held : e.kind = kinds.held)
      (reason : e.payload.reason = some hold.reason.text) : Judged kinds j last none
  /-- No hold, and none in place. -/
  | idle (judged : j.hold = none) (latest : ∀ e, last = some e → e.kind ≠ kinds.held) :
      Judged kinds j last none
  /-- No hold, and another supervisor's own in place. -/
  | others {e : RunEvent Num} (judged : j.hold = none) (own : kinds.own = true)
      (latest : last = some e) (held : e.kind = kinds.held)
      (holder : e.payload.supervisor ≠ some j.supervisor) : Judged kinds j last none

/-- The holder of the hold in place runs. -/
def HolderRuns (kinds : HoldKinds) (last : Option (RunEvent Num)) (j : Judgement Num) : Prop :=
  ∀ e, last = some e → e.kind = kinds.held → ∃ s, e.payload.supervisor = some s ∧ j.live s = true

/-- The payload of a hold. -/
def heldPayload (n : Numerals Num) (kinds : HoldKinds) (hold : ClaimHold Num) (token : String) :
    Payload Num where
  reason := some hold.reason.text
  value := n.json hold.value
  threshold := n.json hold.threshold
  message := some (hold.messageFor n kinds)
  supervisor := some token

section Transition

variable {e : RunEvent Num} {hold : ClaimHold Num} {s token : String} {live : String → Bool}
  {latest : Option (RunEvent Num)}

theorem filter_held (hkind : e.kind = kinds.held) :
    (some e).filter (fun event => event.kind = kinds.held) = some e :=
  Option.filter_some_pos (decide_eq_true hkind)

theorem filter_idle (h : ∀ e, latest = some e → e.kind ≠ kinds.held) :
    latest.filter (fun event => event.kind = kinds.held) = none := by
  rw [Option.filter_eq_none_iff]
  exact fun e he hkind => h e he (of_decide_eq_true hkind)

/-- A hold in place is repeated for another reason only. -/
theorem transitionOf_held (hkind : e.kind = kinds.held) (hholder : e.payload.supervisor = some s)
    (hlive : live s = true) :
    transitionOf n kinds (some hold) (some e) token live =
      if e.payload.reason = some hold.reason.text then none
      else some (kinds.held, heldPayload n kinds hold token) := by
  have hruns : (some e).filter (fun event =>
      event.payload.supervisor.any fun holder => holder = token || live holder) = some e := by
    refine Option.filter_some_pos ?_
    rw [hholder]
    show (decide (s = token) || live s) = true
    rw [hlive, Bool.or_true]
  unfold transitionOf
  simp only [filter_held hkind, hruns, Option.bind_some, ne_eq, ite_not]
  rfl

/-- A hold in place is ended, but by its own supervisor where it is that supervisor's. -/
theorem transitionOf_resumed (hkind : e.kind = kinds.held) (hholder : e.payload.supervisor = some s)
    (hlive : live s = true) :
    transitionOf n kinds none (some e) token live =
      if kinds.own = true ∧ s ≠ token then none
      else some (kinds.resumed, { reason := e.payload.reason, supervisor := some token }) := by
  have hother : ((kinds.own && (some s).any fun holder => holder ≠ token && live holder) = true) =
      (kinds.own = true ∧ s ≠ token) := by
    simp [hlive]
  unfold transitionOf
  simp only [filter_held hkind, Option.bind_some, hholder, hother, Option.isSome_some, if_true]

/-- With none in place a hold is recorded. -/
theorem transitionOf_starts (h : ∀ e, latest = some e → e.kind ≠ kinds.held) :
    transitionOf n kinds (some hold) latest token live =
      some (kinds.held, heldPayload n kinds hold token) := by
  unfold transitionOf
  simp only [filter_idle h]
  rfl

theorem transitionOf_idle (h : ∀ e, latest = some e → e.kind ≠ kinds.held) :
    transitionOf n kinds none latest token live = none := by
  unfold transitionOf
  simp only [filter_idle h]
  rw [Option.bind_none, Option.any_none, Bool.and_false, if_neg Bool.false_ne_true]
  rfl

end Transition

/-- Every judgement makes one of these of the latest event. -/
theorem event_judged (hruns : HolderRuns kinds (latestQueueEvent kinds log) j) :
    Judged kinds j (latestQueueEvent kinds log) (j.event n kinds log) := by
  unfold Judgement.event
  generalize latestQueueEvent kinds log = last at hruns ⊢
  -- By what the log says last, a hold or none, and by what is judged now.
  by_cases hplace : ∃ e, last = some e ∧ e.kind = kinds.held
  · obtain ⟨e, rfl, hkind⟩ := hplace
    obtain ⟨s, hholder, hlive⟩ := hruns e rfl hkind
    cases hhold : j.hold with
    | some hold =>
        rw [transitionOf_held hkind hholder hlive]
        split_ifs with hreason
        · exact .still hhold rfl hkind hreason
        · refine .held hhold rfl rfl rfl rfl fun e' he' _ => ?_
          rwa [← Option.some.inj he']
    | none =>
        rw [transitionOf_resumed hkind hholder hlive]
        split_ifs with hown
        · refine .others hhold hown.1 rfl hkind fun hmine => hown.2 ?_
          exact Option.some.inj (hholder.symm.trans hmine)
        · refine .resumed hhold rfl rfl rfl hkind fun howns => ?_
          rw [hholder]
          exact congrArg some (Decidable.of_not_not fun hne => hown ⟨howns, hne⟩)
  · have hidle : ∀ e, last = some e → e.kind ≠ kinds.held := fun e he hkind => hplace ⟨e, he, hkind⟩
    cases hhold : j.hold with
    | some hold =>
        rw [transitionOf_starts hidle]
        exact .held hhold rfl rfl rfl rfl fun e he hkind => absurd hkind (hidle e he)
    | none =>
        rw [transitionOf_idle hidle]
        exact .idle hhold hidle

/-! ## The records alternate -/

/-- One record after another: neither a hold for the same reason, nor a second resumption. -/
def Follows (kinds : HoldKinds) (e e' : RunEvent Num) : Prop :=
  ¬(e.kind = kinds.held ∧ e'.kind = kinds.held ∧ e.payload.reason = e'.payload.reason) ∧
    ¬(e.kind = kinds.resumed ∧ e'.kind = kinds.resumed)

/-- The records of a team that runs all along. -/
structure Tidy (kinds : HoldKinds) (team : String → Prop) (log : List (RunEvent Num)) : Prop where
  alternate : (holdEvents kinds log).IsChain (Follows kinds)
  first : ∀ e, (holdEvents kinds log).head? = some e → e.kind = kinds.held
  holders : ∀ e ∈ holdEvents kinds log, e.kind = kinds.held →
    ∃ s, team s ∧ e.payload.supervisor = some s

theorem Tidy.runs (h : Tidy kinds team log) (hj : j.Staffed team) :
    HolderRuns kinds (latestQueueEvent kinds log) j := by
  intro e hlatest hkind
  obtain ⟨s, hs, hholder⟩ := h.holders e (List.mem_of_getLast? hlatest) hkind
  exact ⟨s, hholder, hj.2 s hs⟩

/-- A record of the two kinds goes to the end of theirs. -/
theorem holdEvents_record (honQueue : event.onQueue = true)
    (hkind : event.kind = kinds.held ∨ event.kind = kinds.resumed) :
    holdEvents kinds (log ++ [event]) = holdEvents kinds log ++ [event] := by
  rw [holdEvents_append]
  congr 1
  refine List.filter_eq_self.mpr fun e he => ?_
  rw [List.mem_singleton.mp he, honQueue, Bool.true_and, Bool.or_eq_true]
  exact hkind.imp decide_eq_true decide_eq_true

theorem holdEvents_elsewhere (hkind : event.kind ∉ kinds.kinds) :
    holdEvents kinds (log ++ [event]) = holdEvents kinds log := by
  rw [holdEvents_append]
  refine (congrArg (holdEvents kinds log ++ ·) ?_).trans (List.append_nil _)
  refine List.filter_eq_nil_iff.mpr fun e he hof => hkind ?_
  rw [List.mem_singleton.mp he] at hof
  obtain ⟨_, hof⟩ := Bool.and_eq_true_iff.mp hof
  rcases Bool.or_eq_true_iff.mp hof with hheld | hresumed
  · exact of_decide_eq_true hheld ▸ List.mem_cons_self
  · exact of_decide_eq_true hresumed ▸ List.mem_cons_of_mem _ List.mem_cons_self

/-- What a record keeps, given what it follows. -/
theorem Tidy.append (h : Tidy kinds team log) (honQueue : event.onQueue = true)
    (hkind : event.kind = kinds.held ∨ event.kind = kinds.resumed)
    (hfollows : ∀ e, latestQueueEvent kinds log = some e → Follows kinds e event)
    (hfirst : latestQueueEvent kinds log = none → event.kind = kinds.held)
    (hholder : event.kind = kinds.held → ∃ s, team s ∧ event.payload.supervisor = some s) :
    Tidy kinds team (log ++ [event]) := by
  have hrecords : holdEvents kinds (log ++ [event]) = holdEvents kinds log ++ [event] :=
    holdEvents_record honQueue hkind
  constructor
  · rw [hrecords, List.isChain_append]
    refine ⟨h.alternate, .singleton _, fun e he e' he' => ?_⟩
    obtain rfl := Option.some.inj he'
    exact hfollows e he
  · rw [hrecords]
    intro e he
    -- The new event is the first only where there was none.
    cases hlog : holdEvents kinds log with
    | nil =>
        rw [hlog] at he
        obtain rfl := Option.some.inj he
        exact hfirst (congrArg List.getLast? hlog)
    | cons first rest =>
        rw [hlog] at he
        refine h.first e ?_
        rw [hlog]
        exact he
  · rw [hrecords]
    intro e he hheld
    rcases List.mem_append.mp he with hold | hnew
    · exact h.holders e hold hheld
    · obtain rfl := List.mem_singleton.mp hnew
      exact hholder hheld

/-- A judgement keeps the records so. -/
theorem Tidy.judge (h : Tidy kinds team log) (hj : j.Staffed team) :
    Tidy kinds team ((holdLog n kinds).next log (.judge j)) := by
  show Tidy kinds team (log ++ (j.event n kinds log).toList)
  have hjudged := event_judged (n := n) (h.runs hj)
  generalize hevent : j.event n kinds log = recorded at hjudged ⊢
  cases hjudged with
  | held judged onQueue kind reason supervisor news =>
      -- A hold behind a hold names another reason.
      refine h.append onQueue (.inl kind) (fun e hlatest => ⟨?_, ?_⟩) (fun _ => kind) fun _ => ?_
      · rintro ⟨hheld, -, hsame⟩
        exact news e hlatest hheld (hsame.trans reason)
      · rintro ⟨-, hresumed⟩
        exact kinds.distinct (kind.symm.trans hresumed)
      · exact ⟨j.supervisor, hj.1, supervisor⟩
  | resumed judged onQueue kind latest held mayEnd =>
      refine h.append onQueue (.inr kind) (fun e hlatest => ⟨?_, ?_⟩) (fun hnone => ?_) fun hheld => ?_
      · rintro ⟨-, hheld, -⟩
        exact kinds.distinct (hheld.symm.trans kind)
      · rintro ⟨hresumed, -⟩
        obtain rfl := Option.some.inj (hlatest.symm.trans latest)
        exact kinds.distinct (held.symm.trans hresumed)
      · rw [hnone] at latest
        cases latest
      · exact absurd (hheld.symm.trans kind) kinds.distinct
  | still judged latest held reason =>
      rw [Option.toList_none, List.append_nil]
      exact h
  | idle judged latest =>
      rw [Option.toList_none, List.append_nil]
      exact h
  | others judged own latest held holder =>
      rw [Option.toList_none, List.append_nil]
      exact h

theorem Tidy.elsewhere (h : Tidy kinds team log) (hkind : event.kind ∉ kinds.kinds) :
    Tidy kinds team (log ++ [event]) := by
  have hsame : holdEvents kinds (log ++ [event]) = holdEvents kinds log := holdEvents_elsewhere hkind
  refine ⟨?_, ?_, ?_⟩
  · rw [hsame]
    exact h.alternate
  · rw [hsame]
    exact h.first
  · rw [hsame]
    exact h.holders

theorem Tidy.init : Tidy kinds team ([] : List (RunEvent Num)) := by
  constructor
  · exact .nil
  · intro e he
    cases he
  · intro e he
    cases he

/-- Whatever the order of the team's judgements, its records alternate. -/
theorem tidy_run (n : Numerals Num) {ops : List (HoldOp Num kinds)}
    (hops : ∀ op ∈ ops, op.Staffed team) : Tidy kinds team ((holdLog n kinds).run ops) := by
  refine Machine.invariant_of_meets (fun log op hop htidy => ?_) (Machine.meets_of_forall _ hops []) .init
  cases op with
  | judge j => exact htidy.judge hop
  | elsewhere event hkind => exact htidy.elsewhere hkind

/-! ## Judging again -/

/-- Where nothing is recorded, the latest event stays. -/
theorem latest_none (h : j.event n kinds log = none) :
    (holdLog n kinds).next log (.judge j) = log := by
  show log ++ (j.event n kinds log).toList = log
  rw [h, Option.toList_none, List.append_nil]

theorem latest_some (h : j.event n kinds log = some event) (honQueue : event.onQueue = true)
    (hkind : event.kind = kinds.held ∨ event.kind = kinds.resumed) :
    latestQueueEvent kinds ((holdLog n kinds).next log (.judge j)) = some event := by
  show latestQueueEvent kinds (log ++ (j.event n kinds log).toList) = some event
  rw [h, Option.toList_some, latestQueueEvent, holdEvents_record honQueue hkind, List.getLast?_concat]

/-- A judgement that ends a hold another supervisor of the team left to its holder. -/
def OwnLeft (kinds : HoldKinds) (j k : Judgement Num) (last : Option (RunEvent Num)) : Prop :=
  kinds.own = true ∧ j.hold = none ∧ k.supervisor ≠ j.supervisor ∧
    ∃ e, last = some e ∧ e.kind = kinds.held ∧ e.payload.supervisor = some k.supervisor

/-- What a judgement leaves as the latest event: a hold for its reason, none in place, or another
supervisor's own. -/
inductive Settled (kinds : HoldKinds) (j : Judgement Num) (last : Option (RunEvent Num)) : Prop
  | held {e : RunEvent Num} {hold : ClaimHold Num} (judged : j.hold = some hold)
      (latest : last = some e) (kind : e.kind = kinds.held)
      (reason : e.payload.reason = some hold.reason.text)
  | idle (judged : j.hold = none) (latest : ∀ e, last = some e → e.kind ≠ kinds.held)
  | others {e : RunEvent Num} (judged : j.hold = none) (own : kinds.own = true) (latest : last = some e)
      (kind : e.kind = kinds.held) (holder : e.payload.supervisor ≠ some j.supervisor)

theorem Tidy.settled (h : Tidy kinds team log) (hj : j.Staffed team) :
    Settled kinds j (latestQueueEvent kinds ((holdLog n kinds).next log (.judge j))) := by
  have hjudged := event_judged (n := n) (h.runs hj)
  generalize hevent : j.event n kinds log = recorded at hjudged
  cases hjudged with
  | held judged onQueue kind reason supervisor news =>
      exact .held judged (latest_some hevent onQueue (.inl kind)) kind reason
  | resumed judged onQueue kind latest held mayEnd =>
      refine .idle judged fun e he hheld => ?_
      rw [latest_some hevent onQueue (.inr kind)] at he
      obtain rfl := Option.some.inj he
      exact kinds.distinct (hheld.symm.trans kind)
  | still judged latest held reason =>
      rw [latest_none hevent]
      exact .held judged latest held reason
  | idle judged latest =>
      rw [latest_none hevent]
      exact .idle judged latest
  | others judged own latest held holder =>
      rw [latest_none hevent]
      exact .others judged own latest held holder

/-- Judged again, what is settled stays so, but for a hold left to its holder. -/
theorem Settled.again {k : Judgement Num} (h : Settled kinds j (latestQueueEvent kinds log))
    (hruns : HolderRuns kinds (latestQueueEvent kinds log) k) (hsame : k.hold = j.hold) :
    (¬OwnLeft kinds j k (latestQueueEvent kinds log) ∧ k.event n kinds log = none) ∨
      (OwnLeft kinds j k (latestQueueEvent kinds log) ∧
        ∃ event, k.event n kinds log = some event ∧ event.kind = kinds.resumed) := by
  have hjudged := event_judged (n := n) hruns
  generalize k.event n kinds log = recorded at hjudged ⊢
  generalize latestQueueEvent kinds log = last at h hjudged ⊢
  -- What the first judge left, and what the second says of it, the same hold judged.
  cases h with
  | @held e hold judged latest kind reason =>
      have hleft : ¬OwnLeft kinds j k last := by
        rintro ⟨_, hnone, _⟩
        rw [judged] at hnone
        cases hnone
      rw [judged] at hsame
      cases hjudged with
      | held judged' _ _ _ _ news =>
          obtain rfl := Option.some.inj (hsame.symm.trans judged')
          exact absurd reason (news e latest kind)
      | still => exact .inl ⟨hleft, rfl⟩
      | resumed judged' => cases hsame.symm.trans judged'
      | idle judged' => cases hsame.symm.trans judged'
      | others judged' => cases hsame.symm.trans judged'
  | idle judged latest =>
      have hleft : ¬OwnLeft kinds j k last := by
        rintro ⟨_, _, _, e, he, hkind, _⟩
        exact latest e he hkind
      rw [judged] at hsame
      cases hjudged with
      | held judged' => cases hsame.symm.trans judged'
      | still judged' => cases hsame.symm.trans judged'
      | resumed _ _ _ latest' kind' => exact absurd kind' (latest _ latest')
      | idle => exact .inl ⟨hleft, rfl⟩
      | others _ _ latest' kind' => exact absurd kind' (latest _ latest')
  | @others e judged own latest kind holder =>
      rw [judged] at hsame
      cases hjudged with
      | held judged' => cases hsame.symm.trans judged'
      | still judged' => cases hsame.symm.trans judged'
      | resumed _ _ kind' latest' _ mayEnd =>
          obtain rfl := Option.some.inj (latest.symm.trans latest')
          -- The holder has left: this judge ends the hold in its own name.
          have hmine : e.payload.supervisor = some k.supervisor := mayEnd own
          refine .inr ⟨⟨own, judged, fun hself => holder ?_, e, latest, kind, hmine⟩, _, rfl, kind'⟩
          rw [hmine, hself]
      | idle _ latest' => exact absurd kind (latest' e latest)
      | others _ _ latest' _ holder' =>
          refine .inl ⟨?_, rfl⟩
          rintro ⟨_, _, _, e', he', _, hmine⟩
          obtain rfl := Option.some.inj (latest'.symm.trans he')
          exact holder' hmine

/-- A judgement of the team repeated by the team records nothing more, but for the end of a hold that
the first of them left to the second. -/
theorem Tidy.repeated {k : Judgement Num} (h : Tidy kinds team log) (hj : j.Staffed team)
    (hk : k.Staffed team) (hsame : k.hold = j.hold) :
    let judged := (holdLog n kinds).next log (.judge j)
    (¬OwnLeft kinds j k (latestQueueEvent kinds judged) →
      (holdLog n kinds).next judged (.judge k) = judged) ∧
    (OwnLeft kinds j k (latestQueueEvent kinds judged) → ∃ event, event.kind = kinds.resumed ∧
      (holdLog n kinds).next judged (.judge k) = judged ++ [event]) := by
  intro judged
  have hsettled : Settled kinds j (latestQueueEvent kinds judged) := h.settled hj
  have hruns : HolderRuns kinds (latestQueueEvent kinds judged) k := (h.judge hj).runs hk
  rcases hsettled.again (n := n) hruns hsame with ⟨hnot, hnone⟩ | ⟨hleft, event, hsome, hkind⟩
  · exact ⟨fun _ => latest_none hnone, fun hleft => absurd hleft hnot⟩
  · refine ⟨fun hnot => absurd hleft hnot, fun _ => ⟨event, hkind, ?_⟩⟩
    show judged ++ (k.event n kinds judged).toList = judged ++ [event]
    rw [hsome, Option.toList_some]

/-- A supervisor's own hold is left to it by another's judgement, and ended by its own: repeated, the
same judgement records something. -/
theorem left_hold_is_ended :
    let numerals : Numerals Nat :=
      { gib := fun bytes => s!"{bytes / 1073741824}.0 GiB", twoPlaces := fun x => s!"{x}.00", json := some }
    let gib : Nat := 1073741824
    let judgement (supervisor : String) (hold : Option (ClaimHold Nat)) : HoldOp Nat landings :=
      .judge { supervisor, hold, live := fun _ => true, now := "2026-09-26T01:00:00.000Z" }
    let ops := [judgement "t" (some { reason := .diskSpace, value := gib, threshold := 4 * gib }),
      judgement "s" none]
    (∀ op ∈ ops ++ [judgement "t" none], op.Staffed fun who => who = "s" ∨ who = "t") ∧
      (holdLog numerals landings).run (ops ++ [judgement "t" none]) ≠
        (holdLog numerals landings).run ops := by
  intro numerals gib judgement ops
  constructor
  · intro op hop
    have hcases : op = judgement "t" (some { reason := .diskSpace, value := gib, threshold := 4 * gib }) ∨
        op = judgement "s" none ∨ op = judgement "t" none := by
      simpa [ops] using hop
    rcases hcases with rfl | rfl | rfl
    · exact ⟨.inr rfl, fun _ _ => rfl⟩
    · exact ⟨.inl rfl, fun _ _ => rfl⟩
    · exact ⟨.inr rfl, fun _ _ => rfl⟩
  · intro hsame
    have hlength := congrArg List.length hsame
    revert hlength
    decide +kernel

/-- While all of a team run, in any order of their judgements: the records have no two holds for one
reason in a row, no two resumptions in a row and no resumption first, and a judgement repeated at once
records nothing, by whomever, except that a supervisor ends its own hold that the other left to it.  And
in a log whose times do not go back, each held event of the window is counted once, over intervals that
do not overlap, and the holds and the seconds under the reasons add up to the totals. -/
theorem holds_recorded_and_counted (n : Numerals Num) (kinds : HoldKinds) :
    (∀ (team : String → Prop) (ops : List (HoldOp Num kinds)), (∀ op ∈ ops, op.Staffed team) →
      let log := (holdLog n kinds).run ops
      (∀ e e' before after, holdEvents kinds log = before ++ e :: e' :: after → Follows kinds e e') ∧
      (∀ e after, holdEvents kinds log = e :: after → e.kind ≠ kinds.resumed) ∧
      ∀ j k : Judgement Num, j.Staffed team → k.Staffed team → k.hold = j.hold →
        let judged := (holdLog n kinds).next log (.judge j)
        (¬OwnLeft kinds j k (latestQueueEvent kinds judged) →
          (holdLog n kinds).next judged (.judge k) = judged) ∧
        (OwnLeft kinds j k (latestQueueEvent kinds judged) → ∃ event, event.kind = kinds.resumed ∧
          (holdLog n kinds).next judged (.judge k) = judged ++ [event])) ∧
    ∀ (events : List (RunEvent Num)) (w : Window),
      (events.Pairwise fun e e' => e.at' w.endMs ≤ e'.at' w.endMs) →
      let stats := holdsOf kinds events w
      let counted := windowIntervals kinds w events
      counted.map (·.held) = heldIn kinds w events ∧
        (counted.Pairwise fun i j => i.stop ≤ j.start) ∧
        stats.count = counted.length ∧ stats.secs = addUp HoldInterval.secs counted ∧
        reasonCount stats.byReason = stats.count ∧ reasonSecs stats.byReason = stats.secs := by
  constructor
  · intro team ops hops log
    have htidy : Tidy kinds team log := tidy_run n hops
    refine ⟨fun e e' before after hlog => ?_, fun e after hlog hresumed => ?_, fun j k hj hk hsame => ?_⟩
    · exact List.isChain_iff_forall_rel_of_append_cons_cons.mp htidy.alternate hlog
    · have hheld : e.kind = kinds.held := htidy.first e (by rw [hlog]; rfl)
      exact kinds.distinct (hheld.symm.trans hresumed)
    · exact htidy.repeated hj hk hsame
  · intro events w htimes stats counted
    exact ⟨windowIntervals_held events, windowIntervals_disjoint htimes, holdsOf_totals events⟩

/-- Numbers written in full. -/
def wholeNumerals : Numerals Nat where
  gib x := s!"{x} GiB"
  twoPlaces x := s!"{x}.00"
  json := some

/-- What a supervisor judges of the disk, while all run. -/
def judgedDisk (supervisor : String) (hold : Option (ClaimHold Nat)) (now : String) : Judgement Nat where
  supervisor
  hold
  live _ := true
  now

def lowDisk : Option (ClaimHold Nat) := some { reason := .diskSpace, value := 1, threshold := 4 }

/-- Two supervisors hold the claims for the disk, and one of them lets go. -/
def diskHeld : List (HoldOp Nat claims) :=
  [.judge (judgedDisk "s" lowDisk "2026-09-26T01:00:00.000Z"),
    .judge (judgedDisk "t" lowDisk "2026-09-26T01:01:00.000Z"),
    .judge (judgedDisk "t" none "2026-09-26T01:05:00.000Z")]

def stillFree : Judgement Nat := judgedDisk "t" none "2026-09-26T01:06:00.000Z"

def diskWindow : Window where
  after := 0
  upto := 9
  endMs := 1800000000000
  counts _ := true

theorem holds_recorded_and_counted_diskHeld :
    let log := (holdLog wholeNumerals claims).run diskHeld
    log.map (·.kind) = ["claim_held", "claim_resumed"] ∧
      (let judged := (holdLog wholeNumerals claims).next log (.judge stillFree)
      (holdLog wholeNumerals claims).next judged (.judge { stillFree with supervisor := "s" }) = judged) ∧
      (holdsOf claims log diskWindow).count = 1 ∧ (holdsOf claims log diskWindow).secs = 300 ∧
      reasonSecs (holdsOf claims log diskWindow).byReason = 300 := by
  intro log
  obtain ⟨hruns, hcounts⟩ := holds_recorded_and_counted wholeNumerals claims
  have hstaffed : ∀ op ∈ diskHeld, op.Staffed fun who => who = "s" ∨ who = "t" := by
    intro op hop
    simp only [diskHeld, List.mem_cons, List.not_mem_nil, or_false] at hop
    rcases hop with rfl | rfl | rfl
    · exact ⟨.inl rfl, fun _ _ => rfl⟩
    · exact ⟨.inr rfl, fun _ _ => rfl⟩
    · exact ⟨.inr rfl, fun _ _ => rfl⟩
  obtain ⟨_, _, hrepeated⟩ := hruns (fun who => who = "s" ∨ who = "t") diskHeld hstaffed
  obtain ⟨hagain, _⟩ := hrepeated stillFree { stillFree with supervisor := "s" } ⟨.inr rfl, fun _ _ => rfl⟩
    ⟨.inl rfl, fun _ _ => rfl⟩ rfl
  obtain ⟨hheld, _, hcount, hsecs, _, hreasons⟩ := hcounts log diskWindow (by decide +kernel)
  refine ⟨by decide +kernel, hagain fun hleft => ?_, ?_, ?_, ?_⟩
  · cases hleft.1
  · rw [hcount, ← List.length_map, hheld]
    decide +kernel
  · rw [hsecs]
    decide +kernel
  · rw [hreasons, hsecs]
    decide +kernel

end Dagq.Holds
