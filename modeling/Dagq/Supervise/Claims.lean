/-
# Dagq.Supervise.Claims -- the claims of supervisors whose passes defer tasks.

A supervisor lists the candidates, judges them, records the deferrals and then claims by the order of
what it may claim; every step commits on its own, and other supervisors, people and landings come in
between.  The claim looks at the queue anew: it takes the first task of the order that is still
claimable, and when none is it takes the first task in claim order, deferred or not.
-/
import Dagq.Queue.Op
import Dagq.Supervise.ClaimDefer

namespace Dagq

open Lib

/-! ## Supervisors -/

/-- Whether the task's effective priority is an interrupt. -/
def Store.interrupts (s : Store) (id : TaskId) : Bool :=
  s.graphTasks.any fun task => task.id = id &&
    (GraphTask.rank s.graphTasks task).priority = Priority.interrupt.asI64

/-- What a pass judged: no task is both to be claimed and passed over. -/
structure Judged extends Claimable where
  apart : ∀ id ∈ order, id ∉ deferred

/-- Where the claiming part of a pass stands: nothing read, the candidates read with whether each is an
interrupt, or the candidates judged with the deferral events still to be recorded at `now`. -/
inductive ClaimStage
  | idle
  | listed (graph : List (TaskId × Bool))
  | judged (pass : Judged) (now : Seconds) (pending : List (TaskId × DeferralEvent))

structure DeferWatch where
  deferrals : Option (Table TaskId Deferral) := none
  stage : ClaimStage := .idle

/-- The queue, and the supervisors over it under their tokens. -/
structure Claims where
  store : Store := .init
  supervisors : Table Token DeferWatch := ∅

/-- The steps of the supervisors' claims, between whatever else is done to the queue. -/
inductive ClaimsOp
  | queue (op : Op)
  /-- A new process under the token: it has read nothing. -/
  | start (token : Token)
  | list (token : Token)
  /-- `overlaps` says where the files of a candidate meet the runs in flight. -/
  | judge (token : Token) (now maxSecs : Seconds) (overlaps : TaskId → Option Overlap)
  | record (token : Token)
  | claim (token : Token) (runId : RunId) (baseCommit : CommitSha) (pid : Pid) (now : Seconds)

theorem claimable_apart {now maxSecs : Seconds} {candidates : Table TaskId Candidate}
    {deferrals : Table TaskId Deferral} :
    ∀ id ∈ (claimable now maxSecs candidates deferrals).order,
      id ∉ (claimable now maxSecs candidates deferrals).deferred := by
  intro id horder hdeferred
  obtain ⟨c, hc, hclaims⟩ := mem_order_iff.mp horder
  obtain ⟨c', hc', hdefers⟩ := mem_deferred_iff.mp hdeferred
  rw [hc] at hc'
  cases hc'
  rw [hclaims] at hdefers
  cases hdefers

/-- The candidates as they are judged: an interrupt meets nothing. -/
def candidatesOf (graph : List (TaskId × Bool)) (overlaps : TaskId → Option Overlap) :
    Table TaskId Candidate :=
  graph.foldl (fun candidates c => candidates.push c.1
    { interrupt := c.2, overlap := if c.2 = true then none else overlaps c.1 }) ∅

namespace Claims

variable (w : Claims)

def watchOf (token : Token) : DeferWatch := (w.supervisors.get? token).getD {}

def setWatch (token : Token) (watch : DeferWatch) : Claims :=
  { w with supervisors := w.supervisors.insert token watch }

def setStage (token : Token) (stage : ClaimStage) : Claims :=
  w.setWatch token { w.watchOf token with stage := stage }

/-- The claim a supervisor issues: only once it recorded its deferrals, and with something to claim. -/
def claimOf : ClaimsOp → Option (Judged × Op)
  | .claim token runId baseCommit pid now =>
      match (w.watchOf token).stage with
      | .judged pass _ [] =>
          if pass.order = [] then none
          else some (pass, .run (.claimForSupervisor runId baseCommit pass.order token pid now))
      | _ => none
  | _ => none

def step (op : ClaimsOp) : Claims :=
  match op with
  | .queue op => { w with store := op.exec.commit w.store }
  | .start token => w.setWatch token {}
  | .list token =>
      w.setStage token (.listed (w.store.claimOrder.map fun id => (id, w.store.interrupts id)))
  | .judge token now maxSecs overlaps =>
      match (w.watchOf token).stage with
      | .listed graph =>
          let place := (w.watchOf token).deferrals.getD
            (deferralsInPlace (latestTaskEvents EventBody.isDeferralKind w.store.events))
          let pass := claimable now maxSecs (candidatesOf graph overlaps) place
          w.setWatch token
            { deferrals := some pass.deferrals
              stage := .judged { pass with apart := claimable_apart } now pass.events }
      | _ => w
  | .record token =>
      match (w.watchOf token).stage with
      | .judged pass now (e :: pending) =>
          let noted := { w with store :=
            (taskNotice e.1 (.claimDeferral now e.2)).commit w.store }
          noted.setStage token (.judged pass now pending)
      | _ => w
  | .claim token .. =>
      match w.claimOf op with
      | some (_, claim) => ({ w with store := claim.exec.commit w.store }).setStage token .idle
      | none => w

/-- The task a supervisor's claim takes, with the pass it comes from. -/
def takes (op : ClaimsOp) : Option (Judged × TaskId) := do
  let (pass, claim) ← w.claimOf op
  let taskId ← claim.claims w.store
  return (pass, taskId)

/-- At a claim some task of the order is still claimable, or the first task in claim order is none that
the pass deferred. -/
def Preferred (op : ClaimsOp) : Prop :=
  ∀ pass claim, w.claimOf op = some (pass, claim) →
    (∃ id ∈ pass.order, id ∈ w.store.readyTasks) ∨
      ∀ id, w.store.nextClaim [] = some id → id ∉ pass.deferred

end Claims

/-- The claims of any number of supervisors over one queue. -/
def claims : Machine Claims ClaimsOp where
  init := {}
  next := Claims.step

/-! ## What a claim takes -/

/-- Without a claimable task in the order, a claim takes what it would take without an order. -/
theorem Store.nextClaim_cases {s : Store} {order : List TaskId} {id : TaskId}
    (h : s.nextClaim order = some id) : (id ∈ order ∧ id ∈ s.readyTasks) ∨
      (∀ id' ∈ order, id' ∉ s.readyTasks) ∧ s.nextClaim [] = some id := by
  cases hfirst : order.find? (· ∈ s.readyTasks) with
  | some first =>
      have hnext : s.nextClaim order = some first := by
        rw [nextClaim, hfirst]
        rfl
      obtain rfl : first = id := by simpa [hnext] using h
      exact .inl ⟨List.mem_of_find?_eq_some hfirst, by simpa using List.find?_some hfirst⟩
  | none =>
      have hnext : s.nextClaim order = s.nextClaim [] := by
        rw [nextClaim, hfirst]
        rfl
      refine .inr ⟨fun id' hid' => ?_, hnext ▸ h⟩
      simpa using List.find?_eq_none.mp hfirst id' hid'

namespace Claims

variable {w : Claims} {op : ClaimsOp} {pass : Judged} {id : TaskId}

theorem takes_nextClaim (h : w.takes op = some (pass, id)) :
    ∃ claim, w.claimOf op = some (pass, claim) ∧ w.store.nextClaim pass.order = some id := by
  simp only [takes, bind, Option.bind_eq_some_iff, Prod.exists] at h
  obtain ⟨pass', claim, hclaim, id', hid, heq⟩ := h
  cases heq
  refine ⟨claim, hclaim, ?_⟩
  unfold claimOf at hclaim
  split at hclaim
  · split at hclaim
    · split_ifs at hclaim
      cases hclaim
      unfold Op.claims at hid
      split_ifs at hid
      exact hid
    · cases hclaim
  · cases hclaim

/-- What a claim takes was not deferred by its pass exactly if the claim found something it preferred. -/
theorem takes_undeferred (ht : w.takes op = some (pass, id)) :
    id ∉ pass.deferred ↔ w.Preferred op := by
  obtain ⟨claim, hclaim, hnext⟩ := takes_nextClaim ht
  constructor
  · intro hid pass' claim' hclaim'
    rw [hclaim] at hclaim'
    cases hclaim'
    rcases Store.nextClaim_cases hnext with ⟨horder, hready⟩ | ⟨_, hfirst⟩
    · exact .inl ⟨id, horder, hready⟩
    · refine .inr fun id' hid' => ?_
      rw [hfirst] at hid'
      cases hid'
      exact hid
  · intro h
    rcases Store.nextClaim_cases hnext with ⟨horder, _⟩ | ⟨hnone, hfirst⟩
    · exact pass.apart id horder
    · rcases h pass claim hclaim with ⟨id', horder, hready⟩ | hpassed
      · exact absurd hready (hnone id' horder)
      · exact hpassed id hfirst

end Claims

/-- In a run of supervisors, people and whatever else is done to the queue, no claim takes a task its
pass deferred exactly if every claim that takes one finds a task of its order still claimable, or a first
task in claim order that its pass did not defer. -/
theorem deferred_tasks_left_alone_iff (ops : List ClaimsOp) :
    (∀ pre op post, ops = pre ++ op :: post → ∀ pass id,
      (claims.run pre).takes op = some (pass, id) → id ∉ pass.deferred) ↔
    (∀ pre op post, ops = pre ++ op :: post →
      ((claims.run pre).takes op).isSome = true → (claims.run pre).Preferred op) := by
  constructor
  · intro h pre op post hsplit htaken
    obtain ⟨⟨pass, id⟩, ht⟩ := Option.isSome_iff_exists.mp htaken
    exact (Claims.takes_undeferred ht).mp (h pre op post hsplit pass id ht)
  · intro h pre op post hsplit pass id ht
    have htaken : ((claims.run pre).takes op).isSome = true := by
      rw [ht]
      rfl
    exact (Claims.takes_undeferred ht).mpr (h pre op post hsplit htaken)

/-- Run 9 of the third task is in flight and two tasks are ready; supervisor 7 defers the second, whose
files meet the run's, and may claim the first. -/
def secondDeferred : List ClaimsOp :=
  [.queue (.task (.add { title := "index" })), .queue (.task (.transition 1 .bypassReview)),
    .queue (.task (.add { title := "search" })), .queue (.task (.transition 2 .bypassReview)),
    .queue (.task (.add { title := "rank" })), .queue (.task (.transition 3 .bypassReview)),
    .queue (.run (.claimNext 9 0 [3])), .list 7, .judge 7 0 60 fun id =>
      if id = 2 then some { files := ["x.md"], runs := [(9, 3)] } else none,
    .record 7]

def claimByOrder : ClaimsOp := .claim 7 5 0 100 1

/-- A person claims the first task in between, and the supervisor claims the one it deferred. -/
theorem deferred_task_claimed :
    ((claims.run (secondDeferred ++ [.queue (.run (.claimNext 4 0 []))])).takes claimByOrder).map
      (fun taken => (taken.1.order, taken.1.deferred, taken.2)) = some ([1], [2], 2) := by
  decide +kernel

end Dagq
