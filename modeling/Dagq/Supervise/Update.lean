/-
# Dagq.Supervise.Update -- a supervisor that updates its own binary, and the jobs it starts.

A look at main goes in steps: the answers of the `update_failed` asks are applied, the log is read, and a
job is started or one that was interrupted is reported.  A job builds, installs and watches in a process of
its own, which may die at any step, as a look may fail at any step and the supervisor be replaced by a new
process.  What a step reads of the repository and of other processes is an argument of the step.
-/
import Dagq.Domain.Update
import Dagq.Lib.Machine

namespace Dagq.Update

open Lib

/-- An ask of the automatic update. -/
structure UpdateAsk where
  id : AskId
  kind : AskKind
  answer : Option String := none
  closed : Bool := false
  deriving DecidableEq

/-- How far a job is: what it does next, or the ask it opened and has not recorded. -/
inductive Stage
  | building | built | installing | watching | failing | asked (ask : AskId)
  | approving | approved (ask : AskId)
  deriving DecidableEq

/-- A job's process. -/
structure Job where
  pid : Pid
  commit : String
  stage : Stage := .building
  deriving DecidableEq

/-- How what a job does next goes: well or not, with a breaking migration, with the old binary put back. -/
inductive Outcome
  | ok | fails | breaks | restores
  deriving DecidableEq

/-- Where a supervisor is in a look at main. -/
inductive Look
  | resting
  /-- The answered asks to apply. -/
  | applying (asks : List UpdateAsk)
  /-- An answer is recorded, and its ask is next to close. -/
  | closing (ask : AskId) (asks : List UpdateAsk)
  | applied
  | read (updates : List UpdateEvent)
  | interrupted (step : UpdateEvent)
  /-- The ask about an interrupted job is opened. -/
  | reported (step : UpdateEvent) (ask : AskId)
  | starting (head : String)
  /-- The job runs, and is next to record. -/
  | spawned (pid : Pid) (head : String)
  deriving DecidableEq

/-- The queue, main, the jobs that run, and the supervisor with what it remembers. -/
structure World where
  log : List UpdateEvent := []
  asks : List UpdateAsk := []
  nextAsk : AskId := 1
  main : String
  jobs : List Job := []
  version : String
  /-- The job this process started and has not seen exit. -/
  child : Option Pid := none
  /-- A head already found to change nothing of the runtime. -/
  seen : Option String := none
  /-- Main when this process first looked. -/
  firstHead : Option String := none
  look : Look := .resting

/-- What a look reads beside the queue: whether the automatic update is on, the other processes that are
alive, what changed since a commit (if Git knows it), and the pid of a new process. -/
structure Surroundings where
  enabled : Bool := true
  others : Pid → Bool := fun _ => false
  changedPaths : String → Option (List String) := fun _ => none
  newPid : Pid := 0

namespace World

/-! ## The queue -/

@[simp] def record (w : World) (event : UpdateEvent) : World := { w with log := w.log ++ [event] }

/-- One of the same kind still open is about an older build: it is answered `superseded` and closed. -/
def supersede (kind : AskKind) (ask : UpdateAsk) : UpdateAsk :=
  if ask.kind = kind && ask.answer.isNone && !ask.closed then
    { ask with answer := some "superseded", closed := true }
  else ask

@[simp] def openUpdateAsk (w : World) (kind : AskKind) : World :=
  { w with
    asks := w.asks.map (supersede kind) ++ [{ id := w.nextAsk, kind }]
    nextAsk := w.nextAsk + 1 }

/-- The answered asks nobody closed yet, oldest first. -/
def updateAnswers (w : World) (kind : AskKind) : List UpdateAsk :=
  w.asks.filter fun ask => ask.kind = kind && ask.answer.isSome && !ask.closed

/-- An answered ask is closed, once. -/
def closeAsk (w : World) (id : AskId) : Option World :=
  if w.asks.any fun ask => ask.id = id && ask.answer.isSome && !ask.closed then
    some { w with asks := w.asks.map fun ask => if ask.id = id then { ask with closed := true } else ask }
  else none

/-- A person answers an open ask. -/
def answerAsk (w : World) (id : AskId) (text : String) : World :=
  { w with
    asks := w.asks.map fun ask =>
      if ask.id = id && ask.answer.isNone && !ask.closed then { ask with answer := some text } else ask }

/-! ## A job -/

@[simp] def setStage (w : World) (job : Job) (stage : Stage) : World :=
  { w with jobs := w.jobs.map fun other => if other.pid = job.pid then { other with stage } else other }

@[simp] def exit (w : World) (pid : Pid) : World := { w with jobs := w.jobs.filter (·.pid ≠ pid) }

/-- A job's own step of a kind. -/
def Job.step (job : Job) (kind : Kind) (askId : Option AskId := none) : UpdateEvent :=
  { kind, commit := some job.commit, pid := some job.pid, askId }

/-- What a job does next. -/
def jobStep (w : World) (job : Job) (outcome : Outcome) : World :=
  match job.stage, outcome with
  | .building, .ok => (w.record (Job.step job .built)).setStage job .built
  | .building, _ => w.setStage job .failing
  | .built, .ok => w.setStage job .installing
  | .built, .breaks => w.setStage job .approving
  | .built, _ => w.setStage job .failing
  | .installing, .ok => w.setStage job .watching
  | .installing, _ => w.setStage job .failing
  | .watching, .ok => (w.record (Job.step job .installed)).exit job.pid
  | .watching, .restores => (w.record (Job.step job .restored)).setStage job .failing
  | .watching, _ => w.setStage job .failing
  | .failing, _ => (w.openUpdateAsk .updateFailed).setStage job (.asked w.nextAsk)
  | .asked ask, _ => (w.record (Job.step job .failed (some ask))).exit job.pid
  | .approving, _ => (w.openUpdateAsk .approveUpdate).setStage job (.approved w.nextAsk)
  | .approved ask, _ => (w.record (Job.step job .awaitingApproval (some ask))).exit job.pid

/-! ## A look at main -/

def alive (w : World) (near : Surroundings) (pid : Pid) : Bool :=
  w.jobs.any (·.pid = pid) || near.others pid

@[simp] def setLook (w : World) (look : Look) : World := { w with look }

/-- No job is at work: start one for main's head, if there is anything to build. -/
def decideBuild (w : World) (near : Surroundings) (updates : List UpdateEvent) : World :=
  let first := w.firstHead.getD w.main
  let w := { w with firstHead := some first }
  let base := baseCommit updates w.version (some first)
  if retryRequested updates then w.setLook (.starting w.main)
  else if base = some w.main || w.seen = some w.main then w.setLook .resting
  else if (base.bind near.changedPaths).all changesRuntime then w.setLook (.starting w.main)
  else { w with seen := some w.main, look := .resting }

/-- The next step of a look. -/
def lookStep (w : World) (near : Surroundings) : World :=
  match w.look with
  | .resting =>
      let w := if w.child.any fun pid => w.jobs.all (·.pid ≠ pid) then { w with child := none } else w
      if near.enabled then w.setLook (.applying (w.updateAnswers .updateFailed)) else w
  | .applying [] => w.setLook (if w.child.isSome then .resting else .applied)
  | .applying (ask :: asks) =>
      let answer := (ask.answer.map trimChars).getD []
      if answer = "retry".toList then
        (w.record { kind := .retry, askId := some ask.id }).setLook (.closing ask.id asks)
      else if answer = "skip".toList then
        (w.record { kind := .answered, askId := some ask.id }).setLook (.closing ask.id asks)
      else w.setLook (.applying asks)
  | .closing id asks =>
      match w.closeAsk id with
      | some w => w.setLook (.applying asks)
      | none => w.setLook .resting
  | .applied => w.setLook (.read (w.log.reverse.take 50))
  | .read updates =>
      match latestJobStep updates with
      | some step =>
          if inProgress (w.alive near) step then w.setLook .resting
          else if step.kind.isJobStep then w.setLook (.interrupted step)
          else w.decideBuild near updates
      | none => w.decideBuild near updates
  | .interrupted step => (w.openUpdateAsk .updateFailed).setLook (.reported step w.nextAsk)
  | .reported step ask =>
      (w.record { kind := .failed, commit := step.commit, askId := some ask }).setLook .resting
  | .starting head =>
      { w with
        jobs := w.jobs ++ [{ pid := near.newPid, commit := head }]
        look := .spawned near.newPid head }
  | .spawned pid head =>
      { w.record { kind := .started, commit := some head, pid := some pid } with
        child := some pid
        look := .resting }

end World

/-- What happens next. -/
inductive Op
  | look (near : Surroundings)
  /-- A look ends with an error. -/
  | abort
  /-- A new process takes over from the supervisor. -/
  | restart (version : String)
  | job (pid : Pid) (outcome : Outcome)
  /-- A process is killed. -/
  | kill (pid : Pid)
  | land (commit : String)
  | answer (ask : AskId) (text : String)
  /-- A person closes an answered ask. -/
  | close (ask : AskId)
  /-- An ask about something else takes the next id. -/
  | otherAsk

namespace World

def next (w : World) : Op → World
  | .look near => w.lookStep near
  | .abort => w.setLook .resting
  | .restart version =>
      { w with version, child := none, seen := none, firstHead := none, look := .resting }
  | .job pid outcome =>
      match w.jobs.find? (·.pid = pid) with
      | some job => w.jobStep job outcome
      | none => w
  | .kill pid => w.exit pid
  | .land commit => { w with main := commit }
  | .answer id text => w.answerAsk id text
  | .close id => (w.closeAsk id).getD w
  | .otherAsk => { w with nextAsk := w.nextAsk + 1 }

end World

/-- The automatic update of a queue whose main is at `main`, from an empty log on. -/
def machine (main version : String) : Machine World Op where
  init := { main, version }
  next := World.next

end Dagq.Update
