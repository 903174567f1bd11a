/-
# Dagq.Domain.Stats -- the runs that finished, a page at a time.

Everything is derived from the events of the log.  A run's place in the paging is the id of the first
event that finished it; what happened to it, its last status and its landing among it, is read off the
whole log each time.
-/
import Dagq.Domain.Values
import Mathlib.Data.List.Sort

namespace Dagq.Stats

abbrev EventId := Nat

/-- The kinds of event the runs are read from. -/
inductive EventKind
  | runClaimed | agentStarted | firstCommitObserved | receiptObserved | validationFinished
  | integrationStarted | integrationError | resumeStarted | resumeFinished | reviewFinished
  | runIntegrated
  | other (kind : String)
  deriving DecidableEq

/-- A row of `run_events`, with the keys of its payload that are read; `createdAt` is in unix
milliseconds. -/
structure RunEvent where
  id : EventId
  taskId : Option TaskId := none
  runId : Option RunId := none
  kind : EventKind
  status : Option String := none
  verdict : Option String := none
  createdAt : Int := 0

/-- An event id (a previous `next_cursor`) or a time, which stands for the latest event recorded at or
before it. -/
inductive Cursor
  | event (id : EventId)
  | time (millis : Int)
  deriving DecidableEq

/-- The greatest of some ids, 0 of none. -/
def lastId (events : List RunEvent) : EventId := (events.map (·.id)).max?.getD 0

/-- `Cursor::event_id`. -/
def Cursor.eventId (cursor : Cursor) (events : List RunEvent) : EventId :=
  match cursor with
  | .event id => id
  | .time millis => lastId (events.filter fun event => event.createdAt ≤ millis)

/-- One run's times in seconds, and counts. -/
structure RunStats where
  runId : RunId
  taskId : TaskId
  goalId : Option GoalId
  status : Option String := none
  finishedEventId : Option EventId := none
  work : Option Int := none
  validate : Option Int := none
  waitToLand : Option Int := none
  startup : Option Int := none
  resumes : Nat := 0
  reviewVerdict : Option String := none
  needsSession : Nat := 0
  failed : Nat := 0
  claimedAt : Option Int := none
  validatedAt : Option Int := none
  landedAt : Option Int := none
  deriving DecidableEq

/-- A run as its events are read. -/
structure Track where
  stats : RunStats
  claimed : Option Int := none
  receipt : Option Int := none
  validated : Option Int := none
  agentStarted : Option Int := none
  awaitingSince : Option Int := none

/-- `seconds_between`. -/
def secondsBetween (start stop : Option Int) : Option Int :=
  match start, stop with
  | some start, some stop => some ((stop - start).tdiv 1000)
  | _, _ => none

/-- What the kind of an event says of its run. -/
def Track.observeKind (track : Track) (event : RunEvent) : Track :=
  let run := track.stats
  let at' := some event.createdAt
  match event.kind with
  | .runClaimed =>
      { track with
        claimed := track.claimed.or at'
        stats := { run with claimedAt := run.claimedAt.or at' } }
  | .agentStarted => { track with agentStarted := track.agentStarted.or at' }
  | .firstCommitObserved =>
      -- The first commit alone ends the startup; a later one changes nothing.
      if run.startup.isNone then
        { track with stats := { run with startup := secondsBetween track.agentStarted at' } }
      else track
  | .receiptObserved =>
      if track.receipt.isNone then
        { track with
          receipt := at'
          stats := { run with work := secondsBetween track.claimed at' } }
      else track
  | .validationFinished =>
      if track.validated.isNone then
        { track with
          validated := at'
          stats := { run with validatedAt := at', validate := secondsBetween track.receipt at' } }
      else track
  | .integrationStarted => { track with stats := { run with status := some "integrating" } }
  | .resumeStarted => { track with stats := { run with resumes := run.resumes + 1 } }
  | .reviewFinished => { track with stats := { run with reviewVerdict := event.verdict } }
  | .runIntegrated =>
      { track with stats := { run with
        waitToLand := secondsBetween track.validated at'
        landedAt := at'
        status := some "integrated"
        finishedEventId := run.finishedEventId.or (some event.id) } }
  | _ => track

/-- What the `status` of an event's payload says of its run. -/
def Track.observeStatus (track : Track) (event : RunEvent) : Track :=
  match event.status with
  | none => track
  | some status =>
      let run := track.stats
      -- `integration_error` only puts back the status the run had before the attempt, and
      -- `resume_finished` reports the run still parked.
      let parked := status = "needs_session" ∧ event.kind ≠ .integrationError ∧
        event.kind ≠ .resumeFinished
      let finishes := status = "failed" ∨ status = "interrupted"
      { track with
        awaitingSince :=
          if status = "awaiting_integration" then track.awaitingSince.or (some event.createdAt)
          else track.awaitingSince
        stats := { run with
          status := some status
          needsSession := if parked then run.needsSession + 1 else run.needsSession
          failed := if status = "failed" then run.failed + 1 else run.failed
          finishedEventId :=
            if finishes then run.finishedEventId.or (some event.id) else run.finishedEventId } }

/-- What one event of a run says of it. -/
def Track.observe (track : Track) (event : RunEvent) : Track :=
  (track.observeKind event).observeStatus event

/-- The tracks with one more event; those without a run or a task are no run's. -/
def observe (goals : TaskId → Option GoalId) (tracks : List Track) (event : RunEvent) : List Track :=
  match event.runId, event.taskId with
  | some runId, some taskId =>
      if tracks.any (·.stats.runId = runId) then
        tracks.map fun track => if track.stats.runId = runId then track.observe event else track
      else
        tracks ++ [Track.observe { stats := { runId, taskId, goalId := goals taskId } } event]
  | _, _ => tracks

/-- `runs`: the run events by run, in order of each run's first event. -/
def runs (events : List RunEvent) (goals : TaskId → Option GoalId) : List Track :=
  events.foldl (observe goals) []

/-- What `stats` looks at. -/
structure StatsQuery where
  since : Option Cursor := none
  until' : Option Cursor := none
  goalId : Option GoalId := none
  full : Bool := false

/-- Runs returned without `full`. -/
def defaultRuns : Nat := 50

/-- The finished runs of an answer, and where the next one goes on. -/
structure Page where
  runs : List RunStats
  nextCursor : EventId

/-- In order of the event that finished the run. -/
def Track.finishedBefore (a b : Track) : Bool :=
  a.stats.finishedEventId.getD 0 ≤ b.stats.finishedEventId.getD 0

/-- The latest event an answer goes up to: a `since` past `until` leaves nothing, and the cursor does
not go back. -/
def upTo (latest : EventId) (since until' : Option EventId) : EventId :=
  match until' with
  | none => latest
  | some until' =>
      let capped := min until' latest
      match since with
      | none => capped
      | some since => max capped (min since latest)

/-- The finished runs of the query's goal between its cursors. -/
def finishedRuns (events : List RunEvent) (goals : TaskId → Option GoalId) (query : StatsQuery) :
    List Track :=
  let since := query.since.map (·.eventId events)
  let until' := query.until'.map (·.eventId events)
  let inGoal := fun taskId => query.goalId.all fun goal => goals taskId = some goal
  (runs events goals).filter fun track =>
    inGoal track.stats.taskId && track.stats.finishedEventId.any fun finished =>
      since.all (· < finished) && until'.all (finished ≤ ·)

/-- `stats`, as far as its runs and `next_cursor` go. -/
def stats (events : List RunEvent) (goals : TaskId → Option GoalId) (query : StatsQuery) : Page :=
  let since := query.since.map (·.eventId events)
  let latest := upTo (lastId events) since (query.until'.map (·.eventId events))
  let finished := (finishedRuns events goals query).mergeSort Track.finishedBefore
  let limit := if query.full then finished.length else defaultRuns
  if limit < finished.length then
    if since.isSome then
      -- Page forward: the oldest runs past the cursor, then the rest.
      let page := finished.take limit
      let last := page.getLast?.bind (·.stats.finishedEventId)
      { runs := page.map (·.stats), nextCursor := last.getD latest }
    else
      let page := finished.drop (finished.length - limit)
      { runs := page.map (·.stats), nextCursor := latest }
  else { runs := finished.map (·.stats), nextCursor := latest }

end Dagq.Stats
