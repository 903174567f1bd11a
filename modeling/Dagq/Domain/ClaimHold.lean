/-
# Dagq.Domain.ClaimHold -- holding new claims, or the verification of landings.

A supervisor claims nothing while a reason holds, and starts no landing's verification.  It records the
start of a hold, or its next reason, and its end, as events of the queue; what it records is settled by
its judgement and the latest such event.  The statistics read the holds back from the log.  Numbers are
floating-point in the program; only what is done with them is kept here.
-/
import Dagq.Domain.Values
import Dagq.Domain.Time

namespace Dagq.Holds

abbrev EventId := Nat

/-- What a hold holds, by its two kinds of event. -/
structure HoldKinds where
  held : String
  resumed : String
  /-- The hold is of the supervisor that recorded it, not of the host: another live supervisor does not
  end it. -/
  own : Bool
  distinct : held ≠ resumed := by decide
  deriving DecidableEq

/-- Both kinds, for reading the latest of them. -/
def HoldKinds.kinds (k : HoldKinds) : List String := [k.held, k.resumed]

/-- The holds on new claims. -/
def claims : HoldKinds where
  held := "claim_held"
  resumed := "claim_resumed"
  own := false

/-- The holds on the landings' verification. -/
def landings : HoldKinds where
  held := "landing_held"
  resumed := "landing_resumed"
  own := true

inductive HoldReason
  | diskSpace | loadAverage
  deriving DecidableEq

def HoldReason.text : HoldReason → String
  | .diskSpace => "disk_space"
  | .loadAverage => "load_average"

/-- The floating-point numbers: how they are written, and what of them a JSON value keeps. -/
structure Numerals (Num : Type) where
  gib : Num → String
  twoPlaces : Num → String
  json : Num → Option Num

variable {Num : Type}

/-- A hold: its reason, and the value that crossed the threshold. -/
structure ClaimHold (Num : Type) where
  reason : HoldReason
  value : Num
  threshold : Num

namespace ClaimHold

/-- Why nothing is claimed. -/
def message (n : Numerals Num) (hold : ClaimHold Num) : String :=
  match hold.reason with
  | .diskSpace =>
      s!"the free disk space {n.gib hold.value} of the queue's directory is below the " ++
      s!"{n.gib hold.threshold} a new run needs: no new run is claimed until the ended runs' worktrees " ++
      "are cleaned or a person frees the disk; the runs in flight go on"
  | .loadAverage =>
      s!"the 1-minute load average {n.twoPlaces hold.value} is above --max-load " ++
      s!"{n.twoPlaces hold.threshold}: no new run is claimed until it falls back; the runs in flight go on"

/-- Why no landing starts its verification. -/
def landingMessage (n : Numerals Num) (hold : ClaimHold Num) : String :=
  s!"the free disk space {n.gib hold.value} of the queue's directory is below the " ++
  s!"{n.gib hold.threshold} a landing's verification needs: no run lands until the ended runs' " ++
  "worktrees are cleaned or a person frees the disk; the runs stay awaiting integration"

/-- The message of a hold of `kinds`. -/
def messageFor (n : Numerals Num) (hold : ClaimHold Num) (kinds : HoldKinds) : String :=
  if kinds = landings then hold.landingMessage n else hold.message n

end ClaimHold

/-- The keys of an event's payload that a hold writes or reads. -/
structure Payload (Num : Type) where
  reason : Option String := none
  value : Option Num := none
  threshold : Option Num := none
  message : Option String := none
  supervisor : Option String := none

structure RunEvent (Num : Type) where
  id : EventId
  taskId : Option TaskId := none
  goalId : Option GoalId := none
  runId : Option RunId := none
  kind : String
  payload : Payload Num := {}
  createdAt : String

/-- What the supervisor `token` records when its judgement differs from the latest event of `kinds`: a
hold that is not in place for the same reason, or the end of the one in place.  A hold is in place while
the supervisor that recorded it runs. -/
def transitionOf (n : Numerals Num) (kinds : HoldKinds) (hold : Option (ClaimHold Num))
    (last : Option (RunEvent Num)) (token : String) (live : String → Bool) :
    Option (String × Payload Num) :=
  let held := last.filter fun event => event.kind = kinds.held
  let heldReason := (held.filter fun event =>
    event.payload.supervisor.any fun holder => holder = token || live holder).bind (·.payload.reason)
  match hold with
  | some hold =>
      if heldReason ≠ some hold.reason.text then
        some (kinds.held, {
          reason := some hold.reason.text
          value := n.json hold.value
          threshold := n.json hold.threshold
          message := some (hold.messageFor n kinds)
          supervisor := some token })
      else none
  | none =>
      -- Another live supervisor's own hold is its to end.
      if kinds.own && (held.bind (·.payload.supervisor)).any fun holder => holder ≠ token && live holder then
        none
      else if held.isSome then
        some (kinds.resumed, { reason := held.bind (·.payload.reason), supervisor := some token })
      else none

/-! ## Reading the holds back -/

/-- One reason's holds in a window. -/
structure ReasonHolds where
  count : Nat := 0
  secs : Int := 0
  deriving DecidableEq

/-- The hold in progress. -/
structure OpenHold (Num : Type) where
  reason : String
  supervisor : Option String
  since : String
  value : Option Num
  threshold : Option Num

/-- The holds that started in a window, by reason, with the seconds each lasted. -/
structure ClaimHolds (Num : Type) where
  count : Nat := 0
  secs : Int := 0
  byReason : List (String × ReasonHolds) := []
  held : Option (OpenHold Num) := none

/-- The window of events a count is over, its end in milliseconds, and the tasks it counts. -/
structure Window where
  after : EventId
  upto : EventId
  endMs : Int
  counts : Option TaskId → Bool

/-- `entry(reason).or_default()`, counted up; the entries are in the order of their reasons. -/
def addHold (reason : String) (secs : Int) : List (String × ReasonHolds) → List (String × ReasonHolds)
  | [] => [(reason, { count := 1, secs })]
  | (name, holds) :: rest =>
      if reason = name then (name, { count := holds.count + 1, secs := holds.secs + secs }) :: rest
      else if reason < name then (reason, { count := 1, secs }) :: (name, holds) :: rest
      else (name, holds) :: addHold reason secs rest

/-- The reason a hold counts under. -/
def RunEvent.heldReason (event : RunEvent Num) : String := event.payload.reason.getD "unknown"

/-- When an event was recorded; one without a time counts as the window's end. -/
def RunEvent.at' (event : RunEvent Num) (endMs : Int) : Int :=
  (Time.timestampMillis event.createdAt.toList).getD endMs

/-- Whether an event is of the window. -/
def Window.has (w : Window) (event : RunEvent Num) : Bool :=
  w.after < event.id && event.id ≤ w.upto && w.counts event.taskId

/-- The end of a hold; one that ends after the window counts to the window's end. -/
def ClaimHolds.close (stats : ClaimHolds Num) (w : Window) (held : RunEvent Num × Int) (stop : Int) :
    ClaimHolds Num :=
  if !w.has held.1 then stats
  else
    let secs := max (min stop w.endMs - held.2) 0 / 1000
    { stats with
      byReason := addHold held.1.heldReason secs stats.byReason
      count := stats.count + 1
      secs := stats.secs + secs }

/-- The holds so far, and the one that has not ended. -/
structure Holding (Num : Type) where
  stats : ClaimHolds Num := {}
  current : Option (RunEvent Num × Int) := none

/-- The hold that has not ended, if any, ends. -/
def Holding.close (h : Holding Num) (w : Window) (stop : Int) : Holding Num :=
  match h.current with
  | some held => { stats := h.stats.close w held stop, current := none }
  | none => h

def Holding.observe (kinds : HoldKinds) (w : Window) (h : Holding Num) (event : RunEvent Num) : Holding Num :=
  let now := event.at' w.endMs
  if event.kind = kinds.held then { h.close w now with current := some (event, now) }
  else if event.kind = kinds.resumed then h.close w now
  else if event.kind = "supervisor_stopped" &&
      h.current.any fun held => held.1.payload.supervisor = event.payload.supervisor then h.close w now
  else h

/-- A hold in progress, as it is shown. -/
def RunEvent.openHold (event : RunEvent Num) : OpenHold Num where
  reason := event.heldReason
  supervisor := event.payload.supervisor
  since := event.createdAt
  value := event.payload.value
  threshold := event.payload.threshold

/-- The holds of `events` that started in the window; the window's end ends one still open. -/
def holdsOf (kinds : HoldKinds) (events : List (RunEvent Num)) (w : Window) : ClaimHolds Num :=
  let h := events.foldl (Holding.observe kinds w) {}
  match h.current with
  | some held => ({ h.stats with held := some held.1.openHold }).close w held w.endMs
  | none => h.stats

end Dagq.Holds
