/-
# Dagq.Domain.Kpi -- the periods the KPIs are given for, and what a window of them counts.

A window of the KPIs goes from one time to another, and reads the runs that finished between the events
the two stand for.  The landings are counted here; what else a window measures is a parameter, and so is
the number type of the measures.
-/
import Dagq.Domain.Stats
import Dagq.Domain.Time

namespace Dagq.Kpi

open Dagq.Stats

def dayMs : Int := 86400000

/-! ## Periods -/

/-- The length of a period. -/
inductive Period
  /-- The host's local day, from midnight. -/
  | day
  /-- The ISO week, from Monday midnight. -/
  | week
  deriving DecidableEq

def Period.asStr : Period → String
  | .day => "day"
  | .week => "week"

/-- The start of the period that holds `ms`, `offset` milliseconds east of UTC. -/
def Period.start (period : Period) (ms offset : Int) : Int :=
  let localDays := (ms + offset) / dayMs
  let days := match period with
    | .day => localDays
    -- 1970-01-01 was a Thursday: Monday is day 0 of the week.
    | .week => localDays - (localDays + 3) % 7
  days * dayMs - offset

def Period.length : Period → Int
  | .day => dayMs
  | .week => 7 * dayMs

def date (days : Int) : List Char := (Time.utcText (days * dayMs)).toList.take 10

/-- `YYYY-MM-DD` for a day, `YYYY-Www` for an ISO week, of the period that starts at `start`. -/
def Period.label (period : Period) (start offset : Int) : List Char :=
  let localDays := (start + offset) / dayMs
  match period with
  | .day => date localDays
  | .week =>
      -- The ISO year is the year of the week's Thursday.
      let thursday := localDays + 3
      let year := (date thursday).take 4
      let januaryFirst := ((Time.timestampMillis (year ++ "-01-01T00:00:00Z".toList)).map
        (· / dayMs)).getD thursday
      year ++ "-W".toList ++ Time.padded 2 ((thursday - januaryFirst).tdiv 7 + 1)

/-- The periods kept before the ones listed. -/
def Period.lookback : Period → Nat
  | .day => 7
  | .week => 2

/-- A window of the KPIs, `start` exclusive and `stop` inclusive like the cursors of `stats`. -/
structure Span where
  start : Int
  stop : Int
  deriving DecidableEq

/-- The last `count` periods up to the one that starts at `latest`, oldest first. -/
def spans (period : Period) (count : Nat) (latest offset : Int) : List (List Char × Span) :=
  (List.range count).reverse.map fun back =>
    let start := latest - back * period.length
    -- The period ends where the next starts.
    (period.label start offset, ⟨start, start + period.length⟩)

/-! ## Windows -/

/-- What a run's KPIs can be split by besides `all`. -/
inductive Axis
  | kind | build | parallel | slot | load | toolchain | claude
  deriving DecidableEq

def Axis.asStr : Axis → String
  | .kind => "kind"
  | .build => "build"
  | .parallel => "parallel"
  | .slot => "slot"
  | .load => "load"
  | .toolchain => "toolchain"
  | .claude => "claude"

/-- The statistic of a KPI a target bounds. -/
inductive Stat
  | median | p90 | value
  deriving DecidableEq

/-- One KPI over one stratum of one window: how many samples, and the value or the spread of them. -/
structure Measure (V : Type) where
  n : Nat
  value : Option V := none
  median : Option V := none
  p90 : Option V := none
  /-- The KPI has a value. -/
  hasValue : Bool := false
  /-- A count of the period itself: judged whatever `n` is. -/
  counted : Bool := false

section Measures

variable {V : Type}

/-- A count of the period. -/
def Measure.count [NatCast V] (count : Nat) : Measure V :=
  { n := count, value := some count, hasValue := true, counted := true }

/-- The statistic a target judges. -/
def Measure.stat (measure : Measure V) : Stat → Option V
  | .median => measure.median
  | .p90 => measure.p90
  | .value => measure.value

/-- The statistic a target judges without naming one. -/
def Measure.primaryStat (measure : Measure V) : Stat := if measure.hasValue then .value else .median

/-- Enough samples to judge. -/
def Measure.enough (measure : Measure V) (minSamples : Nat) : Bool :=
  measure.counted || minSamples ≤ measure.n

/-- Per KPI, per stratum. -/
abbrev Kpis (V : Type) := String → String → Option (Measure V)

/-- What every window reads. -/
structure Context (V : Type) where
  events : List RunEvent
  goals : TaskId → Option GoalId
  goalId : Option GoalId := none
  /-- The value of an axis for a run. -/
  axisValue : RunStats → Axis → String
  /-- The KPIs of a window besides its landings. -/
  others : Int → Int → List Axis → Kpis V

/-- One window's KPIs. -/
structure WindowKpis (V : Type) where
  /-- The runs that finished in the window. -/
  runs : Nat
  kpis : Kpis V

namespace Context

variable (context : Context V)

/-- Every run of the goal that finished after `after` up to `upto`. -/
def query (after upto : EventId) : StatsQuery where
  since := some (.event after)
  until' := some (.event upto)
  goalId := context.goalId
  full := true

/-- What `stats` derives for them. -/
def stats (after upto : EventId) : Page :=
  Stats.stats context.events context.goals (context.query after upto)

/-- The strata a run is in. -/
def strata (axes : List Axis) (run : RunStats) : List String :=
  "all" :: axes.map fun axis => axis.asStr ++ "=" ++ context.axisValue run axis

/-- The runs of a stratum. -/
def group (axes : List Axis) (runs : List RunStats) (stratum : String) : List RunStats :=
  runs.flatMap fun run => ((context.strata axes run).filter (· = stratum)).map fun _ => run

def landed (runs : List RunStats) : List RunStats := runs.filter (·.status = some "integrated")

/-- The runs a window is about. -/
def windowRuns (start stop : Int) : List RunStats :=
  (context.stats ((Cursor.time start).eventId context.events)
    ((Cursor.time stop).eventId context.events)).runs

/-- The KPIs of the window after `start` up to `stop`, the runs split by `axes`. -/
def window [NatCast V] (start stop : Int) (axes : List Axis) : WindowKpis V where
  runs := (context.windowRuns start stop).length
  kpis name stratum :=
    let group := context.group axes (context.windowRuns start stop) stratum
    if name = "landings" then
      -- `all` is there in every window, the other strata with their runs.
      if stratum = "all" ∨ group ≠ [] then some (.count (landed group).length) else none
    else context.others start stop axes name stratum

end Context

/-- The landings of a stratum, 0 where it has none. -/
def WindowKpis.landings (window : WindowKpis V) (stratum : String) : Nat :=
  (window.kpis "landings" stratum).elim 0 (·.n)

end Measures

end Dagq.Kpi
