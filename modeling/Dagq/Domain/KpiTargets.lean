/-
# Dagq.Domain.KpiTargets -- the targets of the KPIs, judged over the periods.

A target bounds one statistic of one KPI.  Every period that is listed, and some before them, stand
against it or cannot be judged; so many judged periods off target in a row are a breach.
-/
import Dagq.Domain.Kpi

namespace Dagq.Kpi

open Stats

/-! ## Settings -/

/-- One `[kpi.targets."<kpi>"]` table. -/
structure Target (V : Type) where
  kpi : String
  /-- The kind of task it bounds; every run without one. -/
  kind : Option String := none
  /-- The value, or a spread's median, without one. -/
  stat : Option Stat := none
  min : Option V := none
  max : Option V := none

/-- Where a target comes from. -/
inductive TargetSource
  | repository | host
  deriving DecidableEq

structure SourcedTarget (V : Type) where
  target : Target V
  source : TargetSource := .repository

structure KpiConfig (V : Type) where
  minSamples : Nat := 5
  breachPeriods : Nat := 3
  breachWeeks : Nat := 2
  targets : List (SourcedTarget V) := []

/-- How many judged periods off target in a row a breach takes. -/
def KpiConfig.breachAfter {V : Type} (config : KpiConfig V) : Period → Nat
  | .day => config.breachPeriods
  | .week => config.breachWeeks

/-! ## Judging -/

/-- Why a period is not judged. -/
inductive Reason
  | notOver | noValue | smallSample
  deriving DecidableEq

/-- How the periods stand against a target. -/
inductive TargetState
  | ok | missed | breach | notJudged
  deriving DecidableEq, Repr

/-- A period a target is judged on. -/
structure JudgedPeriod (V : Type) where
  label : List Char
  kpis : Kpis V
  /-- Not over yet. -/
  notOver : Bool
  /-- Listed in the output, not only looked back on. -/
  listed : Bool

/-- One target on one listed period. -/
structure TargetPeriod (V : Type) where
  period : List Char
  value : Option V
  n : Nat
  judged : Bool
  reason : Option Reason
  /-- On target. -/
  met : Option Bool

/-- A target and how the periods stand against it. -/
structure TargetReport (V : Type) where
  kpi : String
  stratum : String
  stat : Stat
  min : Option V
  max : Option V
  source : TargetSource
  state : TargetState
  /-- The judged periods off target in a row, up to the latest. -/
  streak : Nat
  /-- The first period of the breach. -/
  breachSince : Option (List Char)
  periods : List (TargetPeriod V)

section Judge

variable {V : Type} [LE V] [DecidableLE V]

namespace Target

variable (target : Target V)

/-- The stratum it bounds. -/
def stratum : String := target.kind.elim "all" fun kind => "kind=" ++ kind

/-- What the period measures of it. -/
def measure (kpis : Kpis V) : Option (Measure V) := kpis target.kpi target.stratum

/-- The value it bounds, once the statistic is known. -/
def valueOf (measure : Option (Measure V)) (stat : Option Stat) : Option V :=
  measure.bind fun measure => stat.bind measure.stat

/-- Why it is not judged on a period. -/
def reason (minSamples : Nat) (notOver : Bool) (measure : Option (Measure V)) (value : Option V) :
    Option Reason :=
  if notOver then some .notOver
  else if value.isNone then some .noValue
  else if !(measure.any (·.enough minSamples)) then some .smallSample
  else none

/-- Whether a value is within its bounds. -/
def within (value : V) : Bool :=
  target.min.all (fun min => decide (min ≤ value)) && target.max.all fun max => decide (value ≤ max)

/-- How the period stands against it; nothing when it is not judged. -/
def met (minSamples : Nat) (notOver : Bool) (measure : Option (Measure V)) (stat : Option Stat) :
    Option Bool :=
  let value := valueOf measure stat
  (value.filter fun _ => (reason minSamples notOver measure value).isNone).map target.within

end Target

/-- What is carried from period to period, the oldest first. -/
structure Judging (V : Type) where
  /-- The statistic, once it is named or a period has a measure. -/
  stat : Option Stat
  streak : List (List Char) := []
  anyJudged : Bool := false
  listed : List (TargetPeriod V) := []

/-- The target on one more period. -/
def Judging.observe (target : Target V) (minSamples : Nat) (judging : Judging V)
    (period : JudgedPeriod V) : Judging V :=
  let measure := target.measure period.kpis
  let stat := judging.stat.or (measure.map (·.primaryStat))
  let value := Target.valueOf measure stat
  let reason := Target.reason minSamples period.notOver measure value
  let met := target.met minSamples period.notOver measure stat
  { stat
    streak := match met with
      | some true => []
      | some false => judging.streak ++ [period.label]
      | none => judging.streak
    anyJudged := judging.anyJudged || met.isSome
    listed := if period.listed then
      judging.listed ++ [{
        period := period.label, value, n := measure.elim 0 (·.n), judged := met.isSome, reason, met }]
      else judging.listed }

/-- One target over the periods. -/
def judgeTarget (minSamples : Nat) (periods : List (JudgedPeriod V)) (breachAfter : Nat)
    (sourced : SourcedTarget V) : TargetReport V :=
  let target := sourced.target
  let judging := periods.foldl (Judging.observe target minSamples) { stat := target.stat }
  let breach := !judging.streak.isEmpty && max breachAfter 1 ≤ judging.streak.length
  { kpi := target.kpi
    stratum := target.stratum
    stat := judging.stat.getD .value
    min := target.min
    max := target.max
    source := sourced.source
    state :=
      if breach then .breach
      else if !judging.streak.isEmpty then .missed
      else if judging.anyJudged then .ok
      else .notJudged
    streak := judging.streak.length
    breachSince := if breach then judging.streak.head? else none
    periods := judging.listed }

/-- Judge every target over `periods` (oldest first), a breach after `breachAfter` judged periods off
target in a row. -/
def judge (config : KpiConfig V) (periods : List (JudgedPeriod V)) (breachAfter : Nat) :
    List (TargetReport V) :=
  config.targets.map (judgeTarget config.minSamples periods breachAfter)

end Judge

/-! ## The query -/

def Axis.rank : Axis → Nat
  | .kind => 0
  | .build => 1
  | .parallel => 2
  | .slot => 3
  | .load => 4
  | .toolchain => 5
  | .claude => 6

/-- What `kpi` looks at. -/
structure KpiQuery where
  period : Period := .day
  /-- How many periods to list, the latest last. -/
  last : Nat
  /-- The latest period listed is the one that holds this; now without. -/
  at' : Option Cursor := none
  /-- One window of any length instead of the periods. -/
  since : Option Cursor := none
  until' : Option Cursor := none
  /-- The axes the periods are split by besides the kind. -/
  by' : List Axis := []

/-- One window instead of the periods. -/
def KpiQuery.window (query : KpiQuery) : Bool := query.since.isSome || query.until'.isSome

def KpiQuery.axes (query : KpiQuery) : List Axis :=
  (dedup (.kind :: query.by')).insertionSort fun a b => a.rank ≤ b.rank

/-- The time a cursor stands for: its own, or the time of the latest event at or before its id. -/
def cursorMs (cursor : Cursor) (events : List RunEvent) : Option Int :=
  match cursor with
  | .time ms => some ms
  | .event id => ((events.filter (·.id ≤ id)).map (·.createdAt)).max?

/-- What `kpi` derives from. -/
structure KpiInput (V : Type) where
  context : Context V
  /-- Unix seconds. -/
  now : Int
  /-- The host's time zone, seconds east of UTC. -/
  utcOffsetSecs : Int := 0
  config : KpiConfig V

/-- What `kpi` says of the targets. -/
structure KpiAnswer (V : Type) where
  period : String
  targets : List (TargetReport V)

section Input

variable {V : Type} (input : KpiInput V)

/-- The time a cursor of the query stands for. -/
def KpiInput.cursorOr (cursor : Option Cursor) (none' : Int) (refusal : String) : Except String Int :=
  match cursor with
  | none => .ok none'
  | some cursor =>
      match cursorMs cursor input.context.events with
      | some ms => .ok ms
      | none => .error refusal

/-- The window of `--since` and `--until`, after one as long before it. -/
def KpiInput.windowSpans (query : KpiQuery) : Except String (List (List Char × Span)) := do
  let stop ← input.cursorOr query.until' (input.now * 1000) "--until names no event"
  let first := ((input.context.events.map (·.createdAt)).min?.getD stop) - 1
  let start ← input.cursorOr query.since first "--since names no event"
  if stop ≤ start then .error "--since must be before --until"
  else
    let length := stop - start
    return [("previous".toList, ⟨start - length, start⟩), ("window".toList, ⟨start, stop⟩)]

/-- How many periods are looked at: the ones listed, and enough before them for a target's streak. -/
def KpiInput.periodCount (query : KpiQuery) : Nat :=
  query.last + max query.period.lookback (2 * input.config.breachAfter query.period)

/-- The periods, oldest first: the lookback, then the ones listed. -/
def KpiInput.periodSpans (query : KpiQuery) : Except String (List (List Char × Span)) := do
  let anchor ← input.cursorOr query.at' (input.now * 1000) "--at names no event"
  let offset := input.utcOffsetSecs * 1000
  return spans query.period (input.periodCount query) (query.period.start anchor offset) offset

def KpiInput.spans (query : KpiQuery) : Except String (List (List Char × Span)) :=
  if query.window then input.windowSpans query else input.periodSpans query

/-- Whether a span is not over. -/
def KpiInput.notOver (query : KpiQuery) (span : Span) : Bool :=
  input.now * 1000 < span.stop && !(query.window && query.until'.isSome)

variable [NatCast V]

/-- What the targets are judged on: a window alone, the periods with their lookback. -/
def KpiInput.judged (query : KpiQuery) (spans : List (List Char × Span)) : List (JudgedPeriod V) :=
  let firstListed := spans.length - if query.window then 1 else query.last
  (spans.zipIdx.filter fun entry => !query.window || firstListed ≤ entry.2).map fun entry => {
    label := entry.1.1
    kpis := (input.context.window entry.1.2.start entry.1.2.stop query.axes).kpis
    notOver := input.notOver query entry.1.2
    listed := firstListed ≤ entry.2 }

variable [LE V] [DecidableLE V]

/-- The targets `query` asks for. -/
def kpi (query : KpiQuery) : Except String (KpiAnswer V) :=
  if query.last = 0 then .error "--last must be at least 1"
  else do
    let spans ← input.spans query
    return {
      period := if query.window then "window" else query.period.asStr
      targets := judge input.config (input.judged query spans) (input.config.breachAfter query.period) }

end Input

end Dagq.Kpi
