/-
# Dagq.Kpi.Targets -- how far back the state of a target looks.

Judging goes from the oldest period to the latest, but only the judged periods since the latest on target
count.  Of a longer list the older periods are more, so the state stays unless they are needed: to judge
anything at all, or to complete a breach.
-/
import Dagq.Domain.KpiTargets
import Dagq.Kpi.Periods
import Dagq.Lib.Streaks
import Mathlib.Tactic.SplitIfs

namespace Dagq.Kpi

open Lib Stats

variable {V : Type} [LE V] [DecidableLE V]

/-! ## One target -/

section Judge

variable {target : Target V} {minSamples : Nat} {shape : Stat} {period : JudgedPeriod V}
  {periods : List (JudgedPeriod V)}

/-- The statistic of a target, when the KPI is named one by `shape`. -/
def Target.statOr (target : Target V) (shape : Stat) : Stat := target.stat.getD shape

/-- How a period stands against the target. -/
def Target.stands (target : Target V) (minSamples : Nat) (shape : Stat) (period : JudgedPeriod V) :
    Option Bool :=
  target.met minSamples period.notOver (target.measure period.kpis) (some (target.statOr shape))

/-- Every measure of the KPI is of the one shape. -/
def Shaped (target : Target V) (shape : Stat) (period : JudgedPeriod V) : Prop :=
  ∀ measure, target.measure period.kpis = some measure → measure.primaryStat = shape

/-- The statistic a judging has come to, or comes to. -/
def Judging.Heads (judging : Judging V) (target : Target V) (shape : Stat) : Prop :=
  judging.stat.getD shape = target.statOr shape

/-- One period: what counts of it is how it stands. -/
theorem Judging.Heads.observe {judging : Judging V} (minSamples : Nat)
    (h : judging.Heads target shape) (hshaped : Shaped target shape period) :
    (judging.observe target minSamples period).Heads target shape ∧
      (judging.observe target minSamples period).streak.length =
        streakStep judging.streak.length (target.stands minSamples shape period) ∧
      (judging.observe target minSamples period).anyJudged =
        (judging.anyJudged || (target.stands minSamples shape period).isSome) := by
  -- Without a measure there is no value; with one the statistic is known.
  have hmet : target.met minSamples period.notOver (target.measure period.kpis)
      (judging.stat.or ((target.measure period.kpis).map (·.primaryStat))) =
        target.stands minSamples shape period := by
    unfold Target.stands
    cases hmeasure : target.measure period.kpis with
    | none => rfl
    | some measure =>
        rw [← h, Option.map_some, hshaped measure hmeasure]
        cases judging.stat <;> rfl
  refine ⟨?_, ?_, ?_⟩
  · show (judging.stat.or ((target.measure period.kpis).map (·.primaryStat))).getD shape = _
    unfold Judging.Heads at h
    cases hnamed : judging.stat with
    | some stat =>
        rw [hnamed] at h
        exact h
    | none =>
        rw [hnamed] at h
        cases hmeasure : target.measure period.kpis with
        | none => exact h
        | some measure =>
            show measure.primaryStat = _
            rw [hshaped measure hmeasure]
            exact h
  · unfold Judging.observe
    dsimp only
    rw [hmet]
    cases target.stands minSamples shape period with
    | none => rfl
    | some hit =>
        cases hit with
        | true => rfl
        | false => exact List.length_append
  · unfold Judging.observe
    dsimp only
    rw [hmet]

/-- All periods, by induction over them. -/
theorem Judging.Heads.observeAll {judging : Judging V} (minSamples : Nat)
    (h : judging.Heads target shape) (hshaped : ∀ period ∈ periods, Shaped target shape period) :
    (periods.foldl (Judging.observe target minSamples) judging).streak.length =
        (periods.map (target.stands minSamples shape)).foldl streakStep judging.streak.length ∧
      (periods.foldl (Judging.observe target minSamples) judging).anyJudged =
        (judging.anyJudged || (periods.map (target.stands minSamples shape)).any (·.isSome)) := by
  induction periods generalizing judging with
  | nil => exact ⟨rfl, (Bool.or_false _).symm⟩
  | cons period rest ih =>
      obtain ⟨hheads, hstreak, hjudged⟩ :=
        h.observe minSamples (hshaped period List.mem_cons_self)
      obtain ⟨hstreaks, hany⟩ := ih hheads fun other hmem => hshaped other (List.mem_cons_of_mem _ hmem)
      rw [hstreak] at hstreaks
      rw [hjudged] at hany
      refine ⟨hstreaks, hany.trans ?_⟩
      rw [List.map_cons, List.any_cons, Bool.or_assoc]

/-- The state of a target, from how its periods stand, the latest first. -/
def stateOf (breachAfter : Nat) (record : List (Option Bool)) : TargetState :=
  if max breachAfter 1 ≤ streak record then .breach
  else if 0 < streak record then .missed
  else if record.any (·.isSome) then .ok
  else .notJudged

theorem judgeTarget_state {sourced : SourcedTarget V} (breachAfter : Nat)
    (hshaped : ∀ period ∈ periods, Shaped sourced.target shape period) :
    (judgeTarget minSamples periods breachAfter sourced).state =
      stateOf breachAfter (periods.map (sourced.target.stands minSamples shape)).reverse := by
  have hheads : ({ stat := sourced.target.stat } : Judging V).Heads sourced.target shape := rfl
  obtain ⟨hstreak, hany⟩ := hheads.observeAll minSamples hshaped
  rw [← List.reverse_reverse (periods.map _), List.length_nil, foldl_streakStep] at hstreak
  rw [Bool.false_or] at hany
  unfold judgeTarget stateOf
  dsimp only
  rw [hany, ← hstreak, List.any_reverse]
  generalize (periods.foldl (Judging.observe sourced.target minSamples)
    { stat := sourced.target.stat }).streak = missed
  cases missed with
  | nil => simp
  | cons label labels => simp

end Judge

/-! ## Two records of one target -/

section States

variable {entry : Nat → Option Bool} {breachAfter n more : Nat}

/-- The older entries are not needed: something newer says something, or nothing older does either; and
they complete no breach. -/
structure Settled (entry : Nat → Option Bool) (breachAfter n more : Nat) : Prop where
  judged : (∃ i < n, (entry i).isSome = true) ∨ ∀ i < n + more, entry i = none
  breached : InARow entry (max breachAfter 1) (n + more) → InARow entry (max breachAfter 1) n

theorem any_newest : (newest entry n).any (·.isSome) = true ↔ ∃ i < n, (entry i).isSome = true := by
  rw [List.any_eq_true]
  constructor
  · rintro ⟨hit, hmem, hsome⟩
    obtain ⟨i, hi, rfl⟩ := mem_newest.mp hmem
    exact ⟨i, hi, hsome⟩
  · rintro ⟨i, hi, hsome⟩
    exact ⟨entry i, mem_newest.mpr ⟨i, hi, rfl⟩, hsome⟩

theorem any_newest_eq_false : (newest entry n).any (·.isSome) = false ↔ ∀ i < n, entry i = none := by
  rw [Bool.eq_false_iff, ne_eq, any_newest]
  simp only [not_exists, not_and, Option.not_isSome_iff_eq_none]

/-- The states of a record and of a longer one are the same just when the older entries are not needed. -/
theorem stateOf_newest_iff : stateOf breachAfter (newest entry n) =
    stateOf breachAfter (newest entry (n + more)) ↔ Settled entry breachAfter n more := by
  have hmono := streak_newest_mono entry (Nat.le_add_right n more)
  have hshort : 0 < streak (newest entry n) → (newest entry n).any (·.isSome) = true := any_of_streak
  have hlong : 0 < streak (newest entry (n + more)) →
      (newest entry (n + more)).any (·.isSome) = true := any_of_streak
  have hgrows : (newest entry n).any (·.isSome) = true →
      (newest entry (n + more)).any (·.isSome) = true := by
    rw [newest_add, List.any_append]
    exact Bool.or_inl
  -- A latest judged period on target stays the latest.
  have hhit : (newest entry n).any (·.isSome) = true → streak (newest entry n) = 0 →
      streak (newest entry (n + more)) = 0 := by
    intro hany hzero
    rw [newest_add, streak_append, if_pos (hit_of_streak_zero hany hzero)]
    exact hzero
  have hsettled : Settled entry breachAfter n more ↔
      ((newest entry n).any (·.isSome) = true ∨ (newest entry (n + more)).any (·.isSome) = false) ∧
        (max breachAfter 1 ≤ streak (newest entry (n + more)) →
          max breachAfter 1 ≤ streak (newest entry n)) := by
    rw [any_newest, any_newest_eq_false, le_streak_iff, le_streak_iff]
    exact ⟨fun h => ⟨h.judged, h.breached⟩, fun h => ⟨h.1, h.2⟩⟩
  have hpos : 1 ≤ max breachAfter 1 := Nat.le_max_right _ _
  rw [hsettled]
  unfold stateOf
  generalize streak (newest entry n) = short at *
  generalize streak (newest entry (n + more)) = long at *
  generalize max breachAfter 1 = length at *
  cases hany : (newest entry n).any (·.isSome) with
  | false =>
      have hzero : short = 0 := by
        by_contra hne
        exact Bool.noConfusion (hany.symm.trans (hshort (Nat.pos_of_ne_zero hne)))
      subst hzero
      have hnone : ¬length ≤ 0 := by omega
      rw [if_neg hnone, if_neg (Nat.lt_irrefl 0)]
      cases hany' : (newest entry (n + more)).any (·.isSome) with
      | false =>
          have hzero' : long = 0 := by
            by_contra hne
            exact Bool.noConfusion (hany'.symm.trans (hlong (Nat.pos_of_ne_zero hne)))
          subst hzero'
          rw [if_neg hnone, if_neg (Nat.lt_irrefl 0)]
          exact ⟨fun _ => ⟨.inr rfl, fun h => h⟩, fun _ => rfl⟩
      | true =>
          -- Judged by the older periods alone.
          refine ⟨fun h => ?_, fun h => ?_⟩
          · split_ifs at h <;> simp at *
          · simp at h
  | true =>
      rw [hgrows hany]
      have hzero := hhit hany
      refine ⟨fun h => ⟨.inl rfl, fun hlength => ?_⟩, fun h => ?_⟩
      · by_contra hshorter
        rw [if_neg hshorter, if_pos hlength] at h
        split_ifs at h
      · by_cases hlength : length ≤ short
        · rw [if_pos hlength, if_pos (Nat.le_trans hlength hmono)]
        · rw [if_neg hlength, if_neg fun hlong => hlength (h.2 hlong)]
          by_cases hmissed : 0 < short
          · rw [if_pos hmissed, if_pos (Nat.lt_of_lt_of_le hmissed hmono)]
          · have hnot : ¬0 < long := by omega
            rw [if_neg hmissed, if_neg hnot]

end States

/-! ## A query for more periods -/

variable [NatCast V]

/-- What `kpi` derives from, where each KPI has a value in every window or in none. -/
structure ShapedInput (V : Type) [NatCast V] extends KpiInput V where
  hasValue : String → Bool
  shaped : ∀ {start stop axes name stratum measure},
    (context.window start stop axes).kpis name stratum = some measure → measure.hasValue = hasValue name

namespace ShapedInput

variable (input : ShapedInput V) (query : KpiQuery)

/-- The statistic of a KPI, when a target names none. -/
def shape (kpi : String) : Stat := if input.hasValue kpi then .value else .median

/-- How a period stands against the target. -/
def standsOn (target : Target V) (span : Span) : Option Bool :=
  target.met input.config.minSamples (input.notOver query span)
    (target.measure (input.context.window span.start span.stop query.axes).kpis)
    (some (target.statOr (input.shape target.kpi)))

/-- How the period so many before the latest does. -/
def standing (latest : Int) (target : Target V) (back : Nat) : Option Bool :=
  let start := latest - back * query.period.length
  input.standsOn query target ⟨start, start + query.period.length⟩

/-- The periods that are judged, the latest first, stand as they do on their own. -/
theorem judged_record (hperiods : query.window = false) (count : Nat) (latest offset : Int)
    (target : Target V) :
    ((input.judged query (spans query.period count latest offset)).map
      (target.stands input.config.minSamples (input.shape target.kpi))).reverse =
        newest (input.standing query latest target) count := by
  have hall (l : List (List Char × Span)) :
      (input.judged query l).map (target.stands input.config.minSamples (input.shape target.kpi)) =
        l.map fun entry => input.standsOn query target entry.2 := by
    have hfilter : (l.zipIdx.filter fun entry =>
        !query.window || (l.length - if query.window then 1 else query.last) ≤ entry.2) = l.zipIdx := by
      rw [hperiods]
      exact List.filter_eq_self.mpr fun _ _ => rfl
    unfold KpiInput.judged
    dsimp only
    rw [hfilter, List.map_map]
    show l.zipIdx.map (fun entry => input.standsOn query target (Prod.fst entry).2) = _
    conv_rhs => rw [← List.zipIdx_map_fst 0 l, List.map_map]
    rfl
  rw [hall]
  -- The periods before are older entries.
  induction count with
  | zero => rfl
  | succ count ih =>
      rw [spans_succ, List.map_cons, List.reverse_cons, ih, newest_add]
      rfl

omit [LE V] [DecidableLE V] in
theorem judged_shaped (query : KpiQuery) (spans : List (List Char × Span)) (target : Target V) :
    ∀ period ∈ input.judged query spans, Shaped target (input.shape target.kpi) period := by
  intro period hmem measure hmeasure
  obtain ⟨entry, _, rfl⟩ := List.mem_map.mp hmem
  unfold Measure.primaryStat shape
  rw [input.shaped hmeasure]

/-- The state a target is reported with. -/
theorem judge_state (hperiods : query.window = false) (count : Nat) (latest offset : Int)
    (breachAfter : Nat) (sourced : SourcedTarget V) :
    (judgeTarget input.config.minSamples
      (input.judged query (spans query.period count latest offset)) breachAfter sourced).state =
        stateOf breachAfter (newest (input.standing query latest sourced.target) count) := by
  rw [judgeTarget_state breachAfter (input.judged_shaped query _ sourced.target),
    judged_record input query hperiods]

end ShapedInput

/-- The states of the targets. -/
def KpiAnswer.states {V : Type} (answer : KpiAnswer V) : List TargetState :=
  answer.targets.map (·.state)

/-- The start of the latest period a query lists. -/
def KpiInput.latest {V : Type} (input : KpiInput V) (query : KpiQuery) : Except String Int :=
  (input.cursorOr query.at' (input.now * 1000) "--at names no event").map fun anchor =>
    query.period.start anchor (input.utcOffsetSecs * 1000)

section Query

variable (input : ShapedInput V) (query : KpiQuery)

/-- The states a query for periods reports. -/
theorem states_periods (hlast : query.last ≠ 0) (hperiods : query.window = false) :
    (kpi input.toKpiInput query).map KpiAnswer.states =
      (input.latest query).map fun latest => input.config.targets.map fun sourced =>
        stateOf (input.config.breachAfter query.period)
          (newest (input.standing query latest sourced.target) (input.periodCount query)) := by
  have hspans : input.spans query = input.periodSpans query := by
    unfold KpiInput.spans
    rw [hperiods]
    rfl
  unfold kpi
  rw [if_neg hlast, hspans]
  unfold KpiInput.periodSpans KpiInput.latest
  cases input.cursorOr query.at' (input.now * 1000) "--at names no event" with
  | error refusal => rfl
  | ok anchor =>
      show Except.ok ((input.config.targets.map _).map _) = Except.ok (input.config.targets.map _)
      rw [List.map_map]
      refine congrArg Except.ok (List.map_congr_left fun sourced _ => ?_)
      exact input.judge_state query hperiods _ _ _ _ sourced

/-- The same query for another number of periods. -/
def KpiQuery.withLast (query : KpiQuery) (last : Nat) : KpiQuery := { query with last }

/-- One window is judged alone, whatever is listed. -/
theorem states_window {last : Nat} (hlast : query.last ≠ 0) (hlast' : last ≠ 0)
    (hwindow : query.window = true) :
    (kpi input.toKpiInput (query.withLast last)).map KpiAnswer.states =
      (kpi input.toKpiInput query).map KpiAnswer.states := by
  have hwindow' : (query.withLast last).window = true := hwindow
  have hspans : input.spans (query.withLast last) = input.spans query := by
    unfold KpiInput.spans
    rw [hwindow', hwindow]
    rfl
  have hjudged (spans : List (List Char × Span)) :
      input.judged (query.withLast last) spans = input.judged query spans := by
    unfold KpiInput.judged
    rw [hwindow', hwindow]
    rfl
  unfold kpi
  rw [if_neg hlast, if_neg (show (query.withLast last).last ≠ 0 from hlast'), hspans]
  cases input.spans query with
  | error refusal => rfl
  | ok spans =>
      show Except.ok ((judge _ (input.judged (query.withLast last) spans) _).map _) = _
      rw [hjudged]
      rfl

end Query

/-- The targets are reported with the same states for more periods just when the older ones are not
needed for any of them; one window is judged alone. -/
theorem target_states_settled_iff (input : ShapedInput V) (query : KpiQuery) (more : Nat)
    (hlast : 1 ≤ query.last) :
    (kpi input.toKpiInput query).map KpiAnswer.states =
        (kpi input.toKpiInput (query.withLast (query.last + more))).map KpiAnswer.states ↔
      (query.window = false → ∀ latest, input.latest query = .ok latest →
        ∀ sourced ∈ input.config.targets,
          Settled (input.standing query latest sourced.target) (input.config.breachAfter query.period)
            (input.periodCount query) more) := by
  have hsome : query.last ≠ 0 := by omega
  have hmore : query.last + more ≠ 0 := by omega
  cases hwindow : query.window with
  | true =>
      rw [states_window input query hsome hmore hwindow]
      exact ⟨fun _ h => Bool.noConfusion h, fun _ => rfl⟩
  | false =>
      -- The longer query reads the same periods, and `more` older ones.
      have hcount : input.periodCount (query.withLast (query.last + more)) =
          input.periodCount query + more := by
        unfold KpiInput.periodCount KpiQuery.withLast
        dsimp only
        omega
      have hlatest : input.latest (query.withLast (query.last + more)) = input.latest query := rfl
      have hlong := states_periods input (query.withLast (query.last + more)) hmore hwindow
      rw [states_periods input query hsome hwindow, hlong, hcount, hlatest]
      cases input.latest query with
      | error refusal =>
          refine ⟨fun _ _ latest h => ?_, fun _ => rfl⟩
          cases h
      | ok latest =>
          -- Target by target, a state is that of the newest periods.
          have hall : (∀ sourced ∈ input.config.targets,
              stateOf (input.config.breachAfter query.period)
                  (newest (input.standing query latest sourced.target) (input.periodCount query)) =
                stateOf (input.config.breachAfter query.period)
                  (newest (input.standing query latest sourced.target) (input.periodCount query + more))) ↔
              ∀ sourced ∈ input.config.targets,
                Settled (input.standing query latest sourced.target)
                  (input.config.breachAfter query.period) (input.periodCount query) more := by
            simp only [stateOf_newest_iff]
          rw [← List.map_inj_left] at hall
          refine ⟨fun h _ latest' hlatest' => ?_, fun h => ?_⟩
          · cases hlatest'
            exact hall.mp (Except.ok.inj h)
          · exact congrArg Except.ok (hall.mpr (h rfl latest rfl))

/-- A feature landed on the first of ten days, and nothing since; one landing is on target. -/
def oneLanding : ShapedInput Nat where
  context := {
    events := [
      { id := 1, taskId := some 1, runId := some 1, kind := .runClaimed, createdAt := 1000 },
      { id := 2, taskId := some 1, runId := some 1, kind := .runIntegrated, createdAt := 2000 }]
    goals := fun _ => none
    axisValue := fun _ _ => "feature"
    others := fun _ _ _ _ _ => none }
  now := 9 * 86400 + 3600
  config := { targets := [{ target := { kpi := "landings", kind := some "feature", min := some 1 } }] }
  hasValue _ := true
  shaped {start stop axes name stratum measure} h := by
    unfold Context.window at h
    dsimp only at h
    split_ifs at h
    cases h
    rfl

/-- The last three days look back on it, the last does not. -/
theorem landing_out_of_sight :
    (kpi oneLanding.toKpiInput { last := 1 }).map KpiAnswer.states = .ok [.notJudged] ∧
      (kpi oneLanding.toKpiInput { last := 3 }).map KpiAnswer.states = .ok [.ok] := by
  decide +kernel

theorem target_states_settled_within : (kpi oneLanding.toKpiInput { last := 3 }).map KpiAnswer.states =
      (kpi oneLanding.toKpiInput { last := 3 + 4 }).map KpiAnswer.states := by
  refine (target_states_settled_iff oneLanding { last := 3 } 4 (by decide)).mpr ?_
  intro _ latest hlatest sourced hmem
  obtain rfl : 777600000 = latest := Except.ok.inj hlatest
  obtain rfl := List.mem_singleton.mp hmem
  exact ⟨.inl ⟨9, by decide, by decide +kernel⟩,
    fun h => absurd (le_streak_iff.mpr h) (by decide +kernel)⟩

end Dagq.Kpi
