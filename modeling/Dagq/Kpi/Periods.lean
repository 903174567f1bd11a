/-
# Dagq.Kpi.Periods -- the periods partition time, and the runs that finished in it.

A period starts on a local midnight, a week on a Monday, and its label is the calendar's own name for it.
Consecutive windows share their ends, which stand for the same event on both sides; so each run that
finished between the first and the last of them is counted in one.
-/
import Dagq.Domain.Kpi
import Dagq.Stats.Paging

namespace Dagq.Kpi

open Lib Stats

variable {ms ms' offset start n : Int} {period : Period}

/-! ## Where a period starts -/

/-- The local day of an instant. -/
def localDay (ms offset : Int) : Int := (ms + offset) / dayMs

/-- The local day a period starts on. -/
def Period.firstDay : Period → Int → Int
  | .day, n => n
  | .week, n => n - Calendar.weekday n

theorem start_eq (period : Period) (ms offset : Int) :
    period.start ms offset = period.firstDay (localDay ms offset) * dayMs - offset := by
  cases period <;> rfl

theorem localDay_start (period : Period) (ms offset : Int) :
    localDay (period.start ms offset) offset = period.firstDay (localDay ms offset) := by
  rw [start_eq]
  unfold localDay dayMs
  omega

theorem firstDay_firstDay (period : Period) (day : Int) :
    period.firstDay (period.firstDay day) = period.firstDay day := by
  cases period with
  | day => rfl
  | week =>
      show _ - Calendar.weekday _ - Calendar.weekday (_ - Calendar.weekday _) = _ - Calendar.weekday _
      unfold Calendar.weekday
      omega

theorem start_start (period : Period) (ms offset : Int) :
    period.start (period.start ms offset) offset = period.start ms offset := by
  rw [start_eq, localDay_start, firstDay_firstDay, ← start_eq]

/-- An instant is in the period that starts before it. -/
theorem start_le_lt (period : Period) (ms offset : Int) :
    period.start ms offset ≤ ms ∧ ms < period.start ms offset + period.length := by
  rw [start_eq]
  cases period with
  | day =>
      show localDay ms offset * dayMs - offset ≤ ms ∧
        ms < localDay ms offset * dayMs - offset + dayMs
      unfold localDay dayMs
      omega
  | week =>
      show (localDay ms offset - Calendar.weekday (localDay ms offset)) * dayMs - offset ≤ ms ∧
        ms < (localDay ms offset - Calendar.weekday (localDay ms offset)) * dayMs - offset + 7 * dayMs
      unfold localDay Calendar.weekday dayMs
      omega

theorem weekday_firstDay (day : Int) : Calendar.weekday (Period.week.firstDay day) = 0 := by
  show Calendar.weekday (_ - Calendar.weekday _) = 0
  unfold Calendar.weekday
  omega

/-! ## Labels -/

/-- `YYYY-MM-DD`. -/
def isoDate (d : Calendar.Date) : List Char :=
  Time.padded 4 d.year ++ '-' :: (Time.padded 2 d.month ++ '-' :: Time.padded 2 d.day)

/-- `YYYY-Www`. -/
def isoWeek (year week : Int) : List Char :=
  Time.padded 4 year ++ '-' :: 'W' :: Time.padded 2 week

/-- A year of four digits. -/
def FourDigits (year : Int) : Prop := 0 ≤ year ∧ year ≤ 9999

theorem length_year {year : Int} (h : FourDigits year) : (Time.padded 4 year).length = 4 :=
  Time.length_padded (Nat.succ_pos 3) h.1 (Int.lt_of_le_of_lt h.2 (by decide))

/-- A field of two digits. -/
theorem length_two {n k : Int} (h : 1 ≤ n ∧ n ≤ k) (hk : k < 10 ^ 2) : (Time.padded 2 n).length = 2 :=
  Time.length_padded (Nat.succ_pos 1) (Int.le_trans (by decide) h.1) (Int.lt_of_le_of_lt h.2 hk)

theorem date_eq {day : Int} (h : FourDigits (Calendar.civil day).year) :
    date day = isoDate (Calendar.civil day) := by
  have hvalid := Calendar.civil_valid day
  have hmonthLength := Calendar.monthLength_pos (Calendar.civil day).year (Calendar.civil day).month
  have hlength : (isoDate (Calendar.civil day)).length = 10 := by
    unfold isoDate
    rw [List.length_append, List.length_cons, List.length_append, List.length_cons, length_year h,
      length_two hvalid.month (by decide), length_two hvalid.day (by omega)]
  have hday : day * dayMs / 86400000 = day := by
    unfold dayMs
    omega
  obtain ⟨clock, htext⟩ : ∃ clock, (Time.utcText (day * dayMs)).toList =
      isoDate (Calendar.civil day) ++ clock := by
    rw [Time.utcText_eq, Time.millisText_toList]
    unfold Time.clockText Time.dateTime isoDate
    rw [hday]
    simp only [List.append_assoc, List.cons_append]
    exact ⟨_, rfl⟩
  unfold date
  rw [htext, ← hlength, List.take_left]

/-- The text of a new year without a fraction of a second is read too. -/
theorem timestampMillis_newYear {year : Int} (h : FourDigits year) :
    Time.timestampMillis (Time.padded 4 year ++ "-01-01T00:00:00Z".toList) =
      some (Calendar.dayNumber ⟨year, 1, 1⟩ * dayMs) := by
  -- The text is read back part by part: the zone, the date before the `T`, the clock.
  have hzulu : Time.padded 4 year ++ "-01-01T00:00:00Z".toList =
      (Time.padded 4 year ++ "-01-01T00:00:00".toList) ++ ['Z'] := by
    rw [List.append_assoc]
    rfl
  have hdate : Time.splitOnce (fun c => c = 'T' || c = ' ')
      (Time.padded 4 year ++ "-01-01T00:00:00".toList) =
        some (Time.padded 4 year ++ "-01-01".toList, "00:00:00".toList) := by
    have hsplit : Time.padded 4 year ++ "-01-01T00:00:00".toList =
        (Time.padded 4 year ++ "-01-01".toList) ++ 'T' :: "00:00:00".toList := by
      rw [List.append_assoc]
      rfl
    have hfixed : ("-01-01".toList.any fun x => x = 'T' || x = ' ') = false := by decide
    rw [hsplit]
    refine Time.splitOnce_append (fun x hx => ?_) rfl
    rcases List.mem_append.mp hx with hx | hx
    · have hdigit := Time.isDigit_padded h.1 hx
      rw [Time.ne_of_isDigit rfl hdigit, Time.ne_of_isDigit rfl hdigit]
      rfl
    · exact Bool.eq_false_iff.mpr (List.any_eq_false.mp hfixed x hx)
  have hread : Time.readDate (Time.padded 4 year ++ "-01-01".toList) = some (year, 1, 1) := by
    have hyear := Time.parseI64_padded (w := 4) h.1 (Int.le_trans h.2 (by decide))
    have hdash : "-01-01".toList = '-' :: "01-01".toList := rfl
    unfold Time.readDate
    rw [hdash, Time.splitOnce_padded '-' rfl h.1]
    dsimp only [Option.bind_eq_bind, Option.bind_some]
    rw [hyear]
    rfl
  have hclock : Time.readClock "00:00:00".toList = some (0, 0, 0, 0) := by decide
  unfold Time.timestampMillis
  rw [hzulu, Time.stripLast_append (decide_eq_true rfl), Option.getD_some]
  dsimp only
  rw [hdate]
  dsimp only [Option.bind_eq_bind, Option.bind_some]
  rw [hread, hclock]
  dsimp only [Option.bind_some]
  rw [if_neg (by omega)]
  -- Midnight of the first day: nothing is added to its days.
  have hdays : Time.civilDays year 1 1 = Calendar.dayNumber ⟨year, 1, 1⟩ := rfl
  rw [hdays, Option.some.injEq]
  unfold dayMs
  omega

theorem label_day (hday : localDay start offset = n) (h : FourDigits (Calendar.civil n).year) :
    Period.day.label start offset = isoDate (Calendar.civil n) := by
  subst hday
  exact date_eq h

/-- A week's label is the ISO week of its days. -/
theorem label_week (hday : localDay start offset = n) (hn : Calendar.weekday n = 0)
    (h : FourDigits (Calendar.civil (n + 3)).year) : ∃ week,
    Calendar.InWeek (Calendar.civil (n + 3)).year week n ∧
      Period.week.label start offset = isoWeek (Calendar.civil (n + 3)).year week := by
  have hin := Calendar.InWeek.of_thursday hn
  have hyear : (date (n + 3)).take 4 = Time.padded 4 (Calendar.civil (n + 3)).year := by
    rw [date_eq h, isoDate]
    exact List.take_left' (length_year h)
  have hnot : ¬n + 3 < Calendar.dayNumber ⟨(Calendar.civil (n + 3)).year, 1, 1⟩ := by
    rw [Calendar.lt_firstDay_iff]
    omega
  refine ⟨_, hin, ?_⟩
  unfold Period.label
  dsimp only
  have hlocal : (start + offset) / dayMs = n := hday
  rw [hlocal, hyear, timestampMillis_newYear h, Option.map_some, Option.getD_some]
  generalize Calendar.dayNumber ⟨(Calendar.civil (n + 3)).year, 1, 1⟩ = first at *
  have hfirst : first * dayMs / dayMs = first := by
    unfold dayMs
    omega
  rw [hfirst, Int.tdiv_eq_ediv_of_nonneg (by omega), List.append_assoc]
  rfl

/-- The local date is in the years 0001 to 9998. -/
def InYears (ms offset : Int) : Prop :=
  1 ≤ (Calendar.civil (localDay ms offset)).year ∧ (Calendar.civil (localDay ms offset)).year ≤ 9998

/-- A week reaches at most three days past the year its Thursday is in. -/
theorem fourDigits_near {n m : Int} (hyear : 1 ≤ (Calendar.civil n).year ∧ (Calendar.civil n).year ≤ 9998)
    (hm : n - 6 ≤ m ∧ m ≤ n + 6) : FourDigits (Calendar.civil m).year := by
  have hlow : ¬n < Calendar.dayNumber ⟨0 + 1, 1, 1⟩ := by
    rw [Calendar.lt_firstDay_iff]
    omega
  have hhigh : n < Calendar.dayNumber ⟨9998 + 1, 1, 1⟩ := by
    rw [Calendar.lt_firstDay_iff]
    omega
  have hzero := Calendar.firstDay_succ 0
  have hlast := Calendar.firstDay_succ (9998 + 1)
  have habove : ¬m < Calendar.dayNumber ⟨0, 1, 1⟩ := by
    split at hzero <;> omega
  have hbelow : m < Calendar.dayNumber ⟨9998 + 1 + 1, 1, 1⟩ := by
    split at hlast <;> omega
  rw [Calendar.lt_firstDay_iff] at habove hbelow
  exact ⟨by omega, by omega⟩

/-- The calendar's name for the period an instant is in. -/
def IsLabel : Period → Int → List Char → Prop
  | .day, n, text => text = isoDate (Calendar.civil n)
  | .week, n, text => ∃ year week, FourDigits year ∧ Calendar.InWeek year week n ∧ text = isoWeek year week

theorem label_start (period : Period) (h : InYears ms offset) :
    IsLabel period (localDay ms offset) (period.label (period.start ms offset) offset) := by
  cases period with
  | day => exact label_day (localDay_start .day ms offset) (fourDigits_near h (by omega))
  | week =>
      have hfirst : Period.week.firstDay (localDay ms offset) =
        localDay ms offset - Calendar.weekday (localDay ms offset) := rfl
      have hmonday := weekday_firstDay (localDay ms offset)
      have hnear : Period.week.firstDay (localDay ms offset) ≤ localDay ms offset ∧
          localDay ms offset < Period.week.firstDay (localDay ms offset) + 7 := by
        unfold Calendar.weekday at hfirst
        omega
      have hyear := fourDigits_near h
        (by omega : _ ≤ Period.week.firstDay (localDay ms offset) + 3 ∧ _)
      obtain ⟨week, hin, hlabel⟩ := label_week (localDay_start .week ms offset) hmonday hyear
      exact ⟨_, week, hyear, hin.of_monday hmonday hnear, hlabel⟩

example : Period.week.label (Period.week.start 1798761600000 0) 0 = "2026-W53".toList ∧
    Period.day.label (Period.day.start 1798761600000 (-3600000)) (-3600000) = "2026-12-31".toList := by
  decide +kernel

theorem isoDate_inj {a b : Calendar.Date} (ha : FourDigits a.year) (hb : FourDigits b.year)
    (hva : a.Valid) (hvb : b.Valid) (h : isoDate a = isoDate b) : a = b := by
  have htwo {d : Calendar.Date} (hv : d.Valid) :
      (Time.padded 2 d.month).length = 2 ∧ 0 ≤ d.month ∧ 0 ≤ d.day :=
    ⟨length_two hv.month (by decide), Int.le_trans (by decide) hv.month.1,
      Int.le_trans (by decide) hv.day.1⟩
  unfold isoDate at h
  obtain ⟨hyear, hrest⟩ := List.append_inj h ((length_year ha).trans (length_year hb).symm)
  obtain ⟨hmonth, hday⟩ := List.append_inj (List.cons.inj hrest).2
    ((htwo hva).1.trans (htwo hvb).1.symm)
  rw [Time.padded_inj ha.1 hb.1] at hyear
  rw [Time.padded_inj (htwo hva).2.1 (htwo hvb).2.1] at hmonth
  rw [List.cons_inj_right, Time.padded_inj (htwo hva).2.2 (htwo hvb).2.2] at hday
  obtain ⟨ay, am, ad⟩ := a
  obtain ⟨bY, bm, bd⟩ := b
  subst hyear hmonth hday
  rfl

/-- A label names one period. -/
theorem firstDay_of_label {n m : Int} {text : List Char}
    (hn : FourDigits (Calendar.civil n).year) (hm : FourDigits (Calendar.civil m).year)
    (hlabel : IsLabel period n text) (hlabel' : IsLabel period m text) :
    period.firstDay n = period.firstDay m := by
  cases period with
  | day =>
      have hdate := isoDate_inj hn hm (Calendar.civil_valid n) (Calendar.civil_valid m)
        (hlabel.symm.trans hlabel')
      have hday := congrArg Calendar.dayNumber hdate
      rwa [Calendar.dayNumber_civil, Calendar.dayNumber_civil] at hday
  | week =>
      obtain ⟨year, week, hyear, hin, rfl⟩ := hlabel
      obtain ⟨year', week', hyear', hin', heq⟩ := hlabel'
      obtain ⟨hsame, hrest⟩ := List.append_inj heq ((length_year hyear).trans (length_year hyear').symm)
      rw [Time.padded_inj hyear.1 hyear'.1] at hsame
      rw [List.cons_inj_right, List.cons_inj_right,
        Time.padded_inj (Int.le_trans (by decide) hin.bounds.1)
          (Int.le_trans (by decide) hin'.bounds.1)] at hrest
      subst hsame hrest
      exact hin.monday_unique hin'

/-! ## The spans of the periods -/

/-- The periods before one start whole lengths before it. -/
theorem start_sub (period : Period) (ms offset : Int) (k : Int) :
    period.start (ms - k * period.length) offset = period.start ms offset - k * period.length := by
  cases period with
  | day =>
      unfold Period.start Period.length dayMs
      dsimp only
      omega
  | week =>
      unfold Period.start Period.length dayMs
      dsimp only
      omega

/-- Each span starts where the one before it ends. -/
def Consecutive : List Span → Int → Int → Prop
  | [], first, last => first = last
  | span :: rest, first, last =>
      span.start = first ∧ span.start ≤ span.stop ∧ Consecutive rest span.stop last

theorem Consecutive.le {spans : List Span} {first last : Int} (h : Consecutive spans first last) :
    first ≤ last := by
  induction spans generalizing first with
  | nil => exact Int.le_of_eq h
  | cons span rest ih =>
      obtain ⟨rfl, hle, hrest⟩ := h
      exact Int.le_trans hle (ih hrest)

theorem spans_succ (period : Period) (count : Nat) (latest offset : Int) :
    spans period (count + 1) latest offset =
      (period.label (latest - count * period.length) offset,
        ⟨latest - count * period.length, latest - count * period.length + period.length⟩) ::
      spans period count latest offset := by
  unfold spans
  rw [List.range_succ, List.reverse_append]
  rfl

theorem length_nonneg (period : Period) : 0 ≤ period.length := by
  cases period <;> decide

theorem spans_consecutive (period : Period) (count : Nat) (latest offset : Int) :
    Consecutive ((spans period count latest offset).map (·.2))
      (latest + period.length - count * period.length) (latest + period.length) := by
  induction count with
  | zero =>
      show latest + period.length - (0 : Nat) * period.length = latest + period.length
      omega
  | succ count ih =>
      have hlength := length_nonneg period
      have hstart : latest + period.length - ((count + 1 : Nat) : Int) * period.length =
          latest - count * period.length := by
        rw [Int.natCast_succ, Int.add_mul]
        omega
      have hstop : latest + period.length - count * period.length =
          latest - count * period.length + period.length := by omega
      rw [spans_succ, List.map_cons, hstart]
      rw [hstop] at ih
      exact ⟨rfl, by dsimp only; omega, ih⟩

/-- What is listed are periods under their labels. -/
theorem mem_spans {count : Nat} {latest : Int} {entry : List Char × Span}
    (hlatest : period.start latest offset = latest)
    (h : entry ∈ spans period count latest offset) :
    entry.1 = period.label entry.2.start offset ∧
      period.start entry.2.start offset = entry.2.start ∧
      entry.2.stop = entry.2.start + period.length := by
  obtain ⟨back, _, rfl⟩ := List.mem_map.mp h
  refine ⟨rfl, ?_, rfl⟩
  show period.start (latest - back * period.length) offset = latest - back * period.length
  rw [start_sub, hlatest]

/-! ## The runs of the windows -/

section Windows

variable {V : Type} (context : Context V)

/-- The track is of a run of the goal, which finished between two events. -/
def finishedIn (after upto : EventId) (track : Track) : Bool :=
  (context.goalId.all fun goal => context.goals track.stats.taskId = some goal) &&
    track.stats.finishedEventId.any fun finished => after < finished && finished ≤ upto

theorem stats_runs_perm (after upto : EventId) : (context.stats after upto).runs.Perm
    (((Stats.runs context.events context.goals).filter (finishedIn context after upto)).map
      (·.stats)) := by
  have hall : (context.stats after upto).runs =
      ((finishedRuns context.events context.goals (context.query after upto)).mergeSort
        Track.finishedBefore).map (·.stats) := by
    unfold Context.stats Stats.stats
    dsimp only
    have hfull : (context.query after upto).full = true := rfl
    rw [if_pos hfull, if_neg (Nat.lt_irrefl _)]
  rw [hall]
  exact (List.mergeSort_perm _ _).map _

/-- The event of a later time is not an earlier one. -/
theorem eventId_mono (events : List RunEvent) {a b : Int} (h : a ≤ b) :
    (Cursor.time a).eventId events ≤ (Cursor.time b).eventId events := by
  show lastId (events.filter _) ≤ lastId (events.filter _)
  rcases Log.lastId_mem (events.filter fun event => event.createdAt ≤ a) with ⟨event, hmem, heq⟩ | hnone
  · rw [← heq]
    obtain ⟨hin, hat⟩ := List.mem_filter.mp hmem
    refine Log.le_lastId (List.mem_filter.mpr ⟨hin, ?_⟩)
    have hat := of_decide_eq_true hat
    exact decide_eq_true (Int.le_trans hat h)
  · rw [hnone]
    exact Nat.zero_le _

/-- Two windows that meet hold the runs of the one over both. -/
theorem windowRuns_append {start mid stop : Int} (h : start ≤ mid) (h' : mid ≤ stop) :
    (context.windowRuns start stop).Perm
      (context.windowRuns start mid ++ context.windowRuns mid stop) := by
  have hle := eventId_mono context.events h
  have hle' := eventId_mono context.events h'
  unfold Context.windowRuns
  generalize (Cursor.time start).eventId context.events = a at *
  generalize (Cursor.time mid).eventId context.events = b at *
  generalize (Cursor.time stop).eventId context.events = c at *
  refine (stats_runs_perm context a c).trans (.trans ?_
    ((stats_runs_perm context a b).symm.append (stats_runs_perm context b c).symm))
  rw [← List.map_append]
  refine List.Perm.map _ ?_
  -- A run is on one side of the event the windows meet at.
  have hsplit := List.filter_append_perm (fun track : Track =>
    track.stats.finishedEventId.any (· ≤ b))
      ((Stats.runs context.events context.goals).filter (finishedIn context a c))
  rw [List.filter_filter, List.filter_filter] at hsplit
  refine hsplit.symm.trans (.of_eq ?_)
  congr 1
  · refine List.filter_congr fun track _ => ?_
    unfold finishedIn
    cases track.stats.finishedEventId with
    | none => simp
    | some finished =>
        rw [Bool.eq_iff_iff]
        simp
        grind
  · refine List.filter_congr fun track _ => ?_
    unfold finishedIn
    cases track.stats.finishedEventId with
    | none => simp
    | some finished =>
        rw [Bool.eq_iff_iff]
        simp
        grind

/-- The windows of spans, summed. -/
def total (count : Span → Nat) : List Span → Nat
  | [] => 0
  | span :: rest => count span + total count rest

/-- What counts runs adds up over consecutive windows. -/
theorem total_windows {count : List RunStats → Nat}
    (happend : ∀ xs ys, count (xs ++ ys) = count xs + count ys)
    (hperm : ∀ {xs ys : List RunStats}, xs.Perm ys → count xs = count ys)
    {spans : List Span} {first last : Int} (h : Consecutive spans first last) :
    total (fun span => count (context.windowRuns span.start span.stop)) spans =
      count (context.windowRuns first last) := by
  induction spans generalizing first with
  | nil =>
      obtain rfl : first = last := h
      have hdouble := hperm (windowRuns_append context (Int.le_refl first) (Int.le_refl first))
      rw [happend] at hdouble
      show 0 = count (context.windowRuns first first)
      omega
  | cons span rest ih =>
      obtain ⟨rfl, hle, hrest⟩ := h
      rw [total, ih hrest, ← happend]
      exact (hperm (windowRuns_append context hle hrest.le)).symm

/-- Each run is in a window once. -/
theorem windowRuns_nodup (start stop : Int) : (context.windowRuns start stop).Nodup := by
  have hruns : ((Stats.runs context.events context.goals).map (·.stats)).Nodup := by
    refine List.Nodup.of_map (·.runId) ?_
    rw [List.map_map]
    exact (tracked_runs context.events context.goals).nodup
  refine (stats_runs_perm context _ _).nodup_iff.mpr (hruns.sublist ?_)
  exact List.filter_sublist.map _

theorem mem_windowRuns {start stop : Int} {track : Track} {finished : EventId}
    (hmem : track ∈ Stats.runs context.events context.goals)
    (hgoal : ∀ goal, context.goalId = some goal → context.goals track.stats.taskId = some goal)
    (hfinished : track.stats.finishedEventId = some finished)
    (hwithin : (Cursor.time start).eventId context.events < finished ∧
      finished ≤ (Cursor.time stop).eventId context.events) :
    track.stats ∈ context.windowRuns start stop := by
  refine (stats_runs_perm context _ _).mem_iff.mpr (List.mem_map_of_mem (List.mem_filter.mpr ⟨hmem, ?_⟩))
  unfold finishedIn
  rw [hfinished, Option.any_some, Bool.and_eq_true, Option.all_eq_true]
  refine ⟨fun goal hgoal' => decide_eq_true (hgoal goal hgoal'), ?_⟩
  rw [decide_eq_true hwithin.1, decide_eq_true hwithin.2]
  rfl

/-- Every run is in `all` once: the other strata name their axis. -/
theorem group_all (axes : List Axis) (runs : List RunStats) : context.group axes runs "all" = runs := by
  unfold Context.group
  have hone (run : RunStats) :
      ((context.strata axes run).filter (· = "all")).map (fun _ => run) = [run] := by
    have hnone : (axes.map fun axis => axis.asStr ++ "=" ++ context.axisValue run axis).filter
        (· = "all") = [] := by
      refine List.filter_eq_nil_iff.mpr fun stratum hstratum heq => ?_
      obtain ⟨axis, _, rfl⟩ := List.mem_map.mp hstratum
      have hsign : '=' ∈ "all".toList := by
        rw [← of_decide_eq_true heq, String.toList_append, String.toList_append]
        exact List.mem_append_left _ (List.mem_append_right _ List.mem_cons_self)
      exact absurd hsign (by decide)
    unfold Context.strata
    rw [List.filter_cons_of_pos (by simp), hnone]
    rfl
  rw [funext hone]
  exact List.flatMap_singleton' runs

variable [NatCast V]

theorem landings_window (start stop : Int) (axes : List Axis) (stratum : String) :
    (context.window start stop axes).landings stratum =
      (Context.landed (context.group axes (context.windowRuns start stop) stratum)).length := by
  unfold WindowKpis.landings Context.window
  dsimp only
  rw [if_pos rfl]
  split
  · rfl
  next hnone =>
    have hnil := not_not.mp (not_or.mp hnone).2
    rw [hnil]
    rfl

theorem landings_all (start stop : Int) (axes : List Axis) :
    (context.window start stop axes).landings "all" =
      (Context.landed (context.windowRuns start stop)).length := by
  rw [landings_window, group_all]

theorem total_landings (axes : List Axis) (stratum : String) {spans : List Span} {first last : Int}
    (h : Consecutive spans first last) :
    total (fun span => (context.window span.start span.stop axes).landings stratum) spans =
      (context.window first last axes).landings stratum := by
  let count (runs : List RunStats) : Nat := (Context.landed (context.group axes runs stratum)).length
  have happend (xs ys : List RunStats) : count (xs ++ ys) = count xs + count ys := by
    show (Context.landed (context.group axes (xs ++ ys) stratum)).length = _
    unfold Context.group Context.landed
    rw [List.flatMap_append, List.filter_append, List.length_append]
    rfl
  have hperm {xs ys : List RunStats} (h : xs.Perm ys) : count xs = count ys :=
    ((h.flatMap_right _).filter _).length_eq
  simp only [landings_window]
  exact total_windows context happend hperm h

end Windows

/-- Periods are the calendar's, and each finished run is in one of them, where it is a landing if it
landed. -/
theorem periods_partition (period : Period) (offset : Int) :
    (∀ ms, period.start (period.start ms offset) offset = period.start ms offset ∧
      period.start ms offset ≤ ms ∧ ms < period.start ms offset + period.length) ∧
    (∀ ms, Calendar.weekday (localDay (Period.week.start ms offset) offset) = 0) ∧
    (∀ ms, InYears ms offset →
      IsLabel period (localDay ms offset) (period.label (period.start ms offset) offset)) ∧
    (∀ ms ms', InYears ms offset → InYears ms' offset →
      period.label (period.start ms offset) offset = period.label (period.start ms' offset) offset →
      period.start ms offset = period.start ms' offset) ∧
    (∀ ms count, Consecutive ((spans period count (period.start ms offset) offset).map (·.2))
        (period.start ms offset + period.length - count * period.length)
        (period.start ms offset + period.length) ∧
      ∀ entry ∈ spans period count (period.start ms offset) offset,
        entry.1 = period.label entry.2.start offset ∧
        period.start entry.2.start offset = entry.2.start ∧
        entry.2.stop = entry.2.start + period.length) ∧
    (∀ (V : Type) [NatCast V] (context : Context V) (axes : List Axis) (spans : List Span)
      (first last : Int), Consecutive spans first last →
      (∀ track ∈ Stats.runs context.events context.goals, ∀ finished,
        (∀ goal, context.goalId = some goal → context.goals track.stats.taskId = some goal) →
        track.stats.finishedEventId = some finished →
        (Cursor.time first).eventId context.events < finished →
        finished ≤ (Cursor.time last).eventId context.events →
        total (fun span => (context.windowRuns span.start span.stop).count track.stats) spans = 1 ∧
        (track.stats.status = some "integrated" →
          total (fun span => (Context.landed (context.windowRuns span.start span.stop)).count
            track.stats) spans = 1)) ∧
      total (fun span => (context.window span.start span.stop axes).runs) spans =
        (context.window first last axes).runs ∧
      (∀ start stop, (context.window start stop axes).landings "all" =
        (Context.landed (context.windowRuns start stop)).length) ∧
      ∀ stratum, total (fun span => (context.window span.start span.stop axes).landings stratum) spans =
        (context.window first last axes).landings stratum) := by
  refine ⟨fun ms => ⟨start_start period ms offset, start_le_lt period ms offset⟩, fun ms => ?_,
    fun ms hms => label_start period hms, fun ms ms' hms hms' hlabel => ?_, fun ms count => ⟨?_, ?_⟩, ?_⟩
  · rw [localDay_start]
    exact weekday_firstDay _
  · -- Equal labels are of equal first days, and a start is its first day.
    have hlabels := label_start period hms'
    rw [← hlabel] at hlabels
    have hfirst := firstDay_of_label (fourDigits_near hms (by omega)) (fourDigits_near hms' (by omega))
      (label_start period hms) hlabels
    rw [start_eq, start_eq, hfirst]
  · exact spans_consecutive period count _ offset
  · intro entry hentry
    exact mem_spans (start_start period ms offset) hentry
  · intro V _ context axes spans first last h
    refine ⟨fun track hmem finished hgoal hfinished hafter hupto => ?_, ?_,
      fun start stop => landings_all context start stop axes, fun stratum => ?_⟩
    · have hone : total (fun span => (context.windowRuns span.start span.stop).count track.stats) spans
          = 1 := by
        rw [total_windows context (fun _ _ => List.count_append) (fun hperm => hperm.count_eq _) h]
        exact List.count_eq_one_of_mem (windowRuns_nodup context first last)
          (mem_windowRuns context hmem hgoal hfinished ⟨hafter, hupto⟩)
      refine ⟨hone, fun hstatus => ?_⟩
      have hlanded (span : Span) :
          (Context.landed (context.windowRuns span.start span.stop)).count track.stats =
            (context.windowRuns span.start span.stop).count track.stats :=
        List.count_filter (by simpa using hstatus)
      rw [funext hlanded]
      exact hone
    · exact total_windows context (fun _ _ => List.length_append) (fun hperm => hperm.length_eq) h
    · exact total_landings context axes stratum h

/-- A run that failed in one window and landed in the next. -/
def failedBeforeLanding : Context Nat where
  events := [
    { id := 1, taskId := some 1, runId := some 1, kind := .runClaimed, createdAt := 5 },
    { id := 2, taskId := some 1, runId := some 1, kind := .other "run_failed", status := some "failed",
      createdAt := 8 },
    { id := 3, taskId := some 1, runId := some 1, kind := .runIntegrated, createdAt := 15 }]
  goals _ := none
  axisValue _ _ := "unknown"
  others _ _ _ _ _ := none

theorem periods_partition_yearEnd :
    IsLabel .week (localDay 1798761600000 0) (Period.week.label (Period.week.start 1798761600000 0) 0) ∧
      total (fun span => (failedBeforeLanding.window span.start span.stop [.kind]).runs)
        [⟨0, 10⟩, ⟨10, 20⟩] = (failedBeforeLanding.window 0 20 [.kind]).runs ∧
      (failedBeforeLanding.window 0 20 [.kind]).runs = 1 ∧
      (failedBeforeLanding.window 0 10 [.kind]).landings "all" = 1 ∧
      (failedBeforeLanding.window 10 20 [.kind]).landings "all" = 0 :=
  have hyears : InYears 1798761600000 0 := by
    unfold InYears
    decide
  have hspans : Consecutive [⟨0, 10⟩, ⟨10, 20⟩] 0 20 := ⟨rfl, by decide, rfl, by decide, rfl⟩
  have hcounts := (periods_partition .week 0).2.2.2.2.2 Nat failedBeforeLanding [.kind] _ 0 20 hspans
  ⟨(periods_partition .week 0).2.2.1 1798761600000 hyears, hcounts.2.1, by decide +kernel,
    (hcounts.2.2.1 0 10).trans (by decide +kernel), (hcounts.2.2.1 10 20).trans (by decide +kernel)⟩

end Dagq.Kpi
