/-
# Dagq.Stats.Reader -- a reader that goes on with the cursor it was given.

Between two of its questions the log may grow by anything.  What the reader has been told is accounted
for from one question to the next: the runs whose first finishing event lies between the two cursors,
each once.  This adds up along a run.
-/
import Dagq.Lib.Machine
import Dagq.Stats.Paging
import Mathlib.Tactic.SplitIfs

namespace Dagq.Stats

open Lib

/-! ## The reader -/

/-- The log with one more event, whose id is past the last one. -/
def Log.append (log : Log) (gap : Nat) (event : RunEvent) : Log where
  events := log.events ++ [{ event with id := lastId log.events + 1 + gap }]
  increasing := by
    rw [List.pairwise_append]
    refine ⟨log.increasing, List.pairwise_singleton _ _, fun old hold new hnew => ?_⟩
    rw [List.mem_singleton] at hnew
    subst hnew
    have hlast : lastId log.events < lastId log.events + 1 + gap :=
      Nat.lt_of_lt_of_le (Nat.lt_succ_self _) (Nat.le_add_right _ gap)
    exact Nat.lt_of_le_of_lt (Log.le_lastId hold) hlast
  positive event hevent := by
    rcases List.mem_append.mp hevent with hevent | hevent
    · exact log.positive event hevent
    · rw [List.mem_singleton.mp hevent]
      exact Nat.lt_of_lt_of_le (Nat.succ_pos _) (Nat.le_add_right _ gap)

/-- The log, the cursor of the next question, and the answers so far. -/
structure State where
  log : Log
  cursor : Cursor
  pages : List Page := []

inductive Label
  /-- The runtime records an event; ids may be skipped. -/
  | append (gap : Nat) (event : RunEvent)
  /-- The reader asks for the runs since its cursor, while the tasks are in these goals. -/
  | ask (goals : TaskId → Option GoalId) (full : Bool)

/-- One step. -/
def State.next (s : State) : Label → State
  | .append gap event => { s with log := s.log.append gap event }
  | .ask goals full =>
      let page := stats s.log.events goals (readerQuery s.cursor full)
      { s with cursor := .event page.nextCursor, pages := s.pages ++ [page] }

/-- A reader of `log` that starts at `first`. -/
def reader (log : Log) (first : Cursor) : Machine State Label := ⟨{ log, cursor := first }, State.next⟩

/-- How often the run was reported. -/
def timesReported (pages : List Page) (r : RunId) : Nat :=
  ((pages.flatMap (·.runs)).map (·.runId)).count r

/-- How often it was reported as landed. -/
def timesLanded (pages : List Page) (r : RunId) : Nat :=
  (((pages.flatMap (·.runs)).filter (·.landedAt.isSome)).map (·.runId)).count r

/-- How far the reader is: its cursor, or the end of the log before that. -/
def State.reached (s : State) : EventId := min (s.cursor.eventId s.log.events) (lastId s.log.events)

/-! ## From one state to a later one -/

/-- What the reader is told on the way from `s` to `s'`. -/
structure Reads (s s' : State) (more : List Page) : Prop where
  pages : s'.pages = s.pages ++ more
  cursor : s'.cursor = .event s'.reached
  log : s.log.events <+: s'.log.events
  forward : s.reached ≤ s'.reached
  within : ∀ page ∈ more, s.reached ≤ page.nextCursor ∧ page.nextCursor ≤ s'.reached
  ascending : more.Pairwise (·.nextCursor ≤ ·.nextCursor)
  once : ∀ r, timesReported more r =
    if ∃ f, firstFinish s'.log.events r = some f ∧ s.reached < f ∧ f ≤ s'.reached then 1 else 0
  landed : ∀ r, landed s.log.events r = true →
    ∀ page ∈ more, ∀ run ∈ page.runs, run.runId = r → run.landedAt.isSome = true

theorem timesReported_append (pages more : List Page) (r : RunId) :
    timesReported (pages ++ more) r = timesReported pages r + timesReported more r := by
  simp [timesReported, List.count_append]

theorem timesLanded_append (pages more : List Page) (r : RunId) :
    timesLanded (pages ++ more) r = timesLanded pages r + timesLanded more r := by
  simp [timesLanded, List.count_append]

theorem timesLanded_le (pages : List Page) (r : RunId) : timesLanded pages r ≤ timesReported pages r :=
  (List.filter_sublist.map _).count_le r

/-- Where every report of a run has its landing, each counts. -/
theorem timesLanded_eq {pages : List Page} {r : RunId}
    (h : ∀ page ∈ pages, ∀ run ∈ page.runs, run.runId = r → run.landedAt.isSome = true) :
    timesLanded pages r = timesReported pages r := by
  unfold timesLanded timesReported
  rw [List.count_eq_countP, List.count_eq_countP, List.countP_map, List.countP_map,
    List.countP_filter]
  refine List.countP_congr fun run hrun => ?_
  obtain ⟨page, hpage, hmem⟩ := List.mem_flatMap.mp hrun
  simp only [Function.comp_apply, Bool.and_eq_true, beq_iff_eq, and_iff_left_iff_imp]
  exact h page hpage run hmem

theorem landed_mono {events events' : List RunEvent} {r : RunId} (h : events <+: events')
    (hl : landed events r = true) : landed events' r = true := by
  obtain ⟨more, rfl⟩ := h
  rw [landed_append, hl, Bool.true_or]

theorem firstFinish_mono {events events' : List RunEvent} {r : RunId} {f : EventId}
    (h : events <+: events') (hf : firstFinish events r = some f) :
    firstFinish events' r = some f := by
  obtain ⟨more, rfl⟩ := h
  rw [firstFinish_append, hf, Option.some_or]

/-- What finished by the end of an earlier log finished in it. -/
theorem firstFinish_of_le {log log' : Log} {r : RunId} {f : EventId}
    (h : log.events <+: log'.events) (hf : firstFinish log'.events r = some f)
    (hle : f ≤ lastId log.events) : firstFinish log.events r = some f := by
  have hinc := log'.increasing
  have hpos := log'.positive
  obtain ⟨more, hmore⟩ := h
  rw [← hmore] at hf hinc hpos
  rw [firstFinish_append] at hf
  cases hold : firstFinish log.events r with
  | some g => rwa [hold, Option.some_or] at hf
  | none =>
      rw [hold, Option.none_or] at hf
      obtain ⟨event, hmem, rfl, hof⟩ := Log.of_firstFinish hf
      refine absurd hle (Nat.not_le.mpr ?_)
      rcases Log.lastId_mem log.events with ⟨last, hlast, hid⟩ | hzero
      · rw [← hid]
        exact (List.pairwise_append.mp hinc).2.2 last hlast event hmem
      · rw [hzero]
        exact hpos event (List.mem_append_right _ hmem)

theorem lastId_mono {events events' : List RunEvent} (h : events <+: events') :
    lastId events ≤ lastId events' := by
  rcases Log.lastId_mem events with ⟨last, hlast, hid⟩ | hzero
  · rw [← hid]
    exact Log.le_lastId (h.subset hlast)
  · rw [hzero]
    exact Nat.zero_le _

theorem reached_of_le {s : State} {c : EventId} (hc : s.cursor = .event c)
    (hle : c ≤ lastId s.log.events) : s.reached = c := by
  rw [State.reached, hc]
  exact Nat.min_eq_left hle

/-- An event that is recorded tells the reader nothing. -/
theorem Reads.append {s : State} (hs : s.cursor = .event s.reached) (gap : Nat) (event : RunEvent) :
    Reads s (s.next (.append gap event)) [] := by
  have hlog : s.log.events <+: (s.next (.append gap event)).log.events := List.prefix_append _ _
  have hreached : (s.next (.append gap event)).reached = s.reached :=
    reached_of_le hs (Nat.le_trans (Nat.min_le_right _ _) (lastId_mono hlog))
  refine ⟨(List.append_nil _).symm, ?_, hlog, hreached.ge, fun page hpage => ?_, .nil, fun r => ?_,
    fun r _ page hpage => ?_⟩
  · rw [hreached]
    exact hs
  · cases hpage
  · rw [hreached, if_neg]
    · rfl
    · rintro ⟨f, -, hlt, hle⟩
      exact absurd hle (Nat.not_le.mpr hlt)
  · cases hpage

/-- An answer tells it of the runs up to the next cursor. -/
theorem Reads.ask (s : State) (goals : TaskId → Option GoalId) (full : Bool) :
    Reads s (s.next (.ask goals full)) [answer s.log goals (s.cursor.eventId s.log.events) full] := by
  have hreached : (s.next (.ask goals full)).reached =
      (answer s.log goals (s.cursor.eventId s.log.events) full).nextCursor :=
    reached_of_le rfl (answer_le _ _ _ _)
  have hon : s.reached ≤ (answer s.log goals (s.cursor.eventId s.log.events) full).nextCursor := by
    rcases answer_goes_on s.log goals (s.cursor.eventId s.log.events) full with hlast | hlt
    · exact hlast ▸ Nat.min_le_right _ _
    · exact Nat.le_trans (Nat.min_le_left _ _) hlt.le
  refine ⟨rfl, by rw [hreached]; rfl, List.prefix_refl _, hreached ▸ hon, fun page hpage => ?_,
    List.pairwise_singleton _ _, fun r => ?_, fun r hr page hpage => ?_⟩
  · rw [List.mem_singleton.mp hpage, hreached]
    exact ⟨hon, le_refl _⟩
  · have hcount := answer_count s.log goals (s.cursor.eventId s.log.events) full r
    rw [hreached]
    unfold timesReported
    rw [List.flatMap_singleton, hcount]
    refine if_congr (exists_congr fun f => and_congr_right fun hf => and_congr_left fun _ => ?_) rfl rfl
    -- A cursor past the end of the log leaves nothing, and neither does the end of the log.
    have hle := Log.firstFinish_le hf
    unfold State.reached
    constructor
    · exact fun hlt => Nat.lt_of_le_of_lt (Nat.min_le_left _ _) hlt
    · intro hlt
      rcases Nat.le_total (s.cursor.eventId s.log.events) (lastId s.log.events) with hin | hpast
      · rwa [Nat.min_eq_left hin] at hlt
      · rw [Nat.min_eq_right hpast] at hlt
        exact absurd hle (Nat.not_le.mpr hlt)
  · rw [List.mem_singleton.mp hpage]
    intro run hrun hid
    rw [answer_landed hrun, hid]
    exact hr

/-- A place between two ends lies on one side of a place in the middle. -/
theorem between_add {a b c f : Nat} (h : a ≤ b) (h' : b ≤ c) :
    ((if a < f ∧ f ≤ b then 1 else 0) + if b < f ∧ f ≤ c then 1 else 0) =
      if a < f ∧ f ≤ c then 1 else 0 := by
  split_ifs <;> omega

/-- One account after the other. -/
theorem Reads.trans {s s' s'' : State} {more more' : List Page} (h : Reads s s' more)
    (h' : Reads s' s'' more') : Reads s s'' (more ++ more') := by
  refine ⟨?_, h'.cursor, h.log.trans h'.log, le_trans h.forward h'.forward, fun page hpage => ?_, ?_,
    fun r => ?_, fun r hr page hpage => ?_⟩
  · rw [h'.pages, h.pages, List.append_assoc]
  · rcases List.mem_append.mp hpage with hpage | hpage
    · exact ⟨(h.within page hpage).1, le_trans (h.within page hpage).2 h'.forward⟩
    · exact ⟨le_trans h.forward (h'.within page hpage).1, (h'.within page hpage).2⟩
  · refine List.pairwise_append.mpr ⟨h.ascending, h'.ascending, fun page hpage page' hpage' => ?_⟩
    exact le_trans (h.within page hpage).2 (h'.within page' hpage').1
  · have hold : ∀ f, f ≤ s'.reached →
        (firstFinish s'.log.events r = some f ↔ firstFinish s''.log.events r = some f) := fun f hle =>
      ⟨firstFinish_mono h'.log,
        fun hf => firstFinish_of_le h'.log hf (le_trans hle (Nat.min_le_right _ _))⟩
    rw [timesReported_append, h.once, h'.once]
    cases hf : firstFinish s''.log.events r with
    | none =>
        rw [if_neg, if_neg, if_neg]
        · simp
        · simp
        · rintro ⟨f, hf', -, hle⟩
          rw [hold f hle, hf] at hf'
          cases hf'
    | some f =>
        -- The run stands at `f`, which is behind one of the two cursors at most.
        have hfirst : (∃ g, firstFinish s'.log.events r = some g ∧ s.reached < g ∧ g ≤ s'.reached) ↔
            s.reached < f ∧ f ≤ s'.reached := by
          constructor
          · rintro ⟨g, hg, hlt, hle⟩
            rw [hold g hle, hf] at hg
            cases hg
            exact ⟨hlt, hle⟩
          · exact fun hin => ⟨f, (hold f hin.2).mpr hf, hin⟩
        simp only [hfirst, Option.some.injEq, exists_eq_left']
        exact between_add h.forward h'.forward
  · rcases List.mem_append.mp hpage with hpage | hpage
    · exact h.landed r hr page hpage
    · exact h'.landed r (landed_mono h.log hr) page hpage

/-- The account of a whole run, from where the reader has a cursor of an answer. -/
theorem reads_run {s : State} (hs : s.cursor = .event s.reached) (M : Machine State Label)
    (hM : M.next = State.next) (ls : List Label) : ∃ more, Reads s (M.runFrom s ls) more := by
  induction ls generalizing s with
  | nil =>
      refine ⟨[], (List.append_nil _).symm, hs, List.prefix_refl _, le_refl _, fun page hpage => ?_, .nil,
        fun r => (if_neg ?_).symm, fun r _ page hpage => ?_⟩
      · cases hpage
      · rintro ⟨f, -, hlt, hle⟩
        exact absurd hle (Nat.not_le.mpr hlt)
      · cases hpage
  | cons l ls ih =>
      rw [Machine.runFrom_cons, hM]
      obtain ⟨page, hone⟩ : ∃ more, Reads s (s.next l) more := by
        cases l with
        | append gap event => exact ⟨_, Reads.append hs gap event⟩
        | ask goals full => exact ⟨_, Reads.ask s goals full⟩
      obtain ⟨more, hmore⟩ := ih hone.cursor
      exact ⟨_, hone.trans hmore⟩

/-- Without new events the reader comes to the end of the log. -/
theorem reaches_end {s : State} (hs : s.cursor = .event s.reached) (M : Machine State Label)
    (hM : M.next = State.next) (goals : TaskId → Option GoalId) :
    ∃ n, (M.runFrom s (List.replicate n (.ask goals false))).cursor = .event (lastId s.log.events) := by
  induction hleft : lastId s.log.events - s.reached using Nat.strong_induction_on generalizing s with
  | _ left ih =>
      have hask := Reads.ask s goals false
      have hcursor : (s.next (.ask goals false)).cursor =
        .event (answer s.log goals s.reached false).nextCursor := by
          show Cursor.event (stats _ _ (readerQuery s.cursor false)).nextCursor = _
          rw [hs]
          rfl
      rcases answer_goes_on s.log goals s.reached false with hend | hon
      · refine ⟨1, ?_⟩
        rw [List.replicate_one, Machine.runFrom_cons, hM, Machine.runFrom_nil, hcursor, hend]
      · have hreached : (s.next (.ask goals false)).reached =
            (answer s.log goals s.reached false).nextCursor := reached_of_le hcursor (answer_le _ _ _ _)
        have hle : (s.next (.ask goals false)).reached ≤ lastId s.log.events := Nat.min_le_right _ _
        rw [← hreached] at hon
        obtain ⟨n, hn⟩ := ih (lastId s.log.events - (s.next (.ask goals false)).reached)
          (hleft ▸ Nat.sub_lt_sub_left (Nat.lt_of_lt_of_le hon hle) hon) hask.cursor rfl
        refine ⟨n + 1, ?_⟩
        rw [List.replicate_succ, Machine.runFrom_cons, hM]
        exact hn

/-! ## Every page -/

/-- However the log grows between the questions: the cursors it is given never go back, nor behind the
first one (or the end of the log, if that was before it); each run whose first finishing event lies past
that is in exactly one page, once the cursor has passed the event; and is reported as landed there if it
landed while the reader had not come to that event.  And the reader gets to the end of the log. -/
theorem every_run_in_one_page (log : Log) (first : Cursor) (goals : TaskId → Option GoalId)
    (full : Bool) (ls : List Label) :
    let M := reader log first
    let start := min (first.eventId log.events) (lastId log.events)
    let s := M.run (.ask goals full :: ls)
    (s.pages.Pairwise (·.nextCursor ≤ ·.nextCursor) ∧ ∀ page ∈ s.pages, start ≤ page.nextCursor) ∧
    (∀ r f, firstFinish s.log.events r = some f →
      timesReported s.pages r = if start < f ∧ f ≤ s.reached then 1 else 0) ∧
    (∀ before after, .ask goals full :: ls = before ++ after → ∀ r f,
      firstFinish (M.run before).log.events r = some f → landed (M.run before).log.events r = true →
      (M.run before).reached < f → timesLanded s.pages r = if f ≤ s.reached then 1 else 0) ∧
    ∃ n, (M.run (.ask goals full :: ls ++ List.replicate n (.ask goals false))).cursor =
      .event (lastId s.log.events) := by
  intro M start s
  have hone : Reads M.init (M.run [.ask goals full]) _ := Reads.ask M.init goals full
  obtain ⟨more, hmore⟩ := reads_run hone.cursor M rfl ls
  have hall : Reads M.init s _ := hone.trans hmore
  refine ⟨⟨?_, ?_⟩, ?_, ?_, ?_⟩
  · rw [hall.pages]
    exact hall.ascending
  · rw [hall.pages]
    exact fun page hpage => (hall.within page hpage).1
  · intro r f hf
    rw [hall.pages]
    show timesReported ([] ++ _) r = _
    rw [List.nil_append, hall.once]
    simp only [hf, Option.some.injEq, exists_eq_left']
    rfl
  · intro before after hsplit r f hf hl hlt
    -- What was told before says nothing of the run, and what is told after has its landing.
    obtain ⟨told, htold, hsilent⟩ : ∃ told, Reads (M.run before) s told ∧
        timesReported (M.run before).pages r = 0 := by
      cases before with
      | nil => exact ⟨_, hall, rfl⟩
      | cons l before =>
          obtain ⟨rfl, rfl⟩ : Label.ask goals full = l ∧ ls = before ++ after :=
            List.cons.inj hsplit
          obtain ⟨_, hbefore⟩ := reads_run hone.cursor M rfl before
          obtain ⟨told, htold⟩ := reads_run hbefore.cursor M rfl after
          have hs : s = M.runFrom (M.run (.ask goals full :: before)) after :=
            M.run_append (.ask goals full :: before) after
          have hsofar : Reads M.init (M.run (.ask goals full :: before)) _ := hone.trans hbefore
          refine ⟨told, hs ▸ htold, ?_⟩
          rw [hsofar.pages]
          refine (hsofar.once r).trans (if_neg ?_)
          rintro ⟨g, hg, -, hle⟩
          obtain rfl := Option.some.inj (hf.symm.trans hg)
          exact absurd hle (Nat.not_le.mpr hlt)
    have hfinish := firstFinish_mono htold.log hf
    have hnone : timesLanded (M.run before).pages r = 0 :=
      Nat.eq_zero_of_le_zero (hsilent ▸ timesLanded_le _ r)
    rw [htold.pages, timesLanded_append, timesLanded_eq (htold.landed r hl), htold.once, hnone,
      Nat.zero_add]
    simp only [hfinish, Option.some.injEq, exists_eq_left', hlt, true_and]
  · have hs : s.cursor = .event s.reached := hall.cursor
    obtain ⟨n, hn⟩ := reaches_end hs M rfl goals
    refine ⟨n, ?_⟩
    rw [Machine.run_append]
    exact hn

/-- A run fails, the reader asks, the run is brought back and lands, the reader asks again. -/
def failedThenLanded : State :=
  (reader ⟨[], .nil, by simp⟩ (.event 0)).run
    [.append 0 { id := 0, taskId := some 1, runId := some 1, kind := .other "run_failed",
                 status := some "failed" },
     .ask (fun _ => none) false,
     .append 0 { id := 0, taskId := some 1, runId := some 1, kind := .runIntegrated },
     .ask (fun _ => none) false]

/-- No page ever reports the landing: the reader is past the failure already. -/
theorem landing_behind_cursor : landed failedThenLanded.log.events 1 = true ∧
    failedThenLanded.cursor = .event 2 ∧ lastId failedThenLanded.log.events = 2 ∧
    timesReported failedThenLanded.pages 1 = 1 ∧ timesLanded failedThenLanded.pages 1 = 0 := by
  decide +kernel

end Dagq.Stats
