/-
# Dagq.Stats.Paging -- one answer of `stats` to a reader with a cursor.

The runs past the cursor, oldest first, up to the cursor the answer names; with what the log says of
their landing by then.
-/
import Dagq.Stats.Runs
import Mathlib.Data.List.Nodup

namespace Dagq.Stats

/-! ## Increasing keys -/

/-- Of a list with increasing keys, the first entries are those up to the last of them. -/
theorem mem_take_iff_le {α : Type} {key : α → Nat} {l : List α} {n : Nat} {z x : α}
    (hs : l.Pairwise (key · < key ·)) (hz : (l.take n).getLast? = some z) (hx : x ∈ l) :
    x ∈ l.take n ↔ key x ≤ key z := by
  obtain ⟨front, hfront⟩ := List.getLast?_eq_some_iff.mp hz
  rw [← List.take_append_drop n l, List.pairwise_append] at hs
  obtain ⟨htake, -, hcross⟩ := hs
  constructor
  · intro hmem
    rw [hfront, List.mem_append, List.mem_singleton] at hmem
    rw [hfront, List.pairwise_append] at htake
    rcases hmem with hmem | rfl
    · exact (htake.2.2 x hmem z (List.mem_singleton.mpr rfl)).le
    · exact le_refl _
  · intro hle
    by_contra hnot
    rw [← List.take_append_drop n l, List.mem_append] at hx
    have hz : z ∈ l.take n := List.mem_of_getLast? hz
    have hlt := hcross z hz x (hx.resolve_left hnot)
    omega

/-! ## Logs -/

/-- A log whose ids increase, as the runtime records them; 0 is no event's. -/
structure Log where
  events : List RunEvent
  increasing : events.Pairwise (·.id < ·.id)
  positive : ∀ event ∈ events, 0 < event.id

namespace Log

variable {log : Log} {r r' : RunId} {f : EventId}

theorem le_lastId {events : List RunEvent} {event : RunEvent} (h : event ∈ events) :
    event.id ≤ lastId events := by
  unfold lastId
  cases hmax : (events.map (·.id)).max? with
  | none => rw [List.map_eq_nil_iff.mp (List.max?_eq_none_iff.mp hmax)] at h; cases h
  | some last => exact (List.max?_eq_some_iff.mp hmax).2 _ (List.mem_map_of_mem h)

/-- The last id is an event's, or there is none. -/
theorem lastId_mem (events : List RunEvent) :
    (∃ event ∈ events, event.id = lastId events) ∨ lastId events = 0 := by
  unfold lastId
  cases hmax : (events.map (·.id)).max? with
  | none => exact .inr rfl
  | some last => exact .inl (List.mem_map.mp (List.max?_eq_some_iff.mp hmax).1)

theorem of_firstFinish {events : List RunEvent} (h : firstFinish events r = some f) :
    ∃ event ∈ events, event.id = f ∧ event.ofRun r = true := by
  obtain ⟨event, hfind, hid⟩ := Option.map_eq_some_iff.mp h
  have hof := List.find?_some hfind
  rw [Bool.and_eq_true] at hof
  exact ⟨event, List.mem_of_find?_eq_some hfind, hid, hof.1⟩

theorem firstFinish_le {events : List RunEvent} (h : firstFinish events r = some f) :
    f ≤ lastId events := by
  obtain ⟨event, hmem, rfl, -⟩ := of_firstFinish h
  exact le_lastId hmem

/-- An event has one id and is of one run. -/
theorem run_eq_of_firstFinish (h : firstFinish log.events r = some f)
    (h' : firstFinish log.events r' = some f) : r = r' := by
  obtain ⟨event, hmem, hid, hof⟩ := of_firstFinish h
  obtain ⟨event', hmem', hid', hof'⟩ := of_firstFinish h'
  have hsame : event = event' := by
    have hinj : (log.events.map (·.id)).Nodup :=
      (List.pairwise_map.mpr log.increasing).imp fun hlt => Nat.ne_of_lt hlt
    exact List.inj_on_of_nodup_map hinj hmem hmem' (hid.trans hid'.symm)
  subst hsame
  unfold RunEvent.ofRun at hof hof'
  rw [Bool.and_eq_true, decide_eq_true_eq] at hof hof'
  exact Option.some.inj (hof.1.symm.trans hof'.1)

end Log

/-! ## One answer -/

section Answer

variable (log : Log) (goals : TaskId → Option GoalId) (since : EventId) (full : Bool)

/-- What a reader asks for: the runs since its cursor. -/
def readerQuery (cursor : Cursor) (full : Bool) : StatsQuery := { since := some cursor, full }

/-- The runs past the cursor, oldest first. -/
def pastCursor : List Track :=
  (finishedRuns log.events goals (readerQuery (.event since) full)).mergeSort Track.finishedBefore

variable {log goals since full}

theorem mem_pastCursor {track : Track} :
    track ∈ pastCursor log goals since full ↔ track ∈ runs log.events goals ∧
      ∃ f, track.stats.finishedEventId = some f ∧ since < f := by
  rw [pastCursor, (List.mergeSort_perm _ _).mem_iff, finishedRuns, List.mem_filter]
  simp [readerQuery, Cursor.eventId, Option.any_eq_true]

/-- Where a track stands. -/
def Track.key (track : Track) : EventId := track.stats.finishedEventId.getD 0

theorem pastCursor_key {track : Track} (h : track ∈ pastCursor log goals since full) :
    firstFinish log.events track.stats.runId = some track.key ∧ since < track.key := by
  obtain ⟨hmem, f, hf, hlt⟩ := mem_pastCursor.mp h
  have htells := ((tracked_runs log.events goals).tells track hmem).1
  rw [Track.key, ← htells, hf]
  exact ⟨rfl, hlt⟩

theorem pastCursor_nodup : ((pastCursor log goals since full).map (·.stats.runId)).Nodup := by
  have hperm := List.mergeSort_perm
    (finishedRuns log.events goals (readerQuery (.event since) full)) Track.finishedBefore
  rw [pastCursor, (hperm.map (·.stats.runId)).nodup_iff]
  exact (tracked_runs log.events goals).nodup.sublist (List.filter_sublist.map _)

/-- Two runs stand at two places. -/
theorem pastCursor_sorted : (pastCursor log goals since full).Pairwise (·.key < ·.key) := by
  have hle : (pastCursor log goals since full).Pairwise (·.key ≤ ·.key) := by
    refine (List.pairwise_mergeSort ?_ ?_ _).imp of_decide_eq_true
    · intro a b c hab hbc
      exact decide_eq_true (Nat.le_trans (of_decide_eq_true hab) (of_decide_eq_true hbc))
    · intro a b
      rw [Bool.or_eq_true]
      exact (Nat.le_total a.key b.key).imp (decide_eq_true ·) (decide_eq_true ·)
  have hnodup : (pastCursor log goals since full).Pairwise (·.stats.runId ≠ ·.stats.runId) :=
    List.pairwise_map.mp pastCursor_nodup
  refine (hle.and hnodup).imp_of_mem fun {a b} ha hb h => Nat.lt_of_le_of_ne h.1 fun heq => ?_
  have hka := (pastCursor_key ha).1
  rw [heq] at hka
  exact h.2 (Log.run_eq_of_firstFinish hka (pastCursor_key hb).1)

variable (log goals since full) in
/-- The answer: some of the oldest runs past the cursor, all of them up to the cursor it names. -/
theorem stats_answer : ∃ page : List Track,
    (stats log.events goals (readerQuery (.event since) full)).runs = page.map (·.stats) ∧
    page.Sublist (pastCursor log goals since full) ∧
    (∀ track ∈ pastCursor log goals since full, track ∈ page ↔ track.key ≤
      (stats log.events goals (readerQuery (.event since) full)).nextCursor) ∧
    ((stats log.events goals (readerQuery (.event since) full)).nextCursor = lastId log.events ∨
      ∃ track ∈ page, track.key =
        (stats log.events goals (readerQuery (.event since) full)).nextCursor) := by
  have hall : ∀ track ∈ pastCursor log goals since full, track.key ≤ lastId log.events :=
    fun track htrack => Log.firstFinish_le (pastCursor_key htrack).1
  obtain ⟨limit, hlimit⟩ :
    ∃ limit, limit = if full then (pastCursor log goals since full).length else defaultRuns := ⟨_, rfl⟩
  have hstats : stats log.events goals (readerQuery (.event since) full) =
      if limit < (pastCursor log goals since full).length then
        let page := (pastCursor log goals since full).take limit
        { runs := page.map (·.stats)
          nextCursor := (page.getLast?.bind (·.stats.finishedEventId)).getD (lastId log.events) }
      else { runs := (pastCursor log goals since full).map (·.stats)
             nextCursor := lastId log.events } := by rw [hlimit]; rfl
  by_cases hmore : limit < (pastCursor log goals since full).length
  · rw [if_pos hmore] at hstats
    -- The page is not empty, and its last run is past the cursor.
    have hpos : 0 < limit := by
      cases full with
      | true => simp [hlimit] at hmore
      | false => rw [hlimit]; exact Nat.succ_pos 49
    obtain ⟨last, hlast⟩ : ∃ last,
        ((pastCursor log goals since full).take limit).getLast? = some last := by
      cases hlast : ((pastCursor log goals since full).take limit).getLast? with
      | some last => exact ⟨last, rfl⟩
      | none =>
          have hlen := congrArg List.length (List.getLast?_eq_none_iff.mp hlast)
          rw [List.length_take, List.length_nil] at hlen
          omega
    have hmem := List.mem_of_getLast? hlast
    obtain ⟨-, f, hf, -⟩ := mem_pastCursor.mp (List.mem_of_mem_take hmem)
    have hkey : last.key = f := by rw [Track.key, hf]; rfl
    dsimp only at hstats
    rw [hlast, Option.bind_some, hf, Option.getD_some, ← hkey] at hstats
    rw [hstats]
    refine ⟨_, rfl, List.take_sublist _ _, fun track htrack => ?_, .inr ⟨last, hmem, rfl⟩⟩
    exact mem_take_iff_le pastCursor_sorted hlast htrack
  · rw [if_neg hmore] at hstats
    rw [hstats]
    refine ⟨_, rfl, List.Sublist.refl _, fun track htrack => ?_, .inl rfl⟩
    exact iff_of_true htrack (hall track htrack)

variable (log goals since full)

/-- The answer of `stats` to the reader. -/
def answer : Page := stats log.events goals (readerQuery (.event since) full)

/-- The answer stays within the log. -/
theorem answer_le : (answer log goals since full).nextCursor ≤ lastId log.events := by
  obtain ⟨page, -, hsub, -, hlast | ⟨track, hmem, hkey⟩⟩ :=
    stats_answer log goals since full
  · exact hlast.le
  · rw [answer, ← hkey]
    exact Log.firstFinish_le (pastCursor_key (hsub.subset hmem)).1

/-- The answer goes on, unless it reaches the end of the log. -/
theorem answer_goes_on : (answer log goals since full).nextCursor = lastId log.events ∨
    since < (answer log goals since full).nextCursor := by
  obtain ⟨page, -, hsub, -, hlast | ⟨track, hmem, hkey⟩⟩ :=
    stats_answer log goals since full
  · exact .inl hlast
  · rw [answer, ← hkey]
    exact .inr (pastCursor_key (hsub.subset hmem)).2

theorem count_runId_map (page : List Track) (r : RunId) :
    ((page.map (·.stats)).map (·.runId)).count r = (page.map (·.stats.runId)).count r := by
  rw [List.map_map]
  rfl

/-- Each run between the cursor and the one the answer names is in it once, and no other. -/
theorem answer_count (r : RunId) :
    ((answer log goals since full).runs.map (·.runId)).count r =
      if ∃ f, firstFinish log.events r = some f ∧ since < f ∧
        f ≤ (answer log goals since full).nextCursor then 1 else 0 := by
  obtain ⟨page, hruns, hsub, hmem, -⟩ :=
    stats_answer log goals since full
  have hnodup : (page.map (·.stats.runId)).Nodup := pastCursor_nodup.sublist (hsub.map _)
  rw [answer, hruns, count_runId_map, hnodup.count]
  refine if_congr ?_ rfl rfl
  constructor
  · intro hr
    obtain ⟨track, htrack, rfl⟩ := List.mem_map.mp hr
    have hpast := hsub.subset htrack
    obtain ⟨hf, hlt⟩ := pastCursor_key hpast
    exact ⟨track.key, hf, hlt, (hmem track hpast).mp htrack⟩
  · rintro ⟨f, hf, hlt, hle⟩
    obtain ⟨event, hevent, -, hof⟩ := Log.of_firstFinish hf
    obtain ⟨track, htrack, rfl⟩ :=
      List.mem_map.mp ((tracked_runs log.events goals).all r ⟨event, hevent, hof⟩)
    have htells := ((tracked_runs log.events goals).tells track htrack).1
    rw [hf] at htells
    have hpast : track ∈ pastCursor log goals since full := mem_pastCursor.mpr ⟨htrack, f, htells, hlt⟩
    have hkey : track.key = f := by rw [Track.key, htells]; rfl
    exact List.mem_map.mpr ⟨track, (hmem track hpast).mpr (hkey ▸ hle), rfl⟩

variable {log goals since full} in
/-- A run is reported with the landing the log has of it. -/
theorem answer_landed {run : RunStats} (h : run ∈ (answer log goals since full).runs) :
    run.landedAt.isSome = landed log.events run.runId := by
  obtain ⟨page, hruns, hsub, -, -⟩ :=
    stats_answer log goals since full
  rw [answer, hruns] at h
  obtain ⟨track, htrack, rfl⟩ := List.mem_map.mp h
  have hmem := (mem_pastCursor.mp (hsub.subset htrack)).1
  exact ((tracked_runs log.events goals).tells track hmem).2

end Answer

end Dagq.Stats
