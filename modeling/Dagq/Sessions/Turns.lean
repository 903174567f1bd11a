/-
# Dagq.Sessions.Turns -- the turns a span records while it is open, against one pass at its end.

A recorder of open spans writes the turns complete so far that start after the end of the last one it
wrote; the close writes the others the same way.  What this adds up to is compared with what a single
pass over the whole transcript would write.  The two agree exactly where no turn left for later starts
at or before the end of one already complete, and what was complete early belongs to the span.
-/
import Dagq.Domain.Transcript
import Mathlib.Data.List.Perm.Basic

namespace Dagq.Sessions

/-! ## Recording -/

/-- `recorded_turns`: the turns in the `session_turns` of the span so far. -/
def recordedTurns (payloads : List (List Turn)) : List Turn := payloads.flatten

/-- The end of the last one. -/
def through (recorded : List Turn) : Option Int := (recorded.map (·.finish)).max?

/-- One more `session_turns`, unless it has no turns. -/
def insertTurns (payloads : List (List Turn)) (new : List Turn) : List (List Turn) :=
  if new.isEmpty then payloads else payloads ++ [new]

/-- `record_open_turns`, for one open span and what its transcript has by now. -/
def recordOpenTurns (start : Int) (payloads : List (List Turn)) (records : List TranscriptRecord) :
    List (List Turn) :=
  insertTurns payloads <|
    spanTurns (turns records).complete start none (through (recordedTurns payloads))

/-- The end of a span closed at `now`: an inferred close ends at its transcript's last record when that
is earlier. -/
def closeEnd (inferred : Bool) (records : List TranscriptRecord) (start now : Int) : Int :=
  let now := max now start
  match inferred, lastAt records with
  | true, some last => min (max last start) now
  | _, _ => now

/-- `close`: the turns not recorded yet. -/
def closeTurns (inferred : Bool) (start now : Int) (payloads : List (List Turn))
    (records : List TranscriptRecord) : List (List Turn) :=
  let stop := closeEnd inferred records start now
  insertTurns payloads <|
    spanTurns (turns records).all start (some stop) (through (recordedTurns payloads))

/-- Everything recorded of a transcript read at the cuts while the span is open, and at its close. -/
def recordedInTotal (records : List TranscriptRecord) (cuts : List Nat) (inferred : Bool)
    (start now : Int) : List Turn :=
  let opened := cuts.foldl (fun payloads n => recordOpenTurns start payloads (records.take n)) []
  recordedTurns (closeTurns inferred start now opened records)

/-- The same with no recording before the close. -/
def turnsInOnePass (records : List TranscriptRecord) (inferred : Bool) (start now : Int) : List Turn :=
  recordedTurns (closeTurns inferred start now [] records)

/-! ## The condition -/

/-- The turns that start in the span. -/
def startedIn (start : Int) (turns : List Turn) : List Turn :=
  turns.filter fun turn => start ≤ turn.start

/-- The complete turns of the span after `n` records. -/
def completeAt (records : List TranscriptRecord) (start : Int) (n : Nat) : List Turn :=
  startedIn start (turns (records.take n)).complete

/-- Every turn of `before` in a span that ends at `stop` ended before `t` starts. -/
def StartsAfter (stop : Int) (before : List Turn) (t : Turn) : Prop :=
  ∀ u ∈ before, u.start < stop → u.finish < t.start

/-- From the complete turns `before` of one recording over those of the later ones to all turns: what a
recording finds newly complete starts in the span exactly if it starts after all of `before` ended, and
then ends in it; what is left for the close starts after them, if it starts in the span. -/
def CountsOnce (stop : Int) (all : List Turn) : List Turn → List (List Turn) → Prop
  | before, [] => ∀ t ∈ all.drop before.length, t.start < stop → StartsAfter stop before t
  | before, seen :: later =>
      (∀ t ∈ seen.drop before.length,
        (t.start < stop ↔ StartsAfter stop before t) ∧ (t.start < stop → t.finish ≤ stop)) ∧
      CountsOnce stop all seen later

instance (stop : Int) (before : List Turn) (t : Turn) : Decidable (StartsAfter stop before t) :=
  inferInstanceAs (Decidable (∀ u ∈ before, u.start < stop → u.finish < t.start))

instance (stop : Int) (all before : List Turn) (seens : List (List Turn)) :
    Decidable (CountsOnce stop all before seens) :=
  match seens with
  | [] => inferInstanceAs
      (Decidable (∀ t ∈ all.drop before.length, t.start < stop → StartsAfter stop before t))
  | seen :: later =>
      have : Decidable (CountsOnce stop all seen later) := instDecidableCountsOnce stop all seen later
      inferInstanceAs (Decidable ((∀ t ∈ seen.drop before.length,
        (t.start < stop ↔ StartsAfter stop before t) ∧ (t.start < stop → t.finish ≤ stop)) ∧
        CountsOnce stop all seen later))

/-! ## What one recording adds -/

/-- Neither filter of `span_turns` looks at anything but the start. -/
def late (recorded : List Turn) (t : Turn) : Bool := (through recorded).all (· < t.start)

theorem late_iff {recorded : List Turn} {t : Turn} :
    late recorded t = true ↔ ∀ u ∈ recorded, u.finish < t.start := by
  unfold late through
  cases hmax : (recorded.map (·.finish)).max? with
  | none =>
      have hnil := List.max?_eq_none_iff.mp hmax
      rw [List.map_eq_nil_iff] at hnil
      subst hnil
      simp
  | some last =>
      obtain ⟨hmem, hle⟩ := List.max?_eq_some_iff.mp hmax
      rw [Option.all_some, decide_eq_true_eq]
      constructor
      · intro hlast u hu
        exact lt_of_le_of_lt (hle _ (List.mem_map_of_mem hu)) hlast
      · intro hall
        obtain ⟨u, hu, rfl⟩ := List.mem_map.mp hmem
        exact hall u hu

theorem recordedTurns_insertTurns (payloads : List (List Turn)) (new : List Turn) :
    recordedTurns (insertTurns payloads new) = recordedTurns payloads ++ new := by
  unfold insertTurns recordedTurns
  split
  next h => rw [List.isEmpty_iff.mp h, List.append_nil]
  next h => rw [List.flatten_append, List.flatten_singleton]

/-- The turns a recording of an open span adds to. -/
def recordSeen (recorded seen : List Turn) : List Turn := recorded ++ seen.filter (late recorded)

theorem recordedTurns_recordOpenTurns (start : Int) (payloads : List (List Turn))
    (records : List TranscriptRecord) :
    recordedTurns (recordOpenTurns start payloads records) =
      recordSeen (recordedTurns payloads) (startedIn start (turns records).complete) := by
  rw [recordOpenTurns, recordedTurns_insertTurns, recordSeen, startedIn, List.filter_filter]
  congr 1
  refine (List.map_id _).trans (List.filter_congr fun t _ => ?_)
  show (_ && true && late _ t) = _
  rw [Bool.and_true, Bool.and_comm]

/-- A turn of a span that ends at `stop`, cut there. -/
def Turn.cut (stop : Int) (t : Turn) : Turn := { t with finish := min t.finish stop }

/-- What the close adds to the turns recorded. -/
def closing (stop : Int) (recorded all : List Turn) : List Turn :=
  (all.filter fun t => decide (t.start < stop) && late recorded t).map (Turn.cut stop)

theorem recordedTurns_closeTurns (inferred : Bool) (start now : Int) (payloads : List (List Turn))
    (records : List TranscriptRecord) :
    recordedTurns (closeTurns inferred start now payloads records) =
      recordedTurns payloads ++ closing (closeEnd inferred records start now) (recordedTurns payloads)
        (startedIn start (turns records).all) := by
  rw [closeTurns, recordedTurns_insertTurns, closing, startedIn, List.filter_filter]
  congr 1
  unfold spanTurns
  refine congrArg (List.map _) (List.filter_congr fun t _ => ?_)
  show (_ && _ && late _ t) = _
  rw [Bool.and_assoc, Bool.and_comm, Option.all_some]

/-! ## Between two recordings -/

section Recordings

variable {recorded before seen all : List Turn}

/-- Nothing in `turns` would be recorded again. -/
def Covered (recorded turns : List Turn) : Prop := ∀ t ∈ turns, late recorded t = false

theorem late_append {new : List Turn} {t : Turn} (h : late recorded t = false) :
    late (recorded ++ new) t = false := by
  rw [← Bool.not_eq_true, late_iff] at h ⊢
  exact fun hall => h fun u hu => hall u (List.mem_append_left _ hu)

/-- A recording covers what it saw, whether it wrote it or not. -/
theorem covered_record (hlen : ∀ t ∈ seen, t.start ≤ t.finish) :
    Covered (recordSeen recorded seen) seen := by
  intro t ht
  cases hlate : late recorded t with
  | false => exact late_append hlate
  | true =>
      have hmem : t ∈ recordSeen recorded seen :=
        List.mem_append_right _ (List.mem_filter.mpr ⟨ht, hlate⟩)
      rw [← Bool.not_eq_true, late_iff]
      intro hall
      have hlt := hall t hmem
      have hle := hlen t ht
      omega

theorem filter_of_covered {p : Turn → Bool} (more : List Turn) (h : Covered recorded before) :
    (before ++ more).filter (fun t => p t && late recorded t) =
      more.filter fun t => p t && late recorded t := by
  rw [List.filter_append, List.filter_eq_nil_iff.mpr, List.nil_append]
  intro t ht
  simp [h t ht]

/-- A recording adds newly complete turns only. -/
theorem record_of_covered (fresh : List Turn) (h : Covered recorded before) :
    recordSeen recorded (before ++ fresh) = recorded ++ fresh.filter (late recorded) := by
  have hfilter := filter_of_covered (p := fun _ => true) fresh h
  simp only [Bool.true_and] at hfilter
  rw [recordSeen, hfilter]

/-- How many of the turns start in the span. -/
def inSpan (stop : Int) (turns : List Turn) : Nat := turns.countP fun t => decide (t.start < stop)

theorem inSpan_append (stop : Int) (turns more : List Turn) :
    inSpan stop (turns ++ more) = inSpan stop turns + inSpan stop more := List.countP_append

theorem inSpan_filter_le (stop : Int) (p : Turn → Bool) (turns : List Turn) :
    inSpan stop (turns.filter p) ≤ inSpan stop turns :=
  (List.filter_sublist).countP_le

/-- Where some filter keeps as many turns of the span as there are, it keeps each of them. -/
theorem of_inSpan_le_filter {stop : Int} {p : Turn → Bool} {turns : List Turn}
    (h : inSpan stop turns ≤ inSpan stop (turns.filter p)) :
    ∀ t ∈ turns, t.start < stop → p t = true := by
  intro t ht hlt
  rw [inSpan, inSpan, List.countP_eq_length_filter, List.countP_eq_length_filter,
    List.filter_filter] at h
  have hsub := List.monotone_filter_right turns fun t
    (ht : (decide (t.start < stop) && p t) = true) => (Bool.and_eq_true _ _ ▸ ht).1
  have hmem : t ∈ turns.filter fun t => decide (t.start < stop) :=
    List.mem_filter.mpr ⟨ht, decide_eq_true hlt⟩
  rw [← hsub.eq_of_length_le h, List.mem_filter, Bool.and_eq_true] at hmem
  exact hmem.2.2

/-- Cutting a turn does not move its start. -/
theorem inSpan_closing (stop : Int) (recorded all : List Turn) :
    inSpan stop (closing stop recorded all) =
      (all.filter fun t => decide (t.start < stop) && late recorded t).length := by
  unfold inSpan closing
  rw [List.countP_map, List.countP_eq_length]
  intro t ht
  have ht := (List.mem_filter.mp ht).2
  rw [Bool.and_eq_true] at ht
  exact ht.1

/-- What the recordings and the close make of the turns they see one after the other. -/
def total (stop : Int) (all recorded : List Turn) (seens : List (List Turn)) : List Turn :=
  seens.foldl recordSeen recorded ++ closing stop (seens.foldl recordSeen recorded) all

/-- However the turns are cut, the recordings find no more of the span than is left of it. -/
theorem inSpan_total_le (stop : Int) {seens : List (List Turn)}
    (hlen : ∀ t ∈ all, t.start ≤ t.finish) (hcov : Covered recorded before)
    (hgrow : (before :: (seens ++ [all])).Pairwise (· <+: ·)) :
    inSpan stop (total stop all recorded seens) ≤
      inSpan stop recorded + inSpan stop (all.drop before.length) := by
  induction seens generalizing recorded before with
  | nil =>
      obtain ⟨fresh, rfl⟩ : before <+: all := (List.pairwise_cons.mp hgrow).1 all (by simp)
      show inSpan stop (recorded ++ closing stop recorded _) ≤ _
      rw [inSpan_append, inSpan_closing, filter_of_covered fresh hcov, List.drop_left, inSpan,
        inSpan, List.countP_eq_length_filter (l := fresh)]
      refine Nat.add_le_add_left (List.Sublist.length_le ?_) _
      exact List.monotone_filter_right fresh fun t ht => (Bool.and_eq_true _ _ ▸ ht).1
  | cons seen later ih =>
      obtain ⟨hbefore, hlater⟩ := List.pairwise_cons.mp hgrow
      -- Each reading is the one before and some fresh turns.
      obtain ⟨fresh, rfl⟩ : before <+: seen := hbefore seen (by simp)
      obtain ⟨rest, rfl⟩ : before ++ fresh <+: all := (List.pairwise_cons.mp hlater).1 all (by simp)
      have hseen : Covered (recordSeen recorded (before ++ fresh)) (before ++ fresh) :=
        covered_record fun t ht => hlen t (List.mem_append_left _ ht)
      have hle := ih hseen hlater
      rw [record_of_covered fresh hcov, inSpan_append] at hle
      rw [List.drop_left] at hle
      have hfresh := inSpan_filter_le stop (late recorded) fresh
      rw [List.append_assoc, List.drop_left, inSpan_append]
      show inSpan stop (total stop _ (recordSeen recorded (before ++ fresh)) later) ≤ _
      rw [record_of_covered fresh hcov]
      rw [List.append_assoc] at hle
      omega

/-! ## All of them -/

/-- The turns of one pass are those of the span, cut at its end. -/
theorem closing_nil (stop : Int) (all : List Turn) :
    closing stop [] all = (all.filter fun t => decide (t.start < stop)).map (Turn.cut stop) := by
  refine congrArg _ (List.filter_congr fun t _ => ?_)
  rw [late_iff.mpr (by simp), Bool.and_true]

theorem inSpan_onePass (stop : Int) (all : List Turn) :
    inSpan stop (closing stop [] all) = inSpan stop all := by
  rw [inSpan_closing, inSpan, List.countP_eq_length_filter]
  refine congrArg _ (List.filter_congr fun t _ => ?_)
  rw [late_iff.mpr (by simp), Bool.and_true]

theorem mem_onePass {stop : Int} {t : Turn} (h : t ∈ closing stop [] all) :
    t.start < stop ∧ t.finish ≤ stop := by
  rw [closing_nil] at h
  obtain ⟨u, hu, rfl⟩ := List.mem_map.mp h
  refine ⟨of_decide_eq_true (List.mem_filter.mp hu).2, ?_⟩
  show min u.finish stop ≤ stop
  omega

/-- The recorded turns are the complete ones that start in the span, and end in it. -/
structure Kept (stop : Int) (recorded before : List Turn) : Prop where
  eq : recorded = before.filter fun t => decide (t.start < stop)
  ends : ∀ u ∈ recorded, u.finish ≤ stop
  covered : Covered recorded before

theorem Kept.late_iff {stop : Int} {t : Turn} (h : Kept stop recorded before) :
    late recorded t = true ↔ StartsAfter stop before t := by
  rw [Sessions.late_iff, h.eq]
  constructor
  · intro hall u hu hlt
    exact hall u (List.mem_filter.mpr ⟨hu, decide_eq_true hlt⟩)
  · intro hall u hu
    obtain ⟨hu, hlt⟩ := List.mem_filter.mp hu
    exact hall u hu (of_decide_eq_true hlt)

/-- One recording keeps exactly the complete turns of the span when the newly complete ones meet the
condition. -/
theorem Kept.record {stop : Int} {fresh : List Turn} (h : Kept stop recorded before)
    (hlen : ∀ t ∈ before ++ fresh, t.start ≤ t.finish)
    (hnew : ∀ t ∈ fresh, (t.start < stop ↔ StartsAfter stop before t) ∧
      (t.start < stop → t.finish ≤ stop)) :
    Kept stop (recordSeen recorded (before ++ fresh)) (before ++ fresh) := by
  have hfilter : fresh.filter (late recorded) = fresh.filter fun t => decide (t.start < stop) := by
    refine List.filter_congr fun t ht => ?_
    rw [Bool.eq_iff_iff, h.late_iff, decide_eq_true_eq]
    exact (hnew t ht).1.symm
  have hrec := record_of_covered fresh h.covered
  refine ⟨?_, ?_, covered_record hlen⟩
  · rw [hrec, hfilter, List.filter_append, ← h.eq]
  · intro u hu
    rw [hrec, hfilter, List.mem_append] at hu
    rcases hu with hu | hu
    · exact h.ends u hu
    · obtain ⟨hu, hlt⟩ := List.mem_filter.mp hu
      exact (hnew u hu).2 (of_decide_eq_true hlt)

/-- What remains to be counted at the close. -/
theorem Kept.closing_perm_iff {stop : Int} {fresh : List Turn} (h : Kept stop recorded before) :
    (recorded ++ closing stop recorded (before ++ fresh)).Perm (closing stop [] (before ++ fresh)) ↔
      ∀ t ∈ fresh, t.start < stop → StartsAfter stop before t := by
  have hcut : (before.filter fun t => decide (t.start < stop)).map (Turn.cut stop) = recorded := by
    rw [← h.eq]
    refine (List.map_congr_left fun u hu => ?_).trans (List.map_id _)
    show Turn.mk u.start (min u.finish stop) = u
    rw [min_eq_left (h.ends u hu)]
  rw [closing_nil, List.filter_append, List.map_append, hcut, List.perm_append_left_iff, closing,
    filter_of_covered fresh h.covered]
  constructor
  · intro hperm t ht hlt
    have hlen := hperm.length_eq
    rw [List.length_map, List.length_map] at hlen
    refine h.late_iff.mp (of_inSpan_le_filter (Nat.le_of_eq ?_) t ht hlt)
    rw [inSpan, inSpan, List.countP_eq_length_filter, List.countP_eq_length_filter,
      List.filter_filter]
    exact hlen.symm
  · intro hall
    refine .of_eq (congrArg _ (List.filter_congr fun t ht => ?_))
    by_cases hlt : t.start < stop
    · rw [h.late_iff.mpr (hall t ht hlt), Bool.and_true]
    · simp [hlt]

theorem recorded_prefix_total {stop : Int} {seens : List (List Turn)} :
    recorded <+: total stop all recorded seens := by
  induction seens generalizing recorded with
  | nil => exact List.prefix_append _ _
  | cons seen later ih => exact (List.prefix_append recorded _).trans ih

/-- When the total comes out right, the turns newly complete at a recording met the condition: those it
wrote lie in the span, and it wrote all that do, since nobody writes them later. -/
theorem Kept.fresh_of_perm {stop : Int} {fresh rest : List Turn} {later : List (List Turn)}
    (h : Kept stop recorded before) (hlen : ∀ t ∈ before ++ fresh ++ rest, t.start ≤ t.finish)
    (hlater : ((before ++ fresh) :: (later ++ [before ++ fresh ++ rest])).Pairwise (· <+: ·))
    (hperm : (total stop (before ++ fresh ++ rest) (recordSeen recorded (before ++ fresh)) later).Perm
      (closing stop [] (before ++ fresh ++ rest))) :
    ∀ t ∈ fresh, (t.start < stop ↔ StartsAfter stop before t) ∧
      (t.start < stop → t.finish ≤ stop) := by
  have hrec := record_of_covered fresh h.covered
  have hin : ∀ t ∈ fresh, late recorded t = true → t.start < stop ∧ t.finish ≤ stop := by
    intro t ht hlate
    have hmem : t ∈ recordSeen recorded (before ++ fresh) := by
      rw [hrec]
      exact List.mem_append_right _ (List.mem_filter.mpr ⟨ht, hlate⟩)
    exact mem_onePass (hperm.subset (recorded_prefix_total.subset hmem))
  -- None may be left out: the count would fall short of the one pass.
  have hall : ∀ t ∈ fresh, t.start < stop → late recorded t = true := by
    have hseen : Covered (recordSeen recorded (before ++ fresh)) (before ++ fresh) :=
      covered_record fun t ht => hlen t (List.mem_append_left _ ht)
    have hle := inSpan_total_le stop hlen hseen hlater
    have hcount : inSpan stop _ = inSpan stop _ := hperm.countP_eq _
    have hbefore : inSpan stop recorded ≤ inSpan stop before := by
      rw [h.eq]
      exact inSpan_filter_le stop _ before
    rw [hcount, inSpan_onePass, hrec, List.drop_left, inSpan_append, inSpan_append,
      inSpan_append] at hle
    exact of_inSpan_le_filter (by omega)
  intro t ht
  rw [← h.late_iff]
  exact ⟨⟨hall t ht, fun hlate => (hin t ht hlate).1⟩, fun hlt => (hin t ht (hall t ht hlt)).2⟩

theorem total_perm_iff {stop : Int} {seens : List (List Turn)}
    (hlen : ∀ t ∈ all, t.start ≤ t.finish) (hkept : Kept stop recorded before)
    (hgrow : (before :: (seens ++ [all])).Pairwise (· <+: ·)) :
    (total stop all recorded seens).Perm (closing stop [] all) ↔
      CountsOnce stop all before seens := by
  induction seens generalizing recorded before with
  | nil =>
      obtain ⟨fresh, rfl⟩ : before <+: all := (List.pairwise_cons.mp hgrow).1 all (by simp)
      rw [CountsOnce, List.drop_left]
      exact hkept.closing_perm_iff
  | cons seen later ih =>
      obtain ⟨hbefore, hlater⟩ := List.pairwise_cons.mp hgrow
      obtain ⟨fresh, rfl⟩ : before <+: seen := hbefore seen (by simp)
      obtain ⟨rest, rfl⟩ : before ++ fresh <+: all := (List.pairwise_cons.mp hlater).1 all (by simp)
      have hseen : ∀ t ∈ before ++ fresh, t.start ≤ t.finish := fun t ht =>
        hlen t (List.mem_append_left _ ht)
      show (total stop _ (recordSeen recorded (before ++ fresh)) later).Perm _ ↔ _
      rw [CountsOnce, List.drop_left]
      constructor
      · intro hperm
        have hnew := hkept.fresh_of_perm hlen hlater hperm
        exact ⟨hnew, (ih (hkept.record hseen hnew) hlater).mp hperm⟩
      · rintro ⟨hnew, hrest⟩
        exact (ih (hkept.record hseen hnew) hlater).mpr hrest

end Recordings

/-! ## Transcripts -/

section Transcripts

variable (records : List TranscriptRecord) (start now : Int)

theorem completeAt_mono {m n : Nat} (h : m ≤ n) :
    completeAt records start m <+: completeAt records start n :=
  (turns_take_mono records h).filter _

theorem completeAt_prefix_all (n : Nat) :
    completeAt records start n <+: startedIn start (turns records).all :=
  (turns_take_prefix_all records n).filter _

theorem recordedTurns_cuts (cuts : List Nat) (payloads : List (List Turn)) :
    recordedTurns
        (cuts.foldl (fun payloads n => recordOpenTurns start payloads (records.take n)) payloads) =
      (cuts.map (completeAt records start)).foldl recordSeen (recordedTurns payloads) := by
  induction cuts generalizing payloads with
  | nil => rfl
  | cons n cuts ih =>
      rw [List.foldl_cons, ih, recordedTurns_recordOpenTurns]
      rfl

/-- The turns recorded at growing prefixes and at the close are those of one pass, each as often, exactly
when they meet the condition. -/
theorem turns_recorded_once_iff (cuts : List Nat) (hgrow : cuts.Pairwise (· ≤ ·)) (inferred : Bool) :
    (recordedInTotal records cuts inferred start now).Perm
        (turnsInOnePass records inferred start now) ↔
      CountsOnce (closeEnd inferred records start now) (startedIn start (turns records).all) []
        (cuts.map (completeAt records start)) := by
  rw [recordedInTotal, turnsInOnePass, recordedTurns_closeTurns, recordedTurns_closeTurns,
    recordedTurns_cuts]
  refine total_perm_iff ?_ ⟨rfl, by simp [recordedTurns], fun t ht => by cases ht⟩ ?_
  · exact fun t ht => turns_start_le records t (List.mem_of_mem_filter ht)
  · rw [List.pairwise_cons, List.pairwise_append]
    refine ⟨fun s _ => List.nil_prefix, ?_, List.pairwise_singleton _ _, ?_⟩
    · exact List.pairwise_map.mpr (hgrow.imp (completeAt_mono records start))
    · intro seen hseen whole hwhole
      obtain ⟨n, _, rfl⟩ := List.mem_map.mp hseen
      rw [List.mem_singleton] at hwhole
      rw [hwhole]
      exact completeAt_prefix_all records start n

end Transcripts

/-- An input and its output, and at the millisecond of that output the next input. -/
def sameMillisecond : List TranscriptRecord :=
  [⟨0, .input⟩, ⟨5, .output⟩, ⟨5, .input⟩, ⟨9, .output⟩]

/-- Read after the second input, the first turn is recorded; the second starts where it ended, and is
recorded neither then nor at the close. -/
theorem second_turn_dropped : (sameMillisecond.map (·.at')).Pairwise (· ≤ ·) ∧
    recordedInTotal sameMillisecond [3] false 0 10 = [⟨0, 5⟩] ∧
    turnsInOnePass sameMillisecond false 0 10 = [⟨0, 5⟩, ⟨5, 9⟩] ∧
    ¬(recordedInTotal sameMillisecond [3] false 0 10).Perm
      (turnsInOnePass sameMillisecond false 0 10) := by decide

/-- With a millisecond in between both are recorded, one at a recording and one at the close. -/
theorem turns_recorded_once_iff_apart :
    (recordedInTotal [⟨0, .input⟩, ⟨5, .output⟩, ⟨6, .input⟩, ⟨9, .output⟩] [1, 3, 3] false 0 10).Perm
      (turnsInOnePass [⟨0, .input⟩, ⟨5, .output⟩, ⟨6, .input⟩, ⟨9, .output⟩] false 0 10) :=
  (turns_recorded_once_iff _ 0 10 [1, 3, 3] (by decide) false).mpr (by decide)

end Dagq.Sessions
