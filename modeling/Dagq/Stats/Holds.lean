/-
# Dagq.Stats.Holds -- the time held, as intervals of the log.

A hold lasts from its event to the first event after it that ends it.  The statistics find these
intervals in one pass; here they are read off the log one held event at a time, and the pass is proved to
count each of them once.
-/
import Dagq.Domain.ClaimHold
import Dagq.Lib.Sums

namespace Dagq.Holds

open Lib

variable {Num : Type} {kinds : HoldKinds} {w : Window} {stats : ClaimHolds Num}
  {event held : RunEvent Num} {events rest : List (RunEvent Num)}

/-! ## Intervals -/

/-- A hold and the time it lasted, in milliseconds, at most to the window's end. -/
structure HoldInterval (Num : Type) where
  held : RunEvent Num
  start : Int
  stop : Int

/-- Whole seconds; a hold that starts after the window's end lasts none of it. -/
def HoldInterval.secs (i : HoldInterval Num) : Int := max (i.stop - i.start) 0 / 1000

/-- Whether an event ends a hold: the next one, a resumption, or the stop of its supervisor. -/
def ends (kinds : HoldKinds) (held event : RunEvent Num) : Bool :=
  event.kind = kinds.held || event.kind = kinds.resumed ||
    (event.kind = "supervisor_stopped" && held.payload.supervisor = event.payload.supervisor)

/-- When a hold ends, given the events after it. -/
def endOf (kinds : HoldKinds) (w : Window) (held : RunEvent Num) (rest : List (RunEvent Num)) : Int :=
  match rest.find? (ends kinds held) with
  | some event => min (event.at' w.endMs) w.endMs
  | none => w.endMs

def intervalOf (kinds : HoldKinds) (w : Window) (held : RunEvent Num) (rest : List (RunEvent Num)) :
    HoldInterval Num where
  held := held
  start := held.at' w.endMs
  stop := endOf kinds w held rest

/-- The intervals of a log, oldest first. -/
def intervals (kinds : HoldKinds) (w : Window) : List (RunEvent Num) → List (HoldInterval Num)
  | [] => []
  | event :: rest =>
      if event.kind = kinds.held then intervalOf kinds w event rest :: intervals kinds w rest
      else intervals kinds w rest

/-- The intervals of the holds that started in the window. -/
def windowIntervals (kinds : HoldKinds) (w : Window) (events : List (RunEvent Num)) :
    List (HoldInterval Num) :=
  (intervals kinds w events).filter fun i => w.has i.held

/-! ## The pass finds the intervals -/

/-- An interval counted up. -/
def ClaimHolds.add (stats : ClaimHolds Num) (i : HoldInterval Num) : ClaimHolds Num :=
  { stats with
    byReason := addHold i.held.heldReason i.secs stats.byReason
    count := stats.count + 1
    secs := stats.secs + i.secs }

/-- What is counted, whatever hold is shown as in progress. -/
def ClaimHolds.sums (stats : ClaimHolds Num) : Nat × Int × List (String × ReasonHolds) :=
  (stats.count, stats.secs, stats.byReason)

/-- A hold and when it began, as the pass keeps it. -/
def stamped (w : Window) (held : RunEvent Num) : RunEvent Num × Int := (held, held.at' w.endMs)

/-- The end of a pass. -/
def Holding.result (w : Window) (h : Holding Num) : ClaimHolds Num :=
  match h.current with
  | some held => ({ h.stats with held := some held.1.openHold } : ClaimHolds Num).close w held w.endMs
  | none => h.stats

/-- A hold that ends is counted up when it is of the window. -/
theorem close_eq (stats : ClaimHolds Num) (held : RunEvent Num) (stop : Int) :
    stats.close w (stamped w held) stop =
      if w.has held then stats.add { held, start := held.at' w.endMs, stop := min stop w.endMs }
      else stats := by
  unfold ClaimHolds.close stamped
  cases w.has held
  · rfl
  · rfl

/-- Counting up the intervals of the window, one at a time. -/
def ClaimHolds.addAll (w : Window) (stats : ClaimHolds Num) (is : List (HoldInterval Num)) :
    ClaimHolds Num :=
  (is.filter fun i => w.has i.held).foldl ClaimHolds.add stats

theorem addAll_cons (i : HoldInterval Num) (is : List (HoldInterval Num)) :
    stats.addAll w (i :: is) = (if w.has i.held then stats.add i else stats).addAll w is := by
  unfold ClaimHolds.addAll
  rw [List.filter_cons]
  split_ifs
  · rfl
  · rfl

theorem observe_ends (h : ends kinds held event = true) :
    Holding.observe kinds w { stats, current := some (stamped w held) } event =
      { stats := stats.close w (stamped w held) (event.at' w.endMs)
        current := (if event.kind = kinds.held then some event else none).map (stamped w) } := by
  unfold Holding.observe
  dsimp only
  split_ifs with hheld hresumed hstopped
  · rfl
  · rfl
  · rfl
  · simp only [ends, hheld, hresumed, decide_false, Bool.false_or] at h
    exact absurd h hstopped

theorem observe_goes_on (h : ends kinds held event = false) :
    Holding.observe kinds w { stats, current := some (stamped w held) } event =
      { stats, current := some (stamped w held) } := by
  simp only [ends, Bool.or_eq_false_iff, decide_eq_false_iff_not] at h
  obtain ⟨⟨hheld, hresumed⟩, hstopped⟩ := h
  unfold Holding.observe
  rw [if_neg hheld, if_neg hresumed]
  exact if_neg (Bool.eq_false_iff.mp hstopped)

/-- With no hold in progress, only a hold is looked at. -/
theorem observe_idle (stats : ClaimHolds Num) (event : RunEvent Num) :
    Holding.observe kinds w { stats } event =
      { stats, current := (if event.kind = kinds.held then some event else none).map (stamped w) } := by
  unfold Holding.observe
  dsimp only [Holding.close]
  split_ifs with hheld hresumed hstopped
  · rfl
  · rfl
  · exact absurd hstopped (by simp)
  · rfl

/-- The intervals of a log with a hold in progress before it. -/
def intervalsFrom (kinds : HoldKinds) (w : Window) (held : Option (RunEvent Num))
    (events : List (RunEvent Num)) : List (HoldInterval Num) :=
  (held.map fun held => intervalOf kinds w held events).toList ++ intervals kinds w events

theorem intervals_cons (event : RunEvent Num) (rest : List (RunEvent Num)) :
    intervals kinds w (event :: rest) =
      intervalsFrom kinds w (if event.kind = kinds.held then some event else none) rest := by
  unfold intervals intervalsFrom
  split_ifs
  · rfl
  · rfl

/-- What ends a hold is its end. -/
theorem intervalOf_ends (h : ends kinds held event = true) :
    intervalOf kinds w held (event :: rest) =
      { held, start := held.at' w.endMs, stop := min (event.at' w.endMs) w.endMs } := by
  unfold intervalOf endOf
  rw [List.find?_cons_of_pos h]

theorem intervalsFrom_goes_on (h : ends kinds held event = false) :
    intervalsFrom kinds w (some held) (event :: rest) = intervalsFrom kinds w (some held) rest := by
  have hkind : event.kind ≠ kinds.held := by
    simp only [ends, Bool.or_eq_false_iff, decide_eq_false_iff_not] at h
    exact h.1.1
  unfold intervalsFrom
  rw [intervals, if_neg hkind, Option.map_some, Option.map_some, intervalOf, intervalOf, endOf, endOf,
    List.find?_cons_of_neg (Bool.eq_false_iff.mp h)]

/-- The pass counts each interval of the window once, in order. -/
theorem result_foldl (events : List (RunEvent Num)) (stats : ClaimHolds Num)
    (held : Option (RunEvent Num)) :
    (Holding.result w
        (events.foldl (Holding.observe kinds w) { stats, current := held.map (stamped w) })).sums =
      (stats.addAll w (intervalsFrom kinds w held events)).sums := by
  -- On the events left, for every hold that stands when they begin.
  induction events generalizing stats held with
  | nil =>
      cases held with
      | none => rfl
      | some held =>
          show (ClaimHolds.close _ w (stamped w held) w.endMs).sums =
            (stats.addAll w [{ held, start := held.at' w.endMs, stop := w.endMs }]).sums
          rw [close_eq, Int.min_self, addAll_cons]
          dsimp only
          split_ifs
          · rfl
          · rfl
  | cons event rest ih =>
      rw [List.foldl_cons]
      cases held with
      | none =>
          rw [Option.map_none, observe_idle, ih, ← intervals_cons]
          rfl
      | some held =>
          cases hends : ends kinds held event with
          | true =>
              rw [Option.map_some, observe_ends hends, ih, ← intervals_cons, close_eq]
              show _ = (stats.addAll w (intervalOf kinds w held (event :: rest) ::
                intervals kinds w (event :: rest))).sums
              rw [addAll_cons, intervalOf_ends hends]
          | false =>
              rw [Option.map_some, observe_goes_on hends, intervalsFrom_goes_on hends]
              exact ih stats (some held)

/-- The holds counted are the intervals of the window. -/
theorem holdsOf_sums (events : List (RunEvent Num)) :
    (holdsOf kinds events w).sums =
      ((windowIntervals kinds w events).foldl ClaimHolds.add {}).sums :=
  result_foldl events {} none

/-! ## The totals -/

/-- How many holds are counted under reasons. -/
def reasonCount : List (String × ReasonHolds) → Nat
  | [] => 0
  | entry :: rest => entry.2.count + reasonCount rest

def reasonSecs (byReason : List (String × ReasonHolds)) : Int := addUp (·.2.secs) byReason

theorem addHold_sums (reason : String) (secs : Int) (byReason : List (String × ReasonHolds)) :
    reasonCount (addHold reason secs byReason) = reasonCount byReason + 1 ∧
      reasonSecs (addHold reason secs byReason) = reasonSecs byReason + secs := by
  unfold reasonSecs
  induction byReason with
  | nil => exact ⟨rfl, by simp [addHold, addUp]⟩
  | cons entry rest ih =>
      obtain ⟨hcount, hsecs⟩ := ih
      unfold addHold
      split_ifs
      · simp only [reasonCount, addUp]
        omega
      · simp only [reasonCount, addUp]
        omega
      · simp only [reasonCount, addUp]
        omega

/-- Counting intervals up adds their number and their seconds, in total and under the reasons. -/
theorem foldl_add (is : List (HoldInterval Num)) (stats : ClaimHolds Num) :
    (is.foldl ClaimHolds.add stats).count = stats.count + is.length ∧
      (is.foldl ClaimHolds.add stats).secs = stats.secs + addUp HoldInterval.secs is ∧
      reasonCount (is.foldl ClaimHolds.add stats).byReason = reasonCount stats.byReason + is.length ∧
      reasonSecs (is.foldl ClaimHolds.add stats).byReason =
        reasonSecs stats.byReason + addUp HoldInterval.secs is := by
  induction is generalizing stats with
  | nil => simp [addUp]
  | cons i is ih =>
      obtain ⟨hcount, hsecs, hreasons, hreasonSecs⟩ := ih (stats.add i)
      obtain ⟨hadd, haddSecs⟩ := addHold_sums i.held.heldReason i.secs stats.byReason
      replace hcount : _ = stats.count + 1 + is.length := hcount
      replace hsecs : _ = stats.secs + i.secs + addUp HoldInterval.secs is := hsecs
      replace hreasons : _ = reasonCount (addHold i.held.heldReason i.secs stats.byReason) + is.length :=
        hreasons
      replace hreasonSecs : _ = reasonSecs (addHold i.held.heldReason i.secs stats.byReason) +
        addUp HoldInterval.secs is := hreasonSecs
      rw [List.foldl_cons, List.length_cons, addUp]
      omega

/-- The totals are those of the intervals of the window, and the reasons add up to them. -/
theorem holdsOf_totals (events : List (RunEvent Num)) :
    (holdsOf kinds events w).count = (windowIntervals kinds w events).length ∧
      (holdsOf kinds events w).secs = addUp HoldInterval.secs (windowIntervals kinds w events) ∧
      reasonCount (holdsOf kinds events w).byReason = (holdsOf kinds events w).count ∧
      reasonSecs (holdsOf kinds events w).byReason = (holdsOf kinds events w).secs := by
  have hsums : (holdsOf kinds events w).sums = _ := holdsOf_sums events
  obtain ⟨hcount, hsecs, hreasons, hreasonSecs⟩ :=
    foldl_add (windowIntervals kinds w events) ({} : ClaimHolds Num)
  unfold ClaimHolds.sums at hsums
  obtain ⟨hcount', hrest⟩ := Prod.mk.inj hsums
  obtain ⟨hsecs', hreasons'⟩ := Prod.mk.inj hrest
  rw [hcount', hsecs', hreasons', hcount, hsecs, hreasons, hreasonSecs]
  exact ⟨Nat.zero_add _, Int.zero_add _, rfl, rfl⟩

/-! ## No overlap -/

/-- What ends a hold is recorded no later than the next hold. -/
theorem endOf_le {next : RunEvent Num} (hnext : next ∈ rest) (hkind : next.kind = kinds.held)
    (htimes : rest.Pairwise fun e e' => e.at' w.endMs ≤ e'.at' w.endMs) :
    endOf kinds w held rest ≤ next.at' w.endMs := by
  have hends : ends kinds held next = true := by simp [ends, hkind]
  unfold endOf
  induction rest with
  | nil => exact absurd hnext List.not_mem_nil
  | cons event rest ih =>
      obtain ⟨hfirst, hrest⟩ := List.pairwise_cons.mp htimes
      rcases List.mem_cons.mp hnext with rfl | hlater
      · rw [List.find?_cons_of_pos hends]
        exact Int.min_le_left _ _
      · by_cases hevent : ends kinds held event = true
        · rw [List.find?_cons_of_pos hevent]
          exact (Int.min_le_left _ _).trans (hfirst next hlater)
        · rw [List.find?_cons_of_neg hevent]
          exact ih hlater hrest

/-- An interval of a log is that of one of its held events. -/
theorem mem_intervals {i : HoldInterval Num} (h : i ∈ intervals kinds w events) :
    i.held ∈ events ∧ i.held.kind = kinds.held ∧ i.start = i.held.at' w.endMs := by
  induction events with
  | nil => exact absurd h List.not_mem_nil
  | cons event rest ih =>
      unfold intervals at h
      split_ifs at h with hkind
      · rcases List.mem_cons.mp h with rfl | hrest
        · exact ⟨List.mem_cons_self, hkind, rfl⟩
        · obtain ⟨hmem, hfacts⟩ := ih hrest
          exact ⟨List.mem_cons_of_mem _ hmem, hfacts⟩
      · obtain ⟨hmem, hfacts⟩ := ih h
        exact ⟨List.mem_cons_of_mem _ hmem, hfacts⟩

/-- The held events of a log, each with its interval. -/
theorem intervals_held (events : List (RunEvent Num)) :
    (intervals kinds w events).map (·.held) = events.filter (·.kind = kinds.held) := by
  induction events with
  | nil => rfl
  | cons event rest ih =>
      unfold intervals
      split_ifs with hkind
      · rw [List.map_cons, ih, List.filter_cons, if_pos (decide_eq_true hkind)]
        rfl
      · rw [ih, List.filter_cons, if_neg fun h => hkind (of_decide_eq_true h)]

/-- In a log whose times do not go back, a hold has ended when the next one starts. -/
theorem intervals_disjoint (h : events.Pairwise fun e e' => e.at' w.endMs ≤ e'.at' w.endMs) :
    (intervals kinds w events).Pairwise fun i j => i.stop ≤ j.start := by
  induction events with
  | nil => exact .nil
  | cons event rest ih =>
      obtain ⟨_, hrest⟩ := List.pairwise_cons.mp h
      unfold intervals
      split_ifs with hkind
      · refine List.pairwise_cons.mpr ⟨fun j hj => ?_, ih hrest⟩
        obtain ⟨hmem, hheld, hstart⟩ := mem_intervals hj
        rw [hstart]
        exact endOf_le hmem hheld hrest
      · exact ih hrest

theorem windowIntervals_disjoint (h : events.Pairwise fun e e' => e.at' w.endMs ≤ e'.at' w.endMs) :
    (windowIntervals kinds w events).Pairwise fun i j => i.stop ≤ j.start :=
  (intervals_disjoint h).filter _

/-- The held events of the window. -/
def heldIn (kinds : HoldKinds) (w : Window) (events : List (RunEvent Num)) : List (RunEvent Num) :=
  events.filter fun event => w.has event && event.kind = kinds.held

theorem windowIntervals_held (events : List (RunEvent Num)) :
    (windowIntervals kinds w events).map (·.held) = heldIn kinds w events := by
  unfold windowIntervals heldIn
  rw [← List.filter_filter, ← intervals_held (w := w), List.filter_map]
  rfl

end Dagq.Holds
