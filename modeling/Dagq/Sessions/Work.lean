/-
# Dagq.Sessions.Work -- the breakdown gives every millisecond to what the session was at.

All stretches start and end at bounds, so none changes within a piece between two neighbouring bounds;
the foremost one over a piece is the foremost one over each of its milliseconds.
-/
import Dagq.Sessions.Activity

namespace Dagq.Worktime

open Lib

variable {records : List WorkRecord} {from_ to_ t : Int} {category c : Category}

/-! ## What a millisecond is spent on -/

theorem mem_categories (category : Category) : category ∈ categories := by
  cases category <;> decide

theorem order_inj (h : order category = order c) : category = c :=
  (List.idxOf_inj (mem_categories category)).mp h

theorem SpentOn.unique (h : SpentOn records from_ to_ t category)
    (h' : SpentOn records from_ to_ t c) : category = c := by
  rcases h with ⟨rank, hon, hfirst⟩ | ⟨hnone, rfl⟩
  · rcases h' with ⟨rank', hon', hfirst'⟩ | ⟨hnone, _⟩
    · have hij := hfirst rank' c hon'
      have hji := hfirst' rank category hon
      refine order_inj ?_
      rcases hij with hlt | ⟨heq, hle⟩
      · rcases hji with hlt' | ⟨heq', _⟩
        · omega
        · rw [heq'] at hlt
          omega
      · subst heq
        rcases hji with hlt' | ⟨_, hle'⟩ <;> omega
    · exact absurd hon (hnone rank category)
  · rcases h' with ⟨rank', hon', _⟩ | ⟨_, rfl⟩
    · exact absurd hon' (hnone rank' c)
    · rfl

/-- Every stretch has the place of a rank. -/
theorem exists_rank {i : Interval} (hi : i ∈ stretches records from_ to_) :
    ∃ rank : Rank, i.priority = rank.place := by
  rcases List.mem_append.mp hi with hi | hi
  · obtain ⟨command, _, rfl⟩ := List.mem_map.mp hi
    show ∃ rank : Rank, command.priority = rank.place
    unfold Command.priority
    split
    · exact ⟨.subagent, rfl⟩
    · split
      · exact ⟨.background, rfl⟩
      · exact ⟨.foreground, rfl⟩
  · obtain ⟨pair, _, rfl⟩ := List.mem_map.mp hi
    exact ⟨.model, rfl⟩

/-- What is spent on a stretch that none over the instant comes before. -/
theorem spentOn_of_first (ht : from_ ≤ t ∧ t < to_) {i : Interval}
    (hi : i ∈ stretches records from_ to_) (hcovers : i.start ≤ t ∧ t < i.stop)
    (hfirst : ∀ j ∈ stretches records from_ to_, j.start ≤ t ∧ t < j.stop →
      i.priority < j.priority ∨ i.priority = j.priority ∧ order i.category ≤ order j.category) :
    SpentOn records from_ to_ t i.category := by
  obtain ⟨rank, hrank⟩ := exists_rank hi
  refine .inl ⟨rank, (goesOn_iff ht).mpr ⟨i, hi, hcovers, hrank, rfl⟩, fun rank' category' hon => ?_⟩
  obtain ⟨j, hj, hover, hplace, rfl⟩ := (goesOn_iff ht).mp hon
  have hle := hfirst j hj hover
  rw [hrank, hplace] at hle
  exact hle.imp_right fun h => ⟨Rank.place_inj h.1, h.2⟩

theorem spentOn_idle (ht : from_ ≤ t ∧ t < to_)
    (hnone : ∀ j ∈ stretches records from_ to_, ¬(j.start ≤ t ∧ t < j.stop)) :
    SpentOn records from_ to_ t .idle := by
  refine .inr ⟨fun rank category hon => ?_, rfl⟩
  obtain ⟨j, hj, hcovers, _⟩ := (goesOn_iff ht).mp hon
  exact hnone j hj hcovers

/-! ## The sorted stretches -/

theorem Interval.le_iff {a b : Interval} : a.le b = true ↔ a.priority < b.priority ∨
    (a.priority = b.priority ∧ (order a.category < order b.category ∨
      (order a.category = order b.category ∧ (a.start < b.start ∨
        (a.start = b.start ∧ a.stop ≤ b.stop))))) := by
  simp only [Interval.le, Bool.or_eq_true, Bool.and_eq_true, decide_eq_true_eq]

theorem intervals_sorted : (intervals records from_ to_).Pairwise fun a b => a.le b = true := by
  refine List.pairwise_mergeSort (fun a b c hab hbc => ?_) (fun a b => ?_) _
  · rw [Interval.le_iff] at *
    omega
  · rw [Bool.or_eq_true, Interval.le_iff, Interval.le_iff]
    omega

/-- Of a sorted list the first that fits is before the others that fit. -/
theorem le_of_find?_eq_some {α : Type} {r : α → α → Prop} {p : α → Bool} {l : List α} {x y : α}
    (hsorted : l.Pairwise r) (hfind : l.find? p = some x) (hy : y ∈ l) (hp : p y = true) :
    x = y ∨ r x y := by
  induction l with
  | nil => exact absurd hy List.not_mem_nil
  | cons z l ih =>
      obtain ⟨hz, hrest⟩ := List.pairwise_cons.mp hsorted
      rw [List.find?_cons] at hfind
      cases hpz : p z with
      | true =>
          rw [hpz] at hfind
          obtain rfl := Option.some.inj hfind
          rcases List.mem_cons.mp hy with rfl | hy
          · exact .inl rfl
          · exact .inr (hz y hy)
      | false =>
          rw [hpz] at hfind
          rcases List.mem_cons.mp hy with rfl | hy
          · rw [hp] at hpz
            cases hpz
          · exact ih hrest hfind hy

theorem mem_intervals {i : Interval} : i ∈ intervals records from_ to_ ↔
    i.start < i.stop ∧ ∃ s ∈ stretches records from_ to_,
      i = { s with start := max s.start from_, stop := min s.stop to_ } := by
  unfold intervals
  rw [List.mem_mergeSort, List.mem_filter, List.mem_map]
  constructor
  · rintro ⟨⟨s, hs, rfl⟩, hlt⟩
    exact ⟨of_decide_eq_true hlt, s, hs, rfl⟩
  · rintro ⟨hlt, s, hs, rfl⟩
    exact ⟨⟨s, hs, rfl⟩, decide_eq_true hlt⟩

/-- The category of the first stretch over an instant. -/
def pickAt (intervals : List Interval) (t : Int) : Category :=
  ((intervals.find? fun i => i.start ≤ t && t < i.stop).map (·.category)).getD .idle

/-- The first of the cut stretches over an instant tells what it is spent on. -/
theorem spentOn_pickAt (records : List WorkRecord) (ht : from_ ≤ t ∧ t < to_) :
    SpentOn records from_ to_ t (pickAt (intervals records from_ to_) t) := by
  unfold pickAt
  -- A stretch that is over the instant still is when cut to the span.
  have hover {s : Interval} (hs : s ∈ stretches records from_ to_) (hcovers : s.start ≤ t ∧ t < s.stop) :
      { s with start := max s.start from_, stop := min s.stop to_ } ∈ intervals records from_ to_ ∧
        (max s.start from_ ≤ t ∧ t < min s.stop to_) := by
    have hboth : max s.start from_ ≤ t ∧ t < min s.stop to_ := by omega
    refine ⟨mem_intervals.mpr ⟨?_, s, hs, rfl⟩, hboth⟩
    show max s.start from_ < min s.stop to_
    omega
  cases hfind : (intervals records from_ to_).find? fun i => i.start ≤ t && t < i.stop with
  | none =>
      refine spentOn_idle ht fun s hs hcovers => ?_
      obtain ⟨hmem, hlow, hhigh⟩ := hover hs hcovers
      have hnot := List.find?_eq_none.mp hfind _ hmem
      exact hnot (by rw [Bool.and_eq_true]; exact ⟨decide_eq_true hlow, decide_eq_true hhigh⟩)
  | some i =>
      obtain ⟨_, s, hs, rfl⟩ := mem_intervals.mp (List.mem_of_find?_eq_some hfind)
      have hpred := List.find?_some hfind
      rw [Bool.and_eq_true, decide_eq_true_eq, decide_eq_true_eq] at hpred
      dsimp only at hpred
      refine spentOn_of_first (i := s) ht hs ⟨by omega, by omega⟩ fun j hj hcovers => ?_
      obtain ⟨hmem, hlow, hhigh⟩ := hover hj hcovers
      have hle := le_of_find?_eq_some intervals_sorted hfind hmem
        (by rw [Bool.and_eq_true]; exact ⟨decide_eq_true hlow, decide_eq_true hhigh⟩)
      rcases hle with heq | hle
      · have hpriority := congrArg Interval.priority heq
        have hcategory := congrArg Interval.category heq
        dsimp only at hpriority hcategory
        exact .inr ⟨hpriority, hcategory ▸ Nat.le_refl _⟩
      · rw [Interval.le_iff] at hle
        dsimp only at hle
        omega

theorem spentOn_iff (ht : from_ ≤ t ∧ t < to_) : SpentOn records from_ to_ t category ↔
    pickAt (intervals records from_ to_) t = category := by
  have hat := spentOn_pickAt records ht
  constructor
  · intro h
    exact hat.unique h
  · rintro rfl
    exact hat

/-! ## The pieces -/

theorem mem_bounds {intervals : List Interval} {x : Int} : x ∈ bounds intervals from_ to_ ↔
    (∃ i ∈ intervals, x = i.start ∨ x = i.stop) ∨ x = from_ ∨ x = to_ := by
  unfold bounds
  rw [Pieces.mem_dedupRuns, List.mem_mergeSort, List.mem_append, List.mem_flatMap]
  simp

theorem bounds_strict (intervals : List Interval) (from_ to_ : Int) :
    (bounds intervals from_ to_).Pairwise (· < ·) := by
  refine Pieces.dedupRuns_strict ?_
  refine (List.pairwise_mergeSort (fun a b c hab hbc => ?_) (fun a b => ?_) _).imp of_decide_eq_true
  · rw [decide_eq_true_eq] at *
    omega
  · rw [Bool.or_eq_true, decide_eq_true_eq, decide_eq_true_eq]
    omega

/-- The first bound is the start of the span and the last one its end. -/
theorem bounds_eq (records : List WorkRecord) (h : from_ ≤ to_) : ∃ rest,
    bounds (intervals records from_ to_) from_ to_ = from_ :: rest ∧
      (from_ :: rest).getLast (List.cons_ne_nil from_ rest) = to_ := by
  have hwithin {x : Int} (hx : x ∈ bounds (intervals records from_ to_) from_ to_) :
      from_ ≤ x ∧ x ≤ to_ := by
    rcases mem_bounds.mp hx with ⟨i, hi, heq⟩ | heq
    · obtain ⟨hlt, s, _, rfl⟩ := mem_intervals.mp hi
      dsimp only at hlt heq
      omega
    · omega
  have hfrom : from_ ∈ bounds (intervals records from_ to_) from_ to_ :=
    mem_bounds.mpr (.inr (.inl rfl))
  have hto : to_ ∈ bounds (intervals records from_ to_) from_ to_ := mem_bounds.mpr (.inr (.inr rfl))
  have hstrict := bounds_strict (intervals records from_ to_) from_ to_
  cases hbounds : bounds (intervals records from_ to_) from_ to_ with
  | nil =>
      rw [hbounds] at hfrom
      exact absurd hfrom List.not_mem_nil
  | cons first rest =>
      rw [hbounds] at hfrom hto hstrict hwithin
      -- The bounds ascend within the window, so they begin and end with it.
      have hfirst : first = from_ := by
        rcases List.mem_cons.mp hfrom with heq | hmem
        · exact heq.symm
        · have hlt := (List.pairwise_cons.mp hstrict).1 from_ hmem
          have hge := (hwithin List.mem_cons_self).1
          omega
      subst hfirst
      refine ⟨rest, rfl, ?_⟩
      have hlast := (hwithin (List.getLast_mem (List.cons_ne_nil first rest))).2
      have hle : to_ ≤ (first :: rest).getLast (List.cons_ne_nil first rest) :=
        (hstrict.imp Int.le_of_lt).rel_getLast hto
      omega

theorem pick_eq_pickAt {piece : Int × Int}
    (h : piece ∈ Pieces.pieces (bounds (intervals records from_ to_) from_ to_))
    (ht : piece.1 ≤ t ∧ t < piece.2) :
    pick (intervals records from_ to_) piece = pickAt (intervals records from_ to_) t := by
  have hsame : ∀ i ∈ intervals records from_ to_,
      (decide (i.start ≤ piece.1) && decide (piece.2 ≤ i.stop)) =
        (decide (i.start ≤ t) && decide (t < i.stop)) := by
    intro i hi
    rw [Bool.eq_iff_iff, Bool.and_eq_true, Bool.and_eq_true, decide_eq_true_eq, decide_eq_true_eq,
      decide_eq_true_eq, decide_eq_true_eq]
    exact Pieces.covers_iff (bounds_strict _ _ _) h (mem_bounds.mpr (.inl ⟨i, hi, .inl rfl⟩))
      (mem_bounds.mpr (.inl ⟨i, hi, .inr rfl⟩)) ht
  unfold pick pickAt
  rw [← List.head?_filter, ← List.head?_filter, List.filter_congr hsame]

/-! ## Adding up -/

/-- What the pieces add to a category is the length of its own. -/
theorem foldl_add (pickOf : Int × Int → Category) (pieces : List (Int × Int)) (millis : Millis) :
    ((pieces.foldl (fun millis piece => Millis.add millis (pickOf piece) (piece.2 - piece.1)) millis)
      category).getD 0 =
        (millis category).getD 0 + Pieces.lengths (pieces.filter (pickOf · = category)) := by
  induction pieces generalizing millis with
  | nil => exact (Int.add_zero _).symm
  | cons piece pieces ih =>
      rw [List.foldl_cons, ih]
      by_cases hpick : pickOf piece = category
      · rw [List.filter_cons_of_pos (by simpa using hpick), Pieces.lengths, Millis.add,
          if_pos hpick.symm, Option.getD_some]
        omega
      · rw [List.filter_cons_of_neg (by simpa using hpick), Millis.add, if_neg fun h => hpick h.symm]

/-- Each piece is in one category. -/
theorem addUp_lengths (pickOf : Int × Int → Category) (pieces : List (Int × Int)) :
    addUp (fun c => Pieces.lengths (pieces.filter (pickOf · = c))) categories =
      Pieces.lengths pieces := by
  induction pieces with
  | nil => rfl
  | cons piece pieces ih =>
      have hsplit : (fun c => Pieces.lengths ((piece :: pieces).filter (pickOf · = c))) =
          fun c => (if pickOf piece = c then piece.2 - piece.1 else 0) +
            Pieces.lengths (pieces.filter (pickOf · = c)) := by
        funext c
        by_cases hpick : pickOf piece = c
        · rw [List.filter_cons_of_pos (by simpa using hpick), Pieces.lengths, if_pos hpick]
        · rw [List.filter_cons_of_neg (by simpa using hpick), if_neg hpick, Int.zero_add]
      have hnodup : categories.Nodup := by decide
      rw [hsplit, addUp_add, addUp_single hnodup (mem_categories _), ih, Pieces.lengths]

/-! ## Commands -/

theorem clamp_bounds {low high x : Int} (h : low ≤ high) :
    low ≤ clamp low high x ∧ clamp low high x ≤ high := by
  unfold clamp
  split
  · omega
  · split <;> omega

/-- A call ends in the span, after it started. -/
theorem commands_stop {command : Command} (h : command ∈ commands records from_ to_) :
    from_ ≤ command.start ∧ command.start ≤ command.stop ∧ command.stop ≤ to_ := by
  obtain ⟨record, hmem, huse⟩ := List.mem_flatMap.mp h
  obtain ⟨toolUse, _, rfl⟩ := List.mem_map.mp huse
  have hwithin := (List.mem_filter.mp hmem).2
  rw [Bool.and_eq_true, Bool.and_eq_true, decide_eq_true_eq, decide_eq_true_eq] at hwithin
  obtain ⟨stop, hstop⟩ : ∃ stop : Option Int, (commandOf records to_ record toolUse).stop =
      (stop.map (clamp record.at' to_)).getD to_ := ⟨_, rfl⟩
  have hstart : (commandOf records to_ record toolUse).start = record.at' := rfl
  rw [hstart, hstop]
  refine ⟨hwithin.1.2, ?_⟩
  cases stop with
  | none => exact ⟨Int.le_of_lt hwithin.2, Int.le_refl _⟩
  | some stop => exact clamp_bounds (Int.le_of_lt hwithin.2)

/-- What the breakdown gives a category, as the instants its pieces are at. -/
theorem breakdown_millis (h : from_ ≤ to_) (verification : List String) :
    ((breakdown records from_ to_ verification).millis category).getD 0 =
      ((Finset.Ico from_ to_).filter fun t => pickAt (intervals records from_ to_) t = category).card := by
  obtain ⟨rest, hbounds, hlast⟩ := bounds_eq records h
  have hstrict := bounds_strict (intervals records from_ to_) from_ to_
  have hpieces {piece : Int × Int} (hmem : piece ∈ Pieces.pieces (from_ :: rest)) :
      pick (intervals records from_ to_) piece = pickAt (intervals records from_ to_) piece.1 := by
    rw [← hbounds] at hmem
    exact pick_eq_pickAt hmem ⟨Int.le_refl _, (Pieces.of_mem_pieces hstrict hmem).2.2.1⟩
  -- Between two bounds the pick is the same at every moment.
  have hconst : ∀ piece ∈ Pieces.pieces (from_ :: rest), ∀ t, piece.1 ≤ t → t < piece.2 →
      (pickAt (intervals records from_ to_) t = category ↔
        pickAt (intervals records from_ to_) piece.1 = category) := by
    intro piece hmem t hlow hhigh
    rw [← hpieces hmem]
    rw [← hbounds] at hmem
    rw [pick_eq_pickAt hmem ⟨hlow, hhigh⟩]
  have hmax : max to_ from_ = to_ := max_eq_left h
  have hmillis : (breakdown records from_ to_ verification).millis =
      (Pieces.pieces (bounds (intervals records from_ to_) from_ to_)).foldl (fun millis piece =>
        Millis.add millis (pick (intervals records from_ to_) piece) (piece.2 - piece.1))
        fun _ => none := by
    unfold breakdown
    dsimp only
    rw [hmax]
  rw [hbounds] at hstrict hmillis
  have hcount := Pieces.lengths_filter hstrict hconst
  rw [hlast] at hcount
  rw [hmillis, foldl_add, ← hcount, Option.getD_none, Int.zero_add]
  congr 1
  refine List.filter_congr fun piece hmem => ?_
  rw [hpieces hmem]

/-- One command for each call the main session made in the span, in the transcript's order. -/
theorem commands_calls (records : List WorkRecord) (from_ to_ : Int) :
    (commands records from_ to_).map (fun command => (command.toolUseId, command.start)) =
      (records.filter fun record => !record.sidechain && from_ ≤ record.at' && record.at' < to_).flatMap
        fun record => record.toolUses.map fun call => (call.id, record.at') := by
  unfold commands
  rw [List.map_flatMap]
  congr 1
  funext record
  rw [List.map_map]
  rfl

open Classical in
/-- Every millisecond of the span has one category, that of what the session was at, the foremost of
what went on; each category is given as many milliseconds as are its own, and they add up to the span.
Every call the main session made in the span is one command, which ends in the span, after it
started. -/
theorem work_breakdown_pointwise (records : List WorkRecord) (from_ to_ : Int)
    (verification : List String) :
    (∀ t, from_ ≤ t → t < to_ → ∃ category, SpentOn records from_ to_ t category ∧
      ∀ c, SpentOn records from_ to_ t c → c = category) ∧
    (∀ category, ((breakdown records from_ to_ verification).millis category).getD 0 =
      ((Finset.Ico from_ to_).filter fun t => SpentOn records from_ to_ t category).card) ∧
    (addUp (fun category => ((breakdown records from_ to_ verification).millis category).getD 0)
        categories = (breakdown records from_ to_ verification).totalMillis ∧
      (breakdown records from_ to_ verification).totalMillis = max to_ from_ - from_) ∧
    (breakdown records from_ to_ verification).commands.map
        (fun command => (command.toolUseId, command.start)) =
      (records.filter fun record => !record.sidechain && from_ ≤ record.at' && record.at' < to_).flatMap
        (fun record => record.toolUses.map fun call => (call.id, record.at')) ∧
    ∀ command ∈ (breakdown records from_ to_ verification).commands,
      from_ ≤ command.start ∧ command.start ≤ command.stop ∧ command.stop ≤ to_ := by
  -- An end before the start is read as the start.
  have hends : breakdown records from_ to_ verification =
      breakdown records from_ (max to_ from_) verification := by
    unfold breakdown
    rw [max_eq_left (le_max_right to_ from_)]
  have hcommands : (breakdown records from_ to_ verification).commands =
      commands records from_ (max to_ from_) := rfl
  refine ⟨fun t hlow hhigh => ?_, fun category => ?_, ⟨?_, rfl⟩, ?_, fun command hmem => ?_⟩
  · exact ⟨_, spentOn_pickAt records ⟨hlow, hhigh⟩,
      fun c hc => hc.unique (spentOn_pickAt records ⟨hlow, hhigh⟩)⟩
  · rcases Int.le_total from_ to_ with h | h
    · rw [breakdown_millis h]
      congr 2
      exact Finset.filter_congr fun t ht => (spentOn_iff (Finset.mem_Ico.mp ht)).symm
    · rw [hends, breakdown_millis (le_max_right to_ from_), max_eq_right h, Finset.Ico_self,
        Finset.Ico_eq_empty_of_le h]
      rfl
  · have hle := le_max_right to_ from_
    obtain ⟨rest, hbounds, hlast⟩ := bounds_eq records hle
    have hlength := Pieces.lengths_pieces from_ rest
    rw [hlast, ← hbounds] at hlength
    have hmillis (category : Category) :
        ((breakdown records from_ to_ verification).millis category).getD 0 =
          Pieces.lengths ((Pieces.pieces (bounds (intervals records from_ (max to_ from_)) from_
            (max to_ from_))).filter (pick (intervals records from_ (max to_ from_)) · = category)) := by
      unfold breakdown
      dsimp only
      rw [foldl_add, Option.getD_none, Int.zero_add]
    rw [funext hmillis, addUp_lengths]
    exact hlength
  · rw [hcommands]
    rcases Int.le_total from_ to_ with h | h
    · rw [max_eq_left h]
      exact commands_calls records from_ to_
    · -- No record is in a span that ends before it starts.
      rw [max_eq_right h, commands_calls]
      congr 1
      refine List.filter_congr fun record _ => ?_
      rw [Bool.eq_iff_iff]
      simp only [Bool.and_eq_true, decide_eq_true_eq]
      omega
  · rw [hcommands] at hmem
    rcases Int.le_total from_ to_ with h | h
    · rw [max_eq_left h] at hmem
      exact commands_stop hmem
    · rw [max_eq_right h] at hmem
      obtain ⟨_, _, _, hspan, _⟩ := mem_commands.mp hmem
      omega

/-- A prompt; a test in the background, a look at git before it is over, and a subagent that outlives
it. -/
def overlapping : List WorkRecord := [
  { at' := 0, role := .input },
  { at' := 10, role := .output, assistant := true,
    toolUses := [{ id := "a", name := "Bash", command := some "cargo test", background := true }] },
  { at' := 20, role := .output, assistant := true,
    toolUses := [{ id := "b", name := "Bash", command := some "git status" }] },
  { at' := 30, role := .output, toolResults := [{ toolUseId := "b" }] },
  { at' := 35, role := .output, assistant := true, toolUses := [{ id := "c", name := "Agent" }] },
  { at' := 50, role := .input, notification := some { toolUseId := "a", status := some "completed" } },
  { at' := 60, role := .output, toolResults := [{ toolUseId := "c" }] },
  { at' := 70, role := .output, assistant := true }]

theorem stretches_overlapping : stretches overlapping 0 80 = [⟨10, 50, 2, .test⟩, ⟨20, 30, 1, .git⟩,
    ⟨35, 60, 3, .subagent⟩, ⟨0, 10, 4, .model⟩, ⟨10, 20, 4, .model⟩, ⟨30, 35, 4, .model⟩,
    ⟨60, 70, 4, .model⟩] := by
  unfold stretches modelIntervals
  rw [List.mergeSort_of_pairwise (by decide)]
  decide +kernel

theorem work_breakdown_pointwise_overlapping :
    (∃ category, SpentOn overlapping 0 80 25 category ∧
      ∀ c, SpentOn overlapping 0 80 25 c → c = category) ∧
    SpentOn overlapping 0 80 5 .model ∧ SpentOn overlapping 0 80 15 .test ∧
    SpentOn overlapping 0 80 25 .git ∧ SpentOn overlapping 0 80 40 .test ∧
    SpentOn overlapping 0 80 55 .subagent ∧ SpentOn overlapping 0 80 65 .model ∧
    SpentOn overlapping 0 80 75 .idle := by
  have hfirst {t : Int} (ht : 0 ≤ t ∧ t < 80) (i : Interval)
      (h : i ∈ stretches overlapping 0 80 ∧ (i.start ≤ t ∧ t < i.stop) ∧
        ∀ j ∈ stretches overlapping 0 80, j.start ≤ t ∧ t < j.stop →
          i.priority < j.priority ∨ i.priority = j.priority ∧ order i.category ≤ order j.category) :
      SpentOn overlapping 0 80 t i.category := spentOn_of_first ht h.1 h.2.1 h.2.2
  have hidle {t : Int} (ht : 0 ≤ t ∧ t < 80)
      (hnone : ∀ j ∈ stretches overlapping 0 80, ¬(j.start ≤ t ∧ t < j.stop)) :
      SpentOn overlapping 0 80 t .idle := spentOn_idle ht hnone
  rw [stretches_overlapping] at hfirst hidle
  refine ⟨(work_breakdown_pointwise overlapping 0 80 []).1 25 (by decide) (by decide),
    hfirst (by decide) ⟨0, 10, 4, .model⟩ (by decide), hfirst (by decide) ⟨10, 50, 2, .test⟩ (by decide),
    hfirst (by decide) ⟨20, 30, 1, .git⟩ (by decide), hfirst (by decide) ⟨10, 50, 2, .test⟩ (by decide),
    hfirst (by decide) ⟨35, 60, 3, .subagent⟩ (by decide),
    hfirst (by decide) ⟨60, 70, 4, .model⟩ (by decide), hidle (by decide) (by decide)⟩

end Dagq.Worktime
