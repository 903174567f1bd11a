/-
# Dagq.Landing.FollowUpsOnce -- each follow-up becomes one draft, however often it is tried.

The operations that failed are only ever added to, so when none failed in the end none failed on the
way.  Then a call records every entry it gets to that was not recorded, and adds a task for each valid
one of them; over any calls the entries with a task are the valid ones among those recorded.
-/
import Dagq.Landing.FollowUpRows
import Mathlib.Data.List.Nodup
import Mathlib.Data.List.TakeWhile

namespace Dagq.FollowUps

open Lib

variable {α : Type} {call : Call} {runId : RunId} {desk : Desk} {entry : Value} {index : Nat}

/-! ## Valid entries -/

/-- The title is a text with more than blanks, and the description is a text. -/
structure Valid (entry : Value) : Prop where
  title : ∃ text, entry.get "title" = .string text ∧ isBlank text = false
  description : ∃ text, entry.get "description" = .string text

theorem trimChars_eq_nil_iff (text : String) : trimChars text = [] ↔ isBlank text = true := by
  unfold trimChars isBlank
  rw [List.reverse_eq_nil_iff, List.dropWhile_eq_nil_iff, List.all_eq_true]
  constructor
  · intro h c hc
    by_contra hblank
    have hne : text.toList.dropWhile isWhitespace ≠ [] := fun hnil =>
      hblank (List.dropWhile_eq_nil_iff.mp hnil c hc)
    have hhead := List.head_dropWhile_not isWhitespace hne
    have hmem := h _ (List.mem_reverse.mpr (List.head_mem hne))
    rw [hhead] at hmem
    cases hmem
  · intro h c hc
    exact h c ((List.dropWhile_sublist isWhitespace).subset (List.mem_reverse.mp hc))

theorem asStr_eq_some {value : Value} {text : String} :
    value.asStr = some text ↔ value = .string text := by
  cases value with
  | string s => exact Option.some_inj.trans (by rw [Value.string.injEq])
  | _ =>
      constructor
      · intro h
        cases h
      · intro h
        cases h

theorem title_eq_empty_iff : title entry = "" ↔
    ∀ text, entry.get "title" = .string text → isBlank text = true := by
  unfold title
  cases htitle : (entry.get "title").asStr with
  | none =>
      refine ⟨fun _ text htext => ?_, fun _ => rfl⟩
      rw [htext] at htitle
      cases htitle
  | some text =>
      have htext := asStr_eq_some.mp htitle
      rw [Option.map_some, Option.getD_some, ← String.toList_eq_nil_iff, String.toList_ofList,
        trimChars_eq_nil_iff, htext]
      refine ⟨fun h text' heq => ?_, fun h => h text rfl⟩
      cases heq
      exact h

theorem skipped_eq_none_iff : skipped entry = none ↔ Valid entry := by
  unfold skipped
  split
  next hempty =>
    refine ⟨(fun h => by cases h), fun h => ?_⟩
    obtain ⟨text, htext, hblank⟩ := h.title
    rw [title_eq_empty_iff.mp hempty text htext] at hblank
    cases hblank
  next htitle =>
    split
    next hnone =>
      refine ⟨(fun h => by cases h), fun h => ?_⟩
      obtain ⟨text, htext⟩ := h.description
      rw [htext] at hnone
      cases hnone
    next hsome =>
      refine ⟨fun _ => ⟨?_, ?_⟩, fun _ => rfl⟩
      · by_contra hnot
        refine htitle (title_eq_empty_iff.mpr fun text htext => ?_)
        cases hblank : isBlank text with
        | true => rfl
        | false => exact absurd ⟨text, htext, hblank⟩ hnot
      · rw [Option.isNone_iff_eq_none] at hsome
        obtain ⟨text, htext⟩ := Option.ne_none_iff_exists'.mp hsome
        exact ⟨text, asStr_eq_some.mp htext⟩

/-! ## What a call did when nothing failed -/

theorem attempt_of_quiet {step : Step} {m : Tx α} {answer : Option α} {desk' : Desk}
    (hrun : attempt call step m desk = (answer, desk')) (hquiet : desk'.refused = []) :
    desk.refused = [] ∧ ∃ a s₀ s, m s₀ = .ok (a, s) ∧ answer = some a ∧
      desk' = { desk with store := s } := by
  have hfailed {refused : List Step} (h : refused ++ [step] = []) : False :=
    absurd (List.append_eq_nil_iff.mp h).2 (List.cons_ne_nil _ _)
  unfold attempt at hrun
  dsimp only at hrun
  split at hrun
  · cases hrun
    exact (hfailed hquiet).elim
  · split at hrun
    next a s hok =>
      cases hrun
      exact ⟨hquiet, a, _, s, hok, rfl, rfl⟩
    · cases hrun
      exact (hfailed hquiet).elim

theorem attempt_snd_of_quiet {step : Step} {m : Tx α}
    (hquiet : (attempt call step m desk).2.refused = []) : desk.refused = [] ∧
      ∃ s, (attempt call step m desk).2 = { desk with store := s } := by
  rcases hrun : attempt call step m desk with ⟨answer, desk'⟩
  rw [hrun] at hquiet
  obtain ⟨hdesk, _, _, s, _, _, hdesk'⟩ := attempt_of_quiet hrun hquiet
  exact ⟨hdesk, s, hdesk'⟩

theorem recordEntry_of_quiet {record : Record} (hquiet : (recordEntry call record desk).refused = []) :
    desk.refused = [] ∧ ∃ s, recordEntry call record desk =
      { desk with store := s, records := desk.records ++ [record] } := by
  unfold recordEntry at hquiet ⊢
  split at hquiet
  next a desk' hattempt =>
    obtain ⟨hdesk, _, _, s, _, _, rfl⟩ := attempt_of_quiet hattempt hquiet
    exact ⟨hdesk, s, rfl⟩
  next desk' hattempt =>
    obtain ⟨_, _, _, _, _, hanswer, _⟩ := attempt_of_quiet hattempt hquiet
    cases hanswer

/-- The task was registered by the queue from an entry. -/
def Added.Made (added : Added) (call : Call) (entry : Value) : Prop :=
  Valid entry ∧ (∃ goalClosed, added.new = newTask call.source call.task added.runId goalClosed entry) ∧
    ∃ s₀ s, insertTask added.new s₀ = .ok (added.taskId, s)

/-- What one entry adds. -/
theorem registerEntry_of_quiet {goalClosed : Bool} {depth : Nat}
    (h : (registerEntry call runId goalClosed depth entry index desk).2.refused = []) :
    desk.refused = [] ∧ ∃ (s : Store) (record : Record) (added : List Added),
      (record.runId = runId ∧ record.index = index) ∧
      (registerEntry call runId goalClosed depth entry index desk).2 = { desk with
        store := s, records := desk.records ++ [record], added := desk.added ++ added } ∧
      ((¬Valid entry ∧ added = []) ∨ ∃ one : Added, one.runId = runId ∧ one.index = index ∧
        one.Made call entry ∧ added = [one]) := by
  unfold registerEntry at h ⊢
  split at h
  next reason hskipped =>
    obtain ⟨hdesk, s, hrun⟩ := recordEntry_of_quiet h
    have hvalid : ¬Valid entry := fun hvalid => by
      rw [skipped_eq_none_iff.mpr hvalid] at hskipped
      cases hskipped
    rw [hrun]
    exact ⟨hdesk, s, _, [], ⟨rfl, rfl⟩, by rw [List.append_nil], .inl ⟨hvalid, rfl⟩⟩
  next hskipped =>
    have hvalid := skipped_eq_none_iff.mp hskipped
    dsimp only at h ⊢
    split at h
    -- A refused task would not have been quiet.
    next desk' hattempt =>
      obtain ⟨_, _, _, _, _, hanswer, _⟩ := attempt_of_quiet hattempt h
      cases hanswer
    next created desk' hattempt =>
      -- Backwards: each later write was quiet, so the one before it was.
      obtain ⟨hrecord, s, hrun⟩ := recordEntry_of_quiet h
      obtain ⟨horigin, s₂, hrun₂⟩ := attempt_snd_of_quiet hrecord
      obtain ⟨hdepth, s₁, hrun₁⟩ := attempt_snd_of_quiet horigin
      obtain ⟨hdesk, a, s₀, s', hadd, hanswer, rfl⟩ := attempt_of_quiet hattempt hdepth
      obtain rfl : created = a := Option.some.inj hanswer
      rw [hrun, hrun₂, hrun₁]
      exact ⟨hdesk, s, _, _, ⟨rfl, rfl⟩, rfl,
        .inr ⟨⟨runId, index, created, _⟩, rfl, rfl, ⟨hvalid, ⟨goalClosed, rfl⟩, s₀, s', hadd⟩, rfl⟩⟩

/-- The task was added for the entry at its index. -/
def Added.For (call : Call) (runId : RunId) (added : Added) (place : Value × Nat) : Prop :=
  added.runId = runId ∧ added.index = place.2 ∧ added.Made call place.1

/-- The entries whose index is not among the registered ones. -/
def remaining (registered : List Nat) (places : List (Value × Nat)) : List (Value × Nat) :=
  places.filter (·.2 ∉ registered)

/-- The valid ones. -/
def valid (places : List (Value × Nat)) : List (Value × Nat) :=
  places.filter fun place => (skipped place.1).isNone

theorem valid_cons_of_valid {rest : List (Value × Nat)} (h : Valid entry) :
    valid ((entry, index) :: rest) = (entry, index) :: valid rest :=
  List.filter_cons_of_pos (Option.isNone_iff_eq_none.mpr (skipped_eq_none_iff.mpr h))

theorem valid_cons_of_invalid {rest : List (Value × Nat)} (h : ¬Valid entry) :
    valid ((entry, index) :: rest) = valid rest :=
  List.filter_cons_of_neg fun hnone => h (skipped_eq_none_iff.mp (Option.isNone_iff_eq_none.mp hnone))

/-- What a call leaves on the desk: an event for each of the places, a task for each valid one. -/
structure Handles (call : Call) (runId : RunId) (places : List (Value × Nat)) (desk desk' : Desk) :
    Prop where
  quiet : desk.refused = []
  recorded : ∃ records : List Record, desk'.records = desk.records ++ records ∧
    (∀ record ∈ records, record.runId = runId) ∧ records.map (·.index) = places.map (·.2)
  added : ∃ added : List Added, desk'.added = desk.added ++ added ∧
    List.Forall₂ (Added.For call runId) added (valid places)

theorem Handles.nil (h : desk.refused = []) : Handles call runId [] desk desk where
  quiet := h
  recorded := ⟨[], (List.append_nil _).symm, fun _ h => absurd h List.not_mem_nil, rfl⟩
  added := ⟨[], (List.append_nil _).symm, .nil⟩

theorem Handles.cons {goalClosed : Bool} {depth : Nat} {rest : List (Value × Nat)} {desk' : Desk}
    (h : Handles call runId rest
      (registerEntry call runId goalClosed depth entry index desk).2 desk') :
    Handles call runId ((entry, index) :: rest) desk desk' := by
  obtain ⟨hdesk, s, record, added, ⟨hrun, hindex⟩, hentry, hadded⟩ := registerEntry_of_quiet h.quiet
  obtain ⟨records, hrecords, hruns, hindexes⟩ := h.recorded
  obtain ⟨more, hmore, hfor⟩ := h.added
  rw [hentry] at hrecords hmore
  refine ⟨hdesk, ⟨record :: records, ?_, ?_, ?_⟩, ⟨added ++ more, ?_, ?_⟩⟩
  · rw [hrecords, List.append_assoc]
    rfl
  · exact List.forall_mem_cons.mpr ⟨hrun, hruns⟩
  · rw [List.map_cons, List.map_cons, hindex, hindexes]
  · rw [hmore, List.append_assoc]
  · rcases hadded with ⟨hinvalid, rfl⟩ | ⟨one, hrun', hindex', hmade, rfl⟩
    · rw [valid_cons_of_invalid hinvalid]
      exact hfor
    · rw [valid_cons_of_valid hmade.1]
      exact .cons ⟨hrun', hindex', hmade⟩ hfor

/-- The loop, by induction over the entries it still gets to. -/
theorem registerEntries_of_quiet {goalClosed : Bool} {depth : Nat} {registered : List Nat}
    {places : List (Value × Nat)}
    (h : (registerEntries call runId goalClosed depth registered places desk).2.refused = []) :
    Handles call runId (remaining registered places) desk
      (registerEntries call runId goalClosed depth registered places desk).2 := by
  induction places generalizing desk with
  | nil => exact .nil h
  | cons place rest ih =>
      obtain ⟨entry, index⟩ := place
      unfold registerEntries at h ⊢
      by_cases hregistered : index ∈ registered
      · rw [if_pos hregistered] at h ⊢
        rw [remaining, List.filter_cons_of_neg (by simpa using hregistered)]
        exact ih h
      · rw [if_neg hregistered] at h ⊢
        rw [remaining, List.filter_cons_of_pos (by simpa using hregistered)]
        exact (ih h).cons

theorem readGoalClosed_of_quiet {answer : Option Bool} {desk' : Desk}
    (hrun : readGoalClosed call desk = (answer, desk')) (hquiet : desk'.refused = []) :
    desk.refused = [] ∧ answer ≠ none ∧ ∃ s, desk' = { desk with store := s } := by
  unfold readGoalClosed at hrun
  split at hrun
  · obtain ⟨hdesk, _, _, s, _, hanswer, hdesk'⟩ := attempt_of_quiet hrun hquiet
    exact ⟨hdesk, hanswer ▸ Option.some_ne_none _, s, hdesk'⟩
  · cases hrun
    exact ⟨hquiet, Option.some_ne_none _, desk.store, rfl⟩

theorem readDepth_of_quiet (hquiet : (readDepth call desk).2.refused = []) :
    desk.refused = [] ∧ ∃ s, (readDepth call desk).2 = { desk with store := s } := by
  unfold readDepth at hquiet ⊢
  split at hquiet
  next hattempt =>
    obtain ⟨hdesk, _, _, s, _, _, hdesk'⟩ := attempt_of_quiet hattempt hquiet
    exact ⟨hdesk, s, hdesk'⟩
  next hattempt =>
    obtain ⟨hdesk, _, _, s, _, _, hdesk'⟩ := attempt_of_quiet hattempt hquiet
    exact ⟨hdesk, s, hdesk'⟩

/-- The entries of a receipt. -/
def entriesOf (followUps : Option Value) : List Value := (followUps.bind Value.asArray).getD []

theorem registerFollowUps_of_quiet {followUps : Option Value}
    (h : (registerFollowUps call runId followUps desk).2.refused = []) :
    Handles call runId
      (remaining (registeredIndexes runId desk) (call.reached (entriesOf followUps))) desk
      (registerFollowUps call runId followUps desk).2 := by
  unfold registerFollowUps at h ⊢
  split at h
  next hnone =>
    have hempty : call.reached (entriesOf followUps) = [] := by
      unfold Call.reached entriesOf
      rw [hnone]
      split
      · rfl
      · exact List.take_nil
    rw [hempty]
    exact .nil h
  next entries hsome =>
    have hentries : entriesOf followUps = entries := by rw [entriesOf, hsome, Option.getD_some]
    rw [hentries]
    split at h
    next desk₁ hevents =>
      obtain ⟨_, _, _, _, _, hanswer, _⟩ := attempt_of_quiet hevents h
      cases hanswer
    next desk₁ hevents =>
      dsimp only at h ⊢
      split at h
      next desk₂ hgoal =>
        exact absurd rfl (readGoalClosed_of_quiet hgoal h).2.1
      next closed desk₂ hgoal =>
        have hentered := registerEntries_of_quiet h
        -- What was read before the loop leaves the desk as it was.
        obtain ⟨hquiet₂, s₃, hdepth⟩ := readDepth_of_quiet hentered.quiet
        obtain ⟨hquiet₁, _, s₂, rfl⟩ := readGoalClosed_of_quiet hgoal hquiet₂
        obtain ⟨hquiet, _, _, s₁, _, _, rfl⟩ := attempt_of_quiet hevents hquiet₁
        refine ⟨hquiet, ?_, ?_⟩
        · obtain ⟨records, hrecords, hmap⟩ := hentered.recorded
          exact ⟨records, hrecords.trans (by rw [hdepth]), hmap⟩
        · obtain ⟨added, hadded, hfor⟩ := hentered.added
          exact ⟨added, hadded.trans (by rw [hdepth]), hfor⟩

/-! ## Any number of calls -/

/-- The indexes a task was added for. -/
def addedIndexes (runId : RunId) (desk : Desk) : List Nat :=
  (desk.added.filter (·.runId = runId)).map (·.index)

/-- The entry at the index is valid. -/
def validAt (entries : List Value) (index : Nat) : Bool :=
  entries[index]?.any fun entry => (skipped entry).isNone

/-- What stands between two calls: each index is recorded once, the valid ones among those recorded have
a task, and the entries the calls got to are recorded. -/
structure Sound (runId : RunId) (entries : List Value) (calls : List Call) (desk : Desk) : Prop where
  nodup : (registeredIndexes runId desk).Nodup
  indexes : addedIndexes runId desk = (registeredIndexes runId desk).filter (validAt entries)
  made : ∀ added ∈ desk.added, added.runId = runId →
    ∃ call ∈ calls, ∃ entry, entries[added.index]? = some entry ∧ added.Made call entry
  covered : ∀ call ∈ calls, ∀ place ∈ call.reached entries, place.2 ∈ registeredIndexes runId desk

theorem reached_sublist (call : Call) (entries : List Value) :
    (call.reached entries).Sublist entries.zipIdx := by
  unfold Call.reached
  split
  · exact List.Sublist.refl _
  · exact List.take_sublist _ _

theorem mem_reached {entries : List Value} {place : Value × Nat} (h : place ∈ call.reached entries) :
    entries[place.2]? = some place.1 :=
  List.mem_zipIdx_iff_getElem?.mp ((reached_sublist call entries).subset h)

/-- The tasks added are for their places, in order. -/
theorem added_for {added : List Added} {places : List (Value × Nat)}
    (h : List.Forall₂ (Added.For call runId) added places) :
    added.map (·.index) = places.map (·.2) ∧ ∀ one ∈ added, one.runId = runId ∧
      ∃ place ∈ places, one.index = place.2 ∧ one.Made call place.1 := by
  induction h with
  | nil => exact ⟨rfl, fun _ h => absurd h List.not_mem_nil⟩
  | @cons one place added places hone _ ih =>
      obtain ⟨hrun, hindex, hmade⟩ := hone
      refine ⟨by rw [List.map_cons, List.map_cons, hindex, ih.1], fun other hmem => ?_⟩
      rcases List.mem_cons.mp hmem with rfl | hmem
      · exact ⟨hrun, place, List.mem_cons_self, hindex, hmade⟩
      · obtain ⟨hrun', place', hplace', hfor⟩ := ih.2 other hmem
        exact ⟨hrun', place', List.mem_cons_of_mem _ hplace', hfor⟩

/-- Of the places of a list, the valid ones are told by their index. -/
theorem valid_indexes {entries : List Value} {places : List (Value × Nat)}
    (h : ∀ place ∈ places, entries[place.2]? = some place.1) :
    (valid places).map (·.2) = (places.map (·.2)).filter (validAt entries) := by
  rw [List.filter_map, valid]
  congr 1
  refine List.filter_congr fun place hmem => ?_
  show _ = (entries[place.2]?).any _
  rw [h place hmem, Option.any_some]

theorem Sound.step {entries : List Value} {calls : List Call} {desk' : Desk}
    (h : Sound runId entries calls desk)
    (hcall : Handles call runId (remaining (registeredIndexes runId desk) (call.reached entries))
      desk desk') : Sound runId entries (calls ++ [call]) desk' := by
  obtain ⟨records, hrecords, hruns, hindexes⟩ := hcall.recorded
  obtain ⟨added, hadded, hfor⟩ := hcall.added
  obtain ⟨haddedIndexes, haddedRun⟩ := added_for hfor
  have hplace {place : Value × Nat}
      (hmem : place ∈ remaining (registeredIndexes runId desk) (call.reached entries)) :
      place ∈ call.reached entries ∧ place.2 ∉ registeredIndexes runId desk := by
    obtain ⟨hreached, hnot⟩ := List.mem_filter.mp hmem
    exact ⟨hreached, of_decide_eq_true hnot⟩
  -- The call registers what it reaches and finds unregistered.
  have hregistered : registeredIndexes runId desk' = registeredIndexes runId desk ++
      (remaining (registeredIndexes runId desk) (call.reached entries)).map (·.2) := by
    have hall : records.filter (·.runId = runId) = records :=
      List.filter_eq_self.mpr fun record hmem => decide_eq_true (hruns record hmem)
    rw [registeredIndexes, hrecords, List.filter_append, hall, List.map_append, hindexes]
    rfl
  have haddedAll : addedIndexes runId desk' = addedIndexes runId desk ++ added.map (·.index) := by
    have hall : added.filter (·.runId = runId) = added :=
      List.filter_eq_self.mpr fun one hmem => decide_eq_true (haddedRun one hmem).1
    rw [addedIndexes, hadded, List.filter_append, hall, List.map_append]
    rfl
  refine ⟨?_, ?_, ?_, ?_⟩
  · rw [hregistered]
    refine List.nodup_append'.mpr ⟨h.nodup, ?_, fun index hold hnew => ?_⟩
    · have hzip : (entries.zipIdx.map (·.2)).Nodup := by
        rw [List.zipIdx_map_snd]
        exact List.nodup_range'
      exact hzip.sublist ((List.filter_sublist.trans (reached_sublist call entries)).map _)
    · obtain ⟨place, hmem, rfl⟩ := List.mem_map.mp hnew
      exact (hplace hmem).2 hold
  · rw [haddedAll, h.indexes, haddedIndexes, hregistered, List.filter_append,
      valid_indexes fun place hmem => mem_reached (hplace hmem).1]
  · intro one hmem hrun
    rw [hadded] at hmem
    rcases List.mem_append.mp hmem with hmem | hmem
    · obtain ⟨other, hother, hentry⟩ := h.made one hmem hrun
      exact ⟨other, List.mem_append_left _ hother, hentry⟩
    · -- A task of this call is made from an entry this call reaches.
      obtain ⟨_, place, hvalid, hindex, hmade⟩ := haddedRun one hmem
      have hreached := (hplace (List.mem_filter.mp hvalid).1).1
      exact ⟨call, List.mem_append_right _ List.mem_cons_self, place.1,
        hindex ▸ mem_reached hreached, hmade⟩
  · intro other hother place hreached
    rw [hregistered]
    rcases List.mem_append.mp hother with hother | hother
    · exact List.mem_append_left _ (h.covered other hother place hreached)
    · obtain rfl := List.mem_singleton.mp hother
      by_cases hold : place.2 ∈ registeredIndexes runId desk
      · exact List.mem_append_left _ hold
      · refine List.mem_append_right _ (List.mem_map_of_mem (List.mem_filter.mpr ⟨hreached, ?_⟩))
        exact decide_eq_true hold

section Calls

variable {followUps : Option Value} {calls : List Call}

theorem afterCalls_quiet (h : (afterCalls runId followUps calls desk).refused = []) :
    desk.refused = [] := by
  induction calls generalizing desk with
  | nil => exact h
  | cons call calls ih => exact (registerFollowUps_of_quiet (ih h)).quiet

/-- By induction over the calls to come. -/
theorem sound_afterCalls {done : List Call} (h : Sound runId (entriesOf followUps) done desk)
    (hquiet : (afterCalls runId followUps calls desk).refused = []) :
    Sound runId (entriesOf followUps) (done ++ calls) (afterCalls runId followUps calls desk) := by
  induction calls generalizing done desk with
  | nil =>
      rw [List.append_nil]
      exact h
  | cons call calls ih =>
      have hlater : (afterCalls runId followUps calls
          (registerFollowUps call runId followUps desk).2).refused = [] := hquiet
      have hrest := ih (h.step (registerFollowUps_of_quiet (afterCalls_quiet hlater))) hlater
      rwa [List.append_assoc] at hrest

/-- How many tasks were added for an entry. -/
def timesAdded (runId : RunId) (index : Nat) (desk : Desk) : Nat :=
  (addedIndexes runId desk).count index

/-- The call gets to the entry. -/
def Call.Reaches (call : Call) (index : Nat) : Prop := ∀ n, call.cut = some n → index < n

theorem mem_reached_of {entries : List Value} (h : call.Reaches index)
    (hentry : entries[index]? = some entry) : (entry, index) ∈ call.reached entries := by
  have hplace : entries.zipIdx[index]? = some (entry, index) := by
    rw [List.getElem?_zipIdx, hentry, Option.map_some, Nat.zero_add]
  unfold Call.reached
  split
  · exact List.mem_of_getElem? hplace
  next n hcut =>
    refine List.mem_of_getElem? (i := index) ?_
    rw [List.getElem?_take_of_lt (h n hcut), hplace]

/-- Called any number of times, each call cut off between any two entries, the registration makes one
task of each valid entry a call gets to and none of the others, and each of them is another row of the
queue. -/
theorem follow_ups_registered_once (runId : RunId) (followUps : Option Value) (calls : List Call)
    (desk : Desk) (hrecords : ∀ record ∈ desk.records, record.runId ≠ runId)
    (hadded : ∀ added ∈ desk.added, added.runId ≠ runId)
    (hquiet : (afterCalls runId followUps calls desk).refused = []) :
    (∀ index, timesAdded runId index (afterCalls runId followUps calls desk) ≤ 1) ∧
    (∀ added ∈ (afterCalls runId followUps calls desk).added, added.runId = runId →
      ∃ call ∈ calls, ∃ entry, (entriesOf followUps)[added.index]? = some entry ∧
        added.Made call entry) ∧
    (∀ call ∈ calls, ∀ index entry, (entriesOf followUps)[index]? = some entry → Valid entry →
      call.Reaches index → timesAdded runId index (afterCalls runId followUps calls desk) = 1) ∧
    (∀ added ∈ (afterCalls runId followUps calls desk).added, added.runId = runId →
      ((afterCalls runId followUps calls desk).store.tasks.get? added.taskId).isSome = true) ∧
    (((afterCalls runId followUps calls desk).added.filter (·.runId = runId)).map
      (·.taskId)).Nodup := by
  have hnone : registeredIndexes runId desk = [] := by
    rw [registeredIndexes, List.map_eq_nil_iff, List.filter_eq_nil_iff]
    intro record hmem
    simpa using hrecords record hmem
  have hfirst : Sound runId (entriesOf followUps) [] desk := by
    refine ⟨hnone ▸ List.nodup_nil, ?_, fun added hmem hrun => absurd hrun (hadded added hmem), ?_⟩
    · rw [hnone, List.filter_nil, addedIndexes, List.map_eq_nil_iff, List.filter_eq_nil_iff]
      intro added hmem
      simpa using hadded added hmem
    · exact fun _ hmem => absurd hmem List.not_mem_nil
  have hsound := sound_afterCalls hfirst hquiet
  rw [List.nil_append] at hsound
  -- The tasks are those of the registered places, and no place is registered twice.
  have hnodup : (addedIndexes runId (afterCalls runId followUps calls desk)).Nodup := by
    rw [hsound.indexes]
    exact hsound.nodup.filter _
  have hhoused : Housed runId (afterCalls runId followUps calls desk) := by
    refine housed_afterCalls ⟨fun added hmem hrun => absurd hrun (hadded added hmem), ?_⟩
    rw [List.filter_eq_nil_iff.mpr fun added hmem => by simpa using hadded added hmem]
    exact List.nodup_nil
  refine ⟨fun index => List.nodup_iff_count_le_one.mp hnodup index, hsound.made, ?_, hhoused.rows,
    hhoused.nodup⟩
  intro call hcall index entry hentry hvalid hreaches
  have hregistered := hsound.covered call hcall _ (mem_reached_of hreaches hentry)
  refine List.count_eq_one_of_mem hnodup ?_
  rw [hsound.indexes, List.mem_filter]
  refine ⟨hregistered, ?_⟩
  rw [validAt, hentry, Option.any_some, Option.isNone_iff_eq_none]
  exact skipped_eq_none_iff.mpr hvalid

end Calls

/-- A run that landed. -/
def landedDesk : Desk where
  store := queue.run [
    .task (.add { title := "t" }),
    .task (.transition 1 .bypassReview),
    .run (.claimNext 1 0 [1])]

/-- Two valid entries around one without a title. -/
def mixedEntries : Value := .array [
  .object [("title", .string " first "), ("description", .string "")],
  .object [("title", .number "2")],
  .object [("title", .string "third"), ("description", .string "later")]]

/-- A call for the run's task. -/
def callFor (cut : Option Nat) : Call where
  source := 1
  task := {
    title := "t", description := "", acceptance := "", verificationCommands := [],
    requiredEvidence := [], paths := [], priority := .normal, kind := none, status := .completed,
    goalId := none, context := "" }
  cut := cut

/-- The first call is cut off after one entry, and the next ones go on. -/
theorem follow_ups_registered_once_cutOff :
    timesAdded 1 0 (afterCalls 1 (some mixedEntries)
      [callFor (some 1), callFor none, callFor none] landedDesk) ≤ 1 ∧
    timesAdded 1 2 (afterCalls 1 (some mixedEntries)
      [callFor (some 1), callFor none, callFor none] landedDesk) = 1 :=
  have hquiet : (afterCalls 1 (some mixedEntries)
      [callFor (some 1), callFor none, callFor none] landedDesk).refused = [] := by decide +kernel
  have honce := follow_ups_registered_once 1 (some mixedEntries)
    [callFor (some 1), callFor none, callFor none] landedDesk
    (fun _ h => absurd h List.not_mem_nil) (fun _ h => absurd h List.not_mem_nil) hquiet
  ⟨honce.1 0, honce.2.2.1 (callFor none) (List.mem_cons_of_mem _ List.mem_cons_self) 2 _ rfl
    ⟨⟨"third", rfl, by decide⟩, ⟨"later", rfl⟩⟩ (fun _ h => by cases h)⟩

end Dagq.FollowUps
