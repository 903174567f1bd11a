/-
# Dagq.Sessions.Activity -- what a session is at, read off its transcript.

The relations here say, record by record, what goes on at an instant of a session: a tool its main
session called and whose end was not seen yet, or the model, between a record of the main session and
the `assistant` record that follows it.  They name no interval and no order of intervals; what the
breakdown cuts and sorts is shown to be the same.
-/
import Dagq.Domain.Worktime
import Dagq.Lib.Neighbours

namespace Dagq.Worktime

open Lib

/-! ## Records -/

/-- When the first record with `p` is, if any has it. -/
def FirstAt (p : WorkRecord → Prop) (records : List WorkRecord) : Option Int → Prop
  | some time => ∃ before record after, records = before ++ record :: after ∧ p record ∧
      record.at' = time ∧ ∀ earlier ∈ before, ¬p earlier
  | none => ∀ record ∈ records, ¬p record

/-- The record holds a result of the call. -/
def WorkRecord.HasResult (id : String) (record : WorkRecord) : Prop :=
  ∃ result ∈ record.toolResults, result.toolUseId = id

/-- The record is the notice that the call ended. -/
def WorkRecord.HasNotice (id : String) (record : WorkRecord) : Prop :=
  ∃ notice ∈ record.notification, notice.toolUseId = id

/-- A record of the main session's conversation. -/
def WorkRecord.Main (record : WorkRecord) : Prop := record.sidechain = false ∧ record.role ≠ .other

/-! ## What goes on -/

/-- What goes on at an instant, by how it ranks. -/
inductive Rank
  | foreground | background | subagent | model
  deriving DecidableEq

/-- A foreground tool comes before a background command, that before a subagent, and that before the
model. -/
def Rank.place : Rank → Nat
  | .foreground => 1
  | .background => 2
  | .subagent => 3
  | .model => 4

/-- How a call ranks, what it counts as, and when its end was seen.  A subagent ends at its notice, or
at its result when there is none; a command in the background, from the start or because a notice came
for it, at its notice; everything else at its result. -/
inductive Call (records : List WorkRecord) (call : ToolUse) : Rank → Category → Option Int → Prop
  | noticed {stop : Int} : call.name = "Agent" →
      FirstAt (WorkRecord.HasNotice call.id) records (some stop) →
      Call records call .subagent .subagent (some stop)
  | subagent {stop : Option Int} : call.name = "Agent" →
      FirstAt (WorkRecord.HasNotice call.id) records none →
      FirstAt (WorkRecord.HasResult call.id) records stop → Call records call .subagent .subagent stop
  | background {command : String} {stop : Option Int} : call.name ≠ "Agent" →
      call.command = some command → call.background = true ∨ stop ≠ none →
      FirstAt (WorkRecord.HasNotice call.id) records stop →
      Call records call .background (classify command) stop
  | foreground {command : String} {stop : Option Int} : call.name ≠ "Agent" →
      call.command = some command → call.background = false →
      FirstAt (WorkRecord.HasNotice call.id) records none →
      FirstAt (WorkRecord.HasResult call.id) records stop →
      Call records call .foreground (classify command) stop
  | tool {stop : Option Int} : call.name ≠ "Agent" → call.command = none →
      FirstAt (WorkRecord.HasResult call.id) records stop →
      Call records call .foreground (if call.name ∈ waitTools then .wait else .tool) stop

/-- The model is at work: a record of the main session is behind the instant, and the next one, the
transcript's first of the earliest after it, is an `assistant` record. -/
structure ModelAt (records : List WorkRecord) (t : Int) : Prop where
  behind : ∃ record ∈ records, record.Main ∧ record.at' ≤ t
  next : ∃ before record after, records = before ++ record :: after ∧ record.Main ∧
    t < record.at' ∧ record.assistant = true ∧
    (∀ other ∈ before, other.Main → t < other.at' → record.at' < other.at') ∧
    ∀ other ∈ after, other.Main → t < other.at' → record.at' ≤ other.at'

/-- What goes on at an instant of the span: a call its main session made in the span, at or before the
instant, whose end was not seen by then, or the model. -/
inductive GoesOn (records : List WorkRecord) (from_ to_ t : Int) : Rank → Category → Prop
  | call {record : WorkRecord} {call : ToolUse} {rank : Rank} {category : Category}
      {stop : Option Int} : record ∈ records → record.sidechain = false →
      from_ ≤ record.at' ∧ record.at' < to_ → call ∈ record.toolUses →
      Call records call rank category stop → record.at' ≤ t → (∀ time ∈ stop, t < time) →
      GoesOn records from_ to_ t rank category
  | model : ModelAt records t → GoesOn records from_ to_ t .model .model

/-- What the instant is spent on: of what goes on, nothing comes before it by rank, or within its rank
by the order of the categories; idle when nothing goes on. -/
def SpentOn (records : List WorkRecord) (from_ to_ t : Int) (category : Category) : Prop :=
  (∃ rank, GoesOn records from_ to_ t rank category ∧
    ∀ rank' category', GoesOn records from_ to_ t rank' category' →
      rank.place < rank'.place ∨ rank = rank' ∧ order category ≤ order category') ∨
  (∀ rank category', ¬GoesOn records from_ to_ t rank category') ∧ category = .idle

/-! ## The ends of calls -/

variable {records : List WorkRecord} {from_ to_ t : Int} {call : ToolUse} {category : Category}
  {rank : Rank} {stop : Option Int}

theorem firstAt_iff {p : WorkRecord → Prop} [DecidablePred p] :
    FirstAt p records stop ↔ (records.find? fun record => p record).map (·.at') = stop := by
  cases stop with
  | none =>
      rw [Option.map_eq_none_iff, List.find?_eq_none]
      simp [FirstAt]
  | some time =>
      rw [Option.map_eq_some_iff]
      simp only [List.find?_eq_some_iff_append, decide_eq_true_eq, Bool.not_eq_true',
        decide_eq_false_iff_not]
      constructor
      · rintro ⟨before, record, after, hsplit, hp, htime, hnone⟩
        exact ⟨record, ⟨hp, before, after, hsplit, hnone⟩, htime⟩
      · rintro ⟨record, ⟨hp, before, after, hsplit, hnone⟩, htime⟩
        exact ⟨before, record, after, hsplit, hp, htime, hnone⟩

instance {id : String} : DecidablePred (WorkRecord.HasResult id) := fun record =>
  inferInstanceAs (Decidable (∃ result ∈ record.toolResults, result.toolUseId = id))

instance {id : String} : DecidablePred (WorkRecord.HasNotice id) := fun record =>
  inferInstanceAs (Decidable (∃ notice ∈ record.notification, notice.toolUseId = id))

theorem resultAt_iff {id : String} : FirstAt (WorkRecord.HasResult id) records stop ↔
    (firstResult records id).map (·.1) = stop := by
  rw [firstAt_iff]
  suffices heq : (records.find? fun record => record.HasResult id).map (·.at') =
      (firstResult records id).map (·.1) by rw [heq]
  unfold firstResult
  induction records with
  | nil => rfl
  | cons record records ih =>
      rw [List.flatMap_cons, List.find?_append, List.find?_cons]
      cases hfind : (record.toolResults.map fun result => (record.at', result)).find?
          (·.2.toolUseId = id) with
      | none =>
          have hnone : ¬record.HasResult id := by
            rintro ⟨result, hresult, hid⟩
            exact List.find?_eq_none.mp hfind _ (List.mem_map_of_mem hresult) (decide_eq_true hid)
          rw [decide_eq_false hnone, Option.none_or]
          exact ih
      | some found =>
          obtain ⟨result, hresult, rfl⟩ := List.mem_map.mp (List.mem_of_find?_eq_some hfind)
          have hid := List.find?_some hfind
          have hhas : record.HasResult id := ⟨result, hresult, of_decide_eq_true hid⟩
          rw [decide_eq_true hhas, Option.some_or]
          rfl

theorem noticeAt_iff {id : String} : FirstAt (WorkRecord.HasNotice id) records stop ↔
    (firstNotice records id).map (·.1) = stop := by
  rw [firstAt_iff]
  suffices heq : (records.find? fun record => record.HasNotice id).map (·.at') =
      (firstNotice records id).map (·.1) by rw [heq]
  unfold firstNotice
  induction records with
  | nil => rfl
  | cons record records ih =>
      have hhas : record.HasNotice id ↔ ∃ notice, record.notification = some notice ∧
          notice.toolUseId = id := Iff.rfl
      rw [List.find?_cons, List.filterMap_cons]
      cases hnotice : record.notification with
      | none =>
          rw [decide_eq_false (by rw [hhas, hnotice]; simp), Option.map_none]
          exact ih
      | some notice =>
          by_cases hid : notice.toolUseId = id
          · rw [decide_eq_true (hhas.mpr ⟨notice, hnotice, hid⟩), Option.map_some]
            simp [hid]
          · rw [decide_eq_false (by rw [hhas, hnotice]; simpa using hid), Option.map_some]
            simpa [hid] using ih

/-! ## Calls -/

/-- No shell command counts as a subagent. -/
theorem classify_ne_subagent (command : String) : classify command ≠ .subagent := by
  unfold classify
  dsimp only
  split
  · decide
  · intro hhead
    cases hkinds : (ranks.filter (· ∈ (parts command).map rank)).head? with
    | none =>
        rw [hkinds] at hhead
        cases hhead
    | some kind =>
        rw [hkinds] at hhead
        obtain rfl : kind = .subagent := hhead
        have hmem := List.mem_of_mem_filter (List.mem_of_head? hkinds)
        exact absurd hmem (by decide)

/-- How the breakdown ranks a call. -/
def placeOf (kind : Category × Bool × Option Int) : Nat :=
  if kind.1 = .subagent then 3 else if kind.2.1 then 2 else 1

theorem placeOf_command (command : String) (background : Bool) (stop : Option Int) :
    placeOf (classify command, background, stop) = if background then 2 else 1 := by
  simp only [placeOf, classify_ne_subagent, if_false]

theorem Rank.place_inj {rank rank' : Rank} (h : rank.place = rank'.place) : rank = rank' := by
  cases rank <;> cases rank' <;> first | rfl | cases h

theorem call_iff {kind : Category × Bool × Option Int}
    (hkind : kindOf call ((firstResult records call.id).map (·.1))
      ((firstNotice records call.id).map (·.1)) = kind) :
    Call records call rank category stop ↔
      kind.1 = category ∧ kind.2.2 = stop ∧ placeOf kind = rank.place := by
  obtain ⟨result, hresult⟩ : ∃ result, (firstResult records call.id).map (·.1) = result := ⟨_, rfl⟩
  obtain ⟨notice, hnotice⟩ : ∃ notice, (firstNotice records call.id).map (·.1) = notice := ⟨_, rfl⟩
  rw [hresult, hnotice] at hkind
  subst hkind
  constructor
  · intro h
    cases h with
    | noticed hname hseen =>
        obtain rfl : notice = _ := hnotice.symm.trans (noticeAt_iff.mp hseen)
        simp [kindOf, hname, placeOf, Rank.place]
    | subagent hname hunseen hend =>
        obtain rfl : notice = _ := hnotice.symm.trans (noticeAt_iff.mp hunseen)
        obtain rfl : result = _ := hresult.symm.trans (resultAt_iff.mp hend)
        simp [kindOf, hname, placeOf, Rank.place]
    | background hname hcommand hground hend =>
        obtain rfl : notice = _ := hnotice.symm.trans (noticeAt_iff.mp hend)
        have hback : call.background = true ∨ notice.isSome = true :=
          hground.imp_right Option.isSome_iff_ne_none.mpr
        simp [kindOf, hname, hcommand, hback, placeOf_command, Rank.place]
    | foreground hname hcommand hground hunseen hend =>
        obtain rfl : notice = _ := hnotice.symm.trans (noticeAt_iff.mp hunseen)
        obtain rfl : result = _ := hresult.symm.trans (resultAt_iff.mp hend)
        simp [kindOf, hname, hcommand, hground, placeOf_command, Rank.place]
    | tool hname hcommand hend =>
        obtain rfl : result = _ := hresult.symm.trans (resultAt_iff.mp hend)
        by_cases hwait : call.name ∈ waitTools <;>
          simp [kindOf, hname, hcommand, hwait, placeOf, Rank.place]
  · rintro ⟨rfl, rfl, hplace⟩
    have hend := resultAt_iff.mpr hresult
    have hseen := noticeAt_iff.mpr hnotice
    unfold kindOf at hplace ⊢
    by_cases hname : call.name = "Agent"
    · rw [if_pos hname] at hplace ⊢
      obtain rfl : rank = .subagent := Rank.place_inj hplace.symm
      cases notice with
      | none => exact .subagent hname hseen hend
      | some time => exact .noticed hname hseen
    · rw [if_neg hname] at hplace ⊢
      cases hcommand : call.command with
      | none =>
          simp only [hcommand] at hplace ⊢
          have htool := Call.tool hname hcommand hend
          split at hplace
          · next hwait =>
            obtain rfl : rank = .foreground := Rank.place_inj hplace.symm
            rw [if_pos hwait] at htool ⊢
            exact htool
          · next hwait =>
            obtain rfl : rank = .foreground := Rank.place_inj hplace.symm
            rw [if_neg hwait] at htool ⊢
            exact htool
      | some command =>
          simp only [hcommand] at hplace ⊢
          split at hplace
          · next hback =>
            rw [if_pos hback]
            rw [placeOf_command] at hplace
            obtain rfl : rank = .background := Rank.place_inj hplace.symm
            dsimp only
            exact .background hname hcommand (hback.imp_right Option.isSome_iff_ne_none.mp) hseen
          · next hfore =>
            rw [if_neg hfore]
            rw [placeOf_command] at hplace
            obtain rfl : rank = .foreground := Rank.place_inj hplace.symm
            obtain ⟨hground, hnone⟩ := not_or.mp hfore
            rw [Option.not_isSome_iff_eq_none] at hnone
            subst hnone
            dsimp only
            exact .foreground hname hcommand (eq_false_of_ne_true hground) hseen hend

/-! ## Stretches -/

/-- The model's intervals are over the instants it is at work at. -/
theorem modelAt_iff : ModelAt records t ↔
    ∃ pair ∈ modelIntervals records, pair.1 ≤ t ∧ t < pair.2 := by
  let main : WorkRecord → Bool := fun record => !record.sidechain && record.role ≠ .other
  have hmain (record : WorkRecord) : main record = true ↔ record.Main := by
    simp [main, WorkRecord.Main]
  let sorted := Neighbours.byKey (fun record : WorkRecord => record.at') (records.filter main)
  have hmem (record : WorkRecord) : record ∈ sorted ↔ record ∈ records ∧ record.Main := by
    rw [(List.mergeSort_perm _ _).mem_iff, List.mem_filter, hmain]
  have hintervals : modelIntervals records =
      ((sorted.zip sorted.tail).filter (·.2.assistant)).map fun pair => (pair.1.at', pair.2.at') := rfl
  have hneighbours := Neighbours.exists_neighbours_iff (q := WorkRecord.assistant) (t := t)
    (Neighbours.byKey_sorted (fun record : WorkRecord => record.at') (records.filter main))
  constructor
  · rintro ⟨⟨record, hrecord, hbase, hle⟩, before, next, after, hsplit, hnext, hlt, hassistant, hbefore,
      hafter⟩
    have hfind := Neighbours.find?_byKey_iff.mpr ⟨before, after, hsplit, (hmain next).mpr hnext, hlt,
      fun other ho hp => hbefore other ho ((hmain other).mp hp),
      fun other ho hp => hafter other ho ((hmain other).mp hp)⟩
    obtain ⟨pair, hpair, hq, hbehind, hahead⟩ := hneighbours.mpr
      ⟨⟨record, (hmem record).mpr ⟨hrecord, hbase⟩, hle⟩, next, hfind, hassistant⟩
    rw [hintervals]
    exact ⟨_, List.mem_map_of_mem (List.mem_filter.mpr ⟨hpair, hq⟩), hbehind, hahead⟩
  · rintro ⟨pair, hpair, hbehind, hahead⟩
    rw [hintervals] at hpair
    obtain ⟨records', hrecords, rfl⟩ := List.mem_map.mp hpair
    obtain ⟨hzip, hq⟩ := List.mem_filter.mp hrecords
    obtain ⟨⟨record, hrecord, hle⟩, next, hfind, hassistant⟩ :=
      hneighbours.mp ⟨records', hzip, hq, hbehind, hahead⟩
    obtain ⟨before, after, hsplit, hnext, hlt, hbefore, hafter⟩ := Neighbours.find?_byKey_iff.mp hfind
    obtain ⟨hin, hbase⟩ := (hmem record).mp hrecord
    exact ⟨⟨record, hin, hbase, hle⟩, before, next, after, hsplit, (hmain next).mp hnext, hlt, hassistant,
      fun other ho hp => hbefore other ho ((hmain other).mpr hp),
      fun other ho hp => hafter other ho ((hmain other).mpr hp)⟩

theorem lt_clamp_iff {low high x : Int} (hlow : low ≤ t) (hhigh : t < high) :
    t < clamp low high x ↔ t < x := by
  unfold clamp
  split
  · omega
  · split <;> omega

/-- What the breakdown makes of a call. -/
theorem commandOf_eq (records : List WorkRecord) (to_ : Int) (record : WorkRecord) (call : ToolUse) :
    ∃ kind, kindOf call ((firstResult records call.id).map (·.1))
        ((firstNotice records call.id).map (·.1)) = kind ∧
      (commandOf records to_ record call).stop = (kind.2.2.map (clamp record.at' to_)).getD to_ ∧
      (commandOf records to_ record call).priority = placeOf kind ∧
      (commandOf records to_ record call).category = kind.1 :=
  ⟨_, rfl, rfl, rfl, rfl⟩

theorem mem_commands {command : Command} : command ∈ commands records from_ to_ ↔
    ∃ record ∈ records, record.sidechain = false ∧ (from_ ≤ record.at' ∧ record.at' < to_) ∧
      ∃ call ∈ record.toolUses, commandOf records to_ record call = command := by
  simp [commands, and_assoc]

/-- What goes on at an instant of the span is what a stretch of the breakdown is over. -/
theorem goesOn_iff (ht : from_ ≤ t ∧ t < to_) : GoesOn records from_ to_ t rank category ↔
    ∃ i ∈ stretches records from_ to_, (i.start ≤ t ∧ t < i.stop) ∧ i.priority = rank.place ∧
      i.category = category := by
  have hstop (record : WorkRecord) (stop : Option Int) (hlow : record.at' ≤ t) :
      t < (stop.map (clamp record.at' to_)).getD to_ ↔ ∀ time ∈ stop, t < time := by
    cases stop with
    | none => simp [ht.2]
    | some stop => simpa using lt_clamp_iff hlow ht.2
  unfold stretches
  constructor
  · intro h
    cases h with
    | @call record call _ _ stop hrecord hmain hspan hcall hkind hbehind hopen =>
        obtain ⟨kind, heq, hend, hpriority, hcategory⟩ := commandOf_eq records to_ record call
        obtain ⟨hcat, hseen, hplace⟩ := (call_iff heq).mp hkind
        have hcommand : commandOf records to_ record call ∈ commands records from_ to_ :=
          mem_commands.mpr ⟨record, hrecord, hmain, hspan, call, hcall, rfl⟩
        refine ⟨_, List.mem_append_left _ (List.mem_map_of_mem hcommand), ⟨hbehind, ?_⟩,
          hpriority.trans hplace, hcategory.trans hcat⟩
        show t < (commandOf records to_ record call).stop
        rw [hend, hseen]
        exact (hstop record stop hbehind).mpr hopen
    | model hmodel =>
        obtain ⟨pair, hpair, hbehind, hahead⟩ := modelAt_iff.mp hmodel
        exact ⟨_, List.mem_append_right _ (List.mem_map_of_mem hpair), ⟨hbehind, hahead⟩, rfl, rfl⟩
  · rintro ⟨i, hi, ⟨hbehind, hahead⟩, hplace, rfl⟩
    rcases List.mem_append.mp hi with hi | hi
    · obtain ⟨command, hcommand, rfl⟩ := List.mem_map.mp hi
      obtain ⟨record, hrecord, hmain, hspan, call, hcall, rfl⟩ := mem_commands.mp hcommand
      obtain ⟨kind, heq, hend, hpriority, hcategory⟩ := commandOf_eq records to_ record call
      replace hahead : t < (commandOf records to_ record call).stop := hahead
      rw [hend] at hahead
      exact .call hrecord hmain hspan hcall
        ((call_iff heq).mpr ⟨hcategory.symm, rfl, hpriority.symm.trans hplace⟩) hbehind
        ((hstop record _ hbehind).mp hahead)
    · obtain ⟨pair, hpair, rfl⟩ := List.mem_map.mp hi
      obtain rfl : rank = .model := Rank.place_inj hplace.symm
      exact .model (modelAt_iff.mpr ⟨pair, hpair, hbehind, hahead⟩)

end Dagq.Worktime
