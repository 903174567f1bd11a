/-
# Dagq.Supervise.WaitLimits -- how many runs are out of a supervisor's slots.

`--max-waiting` bounds the runs that wait together with those whose wait ended and that wait for a slot,
whose sessions are open all the same.  A wait that starts and a run that is adopted as a wait are checked
against it; a run that is adopted while it waits for a slot, and one that a handoff hands over, are not.
-/
import Dagq.Supervise.WaitRecord
import Mathlib.Data.List.Count
import Mathlib.Tactic.SplitIfs

namespace Dagq.Waits

open Lib

theorem waitCount_of (ended : List Bool) : (WaitCount.of ended).count = ended.length := by
  have hfold (count : WaitCount) :
      (ended.foldl WaitCount.add count).count = count.count + ended.length := by
    induction ended generalizing count with
    | nil => rfl
    | cons e ended ih =>
        rw [List.foldl_cons, ih, List.length_cons]
        cases e <;> simp [WaitCount.add, WaitCount.count] <;> omega
  simpa [WaitCount.of, WaitCount.count] using hfold {}

theorem Supervisor.waitingRuns_eq (sv : Supervisor) :
    sv.waitingRuns = sv.slots.countP Slot.outOfSlot := by
  rw [waitingRuns, waitCount_of, List.length_map]
  induction sv.slots with
  | nil => rfl
  | cons slot slots ih =>
      rw [List.filterMap_cons, List.countP_cons]
      cases h : slot.waiting <;> simp [Slot.outOfSlot, h, ih]

/-! ## A slot by itself -/

/-- The run does not come out of its slot. -/
structure StaysIn (slot slot' : Slot) : Prop where
  out : slot'.outOfSlot = true → slot.outOfSlot = true
  waiting : slot'.waitingNow = true → slot.waitingNow = true

section StaysIn

variable {slot slot' slot'' : Slot}

@[refl] theorem StaysIn.refl (slot : Slot) : StaysIn slot slot := ⟨id, id⟩

theorem StaysIn.trans (h : StaysIn slot slot') (h' : StaysIn slot' slot'') : StaysIn slot slot'' :=
  ⟨fun hout => h.out (h'.out hout), fun hnow => h.waiting (h'.waiting hnow)⟩

theorem Slot.regainSlot_stays (parallel used : Nat) (slot : Slot) (now : Int) :
    StaysIn slot (regainSlot parallel used slot now).1 := by
  unfold regainSlot
  split <;> constructor <;> simp [outOfSlot, waitingNow]

theorem Slot.endWait_stays (parallel used : Nat) (slot : Slot) (cause : WaitCause)
    (ask : Option (AskId × AskKind)) (now : Int) :
    StaysIn slot (slot.endWait parallel used cause ask now).1 := by
  unfold endWait
  split
  next => rfl
  next waiting hwaiting =>
    have hended (consumed : List AskId) : StaysIn slot { slot with
        consumed, waiting := some { waiting with ended := some (now, cause) } } := by
      constructor <;> simp [outOfSlot, waitingNow, hwaiting]
    dsimp only
    split
    · exact (hended _).trans (regainSlot_stays parallel (used + 1) _ now)
    · exact hended _

theorem Slot.addWaitingAsk_stays (phase : WaitPhase) (slot : Slot) (ask : RunAsk) :
    StaysIn slot (addWaitingAsk phase slot ask).1 := by
  unfold addWaitingAsk
  split
  next => rfl
  next waiting hwaiting =>
    split
    · rfl
    · constructor <;> simp [outOfSlot, waitingNow, hwaiting]

theorem Slot.addWaitingAsks_stays (phase : WaitPhase) (slot : Slot) (asks : List RunAsk) :
    StaysIn slot (addWaitingAsks phase slot asks).1 := by
  induction asks generalizing slot with
  | nil => rfl
  | cons ask asks ih => exact (addWaitingAsk_stays phase slot ask).trans (ih _)

theorem Slot.watchLive_stays (parallel used : Nat) (slot : Slot) (phase : WaitPhase) (look : Look) :
    StaysIn slot (slot.watchLive parallel used phase look).1 := by
  unfold watchLive
  split
  · rfl
  split
  · rfl
  generalize hseen : (if look.pulse = .silent then { slot with phase := slot.phase.silenced } else slot)
    = seen
  have hsame : StaysIn slot seen := by
    subst hseen
    split
    · exact ⟨id, id⟩
    · rfl
  dsimp only
  split
  · exact hsame.trans (endWait_stays ..)
  split
  · exact hsame.trans (endWait_stays ..)
  have hadded := hsame.trans (addWaitingAsks_stays phase seen look.unclosed)
  split
  · exact hadded
  · exact hadded.trans (endWait_stays ..)

theorem Slot.watchWaiting_stays {parallel used : Nat} {look : Look} {written : List Written}
    (h : slot.watchWaiting parallel used look = some (slot', written)) : StaysIn slot slot' := by
  unfold watchWaiting at h
  split_ifs at h
  · cases h
    rfl
  · rw [← show _ = slot' from congrArg Prod.fst (Option.some.inj h)]
    exact endWait_stays ..
  · rw [← show _ = slot' from congrArg Prod.fst (Option.some.inj h)]
    exact watchLive_stays ..

end StaysIn

/-! ## Counting slots -/

/-- A part of the runs out of the slots, which a run only enters by a new wait. -/
structure Counted (p : Slot → Bool) : Prop where
  out : ∀ slot, p slot = true → slot.outOfSlot = true
  stays : ∀ slot slot', StaysIn slot slot' → p slot' = true → p slot = true

theorem counted_outOfSlot : Counted Slot.outOfSlot := ⟨fun _ => id, fun _ _ h => h.out⟩

theorem counted_waitingNow : Counted Slot.waitingNow := by
  refine ⟨fun slot h => ?_, fun _ _ h => h.waiting⟩
  cases hw : slot.waiting <;> simp_all [Slot.waitingNow, Slot.outOfSlot]

/-- The limit is not passed where it was kept. -/
structure KeepsLimit (p : Slot → Bool) (sv sv' : Supervisor) : Prop where
  limit : sv'.maxWaiting = sv.maxWaiting
  kept : sv.slots.countP p ≤ sv.maxWaiting → sv'.slots.countP p ≤ sv.maxWaiting

section KeepsLimit

variable {p : Slot → Bool} {sv sv' sv'' : Supervisor}

@[refl] theorem KeepsLimit.refl (sv : Supervisor) : KeepsLimit p sv sv := ⟨rfl, id⟩

theorem KeepsLimit.trans (h : KeepsLimit p sv sv') (h' : KeepsLimit p sv' sv'') :
    KeepsLimit p sv sv'' :=
  ⟨h'.limit.trans h.limit, fun hkept => h.limit ▸ h'.kept (h.limit.symm ▸ h.kept hkept)⟩

theorem KeepsLimit.of_le (hlimit : sv'.maxWaiting = sv.maxWaiting)
    (h : sv'.slots.countP p ≤ sv.slots.countP p) : KeepsLimit p sv sv' :=
  ⟨hlimit, h.trans⟩

theorem countP_set_le {slots : List Slot} {index : Nat} {slot slot' : Slot}
    (hslot : slots[index]? = some slot) (h : p slot' = true → p slot = true) :
    (slots.set index slot').countP p ≤ slots.countP p := by
  obtain ⟨hlt, rfl⟩ := List.getElem?_eq_some_iff.mp hslot
  have hpos : p slots[index] = true → 0 < slots.countP p := fun hp =>
    List.countP_pos_iff.mpr ⟨_, List.getElem_mem hlt, hp⟩
  rw [List.countP_set]
  · by_cases hp : p slots[index] = true
    · have hcount := hpos hp
      split_ifs <;> omega
    · rw [if_neg fun hp' => hp (h hp'), if_neg hp]
      omega
  · exact hlt

theorem countP_set_le_succ {slots : List Slot} {index : Nat} {slot' : Slot} :
    (slots.set index slot').countP p ≤ slots.countP p + 1 := by
  by_cases hlt : index < slots.length
  · rw [List.countP_set]
    · split_ifs <;> omega
    · exact hlt
  · rw [List.set_eq_of_length_le (by omega)]
    omega

theorem Counted.le (hp : Counted p) (slots : List Slot) : slots.countP p ≤ slots.countP Slot.outOfSlot :=
  List.countP_mono_left fun slot _ => hp.out slot

theorem KeepsLimit.startWait (hp : Counted p) {view : View} {index : Nat} {ask : RunAsk}
    (hroom : sv.waitingRuns < sv.maxWaiting) (hnext : sv.startWait view index ask = some sv') :
    KeepsLimit p sv sv' := by
  unfold Supervisor.startWait at hnext
  simp only [Option.bind_eq_bind, Option.bind_eq_some_iff] at hnext
  obtain ⟨slot, -, phase, -, status, -, hnext⟩ := hnext
  split_ifs at hnext
  · cases hnext
  · obtain rfl := Option.some.inj hnext
    refine ⟨rfl, fun _ => ?_⟩
    rw [Supervisor.waitingRuns_eq] at hroom
    calc _ ≤ (sv.slots.set index _).countP Slot.outOfSlot := hp.le _
      _ ≤ sv.slots.countP Slot.outOfSlot + 1 := countP_set_le_succ
      _ ≤ sv.maxWaiting := hroom

theorem KeepsLimit.deferWait (hp : Counted p) {view : View} {index : Nat} {ask : RunAsk}
    (hnext : sv.deferWait view index ask = some sv') : KeepsLimit p sv sv' := by
  unfold Supervisor.deferWait at hnext
  simp only [Option.bind_eq_bind, Option.bind_eq_some_iff] at hnext
  obtain ⟨slot, hslot, hnext⟩ := hnext
  split_ifs at hnext
  · cases hnext
    rfl
  · cases hnext
  · obtain rfl := Option.some.inj hnext
    exact .of_le rfl (countP_set_le hslot (hp.stays _ _ ⟨id, id⟩))

theorem KeepsLimit.startWaits (hp : Counted p) (sv : Supervisor) (view : View) :
    KeepsLimit p sv (sv.startWaits view) := by
  have hconsider (sv : Supervisor) (c : RunAsk × Nat) : KeepsLimit p sv (sv.consider view c) := by
    unfold Supervisor.consider
    split
    next hroom =>
      cases hnext : sv.startWait view c.2 c.1 with
      | none => rfl
      | some sv' => exact .startWait hp hroom hnext
    next =>
      cases hnext : sv.deferWait view c.2 c.1 with
      | none => rfl
      | some sv' => exact .deferWait hp hnext
  have hpass (candidates : List (RunAsk × Nat)) (sv : Supervisor) :
      KeepsLimit p sv (candidates.foldl (Supervisor.consider view) sv) := by
    induction candidates generalizing sv with
    | nil => rfl
    | cons c candidates ih => exact (hconsider sv c).trans (ih _)
  unfold Supervisor.startWaits
  split
  · rfl
  · exact hpass _ sv

theorem KeepsLimit.watch (hp : Counted p) (sv : Supervisor) (index : Nat) (look : Look) :
    KeepsLimit p sv (sv.watch index look) := by
  unfold Supervisor.watch
  split
  next => rfl
  next slot hslot =>
    split
    next => rfl
    next =>
      dsimp only
      split
      next => exact .of_le rfl (List.eraseIdx_sublist ..).countP_le
      next slot' written hwatch =>
        exact .of_le rfl (countP_set_le hslot (hp.stays _ _ (Slot.watchWaiting_stays hwatch)))

theorem KeepsLimit.returnRun (hp : Counted p) (sv : Supervisor) (written : RunId → Bool) (now : Int)
    (stamp : String) (index : Nat) : KeepsLimit p sv (sv.returnRun written now stamp index) := by
  unfold Supervisor.returnRun
  split
  next => rfl
  next slot hslot =>
    split
    next => rfl
    next =>
      have hle : (sv.slots.set index { slot with waiting := none }).countP p ≤ sv.slots.countP p :=
        countP_set_le hslot (hp.stays _ _ ⟨nofun, nofun⟩)
      dsimp only
      split <;> exact .of_le rfl hle

theorem KeepsLimit.returnWaitingRuns (hp : Counted p) (sv : Supervisor) (written : RunId → Bool)
    (now : Int) (stamp : String) : KeepsLimit p sv (sv.returnWaitingRuns written now stamp) := by
  unfold Supervisor.returnWaitingRuns
  generalize sv.returning = entries
  induction entries generalizing sv with
  | nil => rfl
  | cons entry entries ih =>
      unfold Supervisor.returnWaitingRuns.go
      split
      · rfl
      · exact (KeepsLimit.returnRun hp sv written now stamp entry.2).trans (ih _)

theorem KeepsLimit.push {slot : Slot} {log : List RunEvent}
    (h : p slot = true → sv.slots.countP p < sv.maxWaiting) :
    KeepsLimit p sv { sv with slots := sv.slots ++ [slot], log } := by
  refine ⟨rfl, fun hkept => ?_⟩
  rw [List.countP_append, List.countP_singleton]
  split
  next hslot => exact h hslot
  next => exact hkept

/-! ## Taking a run over -/

theorem Slot.regainSlot_outOfSlot (parallel used : Nat) (slot : Slot) (now : Int) :
    (regainSlot parallel used slot now).1.outOfSlot = false := by
  unfold regainSlot
  split
  next => rfl
  next hnone => simp [outOfSlot, hnone]

/-- Without room for a wait, a wait that lasts is ended with the run in its slot. -/
theorem Supervisor.restoreWaiting_inSlot (sv : Supervisor) {slot : Slot} (hnew : slot.waiting = none)
    (hlasts : ∀ state ∈ WaitState.of (runEvents sv.log slot.run), state.ended = none) (now : Int) :
    (sv.restoreWaiting slot false now).1.outOfSlot = false := by
  unfold restoreWaiting
  dsimp only
  split
  next => simp [Slot.outOfSlot, hnew]
  next state hstate =>
    have hended := hlasts state hstate
    simp only [hended, Option.map_none, Option.isSome_none, Bool.or_false, Bool.and_false,
      Bool.false_eq_true, if_false, Option.isNone_none, if_true]
    exact Slot.regainSlot_outOfSlot ..

/-- Without room for a wait, none is taken over. -/
theorem Supervisor.restoreWaiting_waitingNow (sv : Supervisor) {slot : Slot}
    (hnew : slot.waiting = none) (now : Int) :
    (sv.restoreWaiting slot false now).1.waitingNow = false := by
  have hin {slot : Slot} (hout : slot.outOfSlot = false) : slot.waitingNow = false :=
    Bool.eq_false_iff.mpr fun hnow => Bool.eq_false_iff.mp hout (counted_waitingNow.out slot hnow)
  cases hof : WaitState.of (runEvents sv.log slot.run) with
  | none => exact hin (sv.restoreWaiting_inSlot hnew (by simp [hof]) now)
  | some state =>
      cases hended : state.ended with
      | none => exact hin (sv.restoreWaiting_inSlot hnew (by simp [hof, hended]) now)
      | some at' =>
          unfold restoreWaiting
          simp only [hof, hended, Option.map_some, Option.isSome_some, Bool.false_or, Bool.and_true,
            Option.isNone_some, Bool.false_eq_true, if_false]
          split
          · rfl
          · exact hin (Slot.regainSlot_outOfSlot ..)

theorem runEvents_adopted (sv : Supervisor) (run : RunId) (task : TaskId) (stamp : String) :
    WaitState.of (runEvents (sv.record run task stamp [("run_adopted", {})]).log run) =
      WaitState.of (runEvents sv.log run) := by
  have hevents : runEvents (sv.record run task stamp [("run_adopted", {})]).log run =
      runEvents sv.log run ++ [{
        id := sv.log.length + 0 + 1
        taskId := some task
        runId := some run
        kind := "run_adopted"
        createdAt := stamp }] := by
    simp [Supervisor.record, runEvents]
  rw [hevents, ← tally_wait, tally_of_isNeutral rfl, tally_wait]

/-- An adoption keeps the limit on a part of the runs out of the slots that a run without room for a wait
does not come into. -/
theorem KeepsLimit.adopt (hp : Counted p) (sv : Supervisor) (run : RunId) (task : TaskId)
    (phase : Phase) (now : Int) (stamp : String)
    (hroom : p ((sv.record run task stamp [("run_adopted", {})]).restoreWaiting { run, task, phase }
      false now).1 = false) : KeepsLimit p sv (sv.adopt run task phase now stamp) := by
  unfold Supervisor.adopt
  dsimp only
  split
  · rfl
  · cases hwaits : sv.adoptsAsWaiting run with
    | false => exact .push fun hin => absurd hin (Bool.eq_false_iff.mp hroom)
    | true =>
        simp only [Supervisor.adoptsAsWaiting, Bool.and_eq_true, decide_eq_true_eq] at hwaits
        rw [Supervisor.waitingRuns_eq] at hwaits
        exact .push fun _ => (hp.le _).trans_lt hwaits.1.2

end KeepsLimit

/-! ## Whole runs -/

/-- No run is handed over past the limit. -/
def Op.handsOver : Op → Bool
  | .takeOver .. => true
  | _ => false

/-- Nor is one adopted that waits for a slot. -/
def Checked (sv : Supervisor) : Op → Prop
  | .takeOver .. => False
  | .adopt run .. => ∀ state ∈ WaitState.of (runEvents sv.log run), state.ended = none
  | _ => True

/-- `--max-waiting` bounds a part of the runs out of the slots. -/
def Within (p : Slot → Bool) (sv : Supervisor) : Prop := sv.slots.countP p ≤ sv.maxWaiting

/-- A step keeps the limit on a part of the runs out of the slots, where an adoption without room for a
wait does not add to it. -/
theorem KeepsLimit.next {p : Slot → Bool} (hp : Counted p) {sv : Supervisor} {op : Op}
    (hop : op.handsOver = false) (hadopt : ∀ run task phase now stamp,
      op = .adopt run task phase now stamp →
        p ((sv.record run task stamp [("run_adopted", {})]).restoreWaiting { run, task, phase }
          false now).1 = false)
    (h : Within p sv) : Within p (sv.next op) := by
  have hkept {sv' : Supervisor} (hk : KeepsLimit p sv sv') : Within p sv' := by
    rw [Within, hk.limit]
    exact hk.kept h
  cases op with
  | startWaits view => exact hkept (.startWaits hp sv view)
  | watch index look => exact hkept (.watch hp sv index look)
  | turn index phase =>
      unfold Supervisor.next
      dsimp only
      split
      next => exact h
      next slot hslot =>
        split
        · exact h
        · have hle : (sv.slots.set index { slot with phase }).countP p ≤ sv.slots.countP p :=
            countP_set_le hslot (hp.stays _ _ ⟨id, id⟩)
          exact hle.trans h
  | leaves index => exact (List.eraseIdx_sublist ..).countP_le.trans h
  | returnWaiting now stamp written => exact hkept (.returnWaitingRuns hp sv written now stamp)
  | opens run task phase =>
      exact hkept (.push fun hin => absurd (hp.out _ hin) (by simp [Slot.outOfSlot]))
  | adopt run task phase now stamp =>
      exact hkept (.adopt hp sv run task phase now stamp (hadopt run task phase now stamp rfl))
  | takeOver => cases hop
  | restart parallel maxWaiting => exact Nat.zero_le _
  | outside events => exact h

variable {parallel maxWaiting : Nat} {log : List RunEvent} {ops : List Op}

/-- The runs that wait stay within `--max-waiting`, whatever is adopted, as long as none is handed over. -/
theorem waiting_within_limit (hok : ∀ op ∈ ops, op.handsOver = false) :
    let sv := (machine parallel maxWaiting log).run ops
    sv.slots.countP Slot.waitingNow ≤ sv.maxWaiting := by
  have hstep (sv : Supervisor) (op : Op) (hop : op.handsOver = false)
      (h : Within Slot.waitingNow sv) : Within Slot.waitingNow (sv.next op) :=
    KeepsLimit.next counted_waitingNow hop
      (fun run task phase now stamp _ => Supervisor.restoreWaiting_waitingNow _ rfl now) h
  have hstart : Within Slot.waitingNow (machine parallel maxWaiting log).init := Nat.zero_le _
  have hrun : Within Slot.waitingNow ((machine parallel maxWaiting log).run ops) :=
    Machine.invariant_of_meets hstep (Machine.meets_of_forall _ hok _) hstart
  exact hrun

/-- The record of a wait that lasts. -/
def lastingLog : List RunEvent :=
  [{ id := 1, taskId := some 1, runId := some 1, kind := runWaitingStarted,
     payload := { askId := some 7, askKind := some "worker_question", phase := some "session" },
     createdAt := "2026-09-26T04:10:00.000Z" }]

theorem waiting_within_limit_adopted :
    let sv := (machine 1 2 lastingLog).run
      [.opens 2 2 .other, .adopt 1 1 (.session false false false false) 90 "2026-09-26T04:10:30.000Z"]
    sv.slots.countP Slot.waitingNow ≤ sv.maxWaiting := by
  intro sv
  have hok : ∀ op ∈ [Op.opens 2 2 .other,
      .adopt 1 1 (.session false false false false) 90 "2026-09-26T04:10:30.000Z"],
      op.handsOver = false := by
    simp [Op.handsOver]
  exact waiting_within_limit hok

/-- So do they with the runs that wait for a slot, as long as none of these is adopted either. -/
theorem waitingRuns_within_limit (hok : (machine parallel maxWaiting log).Meets Checked
      (machine parallel maxWaiting log).init ops) :
    let sv := (machine parallel maxWaiting log).run ops
    sv.waitingRuns ≤ sv.maxWaiting := by
  have hstep (sv : Supervisor) (op : Op) (hop : Checked sv op) (h : Within Slot.outOfSlot sv) :
      Within Slot.outOfSlot (sv.next op) := by
    refine KeepsLimit.next counted_outOfSlot ?_ (fun run task phase now stamp heq => ?_) h
    · cases op <;> first | rfl | exact hop.elim
    · subst heq
      refine Supervisor.restoreWaiting_inSlot _ rfl ?_ now
      rw [runEvents_adopted]
      exact hop
  have hstart : Within Slot.outOfSlot (machine parallel maxWaiting log).init := Nat.zero_le _
  have hrun : Within Slot.outOfSlot ((machine parallel maxWaiting log).run ops) :=
    Machine.invariant_of_meets hstep hok hstart
  intro sv
  rw [Supervisor.waitingRuns_eq]
  exact hrun

theorem waitingRuns_within_limit_adopted :
    let sv := (machine 1 2 lastingLog).run
      [.opens 2 2 .other, .adopt 1 1 (.session false false false false) 90 "2026-09-26T04:10:30.000Z"]
    sv.waitingRuns ≤ sv.maxWaiting := by
  intro sv
  have hok : (machine 1 2 lastingLog).Meets Checked (machine 1 2 lastingLog).init
      [.opens 2 2 .other, .adopt 1 1 (.session false false false false) 90 "2026-09-26T04:10:30.000Z"] := by
    refine ⟨trivial, fun state hstate => ?_, trivial⟩
    cases hstate
    rfl
  exact waitingRuns_within_limit hok

end Dagq.Waits
