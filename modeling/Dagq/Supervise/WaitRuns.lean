/-
# Dagq.Supervise.WaitRuns -- waits over the whole life of a supervisor, its restarts included.

A step is settled when no other process writes about the waits of a run in a slot or takes its lease, a
run comes into a slot once, and a new slot is for a run whose lease was just taken.  Along settled steps
every slot agrees with the record of its run, and the records stay orderly.
-/
import Dagq.Supervise.WaitAgreement

namespace Dagq.Waits

open Lib

/-! ## Settled steps -/

/-- Nothing of a wait since the run's lease was last taken, given up or lost. -/
def Fresh (events : List RunEvent) : Prop :=
  WaitState.of events = none ∧ (tally events).settled = [] ∧ (tally events).deferred = []

instance (events : List RunEvent) : Decidable (Fresh events) :=
  inferInstanceAs (Decidable (_ ∧ _))

/-- A run in a slot is this supervisor's alone, and its returns are recorded. -/
def Settled (sv : Supervisor) : Op → Prop
  | .returnWaiting _ _ written => ∀ slot ∈ sv.slots, written slot.run = true
  | .opens run _ _ => run ∉ sv.slots.map Slot.run ∧ Fresh (runEvents sv.log run)
  | .adopt run .. | .takeOver run .. => run ∉ sv.slots.map Slot.run
  | .outside events => ∀ slot ∈ sv.slots, ∀ event ∈ runEvents events slot.run, event.isNeutral = true
  | _ => True

/-- What the others record on their runs is orderly too. -/
def Lawful (sv : Supervisor) : Op → Prop
  | .outside events => ∀ run, run ∉ sv.slots.map Slot.run →
      LegalFrom (runEvents sv.log run) (runEvents events run)
  | _ => True

section Sound

variable {p : Prop} {sv : Supervisor}

/-! ## What others record -/

theorem agrees_of_neutral {slot : Slot} {events new : List RunEvent} (h : Agrees slot events)
    (hn : ∀ event ∈ new, event.isNeutral = true) : Agrees slot (events ++ new) := by
  induction new generalizing events with
  | nil => rwa [List.append_nil]
  | cons event new ih =>
      obtain ⟨hevent, hnew⟩ := List.forall_mem_cons.mp hn
      rw [List.append_cons]
      exact ih (h.neutral hevent) hnew

theorem legalFrom_of_neutral {events new : List RunEvent}
    (hn : ∀ event ∈ new, event.isNeutral = true) : LegalFrom events new := by
  induction new generalizing events with
  | nil => trivial
  | cons event new ih =>
      obtain ⟨hevent, hnew⟩ := List.forall_mem_cons.mp hn
      exact ⟨legal_of_isNeutral hevent, ih hnew⟩

theorem Sound.outside (h : Sound p sv) {events : List RunEvent}
    (hmine : ∀ slot ∈ sv.slots, ∀ event ∈ runEvents events slot.run, event.isNeutral = true)
    (hothers : p → ∀ run, run ∉ sv.slots.map Slot.run →
      LegalFrom (runEvents sv.log run) (runEvents events run)) :
    Sound p { sv with log := sv.log ++ events } := by
  refine ⟨h.runs, fun slot hslot => ?_, fun hp run => ?_⟩
  · dsimp only
    rw [runEvents_append]
    exact agrees_of_neutral (h.agrees slot hslot) (hmine slot hslot)
  · dsimp only
    rw [runEvents_append]
    refine orderly_append.mpr ⟨h.orderly hp run, ?_⟩
    by_cases hrun : run ∈ sv.slots.map Slot.run
    · obtain ⟨slot, hslot, rfl⟩ := List.mem_map.mp hrun
      exact legalFrom_of_neutral (hmine slot hslot)
    · exact hothers hp run hrun

/-! ## Going back to a slot -/

/-- No wait of the slot lasts. -/
theorem Supervisor.mem_returning {sv : Supervisor} {entry : Int × Nat} (h : entry ∈ sv.returning) :
    ∃ slot, sv.slots[entry.2]? = some slot ∧ slot.waitingNow = false := by
  obtain ⟨⟨slot, index⟩, hslot, hentry⟩ := List.mem_filterMap.mp (List.mem_mergeSort.mp h)
  obtain ⟨ended, hended, rfl⟩ := Option.map_eq_some_iff.mp hentry
  refine ⟨slot, List.mk_mem_zipIdx_iff_getElem?.mp hslot, ?_⟩
  obtain ⟨waiting, hwaiting, hended⟩ := Option.bind_eq_some_iff.mp hended
  simp [Slot.waitingNow, hwaiting, hended]

/-- Runs go back to their slots: a slot is as it was, or its wait, which had ended, is gone. -/
structure Returns (p : Prop) (sv sv' : Supervisor) : Prop where
  sound : Sound p sv'
  slots : ∀ (j : Nat) (slot' : Slot), sv'.slots[j]? = some slot' → ∃ slot, sv.slots[j]? = some slot ∧
    (slot' = slot ∨ slot' = { slot with waiting := none })

theorem Sound.returnRun (h : Sound p sv) {written : RunId → Bool} {index : Nat}
    (hwritten : ∀ slot ∈ sv.slots, written slot.run = true)
    (hover : ∀ slot, sv.slots[index]? = some slot → slot.waitingNow = false) (now : Int)
    (stamp : String) : Returns p sv (sv.returnRun written now stamp index) := by
  have hsame : Returns p sv sv := ⟨h, fun _ slot hslot => ⟨slot, hslot, .inl rfl⟩⟩
  unfold Supervisor.returnRun
  split
  next => exact hsame
  next slot hslot =>
    have hmem := List.mem_of_getElem? hslot
    split
    next => exact hsame
    next waiting hwaiting =>
      have hended : waiting.ended ≠ none := by
        have hover := hover slot hslot
        intro hlasts
        simp [Slot.waitingNow, hwaiting, hlasts] at hover
      dsimp only
      rw [if_pos (hwritten slot hmem)]
      refine ⟨h.set hslot ?_ slot.task stamp, fun j slot' hj => ?_⟩
      · refine .single rfl fun event hkind _ => ?_
        exact (h.agrees slot hmem).regains hwaiting hended hkind
      by_cases hij : index = j
      · subst hij
        replace hj : (sv.slots.set index { slot with waiting := none })[index]? = some slot' := hj
        rw [List.getElem?_set_self (List.getElem?_eq_some_iff.mp hslot).1] at hj
        cases hj
        exact ⟨slot, hslot, .inr rfl⟩
      · replace hj : (sv.slots.set index { slot with waiting := none })[j]? = some slot' := hj
        rw [List.getElem?_set_ne hij] at hj
        exact ⟨slot', hj, .inl rfl⟩

theorem Sound.returnWaitingRuns (h : Sound p sv) {written : RunId → Bool}
    (hwritten : ∀ slot ∈ sv.slots, written slot.run = true) (now : Int) (stamp : String) :
    Sound p (sv.returnWaitingRuns written now stamp) := by
  have hloop (entries : List (Int × Nat)) : ∀ {sv : Supervisor}, Sound p sv →
      (∀ slot ∈ sv.slots, written slot.run = true) →
      (∀ entry ∈ entries, ∀ slot, sv.slots[entry.2]? = some slot → slot.waitingNow = false) →
      Sound p (Supervisor.returnWaitingRuns.go written now stamp entries sv) := by
    induction entries with
    | nil => exact fun h _ _ => h
    | cons entry entries ih =>
        intro sv h hwritten hover
        obtain ⟨hentry, hover⟩ := List.forall_mem_cons.mp hover
        unfold Supervisor.returnWaitingRuns.go
        split
        · exact h
        · have hnext := h.returnRun hwritten hentry now stamp
          refine ih hnext.sound (fun slot' hslot' => ?_) fun other hother slot' hslot' => ?_
          · obtain ⟨j, hj⟩ := List.mem_iff_getElem?.mp hslot'
            obtain ⟨slot, hslot, hcase⟩ := hnext.slots j slot' hj
            have hrun : slot'.run = slot.run := by rcases hcase with rfl | rfl <;> rfl
            rw [hrun]
            exact hwritten slot (List.mem_of_getElem? hslot)
          · obtain ⟨slot, hslot, rfl | rfl⟩ := hnext.slots _ slot' hslot'
            · exact hover other hother _ hslot
            · rfl
  refine hloop sv.returning h hwritten fun entry hentry slot hslot => ?_
  obtain ⟨slot', hslot', hover⟩ := Supervisor.mem_returning hentry
  rw [hslot] at hslot'
  cases hslot'
  exact hover

/-! ## Each step -/

theorem Sound.watch (h : Sound p sv) (index : Nat) (look : Look) : Sound p (sv.watch index look) := by
  unfold Supervisor.watch
  split
  next => exact h
  next slot hslot =>
    split
    next => exact h
    next =>
      dsimp only
      split
      next => exact h.sublist (List.eraseIdx_sublist ..)
      next slot' written hwatch =>
        exact h.set hslot (Slot.watchWaiting_keeps (h.agrees slot (List.mem_of_getElem? hslot)) _ _ look
          hwatch) slot.task look.stamp

theorem Sound.takeOver (h : Sound p sv) {run : RunId} (hfresh : run ∉ sv.slots.map Slot.run)
    (task : TaskId) (phase : Phase) (asWaiting : Bool) (now : Int) (stamp : String) :
    Sound p (sv.takeOver run task phase asWaiting now stamp) := by
  have hkeeps : Keeps run (runEvents sv.log run)
      (sv.restoreWaiting { run, task, phase } asWaiting now) :=
    sv.restoreWaiting_keeps { run, task, phase } rfl asWaiting now
  exact h.push hfresh hkeeps task stamp

theorem Sound.adopt (h : Sound p sv) {run : RunId} (hfresh : run ∉ sv.slots.map Slot.run)
    (task : TaskId) (phase : Phase) (now : Int) (stamp : String) :
    Sound p (sv.adopt run task phase now stamp) := by
  unfold Supervisor.adopt
  dsimp only
  split
  · exact h
  · have hneutral (r : RunId) : ∀ event ∈ runEvents
        ((sv.record run task stamp [("run_adopted", {})]).log.drop sv.log.length) r,
        event.isNeutral = true := by
      intro event hevent
      have hmem := (List.mem_filter.mp hevent).1
      simp only [Supervisor.record, List.drop_left, List.zipIdx_cons, List.zipIdx_nil, List.map_cons,
        List.map_nil, List.mem_singleton] at hmem
      subst hmem
      rfl
    have hlog : (sv.record run task stamp [("run_adopted", {})]).log =
        sv.log ++ (sv.record run task stamp [("run_adopted", {})]).log.drop sv.log.length := by
      simp [Supervisor.record]
    have hrecord : Sound p (sv.record run task stamp [("run_adopted", {})]) := by
      have houtside := h.outside (fun slot _ => hneutral slot.run)
        fun _ r _ => legalFrom_of_neutral (hneutral r)
      rwa [← hlog] at houtside
    exact hrecord.takeOver hfresh task phase _ now stamp

theorem Sound.turn (h : Sound p sv) {index : Nat} {slot : Slot} (hslot : sv.slots[index]? = some slot)
    (phase : Phase) : Sound p { sv with slots := sv.slots.set index { slot with phase } } := by
  have hkeeps : Keeps slot.run (runEvents sv.log slot.run) ({ slot with phase }, []) :=
    .nothing ((h.agrees slot (List.mem_of_getElem? hslot)).phase phase)
  simpa [Supervisor.record] using h.set hslot hkeeps slot.task ""

theorem Sound.opens (h : Sound p sv) {run : RunId} (hrun : run ∉ sv.slots.map Slot.run)
    (hfresh : Fresh (runEvents sv.log run)) (task : TaskId) (phase : Phase) :
    Sound p { sv with slots := sv.slots ++ [{ run, task, phase }] } := by
  obtain ⟨hwait, hsettled, hdeferred⟩ := hfresh
  have hagrees : Agrees { run, task, phase } (runEvents sv.log run) :=
    ⟨by rw [hwait]; rfl, by simp [hsettled], by simp, by simp [hdeferred], by simp⟩
  simpa [Supervisor.record] using h.push hrun (Keeps.nothing hagrees) task ""

/-- A settled step keeps every slot in agreement with the record of its run, and the records orderly. -/
theorem Sound.next (h : Sound p sv) {op : Op} (hok : Settled sv op) (hlawful : p → Lawful sv op) :
    Sound p (sv.next op) := by
  cases op with
  | startWaits view => exact h.startWaits view
  | watch index look => exact h.watch index look
  | turn index phase =>
      unfold Supervisor.next
      dsimp only
      split
      next => exact h
      next slot hslot =>
        split
        · exact h
        · exact h.turn hslot phase
  | leaves index => exact h.sublist (List.eraseIdx_sublist ..)
  | returnWaiting now stamp written => exact h.returnWaitingRuns hok now stamp
  | opens run task phase => exact h.opens hok.1 hok.2 task phase
  | adopt run task phase now stamp => exact h.adopt hok task phase now stamp
  | takeOver run task phase now stamp => exact h.takeOver hok task phase true now stamp
  | restart parallel maxWaiting => exact ⟨List.nodup_nil, nofun, h.orderly⟩
  | outside events => exact h.outside hok hlawful

end Sound

/-! ## Whole runs -/

variable {parallel maxWaiting : Nat} {log : List RunEvent} {ops : List Op}

/-- A supervisor that starts has no slots to disagree. -/
theorem sound_init : Sound (∀ run, Orderly (runEvents log run)) (machine parallel maxWaiting log).init :=
  ⟨List.nodup_nil, nofun, id⟩

/-- A run in a slot, handed over at any time, goes on in the wait it was in: what its events rebuild is
the slot's wait, its asks and how it ended, nothing new is recorded, and no ask the slot took as consumed
or deferred is forgotten. -/
theorem wait_survives (hok : (machine parallel maxWaiting log).Meets Settled
      (machine parallel maxWaiting log).init ops)
    {slot : Slot} (hslot : slot ∈ ((machine parallel maxWaiting log).run ops).slots) {phase : Phase}
    (hphase : phase.waitPhase.isSome = true) (task : TaskId) (now : Int) :
    let rebuilt := ((machine parallel maxWaiting log).run ops).restoreWaiting
      { run := slot.run, task, phase } true now
    rebuilt.2 = [] ∧ rebuilt.1.waiting.map Waiting.view = slot.waiting.map Waiting.view ∧
      (∀ a ∈ slot.consumed, a ∈ rebuilt.1.consumed) ∧ ∀ a ∈ slot.deferred, a ∈ rebuilt.1.deferred := by
  have hsound : Sound False ((machine parallel maxWaiting log).run ops) :=
    Machine.invariant_of_meets (fun _ _ hok h => h.next hok nofun) hok ⟨List.nodup_nil, nofun, nofun⟩
  have hagrees := hsound.agrees slot hslot
  generalize (machine parallel maxWaiting log).run ops = sv at hagrees hslot
  dsimp only [Supervisor.restoreWaiting]
  have hwait := hagrees.wait
  split
  next hnone =>
    rw [hnone] at hwait
    exact ⟨rfl, hwait, hagrees.consumed, hagrees.deferred⟩
  next state hstate =>
    rw [if_pos (by rw [hphase]; rfl)]
    refine ⟨rfl, ?_, hagrees.consumed, hagrees.deferred⟩
    rw [← hwait, hstate]
    simp [WaitState.view, Waiting.view, WaitState.held, Function.comp_def]

/-- A first session that waits for the answer of its question. -/
def exampleSession : Phase := .session false false false false

/-- A look at it that finds one more ask, a dialog. -/
def exampleLook : Look where
  holdsLease := true
  wrapper := true
  pulse := .fresh
  held := false
  unclosed := [{ id := 7, kind := .workerQuestion }, { id := 8, kind := .answerPrompt }]
  readAsk id := { id, kind := .workerQuestion }
  receipt := false
  moved := false
  screen := none
  now := 100
  stamp := "2026-09-26T04:11:00.000Z"

/-- A wait recorded before a handoff. -/
def exampleLog : List RunEvent :=
  [{ id := 1, taskId := some 1, runId := some 1, kind := runWaitingStarted,
     payload := { askId := some 7, askKind := some "worker_question", phase := some "session" },
     createdAt := "2026-09-26T04:10:00.000Z" }]

theorem wait_survives_handoff :
    let sv := (machine 1 4 exampleLog).run
      [.takeOver 1 1 exampleSession 90 "2026-09-26T04:10:30.000Z", .watch 0 exampleLook]
    (sv.restoreWaiting { run := 1, task := 1, phase := exampleSession } true 200).1.waiting.map
      Waiting.view = some ([(7, .workerQuestion), (8, .answerPrompt)], none) := by
  have hok : (machine 1 4 exampleLog).Meets Settled (machine 1 4 exampleLog).init
      [.takeOver 1 1 exampleSession 90 "2026-09-26T04:10:30.000Z", .watch 0 exampleLook] :=
    ⟨List.not_mem_nil, trivial, trivial⟩
  have hslot : ({
      run := 1
      task := 1
      phase := exampleSession
      waiting := some {
        asks := [(7, .workerQuestion), (8, .answerPrompt)]
        startedAt := 1790395800 } } : Slot) ∈ ((machine 1 4 exampleLog).run
      [.takeOver 1 1 exampleSession 90 "2026-09-26T04:10:30.000Z", .watch 0 exampleLook]).slots := by
    decide +kernel
  exact (wait_survives hok hslot rfl 1 200).2.1.trans rfl

/-- Along settled steps every run's record stays orderly: a wait starts only where none lasts and none
waits for its slot, ends once, gives the slot back once it ended, and no ask is held by two waits that
ended or deferred twice under one lease. -/
theorem records_orderly (hlog : ∀ run, Orderly (runEvents log run))
    (hok : (machine parallel maxWaiting log).Meets (fun sv op => Settled sv op ∧ Lawful sv op)
      (machine parallel maxWaiting log).init ops) (run : RunId) :
    let events := runEvents ((machine parallel maxWaiting log).run ops).log run
    Orderly events ∧ (tally events).settled.Nodup ∧ (tally events).deferred.Nodup := by
  have hsound : Sound (∀ run, Orderly (runEvents log run)) ((machine parallel maxWaiting log).run ops) :=
    Machine.invariant_of_meets (fun _ _ hok h => h.next hok.1 fun _ => hok.2) hok sound_init
  have horderly := hsound.orderly hlog run
  exact ⟨horderly, horderly.once⟩

theorem records_orderly_handoff :
    let ops : List Op := [.opens 1 1 exampleSession, .startWaits {
      unclosed := fun _ => some [{ id := 7, kind := .workerQuestion }]
      alive := fun _ => some true
      hold := fun _ => some false
      status := fun _ => some "running"
      written := fun _ => true
      now := 80
      stamp := "2026-09-26T04:10:00.000Z" }, .restart 1 4,
      .takeOver 1 1 exampleSession 90 "2026-09-26T04:10:30.000Z", .watch 0 exampleLook,
      .returnWaiting 110 "2026-09-26T04:12:00.000Z" fun _ => true]
    let events := runEvents ((machine 1 4 []).run ops).log 1
    Orderly events ∧ (tally events).settled.Nodup ∧ (tally events).deferred.Nodup := by
  intro ops
  have hok : (machine 1 4 []).Meets (fun sv op => Settled sv op ∧ Lawful sv op)
      (machine 1 4 []).init ops :=
    ⟨⟨⟨List.not_mem_nil, by decide⟩, trivial⟩, ⟨trivial, trivial⟩, ⟨trivial, trivial⟩,
      ⟨List.not_mem_nil, trivial⟩, ⟨trivial, trivial⟩, ⟨fun _ _ => rfl, trivial⟩, trivial⟩
  have hlog (run : RunId) : Orderly (runEvents [] run) := trivial
  exact records_orderly hlog hok 1

end Dagq.Waits
