/-
# Dagq.Supervise.Waiting -- leaving a slot to wait for a person, and going back to one.

A run whose live session waits only for the answer of one of its asks leaves its slot, within
`--max-waiting`; its session is watched without anything sent to it.  Once the wait ends it goes back, at
once when a person already moved the session, else when a slot is free.  A step takes what it reads of
the queue, the session and the clock as an argument, and a write of the queue may fail.
-/
import Dagq.Domain.Waiting
import Dagq.Lib.Machine

namespace Dagq.Waits

open Lib

/-- What of a slot's phase decides whether its run may wait: a silent wrapper, a recovery job in
progress, an `/exit` that was requested, a session that is there, a receipt that was seen. -/
inductive Phase
  | session (exitRequested silent recovering receiptSeen : Bool)
  | exiting (present silent recovering : Bool)
  | revise (silent recovering : Bool)
  | resume (exitRequested silent recovering liveRecovering : Bool)
  | other
  deriving DecidableEq

namespace Phase

/-- The phase a run may wait in. -/
def waitPhase : Phase → Option WaitPhase
  | .session exitRequested silent recovering _ =>
      if !exitRequested && !silent && !recovering then some .session else none
  | .exiting present _ recovering => if present && !recovering then some .exit else none
  | .revise silent recovering => if !silent && !recovering then some .revise else none
  | .resume exitRequested silent recovering liveRecovering =>
      if !exitRequested && !silent && !recovering && !liveRecovering then some .resume else none
  | .other => none

/-- The wrapper's silence is noted. -/
def silenced : Phase → Phase
  | .session exitRequested _ recovering receiptSeen => .session exitRequested true recovering receiptSeen
  | .exiting present _ recovering => .exiting present true recovering
  | .revise _ recovering => .revise true recovering
  | .resume exitRequested _ recovering liveRecovering =>
      .resume exitRequested true recovering liveRecovering
  | .other => .other

/-- A first session that has not seen its receipt yet. -/
def awaitsReceipt : Phase → Bool
  | .session _ _ _ receiptSeen => !receiptSeen
  | _ => false

end Phase

/-- An ask of a run, as far as a wait reads it. -/
structure RunAsk where
  id : AskId
  kind : AskKind
  answeredAt : Option Int := none
  closedAt : Option Int := none

/-- Neither answered nor closed. -/
def RunAsk.isOpen (ask : RunAsk) : Bool := ask.answeredAt.isNone && ask.closedAt.isNone

/-- The wait of one slot's run. -/
structure Waiting where
  /-- The asks the wait holds, oldest first. -/
  asks : List (AskId × AskKind)
  startedAt : Int
  /-- When and how it ended, for a run that waits for a free slot. -/
  ended : Option (Int × WaitCause) := none
  deriving DecidableEq

structure Slot where
  run : RunId
  task : TaskId
  phase : Phase
  waiting : Option Waiting := none
  /-- The asks of the waits that ended. -/
  consumed : List AskId := []
  /-- The asks `run_waiting_deferred` was recorded for. -/
  deferred : List AskId := []
  deriving DecidableEq

/-- An event to record on a slot's run. -/
abbrev Written : Type := String × Payload

namespace Slot

/-- Waiting, or waiting to go back. -/
def outOfSlot (slot : Slot) : Bool := slot.waiting.isSome

def waitingNow (slot : Slot) : Bool := slot.waiting.any (·.ended.isNone)

/-! ## Ending a wait -/

/-- The event of a run that is back in a slot; `used` is the slots in use with it. -/
def regained (parallel used : Nat) (waiting : Waiting) (now : Int) : Written :=
  (runSlotRegained, {
    slotWaitSecs := some (now - (waiting.ended.map (·.1)).getD now)
    overParallel := some (parallel < used) })

/-- Put a run whose wait ended back in its slot. -/
def regainSlot (parallel used : Nat) (slot : Slot) (now : Int) : Slot × List Written :=
  match slot.waiting with
  | some waiting => ({ slot with waiting := none }, [regained parallel used waiting now])
  | none => (slot, [])

/-- How a wait that started at `startedAt` ended, and by which ask. -/
def endedEvent (startedAt : Int) (cause : WaitCause) (ask : Option (AskId × AskKind)) (now : Int) :
    Written :=
  (runWaitingEnded, {
    askId := ask.map (·.1)
    askKind := ask.map (·.2.text)
    cause := some cause.text
    waitedSecs := some (now - startedAt) })

/-- End the slot's wait; `used` is the slots in use without it.  A session that a person already moved
is back in its slot at once, otherwise it waits for a free one. -/
def endWait (parallel used : Nat) (slot : Slot) (cause : WaitCause) (ask : Option (AskId × AskKind))
    (now : Int) : Slot × List Written :=
  match slot.waiting with
  | none => (slot, [])
  | some waiting =>
      let event := endedEvent waiting.startedAt cause ask now
      let slot := { slot with
        consumed := slot.consumed ++ waiting.asks.map (·.1)
        waiting := some { waiting with ended := some (now, cause) } }
      if cause.returnsAtOnce then
        let (slot, back) := regainSlot parallel (used + 1) slot now
        (slot, event :: back)
      else (slot, [event])

/-! ## One look at a waiting run -/

/-- An ask of the table opened since joins the wait. -/
def addWaitingAsk (phase : WaitPhase) (slot : Slot) (ask : RunAsk) : Slot × List Written :=
  match slot.waiting with
  | none => (slot, [])
  | some waiting =>
      if !ask.isOpen || !waitsFor phase ask.kind || ask.id ∈ slot.consumed
          || waiting.asks.any fun held => held.1 = ask.id then (slot, [])
      else
        ({ slot with waiting := some { waiting with asks := waiting.asks ++ [(ask.id, ask.kind)] } },
          [(runWaitingAskAdded, { askId := some ask.id, askKind := some ask.kind.text })])

/-- The asks of the table opened since join the wait. -/
def addWaitingAsks (phase : WaitPhase) : Slot → List RunAsk → Slot × List Written
  | slot, [] => (slot, [])
  | slot, ask :: asks =>
      let (slot, first) := addWaitingAsk phase slot ask
      let (slot, rest) := addWaitingAsks phase slot asks
      (slot, first ++ rest)

end Slot

/-- What the wrapper of a session shows. -/
inductive WrapperPulse
  | fresh | exited | silent
  deriving DecidableEq

/-- A screen read for the dialog a session waits at: a login that ran out and was raised, a dialog, an
input box that is ready, and whether a resumed session still waits for its request. -/
structure Screen where
  authRaised : Bool
  prompt : Bool
  inputReady : Bool
  unsent : Bool

/-- How the screen ends the wait, if it does. -/
def dialogEnded (screen : Screen) : Option WaitCause :=
  if screen.authRaised then some .queueHold
  else if screen.prompt then none
  else if screen.unsent then if screen.inputReady then some .dialogCleared else none
  else some .dialogCleared

/-- What one look at a run out of the slots reads. -/
structure Look where
  holdsLease : Bool
  /-- A wrapper that neither recorded its exit nor died. -/
  wrapper : Bool
  pulse : WrapperPulse
  /-- A hold of the queue holds the run. -/
  held : Bool
  unclosed : List RunAsk
  readAsk : AskId → RunAsk
  /-- The first session's receipt is there. -/
  receipt : Bool
  /-- A marker of the session is newer than the wait's first ask. -/
  moved : Bool
  /-- The screen, when it is due and could be read. -/
  screen : Option Screen
  now : Int
  stamp : String

/-- How the wait of a live session ends now, and by which of the asks it holds. -/
def judge (phase : WaitPhase) (watch : Phase) (held : List (AskId × AskKind)) (look : Look) :
    Option (WaitCause × Option (AskId × AskKind)) :=
  let heldKind (kind : AskKind) := held.find? fun ask => ask.2 = kind
  let answered := held.find? fun ask => ask.2 = .workerQuestion &&
    ((look.readAsk ask.1).answeredAt.isSome || (look.readAsk ask.1).closedAt.isSome)
  let moves := (heldKind .answerPrompt).or (heldKind .stalled)
  if answered.isSome then some (.answered, answered)
  -- A receipt the first session wrote during the wait moved it on, whatever it waited for.
  else if watch.awaitsReceipt && look.receipt then some (.sessionMoved, held.head?)
  -- A revise or a resume goes on only once its own question is answered.
  else if phase.fixes && (heldKind .workerQuestion).isSome then none
  else if moves.isSome && look.moved then some (.sessionMoved, moves)
  else if phase = .exit then none
  else do
    let ask ← heldKind .answerPrompt
    let cause ← look.screen.bind dialogEnded
    return (cause, some ask)

namespace Slot

/-- A look at a waiting run whose session lives. -/
def watchLive (parallel used : Nat) (slot : Slot) (phase : WaitPhase) (look : Look) :
    Slot × List Written :=
  if slot.phase = .other then (slot, [])
  else if look.pulse = .exited then (slot, [])
  else
    let slot := if look.pulse = .silent then { slot with phase := slot.phase.silenced } else slot
    if look.pulse = .silent && phase ≠ .exit then
      slot.endWait parallel used .wrapperSilent none look.now
    else if look.held then slot.endWait parallel used .queueHold none look.now
    else
      let (slot, added) := addWaitingAsks phase slot look.unclosed
      match judge phase slot.phase ((slot.waiting.map (·.asks)).getD []) look with
      | none => (slot, added)
      | some (cause, ask) =>
          let (slot, ended) := slot.endWait parallel used cause ask look.now
          (slot, added ++ ended)

/-- One look at a run out of the slots; `none` when its lease is another's.  A run waiting to go back
only keeps its lease checked. -/
def watchWaiting (parallel used : Nat) (slot : Slot) (look : Look) : Option (Slot × List Written) :=
  if !look.holdsLease then none
  else if !slot.waitingNow then some (slot, [])
  else
    let phase := slot.phase.waitPhase.getD .session
    if !look.wrapper then some (slot.endWait parallel used .sessionExited none look.now)
    else some (slot.watchLive parallel used phase look)

end Slot

/-! ## The supervisor -/

/-- The supervisor's slots and the event log of its queue. -/
structure Supervisor where
  parallel : Nat
  maxWaiting : Nat
  slots : List Slot := []
  log : List RunEvent := []

/-- What a pass reads of the queue before the waits start; a read and a write may fail. -/
structure View where
  unclosed : RunId → Option (List RunAsk)
  alive : RunId → Option Bool
  hold : RunId → Option Bool
  status : RunId → Option String
  written : RunId → Bool
  now : Int
  stamp : String

/-- The oldest ask the slot's run would wait for now; the outer `none` is a read that failed. -/
def Slot.waitCandidate (slot : Slot) (view : View) : Option (Option RunAsk) :=
  if slot.outOfSlot then some none
  else
    match slot.phase.waitPhase with
    | none => some none
    | some phase => do
        let asks := (← view.unclosed slot.run).filter fun ask =>
          ask.isOpen && waitsFor phase ask.kind && ask.id ∉ slot.consumed
        if asks.isEmpty then return none
        if !(← view.alive slot.run) then return none
        if ← view.hold slot.run then return none
        return asks.head?

/-- The events of one run. -/
def runEvents (log : List RunEvent) (run : RunId) : List RunEvent :=
  log.filter fun event => event.runId = some run

namespace Supervisor

/-- The events of `written` are recorded on a run. -/
def record (sv : Supervisor) (run : RunId) (task : TaskId) (stamp : String) (written : List Written) :
    Supervisor :=
  { sv with
    log := sv.log ++ written.zipIdx.map fun (event, n) => {
      id := sv.log.length + n + 1
      taskId := some task
      runId := some run
      kind := event.1
      payload := event.2
      createdAt := stamp } }

/-- The slots in use: every run but the waiting ones and those waiting to go back. -/
def usedSlots (sv : Supervisor) : Nat := (sv.slots.filter fun slot => !slot.outOfSlot).length

/-- The runs held against `--max-waiting`. -/
def waitingRuns (sv : Supervisor) : Nat :=
  (WaitCount.of ((sv.slots.filterMap (·.waiting)).map (·.ended.isSome))).count

def startWait (sv : Supervisor) (view : View) (index : Nat) (ask : RunAsk) : Option Supervisor := do
  let slot ← sv.slots[index]?
  let phase ← slot.phase.waitPhase
  let status ← view.status slot.run
  if !view.written slot.run then none
  let sv' := sv.record slot.run slot.task view.stamp [(runWaitingStarted, {
    askId := some ask.id
    askKind := some ask.kind.text
    phase := some phase.text
    status := some status
    waiting := some (sv.waitingRuns + 1)
    limit := some sv.maxWaiting })]
  return { sv' with slots := sv.slots.set index { slot with
    waiting := some { asks := [(ask.id, ask.kind)], startedAt := view.now } } }

/-- A run past the limit stays in its slot, recorded once per ask. -/
def deferWait (sv : Supervisor) (view : View) (index : Nat) (ask : RunAsk) : Option Supervisor := do
  let slot ← sv.slots[index]?
  if ask.id ∈ slot.deferred then return sv
  if !view.written slot.run then none
  let sv' := sv.record slot.run slot.task view.stamp [(runWaitingDeferred, {
    askId := some ask.id
    askKind := some ask.kind.text
    waiting := some sv.waitingRuns
    limit := some sv.maxWaiting })]
  return { sv' with slots := sv.slots.set index { slot with deferred := slot.deferred ++ [ask.id] } }

/-- The slots whose runs would wait now, the oldest ask first. -/
def candidates (sv : Supervisor) (view : View) : List (RunAsk × Nat) :=
  (sv.slots.zipIdx.filterMap fun (slot, index) => (slot.waitCandidate view).join.map fun ask =>
    (ask, index)).mergeSort fun a b => a.1.id ≤ b.1.id

/-- One candidate starts its wait, or is deferred at the limit; what fails is left for the next pass. -/
def consider (view : View) (sv : Supervisor) (candidate : RunAsk × Nat) : Supervisor :=
  (if sv.waitingRuns < sv.maxWaiting then sv.startWait view candidate.2 candidate.1
    else sv.deferWait view candidate.2 candidate.1).getD sv

/-- Move the runs in the slots that wait for a person into waits while the limit allows. -/
def startWaits (sv : Supervisor) (view : View) : Supervisor :=
  if sv.maxWaiting = 0 then sv else (sv.candidates view).foldl (consider view) sv

/-- The runs whose wait ended, the earliest end first. -/
def returning (sv : Supervisor) : List (Int × Nat) :=
  (sv.slots.zipIdx.filterMap fun (slot, index) =>
    (slot.waiting.bind (·.ended)).map fun ended => (ended.1, index)).mergeSort fun a b =>
      a.1 < b.1 || (a.1 = b.1 && a.2 ≤ b.2)

/-- One run goes back to a slot while one is free; that its return could not be recorded is only
logged. -/
def returnRun (written : RunId → Bool) (now : Int) (stamp : String) (sv : Supervisor) (index : Nat) :
    Supervisor :=
  match sv.slots[index]? with
  | none => sv
  | some slot =>
      match slot.waiting with
      | none => sv
      | some waiting =>
          let sv := { sv with slots := sv.slots.set index { slot with waiting := none } }
          if written slot.run then
            sv.record slot.run slot.task stamp [Slot.regained sv.parallel sv.usedSlots waiting now]
          else sv

/-- Put the runs whose wait ended back in the slots, the earliest end first, while a slot is free. -/
def returnWaitingRuns (written : RunId → Bool) (now : Int) (stamp : String) (sv : Supervisor) :
    Supervisor :=
  go sv.returning sv
where
  go : List (Int × Nat) → Supervisor → Supervisor
    | [], sv => sv
    | (_, index) :: rest, sv =>
        if sv.parallel ≤ sv.usedSlots then sv else go rest (returnRun written now stamp sv index)

/-! ## Taking a run over -/

/-- Whether the run waits by its events, and has room to be adopted as a wait. -/
def adoptsAsWaiting (sv : Supervisor) (run : RunId) : Bool :=
  0 < sv.maxWaiting && sv.waitingRuns < sv.maxWaiting &&
    (WaitState.of (runEvents sv.log run)).any (·.ended.isNone)

/-- Rebuild the wait of a run taken over from its events.  A wait the run cannot keep ends as
`phase_changed` and the run is in its slot. -/
def restoreWaiting (sv : Supervisor) (slot : Slot) (asWaiting : Bool) (now : Int) :
    Slot × List Written :=
  let events := runEvents sv.log slot.run
  let slot := { slot with consumed := consumedAsks events, deferred := deferredAsks events }
  match WaitState.of events with
  | none => (slot, [])
  | some state =>
      let waiting : Waiting := {
        asks := state.asks.filterMap fun (id, kind) => (AskKind.parse kind).map (id, ·)
        startedAt := state.sinceMs / 1000
        ended := state.ended.map fun (millis, cause) => (millis / 1000, cause) }
      if slot.phase.waitPhase.isSome && (asWaiting || waiting.ended.isSome) then
        ({ slot with waiting := some waiting }, [])
      else if waiting.ended.isNone then
        -- Over the limit, the same asks may start a wait later: they are not taken as consumed.
        let (slot, back) := { slot with
          waiting := some { waiting with ended := some (now, .phaseChanged) } }.regainSlot
            sv.parallel (sv.usedSlots + 1) now
        (slot, Slot.endedEvent waiting.startedAt .phaseChanged none now :: back)
      else { slot with waiting := some waiting }.regainSlot sv.parallel (sv.usedSlots + 1) now

/-- A run comes into a slot with the wait its events rebuild. -/
def takeOver (sv : Supervisor) (run : RunId) (task : TaskId) (phase : Phase) (asWaiting : Bool)
    (now : Int) (stamp : String) : Supervisor :=
  let (slot, written) := sv.restoreWaiting { run, task, phase } asWaiting now
  let sv := sv.record run task stamp written
  { sv with slots := sv.slots ++ [slot] }

/-- A run whose lease went stale is adopted: as a wait, or while a slot is free. -/
def adopt (sv : Supervisor) (run : RunId) (task : TaskId) (phase : Phase) (now : Int)
    (stamp : String) : Supervisor :=
  let asWaiting := sv.adoptsAsWaiting run
  if !asWaiting && sv.parallel ≤ sv.usedSlots then sv
  else (sv.record run task stamp [("run_adopted", {})]).takeOver run task phase asWaiting now stamp

/-! ## Steps -/

/-- A look at the run of a slot that is out of the slots. -/
def watch (sv : Supervisor) (index : Nat) (look : Look) : Supervisor :=
  match sv.slots[index]? with
  | none => sv
  | some slot =>
      if !slot.outOfSlot then sv
      else
        let others := { sv with slots := sv.slots.eraseIdx index }
        match slot.watchWaiting sv.parallel others.usedSlots look with
        | none => others
        | some (slot', written) =>
            { sv.record slot.run slot.task look.stamp written with slots := sv.slots.set index slot' }

end Supervisor

/-- What happens to a supervisor and its queue. -/
inductive Op
  /-- The pass starts the waits. -/
  | startWaits (view : View)
  | watch (index : Nat) (look : Look)
  /-- A run in a slot takes its step. -/
  | turn (index : Nat) (phase : Phase)
  /-- A run ends, fails or is disowned. -/
  | leaves (index : Nat)
  | returnWaiting (now : Int) (stamp : String) (written : RunId → Bool)
  /-- A run is claimed, resumed, recovered or landed: a new slot. -/
  | opens (run : RunId) (task : TaskId) (phase : Phase)
  | adopt (run : RunId) (task : TaskId) (phase : Phase) (now : Int) (stamp : String)
  /-- A run handed over by the process before a handoff. -/
  | takeOver (run : RunId) (task : TaskId) (phase : Phase) (now : Int) (stamp : String)
  /-- The process ends, and another starts with its own settings. -/
  | restart (parallel maxWaiting : Nat)
  /-- Anything else that is recorded. -/
  | outside (events : List RunEvent)

/-- One step. -/
def Supervisor.next (sv : Supervisor) : Op → Supervisor
  | .startWaits view => sv.startWaits view
  | .watch index look => sv.watch index look
  | .turn index phase =>
      match sv.slots[index]? with
      | none => sv
      | some slot => if slot.outOfSlot then sv else { sv with slots := sv.slots.set index { slot with phase } }
  | .leaves index => { sv with slots := sv.slots.eraseIdx index }
  | .returnWaiting now stamp written => sv.returnWaitingRuns written now stamp
  | .opens run task phase => { sv with slots := sv.slots ++ [{ run, task, phase }] }
  | .adopt run task phase now stamp => sv.adopt run task phase now stamp
  | .takeOver run task phase now stamp => sv.takeOver run task phase true now stamp
  | .restart parallel maxWaiting => { sv with parallel, maxWaiting, slots := [] }
  | .outside events => { sv with log := sv.log ++ events }

/-- A supervisor from its start on. -/
def machine (parallel maxWaiting : Nat) (log : List RunEvent) : Machine Supervisor Op where
  init := { parallel, maxWaiting, log }
  next := Supervisor.next

end Dagq.Waits
