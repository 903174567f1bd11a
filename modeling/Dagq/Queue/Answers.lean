/-
# Dagq.Queue.Answers -- the life of an ask: opened, answered once, closed once.

Asks are written in seven places: by whoever opens, answers, notes or closes one, by the runtime that
ends the asks of a run, a hold, an update or a withdrawn proposal, and by the two operations that apply
an answer.  Each of them answers only an ask that nobody answered and closes only one that is answered,
and records `ask_answered` with the answer, so the log has that event of an ask exactly once it is
answered.
-/
import Dagq.Queue.Aside

namespace Dagq

open Lib

set_option synthInstance.maxSize 100000

/-! ## One ask -/

/-- Where an ask stands. -/
inductive AskPhase
  | opened | answered | closed
  deriving DecidableEq

/-- An ask goes through its phases in this order. -/
def AskPhase.rank : AskPhase → Nat
  | .opened => 0
  | .answered => 1
  | .closed => 2

namespace Ask

def phase (ask : Ask) : AskPhase :=
  if ask.closedAt.isSome then .closed else if ask.answeredAt.isSome then .answered else .opened

/-- A closed ask was answered, and an unanswered one has no answer. -/
structure Sound (ask : Ask) : Prop where
  closed : ask.closedAt.isSome = true → ask.answeredAt.isSome = true
  unanswered : ask.answeredAt = none → ask.answer = none ∧ ask.answeredBy = none

/-- `later` is the ask some time after: its answer, who gave it and when, once there, stay, and so does
its close. -/
structure Later (ask later : Ask) : Prop where
  answered : ask.answeredAt.isSome = true → later.answer = ask.answer ∧
    later.answeredBy = ask.answeredBy ∧ later.answeredAt = ask.answeredAt
  closed : ask.closedAt.isSome = true → later.closedAt = ask.closedAt

theorem Later.refl (ask : Ask) : ask.Later ask := ⟨fun _ => ⟨rfl, rfl, rfl⟩, fun _ => rfl⟩

theorem Later.trans {a b c : Ask} (h₁ : a.Later b) (h₂ : b.Later c) : a.Later c := by
  constructor
  · intro ha
    obtain ⟨hanswer, hby, hat⟩ := h₁.answered ha
    obtain ⟨hanswer', hby', hat'⟩ := h₂.answered (by rw [hat]; exact ha)
    exact ⟨hanswer'.trans hanswer, hby'.trans hby, hat'.trans hat⟩
  · intro ha
    have hclosed := h₁.closed ha
    exact (h₂.closed (by rw [hclosed]; exact ha)).trans hclosed

theorem Later.phase {ask later : Ask} (h : ask.Later later) : ask.phase.rank ≤ later.phase.rank := by
  by_cases hclosed : ask.closedAt.isSome = true
  · simp [Ask.phase, hclosed, h.closed hclosed]
  · by_cases hanswered : ask.answeredAt.isSome = true
    · have hstays : later.answeredAt.isSome = true := by
        rw [(h.answered hanswered).2.2]
        exact hanswered
      have hphase : ask.phase = .answered := by simp [Ask.phase, hclosed, hanswered]
      rw [hphase, Ask.phase, if_pos hstays]
      split_ifs <;> decide
    · simp [Ask.phase, hclosed, hanswered, AskPhase.rank]

end Ask

/-! ## All asks -/

/-- Whether the event is the `ask_answered` of the ask. -/
def EventBody.answers (id : AskId) : EventBody → Bool
  | .notice (.askAnswered answered _ _) => answered = id
  | _ => false

namespace Store

def answered (s : Store) (id : AskId) : Bool := (s.asks.get? id).any fun a => a.answeredAt.isSome

/-- How many `ask_answered` of the ask are on record. -/
def answersOn (s : Store) (id : AskId) : Nat := s.events.countP fun e => e.body.answers id

/-- Every ask is sound, and its `ask_answered` is on record once if it is answered, and never
otherwise. -/
structure AsksSound (s : Store) : Prop where
  sound : ∀ {id ask}, s.asks.get? id = some ask → ask.Sound
  recorded : ∀ id, s.answersOn id = if s.answered id = true then 1 else 0

/-- Every ask of `s` is in `s'`, some time after. -/
def AsksLater (s s' : Store) : Prop :=
  ∀ id ask, s.asks.get? id = some ask → ∃ later, s'.asks.get? id = some later ∧ ask.Later later

end Store

/-- Sound asks stay sound, and move on only. -/
def AskLife (s s' : Store) : Prop := s.AsksSound → s'.AsksSound ∧ s.AsksLater s'

instance : IsPreorder Store AskLife where
  refl s h := ⟨h, fun _ ask hask => ⟨ask, hask, .refl ask⟩⟩
  trans s s₁ s₂ h₁ h₂ h := by
    obtain ⟨hsound₁, hlater₁⟩ := h₁ h
    obtain ⟨hsound₂, hlater₂⟩ := h₂ hsound₁
    refine ⟨hsound₂, fun id ask hask => ?_⟩
    obtain ⟨ask₁, hask₁, hto⟩ := hlater₁ id ask hask
    obtain ⟨ask₂, hask₂, hto'⟩ := hlater₂ id ask₁ hask₁
    exact ⟨ask₂, hask₂, hto.trans hto'⟩

/-! ## Operations that are not about asks -/

/-- The asks are as they were, and no answer was recorded. -/
structure AskQuiet (s s' : Store) : Prop where
  asks : s'.asks = s.asks
  answers : ∀ id, s'.answersOn id = s.answersOn id

instance : IsPreorder Store AskQuiet where
  refl _ := ⟨rfl, fun _ => rfl⟩
  trans _ _ _ h₁ h₂ :=
    ⟨h₂.asks.trans h₁.asks, fun id => (h₂.answers id).trans (h₁.answers id)⟩

theorem AskQuiet.life {s s' : Store} (h : AskQuiet s s') : AskLife s s' := by
  intro hs
  refine ⟨⟨fun {id ask} hask => hs.sound (h.asks ▸ hask), fun id => ?_⟩, fun id ask hask => ?_⟩
  · rw [h.answers, hs.recorded, Store.answered, Store.answered, h.asks]
  · exact ⟨ask, h.asks ▸ hask, .refl ask⟩

instance (priority := low) life_of_quiet {α : Type} {m : Tx α} [h : Txn.Moves AskQuiet m] :
    Txn.Moves AskLife m :=
  h.mono fun _ _ hm => hm.life

namespace Store

theorem answersOn_append {s s' : Store} {es : List Event} (h : s'.events = s.events ++ es)
    (id : AskId) : s'.answersOn id = s.answersOn id + es.countP fun e => e.body.answers id := by
  rw [answersOn, h, List.countP_append]
  rfl

end Store

/-- Whether the notice is an `ask_answered`. -/
@[reducible] def Notice.answering : Notice → Bool
  | .askAnswered .. => true
  | _ => false

@[reducible] def EventBody.answering : EventBody → Bool
  | .notice said => said.answering
  | _ => false

theorem EventBody.answers_of_quiet {body : EventBody} (h : body.answering = false) (id : AskId) :
    body.answers id = false := by
  cases body with
  | notice said =>
      cases said with
      | askAnswered => cases h
      | _ => rfl
  | _ => rfl

theorem EventBody.answering_of_aside {body : EventBody} (h : body.tells = false) :
    body.answering = false := by
  cases body with
  | notice said =>
      cases said with
      | askAnswered => cases h
      | _ => rfl
  | _ => rfl

theorem Store.answersOn_quiet {s s' : Store} {event : Event} (h : s'.events = s.events ++ [event])
    (hevent : event.body.answering = false) (id : AskId) : s'.answersOn id = s.answersOn id := by
  rw [answersOn_append h, List.countP_singleton, EventBody.answers_of_quiet hevent]
  rfl

instance : Aloof AskQuiet where
  of_aside h := by
    obtain ⟨es, hes, hquiet⟩ := h.events
    refine ⟨h.asks, fun id => ?_⟩
    rw [Store.answersOn_append hes, Nat.add_eq_left, List.countP_eq_zero]
    intro e he
    rw [EventBody.answers_of_quiet (EventBody.answering_of_aside (hquiet e he))]
    exact Bool.false_ne_true

instance : GoalBlind AskQuiet := ⟨⟨rfl, fun _ => rfl⟩⟩

instance : StatusBound AskQuiet := ⟨fun _ => ⟨rfl, fun _ => rfl⟩⟩

instance askQuiet_write {goals : Store → Table GoalId GoalRow} {tasks : Store → Table TaskId TaskRow}
    {proposals : Store → Table ProposalId ProposalRow}
    {planReviews : Store → Table PlanReviewId PlanReviewRow} :
    Txn.Moves AskQuiet (Txn.write fun s => { s with
      goals := goals s, tasks := tasks s, proposals := proposals s
      planReviews := planReviews s } : Tx Unit) :=
  .of_write fun _ => ⟨rfl, fun _ => rfl⟩

instance askQuiet_record {event : Event} [h : Off event.body.answering] :
    Txn.Moves AskQuiet (record event) :=
  .of_write fun _ => ⟨rfl, fun id => Store.answersOn_quiet rfl h.eq_false id⟩

instance askQuiet_saveTask {id : TaskId} {task : Task} : Txn.Moves AskQuiet (saveTask id task) := by
  unfold saveTask
  infer_instance

instance askQuiet_insertTaskRow {new : NewTask} : Txn.Moves AskQuiet (insertTaskRow new) := by
  unfold insertTaskRow
  infer_instance

instance askQuiet_applyTransition {taskId : TaskId} {action : TaskAction}
    {duplicateOf : Option TaskId} :
    Txn.Moves AskQuiet (applyTransition taskId action duplicateOf) := by
  unfold applyTransition
  infer_instance

theorem askQuiet_taskOp (op : TaskOp) : Txn.Moves AskQuiet op.exec := by
  cases op <;> unfold TaskOp.exec <;> infer_instance

instance askQuiet_claimTask {runId : RunId} {baseCommit : CommitSha} {order : List TaskId} :
    Txn.Moves AskQuiet (claimTask runId baseCommit order) := by
  unfold claimTask
  infer_instance

instance askQuiet_finishIntegration {id : RunId} {token : Token} {now : Seconds}
    {commit mainBefore : CommitSha} :
    Txn.Moves AskQuiet (finishIntegration id token now commit mainBefore) := by
  unfold finishIntegration
  infer_instance

instance askQuiet_triageAnswered {id : RunId} {taskId : TaskId} {ask : Option Ask}
    {answer reason : String} :
    Txn.Moves AskQuiet (triageAnswered id taskId ask answer reason) := by
  unfold triageAnswered
  infer_instance

instance askQuiet_finishTriage {id : RunId} {token : Token} {now : Seconds} {action : TriageAction}
    {also : List RuntimeEvent} :
    Txn.Moves AskQuiet (finishTriage id token now action also) := by
  unfold finishTriage
  infer_instance

instance askQuiet_applyAction {action : PlanReviewAction} :
    Txn.Moves AskQuiet (applyAction action) := by
  cases action <;> (unfold applyAction; infer_instance)

instance askQuiet_applyAnswer {id : ProposalId} {now : Seconds} {answer : PlanAnswer} :
    Txn.Moves AskQuiet (applyAnswer id now answer) := by
  cases answer <;> infer_instance

instance askQuiet_submitMembers {submission : Submission} {existing : Option Proposal}
    {now : Seconds} : Txn.Moves AskQuiet (submitMembers submission existing now) := by
  unfold submitMembers
  infer_instance

/-! ## Writing an ask -/

/-- One ask moves on, and its `ask_answered` is recorded if it is answered by that. -/
theorem life_of_ask {s s' : Store} {id : AskId} {ask ask' : Ask}
    (hask : s.asks.get? id = some ask)
    (hasks : ∀ x, s'.asks.get? x = if x = id then some ask' else s.asks.get? x)
    (hlater : ask.Later ask') (hsound : ask.Sound → ask'.Sound)
    (hanswers : ∀ x, s'.answersOn x = s.answersOn x +
      if x = id ∧ ask.answeredAt = none ∧ ask'.answeredAt.isSome = true then 1 else 0) :
    AskLife s s' := by
  intro hs
  refine ⟨⟨fun {x a} hx => ?_, fun x => ?_⟩, fun x a hx => ?_⟩
  · rw [hasks] at hx
    split_ifs at hx
    · rw [← Option.some.inj hx]
      exact hsound (hs.sound hask)
    · exact hs.sound hx
  · rw [hanswers, hs.recorded]
    by_cases hid : x = id
    · subst hid
      have hafter : s'.answered x = ask'.answeredAt.isSome := by
        rw [Store.answered, hasks, if_pos rfl, Option.any_some]
      have hbefore : s.answered x = ask.answeredAt.isSome := by
        rw [Store.answered, hask, Option.any_some]
      rw [hafter, hbefore]
      cases hat : ask.answeredAt with
      | none => simp
      | some at_ =>
          -- The answer that is there stays.
          have hstays := (hlater.answered (by rw [hat]; rfl)).2.2
          rw [hat] at hstays
          simp [hstays]
    · have hsame : s'.answered x = s.answered x := by
        rw [Store.answered, Store.answered, hasks, if_neg hid]
      rw [hsame]
      simp [hid]
  · rw [hasks]
    by_cases hid : x = id
    · subst hid
      rw [hask] at hx
      cases hx
      exact ⟨ask', if_pos rfl, hlater⟩
    · exact ⟨a, by rw [if_neg hid, hx], .refl a⟩

/-- A new ask, open. -/
instance life_openAskRow {kind : AskKind} {taskId : Option TaskId} {runId : Option RunId}
    {question askedBy : String} {options : List String} {reason : AskReason}
    {subject : Option String} {affected : List RunId} {findingId : Option FindingId} :
    Txn.Moves AskLife (openAskRow (Ask.mk kind taskId runId question options none askedBy reason
      subject affected none none findingId none none)) := by
  refine ⟨fun s id s' h => ?_⟩
  simp only [openAskRow, Txn.read_bind, Txn.write_bind] at h
  refine trans_of AskLife ?_ (Txn.Moves.of_ok h)
  have hfresh : s.asks.get? s.asks.nextId = none := Table.nextId_fresh _
  intro hs
  refine ⟨⟨fun {x a} hx => ?_, fun x => ?_⟩, fun x a hx => ⟨a, ?_, .refl a⟩⟩
  · rw [Table.get?_push hfresh] at hx
    split_ifs at hx
    · cases hx
      exact ⟨nofun, fun _ => ⟨rfl, rfl⟩⟩
    · exact hs.sound hx
  · refine (hs.recorded x).trans ?_
    rw [Store.answered, Store.answered, Table.get?_push hfresh]
    by_cases hid : x = s.asks.nextId
    · rw [if_pos hid, hid, hfresh]
      rfl
    · rw [if_neg hid]
  · show (s.asks.push _ _).get? x = some a
    rw [Table.get?_push hfresh, if_neg, hx]
    rintro rfl
    rw [hfresh] at hx
    cases hx

/-- Rewriting what neither the answer nor the close of an ask is kept in. -/
instance life_note {id : AskId} {question : Ask → String} {affected : Ask → List RunId} :
    Txn.Moves AskLife (Txn.write fun s => { s with
      asks := s.asks.modify id fun ask => Ask.mk ask.kind ask.taskId ask.runId (question ask)
        ask.options ask.answer ask.askedBy ask.reasonCategory ask.subject (affected ask)
        ask.answeredAt ask.closedAt ask.findingId ask.answeredBy ask.optionIndex } : Tx Unit) := by
  refine .of_write fun s => ?_
  cases hask : s.asks.get? id with
  | none =>
      rw [Table.modify_of_absent hask]
      exact refl_of AskLife s
  | some ask =>
      refine life_of_ask hask (Table.get?_modify_of_get hask)
        ⟨fun _ => ⟨rfl, rfl, rfl⟩, fun _ => rfl⟩ (fun h => ⟨h.closed, h.unanswered⟩) fun x => ?_
      show s.answersOn x = s.answersOn x + _
      rw [if_neg, Nat.add_zero]
      rintro ⟨_, hnone, hsome⟩
      rw [hnone] at hsome
      cases hsome

/-- An open ask is answered, and `ask_answered` recorded. -/
theorem life_answered {s s' : Store} {id : AskId} {ask ask' : Ask} {event : Event} {kind : AskKind}
    {runtimeClosed : Bool} (hask : s.asks.get? id = some ask) (hopen : ask.isOpen = true)
    (hasks : ∀ x, s'.asks.get? x = if x = id then some ask' else s.asks.get? x)
    (hanswered : ask'.answeredAt.isSome = true) (hevents : s'.events = s.events ++ [event])
    (hbody : event.body = .notice (.askAnswered id kind runtimeClosed)) : AskLife s s' := by
  rw [Ask.isOpen, Bool.and_eq_true, Option.isNone_iff_eq_none, Option.isNone_iff_eq_none] at hopen
  obtain ⟨hunanswered, hunclosed⟩ := hopen
  refine life_of_ask hask hasks ⟨fun h => ?_, fun h => ?_⟩ (fun _ => ⟨fun _ => hanswered, ?_⟩)
    fun x => ?_
  · rw [hunanswered] at h
    cases h
  · rw [hunclosed] at h
    cases h
  · intro hnone
    rw [hnone] at hanswered
    cases hanswered
  · rw [Store.answersOn_append hevents, List.countP_singleton, hbody]
    simp [EventBody.answers, hunanswered, hanswered, eq_comm]

/-- An answered ask is closed. -/
theorem life_closed {s s' : Store} {id : AskId} {ask : Ask} {now : Seconds}
    (hask : s.asks.get? id = some ask) (hanswered : ask.answeredAt.isSome = true)
    (hunclosed : ask.closedAt = none)
    (hasks : ∀ x, s'.asks.get? x
      = if x = id then some { ask with closedAt := some now } else s.asks.get? x)
    (hanswers : ∀ x, s'.answersOn x = s.answersOn x) : AskLife s s' := by
  refine life_of_ask hask hasks ⟨fun _ => ⟨rfl, rfl, rfl⟩, fun h => ?_⟩
    (fun h => ⟨fun _ => hanswered, h.unanswered⟩) fun x => ?_
  · rw [hunclosed] at h
    cases h
  · rw [hanswers, if_neg]
    · rfl
    · rintro ⟨_, hnone, _⟩
      rw [hnone] at hanswered
      cases hanswered

theorem readAsk_bind {β : Type} {id : AskId} {k : Ask → Tx β} {s : Store} {r : β × Store} :
    (readAsk id >>= k) s = .ok r ↔ ∃ ask, s.asks.get? id = some ask ∧ k ask s = .ok r := by
  rw [readAsk, bind_assoc, Txn.read_bind, Txn.found_bind]

instance life_answerAs {id : AskId} {text answeredBy : String} {now : Seconds} :
    Txn.Moves AskLife (answerAs id text answeredBy now) := by
  refine ⟨fun s u s' h => ?_⟩
  simp only [answerAs, Txn.ensure_bind, readAsk_bind, writeAnswer, updateAsk, Txn.write_bind,
    askNotice, noticeOn, record_ok] at h
  obtain ⟨_, ask, hask, hopen, rfl⟩ := h
  exact life_answered hask hopen (Table.get?_modify_of_get hask) rfl rfl rfl

instance life_closeAsk {id : AskId} {now : Seconds} : Txn.Moves AskLife (closeAsk id now) := by
  refine ⟨fun s u s' h => ?_⟩
  simp only [closeAsk, Txn.ensure_bind, readAsk_bind, closeAskRow, updateAsk, Txn.write_bind] at h
  obtain ⟨ask, hask, hunclosed, hanswered, rest⟩ := h
  refine trans_of AskLife ?_ (Txn.Moves.of_ok rest)
  exact life_closed hask hanswered (Option.isNone_iff_eq_none.mp hunclosed)
    (Table.get?_modify_of_get hask) fun _ => rfl

instance life_closeDelivered {id : AskId} {now : Seconds} {recorded : Ask → Tx Unit}
    [hr : ∀ ask, Txn.Moves AskLife (recorded ask)] :
    Txn.Moves AskLife (closeDelivered id now recorded) := by
  refine ⟨fun s u s' h => ?_⟩
  simp only [closeDelivered, readAsk_bind, Txn.when_ok, Txn.ensure_bind, closeAskRow, updateAsk,
    Txn.write_bind] at h
  obtain ⟨ask, hask, ⟨hunclosed, hanswered, rest⟩ | ⟨_, rfl⟩⟩ := h
  · refine trans_of AskLife ?_ ((hr ask).of_ok rest)
    exact life_closed hask hanswered (Option.isNone_iff_eq_none.mp hunclosed)
      (Table.get?_modify_of_get hask) fun _ => rfl
  · exact refl_of AskLife s

/-! ### Loops over asks -/

/-- A loop over selected asks, each written in its own round. -/
theorem life_forM {m : AskId × Ask → Tx PUnit} {p : AskId → Ask → Bool}
    (hm : ∀ id ask s u s', p id ask = true → s.asks.get? id = some ask →
      m (id, ask) s = .ok (u, s') → AskLife s s' ∧ ∀ x, x ≠ id → s'.asks.get? x = s.asks.get? x)
    {s s' : Store} {u : PUnit} (h : ((s.asks.select p).forM m) s = .ok (u, s')) : AskLife s s' := by
  have hselected : ∀ r ∈ s.asks.select p, s.asks.get? r.1 = some r.2 ∧ p r.1 r.2 = true :=
    fun r hr => Table.mem_select.mp hr
  refine Txn.forM_rows (g := fun s k => s.asks.get? k) (fun r hr s u s' hround hrow => ?_)
    Table.select_keys_nodup (fun r hr => (hselected r hr).1) h
  exact hm r.1 r.2 s u s' (hselected r hr).2 hrow hround

/-- An unclosed ask that is not open is answered. -/
theorem Ask.answered_of_not_open {ask : Ask} (hunclosed : ask.closedAt = none)
    (hopen : ¬ask.isOpen = true) : ask.answeredAt.isSome = true := by
  rw [isOpen, hunclosed] at hopen
  simpa [Option.isSome_iff_ne_none] using hopen

/-- The runtime ends an ask: answered if it was open, and closed. -/
theorem endForRuntime_life {id : AskId} {ask : Ask} {answer : String} {now : Seconds} {u v : Unit}
    {s s₁ s' : Store} (hunclosed : ask.closedAt = none) (hask : s.asks.get? id = some ask)
    (hend : endForRuntime id ask answer now s = .ok (v, s₁))
    (hclose : closeAskRow id now s₁ = .ok (u, s')) :
    AskLife s s' ∧ ∀ x, x ≠ id → s'.asks.get? x = s.asks.get? x := by
  simp only [closeAskRow, updateAsk, Txn.write_ok] at hclose
  subst hclose
  simp only [endForRuntime, askNotice, noticeOn] at hend
  split_ifs at hend with hopen
  · simp only [writeAnswer, updateAsk, Txn.write_bind, record_ok] at hend
    subst hend
    rw [Table.modify_modify]
    refine ⟨life_answered hask hopen (Table.get?_modify_of_get hask) rfl rfl rfl, fun x hx => ?_⟩
    rw [Table.get?_modify, if_neg hx]
  · rw [record_ok] at hend
    subst hend
    refine ⟨life_closed hask (Ask.answered_of_not_open hunclosed hopen) hunclosed
      (Table.get?_modify_of_get hask) fun x => ?_, fun x hx => ?_⟩
    · exact Store.answersOn_quiet rfl rfl x
    · rw [Table.get?_modify, if_neg hx]

instance life_closeUnclosed {which : Ask → Bool} {answer : String} {now : Seconds} :
    Txn.Moves AskLife (closeUnclosed which answer now) := by
  refine ⟨fun s u s' h => ?_⟩
  rw [closeUnclosed, Txn.read_bind] at h
  refine life_forM (fun id ask s u s' hp hask h => ?_) h
  obtain ⟨_, s₁, hend, hclose⟩ := Txn.bind_ok.mp h
  simp only [Bool.and_eq_true, Option.isNone_iff_eq_none] at hp
  exact endForRuntime_life hp.2 hask hend hclose

/-- The asks of a withdrawn proposal; the close of an answered one is not recorded. -/
instance life_closePlanAsks {taskId : TaskId} {now : Seconds} :
    Txn.Moves AskLife (closePlanAsks taskId now) := by
  refine ⟨fun s u s' h => ?_⟩
  rw [closePlanAsks, Txn.read_bind] at h
  refine life_forM (fun id ask s u s' hp hask h => ?_) h
  simp only [Bool.and_eq_true, Option.isNone_iff_eq_none] at hp
  obtain ⟨_, s₁, hanswer, hclose⟩ := Txn.bind_ok.mp h
  simp only [closeAskRow, updateAsk, Txn.write_ok] at hclose
  subst hclose
  rcases Txn.when_ok.mp hanswer with ⟨hopen, hanswer⟩ | ⟨hopen, rfl⟩
  · simp only [writeAnswer, updateAsk, Txn.write_bind, record_ok] at hanswer
    subst hanswer
    rw [Table.modify_modify]
    refine ⟨life_answered hask hopen (Table.get?_modify_of_get hask) rfl rfl rfl, fun x hx => ?_⟩
    rw [Table.get?_modify, if_neg hx]
  · refine ⟨life_closed hask (Ask.answered_of_not_open hp.2 hopen) hp.2
      (Table.get?_modify_of_get hask) fun _ => rfl, fun x hx => ?_⟩
    rw [Table.get?_modify, if_neg hx]

/-- The open asks of an older update are superseded before the new one is opened. -/
instance life_openUpdateAsk {kind : AskKind} {question askedBy : String} {options : List String}
    {now : Seconds} : Txn.Moves AskLife (openUpdateAsk kind question options askedBy now) := by
  refine ⟨fun s u s' h => ?_⟩
  simp only [openUpdateAsk, Txn.ensure_bind, domain_bind, Txn.read_bind] at h
  obtain ⟨_, _, _, _, h⟩ := h
  obtain ⟨_, s₁, hsupersede, rest⟩ := Txn.bind_ok.mp h
  refine trans_of AskLife (life_forM (fun id ask s u s' hp hask h => ?_) hsupersede)
    (Txn.Moves.of_ok rest)
  simp only [Bool.and_eq_true] at hp
  simp only [writeAnswer, closeAskRow, updateAsk, Txn.write_bind, noticeOn, record_ok] at h
  subst h
  rw [Table.modify_modify]
  refine ⟨life_answered hask hp.2 (Table.get?_modify_of_get hask) rfl rfl rfl, fun x hx => ?_⟩
  rw [Table.get?_modify, if_neg hx]

theorem life_askOp (op : AskOp) : Txn.Moves AskLife op.exec := by
  cases op <;> unfold AskOp.exec <;> infer_instance

/-! ## Acting on an answer -/

/-- The ask is answered, and waits for somebody to act on that. -/
def Store.awaitsAction (s : Store) (id : AskId) : Bool :=
  (s.asks.get? id).any fun a => a.answeredAt.isSome && a.closedAt.isNone

def Store.askClosed (s : Store) (id : AskId) : Bool :=
  (s.asks.get? id).any fun a => a.closedAt.isSome

/-- An answer is acted on: its ask waited for that and is closed by it. -/
structure ActsOn (s s' : Store) (id : AskId) : Prop where
  before : s.awaitsAction id = true
  life : AskLife s s'
  after : s'.askClosed id = true

/-- Quiet steps, the close of an answered ask, and quiet steps. -/
theorem actsOn_of_close {s s₁ s₂ s' : Store} {id : AskId} {ask : Ask} {now : Seconds} {u : Unit}
    (hbefore : AskQuiet s s₁) (hask : s₁.asks.get? id = some ask)
    (hanswered : ask.answeredAt.isSome = true) (hunclosed : ask.closedAt = none)
    (hclose : closeAskRow id now s₁ = .ok (u, s₂)) (hafter : AskQuiet s₂ s') : ActsOn s s' id := by
  simp only [closeAskRow, updateAsk, Txn.write_ok] at hclose
  subst hclose
  refine ⟨?_, ?_, ?_⟩
  · rw [Store.awaitsAction, ← hbefore.asks, hask]
    simp [hanswered, hunclosed]
  · refine trans_of AskLife hbefore.life (trans_of AskLife ?_ hafter.life)
    exact life_closed hask hanswered hunclosed (Table.get?_modify_of_get hask) fun _ => rfl
  · rw [Store.askClosed, hafter.asks, Table.get?_modify_of_get hask, if_pos rfl]
    rfl

/-- The answer of a recovery's ask is applied and the ask closed, in one transaction. -/
theorem decideTriage_actsOn {id : RunId} {askId : AskId} {answer reason : String}
    {alive : Pid → Bool} {now : Seconds} {u : Unit} {s s' : Store}
    (h : decideTriage id askId answer reason alive now s = .ok (u, s')) : ActsOn s s' askId := by
  simp only [decideTriage, readLease, Txn.read_bind, Txn.ensure_bind] at h
  obtain ⟨_, h⟩ := h
  obtain ⟨_, s₁, hlease, h⟩ := Txn.bind_ok.mp h
  simp only [readRun_bind, Txn.read_bind, Txn.ensure_bind] at h
  obtain ⟨row, _, _, _, hpending, h⟩ := h
  obtain ⟨ask, hask, hpending⟩ := (Option.any_eq_true _ _).mp hpending
  simp only [Bool.and_eq_true, Option.isNone_iff_eq_none] at hpending
  obtain ⟨_, s₂, hanswered, h⟩ := Txn.bind_ok.mp h
  obtain ⟨_, s₃, hclose, rest⟩ := Txn.bind_ok.mp h
  have hleft : AskQuiet s s₁ := Txn.Moves.of_ok hlease
  have hquiet : AskQuiet s₁ s₂ := Txn.Moves.of_ok hanswered
  refine actsOn_of_close (trans_of AskQuiet hleft hquiet) ?_ hpending.1.2 hpending.2 hclose
    (Txn.Moves.of_ok rest)
  rw [hquiet.asks]
  exact hask

/-- An answer that parses is there. -/
theorem PlanAnswer.parse_empty : PlanAnswer.parse "" = none := by decide

/-- So is the answer to a concern; one that nobody applies any more only closes its ask. -/
theorem decidePlan_actsOn {askId : AskId} {now : Seconds} {decided : Option ProposalId}
    {s s' : Store} (hs : s.AsksSound) (h : decidePlan askId now s = .ok (decided, s')) :
    ActsOn s s' askId := by
  simp only [decidePlan, readAsk_bind, Txn.ensure_bind, Txn.found_bind, Txn.read_bind] at h
  obtain ⟨ask, hask, _, answer, hparse, hunclosed, h⟩ := h
  rw [Option.isNone_iff_eq_none] at hunclosed
  have hanswered : ask.answeredAt.isSome = true := by
    rw [Option.isSome_iff_ne_none]
    intro hnone
    rw [((hs.sound hask).unanswered hnone).1, Option.getD_none, PlanAnswer.parse_empty] at hparse
    cases hparse
  split_ifs at h
  · simp only [Txn.found_bind] at h
    obtain ⟨id, _, h⟩ := h
    obtain ⟨_, s₁, hhold, h⟩ := Txn.bind_ok.mp h
    obtain ⟨_, s₂, happly, h⟩ := Txn.bind_ok.mp h
    obtain ⟨_, s₃, hclose, rest⟩ := Txn.bind_ok.mp h
    have hquiet : AskQuiet s s₂ :=
      trans_of AskQuiet (Txn.Moves.of_ok hhold) (Txn.Moves.of_ok happly)
    refine actsOn_of_close hquiet ?_ hanswered hunclosed hclose (Txn.Moves.of_ok rest)
    rw [hquiet.asks]
    exact hask
  · obtain ⟨_, s₁, hclose, rest⟩ := Txn.bind_ok.mp h
    exact actsOn_of_close (refl_of AskQuiet s) hask hanswered hunclosed hclose
      (Txn.Moves.of_ok rest)

/-- The answer to a question, delivered to whoever asked it. -/
theorem askDelivered_actsOn {id : AskId} {now : Seconds} {u : Unit} {s s' : Store}
    (hunclosed : (s.asks.get? id).any (fun a => a.closedAt.isNone) = true)
    (h : askDelivered id now s = .ok (u, s')) : ActsOn s s' id := by
  simp only [askDelivered, closeDelivered, readAsk_bind, Txn.when_ok, Txn.ensure_bind] at h
  obtain ⟨ask, hask, h⟩ := h
  rw [hask, Option.any_some] at hunclosed
  rcases h with ⟨_, hanswered, h⟩ | ⟨hclosed, _⟩
  · obtain ⟨_, s₁, hclose, rest⟩ := Txn.bind_ok.mp h
    exact actsOn_of_close (refl_of AskQuiet s) hask hanswered
      (Option.isNone_iff_eq_none.mp hunclosed) hclose (Txn.Moves.of_ok rest)
  · exact absurd hunclosed hclosed

/-! ## Every operation -/

instance life_decideTriage {id : RunId} {askId : AskId} {answer reason : String}
    {alive : Pid → Bool} {now : Seconds} :
    Txn.Moves AskLife (decideTriage id askId answer reason alive now) :=
  ⟨fun _ _ _ h => (decideTriage_actsOn h).life⟩

instance life_decidePlan {askId : AskId} {now : Seconds} :
    Txn.Moves AskLife (decidePlan askId now) :=
  ⟨fun _ _ _ h hs => (decidePlan_actsOn hs h).life hs⟩

theorem life_runOp (op : RunOp) : Txn.Moves AskLife op.exec := by
  cases op <;> unfold RunOp.exec <;> infer_instance

instance life_applyDecision {job : PlanReviewJob} {apply : PlanReviewApply} {now : Seconds} :
    Txn.Moves AskLife (applyDecision job apply now) := by
  unfold applyDecision
  split <;> infer_instance

theorem life_planOp (op : PlanOp) : Txn.Moves AskLife op.exec := by
  cases op <;> unfold PlanOp.exec <;> infer_instance

theorem queue_askLife (s : Store) (op : Op) : AskLife s (queue.next s op) := by
  cases op with
  | task op => exact Txn.Moves.commit (life_of_quiet (h := askQuiet_taskOp op)) s
  | run op => exact (life_runOp op).commit s
  | ask op => exact (life_askOp op).commit s
  | plan op => exact (life_planOp op).commit s

theorem asksSound_run (ops : List Op) : (queue.run ops).AsksSound := by
  have hinit : queue.init.AsksSound := ⟨nofun, fun _ => rfl⟩
  exact Machine.invariant (fun s op hs => (queue_askLife s op hs).1) hinit ops

theorem asksLater_runFrom {s : Store} (hs : s.AsksSound) (ops : List Op) :
    s.AsksLater (queue.runFrom s ops) :=
  (Machine.moves (R := AskLife) queue_askLife s ops hs).2

/-- The ask whose answer the operation acts on: a recovery's, applied to its run, a concern's, applied
to its proposal, or a question's, delivered to its session. -/
def Op.actsOn (s : Store) : Op → Option AskId
  | .run (.decideTriage id askId answer reason alive now) =>
      if (decideTriage id askId answer reason alive now).accepts s = true then some askId else none
  | .plan (.decidePlan askId now) =>
      match decidePlan askId now s with
      | .ok (some _, _) => some askId
      | _ => none
  | .ask (.delivered id now) =>
      if (askDelivered id now).accepts s = true ∧
          (s.asks.get? id).any (fun a => a.closedAt.isNone) = true then some id
      else none
  | _ => none

theorem Op.actsOn_next {s : Store} (hs : s.AsksSound) {op : Op} {id : AskId}
    (h : op.actsOn s = some id) : ActsOn s (queue.next s op) id := by
  -- Three operations act on an answer, each when it is accepted.
  cases op with
  | task op => cases h
  | run op =>
      cases op with
      | decideTriage r askId answer reason alive now =>
          simp only [actsOn] at h
          split_ifs at h with haccepts
          cases h
          obtain ⟨⟨u, s'⟩, hok⟩ := Txn.accepts_iff.mp haccepts
          have hnext : (RunOp.decideTriage r id answer reason alive now).exec.commit s = s' :=
            Txn.commit_of_ok hok
          show ActsOn s ((RunOp.decideTriage r id answer reason alive now).exec.commit s) id
          rw [hnext]
          exact decideTriage_actsOn hok
      | _ => cases h
  | ask op =>
      cases op with
      | delivered askId now =>
          simp only [actsOn] at h
          split_ifs at h with haccepts
          cases h
          obtain ⟨⟨u, s'⟩, hok⟩ := Txn.accepts_iff.mp haccepts.1
          have hnext : (AskOp.delivered id now).exec.commit s = s' := Txn.commit_of_ok hok
          show ActsOn s ((AskOp.delivered id now).exec.commit s) id
          rw [hnext]
          exact askDelivered_actsOn haccepts.2 hok
      | _ => cases h
  | plan op =>
      cases op with
      | decidePlan askId now =>
          simp only [actsOn] at h
          cases hok : decidePlan askId now s with
          | error e =>
              rw [hok] at h
              cases h
          | ok r =>
              obtain ⟨decided, s'⟩ := r
              rw [hok] at h
              cases decided with
              | none => cases h
              | some p =>
                  cases h
                  have hnext : (PlanOp.decidePlan id now).exec.commit s = s' :=
                    Txn.commit_discard.trans (Txn.commit_of_ok hok)
                  show ActsOn s ((PlanOp.decidePlan id now).exec.commit s) id
                  rw [hnext]
                  exact decidePlan_actsOn hs hok
      | _ => cases h

/-- What one step does to the asks: none goes back a phase or changes its answer or its close, and the
step records an `ask_answered` of exactly those it answers. -/
structure AskStep (s s' : Store) : Prop where
  later : ∀ id ask, s.asks.get? id = some ask → ∃ later, s'.asks.get? id = some later ∧
    ask.Later later ∧ ask.phase.rank ≤ later.phase.rank
  recorded : ∀ id, s'.answersOn id =
    s.answersOn id + if s.answered id = false ∧ s'.answered id = true then 1 else 0

theorem Store.AsksLater.answered {s s' : Store} (h : s.AsksLater s') {id : AskId}
    (hanswered : s.answered id = true) : s'.answered id = true := by
  obtain ⟨ask, hask, hat⟩ := (Option.any_eq_true _ _).mp hanswered
  obtain ⟨later, hlater, hto⟩ := h id ask hask
  rw [Store.answered, hlater, Option.any_some, (hto.answered hat).2.2]
  exact hat

theorem Store.AsksLater.closed {s s' : Store} (h : s.AsksLater s') {id : AskId}
    (hclosed : s.askClosed id = true) : s'.askClosed id = true := by
  obtain ⟨ask, hask, hat⟩ := (Option.any_eq_true _ _).mp hclosed
  obtain ⟨later, hlater, hto⟩ := h id ask hask
  rw [Store.askClosed, hlater, Option.any_some, hto.closed hat]
  exact hat

theorem AskLife.step {s s' : Store} (h : AskLife s s') (hs : s.AsksSound) : AskStep s s' := by
  obtain ⟨hs', hlater⟩ := h hs
  refine ⟨fun id ask hask => ?_, fun id => ?_⟩
  · obtain ⟨later, hget, hto⟩ := hlater id ask hask
    exact ⟨later, hget, hto, hto.phase⟩
  · rw [hs.recorded, hs'.recorded]
    cases hbefore : s.answered id with
    | true => simp [hlater.answered hbefore]
    | false => simp

/-- A closed ask awaits no action. -/
theorem Store.awaitsAction_of_closed {s : Store} {id : AskId} (h : s.askClosed id = true) :
    s.awaitsAction id = false := by
  obtain ⟨ask, hask, hclosed⟩ := (Option.any_eq_true _ _).mp h
  rw [awaitsAction, hask, Option.any_some]
  simp [Option.isNone_eq_false_iff.mpr hclosed]

/-- The ask whose answer the operation applies or delivers, if it still waits for that. -/
def Op.answerOf : Op → Option AskId
  | .run (.decideTriage _ askId _ _ _ _) => some askId
  | .plan (.decidePlan askId _) => some askId
  | .ask (.delivered id _) => some id
  | _ => none

theorem ActsOn.unclosed {s s' : Store} {id : AskId} (h : ActsOn s s' id) : s.askClosed id ≠ true := by
  intro hclosed
  have hawaits := h.before
  rw [Store.awaitsAction_of_closed hclosed] at hawaits
  cases hawaits

/-- Nothing happens on an ask that is closed already. -/
theorem Op.next_of_closed {s : Store} (hs : s.AsksSound) {op : Op} {id : AskId}
    (h : op.answerOf = some id) (hclosed : s.askClosed id = true) : queue.next s op = s := by
  unfold Op.answerOf at h
  split at h <;> cases h
  case h_1 r answer reason alive now =>
    refine Txn.commit_of_refused (Bool.eq_false_iff.mpr fun haccepts => ?_)
    obtain ⟨⟨u, s'⟩, hok⟩ := Txn.accepts_iff.mp haccepts
    exact (decideTriage_actsOn hok).unclosed hclosed
  case h_2 now =>
    refine Txn.commit_of_refused (Bool.eq_false_iff.mpr fun haccepts => ?_)
    obtain ⟨⟨u, s'⟩, hok⟩ := Txn.accepts_iff.mp haccepts
    obtain ⟨decided, s₁, hdecide, _⟩ := Txn.bind_ok.mp hok
    exact (decidePlan_actsOn hs hdecide).unclosed hclosed
  case h_3 now =>
    obtain ⟨ask, hask, hat⟩ := (Option.any_eq_true _ _).mp hclosed
    refine Txn.commit_of_ok (a := ()) ?_
    show askDelivered id now s = .ok ((), s)
    simp only [askDelivered, closeDelivered, readAsk_bind, Txn.when_ok]
    refine ⟨ask, hask, .inr ⟨?_, trivial⟩⟩
    simpa [Option.isSome_iff_ne_none] using hat

/-- In every run each step moves asks forward only and records the answers it gives, every ask is
closed only when answered and has its `ask_answered` on record exactly when it is, no answer is acted
on twice, and applying or delivering the answer of a closed ask changes nothing. -/
theorem ask_lifecycle (ops : List Op) :
    (∀ pre op post, ops = pre ++ op :: post →
      AskStep (queue.run pre) (queue.run (pre ++ [op]))) ∧
    (∀ id ask, (queue.run ops).asks.get? id = some ask → ask.Sound) ∧
    (∀ id, (queue.run ops).answersOn id = if (queue.run ops).answered id = true then 1 else 0) ∧
    (∀ pre op mid op' post id, ops = pre ++ op :: (mid ++ op' :: post) →
      op.actsOn (queue.run pre) = some id → op'.actsOn (queue.run (pre ++ op :: mid)) ≠ some id) ∧
    ∀ op id, op.answerOf = some id → (queue.run ops).askClosed id = true →
      queue.run (ops ++ [op]) = queue.run ops := by
  refine ⟨fun pre op _ _ => ?_, fun id ask => (asksSound_run ops).sound,
    (asksSound_run ops).recorded, fun pre op mid op' post id _ hfirst hsecond => ?_,
    fun op id hop hclosed => ?_⟩
  · rw [Machine.run_append]
    exact (queue_askLife (queue.run pre) op).step (asksSound_run pre)
  · have hclosed := (Op.actsOn_next (asksSound_run pre) hfirst).after
    have hmid : (queue.run (pre ++ op :: mid))
        = queue.runFrom (queue.next (queue.run pre) op) mid := by
      rw [Machine.run_append]
      rfl
    have hnext : (queue.next (queue.run pre) op).AsksSound :=
      (queue_askLife _ op (asksSound_run pre)).1
    have hstill := (asksLater_runFrom hnext mid).closed hclosed
    have hsound := asksSound_run (pre ++ op :: mid)
    rw [hmid] at hsecond hsound
    exact (Op.actsOn_next hsound hsecond).unclosed hstill
  · rw [Machine.run_append]
    exact Op.next_of_closed (asksSound_run ops) hop hclosed

end Dagq
