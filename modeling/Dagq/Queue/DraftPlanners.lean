/-
# Dagq.Queue.DraftPlanners -- how many planners the runtime opens for a draft.

Each transaction on the queue or on its planners is one step, whoever makes it, so the steps of any
number of supervisors interleave as they like, and a supervisor that dies takes no further one.  A
planner's row and the event that counts it are written together, so a launch that fails afterwards
was counted.  The limit on the count holds a draft's own planners back and not those that carry an
answer: each of these is paid for by its answer only if no other one carries the same, and a launch
that fails leaves the answer for the next.
-/
import Dagq.Queue.Answers
import Dagq.Store.Planners
import Mathlib.Data.List.Perm.Subperm

namespace Dagq

open Lib

set_option synthInstance.maxSize 100000

/-! ## What an ask is about -/

/-- Every ask of `s` is in `s'`, of the same kind and about the same task. -/
def KeepsSubject (s s' : Store) : Prop :=
  ∀ id ask, s.asks.get? id = some ask → ∃ later, s'.asks.get? id = some later ∧
    later.kind = ask.kind ∧ later.taskId = ask.taskId

instance : IsPreorder Store KeepsSubject where
  refl _ := fun _ ask hask => ⟨ask, hask, rfl, rfl⟩
  trans _ _ _ h₁ h₂ := by
    intro id ask hask
    obtain ⟨ask₁, hask₁, hkind₁, htask₁⟩ := h₁ id ask hask
    obtain ⟨ask₂, hask₂, hkind₂, htask₂⟩ := h₂ id ask₁ hask₁
    exact ⟨ask₂, hask₂, hkind₂.trans hkind₁, htask₂.trans htask₁⟩

instance (priority := low) subject_of_quiet {α : Type} {m : Tx α} [h : Txn.Moves AskQuiet m] :
    Txn.Moves KeepsSubject m :=
  h.mono fun _ _ hm _ ask hask => ⟨ask, hm.asks ▸ hask, rfl, rfl⟩

instance subject_record {event : Event} : Txn.Moves KeepsSubject (record event) :=
  .of_write fun _ _ ask hask => ⟨ask, hask, rfl, rfl⟩

instance subject_push {id : AskId} {row : Ask} :
    Txn.Moves KeepsSubject
      (Txn.write fun s => { s with asks := s.asks.push id row } : Tx Unit) := by
  refine .of_write fun s x ask hask => ⟨ask, ?_, rfl, rfl⟩
  show (s.asks.push id row).get? x = some ask
  by_cases hfresh : s.asks.get? id = none
  · rw [Table.get?_push hfresh, if_neg, hask]
    rintro rfl
    rw [hfresh] at hask
    cases hask
  · rw [Table.push_of_mem hfresh, hask]

/-- No rewriting of an ask touches its kind and its task. -/
instance subject_modify {id : AskId} {runId : Ask → Option RunId}
    {question askedBy : Ask → String} {options : Ask → List String}
    {answer answeredBy subject : Ask → Option String} {reason : Ask → AskReason}
    {affected : Ask → List RunId} {answeredAt closedAt : Ask → Option Seconds}
    {findingId : Ask → Option FindingId} {optionIndex : Ask → Option Nat} :
    Txn.Moves KeepsSubject (Txn.write fun s => { s with
      asks := s.asks.modify id fun ask => Ask.mk ask.kind ask.taskId (runId ask) (question ask)
        (options ask) (answer ask) (askedBy ask) (reason ask) (subject ask) (affected ask)
        (answeredAt ask) (closedAt ask) (findingId ask) (answeredBy ask)
        (optionIndex ask) } : Tx Unit) := by
  refine .of_write fun s x ask hask => ?_
  show ∃ later, (s.asks.modify id _).get? x = some later ∧ _
  rw [Table.get?_modify]
  split_ifs with h
  · subst h
    rw [hask]
    exact ⟨_, rfl, rfl, rfl⟩
  · exact ⟨ask, hask, rfl, rfl⟩

theorem subject_askOp (op : AskOp) : Txn.Moves KeepsSubject op.exec := by
  cases op <;> unfold AskOp.exec <;> infer_instance

instance subject_decideTriage {id : RunId} {askId : AskId} {answer reason : String}
    {alive : Pid → Bool} {now : Seconds} :
    Txn.Moves KeepsSubject (decideTriage id askId answer reason alive now) := by
  unfold decideTriage
  infer_instance

theorem subject_runOp (op : RunOp) : Txn.Moves KeepsSubject op.exec := by
  cases op <;> unfold RunOp.exec <;> infer_instance

instance subject_applyDecision {job : PlanReviewJob} {apply : PlanReviewApply} {now : Seconds} :
    Txn.Moves KeepsSubject (applyDecision job apply now) := by
  unfold applyDecision
  split <;> infer_instance

theorem subject_planOp (op : PlanOp) : Txn.Moves KeepsSubject op.exec := by
  cases op <;> unfold PlanOp.exec <;> infer_instance

theorem queue_keepsSubject (s : Store) (op : Op) : KeepsSubject s (queue.next s op) := by
  cases op with
  | task op => exact Txn.Moves.commit (subject_of_quiet (h := askQuiet_taskOp op)) s
  | run op => exact (subject_runOp op).commit s
  | ask op => exact (subject_askOp op).commit s
  | plan op => exact (subject_planOp op).commit s


/-! ## The machine -/

/-- A transaction of the queue or of its planners, whoever makes it. -/
inductive PlannerOp
  | queue (op : Op)
  | openDraftPlanner (draft : TaskId) (answer : Option AskId)
  | openPlanner (origin : PlannerOrigin) (proposal : Option ProposalId)
  | workspaceCreated (id : PlannerId) (workspaceId : String)
  | closePlanner (id : PlannerId) (error : Option String) (now : Seconds)

/-- The queue with no planner opened yet. -/
def PlannerQueue.init : PlannerQueue :=
  { store := .init, planners := ∅, opened := [], exhausted := [] }

/-- The queue with its planners: an accepted transaction is committed, and a refused one changes
nothing. -/
def plannerQueue : Machine PlannerQueue PlannerOp where
  init := .init
  next q
    | .queue op => { q with store := queue.next q.store op }
    | .openDraftPlanner draft answer => (openDraftPlanner draft answer).commit q
    | .openPlanner origin proposal => (openPlanner origin proposal).commit q
    | .workspaceCreated id workspaceId => (plannerWorkspaceCreated id workspaceId).commit q
    | .closePlanner id error now => (closePlanner id error now).commit q

/-- How the start of a planner went on once it was recorded: its supervisor died, its prompt or its
workspace could not be made, or it runs in a workspace. -/
inductive Launch
  | crashed
  | failed (error : String)
  | started (workspaceId : String)

/-- `start_draft_planner` with what its launch of `planner` came to, and the delivery of the answer:
a launch that failed leaves the answer as it is. -/
def startDraftPlanner (draft : TaskId) (answer : Option AskId) (planner : PlannerId)
    (now : Seconds) : Launch → List PlannerOp
  | .crashed => [.openDraftPlanner draft answer]
  | .failed error => [.openDraftPlanner draft answer, .closePlanner planner (some error) now]
  | .started workspaceId =>
      [.openDraftPlanner draft answer, .workspaceCreated planner workspaceId] ++
        answer.toList.map fun ask => .queue (.ask (.delivered ask now))

namespace PlannerQueue

/-- The planners ever opened for the draft. -/
def plannersFor (q : PlannerQueue) (draft : TaskId) : List PlannerId :=
  (q.planners.select fun _ p => p.draftTaskId = some draft).map Prod.fst

/-- No two planners of the runtime's are open for the draft. -/
def AtMostOneOpen (q : PlannerQueue) (draft : TaskId) : Prop :=
  ∀ {i j p p'}, q.planners.get? i = some p → q.planners.get? j = some p' →
    p.worksOn draft = true → p'.worksOn draft = true → i = j

/-- The planner's questions about the draft that were answered. -/
def answeredQuestions (q : PlannerQueue) (draft : TaskId) : List AskId :=
  (q.store.asks.select fun _ a =>
    a.kind = .plannerQuestion && a.taskId = some draft && a.answeredAt.isSome).map Prod.fst

/-- An earlier planner was opened with this answer. -/
def carried (q : PlannerQueue) (ask : AskId) : Bool := q.opened.any fun e => e.askId = some ask

/-- The answer of the ask goes to a new planner of the draft. -/
def handsOver (q : PlannerQueue) (draft : TaskId) (ask : AskId) : Bool :=
  (q.store.asks.get? ask).any fun a => a.taskId = some draft &&
    match q.routeOf a with | .ok .newPlanner => true | _ => false

/-- No planner is opened with an answer another one was opened with before. -/
def CarriesOnce (q : PlannerQueue) : PlannerOp → Prop
  | .openDraftPlanner draft (some ask) => q.carried ask = true → q.handsOver draft ask = false
  | _ => True

instance (q : PlannerQueue) (op : PlannerOp) : Decidable (q.CarriesOnce op) := by
  unfold CarriesOnce
  split <;> infer_instance

end PlannerQueue

namespace PlannerQueue

variable {q q' : PlannerQueue} {draft : TaskId}

theorem mem_answeredQuestions {id : AskId} :
    id ∈ q.answeredQuestions draft ↔ ∃ ask, q.store.asks.get? id = some ask ∧
      ask.kind = .plannerQuestion ∧ ask.taskId = some draft ∧ ask.answeredAt.isSome = true := by
  simp only [answeredQuestions, List.mem_map, Prod.exists, Table.mem_select, Bool.and_eq_true,
    decide_eq_true_eq, and_assoc]
  constructor
  · rintro ⟨_, ask, hask, hkind, htask, hanswered, rfl⟩
    exact ⟨ask, hask, hkind, htask, hanswered⟩
  · rintro ⟨ask, hask, hkind, htask, hanswered⟩
    exact ⟨id, ask, hask, hkind, htask, hanswered, rfl⟩

/-! ## What a planner is opened on -/

/-- An answer for a new planner: of a question about a task nobody works on. -/
theorem routeOf_newPlanner {ask : Ask} (h : q.routeOf ask = .ok .newPlanner) :
    ∃ taskId row, ask.taskId = some taskId ∧ q.store.tasks.get? taskId = some row ∧
      q.workingOn taskId = none ∧ ask.kind = .plannerQuestion ∧ ask.answer ≠ none := by
  unfold routeOf at h
  cases htask : ask.taskId with
  | none =>
      rw [htask] at h
      cases h
  | some taskId =>
      simp only [htask] at h
      by_cases hquestion : ask.kind ≠ .plannerQuestion ∨ ask.answer = none ∨
          ask.closedAt.isSome = true
      · rw [if_pos hquestion] at h
        cases h
      · rw [if_neg hquestion] at h
        simp only [not_or, not_not] at hquestion
        cases hnobody : q.workingOn taskId with
        | some r =>
            rw [hnobody] at h
            cases h
        | none =>
            cases hrow : q.store.tasks.get? taskId with
            | none =>
                simp only [hnobody, hrow] at h
                split at h <;> cases h
            | some row => exact ⟨taskId, row, rfl, hrow, hnobody, hquestion.1, hquestion.2.1⟩

/-- Nobody works on a task means that no planner of the runtime's is open for it as a draft. -/
theorem free_of_workingOn {row : TaskRow} (hrow : q.store.tasks.get? draft = some row)
    (h : q.workingOn draft = none) {id : PlannerId} {p : PlannerSession}
    (hp : q.planners.get? id = some p) : p.worksOn draft = false := by
  by_contra hworks
  rw [Bool.not_eq_false, PlannerSession.worksOn, Bool.and_eq_true] at hworks
  obtain ⟨hopen, hdraft⟩ := hworks
  rw [workingOn, hrow, Option.bind_some] at h
  obtain ⟨r, hr⟩ := Table.last?_isSome
    (p := fun _ p => p.origin = .runtime && p.closedAt.isNone
      && (p.draftTaskId = some draft || (row.proposalId.isSome && p.proposalId = row.proposalId)))
    hp (by rw [hopen, hdraft]; rfl)
  rw [h] at hr
  cases hr

theorem handsOver_iff {id : AskId} :
    q.handsOver draft id = true ↔ ∃ ask, q.store.asks.get? id = some ask ∧
      ask.taskId = some draft ∧ q.routeOf ask = .ok .newPlanner := by
  rw [handsOver, Option.any_eq_true]
  refine exists_congr fun ask => and_congr_right fun _ => ?_
  rw [Bool.and_eq_true, decide_eq_true_eq]
  refine and_congr_right fun _ => ?_
  split <;> simp_all

theorem free_of_handsOver {ask : AskId} (h : q.handsOver draft ask = true) {id : PlannerId}
    {p : PlannerSession} (hp : q.planners.get? id = some p) : p.worksOn draft = false := by
  obtain ⟨a, _, htask, hroute⟩ := handsOver_iff.mp h
  obtain ⟨taskId, row, htask', hrow, hnobody, _, _⟩ := routeOf_newPlanner hroute
  rw [htask] at htask'
  cases htask'
  exact free_of_workingOn hrow hnobody hp

/-- The answer handed over is one of a question about the draft. -/
theorem answered_of_handsOver (hs : q.store.AsksSound) {ask : AskId}
    (h : q.handsOver draft ask = true) : ask ∈ q.answeredQuestions draft := by
  obtain ⟨a, hask, htask, hroute⟩ := handsOver_iff.mp h
  obtain ⟨_, _, _, _, _, hkind, hanswer⟩ := routeOf_newPlanner hroute
  refine mem_answeredQuestions.mpr ⟨a, hask, hkind, htask, ?_⟩
  rw [Option.isSome_iff_ne_none]
  intro hnone
  exact hanswer ((hs.sound hask).unanswered hnone).1

theorem free_of_isTarget (h : q.isTarget draft = true) {id : PlannerId} {p : PlannerSession}
    (hp : q.planners.get? id = some p) : p.worksOn draft = false := by
  obtain ⟨row, _, h⟩ := (Option.any_eq_true _ _).mp h
  simp only [Bool.and_eq_true, Bool.not_eq_true', Table.any_eq_false_iff] at h
  have hclosed := h.1.1.2 id p hp
  rw [PlannerSession.worksOn, Bool.and_assoc, Bool.and_comm p.closedAt.isNone]
  simp [hclosed]

/-! ## Steps -/

/-- A planner is opened for the draft, in one step with the event that counts it. -/
structure Opens (q q' : PlannerQueue) (draft : TaskId) (answer : Option AskId) : Prop where
  free : ∀ {id p}, q.planners.get? id = some p → p.worksOn draft = false
  limit : answer = none → q.plannersOpened draft < maxDraftPlanners
  carries : ∀ ask, answer = some ask → q.handsOver draft ask = true
  store : q'.store = q.store
  planners : q'.planners
    = q.planners.push q.planners.nextId { origin := .runtime, draftTaskId := some draft }
  opened : ∃ e : DraftPlannerOpened, e.draft = draft ∧ e.askId = answer ∧
    q'.opened = q.opened ++ [e]

/-- No planner is opened for a draft, and at most the queue below takes a step. -/
structure Tends (q q' : PlannerQueue) : Prop where
  opened : q'.opened = q.opened
  works : ∀ {draft id p'}, q'.planners.get? id = some p' → p'.worksOn draft = true →
    ∃ p, q.planners.get? id = some p ∧ p.worksOn draft = true
  plannersFor : ∀ draft, q'.plannersFor draft = q.plannersFor draft
  store : q'.store = q.store ∨ ∃ op, q'.store = queue.next q.store op

/-- A step that leaves the planners alone. -/
theorem Tends.of_planners (hopened : q'.opened = q.opened) (hplanners : q'.planners = q.planners)
    (hstore : q'.store = q.store ∨ ∃ op, q'.store = queue.next q.store op) : Tends q q' := by
  refine ⟨hopened, fun {draft id p'} hp' hworks => ⟨p', ?_, hworks⟩, fun draft => ?_, hstore⟩
  · rw [← hplanners, hp']
  · show (q'.planners.select _).map Prod.fst = _
    rw [hplanners]
    rfl

/-- A row of a planner rewritten: it neither opens nor changes what it works on. -/
theorem Tends.of_modify {id : PlannerId} {f : PlannerSession → PlannerSession}
    (hdraft : ∀ p, (f p).draftTaskId = p.draftTaskId)
    (hworks : ∀ p draft, (f p).worksOn draft = true → p.worksOn draft = true) :
    Tends q { q with planners := q.planners.modify id f } := by
  refine ⟨rfl, fun {draft x p'} hp' hw => ?_, fun draft => ?_, .inl rfl⟩
  · rw [Table.get?_modify] at hp'
    split_ifs at hp' with hid
    · obtain ⟨p, hp, rfl⟩ := Option.map_eq_some_iff.mp hp'
      exact ⟨p, hid ▸ hp, hworks p draft hw⟩
    · exact ⟨p', hp', hw⟩
  · refine Table.select_modify_keys fun p => ?_
    rw [hdraft]

theorem eligibleDraft_ok {answer : Option AskId} {eligible : Bool}
    (h : eligibleDraft draft answer q = .ok (eligible, q')) :
    q' = q ∧ (eligible = true → (answer = none ∧ q.isTarget draft = true) ∨
      ∃ ask, answer = some ask ∧ q.handsOver draft ask = true) := by
  unfold eligibleDraft at h
  rcases Txn.option_ok.mp h with ⟨hnone, h⟩ | ⟨id, hsome, h⟩
  · rw [Txn.read_ok] at h
    obtain ⟨rfl, rfl⟩ := h
    exact ⟨rfl, fun heligible => .inl ⟨hnone, heligible⟩⟩
  · rw [Txn.read_bind, Txn.found_bind] at h
    obtain ⟨ask, hask, h⟩ := h
    split_ifs at h with htask
    · rw [Txn.read_bind, Txn.lift_bind] at h
      obtain ⟨route, hroute, h⟩ := h
      rw [Txn.pure_ok] at h
      obtain ⟨rfl, rfl⟩ := h
      refine ⟨rfl, fun heligible => .inr ⟨id, hsome, handsOver_iff.mpr ⟨ask, hask, htask, ?_⟩⟩⟩
      split at heligible
      · exact hroute
      · cases heligible
    · rw [Txn.pure_ok] at h
      obtain ⟨rfl, rfl⟩ := h
      exact ⟨rfl, nofun⟩

theorem openDraftPlanner_ok {answer : Option AskId} {start : DraftPlannerStart}
    (h : openDraftPlanner draft answer q = .ok (start, q')) :
    Opens q q' draft answer ∨ Tends q q' := by
  unfold openDraftPlanner at h
  rw [Txn.bind_ok] at h
  obtain ⟨eligible, q₁, heligible, h⟩ := h
  obtain ⟨hsame, hfits⟩ := eligibleDraft_ok heligible
  rw [hsame] at h
  split_ifs at h with hrefused
  · -- Skipped.
    rw [Txn.pure_ok] at h
    rw [h.2]
    exact .inr (.of_planners rfl rfl (.inl rfl))
  · rw [Bool.not_eq_false] at hrefused
    rw [Txn.read_bind, Txn.found_bind] at h
    obtain ⟨row, _, h⟩ := h
    rw [Txn.read_bind] at h
    split_ifs at h with hused
    · -- Used up: only the event of that is written.
      rw [recordExhausted, Txn.write_bind, Txn.pure_ok] at h
      rw [← h.2]
      exact .inr (.of_planners rfl rfl (.inl rfl))
    · rw [insertDraftPlanner, Txn.read_bind, Txn.write_bind, Txn.read_bind, Txn.found_bind] at h
      obtain ⟨origin, _, h⟩ := h
      rw [Txn.write_bind, Txn.read_bind, Txn.pure_ok] at h
      rw [← h.2]
      refine .inl ⟨fun {id p} hp => ?_, fun hown => ?_, fun ask hcarries => ?_, rfl, rfl,
        ⟨_, rfl, rfl, rfl⟩⟩
      · rcases hfits hrefused with ⟨_, htarget⟩ | ⟨ask, _, hhands⟩
        · exact free_of_isTarget htarget hp
        · exact free_of_handsOver hhands hp
      · by_contra hlimit
        exact hused ⟨Nat.le_of_not_lt hlimit, hown⟩
      · rcases hfits hrefused with ⟨hown, _⟩ | ⟨ask', hask', hhands⟩
        · rw [hown] at hcarries
          cases hcarries
        · rw [hask', Option.some.injEq] at hcarries
          rw [← hcarries]
          exact hhands

theorem openPlanner_ok {origin : PlannerOrigin} {proposal : Option ProposalId} {id : PlannerId}
    (h : openPlanner origin proposal q = .ok (id, q')) : Tends q q' := by
  rw [openPlanner, Txn.read_bind, Txn.write_bind, Txn.pure_ok] at h
  rw [← h.2]
  have hfresh := Table.nextId_fresh q.planners
  refine ⟨rfl, fun {draft x p'} hp' hworks => ?_, fun draft => ?_, .inl rfl⟩
  · simp only [Table.get?_push hfresh] at hp'
    split_ifs at hp'
    · cases hp'
      -- The new planner works on no draft.
      rw [PlannerSession.worksOn, Bool.and_eq_true, decide_eq_true_eq] at hworks
      cases hworks.2
    · exact ⟨p', hp', hworks⟩
  · simp [plannersFor, Table.select_push hfresh]

theorem plannerWorkspaceCreated_ok {id : PlannerId} {workspaceId : String} {u : Unit}
    (h : plannerWorkspaceCreated id workspaceId q = .ok (u, q')) : Tends q q' := by
  rw [plannerWorkspaceCreated, Txn.read_bind, Txn.ensure_bind] at h
  obtain ⟨_, h⟩ := h
  rw [Txn.write_ok] at h
  rw [← h]
  exact .of_modify (fun _ => rfl) fun _ _ hworks => hworks

theorem closePlanner_ok {id : PlannerId} {error : Option String} {now : Seconds} {u : Unit}
    (h : closePlanner id error now q = .ok (u, q')) : Tends q q' := by
  rw [closePlanner, Txn.write_bind, Txn.read_bind, Txn.found_bind] at h
  obtain ⟨_, _, h⟩ := h
  rw [Txn.pure_ok] at h
  rw [← h.2]
  refine .of_modify (fun p => ?_) fun p draft hworks => ?_
  · split_ifs <;> rfl
  · split_ifs at hworks with hopen
    · -- A planner just closed works on nothing.
      simp [PlannerSession.worksOn] at hworks
    · exact hworks

/-- What a step does: it opens a planner for a draft, or it opens none. -/
theorem step_cases (q : PlannerQueue) (op : PlannerOp) :
    (∃ draft answer, op = .openDraftPlanner draft answer ∧
      Opens q (plannerQueue.next q op) draft answer) ∨ Tends q (plannerQueue.next q op) := by
  -- A refused operation leaves the queue, and its planners, as they were.
  have hstay : Tends q q := .of_planners rfl rfl (.inl rfl)
  cases op with
  | queue op => exact .inr (.of_planners rfl rfl (.inr ⟨op, rfl⟩))
  | openDraftPlanner draft answer =>
      show _ ∨ Tends q ((openDraftPlanner draft answer).commit q)
      rcases Txn.commit_cases (openDraftPlanner draft answer) q with ⟨start, hok⟩ | hsame
      · rcases openDraftPlanner_ok hok with hopens | htends
        · exact .inl ⟨draft, answer, rfl, hopens⟩
        · exact .inr htends
      · rw [hsame]
        exact .inr hstay
  | openPlanner origin proposal =>
      refine .inr ?_
      show Tends q ((openPlanner origin proposal).commit q)
      rcases Txn.commit_cases (openPlanner origin proposal) q with ⟨id, hok⟩ | hsame
      · exact openPlanner_ok hok
      · rw [hsame]
        exact hstay
  | workspaceCreated id workspaceId =>
      refine .inr ?_
      show Tends q ((plannerWorkspaceCreated id workspaceId).commit q)
      rcases Txn.commit_cases (plannerWorkspaceCreated id workspaceId) q with ⟨u, hok⟩ | hsame
      · exact plannerWorkspaceCreated_ok hok
      · rw [hsame]
        exact hstay
  | closePlanner id error now =>
      refine .inr ?_
      show Tends q ((closePlanner id error now).commit q)
      rcases Txn.commit_cases (closePlanner id error now) q with ⟨u, hok⟩ | hsame
      · exact closePlanner_ok hok
      · rw [hsame]
        exact hstay

/-! ## Every run -/

/-- At most one planner is open for a draft, and every planner of a draft was counted when it was
opened. -/
structure Ledger (q : PlannerQueue) : Prop where
  asks : q.store.AsksSound
  single : ∀ draft, q.AtMostOneOpen draft
  counted : ∀ draft, (q.plannersFor draft).length = q.plannersOpened draft

theorem Opens.plannersFor {answer : Option AskId} (h : Opens q q' draft answer) (other : TaskId) :
    q'.plannersFor other
      = q.plannersFor other ++ if other = draft then [q.planners.nextId] else [] := by
  rw [PlannerQueue.plannersFor, h.planners, Table.select_push (Table.nextId_fresh _),
    List.map_append, ← PlannerQueue.plannersFor]
  congr 1
  by_cases hother : other = draft
  · simp [hother]
  · have hne : ¬draft = other := fun heq => hother heq.symm
    simp [hother, hne]

theorem Opens.plannersOpened {answer : Option AskId} (h : Opens q q' draft answer)
    (other : TaskId) :
    q'.plannersOpened other = q.plannersOpened other + if other = draft then 1 else 0 := by
  obtain ⟨e, rfl, _, hopened⟩ := h.opened
  rw [PlannerQueue.plannersOpened, hopened, List.countP_append, ← PlannerQueue.plannersOpened,
    List.countP_singleton]
  simp [eq_comm]

theorem Ledger.opens {answer : Option AskId} (hq : Ledger q) (h : Opens q q' draft answer) :
    Ledger q' := by
  refine ⟨h.store ▸ hq.asks, fun other i j p p' hi hj hworks hworks' => ?_, fun other => ?_⟩
  · have hfresh := Table.nextId_fresh q.planners
    rw [h.planners, Table.get?_push hfresh] at hi hj
    -- A planner that worked on the draft before would have kept the new one from being opened.
    have hnew : ∀ {x : PlannerId} {r : PlannerSession}, q.planners.get? x = some r →
        r.worksOn other = true → other ≠ draft := by
      rintro x r hr hw rfl
      rw [h.free hr] at hw
      cases hw
    have hdraft : ∀ {r : PlannerSession},
        some { origin := .runtime, draftTaskId := some draft : PlannerSession } = some r →
        r.worksOn other = true → other = draft := by
      rintro r hr hw
      cases hr
      simpa [PlannerSession.worksOn, eq_comm] using hw
    split_ifs at hi hj with hin hjn hjn
    · rw [hin, hjn]
    · exact absurd (hdraft hi hworks) (hnew hj hworks')
    · exact absurd (hdraft hj hworks') (hnew hi hworks)
    · exact hq.single other hi hj hworks hworks'
  · rw [h.plannersFor, h.plannersOpened, List.length_append, hq.counted]
    split_ifs <;> rfl

theorem Ledger.tends (hq : Ledger q) (h : Tends q q') : Ledger q' := by
  refine ⟨?_, fun draft i j p p' hi hj hworks hworks' => ?_, fun draft => ?_⟩
  · rcases h.store with hstore | ⟨op, hstore⟩
    · rw [hstore]
      exact hq.asks
    · rw [hstore]
      exact (queue_askLife q.store op hq.asks).1
  · obtain ⟨r, hr, hrw⟩ := h.works hi hworks
    obtain ⟨r', hr', hrw'⟩ := h.works hj hworks'
    exact hq.single draft hr hr' hrw hrw'
  · rw [h.plannersFor, hq.counted, plannersOpened, plannersOpened, h.opened]

theorem Ledger.next (hq : Ledger q) (op : PlannerOp) : Ledger (plannerQueue.next q op) := by
  rcases step_cases q op with ⟨draft, answer, _, hopens⟩ | htends
  · exact hq.opens hopens
  · exact hq.tends htends

theorem ledger_run (ops : List PlannerOp) : Ledger (plannerQueue.run ops) := by
  have hinit : Ledger plannerQueue.init :=
    ⟨⟨nofun, fun _ => rfl⟩, (fun _ _ _ _ _ hi _ _ _ => nomatch hi), fun _ => rfl⟩
  exact Machine.invariant (fun q op hq => hq.next op) hinit ops

/-! ## What the planners are charged to -/

/-- Every planner of a draft is charged to the draft, which has at most `maxDraftPlanners` of its
own, or to an answer, each of which pays for one. -/
structure Charged (q : PlannerQueue) : Prop where
  own : ∀ draft,
    (q.opened.countP fun e => e.draft = draft && e.askId.isNone) ≤ maxDraftPlanners
  once : (q.opened.filterMap DraftPlannerOpened.askId).Nodup
  answered : ∀ {e ask}, e ∈ q.opened → e.askId = some ask → ask ∈ q.answeredQuestions e.draft

/-- The planners of a draft are its own and those that carry an answer. -/
theorem plannersOpened_eq (q : PlannerQueue) (draft : TaskId) :
    q.plannersOpened draft = (q.opened.countP fun e => e.draft = draft && e.askId.isNone) +
      ((q.opened.filter fun e => e.draft = draft).filterMap DraftPlannerOpened.askId).length := by
  rw [plannersOpened]
  induction q.opened with
  | nil => rfl
  | cons e es ih =>
      rw [List.countP_cons, ih, List.countP_cons, List.filter_cons]
      by_cases hdraft : e.draft = draft
      · cases hask : e.askId with
        | none => simp [hdraft, hask]; omega
        | some ask => simp [hdraft, hask]; omega
      · simp [hdraft]

theorem Charged.bound (hq : Charged q) (draft : TaskId) :
    q.plannersOpened draft ≤ maxDraftPlanners + (q.answeredQuestions draft).length := by
  rw [plannersOpened_eq]
  refine Nat.add_le_add (hq.own draft) ?_
  refine (List.subperm_of_subset ?_ fun ask hask => ?_).length_le
  · exact hq.once.sublist (List.filter_sublist.filterMap _)
  · obtain ⟨e, he, hcarries⟩ := List.mem_filterMap.mp hask
    obtain ⟨hmem, hdraft⟩ := List.mem_filter.mp he
    rw [← of_decide_eq_true hdraft]
    exact hq.answered hmem hcarries

/-- An answered question stays one. -/
theorem answeredQuestions_next {s : Store} (hs : s.AsksSound) {op : Op}
    (hstore : q.store = s) (hstore' : q'.store = queue.next s op) {ask : AskId}
    (h : ask ∈ q.answeredQuestions draft) : ask ∈ q'.answeredQuestions draft := by
  subst hstore
  obtain ⟨a, hask, hkind, htask, hanswered⟩ := mem_answeredQuestions.mp h
  obtain ⟨later, hlater, hsame, hsame'⟩ := queue_keepsSubject q.store op ask a hask
  obtain ⟨later', hlater', hto⟩ := (queue_askLife q.store op hs).2 ask a hask
  rw [hlater, Option.some.injEq] at hlater'
  subst hlater'
  refine mem_answeredQuestions.mpr ⟨later, ?_, hsame.trans hkind, hsame'.trans htask, ?_⟩
  · rw [hstore', hlater]
  · rw [(hto.answered hanswered).2.2]
    exact hanswered

theorem Charged.tends (hq : Charged q) (hs : q.store.AsksSound) (h : Tends q q') : Charged q' := by
  refine ⟨fun draft => ?_, ?_, fun {e ask} he hask => ?_⟩
  · rw [h.opened]
    exact hq.own draft
  · rw [h.opened]
    exact hq.once
  · rw [h.opened] at he
    rcases h.store with hstore | ⟨op, hstore⟩
    · rw [answeredQuestions, hstore]
      exact hq.answered he hask
    · exact answeredQuestions_next hs rfl hstore (hq.answered he hask)

/-- The planner just opened is the draft's own, below the limit, or it carries an answer no other
one carries. -/
theorem Charged.opens {answer : Option AskId} (hq : Charged q) (hs : q.store.AsksSound)
    (h : Opens q q' draft answer)
    (honce : ∀ ask, answer = some ask → q.carried ask = false) : Charged q' := by
  have hlimit := h.limit
  obtain ⟨e, rfl, rfl, hopened⟩ := h.opened
  refine ⟨fun other => ?_, ?_, fun {e' ask} he hask => ?_⟩
  · rw [hopened, List.countP_append, List.countP_singleton]
    have hown := hq.own other
    by_cases hmine : e.draft = other ∧ e.askId = none
    · -- It counted every planner of the draft, those with answers too.
      obtain ⟨rfl, hnone⟩ := hmine
      have hbelow := hlimit hnone
      rw [plannersOpened_eq] at hbelow
      split_ifs <;> omega
    · rw [if_neg]
      · exact hown
      · rw [Bool.and_eq_true, decide_eq_true_eq, Option.isNone_iff_eq_none]
        exact hmine
  · rw [hopened, List.filterMap_append, List.nodup_append]
    refine ⟨hq.once, ?_, ?_⟩
    · cases hask : e.askId <;> simp [hask]
    · intro ask hask other hother heq
      subst heq
      cases hcarries : e.askId with
      | none => simp [hcarries] at hother
      | some carried =>
          simp only [List.filterMap_cons, hcarries, List.filterMap_nil,
            List.mem_singleton] at hother
          subst hother
          obtain ⟨e', he', hsame⟩ := List.mem_filterMap.mp hask
          have hfree := honce ask hcarries
          rw [carried, List.any_eq_false] at hfree
          exact hfree e' he' (decide_eq_true hsame)
  · rw [answeredQuestions, h.store]
    rw [hopened, List.mem_append, List.mem_singleton] at he
    rcases he with he | rfl
    · exact hq.answered he hask
    · exact answered_of_handsOver hs (h.carries ask hask)

theorem Charged.next (hq : Charged q) (hs : q.store.AsksSound) {op : PlannerOp}
    (honce : q.CarriesOnce op) : Charged (plannerQueue.next q op) := by
  rcases step_cases q op with ⟨draft, answer, rfl, hopens⟩ | htends
  · refine hq.opens hs hopens fun ask hask => ?_
    subst hask
    by_contra hcarried
    have hnot := honce (Bool.not_eq_false _ ▸ hcarried)
    rw [hopens.carries ask rfl] at hnot
    cases hnot
  · exact hq.tends hs htends

/-- Planners are charged in every run that hands no answer over twice. -/
theorem charged_run {ops : List PlannerOp}
    (honce : plannerQueue.Meets CarriesOnce plannerQueue.init ops) :
    Charged (plannerQueue.run ops) := by
  have hinit : Ledger plannerQueue.init ∧ Charged plannerQueue.init :=
    ⟨ledger_run [], fun _ => Nat.zero_le _, List.nodup_nil, nofun⟩
  exact (Machine.invariant_of_meets (I := fun q => Ledger q ∧ Charged q)
    (fun q op hop hq => ⟨hq.1.next op, hq.2.next hq.1.asks hop⟩) honce hinit).2

end PlannerQueue

/-- At any time at most one planner of the runtime's is open for a draft, and the event log counts
every planner opened for it, failed launches included; and in a run that opens no second planner with
the same answer, a draft never has more than its own `maxDraftPlanners` and one for each of its
answered questions. -/
theorem draft_planners_bounded (ops : List PlannerOp) :
    (∀ pre post draft, ops = pre ++ post →
      (plannerQueue.run pre).AtMostOneOpen draft ∧
      ((plannerQueue.run pre).plannersFor draft).length
        = (plannerQueue.run pre).plannersOpened draft) ∧
    (plannerQueue.Meets PlannerQueue.CarriesOnce plannerQueue.init ops →
      ∀ pre post draft, ops = pre ++ post →
        ((plannerQueue.run pre).plannersFor draft).length ≤
          maxDraftPlanners + ((plannerQueue.run pre).answeredQuestions draft).length) := by
  refine ⟨fun pre _ draft _ => ⟨(PlannerQueue.ledger_run pre).single draft,
    (PlannerQueue.ledger_run pre).counted draft⟩, fun honce pre post draft hops => ?_⟩
  rw [(PlannerQueue.ledger_run pre).counted]
  rw [hops, Machine.meets_append] at honce
  exact (PlannerQueue.charged_run honce.1).bound draft

/-- A follow-up draft whose planner asked a question, was closed, and got an answer. -/
def answeredDraft : List PlannerOp := [
  .queue (.task (.add { title := "follow up" })),
  .queue (.task (.recordDraftOrigin 1 .followUp)),
  .openDraftPlanner 1 none,
  .workspaceCreated 1 "w",
  .queue (.ask (.ask (fun _ => false) {
    kind := .plannerQuestion, taskId := some 1, question := "adopt?", askedBy := "planner"
    reasonCategory := .scope })),
  .closePlanner 1 none 5,
  .queue (.ask (.answer 1 "adopt" "person" 6))]

/-- The answer is handed over once, and its delivery recorded. -/
theorem draft_planners_bounded_delivered :
    let q := plannerQueue.run (answeredDraft ++ startDraftPlanner 1 (some 1) 2 7 (.started "v"))
    (q.plannersFor 1).length = 2 ∧
      (q.plannersFor 1).length ≤ maxDraftPlanners + (q.answeredQuestions 1).length := by
  refine ⟨by decide +kernel, ?_⟩
  exact (draft_planners_bounded (answeredDraft ++ startDraftPlanner 1 (some 1) 2 7 (.started "v"))).2
    (by decide +kernel) _ [] 1 (List.append_nil _).symm

/-- Four launches with the one answer, refused by cmux each time: five planners for a draft that has
three of its own and one answer. -/
theorem failed_launches_uncharged :
    ¬∀ (ops : List PlannerOp) (draft : TaskId),
      (plannerQueue.run ops).AtMostOneOpen draft ∧
      ((plannerQueue.run ops).plannersFor draft).length ≤
        maxDraftPlanners + ((plannerQueue.run ops).answeredQuestions draft).length := by
  intro h
  have hbound := (h (answeredDraft ++ (List.range 4).flatMap fun i =>
    startDraftPlanner 1 (some 1) (2 + i) 7 (.failed "cmux refused")) 1).2
  revert hbound
  decide +kernel

end Dagq
