/-
# Dagq.Queue.PlanJobs -- one plan review at a time, and its verdict once.

A plan review is a row while it runs.  Only the operations of the reviews themselves write these rows:
beginning one ends every row whose supervisor is gone, and the row that ends never opens again.  So at
most one row is open in any reachable state, and a verdict counts only while its own row is the open
one.  What a planner does meanwhile shows when the verdict arrives: a withdrawal ends the proposal, an
edit is on the log after the start of the review, and a proposal under review cannot be submitted again.
-/
import Dagq.Queue.Aside
import Dagq.Queue.Submissions

namespace Dagq

open Lib

set_option synthInstance.maxSize 100000

/-! ## Operations elsewhere -/

/-- The proposals and their reviews are as they were; the log has grown at most. -/
structure Elsewhere (s s' : Store) : Prop where
  proposals : s'.proposals = s.proposals
  planReviews : s'.planReviews = s.planReviews
  events : s.events <+: s'.events

/-- A relation that looks at the proposals, their reviews and the growth of the log only. -/
class ReviewBound (R : Store → Store → Prop) : Prop where
  of_elsewhere : ∀ {s s'}, Elsewhere s s' → R s s'

section Elsewhere

variable {R : Store → Store → Prop} [hR : ReviewBound R]

instance : Aloof R where
  of_aside h := by
    obtain ⟨es, hes, _⟩ := h.events
    exact hR.of_elsewhere ⟨h.proposals, h.planReviews, ⟨es, hes.symm⟩⟩

instance : GoalBlind R := ⟨hR.of_elsewhere ⟨rfl, rfl, List.prefix_rfl⟩⟩

instance : StatusBound R := ⟨fun _ => hR.of_elsewhere ⟨rfl, rfl, List.prefix_rfl⟩⟩

instance elsewhere_write {goals : Store → Table GoalId GoalRow}
    {tasks : Store → Table TaskId TaskRow} {taskDependencies : Store → List (TaskId × TaskId)}
    {taskGoalDependencies : Store → List (TaskId × GoalId)} {runs : Store → Table RunId RunRow}
    {leases : Store → Table RunId Lease} {processes : Store → Table (RunId × ProcessRole) RunProcess}
    {supervisors : Store → Table Token Supervisor} {asks : Store → Table AskId Ask}
    {draftOrigins : Store → Table TaskId DraftOrigin} :
    Txn.Moves R (Txn.write fun s => Store.mk (goals s) (tasks s) (taskDependencies s)
      (taskGoalDependencies s) (runs s) (leases s) (processes s) (supervisors s) s.proposals
      s.planReviews (asks s) (draftOrigins s) s.events : Tx Unit) :=
  .of_write fun _ => hR.of_elsewhere ⟨rfl, rfl, List.prefix_rfl⟩

instance elsewhere_record {event : Event} : Txn.Moves R (record event) :=
  .of_write fun _ => hR.of_elsewhere ⟨rfl, rfl, List.prefix_append _ _⟩

variable [IsPreorder Store R]

instance elsewhere_saveTask {id : TaskId} {task : Task} : Txn.Moves R (saveTask id task) := by
  unfold saveTask
  infer_instance

instance elsewhere_insertTaskRow {new : NewTask} : Txn.Moves R (insertTaskRow new) := by
  unfold insertTaskRow
  infer_instance

instance elsewhere_applyTransition {taskId : TaskId} {action : TaskAction}
    {duplicateOf : Option TaskId} : Txn.Moves R (applyTransition taskId action duplicateOf) := by
  unfold applyTransition
  infer_instance

instance elsewhere_claimTask {runId : RunId} {baseCommit : CommitSha} {order : List TaskId} :
    Txn.Moves R (claimTask runId baseCommit order) := by
  unfold claimTask
  infer_instance

instance elsewhere_finishIntegration {id : RunId} {token : Token} {now : Seconds}
    {commit mainBefore : CommitSha} :
    Txn.Moves R (finishIntegration id token now commit mainBefore) := by
  unfold finishIntegration
  infer_instance

instance elsewhere_triageAnswered {id : RunId} {taskId : TaskId} {ask : Option Ask}
    {answer reason : String} : Txn.Moves R (triageAnswered id taskId ask answer reason) := by
  unfold triageAnswered
  infer_instance

instance elsewhere_finishTriage {id : RunId} {token : Token} {now : Seconds}
    {action : TriageAction} {also : List RuntimeEvent} :
    Txn.Moves R (finishTriage id token now action also) := by
  unfold finishTriage
  infer_instance

instance elsewhere_decideTriage {id : RunId} {askId : AskId} {answer reason : String}
    {alive : Pid → Bool} {now : Seconds} :
    Txn.Moves R (decideTriage id askId answer reason alive now) := by
  unfold decideTriage
  infer_instance

instance elsewhere_applyAction {action : PlanReviewAction} :
    Txn.Moves R (applyAction action) := by
  cases action <;> (unfold applyAction; infer_instance)

theorem elsewhere_taskOp (op : TaskOp) : Txn.Moves R op.exec := by
  cases op <;> unfold TaskOp.exec <;> infer_instance

theorem elsewhere_runOp (op : RunOp) : Txn.Moves R op.exec := by
  cases op <;> unfold RunOp.exec <;> infer_instance

theorem elsewhere_askOp (op : AskOp) : Txn.Moves R op.exec := by
  cases op <;> unfold AskOp.exec <;> infer_instance

end Elsewhere

/-! ## Rows of plan reviews -/

namespace Store

/-- The plan review ran to an end. -/
def reviewEnded (s : Store) (i : PlanReviewId) : Prop :=
  ∃ row, s.planReviews.get? i = some row ∧ row.finishedAt.isSome = true

/-- The row of a plan review that runs. -/
def ReviewOpen (s : Store) (i : PlanReviewId) (row : PlanReviewRow) : Prop :=
  s.planReviews.get? i = some row ∧ row.finishedAt = none

theorem ReviewOpen.not_ended {s : Store} {i : PlanReviewId} {row : PlanReviewRow}
    (h : s.ReviewOpen i row) : ¬s.reviewEnded i := by
  rintro ⟨row', hrow, hended⟩
  rw [h.1] at hrow
  cases hrow
  rw [h.2] at hended
  cases hended

/-- At most one plan review runs. -/
def OneReview (s : Store) : Prop :=
  ∀ i j row row', s.ReviewOpen i row → s.ReviewOpen j row' → i = j

end Store

/-- A row of a plan review stays as it is, or its review ends for good. -/
def Lasting (s s' : Store) : Prop :=
  ∀ i row, s.planReviews.get? i = some row →
    s'.planReviews.get? i = some row ∨ s'.reviewEnded i

theorem Lasting.ended {s s' : Store} (h : Lasting s s') {i : PlanReviewId}
    (hi : s.reviewEnded i) : s'.reviewEnded i := by
  obtain ⟨row, hrow, hended⟩ := hi
  rcases h i row hrow with hsame | hi
  · exact ⟨row, hsame, hended⟩
  · exact hi

instance : IsPreorder Store Lasting where
  refl _ _ _ := .inl
  trans _ _ _ h₁ h₂ i row hrow := by
    rcases h₁ i row hrow with hsame | hended
    · exact h₂ i row hsame
    · exact .inr (h₂.ended hended)

/-- No plan review begins, and the rows last. -/
structure StartsNone (s s' : Store) : Prop where
  back : ∀ {i row}, s'.ReviewOpen i row → s.ReviewOpen i row
  lasting : Lasting s s'

instance : IsPreorder Store StartsNone where
  refl _ := ⟨fun h => h, refl_of Lasting _⟩
  trans _ _ _ h₁ h₂ := ⟨fun h => h₁.back (h₂.back h), trans_of Lasting h₁.lasting h₂.lasting⟩

theorem StartsNone.of_same {s s' : Store} (h : s'.planReviews = s.planReviews) :
    StartsNone s s' := by
  refine ⟨fun {i row} hopen => ?_, fun i row hrow => .inl ?_⟩
  · rw [Store.ReviewOpen, h] at hopen
    exact hopen
  · rw [h]
    exact hrow

instance : ReviewBound StartsNone := ⟨fun h => .of_same h.planReviews⟩

instance startsNone_proposals {proposals : Store → Table ProposalId ProposalRow} :
    Txn.Moves StartsNone (Txn.write fun s => { s with proposals := proposals s } : Tx Unit) :=
  .of_write fun _ => .of_same rfl

theorem finishRow_get {id : PlanReviewId} {now : Seconds} {outcome : PlanReviewOutcome}
    {reasons : Option (List String)} {u : Unit} {s s' : Store}
    (h : finishRow id now outcome reasons s = .ok (u, s')) {i : PlanReviewId}
    {row : PlanReviewRow} (hrow : s.planReviews.get? i = some row) :
    (i ≠ id ∧ s'.planReviews.get? i = some row) ∨ (i = id ∧ s'.reviewEnded i) := by
  rw [finishRow, Txn.write_ok] at h
  subst h
  by_cases hi : i = id
  · subst hi
    refine .inr ⟨rfl, _, (Table.get?_modify_of_get hrow i).trans (if_pos rfl), ?_⟩
    cases hfinished : row.finishedAt <;> simp [hfinished]
  · exact .inl ⟨hi, by simp [hi, hrow]⟩

instance startsNone_finishRow {id : PlanReviewId} {now : Seconds} {outcome : PlanReviewOutcome}
    {reasons : Option (List String)} :
    Txn.Moves StartsNone (finishRow id now outcome reasons) := by
  refine ⟨fun s u s' h => ⟨fun {i row'} hopen => ?_, fun i row hrow => ?_⟩⟩
  · -- An open row is none that was there and ended now.
    cases hrow : s.planReviews.get? i with
    | none =>
        rw [finishRow, Txn.write_ok] at h
        subst h
        have hnone := hopen.1
        by_cases hi : i = id <;> simp [hi, hrow] at hnone
        subst hi
        simp [hrow] at hnone
    | some row =>
        rcases finishRow_get h hrow with ⟨_, hsame⟩ | ⟨_, hended⟩
        · have hrow' := hopen.1
          rw [hsame] at hrow'
          cases hrow'
          exact ⟨hrow, hopen.2⟩
        · exact absurd hended hopen.not_ended
  · exact (finishRow_get h hrow).imp And.right And.right

/-! ### Operations on proposals -/

section Proposals

variable {R : Store → Store → Prop} [ReviewBound R] [IsPreorder Store R]
  [hproposals : ∀ proposals : Store → Table ProposalId ProposalRow,
    Txn.Moves R (Txn.write fun s => { s with proposals := proposals s } : Tx Unit)]

instance reviews_applyAnswer {id : ProposalId} {now : Seconds} {answer : PlanAnswer} :
    Txn.Moves R (applyAnswer id now answer) := by
  cases answer <;> infer_instance

instance reviews_submitMembers {submission : Submission} {existing : Option Proposal}
    {now : Seconds} : Txn.Moves R (submitMembers submission existing now) := by
  unfold submitMembers
  infer_instance

instance reviews_applyDecision {job : PlanReviewJob} {apply : PlanReviewApply} {now : Seconds} :
    Txn.Moves R (applyDecision job apply now) := by
  unfold applyDecision
  split <;> infer_instance

end Proposals

theorem startsNone_planOp {op : PlanOp} (hop : ∀ p token now, op ≠ .beginReview p token now) :
    Txn.Moves StartsNone op.exec := by
  cases op <;> unfold PlanOp.exec <;> try infer_instance
  case beginReview p token now => exact absurd rfl (hop p token now)

/-- The log grew. -/
def Grows (s s' : Store) : Prop := s.events <+: s'.events

instance : IsPreorder Store Grows where
  refl _ := List.prefix_rfl
  trans _ _ _ h₁ h₂ := h₁.trans h₂

instance : ReviewBound Grows := ⟨fun h => h.events⟩

instance grows_proposals {proposals : Store → Table ProposalId ProposalRow} :
    Txn.Moves Grows (Txn.write fun s => { s with proposals := proposals s } : Tx Unit) :=
  .of_write fun _ => List.prefix_rfl

instance grows_planReviews {planReviews : Store → Table PlanReviewId PlanReviewRow} :
    Txn.Moves Grows (Txn.write fun s => { s with planReviews := planReviews s } : Tx Unit) :=
  .of_write fun _ => List.prefix_rfl

theorem grows_planOp (op : PlanOp) : Txn.Moves Grows op.exec := by
  cases op <;> unfold PlanOp.exec <;> infer_instance

theorem queue_grows (s : Store) (op : Op) : Grows s (queue.next s op) := by
  cases op with
  | task op => exact (elsewhere_taskOp op).commit s
  | run op => exact (elsewhere_runOp op).commit s
  | ask op => exact (elsewhere_askOp op).commit s
  | plan op => exact (grows_planOp op).commit s

/-! ## Beginning a review -/

/-- The rows of reviews whose supervisors are gone all end. -/
theorem finishRows_ended {rows : List (PlanReviewId × PlanReviewRow)} {now : Seconds} {u : Unit}
    {s s' : Store}
    (h : (rows.forM fun r => finishRow r.1 now .interrupted none) s = .ok (u, s')) :
    StartsNone s s' ∧ ∀ r ∈ rows, ∀ row, ¬s'.ReviewOpen r.1 row := by
  refine Txn.forM_each (R := StartsNone)
    (P := fun (r : PlanReviewId × PlanReviewRow) s => ∀ row, ¬s.ReviewOpen r.1 row)
    (fun r s s' hstep hs row hopen => hs row (hstep.back hopen)) ?_ h
  intro r _ s u s' hrow
  have hstep : StartsNone s s' := Txn.Moves.of_ok hrow
  refine ⟨hstep, fun row hopen => ?_⟩
  rcases finishRow_get hrow (hstep.back hopen).1 with ⟨hne, _⟩ | ⟨_, hended⟩
  · exact hne rfl
  · exact hopen.not_ended hended

/-- The event that says the review started. -/
def PlanReviewJob.start (job : PlanReviewJob) : Event where
  taskId := some job.anchor
  body := .notice (.planReviewStarted job.proposalId job.id job.attempt)

/-- What began a review: no other supervisor that lives had one open, and the one open now is the new
one, of a candidate. -/
structure Began (p : ProposalId) (token : Token) (job : PlanReviewJob) (s s' : Store) : Prop where
  proposal : job.proposalId = p
  opened : ∃ row, s'.ReviewOpen job.id row ∧ row.supervisorToken = token
  only : ∀ {i row}, s'.ReviewOpen i row → i = job.id
  fresh : s.planReviews.get? job.id = none
  reviewable : s'.reviewable p = true
  started : job.start ∈ s'.events

/-- With no review open, starting one of a candidate opens its own. -/
theorem startPlanReview_ok {p : ProposalId} {token : Token} {now : Seconds}
    {started : Option PlanReviewJob} {s s' : Store} (hnone : ∀ i row, ¬s.ReviewOpen i row)
    (hcandidate : s.reviewable p = true) (h : startPlanReview p token now s = .ok (started, s')) :
    Lasting s s' ∧ ∃ job, started = some job ∧ Began p token job s s' := by
  simp only [startPlanReview, Txn.read_bind, Txn.write_bind, Txn.found_bind] at h
  generalize List.length _ + 1 = attempt at h
  obtain ⟨anchor, _, h⟩ := h
  obtain ⟨_, s₁, hnotice, hpure⟩ := Txn.bind_ok.mp h
  obtain ⟨rfl, rfl⟩ := Txn.pure_ok.mp hpure
  rw [taskNotice, record_ok] at hnotice
  have hfresh : s.planReviews.get? s.planReviews.nextId = none := Table.nextId_fresh _
  -- The review gets the next id, and no other row changes.
  have hget : ∀ i, s₁.planReviews.get? i = if i = s.planReviews.nextId then
      some { proposalId := p, attempt := attempt, supervisorToken := token, startedAt := now }
      else s.planReviews.get? i := by
    intro i
    rw [← hnotice]
    exact Table.get?_push hfresh i
  refine ⟨fun i row hrow => .inl ?_, _, rfl, rfl,
    ⟨_, ⟨(hget _).trans (if_pos rfl), rfl⟩, rfl⟩, fun {i row} hopen => ?_, hfresh, ?_, ?_⟩
  · have hne : i ≠ s.planReviews.nextId := by
      rintro rfl
      rw [hfresh] at hrow
      cases hrow
    rw [hget, if_neg hne]
    exact hrow
  · by_contra hne
    rw [Store.ReviewOpen, hget, if_neg hne] at hopen
    exact hnone i row hopen
  · rw [← hnotice]
    exact hcandidate
  · rw [← hnotice]
    exact List.mem_append_right _ (List.mem_singleton_self _)

/-- Beginning a review ends the open ones, none of which is another live supervisor's, and opens one
or none. -/
theorem beginPlanReview_rows {p : ProposalId} {token : Token} {now : Seconds}
    {started : Option PlanReviewJob} {s s' : Store}
    (h : beginPlanReview p token now s = .ok (started, s')) :
    (∀ {i row}, s.ReviewOpen i row → s.planReviewLive token now row = false) ∧ Lasting s s' ∧
      ((started = none ∧ ∀ i row, ¬s'.ReviewOpen i row) ∨
        ∃ job, started = some job ∧ Began p token job s s') := by
  simp only [beginPlanReview, Txn.read_bind, Txn.ensure_bind] at h
  obtain ⟨hlive, h⟩ := h
  obtain ⟨_, s₁, hrows, h⟩ := Txn.bind_ok.mp h
  obtain ⟨hstep, hended⟩ := finishRows_ended hrows
  have hlisted : ∀ {i row}, s.ReviewOpen i row →
      (i, row) ∈ s.planReviews.select fun _ row => row.finishedAt.isNone := by
    intro i row hopen
    exact Table.mem_select.mpr ⟨hopen.1, by simp [hopen.2]⟩
  have hnone : ∀ i row, ¬s₁.ReviewOpen i row :=
    fun i row hopen => hended (i, row) (hlisted (hstep.back hopen)) row hopen
  refine ⟨fun {i row} hopen => ?_, ?_⟩
  · rw [List.any_eq_false] at hlive
    simpa using hlive (i, row) (hlisted hopen)
  simp only [Txn.read_bind] at h
  split_ifs at h with hcandidate
  · have hreviewable : s₁.reviewable p = true := (Bool.and_eq_true_iff.mp hcandidate).1
    obtain ⟨hlasting, job, rfl, hbegan⟩ := startPlanReview_ok hnone hreviewable h
    refine ⟨trans_of Lasting hstep.lasting hlasting, .inr ⟨job, rfl, hbegan.proposal,
      hbegan.opened, hbegan.only, ?_, hbegan.reviewable, hbegan.started⟩⟩
    -- The new id was fresh before the rows ended, too.
    cases hrow : s.planReviews.get? job.id with
    | none => rfl
    | some row =>
        rcases hstep.lasting _ row hrow with hsame | ⟨row', hsame, _⟩
        · exact hsame.symm.trans hbegan.fresh
        · exact absurd (hsame.symm.trans hbegan.fresh) (Option.some_ne_none _)
  · obtain ⟨rfl, rfl⟩ := Txn.pure_ok.mp h
    exact ⟨hstep.lasting, .inl ⟨rfl, hnone⟩⟩

theorem beginReview_next (p : ProposalId) (token : Token) (now : Seconds) (s : Store) :
    queue.next s (.plan (.beginReview p token now)) = (beginPlanReview p token now).commit s :=
  Txn.commit_discard

/-- Every operation but the beginning of a review leaves the rows or ends them. -/
theorem startsNone_next {s : Store} {op : Op}
    (hop : ∀ p token now, op ≠ .plan (.beginReview p token now)) :
    StartsNone s (queue.next s op) := by
  cases op with
  | task op => exact (elsewhere_taskOp op).commit s
  | run op => exact (elsewhere_runOp op).commit s
  | ask op => exact (elsewhere_askOp op).commit s
  | plan op => exact (startsNone_planOp fun p token now h => hop p token now (h ▸ rfl)).commit s

/-- What the beginning of a review leaves, refused or not. -/
theorem beginReview_cases (p : ProposalId) (token : Token) (now : Seconds) (s : Store) :
    (queue.next s (.plan (.beginReview p token now)) = s) ∨
      ∃ started s', beginPlanReview p token now s = .ok (started, s') ∧
        queue.next s (.plan (.beginReview p token now)) = s' := by
  rw [beginReview_next]
  rcases Txn.commit_cases (beginPlanReview p token now) s with ⟨started, h⟩ | h
  · exact .inr ⟨started, _, h, rfl⟩
  · exact .inl h

theorem queue_lasting (s : Store) (op : Op) : Lasting s (queue.next s op) := by
  by_cases hop : ∃ p token now, op = .plan (.beginReview p token now)
  · obtain ⟨p, token, now, rfl⟩ := hop
    rcases beginReview_cases p token now s with hsame | ⟨started, s', h, hnext⟩
    · rw [hsame]
      exact refl_of Lasting s
    · rw [hnext]
      exact (beginPlanReview_rows h).2.1
  · exact (startsNone_next fun p token now h => hop ⟨p, token, now, h⟩).lasting

theorem Store.OneReview.next {s : Store} (h : s.OneReview) (op : Op) :
    (queue.next s op).OneReview := by
  by_cases hop : ∃ p token now, op = .plan (.beginReview p token now)
  · obtain ⟨p, token, now, rfl⟩ := hop
    rcases beginReview_cases p token now s with hsame | ⟨started, s', hbegin, hnext⟩
    · rw [hsame]
      exact h
    · rw [hnext]
      obtain ⟨_, _, ⟨_, hnone⟩ | ⟨job, _, hbegan⟩⟩ := beginPlanReview_rows hbegin
      · intro i j row row' hi
        exact absurd hi (hnone i row)
      · intro i j row row' hi hj
        rw [hbegan.only hi, hbegan.only hj]
  · have hstep := startsNone_next (s := s) fun p token now h => hop ⟨p, token, now, h⟩
    intro i j row row' hi hj
    exact h i j row row' (hstep.back hi) (hstep.back hj)

theorem one_review (ops : List Op) : (queue.run ops).OneReview :=
  Machine.invariant (I := Store.OneReview) (fun _ op h => h.next op)
    (by intro i j row row' h; cases h.1) ops

/-! ## The end of a review -/

/-- No task, dependency or proposal changed. -/
structure Unjudged (s s' : Store) : Prop where
  tasks : s'.tasks = s.tasks
  taskDependencies : s'.taskDependencies = s.taskDependencies
  taskGoalDependencies : s'.taskGoalDependencies = s.taskGoalDependencies
  proposals : s'.proposals = s.proposals

instance : IsPreorder Store Unjudged where
  refl _ := ⟨rfl, rfl, rfl, rfl⟩
  trans _ _ _ h₁ h₂ := ⟨h₂.tasks.trans h₁.tasks, h₂.taskDependencies.trans h₁.taskDependencies,
    h₂.taskGoalDependencies.trans h₁.taskGoalDependencies, h₂.proposals.trans h₁.proposals⟩

instance unjudged_finishRow {id : PlanReviewId} {now : Seconds} {outcome : PlanReviewOutcome}
    {reasons : Option (List String)} : Txn.Moves Unjudged (finishRow id now outcome reasons) :=
  .of_write fun _ => ⟨rfl, rfl, rfl, rfl⟩

instance unjudged_record {event : Event} : Txn.Moves Unjudged (record event) :=
  .of_write fun _ => ⟨rfl, rfl, rfl, rfl⟩

theorem Store.planReviewRunning_iff {s : Store} {job : PlanReviewJob} {token : Token} :
    s.planReviewRunning job token = true ↔
      ∃ row, s.ReviewOpen job.id row ∧ row.supervisorToken = token := by
  simp only [planReviewRunning, Option.any_eq_true, Bool.and_eq_true, decide_eq_true_eq,
    Option.isNone_iff_eq_none, ReviewOpen]
  constructor
  · rintro ⟨row, hrow, htoken, hopen⟩
    exact ⟨row, ⟨hrow, hopen⟩, htoken⟩
  · rintro ⟨row, ⟨hrow, hopen⟩, htoken⟩
    exact ⟨row, hrow, htoken, hopen⟩

/-- A review whose row is written as finished, before what follows, has ended. -/
theorem ended_of_finishRow {i : PlanReviewId} {now : Seconds} {outcome : PlanReviewOutcome}
    {reasons : Option (List String)} {u : Unit} {s s₁ s₂ s' : Store} {row : PlanReviewRow}
    (hopen : s.ReviewOpen i row) (hbefore : StartsNone s s₁)
    (h : finishRow i now outcome reasons s₁ = .ok (u, s₂)) (hafter : StartsNone s₂ s') :
    s'.reviewEnded i := by
  refine hafter.lasting.ended ?_
  rcases hbefore.lasting i row hopen.1 with hsame | hended
  · rcases finishRow_get h hsame with ⟨hne, _⟩ | ⟨_, hended⟩
    · exact absurd rfl hne
    · exact hended
  · have hstep : StartsNone s₁ s₂ := Txn.Moves.of_ok h
    exact hstep.lasting.ended hended

/-- A verdict that arrives while its review runs ends it; it changes something only if the proposal is
still submitted and unheld and none of its tasks was edited. -/
theorem finishPlanReview_cases {job : PlanReviewJob} {token : Token} {apply : PlanReviewApply}
    {now : Seconds} {asked : Option (AskId × Bool)} {s s' : Store}
    (h : finishPlanReview job token apply now s = .ok (asked, s')) :
    s' = s ∨ (s.planReviewRunning job token = true ∧ s'.reviewEnded job.id ∧
      (Unjudged s s' ∨ (s.reviewable job.proposalId = true ∧ s.editedDuring job = []))) := by
  simp only [finishPlanReview, Txn.read_bind] at h
  -- Not this job any more, not to be judged, judged as it was, or edited meanwhile.
  split_ifs at h with hrunning hreviewable hedited
  · exact .inl (Txn.pure_ok.mp h).2.symm
  · simp only [Bool.not_eq_false] at hrunning
    obtain ⟨row, hopen, _⟩ := Store.planReviewRunning_iff.mp hrunning
    obtain ⟨_, s₁, hrow, hpure⟩ := Txn.bind_ok.mp h
    obtain ⟨_, rfl⟩ := Txn.pure_ok.mp hpure
    exact .inr ⟨hrunning, ended_of_finishRow hopen (refl_of StartsNone s) hrow
      (refl_of StartsNone _), .inl (Txn.Moves.of_ok hrow)⟩
  · simp only [Bool.not_eq_false] at hrunning hreviewable
    obtain ⟨row, hopen, _⟩ := Store.planReviewRunning_iff.mp hrunning
    simp only [applyVerdict, Txn.read_bind] at h
    obtain ⟨_, s₁, hcheck, h⟩ := Txn.bind_ok.mp h
    obtain ⟨_, s₂, hdecision, h⟩ := Txn.bind_ok.mp h
    obtain ⟨_, s₃, hreopen, h⟩ := Txn.bind_ok.mp h
    obtain ⟨_, s₄, hrow, h⟩ := Txn.bind_ok.mp h
    have hbefore : StartsNone s s₃ := trans_of StartsNone (Txn.Moves.of_ok hcheck)
      (trans_of StartsNone (Txn.Moves.of_ok hdecision) (Txn.Moves.of_ok hreopen))
    exact .inr ⟨hrunning, ended_of_finishRow hopen hbefore hrow (Txn.Moves.of_ok h),
      .inr ⟨hreviewable, hedited⟩⟩
  · simp only [Bool.not_eq_false] at hrunning
    obtain ⟨row, hopen, _⟩ := Store.planReviewRunning_iff.mp hrunning
    have hunjudged : Unjudged s s' := Txn.Moves.of_ok h
    obtain ⟨_, s₁, hrow, hrest⟩ := Txn.bind_ok.mp h
    exact .inr ⟨hrunning, ended_of_finishRow hopen (refl_of StartsNone s) hrow
      (Txn.Moves.of_ok hrest), .inl hunjudged⟩

/-- A failure that arrives while its review runs ends it. -/
theorem failPlanReview_cases {job : PlanReviewJob} {token : Token} {now : Seconds} {u : Unit}
    {s s' : Store} (h : failPlanReview job token now s = .ok (u, s')) :
    s' = s ∨ (s.planReviewRunning job token = true ∧ s'.reviewEnded job.id) := by
  simp only [failPlanReview, Txn.read_bind] at h
  split_ifs at h with hrunning hreviewable
  · exact .inl (Txn.pure_ok.mp h).2.symm
  · simp only [Bool.not_eq_false] at hrunning
    obtain ⟨row, hopen, _⟩ := Store.planReviewRunning_iff.mp hrunning
    exact .inr ⟨hrunning, ended_of_finishRow hopen (refl_of StartsNone s) h
      (refl_of StartsNone _)⟩
  · simp only [Bool.not_eq_false] at hrunning
    obtain ⟨row, hopen, _⟩ := Store.planReviewRunning_iff.mp hrunning
    obtain ⟨_, s₁, hrow, hrest⟩ := Txn.bind_ok.mp h
    exact .inr ⟨hrunning, ended_of_finishRow hopen (refl_of StartsNone s) hrow
      (Txn.Moves.of_ok hrest)⟩

/-- What a verdict leaves, refused or not. -/
theorem finishReview_cases (job : PlanReviewJob) (token : Token) (apply : PlanReviewApply)
    (now : Seconds) (s : Store) :
    let s' := queue.next s (.plan (.finishReview job token apply now))
    s' = s ∨ (s.planReviewRunning job token = true ∧ s'.reviewEnded job.id ∧
      (Unjudged s s' ∨ (s.reviewable job.proposalId = true ∧ s.editedDuring job = []))) := by
  intro s'
  have hnext : s' = (finishPlanReview job token apply now).commit s := Txn.commit_discard
  rw [hnext]
  rcases Txn.commit_cases (finishPlanReview job token apply now) s with ⟨asked, h⟩ | h
  · exact finishPlanReview_cases h
  · exact .inl h

theorem failReview_cases (job : PlanReviewJob) (token : Token) (now : Seconds) (s : Store) :
    let s' := queue.next s (.plan (.failReview job token now))
    s' = s ∨ (s.planReviewRunning job token = true ∧ s'.reviewEnded job.id) := by
  intro s'
  rcases Txn.commit_cases (failPlanReview job token now) s with ⟨_, h⟩ | h
  · exact failPlanReview_cases h
  · exact .inl h

/-! ## Proposals under review -/

/-- The row of a proposal that waits for plan review with nobody holding it, or that is over. -/
def ProposalRow.InReviewOrOver (row : ProposalRow) : Prop :=
  row.status.isActive = true → row.status = .submitted ∧ row.reviewHold = none

def Store.InReviewOrOver (s : Store) (p : ProposalId) : Prop :=
  ∃ row, s.proposals.get? p = some row ∧ row.InReviewOrOver

theorem Store.InReviewOrOver.of_reviewable {s : Store} {p : ProposalId} (h : s.reviewable p = true) :
    s.InReviewOrOver p := by
  obtain ⟨row, hrow, hreview⟩ := (Option.any_eq_true _ _).mp h
  simp only [Bool.and_eq_true, decide_eq_true_eq, Option.isNone_iff_eq_none] at hreview
  exact ⟨row, hrow, fun _ => hreview⟩

/-- A proposal under review or over stays so. -/
def KeepsInReview (s s' : Store) : Prop := ∀ p, s.InReviewOrOver p → s'.InReviewOrOver p

/-- No other proposal changed. -/
def OthersKept (id : ProposalId) (s s' : Store) : Prop :=
  ∀ p, p ≠ id → s'.proposals.get? p = s.proposals.get? p

instance : IsPreorder Store KeepsInReview where
  refl _ _ h := h
  trans _ _ _ h₁ h₂ p h := h₂ p (h₁ p h)

instance {id : ProposalId} : IsPreorder Store (OthersKept id) where
  refl _ _ _ := rfl
  trans _ _ _ h₁ h₂ p hp := (h₂ p hp).trans (h₁ p hp)

theorem KeepsInReview.of_others {id : ProposalId} {s s' : Store} (h : OthersKept id s s')
    (hid : s.InReviewOrOver id → s'.InReviewOrOver id) : KeepsInReview s s' := by
  intro p hp
  by_cases heq : p = id
  · subst heq
    exact hid hp
  · rw [Store.InReviewOrOver, h p heq]
    exact hp

instance : ReviewBound KeepsInReview where
  of_elsewhere h p hp := by
    rw [Store.InReviewOrOver, h.proposals]
    exact hp

instance {id : ProposalId} : ReviewBound (OthersKept id) :=
  ⟨fun h p _ => by rw [h.proposals]⟩

instance keepsInReview_planReviews {planReviews : Store → Table PlanReviewId PlanReviewRow} :
    Txn.Moves KeepsInReview (Txn.write fun s => { s with planReviews := planReviews s } : Tx Unit) :=
  .of_write fun _ _ h => h

instance othersKept_updateReview {id : ProposalId} {f : ProposalRow → ProposalRow} :
    Txn.Moves (OthersKept id) (updateReview id f) := by
  refine .of_write fun s p hp => ?_
  show (s.proposals.modify id f).get? p = s.proposals.get? p
  rw [Table.get?_modify, if_neg hp]

theorem othersKept_saveProposal {id : ProposalId} {p : Proposal} (hid : p.id = id) :
    Txn.Moves (OthersKept id) (saveProposal p) := by
  subst hid
  refine .of_write fun s q hq => ?_
  show (Table.push _ _ _).get? q = s.proposals.get? q
  rw [Table.get?_upsert, if_neg hq]

instance othersKept_save {p : Proposal} : Txn.Moves (OthersKept p.id) (saveProposal p) :=
  othersKept_saveProposal rfl

/-- An operation that moves a proposal on by a command, when saving what the command made of it moves
the store along. -/
theorem moves_command {R : Store → Store → Prop} [IsPreorder Store R] {α : Type} {id : ProposalId}
    {command : Proposal → Except DomainError Proposal} {rest : Proposal → Proposal → Tx α}
    (hsave : ∀ p p', p.id = id → command p = .ok p' → Txn.Moves R (saveProposal p'))
    [hrest : ∀ p p', Txn.Moves R (rest p p')] :
    Txn.Moves R (do
      let p ← readProposal id
      let p' ← Tx.domain (command p)
      saveProposal p'
      rest p p') := by
  refine ⟨fun s a s' h => ?_⟩
  obtain ⟨p, p', s₁, hp, hp', hsaved, h⟩ := command_ok h
  have hid : p.id = id := (Store.proposal?_status hp).1
  exact trans_of R ((hsave p p' hid hp').of_ok hsaved) ((hrest p p').of_ok h)

/-! ### Operations that hold or revise nothing -/

theorem keepsInReview_updateReview {id : ProposalId} {f : ProposalRow → ProposalRow}
    (hf : ∀ row : ProposalRow, row.InReviewOrOver → (f row).InReviewOrOver) :
    Txn.Moves KeepsInReview (updateReview id f) := by
  refine ⟨fun s u s' h => ?_⟩
  have hothers : OthersKept id s s' := Txn.Moves.of_ok h
  refine .of_others hothers ?_
  rintro ⟨row, hrow, hreview⟩
  rw [updateReview, Txn.write_ok] at h
  subst h
  exact ⟨f row, (Table.get?_modify_of_get hrow id).trans (if_pos rfl), hf row hreview⟩

theorem keepsInReview_ends {p : Proposal} (h : p.status.isActive = false) :
    Txn.Moves KeepsInReview (saveProposal p) := by
  refine ⟨fun s u s' hsave => ?_⟩
  have hothers : OthersKept p.id s s' := Txn.Moves.of_ok hsave
  refine .of_others hothers fun _ => ?_
  have hstatus := (saveProposal_ok hsave).1 p.id
  rw [if_pos rfl] at hstatus
  obtain ⟨row, hrow, hover⟩ := Option.map_eq_some_iff.mp hstatus
  refine ⟨row, hrow, fun hactive => ?_⟩
  rw [hover, h] at hactive
  cases hactive

instance keepsInReview_release {id : ProposalId} : Txn.Moves KeepsInReview (setHold id none) :=
  keepsInReview_updateReview fun _ h hactive => ⟨(h hactive).1, rfl⟩

instance keepsInReview_claimRevise {id : ProposalId} {now : Seconds} :
    Txn.Moves KeepsInReview (claimRevise id now) := by
  apply keepsInReview_updateReview
  intro row h
  split_ifs
  · exact h
  · exact h

theorem keepsInReview_reviseDelivery {id : ProposalId} {due : ProposalRow → Bool}
    {f : ProposalRow → ProposalRow} {records : Bool → Bool} {notice : Notice}
    (hf : ∀ row : ProposalRow, row.InReviewOrOver → (f row).InReviewOrOver) :
    Txn.Moves KeepsInReview (reviseDelivery id due f records notice) := by
  have hwrite : Txn.Moves KeepsInReview
      (updateReview id fun row => if row.status = .revising ∧ due row = true then f row else row) := by
    apply keepsInReview_updateReview
    intro row h
    split_ifs
    · exact hf row h
    · exact h
  infer_instance

instance keepsInReview_reviseSent {id : ProposalId} : Txn.Moves KeepsInReview (reviseSent id) :=
  keepsInReview_reviseDelivery fun _ h => h

instance keepsInReview_reviseLost {id : ProposalId} {planner : Option PlannerId} :
    Txn.Moves KeepsInReview (reviseLost id planner) :=
  keepsInReview_reviseDelivery fun _ h => h

instance keepsInReview_plannerUnresponsive {id : ProposalId} {now : Seconds} :
    Txn.Moves KeepsInReview (plannerUnresponsive id now) :=
  keepsInReview_reviseDelivery fun _ h => h

/-- A command that ends the proposal. -/
theorem keepsInReview_ended {p p' : Proposal} {status : ProposalStatus} (h : p.MovesTo p' status)
    (hover : status.isActive = false) : Txn.Moves KeepsInReview (saveProposal p') :=
  keepsInReview_ends (by rw [h.status_eq]; exact hover)

instance keepsInReview_approve {id : ProposalId} : Txn.Moves KeepsInReview (approve id) :=
  moves_command fun _ _ _ h => keepsInReview_ended (Proposal.accept_ok h) rfl

instance keepsInReview_withdraw {id : ProposalId} {now : Seconds} :
    Txn.Moves KeepsInReview (withdraw id now) := by
  have hdrop : Txn.Moves KeepsInReview (dropReview id) :=
    keepsInReview_updateReview fun _ h hactive => ⟨(h hactive).1, rfl⟩
  exact moves_command fun _ _ _ h => keepsInReview_ended (Proposal.withdraw_ok h) rfl

instance keepsInReview_settleProposal {id : ProposalId} :
    Txn.Moves KeepsInReview (settleProposal id) := by
  have hsettle : ∀ live : Bool, Txn.Moves KeepsInReview (do
      let current ← readProposal id
      let ended ← Tx.domain (if live then current.accept else current.cancel)
      saveProposal ended
      setHold id none
      let anchor ← Txn.read fun s => s.anchor id
      Txn.option anchor (pure ()) fun anchor =>
        taskNotice anchor (.proposalSettled id ended.status)) := by
    intro live
    refine moves_command fun p p' _ h => ?_
    cases live with
    | true => exact keepsInReview_ended (Proposal.accept_ok h) rfl
    | false => exact keepsInReview_ended (Proposal.cancel_ok h) rfl
  exact Txn.Moves.bind

/-! ### Operations on one proposal -/

instance othersKept_approve {id : ProposalId} : Txn.Moves (OthersKept id) (approve id) :=
  moves_command fun _ _ hid h => othersKept_saveProposal ((Proposal.accept_ok h).id_eq.trans hid)

instance othersKept_sendBack {id : ProposalId} : Txn.Moves (OthersKept id) (sendBack id) :=
  moves_command fun _ _ hid h => othersKept_saveProposal ((Proposal.sendBack_ok h).id_eq.trans hid)

instance othersKept_cancelProposal {id : ProposalId} :
    Txn.Moves (OthersKept id) (cancelProposal id) :=
  moves_command fun _ _ hid h => othersKept_saveProposal ((Proposal.cancel_ok h).id_eq.trans hid)

instance othersKept_applyAnswer {id : ProposalId} {now : Seconds} {answer : PlanAnswer} :
    Txn.Moves (OthersKept id) (applyAnswer id now answer) := by
  cases answer <;> infer_instance

/-- A concern's answer is applied to a held proposal, which is none under review. -/
instance keepsInReview_decidePlan {askId : AskId} {now : Seconds} :
    Txn.Moves KeepsInReview (decidePlan askId now) := by
  refine ⟨fun s a s' h => ?_⟩
  simp only [decidePlan, readAsk, bind_assoc, Txn.ensure_bind, Txn.found_bind, Txn.read_bind] at h
  obtain ⟨ask, _, _, answer, _, _, h⟩ := h
  split_ifs at h with happlies
  · simp only [Txn.found_bind] at h
    obtain ⟨id, hid, h⟩ := h
    have hothers : OthersKept id s s' := Txn.Moves.of_ok h
    refine .of_others hothers ?_
    rintro ⟨row, hrow, hreview⟩
    rw [Store.planAnswerApplies, hid] at happlies
    simp only [Option.any_some, hrow, Bool.and_eq_true, decide_eq_true_eq] at happlies
    obtain ⟨_, hstatus, hheld⟩ := happlies
    have hactive : row.status.isActive = true := by rw [hstatus]; rfl
    rw [(hreview hactive).2] at hheld
    cases hheld
  · exact Txn.Moves.of_ok h

/-- What a submission makes `submitted` was sent back, held, or is new; no other proposal changes. -/
theorem submit_reviews {submission : Submission} {now : Seconds} {id : ProposalId} {s s' : Store}
    (h : submit submission now s = .ok (id, s')) : OthersKept id s s' ∧ ¬s.InReviewOrOver id := by
  have htarget := (submit_ok h).target
  have hmembers : ∀ existing, submitMembers submission existing now s = .ok (id, s') →
      OthersKept id s s' := by
    intro existing h
    simp only [submitMembers, Txn.read_bind] at h
    obtain ⟨_, s₁, hgoals, h⟩ := Txn.bind_ok.mp h
    have hs₁ : s₁ = s := Txn.Moves.of_ok (R := fun s s' : Store => s' = s) hgoals
    rw [hs₁] at h
    simp only [Txn.read_bind, domain_bind] at h
    obtain ⟨_, _, h⟩ := h
    obtain ⟨_, s₂, hjoins, h⟩ := Txn.bind_ok.mp h
    obtain ⟨hs₂, _⟩ := Txn.forM_check (fun _ _ _ _ => checkTaskJoins_ok) hjoins
    rw [hs₂] at h
    obtain ⟨_, s₃, hadoptions, h⟩ := Txn.bind_ok.mp h
    have hs₃ : s₃ = s := Txn.Moves.of_ok (R := fun s s' : Store => s' = s) hadoptions
    rw [hs₃] at h
    simp only [Txn.read_bind, domain_bind] at h
    obtain ⟨p, _, h⟩ := h
    -- The writes that follow concern this proposal alone, which is the one answered.
    have hothers : OthersKept p.id s s' := Txn.Moves.of_ok h
    obtain ⟨_, _, _, h⟩ := Txn.bind_ok.mp h
    obtain ⟨_, _, _, h⟩ := Txn.bind_ok.mp h
    obtain ⟨_, _, _, h⟩ := Txn.bind_ok.mp h
    obtain ⟨_, _, _, h⟩ := Txn.bind_ok.mp h
    obtain ⟨_, _, _, hpure⟩ := Txn.bind_ok.mp h
    rw [← (Txn.pure_ok.mp hpure).1]
    exact hothers
  simp only [submit, domain_bind] at h
  obtain ⟨_, _, h⟩ := h
  rcases Txn.option_ok.mp h with ⟨hnew, h⟩ | ⟨target, hid, h⟩
  · refine ⟨hmembers none h, ?_⟩
    rintro ⟨row, hrow, _⟩
    rcases htarget with ⟨hsome, _⟩ | ⟨_, hnone⟩
    · exact absurd (hsome.symm.trans hnew) nofun
    · rw [Store.proposalStatus, hrow] at hnone
      cases hnone
  · rw [readProposal_bind] at h
    obtain ⟨existing, hexisting, h⟩ := h
    have hsame : id = target := by
      rcases htarget with ⟨hsome, _⟩ | ⟨hnone, _⟩
      · exact Option.some.inj (hsome.symm.trans hid)
      · exact absurd (hnone.symm.trans hid) nofun
    obtain ⟨_, hstatus, _⟩ := Store.proposal?_status hexisting
    have hrowStatus : ∀ {row}, s.proposals.get? id = some row → row.status = existing.status := by
      intro row hrow
      rw [Store.proposalStatus, ← hsame, hrow] at hstatus
      exact Option.some.inj hstatus
    split_ifs at h with hrevising
    · refine ⟨hmembers _ h, ?_⟩
      rintro ⟨row, hrow, hreview⟩
      -- A proposal sent back is not under review, and one held is out of it.
      have hback : row.status = .revising := (hrowStatus hrow).trans hrevising
      have hsubmitted := (hreview (by rw [hback]; rfl)).1
      rw [hback] at hsubmitted
      cases hsubmitted
    · simp only [retryHeld, Txn.read_bind, domain_bind, Txn.ensure_bind] at h
      obtain ⟨_, hheld, _, retried, _, h⟩ := h
      have hothers : OthersKept retried.id s s' := Txn.Moves.of_ok h
      obtain ⟨_, _, _, h⟩ := Txn.bind_ok.mp h
      obtain ⟨_, _, _, h⟩ := Txn.bind_ok.mp h
      obtain ⟨_, _, _, hpure⟩ := Txn.bind_ok.mp h
      rw [(Txn.pure_ok.mp hpure).1] at hothers
      refine ⟨hothers, ?_⟩
      rintro ⟨row, hrow, hreview⟩
      rw [require_ok, (Store.proposal?_status hexisting).1, ← hsame, hrow] at hheld
      simp only [Option.any_some, Bool.and_eq_true, decide_eq_true_eq] at hheld
      have hactive : row.status.isActive = true := by rw [hrowStatus hrow, hheld.1]; rfl
      rw [(hreview hactive).2] at hheld
      cases hheld.2

/-! ### Every operation -/

instance keepsInReview_submit {submission : Submission} {now : Seconds} :
    Txn.Moves KeepsInReview (submit submission now) := by
  refine ⟨fun s id s' h => ?_⟩
  obtain ⟨hothers, hout⟩ := submit_reviews h
  exact .of_others hothers fun hin => absurd hin hout

/-- The end of a review, and a proposal sent back, are the operations that take a proposal out of
review without ending it. -/
@[reducible] def Op.takesOut : Op → Bool
  | .plan (.finishReview ..) | .plan (.failReview ..) | .plan (.sendBack _) => true
  | _ => false

theorem keepsInReview_next {s : Store} {op : Op} (h : op.takesOut = false) :
    KeepsInReview s (queue.next s op) := by
  cases op with
  | task op => exact (elsewhere_taskOp op).commit s
  | run op => exact (elsewhere_runOp op).commit s
  | ask op => exact (elsewhere_askOp op).commit s
  | plan op =>
      have hmoves : Txn.Moves KeepsInReview op.exec := by
        cases op <;> try (unfold PlanOp.exec; infer_instance)
        all_goals cases h
      exact hmoves.commit s

/-- The review ended, or it runs and its proposal is under review or over. -/
def Store.ReviewFollowed (s : Store) (job : PlanReviewJob) : Prop :=
  s.reviewEnded job.id ∨ ((∃ row, s.ReviewOpen job.id row) ∧ s.InReviewOrOver job.proposalId)

/-- A review that is the only one to run stays followed while nobody sends its proposal back. -/
theorem Store.ReviewFollowed.next {s : Store} {job : PlanReviewJob} {op : Op}
    (h : s.ReviewFollowed job) (hone : s.OneReview)
    (hback : op ≠ .plan (.sendBack job.proposalId)) : (queue.next s op).ReviewFollowed job := by
  rcases h with hended | ⟨⟨row, hopen⟩, hreview⟩
  · exact .inl ((queue_lasting s op).ended hended)
  · by_cases hended : (queue.next s op).reviewEnded job.id
    · exact .inl hended
    have hopen' : (queue.next s op).ReviewOpen job.id row :=
      ⟨((queue_lasting s op) _ _ hopen.1).resolve_right hended, hopen.2⟩
    refine .inr ⟨⟨row, hopen'⟩, ?_⟩
    -- The one review that runs did not end, so no verdict was applied and no failure recorded.
    have hother : ∀ {job' : PlanReviewJob} {token : Token},
        s.planReviewRunning job' token = true → ¬(queue.next s op).reviewEnded job'.id := by
      intro job' token hrunning hended'
      obtain ⟨row', hopen', _⟩ := planReviewRunning_iff.mp hrunning
      rw [hone _ _ _ _ hopen' hopen] at hended'
      exact hended hended'
    cases hout : op.takesOut with
    | false => exact keepsInReview_next hout _ hreview
    | true =>
        unfold Op.takesOut at hout
        split at hout
        · rename_i job' token apply now
          rcases finishReview_cases job' token apply now s with hsame | ⟨hrunning, hended', _⟩
          · rw [hsame]
            exact hreview
          · exact absurd hended' (hother hrunning)
        · rename_i job' token now
          rcases failReview_cases job' token now s with hsame | ⟨hrunning, hended'⟩
          · rw [hsame]
            exact hreview
          · exact absurd hended' (hother hrunning)
        · rename_i p
          have hp : job.proposalId ≠ p := fun hp => hback (hp ▸ rfl)
          have hothers : OthersKept p s (queue.next s (.plan (.sendBack p))) :=
            othersKept_sendBack.commit s
          rw [InReviewOrOver, hothers _ hp]
          exact hreview
        · cases hout

end Dagq
