/-
# Dagq.Queue.PlanVerdicts -- what a plan review's verdict finds when it arrives.

Between the start of a review and its verdict anything may happen to the proposal.  A proposal that is
over stays over, and one that is active keeps its members, so a member edited meanwhile is a member
still and its edit stands on the log behind the start of the review.  A verdict that changes anything is
therefore the first of its review, of the proposal as the review took it.
-/
import Dagq.Queue.PlanJobs
import Mathlib.Data.List.TakeWhile

namespace Dagq

open Lib

set_option synthInstance.maxSize 100000

/-! ## Members and statuses -/

/-- A proposal that is over stays over, and one that stays active keeps its members. -/
structure Retains (s s' : Store) : Prop where
  status : ∀ {p st}, s.proposalStatus p = some st →
    ∃ st', s'.proposalStatus p = some st' ∧ (st'.isActive = true → st.isActive = true)
  member : ∀ {t p st st'}, s.proposalOf t = some p → s.proposalStatus p = some st →
    s'.proposalStatus p = some st' → st'.isActive = true → s'.proposalOf t = some p

instance : IsPreorder Store Retains where
  refl _ := ⟨fun h => ⟨_, h, fun h => h⟩, fun h _ _ _ => h⟩
  trans _ _ _ h₁ h₂ := by
    refine ⟨fun h => ?_, fun ht hst hst₂ hactive => ?_⟩
    · obtain ⟨st₁, hst₁, hback₁⟩ := h₁.status h
      obtain ⟨st₂, hst₂, hback₂⟩ := h₂.status hst₁
      exact ⟨st₂, hst₂, fun h => hback₁ (hback₂ h)⟩
    · obtain ⟨st₁, hst₁, _⟩ := h₁.status hst
      obtain ⟨st₂', hst₂', hback⟩ := h₂.status hst₁
      rw [hst₂] at hst₂'
      cases hst₂'
      exact h₂.member (h₁.member ht hst hst₁ (hback hactive)) hst₁ hst₂ hactive

theorem Retains.of_unsubmitted {N : AskId → TaskId → Prop} {s s' : Store} (h : Unsubmitted N s s') :
    Retains s s' := ⟨h.retained, h.member⟩

theorem Retains.of_submits {submission : Submission} {id : ProposalId} {s s' : Store}
    (h : Submits submission id s s') : Retains s s' := by
  have hactive : ∀ {p st st'}, s.proposalStatus p = some st → s'.proposalStatus p = some st' →
      st'.isActive = true → st.isActive = true := by
    intro p st st' hst hst' hactive
    rw [h.status] at hst'
    split_ifs at hst' with hp
    · subst hp
      rcases h.target with ⟨_, st₀, hst₀, hactive₀⟩ | ⟨_, hnone⟩
      · rw [hst] at hst₀
        cases hst₀
        exact hactive₀
      · rw [hst] at hnone
        cases hnone
    · rw [hst] at hst'
      cases hst'
      exact hactive
  refine ⟨fun {p st} hst => ?_, fun ht hst hst' h' => h.kept ht hst (hactive hst hst' h')⟩
  by_cases hp : p = id
  · have hsubmitted : s'.proposalStatus p = some .submitted := by rw [h.status, if_pos hp]
    exact ⟨_, hsubmitted, hactive hst hsubmitted⟩
  · exact ⟨st, by rw [h.status, if_neg hp, hst], fun h => h⟩

/-- Which asks an operation opens is of no concern here. -/
instance unsubmitted_anyAsk {asks : Store → Table AskId Ask} :
    Txn.Moves (Unsubmitted fun _ _ => True)
      (Txn.write fun s => { s with asks := asks s } : Tx Unit) :=
  .of_write fun _ => .of_asks (fun _ => rfl) (fun _ => rfl) fun _ => .inr trivial

instance unsubmitted_applyDecision {job : PlanReviewJob} {apply : PlanReviewApply}
    {now : Seconds} : Txn.Moves (Unsubmitted fun _ _ => True) (applyDecision job apply now) := by
  unfold applyDecision
  split <;> infer_instance

theorem queue_retains (s : Store) (op : Op) : Retains s (queue.next s op) := by
  have hmoves : (∀ submission now, op ≠ .plan (.submit submission now)) →
      Txn.Moves (Unsubmitted fun _ _ => True) op.exec := by
    intro hop
    cases op with
    | task op => exact unsubmitted_taskOp op
    | run op => exact unsubmitted_runOp op
    | ask op => cases op <;> (unfold Op.exec AskOp.exec; infer_instance)
    | plan op =>
        cases op with
        | submit submission now => exact absurd rfl (hop submission now)
        | _ => unfold Op.exec PlanOp.exec; infer_instance
  by_cases hop : ∃ submission now, op = .plan (.submit submission now)
  · obtain ⟨submission, now, rfl⟩ := hop
    have hnext : queue.next s (.plan (.submit submission now)) = (submit submission now).commit s :=
      Txn.commit_discard
    rw [hnext]
    rcases Txn.commit_cases (submit submission now) s with ⟨id, h⟩ | h
    · exact .of_submits (submit_ok h)
    · rw [h]
      exact refl_of Retains s
  · exact .of_unsubmitted
      ((hmoves fun submission now h => hop ⟨submission, now, h⟩).commit s)

/-! ## Edits -/

/-- The event of an edit of the task. -/
def editEvent (t : TaskId) : Event where
  taskId := some t
  body := .notice .taskEdited

/-- An edit that changes the queue is on record. -/
theorem edit_recorded {t : TaskId} {change : TaskEdit} {s : Store}
    (h : queue.next s (.task (.edit t change)) ≠ s) :
    (queue.next s (.task (.edit t change))).events = s.events ++ [editEvent t] := by
  have hnext : queue.next s (.task (.edit t change)) = (editTask t change).commit s := rfl
  rw [hnext] at h ⊢
  rcases Txn.commit_cases (editTask t change) s with ⟨u, hedit⟩ | hsame
  · generalize (editTask t change).commit s = s' at h hedit ⊢
    simp only [editTask, Txn.ensure_bind, domain_bind, reviseTask, readTask_bind, Txn.when_ok,
      saveTask, Txn.write_bind, record_ok] at hedit
    obtain ⟨_, _, _, row, _, task, _, ⟨_, hnotice⟩ | ⟨_, hsame⟩⟩ := hedit
    · rw [← hnotice]
      rfl
    · exact absurd hsame.symm h
  · exact absurd hsame h

/-- The task was edited after the review started, as the log has it. -/
def Store.EditedAfter (s : Store) (job : PlanReviewJob) (t : TaskId) : Prop :=
  ∃ pre post, s.events = pre ++ post ∧ job.start ∈ pre ∧ editEvent t ∈ post

theorem Store.EditedAfter.grows {s s' : Store} {job : PlanReviewJob} {t : TaskId}
    (h : s.EditedAfter job t) (hgrows : Grows s s') : s'.EditedAfter job t := by
  obtain ⟨pre, post, hevents, hstart, hedit⟩ := h
  obtain ⟨es, hes⟩ := hgrows
  refine ⟨pre, post ++ es, ?_, hstart, List.mem_append_left _ hedit⟩
  rw [← hes, hevents, List.append_assoc]

/-- A member edited after the start is one the verdict is not applied for. -/
theorem Store.EditedAfter.mem_editedDuring {s : Store} {job : PlanReviewJob} {t : TaskId}
    (h : s.EditedAfter job t) (ht : s.proposalOf t = some job.proposalId) :
    t ∈ s.editedDuring job := by
  obtain ⟨pre, post, hevents, hstart, hedit⟩ := h
  rw [editedDuring, mem_sorted, List.mem_filterMap, hevents, List.dropWhile_append, if_neg]
  · exact ⟨editEvent t, List.mem_append_right _ hedit, by simp [editEvent, ht]⟩
  · rw [List.isEmpty_iff, List.dropWhile_eq_nil_iff]
    intro hall
    simpa [PlanReviewJob.start] using hall _ hstart

/-! ## Verdicts -/

/-- The operation begins the review `job` for the supervisor. -/
def Begins (s : Store) (op : Op) (token : Token) (job : PlanReviewJob) : Prop :=
  ∃ p now s', op = .plan (.beginReview p token now) ∧
    beginPlanReview p token now s = .ok (some job, s')

theorem Begins.began {s : Store} {op : Op} {token : Token} {job : PlanReviewJob}
    (h : Begins s op token job) : Began job.proposalId token job s (queue.next s op) := by
  obtain ⟨p, now, s', rfl, hbegin⟩ := h
  rw [beginReview_next, Txn.commit_of_ok hbegin]
  obtain ⟨_, _, ⟨hnone, _⟩ | ⟨job', hjob, hbegan⟩⟩ := beginPlanReview_rows hbegin
  · cases hnone
  · cases hjob
    obtain rfl := hbegan.proposal
    exact hbegan

/-- Who may end a review that runs: its supervisor with a verdict or a failure, and any supervisor that
begins a review when the other is gone. -/
def Op.EndsReview (s : Store) (i : PlanReviewId) (row : PlanReviewRow) : Op → Prop
  | .plan (.beginReview _ token now) => s.planReviewLive token now row = false
  | .plan (.finishReview job token _ _) => job.id = i ∧ row.supervisorToken = token
  | .plan (.failReview job token _) => job.id = i ∧ row.supervisorToken = token
  | _ => False

/-- What overtakes the review of a proposal: an edit of a member, a withdrawal, a verdict. -/
def Op.Overtakes (s : Store) (p : ProposalId) : Op → Prop
  | .task (.edit t change) =>
      s.proposalOf t = some p ∧ queue.next s (.task (.edit t change)) ≠ s
  | .plan (.withdraw id now) => id = p ∧ (withdraw id now).accepts s = true
  | .plan (.finishReview job token apply now) =>
      ¬Unjudged s (queue.next s (.plan (.finishReview job token apply now)))
  | _ => False

/-- A withdrawn proposal is over. -/
theorem withdraw_over {id : ProposalId} {now : Seconds} {u : Unit} {s s' : Store}
    (h : withdraw id now s = .ok (u, s')) :
    ∃ st, s'.proposalStatus id = some st ∧ st.isActive = false := by
  simp only [withdraw, readProposal_bind, domain_bind] at h
  obtain ⟨p, hp, withdrawn, hwithdraw, h⟩ := h
  obtain ⟨_, s₁, hsave, hrest⟩ := Txn.bind_ok.mp h
  have hmoves := Proposal.withdraw_ok hwithdraw
  have hid : withdrawn.id = id := hmoves.id_eq.trans (Store.proposal?_status hp).1
  have hcanceled : s₁.proposalStatus id = some .canceled := by
    rw [(saveProposal_ok hsave).1, if_pos hid.symm, hmoves.status_eq]
  have hkept : Unsubmitted (fun _ _ => False) s₁ s' := Txn.Moves.of_ok hrest
  obtain ⟨st, hst, hback⟩ := hkept.retained hcanceled
  refine ⟨st, hst, ?_⟩
  cases hactive : st.isActive with
  | false => rfl
  | true => cases hback hactive

/-- The proposal is submitted again. -/
def Op.Resubmits (s : Store) (p : ProposalId) (op : Op) : Prop :=
  ∃ submission now, op = .plan (.submit submission now) ∧ submission.proposal = some p ∧
    (submit submission now).accepts s = true

/-! ### A review and what came after -/

section Followed

variable {before mid : List Op} {start : Op} {owner : Token} {job : PlanReviewJob}

/-- What holds of a review from its start on. -/
theorem Begins.run (hbegins : Begins (queue.run before) start owner job) :
    Began job.proposalId owner job (queue.run before) (queue.run (before ++ [start])) := by
  rw [Machine.run_append]
  exact hbegins.began

theorem run_after {pre post : List Op} {op : Op} (h : mid = pre ++ op :: post) :
    queue.run (before ++ start :: mid) =
      queue.runFrom (queue.next (queue.run (before ++ start :: pre)) op) post := by
  rw [h, ← List.cons_append, ← List.append_assoc, Machine.run_append]
  rfl

theorem run_from_start : queue.run (before ++ start :: mid) =
    queue.runFrom (queue.run (before ++ [start])) mid := by
  rw [Machine.run_append, Machine.run_append]
  rfl

/-- Its row is there, with its supervisor's token while it runs. -/
theorem Begins.row (hbegins : Begins (queue.run before) start owner job) (mid : List Op) :
    (∃ row, (queue.run (before ++ start :: mid)).ReviewOpen job.id row ∧
      row.supervisorToken = owner) ∨ (queue.run (before ++ start :: mid)).reviewEnded job.id := by
  obtain ⟨row, hopen, howner⟩ := hbegins.run.opened
  rw [run_from_start]
  rcases Machine.moves queue_lasting _ mid _ _ hopen.1 with hsame | hended
  · exact .inl ⟨row, ⟨hsame, hopen.2⟩, howner⟩
  · exact .inr hended

/-- A review that runs is not ended, then or before. -/
theorem ended_of_ended {pre post : List Op} {op : Op} (h : mid = pre ++ op :: post)
    (hended : (queue.next (queue.run (before ++ start :: pre)) op).reviewEnded job.id) :
    (queue.run (before ++ start :: mid)).reviewEnded job.id := by
  rw [run_after h]
  exact (Machine.moves queue_lasting _ post).ended hended

/-- Its proposal was submitted and has been on record since. -/
theorem Begins.status (hbegins : Begins (queue.run before) start owner job) (mid : List Op) :
    ∃ st, (queue.run (before ++ start :: mid)).proposalStatus job.proposalId = some st := by
  obtain ⟨st, hst, _⟩ := (Machine.moves queue_retains _ mid).status
    (Store.reviewable_status hbegins.run.reviewable)
  rw [run_from_start]
  exact ⟨st, hst⟩

/-- While a review runs and its proposal is under review, what overtakes it shows. -/
theorem Begins.not_overtaken (hbegins : Begins (queue.run before) start owner job)
    {row : PlanReviewRow} (hopen : (queue.run (before ++ start :: mid)).ReviewOpen job.id row)
    (hreviewable : (queue.run (before ++ start :: mid)).reviewable job.proposalId = true)
    (hedited : (queue.run (before ++ start :: mid)).editedDuring job = [])
    {pre post : List Op} {op : Op} (hmid : mid = pre ++ op :: post) :
    ¬op.Overtakes (queue.run (before ++ start :: pre)) job.proposalId := by
  intro hover
  have hsubmitted := Store.reviewable_status hreviewable
  have hrest : Retains (queue.next (queue.run (before ++ start :: pre)) op)
      (queue.run (before ++ start :: mid)) := by
    rw [run_after hmid]
    exact Machine.moves queue_retains _ post
  have hgrows : Grows (queue.next (queue.run (before ++ start :: pre)) op)
      (queue.run (before ++ start :: mid)) := by
    rw [run_after hmid]
    exact Machine.moves queue_grows _ post
  obtain ⟨st, hst⟩ := hbegins.status pre
  unfold Op.Overtakes at hover
  split at hover
  · -- The edit stands behind the start on the log, and the task is a member still.
    rename_i t change
    obtain ⟨ht, hchanged⟩ := hover
    have hmember := (trans_of Retains (queue_retains _ _) hrest).member ht hst hsubmitted rfl
    have hstarted : job.start ∈ (queue.run (before ++ start :: pre)).events := by
      rw [run_from_start]
      exact (Machine.moves queue_grows _ pre).subset hbegins.run.started
    have hafter := Store.EditedAfter.grows
      ⟨_, _, edit_recorded hchanged, hstarted, List.mem_singleton_self _⟩ hgrows
    have hfound := hafter.mem_editedDuring hmember
    rw [hedited] at hfound
    cases hfound
  · -- A withdrawn proposal is over.
    rename_i id now
    obtain ⟨rfl, hwithdrawn⟩ := hover
    obtain ⟨⟨u, s'⟩, hok⟩ := Txn.accepts_iff.mp hwithdrawn
    have hnext : queue.next (queue.run (before ++ start :: pre))
        (.plan (.withdraw job.proposalId now)) = s' := Txn.commit_of_ok hok
    obtain ⟨st', hst', hover'⟩ := withdraw_over hok
    rw [hnext] at hrest
    obtain ⟨st'', hst'', hback⟩ := hrest.status hst'
    rw [hsubmitted] at hst''
    cases hst''
    rw [hback rfl] at hover'
    cases hover'
  · -- Another verdict was of the one review that ran then: this one's.
    rename_i job' token apply now
    rcases finishReview_cases job' token apply now (queue.run (before ++ start :: pre)) with
      hsame | ⟨hrunning, hended, _⟩
    · rw [hsame] at hover
      exact hover (refl_of Unjudged _)
    · obtain ⟨row', hopen', _⟩ := Store.planReviewRunning_iff.mp hrunning
      have hover' : (queue.next (queue.run (before ++ start :: pre))
          (.plan (.finishReview job' token apply now))).reviewEnded job.id := by
        rcases hbegins.row pre with ⟨row₁, hopen₁, _⟩ | hended₁
        · rw [← one_review _ _ _ _ _ hopen' hopen₁]
          exact hended
        · exact (queue_lasting _ _).ended hended₁
      exact hopen.not_ended (ended_of_ended hmid hover')
  · exact hover

/-- While a review runs and nobody sends its proposal back, the proposal cannot be submitted again. -/
theorem Begins.not_resubmitted (hbegins : Begins (queue.run before) start owner job)
    {row : PlanReviewRow} (hopen : (queue.run (before ++ start :: mid)).ReviewOpen job.id row)
    (hback : ∀ op ∈ mid, op ≠ .plan (.sendBack job.proposalId))
    {pre post : List Op} {op : Op} (hmid : mid = pre ++ op :: post) :
    ¬op.Resubmits (queue.run (before ++ start :: pre)) job.proposalId := by
  rintro ⟨submission, now, rfl, htarget, haccepted⟩
  have hfollowed : (queue.run (before ++ start :: pre)).ReviewFollowed job ∧
      (queue.run (before ++ start :: pre)).OneReview := by
    rw [run_from_start]
    refine Machine.invariant_of_meets
      (I := fun s : Store => s.ReviewFollowed job ∧ s.OneReview)
      (fun s op hop hs => ⟨hs.1.next hs.2 hop, hs.2.next op⟩)
      (Machine.meets_of_forall queue (fun op hop => hback op ?_) _) ⟨.inr ?_, one_review _⟩
    · rw [hmid]
      exact List.mem_append_left _ hop
    · obtain ⟨row₁, hopen₁, _⟩ := hbegins.run.opened
      exact ⟨⟨row₁, hopen₁⟩, .of_reviewable hbegins.run.reviewable⟩
  obtain ⟨⟨id, s'⟩, hok⟩ := Txn.accepts_iff.mp haccepted
  have hid : id = job.proposalId := by
    rcases (submit_ok hok).target with ⟨hsome, _⟩ | ⟨hnone, _⟩
    · exact Option.some.inj (hsome.symm.trans htarget)
    · exact absurd (hnone.symm.trans htarget) nofun
  rcases hfollowed.1 with hended | ⟨_, hreview⟩
  · exact hopen.not_ended (ended_of_ended hmid ((queue_lasting _ _).ended hended))
  · exact (submit_reviews hok).2 (hid ▸ hreview)

end Followed

/-! ### Judged once -/

instance : ReviewBound fun s s' => s'.planReviews = s.planReviews := ⟨fun h => h.planReviews⟩

instance keepsReviews_proposals {proposals : Store → Table ProposalId ProposalRow} :
    Txn.Keeps Store.planReviews (Txn.write fun s => { s with proposals := proposals s } : Tx Unit) :=
  .of_write fun _ => rfl

/-- A review that runs is ended by those who may. -/
theorem Store.OneReview.ends {s : Store} (hone : s.OneReview) {i : PlanReviewId}
    {row : PlanReviewRow} (hopen : s.ReviewOpen i row) {op : Op}
    (hended : (queue.next s op).reviewEnded i) : op.EndsReview s i row := by
  have hkept : (queue.next s op).planReviews ≠ s.planReviews := by
    intro hsame
    refine hopen.not_ended ?_
    rw [reviewEnded, hsame] at hended
    exact hended
  have hmoved : ¬Txn.Keeps Store.planReviews op.exec := fun h => hkept (h.commit s)
  -- There is one open review, so a job that runs is this one.
  have hrunning : ∀ {job : PlanReviewJob} {token : Token}, s.planReviewRunning job token = true →
      job.id = i ∧ row.supervisorToken = token := by
    intro job token hrunning
    obtain ⟨row', hopen', htoken⟩ := planReviewRunning_iff.mp hrunning
    obtain rfl := hone _ _ _ _ hopen' hopen
    have hsame : row = row' := Option.some.inj (hopen.1.symm.trans hopen'.1)
    exact ⟨rfl, hsame ▸ htoken⟩
  cases op with
  | task op => exact absurd (elsewhere_taskOp op) hmoved
  | run op => exact absurd (elsewhere_runOp op) hmoved
  | ask op => exact absurd (elsewhere_askOp op) hmoved
  | plan op =>
      cases op with
      | beginReview p token now =>
          rcases beginReview_cases p token now s with hsame | ⟨started, s', hbegin, _⟩
          · exact absurd (by rw [hsame]) hkept
          · exact (beginPlanReview_rows hbegin).1 hopen
      | finishReview job token apply now =>
          rcases finishReview_cases job token apply now s with hsame | ⟨hrun, _⟩
          · exact absurd (by rw [hsame]) hkept
          · exact hrunning hrun
      | failReview job token now =>
          rcases failReview_cases job token now s with hsame | ⟨hrun, _⟩
          · exact absurd (by rw [hsame]) hkept
          · exact hrunning hrun
      | _ =>
          refine absurd ?_ hmoved
          unfold Op.exec PlanOp.exec
          infer_instance

/-- What was decided of a review that ended is all that ever is. -/
theorem ended_for_good {s : Store} {job : PlanReviewJob} (h : s.reviewEnded job.id)
    (later : List Op) (token : Token) (now : Seconds) :
    let s' := queue.runFrom s later
    (∀ apply, queue.next s' (.plan (.finishReview job token apply now)) = s') ∧
      queue.next s' (.plan (.failReview job token now)) = s' := by
  intro s'
  have hended : s'.reviewEnded job.id := (Machine.moves queue_lasting s later).ended h
  have hover : ¬s'.planReviewRunning job token = true := by
    intro hrunning
    obtain ⟨row, hopen, _⟩ := Store.planReviewRunning_iff.mp hrunning
    exact hopen.not_ended hended
  refine ⟨fun apply => ?_, ?_⟩
  · rcases finishReview_cases job token apply now s' with hsame | ⟨hrunning, _⟩
    · exact hsame
    · exact absurd hrunning hover
  · rcases failReview_cases job token now s' with hsame | ⟨hrunning, _⟩
    · exact hsame
    · exact absurd hrunning hover

/-- In every state the queue reaches, at most one plan review runs, and it ends by its own supervisor's
verdict or failure, or by a supervisor that finds the other gone.  A verdict that changes a task, a
dependency or a proposal is given by the supervisor that began the review, while the review runs and
its proposal is submitted and unheld; since the review began no member of the proposal was edited, the
proposal was not withdrawn, no other verdict was applied, and, unless the proposal was sent back by
hand, it was not submitted again; and no later verdict or failure of the same review does anything. -/
theorem plan_review_judged_once (ops : List Op) :
    (∀ i j row row', (queue.run ops).ReviewOpen i row → (queue.run ops).ReviewOpen j row' → i = j) ∧
    (∀ op i row, (queue.run ops).ReviewOpen i row → (queue.next (queue.run ops) op).reviewEnded i →
      op.EndsReview (queue.run ops) i row) ∧
    ∀ before start mid owner job, ops = before ++ start :: mid →
      Begins (queue.run before) start owner job →
      ∀ token apply now, let s := queue.run ops
        let s' := queue.next s (.plan (.finishReview job token apply now))
        ¬Unjudged s s' →
          s.planReviewRunning job token = true ∧ token = owner ∧
          s.reviewable job.proposalId = true ∧
          (∀ pre op post, mid = pre ++ op :: post →
            ¬op.Overtakes (queue.run (before ++ start :: pre)) job.proposalId) ∧
          ((∀ op ∈ mid, op ≠ .plan (.sendBack job.proposalId)) → ∀ pre op post,
            mid = pre ++ op :: post →
              ¬op.Resubmits (queue.run (before ++ start :: pre)) job.proposalId) ∧
          ∀ later token' now', let s'' := queue.runFrom s' later
            (∀ apply', queue.next s'' (.plan (.finishReview job token' apply' now')) = s'') ∧
              queue.next s'' (.plan (.failReview job token' now')) = s'' := by
  refine ⟨one_review ops, fun op i row hopen => (one_review ops).ends hopen, ?_⟩
  rintro before start mid owner job rfl hbegins token apply now s s' hjudged
  rcases finishReview_cases job token apply now s with hsame | ⟨hrunning, hended, hfound⟩
  · exact absurd (by rw [show s' = s from hsame]; exact refl_of Unjudged s) hjudged
  obtain ⟨hreviewable, hedited⟩ := hfound.resolve_left hjudged
  obtain ⟨row, hopen, htoken⟩ := Store.planReviewRunning_iff.mp hrunning
  refine ⟨hrunning, ?_, hreviewable,
    fun pre op post => hbegins.not_overtaken hopen hreviewable hedited,
    fun hback pre op post => hbegins.not_resubmitted hopen hback,
    fun later token' now' => ended_for_good hended later token' now'⟩
  -- The row is the one the start wrote, with its owner, until it ends.
  rcases hbegins.row mid with ⟨row', hopen', howner⟩ | hended'
  · have hsame : row = row' := Option.some.inj (hopen.1.symm.trans hopen'.1)
    rw [← htoken, hsame, howner]
  · exact absurd hended' hopen.not_ended

/-- Task 1 is submitted, and supervisor 9 begins the plan review of its proposal. -/
def submittedPlan : List Op :=
  [.task (.add { title := "land" }),
    .plan (.submit { tasks := [1], owner := { origin := .person } } 0)]

theorem plan_review_judged_once_passed :
    let job : PlanReviewJob := ⟨1, 1, 1, 1⟩
    let s := queue.run (submittedPlan ++ [.plan (.beginReview 1 9 1)])
    let passed := job.verdictApply 0 { verdict := .pass, reasons := [] } ""
    let s' := queue.next s (.plan (.finishReview job 9 passed 2))
    s.taskStatus 1 = some .submitted ∧ s'.taskStatus 1 = some .ready ∧
      queue.next s' (.plan (.finishReview job 9 passed 3)) = s' := by
  intro job s passed s'
  have hbefore : s.taskStatus 1 = some .submitted := by decide +kernel
  have hafter : s'.taskStatus 1 = some .ready := by decide +kernel
  -- The pass makes the task ready, which leaves nothing unjudged.
  have hjudged : ¬Unjudged s s' := by
    intro h
    rw [Store.taskStatus, h.tasks, ← Store.taskStatus, hbefore] at hafter
    cases hafter
  have hbegins : Begins (queue.run submittedPlan) (.plan (.beginReview 1 9 1)) 9 job := by
    have hbegin : (beginPlanReview 1 9 1 (queue.run submittedPlan)).toOption.map Prod.fst
        = some (some job) := by
      decide +kernel
    cases hok : beginPlanReview 1 9 1 (queue.run submittedPlan) with
    | error e =>
        rw [hok] at hbegin
        cases hbegin
    | ok r =>
        rw [hok] at hbegin
        exact ⟨1, 1, r.2, rfl, by rw [hok, ← Option.some.inj hbegin]⟩
  obtain ⟨_, _, _, _, _, hgood⟩ := (plan_review_judged_once _).2.2 submittedPlan _ [] 9 job rfl
    hbegins 9 passed 2 hjudged
  exact ⟨hbefore, hafter, (hgood [] 9 3).1 passed⟩

end Dagq
