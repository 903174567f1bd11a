/-
# Dagq.Queue.PlanAnswers -- which submission the answer to a concern reaches.

The answer to an `approve_plan` ask finds its proposal again through the task the ask names.  A trace
runs the queue and remembers beside it what the tables do not: the plan reviews that began, how often
each proposal was submitted, and which submission the review that opened an ask was of.  The answer
reaches that submission as long as nothing is submitted while an unclosed ask is about a task it holds.
-/
import Dagq.Queue.Submissions

set_option synthInstance.maxSize 100000

namespace Dagq

open Lib

/-! ## Traces -/

/-- The queue, the plan reviews begun, how often each proposal was submitted, and for each ask a plan
review opened the proposal under review and which submission of it that was. -/
structure PlanTrace where
  store : Store
  jobs : List PlanReviewJob
  submissions : ProposalId → Nat
  origin : AskId → Option (ProposalId × Nat)

namespace PlanTrace

def init : PlanTrace := ⟨.init, [], fun _ => 0, fun _ => none⟩

/-- A supervisor ends only a review it began, and the ask of its concern is on the review's anchor, as
`PlanReviewJob.verdictApply` makes it. -/
def admits (τ : PlanTrace) : Op → Bool
  | .plan (.finishReview job _ apply _) => job ∈ τ.jobs && apply.ask.all fun new =>
      new.kind = .approvePlan && new.taskId = some job.anchor && new.runId.isNone
  | .plan (.failReview job _ _) => job ∈ τ.jobs
  | _ => true

/-- The operation on the queue, and what is to be remembered of it. -/
def follow (τ : PlanTrace) (op : Op) : PlanTrace :=
  let next := { τ with store := queue.next τ.store op }
  match op with
  | .plan (.submit submission now) =>
      match submit submission now τ.store with
      | .ok (id, _) =>
          { next with submissions := Function.update τ.submissions id (τ.submissions id + 1) }
      | .error _ => next
  | .plan (.beginReview proposalId token now) =>
      match beginPlanReview proposalId token now τ.store with
      | .ok (some job, _) => { next with jobs := job :: τ.jobs }
      | _ => next
  | .plan (.finishReview job token apply now) =>
      match finishPlanReview job token apply now τ.store with
      | .ok (some (askId, true), _) => { next with
          origin := Function.update τ.origin askId
            (some (job.proposalId, τ.submissions job.proposalId)) }
      | _ => next
  | _ => next

end PlanTrace

/-- The queue with its trace. -/
def plans : Machine PlanTrace Op where
  init := .init
  next τ op := if τ.admits op = true then τ.follow op else τ

/-! ## The invariant -/

namespace PlanTrace

/-- The review's proposal exists, and while it is active its anchor is a member. -/
def Anchored (s : Store) (job : PlanReviewJob) : Prop :=
  ∃ st, s.proposalStatus job.proposalId = some st ∧
    (st.isActive = true → s.proposalOf job.anchor = some job.proposalId)

/-- A proposal a task names exists, the reviews are anchored, and an unclosed `approve_plan` ask about a
member of a submitted proposal was opened by a review of that submission. -/
structure Sound (τ : PlanTrace) : Prop where
  member : ∀ {t p}, τ.store.proposalOf t = some p → ∃ st, τ.store.proposalStatus p = some st
  job : ∀ job ∈ τ.jobs, Anchored τ.store job
  ask : ∀ {a t p}, τ.store.planAsk a = some t → τ.store.proposalOf t = some p →
    τ.store.proposalStatus p = some .submitted → τ.origin a = some (p, τ.submissions p)

variable {τ τ' : PlanTrace}

theorem Sound.init : Sound .init := by
  constructor <;> intros <;> contradiction

theorem Anchored.of_unsubmitted {N : AskId → TaskId → Prop} {s s' : Store} {job : PlanReviewJob}
    (hstep : Unsubmitted N s s') (h : Anchored s job) : Anchored s' job := by
  obtain ⟨st, hst, hanchor⟩ := h
  obtain ⟨st', hst', hback⟩ := hstep.retained hst
  exact ⟨st', hst', fun hactive => hstep.member (hanchor (hback hactive)) hst hst' hactive⟩

/-- A step that submits nothing keeps the trace sound, when the asks it opens are of the submission they
are about. -/
theorem Sound.of_unsubmitted {N : AskId → TaskId → Prop} (h : τ.Sound)
    (hstep : Unsubmitted N τ.store τ'.store)
    (hjobs : ∀ job ∈ τ'.jobs, job ∈ τ.jobs ∨ Anchored τ'.store job)
    (hsubmissions : τ'.submissions = τ.submissions)
    (hold : ∀ a t, τ.store.planAsk a = some t → τ'.origin a = τ.origin a)
    (hnew : ∀ a t p, N a t → τ.store.proposalOf t = some p →
      τ.store.proposalStatus p = some .submitted → τ'.origin a = some (p, τ.submissions p)) :
    τ'.Sound := by
  refine ⟨fun {t p} ht => ?_, fun job hjob => ?_, fun {a t p} ha ht hp => ?_⟩
  · rcases hstep.joined ht with ht | ⟨st, hst, _⟩
    · obtain ⟨st, hst⟩ := h.member ht
      obtain ⟨st', hst', _⟩ := hstep.retained hst
      exact ⟨st', hst'⟩
    · exact ⟨st, hst⟩
  · rcases hjobs job hjob with hjob | hanchored
    · exact (h.job job hjob).of_unsubmitted hstep
    · exact hanchored
  · have hbefore : τ.store.proposalOf t = some p := by
      rcases hstep.joined ht with ht | ⟨st, hst, hne⟩
      · exact ht
      · exact absurd (Option.some.inj (hst.symm.trans hp)) hne
    rw [hsubmissions]
    rcases hstep.ask ha with ha | hN
    · rw [hold a t ha]
      exact h.ask ha hbefore (hstep.submitted hp)
    · exact hnew a t p hN hbefore (hstep.submitted hp)

/-- A submission keeps the trace sound when no unclosed ask is about a task it holds. -/
theorem Sound.of_submits {submission : Submission} {id : ProposalId} (h : τ.Sound)
    (hstep : Submits submission id τ.store τ'.store) (hjobs : τ'.jobs = τ.jobs)
    (hsubmissions : ∀ p, p ≠ id → τ'.submissions p = τ.submissions p)
    (horigin : τ'.origin = τ.origin)
    (hclear : ∀ a t, t ∈ τ.store.heldBy submission → τ.store.planAsk a ≠ some t) : τ'.Sound := by
  have hask : ∀ a, τ'.store.planAsk a = τ.store.planAsk a := by
    intro a
    rw [Store.planAsk, hstep.asks]
    rfl
  refine ⟨fun {t p} ht => ?_, fun job hjob => ?_, fun {a t p} ha ht hp => ?_⟩
  · rw [hstep.status]
    split_ifs with hp
    · exact ⟨_, rfl⟩
    · rcases hstep.joined ht with ht | ⟨rfl, _⟩
      · exact h.member ht
      · exact absurd rfl hp
  · rw [hjobs] at hjob
    obtain ⟨st, hst, hanchor⟩ := h.job job hjob
    by_cases hid : job.proposalId = id
    · -- The proposal was active before it was submitted again.
      have hactive : st.isActive = true := by
        rcases hstep.target with ⟨_, st', hst', hactive⟩ | ⟨_, hnone⟩
        · rw [← hid, hst] at hst'
          exact Option.some.inj hst' ▸ hactive
        · rw [← hid, hst] at hnone
          cases hnone
      exact ⟨.submitted, by rw [hstep.status, if_pos hid],
        fun _ => hstep.kept (hanchor hactive) hst hactive⟩
    · exact ⟨st, by rw [hstep.status, if_neg hid, hst],
        fun hactive => hstep.kept (hanchor hactive) hst hactive⟩
  · rw [hask] at ha
    by_cases hid : p = id
    · -- A member of the submitted proposal: no unclosed ask is about it.
      subst hid
      refine absurd ha (hclear a t ?_)
      rcases hstep.joined ht with ht | ⟨_, hheld⟩
      · rcases hstep.target with ⟨htarget, _⟩ | ⟨_, hnone⟩
        · exact Store.member_heldBy htarget ht
        · obtain ⟨st, hst⟩ := h.member ht
          rw [hst] at hnone
          cases hnone
      · exact hheld
    · rw [hstep.status, if_neg hid] at hp
      rw [horigin, hsubmissions p hid]
      rcases hstep.joined ht with ht | ⟨heq, _⟩
      · exact h.ask ha ht hp
      · exact absurd heq hid

end PlanTrace

/-! ## The condition -/

/-- An unclosed `approve_plan` ask is about the task. -/
def Store.hasPlanAsk (s : Store) (t : TaskId) : Bool :=
  s.asks.any fun id _ => s.planAsk id = some t

/-- A submission holds no task an unclosed `approve_plan` ask is about, and nobody but a plan review
registers such an ask about a task of a submitted proposal. -/
def Op.keepsPlanAsks (s : Store) : Op → Bool
  | .plan (.submit submission _) => (s.heldBy submission).all fun t => !s.hasPlanAsk t
  | .ask (.ask _ new) => !(new.kind = .approvePlan && (s.askTaskId new).any fun t =>
      (s.proposalOf t).any fun p => s.proposalStatus p = some .submitted)
  | _ => true

theorem Store.planAsk_ne {s : Store} {t : TaskId} (h : s.hasPlanAsk t = false) (a : AskId) :
    s.planAsk a ≠ some t := by
  intro ha
  obtain ⟨ask, hask, _⟩ := Option.bind_eq_some_iff.mp ha
  rw [hasPlanAsk, Table.any_eq_false_iff] at h
  simpa [ha] using h a ask hask

/-! ## Steps -/

namespace PlanTrace

variable {τ : PlanTrace}

/-- An operation the trace remembers nothing of, and that opens no ask. -/
theorem Sound.of_quiet {s' : Store} (h : τ.Sound)
    (hstep : Unsubmitted (fun _ _ => False) τ.store s') : Sound { τ with store := s' } :=
  h.of_unsubmitted hstep (fun _ => .inl) rfl (fun _ _ _ => rfl) nofun

theorem Sound.submit {submission : Submission} {now : Seconds} (h : τ.Sound)
    (hop : (Op.plan (.submit submission now)).keepsPlanAsks τ.store = true) :
    (τ.follow (.plan (.submit submission now))).Sound := by
  have hcommit : queue.next τ.store (.plan (.submit submission now))
      = (Dagq.submit submission now).commit τ.store := Txn.commit_discard
  simp only [follow, hcommit]
  cases hsubmit : Dagq.submit submission now τ.store with
  | error e =>
      rw [Txn.commit_of_error hsubmit]
      exact h
  | ok r =>
      obtain ⟨id, s'⟩ := r
      rw [Txn.commit_of_ok hsubmit]
      refine h.of_submits (submit_ok hsubmit) rfl (fun p hp => Function.update_of_ne hp _ _) rfl ?_
      intro a t ht
      simp only [Op.keepsPlanAsks, List.all_eq_true, Bool.not_eq_true'] at hop
      exact Store.planAsk_ne (hop t ht) a

/-- A plan review begins on its proposal's first task. -/
theorem beginPlanReview_ok {proposalId : ProposalId} {token : Token} {now : Seconds}
    {job : PlanReviewJob} {s s' : Store}
    (h : beginPlanReview proposalId token now s = .ok (some job, s')) : Anchored s' job := by
  simp only [beginPlanReview, Txn.read_bind, Txn.ensure_bind] at h
  obtain ⟨_, h⟩ := h
  obtain ⟨_, s₁, _, h⟩ := Txn.bind_ok.mp h
  simp only [Txn.read_bind] at h
  split_ifs at h with hcandidate
  · simp only [startPlanReview, Txn.read_bind, Txn.write_bind, Txn.found_bind] at h
    obtain ⟨anchor, hanchor, h⟩ := h
    obtain ⟨_, s₂, hnotice, hpure⟩ := Txn.bind_ok.mp h
    obtain ⟨hjob, rfl⟩ := Txn.pure_ok.mp hpure
    cases hjob
    rw [taskNotice, record_ok] at hnotice
    rw [Store.isReviewCandidate, Bool.and_eq_true] at hcandidate
    -- The notice of the start changes neither the proposal nor its members.
    refine ⟨.submitted, ?_, fun _ => ?_⟩
    · rw [← hnotice]
      exact Store.reviewable_status hcandidate.1
    · have hmember := List.mem_of_head? hanchor
      rw [Store.members, mem_sorted] at hmember
      obtain ⟨⟨t, row⟩, hrow, rfl⟩ := List.mem_map.mp hmember
      obtain ⟨hget, hproposal⟩ := Table.mem_select.mp hrow
      rw [← hnotice]
      show (s₁.tasks.get? t).bind TaskRow.proposalId = some proposalId
      rw [hget]
      simpa using hproposal
  · obtain ⟨hnone, _⟩ := Txn.pure_ok.mp h
    cases hnone

theorem Sound.beginReview {proposalId : ProposalId} {token : Token} {now : Seconds}
    (h : τ.Sound) : (τ.follow (.plan (.beginReview proposalId token now))).Sound := by
  have hcommit : queue.next τ.store (.plan (.beginReview proposalId token now))
      = (beginPlanReview proposalId token now).commit τ.store := Txn.commit_discard
  have hquiet : Unsubmitted (fun _ _ => False) τ.store
      ((beginPlanReview proposalId token now).commit τ.store) := Txn.Moves.commit inferInstance _
  simp only [follow, hcommit]
  split
  · rename_i job s' hbegin
    rw [Txn.commit_of_ok hbegin] at hquiet ⊢
    refine h.of_unsubmitted hquiet (fun j hj => ?_) rfl (fun _ _ _ => rfl) nofun
    rcases List.mem_cons.mp hj with rfl | hj
    · exact .inr (beginPlanReview_ok hbegin)
    · exact .inl hj
  · exact h.of_quiet hquiet

theorem Sound.finishReview {job : PlanReviewJob} {token : Token} {apply : PlanReviewApply}
    {now : Seconds} (h : τ.Sound)
    (hadmits : τ.admits (.plan (.finishReview job token apply now)) = true) :
    (τ.follow (.plan (.finishReview job token apply now))).Sound := by
  have hcommit : queue.next τ.store (.plan (.finishReview job token apply now))
      = (finishPlanReview job token apply now).commit τ.store := Txn.commit_discard
  simp only [admits, Bool.and_eq_true, decide_eq_true_eq] at hadmits
  obtain ⟨hjob, hask⟩ := hadmits
  have hnew : ∀ new, apply.ask = some new → new.taskId = some job.anchor ∧ new.runId = none := by
    intro new hnew
    simp only [hnew, Option.all_some, Bool.and_eq_true, decide_eq_true_eq,
      Option.isNone_iff_eq_none] at hask
    exact ⟨hask.1.2, hask.2⟩
  simp only [follow, hcommit]
  cases hfinish : finishPlanReview job token apply now τ.store with
  | error e =>
      rw [Txn.commit_of_error hfinish]
      exact h
  | ok r =>
      obtain ⟨asked, s'⟩ := r
      rw [Txn.commit_of_ok hfinish]
      rcases finishPlanReview_ok (fun new hn => (hnew new hn).2) hfinish with
        ⟨hnone, hquiet⟩ | ⟨a, new, rfl, hsome, hstatus, hfresh, hopened⟩
      · have hsame : Sound { τ with store := s' } := h.of_quiet hquiet
        cases asked with
        | none => exact hsame
        | some pair =>
            obtain ⟨a, opened⟩ := pair
            cases opened with
            | false => exact hsame
            | true => exact absurd rfl (hnone a)
      · refine h.of_unsubmitted hopened (fun _ => .inl) rfl (fun a' t ha' => ?_) ?_
        · -- The new ask had no row before.
          refine Function.update_of_ne ?_ _ _
          rintro rfl
          rw [Store.planAsk, hfresh] at ha'
          cases ha'
        · rintro a' t p ⟨rfl, _, htask⟩ ht _
          obtain ⟨st, hst, hanchor⟩ := h.job job hjob
          rw [hstatus] at hst
          cases hst
          rw [(hnew new hsome).1] at htask
          cases htask
          have hp : job.proposalId = p := Option.some.inj ((hanchor rfl).symm.trans ht)
          subst hp
          exact Function.update_self _ _ _

theorem unsubmitted_askOp {N : AskId → TaskId → Prop} {op : AskOp}
    (hop : ∀ findings new, op ≠ .ask findings new) :
    Txn.Moves (Unsubmitted N) (Op.ask op).exec := by
  cases op <;> unfold Op.exec AskOp.exec <;> try infer_instance
  case ask findings new => exact absurd rfl (hop findings new)

theorem unsubmitted_planOp {N : AskId → TaskId → Prop} {op : PlanOp}
    (hsubmit : ∀ submission now, op ≠ .submit submission now)
    (hfinish : ∀ job token apply now, op ≠ .finishReview job token apply now) :
    Txn.Moves (Unsubmitted N) (Op.plan op).exec := by
  cases op <;> unfold Op.exec PlanOp.exec <;> try infer_instance
  case submit submission now => exact absurd rfl (hsubmit submission now)
  case finishReview job token apply now => exact absurd rfl (hfinish job token apply now)

/-- An operation on the queue alone that opens no ask. -/
theorem Sound.of_moves {op : Op} (h : τ.Sound)
    (hmoves : Txn.Moves (Unsubmitted fun _ _ => False) op.exec) :
    Sound { τ with store := queue.next τ.store op } :=
  h.of_quiet (Txn.Moves.commit hmoves _)

/-- A person's ask is about no task of a submitted proposal. -/
theorem Sound.asked {findings : FindingId → Bool} {new : NewAsk} (h : τ.Sound)
    (hop : (Op.ask (.ask findings new)).keepsPlanAsks τ.store = true) :
    (τ.follow (.ask (.ask findings new))).Sound := by
  have hstep : Unsubmitted _ τ.store (queue.next τ.store (.ask (.ask findings new))) :=
    unsubmitted_ask
  refine h.of_unsubmitted hstep (fun _ => .inl) rfl (fun _ _ _ => rfl) ?_
  rintro a t p ⟨hkind, htask⟩ ht hp
  simp [Op.keepsPlanAsks, hkind, htask, ht, hp] at hop

/-- Every step of the traced queue that meets the condition keeps the trace sound. -/
theorem Sound.next {op : Op} (h : τ.Sound) (hop : op.keepsPlanAsks τ.store = true) :
    (plans.next τ op).Sound := by
  show Sound (if τ.admits op = true then τ.follow op else τ)
  split_ifs with hadmits
  · cases op with
    | task op => exact h.of_moves (unsubmitted_taskOp op)
    | run op => exact h.of_moves (unsubmitted_runOp op)
    | ask op =>
        cases op with
        | ask findings new => exact h.asked hop
        | _ => exact h.of_moves (unsubmitted_askOp (by simp))
    | plan op =>
        cases op with
        | submit submission now => exact h.submit hop
        | beginReview proposalId token now => exact h.beginReview
        | finishReview job token apply now => exact h.finishReview hadmits
        | _ => exact h.of_moves (unsubmitted_planOp (by simp) (by simp))
  · exact h

end PlanTrace

/-! ## Answers -/

/-- An answer is applied to a submitted proposal that the ask's task names, and the ask is unclosed. -/
theorem decidePlan_ok {askId : AskId} {now : Seconds} {p : ProposalId} {s s' : Store}
    (h : decidePlan askId now s = .ok (some p, s')) :
    ∃ t, s.planAsk askId = some t ∧ s.proposalOf t = some p ∧
      s.proposalStatus p = some .submitted := by
  simp only [decidePlan, readAsk, bind_assoc, Txn.ensure_bind, Txn.found_bind, Txn.read_bind] at h
  obtain ⟨ask, hask, hkind, answer, _, hopen, h⟩ := h
  split_ifs at h with happlies
  · simp only [Txn.found_bind] at h
    obtain ⟨id, hid, h⟩ := h
    have hreturned : some id = some p := by
      simp only [applyPlanAnswer, Txn.bind_ok] at h
      obtain ⟨_, _, _, _, _, _, _, _, _, _, _, _, _, _, _, _, _, _, _, _, _, hpure⟩ := h
      exact (Txn.pure_ok.mp hpure).1
    cases hreturned
    rw [Store.planAnswerApplies, hid] at happlies
    simp only [Bool.and_eq_true, Option.any_some] at happlies
    obtain ⟨t, ht, htask⟩ := Option.bind_eq_some_iff.mp hid
    refine ⟨t, ?_, htask, ?_⟩
    · rw [Store.planAsk, hask]
      show (if ask.kind = .approvePlan ∧ ask.isUnclosed then ask.taskId else none) = some t
      rw [if_pos ⟨hkind, hopen⟩, ht]
    · obtain ⟨row, hrow, hstatus⟩ := (Option.any_eq_true _ _).mp happlies.2
      rw [Store.proposalStatus, hrow]
      simp only [Bool.and_eq_true, decide_eq_true_eq] at hstatus
      rw [Option.map_some, hstatus.1]
  · obtain ⟨_, _, _, hpure⟩ := Txn.bind_ok.mp h
    cases (Txn.pure_ok.mp hpure).1

/-- Whenever an answer is applied to a proposal, its ask was opened by a plan review of the proposal as
it is submitted now. -/
def PlanTrace.AnswersOwnSubmission (τ : PlanTrace) : Prop :=
  ∀ askId now p s', decidePlan askId now τ.store = .ok (some p, s') →
    τ.origin askId = some (p, τ.submissions p)

theorem plan_answer_reaches_submission (ops : List Op)
    (h : plans.Meets (fun τ op => op.keepsPlanAsks τ.store = true) plans.init ops) :
    (plans.run ops).AnswersOwnSubmission := by
  intro askId now p s' hdecide
  have hsound : (plans.run ops).Sound :=
    Machine.invariant_of_meets (I := PlanTrace.Sound) (fun _ _ hop hs => hs.next hop) h .init
  obtain ⟨t, hask, hof, hstatus⟩ := decidePlan_ok hdecide
  exact hsound.ask hask hof hstatus

/-- A person submits task 1, and the plan review of the proposal ends in a concern. -/
def concernedPlan (job : PlanReviewJob) (question : String) : List Op :=
  let verdict : PlanReviewVerdict := { verdict := .concern, reasons := ["two changes"] }
  [.plan (.submit { tasks := [1], owner := { origin := .person } } 0),
    .plan (.beginReview job.proposalId 9 1),
    .plan (.finishReview job 9 (job.verdictApply 0 verdict question) 2)]

/-- The review's concern about task 1 is answered. -/
def answeredPlan : List Op :=
  .task (.add { title := "land" }) :: concernedPlan ⟨1, 1, 1, 1⟩ "split it?"
    ++ [.ask (.answer 1 "cancel" "cli" 3)]

theorem plan_answer_reaches_submission_answered :
    (decidePlan 1 4 (plans.run answeredPlan).store).toOption.map Prod.fst = some (some 1) ∧
      (plans.run answeredPlan).AnswersOwnSubmission :=
  ⟨by decide +kernel, plan_answer_reaches_submission _ (by decide +kernel)⟩

/-- Task 1 goes back to `draft` before its concern is answered, its proposal settles, and the task is
submitted in another proposal, held for a concern of its own: the open ask about the first is found
again, and its answer cancels the second. -/
def staleAnswer : List Op :=
  .task (.add { title := "land" }) :: concernedPlan ⟨1, 1, 1, 1⟩ "split it?"
    ++ [.task (.transition 1 .draft), .plan .settle]
    ++ concernedPlan ⟨2, 2, 1, 1⟩ "is it a duplicate?"
    ++ [.ask (.answer 1 "cancel" "cli" 3)]

theorem stale_plan_answer_applied : ¬(plans.run staleAnswer).AnswersOwnSubmission := by
  intro h
  have hdecide : (decidePlan 1 4 (plans.run staleAnswer).store).toOption.map Prod.fst
      = some (some 2) := by
    decide +kernel
  have horigin : (plans.run staleAnswer).origin 1 = some (1, 1) := by decide +kernel
  obtain ⟨⟨asked, s'⟩, hok, rfl⟩ := Option.map_eq_some_iff.mp hdecide
  cases hdone : decidePlan 1 4 (plans.run staleAnswer).store with
  | error e =>
      rw [hdone] at hok
      cases hok
  | ok r =>
      rw [hdone] at hok
      cases hok
      have hown := h 1 4 2 s' hdone
      rw [horigin] at hown
      cases hown

end Dagq
