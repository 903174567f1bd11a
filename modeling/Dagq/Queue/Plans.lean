/-
# Dagq.Queue.Plans -- what the operations do to proposals, their members and their asks.

Three things decide what an answer to an `approve_plan` ask reaches: which of these asks nobody closed
and which task each is about, which proposal a task names, and how a proposal stands.  Only a submission
makes a proposal `submitted` or moves a task into one that is; every other operation keeps to
`Unsubmitted`, which says so, and which also bounds the asks it may open.
-/
import Dagq.Queue.Frame

namespace Dagq

open Lib

namespace Store

def proposalStatus (s : Store) (id : ProposalId) : Option ProposalStatus :=
  (s.proposals.get? id).map ProposalRow.status

/-- The task an `approve_plan` ask nobody closed is about. -/
def planAsk (s : Store) (id : AskId) : Option TaskId :=
  (s.asks.get? id).bind fun ask =>
    if ask.kind = .approvePlan ∧ ask.isUnclosed then ask.taskId else none

end Store

/-! ## Steps that submit nothing -/

/-- No proposal becomes submitted and no task joins a submitted one; an active proposal was active and
keeps its members; the asks that are new are among those `N` names. -/
structure Unsubmitted (N : AskId → TaskId → Prop) (s s' : Store) : Prop where
  ask : ∀ {a t}, s'.planAsk a = some t → s.planAsk a = some t ∨ N a t
  submitted : ∀ {p}, s'.proposalStatus p = some .submitted → s.proposalStatus p = some .submitted
  retained : ∀ {p st}, s.proposalStatus p = some st →
    ∃ st', s'.proposalStatus p = some st' ∧ (st'.isActive = true → st.isActive = true)
  joined : ∀ {t p}, s'.proposalOf t = some p →
    s.proposalOf t = some p ∨ ∃ st, s'.proposalStatus p = some st ∧ st ≠ .submitted
  member : ∀ {t p st st'}, s.proposalOf t = some p → s.proposalStatus p = some st →
    s'.proposalStatus p = some st' → st'.isActive = true → s'.proposalOf t = some p

variable {N : AskId → TaskId → Prop}

instance : IsPreorder Store (Unsubmitted N) where
  refl s := {
    ask := .inl
    submitted := fun h => h
    retained := fun h => ⟨_, h, fun h => h⟩
    joined := .inl
    member := fun h _ _ _ => h }
  trans s s₁ s₂ h₁ h₂ := by
    refine ⟨fun h => ?_, fun h => h₁.submitted (h₂.submitted h), fun h => ?_, fun h => ?_,
      fun hof hst hst₂ hactive => ?_⟩
    · rcases h₂.ask h with h | h
      · exact h₁.ask h
      · exact .inr h
    · obtain ⟨st₁, hst₁, hback₁⟩ := h₁.retained h
      obtain ⟨st₂, hst₂, hback₂⟩ := h₂.retained hst₁
      exact ⟨st₂, hst₂, fun h => hback₁ (hback₂ h)⟩
    · rcases h₂.joined h with h | h
      · rcases h₁.joined h with h | ⟨st, hst, hne⟩
        · exact .inl h
        · -- A proposal that was not submitted in between is not submitted now.
          obtain ⟨st₂, hst₂, _⟩ := h₂.retained hst
          refine .inr ⟨st₂, hst₂, ?_⟩
          rintro rfl
          rw [h₂.submitted hst₂] at hst
          exact hne (Option.some.inj hst).symm
      · exact .inr h
    · obtain ⟨st₁, hst₁, _⟩ := h₁.retained hst
      obtain ⟨st₂', hst₂', hback⟩ := h₂.retained hst₁
      rw [hst₂] at hst₂'
      cases hst₂'
      exact h₂.member (h₁.member hof hst hst₁ (hback hactive)) hst₁ hst₂ hactive

theorem Unsubmitted.mono {N' : AskId → TaskId → Prop} {s s' : Store} (h : Unsubmitted N s s')
    (hN : ∀ {a t}, N a t → N' a t) : Unsubmitted N' s s' :=
  ⟨fun ha => (h.ask ha).imp_right hN, h.submitted, h.retained, h.joined, h.member⟩

/-- The proposals and memberships are as they were. -/
theorem Unsubmitted.of_asks {s s' : Store} (hstatus : ∀ p, s'.proposalStatus p = s.proposalStatus p)
    (hof : ∀ t, s'.proposalOf t = s.proposalOf t)
    (hask : ∀ {a t}, s'.planAsk a = some t → s.planAsk a = some t ∨ N a t) :
    Unsubmitted N s s' where
  ask := hask
  submitted h := hstatus _ ▸ h
  retained h := ⟨_, (hstatus _).trans h, fun h => h⟩
  joined h := .inl (hof _ ▸ h)
  member h _ _ _ := (hof _).trans h

instance : Indifferent (Unsubmitted N) where
  of_framed h := by
    refine .of_asks (fun p => ?_) h.proposalOf fun {a t} ha => .inl ?_
    · rw [Store.proposalStatus, h.proposals]
      rfl
    · rw [Store.planAsk, h.asks] at ha
      exact ha

/-! ## Writes -/

/-- A write to leases, and to any table these relations do not look at. -/
instance unsubmitted_write {goals : Store → Table GoalId GoalRow}
    {taskDependencies : Store → List (TaskId × TaskId)}
    {taskGoalDependencies : Store → List (TaskId × GoalId)} {runs : Store → Table RunId RunRow}
    {leases : Store → Table RunId Lease}
    {processes : Store → Table (RunId × ProcessRole) RunProcess}
    {supervisors : Store → Table Token Supervisor}
    {planReviews : Store → Table PlanReviewId PlanReviewRow}
    {draftOrigins : Store → Table TaskId DraftOrigin} {events : Store → List Event} :
    Txn.Moves (Unsubmitted N) (Txn.write fun s => Store.mk (goals s) s.tasks (taskDependencies s)
      (taskGoalDependencies s) (runs s) (leases s) (processes s) (supervisors s) s.proposals
      (planReviews s) s.asks (draftOrigins s) (events s) : Tx Unit) :=
  .of_write fun _ => .of_asks (fun _ => rfl) (fun _ => rfl) .inl

namespace Store

variable {s : Store}

theorem planAsk_modify {id : AskId} {f : Ask → Ask} (hkind : ∀ ask, (f ask).kind = ask.kind)
    (htask : ∀ ask, (f ask).taskId = ask.taskId)
    (hclosed : ∀ ask, (f ask).closedAt = none → ask.closedAt = none) {a : AskId} {t : TaskId}
    (h : ({ s with asks := s.asks.modify id f } : Store).planAsk a = some t) :
    s.planAsk a = some t := by
  simp only [planAsk, Table.get?_modify] at h ⊢
  split_ifs at h with ha
  · subst ha
    cases hask : s.asks.get? a with
    | none => simp [hask] at h
    | some ask =>
        simp only [hask, Option.map_some, Option.bind_some, hkind, htask] at h ⊢
        split_ifs at h with hcond
        rw [if_pos]
        · exact h
        · refine ⟨hcond.1, ?_⟩
          have hnone : (f ask).closedAt = none := by simpa [Ask.isUnclosed] using hcond.2
          simp [Ask.isUnclosed, hclosed ask hnone]
  · exact h

end Store

theorem unsubmitted_modifyAsk {id : AskId} {f : Ask → Ask}
    (hkind : ∀ ask, (f ask).kind = ask.kind) (htask : ∀ ask, (f ask).taskId = ask.taskId)
    (hclosed : ∀ ask, (f ask).closedAt = none → ask.closedAt = none) :
    Txn.Moves (Unsubmitted N) (Txn.write fun s =>
      { s with asks := s.asks.modify id f } : Tx Unit) :=
  .of_write fun _ => .of_asks (fun _ => rfl) (fun _ => rfl) fun h =>
    .inl (Store.planAsk_modify hkind htask hclosed h)

/-- Answering an ask, or changing its question or the runs it holds. -/
instance unsubmitted_answer {id : AskId} {question : Ask → String} {answer : Ask → Option String}
    {affected : Ask → List RunId} {answeredAt : Ask → Option Seconds}
    {answeredBy : Ask → Option String} {optionIndex : Ask → Option Nat} :
    Txn.Moves (Unsubmitted N) (Txn.write fun s => { s with
      asks := s.asks.modify id fun ask => Ask.mk ask.kind ask.taskId ask.runId (question ask)
        ask.options (answer ask) ask.askedBy ask.reasonCategory ask.subject (affected ask)
        (answeredAt ask) ask.closedAt ask.findingId (answeredBy ask) (optionIndex ask) } : Tx Unit) := by
  apply unsubmitted_modifyAsk
  · exact fun _ => rfl
  · exact fun _ => rfl
  · exact fun _ h => h

/-- A new ask about no task. -/
instance unsubmitted_openTaskless {id : AskId} {kind : AskKind} {runId : Option RunId}
    {question askedBy : String} {options : List String} {answer : Option String}
    {reason : AskReason} {subject : Option String} {affected : List RunId}
    {answeredAt closedAt : Option Seconds} {findingId : Option FindingId}
    {answeredBy : Option String} {optionIndex : Option Nat} :
    Txn.Moves (Unsubmitted N) (Txn.write fun s => { s with
      asks := s.asks.push id (Ask.mk kind none runId question options answer askedBy reason subject
        affected answeredAt closedAt findingId answeredBy optionIndex) } : Tx Unit) := by
  refine .of_write fun s => .of_asks (fun _ => rfl) (fun _ => rfl) fun {a t} ha => .inl ?_
  by_cases hid : s.asks.get? id = none
  · simp only [Store.planAsk, Table.get?_push hid] at ha ⊢
    split_ifs at ha
    · simp at ha
    · exact ha
  · rw [Store.planAsk, Table.push_of_mem hid] at ha
    exact ha

/-- Closing an ask. -/
instance unsubmitted_close {id : AskId} {closedAt : Seconds} :
    Txn.Moves (Unsubmitted N) (Txn.write fun s => { s with
      asks := s.asks.modify id fun ask => { ask with closedAt := some closedAt } } : Tx Unit) := by
  apply unsubmitted_modifyAsk
  · exact fun _ => rfl
  · exact fun _ => rfl
  · exact fun _ h => by cases h

/-! ### Proposals -/

namespace Store

variable {s : Store}

theorem proposalStatus_modify {id : ProposalId} {f : ProposalRow → ProposalRow}
    (hf : ∀ row, (f row).status = row.status) (p : ProposalId) :
    ({ s with proposals := s.proposals.modify id f } : Store).proposalStatus p
      = s.proposalStatus p := by
  simp only [proposalStatus, Table.get?_modify]
  split_ifs with hp
  · subst hp
    cases hrow : s.proposals.get? p with
    | none => rfl
    | some row => exact congrArg some (hf row)
  · rfl

end Store

/-- Rewriting the plan-review columns of a proposal. -/
theorem unsubmitted_updateReview {id : ProposalId} {f : ProposalRow → ProposalRow}
    (hf : ∀ row, (f row).status = row.status) : Txn.Moves (Unsubmitted N) (updateReview id f) :=
  .of_write fun _ => .of_asks (Store.proposalStatus_modify hf) (fun _ => rfl) .inl

/-- What a saved proposal leaves. -/
theorem saveProposal_ok {p : Proposal} {u : Unit} {s s' : Store}
    (h : saveProposal p s = .ok (u, s')) :
    (∀ q, s'.proposalStatus q = if q = p.id then some p.status else s.proposalStatus q) ∧
      (∀ t, s'.proposalOf t = s.proposalOf t) ∧ s'.asks = s.asks := by
  rw [saveProposal, Txn.write_ok] at h
  subst h
  refine ⟨fun q => ?_, fun _ => rfl, rfl⟩
  simp only [Store.proposalStatus, Table.get?_upsert]
  split_ifs
  · cases s.proposals.get? p.id <;> rfl
  · rfl

/-- A proposal that ends, or goes back to its planner, or is new and starts out there. -/
theorem unsubmitted_saveProposal {p : Proposal} {u : Unit} {s s' : Store}
    (hne : p.status ≠ .submitted)
    (hback : ∀ st, s.proposalStatus p.id = some st → p.status.isActive = true → st.isActive = true)
    (h : saveProposal p s = .ok (u, s')) : Unsubmitted N s s' := by
  obtain ⟨hstatus, hof, hasks⟩ := saveProposal_ok h
  have hsame : ∀ {q st}, s'.proposalStatus q = some st →
      (q = p.id ∧ st = p.status) ∨ (q ≠ p.id ∧ s.proposalStatus q = some st) := by
    intro q st hst
    rw [hstatus] at hst
    split_ifs at hst with hq
    · exact .inl ⟨hq, (Option.some.inj hst).symm⟩
    · exact .inr ⟨hq, hst⟩
  refine ⟨fun ha => .inl ?_, fun hst => ?_, fun {q st} hst => ?_, fun ht => .inl (hof _ ▸ ht),
    fun ht _ _ _ => (hof _).trans ht⟩
  · rw [Store.planAsk, hasks] at ha
    exact ha
  · rcases hsame hst with ⟨_, heq⟩ | ⟨_, hst⟩
    · exact absurd heq.symm hne
    · exact hst
  · by_cases hq : q = p.id
    · subst hq
      exact ⟨p.status, by rw [hstatus, if_pos rfl], hback st hst⟩
    · exact ⟨st, by rw [hstatus, if_neg hq, hst], fun h => h⟩

/-! ## Operations -/

set_option synthInstance.maxSize 100000

/-- The proposal as it is read. -/
theorem readProposal_bind {α : Type} {id : ProposalId} {k : Proposal → Tx α} {s : Store}
    {r : α × Store} :
    (readProposal id >>= k) s = .ok r ↔ ∃ p, s.proposal? id = some p ∧ k p s = .ok r := by
  rw [readProposal, bind_assoc, Txn.read_bind, Txn.found_bind]

theorem Store.proposal?_status {s : Store} {id : ProposalId} {p : Proposal}
    (h : s.proposal? id = some p) :
    p.id = id ∧ s.proposalStatus id = some p.status ∧ p.taskIds = s.members id := by
  obtain ⟨row, hrow, rfl⟩ := Option.map_eq_some_iff.mp h
  exact ⟨rfl, by rw [proposalStatus, hrow]; rfl, rfl⟩

/-- What an operation that moves a proposal on by a command did: the command accepted the proposal it
read, and what it made of it was saved before the rest. -/
theorem command_ok {α : Type} {id : ProposalId} {command : Proposal → Except DomainError Proposal}
    {rest : Proposal → Proposal → Tx α} {a : α} {s s' : Store}
    (h : (do
      let p ← readProposal id
      let p' ← Tx.domain (command p)
      saveProposal p'
      rest p p' : Tx α) s = .ok (a, s')) :
    ∃ p p' s₁, s.proposal? id = some p ∧ command p = .ok p' ∧ saveProposal p' s = .ok ((), s₁) ∧
      rest p p' s₁ = .ok (a, s') := by
  simp only [readProposal_bind, domain_bind] at h
  obtain ⟨p, hp, p', hp', h⟩ := h
  obtain ⟨_, s₁, hsave, h⟩ := Txn.bind_ok.mp h
  exact ⟨p, p', s₁, hp, hp', hsave, h⟩

/-- An operation that moves an active proposal on by a command that does not submit it. -/
theorem unsubmitted_command {α : Type} {id : ProposalId}
    {command : Proposal → Except DomainError Proposal} {rest : Proposal → Proposal → Tx α}
    (hcommand : ∀ p p', command p = .ok p' →
      ∃ status, p.MovesTo p' status ∧ status ≠ .submitted)
    [hrest : ∀ p p', Txn.Moves (Unsubmitted N) (rest p p')] :
    Txn.Moves (Unsubmitted N) (do
      let p ← readProposal id
      let p' ← Tx.domain (command p)
      saveProposal p'
      rest p p') := by
  refine ⟨fun s a s' h => ?_⟩
  obtain ⟨p, p', s₁, hp, hp', hsave, h⟩ := command_ok h
  obtain ⟨status, hmoves, hne⟩ := hcommand p p' hp'
  obtain ⟨hid, hstatus, _⟩ := Store.proposal?_status hp
  refine trans_of (Unsubmitted N) (unsubmitted_saveProposal ?_ ?_ hsave) ((hrest p p').of_ok h)
  · rw [hmoves.status_eq]
    exact hne
  · intro st hst _
    rw [hmoves.id_eq, hid, hstatus] at hst
    cases hst
    exact hmoves.active

instance unsubmitted_setHold {id : ProposalId} {hold : Option ReviewHold} :
    Txn.Moves (Unsubmitted N) (setHold id hold) :=
  unsubmitted_updateReview fun _ => rfl

instance unsubmitted_dropReview {id : ProposalId} : Txn.Moves (Unsubmitted N) (dropReview id) :=
  unsubmitted_updateReview fun _ => rfl

instance unsubmitted_awaitDelivery {id : ProposalId} {reasons : List String} {now : Seconds} :
    Txn.Moves (Unsubmitted N) (awaitDelivery id reasons now) :=
  unsubmitted_updateReview fun _ => rfl

instance unsubmitted_claimRevise {id : ProposalId} {now : Seconds} :
    Txn.Moves (Unsubmitted N) (claimRevise id now) := by
  apply unsubmitted_updateReview
  intro row
  split_ifs <;> rfl

theorem unsubmitted_reviseDelivery {id : ProposalId} {due : ProposalRow → Bool}
    {f : ProposalRow → ProposalRow} {records : Bool → Bool} {notice : Notice}
    (hf : ∀ row, (f row).status = row.status) :
    Txn.Moves (Unsubmitted N) (reviseDelivery id due f records notice) := by
  have hwrite : Txn.Moves (Unsubmitted N)
      (updateReview id fun row => if row.status = .revising ∧ due row = true then f row else row) := by
    apply unsubmitted_updateReview
    intro row
    split_ifs
    · exact hf row
    · rfl
  infer_instance

instance unsubmitted_reviseSent {id : ProposalId} : Txn.Moves (Unsubmitted N) (reviseSent id) :=
  unsubmitted_reviseDelivery fun _ => rfl

instance unsubmitted_reviseLost {id : ProposalId} {planner : Option PlannerId} :
    Txn.Moves (Unsubmitted N) (reviseLost id planner) :=
  unsubmitted_reviseDelivery fun _ => rfl

instance unsubmitted_plannerUnresponsive {id : ProposalId} {now : Seconds} :
    Txn.Moves (Unsubmitted N) (plannerUnresponsive id now) :=
  unsubmitted_reviseDelivery fun _ => rfl

instance unsubmitted_approve {id : ProposalId} : Txn.Moves (Unsubmitted N) (approve id) :=
  unsubmitted_command fun _ _ h => ⟨_, Proposal.accept_ok h, by decide⟩

instance unsubmitted_sendBack {id : ProposalId} : Txn.Moves (Unsubmitted N) (sendBack id) :=
  unsubmitted_command fun _ _ h => ⟨_, Proposal.sendBack_ok h, by decide⟩

instance unsubmitted_withdraw {id : ProposalId} {now : Seconds} :
    Txn.Moves (Unsubmitted N) (withdraw id now) :=
  unsubmitted_command fun _ _ h => ⟨_, Proposal.withdraw_ok h, by decide⟩

instance unsubmitted_cancelProposal {id : ProposalId} :
    Txn.Moves (Unsubmitted N) (cancelProposal id) :=
  unsubmitted_command fun _ _ h => ⟨_, Proposal.cancel_ok h, by decide⟩

theorem settle_command {live : Bool} {p p' : Proposal}
    (h : (if live then p.accept else p.cancel) = .ok p') :
    ∃ status, p.MovesTo p' status ∧ status ≠ .submitted := by
  cases live with
  | true => exact ⟨_, Proposal.accept_ok h, by decide⟩
  | false => exact ⟨_, Proposal.cancel_ok h, by decide⟩

instance unsubmitted_settleProposal {id : ProposalId} :
    Txn.Moves (Unsubmitted N) (settleProposal id) := by
  have hsettle : ∀ live : Bool, Txn.Moves (Unsubmitted N) (do
      let current ← readProposal id
      let ended ← Tx.domain (if live then current.accept else current.cancel)
      saveProposal ended
      setHold id none
      let anchor ← Txn.read fun s => s.anchor id
      Txn.option anchor (pure ()) fun anchor =>
        taskNotice anchor (.proposalSettled id ended.status)) :=
    fun _ => unsubmitted_command fun _ _ => settle_command
  exact Txn.Moves.bind

/-- A task that is in no active proposal joins one that is not submitted. -/
theorem unsubmitted_joinProposal {id : ProposalId} {taskId : TaskId} {st : ProposalStatus}
    {u : Unit} {s s' : Store} (hstatus : s.proposalStatus id = some st) (hne : st ≠ .submitted)
    (hfree : ∀ p st, s.proposalOf taskId = some p → s.proposalStatus p = some st → p ≠ id →
      st.isActive = false)
    (h : joinProposal taskId id s = .ok (u, s')) : Unsubmitted N s s' := by
  rw [joinProposal, Txn.write_ok] at h
  subst h
  refine ⟨.inl, fun h => h, fun h => ⟨_, h, fun h => h⟩, fun {t p} ht => ?_,
    fun {t p st₁ st₂} ht hst₁ hst₂ hactive => ?_⟩
  · rw [Store.proposalOf_modifyTask] at ht
    split_ifs at ht with htask
    · cases hrow : s.tasks.get? taskId with
      | none => simp [hrow] at ht
      | some row =>
          simp only [hrow, Option.bind_some, Option.some.injEq] at ht
          exact .inr ⟨st, ht ▸ hstatus, hne⟩
    · exact .inl ht
  · rw [Store.proposalOf_modifyTask]
    split_ifs with htask
    · subst htask
      -- It was free: whatever proposal it was in before is over.
      have hid : p = id := by
        by_contra hp
        have hinactive := hfree p st₁ ht hst₁ hp
        have hsame : st₂ = st₁ := Option.some.inj (hst₂.symm.trans hst₁)
        rw [hsame, hinactive] at hactive
        cases hactive
      obtain ⟨row, hrow, _⟩ := Option.bind_eq_some_iff.mp ht
      rw [hrow, hid]
      rfl
    · exact ht

theorem Store.membership_eq {s : Store} {t : TaskId} {p : ProposalId} {st : ProposalStatus}
    (ht : s.proposalOf t = some p) (hst : s.proposalStatus p = some st) :
    s.membership (s.proposalOf t) = some (p, st) := by
  obtain ⟨row, hrow, rfl⟩ := Option.map_eq_some_iff.mp hst
  simp [membership, ht, hrow]

theorem Store.proposalStatus_nextId (s : Store) : s.proposalStatus s.proposals.nextId = none := by
  rw [proposalStatus, Table.nextId_fresh]
  rfl

instance unsubmitted_reopen {reviewed : ProposalId} {now : Seconds} {item : Reopen} :
    Txn.Moves (Unsubmitted N) (reopen reviewed now item) := by
  refine ⟨fun s u s' h => ?_⟩
  simp only [reopen, Txn.read_bind] at h
  rcases Txn.when_ok.mp h with ⟨⟨_, hinactive⟩, h⟩ | ⟨_, rfl⟩
  · simp only [reopenTask, Txn.read_bind, domain_bind] at h
    obtain ⟨reopened, hreopen, h⟩ := h
    obtain ⟨_, s₁, hsave, h⟩ := Txn.bind_ok.mp h
    obtain ⟨_, s₂, htransition, h⟩ := Txn.bind_ok.mp h
    obtain ⟨_, s₃, hjoin, rest⟩ := Txn.bind_ok.mp h
    obtain ⟨hid, hrevising⟩ := Proposal.reopen_ok hreopen
    obtain ⟨hstatus, hof, _⟩ := saveProposal_ok hsave
    have hframe : Framed s₁ s₂ := Txn.Moves.of_ok htransition
    have hstatus₂ : ∀ q, s₂.proposalStatus q = s₁.proposalStatus q := by
      intro q
      rw [Store.proposalStatus, hframe.proposals]
      rfl
    have hsaved : Unsubmitted N s s₁ := by
      refine unsubmitted_saveProposal (by rw [hrevising]; decide) ?_ hsave
      intro st hst
      rw [hid, Store.proposalStatus_nextId] at hst
      cases hst
    have hjoined : Unsubmitted N s₂ s₃ := by
      have hsent : s₂.proposalStatus s.proposals.nextId = some .revising := by
        rw [hstatus₂, hstatus, if_pos hid.symm, hrevising]
      refine unsubmitted_joinProposal hsent (by decide) ?_ hjoin
      -- The task was in no active proposal before, and the new one is the only other.
      intro p st ht hst hne
      rw [hframe.proposalOf, hof] at ht
      rw [hstatus₂, hstatus, if_neg (by rw [hid]; exact hne)] at hst
      rw [Store.membership_eq ht hst] at hinactive
      simpa using hinactive
    exact trans_of (Unsubmitted N) hsaved (trans_of (Unsubmitted N)
      (Indifferent.of_framed hframe) (trans_of (Unsubmitted N) hjoined (Txn.Moves.of_ok rest)))
  · exact refl_of (Unsubmitted N) s

section Runs

variable {id : RunId} {token : Token} {now : Seconds}

instance unsubmitted_renewLease : Txn.Moves (Unsubmitted N) (renewLease id token now) := by
  unfold renewLease
  infer_instance

instance unsubmitted_insertLease {lease : Lease} :
    Txn.Moves (Unsubmitted N) (insertLease id lease) := by
  unfold insertLease
  infer_instance

instance unsubmitted_dropLease : Txn.Moves (Unsubmitted N) (dropLease id token) := by
  unfold dropLease
  infer_instance

instance unsubmitted_deleteLease : Txn.Moves (Unsubmitted N) (deleteLease id) := by
  unfold deleteLease
  infer_instance

instance unsubmitted_recoverRun {checkedProcesses : Nat} :
    Txn.Moves (Unsubmitted N) (recoverRun id checkedProcesses now) := by
  unfold recoverRun
  infer_instance

instance unsubmitted_finishValidation {validation : Validation} :
    Txn.Moves (Unsubmitted N) (finishValidation id token now validation) := by
  unfold finishValidation
  infer_instance

instance unsubmitted_beginIntegration {pid : Pid} {main : CommitSha} :
    Txn.Moves (Unsubmitted N) (beginIntegration id token pid now main) := by
  unfold beginIntegration
  infer_instance

instance unsubmitted_abortIntegration {revertTo : RunStatus} {code : ReasonCode}
    {message : String} :
    Txn.Moves (Unsubmitted N) (abortIntegration id token now revertTo code message) := by
  unfold abortIntegration
  infer_instance

instance unsubmitted_finishIntegration {commit mainBefore : CommitSha} :
    Txn.Moves (Unsubmitted N) (finishIntegration id token now commit mainBefore) := by
  unfold finishIntegration
  infer_instance

instance unsubmitted_finishTriage {action : TriageAction} {also : List RuntimeEvent} :
    Txn.Moves (Unsubmitted N) (finishTriage id token now action also) := by
  unfold finishTriage
  infer_instance

instance unsubmitted_decideTriage {askId : AskId} {answer reason : String} {alive : Pid → Bool} :
    Txn.Moves (Unsubmitted N) (decideTriage id askId answer reason alive now) := by
  unfold decideTriage
  infer_instance

end Runs

theorem unsubmitted_taskOp (op : TaskOp) : Txn.Moves (Unsubmitted N) op.exec := by
  cases op <;> unfold TaskOp.exec <;> try infer_instance
  case note target => cases target <;> infer_instance

theorem unsubmitted_runOp (op : RunOp) : Txn.Moves (Unsubmitted N) op.exec := by
  cases op <;> unfold RunOp.exec <;> infer_instance

instance unsubmitted_applyAnswer {id : ProposalId} {now : Seconds} {answer : PlanAnswer} :
    Txn.Moves (Unsubmitted N) (applyAnswer id now answer) := by
  cases answer <;> infer_instance

/-! ### Opening asks -/

/-- The task an ask registered now would be about. -/
def Store.askTaskId (s : Store) (ask : NewAsk) : Option TaskId :=
  match ask.runId with
  | some runId => (s.runs.get? runId).map fun row => row.run.taskId
  | none => ask.taskId

theorem askTarget_ok {ask : NewAsk} {taskId : Option TaskId} {s s' : Store}
    (h : askTarget ask s = .ok (taskId, s')) : s' = s ∧ taskId = s.askTaskId ask := by
  rw [askTarget] at h
  cases hrun : ask.runId with
  | some runId =>
      simp only [hrun, Txn.option, readRun_bind, Txn.pure_ok] at h
      obtain ⟨row, hrow, rfl, rfl⟩ := h
      exact ⟨rfl, by simp [Store.askTaskId, hrun, hrow]⟩
  | none =>
      cases htask : ask.taskId with
      | none =>
          simp only [hrun, htask, Txn.option, Txn.pure_ok] at h
          obtain ⟨rfl, rfl⟩ := h
          exact ⟨rfl, by simp [Store.askTaskId, hrun, htask]⟩
      | some t =>
          simp only [hrun, htask, Txn.option, readTask_bind, Txn.pure_ok] at h
          obtain ⟨_, _, rfl, rfl⟩ := h
          exact ⟨rfl, by simp [Store.askTaskId, hrun, htask]⟩

/-- The one ask that is new: `id`, if it is an `approve_plan` ask about a task. -/
def Opened (id : AskId) (kind : AskKind) (taskId : Option TaskId) (a : AskId) (t : TaskId) : Prop :=
  a = id ∧ kind = .approvePlan ∧ taskId = some t

theorem unsubmitted_insertAskRow {taskId : Option TaskId} {ask : NewAsk} {id : AskId}
    {s s' : Store} (h : insertAskRow taskId ask s = .ok (id, s')) :
    s.asks.get? id = none ∧ Unsubmitted (Opened id ask.kind taskId) s s' := by
  simp only [insertAskRow, Txn.read_bind, Txn.write_bind] at h
  obtain ⟨_, s₁, hnotice, hpure⟩ := Txn.bind_ok.mp h
  obtain ⟨rfl, rfl⟩ := Txn.pure_ok.mp hpure
  refine ⟨Table.nextId_fresh _, trans_of (Unsubmitted _) ?_ (Txn.Moves.of_ok hnotice)⟩
  refine .of_asks (fun _ => rfl) (fun _ => rfl) fun {a t} ha => ?_
  simp only [Store.planAsk, Table.get?_push (Table.nextId_fresh s.asks)] at ha ⊢
  split_ifs at ha with hid
  · simp only [Option.bind_some] at ha
    split_ifs at ha with hkind
    exact .inr ⟨hid, hkind.1, ha⟩
  · exact .inl ha

/-- An ask registered: the open one of the same subject as it is, or a new one. -/
theorem insertAsk_ok {findings : FindingId → Bool} {ask : NewAsk} {outcome : AskId × Bool}
    {s s' : Store} (h : insertAsk findings ask s = .ok (outcome, s')) :
    (outcome.2 = false ∧ s' = s) ∨ (outcome.2 = true ∧ s.asks.get? outcome.1 = none ∧
      Unsubmitted (Opened outcome.1 ask.kind (s.askTaskId ask)) s s') := by
  obtain ⟨taskId, s₀, htarget, h⟩ := Txn.bind_ok.mp h
  obtain ⟨rfl, rfl⟩ := askTarget_ok htarget
  simp only [domain_bind, Txn.ensure_bind, Txn.read_bind] at h
  obtain ⟨_, _, _, h⟩ := h
  rcases Txn.option_ok.mp h with ⟨_, h⟩ | ⟨id, _, h⟩
  · obtain ⟨id, s₁, hrow, hpure⟩ := Txn.bind_ok.mp h
    obtain ⟨rfl, rfl⟩ := Txn.pure_ok.mp hpure
    exact .inr ⟨rfl, unsubmitted_insertAskRow hrow⟩
  · obtain ⟨rfl, rfl⟩ := Txn.pure_ok.mp h
    exact .inl ⟨rfl, rfl⟩

/-- `ask` may open an ask of its own kind about its own task. -/
theorem unsubmitted_ask {findings : FindingId → Bool} {new : NewAsk} {s : Store} :
    Unsubmitted (fun _ t => new.kind = .approvePlan ∧ s.askTaskId new = some t) s
      ((AskOp.ask findings new).exec.commit s) := by
  rcases Txn.commit_cases (AskOp.ask findings new).exec s with ⟨_, h⟩ | h
  · obtain ⟨outcome, s₁, hask, hpure⟩ := Txn.bind_ok.mp h
    simp only [ask, domain_bind] at hask
    obtain ⟨_, _, hask⟩ := hask
    have hinsert : Unsubmitted (fun _ t => new.kind = .approvePlan ∧ s.askTaskId new = some t)
        s s₁ := by
      rcases insertAsk_ok hask with ⟨_, rfl⟩ | ⟨_, _, hnew⟩
      · exact refl_of (Unsubmitted _) _
      · exact hnew.mono fun h => h.2
    exact trans_of (Unsubmitted _) hinsert (Txn.Moves.of_ok hpure)
  · rw [h]
    exact refl_of (Unsubmitted _) s

/-! ### Finishing a plan review -/

/-- What the end of a plan review may have done to the asks: nothing, or opened the one it returns, for
the concern of a submitted proposal. -/
def Concerned (job : PlanReviewJob) (ask : Option NewAsk) (asked : Option (AskId × Bool))
    (s s' : Store) : Prop :=
  ((∀ a, asked ≠ some (a, true)) ∧ Unsubmitted (fun _ _ => False) s s') ∨
    ∃ a new, asked = some (a, true) ∧ ask = some new ∧
      s.proposalStatus job.proposalId = some .submitted ∧ s.asks.get? a = none ∧
        Unsubmitted (Opened a new.kind new.taskId) s s'

theorem holdForConcern_ok {id : ProposalId} {ask : Option NewAsk} {asked : Option (AskId × Bool)}
    {s s' : Store} (hrun : ∀ new, ask = some new → new.runId = none)
    (h : holdForConcern id ask s = .ok (asked, s')) :
    ((∀ a, asked ≠ some (a, true)) ∧ Unsubmitted (fun _ _ => False) s s') ∨
      ∃ a new, asked = some (a, true) ∧ ask = some new ∧ s.asks.get? a = none ∧
        Unsubmitted (Opened a new.kind new.taskId) s s' := by
  obtain ⟨_, s₁, hhold, h⟩ := Txn.bind_ok.mp h
  have hasks : s₁.asks = s.asks := by
    rw [setHold, updateReview, Txn.write_ok] at hhold
    rw [← hhold]
  simp only [Txn.found_bind, domain_bind] at h
  obtain ⟨new, hnew, _, _, h⟩ := h
  obtain ⟨outcome, s₂, hinsert, hpure⟩ := Txn.bind_ok.mp h
  obtain ⟨rfl, rfl⟩ := Txn.pure_ok.mp hpure
  have htask : s₁.askTaskId new = new.taskId := by simp [Store.askTaskId, hrun new hnew]
  rcases insertAsk_ok hinsert with ⟨hfound, rfl⟩ | ⟨hcreated, hfresh, hopened⟩
  · left
    refine ⟨fun a ha => ?_, Txn.Moves.of_ok hhold⟩
    cases ha
    cases hfound
  · right
    obtain ⟨a, created⟩ := outcome
    cases hcreated
    refine ⟨a, new, rfl, hnew, hasks ▸ hfresh, ?_⟩
    rw [htask] at hopened
    exact trans_of (Unsubmitted _) (Txn.Moves.of_ok hhold) hopened

theorem applyVerdict_ok {job : PlanReviewJob} {apply : PlanReviewApply} {now : Seconds}
    {asked : Option (AskId × Bool)} {s s' : Store}
    (hrun : ∀ new, apply.ask = some new → new.runId = none)
    (hstatus : s.proposalStatus job.proposalId = some .submitted)
    (h : applyVerdict job apply now s = .ok (asked, s')) :
    Concerned job apply.ask asked s s' := by
  simp only [applyVerdict, Txn.read_bind] at h
  obtain ⟨_, s₁, hcheck, h⟩ := Txn.bind_ok.mp h
  obtain ⟨asked', s₂, hdecision, h⟩ := Txn.bind_ok.mp h
  have hrest : ∀ {N}, Unsubmitted N s₂ s' := Txn.Moves.of_ok h
  have hchecked : ∀ {N}, Unsubmitted N s s₁ := Txn.Moves.of_ok hcheck
  have hasked : asked' = asked := by
    obtain ⟨_, _, _, h⟩ := Txn.bind_ok.mp h
    obtain ⟨_, _, _, h⟩ := Txn.bind_ok.mp h
    obtain ⟨_, _, _, hpure⟩ := Txn.bind_ok.mp h
    exact (Txn.pure_ok.mp hpure).1
  subst hasked
  -- A pass and a revise ask nothing and submit nothing.
  have hquiet : asked' = none → Unsubmitted (fun _ _ => False) s₁ s₂ →
      Concerned job apply.ask asked' s s' := by
    rintro rfl hdecided
    exact .inl ⟨nofun, trans_of (Unsubmitted _) hchecked (trans_of (Unsubmitted _) hdecided hrest)⟩
  cases hdec : apply.decision with
  | pass =>
      simp only [applyDecision, hdec] at hdecision
      obtain ⟨_, _, hactions, hdecision⟩ := Txn.bind_ok.mp hdecision
      obtain ⟨_, _, happrove, hpure⟩ := Txn.bind_ok.mp hdecision
      obtain ⟨rfl, rfl⟩ := Txn.pure_ok.mp hpure
      exact hquiet rfl (trans_of (Unsubmitted _) (Txn.Moves.of_ok hactions)
        (Txn.Moves.of_ok happrove))
  | revise =>
      simp only [applyDecision, hdec] at hdecision
      obtain ⟨_, _, hback, hdecision⟩ := Txn.bind_ok.mp hdecision
      obtain ⟨_, _, hdelivery, hpure⟩ := Txn.bind_ok.mp hdecision
      obtain ⟨rfl, rfl⟩ := Txn.pure_ok.mp hpure
      exact hquiet rfl (trans_of (Unsubmitted _) (Txn.Moves.of_ok hback)
        (Txn.Moves.of_ok hdelivery))
  | concern =>
      simp only [applyDecision, hdec] at hdecision
      have hasks : s₁.asks = s.asks :=
        Txn.Moves.of_ok (R := fun s s' : Store => s'.asks = s.asks) hcheck
      rcases holdForConcern_ok hrun hdecision with
        ⟨hnone, hheld⟩ | ⟨a, new, rfl, hnew, hfresh, hopened⟩
      · exact .inl ⟨hnone,
          trans_of (Unsubmitted _) hchecked (trans_of (Unsubmitted _) hheld hrest)⟩
      · exact .inr ⟨a, new, rfl, hnew, hstatus, hasks ▸ hfresh,
          trans_of (Unsubmitted _) hchecked (trans_of (Unsubmitted _) hopened hrest)⟩

theorem Store.reviewable_status {s : Store} {id : ProposalId} (h : s.reviewable id = true) :
    s.proposalStatus id = some .submitted := by
  simp only [reviewable, Option.any_eq_true, Bool.and_eq_true, decide_eq_true_eq] at h
  obtain ⟨row, hrow, hs, _⟩ := h
  rw [proposalStatus, hrow, ← hs]
  rfl

/-- The end of a plan review opens at most the ask it returns. -/
theorem finishPlanReview_ok {job : PlanReviewJob} {token : Token} {apply : PlanReviewApply}
    {now : Seconds} {asked : Option (AskId × Bool)} {s s' : Store}
    (hrun : ∀ new, apply.ask = some new → new.runId = none)
    (h : finishPlanReview job token apply now s = .ok (asked, s')) :
    Concerned job apply.ask asked s s' := by
  simp only [finishPlanReview, Txn.read_bind] at h
  split_ifs at h with hrunning hreviewable hedited
  · obtain ⟨rfl, rfl⟩ := Txn.pure_ok.mp h
    exact .inl ⟨nofun, refl_of (Unsubmitted _) s⟩
  · obtain ⟨_, _, hrow, hpure⟩ := Txn.bind_ok.mp h
    obtain ⟨rfl, rfl⟩ := Txn.pure_ok.mp hpure
    exact .inl ⟨nofun, Txn.Moves.of_ok hrow⟩
  · exact applyVerdict_ok hrun (Store.reviewable_status (by simpa using hreviewable)) h
  · have hasked : asked = none := by
      obtain ⟨_, _, _, h⟩ := Txn.bind_ok.mp h
      obtain ⟨_, _, _, hpure⟩ := Txn.bind_ok.mp h
      exact (Txn.pure_ok.mp hpure).1.symm
    exact .inl ⟨by rw [hasked]; exact nofun, Txn.Moves.of_ok h⟩

end Dagq
