/-
# Dagq.Queue.Submissions -- what submitting a proposal does, and to which tasks.

A submission makes one proposal `submitted` and moves into it tasks it holds.  A task in another active
proposal is refused, so no active proposal loses a member by it.
-/
import Dagq.Queue.Plans

namespace Dagq

open Lib

set_option synthInstance.maxSize 100000

/-! ## Submitting -/

/-- The tasks a submission holds: those it names, the members of the proposal it submits again, and the
drafts of its goals. -/
def Store.heldBy (s : Store) (submission : Submission) : List TaskId :=
  submission.tasks ++ submission.proposal.elim [] s.members
    ++ (submission.goals ++ submission.proposal.elim [] s.memberGoals).flatMap s.draftsOfGoal

theorem Store.member_heldBy {s : Store} {submission : Submission} {p : ProposalId} {t : TaskId}
    (htarget : submission.proposal = some p) (ht : s.proposalOf t = some p) :
    t ∈ s.heldBy submission := by
  obtain ⟨row, hrow, hp⟩ := Option.bind_eq_some_iff.mp ht
  simp only [heldBy, htarget, Option.elim_some, List.mem_append, members, mem_sorted]
  refine .inl (.inr (List.mem_map.mpr ⟨(t, row), Table.mem_select.mpr ⟨hrow, ?_⟩, rfl⟩))
  simpa using hp

/-- What a submission did, as proposal `id`: it is submitted, tasks it holds joined it, and no member of
another active proposal left. -/
structure Submits (submission : Submission) (id : ProposalId) (s s' : Store) : Prop where
  asks : s'.asks = s.asks
  status : ∀ p, s'.proposalStatus p = if p = id then some .submitted else s.proposalStatus p
  target : (submission.proposal = some id ∧ ∃ st, s.proposalStatus id = some st ∧ st.isActive = true) ∨
    (submission.proposal = none ∧ s.proposalStatus id = none)
  joined : ∀ {t p}, s'.proposalOf t = some p →
    s.proposalOf t = some p ∨ (p = id ∧ t ∈ s.heldBy submission)
  kept : ∀ {t p st}, s.proposalOf t = some p → s.proposalStatus p = some st → st.isActive = true →
    s'.proposalOf t = some p

/-- Some of the tasks in `T` join the proposal, and nothing else changes. -/
structure Joining (id : ProposalId) (T : TaskId → Prop) (s s' : Store) : Prop where
  asks : s'.asks = s.asks
  status : ∀ p, s'.proposalStatus p = s.proposalStatus p
  joined : ∀ t, s'.proposalOf t = s.proposalOf t ∨ (s'.proposalOf t = some id ∧ T t)

variable {id : ProposalId} {T : TaskId → Prop}

instance : IsPreorder Store (Joining id T) where
  refl _ := ⟨rfl, fun _ => rfl, fun _ => .inl rfl⟩
  trans _ _ _ h₁ h₂ := by
    refine ⟨h₂.asks.trans h₁.asks, fun p => (h₂.status p).trans (h₁.status p), fun t => ?_⟩
    rcases h₂.joined t with h | h
    · rw [h]
      exact h₁.joined t
    · exact .inr h

instance : Indifferent (Joining id T) where
  of_framed h := by
    refine ⟨h.asks, fun p => ?_, fun t => .inl (h.proposalOf t)⟩
    rw [Store.proposalStatus, h.proposals]
    rfl

instance joining_dropReview : Txn.Moves (Joining id T) (dropReview id) :=
  .of_write fun _ => ⟨rfl, Store.proposalStatus_modify fun _ => rfl, fun _ => .inl rfl⟩

instance joining_setHold {hold : Option ReviewHold} :
    Txn.Moves (Joining id T) (setHold id hold) :=
  .of_write fun _ => ⟨rfl, Store.proposalStatus_modify fun _ => rfl, fun _ => .inl rfl⟩

instance joining_joinProposal {t : TaskId} [ht : Fact (T t)] :
    Txn.Moves (Joining id T) (joinProposal t id) := by
  refine .of_write fun s => ⟨rfl, fun _ => rfl, fun t' => ?_⟩
  rw [Store.proposalOf_modifyTask]
  split_ifs with h
  · subst h
    cases hrow : s.tasks.get? t' with
    | none => exact .inl (by simp [Store.proposalOf, hrow])
    | some row => exact .inr ⟨rfl, ht.out⟩
  · exact .inl rfl

instance joining_joins {t : TaskId} [Fact (T t)] : Txn.Moves (Joining id T) (submitTask id t) := by
  infer_instance

/-- A proposal saved as submitted, and then joined by tasks the submission holds that were free to
join. -/
theorem submits_of_joining {submission : Submission} {p : Proposal} {u : Unit} {s s₁ s' : Store}
    (hsave : saveProposal p s = .ok (u, s₁)) (hsubmitted : p.status = .submitted)
    (htarget : (submission.proposal = some p.id ∧
        ∃ st, s.proposalStatus p.id = some st ∧ st.isActive = true) ∨
      (submission.proposal = none ∧ s.proposalStatus p.id = none))
    (hheld : ∀ t, T t → t ∈ s.heldBy submission)
    (hfree : ∀ t q st, T t → s.proposalOf t = some q → s.proposalStatus q = some st →
      st.isActive = true → submission.proposal = some q)
    (hjoining : Joining p.id T s₁ s') : Submits submission p.id s s' := by
  obtain ⟨hstatus, hof, hasks⟩ := saveProposal_ok hsave
  refine ⟨hjoining.asks.trans hasks, fun q => ?_, htarget, fun {t q} ht => ?_,
    fun {t q st} ht hst hactive => ?_⟩
  · rw [hjoining.status, hstatus, hsubmitted]
  · rcases hjoining.joined t with hsame | ⟨hjoined, hT⟩
    · rw [hsame, hof] at ht
      exact .inl ht
    · rw [hjoined] at ht
      exact .inr ⟨(Option.some.inj ht).symm, hheld t hT⟩
  · rcases hjoining.joined t with hsame | ⟨hjoined, hT⟩
    · rw [hsame, hof, ht]
    · -- A member of an active proposal joins no other than its own.
      have hown := hfree t q st hT ht hst hactive
      rcases htarget with ⟨hid, _⟩ | ⟨hnone, _⟩
      · rw [hjoined, Option.some.inj (hid.symm.trans hown)]
      · rw [hnone] at hown
        cases hown

theorem checkTaskJoins_ok {target : Option ProposalId} {t : TaskId} {u : Unit} {s s' : Store}
    (h : checkTaskJoins target t s = .ok (u, s')) : s' = s ∧ ∀ q st, s.proposalOf t = some q →
      s.proposalStatus q = some st → st.isActive = true → target = some q := by
  simp only [checkTaskJoins, Txn.read_bind, domain_ok] at h
  obtain ⟨hjoins, rfl⟩ := h
  refine ⟨rfl, fun q st ht hst hactive => ?_⟩
  rw [Store.membership_eq ht hst] at hjoins
  simpa [Proposal.checkTaskJoins, require_ok, hactive] using hjoins

/-- Reading is all the checks of a submission do. -/
abbrev ReadsOnly {α : Type} (m : Tx α) : Prop := Txn.Moves (fun s s' : Store => s' = s) m

instance : IsPreorder Store (fun s s' : Store => s' = s) where
  refl _ := rfl
  trans _ _ _ h₁ h₂ := h₂.trans h₁

instance {origin : PlannerOrigin} {t : TaskId} : ReadsOnly (checkAdoption origin t) := by
  infer_instance

instance {target : Option ProposalId} {g : GoalId} : ReadsOnly (checkGoalJoins target g) := by
  infer_instance

/-- The tasks a submission takes are tasks it holds. -/
theorem Store.mem_heldBy {s : Store} {submission : Submission} {existing : Option Proposal}
    (hexisting : (∃ p, existing = some p ∧ submission.proposal = some p.id ∧
        s.proposal? p.id = some p) ∨ (existing = none ∧ submission.proposal = none)) {t : TaskId}
    (ht : t ∈ sorted (submission.tasks ++ existing.elim [] (fun p => s.waitingMembers p.id)
      ++ (sorted (submission.goals ++ existing.elim [] Proposal.goalIds)).flatMap s.draftsOfGoal)) :
    t ∈ s.heldBy submission := by
  rw [mem_sorted] at ht
  rcases hexisting with ⟨p, rfl, hid, hp⟩ | ⟨rfl, hnone⟩
  · have hgoals : p.goalIds = s.memberGoals p.id := by
      obtain ⟨row, _, hrow⟩ := Option.map_eq_some_iff.mp hp
      rw [← hrow]
    simp only [heldBy, hid, Option.elim_some, List.mem_append, List.mem_flatMap, mem_sorted,
      hgoals] at ht ⊢
    refine ht.imp_left (Or.imp_right fun hwaiting => ?_)
    -- A member that waits is a member.
    obtain ⟨⟨t', row⟩, hmem, rfl⟩ := List.mem_map.mp hwaiting
    obtain ⟨hrow, hcond⟩ := Table.mem_select.mp hmem
    simp only [Bool.and_eq_true, decide_eq_true_eq] at hcond
    rw [members, mem_sorted]
    exact List.mem_map.mpr ⟨(t', row), Table.mem_select.mpr ⟨hrow, by simpa using hcond.1⟩, rfl⟩
  · simpa only [heldBy, hnone, Option.elim_none, List.mem_append, List.mem_flatMap, mem_sorted]
      using ht

theorem submitMembers_ok {submission : Submission} {existing : Option Proposal} {now : Seconds}
    {id : ProposalId} {s s' : Store}
    (hexisting : (∃ p, existing = some p ∧ submission.proposal = some p.id ∧
        s.proposal? p.id = some p) ∨ (existing = none ∧ submission.proposal = none))
    (h : submitMembers submission existing now s = .ok (id, s')) :
    Submits submission id s s' := by
  simp only [submitMembers, Txn.read_bind] at h
  obtain ⟨_, s₁, hgoals, h⟩ := Txn.bind_ok.mp h
  -- The checks come first and change nothing.
  have hs₁ : s₁ = s := Txn.Moves.of_ok (R := fun s s' : Store => s' = s) hgoals
  rw [hs₁] at h
  simp only [Txn.read_bind, domain_bind] at h
  obtain ⟨_, _, h⟩ := h
  obtain ⟨_, s₂, hjoins, h⟩ := Txn.bind_ok.mp h
  obtain ⟨hs₂, hfree⟩ := Txn.forM_check (fun _ _ _ _ => checkTaskJoins_ok) hjoins
  rw [hs₂] at h
  obtain ⟨adoptions, s₃, hadoptions, h⟩ := Txn.bind_ok.mp h
  have hs₃ : s₃ = s := Txn.Moves.of_ok (R := fun s s' : Store => s' = s) hadoptions
  rw [hs₃] at h
  simp only [Txn.read_bind, domain_bind] at h
  obtain ⟨p, hp, h⟩ := h
  obtain ⟨_, s₄, hsave, h⟩ := Txn.bind_ok.mp h
  obtain ⟨_, s₅, hdrop, h⟩ := Txn.bind_ok.mp h
  obtain ⟨_, s₆, hsubmit, h⟩ := Txn.bind_ok.mp h
  obtain ⟨_, s₇, hadopt, h⟩ := Txn.bind_ok.mp h
  obtain ⟨_, s₈, hsubmitGoals, hpure⟩ := Txn.bind_ok.mp h
  obtain ⟨rfl, rfl⟩ := Txn.pure_ok.mp hpure
  have hheld := fun t => Store.mem_heldBy (t := t) hexisting
  have hsubmitted : p.status = .submitted ∧ ((submission.proposal = some p.id ∧
      ∃ st, s.proposalStatus p.id = some st ∧ st.isActive = true) ∨
        (submission.proposal = none ∧ s.proposalStatus p.id = none)) := by
    rcases hexisting with ⟨q, rfl, hid, hq⟩ | ⟨rfl, hnone⟩
    · have hmoves := Proposal.resubmit_ok hp
      obtain ⟨_, hstatus, _⟩ := Store.proposal?_status hq
      rw [hmoves.id_eq]
      exact ⟨hmoves.status_eq, .inl ⟨hid, q.status, hstatus, hmoves.active⟩⟩
    · obtain ⟨hid, hstatus⟩ := Proposal.submit_ok hp
      rw [hid]
      exact ⟨hstatus, .inr ⟨hnone, s.proposalStatus_nextId⟩⟩
  generalize sorted (submission.tasks ++ _ ++ _) = tasks at *
  -- The members join one by one, each of them a task that was listed.
  have hjoining : Joining p.id (· ∈ tasks) s₄ s₈ := by
    have hround : ∀ t ∈ tasks, Txn.Moves (Joining p.id (· ∈ tasks)) (submitTask p.id t) := by
      intro t ht
      have : Fact (t ∈ tasks) := ⟨ht⟩
      infer_instance
    exact trans_of (Joining _ _) (Txn.Moves.of_ok hdrop) (trans_of (Joining _ _)
      ((Txn.Moves.forM_of_mem hround).of_ok hsubmit) (trans_of (Joining _ _)
        (Txn.Moves.of_ok hadopt) (Txn.Moves.of_ok hsubmitGoals)))
  exact submits_of_joining hsave hsubmitted.1 hsubmitted.2 hheld
    (fun t q st ht => hfree t ht q st) hjoining

theorem retryHeld_ok {submission : Submission} {existing : Proposal} {now : Seconds}
    {id : ProposalId} {s s' : Store} (hid : submission.proposal = some existing.id)
    (hexisting : s.proposal? existing.id = some existing)
    (h : retryHeld submission existing now s = .ok (id, s')) : Submits submission id s s' := by
  simp only [retryHeld, Txn.read_bind, domain_bind, Txn.ensure_bind] at h
  obtain ⟨_, _, _, retried, hretry, h⟩ := h
  obtain ⟨_, s₁, hsave, h⟩ := Txn.bind_ok.mp h
  obtain ⟨_, s₂, hhold, h⟩ := Txn.bind_ok.mp h
  obtain ⟨_, s₃, hnotice, hpure⟩ := Txn.bind_ok.mp h
  obtain ⟨rfl, rfl⟩ := Txn.pure_ok.mp hpure
  obtain ⟨hmoves, _⟩ := Proposal.retry_ok hretry
  obtain ⟨_, hstatus, _⟩ := Store.proposal?_status hexisting
  -- No task joins: the proposal goes again as it is.
  have hjoining : Joining retried.id (fun _ => False) s₁ s₃ :=
    trans_of (Joining _ _) (Txn.Moves.of_ok hhold) (Txn.Moves.of_ok hnotice)
  refine submits_of_joining hsave hmoves.status_eq (.inl ?_) (fun _ ht => ht.elim)
    (fun _ _ _ ht => ht.elim) hjoining
  rw [hmoves.id_eq]
  exact ⟨hid, existing.status, hstatus, hmoves.active⟩

theorem submit_ok {submission : Submission} {now : Seconds} {id : ProposalId} {s s' : Store}
    (h : submit submission now s = .ok (id, s')) : Submits submission id s s' := by
  simp only [submit, domain_bind] at h
  obtain ⟨_, _, h⟩ := h
  rcases Txn.option_ok.mp h with ⟨hnone, h⟩ | ⟨target, htarget, h⟩
  · exact submitMembers_ok (.inr ⟨rfl, hnone⟩) h
  · rw [readProposal_bind] at h
    obtain ⟨existing, hexisting, h⟩ := h
    obtain ⟨rfl, _, _⟩ := Store.proposal?_status hexisting
    split_ifs at h
    · exact submitMembers_ok (.inl ⟨existing, rfl, htarget, hexisting⟩) h
    · exact retryHeld_ok htarget hexisting h

end Dagq
