/-
# Dagq.Queue.Fencing -- who holds the lease of a run, and what that keeps others from doing.

An operation either leaves the holder of a run alone, leases it to a token (`Op.takes`), gives up the
lease of the token it is issued with (`Op.gives`), or clears a lease nobody works under any more
(`Op.clears`).  An operation that `Op.guard` names a token of is refused unless that token holds the
lease; one that takes or clears a lease is refused while another token works under it.  What follows
is the fence: a token that lost its lease drives nothing until it takes one anew, and between two
tokens that both drove a run the first gave its lease up or no longer worked under it.
-/
import Dagq.Queue.Frame

namespace Dagq

open Lib

/-! ## What an operation does to leases -/

/-- The run the operation leases, and to whom. -/
@[reducible] def Op.takes : Op → Option (RunId × Token)
  | .run (.claimForSupervisor id _ _ token _ _) => some (id, token)
  | .run (.adoptRun id _ token _ _ _) => some (id, token)
  | .run (.beginIntegration id token _ _ _) => some (id, token)
  | .run (.beginResume id token _ _ _ _) => some (id, token)
  | .run (.skipResume id token _ _ _ _ _ _) => some (id, token)
  | .run (.beginTriage id token _ _ _ _) => some (id, token)
  | _ => none

/-- The run whose lease the operation gives up, and the token it is issued with: releasing it, or ending
the work under it. -/
@[reducible] def Op.gives : Op → Option (RunId × Token)
  | .run (.releaseLease id token) => some (id, token)
  | .run (.abandonRun id token _) => some (id, token)
  | .run (.parkRechecked id (some token) _ _) => some (id, token)
  | .run (.deferIntegration id token _ _ _) => some (id, token)
  | .run (.failIntegration id token _ _) => some (id, token)
  | .run (.abortIntegration id token _ _ _ _) => some (id, token)
  | .run (.finishIntegration id token _ _ _) => some (id, token)
  | .run (.finishResume id token _ _ _ false) => some (id, token)
  | _ => none

/-- The run whose lease the operation removes or replaces, whoever holds it. -/
@[reducible] def Op.clears : Op → Option RunId
  | .run (.adoptRun id ..) => some id
  | .run (.recoverRun id ..) => some id
  | .run (.beginResume id ..) => some id
  | .run (.skipResume id ..) => some id
  | .run (.beginTriage id ..) => some id
  | .run (.exhaustResumes id ..) => some id
  | .run (.decideTriage id ..) => some id
  | _ => none

/-- Whether the operation finds nobody at work under the lease: its process is gone, or its heartbeat
is older than the timeout.  Recovery looks at the heartbeat only; claims and landings never look. -/
def Op.findsStale (lease : Lease) : Op → Bool
  | .run (.adoptRun _ _ _ _ alive now) => lease.isStale alive now
  | .run (.recoverRun _ _ now) => decide (lease.heartbeatAt < now - heartbeatTimeoutSecs)
  | .run (.beginResume _ _ _ alive now _) => lease.isStale alive now
  | .run (.skipResume _ _ _ alive now _ _ _) => lease.isStale alive now
  | .run (.beginTriage _ _ _ alive now _) => lease.isStale alive now
  | .run (.exhaustResumes _ _ _ alive now) => lease.isStale alive now
  | .run (.decideTriage _ _ _ _ alive now) => lease.isStale alive now
  | _ => false

/-- The run the operation is guarded by the lease of, and the token it is issued with. -/
def Op.guard : Op → Option (RunId × Token)
  | .run (.planRun id token _ _) => some (id, token)
  | .run (.workspaceCreated id token _ _) => some (id, token)
  | .run (.registerWrapper id token _ _) => some (id, token)
  | .run (.registerResumeWrapper id token _ _) => some (id, token)
  | .run (.finishSupervision id token _) => some (id, token)
  | .run (.finishSupervisionLive id token _) => some (id, token)
  | .run (.renewLease id token _) => some (id, token)
  | .run (.releaseLease id token) => some (id, token)
  | .run (.restartValidation id token _) => some (id, token)
  | .run (.finishValidation id token _ _) => some (id, token)
  | .run (.parkRechecked id (some token) _ _) => some (id, token)
  | .run (.deferIntegration id token _ _ _) => some (id, token)
  | .run (.failIntegration id token _ _) => some (id, token)
  | .run (.abortIntegration id token _ _ _ _) => some (id, token)
  | .run (.finishIntegration id token _ _ _) => some (id, token)
  | .run (.finishResume id token _ _ _ _) => some (id, token)
  | .run (.workspaceClosed id token _) => some (id, token)
  | .run (.cleanupFailed id token _ _) => some (id, token)
  | .run (.finishTriage id token _ _ _) => some (id, token)
  | _ => none

/-! ## Moving leases -/

/-- Only the pairs in `F` stop being run and holder, and only those in `K` become it. -/
def Leased (F K : RunId → Token → Prop) (s s' : Store) : Prop :=
  ∀ id token, (s.holder id = some token → s'.holder id = some token ∨ F id token) ∧
    (s'.holder id = some token → s.holder id = some token ∨ K id token)

variable {F K : RunId → Token → Prop}

set_option synthInstance.maxSize 100000

instance : IsPreorder Store (Leased F K) where
  refl s id token := ⟨.inl, .inl⟩
  trans s s₁ s₂ h₁ h₂ id token := by
    refine ⟨fun h => ?_, fun h => ?_⟩
    · rcases (h₁ id token).1 h with h | h
      · exact (h₂ id token).1 h
      · exact .inr h
    · rcases (h₂ id token).2 h with h | h
      · exact (h₁ id token).2 h
      · exact .inr h

theorem Leased.of_eq {s s' : Store} (h : ∀ id, s'.holder id = s.holder id) : Leased F K s s' := by
  intro id token
  rw [h id]
  exact ⟨.inl, .inl⟩

instance : Indifferent (Leased F K) where
  of_framed h := .of_eq fun id => by rw [Store.holder, h.leases]; rfl

/-- A write to any other table. -/
instance leased_write {goals : Store → Table GoalId GoalRow} {tasks : Store → Table TaskId TaskRow}
    {taskDependencies : Store → List (TaskId × TaskId)}
    {taskGoalDependencies : Store → List (TaskId × GoalId)} {runs : Store → Table RunId RunRow}
    {processes : Store → Table (RunId × ProcessRole) RunProcess}
    {supervisors : Store → Table Token Supervisor}
    {proposals : Store → Table ProposalId ProposalRow}
    {planReviews : Store → Table PlanReviewId PlanReviewRow} {asks : Store → Table AskId Ask}
    {draftOrigins : Store → Table TaskId DraftOrigin} {events : Store → List Event} :
    Txn.Moves (Leased F K) (Txn.write fun s => Store.mk (goals s) (tasks s) (taskDependencies s)
      (taskGoalDependencies s) (runs s) s.leases (processes s) (supervisors s) (proposals s)
      (planReviews s) (asks s) (draftOrigins s) (events s) : Tx Unit) :=
  .of_write fun _ => .of_eq fun _ => rfl

/-! ### Operations on proposals -/

instance leased_submitMembers {submission : Submission} {existing : Option Proposal}
    {now : Seconds} : Txn.Moves (Leased F K) (submitMembers submission existing now) := by
  unfold submitMembers
  infer_instance

instance leased_applyDecision {job : PlanReviewJob} {apply : PlanReviewApply} {now : Seconds} :
    Txn.Moves (Leased F K) (applyDecision job apply now) := by
  unfold applyDecision
  split <;> infer_instance

instance leased_applyAnswer {id : ProposalId} {now : Seconds} {answer : PlanAnswer} :
    Txn.Moves (Leased F K) (applyAnswer id now answer) := by
  cases answer <;> infer_instance

/-! ### Operations on leases -/

namespace Store

variable {s : Store} {id id' : RunId} {lease : Lease}

theorem holder_erase : ({ s with leases := s.leases.erase id } : Store).holder id'
    = if id' = id then none else s.holder id' := by
  simp only [holder, Table.get?_erase]
  split_ifs <;> rfl

theorem holder_push (h : s.leases.get? id = none) :
    ({ s with leases := s.leases.push id lease } : Store).holder id'
      = if id' = id then some lease.token else s.holder id' := by
  simp only [holder, Table.get?_push h]
  split_ifs <;> rfl

theorem holder_upsert :
    ({ s with leases := (s.leases.modify id fun _ => lease).push id lease } : Store).holder id'
      = if id' = id then some lease.token else s.holder id' := by
  simp only [holder, Table.get?_upsert]
  split_ifs
  · cases s.leases.get? id <;> rfl
  · rfl

theorem holder_modify : ({ s with leases := s.leases.modify id fun _ => lease } : Store).holder id'
    = if id' = id then (s.holder id).map fun _ => lease.token else s.holder id' := by
  simp only [holder, Table.get?_modify]
  split_ifs
  · rw [Option.map_map, Option.map_map]
    rfl
  · rfl

end Store

/-- A transaction about one run touches the holder of no other. -/
theorem Leased.of_run {s s' : Store} {id : RunId} {holder : Option Token}
    (h : ∀ id', s'.holder id' = if id' = id then holder else s.holder id')
    (hfree : ∀ token, s.holder id = some token → holder = some token ∨ F id token)
    (htake : ∀ token, holder = some token → s.holder id = some token ∨ K id token) :
    Leased F K s s' := by
  intro id' token
  rw [h id']
  by_cases hid : id' = id
  · subst hid
    rw [if_pos rfl]
    exact ⟨hfree token, htake token⟩
  · rw [if_neg hid]
    exact ⟨.inl, .inl⟩

instance leased_dropLease {id : RunId} {token : Token} [hid : Fact (F id token)] :
    Txn.Moves (Leased F K) (dropLease id token) := by
  refine ⟨fun s held s' h => ?_⟩
  simp only [dropLease, Txn.read_bind] at h
  obtain ⟨_, _, hwhen, hpure⟩ := Txn.bind_ok.mp h
  obtain ⟨_, rfl⟩ := Txn.pure_ok.mp hpure
  rcases Txn.when_ok.mp hwhen with ⟨hheld, hwrite⟩ | ⟨_, rfl⟩
  · obtain rfl := Txn.write_ok.mp hwrite
    refine .of_run (fun _ => Store.holder_erase) (fun token' hheld' => .inr ?_) nofun
    rw [of_decide_eq_true hheld] at hheld'
    exact Option.some.inj hheld' ▸ hid.out
  · exact refl_of (Leased F K) _

instance leased_deleteLease {id : RunId} [hid : Fact (∀ token, F id token)] :
    Txn.Moves (Leased F K) (deleteLease id) := by
  have hwrite : Txn.Moves (Leased F K)
      (Txn.write fun s => { s with leases := s.leases.erase id } : Tx Unit) :=
    .of_write fun _ => .of_run (fun _ => Store.holder_erase) (fun _ _ => .inr (hid.out _)) nofun
  unfold deleteLease
  infer_instance

instance leased_insertLease {id : RunId} {lease : Lease} [hid : Fact (K id lease.token)] :
    Txn.Moves (Leased F K) (insertLease id lease) := by
  refine ⟨fun s u s' h => ?_⟩
  simp only [insertLease, readLease, Txn.read_bind, Txn.ensure_bind, Txn.write_ok] at h
  obtain ⟨hnone, rfl⟩ := h
  rw [Option.isNone_iff_eq_none] at hnone
  have hfree : s.holder id = none := by rw [Store.holder, hnone]; rfl
  refine .of_run (fun _ => Store.holder_push hnone) ?_ ?_
  · intro token hheld
    rw [hfree] at hheld
    cases hheld
  · intro token htoken
    exact .inr (Option.some.inj htoken ▸ hid.out)

instance leased_adoptRun {id : RunId} {previousToken token : Token} {pid : Pid}
    {alive : Pid → Bool} {now : Seconds} [hfree : Fact (∀ token, F id token)]
    [htake : Fact (K id token)] :
    Txn.Moves (Leased F K) (adoptRun id previousToken token pid alive now) := by
  have hwrite : Txn.Moves (Leased F K) (Txn.write fun s => { s with
      leases := s.leases.modify id fun _ =>
        { token := token, pid := pid, heartbeatAt := now } } : Tx Unit) := by
    refine .of_write fun s => .of_run (fun _ => Store.holder_modify) (fun _ _ => .inr (hfree.out _)) ?_
    intro token' h
    obtain ⟨_, _, rfl⟩ := Option.map_eq_some_iff.mp h
    exact .inr htake.out
  unfold adoptRun
  infer_instance

/-- A landing under a lease keeps it; without one it takes it. -/
instance leased_beginIntegration {id : RunId} {token : Token} {pid : Pid} {now : Seconds}
    {main : CommitSha} [htake : Fact (K id token)] :
    Txn.Moves (Leased F K) (beginIntegration id token pid now main) := by
  refine ⟨fun s run s' h => ?_⟩
  simp only [beginIntegration, Txn.read_bind, Txn.ensure_bind, readRun_bind] at h
  obtain ⟨_, row, _, h⟩ := h
  obtain ⟨_, s₁, happly, h⟩ := Txn.bind_ok.mp h
  simp only [readLease, Txn.read_bind, Txn.ensure_bind, Txn.write_bind] at h
  obtain ⟨hown, rest⟩ := h
  refine trans_of (Leased F K) (Txn.Moves.of_ok happly)
    (trans_of (Leased F K) ?_ (Txn.Moves.of_ok rest))
  refine .of_run (fun _ => Store.holder_upsert) ?_ ?_
  · intro token' hheld
    obtain ⟨lease, hlease, rfl⟩ := Option.map_eq_some_iff.mp hheld
    simp only [hlease, Option.all_some, decide_eq_true_eq] at hown
    exact .inl (congrArg some hown.symm)
  · intro token' htoken
    exact .inr (Option.some.inj htoken ▸ htake.out)

instance leased_renewLease {id : RunId} {token : Token} {now : Seconds} :
    Txn.Moves (Leased F K) (renewLease id token now) := by
  refine ⟨fun s u s' h => ?_⟩
  simp only [renewLease, Txn.read_bind, Txn.ensure_bind, Txn.write_ok] at h
  obtain ⟨_, rfl⟩ := h
  apply Leased.of_eq
  intro id'
  simp only [Store.holder, Table.get?_modify]
  split_ifs with hid
  · subst hid
    cases s.leases.get? id' <;> rfl
  · rfl

instance leased_recoverRun {id : RunId} {checkedProcesses : Nat} {now : Seconds}
    [hfree : Fact (∀ token, F id token)] :
    Txn.Moves (Leased F K) (recoverRun id checkedProcesses now) := by
  unfold recoverRun
  infer_instance

instance leased_decideTriage {id : RunId} {askId : AskId} {answer reason : String}
    {alive : Pid → Bool} {now : Seconds} [hfree : Fact (∀ token, F id token)] :
    Txn.Moves (Leased F K) (decideTriage id askId answer reason alive now) := by
  unfold decideTriage
  infer_instance

section Ends

variable {id : RunId} {token : Token} {now : Seconds} [hfree : Fact (F id token)]

instance leased_abortIntegration {revertTo : RunStatus} {code : ReasonCode} {message : String} :
    Txn.Moves (Leased F K) (abortIntegration id token now revertTo code message) := by
  unfold abortIntegration
  infer_instance

instance leased_finishIntegration {commit mainBefore : CommitSha} :
    Txn.Moves (Leased F K) (finishIntegration id token now commit mainBefore) := by
  unfold finishIntegration
  infer_instance

end Ends

instance leased_finishValidation {id : RunId} {token : Token} {now : Seconds}
    {validation : Validation} :
    Txn.Moves (Leased F K) (finishValidation id token now validation) := by
  unfold finishValidation
  infer_instance

instance leased_finishTriage {id : RunId} {token : Token} {now : Seconds} {action : TriageAction}
    {also : List RuntimeEvent} :
    Txn.Moves (Leased F K) (finishTriage id token now action also) := by
  unfold finishTriage
  infer_instance

/-! ### Every operation -/

/-- Every run of `m` moves leases as the operation says. -/
abbrev Op.Leases {α : Type} (op : Op) (m : Tx α) : Prop :=
  Txn.Moves (Leased (fun id token => op.gives = some (id, token) ∨ op.clears = some id)
    fun id token => op.takes = some (id, token)) m

theorem leased_taskOp (op : TaskOp) : (Op.task op).Leases op.exec := by
  cases op <;> unfold TaskOp.exec <;> try infer_instance
  case note target => cases target <;> infer_instance

theorem leased_askOp (op : AskOp) : (Op.ask op).Leases op.exec := by
  cases op <;> unfold AskOp.exec <;> infer_instance

theorem leased_planOp (op : PlanOp) : (Op.plan op).Leases op.exec := by
  cases op <;> unfold PlanOp.exec <;> infer_instance

theorem leased_runOp (op : RunOp) : (Op.run op).Leases op.exec := by
  cases op with
  | heartbeat token now =>
      refine .of_write fun s => .of_eq fun id => ?_
      simp only [Store.holder, Table.get?_update, Option.map_map]
      cases s.leases.get? id with
      | none => rfl
      | some lease =>
          simp only [Option.map_some, Function.comp_apply]
          split_ifs <;> rfl
  | finishResume id token now ended reason keepLease =>
      have hgives : ∀ {β : Type} {o : Option β} {p : Prop}, Fact (o = o ∨ p) := ⟨.inl rfl⟩
      cases keepLease with
      | false =>
          unfold RunOp.exec
          infer_instance
      | true =>
          -- The lease stays: the branch that drops it is not taken.
          have hkeep : Op.Leases (.run (.finishResume id token now ended reason true))
              (Txn.when (true = false) do
                let _ ← dropLease id token
                runNotice id (.leaseReleased "resume_finished")) := by
            rw [Txn.when, if_neg (by decide)]
            infer_instance
          unfold RunOp.exec
          infer_instance
  | parkRechecked id token code reason =>
      have hgives : ∀ {β : Type} {o : Option β} {p : Prop}, Fact (o = o ∨ p) := ⟨.inl rfl⟩
      cases token <;> (dsimp only [RunOp.exec, parkRechecked, Txn.option]; infer_instance)
  | _ =>
      have htakes : ∀ {β : Type} {o : Option β}, Fact (o = o) := ⟨rfl⟩
      have hgives : ∀ {β : Type} {o : Option β} {p : Prop}, Fact (o = o ∨ p) := ⟨.inl rfl⟩
      have hclears : ∀ {β γ : Type} {o : Option β} {p : γ → Prop}, Fact (∀ c, p c ∨ o = o) :=
        ⟨fun _ => .inr rfl⟩
      unfold RunOp.exec
      infer_instance

/-- An operation gives up, clears and takes leases only as it says. -/
theorem queue_leases (s : Store) (op : Op) :
    Leased (fun id token => op.gives = some (id, token) ∨ op.clears = some id)
      (fun id token => op.takes = some (id, token)) s (queue.next s op) := by
  cases op with
  | task op => exact (leased_taskOp op).commit s
  | run op => exact (leased_runOp op).commit s
  | ask op => exact (leased_askOp op).commit s
  | plan op => exact (leased_planOp op).commit s

/-! ## The guard -/

/-- The transaction is refused unless `token` holds the lease of the run. -/
class Guarded {α : Type} (id : RunId) (token : Token) (m : Tx α) : Prop where
  holder_of_ok : ∀ ⦃s r⦄, m s = .ok r → s.holder id = some token

section Guarded

variable {α β : Type} {id : RunId} {token : Token}

instance {m : Tx α} {k : α → Tx β} [hm : Guarded id token m] : Guarded id token (m >>= k) := by
  refine ⟨fun s r h => ?_⟩
  obtain ⟨_, _, hfirst, _⟩ := Txn.bind_ok.mp h
  exact hm.holder_of_ok hfirst

instance {now : Seconds} : Guarded id token (renewLease id token now) := by
  refine ⟨fun s r h => ?_⟩
  simp only [renewLease, Txn.read_bind, Txn.ensure_bind, decide_eq_true_eq] at h
  exact h.1

instance : Guarded id token (releaseLease id token) := by
  refine ⟨fun s r h => ?_⟩
  obtain ⟨held, s₁, hdrop, h⟩ := Txn.bind_ok.mp h
  simp only [Txn.ensure_bind] at h
  simp only [dropLease, Txn.read_bind] at hdrop
  obtain ⟨_, _, _, hpure⟩ := Txn.bind_ok.mp hdrop
  obtain ⟨rfl, _⟩ := Txn.pure_ok.mp hpure
  exact of_decide_eq_true h.1

section Ends

variable {now : Seconds}

instance {validation : Validation} :
    Guarded id token (finishValidation id token now validation) := by
  unfold finishValidation
  infer_instance

instance {revertTo : RunStatus} {code : ReasonCode} {message : String} :
    Guarded id token (abortIntegration id token now revertTo code message) := by
  unfold abortIntegration
  infer_instance

instance {commit mainBefore : CommitSha} :
    Guarded id token (finishIntegration id token now commit mainBefore) := by
  unfold finishIntegration
  infer_instance

instance {action : TriageAction} {also : List RuntimeEvent} :
    Guarded id token (finishTriage id token now action also) := by
  unfold finishTriage
  infer_instance

end Ends

instance {code : ReasonCode} {reason : String} :
    Guarded id token (parkRechecked id (some token) code reason) := by
  refine ⟨fun s r h => ?_⟩
  simp only [parkRechecked, Txn.read_bind, Txn.found_bind, Txn.ensure_bind] at h
  obtain ⟨_, _, htaken, _⟩ := h
  exact htaken.1

end Guarded

/-- An operation issued with a token that does not hold the lease it is guarded by is refused. -/
theorem refused_of_guard {s : Store} {op : Op} {id : RunId} {token : Token}
    (hguard : op.guard = some (id, token)) (hheld : s.holder id ≠ some token) :
    op.exec.accepts s = false := by
  have hguarded : Guarded id token op.exec := by
    unfold Op.guard at hguard
    split at hguard <;> cases hguard <;> (unfold Op.exec RunOp.exec; infer_instance)
  rw [← Bool.not_eq_true]
  intro haccepts
  obtain ⟨r, hr⟩ := Txn.accepts_iff.mp haccepts
  exact hheld (hguarded.holder_of_ok hr)

/-! ## Leases somebody works under -/

section Stale

variable {s : Store} {id : RunId} {token : Token} {lease : Lease} {alive : Pid → Bool} {now : Seconds}

theorem clearStaleLease_stale {r : Option Token × Store} (h : clearStaleLease id alive now s = .ok r)
    (hlease : s.leases.get? id = some lease) : lease.isStale alive now = true := by
  simp only [clearStaleLease, readLease, Txn.read_bind, Tx.takenIf, Txn.ensure_bind, hlease,
    Option.all_some] at h
  exact h.1

theorem leaseParkedRun_stale {pid : Pid} {clear : Bool} {r : Option Token × Store}
    (h : leaseParkedRun id token pid alive now clear s = .ok r)
    (hlease : s.leases.get? id = some lease) : lease.isStale alive now = true := by
  simp only [leaseParkedRun, Txn.read_bind, Txn.found_bind, Tx.takenIf, Txn.ensure_bind] at h
  obtain ⟨_, _, _, h⟩ := h
  obtain ⟨_, _, hclear, _⟩ := Txn.bind_ok.mp h
  exact clearStaleLease_stale hclear hlease

/-- What clears a lease finds it stale. -/
theorem stale_of_clears {op : Op} (hclears : op.clears = some id) (haccepts : op.exec.accepts s = true)
    (hlease : s.leases.get? id = some lease) : op.findsStale lease = true := by
  obtain ⟨r, h⟩ := Txn.accepts_iff.mp haccepts
  unfold Op.clears at hclears
  split at hclears <;> cases hclears <;> unfold Op.exec RunOp.exec at h <;> unfold Op.findsStale
  case h_1 =>
    simp only [adoptRun, readLease, Txn.read_bind, Txn.found_bind, Txn.ensure_bind, hlease] at h
    obtain ⟨lease', hfound, _, _, _, hstale, _⟩ := h
    obtain ⟨hsome, _⟩ := Option.filter_eq_some_iff.mp hfound
    obtain rfl := Option.some.inj hsome
    exact hstale
  case h_2 =>
    obtain ⟨_, _, h, _⟩ := Txn.bind_ok.mp h
    simp only [recoverRun, readLease, Txn.read_bind, Txn.ensure_bind, hlease, Option.all_some] at h
    exact h.1
  case h_3 =>
    simp only [beginResume, Txn.read_bind, Txn.found_bind, Txn.ensure_bind] at h
    obtain ⟨_, _, _, _, h⟩ := h
    obtain ⟨_, _, hpark, _⟩ := Txn.bind_ok.mp h
    exact leaseParkedRun_stale hpark hlease
  case h_4 =>
    obtain ⟨_, _, hpark, _⟩ := Txn.bind_ok.mp h
    exact leaseParkedRun_stale hpark hlease
  case h_5 =>
    simp only [beginTriage, Txn.read_bind, Txn.found_bind, Txn.ensure_bind] at h
    obtain ⟨_, _, _, _, h⟩ := h
    obtain ⟨_, _, hclear, _⟩ := Txn.bind_ok.mp h
    exact clearStaleLease_stale hclear hlease
  case h_6 =>
    simp only [exhaustResumes, Txn.read_bind, Txn.found_bind, Txn.ensure_bind] at h
    obtain ⟨_, _, _, _, _, h⟩ := h
    obtain ⟨_, _, hclear, _⟩ := Txn.bind_ok.mp h
    exact clearStaleLease_stale hclear hlease
  case h_7 =>
    simp only [decideTriage, readLease, Txn.read_bind, Txn.ensure_bind, hlease, Option.all_some] at h
    exact h.1

/-- A claim is of a run nobody holds. -/
theorem claimForSupervisor_free {baseCommit : CommitSha} {order : List TaskId} {pid : Pid}
    {r : Unit × Store} (h : claimForSupervisor id baseCommit order token pid now s = .ok r) :
    s.leases.get? id = none := by
  obtain ⟨_, s₁, hclaim, h⟩ := Txn.bind_ok.mp h
  obtain ⟨_, s₂, hset, h⟩ := Txn.bind_ok.mp h
  obtain ⟨_, _, hinsert, _⟩ := Txn.bind_ok.mp h
  simp only [insertLease, readLease, Txn.read_bind, Txn.ensure_bind] at hinsert
  have hclaimed : Framed s s₁ := Txn.Moves.of_ok hclaim
  have hsupervised : Framed s₁ s₂ := Txn.Moves.of_ok hset
  rw [← hclaimed.leases, ← hsupervised.leases]
  exact Option.isNone_iff_eq_none.mp hinsert.1

/-- A landing is of a run nobody else holds. -/
theorem beginIntegration_own {pid : Pid} {main : CommitSha} {r : TaskRun × Store}
    (h : beginIntegration id token pid now main s = .ok r) (hlease : s.leases.get? id = some lease) :
    lease.token = token := by
  simp only [beginIntegration, Txn.read_bind, Txn.ensure_bind, readRun_bind] at h
  obtain ⟨_, _, _, h⟩ := h
  obtain ⟨_, s₁, happly, h⟩ := Txn.bind_ok.mp h
  have happlied : Framed s s₁ := Txn.Moves.of_ok happly
  rw [← happlied.leases] at hlease
  simp only [readLease, Txn.read_bind, Txn.ensure_bind, hlease, Option.all_some] at h
  exact of_decide_eq_true h.1

/-- What takes a lease finds the run free, held by the same token, or its lease stale. -/
theorem own_or_stale_of_takes {op : Op} (htakes : op.takes = some (id, token))
    (haccepts : op.exec.accepts s = true) (hlease : s.leases.get? id = some lease) :
    lease.token = token ∨ op.findsStale lease = true := by
  obtain ⟨r, h⟩ := Txn.accepts_iff.mp haccepts
  unfold Op.takes at htakes
  split at htakes <;> cases htakes
  case h_1 =>
    rw [claimForSupervisor_free h] at hlease
    cases hlease
  case h_3 =>
    obtain ⟨_, _, h, _⟩ := Txn.bind_ok.mp h
    exact .inl (beginIntegration_own h hlease)
  all_goals exact .inr (stale_of_clears rfl haccepts hlease)

end Stale

/-! ## The fence -/

/-- The operation is accepted and leases the run to the token anew, nobody working under a lease of it. -/
def Op.LeasesAnew (s : Store) (id : RunId) (token : Token) (op : Op) : Prop :=
  op.takes = some (id, token) ∧ op.exec.accepts s = true ∧
    ∀ lease ∈ s.leases.get? id, op.findsStale lease = true

/-- A token that does not hold the lease of the run does not hold it after operations none of which
leases the run to it anew. -/
theorem holder_ne_of_run {id : RunId} {token : Token} {later : List Op} {s : Store}
    (hanew : queue.Meets (fun s op => ¬op.LeasesAnew s id token) s later)
    (hlost : s.holder id ≠ some token) : (queue.runFrom s later).holder id ≠ some token := by
  refine Machine.invariant_of_meets (I := fun s => s.holder id ≠ some token) ?_ hanew hlost
  intro s op hanew hlost hheld
  have htakes := ((queue_leases s op id token).2 hheld).resolve_left hlost
  have haccepts : op.exec.accepts s = true := by
    by_contra hrefused
    rw [Bool.not_eq_true] at hrefused
    rw [show queue.next s op = s from Txn.commit_of_refused hrefused] at hheld
    exact hlost hheld
  refine hanew ⟨htakes, haccepts, fun lease hlease => ?_⟩
  have hother : lease.token ≠ token := by
    rintro rfl
    exact hlost (by rw [Store.holder, hlease]; rfl)
  exact (own_or_stale_of_takes htakes haccepts hlease).resolve_left hother

/-- An operation on a run that somebody else works under the lease of is refused. -/
theorem refused_of_fresh {s : Store} {op : Op} {id : RunId} {lease : Lease}
    (hlease : s.leases.get? id = some lease) (hfresh : op.findsStale lease = false)
    (hop : op.clears = some id ∨ ∃ token, op.takes = some (id, token) ∧ token ≠ lease.token) :
    op.exec.accepts s = false := by
  rw [← Bool.not_eq_true]
  intro haccepts
  rcases hop with hclears | ⟨token, htakes, hother⟩
  · rw [stale_of_clears hclears haccepts hlease] at hfresh
    cases hfresh
  · rcases own_or_stale_of_takes htakes haccepts hlease with hown | hstale
    · exact hother hown.symm
    · rw [hstale] at hfresh
      cases hfresh

/-- A token that loses the lease gave it up, or the lease was found stale. -/
theorem gives_or_stale_of_loss {s : Store} {op : Op} {id : RunId} {token : Token}
    (hheld : s.holder id = some token) (hlost : (queue.next s op).holder id ≠ some token) :
    op.exec.accepts s = true ∧ (op.gives = some (id, token) ∨ op.clears = some id ∧
      ∃ lease ∈ s.leases.get? id, lease.token = token ∧ op.findsStale lease = true) := by
  have haccepts : op.exec.accepts s = true := by
    by_contra hrefused
    rw [Bool.not_eq_true] at hrefused
    rw [show queue.next s op = s from Txn.commit_of_refused hrefused] at hlost
    exact hlost hheld
  refine ⟨haccepts, ((queue_leases s op id token).1 hheld).resolve_left hlost |>.imp_right ?_⟩
  intro hclears
  obtain ⟨lease, hlease, htoken⟩ := Option.map_eq_some_iff.mp hheld
  exact ⟨hclears, lease, hlease, htoken, stale_of_clears hclears haccepts hlease⟩

/-- A token that lost the lease of a run has every operation guarded by it refused, without a trace,
until it leases the run anew.  While a token works under its lease, every operation that would clear
the lease, or lease the run to another token, is refused without a trace.  And when two tokens both
drove a run, the first lost its lease between them: it gave it up, or it no longer worked under it. -/
theorem lost_lease_fences (id : RunId) :
    (∀ (ops later : List Op) (token : Token) (op : Op), (queue.run ops).holder id ≠ some token →
      queue.Meets (fun s op => ¬op.LeasesAnew s id token) (queue.run ops) later →
        op.guard = some (id, token) → op.exec.accepts (queue.run (ops ++ later)) = false ∧
          queue.run (ops ++ later ++ [op]) = queue.run (ops ++ later)) ∧
    (∀ (ops : List Op) (op : Op) (lease : Lease), (queue.run ops).leases.get? id = some lease →
      op.findsStale lease = false →
        (op.clears = some id ∨ ∃ token, op.takes = some (id, token) ∧ token ≠ lease.token) →
          op.exec.accepts (queue.run ops) = false ∧ queue.run (ops ++ [op]) = queue.run ops) ∧
    ∀ (ops between : List Op) (token token' : Token) (op op' : Op), token ≠ token' →
      op.guard = some (id, token) → op.exec.accepts (queue.run ops) = true →
        op'.guard = some (id, token') →
          op'.exec.accepts (queue.run (ops ++ op :: between)) = true →
            ∃ pre freeing post, op :: between = pre ++ freeing :: post ∧
              freeing.exec.accepts (queue.run (ops ++ pre)) = true ∧
                (freeing.gives = some (id, token) ∨ freeing.clears = some id ∧
                  ∃ lease ∈ (queue.run (ops ++ pre)).leases.get? id,
                    lease.token = token ∧ freeing.findsStale lease = true) ∧
                (queue.run (ops ++ pre)).holder id = some token ∧
                  (queue.run (ops ++ pre ++ [freeing])).holder id ≠ some token := by
  refine ⟨?_, ?_, ?_⟩
  · intro ops later token op hlost hanew hguard
    have hheld : (queue.run (ops ++ later)).holder id ≠ some token := by
      rw [Machine.run_append]
      exact holder_ne_of_run hanew hlost
    have hrefused := refused_of_guard hguard hheld
    refine ⟨hrefused, ?_⟩
    rw [Machine.run_append]
    exact Txn.commit_of_refused hrefused
  · intro ops op lease hlease hfresh hop
    have hrefused := refused_of_fresh hlease hfresh hop
    refine ⟨hrefused, ?_⟩
    rw [Machine.run_append]
    exact Txn.commit_of_refused hrefused
  · intro ops between token token' op op' hne hguard haccepts hguard' haccepts'
    -- An accepted operation shows who holds the lease: first the one token, then the other.
    have hfirst : (queue.run ops).holder id = some token := by
      by_contra hheld
      rw [refused_of_guard hguard hheld] at haccepts
      cases haccepts
    have hlast : (queue.runFrom (queue.run ops) (op :: between)).holder id ≠ some token := by
      intro hheld
      rw [← Machine.run_append] at hheld
      have hother : (queue.run (ops ++ op :: between)).holder id ≠ some token' := by
        rw [hheld]
        exact fun h => hne (Option.some.inj h)
      rw [refused_of_guard hguard' hother] at haccepts'
      cases haccepts'
    -- Between the two there is a step that frees it.
    obtain ⟨pre, freeing, post, hsplit, hbefore, hlost⟩ :=
      Machine.exists_loss (p := fun s : Store => s.holder id = some token) hfirst hlast
    obtain ⟨hfreed, hhow⟩ := gives_or_stale_of_loss hbefore hlost
    rw [← Machine.run_append] at hfreed hhow hbefore
    refine ⟨pre, freeing, post, hsplit, hfreed, hhow, hbefore, ?_⟩
    rw [Machine.run_append, Machine.run_append]
    exact hlost

/-- Supervisor 5 works on run 1 up to its validation. -/
def validatingRun : List Op :=
  [.task (.add { title := "land" }), .task (.transition 1 .bypassReview),
    .run (.claimForSupervisor 1 7 [1] 5 50 0),
    .run (.planRun 1 5 10 ⟨"/repo", "/runs/1", "run-1", "/worktree/1", "/runs/1/receipt", "/runs/1/log"⟩),
    .run (.finishSupervisionLive 1 5 20)]

/-- The verdict of that validation, recorded by the supervisor with `token`. -/
def recordAccepted (token : Token) : Op :=
  .run (.finishValidation 1 token 210 { accepted := true, resultCommit := some 9 })

/-- Supervisor 6 takes the run over once the heartbeat of 5 is old. -/
def takeOver : Op := .run (.adoptRun 1 5 6 60 (fun _ => true) 200)

/-- Supervisor 5 still works on the run. -/
def renewedRun : List Op := validatingRun ++ [.run (.renewLease 1 5 180)]

theorem lost_lease_fences_adopted :
    ((recordAccepted 5).exec.accepts (queue.run (validatingRun ++ [takeOver] ++ [])) = false ∧
      queue.run (validatingRun ++ [takeOver] ++ [] ++ [recordAccepted 5])
        = queue.run (validatingRun ++ [takeOver] ++ [])) ∧
    (takeOver.exec.accepts (queue.run renewedRun) = false ∧
      queue.run (renewedRun ++ [takeOver]) = queue.run renewedRun) ∧
    ∃ pre freeing post, [.run (.renewLease 1 5 30), takeOver] = pre ++ freeing :: post ∧
      freeing.exec.accepts (queue.run (validatingRun ++ pre)) = true ∧
        (freeing.gives = some (1, 5) ∨ freeing.clears = some 1 ∧
          ∃ lease ∈ (queue.run (validatingRun ++ pre)).leases.get? 1,
            lease.token = 5 ∧ freeing.findsStale lease = true) ∧
        (queue.run (validatingRun ++ pre)).holder 1 = some 5 ∧
          (queue.run (validatingRun ++ pre ++ [freeing])).holder 1 ≠ some 5 :=
  ⟨(lost_lease_fences 1).1 (validatingRun ++ [takeOver]) [] 5 (recordAccepted 5)
      (by decide +kernel) trivial rfl,
    (lost_lease_fences 1).2.1 renewedRun takeOver { token := 5, pid := 50, heartbeatAt := 180 }
      (by decide +kernel) (by decide) (.inl rfl),
    (lost_lease_fences 1).2.2 validatingRun [takeOver] 5 6 (.run (.renewLease 1 5 30))
      (recordAccepted 6) (by decide) rfl (by decide +kernel) rfl (by decide +kernel)⟩

/-- The landing of supervisor 5 needs a session: the run is parked and its lease goes. -/
def deferredLanding : List Op :=
  validatingRun ++ [recordAccepted 5, .run (.beginIntegration 1 5 50 220 7),
    .run (.deferIntegration 1 5 230 .rebaseConflict "conflict")]

/-- The token that lost its lease takes one anew to resume the run it parked, and drives it again. -/
theorem parked_run_leased_again :
    (queue.run deferredLanding).holder 1 ≠ some 5 ∧
      (Op.run (.beginResume 1 5 50 (fun _ => true) 240 7)).exec.accepts (queue.run deferredLanding)
        = true ∧
      (Op.run (.finishResume 1 5 260 (some .validating) none true)).exec.accepts
        (queue.run (deferredLanding ++ [.run (.beginResume 1 5 50 (fun _ => true) 240 7)])) = true := by
  refine ⟨?_, ?_, ?_⟩ <;> decide +kernel

end Dagq
