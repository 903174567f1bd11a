/-
# Dagq.Landing.Atomic -- a landing moves `main` by its one commit, or not at all.

Everything before the update of `main` leaves `main` alone, however it ends, and what it hands over was
checked: its paths against the task's, its commands by their exit.  The update itself is
`advance_exact`'s.  A run that did not land has left the integration slot when its outcome is recorded.
-/
import Dagq.Landing.Land
import Dagq.Queue.Steps

namespace Dagq.Landing

open Lib

set_option synthInstance.maxSize 100000

variable {T : Type} {git : Git T} {host : Host T}

/-! ## What leaves `main` alone -/

/-- `main` is as it was. -/
def KeepsMain (w w' : World) : Prop := w'.main = w.main

instance : IsPreorder World KeepsMain where
  refl _ := rfl
  trans _ _ _ h₁ h₂ := Eq.trans h₂ h₁

/-- A relation that every event a landing records, and every head it keeps, moves along. -/
class Recording (host : Host T) (R : World → World → Prop) : Prop where
  record : ∀ c id event, Attempt.Keeps R (recordEvent host c id event)
  history : ∀ head, Attempt.Keeps R
    (Attempt.write fun w => { w with history := some head } : Work Unit)

attribute [instance] Recording.record Recording.history

section Keeps

variable {α : Type} {R : World → World → Prop} [IsPreorder World R]

instance {c : Call} {answer : α} : Attempt.Keeps R (call host c answer) := by
  unfold call
  split <;> infer_instance

instance {code : ReasonCode} {reason : String} :
    Attempt.Keeps R (defer code reason : Work α) := by
  unfold defer
  infer_instance

instance {c : Prop} [Decidable c] {code : ReasonCode} {reason : String} :
    Attempt.Keeps R (deferUnless c code reason) := by
  unfold deferUnless
  infer_instance

instance {what : String} {value : Option α} : Attempt.Keeps R (present what value) := by
  unfold present
  infer_instance

variable [Recording host R]

instance {id : RunId} {run : TaskRun} : Attempt.Keeps R (openWorktree host id run) := by
  unfold openWorktree
  infer_instance

instance {run : TaskRun} : Attempt.Keeps R (readReceipt host run) := by
  unfold readReceipt
  have hread : ∀ path : String, Attempt.Keeps R (match host.receipt with
      | .missing => defer .receiptMissing s!"receipt is missing at {path}"
      | .unreadable error => Attempt.stop (.failed error)
      | .text (.error reason) =>
          defer (.ofReceiptError (.malformed reason)) (ReceiptError.malformed reason).message
      | .text (.ok receipt) => (pure receipt : Work Receipt)) := by
    intro path
    split <;> infer_instance
  infer_instance

instance {id : RunId} {task : Task} {branch : String} {head : CommitSha} {receipt : Receipt} :
    Attempt.Keeps R (checkReceipt host id task branch head receipt) := by
  unfold checkReceipt
  infer_instance

instance {main : CommitSha} : Attempt.Keeps R (rebaseConflicted host main) := by
  unfold rebaseConflicted
  infer_instance

instance {id : RunId} {main : CommitSha} :
    Attempt.Keeps R (rebaseOnto git host id main) := by
  unfold rebaseOnto
  infer_instance

instance {id : RunId} {main rebased : CommitSha} {next : Nat} {taken : List String}
    {name : String} :
    Attempt.Keeps R (moveMigration git host id main rebased next taken name) := by
  unfold moveMigration
  infer_instance

instance {id : RunId} {main rebased : CommitSha} :
    Attempt.Keeps R (renumberMigration git host id main rebased) := by
  unfold renumberMigration
  infer_instance

instance {id : RunId} {main rebased : CommitSha} :
    Attempt.Keeps R (renumber git host id main rebased) := by
  unfold renumber
  have hdone : ∀ done : Renumbering, Attempt.Keeps R (match done with
      | .unchanged => pure rebased
      | .renumbered head => pure head
      | .blocked reason => (defer .migrationNumberTaken reason : Work CommitSha)) := by
    intro done
    cases done <;> infer_instance
  infer_instance

instance {task : Task} {main head : CommitSha} :
    Attempt.Keeps R (checkScope git host task main head) := by
  unfold checkScope
  infer_instance

instance {task : Task} : Attempt.Keeps R (checkRunEnv host task) := by
  unfold checkRunEnv
  infer_instance

instance verify_keeps {id : RunId} {main : CommitSha} {index : Nat} {commands : List String} :
    Attempt.Keeps R (verify host id main index commands) := by
  induction commands generalizing index with
  | nil =>
      unfold verify
      infer_instance
  | cons command rest ih =>
      unfold verify
      have hrest : Attempt.Keeps R (verify host id main (index + 1) rest) := ih
      infer_instance

instance {task : Task} {id : RunId} {run : TaskRun} {main head : CommitSha} {receipt : Receipt} :
    Attempt.Keeps R (squash git host task id run main head receipt) := by
  unfold squash
  infer_instance

theorem prepare_moves {task : Task} {id : RunId} {run : TaskRun} {main : CommitSha} :
    Attempt.Keeps R (prepare git host task id run main) := by
  unfold prepare
  infer_instance

end Keeps

instance {c : Call} {α : Type} {m : Tx α} : Attempt.Keeps KeepsMain (queueOp host c m) := by
  refine ⟨fun w => ?_⟩
  simp only [queueOp]
  split
  · exact rfl
  · split <;> exact rfl

instance : Recording host KeepsMain where
  record c id event := by
    unfold recordEvent
    infer_instance
  history head := .of_write fun _ => rfl

theorem prepare_keeps {task : Task} {id : RunId} {run : TaskRun} {main : CommitSha} :
    Attempt.Keeps KeepsMain (prepare git host task id run main) := prepare_moves

/-! ## What is put on `main` -/

/-- The path is one the task may change: any, when it declares none. -/
def InScope (task : Task) (path : String) : Prop :=
  task.paths = [] ∨ ∃ glob ∈ task.paths, globMatches glob path = true

theorem inScope_of_outOfScope {task : Task} {changed : List String}
    (h : outOfScope task.paths changed = []) {path : String} (hpath : path ∈ changed) :
    InScope task path := by
  unfold outOfScope at h
  split_ifs at h with hnone
  · exact .inl (List.isEmpty_iff.mp hnone)
  · have hmatch := List.filter_eq_nil_iff.mp h path hpath
    simp only [Bool.not_eq_true', Bool.not_eq_false] at hmatch
    exact .inr (List.any_eq_true.mp hmatch)

theorem checkScope_ok {task : Task} {main head : CommitSha} {u : Unit} {w w' : World}
    (h : checkScope git host task main head w = (.ok u, w')) :
    outOfScope task.paths (git.changedPaths (git.tree main) (git.tree head)) = [] := by
  simp only [checkScope, Attempt.bind_ok, call_ok, deferUnless, Attempt.ensure_ok] at h
  obtain ⟨_, _, ⟨_, rfl, _⟩, hscope, _⟩ := h
  exact hscope

/-- The commands that ran are the task's, each with the answer of its own run, and none failed. -/
theorem verify_ok {id : RunId} {main : CommitSha} {index : Nat} {commands : List String}
    {verified : List (Verified T)} {w w' : World}
    (h : verify host id main index commands w = (.ok verified, w')) :
    verified = (commands.zipIdx index).map (fun r => ⟨r.1, host.command r.2⟩) ∧
      ∀ v ∈ verified, v.run.exitCode = 0 := by
  induction commands generalizing index verified w w' with
  | nil =>
      rw [verify, Attempt.pure_ok] at h
      obtain ⟨rfl, _⟩ := h
      exact ⟨rfl, nofun⟩
  | cons command rest ih =>
      simp only [verify, Attempt.bind_ok, call_ok, deferUnless, Attempt.ensure_ok,
        Attempt.pure_ok] at h
      obtain ⟨_, _, ⟨_, rfl, _⟩, _, _, _, _, _, ⟨hcode, _⟩, later, _, hlater, rfl, _⟩ := h
      obtain ⟨hruns, hzero⟩ := ih hlater
      refine ⟨?_, List.forall_mem_cons.mpr ⟨hcode, hzero⟩⟩
      rw [List.zipIdx_cons, List.map_cons, ← hruns]

theorem squash_ok {task : Task} {id : RunId} {run : TaskRun} {main head commit : CommitSha}
    {receipt : Receipt} {w w' : World}
    (h : squash git host task id run main head receipt w = (.ok commit, w')) :
    git.parents commit = [main] ∧ git.tree commit = git.tree head := by
  simp only [squash, Attempt.bind_ok, call_ok, Attempt.pure_ok] at h
  obtain ⟨_, _, ⟨_, rfl, _⟩, _, _, ⟨_, rfl, _⟩, _, _, _, _, _, _, rfl, _⟩ := h
  exact ⟨git.parents_commitTree _ _ _ _, git.tree_commitTree _ _ _ _⟩

/-- What the stages before the update hand over. -/
structure Prepared (git : Git T) (host : Host T) (task : Task) (main : CommitSha)
    (ready : Ready T) : Prop where
  parents : git.parents ready.commit = [main]
  tree : git.tree ready.commit = git.tree ready.head
  scope : outOfScope task.paths (git.changedPaths (git.tree main) (git.tree ready.head)) = []
  verified : ready.verified
    = (task.verificationCommands.zipIdx 1).map (fun r => ⟨r.1, host.command r.2⟩)
  passed : ∀ v ∈ ready.verified, v.run.exitCode = 0

theorem prepare_ok {task : Task} {id : RunId} {run : TaskRun} {main : CommitSha} {ready : Ready T}
    {w w' : World} (h : prepare git host task id run main w = (.ok ready, w')) :
    Prepared git host task main ready := by
  simp only [prepare, Attempt.bind_ok, Attempt.pure_ok] at h
  obtain ⟨_, _, _, _, _, _, _, _, _, _, _, _, source, _, _, _, _, hscope, _, _, _,
    verified, _, hverify, commit, _, hsquash, rfl, _⟩ := h
  obtain ⟨hparents, htree⟩ := squash_ok hsquash
  obtain ⟨hruns, hpassed⟩ := verify_ok hverify
  exact ⟨hparents, htree, checkScope_ok hscope, hruns, hpassed⟩

/-! ## The landing -/

/-- If the run landed, `main` was where the landing began and moved by one commit with the tree of the
verified head: every path it changes is the task's to change, and every verification command succeeded
on that tree.  Otherwise `main` is where it was. -/
structure Atomic (git : Git T) (task : Task) (main : CommitSha) (w : World)
    (ended : Except Stop (Landed T) × World) : Prop where
  moved : ∀ landed, ended.1 = .ok landed →
    w.main = main ∧ ended.2.main = landed.commit ∧ git.parents landed.commit = [main]
  tree : ∀ landed, ended.1 = .ok landed → git.tree landed.commit = git.tree landed.sourceCommit
  scope : ∀ landed, ended.1 = .ok landed →
    ∀ path ∈ git.changedPaths (git.tree main) (git.tree landed.commit), InScope task path
  verified : ∀ landed, ended.1 = .ok landed →
    landed.verified.map Verified.command = task.verificationCommands ∧
      ∀ v ∈ landed.verified, v.run.exitCode = 0 ∧ v.run.found = git.tree landed.sourceCommit
  otherwise : (∀ landed, ended.1 ≠ .ok landed) → ended.2.main = w.main

/-- The worktree holds the head's tree while each of the task's commands runs. -/
def Host.holdsStill (host : Host T) (git : Git T) (task : Task) (head : CommitSha) : Prop :=
  ∀ i < task.verificationCommands.length, (host.command (i + 1)).found = git.tree head

/-- Whenever every check passes, either git refuses to move `main`, or nobody comes in between: `main`
is where the landing began, git is let finish in a worktree that stays on `main`, and the commands found
the tree that lands. -/
def Undisturbed (git : Git T) (host : Host T) (task : Task) (id : RunId) (run : TaskRun)
    (main : CommitSha) (w : World) : Prop :=
  ∀ ready w', prepare git host task id run main w = (.ok ready, w') →
    host.fails .mainCheckout ≠ none ∨ host.updating.refused git w.main main ready.commit = true ∨
      (host.updating.undisturbed w.main main = true ∧ host.holdsStill git task ready.head)

theorem verified_found_iff {task : Task} {head : CommitSha} :
    (∀ v ∈ (task.verificationCommands.zipIdx 1).map
        (fun r => (⟨r.1, host.command r.2⟩ : Verified T)), v.run.found = git.tree head) ↔
      host.holdsStill git task head := by
  rw [List.forall_mem_map]
  constructor
  · intro h i hi
    have hmem : (task.verificationCommands[i], i + 1) ∈ task.verificationCommands.zipIdx 1 := by
      rw [List.mk_mem_zipIdx_iff_le_and_getElem?_sub]
      exact ⟨Nat.le_add_left 1 i, List.getElem?_eq_getElem hi⟩
    exact h _ hmem
  · rintro h ⟨command, index⟩ hmem
    obtain ⟨hlow, hhigh, _⟩ := List.mem_zipIdx hmem
    have hstill := h (index - 1) (by omega)
    rw [Nat.sub_add_cancel hlow] at hstill
    exact hstill

theorem advanceMain_of_fails {main commit : CommitSha} {w : World} {error : String}
    (h : host.fails .mainCheckout = some error) :
    advanceMain git host main commit w = (.error (.failed error), w) := by
  unfold advanceMain
  refine Attempt.bind_of_error ?_
  unfold call
  rw [h]
  rfl

/-- The update of `main`, when its worktree could be looked up. -/
theorem advanceMain_eq {main commit : CommitSha} {w : World}
    (h : host.fails .mainCheckout = none) :
    advanceMain git host main commit w =
      (if (advance git host.updating w.main main commit).2 = true then .ok ()
        else .error (.failed "fast-forward main"),
      { w with main := (advance git host.updating w.main main commit).1 }) := by
  unfold advanceMain
  have hcall : call host .mainCheckout () w = (.ok (), w) := call_ok.mpr ⟨h, rfl, rfl⟩
  rw [Attempt.bind_of_ok hcall, Attempt.bind_of_ok (Attempt.read_ok.mpr ⟨rfl, rfl⟩),
    Attempt.bind_of_ok (a := ()) (Attempt.write_ok.mpr rfl), Attempt.ensure]
  split <;> rfl

theorem refused_not_reported {how : Updating} {current source commit : CommitSha}
    (h : how.refused git current source commit = true) :
    (advance git how current source commit).2 = false := by
  unfold Updating.refused at h
  unfold advance mergeFfOnly
  by_cases hcollides : how.collides = true
  · simp [hcollides]
  · simp only [Bool.not_eq_true] at hcollides
    rw [hcollides, Bool.false_or] at h
    simp only [hcollides]
    split_ifs at h ⊢ <;> simp_all

/-- What is undisturbed and not refused is reported as done. -/
theorem reported_of_undisturbed {how : Updating} {current source commit : CommitSha}
    (hparent : source ∈ git.parents commit) (h : how.undisturbed current source = true)
    (hnot : how.refused git current source commit = false) :
    (advance git how current source commit).2 = true := by
  simp only [Updating.undisturbed, Bool.and_eq_true, decide_eq_true_eq, Bool.not_eq_true'] at h
  obtain ⟨⟨rfl, hstays⟩, hcut⟩ := h
  simp only [Updating.refused, Bool.or_eq_false_iff] at hnot
  have hnew : git.isAncestor commit current = false := git.acyclic commit current hparent
  have habove : git.isAncestor current commit = true := git.parent_isAncestor hparent
  cases hcheckout : how.checkedOut with
  | false => simp [advance, hnot.1, hcheckout, hcut]
  | true =>
      rw [hcheckout, Bool.true_and] at hstays
      simp [advance, mergeFfOnly, hnot.1, hcheckout, hstays, hnew, habove, hcut]

/-- A landing that stopped left `main` where it was or is not atomic. -/
theorem atomic_stop_iff {task : Task} {main : CommitSha} {w w' : World} {stop : Stop} :
    Atomic git task main w ((.error stop : Except Stop (Landed T)), w') ↔ w'.main = w.main :=
  ⟨fun h => h.otherwise nofun, fun h => ⟨nofun, nofun, nofun, nofun, fun _ => h⟩⟩

/-- Where every check passed, the landing is atomic if the update is refused, or undisturbed and the
commands ran on what lands. -/
theorem atomic_of_prepared {task : Task} {id : RunId} {run : TaskRun} {main : CommitSha}
    {w w₁ : World} {ready : Ready T} (hrun : prepare git host task id run main w = (.ok ready, w₁))
    (hcheckout : host.fails .mainCheckout = none) :
    Atomic git task main w (land git host task id run main w) ↔
      host.updating.refused git w.main main ready.commit = true ∨
        (host.updating.undisturbed w.main main = true ∧ host.holdsStill git task ready.head) := by
  have hready := prepare_ok hrun
  have hmain : w₁.main = w.main := prepare_keeps.apply hrun
  have hparent : main ∈ git.parents ready.commit := by
    rw [hready.parents]
    exact List.mem_singleton.mpr rfl
  have hexact := @advance_exact _ git host.updating w.main _ _ hparent
  have hadvance : advanceMain git host main ready.commit w₁ = _ := advanceMain_eq hcheckout
  rw [hmain] at hadvance
  rw [land, Attempt.bind_of_ok hrun]
  cases hreported : (advance git host.updating w.main main ready.commit).2 with
  | false =>
      -- The update failed; all that matters is where it left `main`.
      rw [hreported, if_neg Bool.false_ne_true] at hadvance
      rw [Attempt.bind_of_error hadvance, atomic_stop_iff]
      have hundisturbed : host.updating.undisturbed w.main main = true →
          host.updating.refused git w.main main ready.commit = true := by
        intro h
        by_contra hnot
        have hdone := reported_of_undisturbed hparent h (Bool.eq_false_iff.mpr hnot)
        rw [hreported] at hdone
        cases hdone
      constructor
      · intro hsame
        rcases hexact.mp ⟨fun h => absurd (hreported ▸ h) Bool.false_ne_true, fun _ => hsame⟩
          with hrefused | h
        · exact .inl hrefused
        · exact .inl (hundisturbed h)
      · intro h
        exact (hexact.mpr (h.imp_right And.left)).2 hreported
  | true =>
      rw [if_pos hreported] at hadvance
      rw [Attempt.bind_of_ok hadvance]
      have hnot : ¬host.updating.refused git w.main main ready.commit = true := by
        intro h
        rw [refused_not_reported h] at hreported
        cases hreported
      constructor
      · intro hatomic
        obtain ⟨hstays, hmoved, _⟩ := hatomic.moved _ rfl
        have hundisturbed := hexact.mp ⟨fun _ => ⟨hstays, hmoved⟩,
          fun h => absurd (hreported.symm.trans h) Bool.true_eq_false.mp⟩
        refine .inr ⟨hundisturbed.resolve_left hnot, ?_⟩
        have hfound := fun v hv => ((hatomic.verified _ rfl).2 v hv).2
        simp only [hready.verified] at hfound
        exact verified_found_iff.mp hfound
      · intro h
        obtain ⟨hundisturbed, hstill⟩ := h.resolve_left hnot
        obtain ⟨hstays, hmoved⟩ := (hexact.mpr (.inr hundisturbed)).1 hreported
        have hfound := verified_found_iff.mpr hstill
        rw [← hready.verified] at hfound
        refine ⟨?_, ?_, ?_, ?_, fun h => absurd rfl (h _)⟩
        · rintro landed ⟨⟩
          exact ⟨hstays, hmoved, hready.parents⟩
        · rintro landed ⟨⟩
          exact hready.tree
        · rintro landed ⟨⟩ path hpath
          rw [hready.tree] at hpath
          exact inScope_of_outOfScope hready.scope hpath
        · rintro landed ⟨⟩
          refine ⟨?_, fun v hv => ⟨hready.passed v hv, hfound v hv⟩⟩
          show ready.verified.map Verified.command = _
          rw [hready.verified, List.map_map]
          exact List.zipIdx_map_fst 1 _

/-! ## The run -/

/-- The run can be landed, resumed or triaged. -/
def Movable (run : TaskRun) : Prop :=
  run.beginIntegration.isOk = true ∨ run.checkResumable.isOk = true ∨
    run.checkTriageable.isOk = true

/-- Unless it landed, the run has left the integration slot, for a status it can be moved on from,
when no operation of the queue was refused. -/
def LeavesSlot (id : RunId) (ended : IntegrationOutcome T × World) : Prop :=
  (∀ landed, ended.1 ≠ .integrated landed) → ended.2.refused = [] →
    ∃ row, ended.2.store.runs.get? id = some row ∧ row.run.status ≠ .integrating ∧
      Movable row.run

theorem leaveIntegration_leaves {id : RunId} {token : Token} {now : Seconds}
    {command : TaskRun → Except DomainError TaskRun} {reason : String}
    {notice : RunStatus → Notice} {run : TaskRun} {s s' : Store}
    (h : leaveIntegration id token now command reason notice s = .ok (run, s')) :
    ∃ row : RunRow, command row.run = .ok run ∧ s'.runs.get? id = some { row with run := run } := by
  obtain ⟨_, s₁, _, h⟩ := Txn.bind_ok.mp h
  obtain ⟨_, _, happly, h⟩ := Txn.bind_ok.mp h
  obtain ⟨row, hrow, hcommand, _, _, rfl⟩ := apply_ok.mp happly
  obtain ⟨_, _, hdrop, h⟩ := Txn.bind_ok.mp h
  obtain ⟨leases, rfl⟩ := dropLease_ok hdrop
  obtain ⟨_, _, hnotice, h⟩ := Txn.bind_ok.mp h
  obtain ⟨_, _, hreleased, h⟩ := Txn.bind_ok.mp h
  obtain ⟨_, _, rfl⟩ := runEvent_ok.mp hnotice
  obtain ⟨_, _, rfl⟩ := runEvent_ok.mp hreleased
  obtain ⟨rfl, rfl⟩ := Txn.pure_ok.mp h
  exact ⟨row, hcommand, (Table.get?_modify_of_get hrow id).trans (if_pos rfl)⟩

/-- An operation of the queue that is not refused was taken in the state others left. -/
theorem queueOp_taken {α : Type} {c : Call} {m : Tx α} {w : World}
    (h : (queueOp host c m w).2.refused = []) :
    ∃ a s', m (queue.runFrom w.store (host.meanwhile c)) = .ok (a, s') ∧
      queueOp host c m w = (.ok a, { w with store := s' }) := by
  unfold queueOp at h ⊢
  cases hfails : host.fails c with
  | some error => simp [hfails] at h
  | none =>
      cases htaken : m (queue.runFrom w.store (host.meanwhile c)) with
      | error e => simp [hfails, htaken] at h
      | ok r => exact ⟨r.1, r.2, rfl, by simp [htaken]⟩

/-- A way out of the slot leads to a status the run can be moved on from. -/
theorem leaves_of_leave {id : RunId} {c : Call} {token : Token}
    {command : TaskRun → Except DomainError TaskRun} {reason : String}
    {notice : RunStatus → Notice} {w : World}
    (hcommand : ∀ run run', command run = .ok run' → run'.status ≠ .integrating ∧ Movable run')
    (h : (queueOp host c (leaveIntegration id token host.now command reason notice) w).2.refused
      = []) :
    ∃ row, (queueOp host c (leaveIntegration id token host.now command reason notice)
        w).2.store.runs.get? id = some row ∧ row.run.status ≠ .integrating ∧ Movable row.run := by
  obtain ⟨run, s', htaken, hdone⟩ := queueOp_taken h
  obtain ⟨row, hrun, hget⟩ := leaveIntegration_leaves htaken
  rw [hdone]
  exact ⟨_, hget, hcommand row.run run hrun⟩

theorem movable_of_deferred {run run' : TaskRun} {reason : String}
    (h : run.deferIntegration reason = .ok run') : run'.status ≠ .integrating ∧ Movable run' := by
  have hstatus := (TaskRun.leaveIntegration_ok h).status_eq
  refine ⟨by rw [hstatus]; decide, .inr (.inl ?_)⟩
  simp [TaskRun.checkResumable, TaskRun.requireStatus, hstatus, require, Except.isOk, Except.toBool]

theorem movable_of_failed {run run' : TaskRun} {reason : String}
    (h : run.failIntegration reason = .ok run') : run'.status ≠ .integrating ∧ Movable run' := by
  have hstatus := (TaskRun.leaveIntegration_ok h).status_eq
  refine ⟨by rw [hstatus]; decide, .inr (.inr ?_)⟩
  simp [TaskRun.checkTriageable, TaskRun.requireStatus, hstatus, require, Except.isOk, Except.toBool]

theorem movable_of_aborted {run run' : TaskRun} {revertTo : RunStatus} {message : String}
    (h : run.abortIntegration revertTo message = .ok run') :
    run'.status ≠ .integrating ∧ Movable run' := by
  obtain ⟨hto, hmoves⟩ := TaskRun.abortIntegration_ok h
  have hstatus := hmoves.status_eq
  rcases hto with rfl | rfl <;> refine ⟨by rw [hstatus]; decide, .inl ?_⟩ <;>
    simp [TaskRun.beginIntegration, TaskRun.requireStatus, hstatus, require, Except.isOk,
      Except.toBool, bind, Except.bind, pure, Except.pure]

theorem recorded_world {α : Type} {m : Work α} {outcome : IntegrationOutcome T} {w : World} :
    (recorded m outcome w).2 = (m w).2 := by
  rcases hrun : m w with ⟨⟨stop⟩ | ⟨a⟩, w'⟩ <;> simp [recorded, hrun]

theorem conclude_leaves {id : RunId} {previous : RunStatus} {token : Token}
    {ended : Except Stop (Landed T)} {w : World} :
    LeavesSlot id (conclude host id previous token ended w) := by
  intro hlanded hrefused
  cases ended with
  | ok landed =>
      rw [conclude, recorded_world] at hrefused
      obtain ⟨_, _, _, hdone⟩ := queueOp_taken hrefused
      refine absurd ?_ (hlanded landed)
      rw [conclude, recorded, hdone]
  | error stop =>
      cases stop with
      | deferred code reason =>
          rw [conclude, recorded_world] at hrefused ⊢
          exact leaves_of_leave (fun _ _ => movable_of_deferred) hrefused
      | receiptFailed reason receipt =>
          rw [conclude, recorded_world] at hrefused ⊢
          exact leaves_of_leave (fun _ _ => movable_of_failed) hrefused
      | failed error => exact leaves_of_leave (fun _ _ => movable_of_aborted) hrefused

theorem landIntegrating_leaves {id : RunId} {run : TaskRun} {previous : RunStatus}
    {main : CommitSha} {token : Token} {w : World} :
    LeavesSlot id (landIntegrating git host id run previous main token w) := by
  intro hlanded hrefused
  rcases hshow : queueOp host .showTask (readTask run.taskId) w with ⟨⟨stop⟩ | ⟨row⟩, w₁⟩
  · simp only [landIntegrating, hshow] at hrefused
    obtain ⟨_, _, _, hdone⟩ := queueOp_taken (by rw [hshow]; exact hrefused)
    rw [hshow] at hdone
    cases hdone
  · simp only [landIntegrating, hshow] at hlanded hrefused ⊢
    exact conclude_leaves hlanded hrefused

/-! ## Atomicity -/

/-- A landing attempt moves `main` by the one commit it reports or not at all, and leaves the
integration slot, exactly if nobody comes between its checks and the update of `main`. -/
theorem landing_atomic_iff {T : Type} (git : Git T) (host : Host T) (task : Task) (id : RunId)
    (run : TaskRun) (previous : RunStatus) (main : CommitSha) (token : Token) (w : World) :
    (Atomic git task main w (land git host task id run main w) ∧
      LeavesSlot id (landIntegrating git host id run previous main token w)) ↔
    Undisturbed git host task id run main w := by
  rw [and_iff_left landIntegrating_leaves]
  rcases hrun : prepare git host task id run main w with ⟨⟨stop⟩ | ⟨ready⟩, w₁⟩
  · -- Stopped by a check: `main` is as it was.
    have hmain : w₁.main = w.main := prepare_keeps.apply hrun
    rw [land, Attempt.bind_of_error hrun, atomic_stop_iff, Undisturbed, hrun]
    refine iff_of_true hmain fun ready w' h => ?_
    cases congrArg Prod.fst h
  · have hiff : Undisturbed git host task id run main w ↔ host.fails .mainCheckout ≠ none ∨
        host.updating.refused git w.main main ready.commit = true ∨
          (host.updating.undisturbed w.main main = true ∧
            host.holdsStill git task ready.head) := by
      rw [Undisturbed, hrun]
      constructor
      · intro h
        exact h ready w₁ rfl
      · rintro h _ _ ⟨⟩
        exact h
    rw [hiff]
    cases hcheckout : host.fails .mainCheckout with
    | none => simpa using atomic_of_prepared hrun hcheckout
    | some error =>
        have hmain : w₁.main = w.main := prepare_keeps.apply hrun
        rw [land, Attempt.bind_of_ok hrun, Attempt.bind_of_error (advanceMain_of_fails hcheckout),
          atomic_stop_iff]
        simp [hmain]

/-! ### Where `main` was rewound -/

/-- A history in a line, one commit on top of the other, all with the same tree. -/
def lineGit : Git Unit where
  parents c := if c = 0 then [] else [c - 1]
  tree _ := ()
  commitTree _ parent _ _ := parent + 1
  isAncestor a c := decide (a ≤ c)
  changedPaths _ _ := []
  addedPaths _ _ := []
  pathsIn _ _ := []
  pathsContaining _ _ _ := []
  tree_commitTree _ _ _ _ := rfl
  parents_commitTree _ _ _ _ := rfl
  isAncestor_iff a c := by
    cases c with
    | zero => simp
    | succ n =>
        have hle : a ≤ n + 1 ↔ a = n + 1 ∨ a ≤ n := Nat.le_succ_iff.trans or_comm
        simpa using hle
  acyclic c p hp := by
    cases c with
    | zero => cases hp
    | succ n =>
        have hpn : p = n := List.mem_singleton.mp hp
        simp [hpn]

/-- A task in progress with a run that awaits nothing here but its landing. -/
def landingRun : TaskRun where
  taskId := 1
  status := .integrating
  baseCommit := 0
  branch := some "dagq/1"
  worktreePath := some "w"
  receiptPath := some "r"
  runDir := some "d"

def landingReceipt : Receipt :=
  let check : ReceiptCheck := { status := .passed, evidenceOrReason := "ran" }
  { runId := 1, result := .succeeded, commit := some 2, tests := check, e2e := check
    subagentReview := check }

def landingTask : Task where
  title := "t"
  description := ""
  acceptance := ""
  verificationCommands := []
  requiredEvidence := []
  paths := []
  priority := .normal
  kind := none
  status := .inProgress
  goalId := none
  context := ""

/-- Everything goes well, and `main` is checked out. -/
def landingHost : Host Unit where
  branch := some "refs/heads/dagq/1"
  head := 2
  receipt := .text (.ok landingReceipt)
  headAfter := 2
  renamedHead := 2
  command _ := { found := (), code := some 0 }
  stamp := 0
  updating := { checkedOut := true }
  now := 0

/-- The landing began on commit 1, and `main` was rewound to commit 0 since. -/
def rewoundWorld : World where
  main := 0
  history := none
  store := queue.run [
    .task (.add { title := "t" }),
    .task (.transition 1 .bypassReview),
    .run (.claimNext 1 0 [1])]
  refused := []

/-- The merge goes through from the rewound `main`, and takes the commit that was rewound along. -/
theorem rewound_main_lands :
    ¬∀ (T : Type) (git : Git T) (host : Host T) (task : Task) (id : RunId) (run : TaskRun)
      (previous : RunStatus) (main : CommitSha) (token : Token) (w : World),
      Atomic git task main w (land git host task id run main w) ∧
        LeavesSlot id (landIntegrating git host id run previous main token w) := by
  intro h
  have hatomic := (h Unit lineGit landingHost landingTask 1 landingRun .awaitingIntegration 1 7
    rewoundWorld).1
  have hlands :
      (land lineGit landingHost landingTask 1 landingRun 1 rewoundWorld).1.isOk = true := by
    decide +kernel
  cases hended : (land lineGit landingHost landingTask 1 landingRun 1 rewoundWorld).1 with
  | error stop =>
      rw [hended] at hlands
      cases hlands
  | ok landed =>
      have hstays : (0 : CommitSha) = 1 := (hatomic.moved landed hended).1
      cases hstays

end Dagq.Landing
