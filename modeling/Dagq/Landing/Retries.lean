/-
# Dagq.Landing.Retries -- the landings of one run, over crashes, recoveries and retries.

A landing moves `main` and records that in two steps.  Its process may die before, between or after
them, or in a call of them, which is then one that fails and the landing takes no further step; and it
may lose its lease and go on.  Here any number of landings of a run are under way, everybody writes to
the queue, and others commit to `main`; what is followed are the run's own commits.  Two things are
assumed of git, as hypotheses: `main` is moved by comparing it with the commit the landing read, and a
rebase of a head onto a `main` that has the commit made from it stops or leaves nothing.

A landing that is not recorded is forgotten by the queue: the run can land again, finds nothing to
land and is left to a session, whose next commit is a second one of the run on `main`.
-/
import Dagq.Landing.Records

namespace Dagq.Landing

open Lib

variable {T : Type} {git : Git T} {host : Host T}

/-! ## Landings under way -/

/-- A landing that was given the integration slot, as it began. -/
structure Begun where
  run : TaskRun
  /-- The status to give back when it stops. -/
  previous : RunStatus
  /-- `main` as it was read. -/
  main : CommitSha
  token : Token

/-- A commit of the run on `main`: the head its landing found on the branch, the head it squashed and
kept, and the commit. -/
structure Put where
  found : CommitSha
  source : Option CommitSha
  commit : CommitSha
  deriving DecidableEq

structure Landings (T : Type) where
  world : World
  begun : List Begun := []
  /-- The landings that ended and have not recorded it. -/
  ended : List (Begun × Except Stop (Landed T)) := []
  put : List Put := []
  /-- The commits whose landing was recorded as done. -/
  recorded : List CommitSha := []

/-- A step of a landing of the run, or of others; a process that died takes none. -/
inductive LandingOp (T : Type)
  /-- Anybody's operation of the queue, a recovery of the run among them. -/
  | queue (op : Op)
  /-- Others commit to `main`. -/
  | commits (main : CommitSha)
  | begins (main : CommitSha) (previous : RunStatus) (token : Token) (pid : Pid) (now : Seconds)
  | lands (index : Nat) (host : Host T)
  | records (index : Nat) (host : Host T)

namespace Landings

variable (git) (id : RunId)

/-- `begin_integration` on the `main` that was read, whatever it is now. -/
def begins (s : Landings T) (main : CommitSha) (previous : RunStatus) (token : Token) (pid : Pid)
    (now : Seconds) : Landings T :=
  match beginIntegration id token pid now main s.world.store with
  | .ok (run, store) => { s with
      world := { s.world with store := store }
      begun := s.begun ++ [⟨run, previous, main, token⟩] }
  | .error _ => s

/-- `land_integrating` up to the update of `main`. -/
def lands (s : Landings T) (index : Nat) (host : Host T) : Landings T :=
  match s.begun[index]? with
  | none => s
  | some b =>
      match queueOp host .showTask (readTask b.run.taskId) s.world with
      | (.error _, w) => { s with world := w, begun := s.begun.eraseIdx index }
      | (.ok row, w) =>
          let landing := land git host row.task id b.run b.main w
          { s with
            world := landing.2
            begun := s.begun.eraseIdx index
            ended := s.ended ++ [(b, landing.1)]
            put := if landing.2.main = w.main then s.put
              else s.put ++ [⟨host.head, landing.2.history, landing.2.main⟩] }

/-- The rest of `land_integrating`. -/
def records (s : Landings T) (index : Nat) (host : Host T) : Landings T :=
  match s.ended[index]? with
  | none => s
  | some (b, ended) =>
      let concluded := conclude host id b.previous b.token ended s.world
      { s with
        world := concluded.2
        ended := s.ended.eraseIdx index
        recorded := match concluded.1 with
          | .integrated landed => s.recorded ++ [landed.commit]
          | _ => s.recorded }

def next (s : Landings T) : LandingOp T → Landings T
  | .queue op => { s with world := { s.world with store := queue.next s.world.store op } }
  | .commits main =>
      if s.world.main ∈ git.parents main then { s with world := { s.world with main := main } }
      else s
  | .begins main previous token pid now => s.begins id main previous token pid now
  | .lands index host => s.lands git id index host
  | .records index host => s.records id index host

end Landings

/-- The landings of a run, from an empty queue and `main` at a commit. -/
def landings (git : Git T) (id : RunId) (main : CommitSha) :
    Machine (Landings T) (LandingOp T) where
  init := { world := { main := main, history := none, store := .init, refused := [] } }
  next := Landings.next git id

/-- A landing that is not interrupted is these two steps. -/
theorem landIntegrating_eq_steps {id : RunId} {b : Begun} {w : World} {s : Landings T}
    (hs : s = { world := w, begun := [b] }) :
    (landIntegrating git host id b.run b.previous b.main b.token w).2 =
      ((s.lands git id 0 host).records id 0 host).world := by
  subst hs
  unfold landIntegrating Landings.lands
  simp only [List.getElem?_cons_zero]
  rcases queueOp host .showTask (readTask b.run.taskId) w with ⟨⟨stop⟩ | ⟨row⟩, w₁⟩
  · simp [Landings.records]
  · simp [Landings.records]

/-- What is assumed of git in a step: `main` is moved by comparing, and where the branch is at the
head that an earlier commit was made from and the `main` that was read has that commit, the rebase
stops or leaves nothing. -/
def LandingOp.Assumed (git : Git T) (s : Landings T) : LandingOp T → Prop
  | .lands index host => host.updating.checkedOut = false ∧
      ∀ b ∈ s.begun[index]?, ∀ p ∈ s.put, p.source = some host.head →
        git.isAncestor p.commit b.main = true →
          host.rebaseStopped.isSome = true ∨ host.headAfter = b.main
  | _ => True

/-! ## A landing that moves `main` -/

theorem rebaseOnto_ok {id : RunId} {main rebased : CommitSha} {w w' : World}
    (h : rebaseOnto git host id main w = (.ok rebased, w')) :
    host.rebaseStopped = none ∧ host.headAfter ≠ main := by
  simp only [rebaseOnto, Attempt.bind_ok, call_ok, deferUnless, Attempt.ensure_ok] at h
  obtain ⟨_, _, ⟨_, rfl, _⟩, _, _, hwhen, _, _, ⟨_, rfl, _⟩, _, _, _, _, _, ⟨hnot, _⟩, _⟩ := h
  refine ⟨?_, hnot⟩
  unfold Attempt.when at hwhen
  split at hwhen
  · simp [rebaseConflicted, defer] at hwhen
  · rw [← Option.not_isSome_iff_eq_none]
    assumption

theorem squash_history {task : Task} {id : RunId} {run : TaskRun} {main head commit : CommitSha}
    {receipt : Receipt} {w w' : World}
    (h : squash git host task id run main head receipt w = (.ok commit, w')) :
    w'.history = some head := by
  simp only [squash, Attempt.bind_ok, Attempt.write_ok, Attempt.pure_ok] at h
  obtain ⟨_, _, _, _, _, _, _, _, _, _, _, rfl, _, rfl⟩ := h
  rfl

/-- What the stages before the update found, when they hand a commit over. -/
theorem prepare_found {task : Task} {id : RunId} {run : TaskRun} {main : CommitSha}
    {ready : Ready T} {w w' : World} (h : prepare git host task id run main w = (.ok ready, w')) :
    (host.rebaseStopped = none ∧ host.headAfter ≠ main) ∧ w'.history = some ready.head := by
  simp only [prepare, Attempt.bind_ok, Attempt.pure_ok] at h
  obtain ⟨_, _, _, _, _, _, _, _, _, _, _, hrebase, source, _, _, _, _, _, _, _, _,
    _, _, _, commit, _, hsquash, rfl, rfl⟩ := h
  exact ⟨rebaseOnto_ok hrebase, squash_history hsquash⟩

/-- A landing that moved `main` moved it from the commit it read to the one it made from the head it
keeps; one that reports that it landed did move it. -/
structure MovesMain (git : Git T) (host : Host T) (main : CommitSha) (w w' : World) : Prop where
  read : w.main = main
  parents : git.parents w'.main = [main]
  rebased : host.rebaseStopped = none ∧ host.headAfter ≠ main
  made : ∃ head, w'.history = some head ∧ git.tree w'.main = git.tree head

/-- Comparing, `main` is moved from the commit that was read or not at all. -/
theorem advanceMain_compares {main commit : CommitSha} {w : World}
    (hcompares : host.updating.checkedOut = false) (hcheckout : host.fails .mainCheckout = none) :
    advanceMain git host main commit w =
      if host.updating.collides = false ∧ w.main = main then
        (if host.updating.cutOff = true then .error (.failed "fast-forward main") else .ok (),
          { w with main := commit })
      else (.error (.failed "fast-forward main"), w) := by
  have hadvance : advance git host.updating w.main main commit =
      if host.updating.collides = false ∧ w.main = main then (commit, !host.updating.cutOff)
      else (w.main, false) := by
    unfold advance
    rw [hcompares]
    cases host.updating.collides <;> simp
  rw [advanceMain_eq hcheckout, hadvance]
  split
  · cases host.updating.cutOff <;> rfl
  · rfl

theorem land_moves (git : Git T) (task : Task) (id : RunId) (run : TaskRun) (main : CommitSha)
    (w : World) (hcompares : host.updating.checkedOut = false) :
    ((land git host task id run main w).2.main = w.main ∧
      ∀ landed, (land git host task id run main w).1 ≠ .ok landed) ∨
    MovesMain git host main w (land git host task id run main w).2 ∧
      ∀ landed, (land git host task id run main w).1 = .ok landed →
        (land git host task id run main w).2.main = landed.commit := by
  rcases hrun : prepare git host task id run main w with ⟨⟨stop⟩ | ⟨ready⟩, w₁⟩
  · have hkept : w₁.main = w.main := prepare_keeps.apply hrun
    rw [land, Attempt.bind_of_error hrun]
    exact .inl ⟨hkept, by simp⟩
  · have hkept : w₁.main = w.main := prepare_keeps.apply hrun
    have hready := prepare_ok hrun
    obtain ⟨hrebased, hhistory⟩ := prepare_found hrun
    rw [land, Attempt.bind_of_ok hrun]
    cases hcheckout : host.fails .mainCheckout with
    | some error =>
        rw [Attempt.bind_of_error (advanceMain_of_fails hcheckout)]
        exact .inl ⟨hkept, by simp⟩
    | none =>
        have hadvance : advanceMain git host main ready.commit w₁ = _ :=
          advanceMain_compares hcompares hcheckout
        split at hadvance
        · next hmoved =>
          have hmoves : MovesMain git host main w { w₁ with main := ready.commit } :=
            ⟨hkept.symm.trans hmoved.2, hready.parents, hrebased, ready.head, hhistory, hready.tree⟩
          refine .inr ?_
          split at hadvance
          · -- Cut off behind the update: `main` is moved, and nobody is told.
            rw [Attempt.bind_of_error hadvance]
            exact ⟨hmoves, by simp⟩
          · rw [Attempt.bind_of_ok hadvance]
            refine ⟨hmoves, ?_⟩
            rintro landed ⟨⟩
            rfl
        · rw [Attempt.bind_of_error hadvance]
          exact .inl ⟨hkept, by simp⟩

variable {id : RunId} {s : Landings T}

theorem reached_next (git : Git T) (id : RunId) (s : Landings T) (op : LandingOp T) :
    Reached s.world (s.next git id op).world := by
  cases op with
  | queue op => exact ⟨[op], rfl⟩
  | commits main =>
      show Reached s.world (if s.world.main ∈ git.parents main then _ else s : Landings T).world
      split
      · exact ⟨[], rfl⟩
      · exact refl_of Reached s.world
  | begins main previous token pid now =>
      show Reached s.world (s.begins id main previous token pid now).world
      unfold Landings.begins
      split
      · next hbegin =>
        exact ⟨[.run (.beginIntegration id token pid now main)], runFrom_of_ok rfl hbegin⟩
      · exact refl_of Reached s.world
  | lands index host =>
      show Reached s.world (s.lands git id index host).world
      unfold Landings.lands
      cases s.begun[index]? with
      | none => exact refl_of Reached s.world
      | some b =>
          have hshown : Reached s.world
              (queueOp host .showTask (readTask b.run.taskId) s.world).2 := by
            refine queueOp_reached fun st row st' h => ⟨[], ?_⟩
            exact (readTask_ok.mp h).2.symm
          dsimp only
          rcases hshow : queueOp host .showTask (readTask b.run.taskId) s.world
            with ⟨⟨stop⟩ | ⟨row⟩, w⟩
          · rw [hshow] at hshown
            exact hshown
          · rw [hshow] at hshown
            exact trans_of Reached hshown land_reached
  | records index host =>
      show Reached s.world (s.records id index host).world
      unfold Landings.records
      split
      · exact refl_of Reached s.world
      · exact conclude_reached

/-! ## Every run of landings -/

/-- The run's commits are on `main`, each with the tree of the head it was made from; no two are the
same, and none is made where the branch is at the head that an earlier was made from.  A landing that
ended with one has it there, and one recorded as done leaves the run integrated with it. -/
structure Once (git : Git T) (id : RunId) (s : Landings T) : Prop where
  onMain : ∀ p ∈ s.put, git.isAncestor p.commit s.world.main = true
  made : ∀ p ∈ s.put, ∃ head, p.source = some head ∧ git.tree p.commit = git.tree head
  apart : s.put.Pairwise fun p q => p.commit ≠ q.commit ∧ p.source ≠ some q.found
  landed : ∀ b landed, (b, .ok landed) ∈ s.ended → ∃ p ∈ s.put, p.commit = landed.commit
  recorded : ∀ commit ∈ s.recorded,
    (∃ p ∈ s.put, p.commit = commit) ∧ IsLanded s.world.store id commit

/-- A step that puts nothing on `main` and records no landing. -/
theorem Once.of_main (h : Once git id s) {s' : Landings T} (hreached : Reached s.world s'.world)
    (hmain : ∀ commit, git.isAncestor commit s.world.main = true →
      git.isAncestor commit s'.world.main = true) (hput : s'.put = s.put)
    (hended : ∀ b landed, (b, .ok landed) ∈ s'.ended → (b, .ok landed) ∈ s.ended)
    (hrecorded : s'.recorded = s.recorded) : Once git id s' where
  onMain p hp := hmain p.commit (h.onMain p (hput ▸ hp))
  made p hp := h.made p (hput ▸ hp)
  apart := hput ▸ h.apart
  landed b landed hmem := hput ▸ h.landed b landed (hended b landed hmem)
  recorded commit hmem := by
    obtain ⟨hput', hlanded⟩ := h.recorded commit (hrecorded ▸ hmem)
    exact ⟨hput ▸ hput', hlanded.reached hreached⟩

/-- A landing that moves `main` puts the run's next commit there. -/
theorem Once.puts (h : Once git id s) {b : Begun} {begun : List Begun} {w w' : World}
    {ended : Except Stop (Landed T)} (hmain : w.main = s.world.main)
    (hmoves : MovesMain git host b.main w w')
    (hlanded : ∀ landed, ended = .ok landed → w'.main = landed.commit)
    (hrebase : ∀ p ∈ s.put, p.source = some host.head → git.isAncestor p.commit b.main = true →
      host.rebaseStopped.isSome = true ∨ host.headAfter = b.main)
    (hreached : Reached s.world w') :
    Once git id { s with
      world := w'
      begun := begun
      ended := s.ended ++ [(b, ended)]
      put := s.put ++ [⟨host.head, w'.history, w'.main⟩] } := by
  have hparent : b.main ∈ git.parents w'.main := by
    rw [hmoves.parents]
    exact List.mem_singleton.mpr rfl
  have hread : s.world.main = b.main := hmain.symm.trans hmoves.read
  have hbefore {p : Put} (hp : p ∈ s.put) : git.isAncestor p.commit b.main = true :=
    hread ▸ h.onMain p hp
  constructor
  · intro p hp
    rcases List.mem_append.mp hp with hp | hp
    · exact (git.isAncestor_iff _ _).mpr (.inr ⟨b.main, hparent, hbefore hp⟩)
    · rw [List.mem_singleton.mp hp]
      exact git.isAncestor_self _
  · intro p hp
    rcases List.mem_append.mp hp with hp | hp
    · exact h.made p hp
    · rw [List.mem_singleton.mp hp]
      exact hmoves.made
  · refine List.pairwise_append.mpr ⟨h.apart, List.pairwise_singleton _ _, fun p hp q hq => ?_⟩
    rw [List.mem_singleton.mp hq]
    refine ⟨fun hsame => ?_, fun hsame => ?_⟩
    · -- A commit is no ancestor of its parent.
      have hcycle : git.isAncestor p.commit b.main = false :=
        hsame ▸ git.acyclic w'.main b.main hparent
      rw [hbefore hp] at hcycle
      cases hcycle
    · rcases hrebase p hp hsame (hbefore hp) with hstopped | hnothing
      · rw [hmoves.rebased.1] at hstopped
        cases hstopped
      · exact hmoves.rebased.2 hnothing
  · intro b' landed hmem
    rcases List.mem_append.mp hmem with hmem | hmem
    · obtain ⟨p, hp, hcommit⟩ := h.landed b' landed hmem
      exact ⟨p, List.mem_append_left _ hp, hcommit⟩
    · have hok := (Prod.mk.inj (List.mem_singleton.mp hmem)).2.symm
      exact ⟨_, List.mem_append_right _ (List.mem_singleton.mpr rfl), hlanded landed hok⟩
  · intro commit hmem
    obtain ⟨⟨p, hp, hcommit⟩, hrun⟩ := h.recorded commit hmem
    exact ⟨⟨p, List.mem_append_left _ hp, hcommit⟩, hrun.reached hreached⟩

/-- A step of the landing itself. -/
theorem Once.lands (h : Once git id s) {index : Nat}
    (hok : LandingOp.Assumed git s (.lands index host)) :
    Once git id (s.lands git id index host) := by
  obtain ⟨hcompares, hrebase⟩ := hok
  have hreached : Reached s.world (s.lands git id index host).world :=
    reached_next git id s (.lands index host)
  unfold Landings.lands at hreached ⊢
  cases hbegun : s.begun[index]? with
  | none => exact h
  | some b =>
      simp only [hbegun] at hreached ⊢
      rcases hshow : queueOp host .showTask (readTask b.run.taskId) s.world with ⟨⟨stop⟩ | ⟨row⟩, w⟩
      · have hmain : w.main = s.world.main := Attempt.Keeps.apply (R := KeepsMain) inferInstance hshow
        simp only [hshow] at hreached
        exact h.of_main hreached (fun _ hcommit => hmain.symm ▸ hcommit) rfl
          (fun _ _ hmem => hmem) rfl
      · have hmain : w.main = s.world.main := Attempt.Keeps.apply (R := KeepsMain) inferInstance hshow
        have hmoved := land_moves git row.task id b.run b.main w hcompares
        simp only [hshow] at hreached ⊢
        generalize land git host row.task id b.run b.main w = landing at hmoved hreached ⊢
        rcases hmoved with ⟨hstays, hnot⟩ | ⟨hmoves, hlanded⟩
        · refine h.of_main hreached (fun _ hcommit => ?_) (if_pos hstays) ?_ rfl
          · rw [hstays, hmain]
            exact hcommit
          · intro b' landed hmem
            rcases List.mem_append.mp hmem with hmem | hmem
            · exact hmem
            · exact absurd (Prod.mk.inj (List.mem_singleton.mp hmem)).2.symm (hnot landed)
        · have hparent : b.main ∈ git.parents landing.2.main := by
            rw [hmoves.parents]
            exact List.mem_singleton.mpr rfl
          rw [if_neg fun hsame => git.ne_parent hparent (hsame.trans hmoves.read)]
          exact h.puts hmain hmoves hlanded (hrebase b hbegun) hreached

/-- A landing is recorded, or what it stopped at. -/
theorem Once.records (h : Once git id s) {index : Nat} : Once git id (s.records id index host) := by
  have hreached : Reached s.world (s.records id index host).world :=
    reached_next git id s (.records index host)
  unfold Landings.records at hreached ⊢
  cases hended : s.ended[index]? with
  | none => exact h
  | some r =>
      obtain ⟨b, ended⟩ := r
      simp only [hended] at hreached ⊢
      have hkept : Once git id { s with
          world := (conclude host id b.previous b.token ended s.world).2
          ended := s.ended.eraseIdx index } :=
        h.of_main hreached (fun _ hcommit => conclude_keeps.symm ▸ hcommit) rfl
          (fun _ _ hmem => List.eraseIdx_subset hmem) rfl
      cases houtcome : (conclude host id b.previous b.token ended s.world).1 with
      | integrated landed =>
          refine ⟨hkept.onMain, hkept.made, hkept.apart, hkept.landed, fun commit hmem => ?_⟩
          rcases List.mem_append.mp hmem with hbefore | hlast
          · exact hkept.recorded commit hbefore
          · obtain rfl := conclude_integrated houtcome
            rw [List.mem_singleton.mp hlast]
            have hput := h.landed b landed (List.mem_of_getElem? hended)
            exact ⟨hput, conclude_integrates houtcome⟩
      | needsSession reason => exact hkept
      | failed reason => exact hkept
      | error message => exact hkept

/-- A step of anybody. -/
theorem Once.next (h : Once git id s) {op : LandingOp T} (hok : LandingOp.Assumed git s op) :
    Once git id (s.next git id op) := by
  have hreached := reached_next git id s op
  cases op with
  | queue op => exact h.of_main hreached (fun _ hcommit => hcommit) rfl (fun _ _ hmem => hmem) rfl
  | commits main =>
      simp only [Landings.next] at hreached ⊢
      split
      · next hparent =>
        rw [if_pos hparent] at hreached
        refine h.of_main hreached (fun commit hcommit => ?_) rfl (fun _ _ hmem => hmem) rfl
        exact (git.isAncestor_iff _ _).mpr (.inr ⟨_, hparent, hcommit⟩)
      · exact h
  | begins main previous token pid now =>
      simp only [Landings.next, Landings.begins] at hreached ⊢
      split
      · next hbegin =>
        rw [hbegin] at hreached
        exact h.of_main hreached (fun _ hcommit => hcommit) rfl (fun _ _ hmem => hmem) rfl
      · exact h
  | lands index host => exact h.lands hok
  | records index host => exact h.records

/-- What was put on `main` and recorded so far, in the order it was. -/
structure Grows (s s' : Landings T) : Prop where
  put : s.put <+: s'.put
  recorded : s.recorded <+: s'.recorded

instance : IsPreorder (Landings T) Grows where
  refl _ := ⟨List.prefix_rfl, List.prefix_rfl⟩
  trans _ _ _ h h' := ⟨h.put.trans h'.put, h.recorded.trans h'.recorded⟩

theorem grows_next (s : Landings T) (op : LandingOp T) : Grows s (s.next git id op) := by
  have hrefl : Grows s s := refl_of Grows s
  cases op with
  | queue op => exact ⟨hrefl.put, hrefl.recorded⟩
  | commits main =>
      simp only [Landings.next]
      split
      · exact ⟨hrefl.put, hrefl.recorded⟩
      · exact hrefl
  | begins main previous token pid now =>
      simp only [Landings.next, Landings.begins]
      split
      · exact ⟨hrefl.put, hrefl.recorded⟩
      · exact hrefl
  | lands index host =>
      simp only [Landings.next, Landings.lands]
      split
      · exact hrefl
      · split
        · exact ⟨hrefl.put, hrefl.recorded⟩
        · refine ⟨?_, hrefl.recorded⟩
          dsimp only
          split
          · exact hrefl.put
          · exact List.prefix_append _ _
  | records index host =>
      simp only [Landings.next, Landings.records]
      split
      · exact hrefl
      · refine ⟨hrefl.put, ?_⟩
        dsimp only
        split
        · exact List.prefix_append _ _
        · exact hrefl.recorded

/-- The queue of a run of landings is one that operations of the queue lead to. -/
theorem landings_reached (git : Git T) (id : RunId) (main : CommitSha) (ops : List (LandingOp T)) :
    ∃ taken, ((landings git id main).run ops).world.store = queue.run taken := by
  refine Machine.invariant (I := fun s : Landings T => ∃ taken, s.world.store = queue.run taken)
    ?_ ⟨[], rfl⟩ ops
  rintro s op ⟨taken, htaken⟩
  obtain ⟨more, hmore⟩ := reached_next git id s op
  exact ⟨taken ++ more, by rw [Machine.run_append, ← htaken]; exact hmore⟩

/-- A landing that is over is recorded as done if it still may be. -/
theorem records_iff {index : Nat} {b : Begun} {landed : Landed T}
    (hended : s.ended[index]? = some (b, .ok landed))
    (h : Store.CompletedIsLanded
      (queue.runFrom s.world.store (host.meanwhile .finishIntegration))) :
    (s.records id index host).recorded = s.recorded ++ [landed.commit] ↔
      host.fails .finishIntegration = none ∧
        MayFinish (queue.runFrom s.world.store (host.meanwhile .finishIntegration)) id b.token := by
  rw [← conclude_integrated_iff b.previous landed h]
  simp only [Landings.records, hended]
  cases houtcome : (conclude host id b.previous b.token (.ok landed) s.world).1 with
  | integrated landed' =>
      obtain rfl : landed = landed' := Except.ok.inj (conclude_integrated houtcome)
      exact iff_of_true rfl rfl
  | needsSession reason => simp
  | failed reason => simp
  | error message => simp

instance {git : Git T} {s : Landings T} {op : LandingOp T} :
    Decidable (LandingOp.Assumed git s op) :=
  match op with
  | .queue _ | .commits _ | .begins .. | .records .. => isTrue trivial
  | .lands index host => inferInstanceAs (Decidable (host.updating.checkedOut = false ∧
      ∀ b ∈ s.begun[index]?, ∀ p ∈ s.put, p.source = some host.head →
        git.isAncestor p.commit b.main = true →
          host.rebaseStopped.isSome = true ∨ host.headAfter = b.main))

/-- A run of which commit 12 was accepted. -/
def acceptedRun : List Op :=
  [.task (.add { title := "t" }), .task (.transition 1 .bypassReview),
    .run (.claimForSupervisor 1 7 [1] 5 50 0),
    .run (.planRun 1 5 10
      ⟨"/repo", "/runs/1", "run-1", "/worktree/1", "/runs/1/receipt", "/runs/1/log"⟩),
    .run (.finishSupervisionLive 1 5 20),
    .run (.finishValidation 1 5 30 { accepted := true, resultCommit := some 12 }),
    .run (.releaseLease 1 5)]

/-- The branch is at `head`, the rebase takes it to `rebased`, and nothing else is in the way. -/
def hostAt (head rebased : CommitSha) : Host Unit :=
  { landingHost with
    branch := some "refs/heads/run-1"
    head := head
    receipt := .text (.ok { landingReceipt with commit := some head })
    headAfter := rebased
    updating := { checkedOut := false } }

/-- The landing moves `main` from commit 1 to commit 2, and its process dies. -/
def diedUnrecorded : List (LandingOp Unit) :=
  acceptedRun.map .queue ++ [.begins 1 .awaitingIntegration 8 80 40, .lands 0 (hostAt 12 12)]

/-- The run is recovered and lands again: nothing of its branch is left on top of `main`. -/
def retried : List (LandingOp Unit) :=
  [.queue (.run (.recoverRun 1 0 400)), .begins 2 .awaitingIntegration 9 90 500,
    .lands 0 (hostAt 12 2), .records 1 (hostAt 12 2)]

/-- A session adds commit 13 to the branch, and the run lands. -/
def landedAgain : List (LandingOp Unit) :=
  [.begins 2 .needsSession 10 100 600, .lands 0 (hostAt 13 13), .records 1 (hostAt 13 13)]

end Dagq.Landing
