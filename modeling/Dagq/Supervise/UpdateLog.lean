/-
# Dagq.Supervise.UpdateLog -- the log of the automatic update, over every run.

A step is settled when the look that reads the log sees the latest start in it, no job records between the
supervisor's read of the log and what it records, and a job that was started is recorded.  Along settled
steps one job runs at a time, the log tells of every job how it went, and a commit is built again only on
an answer.
-/
import Dagq.Lib.Since
import Dagq.Supervise.Update

namespace Dagq.Update

open Lib

/-! ## Settled steps -/

/-- The supervisor has not read the log. -/
def Look.isQuiet : Look → Bool
  | .resting | .applying _ | .closing _ _ | .applied => true
  | _ => false

/-- A job is started and not recorded. -/
def Look.isSpawned : Look → Bool
  | .spawned _ _ => true
  | _ => false

/-- The latest start is among the fifty newest steps. -/
def Sees (log : List UpdateEvent) : Prop :=
  (log.reverse.take 50).find? (·.kind = .started) = log.reverse.find? (·.kind = .started)

def Settled (w : World) : Op → Prop
  | .look _ => w.look ≠ .applied ∨ Sees w.log
  | .abort | .restart _ => w.look.isSpawned = false
  | .job pid outcome => w.look.isQuiet = true ∨ (w.next (.job pid outcome)).log = w.log
  | _ => True

instance (w : World) (op : Op) : Decidable (Settled w op) :=
  match op with
  | .look _ => inferInstanceAs (Decidable (_ ∨ _ = _))
  | .abort | .restart _ => inferInstanceAs (Decidable (_ = _))
  | .job _ _ => inferInstanceAs (Decidable (_ ∨ _ = _))
  | .kill _ | .land _ | .answer _ _ | .close _ | .otherAsk => .isTrue trivial

/-! ## A log that tells of every job -/

/-- The newest step a job wrote, in a log that is read oldest first. -/
def lastStep (log : List UpdateEvent) : Option UpdateEvent := latestJobStep log.reverse

/-- The latest job is over. -/
def Ended (log : List UpdateEvent) : Prop := ∀ step ∈ lastStep log, step.kind.isJobStep = false

/-- The latest job's step is of one of some kinds, and `event` is about the same commit. -/
def Follows (kinds : Kind → Prop) (before : List UpdateEvent) (event : UpdateEvent) : Prop :=
  ∃ step ∈ lastStep before, kinds step.kind ∧ step.commit = event.commit

/-- What may be recorded after some steps: a job starts when the one before it is over, is built, has the
old binary put back, and ends once. -/
def Legal (before : List UpdateEvent) (event : UpdateEvent) : Prop :=
  match event.kind with
  | .started => Ended before ∧ event.commit.isSome ∧ event.pid.isSome
  | .built => Follows (· = .started) before event
  | .restored | .installed | .awaitingApproval => Follows (· = .built) before event
  | .failed => Follows (fun kind => kind.isJobStep = true) before event
  | .answered | .retry => True

section Log

variable {log : List UpdateEvent} {event : UpdateEvent}

@[simp] theorem lastStep_concat : lastStep (log ++ [event]) =
    if event.kind.isAnswer then lastStep log else some event := by
  rw [lastStep, List.reverse_append, List.reverse_singleton, List.singleton_append, latestJobStep,
    List.find?_cons]
  cases event.kind.isAnswer <;> rfl

theorem not_answer_of_jobStep {kind : Kind} (h : kind.isJobStep = true) : kind.isAnswer = false := by
  cases kind <;> first | rfl | cases h

/-- Without a start there is no step of a job. -/
theorem lastStep_of_no_start (h : Lawful Legal log) (hnone : ∀ e ∈ log, e.kind ≠ .started) :
    lastStep log = none := by
  induction log using List.reverseRecOn with
  | nil => rfl
  | append_singleton log event ih =>
      obtain ⟨hlog, hevent⟩ := lawful_concat.mp h
      have hlast := ih hlog fun e he => hnone e (List.mem_append_left _ he)
      have hkind : event.kind ≠ .started := hnone event (by simp)
      have hfollows (kinds : Kind → Prop) : ¬Follows kinds log event := by
        rintro ⟨step, hstep, -⟩
        rw [hlast] at hstep
        cases hstep
      rw [lastStep_concat, hlast]
      unfold Legal at hevent
      cases hk : event.kind <;> simp_all [Kind.isAnswer]

/-- A look that sees the latest start sees the latest step of its job. -/
theorem latestJobStep_of_sees (h : Lawful Legal log) (hsees : Sees log) :
    latestJobStep (log.reverse.take 50) = lastStep log := by
  unfold Sees at hsees
  cases hstart : (log.reverse.take 50).find? (·.kind = .started) with
  | some start =>
      have hkind : start.kind = .started := by simpa using List.find?_some hstart
      have hsome : (latestJobStep (log.reverse.take 50)).isSome := by
        rw [latestJobStep, List.find?_isSome]
        exact ⟨start, List.mem_of_find?_eq_some hstart, by simp [hkind, Kind.isAnswer]⟩
      obtain ⟨step, hstep⟩ := Option.isSome_iff_exists.mp hsome
      rw [hstep]
      exact ((List.take_prefix 50 log.reverse).find?_eq_some hstep).symm
  | none =>
      rw [hstart] at hsees
      have hnone : ∀ e ∈ log, e.kind ≠ .started := by
        intro e he
        simpa using List.find?_eq_none.mp hsees.symm e (List.mem_reverse.mpr he)
      have hlast := lastStep_of_no_start h hnone
      rw [hlast]
      rw [lastStep, latestJobStep] at hlast
      exact List.find?_eq_none.mpr fun e he =>
        List.find?_eq_none.mp hlast e (List.mem_of_mem_take he)

end Log

/-! ## One job runs at a time -/

/-- How far a job is whose latest recorded step is of a kind. -/
def Stage.After : Stage → Kind → Prop
  | .building, kind => kind = .started
  | .failing, kind | .asked _, kind => kind.isJobStep = true
  | _, kind => kind = .built

/-- A step is the latest one of a job. -/
structure Job.Fits (job : Job) (step : UpdateEvent) : Prop where
  pid : step.pid = some job.pid
  commit : step.commit = some job.commit
  stage : job.stage.After step.kind

/-- The step of the latest job: the start that is next to record, or the latest one recorded. -/
def stepOf (log : List UpdateEvent) : Look → Option UpdateEvent
  | .spawned pid head => some { kind := .started, commit := some head, pid := some pid }
  | _ => lastStep log

/-- What a supervisor that has read the log may rely on. -/
def Look.Holds (log : List UpdateEvent) (jobs : List Job) : Look → Prop
  | .read updates => updates = log.reverse.take 50 ∧ Sees log
  | .interrupted step | .reported step _ => lastStep log = some step ∧ step.kind.isJobStep = true ∧ jobs = []
  | .starting _ => Ended log ∧ jobs = []
  | .spawned _ _ => Ended log
  | _ => True

structure Orderly (log : List UpdateEvent) (jobs : List Job) (look : Look) : Prop where
  legal : Lawful Legal log
  single : jobs.length ≤ 1
  fits : ∀ job ∈ jobs, ∃ step ∈ stepOf log look, job.Fits step
  look : look.Holds log jobs

def World.Orderly (w : World) : Prop := Update.Orderly w.log w.jobs w.look

section Orderly

variable {log : List UpdateEvent} {jobs : List Job} {look look' : Look} {w : World} {job : Job}
  {event : UpdateEvent}

theorem stepOf_of_not_spawned (h : look.isSpawned = false) : stepOf log look = lastStep log := by
  cases look <;> first | rfl | cases h

theorem Look.isSpawned_of_isQuiet (h : look.isQuiet = true) : look.isSpawned = false := by
  cases look <;> first | rfl | cases h

theorem Look.holds_of_isQuiet (h : look.isQuiet = true) : look.Holds log jobs := by
  cases look with
  | resting | applying | closing | applied => trivial
  | _ => cases h

/-- A look that rests, applies answers or ends relies on nothing. -/
theorem Orderly.quiet (h : Orderly log jobs look) (hlook : look.isSpawned = false)
    (hquiet : look'.isQuiet = true) : Orderly log jobs look' where
  legal := h.legal
  single := h.single
  fits := by
    rw [stepOf_of_not_spawned (Look.isSpawned_of_isQuiet hquiet), ← stepOf_of_not_spawned hlook]
    exact h.fits
  look := Look.holds_of_isQuiet hquiet

theorem Orderly.answered (h : Orderly log jobs look) (hlook : look.isQuiet = true)
    (hquiet : look'.isQuiet = true) (hanswer : event.kind.isAnswer = true) :
    Orderly (log ++ [event]) jobs look' where
  legal := by
    refine lawful_concat.mpr ⟨h.legal, ?_⟩
    unfold Legal
    cases hk : event.kind <;> simp_all [Kind.isAnswer]
  single := h.single
  fits := by
    rw [stepOf_of_not_spawned (Look.isSpawned_of_isQuiet hquiet), lastStep_concat, if_pos hanswer,
      ← stepOf_of_not_spawned (Look.isSpawned_of_isQuiet hlook)]
    exact h.fits
  look := Look.holds_of_isQuiet hquiet

/-- A job that is killed leaves no trace. -/
theorem Orderly.killed (h : Orderly log jobs look) (p : Job → Bool) : Orderly log (jobs.filter p) look where
  legal := h.legal
  single := (List.length_filter_le p jobs).trans h.single
  fits job hjob := h.fits job (List.mem_of_mem_filter hjob)
  look := by
    have hlook := h.look
    cases look with
    | interrupted | reported =>
        obtain ⟨hlast, hkind, rfl⟩ := hlook
        exact ⟨hlast, hkind, rfl⟩
    | starting =>
        obtain ⟨hended, rfl⟩ := hlook
        exact ⟨hended, rfl⟩
    | _ => exact hlook

/-- A job goes on without a record. -/
theorem Orderly.advanced (h : Orderly log [job] look) {stage : Stage}
    (hstage : ∀ kind, job.stage.After kind → stage.After kind) :
    Orderly log [{ job with stage }] look where
  legal := h.legal
  single := Nat.le_refl 1
  fits := by
    obtain ⟨step, hstep, hfits⟩ := h.fits job (List.mem_singleton_self job)
    intro other hother
    rw [List.mem_singleton.mp hother]
    exact ⟨step, hstep, hfits.pid, hfits.commit, hstage _ hfits.stage⟩
  look := by
    have hlook := h.look
    cases look with
    | interrupted | reported => cases hlook.2.2
    | starting => cases hlook.2
    | _ => exact hlook

/-- What a job records is about the commit of its latest step. -/
theorem Orderly.follows (h : Orderly log [job] look) (hquiet : look.isQuiet = true) {kinds : Kind → Prop}
    (hkinds : ∀ kind, job.stage.After kind → kinds kind) (kind : Kind) (ask : Option AskId) :
    Follows kinds log (World.Job.step job kind ask) := by
  obtain ⟨step, hstep, hfits⟩ := h.fits job (List.mem_singleton_self job)
  rw [stepOf_of_not_spawned (Look.isSpawned_of_isQuiet hquiet)] at hstep
  exact ⟨step, hstep, hkinds _ hfits.stage, hfits.commit⟩

/-- A job records a step and goes on. -/
theorem Orderly.recorded (h : Orderly log [job] look) (hquiet : look.isQuiet = true) {kind : Kind}
    {stage : Stage} (hlegal : Legal log (World.Job.step job kind)) (hkind : kind.isJobStep = true)
    (hstage : stage.After kind) :
    Orderly (log ++ [World.Job.step job kind]) [{ job with stage }] look where
  legal := lawful_concat.mpr ⟨h.legal, hlegal⟩
  single := Nat.le_refl 1
  fits := by
    intro other hother
    rw [List.mem_singleton.mp hother, stepOf_of_not_spawned (Look.isSpawned_of_isQuiet hquiet),
      lastStep_concat, if_neg (by rw [show (World.Job.step job kind).kind = kind from rfl,
        not_answer_of_jobStep hkind]; exact Bool.false_ne_true)]
    exact ⟨_, rfl, rfl, rfl, hstage⟩
  look := Look.holds_of_isQuiet hquiet

/-- A step is recorded, and no job runs. -/
theorem Orderly.ended (h : Orderly log jobs look) (hlegal : Legal log event)
    (hquiet : look'.isQuiet = true) : Orderly (log ++ [event]) [] look' where
  legal := lawful_concat.mpr ⟨h.legal, hlegal⟩
  single := Nat.zero_le 1
  fits := nofun
  look := Look.holds_of_isQuiet hquiet

theorem Orderly.eq_singleton (h : Orderly log jobs look) (hjob : job ∈ jobs) : jobs = [job] := by
  have hsingle := h.single
  match jobs, hjob, hsingle with
  | [other], hjob, _ => rw [List.mem_singleton.mp hjob]

end Orderly

theorem World.Orderly.jobStep {w : World} {job : Job} {outcome : Outcome} (h : w.Orderly)
    (hjob : job ∈ w.jobs)
    (hsettled : w.look.isQuiet = true ∨ (w.jobStep job outcome).log = w.log) :
    (w.jobStep job outcome).Orderly := by
  obtain ⟨log, asks, nextAsk, main, jobs, version, child, seen, firstHead, look⟩ := w
  unfold World.Orderly at h ⊢
  dsimp only at h hjob hsettled
  obtain rfl := h.eq_singleton hjob
  have hjobs (stage : Stage) : ([job].map fun other : Job =>
      if other.pid = job.pid then { other with stage } else other) = [{ job with stage }] := by simp
  have hgone : [job].filter (·.pid ≠ job.pid) = [] := by simp
  have hgoes (stage : Stage) (hstage : ∀ kind, job.stage.After kind → stage.After kind) :
      Update.Orderly log ([job].map fun other : Job =>
        if other.pid = job.pid then { other with stage } else other) look := by
    rw [hjobs]
    exact h.advanced hstage
  have hrecords (kind : Kind) (ask : Option AskId) :
      log ++ [World.Job.step job kind ask] = log → False := by simp
  have hquiet {kind : Kind} {ask : Option AskId}
      (hlog : look.isQuiet = true ∨ log ++ [World.Job.step job kind ask] = log) : look.isQuiet = true :=
    hlog.resolve_right (by simp)
  have hbuilt (hstage : job.stage = .watching ∨ ∃ ask, job.stage = .approved ask)
      (hquiet : look.isQuiet = true) (kind : Kind) (ask : Option AskId) :
      Follows (· = .built) log (World.Job.step job kind ask) := by
    refine h.follows hquiet ?_ _ _
    rcases hstage with hstage | ⟨ask, hstage⟩ <;> simp [hstage, Stage.After]
  unfold World.jobStep at hsettled ⊢
  split at hsettled
  next hstage =>
    have hquiet := hquiet hsettled
    have hlegal : Legal log (World.Job.step job .built) := by
      show Follows (· = .started) log _
      exact h.follows hquiet (by simp [hstage, Stage.After]) _ _
    simp only [World.setStage, World.record, hjobs]
    exact h.recorded hquiet hlegal rfl rfl
  next hstage _ => exact hgoes _ (by simp [hstage, Stage.After, Kind.isJobStep])
  next hstage => exact hgoes _ (by simp [hstage, Stage.After])
  next hstage => exact hgoes _ (by simp [hstage, Stage.After])
  next hstage _ _ => exact hgoes _ (by simp [hstage, Stage.After, Kind.isJobStep])
  next hstage => exact hgoes _ (by simp [hstage, Stage.After])
  next hstage _ => exact hgoes _ (by simp [hstage, Stage.After, Kind.isJobStep])
  next hstage =>
    have hquiet := hquiet hsettled
    have hlegal : Legal log (World.Job.step job .installed) := hbuilt (.inl hstage) hquiet _ _
    simp only [World.exit, World.record, hgone]
    exact h.ended hlegal hquiet
  next hstage =>
    have hquiet := hquiet hsettled
    have hlegal : Legal log (World.Job.step job .restored) := hbuilt (.inl hstage) hquiet _ _
    simp only [World.setStage, World.record, hjobs]
    exact h.recorded hquiet hlegal rfl rfl
  next hstage _ _ => exact hgoes _ (by simp [hstage, Stage.After, Kind.isJobStep])
  next hstage => exact hgoes _ (by simp [hstage, Stage.After])
  next ask hstage =>
    have hquiet := hquiet hsettled
    have hlegal : Legal log (World.Job.step job .failed (some ask)) := by
      show Follows (fun kind => kind.isJobStep = true) log _
      exact h.follows hquiet (by simp [hstage, Stage.After]) _ _
    simp only [World.exit, World.record, hgone]
    exact h.ended hlegal hquiet
  next hstage => exact hgoes _ (by simp [hstage, Stage.After])
  next ask hstage =>
    have hquiet := hquiet hsettled
    have hlegal : Legal log (World.Job.step job .awaitingApproval (some ask)) :=
      hbuilt (.inr ⟨ask, hstage⟩) hquiet _ _
    simp only [World.exit, World.record, hgone]
    exact h.ended hlegal hquiet

/-- When the latest job is over and none runs, a job may start. -/
theorem World.Orderly.decideBuild {w : World} (h : w.Orderly) (hspawned : w.look.isSpawned = false)
    (hended : Ended w.log) (hjobs : w.jobs = []) (near : Surroundings) (updates : List UpdateEvent) :
    (w.decideBuild near updates).Orderly := by
  have hrests : Update.Orderly w.log w.jobs .resting := h.quiet hspawned rfl
  have hstarts (head : String) : Update.Orderly w.log w.jobs (.starting head) := by
    refine ⟨h.legal, h.single, ?_, hended, hjobs⟩
    rw [hjobs]
    exact nofun
  unfold World.decideBuild
  dsimp only [World.setLook]
  split
  · exact hstarts _
  · split
    · exact hrests
    · split
      · exact hstarts _
      · exact hrests

/-- A job that is not at work has no process. -/
theorem World.Orderly.jobs_eq_nil {w : World} (h : w.Orderly) (near : Surroundings)
    (hspawned : w.look.isSpawned = false) (hidle : ∀ step ∈ lastStep w.log, inProgress (w.alive near) step = false) :
    w.jobs = [] := by
  refine List.eq_nil_iff_forall_not_mem.mpr fun job hjob => ?_
  obtain ⟨step, hstep, hfits⟩ := h.fits job hjob
  rw [stepOf_of_not_spawned hspawned] at hstep
  have hkind : step.kind.isJobStep = true := by
    have hstage := hfits.stage
    unfold Stage.After at hstage
    split at hstage <;> simp_all [Kind.isJobStep]
  have halive : w.alive near job.pid = true := by
    simp only [World.alive, Bool.or_eq_true, List.any_eq_true]
    exact .inl ⟨job, hjob, by simp⟩
  simpa [inProgress, hkind, hfits.pid, halive] using hidle step hstep

theorem World.Orderly.lookStep {w : World} (h : w.Orderly) {near : Surroundings}
    (hsettled : w.look ≠ .applied ∨ Sees w.log) : (w.lookStep near).Orderly := by
  have hlookholds := h.look
  unfold World.lookStep
  split
  next hlook =>
    have hspawned : w.look.isSpawned = false := by rw [hlook]; rfl
    dsimp only
    split <;> split <;> first | exact h | exact h.quiet hspawned rfl
  next hlook =>
    have hspawned : w.look.isSpawned = false := by rw [hlook]; rfl
    split <;> exact h.quiet hspawned rfl
  next ask asks hlook =>
    have hquiet : w.look.isQuiet = true := by rw [hlook]; rfl
    dsimp only
    split
    · exact h.answered hquiet rfl rfl
    · split
      · exact h.answered hquiet rfl rfl
      · exact h.quiet (Look.isSpawned_of_isQuiet hquiet) rfl
  next id asks hlook =>
    have hspawned : w.look.isSpawned = false := by rw [hlook]; rfl
    split
    next closed hclosed =>
      unfold World.closeAsk at hclosed
      split at hclosed
      next =>
        cases hclosed
        exact h.quiet hspawned rfl
      next => cases hclosed
    next => exact h.quiet hspawned rfl
  next hlook =>
    have hspawned : w.look.isSpawned = false := by rw [hlook]; rfl
    have hfits := h.fits
    rw [stepOf_of_not_spawned hspawned] at hfits
    exact ⟨h.legal, h.single, hfits, rfl, hsettled.resolve_left (· hlook)⟩
  next updates hlook =>
    have hspawned : w.look.isSpawned = false := by rw [hlook]; rfl
    rw [hlook] at hlookholds
    obtain ⟨rfl, hsees⟩ := hlookholds
    have hlast := latestJobStep_of_sees h.legal hsees
    rw [hlast]
    split
    next step hstep =>
      split
      next => exact h.quiet hspawned rfl
      next hidle =>
        have hjobs : w.jobs = [] := h.jobs_eq_nil near hspawned (by
          intro step' hstep'
          rw [hstep] at hstep'
          cases hstep'
          simpa using hidle)
        split
        next hkind =>
          refine ⟨h.legal, h.single, ?_, hstep, hkind, hjobs⟩
          show ∀ job ∈ w.jobs, _
          rw [hjobs]
          exact nofun
        next hkind =>
          refine h.decideBuild hspawned ?_ hjobs near _
          intro step' hstep'
          rw [hstep] at hstep'
          cases hstep'
          simpa using hkind
    next hstep =>
      have hnone : ∀ step, step ∉ lastStep w.log := by simp [hstep]
      have hjobs : w.jobs = [] :=
        h.jobs_eq_nil near hspawned fun step hmem => absurd hmem (hnone step)
      exact h.decideBuild hspawned (fun step hmem => absurd hmem (hnone step)) hjobs near _
  next step hlook =>
    rw [hlook] at hlookholds
    obtain ⟨hlast, hkind, hjobs⟩ := hlookholds
    refine ⟨h.legal, h.single, ?_, hlast, hkind, hjobs⟩
    show ∀ job ∈ w.jobs, _
    rw [hjobs]
    exact nofun
  next step ask hlook =>
    rw [hlook] at hlookholds
    obtain ⟨hlast, hkind, hjobs⟩ := hlookholds
    have hlegal : Legal w.log { kind := .failed, commit := step.commit, askId := some ask } := by
      show Follows (fun kind => kind.isJobStep = true) w.log _
      exact ⟨step, hlast, hkind, rfl⟩
    show Update.Orderly (w.log ++ [_]) w.jobs .resting
    rw [hjobs]
    exact h.ended hlegal rfl
  next head hlook =>
    rw [hlook] at hlookholds
    obtain ⟨hended, hjobs⟩ := hlookholds
    show Update.Orderly w.log (w.jobs ++ [_]) _
    rw [hjobs]
    refine ⟨h.legal, Nat.le_refl 1, ?_, hended⟩
    intro job hjob
    rw [List.mem_singleton.mp hjob]
    exact ⟨_, rfl, rfl, rfl, rfl⟩
  next pid head hlook =>
    have hfits := h.fits
    rw [hlook] at hlookholds hfits
    refine ⟨lawful_concat.mpr ⟨h.legal, hlookholds, rfl, rfl⟩, h.single, ?_, trivial⟩
    show ∀ job ∈ w.jobs, ∃ step ∈ lastStep (w.log ++ [_]), _
    rw [lastStep_concat, if_neg (by exact Bool.false_ne_true)]
    exact hfits

theorem World.Orderly.next {w : World} (h : w.Orderly) {op : Op} (hsettled : Settled w op) :
    (w.next op).Orderly := by
  cases op with
  | look near => exact h.lookStep hsettled
  | abort | restart => exact h.quiet hsettled rfl
  | job pid outcome =>
      unfold Settled at hsettled
      unfold World.next at hsettled ⊢
      dsimp only at hsettled ⊢
      cases hfind : w.jobs.find? (·.pid = pid) with
      | none => exact h
      | some job =>
          rw [hfind] at hsettled
          exact h.jobStep (List.mem_of_find?_eq_some hfind) hsettled
  | kill pid => exact h.killed _
  | land | answer | otherAsk => exact h
  | close id =>
      show ((w.closeAsk id).getD w).Orderly
      unfold World.closeAsk
      split <;> exact h

theorem init_orderly (main version : String) : (machine main version).init.Orderly :=
  ⟨lawful_nil, Nat.zero_le 1, nofun, trivial⟩

/-- Along settled steps one job runs at a time, and the log tells of every job: it starts when the one
before it is over, its steps are about its commit and in order, and it ends once, whether it says so itself
or its process is found gone. -/
theorem updates_orderly (main version : String) (ops : List Op)
    (hsettled : (machine main version).Meets Settled (machine main version).init ops) :
    Lawful Legal ((machine main version).run ops).log ∧ ((machine main version).run ops).jobs.length ≤ 1 := by
  have h : ((machine main version).run ops).Orderly :=
    Machine.invariant_of_meets (M := machine main version) (I := World.Orderly)
      (fun _ _ hok h => World.Orderly.next h hok) hsettled (init_orderly main version)
  exact ⟨h.legal, h.single⟩

/-- A job is killed while it builds, is reported, and is started again on the answer. -/
def exampleOps : List Op :=
  let looks (n : Nat) : List Op :=
    List.replicate n (.look { newPid := 7, changedPaths := fun _ => some ["src/main.rs"] })
  looks 4 ++ [.land "b"] ++ looks 6 ++ [.job 7 .ok, .kill 7] ++ looks 6 ++ [.answer 1 "retry"] ++ looks 8

theorem updates_orderly_example :
    Lawful Legal ((machine "a" "0.4.0").run exampleOps).log ∧
      ((machine "a" "0.4.0").run exampleOps).jobs.length ≤ 1 :=
  updates_orderly "a" "0.4.0" exampleOps (by decide)

end Dagq.Update
