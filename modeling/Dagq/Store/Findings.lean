/-
# Dagq.Store.Findings -- recording findings, and settling them by hand.

A finding's row is found by what tells its problem from the others: the unsettled one first, then the
newest.  The table is written by the two operations here and by no other.  Its events are run events as
well, kept in a list of their own beside the queue's.
-/
import Dagq.Domain.Finding
import Dagq.Store.State

namespace Dagq

open Lib

/-- What an event on a finding says. -/
inductive FindingNotice
  | recorded (id : FindingId) (kind : String) (target : TargetName) (subject : String) (impact : Impact)
      (evidence : List RunEventId) (propose : Bool) (by_ : String)
  | updated (id : FindingId) (changed : List String) (addedEvidence : List RunEventId) (occurrences : Nat)
      (by_ : String)
  | statusChanged (id : FindingId) (source target : FindingStatus) (reason by_ : String)

/-- A run event on a finding's target, or on nothing for the queue. -/
structure FindingEvent where
  columns : TargetColumns
  notice : FindingNotice

/-- The queue, its findings and their events. -/
structure FindingStore where
  store : Store
  findings : Table FindingId Finding
  log : List FindingEvent

inductive FindingsError
  | finding (error : FindingError)
  | refused (message : String)
  | constraint (name : String)

abbrev FindingTx (α : Type) : Type := Txn FindingStore FindingsError α

/-- How many run events there are.  Their ids count up from 1, and none is deleted. -/
def FindingStore.eventCount (s : FindingStore) : Nat := s.store.events.length + s.log.length

/-- The columns of a target, which must exist; a run brings its task. -/
def resolveTarget (s : Store) : FindingTarget → Except String TargetColumns
  | .queue => .ok {}
  | .goal id =>
      if (s.goals.get? id).isSome then .ok { goalId := some id }
      else .error s!"goal {id} does not exist"
  | .task id =>
      if (s.tasks.get? id).isSome then .ok { taskId := some id }
      else .error s!"task {id} does not exist"
  | .run id =>
      match s.runs.get? id with
      | some row => .ok { taskId := some row.run.taskId, runId := some id }
      | none => .error s!"run {id} does not exist"

/-- Whether a row is of the problem a record is about; a column without an id compares as the id 0. -/
def Finding.isAbout (f : Finding) (new : NewFinding) (columns : TargetColumns) : Bool :=
  f.kind = new.kind && f.target = new.target.name && f.taskId.getD 0 = columns.taskId.getD 0
    && f.runId.getD 0 = columns.runId.getD 0 && f.goalId.getD 0 = columns.goalId.getD 0
    && f.subject = new.subject

/-- The newest unsettled row of the problem, or else the newest. -/
def FindingStore.existing (s : FindingStore) (new : NewFinding) (columns : TargetColumns) :
    Option (FindingId × Finding) :=
  match s.findings.last? fun _ f => f.isAbout new columns && f.status.isUnsettled with
  | some row => some row
  | none => s.findings.last? fun _ f => f.isAbout new columns

/-- `length(trim(summary)) > 0`: spaces are trimmed, and a length ends at a zero character. -/
def sqlNonBlank (text : String) : Bool :=
  !((text.toList.dropWhile (· = ' ')).takeWhile fun c => c.toNat ≠ 0).isEmpty

/-- The columns a finding's events are on. -/
def Finding.columns (f : Finding) : TargetColumns := f.place.columns

/-- A finding's event; its kinds are the queue's own, so they need no target. -/
def findingEvent (f : Finding) (notice : FindingNotice) : FindingTx Unit :=
  Txn.write fun s => { s with log := s.log ++ [{ columns := f.columns, notice }] }

def insertFinding (f : Finding) : FindingTx FindingId := do
  Txn.ensure (sqlNonBlank f.summary) (.constraint "findings.summary")
  let id ← Txn.read fun s => s.findings.nextId
  Txn.write fun s => { s with findings := s.findings.push id f }
  return id

def updateFinding (id : FindingId) (f : Finding) : FindingTx Unit := do
  Txn.ensure (sqlNonBlank f.summary) (.constraint "findings.summary")
  Txn.write fun s => { s with findings := s.findings.modify id fun _ => f }

/-- What recording returns: the finding as it is now, whether this record created it, and the fields it
changed. -/
structure FindingOutcome where
  id : FindingId
  finding : Finding
  created : Bool
  changed : List String

/-- The checks of a record, and the columns of its target. -/
def checkRecord (new : NewFinding) : FindingTx TargetColumns := do
  Txn.lift (new.validate.mapError .finding)
  let store ← Txn.read FindingStore.store
  let columns ← Txn.lift ((resolveTarget store new.target).mapError .refused)
  let count ← Txn.read FindingStore.eventCount
  new.distinctEvidence.forM fun id =>
    Txn.ensure (1 ≤ id ∧ id ≤ count) (.refused s!"event {id} does not exist")
  return columns

/-- The problem's finding takes the record as an occurrence; without one a new finding is created. -/
def writeRecord (new : NewFinding) (columns : TargetColumns) (now : Seconds) : FindingTx FindingOutcome := do
  match ← Txn.read fun s => s.existing new columns with
  | none =>
      let created := new.created columns now
      let id ← insertFinding created
      findingEvent created (.recorded id created.kind created.target created.subject created.impact
        created.evidence created.proposeReason.isSome new.by_)
      return { id, finding := created, created := true, changed := [] }
  | some (id, existing) =>
      match merge existing new now with
      | none => return { id, finding := existing, created := false, changed := [] }
      | some update =>
          updateFinding id update.finding
          Txn.when update.reopened
            (findingEvent update.finding (.statusChanged id existing.status update.finding.status
              "occurred again" new.by_))
          findingEvent update.finding (.updated id update.changed update.addedEvidence
            update.finding.occurrences new.by_)
          return { id, finding := update.finding, created := false, changed := update.changed }

/-- Record a finding. -/
def recordFinding (new : NewFinding) (now : Seconds) : FindingTx FindingOutcome := do
  let columns ← checkRecord new
  writeRecord new columns now

/-- Resolve or dismiss a finding with the reason. -/
def setFindingStatus (id : FindingId) (target : FindingStatus) (reason by_ : String) (now : Seconds) :
    FindingTx Finding := do
  Txn.ensure (isBlank reason = false) (.refused "reason must not be blank")
  let current ← Txn.found (.refused s!"finding {id} does not exist")
    (← Txn.read fun s => s.findings.get? id)
  Txn.lift ((checkTransition id current target).mapError .finding)
  let changed := { current with status := target, statusReason := some reason, updatedAt := now }
  Txn.write fun s => { s with findings := s.findings.modify id fun _ => changed }
  findingEvent changed (.statusChanged id current.status target reason by_)
  return changed

/-! ## What the operations do -/

variable {s s' : FindingStore} {new : NewFinding} {columns : TargetColumns} {now : Seconds}
  {outcome : FindingOutcome}

/-- A record that passes its checks. -/
structure NewFinding.Accepted (new : NewFinding) (s : FindingStore) (columns : TargetColumns) : Prop where
  valid : new.validate = .ok ()
  target : resolveTarget s.store new.target = .ok columns
  evidence : ∀ id ∈ new.distinctEvidence, 1 ≤ id ∧ id ≤ s.eventCount

theorem checkRecord_ok :
    checkRecord new s = .ok (columns, s') ↔ new.Accepted s columns ∧ s = s' := by
  unfold checkRecord
  rw [Txn.lift_bind]
  simp only [mapError_ok, Txn.read_bind, Txn.lift_bind]
  constructor
  · rintro ⟨_, hvalid, columns', htarget, h⟩
    obtain ⟨_, s₁, hevidence, h⟩ := Txn.bind_ok.mp h
    obtain ⟨hall, rfl⟩ := Txn.forM_ensure_ok.mp hevidence
    obtain ⟨rfl, rfl⟩ := Txn.pure_ok.mp h
    exact ⟨⟨hvalid, htarget, hall⟩, rfl⟩
  · rintro ⟨⟨hvalid, htarget, hall⟩, rfl⟩
    refine ⟨(), hvalid, columns, htarget, ?_⟩
    exact Txn.bind_ok.mpr ⟨(), s, Txn.forM_ensure_ok.mpr ⟨hall, rfl⟩, rfl⟩

theorem recordFinding_ok : recordFinding new now s = .ok (outcome, s') ↔
    ∃ columns, new.Accepted s columns ∧ writeRecord new columns now s = .ok (outcome, s') := by
  unfold recordFinding
  rw [Txn.bind_ok]
  constructor
  · rintro ⟨columns, s₁, hcheck, hwrite⟩
    obtain ⟨haccepted, rfl⟩ := checkRecord_ok.mp hcheck
    exact ⟨columns, haccepted, hwrite⟩
  · rintro ⟨columns, haccepted, hwrite⟩
    exact ⟨columns, s, checkRecord_ok.mpr ⟨haccepted, rfl⟩, hwrite⟩

/-- What an accepted record does: a new row, nothing, or a row rewritten. -/
inductive Recorded (new : NewFinding) (columns : TargetColumns) (now : Seconds) (s s' : FindingStore) :
    FindingOutcome → Prop
  | created (hnone : s.existing new columns = none)
      (hrows : s'.findings = s.findings.push s.findings.nextId (new.created columns now))
      (hsummary : sqlNonBlank new.summary = true) :
      Recorded new columns now s s' {
        id := s.findings.nextId, finding := new.created columns now, created := true, changed := [] }
  | same {id : FindingId} {f : Finding} (hsome : s.existing new columns = some (id, f))
      (hmerge : merge f new now = none) (hsame : s' = s) :
      Recorded new columns now s s' { id, finding := f, created := false, changed := [] }
  | merged {id : FindingId} {f : Finding} {update : FindingUpdate}
      (hsome : s.existing new columns = some (id, f)) (hmerge : merge f new now = some update)
      (hrows : s'.findings = s.findings.modify id fun _ => update.finding)
      (hsummary : sqlNonBlank update.finding.summary = true) :
      Recorded new columns now s s' {
        id, finding := update.finding, created := false, changed := update.changed }

theorem writeRecord_ok (h : writeRecord new columns now s = .ok (outcome, s')) :
    Recorded new columns now s s' outcome ∧ s'.store = s.store ∧ s.log <+: s'.log := by
  unfold writeRecord at h
  rw [Txn.read_bind] at h
  -- A new row, a known one that stays as it is, or a known one merged.
  cases hexisting : s.existing new columns with
  | none =>
      simp only [hexisting, insertFinding, findingEvent, bind_assoc, Txn.ensure_bind, Txn.read_bind,
        Txn.write_bind, pure_bind, Txn.pure_ok] at h
      obtain ⟨hsummary, rfl, rfl⟩ := h
      exact ⟨.created hexisting rfl hsummary, rfl, List.prefix_append _ _⟩
  | some row =>
      obtain ⟨id, f⟩ := row
      cases hmerge : merge f new now with
      | none =>
          simp only [hexisting, hmerge, Txn.pure_ok] at h
          obtain ⟨rfl, rfl⟩ := h
          exact ⟨.same hexisting hmerge rfl, rfl, List.prefix_refl _⟩
      | some update =>
          simp only [hexisting, hmerge, updateFinding, findingEvent, bind_assoc, Txn.ensure_bind,
            Txn.write_bind] at h
          obtain ⟨hsummary, h⟩ := h
          obtain ⟨_, s₁, hwhen, h⟩ := Txn.bind_ok.mp h
          rw [Txn.write_bind] at h
          obtain ⟨rfl, rfl⟩ := Txn.pure_ok.mp h
          rcases Txn.when_ok.mp hwhen with ⟨_, hstatus⟩ | ⟨_, rfl⟩
          · obtain rfl := Txn.write_ok.mp hstatus
            refine ⟨.merged hexisting hmerge rfl hsummary, rfl, ?_⟩
            exact (List.prefix_append _ _).trans (List.prefix_append _ _)
          · exact ⟨.merged hexisting hmerge rfl hsummary, rfl, List.prefix_append _ _⟩

/-- A summary the table takes lets the record be written. -/
theorem writeRecord_runs (now : Seconds) (hnew : sqlNonBlank new.summary = true)
    (hold : ∀ id f, s.existing new columns = some (id, f) → sqlNonBlank f.summary = true) :
    ∃ r, writeRecord new columns now s = .ok r := by
  unfold writeRecord
  simp only [Txn.read_bind, Prod.exists]
  cases hexisting : s.existing new columns with
  | none =>
      simp only [insertFinding, findingEvent, bind_assoc, Txn.ensure_bind, Txn.read_bind,
        Txn.write_bind, pure_bind, Txn.pure_ok]
      exact ⟨_, _, hnew, rfl, rfl⟩
  | some row =>
      obtain ⟨id, f⟩ := row
      cases hmerge : merge f new now with
      | none =>
          simp only [hmerge, Txn.pure_ok]
          exact ⟨_, _, rfl, rfl⟩
      | some update =>
          have hsummary : sqlNonBlank update.finding.summary = true := by
            rcases merge_summary hmerge with hkept | htaken
            · rw [hkept]
              exact hold id f hexisting
            · rw [htaken]
              exact hnew
          simp only [hmerge, updateFinding, findingEvent, bind_assoc, Txn.ensure_bind, Txn.write_bind]
          -- The status event is written or not; what follows runs either way.
          by_cases hreopened : update.reopened = true
          · exact ⟨_, _, hsummary, Txn.bind_ok.mpr ⟨(), _, Txn.when_ok.mpr (.inl ⟨hreopened, rfl⟩), rfl⟩⟩
          · exact ⟨_, _, hsummary, Txn.bind_ok.mpr ⟨(), _, Txn.when_ok.mpr (.inr ⟨hreopened, rfl⟩), rfl⟩⟩

/-- A record whose finding already holds all of it is accepted and writes nothing. -/
theorem recordFinding_same {id : FindingId} {f : Finding} (haccepted : new.Accepted s columns)
    (hexisting : s.existing new columns = some (id, f)) (hmerge : merge f new now = none) :
    recordFinding new now s = .ok ({ id, finding := f, created := false, changed := [] }, s) := by
  refine recordFinding_ok.mpr ⟨columns, haccepted, ?_⟩
  unfold writeRecord
  rw [Txn.read_bind]
  simp only [hexisting, hmerge, Txn.pure_ok, and_self]

/-- An accepted change of status rewrites the one row. -/
theorem setFindingStatus_ok {id : FindingId} {target : FindingStatus} {reason by_ : String} {f : Finding}
    (h : setFindingStatus id target reason by_ now s = .ok (f, s')) :
    ∃ current, s.findings.get? id = some current ∧ checkTransition id current target = .ok () ∧
      f = { current with status := target, statusReason := some reason, updatedAt := now } ∧
      s'.findings = s.findings.modify id (fun _ => f) ∧ s'.store = s.store ∧ s.log <+: s'.log := by
  unfold setFindingStatus findingEvent at h
  simp only [Txn.ensure_bind, Txn.read_bind, Txn.found_bind, Txn.lift_bind, Txn.write_bind,
    mapError_ok, Txn.pure_ok] at h
  obtain ⟨_, current, hcurrent, _, hcheck, rfl, rfl⟩ := h
  exact ⟨current, hcurrent, hcheck, rfl, rfl, rfl, List.prefix_append _ _⟩

end Dagq
