/-
# Dagq.Queue.Findings -- the findings over whole histories.

Findings are recorded and settled between the operations of the queue, in any order.  Throughout, each
problem has one row, and the row is the sum of what was recorded for the problem: all of its evidence,
each event once, and as many occurrences as records that brought something new.
-/
import Dagq.Queue.Invariants
import Dagq.Store.Findings

namespace Dagq

open Lib Relation

/-! ## Problems -/

/-- The same kind, target and subject is one problem. -/
structure Problem where
  kind : String
  target : FindingTarget
  subject : String
  deriving DecidableEq

def NewFinding.problem (new : NewFinding) : Problem where
  kind := new.kind
  target := new.target
  subject := new.subject

/-- The target that columns name. -/
def TargetColumns.target (columns : TargetColumns) : TargetName → FindingTarget
  | .queue => .queue
  | .goal => .goal (columns.goalId.getD 0)
  | .task => .task (columns.taskId.getD 0)
  | .run => .run (columns.runId.getD 0)

def Place.problem (p : Place) : Problem where
  kind := p.kind
  target := p.columns.target p.target
  subject := p.subject

def Finding.problem (f : Finding) : Problem := f.place.problem

/-- The columns a target of the queue is stored as: a run's has the run's task, which never changes. -/
inductive StoredAs (s : Store) : TargetName → TargetColumns → Prop
  | queue : StoredAs s .queue {}
  | goal (id : GoalId) : StoredAs s .goal { goalId := some id }
  | task (id : TaskId) : StoredAs s .task { taskId := some id }
  | run {id : RunId} {row : RunRow} (found : s.runs.get? id = some row) :
      StoredAs s .run { taskId := some row.run.taskId, runId := some id }

variable {s s' : FindingStore} {store store' : Store} {new : NewFinding} {columns : TargetColumns}
  {now : Seconds} {f : Finding} {outcome : FindingOutcome} {target : FindingTarget}

theorem resolveTarget_ok (h : resolveTarget store target = .ok columns) :
    StoredAs store target.name columns ∧ columns.target target.name = target := by
  unfold resolveTarget at h
  cases target with
  | queue =>
      obtain rfl := Except.ok.inj h
      exact ⟨.queue, rfl⟩
  | goal id =>
      dsimp only at h
      split_ifs at h
      obtain rfl := Except.ok.inj h
      exact ⟨.goal id, rfl⟩
  | task id =>
      dsimp only at h
      split_ifs at h
      obtain rfl := Except.ok.inj h
      exact ⟨.task id, rfl⟩
  | run id =>
      dsimp only at h
      split at h
      · obtain rfl := Except.ok.inj h
        exact ⟨.run ‹_›, rfl⟩
      · cases h

/-- Columns stored for the same target compare as the same. -/
theorem StoredAs.same_iff {name name' : TargetName} {columns columns' : TargetColumns}
    (h : StoredAs store name columns) (h' : StoredAs store name' columns') :
    (name = name' ∧ columns.taskId.getD 0 = columns'.taskId.getD 0 ∧
        columns.runId.getD 0 = columns'.runId.getD 0 ∧ columns.goalId.getD 0 = columns'.goalId.getD 0) ↔
      columns.target name = columns'.target name' := by
  cases h with
  | queue => cases h' <;> simp [TargetColumns.target]
  | goal id => cases h' <;> simp [TargetColumns.target]
  | task id => cases h' <;> simp [TargetColumns.target]
  | run found =>
      cases h' with
      | queue => simp [TargetColumns.target]
      | goal id => simp [TargetColumns.target]
      | task id => simp [TargetColumns.target]
      | run found' =>
          constructor
          · rintro ⟨_, _, hrun, _⟩
            exact congrArg FindingTarget.run hrun
          · intro hsame
            obtain rfl := FindingTarget.run.inj hsame
            obtain rfl := Option.some.inj (found.symm.trans found')
            exact ⟨rfl, rfl, rfl, rfl⟩

/-- The rows the store looks for are the rows of the record's problem. -/
theorem isAbout_iff (hplace : StoredAs store f.target f.columns)
    (h : resolveTarget store new.target = .ok columns) :
    f.isAbout new columns = true ↔ f.problem = new.problem := by
  obtain ⟨hstored, htarget⟩ := resolveTarget_ok h
  have hsame := hplace.same_iff hstored
  rw [htarget] at hsame
  have hproblem : f.problem = new.problem ↔
      f.kind = new.kind ∧ f.columns.target f.target = new.target ∧ f.subject = new.subject :=
    Problem.mk.injEq .. ▸ Iff.rfl
  rw [hproblem, ← hsame]
  simp only [Finding.isAbout, Bool.and_eq_true, decide_eq_true_eq]
  show ((((_ ∧ _) ∧ f.columns.taskId.getD 0 = _) ∧ f.columns.runId.getD 0 = _) ∧
    f.columns.goalId.getD 0 = _) ∧ _ ↔ _
  constructor
  · rintro ⟨⟨⟨⟨⟨hkind, hname⟩, htask⟩, hrun⟩, hgoal⟩, hsubject⟩
    exact ⟨hkind, ⟨hname, htask, hrun, hgoal⟩, hsubject⟩
  · rintro ⟨hkind, ⟨hname, htask, hrun, hgoal⟩, hsubject⟩
    exact ⟨⟨⟨⟨⟨hkind, hname⟩, htask⟩, hrun⟩, hgoal⟩, hsubject⟩

/-! ## Histories -/

/-- Recording a finding, settling one by hand, or any operation of the queue. -/
inductive FindingOp
  | record (new : NewFinding) (now : Seconds)
  | setStatus (id : FindingId) (target : FindingStatus) (reason by_ : String) (now : Seconds)
  | elsewhere (op : Op)

/-- The queue with its findings. -/
def findingQueue : Machine FindingStore FindingOp where
  init := { store := queue.init, findings := ∅, log := [] }
  next s op := match op with
    | .record new now => (recordFinding new now).commit s
    | .setStatus id target reason by_ now => (setFindingStatus id target reason by_ now).commit s
    | .elsewhere op => { s with store := queue.next s.store op }

/-- What an operation records: the evidence of an accepted record, for its problem. -/
def FindingOp.recorded (s : FindingStore) : FindingOp → List (Problem × List RunEventId)
  | .record new now =>
      if (recordFinding new now).accepts s then [(new.problem, new.evidence)] else []
  | .setStatus .. | .elsewhere _ => []

/-- What a history records from a state on. -/
def recordedFrom (s : FindingStore) : List FindingOp → List (Problem × List RunEventId)
  | [] => []
  | op :: ops => op.recorded s ++ recordedFrom (findingQueue.next s op) ops

/-- The evidence of each record for a problem, oldest first. -/
def recordsOf (history : List (Problem × List RunEventId)) (problem : Problem) : List (List RunEventId) :=
  (history.filter fun r => r.1 = problem).map Prod.snd

/-- How many records bring evidence that none before them did. -/
def news (seen : List RunEventId) : List (List RunEventId) → Nat
  | [] => 0
  | evidence :: records =>
      (if ∀ id ∈ evidence, id ∈ seen then 0 else 1) + news (seen ++ evidence) records

/-- The evidence of all the records, each event once, and an occurrence for the first record and for
each later one that brought something new. -/
structure Finding.SumOf (f : Finding) (first : List RunEventId) (later : List (List RunEventId)) : Prop where
  evidence : f.evidence = dedup (first ++ later.flatten)
  occurrences : f.occurrences = 1 + news first later

theorem news_concat (seen evidence : List RunEventId) (records : List (List RunEventId)) :
    news seen (records ++ [evidence]) = news seen records +
      if ∀ id ∈ evidence, id ∈ seen ++ records.flatten then 0 else 1 := by
  induction records generalizing seen with
  | nil => simp [news]
  | cons r records ih =>
      rw [List.cons_append, news, news, ih, List.flatten_cons, List.append_assoc, Nat.add_assoc]

/-- One more record adds what it brings. -/
theorem Finding.SumOf.concat {g : Finding} {first : List RunEventId} {later : List (List RunEventId)}
    (h : f.SumOf first later) (hevidence : g.evidence = f.evidence ++ f.missing new)
    (hoccurrences : g.occurrences = f.occurrences + if f.missing new = [] then 0 else 1) :
    g.SumOf first (later ++ [new.evidence]) := by
  have hmissing : f.missing new = [] ↔ ∀ id ∈ new.evidence, id ∈ first ++ later.flatten := by
    unfold Finding.missing NewFinding.distinctEvidence
    rw [List.filter_eq_nil_iff, h.evidence]
    simp only [mem_dedup, decide_eq_true_eq, not_not]
  constructor
  · rw [List.flatten_append, List.flatten_singleton, ← List.append_assoc,
      dedup_append (first ++ later.flatten), ← h.evidence]
    exact hevidence
  · rw [hoccurrences, h.occurrences, news_concat, Nat.add_assoc]
    simp only [hmissing]

/-! ## What one operation does to the rows -/

theorem existing_some {id : FindingId} (h : s.existing new columns = some (id, f)) :
    s.findings.get? id = some f ∧ f.isAbout new columns = true := by
  unfold FindingStore.existing at h
  split at h
  · rename_i row hrow
    obtain rfl := Option.some.inj h
    obtain ⟨hget, hp⟩ := Table.last?_mem hrow
    exact ⟨hget, (Bool.and_eq_true_iff.mp hp).1⟩
  · exact Table.last?_mem h

theorem existing_none (h : s.existing new columns = none) {id : FindingId}
    (hget : s.findings.get? id = some f) : f.isAbout new columns = false := by
  refine Bool.eq_false_iff.mpr fun habout => ?_
  unfold FindingStore.existing at h
  split at h
  · cases h
  · obtain ⟨row, hrow⟩ := Table.last?_isSome (p := fun _ f => f.isAbout new columns) hget habout
    rw [hrow] at h
    cases h

/-- The row a record finds, as the record leaves it. -/
structure Occurred (f g : Finding) (new : NewFinding) : Prop where
  place : g.place = f.place
  evidence : g.evidence = f.evidence ++ f.missing new
  occurrences : g.occurrences = f.occurrences + if f.missing new = [] then 0 else 1
  status : g.status = if f.missing new ≠ [] ∧ f.status = .resolved then .open else f.status
  dismissed : f.status = .dismissed → f.SameMark g

theorem Occurred.of_same (h : merge f new now = none) : Occurred f f new := by
  obtain ⟨hmissing, _⟩ := merge_eq_none_iff.mp h
  constructor
  · rfl
  · rw [hmissing, List.append_nil]
  · rw [if_pos hmissing, Nat.add_zero]
  · rw [if_neg fun hand => hand.1 hmissing]
  · exact fun _ => .refl f

theorem Occurred.of_merge {update : FindingUpdate} (h : merge f new now = some update) :
    Occurred f update.finding new := by
  obtain ⟨hplace, hevidence, hoccurrences, hstatus⟩ := merge_spec h
  exact ⟨hplace, hevidence, hoccurrences, hstatus, fun hdismissed => (merge_dismissed h hdismissed).2⟩

/-- A record makes the one row of a new problem, or adds to the row it finds. -/
theorem Recorded.row (h : Recorded new columns now s s' outcome) : ∃ g,
    (∀ k, s'.findings.get? k = if k = outcome.id then some g else s.findings.get? k) ∧
      ((s.existing new columns = none ∧ s.findings.get? outcome.id = none ∧ g = new.created columns now) ∨
        ∃ f, s.existing new columns = some (outcome.id, f) ∧ Occurred f g new) := by
  cases h with
  | created hnone hrows =>
      have hfresh := s.findings.nextId_fresh
      refine ⟨_, fun k => ?_, .inl ⟨hnone, hfresh, rfl⟩⟩
      rw [hrows, Table.get?_push hfresh]
  | @same id f hsome hmerge hsame =>
      refine ⟨f, fun k => ?_, .inr ⟨f, hsome, .of_same hmerge⟩⟩
      rw [hsame]
      split_ifs with hk
      · rw [hk]
        exact (existing_some hsome).1
      · rfl
  | merged hsome hmerge hrows =>
      refine ⟨_, fun k => ?_, .inr ⟨_, hsome, .of_merge hmerge⟩⟩
      rw [hrows, Table.get?_modify_of_get (existing_some hsome).1]

/-- A run keeps its task, so no operation of the queue changes what the stored columns stand for. -/
theorem storedAs_next {name : TargetName} (h : StoredAs store name columns) (op : Op) :
    StoredAs (queue.next store op) name columns := by
  cases h with
  | queue => exact .queue
  | goal id => exact .goal id
  | task id => exact .task id
  | @run id row found =>
      have hkept := Machine.inv_of_steps
        (I := fun b : Board => ∃ w, b.run id = some w ∧ w.taskId = row.run.taskId)
        (fun b b' hb hstep => by
          obtain ⟨v, hv, htask⟩ := hb
          obtain ⟨w, hw, hsame⟩ := hstep.run_task hv
          exact ⟨w, hw, hsame.trans htask⟩)
        ⟨_, Store.board_run found, rfl⟩ (queue_refines (op.respects_any store))
      obtain ⟨w, hw, htask⟩ := hkept
      obtain ⟨row', hrow', rfl⟩ := Store.board_run_iff.mp hw
      have htask' : row'.run.taskId = row.run.taskId := htask
      rw [← htask']
      exact .run hrow'

/-! ## Every row is the sum of its records -/

theorem recordsOf_append (history more : List (Problem × List RunEventId)) (p : Problem) :
    recordsOf (history ++ more) p = recordsOf history p ++ recordsOf more p := by
  unfold recordsOf
  rw [List.filter_append, List.map_append]

theorem recordsOf_one (p p' : Problem) (evidence : List RunEventId) :
    recordsOf [(p', evidence)] p = if p' = p then [evidence] else [] := by
  unfold recordsOf
  by_cases h : p' = p
  · simp [h]
  · simp [h]

/-- The rows against the history that made them. -/
structure FindingStore.Kept (s : FindingStore) (history : List (Problem × List RunEventId)) : Prop where
  stored : ∀ id f, s.findings.get? id = some f → StoredAs s.store f.target f.columns
  unique : ∀ id id' f f', s.findings.get? id = some f → s.findings.get? id' = some f' →
    f.problem = f'.problem → id = id'
  counted : ∀ id f, s.findings.get? id = some f →
    ∃ first later, recordsOf history f.problem = first :: later ∧ f.SumOf first later
  known : ∀ r ∈ history, ∃ id f, s.findings.get? id = some f ∧ f.problem = r.1

/-- What a row sums up. -/
def Finding.tally (f : Finding) : Place × List RunEventId × Nat := (f.place, f.evidence, f.occurrences)

section Kept

variable {history : List (Problem × List RunEventId)}

/-- What neither moves a row nor counts on it changes nothing. -/
theorem FindingStore.Kept.of_tally (h : s.Kept history)
    (hstored : ∀ name columns, StoredAs s.store name columns → StoredAs s'.store name columns)
    (hrows : ∀ id f', s'.findings.get? id = some f' →
      ∃ f, s.findings.get? id = some f ∧ f'.tally = f.tally)
    (hkeeps : ∀ id f, s.findings.get? id = some f →
      ∃ f', s'.findings.get? id = some f' ∧ f'.tally = f.tally) : s'.Kept history := by
  constructor
  · intro id f' hget'
    obtain ⟨f, hget, htally⟩ := hrows id f' hget'
    -- The tally holds place, evidence and occurrences, all that is read here.
    have hplace : f'.place = f.place := congrArg Prod.fst htally
    have htarget : f'.target = f.target := congrArg Place.target hplace
    have hcolumns : f'.columns = f.columns := congrArg Place.columns hplace
    rw [htarget, hcolumns]
    exact hstored _ _ (h.stored id f hget)
  · intro id id' f f' hget hget' hsame
    obtain ⟨g, hg, htally⟩ := hrows id f hget
    obtain ⟨g', hg', htally'⟩ := hrows id' f' hget'
    refine h.unique id id' g g' hg hg' ?_
    have hplace : f.place = g.place := congrArg Prod.fst htally
    have hplace' : f'.place = g'.place := congrArg Prod.fst htally'
    show g.place.problem = g'.place.problem
    rw [← hplace, ← hplace']
    exact hsame
  · intro id f' hget'
    obtain ⟨f, hget, htally⟩ := hrows id f' hget'
    obtain ⟨first, later, hrecords, hsum⟩ := h.counted id f hget
    have hplace : f'.place = f.place := congrArg Prod.fst htally
    have hcounts : (f'.evidence, f'.occurrences) = (f.evidence, f.occurrences) :=
      congrArg Prod.snd htally
    obtain ⟨hevidence, hoccurrences⟩ := Prod.mk.inj hcounts
    refine ⟨first, later, ?_, ?_, ?_⟩
    · show recordsOf history f'.place.problem = _
      rw [hplace]
      exact hrecords
    · rw [hevidence]
      exact hsum.evidence
    · rw [hoccurrences]
      exact hsum.occurrences
  · intro r hr
    obtain ⟨id, f, hget, hproblem⟩ := h.known r hr
    obtain ⟨f', hget', htally⟩ := hkeeps id f hget
    have hplace : f'.place = f.place := congrArg Prod.fst htally
    refine ⟨id, f', hget', ?_⟩
    show f'.place.problem = _
    rw [hplace]
    exact hproblem

/-- Before its first record a problem has none. -/
theorem FindingStore.Kept.unrecorded (h : s.Kept history)
    (hnone : ∀ id f, s.findings.get? id = some f → f.problem ≠ new.problem) :
    recordsOf history new.problem = [] := by
  rw [recordsOf, List.map_eq_nil_iff, List.filter_eq_nil_iff]
  intro r hr hproblem
  obtain ⟨id, f, hget, hf⟩ := h.known r hr
  exact hnone id f hget (hf.trans (of_decide_eq_true hproblem))

/-- The row of a record: its problem's only one, and the sum of the records with this one. -/
structure RecordRow (s : FindingStore) (history : List (Problem × List RunEventId)) (new : NewFinding)
    (id : FindingId) (g : Finding) : Prop where
  stored : StoredAs s.store g.target g.columns
  problem : g.problem = new.problem
  only : ∀ id' f, s.findings.get? id' = some f → (f.problem = new.problem ↔ id' = id)
  sum : ∃ first later, recordsOf history new.problem ++ [new.evidence] = first :: later ∧
    g.SumOf first later
  occurred : ∀ f, s.findings.get? id = some f → Occurred f g new

theorem FindingStore.Kept.created (h : s.Kept history) (haccepted : new.Accepted s columns)
    (hnone : s.existing new columns = none) {id : FindingId} (hfresh : s.findings.get? id = none) :
    RecordRow s history new id (new.created columns now) := by
  obtain ⟨hstored, htarget⟩ := resolveTarget_ok haccepted.target
  have hothers : ∀ id' f, s.findings.get? id' = some f → f.problem ≠ new.problem := by
    intro id' f hget hsame
    have habout := (isAbout_iff (h.stored id' f hget) haccepted.target).mpr hsame
    rw [existing_none hnone hget] at habout
    exact Bool.false_ne_true habout
  constructor
  · exact hstored
  · show Problem.mk new.kind (columns.target new.target.name) new.subject = _
    rw [htarget]
    rfl
  · intro id' f hget
    refine iff_of_false (hothers id' f hget) fun hid => ?_
    rw [hid, hfresh] at hget
    cases hget
  · refine ⟨new.evidence, [], ?_, ?_, rfl⟩
    · rw [h.unrecorded hothers, List.nil_append]
    · rw [List.flatten_nil, List.append_nil]
      rfl
  · intro f hget
    rw [hfresh] at hget
    cases hget

theorem FindingStore.Kept.occurred {g : Finding} {id : FindingId} (h : s.Kept history)
    (haccepted : new.Accepted s columns) (hsome : s.existing new columns = some (id, f))
    (hrow : Occurred f g new) : RecordRow s history new id g := by
  obtain ⟨hget, habout⟩ := existing_some hsome
  have hproblem : f.problem = new.problem := (isAbout_iff (h.stored id f hget) haccepted.target).mp habout
  obtain ⟨first, later, hrecords, hsum⟩ := h.counted id f hget
  have htarget : g.target = f.target := congrArg Place.target hrow.place
  have hcolumns : g.columns = f.columns := congrArg Place.columns hrow.place
  constructor
  · rw [htarget, hcolumns]
    exact h.stored id f hget
  · exact (congrArg Place.problem hrow.place).trans hproblem
  · intro id' f' hget'
    constructor
    · intro hsame
      exact h.unique id' id f' f hget' hget (hsame.trans hproblem.symm)
    · rintro rfl
      obtain rfl := Option.some.inj (hget.symm.trans hget')
      exact hproblem
  · refine ⟨first, later ++ [new.evidence], ?_, hsum.concat hrow.evidence hrow.occurrences⟩
    rw [← hproblem, hrecords]
    rfl
  · intro f' hget'
    obtain rfl := Option.some.inj (hget.symm.trans hget')
    exact hrow

/-- The row an accepted record leaves. -/
theorem FindingStore.Kept.recorded (h : s.Kept history) (haccepted : new.Accepted s columns)
    (hrecorded : Recorded new columns now s s' outcome) : ∃ g,
    (∀ k, s'.findings.get? k = if k = outcome.id then some g else s.findings.get? k) ∧
      RecordRow s history new outcome.id g := by
  obtain ⟨g, hrows, ⟨hnone, hfresh, rfl⟩ | ⟨f, hsome, hoccurred⟩⟩ := hrecorded.row
  · exact ⟨_, hrows, h.created haccepted hnone hfresh⟩
  · exact ⟨g, hrows, h.occurred haccepted hsome hoccurred⟩

/-- An accepted record extends the history by one. -/
theorem FindingStore.Kept.record {g : Finding} {id : FindingId} (h : s.Kept history)
    (hrow : RecordRow s history new id g) (hstore : s'.store = s.store)
    (hrows : ∀ k, s'.findings.get? k = if k = id then some g else s.findings.get? k) :
    s'.Kept (history ++ [(new.problem, new.evidence)]) := by
  -- A finding is the recorded one, or an old one of another problem.
  have hcases : ∀ {k f}, s'.findings.get? k = some f →
      (k = id ∧ f = g) ∨ (s.findings.get? k = some f ∧ f.problem ≠ new.problem) := by
    intro k f hget
    rw [hrows] at hget
    split_ifs at hget with hk
    · exact .inl ⟨hk, (Option.some.inj hget).symm⟩
    · exact .inr ⟨hget, fun hsame => hk ((hrow.only k f hget).mp hsame)⟩
  have hself : s'.findings.get? id = some g := by rw [hrows, if_pos rfl]
  constructor
  · intro k f hget
    rw [hstore]
    rcases hcases hget with ⟨-, rfl⟩ | ⟨hold, -⟩
    · exact hrow.stored
    · exact h.stored k f hold
  · intro k k' f f' hget hget' hsame
    rcases hcases hget with ⟨rfl, rfl⟩ | ⟨hold, hother⟩
    · rcases hcases hget' with ⟨rfl, -⟩ | ⟨-, hother'⟩
      · rfl
      · exact absurd (hsame.symm.trans hrow.problem) hother'
    · rcases hcases hget' with ⟨rfl, rfl⟩ | ⟨hold', -⟩
      · exact absurd (hsame.trans hrow.problem) hother
      · exact h.unique k k' f f' hold hold' hsame
  · intro k f hget
    -- The new record counts for the recorded finding alone.
    rw [recordsOf_append, recordsOf_one]
    rcases hcases hget with ⟨rfl, rfl⟩ | ⟨hold, hother⟩
    · rw [hrow.problem, if_pos rfl]
      exact hrow.sum
    · rw [if_neg hother.symm, List.append_nil]
      exact h.counted k f hold
  · intro r hr
    rcases List.mem_append.mp hr with hold | hnew
    · obtain ⟨k, f, hget, hproblem⟩ := h.known r hold
      by_cases hk : k = id
      · subst hk
        have hsame : f.problem = new.problem := (hrow.only k f hget).mpr rfl
        exact ⟨k, g, hself, hrow.problem.trans (hsame.symm.trans hproblem)⟩
      · refine ⟨k, f, ?_, hproblem⟩
        rw [hrows, if_neg hk]
        exact hget
    · obtain rfl := List.mem_singleton.mp hnew
      exact ⟨id, g, hself, hrow.problem⟩

/-- Settling a finding by hand leaves what it sums up. -/
theorem FindingStore.Kept.settled {id : FindingId} {current g : Finding} (h : s.Kept history)
    (hget : s.findings.get? id = some current) (htally : g.tally = current.tally)
    (hrows : s'.findings = s.findings.modify id fun _ => g) (hstore : s'.store = s.store) :
    s'.Kept history := by
  have hget? : ∀ k, s'.findings.get? k = if k = id then some g else s.findings.get? k := by
    intro k
    rw [hrows, Table.get?_modify_of_get hget]
  refine h.of_tally (fun name columns hstored => hstore ▸ hstored) ?_ ?_
  · intro k f' hget'
    rw [hget?] at hget'
    split_ifs at hget' with hk
    · obtain rfl := Option.some.inj hget'
      exact ⟨current, hk ▸ hget, htally⟩
    · exact ⟨f', hget', rfl⟩
  · intro k f hf
    rw [hget?]
    split_ifs with hk
    · rw [hk] at hf
      obtain rfl := Option.some.inj (hf.symm.trans hget)
      exact ⟨g, rfl, htally⟩
    · exact ⟨f, hf, rfl⟩

/-- A record is refused and changes nothing, or is written. -/
theorem record_cases (s : FindingStore) (new : NewFinding) (now : Seconds) :
    ((recordFinding new now).accepts s = false ∧ findingQueue.next s (.record new now) = s) ∨
      (recordFinding new now).accepts s = true ∧ ∃ columns outcome, new.Accepted s columns ∧
        Recorded new columns now s (findingQueue.next s (.record new now)) outcome ∧
        (findingQueue.next s (.record new now)).store = s.store := by
  cases hrun : recordFinding new now s with
  | error e =>
      refine .inl ⟨?_, Txn.commit_of_error hrun⟩
      rw [Txn.accepts, hrun]
  | ok r =>
      obtain ⟨outcome, s'⟩ := r
      have hnext : findingQueue.next s (.record new now) = s' := Txn.commit_of_ok hrun
      obtain ⟨columns, haccepted, hwrite⟩ := recordFinding_ok.mp hrun
      obtain ⟨hrecorded, hstore, _⟩ := writeRecord_ok hwrite
      rw [hnext]
      exact .inr ⟨Txn.accepts_iff.mpr ⟨_, hrun⟩, columns, outcome, haccepted, hrecorded, hstore⟩

/-- So is a change of status. -/
theorem setStatus_cases (s : FindingStore) (id : FindingId) (target : FindingStatus)
    (reason by_ : String) (now : Seconds) :
    findingQueue.next s (.setStatus id target reason by_ now) = s ∨
      ∃ current, s.findings.get? id = some current ∧ checkTransition id current target = .ok () ∧
        (findingQueue.next s (.setStatus id target reason by_ now)).findings =
          s.findings.modify id (fun _ => { current with
            status := target, statusReason := some reason, updatedAt := now }) ∧
        (findingQueue.next s (.setStatus id target reason by_ now)).store = s.store := by
  rcases Txn.commit_cases (setFindingStatus id target reason by_ now) s with ⟨f, hrun⟩ | hsame
  · obtain ⟨current, hget, hcheck, rfl, hrows, hstore, _⟩ := setFindingStatus_ok hrun
    exact .inr ⟨current, hget, hcheck, hrows, hstore⟩
  · exact .inl hsame

/-- One operation keeps the rows and the history in step. -/
theorem FindingStore.Kept.next (h : s.Kept history) (op : FindingOp) :
    (findingQueue.next s op).Kept (history ++ op.recorded s) := by
  cases op with
  | record new now =>
      rcases record_cases s new now with
        ⟨haccepts, hnext⟩ | ⟨haccepts, columns, outcome, haccepted, hrecorded, hstore⟩
      · rw [hnext, FindingOp.recorded, haccepts, if_neg Bool.false_ne_true, List.append_nil]
        exact h
      · rw [FindingOp.recorded, if_pos haccepts]
        obtain ⟨g, hrows, hrow⟩ := h.recorded haccepted hrecorded
        exact h.record hrow hstore hrows
  | setStatus id target reason by_ now =>
      rw [FindingOp.recorded, List.append_nil]
      rcases setStatus_cases s id target reason by_ now with hnext | ⟨current, hget, _, hrows, hstore⟩
      · rw [hnext]
        exact h
      · refine h.settled hget ?_ hrows hstore
        rfl
  | elsewhere op =>
      rw [FindingOp.recorded, List.append_nil]
      refine h.of_tally (fun name columns hstored => storedAs_next hstored op) ?_ ?_
      · exact fun id f hget => ⟨f, hget, rfl⟩
      · exact fun id f hget => ⟨f, hget, rfl⟩

theorem FindingStore.Kept.runFrom (h : s.Kept history) (ops : List FindingOp) :
    (findingQueue.runFrom s ops).Kept (history ++ recordedFrom s ops) := by
  induction ops generalizing s history with
  | nil => rwa [recordedFrom, List.append_nil]
  | cons op ops ih =>
      rw [recordedFrom, ← List.append_assoc]
      exact ih (h.next op)

end Kept

/-- Nothing is recorded at first. -/
theorem findings_kept_init : findingQueue.init.Kept [] := by
  constructor
  · intro id f hget
    cases hget
  · intro id id' f f' hget
    cases hget
  · intro id f hget
    cases hget
  · intro r hr
    cases hr

theorem findings_kept (ops : List FindingOp) :
    (findingQueue.run ops).Kept (recordedFrom findingQueue.init ops) :=
  findings_kept_init.runFrom ops

/-! ## What becomes of one row -/

/-- What an operation makes of a finding's row. -/
inductive RowStep (s : FindingStore) (op : FindingOp) (f : Finding) : Finding → Prop
  | kept (hother : ∀ new now, op = .record new now → (recordFinding new now).accepts s = true →
      f.problem ≠ new.problem) : RowStep s op f f
  | occurred {new : NewFinding} {now : Seconds} {g : Finding} (hop : op = .record new now)
      (haccepts : (recordFinding new now).accepts s = true) (hproblem : f.problem = new.problem)
      (hrow : Occurred f g new) : RowStep s op f g
  | settled {id : FindingId} {target : FindingStatus} {reason by_ : String} {now : Seconds}
      (hop : op = .setStatus id target reason by_ now) (hcheck : checkTransition id f target = .ok ()) :
      RowStep s op f { f with status := target, statusReason := some reason, updatedAt := now }

section Rows

variable {history : List (Problem × List RunEventId)} {id : FindingId} {op : FindingOp} {g : Finding}

/-- Every operation takes every row one such step. -/
theorem FindingStore.Kept.row_next (h : s.Kept history) (hget : s.findings.get? id = some f)
    (op : FindingOp) : ∃ g, (findingQueue.next s op).findings.get? id = some g ∧ RowStep s op f g := by
  -- A record touches the row of its problem, a status change the row of its id.
  cases op with
  | record new now =>
      rcases record_cases s new now with
        ⟨haccepts, hnext⟩ | ⟨haccepts, columns, outcome, haccepted, hrecorded, _⟩
      · rw [hnext]
        refine ⟨f, hget, .kept fun new' now' hop haccepts' => ?_⟩
        obtain ⟨rfl, rfl⟩ := FindingOp.record.inj hop
        rw [haccepts] at haccepts'
        exact absurd haccepts' Bool.false_ne_true
      · obtain ⟨g, hrows, hrow⟩ := h.recorded haccepted hrecorded
        rw [hrows]
        split_ifs with hid
        · rw [hid] at hget
          have hproblem : f.problem = new.problem := (hrow.only _ f hget).mpr rfl
          exact ⟨g, rfl, .occurred rfl haccepts hproblem (hrow.occurred f hget)⟩
        · refine ⟨f, hget, .kept fun new' now' hop _ hsame => ?_⟩
          obtain ⟨rfl, rfl⟩ := FindingOp.record.inj hop
          exact hid ((hrow.only id f hget).mp hsame)
  | setStatus id' target reason by_ now =>
      rcases setStatus_cases s id' target reason by_ now with
        hnext | ⟨current, hcurrent, hcheck, hrows, _⟩
      · rw [hnext]
        refine ⟨f, hget, .kept fun new now' hop => ?_⟩
        cases hop
      · rw [hrows, Table.get?_modify_of_get hcurrent]
        split_ifs with hid
        · subst hid
          obtain rfl := Option.some.inj (hget.symm.trans hcurrent)
          exact ⟨_, rfl, .settled rfl hcheck⟩
        · refine ⟨f, hget, .kept fun new now' hop => ?_⟩
          cases hop
  | elsewhere op =>
      refine ⟨f, hget, .kept fun new now hop => ?_⟩
      cases hop

theorem checkTransition_ok {target : FindingStatus} (h : checkTransition id f target = .ok ()) :
    f.status ≠ .dismissed ∧ target ≠ .open := by
  unfold checkTransition requireFinding at h
  dsimp only at h
  split_ifs at h with hallowed
  constructor
  · intro hstatus
    rw [hstatus] at hallowed
    cases target <;> simp [FindingStatus.isUnsettled] at hallowed
  · rintro rfl
    exact Bool.false_ne_true hallowed

/-- A dismissed finding stays so, and keeps its text, its impact and its proposal mark. -/
theorem RowStep.dismissed (h : RowStep s op f g) (hstatus : f.status = .dismissed) :
    g.status = .dismissed ∧ f.SameMark g := by
  cases h with
  | kept hother => exact ⟨hstatus, .refl f⟩
  | occurred hop haccepts hproblem hrow =>
      refine ⟨?_, hrow.dismissed hstatus⟩
      rw [hrow.status, hstatus]
      exact if_neg fun hand => nomatch hand.2
  | settled hop hcheck => exact absurd hstatus (checkTransition_ok hcheck).1

/-- A resolved finding is opened by new evidence, and by that alone. -/
theorem RowStep.reopens_iff (h : RowStep s op f g) (hstatus : f.status = .resolved) :
    g.status = .open ↔ ∃ new now, op = .record new now ∧
      (recordFinding new now).accepts s = true ∧ new.problem = f.problem ∧
        ∃ id ∈ new.evidence, id ∉ f.evidence := by
  cases h with
  | kept hother =>
      refine iff_of_false (fun hopen => ?_) ?_
      · rw [hstatus] at hopen
        cases hopen
      · rintro ⟨new, now, hop, haccepts, hproblem, _⟩
        exact hother new now hop haccepts hproblem.symm
  | settled hop hcheck =>
      refine iff_of_false (checkTransition_ok hcheck).2 ?_
      rintro ⟨new, now, hop', _⟩
      rw [hop] at hop'
      cases hop'
  | @occurred new now g hop haccepts hproblem hrow =>
      -- Evidence is missing exactly when the record brings an event the row lacks.
      have hmissing : f.missing new ≠ [] ↔ ∃ id ∈ new.evidence, id ∉ f.evidence := by
        rw [Ne, Finding.missing, List.filter_eq_nil_iff, NewFinding.distinctEvidence]
        simp only [mem_dedup, decide_eq_true_eq, not_not, not_forall, exists_prop]
      rw [hrow.status, hstatus]
      constructor
      · intro hopen
        split_ifs at hopen with hnew
        · exact ⟨new, now, hop, haccepts, hproblem.symm, hmissing.mp hnew.1⟩
      · rintro ⟨new', now', hop', _, _, hnew⟩
        rw [hop] at hop'
        obtain ⟨rfl, rfl⟩ := FindingOp.record.inj hop'
        exact if_pos ⟨hmissing.mpr hnew, rfl⟩

/-- Whatever happens, a dismissed finding stays dismissed as it is. -/
theorem FindingStore.Kept.dismissed_runFrom (h : s.Kept history) (hget : s.findings.get? id = some f)
    (hstatus : f.status = .dismissed) (ops : List FindingOp) :
    ∃ g, (findingQueue.runFrom s ops).findings.get? id = some g ∧ g.status = .dismissed ∧
      f.SameMark g := by
  induction ops generalizing s history f with
  | nil => exact ⟨f, hget, hstatus, .refl f⟩
  | cons op ops ih =>
      obtain ⟨g, hget', hstep⟩ := h.row_next hget op
      obtain ⟨hstatus', hmark⟩ := hstep.dismissed hstatus
      obtain ⟨k, hk, hdismissed, hmark'⟩ := ih (h.next op) hget' hstatus'
      exact ⟨k, hk, hdismissed, hmark.trans hmark'⟩

/-! ## Which records are accepted -/

/-- The table's check on summaries holds of each row. -/
def FindingStore.Checked (s : FindingStore) : Prop :=
  ∀ id f, s.findings.get? id = some f → sqlNonBlank f.summary = true

/-- Every operation keeps the check: each row written is one it was made of. -/
theorem FindingStore.Checked.next (h : s.Checked) (op : FindingOp) : (findingQueue.next s op).Checked := by
  cases op with
  | record new now =>
      rcases record_cases s new now with ⟨_, hnext⟩ | ⟨_, columns, outcome, _, hrecorded, _⟩
      · rw [hnext]
        exact h
      · intro id f hget
        cases hrecorded with
        | created hnone hrows hsummary =>
            rw [hrows, Table.get?_push s.findings.nextId_fresh] at hget
            split_ifs at hget
            · obtain rfl := Option.some.inj hget
              exact hsummary
            · exact h id f hget
        | same hsome hmerge hsame =>
            rw [hsame] at hget
            exact h id f hget
        | merged hsome hmerge hrows hsummary =>
            rw [hrows, Table.get?_modify_of_get (existing_some hsome).1] at hget
            split_ifs at hget
            · obtain rfl := Option.some.inj hget
              exact hsummary
            · exact h id f hget
  | setStatus id target reason by_ now =>
      rcases setStatus_cases s id target reason by_ now with hnext | ⟨current, hcurrent, _, hrows, _⟩
      · rw [hnext]
        exact h
      · intro id' f hget
        rw [hrows, Table.get?_modify_of_get hcurrent] at hget
        split_ifs at hget
        · obtain rfl := Option.some.inj hget
          exact h id current hcurrent
        · exact h id' f hget
  | elsewhere op => exact h

theorem checked_run (ops : List FindingOp) : (findingQueue.run ops).Checked :=
  Machine.invariant (fun _ op h => h.next op) (fun _ _ hget => nomatch hget) ops

/-- A record with a summary the table takes is accepted exactly when it passes its checks. -/
theorem FindingStore.Checked.accepts_iff (h : s.Checked) (hsummary : sqlNonBlank new.summary = true) :
    (recordFinding new now).accepts s = true ↔ ∃ columns, new.Accepted s columns := by
  rw [Txn.accepts_iff]
  constructor
  · rintro ⟨⟨outcome, s'⟩, hrun⟩
    obtain ⟨columns, haccepted, _⟩ := recordFinding_ok.mp hrun
    exact ⟨columns, haccepted⟩
  · rintro ⟨columns, haccepted⟩
    obtain ⟨r, hwrite⟩ := writeRecord_runs now hsummary fun id f hexisting =>
      h id f (existing_some hexisting).1
    exact ⟨r, recordFinding_ok.mpr ⟨columns, haccepted, hwrite⟩⟩

/-! ## Recording twice -/

/-- The row a record leaves holds all of the record. -/
theorem Recorded.held (h : Recorded new columns now s s' outcome) (now' : Seconds) :
    s'.findings.get? outcome.id = some outcome.finding ∧ merge outcome.finding new now' = none := by
  cases h with
  | created hnone hrows =>
      refine ⟨?_, merge_created new columns now now'⟩
      rw [hrows, Table.get?_push s.findings.nextId_fresh, if_pos rfl]
  | same hsome hmerge hsame =>
      refine ⟨?_, merge_eq_none hmerge now'⟩
      rw [hsame]
      exact (existing_some hsome).1
  | merged hsome hmerge hrows =>
      refine ⟨?_, merge_merged hmerge now'⟩
      rw [hrows, Table.get?_modify_of_get (existing_some hsome).1, if_pos rfl]

/-- A row found by its problem is the problem's one row. -/
theorem FindingStore.Kept.existing (h : s.Kept history) (haccepted : new.Accepted s columns)
    (hget : s.findings.get? id = some f) (hproblem : f.problem = new.problem) :
    s.existing new columns = some (id, f) := by
  cases hexisting : s.existing new columns with
  | none =>
      have habout := (isAbout_iff (h.stored id f hget) haccepted.target).mpr hproblem
      rw [existing_none hexisting hget] at habout
      cases habout
  | some row =>
      obtain ⟨id', f'⟩ := row
      obtain ⟨hget', habout⟩ := existing_some hexisting
      have hsame := (isAbout_iff (h.stored id' f' hget') haccepted.target).mp habout
      obtain rfl := h.unique id' id f' f hget' hget (hsame.trans hproblem.symm)
      rw [hget'] at hget
      rw [Option.some.inj hget]

/-- Recording again what was just recorded is accepted and writes nothing. -/
theorem FindingStore.Kept.record_again (h : s.Kept history)
    (hrun : recordFinding new now s = .ok (outcome, s')) (now' : Seconds) :
    recordFinding new now' s' = .ok ({ outcome with created := false, changed := [] }, s') := by
  obtain ⟨columns, haccepted, hwrite⟩ := recordFinding_ok.mp hrun
  obtain ⟨hrecorded, hstore, hlog⟩ := writeRecord_ok hwrite
  obtain ⟨hget, hmerge⟩ := hrecorded.held now'
  obtain ⟨g, hrows, hrow⟩ := h.recorded haccepted hrecorded
  have hkept : s'.Kept (history ++ [(new.problem, new.evidence)]) := h.record hrow hstore hrows
  have hproblem : outcome.finding.problem = new.problem := by
    rw [hrows, if_pos rfl] at hget
    rw [← Option.some.inj hget]
    exact hrow.problem
  -- the events the record named are still there
  have haccepted' : new.Accepted s' columns := by
    refine ⟨haccepted.valid, hstore ▸ haccepted.target, fun id hid => ?_⟩
    obtain ⟨hpos, hle⟩ := haccepted.evidence id hid
    refine ⟨hpos, hle.trans ?_⟩
    show s.store.events.length + s.log.length ≤ s'.store.events.length + s'.log.length
    rw [hstore]
    exact Nat.add_le_add_left hlog.length_le _
  exact recordFinding_same haccepted' (hkept.existing haccepted' hget hproblem) hmerge

end Rows

/-- In every history of records and changes of status, among any other operations: a problem has one
row as soon as it is recorded; the row holds all of the evidence recorded for the problem, each event
once, and counts an occurrence for the first record and for each later one with evidence none before it
had; a record made again at once writes nothing; a dismissed finding stays dismissed, with its text, its
impact and its proposal mark; a resolved one is opened by a record with evidence it lacks, and by
nothing else; and a record is accepted exactly when it is valid, its target exists and its evidence does,
as long as the table takes its summary. -/
theorem findings_sum_their_records (ops : List FindingOp) :
    let s := findingQueue.run ops
    let history := recordedFrom findingQueue.init ops
    (∀ r ∈ history, ∃ id f, s.findings.get? id = some f ∧ f.problem = r.1) ∧
    (∀ id id' f f', s.findings.get? id = some f → s.findings.get? id' = some f' →
      f.problem = f'.problem → id = id') ∧
    (∀ id f, s.findings.get? id = some f →
      f.evidence.Nodup ∧
        (∀ event, event ∈ f.evidence ↔ ∃ evidence ∈ recordsOf history f.problem, event ∈ evidence) ∧
        ∃ first later, recordsOf history f.problem = first :: later ∧
          f.occurrences = 1 + news first later) ∧
    (∀ new now now' outcome s', recordFinding new now s = .ok (outcome, s') →
      recordFinding new now' s' = .ok ({ outcome with created := false, changed := [] }, s')) ∧
    (∀ id f, s.findings.get? id = some f → f.status = .dismissed → ∀ more,
      ∃ g, (findingQueue.run (ops ++ more)).findings.get? id = some g ∧ g.status = .dismissed ∧
        f.SameMark g) ∧
    (∀ id f op, s.findings.get? id = some f → f.status = .resolved →
      ∃ g, (findingQueue.next s op).findings.get? id = some g ∧
        (g.status = .open ↔ ∃ new now, op = .record new now ∧
          (recordFinding new now).accepts s = true ∧ new.problem = f.problem ∧
            ∃ event ∈ new.evidence, event ∉ f.evidence)) ∧
    ∀ new now, sqlNonBlank new.summary = true →
      ((recordFinding new now).accepts s = true ↔ ∃ columns, new.Accepted s columns) := by
  intro s history
  have hkept : s.Kept history := findings_kept ops
  refine ⟨hkept.known, hkept.unique, fun id f hget => ?_, fun new now now' outcome s' hrun => ?_,
    fun id f hget hstatus more => ?_, fun id f op hget hstatus => ?_,
    fun new now hsummary => (checked_run ops).accepts_iff hsummary⟩
  · obtain ⟨first, later, hrecords, hsum⟩ := hkept.counted id f hget
    refine ⟨?_, fun event => ?_, first, later, hrecords, hsum.occurrences⟩
    · rw [hsum.evidence]
      exact dedup_nodup _
    · rw [hsum.evidence, mem_dedup, hrecords, ← List.flatten_cons]
      exact List.mem_flatten
  · exact hkept.record_again hrun now'
  · rw [Machine.run_append]
    exact hkept.dismissed_runFrom hget hstatus more
  · obtain ⟨g, hget', hstep⟩ := hkept.row_next hget op
    exact ⟨g, hget', hstep.reopens_iff hstatus⟩

/-- The observer finds the queue stalled. -/
def stall (evidence : List RunEventId) : NewFinding where
  kind := "stall"
  target := .queue
  subject := ""
  summary := "no run ends"
  detail := none
  impact := none
  evidence
  propose := none
  by_ := "observer"

/-- The stall is found, seen again with the event of its first record, and resolved by hand. -/
def resolvedStall : List FindingOp :=
  [.record (stall []) 10, .record (stall [1]) 20, .setStatus 1 .resolved "a slot is free" "human" 30]

def stallRow : Finding where
  kind := "stall"
  target := .queue
  taskId := none
  runId := none
  goalId := none
  subject := ""
  summary := "no run ends"
  detail := ""
  impact := .normal
  firstSeenAt := 10
  lastSeenAt := 20
  occurrences := 2
  evidence := [1]
  status := .resolved
  statusReason := some "a slot is free"
  proposeReason := none
  proposeRequestedAt := none
  recordedBy := "observer"
  updatedAt := 30

theorem findings_sum_their_records_reopened :
    let s := findingQueue.run resolvedStall
    recordedFrom findingQueue.init resolvedStall =
      [((stall []).problem, []), ((stall []).problem, [1])] ∧
    s.findings.get? 1 = some stallRow ∧
    (recordFinding (stall [3]) 40).accepts s = true ∧
    ∃ g, (findingQueue.next s (.record (stall [3]) 40)).findings.get? 1 = some g ∧ g.status = .open := by
  intro s
  obtain ⟨_, _, _, _, _, hreopens, haccepts⟩ := findings_sum_their_records resolvedStall
  have hrow : s.findings.get? 1 = some stallRow := by decide
  have haccepted : (recordFinding (stall [3]) 40).accepts s = true :=
    (haccepts (stall [3]) 40 (by decide)).mpr ⟨{}, rfl, rfl, by decide⟩
  obtain ⟨g, hget, hopen⟩ := hreopens 1 stallRow (.record (stall [3]) 40) hrow rfl
  refine ⟨by decide, hrow, haccepted, g, hget, hopen.mpr ?_⟩
  exact ⟨stall [3], 40, rfl, haccepted, by decide, 3, List.mem_singleton_self 3, by decide⟩

end Dagq
