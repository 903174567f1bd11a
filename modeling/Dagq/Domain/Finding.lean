/-
# Dagq.Domain.Finding -- what the observer found wrong, one record per problem.

The same kind, target and subject is one problem.  Recording it again merges into the finding it has:
new evidence is one more occurrence, the rest of the record replaces what the finding says, and a record
that brings nothing new changes nothing.  What a record would still change is settled by the finding and
the record alone, which is why recording twice writes once.
-/
import Dagq.Domain.Values
import Mathlib.Data.List.Induction
import Mathlib.Logic.Basic
import Mathlib.Tactic.SplitIfs

namespace Dagq

/-- The id of a run event. -/
abbrev RunEventId := Nat

inductive FindingStatus
  | open | proposed | resolved | dismissed
  deriving DecidableEq

/-- The statuses that still ask for a remedy. -/
def FindingStatus.isUnsettled : FindingStatus → Bool
  | .open | .proposed => true
  | .resolved | .dismissed => false

inductive Impact
  | high | normal | low
  deriving DecidableEq

inductive TargetName
  | queue | goal | task | run
  deriving DecidableEq

/-- What a finding is about. -/
inductive FindingTarget
  | queue
  | goal (id : GoalId)
  | task (id : TaskId)
  | run (id : RunId)
  deriving DecidableEq

def FindingTarget.name : FindingTarget → TargetName
  | .queue => .queue
  | .goal _ => .goal
  | .task _ => .task
  | .run _ => .run

/-- A finding as stored, without its id. -/
structure Finding where
  kind : String
  target : TargetName
  /-- Also set for a run target. -/
  taskId : Option TaskId
  runId : Option RunId
  goalId : Option GoalId
  subject : String
  summary : String
  detail : String
  impact : Impact
  firstSeenAt : Seconds
  lastSeenAt : Seconds
  occurrences : Nat
  /-- The run events that show it, oldest record first. -/
  evidence : List RunEventId
  status : FindingStatus
  statusReason : Option String := none
  proposalId : Option ProposalId := none
  proposeReason : Option String
  proposeRequestedAt : Option Seconds
  recordedBy : String
  updatedAt : Seconds
  deriving DecidableEq

/-- A finding to record: a new one, or an occurrence of an existing one. -/
structure NewFinding where
  kind : String
  target : FindingTarget
  subject : String
  summary : String
  /-- `none` keeps an existing finding's detail. -/
  detail : Option String
  /-- `none` keeps an existing finding's impact. -/
  impact : Option Impact
  evidence : List RunEventId
  propose : Option String
  by_ : String

/-- A rejection of a record or of a change of status. -/
inductive FindingError
  | invalidKind (kind : String)
  | blank (field : String)
  | nonPositiveId (field : String)
  | notInStatus (id : FindingId) (status target : FindingStatus)

/-- A slug of at most 64 bytes. -/
def isFindingKind (kind : String) : Bool :=
  !kind.isEmpty && kind.toList.length ≤ 64 &&
    kind.toList.all fun c => c.isLower || c.isDigit || c = '-' || c = '_'

/-- Fails with `error` unless `condition` holds. -/
def requireFinding (condition : Bool) (error : FindingError) : Except FindingError Unit :=
  if condition then .ok () else .error error

def NewFinding.validate (new : NewFinding) : Except FindingError Unit := do
  requireFinding (isFindingKind new.kind) (.invalidKind new.kind)
  requireFinding (!isBlank new.summary) (.blank "finding summary")
  requireFinding (new.propose.all fun reason => !isBlank reason) (.blank "propose reason")
  requireFinding (!isBlank new.by_) (.blank "recorded_by")
  requireFinding (new.evidence.all fun id => 0 < id) (.nonPositiveId "evidence event ID")

theorem dedup_concat {α : Type} [DecidableEq α] (xs : List α) (y : α) :
    dedup (xs ++ [y]) = if y ∈ dedup xs then dedup xs else dedup xs ++ [y] := by
  unfold dedup
  rw [List.foldl_append]
  rfl

/-- What comes later adds what it does not repeat. -/
theorem dedup_append {α : Type} [DecidableEq α] (xs ys : List α) :
    dedup (xs ++ ys) = dedup xs ++ (dedup ys).filter fun y => y ∉ dedup xs := by
  induction ys using List.reverseRecOn with
  | nil => exact (congrArg dedup (List.append_nil xs)).trans (List.append_nil _).symm
  | append_singleton ys y ih =>
      rw [← List.append_assoc, dedup_concat, dedup_concat, ih]
      simp only [List.mem_append, List.mem_filter, mem_dedup, decide_eq_true_eq]
      by_cases hx : y ∈ xs
      · rw [if_pos (.inl hx)]
        split_ifs
        · rfl
        · simp [hx]
      · by_cases hy : y ∈ ys
        · rw [if_pos (.inr ⟨hy, hx⟩), if_pos hy]
        · rw [if_neg (fun h => h.elim hx fun h => hy h.1), if_neg hy]
          simp [hx]

/-- The evidence without repeats, in the given order. -/
def NewFinding.distinctEvidence (new : NewFinding) : List RunEventId := dedup new.evidence

/-! ## Merging -/

/-- A finding being merged into, and the fields changed so far. -/
structure Merging where
  finding : Finding
  changed : List String := []

/-- One change of the merge, made where it is called for. -/
def Merging.set (m : Merging) (due : Bool) (fields : List String) (change : Finding → Finding) : Merging :=
  if due then { finding := change m.finding, changed := m.changed ++ fields } else m

/-- New evidence is one more occurrence, seen now. -/
def Merging.occur (m : Merging) (added : List RunEventId) (now : Seconds) : Merging :=
  m.set (!added.isEmpty) ["evidence", "occurrences", "last_seen_at"] fun f =>
    { f with evidence := f.evidence ++ added, occurrences := f.occurrences + 1, lastSeenAt := now }

def Merging.reopen (m : Merging) (reopened : Bool) : Merging :=
  m.set reopened ["status"] fun f => { f with status := .open, statusReason := none }

def Merging.summary (m : Merging) (new : NewFinding) : Merging :=
  m.set (new.summary ≠ m.finding.summary) ["summary"] fun f => { f with summary := new.summary }

def Merging.detail (m : Merging) (new : NewFinding) : Merging :=
  match new.detail with
  | some detail => m.set (detail ≠ m.finding.detail) ["detail"] fun f => { f with detail }
  | none => m

def Merging.impact (m : Merging) (new : NewFinding) : Merging :=
  match new.impact with
  | some impact => m.set (impact ≠ m.finding.impact) ["impact"] fun f => { f with impact }
  | none => m

def Merging.propose (m : Merging) (new : NewFinding) (now : Seconds) : Merging :=
  match new.propose with
  | some reason => m.set (m.finding.proposeReason.isNone && m.finding.status = .open) ["propose_reason"]
      fun f => { f with proposeReason := some reason, proposeRequestedAt := some now }
  | none => m

/-- What a record says replaces what the finding says; nobody chose to remedy a dismissed one. -/
def Merging.revise (m : Merging) (new : NewFinding) (now : Seconds) : Merging :=
  if m.finding.status = .dismissed then m
  else (((m.summary new).detail new).impact new).propose new now

/-- What recording an existing finding again changed. -/
structure FindingUpdate where
  finding : Finding
  addedEvidence : List RunEventId
  occurred : Bool
  reopened : Bool
  changed : List String

/-- The evidence a finding does not hold yet. -/
def Finding.missing (f : Finding) (new : NewFinding) : List RunEventId :=
  new.distinctEvidence.filter fun id => id ∉ f.evidence

/-- The finding as `new` leaves it, and the fields that differ. -/
def Finding.merged (f : Finding) (new : NewFinding) (now : Seconds) : Merging :=
  let added := f.missing new
  ((Merging.occur { finding := f } added now).reopen
    (!added.isEmpty && f.status = .resolved)).revise new now

/-- Record `new` onto the finding of the same problem; `none` when nothing would change. -/
def merge (existing : Finding) (new : NewFinding) (now : Seconds) : Option FindingUpdate :=
  let added := existing.missing new
  let merged := existing.merged new now
  if merged.changed.isEmpty then none
  else some {
    finding := { merged.finding with updatedAt := now }
    addedEvidence := added
    occurred := !added.isEmpty
    reopened := !added.isEmpty && existing.status = .resolved
    changed := merged.changed }

/-- The columns a target is stored as. -/
structure TargetColumns where
  taskId : Option TaskId := none
  runId : Option RunId := none
  goalId : Option GoalId := none
  deriving DecidableEq

/-- The finding a first record makes. -/
def NewFinding.created (new : NewFinding) (columns : TargetColumns) (now : Seconds) : Finding where
  kind := new.kind
  target := new.target.name
  taskId := columns.taskId
  runId := columns.runId
  goalId := columns.goalId
  subject := new.subject
  summary := new.summary
  detail := new.detail.getD ""
  impact := new.impact.getD .normal
  firstSeenAt := now
  lastSeenAt := now
  occurrences := 1
  evidence := new.distinctEvidence
  status := .open
  proposeReason := new.propose
  proposeRequestedAt := new.propose.map fun _ => now
  recordedBy := new.by_
  updatedAt := now

/-- Whether a finding may become `target` by hand. -/
def checkTransition (id : FindingId) (f : Finding) (target : FindingStatus) : Except FindingError Unit :=
  let allowed := match target with
    | .resolved => f.status.isUnsettled
    | .dismissed => f.status ≠ .dismissed
    | .open | .proposed => false
  requireFinding allowed (.notInStatus id f.status target)

/-! ## What a merge changes -/

namespace Merging

variable {m : Merging} {due : Bool} {fields : List String} {change : Finding → Finding}
  {new : NewFinding} {now : Seconds} {added : List RunEventId}

theorem set_eq_self (h : due = false) : m.set due fields change = m := by
  rw [set, h, if_neg Bool.false_ne_true]

theorem set_changed (hfields : fields ≠ []) :
    (m.set due fields change).changed = [] ↔ m.changed = [] ∧ due = false := by
  cases due with
  | false => exact (and_iff_left rfl).symm
  | true =>
      refine iff_of_false (fun h => hfields (List.append_eq_nil_iff.mp h).2) fun h => ?_
      exact absurd h.2 (by decide)

theorem set_finding : (m.set due fields change).finding = if due then change m.finding else m.finding := by
  unfold set
  split_ifs <;> rfl

theorem summary_finding : (m.summary new).finding = { m.finding with summary := new.summary } := by
  rw [summary, set_finding]
  split_ifs with h
  · rfl
  · rw [Decidable.of_not_not fun hne => h (decide_eq_true hne)]

theorem detail_finding :
    (m.detail new).finding = { m.finding with detail := new.detail.getD m.finding.detail } := by
  unfold detail
  cases new.detail with
  | none => rfl
  | some text =>
      dsimp only [Option.getD_some]
      rw [set_finding]
      split_ifs with h
      · rfl
      · rw [Decidable.of_not_not fun hne => h (decide_eq_true hne)]

theorem impact_finding :
    (m.impact new).finding = { m.finding with impact := new.impact.getD m.finding.impact } := by
  unfold impact
  cases new.impact with
  | none => rfl
  | some impact =>
      dsimp only [Option.getD_some]
      rw [set_finding]
      split_ifs with h
      · rfl
      · rw [Decidable.of_not_not fun hne => h (decide_eq_true hne)]

end Merging

/-- The proposal a record asks for, where the finding is open and has none asked for. -/
def Finding.asked (f : Finding) (new : NewFinding) (now : Seconds) : Finding :=
  match new.propose with
  | some reason =>
      if f.proposeReason.isNone && f.status = .open then
        { f with proposeReason := some reason, proposeRequestedAt := some now }
      else f
  | none => f

theorem Merging.propose_finding {m : Merging} {new : NewFinding} {now : Seconds} :
    (m.propose new now).finding = m.finding.asked new now := by
  unfold propose Finding.asked
  cases new.propose with
  | none => rfl
  | some reason => exact set_finding

/-- The finding as a record revises it. -/
def Finding.revised (f : Finding) (new : NewFinding) (now : Seconds) : Finding :=
  ({ f with
      summary := new.summary
      detail := new.detail.getD f.detail
      impact := new.impact.getD f.impact } : Finding).asked new now

/-- The finding as new evidence leaves it: a resolved one occurred again. -/
def Finding.occurred (f : Finding) (added : List RunEventId) (now : Seconds) : Finding :=
  if added = [] then f
  else if f.status = .resolved then
    { f with
      evidence := f.evidence ++ added
      occurrences := f.occurrences + 1
      lastSeenAt := now
      status := .open
      statusReason := none }
  else
    { f with
      evidence := f.evidence ++ added
      occurrences := f.occurrences + 1
      lastSeenAt := now }

/-- The finding a merge leaves. -/
theorem merged_finding (f : Finding) (new : NewFinding) (now : Seconds) :
    (f.merged new now).finding =
      if (f.occurred (f.missing new) now).status = .dismissed then f.occurred (f.missing new) now
      else (f.occurred (f.missing new) now).revised new now := by
  have hoccurred : ((Merging.occur { finding := f } (f.missing new) now).reopen
      (!(f.missing new).isEmpty && f.status = .resolved)).finding = f.occurred (f.missing new) now := by
    rw [Merging.reopen, Merging.set_finding, Merging.occur, Merging.set_finding, Finding.occurred]
    by_cases hnone : f.missing new = []
    · simp [hnone]
    · by_cases hresolved : f.status = .resolved
      · simp [hnone, hresolved]
      · simp [hnone, hresolved]
  unfold Finding.merged
  dsimp only
  rw [Merging.revise, hoccurred]
  split_ifs
  · exact hoccurred
  · rw [Merging.propose_finding, Merging.impact_finding, Merging.detail_finding, Merging.summary_finding,
      hoccurred]
    rfl

/-! ## When a merge changes nothing -/

variable {f : Finding} {new : NewFinding} {now : Seconds} {m : Merging}

theorem Merging.summary_changed :
    (m.summary new).changed = [] ↔ m.changed = [] ∧ new.summary = m.finding.summary := by
  rw [summary, set_changed (by decide), decide_eq_false_iff_not, not_not]

theorem Merging.detail_changed :
    (m.detail new).changed = [] ↔ m.changed = [] ∧ new.detail.getD m.finding.detail = m.finding.detail := by
  unfold detail
  cases new.detail with
  | none => exact (and_iff_left rfl).symm
  | some detail => exact (set_changed (by decide)).trans (by rw [decide_eq_false_iff_not, not_not]; rfl)

theorem Merging.impact_changed :
    (m.impact new).changed = [] ↔ m.changed = [] ∧ new.impact.getD m.finding.impact = m.finding.impact := by
  unfold impact
  cases new.impact with
  | none => exact (and_iff_left rfl).symm
  | some impact => exact (set_changed (by decide)).trans (by rw [decide_eq_false_iff_not, not_not]; rfl)

theorem Merging.propose_changed :
    (m.propose new now).changed = [] ↔ m.changed = [] ∧ m.finding.asked new now = m.finding := by
  unfold propose Finding.asked
  cases new.propose with
  | none => exact (and_iff_left rfl).symm
  | some reason =>
      dsimp only
      rw [set_changed (by decide)]
      refine and_congr_right fun _ => ?_
      cases hdue : m.finding.proposeReason.isNone && m.finding.status = .open with
      | false => simp
      | true =>
          refine iff_of_false (by decide) fun hsame => ?_
          have hreason : m.finding.proposeReason = some reason := by
            rw [← hsame]
            rfl
          rw [hreason] at hdue
          exact absurd hdue Bool.false_ne_true

/-- Asking for a proposal leaves what the finding says. -/
theorem asked_said (f : Finding) (new : NewFinding) (now : Seconds) :
    (f.asked new now).summary = f.summary ∧ (f.asked new now).detail = f.detail ∧
      (f.asked new now).impact = f.impact := by
  unfold Finding.asked
  split
  · split_ifs <;> exact ⟨rfl, rfl, rfl⟩
  · exact ⟨rfl, rfl, rfl⟩

theorem asked_eq_self (h : ∀ reason ∈ new.propose, (f.proposeReason.isNone && f.status = .open) = false) :
    f.asked new now = f := by
  unfold Finding.asked
  split
  · rename_i reason hreason
    rw [h reason hreason, if_neg Bool.false_ne_true]
  · rfl

/-- Once asked for, a proposal is not asked for again. -/
theorem asked_due (f : Finding) (new : NewFinding) (now : Seconds) : ∀ reason ∈ new.propose,
    ((f.asked new now).proposeReason.isNone && (f.asked new now).status = .open) = false := by
  intro reason hreason
  unfold Finding.asked
  rw [Option.mem_def.mp hreason]
  dsimp only
  split_ifs with hdue
  · rfl
  · exact Bool.eq_false_iff.mpr hdue

theorem revised_eq_iff : f.revised new now = f ↔
    ((new.summary = f.summary ∧ new.detail.getD f.detail = f.detail) ∧
      new.impact.getD f.impact = f.impact) ∧ f.asked new now = f := by
  obtain ⟨hsummary, hdetail, himpact⟩ := asked_said
    { f with
      summary := new.summary
      detail := new.detail.getD f.detail
      impact := new.impact.getD f.impact } new now
  constructor
  · intro h
    have hs : new.summary = f.summary := hsummary.symm.trans (congrArg Finding.summary h)
    have hd : new.detail.getD f.detail = f.detail := hdetail.symm.trans (congrArg Finding.detail h)
    have hi : new.impact.getD f.impact = f.impact := himpact.symm.trans (congrArg Finding.impact h)
    unfold Finding.revised at h
    rw [hs, hd, hi] at h
    exact ⟨⟨⟨hs, hd⟩, hi⟩, h⟩
  · rintro ⟨⟨⟨hs, hd⟩, hi⟩, ha⟩
    rw [Finding.revised, hs, hd, hi]
    exact ha

theorem Merging.revise_changed (h : m.finding.status ≠ .dismissed) :
    (m.revise new now).changed = [] ↔ m.changed = [] ∧ m.finding.revised new now = m.finding := by
  rw [revise, if_neg h, propose_changed, impact_changed, detail_changed, summary_changed,
    impact_finding, detail_finding, summary_finding, revised_eq_iff]
  constructor
  · rintro ⟨⟨⟨⟨hm, hs⟩, hd⟩, hi⟩, ha⟩
    dsimp only at hd hi ha
    rw [hs, hd, hi] at ha
    exact ⟨hm, ⟨⟨hs, hd⟩, hi⟩, ha⟩
  · rintro ⟨hm, ⟨⟨hs, hd⟩, hi⟩, ha⟩
    dsimp only
    rw [hs, hd, hi]
    exact ⟨⟨⟨⟨hm, rfl⟩, rfl⟩, rfl⟩, ha⟩

theorem Merging.changed_of_revise (h : (m.revise new now).changed = []) : m.changed = [] := by
  by_cases hstatus : m.finding.status = .dismissed
  · rwa [revise, if_pos hstatus] at h
  · exact ((revise_changed hstatus).mp h).1

/-- A merge that changes no field is one into a finding that holds all of the record. -/
theorem merged_changed : (f.merged new now).changed = [] ↔
    f.missing new = [] ∧ (f.status ≠ .dismissed → f.revised new now = f) := by
  unfold Finding.merged
  dsimp only
  by_cases hmissing : f.missing new = []
  · have hoccur : (Merging.occur { finding := f } (f.missing new) now).reopen
        (!(f.missing new).isEmpty && f.status = .resolved) = { finding := f } := by
      rw [Merging.reopen, Merging.set_eq_self (by rw [hmissing]; rfl), Merging.occur,
        Merging.set_eq_self (by rw [hmissing]; rfl)]
    rw [hoccur, and_iff_right hmissing]
    by_cases hstatus : f.status = .dismissed
    · rw [Merging.revise, if_pos hstatus]
      exact iff_of_true rfl fun hne => absurd hstatus hne
    · rw [Merging.revise_changed hstatus]
      exact ⟨fun h _ => h.2, fun h => ⟨rfl, h hstatus⟩⟩
  · refine iff_of_false (fun h => ?_) fun h => hmissing h.1
    have hoccur := ((Merging.set_changed (by decide)).mp (Merging.changed_of_revise h)).1
    obtain ⟨_, hnone⟩ := (Merging.set_changed (by decide)).mp hoccur
    exact hmissing (List.isEmpty_iff.mp ((Bool.not_eq_false' _).mp hnone))

theorem merge_eq_none_iff : merge f new now = none ↔
    f.missing new = [] ∧ (f.status ≠ .dismissed → f.revised new now = f) := by
  rw [← merged_changed]
  unfold merge
  dsimp only
  split_ifs with hempty
  · exact iff_of_true rfl (List.isEmpty_iff.mp hempty)
  · exact iff_of_false id fun hnil => hempty (List.isEmpty_iff.mpr hnil)

/-- When a record has been held, it is held whenever it comes. -/
theorem merge_eq_none (h : merge f new now = none) (now' : Seconds) : merge f new now' = none := by
  obtain ⟨hmissing, hsaid⟩ := merge_eq_none_iff.mp h
  refine merge_eq_none_iff.mpr ⟨hmissing, fun hstatus => ?_⟩
  obtain ⟨hsame, hasked⟩ := revised_eq_iff.mp (hsaid hstatus)
  refine revised_eq_iff.mpr ⟨hsame, ?_⟩
  -- a proposal that is due would have set the reason the finding lacks
  refine (asked_eq_self fun reason hreason => ?_)
  rw [← hasked]
  exact asked_due f new now reason hreason

theorem merge_eq_some {update : FindingUpdate} (h : merge f new now = some update) :
    update = {
      finding := { (f.merged new now).finding with updatedAt := now }
      addedEvidence := f.missing new
      occurred := !(f.missing new).isEmpty
      reopened := !(f.missing new).isEmpty && f.status = .resolved
      changed := (f.merged new now).changed } := by
  unfold merge at h
  dsimp only at h
  split_ifs at h
  exact (Option.some.inj h).symm

/-! ## Recording twice -/

theorem occurred_evidence (f : Finding) (added : List RunEventId) (now : Seconds) :
    (f.occurred added now).evidence = f.evidence ++ added := by
  unfold Finding.occurred
  split_ifs with hnone
  · rw [hnone, List.append_nil]
  · rfl
  · rfl

theorem asked_evidence (f : Finding) (new : NewFinding) (now : Seconds) :
    (f.asked new now).evidence = f.evidence ∧ (f.asked new now).status = f.status := by
  unfold Finding.asked
  split
  · split_ifs <;> exact ⟨rfl, rfl⟩
  · exact ⟨rfl, rfl⟩

theorem merged_evidence (f : Finding) (new : NewFinding) (now : Seconds) :
    (f.merged new now).finding.evidence = f.evidence ++ f.missing new := by
  rw [merged_finding]
  split_ifs
  · exact occurred_evidence f _ now
  · rw [Finding.revised, (asked_evidence _ new now).1]
    exact occurred_evidence f _ now

theorem missing_merged (f : Finding) (new : NewFinding) :
    new.distinctEvidence.filter (fun id => id ∉ f.evidence ++ f.missing new) = [] := by
  refine List.filter_eq_nil_iff.mpr fun id hid => ?_
  rw [decide_eq_true_eq, not_not]
  by_cases hold : id ∈ f.evidence
  · exact List.mem_append_left _ hold
  · exact List.mem_append_right _ (List.mem_filter.mpr ⟨hid, decide_eq_true hold⟩)

/-- What a record has revised, it does not revise again. -/
theorem revised_revised (f : Finding) (new : NewFinding) (now now' at_ : Seconds) :
    ({ f.revised new now with updatedAt := at_ } : Finding).revised new now' =
      { f.revised new now with updatedAt := at_ } := by
  obtain ⟨hsummary, hdetail, himpact⟩ := asked_said
    { f with
      summary := new.summary
      detail := new.detail.getD f.detail
      impact := new.impact.getD f.impact } new now
  refine revised_eq_iff.mpr ⟨⟨⟨hsummary.symm, ?_⟩, ?_⟩, asked_eq_self fun reason hreason => ?_⟩
  · show new.detail.getD (Finding.asked _ new now).detail = (Finding.asked _ new now).detail
    rw [hdetail]
    cases new.detail <;> rfl
  · show new.impact.getD (Finding.asked _ new now).impact = (Finding.asked _ new now).impact
    rw [himpact]
    cases new.impact <;> rfl
  · exact asked_due _ new now reason hreason

/-- A finding holds all of a record merged into it. -/
theorem merge_merged {update : FindingUpdate} (h : merge f new now = some update) (now' : Seconds) :
    merge update.finding new now' = none := by
  obtain rfl := merge_eq_some h
  refine merge_eq_none_iff.mpr ⟨?_, fun hstatus => ?_⟩
  · show new.distinctEvidence.filter (fun id => id ∉ (f.merged new now).finding.evidence) = []
    rw [merged_evidence]
    exact missing_merged f new
  · replace hstatus : (f.merged new now).finding.status ≠ .dismissed := hstatus
    show ({ (f.merged new now).finding with updatedAt := now } : Finding).revised new now' =
      { (f.merged new now).finding with updatedAt := now }
    have hmerged := merged_finding f new now
    split_ifs at hmerged with hdismissed
    · rw [hmerged] at hstatus
      exact absurd hdismissed hstatus
    · rw [hmerged]
      exact revised_revised _ new now now' now

/-- So does the finding a record made. -/
theorem merge_created (new : NewFinding) (columns : TargetColumns) (now now' : Seconds) :
    merge (new.created columns now) new now' = none := by
  refine merge_eq_none_iff.mpr ⟨List.filter_eq_nil_iff.mpr fun id hid => ?_, fun _ => ?_⟩
  · rw [decide_eq_true_eq, not_not]
    exact hid
  · refine revised_eq_iff.mpr ⟨⟨⟨rfl, ?_⟩, ?_⟩, asked_eq_self fun reason hreason => ?_⟩
    · show new.detail.getD (new.detail.getD "") = new.detail.getD ""
      cases new.detail <;> rfl
    · show new.impact.getD (new.impact.getD .normal) = new.impact.getD .normal
      cases new.impact <;> rfl
    · show (new.propose.isNone && _) = false
      rw [Option.mem_def.mp hreason]
      rfl

/-! ## What a merge keeps -/

/-- Where a finding is stored under. -/
structure Place where
  kind : String
  target : TargetName
  columns : TargetColumns
  subject : String
  deriving DecidableEq

def Finding.place (f : Finding) : Place where
  kind := f.kind
  target := f.target
  columns := { taskId := f.taskId, runId := f.runId, goalId := f.goalId }
  subject := f.subject

theorem asked_eq (f : Finding) (new : NewFinding) (now : Seconds) : ∃ reason requestedAt,
    f.asked new now = { f with proposeReason := reason, proposeRequestedAt := requestedAt } := by
  unfold Finding.asked
  split
  · split_ifs
    · exact ⟨_, _, rfl⟩
    · exact ⟨_, _, rfl⟩
  · exact ⟨_, _, rfl⟩

theorem revised_eq (f : Finding) (new : NewFinding) (now : Seconds) :
    ∃ summary detail impact reason requestedAt, f.revised new now =
      { f with summary, detail, impact, proposeReason := reason, proposeRequestedAt := requestedAt } := by
  obtain ⟨reason, requestedAt, hasked⟩ := asked_eq
    { f with
      summary := new.summary
      detail := new.detail.getD f.detail
      impact := new.impact.getD f.impact } new now
  exact ⟨_, _, _, reason, requestedAt, hasked⟩

/-- A merge moves a finding's occurrences and status as new evidence does. -/
theorem merged_eq (f : Finding) (new : NewFinding) (now : Seconds) :
    ∃ summary detail impact reason requestedAt, (f.merged new now).finding =
      { f.occurred (f.missing new) now with
        summary, detail, impact, proposeReason := reason, proposeRequestedAt := requestedAt } := by
  rw [merged_finding]
  split_ifs
  · exact ⟨_, _, _, _, _, rfl⟩
  · exact revised_eq _ new now

theorem occurred_place (f : Finding) (added : List RunEventId) (now : Seconds) :
    (f.occurred added now).place = f.place := by
  unfold Finding.occurred
  split_ifs <;> rfl

theorem occurred_occurrences (f : Finding) (added : List RunEventId) (now : Seconds) :
    (f.occurred added now).occurrences = f.occurrences + if added = [] then 0 else 1 := by
  unfold Finding.occurred
  split_ifs <;> rfl

theorem occurred_status (f : Finding) (added : List RunEventId) (now : Seconds) :
    (f.occurred added now).status =
      if added ≠ [] ∧ f.status = .resolved then .open else f.status := by
  unfold Finding.occurred
  by_cases hnone : added = []
  · simp [hnone]
  · by_cases hresolved : f.status = .resolved
    · simp [hnone, hresolved]
    · simp [hnone, hresolved]

variable {update : FindingUpdate}

/-- What a merge leaves of a finding's place and counts. -/
theorem merge_spec (h : merge f new now = some update) :
    update.finding.place = f.place ∧
      update.finding.evidence = f.evidence ++ f.missing new ∧
      update.finding.occurrences = f.occurrences + (if f.missing new = [] then 0 else 1) ∧
      update.finding.status =
        if f.missing new ≠ [] ∧ f.status = .resolved then .open else f.status := by
  obtain rfl := merge_eq_some h
  obtain ⟨_, _, _, _, _, hmerged⟩ := merged_eq f new now
  dsimp only
  rw [hmerged]
  exact ⟨occurred_place f _ now, occurred_evidence f _ now, occurred_occurrences f _ now,
    occurred_status f _ now⟩

/-- A merge leaves the finding's own summary or the record's. -/
theorem merge_summary (h : merge f new now = some update) :
    update.finding.summary = f.summary ∨ update.finding.summary = new.summary := by
  have hoccurred : (f.occurred (f.missing new) now).summary = f.summary := by
    unfold Finding.occurred
    split_ifs <;> rfl
  obtain rfl := merge_eq_some h
  dsimp only
  rw [merged_finding]
  split_ifs
  · exact .inl hoccurred
  · exact .inr (asked_said _ new now).1

/-- The text, the impact and the proposal mark. -/
structure Finding.SameMark (f g : Finding) : Prop where
  summary : g.summary = f.summary
  detail : g.detail = f.detail
  impact : g.impact = f.impact
  proposeReason : g.proposeReason = f.proposeReason
  proposeRequestedAt : g.proposeRequestedAt = f.proposeRequestedAt
  proposalId : g.proposalId = f.proposalId

theorem Finding.SameMark.refl (f : Finding) : f.SameMark f := ⟨rfl, rfl, rfl, rfl, rfl, rfl⟩

theorem Finding.SameMark.trans {f g k : Finding} (h : f.SameMark g) (h' : g.SameMark k) : f.SameMark k where
  summary := h'.summary.trans h.summary
  detail := h'.detail.trans h.detail
  impact := h'.impact.trans h.impact
  proposeReason := h'.proposeReason.trans h.proposeReason
  proposeRequestedAt := h'.proposeRequestedAt.trans h.proposeRequestedAt
  proposalId := h'.proposalId.trans h.proposalId

/-- A record onto a dismissed finding only counts the occurrence. -/
theorem merge_dismissed (h : merge f new now = some update) (hstatus : f.status = .dismissed) :
    update.finding.status = .dismissed ∧ f.SameMark update.finding := by
  obtain rfl := merge_eq_some h
  have hoccurred : (f.occurred (f.missing new) now).status = .dismissed ∧
      f.SameMark (f.occurred (f.missing new) now) := by
    unfold Finding.occurred
    split_ifs with _ hresolved
    · exact ⟨hstatus, ⟨rfl, rfl, rfl, rfl, rfl, rfl⟩⟩
    · rw [hresolved] at hstatus
      cases hstatus
    · exact ⟨hstatus, ⟨rfl, rfl, rfl, rfl, rfl, rfl⟩⟩
  have hmerged := merged_finding f new now
  rw [if_pos hoccurred.1] at hmerged
  dsimp only
  rw [hmerged]
  exact ⟨hoccurred.1, ⟨hoccurred.2.summary, hoccurred.2.detail, hoccurred.2.impact,
    hoccurred.2.proposeReason, hoccurred.2.proposeRequestedAt, hoccurred.2.proposalId⟩⟩

end Dagq
