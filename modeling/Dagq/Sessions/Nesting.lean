/-
# Dagq.Sessions.Nesting -- spans are opened and closed one by one.

Whatever is recorded in whatever order, a `session_closed` names one `session_opened` before it, and no
other names the same.  What a write leaves open is what was open, less what it closes, and at most one
span more; of a run only an event of a run's scope opens one.
-/
import Dagq.Sessions.Spans
import Mathlib.Data.List.Nodup

namespace Dagq.Sessions

open Lib

/-! ## The open spans of a log -/

/-- A span as its `session_opened` row has it. -/
structure Span where
  id : Nat
  taskId : Option TaskId
  runId : Option RunId
  payload : SpanPayload
  deriving DecidableEq

def Span.toOpen (s : Span) : OpenSpan := ⟨s.id, s.payload⟩

/-- The span the row opens. -/
def Row.span? (row : Row) : Option Span :=
  match row.body with
  | .opened payload => some ⟨row.id, row.taskId, row.runId, payload⟩
  | _ => none

theorem Row.span?_opened {row : Row} {p : SpanPayload} (h : row.body = .opened p) :
    row.span? = some ⟨row.id, row.taskId, row.runId, p⟩ := by
  unfold Row.span?
  rw [h]

/-- Every span ever opened. -/
def Log.spans (log : Log) : List Span := log.rows.filterMap Row.span?

/-- The spans closed, once for each time. -/
def Log.closedIds (log : Log) : List Nat := log.rows.filterMap Row.closes

/-- The spans no row closed. -/
def Log.openNow (log : Log) : List Span := log.spans.filter fun s => decide (s.id ∉ log.closedIds)

/-- Ids increase; each `session_closed` names a `session_opened` before it, of its own task and run; no
two name the same. -/
structure WellNested (taskOf : RunId → TaskId) (log : Log) : Prop where
  increasing : log.rows.Pairwise (·.id < ·.id)
  fresh : ∀ row ∈ log.rows, row.id < log.nextId
  names : ∀ c ∈ log.rows, ∀ id, c.closes = some id →
    ∃ s ∈ log.spans, s.id = id ∧ id < c.id ∧ s.taskId = c.taskId ∧ s.runId = c.runId
  once : log.closedIds.Nodup
  tasks : ∀ s ∈ log.spans, ∀ r, s.runId = some r → s.taskId = some (taskOf r)

section Insert

variable {taskOf : RunId → TaskId} {log : Log} {taskId : Option TaskId} {runId : Option RunId}

theorem filterMap_singleton {α β : Type} (f : α → Option β) (a : α) :
    [a].filterMap f = (f a).toList := by
  cases h : f a <;> simp [h]

theorem spans_insert (body : Body) : (log.insert taskId runId body).spans =
    log.spans ++ (Row.span? ⟨log.nextId, taskId, runId, body⟩).toList := by
  rw [Log.spans, Log.insert, List.filterMap_append, filterMap_singleton]
  rfl

theorem closedIds_insert (body : Body) : (log.insert taskId runId body).closedIds =
    log.closedIds ++ (Row.closes ⟨log.nextId, taskId, runId, body⟩).toList := by
  rw [Log.closedIds, Log.insert, List.filterMap_append, filterMap_singleton]
  rfl

/-- A span of the log has a row. -/
theorem row_of_span {s : Span} (h : s ∈ log.spans) : ∃ row ∈ log.rows, row.id = s.id := by
  obtain ⟨row, hrow, hspan⟩ := List.mem_filterMap.mp h
  unfold Row.span? at hspan
  split at hspan
  · cases hspan
    exact ⟨row, hrow, rfl⟩
  · cases hspan

theorem WellNested.span_fresh (h : WellNested taskOf log) {s : Span} (hs : s ∈ log.spans) :
    s.id < log.nextId := by
  obtain ⟨row, hrow, hid⟩ := row_of_span hs
  rw [← hid]
  exact h.fresh row hrow

theorem WellNested.closed_fresh (h : WellNested taskOf log) {id : Nat} (hid : id ∈ log.closedIds) :
    id < log.nextId := by
  obtain ⟨c, hc, hcloses⟩ := List.mem_filterMap.mp hid
  obtain ⟨s, hs, rfl, -⟩ := h.names c hc id hcloses
  exact h.span_fresh hs

/-- Two rows have two ids. -/
theorem WellNested.row_eq (h : WellNested taskOf log) {row row' : Row} (hrow : row ∈ log.rows)
    (hrow' : row' ∈ log.rows) (hid : row.id = row'.id) : row = row' := by
  have hnodup : (log.rows.map (·.id)).Nodup :=
    (List.pairwise_map.mpr h.increasing).imp fun hlt => Nat.ne_of_lt hlt
  exact List.inj_on_of_nodup_map hnodup hrow hrow' hid

/-- Two spans have two ids. -/
theorem WellNested.span_eq (h : WellNested taskOf log) {s s' : Span} (hs : s ∈ log.spans)
    (hs' : s' ∈ log.spans) (hid : s.id = s'.id) : s = s' := by
  obtain ⟨row, hrow, hspan⟩ := List.mem_filterMap.mp hs
  obtain ⟨row', hrow', hspan'⟩ := List.mem_filterMap.mp hs'
  have hids : row.id = row'.id := by
    unfold Row.span? at hspan hspan'
    split at hspan <;> split at hspan' <;> simp_all
    rw [← hspan, ← hspan'] at hid
    exact hid
  rw [h.row_eq hrow hrow' hids, hspan'] at hspan
  exact (Option.some.inj hspan).symm

theorem WellNested.ids_nodup (h : WellNested taskOf log) : (log.spans.map (·.id)).Nodup := by
  have hids : log.spans.map (·.id) =
      (log.rows.filter fun row => row.span?.isSome).map (·.id) := by
    rw [Log.spans, List.map_filterMap, ← List.filterMap_eq_map, List.filterMap_filter]
    refine List.filterMap_congr fun row _ => ?_
    cases hp : row.body <;> simp [Row.span?, hp]
  rw [hids]
  refine List.Pairwise.imp (fun hlt => Nat.ne_of_lt hlt) (List.pairwise_map.mpr ?_)
  exact h.increasing.filter _

/-- Any row keeps the log well nested, if what it closes is open, of its task and run, and what it opens
is on its run's task. -/
theorem WellNested.insert (h : WellNested taskOf log) {body : Body}
    (hcloses : ∀ id, Row.closes ⟨log.nextId, taskId, runId, body⟩ = some id →
      ∃ s ∈ log.openNow, s.id = id ∧ s.taskId = taskId ∧ s.runId = runId)
    (htask : ∀ r, runId = some r → taskId = some (taskOf r)) :
    WellNested taskOf (log.insert taskId runId body) := by
  refine ⟨?_, ?_, ?_, ?_, ?_⟩
  · refine List.pairwise_append.mpr ⟨h.increasing, List.pairwise_singleton _ _, ?_⟩
    intro row hrow new hnew
    rw [List.mem_singleton.mp hnew]
    exact h.fresh row hrow
  · intro row hrow
    rcases List.mem_append.mp hrow with hrow | hrow
    · exact Nat.lt_succ_of_lt (h.fresh row hrow)
    · rw [List.mem_singleton.mp hrow]
      exact Nat.lt_succ_self _
  · intro c hc id hid
    rw [spans_insert]
    rcases List.mem_append.mp hc with hc | hc
    · obtain ⟨s, hs, hrest⟩ := h.names c hc id hid
      exact ⟨s, List.mem_append_left _ hs, hrest⟩
    · rw [List.mem_singleton.mp hc] at hid ⊢
      -- The new row closes a span that is open, so a span before it.
      obtain ⟨s, hs, rfl, htask, hrun⟩ := hcloses id hid
      have hs := List.mem_of_mem_filter hs
      exact ⟨s, List.mem_append_left _ hs, rfl, h.span_fresh hs, htask, hrun⟩
  · rw [closedIds_insert]
    refine List.Nodup.append h.once (by cases Row.closes _ <;> simp) fun id hid hnew => ?_
    obtain ⟨s, hs, rfl, -⟩ := hcloses id (Option.mem_toList.mp hnew)
    exact of_decide_eq_true (List.mem_filter.mp hs).2 hid
  · intro s hs r hr
    rw [spans_insert, List.mem_append, Option.mem_toList] at hs
    rcases hs with hs | hs
    · exact h.tasks s hs r hr
    · unfold Row.span? at hs
      split at hs
      · cases hs
        exact htask r hr
      · cases hs

/-- An event changes nothing about spans. -/
theorem openNow_event (kind : EventKind) (payload : Payload) :
    (log.insert taskId runId (.event kind payload)).openNow = log.openNow := by
  rw [Log.openNow, spans_insert, closedIds_insert]
  simp [Row.span?, Row.closes, Log.openNow]

/-- An opened span is open. -/
theorem openNow_opened (h : WellNested taskOf log) (payload : SpanPayload) :
    (log.insert taskId runId (.opened payload)).openNow =
      log.openNow ++ [⟨log.nextId, taskId, runId, payload⟩] := by
  rw [Log.openNow, spans_insert, closedIds_insert]
  have hnew : decide (log.nextId ∉ log.closedIds) = true :=
    decide_eq_true fun hmem => Nat.lt_irrefl _ (h.closed_fresh hmem)
  show (log.spans ++ [(⟨log.nextId, taskId, runId, payload⟩ : Span)]).filter
    (fun s : Span => decide (s.id ∉ log.closedIds ++ [])) = _
  rw [List.append_nil, List.filter_append]
  exact congrArg (log.openNow ++ ·) (List.filter_cons_of_pos hnew)

/-- A closed span is not. -/
theorem openNow_close (span : OpenSpan) (reason : CloseReason) :
    (log.close taskId runId span reason).openNow =
      log.openNow.filter fun s => decide (s.id ≠ span.openedEventId) := by
  rw [Log.openNow, Log.close, spans_insert, closedIds_insert, Log.openNow, List.filter_filter]
  show (log.spans ++ []).filter (fun s : Span => decide (s.id ∉ log.closedIds ++ [_])) = _
  rw [List.append_nil]
  refine List.filter_congr fun s _ => ?_
  simp [not_or, and_comm]

/-- What `open_spans` finds in a scope are the open spans of the scope: a row that closes one of them is
in the scope too. -/
theorem WellNested.openSpans_eq (h : WellNested taskOf log) {opened : Row → SpanPayload → Bool}
    {closed : Row → Bool} (within : Span → Bool)
    (hopened : ∀ row p, row.body = .opened p →
      opened row p = within ⟨row.id, row.taskId, row.runId, p⟩)
    (hclosed : ∀ s ∈ log.spans, ∀ c, within s = true → s.taskId = c.taskId → s.runId = c.runId →
      closed c = true) :
    log.openSpans opened closed = (log.openNow.filter within).map Span.toOpen := by
  rw [Log.openSpans, Log.openNow, Log.spans, List.filter_filter, List.filter_filterMap,
    List.map_filterMap]
  refine List.filterMap_congr fun row hrow => ?_
  cases hp : row.body with
  | event | closed => simp [Row.span?, hp]
  | opened p =>
    rw [Row.span?_opened hp]
    dsimp only
    rw [hopened row p hp]
    cases hin : within ⟨row.id, row.taskId, row.runId, p⟩ with
    | false => simp [Option.filter, hin]
    | true =>
        have hmem : (⟨row.id, row.taskId, row.runId, p⟩ : Span) ∈ log.spans :=
          List.mem_filterMap.mpr ⟨row, hrow, Row.span?_opened hp⟩
        -- A row that names this span is of its run and task, so the filter lets it through.
        have hnamed : (log.rows.any fun c => closed c && decide (c.closes = some row.id)) =
            decide (row.id ∈ log.closedIds) := by
          rw [Bool.eq_iff_iff, List.any_eq_true, decide_eq_true_eq]
          constructor
          · rintro ⟨c, hc, hcloses⟩
            rw [Bool.and_eq_true, decide_eq_true_eq] at hcloses
            exact List.mem_filterMap.mpr ⟨c, hc, hcloses.2⟩
          · intro hid
            obtain ⟨c, hc, hcloses⟩ := List.mem_filterMap.mp hid
            obtain ⟨s, hs, hid, -, htask, hrun⟩ := h.names c hc row.id hcloses
            have hsame := h.span_eq hs hmem hid
            subst hsame
            refine ⟨c, hc, ?_⟩
            rw [hclosed _ hmem c hin htask hrun, hcloses]
            simp
        rw [hnamed]
        by_cases hid : row.id ∈ log.closedIds <;> simp [Option.filter, hid, hin, Span.toOpen]

/-! ## Closing the open spans of a scope -/

/-- The spans in `targets` closed one after the other, each on its own task and run. -/
def closeAll (log : Log) (targets : List Span) (reason : CloseReason) : Log :=
  targets.foldl (fun log s => log.close s.taskId s.runId s.toOpen reason) log

theorem WellNested.closeAll (h : WellNested taskOf log) {targets : List Span} (reason : CloseReason)
    (hopen : ∀ s ∈ targets, s ∈ log.openNow) (hnodup : (targets.map (·.id)).Nodup) :
    WellNested taskOf (closeAll log targets reason) ∧
      (Sessions.closeAll log targets reason).openNow =
        log.openNow.filter fun s => decide (s ∉ targets) := by
  induction targets generalizing log with
  | nil =>
      refine ⟨h, (List.filter_eq_self.mpr ?_).symm⟩
      simp
  | cons t targets ih =>
      obtain ⟨hnew, hnodup⟩ := List.nodup_cons.mp hnodup
      have ht := hopen t (List.mem_cons_self)
      have hspan := List.mem_of_mem_filter ht
      have hlog : WellNested taskOf (log.close t.taskId t.runId t.toOpen reason) := by
        refine h.insert (fun id hid => ?_) fun r hr => h.tasks t hspan r hr
        cases hid
        exact ⟨t, ht, rfl, rfl, rfl⟩
      -- The others stay open: ids are not shared.
      have hrest : ∀ s ∈ targets, s ∈ (log.close t.taskId t.runId t.toOpen reason).openNow := by
        intro s hs
        rw [openNow_close]
        refine List.mem_filter.mpr ⟨hopen s (List.mem_cons_of_mem _ hs), decide_eq_true fun hid => ?_⟩
        exact hnew (List.mem_map.mpr ⟨s, hs, hid⟩)
      obtain ⟨hwell, hopenNow⟩ := ih hlog hrest hnodup
      refine ⟨hwell, ?_⟩
      show (Sessions.closeAll (log.close t.taskId t.runId t.toOpen reason) targets reason).openNow = _
      rw [hopenNow, openNow_close, List.filter_filter]
      refine List.filter_congr fun s hs => ?_
      have hid : s.id = t.toOpen.openedEventId ↔ s = t :=
        ⟨h.span_eq (List.mem_of_mem_filter hs) hspan, fun he => he ▸ rfl⟩
      simp [hid, not_or, Bool.and_comm]

/-- The open spans some condition picks, closed. -/
theorem WellNested.closeWhere (h : WellNested taskOf log) (p : Span → Bool) (reason : CloseReason) :
    WellNested taskOf (Sessions.closeAll log (log.openNow.filter p) reason) ∧
      (Sessions.closeAll log (log.openNow.filter p) reason).openNow =
        log.openNow.filter fun s => !p s := by
  have hids : ((log.openNow.filter p).map (·.id)).Nodup :=
    h.ids_nodup.sublist ((List.filter_sublist.trans List.filter_sublist).map _)
  obtain ⟨hwell, hopen⟩ := h.closeAll reason (fun s hs => List.mem_of_mem_filter hs) hids
  refine ⟨hwell, hopen.trans (List.filter_congr fun s hs => ?_)⟩
  cases hp : p s <;> simp [List.mem_filter, hs, hp]

/-- The closes of an event are on the task and run of the spans they close. -/
theorem foldl_apply_close (log : Log) (taskId : Option TaskId) (runId : Option RunId)
    (targets : List Span) (reason : CloseReason)
    (hon : ∀ s ∈ targets, s.taskId = taskId ∧ s.runId = runId) :
    (targets.map fun s => SpanChange.close s.toOpen reason).foldl (Log.apply taskId runId) log =
      Sessions.closeAll log targets reason := by
  rw [List.foldl_map, Sessions.closeAll]
  refine List.foldl_ext _ _ log fun log s hs => ?_
  obtain ⟨rfl, rfl⟩ := hon s hs
  rfl

/-- What an event that follows the table leaves open: not what it closes of its scope, and what it opens
on its task and run. -/
theorem WellNested.follow (h : WellNested taskOf log) {kind : EventKind} {found : List SpanChange}
    {within : Span → Bool} {closed : OpenSpan → Bool} {opened : Option SpanPayload}
    (hfound : Follows kind ((log.openNow.filter within).map Span.toOpen) found closed opened)
    (hon : ∀ s ∈ log.spans, within s = true → s.taskId = taskId ∧ s.runId = runId)
    (htask : ∀ r, runId = some r → taskId = some (taskOf r)) :
    WellNested taskOf (found.foldl (Log.apply taskId runId) log) ∧
      ∃ id, (found.foldl (Log.apply taskId runId) log).openNow =
        (log.openNow.filter fun s => !(within s && closed s.toOpen)) ++
          opened.toList.map fun p => ⟨id, taskId, runId, p⟩ := by
  obtain ⟨reason, rfl⟩ := hfound.eq
  -- What is closed does not depend on whether the filter or the event chooses first.
  have htargets : ((log.openNow.filter within).map Span.toOpen).filter closed =
      (log.openNow.filter fun s => within s && closed s.toOpen).map Span.toOpen := by
    rw [List.filter_map, List.filter_filter]
    exact congrArg _ (List.filter_congr fun s _ => Bool.and_comm _ _)
  obtain ⟨hwell, hopen⟩ := h.closeWhere (fun s => within s && closed s.toOpen) reason
  rw [htargets, List.map_map, List.foldl_append]
  have hclose := foldl_apply_close log taskId runId
    (log.openNow.filter fun s => within s && closed s.toOpen) reason fun s hs => by
      obtain ⟨hs, hin⟩ := List.mem_filter.mp hs
      rw [Bool.and_eq_true] at hin
      exact hon s (List.mem_of_mem_filter hs) hin.1
  generalize Sessions.closeAll log (log.openNow.filter fun s => within s && closed s.toOpen) reason =
    after at hwell hopen hclose
  rw [show (SpanChange.close · reason) ∘ Span.toOpen = fun s => .close s.toOpen reason from rfl, hclose]
  cases opened with
  | none => exact ⟨hwell, 0, by rw [← hopen]; exact (List.append_nil _).symm⟩
  | some p =>
      refine ⟨hwell.insert (fun id hid => by cases hid) htask, after.nextId, ?_⟩
      show (after.insert taskId runId (.opened p)).openNow = _
      rw [openNow_opened hwell, hopen]
      rfl

/-- The same, from what `open_spans` finds in the scope `within`. -/
theorem WellNested.follow_scope (h : WellNested taskOf log) (taskId : Option TaskId)
    (runId : Option RunId) (within : Span → Bool) {opened : Row → SpanPayload → Bool}
    (closed : Row → Bool) (kind : EventKind) (payload : Payload)
    (context : SpanContext)
    (hopened : ∀ row p, row.body = .opened p →
      opened row p = within ⟨row.id, row.taskId, row.runId, p⟩)
    (hclosed : ∀ c, c.taskId = taskId → c.runId = runId → closed c = true)
    (hon : ∀ s ∈ log.spans, within s = true → s.taskId = taskId ∧ s.runId = runId)
    (htask : ∀ r, runId = some r → taskId = some (taskOf r)) :
    WellNested taskOf
        ((changes kind payload (log.openSpans opened closed) context).foldl
          (Log.apply taskId runId) log) ∧
      ∃ spans found picked new id, Follows kind spans found picked new ∧
        ((changes kind payload (log.openSpans opened closed) context).foldl
          (Log.apply taskId runId) log).openNow =
          (log.openNow.filter fun s => !(within s && picked s.toOpen)) ++
            new.toList.map fun p => ⟨id, taskId, runId, p⟩ := by
  have hspans : log.openSpans opened closed = (log.openNow.filter within).map Span.toOpen :=
    h.openSpans_eq within hopened fun s hs c hin hct hcr =>
      hclosed c (hct.symm.trans (hon s hs hin).1) (hcr.symm.trans (hon s hs hin).2)
  rw [hspans]
  obtain ⟨picked, new, hfollows⟩ := changes_follows kind payload _ context
  obtain ⟨hwell, id, hopen⟩ := h.follow hfollows hon htask
  exact ⟨hwell, _, _, picked, new, id, hfollows, hopen⟩

end Insert

/-! ## Every write -/

section Writes

variable {taskOf : RunId → TaskId} {log : Log}

theorem WellNested.insert_event (h : WellNested taskOf log) (taskId : Option TaskId)
    (runId : Option RunId) (kind : EventKind) (payload : Payload)
    (htask : ∀ r, runId = some r → taskId = some (taskOf r)) :
    WellNested taskOf (log.insert taskId runId (.event kind payload)) :=
  h.insert (fun id hid => by cases hid) htask

/-- An event of a run's scope closes its kinds of the run's spans, and opens what the table says. -/
theorem WellNested.record_run (h : WellNested taskOf log) (r : RunId) {kind : EventKind}
    (payload : Payload) (env : Env) (hscope : scope kind = some .run) :
    WellNested taskOf (log.record (some (taskOf r)) (some r) kind payload env) ∧
      ∃ spans found closed opened id, Follows kind spans found closed opened ∧
        (log.record (some (taskOf r)) (some r) kind payload env).openNow =
          (log.openNow.filter fun s =>
            !(decide (s.runId = some r) && decide (s.payload.kind ∈ closedKinds kind))) ++
            opened.toList.map fun p => ⟨id, some (taskOf r), some r, p⟩ := by
  have hlog := h.insert_event (some (taskOf r)) (some r) kind payload fun r' hr => by cases hr; rfl
  obtain ⟨hwell, spans, found, picked, new, id, hfollows, hopen⟩ :=
    hlog.follow_scope (some (taskOf r)) (some r)
      (fun s => s.taskId = some (taskOf r) && s.runId = some r)
      (fun c => c.taskId = some (taskOf r) && c.runId = some r) kind payload
      ((log.insert (some (taskOf r)) (some r) (.event kind payload)).runContext r env)
      (fun _ _ _ => rfl) (fun c htask hrun => by simp [htask, hrun])
      (fun s _ hin => by simpa using hin) fun r' hr => by cases hr; rfl
  unfold Log.record Log.follow
  rw [hscope]
  refine ⟨hwell, spans, found, picked, new, id, hfollows, hopen.trans ?_⟩
  rw [openNow_event]
  refine congrArg (· ++ _) (List.filter_congr fun s hs => ?_)
  rw [hfollows.closes hscope]
  by_cases hr : s.runId = some r
  · rw [h.tasks s (List.mem_of_mem_filter hs) r hr]
    simp [hr, OpenSpan.kind, Span.toOpen]
    rfl
  · simp [hr]

/-- Every other write closes some spans, and opens none of a run. -/
structure Outside (log log' : Log) : Prop where
  eq : ∃ (closed : Span → Bool) (opened : List Span),
    log'.openNow = (log.openNow.filter fun s => !closed s) ++ opened ∧ ∀ s ∈ opened, s.runId = none

theorem Outside.same {log' : Log} (h : log'.openNow = log.openNow) : Outside log log' := by
  refine ⟨fun _ => false, [], ?_, fun s hs => by cases hs⟩
  rw [h]
  simp

/-- An event that changes no run's spans: of the queue, of a task, or of a run but in another scope. -/
theorem WellNested.record_outside (h : WellNested taskOf log) (taskId : Option TaskId)
    (runId : Option RunId) (kind : EventKind) (payload : Payload) (env : Env)
    (htask : ∀ r, runId = some r → taskId = some (taskOf r))
    (hscope : scope kind = some .run → runId = none) :
    WellNested taskOf (log.record taskId runId kind payload env) ∧
      Outside log (log.record taskId runId kind payload env) := by
  have hlog := h.insert_event taskId runId kind payload htask
  have hsame : (log.insert taskId runId (.event kind payload)).openNow = log.openNow :=
    openNow_event kind payload
  unfold Log.record Log.follow
  split
  next hrun => cases hscope hrun
  next task _ =>
    obtain ⟨hwell, spans, found, picked, new, id, -, hopen⟩ :=
      hlog.follow_scope (some task) none
        (fun s => s.taskId = some task && s.runId.isNone && s.payload.proposalId.isSome &&
          s.payload.proposalId = payload.proposalId)
        (fun c => c.taskId = some task && c.runId.isNone) kind payload { goalIds := env.goalIds }
        (fun _ _ _ => rfl) (fun c htask hrun => by simp [htask, hrun])
        (fun s _ hin => by
          simp only [Bool.and_eq_true, decide_eq_true_eq, Option.isNone_iff_eq_none] at hin
          exact hin.1.1) htask
    refine ⟨hwell, _, _, by rw [hopen, hsame], fun s hs => ?_⟩
    obtain ⟨p, -, rfl⟩ := List.mem_map.mp hs
    rfl
  next _ =>
    obtain ⟨hwell, spans, found, picked, new, id, -, hopen⟩ :=
      hlog.follow_scope none none (fun s => s.taskId.isNone && s.payload.kind = .observer)
        (fun c => c.taskId.isNone) kind payload {} (fun _ _ _ => rfl)
        (fun c htask _ => by simp [htask])
        (fun s hs hin => by
          -- A span without a task is no run's.
          simp only [Bool.and_eq_true, Option.isNone_iff_eq_none] at hin
          refine ⟨hin.1, Option.eq_none_iff_forall_not_mem.mpr fun r hr => ?_⟩
          have hsome := hlog.tasks s hs r hr
          rw [hin.1] at hsome
          cases hsome) htask
    refine ⟨hwell, _, _, by rw [hopen, hsame], fun s hs => ?_⟩
    obtain ⟨p, -, rfl⟩ := List.mem_map.mp hs
    rfl
  next => exact ⟨hlog, .same hsame⟩

/-- Spans closed with no event of their own. -/
theorem WellNested.closed (h : WellNested taskOf log) (p : Span → Bool) (reason : CloseReason) {log' : Log}
    (heq : log' = Sessions.closeAll log (log.openNow.filter p) reason) :
    WellNested taskOf log' ∧ Outside log log' := by
  obtain ⟨hwell, hopen⟩ := h.closeWhere p reason
  rw [heq]
  exact ⟨hwell, _, [], by rw [hopen, List.append_nil], fun s hs => by cases hs⟩

theorem WellNested.closeReview (h : WellNested taskOf log) (r : RunId) :
    WellNested taskOf (log.closeReview (some (taskOf r)) r) ∧
      Outside log (log.closeReview (some (taskOf r)) r) := by
  have hspans : log.openSpans (fun o p => o.runId = some r && p.kind = .review)
      (fun c => c.runId = some r) =
      (log.openNow.filter fun s => s.runId = some r && s.payload.kind = .review).map Span.toOpen :=
    h.openSpans_eq (fun s => s.runId = some r && s.payload.kind = .review) (fun _ _ _ => rfl)
      fun s _ c hin _ hrun => by
        simp only [Bool.and_eq_true, decide_eq_true_eq] at hin
        simp [← hrun, hin.1]
  have heq : log.closeReview (some (taskOf r)) r = Sessions.closeAll log
      (log.openNow.filter fun s => s.runId = some r && s.payload.kind = .review) .jobFinished := by
    unfold Log.closeReview
    rw [hspans, List.foldl_map]
    refine List.foldl_ext _ _ log fun log' s hs => ?_
    obtain ⟨hs, hin⟩ := List.mem_filter.mp hs
    simp only [Bool.and_eq_true, decide_eq_true_eq] at hin
    rw [h.tasks s (List.mem_of_mem_filter hs) r hin.1, hin.1]
  exact h.closed _ _ heq

/-- The row of a span has its task. -/
theorem WellNested.taskOfRow (h : WellNested taskOf log) {s : Span} (hs : s ∈ log.spans) :
    log.taskOfRow s.id = s.taskId := by
  obtain ⟨row, hrow, hspan⟩ := List.mem_filterMap.mp hs
  have hid : row.id = s.id ∧ row.taskId = s.taskId := by
    unfold Row.span? at hspan
    split at hspan
    · cases hspan
      exact ⟨rfl, rfl⟩
    · cases hspan
  unfold Log.taskOfRow
  cases hfind : log.rows.find? fun row => decide (row.id = s.id) with
  | none =>
      have hnone := List.find?_eq_none.mp hfind row hrow
      simp [hid.1] at hnone
  | some row' =>
      have hsame : row'.id = s.id := by simpa using List.find?_some hfind
      rw [h.row_eq (List.mem_of_find?_eq_some hfind) hrow (hsame.trans hid.1.symm)]
      exact hid.2

theorem WellNested.closePlanReview (h : WellNested taskOf log) (planReviewId : Nat) (inferred : Bool) :
    WellNested taskOf (log.closePlanReview planReviewId inferred) ∧
      Outside log (log.closePlanReview planReviewId inferred) := by
  have hspans : log.openSpans
      (fun o p => o.runId.isNone && p.kind = .planReview && p.planReviewId = some planReviewId)
      (fun c => c.runId.isNone) =
      (log.openNow.filter fun s => s.runId.isNone && s.payload.kind = .planReview &&
        s.payload.planReviewId = some planReviewId).map Span.toOpen :=
    h.openSpans_eq (fun s => s.runId.isNone && s.payload.kind = .planReview &&
        s.payload.planReviewId = some planReviewId) (fun _ _ _ => rfl)
      fun s _ c hin _ hrun => by
        simp only [Bool.and_eq_true] at hin
        rw [← hrun]
        exact hin.1.1
  have heq : log.closePlanReview planReviewId inferred = Sessions.closeAll log
      (log.openNow.filter fun s => s.runId.isNone && s.payload.kind = .planReview &&
        s.payload.planReviewId = some planReviewId) (if inferred then .inferred else .jobFinished) := by
    unfold Log.closePlanReview
    rw [hspans, List.foldl_map]
    refine List.foldl_ext _ _ log fun log' s hs => ?_
    obtain ⟨hs, hin⟩ := List.mem_filter.mp hs
    simp only [Bool.and_eq_true, Option.isNone_iff_eq_none] at hin
    rw [show s.toOpen.openedEventId = s.id from rfl, h.taskOfRow (List.mem_of_mem_filter hs), hin.1.1]
  exact h.closed _ _ heq

/-- Every write keeps the log well nested; it opens no span of a run unless it is an event of a run's
scope. -/
theorem WellNested.next (h : WellNested taskOf log) (l : Label) :
    WellNested taskOf (log.next taskOf l) := by
  cases l with
  | run r kind payload env =>
      by_cases hscope : scope kind = some .run
      · exact (h.record_run r payload env hscope).1
      · exact (h.record_outside (some (taskOf r)) (some r) kind payload env
          (fun r' hr => by cases hr; rfl) fun hrun => absurd hrun hscope).1
  | task task kind payload env =>
      exact (h.record_outside (some task) none kind payload env (fun r hr => by cases hr) fun _ => rfl).1
  | queue kind payload env =>
      exact (h.record_outside none none kind payload env (fun r hr => by cases hr) fun _ => rfl).1
  | closeReview r => exact (h.closeReview r).1
  | closePlanReview planReviewId inferred => exact (h.closePlanReview planReviewId inferred).1
  | skip count =>
      exact ⟨h.increasing, fun row hrow => Nat.lt_of_lt_of_le (h.fresh row hrow) (Nat.le_add_right _ _),
        h.names, h.once, h.tasks⟩

theorem WellNested.outside (h : WellNested taskOf log) {l : Label}
    (hl : ∀ r kind payload env, l = .run r kind payload env → scope kind ≠ some .run) :
    Outside log (log.next taskOf l) := by
  cases l with
  | run r kind payload env =>
      exact (h.record_outside (some (taskOf r)) (some r) kind payload env
        (fun r' hr => by cases hr; rfl) fun hrun => absurd hrun (hl r kind payload env rfl)).2
  | task task kind payload env =>
      exact (h.record_outside (some task) none kind payload env (fun r hr => by cases hr) fun _ => rfl).2
  | queue kind payload env =>
      exact (h.record_outside none none kind payload env (fun r hr => by cases hr) fun _ => rfl).2
  | closeReview r => exact (h.closeReview r).2
  | closePlanReview planReviewId inferred => exact (h.closePlanReview planReviewId inferred).2
  | skip count => exact .same rfl

end Writes

end Dagq.Sessions
