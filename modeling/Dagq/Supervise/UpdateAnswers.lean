/-
# Dagq.Supervise.UpdateAnswers -- what is built again, and on whose answer.

Along settled steps the commit that was built last is built again only once an ask is answered `retry`,
and no answer is applied again once a job was started on it.
-/
import Dagq.Supervise.UpdateLog
import Mathlib.Data.List.Nodup

namespace Dagq.Update

open Lib

/-! ## Rebuilds -/

/-- The latest start, in a log that is read oldest first. -/
def lastStart (log : List UpdateEvent) : Option UpdateEvent := log.reverse.find? (·.kind = .started)

/-- An answer asks for the build, and none was started since. -/
def RetryWaits : List UpdateEvent → Prop := Since (·.kind = .retry) (·.kind = .started)

/-- A start is of another commit than the one before it, or an answer asks for it. -/
def AskedFor (before : List UpdateEvent) (event : UpdateEvent) : Prop :=
  event.kind = .started → ∀ prev ∈ lastStart before, prev.commit = event.commit → RetryWaits before

/-- The head that a look starts a job for. -/
def Look.head : Look → Option String
  | .starting head | .spawned _ head => some head
  | _ => none

structure Careful (log : List UpdateEvent) (look : Look) : Prop where
  asked : Lawful AskedFor log
  head : ∀ head ∈ look.head, ∀ prev ∈ lastStart log, prev.commit = some head → RetryWaits log

section Rebuilds

variable {log : List UpdateEvent} {look look' : Look} {event : UpdateEvent} {w : World}

theorem retryRequested_iff (log : List UpdateEvent) :
    retryRequested log.reverse = true ↔ RetryWaits log := by
  induction log using List.reverseRecOn with
  | nil => simp [retryRequested, RetryWaits]
  | append_singleton log event ih =>
      rw [RetryWaits, since_concat, ← RetryWaits, ← ih, List.reverse_append, List.reverse_singleton,
        List.singleton_append]
      unfold retryRequested
      rw [List.find?_cons]
      cases hkind : event.kind <;> simp [hkind]

/-- What the newest steps ask for, all of them do. -/
theorem retryRequested_take (h : retryRequested (log.reverse.take 50) = true) : RetryWaits log := by
  rw [← retryRequested_iff]
  unfold retryRequested at h ⊢
  rw [Option.any_eq_true] at h
  obtain ⟨update, hfind, hkind⟩ := h
  rw [(List.take_prefix 50 log.reverse).find?_eq_some hfind]
  simpa using hkind

theorem Careful.rests (h : Careful log look) (hhead : look'.head = none) : Careful log look' where
  asked := h.asked
  head := by
    rw [hhead]
    exact nofun

theorem Careful.record (h : Careful log look) (hkind : event.kind ≠ .started) (hhead : look'.head = none) :
    Careful (log ++ [event]) look' where
  asked := lawful_concat.mpr ⟨h.asked, fun hstarted => absurd hstarted hkind⟩
  head := by
    rw [hhead]
    exact nofun

/-- A look that decides to build has read of a change, or of an answer. -/
theorem Careful.decideBuild (h : Careful w.log w.look) (hsees : Sees w.log) (near : Surroundings) :
    Careful (w.decideBuild near (w.log.reverse.take 50)).log
      (w.decideBuild near (w.log.reverse.take 50)).look := by
  unfold World.decideBuild
  dsimp only [World.setLook]
  split
  next hretry => exact ⟨h.asked, fun head hhead prev hprev hcommit => retryRequested_take hretry⟩
  next hretry =>
    split
    next => exact h.rests rfl
    next hbase =>
      have hstart : Careful w.log (.starting w.main) := by
        refine ⟨h.asked, fun head hhead prev hprev hcommit => ?_⟩
        cases hhead
        rw [lastStart, ← hsees] at hprev
        simp [baseCommit, Option.mem_def.mp hprev, hcommit] at hbase
      split
      next => exact hstart
      next => exact h.rests rfl

/-- A job records its own steps, one at a time. -/
theorem World.jobStep_log (w : World) (job : Job) (outcome : Outcome) :
    (w.jobStep job outcome).look = w.look ∧ ((w.jobStep job outcome).log = w.log ∨
      ∃ kind ask, (w.jobStep job outcome).log = w.log ++ [World.Job.step job kind ask] ∧
        kind ≠ .started ∧ kind ≠ .retry) := by
  unfold World.jobStep
  split <;> refine ⟨rfl, ?_⟩
  case h_1 => exact .inr ⟨.built, none, rfl, nofun, nofun⟩
  case h_8 => exact .inr ⟨.installed, none, rfl, nofun, nofun⟩
  case h_9 => exact .inr ⟨.restored, none, rfl, nofun, nofun⟩
  case h_12 ask _ => exact .inr ⟨.failed, some ask, rfl, nofun, nofun⟩
  case h_14 ask _ => exact .inr ⟨.awaitingApproval, some ask, rfl, nofun, nofun⟩
  all_goals exact .inl rfl

theorem Look.head_of_isQuiet {look : Look} (h : look.isQuiet = true) : look.head = none := by
  cases look with
  | starting | spawned => cases h
  | _ => rfl

theorem Careful.lookStep (hc : Careful w.log w.look) (h : w.Orderly) {near : Surroundings} :
    Careful (w.lookStep near).log (w.lookStep near).look := by
  have hholds := h.look
  unfold World.lookStep
  split
  next hlook =>
    dsimp only
    split <;> split <;> first | exact hc | exact hc.rests rfl
  next hlook => split <;> exact hc.rests rfl
  next ask asks hlook =>
    dsimp only
    split
    · exact hc.record (by exact nofun) rfl
    · split
      · exact hc.record (by exact nofun) rfl
      · exact hc.rests rfl
  next id asks hlook =>
    split
    next closed hclosed =>
      unfold World.closeAsk at hclosed
      split at hclosed
      next =>
        cases hclosed
        exact hc.rests rfl
      next => cases hclosed
    next => exact hc.rests rfl
  next hlook => exact hc.rests rfl
  next updates hlook =>
    rw [hlook] at hholds
    obtain ⟨rfl, hsees⟩ := hholds
    split
    next step hstep =>
      split
      next => exact hc.rests rfl
      next =>
        split
        next => exact hc.rests rfl
        next => exact hc.decideBuild hsees near
    next => exact hc.decideBuild hsees near
  next step hlook => exact hc.rests rfl
  next step ask hlook => exact hc.record (by exact nofun) rfl
  next head hlook =>
    rw [hlook] at hc
    exact ⟨hc.asked, hc.head⟩
  next pid head hlook =>
    rw [hlook] at hc
    refine ⟨lawful_concat.mpr ⟨hc.asked, fun _ => hc.head head rfl⟩, ?_⟩
    exact nofun

theorem Careful.next (hc : Careful w.log w.look) (h : w.Orderly) {op : Op} (hsettled : Settled w op) :
    Careful (w.next op).log (w.next op).look := by
  cases op with
  | look near => exact hc.lookStep h
  | abort | restart => exact hc.rests rfl
  | job pid outcome =>
      unfold Settled at hsettled
      unfold World.next at hsettled ⊢
      dsimp only at hsettled ⊢
      cases hfind : w.jobs.find? (·.pid = pid) with
      | none => exact hc
      | some job =>
          rw [hfind] at hsettled
          dsimp only at hsettled ⊢
          obtain ⟨hlook, hlog | ⟨kind, ask, hlog, hkind, -⟩⟩ := w.jobStep_log job outcome
          · rw [hlook, hlog]
            exact hc
          · have hquiet := hsettled.resolve_right (by simp [hlog])
            rw [hlook, hlog]
            exact hc.record hkind (Look.head_of_isQuiet hquiet)
  | kill | land | answer | otherAsk => exact hc
  | close id =>
      show Careful ((w.closeAsk id).getD w).log ((w.closeAsk id).getD w).look
      unfold World.closeAsk
      split <;> exact hc

end Rebuilds

/-! ## Answers -/

/-- The `retry` of an ask is recorded. -/
def Retried (log : List UpdateEvent) (id : AskId) : Prop :=
  ∃ event ∈ log, event.kind = .retry ∧ event.askId = some id

/-- A job was started after it. -/
def Spent (log : List UpdateEvent) (id : AskId) : Prop :=
  SinceAt (fun before event => event.kind = .started ∧ Retried before id) (fun _ => False) log

/-- The `retry` of an ask is not recorded again once a job was started on it. -/
def OnceSpent (before : List UpdateEvent) (event : UpdateEvent) : Prop :=
  event.kind = .retry → ∀ id ∈ event.askId, ¬Spent before id

/-- The ask is answered `retry`. -/
def UpdateAsk.saysRetry (ask : UpdateAsk) : Prop := ask.answer.map trimChars = some "retry".toList

/-- The asks that a look still has to apply: answered, and none of them spent. -/
def Todo (log : List UpdateEvent) (asks todo : List UpdateAsk) : Prop :=
  ∀ ask ∈ todo, ¬Spent log ask.id ∧
    ∃ kept ∈ asks, kept.id = ask.id ∧ kept.answer = ask.answer ∧ ask.answer.isSome = true ∧ kept.kind = .updateFailed

/-- Every ask whose `retry` is recorded is closed, but for some. -/
def ClosedBut (log : List UpdateEvent) (asks : List UpdateAsk) (ids : List AskId) : Prop :=
  ∀ ask ∈ asks, Retried log ask.id → ask.closed = true ∨ ask.id ∈ ids

/-- What a look keeps of the answers. -/
def Look.Keeps (log : List UpdateEvent) (asks : List UpdateAsk) : Look → Prop
  | .resting => True
  | .applying todo => Todo log asks todo ∧ ClosedBut log asks (todo.map (·.id))
  | .closing id todo => Todo log asks todo ∧ ClosedBut log asks (id :: todo.map (·.id))
  | _ => ClosedBut log asks []

structure Spending (log : List UpdateEvent) (asks : List UpdateAsk) (nextAsk : AskId) (look : Look) :
    Prop where
  nodup : (asks.map (·.id)).Nodup
  below : ∀ ask ∈ asks, ask.id < nextAsk
  once : Lawful OnceSpent log
  kept : ∀ id, Retried log id → ∃ ask ∈ asks, ask.id = id ∧ ask.kind = .updateFailed ∧ ask.saysRetry
  spent : ∀ ask ∈ asks, Spent log ask.id → ask.closed = true
  look : look.Keeps log asks

/-- A change of an ask that keeps an answer and a close. -/
structure Mild (f : UpdateAsk → UpdateAsk) : Prop where
  id : ∀ ask, (f ask).id = ask.id
  kind : ∀ ask, (f ask).kind = ask.kind
  answer : ∀ ask, ask.answer.isSome = true → (f ask).answer = ask.answer
  closed : ∀ ask, ask.closed = true → (f ask).closed = true

section Answers

variable {log : List UpdateEvent} {asks : List UpdateAsk} {nextAsk : AskId} {look look' : Look}
  {event : UpdateEvent} {id : AskId} {f : UpdateAsk → UpdateAsk} {w : World}

theorem retried_concat : Retried (log ++ [event]) id ↔
    Retried log id ∨ event.kind = .retry ∧ event.askId = some id := by
  simp [Retried, or_and_right, exists_or]

theorem spent_concat : Spent (log ++ [event]) id ↔ event.kind = .started ∧ Retried log id ∨ Spent log id := by
  rw [Spent, sinceAt_concat, not_false_eq_true, and_true]
  rfl

theorem Mild.supersede (kind : AskKind) : Mild (World.supersede kind) := by
  constructor <;> intro ask <;> unfold World.supersede <;> split <;> simp_all

theorem Mild.close (id : AskId) :
    Mild fun ask => if ask.id = id then { ask with closed := true } else ask := by
  constructor <;> intro ask <;> split <;> simp_all

theorem Mild.answered (id : AskId) (text : String) : Mild fun ask =>
    if ask.id = id && ask.answer.isNone && !ask.closed then { ask with answer := some text } else ask := by
  constructor <;> intro ask <;> split <;> simp_all

theorem Todo.map {todo : List UpdateAsk} (h : Todo log asks todo) (hf : Mild f) :
    Todo log (asks.map f) todo := by
  intro ask hask
  obtain ⟨hspent, kept, hkept, hid, hanswer, hsome, hkind⟩ := h ask hask
  refine ⟨hspent, f kept, List.mem_map_of_mem hkept, ?_, ?_, hsome, ?_⟩
  · rw [hf.id, hid]
  · rw [hf.answer kept (hanswer ▸ hsome), hanswer]
  · rw [hf.kind, hkind]

theorem ClosedBut.map {ids : List AskId} (h : ClosedBut log asks ids) (hf : Mild f) :
    ClosedBut log (asks.map f) ids := by
  intro ask hask hretried
  obtain ⟨old, hold, rfl⟩ := List.mem_map.mp hask
  rw [hf.id] at hretried ⊢
  exact (h old hold hretried).imp_left (hf.closed old)

theorem Look.Keeps.map (h : look.Keeps log asks) (hf : Mild f) : look.Keeps log (asks.map f) := by
  cases look with
  | resting => trivial
  | applying | closing => exact ⟨h.1.map hf, h.2.map hf⟩
  | _ => exact ClosedBut.map h hf

/-- Asks are answered, superseded and closed. -/
theorem Spending.map (h : Spending log asks nextAsk look) (hf : Mild f) :
    Spending log (asks.map f) nextAsk look where
  nodup := by
    rw [List.map_map, show (UpdateAsk.id ∘ f) = UpdateAsk.id from funext hf.id]
    exact h.nodup
  below ask hask := by
    obtain ⟨old, hold, rfl⟩ := List.mem_map.mp hask
    rw [hf.id]
    exact h.below old hold
  once := h.once
  kept id hretried := by
    obtain ⟨ask, hask, hid, hkind, hsaid⟩ := h.kept id hretried
    have hsome : ask.answer.isSome = true := by
      unfold UpdateAsk.saysRetry at hsaid
      cases hanswer : ask.answer <;> simp_all
    refine ⟨f ask, List.mem_map_of_mem hask, ?_, ?_, ?_⟩
    · rw [hf.id, hid]
    · rw [hf.kind, hkind]
    · rwa [UpdateAsk.saysRetry, hf.answer ask hsome]
  spent ask hask hspent := by
    obtain ⟨old, hold, rfl⟩ := List.mem_map.mp hask
    rw [hf.id] at hspent
    exact hf.closed old (h.spent old hold hspent)
  look := h.look.map hf

/-- No answer of an ask that is not there yet is recorded. -/
theorem Spending.not_retried (h : Spending log asks nextAsk look) : ¬Retried log nextAsk := by
  intro hretried
  obtain ⟨ask, hask, hid, -⟩ := h.kept nextAsk hretried
  exact absurd (hid ▸ h.below ask hask) (Nat.lt_irrefl _)

theorem spent_retried (h : Spent log id) : Retried log id := by
  obtain ⟨before, start, after, rfl, ⟨-, event, hevent, hkind⟩, -⟩ := h
  exact ⟨event, List.mem_append_left _ hevent, hkind⟩

theorem ClosedBut.add {ids : List AskId} (h : ClosedBut log asks ids) {ask : UpdateAsk}
    (hnew : ¬Retried log ask.id) : ClosedBut log (asks ++ [ask]) ids := by
  intro other hother hretried
  rcases List.mem_append.mp hother with hother | hother
  · exact h other hother hretried
  · rw [List.mem_singleton.mp hother] at hretried
    exact absurd hretried hnew

theorem Todo.add {todo : List UpdateAsk} (h : Todo log asks todo) (ask : UpdateAsk) :
    Todo log (asks ++ [ask]) todo := by
  intro other hother
  obtain ⟨hspent, kept, hkept, hrest⟩ := h other hother
  exact ⟨hspent, kept, List.mem_append_left _ hkept, hrest⟩

/-- An ask is opened. -/
theorem Spending.add (h : Spending log asks nextAsk look) (kind : AskKind) :
    Spending log (asks ++ [{ id := nextAsk, kind }]) (nextAsk + 1) look where
  nodup := by
    rw [List.map_append, List.map_singleton]
    refine List.nodup_append.mpr ⟨h.nodup, List.pairwise_singleton _ _, ?_⟩
    intro id hid id' hid'
    obtain ⟨ask, hask, rfl⟩ := List.mem_map.mp hid
    rw [List.mem_singleton.mp hid']
    exact Nat.ne_of_lt (h.below ask hask)
  below ask hask := by
    rcases List.mem_append.mp hask with hask | hask
    · exact Nat.lt_succ_of_lt (h.below ask hask)
    · rw [List.mem_singleton.mp hask]
      exact Nat.lt_succ_self nextAsk
  once := h.once
  kept id hretried := by
    obtain ⟨ask, hask, hrest⟩ := h.kept id hretried
    exact ⟨ask, List.mem_append_left _ hask, hrest⟩
  spent ask hask hspent := by
    rcases List.mem_append.mp hask with hask | hask
    · exact h.spent ask hask hspent
    · rw [List.mem_singleton.mp hask] at hspent
      exact absurd (spent_retried hspent) h.not_retried
  look := by
    have hlook := h.look
    cases look with
    | resting => trivial
    | applying | closing => exact ⟨hlook.1.add _, hlook.2.add h.not_retried⟩
    | _ => exact ClosedBut.add hlook h.not_retried

/-- What is no answer and no start is recorded. -/
theorem Spending.record (h : Spending log asks nextAsk look) (hstart : event.kind ≠ .started)
    (hretry : event.kind ≠ .retry) : Spending (log ++ [event]) asks nextAsk look := by
  have hretried (id : AskId) : Retried (log ++ [event]) id ↔ Retried log id := by
    rw [retried_concat]
    exact or_iff_left fun hnew => hretry hnew.1
  have hspent (id : AskId) : Spent (log ++ [event]) id ↔ Spent log id := by
    rw [spent_concat]
    exact or_iff_right fun hnew => hstart hnew.1
  have hlook := h.look
  refine ⟨h.nodup, h.below, lawful_concat.mpr ⟨h.once, fun hkind => absurd hkind hretry⟩, ?_, ?_, ?_⟩
  · simpa only [hretried] using h.kept
  · simpa only [hspent] using h.spent
  · cases look with
    | resting => trivial
    | _ => simpa only [Look.Keeps, Todo, ClosedBut, hretried, hspent] using hlook

theorem Spending.setLook (h : Spending log asks nextAsk look) (hlook : look'.Keeps log asks) :
    Spending log asks nextAsk look' :=
  ⟨h.nodup, h.below, h.once, h.kept, h.spent, hlook⟩

/-- The `retry` of an ask to apply is recorded. -/
theorem Spending.retry (h : Spending log asks nextAsk look) {ask : UpdateAsk} {todo : List UpdateAsk}
    (hlook : look = .applying (ask :: todo)) (hsaid : ask.saysRetry) :
    Spending (log ++ [{ kind := .retry, askId := some ask.id }]) asks nextAsk (.closing ask.id todo) := by
  subst hlook
  obtain ⟨htodo, hclosed⟩ := h.look
  obtain ⟨⟨hfresh, kept, hkept, hid, hanswer, -, hkind⟩, hrest⟩ := List.forall_mem_cons.mp htodo
  have hspent (id : AskId) :
      Spent (log ++ [{ kind := .retry, askId := some ask.id }]) id ↔ Spent log id := by
    rw [spent_concat]
    exact or_iff_right nofun
  refine ⟨h.nodup, h.below, lawful_concat.mpr ⟨h.once, ?_⟩, ?_, ?_, ?_, ?_⟩
  · rintro - id hmem
    cases hmem
    exact hfresh
  · intro id hretried
    rcases retried_concat.mp hretried with hretried | ⟨-, hnew⟩
    · exact h.kept id hretried
    · cases hnew
      exact ⟨kept, hkept, hid, hkind, by rwa [UpdateAsk.saysRetry, hanswer]⟩
  · simpa only [hspent] using h.spent
  · simpa only [Todo, hspent] using hrest
  · intro other hother hretried
    rcases retried_concat.mp hretried with hretried | ⟨-, hnew⟩
    · exact hclosed other hother hretried
    · exact .inr (Option.some.inj hnew ▸ List.mem_cons_self)

/-- A job is started. -/
theorem Spending.start (h : Spending log asks nextAsk look) (hclosed : ClosedBut log asks [])
    (hkind : event.kind = .started) : Spending (log ++ [event]) asks nextAsk .resting where
  nodup := h.nodup
  below := h.below
  once := lawful_concat.mpr ⟨h.once, fun hretry => absurd (hkind.symm.trans hretry) nofun⟩
  kept id hretried := by
    refine h.kept id ((retried_concat.mp hretried).resolve_right fun hnew => ?_)
    exact absurd (hkind.symm.trans hnew.1) nofun
  spent ask hask hspent := by
    rcases spent_concat.mp hspent with ⟨-, hretried⟩ | hspent
    · exact (hclosed ask hask hretried).resolve_right List.not_mem_nil
    · exact h.spent ask hask hspent
  look := trivial

def World.Spending (w : World) : Prop := Update.Spending w.log w.asks w.nextAsk w.look

theorem World.Spending.opened (h : w.Spending) (kind : AskKind) : (w.openUpdateAsk kind).Spending :=
  (h.map (.supersede kind)).add kind

theorem World.Spending.jobStep (h : w.Spending) (job : Job) (outcome : Outcome) :
    (w.jobStep job outcome).Spending := by
  unfold World.jobStep
  split
  all_goals first
    | exact h
    | exact h.opened _
    | exact h.record nofun nofun

/-- All that is left of a look's answers to apply is applied. -/
theorem ClosedBut.of_applying (h : w.Spending) (hlook : w.look = .applying []) : ClosedBut w.log w.asks [] := by
  have hkeeps := h.look
  rw [hlook] at hkeeps
  exact hkeeps.2

/-- The answers that a look reads are to be applied, and every other recorded one is closed. -/
theorem Spending.applying (h : Spending log asks nextAsk look) (todo : List UpdateAsk)
    (htodo : todo = asks.filter fun ask => ask.kind = .updateFailed && ask.answer.isSome && !ask.closed) :
    Look.Keeps log asks (.applying todo) := by
  subst htodo
  constructor
  · intro ask hask
    obtain ⟨hask, hopen⟩ := List.mem_filter.mp hask
    simp only [Bool.and_eq_true, decide_eq_true_eq, Bool.not_eq_true'] at hopen
    obtain ⟨⟨hkind, hanswer⟩, hclosed⟩ := hopen
    refine ⟨fun hspent => ?_, ask, hask, rfl, rfl, hanswer, hkind⟩
    rw [h.spent ask hask hspent] at hclosed
    cases hclosed
  · intro ask hask hretried
    obtain ⟨kept, hkept, hid, hkind, hsaid⟩ := h.kept ask.id hretried
    obtain rfl : kept = ask := List.inj_on_of_nodup_map h.nodup hkept hask hid
    have hsome : kept.answer.isSome = true := by
      unfold UpdateAsk.saysRetry at hsaid
      cases hanswer : kept.answer <;> simp_all
    cases hclosed : kept.closed with
    | true => exact .inl rfl
    | false =>
        refine .inr (List.mem_map_of_mem (List.mem_filter.mpr ⟨hkept, ?_⟩))
        simp [hkind, hsome, hclosed]

/-- An ask answered otherwise is passed over: its `retry` was never recorded. -/
theorem Spending.passed (h : Spending log asks nextAsk look) {ask : UpdateAsk} {todo : List UpdateAsk}
    (hlook : look = .applying (ask :: todo)) (hsaid : ¬ask.saysRetry) :
    Look.Keeps log asks (.applying todo) := by
  subst hlook
  obtain ⟨htodo, hclosed⟩ := h.look
  obtain ⟨⟨-, kept, hkept, hid, hanswer, -, -⟩, hrest⟩ := List.forall_mem_cons.mp htodo
  refine ⟨hrest, fun other hother hretried => ?_⟩
  refine (hclosed other hother hretried).imp_right fun hmem => (List.mem_cons.mp hmem).resolve_left ?_
  intro heq
  obtain ⟨retried, hin, hrid, -, hretry⟩ := h.kept other.id hretried
  obtain rfl : retried = kept :=
    List.inj_on_of_nodup_map h.nodup hin hkept (hrid.trans (heq.trans hid.symm))
  rw [UpdateAsk.saysRetry, hanswer] at hretry
  exact hsaid hretry

/-- The ask of the answer that is recorded is closed. -/
theorem Spending.closing (h : Spending log asks nextAsk look) {todo : List UpdateAsk}
    (hlook : look = .closing id todo) :
    Spending log (asks.map fun ask => if ask.id = id then { ask with closed := true } else ask) nextAsk
      (.applying todo) := by
  subst hlook
  have hmap := h.map (.close id)
  obtain ⟨htodo, hclosed⟩ := hmap.look
  refine hmap.setLook ⟨htodo, fun ask hask hretried => ?_⟩
  obtain ⟨old, hold, rfl⟩ := List.mem_map.mp hask
  rcases hclosed _ hask hretried with hdone | hmem
  · exact .inl hdone
  · rcases List.mem_cons.mp hmem with heq | hmem
    · left
      rw [(Mild.close id).id] at heq
      simp [heq]
    · exact .inr hmem

theorem World.Spending.lookStep (h : w.Spending) (near : Surroundings) : (w.lookStep near).Spending := by
  have hlookkeeps := h.look
  have hrests : Update.Spending w.log w.asks w.nextAsk .resting := h.setLook trivial
  have hdecides (hclosed : ClosedBut w.log w.asks []) (updates : List UpdateEvent) :
      (w.decideBuild near updates).Spending := by
    unfold World.decideBuild
    dsimp only [World.setLook]
    split
    · exact h.setLook hclosed
    · split
      · exact hrests
      · split
        · exact h.setLook hclosed
        · exact hrests
  unfold World.lookStep
  split
  next hlook =>
    dsimp only
    split <;> split <;> first | exact h | exact h.setLook (h.applying _ rfl)
  next hlook =>
    split
    · exact hrests
    · exact h.setLook (ClosedBut.of_applying h hlook)
  next ask asks hlook =>
    dsimp only
    split
    next hretry =>
      have hsaid : ask.saysRetry := by
        unfold UpdateAsk.saysRetry
        cases hanswer : ask.answer with
        | none => simp [hanswer] at hretry
        | some text => simpa [hanswer] using hretry
      exact h.retry hlook hsaid
    next hretry =>
      have hsaid : ¬ask.saysRetry := by
        intro hsaid
        rw [UpdateAsk.saysRetry] at hsaid
        exact hretry (by rw [hsaid]; rfl)
      have hpassed := h.passed hlook hsaid
      split
      next hskip =>
        have hrec : Update.Spending (w.log ++ [{ kind := .answered, askId := some ask.id }]) w.asks w.nextAsk
            (.applying asks) := (h.setLook hpassed).record nofun nofun
        refine hrec.setLook ⟨hrec.look.1, fun other hother hretried => ?_⟩
        exact (hrec.look.2 other hother hretried).imp_right (List.mem_cons_of_mem _)
      next => exact h.setLook hpassed
  next id asks hlook =>
    split
    next closed hclosed =>
      unfold World.closeAsk at hclosed
      split at hclosed
      next =>
        cases hclosed
        exact h.closing hlook
      next => cases hclosed
    next => exact hrests
  next hlook =>
    rw [hlook] at hlookkeeps
    exact h.setLook hlookkeeps
  next updates hlook =>
    rw [hlook] at hlookkeeps
    split
    next step hstep =>
      split
      next => exact hrests
      next =>
        split
        next => exact h.setLook hlookkeeps
        next => exact hdecides hlookkeeps _
    next => exact hdecides hlookkeeps _
  next step hlook =>
    rw [hlook] at hlookkeeps
    have hopened := World.Spending.opened h .updateFailed
    refine hopened.setLook ?_
    have hkeeps := hopened.look
    rw [show (w.openUpdateAsk .updateFailed).look = w.look from rfl, hlook] at hkeeps
    exact hkeeps
  next step ask hlook => exact hrests.record nofun nofun
  next head hlook =>
    rw [hlook] at hlookkeeps
    exact h.setLook hlookkeeps
  next pid head hlook =>
    rw [hlook] at hlookkeeps
    exact h.start hlookkeeps rfl

theorem World.Spending.next (h : w.Spending) (op : Op) : (w.next op).Spending := by
  have hclosed (id : AskId) : ((w.closeAsk id).getD w).Spending := by
    unfold World.closeAsk
    split
    · exact h.map (.close id)
    · exact h
  cases op with
  | look near => exact h.lookStep near
  | abort | restart => exact h.setLook trivial
  | job pid outcome =>
      unfold World.next
      dsimp only
      split
      · exact h.jobStep _ outcome
      · exact h
  | kill | land => exact h
  | answer id text => exact h.map (.answered id text)
  | close id => exact hclosed id
  | otherAsk =>
      exact ⟨h.nodup, fun ask hask => Nat.lt_succ_of_lt (h.below ask hask), h.once, h.kept, h.spent, h.look⟩

end Answers

theorem init_spending (main version : String) : (machine main version).init.Spending where
  nodup := .nil
  below := nofun
  once := lawful_nil
  kept := by
    rintro id ⟨event, hevent, -⟩
    cases hevent
  spent := nofun
  look := trivial

/-- Along settled steps a job is started for the commit of the one before it only when an ask was answered
`retry` since that one was started. -/
theorem rebuilds_asked_for (main version : String) (ops : List Op)
    (hsettled : (machine main version).Meets Settled (machine main version).init ops) :
    Lawful AskedFor ((machine main version).run ops).log := by
  have hcareful : Careful (machine main version).init.log (machine main version).init.look :=
    ⟨lawful_nil, nofun⟩
  have h := Machine.invariant_of_meets (M := machine main version)
    (I := fun w => w.Orderly ∧ Careful w.log w.look)
    (fun w op hok h => ⟨h.1.next hok, h.2.next h.1 hok⟩) hsettled ⟨init_orderly main version, hcareful⟩
  exact h.2.asked

theorem rebuilds_asked_for_example : Lawful AskedFor ((machine "a" "0.4.0").run exampleOps).log :=
  rebuilds_asked_for "a" "0.4.0" exampleOps (by decide)

/-- In every run, no `retry` of an ask is recorded once a job was started after one of it: not when a look
failed before it closed the ask, nor when another process took over from the supervisor. -/
theorem answers_once (main version : String) (ops : List Op) :
    Lawful OnceSpent ((machine main version).run ops).log :=
  (Machine.invariant (M := machine main version) (I := World.Spending)
    (fun _ op h => h.next op) (init_spending main version) ops).once

end Dagq.Update
