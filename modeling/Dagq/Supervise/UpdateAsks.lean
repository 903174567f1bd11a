/-
# Dagq.Supervise.UpdateAsks -- every update that failed asks a person.

Along settled steps each failure, and each build that waits for approval, is recorded with an ask of its
own, and no two asks of one kind are open at a time.
-/
import Dagq.Supervise.UpdateAnswers

namespace Dagq.Update

open Lib

/-- The ask a step was recorded with, and the kind it should be of. -/
def UpdateEvent.cites (event : UpdateEvent) : Option (AskId × AskKind) :=
  match event.kind with
  | .failed => event.askId.map (·, .updateFailed)
  | .awaitingApproval => event.askId.map (·, .approveUpdate)
  | _ => none

/-- The ask a job has opened and not recorded. -/
def Stage.cites : Stage → Option (AskId × AskKind)
  | .asked ask => some (ask, .updateFailed)
  | .approved ask => some (ask, .approveUpdate)
  | _ => none

/-- The ask a look has opened and not recorded. -/
def Look.cites : Look → Option (AskId × AskKind)
  | .reported _ ask => some (ask, .updateFailed)
  | _ => none

/-- The asks that are recorded, and those that are next to record. -/
def cited (log : List UpdateEvent) (jobs : List Job) (look : Look) : List (AskId × AskKind) :=
  log.filterMap UpdateEvent.cites ++ (jobs.filterMap (·.stage.cites) ++ look.cites.toList)

def UpdateAsk.isOpen (ask : UpdateAsk) : Bool := ask.answer.isNone && !ask.closed

structure Raised (cites : List (AskId × AskKind)) (asks : List UpdateAsk) : Prop where
  nodup : (cites.map (·.1)).Nodup
  there : ∀ cite ∈ cites, ∃ ask ∈ asks, ask.id = cite.1 ∧ ask.kind = cite.2
  single : ∀ kind, (asks.filter fun ask => ask.kind = kind && ask.isOpen).length ≤ 1

section Raised

variable {cites : List (AskId × AskKind)} {asks : List UpdateAsk} {nextAsk : AskId} {kind : AskKind}
  {f : UpdateAsk → UpdateAsk}

/-- An ask that is not open does not open again. -/
theorem Raised.map (h : Raised cites asks) (hf : Mild f)
    (hopen : ∀ ask, (f ask).isOpen = true → ask.isOpen = true) : Raised cites (asks.map f) where
  nodup := h.nodup
  there cite hcite := by
    obtain ⟨ask, hask, hid, hkind⟩ := h.there cite hcite
    exact ⟨f ask, List.mem_map_of_mem hask, (hf.id ask).trans hid, (hf.kind ask).trans hkind⟩
  single kind := by
    rw [List.filter_map, List.length_map]
    refine le_trans ?_ (h.single kind)
    refine (List.monotone_filter_right asks fun ask hask => ?_).length_le
    simp only [Function.comp_apply, Bool.and_eq_true, decide_eq_true_eq, hf.kind] at hask ⊢
    exact ⟨hask.1, hopen ask hask.2⟩

theorem Raised.subset (h : Raised cites asks) {less : List (AskId × AskKind)} (hless : less.Sublist cites) :
    Raised less asks where
  nodup := h.nodup.sublist (hless.map _)
  there cite hcite := h.there cite (hless.subset hcite)
  single := h.single

theorem supersede_open (kind : AskKind) (ask : UpdateAsk) :
    (World.supersede kind ask).isOpen = true → ask.isOpen = true := by
  unfold World.supersede
  split <;> simp_all [UpdateAsk.isOpen]

/-- An ask is opened in place of the open ones of its kind. -/
theorem Raised.opened (h : Raised cites asks) (hbelow : ∀ ask ∈ asks, ask.id < nextAsk) :
    Raised (cites ++ [(nextAsk, kind)])
      (asks.map (World.supersede kind) ++ [{ id := nextAsk, kind }]) where
  nodup := by
    rw [List.map_append, List.map_singleton]
    refine List.nodup_append.mpr ⟨h.nodup, List.pairwise_singleton _ _, ?_⟩
    intro id hid id' hid'
    obtain ⟨cite, hcite, rfl⟩ := List.mem_map.mp hid
    obtain ⟨ask, hask, hid, -⟩ := h.there cite hcite
    rw [List.mem_singleton.mp hid', ← hid]
    exact Nat.ne_of_lt (hbelow ask hask)
  there cite hcite := by
    rcases List.mem_append.mp hcite with hcite | hcite
    · obtain ⟨ask, hask, hid, hkind⟩ := h.there cite hcite
      have hf := Mild.supersede kind
      exact ⟨_, List.mem_append_left _ (List.mem_map_of_mem hask), (hf.id ask).trans hid,
        (hf.kind ask).trans hkind⟩
    · rw [List.mem_singleton.mp hcite]
      exact ⟨_, List.mem_append_right _ (List.mem_singleton_self _), rfl, rfl⟩
  single other := by
    rw [List.filter_append, List.length_append]
    by_cases hkind : other = kind
    · subst hkind
      have hnone : (asks.map (World.supersede other)).filter
          (fun ask => ask.kind = other && ask.isOpen) = [] := by
        refine List.filter_eq_nil_iff.mpr fun ask hask => ?_
        obtain ⟨old, -, rfl⟩ := List.mem_map.mp hask
        unfold World.supersede
        split <;> simp_all [UpdateAsk.isOpen]
      rw [hnone, List.length_nil, Nat.zero_add]
      exact List.length_filter_le _ [_]
    · have hold := (h.map (.supersede kind) (supersede_open kind)).single other
      have hnew : ([{ id := nextAsk, kind }] : List UpdateAsk).filter
          (fun ask => ask.kind = other && ask.isOpen) = [] := by
        simp [Ne.symm hkind]
      rw [hnew]
      exact hold

end Raised

section Cited

variable {log : List UpdateEvent} {jobs : List Job} {look look' : Look} {event : UpdateEvent} {w : World}
  {job : Job}

theorem cited_record (h : event.cites = none) : cited (log ++ [event]) jobs look = cited log jobs look := by
  simp [cited, h]

/-- What was next to record is recorded. -/
theorem cited_job_record {kind : Kind} {ask : Option AskId}
    (h : (World.Job.step job kind ask).cites = job.stage.cites) (hlook : look.cites = none) :
    cited (log ++ [World.Job.step job kind ask]) [] look = cited log [job] look := by
  cases hstage : job.stage.cites <;> simp [cited, h, hlook, hstage]

/-- A job that opened no ask goes on. -/
theorem cited_stage {stage : Stage} (h : stage.cites = job.stage.cites) :
    cited log [{ job with stage }] look = cited log [job] look := by
  cases hstage : job.stage.cites <;> simp [cited, h, hstage]

theorem cited_opened {stage : Stage} {cite : AskId × AskKind} (h : job.stage.cites = none)
    (hlook : look.cites = none) (hstage : stage.cites = some cite) :
    cited log [{ job with stage }] look = cited log [job] look ++ [cite] := by
  simp [cited, h, hlook, hstage]

end Cited

/-- Every step that has an ask is recorded with it. -/
def Named (log : List UpdateEvent) : Prop :=
  ∀ event ∈ log, event.kind = .failed ∨ event.kind = .awaitingApproval → event.askId.isSome = true

def World.Raised (w : World) : Prop :=
  Update.Raised (cited w.log w.jobs w.look) w.asks ∧ Named w.log

section Runs

variable {w : World} {job : Job} {outcome : Outcome}

theorem named_record {log : List UpdateEvent} {event : UpdateEvent} (h : Named log)
    (hevent : event.cites.isSome = true ∨ event.kind ≠ .failed ∧ event.kind ≠ .awaitingApproval) :
    Named (log ++ [event]) := by
  intro other hother hkind
  rcases List.mem_append.mp hother with hother | hother
  · exact h other hother hkind
  · rw [List.mem_singleton.mp hother] at hkind ⊢
    rcases hevent with hcites | ⟨hfailed, hawaiting⟩
    · unfold UpdateEvent.cites at hcites
      rcases hkind with hkind | hkind <;> simpa [hkind] using hcites
    · exact absurd hkind (not_or.mpr ⟨hfailed, hawaiting⟩)

theorem World.Raised.jobStep (h : w.Raised) (hw : w.Orderly) (hs : w.Spending) (hjob : job ∈ w.jobs) :
    (w.jobStep job outcome).Raised := by
  obtain ⟨log, asks, nextAsk, main, jobs, version, child, seen, firstHead, look⟩ := w
  obtain ⟨hcites, hnamed⟩ := h
  dsimp only at hcites hnamed hjob
  obtain rfl := hw.eq_singleton hjob
  have hlook : look.cites = none := by
    have hholds := hw.look
    cases look with
    | reported => cases hholds.2.2
    | _ => rfl
  have hjobs (stage : Stage) : ([job].map fun other : Job =>
      if other.pid = job.pid then { other with stage } else other) = [{ job with stage }] := by simp
  have hgone : [job].filter (·.pid ≠ job.pid) = [] := by simp
  have hgoes (stage : Stage) (hstage : stage.cites = job.stage.cites) :
      Update.Raised (cited log ([job].map fun other : Job =>
        if other.pid = job.pid then { other with stage } else other) look) asks := by
    rw [hjobs, cited_stage hstage]
    exact hcites
  have hends (kind : Kind) (ask : Option AskId)
      (hstage : (World.Job.step job kind ask).cites = job.stage.cites) :
      Update.Raised (cited (log ++ [World.Job.step job kind ask]) ([job].filter (·.pid ≠ job.pid)) look)
        asks := by
    rw [hgone, cited_job_record hstage hlook]
    exact hcites
  have hasks (kind : AskKind) (stage : Stage) (hstage : job.stage.cites = none)
      (hopens : stage.cites = some (nextAsk, kind)) :
      Update.Raised (cited log ([job].map fun other : Job =>
        if other.pid = job.pid then { other with stage } else other) look)
          (asks.map (World.supersede kind) ++ [{ id := nextAsk, kind }]) := by
    rw [hjobs, cited_opened hstage hlook hopens]
    exact hcites.opened hs.below
  unfold World.jobStep
  split
  next hstage =>
    refine ⟨?_, named_record hnamed (.inr ⟨nofun, nofun⟩)⟩
    show Update.Raised (cited (log ++ [_]) _ look) asks
    rw [cited_record rfl]
    exact hgoes .built (by rw [hstage]; rfl)
  next hstage _ => exact ⟨hgoes .failing (by rw [hstage]; rfl), hnamed⟩
  next hstage => exact ⟨hgoes .installing (by rw [hstage]; rfl), hnamed⟩
  next hstage => exact ⟨hgoes .approving (by rw [hstage]; rfl), hnamed⟩
  next hstage _ _ => exact ⟨hgoes .failing (by rw [hstage]; rfl), hnamed⟩
  next hstage => exact ⟨hgoes .watching (by rw [hstage]; rfl), hnamed⟩
  next hstage _ => exact ⟨hgoes .failing (by rw [hstage]; rfl), hnamed⟩
  next hstage =>
    exact ⟨hends .installed none (by rw [hstage]; rfl), named_record hnamed (.inr ⟨nofun, nofun⟩)⟩
  next hstage =>
    refine ⟨?_, named_record hnamed (.inr ⟨nofun, nofun⟩)⟩
    show Update.Raised (cited (log ++ [_]) _ look) asks
    rw [cited_record rfl]
    exact hgoes .failing (by rw [hstage]; rfl)
  next hstage _ _ => exact ⟨hgoes .failing (by rw [hstage]; rfl), hnamed⟩
  next hstage => exact ⟨hasks .updateFailed (.asked nextAsk) (by rw [hstage]; rfl) rfl, hnamed⟩
  next ask hstage =>
    exact ⟨hends .failed (some ask) (by rw [hstage]; rfl), named_record hnamed (.inl rfl)⟩
  next hstage => exact ⟨hasks .approveUpdate (.approved nextAsk) (by rw [hstage]; rfl) rfl, hnamed⟩
  next ask hstage =>
    exact ⟨hends .awaitingApproval (some ask) (by rw [hstage]; rfl), named_record hnamed (.inl rfl)⟩

/-- A look that has no ask to record, and jobs that have none more. -/
theorem Raised.less {log : List UpdateEvent} {jobs jobs' : List Job} {look look' : Look}
    {asks : List UpdateAsk} (h : Raised (cited log jobs look) asks) (hlook : look'.cites = none)
    (hjobs : (jobs'.filterMap (·.stage.cites)).Sublist (jobs.filterMap (·.stage.cites))) :
    Raised (cited log jobs' look') asks := by
  refine h.subset ((List.Sublist.refl _).append (hjobs.append ?_))
  rw [hlook]
  exact List.nil_sublist _

theorem close_open (id : AskId) (ask : UpdateAsk) :
    (if ask.id = id then { ask with closed := true } else ask).isOpen = true → ask.isOpen = true := by
  split <;> simp_all [UpdateAsk.isOpen]

theorem World.Raised.lookStep (h : w.Raised) (hw : w.Orderly) (hs : w.Spending) (near : Surroundings) :
    (w.lookStep near).Raised := by
  have hholds := hw.look
  have hlooks (look : Look) (hlook : look.cites = none) : (w.setLook look).Raised :=
    ⟨h.1.less hlook (List.Sublist.refl _), h.2⟩
  have hanswers (event : UpdateEvent) (look : Look) (hlook : look.cites = none)
      (hkind : event.kind = .answered ∨ event.kind = .retry) : ((w.record event).setLook look).Raised := by
    refine ⟨?_, named_record h.2 (.inr ?_)⟩
    · have hcites : event.cites = none := by
        unfold UpdateEvent.cites
        rcases hkind with hkind | hkind <;> rw [hkind]
      show Update.Raised (cited (w.log ++ [event]) w.jobs look) w.asks
      rw [cited_record hcites]
      exact h.1.less hlook (List.Sublist.refl _)
    · rcases hkind with hkind | hkind <;> rw [hkind] <;> exact ⟨nofun, nofun⟩
  have hdecides (updates : List UpdateEvent) : (w.decideBuild near updates).Raised := by
    unfold World.decideBuild
    dsimp only [World.setLook]
    split
    · exact hlooks (.starting w.main) rfl
    · split
      · exact hlooks .resting rfl
      · split
        · exact hlooks (.starting w.main) rfl
        · exact hlooks .resting rfl
  unfold World.lookStep
  split
  next hlook =>
    dsimp only
    split <;> split <;> first | exact h | exact hlooks (.applying _) rfl
  next hlook => exact hlooks _ (by split <;> rfl)
  next ask asks hlook =>
    dsimp only
    split
    · exact hanswers _ _ rfl (.inr rfl)
    · split
      · exact hanswers _ _ rfl (.inl rfl)
      · exact hlooks _ rfl
  next id asks hlook =>
    split
    next closed hclosed =>
      unfold World.closeAsk at hclosed
      split at hclosed
      next =>
        cases hclosed
        have hrests := hlooks (.applying asks) rfl
        exact ⟨hrests.1.map (.close id) (close_open id), hrests.2⟩
      next => cases hclosed
    next => exact hlooks _ rfl
  next hlook => exact hlooks _ rfl
  next updates hlook =>
    split
    next step hstep =>
      split
      next => exact hlooks _ rfl
      next =>
        split
        next => exact hlooks _ rfl
        next => exact hdecides _
    next => exact hdecides _
  next step hlook =>
    rw [hlook] at hholds
    have hjobs : w.jobs = [] := hholds.2.2
    have hcites := h.1
    rw [hjobs, hlook] at hcites
    refine ⟨?_, h.2⟩
    show Update.Raised (cited w.log w.jobs (.reported step w.nextAsk)) (w.asks.map _ ++ [_])
    rw [hjobs, show cited w.log [] (.reported step w.nextAsk) =
      cited w.log [] (.interrupted step) ++ [(w.nextAsk, .updateFailed)] by simp [cited, Look.cites]]
    exact hcites.opened hs.below
  next step ask hlook =>
    rw [hlook] at hholds
    have hjobs : w.jobs = [] := hholds.2.2
    have hcites := h.1
    rw [hjobs, hlook] at hcites
    refine ⟨?_, named_record h.2 (.inl rfl)⟩
    show Update.Raised (cited (w.log ++ [_]) w.jobs .resting) w.asks
    rw [hjobs]
    simpa [cited, UpdateEvent.cites, Look.cites] using hcites
  next head hlook =>
    refine ⟨h.1.less rfl ?_, h.2⟩
    simp [Stage.cites]
  next pid head hlook =>
    refine ⟨?_, named_record h.2 (.inr ⟨nofun, nofun⟩)⟩
    show Update.Raised (cited (w.log ++ [_]) w.jobs .resting) w.asks
    rw [cited_record rfl]
    exact h.1.less rfl (List.Sublist.refl _)

theorem answered_open (id : AskId) (text : String) (ask : UpdateAsk) :
    (if ask.id = id && ask.answer.isNone && !ask.closed then { ask with answer := some text }
      else ask).isOpen = true → ask.isOpen = true := by
  split <;> simp_all [UpdateAsk.isOpen]

theorem World.Raised.next (h : w.Raised) (hw : w.Orderly) (hs : w.Spending) (op : Op) : (w.next op).Raised := by
  cases op with
  | look near => exact h.lookStep hw hs near
  | abort | restart => exact ⟨h.1.less rfl (List.Sublist.refl _), h.2⟩
  | job pid outcome =>
      unfold World.next
      dsimp only
      split
      next job hfind => exact h.jobStep hw hs (List.mem_of_find?_eq_some hfind)
      next => exact h
  | kill pid =>
      refine ⟨h.1.subset ((List.Sublist.refl _).append (List.Sublist.append ?_ (List.Sublist.refl _))),
        h.2⟩
      exact List.filter_sublist.filterMap _
  | land | otherAsk => exact h
  | answer id text => exact ⟨h.1.map (.answered id text) (answered_open id text), h.2⟩
  | close id =>
      show ((w.closeAsk id).getD w).Raised
      unfold World.closeAsk
      split
      · exact ⟨h.1.map (.close id) (close_open id), h.2⟩
      · exact h

end Runs

/-- Along settled steps every update that failed, and every build that waits for approval, is recorded with
an ask of its own, of the kind that a person answers it by, and no two asks of one kind are open. -/
theorem failures_raised (main version : String) (ops : List Op)
    (hsettled : (machine main version).Meets Settled (machine main version).init ops) :
    let w := (machine main version).run ops
    ((w.log.filterMap UpdateEvent.cites).map (·.1)).Nodup ∧
      (∀ event ∈ w.log, event.kind = .failed ∨ event.kind = .awaitingApproval →
        ∃ cite ∈ event.cites, ∃ ask ∈ w.asks, ask.id = cite.1 ∧ ask.kind = cite.2) ∧
      ∀ kind, (w.asks.filter fun ask => ask.kind = kind && ask.isOpen).length ≤ 1 := by
  intro w
  have hinit : (machine main version).init.Raised := ⟨⟨.nil, nofun, fun _ => Nat.zero_le 1⟩, nofun⟩
  have h : w.Orderly ∧ w.Spending ∧ w.Raised :=
    Machine.invariant_of_meets (M := machine main version) (I := fun w => w.Orderly ∧ w.Spending ∧ w.Raised)
      (fun w op hok h => ⟨h.1.next hok, h.2.1.next op, h.2.2.next h.1 h.2.1 op⟩) hsettled
      ⟨init_orderly main version, init_spending main version, hinit⟩
  obtain ⟨-, -, hcites, hnamed⟩ := h
  have hlog : (w.log.filterMap UpdateEvent.cites).Sublist (cited w.log w.jobs w.look) :=
    List.sublist_append_left _ _
  refine ⟨(hcites.subset hlog).nodup, fun event hevent hkind => ?_, hcites.single⟩
  obtain ⟨ask, hask⟩ := Option.isSome_iff_exists.mp (hnamed event hevent hkind)
  have hcite : ∃ cite, event.cites = some cite := by
    unfold UpdateEvent.cites
    rcases hkind with hkind | hkind <;> simp [hkind, hask]
  obtain ⟨cite, hcite⟩ := hcite
  exact ⟨cite, hcite, hcites.there cite (hlog.subset (List.mem_filterMap.mpr ⟨event, hevent, hcite⟩))⟩

theorem failures_raised_example :
    let w := (machine "a" "0.4.0").run exampleOps
    ((w.log.filterMap UpdateEvent.cites).map (·.1)).Nodup ∧
      (∀ event ∈ w.log, event.kind = .failed ∨ event.kind = .awaitingApproval →
        ∃ cite ∈ event.cites, ∃ ask ∈ w.asks, ask.id = cite.1 ∧ ask.kind = cite.2) ∧
      ∀ kind, (w.asks.filter fun ask => ask.kind = kind && ask.isOpen).length ≤ 1 :=
  failures_raised "a" "0.4.0" exampleOps (by decide)

end Dagq.Update
