/-
# Dagq.Supervise.SlotRule -- rules about the leaseholder's slot, carried over whole runs.

Only the slot of the leaseholder writes along settled steps, so a rule about the record and that slot's
phase is kept by every run once each turn, each way to come by a slot and each write of others keeps it.
-/
import Dagq.Supervise.Slots

namespace Dagq

/-! ## A rule about the slot of the leaseholder -/

/-- What a step reads back of a run: `A` holds of the record an adopted slot is rebuilt from, `B` of the
phase a handoff left. -/
def Watched.readsBack (A : RunRecord → Bool) (B : RunRecord → Phase → Bool) (w : Watched) :
    WatchOp → Bool
  | .turn n .goesOn => w.slots[n]?.all fun slot => match slot.phase with
      | .taken => A w.record
      | _ => true
  | .rebuild token => w.snapshot.all fun slot =>
      slot.token ≠ token || w.record.lease ≠ some token || B w.record slot.phase
  | _ => true

/-- `K` of the record, and `S` of the phase in which the leaseholder's slot is: kept by every turn of
that slot, by every way to get one, and by what others write. -/
structure SlotRule (K : RunRecord → Prop) (S : RunRecord → Phase → Prop) (A : RunRecord → Bool)
    (B : RunRecord → Phase → Bool) : Prop where
  turn : ∀ {r r' : RunRecord} {token : Token} {phase : Phase} {seen : Seen} {next : Option Phase},
    K r → S r phase → r.lease = some token → (phase = .taken → seen = .goesOn → A r = true) →
      takeTurn r token phase seen = some (r', next) → K r' ∧ ∀ p ∈ next, S r' p
  opens : ∀ {r r' : RunRecord} {token : Token} {opening : Opening} {phase : Phase},
    K r → opening.take token r = some (r', phase) → K r' ∧ S r' phase
  outside : ∀ {r r' : RunRecord} {es : List RunEvent}, K r → Stirs r r' es →
    K r' ∧ ∀ phase, S r phase → S r' phase
  drops : ∀ {r : RunRecord} (token : Token), K r → K (r.dropLease token)
  ends : ∀ {r r' : RunRecord} {token : Token} {session : SessionRef}, K r →
    r.finishResume token none session false = some r' → K r'
  taken : ∀ {r : RunRecord}, K r → S r .taken
  restores : ∀ {r : RunRecord} {phase : Phase}, K r → B r phase = true → S r phase

/-- A rule holds of what watches the run. -/
structure Held (K : RunRecord → Prop) (S : RunRecord → Phase → Prop) (w : Watched) : Prop where
  tidy : Tidy w
  record : K w.record
  slots : ∀ slot ∈ w.slots, w.record.lease = some slot.token → S w.record slot.phase

section SlotRule

variable {K : RunRecord → Prop} {S : RunRecord → Phase → Prop} {A : RunRecord → Bool}
  {B : RunRecord → Phase → Bool} {w : Watched}

theorem Tidy.token_ne (h : Tidy w) {n m : Nat} {slot other : Slot} (hn : w.slots[n]? = some slot)
    (hm : w.slots[m]? = some other) (hne : m ≠ n) : other.token ≠ slot.token := by
  intro heq
  have hlt : m < (w.slots.map Slot.token).length := by
    simpa using (List.getElem?_eq_some_iff.mp hm).1
  refine hne ((List.getElem?_inj hlt h.single).mp ?_)
  rw [List.getElem?_map, List.getElem?_map, hm, hn, Option.map_some, Option.map_some, heq]

/-- A slot that stays beside the one at `n` is another supervisor's. -/
theorem Tidy.token_ne_of_erased (h : Tidy w) {n : Nat} {slot other : Slot}
    (hn : w.slots[n]? = some slot) (hother : other ∈ w.slots.eraseIdx n) :
    other ∈ w.slots ∧ other.token ≠ slot.token := by
  obtain ⟨m, hne, hm⟩ := List.mem_eraseIdx_iff_getElem?.mp hother
  exact ⟨List.mem_of_getElem? hm, h.token_ne hn hm hne⟩

theorem Tidy.token_ne_of_set (h : Tidy w) {n : Nat} {slot other changed : Slot}
    (hn : w.slots[n]? = some slot) (hother : other ∈ w.slots.set n changed) :
    other = changed ∨ other ∈ w.slots ∧ other.token ≠ slot.token := by
  obtain ⟨m, hm⟩ := List.mem_iff_getElem?.mp hother
  by_cases hne : m = n
  · subst hne
    have hlt : m < w.slots.length := (List.getElem?_eq_some_iff.mp hn).1
    rw [List.getElem?_set_self hlt, Option.some.injEq] at hm
    exact .inl hm.symm
  · rw [List.getElem?_set_ne (Ne.symm hne)] at hm
    exact .inr ⟨List.mem_of_getElem? hm, h.token_ne hn hm hne⟩

/-- The leaseholder took a turn: the slots of others are stale before and after it. -/
theorem Held.turned (h : Held K S w) {n : Nat} {slot : Slot} (hn : w.slots[n]? = some slot)
    (hlease : w.record.lease = some slot.token) {r' : RunRecord} {next : Option Phase}
    (hmoved : Moved w.record r') (hK : K r') (hS : ∀ p ∈ next, S r' p) :
    Held K S (w.leaves n slot.token (r', next)) := by
  refine ⟨h.tidy.turned hn _, ?_, ?_⟩
  · cases next <;> exact hK
  · obtain ⟨es, status, hw⟩ := hmoved
    have hstale {other : Slot} (hne : other.token ≠ slot.token) :
        r'.lease ≠ some other.token := by
      intro hheld
      rcases hw.lease_eq with hl | hl
      · rw [hl, hlease, Option.some.injEq] at hheld
        exact hne hheld.symm
      · rw [hl] at hheld
        cases hheld
    cases next with
    | none =>
        intro other hother hheld
        exact absurd hheld (hstale (h.tidy.token_ne_of_erased hn hother).2)
    | some phase =>
        intro other hother hheld
        rcases h.tidy.token_ne_of_set hn hother with rfl | ⟨_, hne⟩
        · exact hS phase rfl
        · exact absurd hheld (hstale hne)

/-- Slots go and the record stays. -/
theorem Held.of_sublist (h : Held K S w) {w' : Watched} (ht : Tidy w') (hr : w'.record = w.record)
    (hs : w'.slots ⊆ w.slots) : Held K S w' := by
  refine ⟨ht, by rw [hr]; exact h.record, fun slot hslot hheld => ?_⟩
  rw [hr] at hheld ⊢
  exact h.slots slot (hs hslot) hheld

/-- Whoever held the lease gave it up. -/
theorem Held.of_unleased {w' : Watched} (ht : Tidy w') (hK : K w'.record)
    (hl : w'.record.lease = none) : Held K S w' :=
  ⟨ht, hK, fun slot _ hheld => by rw [hl] at hheld; cases hheld⟩

theorem finishResume_unleased {r r' : RunRecord} {token : Token} {session : SessionRef}
    (h : r.finishResume token none session false = some r') : r'.lease = none := by
  simp only [RunRecord.finishResume, RunRecord.moveResumed, Option.bind_eq_bind,
    Option.bind_eq_some_iff, RunRecord.under_some, Option.pure_def, Option.some.injEq] at h
  obtain ⟨_, ⟨hl, rfl⟩, _, rfl, rfl⟩ := h
  show (RunRecord.dropLease _ token).lease = none
  rw [RunRecord.dropLease, if_pos (show (RunRecord.record _ _).lease = some token from hl)]
  rfl

/-- Whoever comes to watch the run leases it. -/
theorem takes_lease {r r' : RunRecord} {token : Token} {opening : Opening} {phase : Phase}
    (h : opening.take token r = some (r', phase)) : r'.lease = some token := by
  -- Every opening writes its own token as the lease.
  cases opening with
  | adopt previous =>
      simp only [Opening.take, RunRecord.adopt, guard, Option.bind_eq_bind,
        Option.bind_eq_some_iff, Option.pure_def, Option.some.injEq, Prod.mk.injEq] at h
      obtain ⟨_, _, _, ⟨_, _, _, _, rfl⟩, rfl, _⟩ := h
      rfl
  | beginResume main workspace =>
      simp only [Opening.take, RunRecord.beginResume, guard, Option.bind_eq_bind,
        Option.bind_eq_some_iff, Option.pure_def, Option.some.injEq, Prod.mk.injEq] at h
      obtain ⟨_, ⟨_, _, rfl⟩, rfl, _⟩ := h
      rfl
  | skipResume head main =>
      simp only [Opening.take, RunRecord.skipResume, guard, Option.bind_eq_bind,
        Option.bind_eq_some_iff, Option.pure_def, Option.some.injEq, Prod.mk.injEq] at h
      obtain ⟨_, ⟨_, _, _, _, rfl⟩, rfl, _⟩ := h
      rfl
  | land main =>
      simp only [Opening.take, guard, Option.bind_eq_bind,
        Option.bind_eq_some_iff, Option.pure_def, Option.some.injEq, Prod.mk.injEq] at h
      obtain ⟨_, _, _, h, rfl, _⟩ := h
      exact (RunRecord.beginIntegration_ok h).2.1
  | beginTriage =>
      simp only [Opening.take, RunRecord.beginTriage, guard, Option.bind_eq_bind,
        Option.bind_eq_some_iff, Option.pure_def, Option.some.injEq, Prod.mk.injEq] at h
      obtain ⟨_, ⟨_, _, rfl⟩, rfl, _⟩ := h
      rfl

theorem Held.gives (rule : SlotRule K S A B) (h : Held K S w) {n : Nat} {slot : Slot} :
    Held K S (w.gives n slot) := by
  have ht := h.tidy.gives n slot
  have hs : (w.gives n slot).slots ⊆ w.slots := (List.eraseIdx_sublist _ _).subset
  -- A failing phase drops its lease, except a resume, which ends, and a landing, which keeps it.
  have hdrop : Phase.fails w.record slot.token slot.phase = w.record.dropLease slot.token →
      Held K S (w.gives n slot) := by
    intro hfails
    by_cases hl : w.record.lease = some slot.token
    · refine .of_unleased ht ?_ ?_
      · show K (Phase.fails _ _ _)
        rw [hfails]
        exact rule.drops _ h.record
      · show (Phase.fails _ _ _).lease = none
        rw [hfails, RunRecord.dropLease, if_pos hl]
        rfl
    · refine h.of_sublist ht ?_ hs
      show Phase.fails _ _ _ = _
      rw [hfails, RunRecord.dropLease, if_neg hl]
  cases hp : slot.phase
  case resume watch =>
    cases hf : w.record.finishResume slot.token none watch.session false with
    | none =>
        refine h.of_sublist ht ?_ hs
        show Phase.fails _ _ _ = _
        rw [hp, Phase.fails, hf]
        rfl
    | some r' =>
        have hfails : (w.gives n slot).record = r' := by
          show Phase.fails _ _ _ = _
          rw [hp, Phase.fails, hf]
          rfl
        refine .of_unleased ht (hfails ▸ rule.ends h.record hf) ?_
        rw [hfails]
        exact finishResume_unleased hf
  case landing =>
    refine h.of_sublist ht ?_ hs
    show Phase.fails _ _ _ = _
    rw [hp]
    rfl
  all_goals exact hdrop (by rw [hp]; rfl)

theorem landing_stays {r r' : RunRecord} {token : Token} {seen : Seen} {next : Option Phase}
    (hlease : r.lease ≠ some token) (h : takeTurn r token .landing seen = some (r', next)) :
    r' = r ∧ (next = none ∨ next = some .landing) := by
  have h : pollLanding r token seen = some (r', next) := h
  unfold pollLanding at h
  split at h
  · exact absurd (RunRecord.leaveIntegration_ok (turn_some.mp h).1).1 hlease
  · cases h
    exact ⟨rfl, .inl rfl⟩
  · cases h
    exact ⟨rfl, .inr rfl⟩

theorem Held.turn (rule : SlotRule K S A B) (h : Held K S w) {n : Nat} {seen : Seen}
    (hop : w.settled (.turn n seen) = true) (hread : w.readsBack A B (.turn n seen) = true) :
    Held K S (w.turn n seen) := by
  have ht : Tidy (w.turn n seen) := tidy_step hop h.tidy
  unfold Watched.turn at ht ⊢
  cases hn : w.slots[n]? with
  | none => exact h
  | some slot =>
      simp only [hn] at ht ⊢
      split_ifs at ht ⊢ with hcheck
      · exact h.of_sublist ht rfl (List.eraseIdx_sublist _ _).subset
      · by_cases hlease : w.record.lease = some slot.token
        · -- The leaseholder's turn.
          cases htake : takeTurn w.record slot.token slot.phase seen with
          | none => exact h.gives rule
          | some turn =>
              obtain ⟨r', next⟩ := turn
              have hA : slot.phase = .taken → seen = .goesOn → A w.record = true := by
                rintro hp rfl
                simpa [Watched.readsBack, hn, hp] using hread
              obtain ⟨hK, hS⟩ := rule.turn h.record
                (h.slots slot (List.mem_of_getElem? hn) hlease) hlease hA htake
              exact h.turned hn hlease (takeTurn_moves hlease htake) hK hS
        · -- Only a landing is joined without a look at the lease: it finds the run moved.
          have hlanding : slot.phase = .landing := by
            have hrest : slot.phase.atRest = true := by
              simpa [Watched.settled, hn, hlease] using hop
            cases hp : slot.phase <;> simp_all [Phase.atRest, Phase.checksLease]
          cases htake : takeTurn w.record slot.token slot.phase seen with
          | none => exact h.gives rule
          | some turn =>
              obtain ⟨r', next⟩ := turn
              rw [hlanding] at htake
              obtain ⟨rfl, hnext⟩ := landing_stays hlease htake
              refine ⟨h.tidy.turned hn _, ?_, ?_⟩
              · cases next <;> exact h.record
              · rcases hnext with rfl | rfl
                · exact fun s hs => h.slots s ((List.eraseIdx_sublist _ _).subset hs)
                · intro s hs hheld
                  rcases h.tidy.token_ne_of_set hn hs with rfl | ⟨hs, _⟩
                  · exact absurd hheld hlease
                  · exact h.slots s hs hheld

/-- A supervisor without a slot comes to have one. -/
theorem Held.added (h : Held K S w) {w' : Watched} {slot : Slot} (ht : Tidy w')
    (hr : w'.record = w.record) (hs : w'.slots = w.slots ++ [slot])
    (hS : w.record.lease = some slot.token → S w.record slot.phase) : Held K S w' := by
  refine ⟨ht, by rw [hr]; exact h.record, fun s hmem hheld => ?_⟩
  rw [hr] at hheld ⊢
  rw [hs] at hmem
  rcases List.mem_append.mp hmem with hmem | hmem
  · exact h.slots s hmem hheld
  · rw [List.mem_singleton.mp hmem] at hheld ⊢
    exact hS hheld

theorem Held.rebuild (rule : SlotRule K S A B) (h : Held K S w) {token : Token}
    (hread : w.readsBack A B (.rebuild token) = true) : Held K S (w.rebuild token) := by
  have ht : Tidy (w.rebuild token) :=
    tidy_step (show w.settled (.rebuild token) = true from rfl) h.tidy
  unfold Watched.rebuild at ht ⊢
  dsimp only at ht ⊢
  split_ifs at ht ⊢ with hin hlease
  · split at ht
    · rename_i slot hslot
      refine h.added ht rfl rfl fun _ => ?_
      obtain ⟨hsnap, htoken⟩ := Option.filter_eq_some_iff.mp hslot
      refine rule.restores h.record ?_
      simp only [Watched.readsBack, hsnap, hlease] at hread
      simpa [hlease, show slot.token = token by simpa using htoken] using hread
    · rename_i hnone
      split at ht
      all_goals first
        | exact h.added ht rfl rfl fun _ => rule.taken h.record
        | refine .of_unleased ht (rule.drops _ h.record) ?_
          show (RunRecord.dropLease _ token).lease = none
          rw [RunRecord.dropLease, if_pos hlease]
          rfl
  · exact h.of_sublist ht rfl (List.Subset.refl _)
  · exact h

theorem Held.handOff (rule : SlotRule K S A B) (h : Held K S w) (token : Token) :
    Held K S (w.handOff token) := by
  have ht : Tidy (w.handOff token) :=
    tidy_step (show w.settled (.handOff token) = true from rfl) h.tidy
  unfold Watched.handOff at ht ⊢
  dsimp only at ht ⊢
  split at ht
  · rename_i hall
    rw [if_pos hall]
    generalize (w.slots.filter (·.token = token)).any _ = recovers at ht ⊢
    by_cases hdrops : recovers = true ∧ w.record.lease = some token
    · -- The lease of a recovery round is given back.
      refine .of_unleased ht ?_ ?_
      · show K (if recovers = true then _ else _)
        rw [if_pos hdrops.1]
        exact rule.drops _ h.record
      · show (if recovers = true then _ else _ : RunRecord).lease = none
        rw [if_pos hdrops.1, RunRecord.dropLease, if_pos hdrops.2]
        rfl
    · refine h.of_sublist ht ?_ (without_sublist w token).subset
      dsimp only
      split
      · rename_i hrecovers
        rw [RunRecord.dropLease, if_neg fun hl => hdrops ⟨hrecovers, hl⟩]
      · rfl
  · rename_i hall
    rw [if_neg hall]
    exact h

/-- Every step that is settled and reads back what the rule allows keeps the rule. -/
theorem SlotRule.step (rule : SlotRule K S A B) {op : WatchOp} (hop : w.settled op = true)
    (hread : w.readsBack A B op = true) (h : Held K S w) : Held K S (w.step op) := by
  have ht : Tidy (w.step op) := tidy_step hop h.tidy
  cases op with
  | turn n seen => exact h.turn rule hop hread
  | fail n =>
      unfold Watched.step
      dsimp only
      split
      · exact h.gives rule
      · exact h
  | crash token => exact h.of_sublist ht rfl (without_sublist w token).subset
  | handOff token => exact h.handOff rule token
  | rebuild token => exact h.rebuild rule hread
  | opens token opening =>
      have hnone : ∀ s ∈ w.slots, s.token ≠ token := by simpa [Watched.settled] using hop
      show Held K S (w.opens token opening)
      have ht : Tidy (w.opens token opening) := ht
      unfold Watched.opens at ht ⊢
      split_ifs at ht ⊢ with hin
      · exact h
      · cases htake : opening.take token w.record with
        | none => exact h
        | some taken =>
            obtain ⟨r', phase⟩ := taken
            simp only [htake] at ht ⊢
            obtain ⟨hK, hS⟩ := rule.opens h.record htake
            have hheld : r'.lease = some token := takes_lease htake
            refine ⟨ht, hK, fun s hs hs' => ?_⟩
            rcases List.mem_append.mp hs with hs | hs
            · -- No other slot has this token, so only the new one is held.
              rw [hheld, Option.some.injEq] at hs'
              exact absurd hs'.symm (hnone s hs)
            · rw [List.mem_singleton.mp hs]
              exact hS
  | outside op =>
      unfold Watched.step
      dsimp only
      cases hwrite : op.write w.record with
      | none => exact h
      | some r' =>
          obtain ⟨⟨es, hstirs⟩, hlease⟩ := outside_ok hwrite
          obtain ⟨hK, hS⟩ := rule.outside h.record hstirs
          refine ⟨⟨h.tidy.single, h.tidy.away⟩, hK, fun s hs hheld => ?_⟩
          rcases hlease with hl | hl | ⟨token, main, rfl, hl⟩
          · exact hS _ (h.slots s hs (hl ▸ hheld))
          · rw [show r'.lease = none from hl] at hheld
            cases hheld
          · have hnone : ∀ s ∈ w.slots, s.token ≠ token := by simpa [Watched.settled] using hop
            rw [show r'.lease = some token from hl, Option.some.injEq] at hheld
            exact absurd hheld.symm (hnone s hs)

end SlotRule

end Dagq
