/-
# Dagq.Lib.Txn -- transactions with rollback, and what they preserve.

A transaction over a state `σ` either refuses with an error or returns a value and a new state; a
refused one leaves the state it was started in.  `Txn.Moves R m` says that every successful run of
`m` moves the state along the preorder `R`: reads and refusals move nothing, and two transactions
that each move along `R` still do when one follows the other.  Instance search walks the `do` block
of an operation by these rules, and a fact carried by `R` then holds of whole histories.

Nothing here names a queue: the state, the errors and the relation are arbitrary.
-/
import Mathlib.Logic.Relation
import Mathlib.Order.Defs.Unbundled

namespace Dagq.Lib

variable {σ ε α β : Type}

/-- A transaction over the state `σ`: a value and the state it leaves, or a refusal. -/
abbrev Txn (σ ε α : Type) : Type := StateT σ (Except ε) α

namespace Txn

/-! ## The steps a transaction is written with -/

/-- Read something off the state. -/
def read (f : σ → α) : Txn σ ε α := fun s => .ok (f s, s)

/-- Change the state. -/
def write (f : σ → σ) : Txn σ ε Unit := fun s => .ok ((), f s)

/-- Refuse: nothing written so far survives. -/
def fail (e : ε) : Txn σ ε α := fun _ => .error e

/-- Refuse with `e` unless `c` holds. -/
def ensure (c : Prop) [Decidable c] (e : ε) : Txn σ ε Unit := if c then pure () else fail e

/-- The value of a computation that does not touch the state, or its refusal. -/
def lift (r : Except ε α) : Txn σ ε α := fun s => r.map (·, s)

/-- The value an optional read found, or the refusal `e`. -/
def found (e : ε) (r : Option α) : Txn σ ε α := lift (match r with | some a => .ok a | none => .error e)

/-- Go on with `k` when there is a value, with `n` when there is none. -/
def option (o : Option α) (n : Txn σ ε β) (k : α → Txn σ ε β) : Txn σ ε β :=
  match o with
  | some a => k a
  | none => n

/-- Run `m` on every element in order and collect what it returns. -/
def collect {γ : Type} (m : γ → Txn σ ε β) : List γ → Txn σ ε (List β)
  | [] => pure []
  | x :: xs => do
      let b ← m x
      let bs ← collect m xs
      return b :: bs

/-- Run `m` only when `c` holds. -/
def when (c : Prop) [Decidable c] (m : Txn σ ε Unit) : Txn σ ε Unit := if c then m else pure ()

/-- The state a transaction leaves behind: the one it wrote, or the one it started in when it
refused. -/
def commit (m : Txn σ ε α) (s : σ) : σ :=
  match m s with
  | .ok (_, s') => s'
  | .error _ => s

/-- Whether the transaction is accepted in `s`. -/
def accepts (m : Txn σ ε α) (s : σ) : Bool :=
  match m s with
  | .ok _ => true
  | .error _ => false

/-! ## What an accepted transaction did -/

@[simp] theorem pure_ok {a b : α} {s s' : σ} :
    (pure a : Txn σ ε α) s = .ok (b, s') ↔ a = b ∧ s = s' := by
  show (Except.ok (a, s) : Except ε (α × σ)) = .ok (b, s') ↔ _
  rw [Except.ok.injEq, Prod.mk.injEq]

@[simp] theorem read_ok {f : σ → α} {b : α} {s s' : σ} :
    (read f : Txn σ ε α) s = .ok (b, s') ↔ f s = b ∧ s = s' := by
  simp [read]

@[simp] theorem write_ok {f : σ → σ} {u : Unit} {s s' : σ} :
    (write f : Txn σ ε Unit) s = .ok (u, s') ↔ f s = s' := by
  simp [write]

@[simp] theorem fail_ok {e : ε} {b : α} {s s' : σ} :
    (fail e : Txn σ ε α) s = .ok (b, s') ↔ False := by
  simp [fail]

@[simp] theorem ensure_ok {c : Prop} [Decidable c] {e : ε} {u : Unit} {s s' : σ} :
    (ensure c e : Txn σ ε Unit) s = .ok (u, s') ↔ c ∧ s = s' := by
  unfold ensure
  split <;> simp [*]

@[simp] theorem lift_ok {r : Except ε α} {b : α} {s s' : σ} :
    (lift r : Txn σ ε α) s = .ok (b, s') ↔ r = .ok b ∧ s = s' := by
  cases r <;> simp [lift, Except.map]

@[simp] theorem found_ok {e : ε} {r : Option α} {b : α} {s s' : σ} :
    (found e r : Txn σ ε α) s = .ok (b, s') ↔ r = some b ∧ s = s' := by
  cases r <;> simp [found]

@[simp] theorem bind_ok {m : Txn σ ε α} {k : α → Txn σ ε β} {b : β} {s s' : σ} :
    (m >>= k) s = .ok (b, s') ↔ ∃ a s₁, m s = .ok (a, s₁) ∧ k a s₁ = .ok (b, s') := by
  simp only [bind, StateT.bind, Except.bind]
  cases m s with
  | error e => simp
  | ok r =>
    constructor
    · intro h
      exact ⟨r.1, r.2, rfl, h⟩
    · rintro ⟨a, s₁, hr, h⟩
      cases hr
      exact h

@[simp] theorem when_ok {c : Prop} [Decidable c] {m : Txn σ ε Unit} {u : Unit} {s s' : σ} :
    (when c m) s = .ok (u, s') ↔ (c ∧ m s = .ok (u, s')) ∨ (¬c ∧ s = s') := by
  unfold when
  split <;> simp [*]

theorem option_ok {o : Option α} {n : Txn σ ε β} {k : α → Txn σ ε β} {b : β} {s s' : σ} :
    option o n k s = .ok (b, s') ↔
      (o = none ∧ n s = .ok (b, s')) ∨ ∃ a, o = some a ∧ k a s = .ok (b, s') := by
  cases o <;> simp [option]

/-! The same, one step ahead of the rest of a transaction: what follows a read or a guard runs in the
state they were started in. -/

theorem read_bind {f : σ → α} {k : α → Txn σ ε β} {s : σ} {r : β × σ} :
    (read f >>= k) s = .ok r ↔ k (f s) s = .ok r := Iff.rfl

theorem write_bind {f : σ → σ} {k : Unit → Txn σ ε β} {s : σ} {r : β × σ} :
    (write f >>= k) s = .ok r ↔ k () (f s) = .ok r := Iff.rfl

theorem ensure_bind {c : Prop} [Decidable c] {e : ε} {k : Unit → Txn σ ε β} {s : σ} {r : β × σ} :
    (ensure c e >>= k) s = .ok r ↔ c ∧ k () s = .ok r := by
  obtain ⟨b, s'⟩ := r
  rw [bind_ok]
  constructor
  · rintro ⟨_, s₁, hensure, hk⟩
    rw [ensure_ok] at hensure
    obtain ⟨hc, rfl⟩ := hensure
    exact ⟨hc, hk⟩
  · rintro ⟨hc, hk⟩
    exact ⟨(), s, ensure_ok.mpr ⟨hc, rfl⟩, hk⟩

theorem lift_bind {x : Except ε α} {k : α → Txn σ ε β} {s : σ} {r : β × σ} :
    (lift x >>= k) s = .ok r ↔ ∃ a, x = .ok a ∧ k a s = .ok r := by
  obtain ⟨b, s'⟩ := r
  rw [bind_ok]
  constructor
  · rintro ⟨a, s₁, hlift, hk⟩
    rw [lift_ok] at hlift
    obtain ⟨ha, rfl⟩ := hlift
    exact ⟨a, ha, hk⟩
  · rintro ⟨a, ha, hk⟩
    exact ⟨a, s, lift_ok.mpr ⟨ha, rfl⟩, hk⟩

theorem found_bind {e : ε} {o : Option α} {k : α → Txn σ ε β} {s : σ} {r : β × σ} :
    (found e o >>= k) s = .ok r ↔ ∃ a, o = some a ∧ k a s = .ok r := by
  unfold found
  rw [lift_bind]
  cases o <;> simp

/-- What follows an accepted transaction runs where that one ended. -/
theorem bind_eq {m : Txn σ ε α} {k : α → Txn σ ε β} {a : α} {s s₁ : σ} (h : m s = .ok (a, s₁)) :
    (m >>= k) s = k a s₁ := by
  simp [bind, StateT.bind, Except.bind, h]

theorem bind_error {m : Txn σ ε α} {k : α → Txn σ ε β} {e : ε} {s : σ} (h : m s = .error e) :
    (m >>= k) s = .error e := by
  simp [bind, StateT.bind, Except.bind, h]

theorem accepts_iff {m : Txn σ ε α} {s : σ} : m.accepts s = true ↔ ∃ r, m s = .ok r := by
  unfold accepts
  cases m s <;> simp

/-- A loop of guards passes exactly when each of them does, and changes nothing. -/
theorem forM_ensure_ok {γ : Type} {p : γ → Prop} [DecidablePred p] {refusal : γ → ε} {xs : List γ}
    {s s' : σ} {u : PUnit} :
    (xs.forM fun x => (ensure (p x) (refusal x) : Txn σ ε Unit)) s = .ok (u, s') ↔
      (∀ x ∈ xs, p x) ∧ s = s' := by
  induction xs with
  | nil => exact pure_ok.trans (by simp)
  | cons x xs ih =>
      show ((ensure (p x) (refusal x) : Txn σ ε Unit) >>= fun _ => _) s = .ok (u, s') ↔ _
      rw [ensure_bind, List.forall_mem_cons, and_assoc]
      exact and_congr_right fun _ => ih

/-- A loop of checks passes when each of them does, and changes nothing. -/
theorem forM_check {γ : Type} {m : γ → Txn σ ε PUnit} {check : σ → γ → Prop}
    (hm : ∀ x s u s', m x s = .ok (u, s') → s' = s ∧ check s x) {xs : List γ} {s s' : σ} {u : PUnit}
    (h : (xs.forM m) s = .ok (u, s')) : s' = s ∧ ∀ x ∈ xs, check s x := by
  induction xs with
  | nil => exact ⟨(pure_ok.mp h).2.symm, nofun⟩
  | cons x xs ih =>
      obtain ⟨_, s₁, hx, hxs⟩ := bind_ok.mp h
      obtain ⟨rfl, hcheck⟩ := hm x s _ s₁ hx
      obtain ⟨hs', hall⟩ := ih hxs
      exact ⟨hs', List.forall_mem_cons.mpr ⟨hcheck, hall⟩⟩

/-- What each round keeps of the invariant and of a preorder, the loop keeps. -/
theorem forM_of_inv {γ : Type} {m : γ → Txn σ ε PUnit} {I : σ → Prop} {R : σ → σ → Prop}
    [IsPreorder σ R] {xs : List γ}
    (hm : ∀ x ∈ xs, ∀ s u s', m x s = .ok (u, s') → I s → I s' ∧ R s s') {s s' : σ} {u : PUnit}
    (h : (xs.forM m) s = .ok (u, s')) (hs : I s) : I s' ∧ R s s' := by
  induction xs generalizing s with
  | nil =>
      obtain ⟨_, rfl⟩ := pure_ok.mp h
      exact ⟨hs, refl_of R s⟩
  | cons x xs ih =>
      obtain ⟨_, s₁, hx, hxs⟩ := bind_ok.mp h
      obtain ⟨hs₁, hR₁⟩ := hm x List.mem_cons_self s _ s₁ hx hs
      obtain ⟨hs', hR₂⟩ := ih (fun y hy => hm y (List.mem_cons_of_mem _ hy)) hxs hs₁
      exact ⟨hs', trans_of R hR₁ hR₂⟩

/-- What each round establishes of its element, and keeps of the others, holds of all after the
loop. -/
theorem forM_each {γ : Type} {m : γ → Txn σ ε PUnit} {P : γ → σ → Prop} {R : σ → σ → Prop}
    [IsPreorder σ R] {xs : List γ} (hkeep : ∀ x s s', R s s' → P x s → P x s')
    (hm : ∀ x ∈ xs, ∀ s u s', m x s = .ok (u, s') → R s s' ∧ P x s') {s s' : σ} {u : PUnit}
    (h : (xs.forM m) s = .ok (u, s')) : R s s' ∧ ∀ x ∈ xs, P x s' := by
  induction xs generalizing s with
  | nil =>
      obtain ⟨_, rfl⟩ := pure_ok.mp h
      exact ⟨refl_of R s, nofun⟩
  | cons x xs ih =>
      obtain ⟨_, s₁, hx, hxs⟩ := bind_ok.mp h
      obtain ⟨hR₁, hP⟩ := hm x List.mem_cons_self s _ s₁ hx
      obtain ⟨hR₂, hall⟩ := ih (fun y hy => hm y (List.mem_cons_of_mem _ hy)) hxs
      exact ⟨trans_of R hR₁ hR₂, List.forall_mem_cons.mpr ⟨hkeep x s₁ s' hR₂ hP, hall⟩⟩

/-- A loop over rows of a table, each under its own key: when a round on a row that is still as it was
read moves the state along a preorder and leaves the other rows alone, the whole loop does. -/
theorem forM_rows {κ ν : Type} {m : κ × ν → Txn σ ε PUnit} {g : σ → κ → Option ν}
    {R : σ → σ → Prop} [IsPreorder σ R] {rs : List (κ × ν)}
    (hm : ∀ r ∈ rs, ∀ s u s', m r s = .ok (u, s') → g s r.1 = some r.2 →
      R s s' ∧ ∀ k, k ≠ r.1 → g s' k = g s k)
    {s s' : σ} {u : PUnit} (hkeys : (rs.map Prod.fst).Nodup)
    (hrows : ∀ r ∈ rs, g s r.1 = some r.2) (h : (rs.forM m) s = .ok (u, s')) : R s s' := by
  induction rs generalizing s with
  | nil =>
      obtain ⟨_, rfl⟩ := pure_ok.mp h
      exact refl_of R s
  | cons r rs ih =>
      rw [List.map_cons, List.nodup_cons] at hkeys
      obtain ⟨hr, hrs⟩ := List.forall_mem_cons.mp hrows
      obtain ⟨_, s₁, hround, hrest⟩ := bind_ok.mp h
      obtain ⟨hR, hkeep⟩ := hm r List.mem_cons_self s _ s₁ hround hr
      refine trans_of R hR (ih (fun r' hr' => hm r' (List.mem_cons_of_mem _ hr')) hkeys.2
        (fun r' hr' => ?_) hrest)
      have hne : r'.1 ≠ r.1 := fun heq => hkeys.1 (heq ▸ List.mem_map_of_mem hr')
      rw [hkeep r'.1 hne]
      exact hrs r' hr'

/-- A refused transaction leaves the state it was started in. -/
theorem commit_of_refused {m : Txn σ ε α} {s : σ} (h : m.accepts s = false) : m.commit s = s := by
  unfold accepts at h
  unfold commit
  cases hm : m s with
  | ok r => simp [hm] at h
  | error e => rfl

theorem commit_of_ok {m : Txn σ ε α} {s s' : σ} {a : α} (h : m s = .ok (a, s')) :
    m.commit s = s' := by
  rw [commit, h]

theorem commit_of_error {m : Txn σ ε α} {s : σ} {e : ε} (h : m s = .error e) : m.commit s = s := by
  rw [commit, h]

/-- Dropping the result changes nothing of what is committed. -/
theorem commit_discard {m : Txn σ ε α} {s : σ} :
    (do let _ ← m; pure () : Txn σ ε Unit).commit s = m.commit s := by
  cases hm : m s with
  | ok r =>
      have hdiscard : (do let _ ← m; pure () : Txn σ ε Unit) s = .ok ((), r.2) :=
        bind_ok.mpr ⟨r.1, r.2, hm, rfl⟩
      rw [commit_of_ok hdiscard, commit_of_ok hm]
  | error e =>
      have hdiscard : (do let _ ← m; pure () : Txn σ ε Unit) s = .error e := by
        simp [bind, StateT.bind, Except.bind, hm]
      rw [commit_of_error hdiscard, commit_of_error hm]

/-- Committing either ran the transaction or changed nothing. -/
theorem commit_cases (m : Txn σ ε α) (s : σ) :
    (∃ a, m s = .ok (a, m.commit s)) ∨ m.commit s = s := by
  unfold commit
  cases hm : m s with
  | ok r => exact .inl ⟨r.1, by simp⟩
  | error e => exact .inr rfl

/-! ## Moving along a preorder -/

/-- Every accepted run of `m` moves the state along `R`.  A class, so that a transaction written with
the steps above is walked by instance search: only the transactions whose guards matter need a proof
of their own. -/
class Moves (R : σ → σ → Prop) (m : Txn σ ε α) : Prop where
  of_ok : ∀ ⦃s a s'⦄, m s = .ok (a, s') → R s s'

/-- Every accepted run of `m` leaves `f` of the state as it was. -/
abbrev Keeps {γ : Type} (f : σ → γ) (m : Txn σ ε α) : Prop := Moves (fun s s' => f s' = f s) m

namespace Moves

variable {R S : σ → σ → Prop}

theorem mono {m : Txn σ ε α} (h : Moves R m) (hRS : ∀ ⦃s s'⦄, R s s' → S s s') : Moves S m :=
  ⟨fun _ _ _ hm => hRS (h.of_ok hm)⟩

theorem of_write {f : σ → σ} (h : ∀ s, R s (f s)) : Moves R (Txn.write f : Txn σ ε Unit) := by
  refine ⟨fun s a s' hw => ?_⟩
  rw [write_ok] at hw
  exact hw ▸ h s

instance ite {c : Prop} [Decidable c] {m n : Txn σ ε α} [hm : Moves R m] [hn : Moves R n] :
    Moves R (if c then m else n) := by
  split
  · exact hm
  · exact hn

section Preorder

variable [IsPreorder σ R]

instance pure (a : α) : Moves R (Pure.pure a : Txn σ ε α) := by
  refine ⟨fun s b s' h => ?_⟩
  rw [pure_ok] at h
  exact h.2 ▸ refl_of R s

instance read (f : σ → α) : Moves R (Txn.read f : Txn σ ε α) := by
  refine ⟨fun s b s' h => ?_⟩
  rw [read_ok] at h
  exact h.2 ▸ refl_of R s

instance lift (r : Except ε α) : Moves R (Txn.lift r : Txn σ ε α) := by
  refine ⟨fun s b s' h => ?_⟩
  rw [lift_ok] at h
  exact h.2 ▸ refl_of R s

instance found (e : ε) (r : Option α) : Moves R (Txn.found e r : Txn σ ε α) := lift _

instance ensure (c : Prop) [Decidable c] (e : ε) : Moves R (Txn.ensure c e : Txn σ ε Unit) := by
  refine ⟨fun s b s' h => ?_⟩
  rw [ensure_ok] at h
  exact h.2 ▸ refl_of R s

instance bind {m : Txn σ ε α} {k : α → Txn σ ε β} [hm : Moves R m] [hk : ∀ a, Moves R (k a)] :
    Moves R (m >>= k) := by
  refine ⟨fun s b s' h => ?_⟩
  obtain ⟨a, s₁, h₁, h₂⟩ := bind_ok.mp h
  exact trans_of R (hm.of_ok h₁) ((hk a).of_ok h₂)

instance option {o : Option α} {n : Txn σ ε β} {k : α → Txn σ ε β} [hn : Moves R n]
    [hk : ∀ a, Moves R (k a)] : Moves R (Txn.option o n k) := by
  cases o with
  | none => exact hn
  | some a => exact hk a

instance when {c : Prop} [Decidable c] {m : Txn σ ε Unit} [hm : Moves R m] :
    Moves R (Txn.when c m) := by
  unfold Txn.when
  split
  · exact hm
  · exact pure ()

/-- A loop moves along `R` when every round over one of its elements does. -/
theorem forM_of_mem {γ : Type} {m : γ → Txn σ ε PUnit} {xs : List γ}
    (hm : ∀ x ∈ xs, Moves R (m x)) : Moves R (xs.forM m) := by
  induction xs with
  | nil => exact pure _
  | cons x xs ih =>
      have hx := hm x List.mem_cons_self
      have hxs := ih fun y hy => hm y (List.mem_cons_of_mem _ hy)
      exact bind

instance forM {γ : Type} {m : γ → Txn σ ε PUnit} [hm : ∀ x, Moves R (m x)] (xs : List γ) :
    Moves R (xs.forM m) :=
  forM_of_mem fun x _ => hm x

/-- A loop that collects results moves along `R` when every round does. -/
instance collect {γ : Type} {m : γ → Txn σ ε β} [hm : ∀ x, Moves R (m x)] (xs : List γ) :
    Moves R (Txn.collect m xs) := by
  induction xs with
  | nil => exact pure _
  | cons x xs ih =>
      unfold Txn.collect
      infer_instance

/-- The state a committed transaction leaves is reached along `R`, refused or not. -/
theorem commit {m : Txn σ ε α} (h : Moves R m) (s : σ) : R s (m.commit s) := by
  rcases commit_cases m s with ⟨a, ha⟩ | hs
  · exact h.of_ok ha
  · rw [hs]
    exact refl_of R s

end Preorder

end Moves

instance keepsPreorder {γ : Type} (f : σ → γ) : IsPreorder σ (fun s s' => f s' = f s) where
  refl _ := rfl
  trans _ _ _ h₁ h₂ := h₂.trans h₁

end Txn

end Dagq.Lib
