/-
# Dagq.Domain.Values -- the enumerations, identifiers and rejections of the domain.

Identifiers of rows are the numbers the queue hands out; run ids, lease tokens and commit ids are
texts the program only ever compares, so they are numbers here too.  Times written to `created_at`
and `updated_at` columns are not kept: nothing reads them back.  Unix seconds that a rule compares
(heartbeats, closes) are integers.
-/

namespace Dagq

abbrev TaskId := Nat
abbrev GoalId := Nat
abbrev RunId := Nat
abbrev ProposalId := Nat
abbrev PlanReviewId := Nat
abbrev AskId := Nat
abbrev FindingId := Nat
abbrev PlannerId := Nat

/-- A supervisor's (or a manual landing's) lease token. -/
abbrev Token := Nat

abbrev Pid := Nat

/-- A full Git object id. -/
abbrev CommitSha := Nat

/-- Unix seconds. -/
abbrev Seconds := Int

inductive TaskStatus
  | draft | submitted | ready | inProgress | completed | canceled
  deriving DecidableEq

inductive TaskKind
  | docs | plugin | runtime | ci
  deriving DecidableEq

inductive RunStatus
  | claimed | starting | running | validating | awaitingIntegration | integrating | needsSession
  | integrated | succeeded | failed | interrupted
  deriving DecidableEq

inductive GoalStatus
  | draft | open
  deriving DecidableEq

inductive GoalVerdict
  | achieved | abandoned
  deriving DecidableEq

inductive ProposalStatus
  | submitted | revising | accepted | canceled
  deriving DecidableEq

inductive PlannerOrigin
  | person | runtime
  deriving DecidableEq

inductive EvidenceCheck
  | tests | e2e | subagentReview
  deriving DecidableEq

/-- A vertex of the graph of who waits for whom. -/
inductive Node
  | task (id : TaskId)
  | goal (id : GoalId)
  deriving DecidableEq

/-- How urgently a person wants a task claimed, lowest first. -/
inductive Priority
  | low | normal | high | urgent | interrupt
  deriving DecidableEq

/-- The stored value of a priority: `low` is 0, `interrupt` is 4. -/
def Priority.asI64 : Priority → Nat
  | .low => 0
  | .normal => 1
  | .high => 2
  | .urgent => 3
  | .interrupt => 4

/-- What moves a task between statuses by hand or by plan review. -/
inductive TaskAction
  | ready | draft | cancel | submit | approve | bypassReview | reopen
  deriving DecidableEq

/-- What an ask waits for a person to decide; `other` is a kind a newer binary wrote. -/
inductive AskKind
  | approveLanding | answerPrompt | decide | workerQuestion | blocked | stuckExit | followUp
  | stalled | approvePlan | plannerQuestion | queueHold | updateFailed | approveUpdate
  | other (value : String)
  deriving DecidableEq

/-- Why an ask needs a person. -/
inductive AskReason
  | authentication | cost | scope | discard | recoveryFailed
  deriving DecidableEq

/-- A rejection by the domain.  Each constructor carries what its message needs. -/
inductive DomainError
  | unknownValue (kind value : String)
  | taskHasUnfinishedRun (action : TaskAction)
  | transitionNotAllowed (status : TaskStatus) (action : TaskAction)
  | goalClosed (goalId : GoalId) (verdict : Option GoalVerdict)
  | readyNeedsPlanReview (status : TaskStatus)
  | taskNotEditable (what : String)
  | taskContentNotEditable (taskId : TaskId) (status : TaskStatus)
  | selfDependency
  | dependencyCycle (taskId predecessorId : TaskId)
  | ownGoalDependency (goalId : GoalId)
  | goalDependencyCycle (taskId : TaskId) (goalId : GoalId)
  | goalMembershipCycle (taskId : TaskId) (goalId : GoalId)
  | emptyProposal
  | taskInOtherProposal (taskId : TaskId) (proposalId : ProposalId)
  | goalInOtherProposal (goalId : GoalId) (proposalId : ProposalId)
  | proposalNotInStatus (proposalId : ProposalId) (status expected : ProposalStatus)
  | proposalNotActive (proposalId : ProposalId) (status : ProposalStatus)
  | blank (field : String)
  | nonPositiveId (field : String)
  | goalAlreadyClosed (goalId : GoalId) (verdict : Option GoalVerdict)
  | goalCloseBlocked (goalId : GoalId) (verdict : GoalVerdict) (blocking : List (TaskStatus × Nat))
  | goalNotDraft (goalId : GoalId)
  | taskNotClaimable (taskId : TaskId) (status : TaskStatus)
  | runOfUnclaimedTask (taskId : TaskId) (status : TaskStatus)
  | runTransitionNotAllowed (status : RunStatus) (operation : String)
  | invalidPathGlob (glob reason : String)
  | askFindingNotBlocked (kind : AskKind)
  | askWithoutTarget (kind : AskKind)
  | updateAskWithTarget (kind : AskKind)
  | askKindReason (kind : AskKind) (reason : AskReason)
  | askHoldsTheQueue (reason : AskReason)
  | holdWithoutQueueReason (reason : AskReason)

/-- Fails with `error` unless `condition` holds. -/
def require (condition : Bool) (error : DomainError) : Except DomainError Unit :=
  if condition then .ok () else .error error

@[simp] theorem require_ok {c : Bool} {e : DomainError} {u : Unit} :
    require c e = .ok u ↔ c = true := by
  unfold require
  split <;> simp [*]

/-- Inverting a bind of a rejection: both halves were accepted. -/
@[simp] theorem except_bind_ok {ε α β : Type} {x : Except ε α} {f : α → Except ε β} {b : β} :
    (x >>= f) = .ok b ↔ ∃ a, x = .ok a ∧ f a = .ok b := by
  cases x <;> simp [bind, Except.bind]

@[simp] theorem except_pure_ok {ε α : Type} {a b : α} :
    (pure a : Except ε α) = .ok b ↔ a = b := by
  simp [pure, Except.pure]

@[simp] theorem except_map_ok {ε α β : Type} {x : Except ε α} {f : α → β} {b : β} :
    (f <$> x) = .ok b ↔ ∃ a, x = .ok a ∧ f a = b := by
  cases x <;> simp [Functor.map, Except.map]

/-! ## Texts -/

/-- The Unicode white space `trim` removes. -/
def isWhitespace (c : Char) : Bool :=
  let n := c.toNat
  (9 ≤ n && n ≤ 13) || n = 32 || n = 0x85 || n = 0xA0 || n = 0x1680 || (0x2000 ≤ n && n ≤ 0x200A)
    || n = 0x2028 || n = 0x2029 || n = 0x202F || n = 0x205F || n = 0x3000

/-- `s.trim().is_empty()`. -/
def isBlank (s : String) : Bool := s.toList.all isWhitespace

/-- The elements in the order given, each once. -/
def dedup {α : Type} [DecidableEq α] (xs : List α) : List α :=
  xs.foldl (fun unique x => if x ∈ unique then unique else unique ++ [x]) []

theorem mem_dedup {α : Type} [DecidableEq α] {xs : List α} {a : α} : a ∈ dedup xs ↔ a ∈ xs := by
  have hfold : ∀ ys acc : List α,
      a ∈ ys.foldl (fun unique x => if x ∈ unique then unique else unique ++ [x]) acc ↔
        a ∈ acc ∨ a ∈ ys := by
    intro ys
    induction ys with
    | nil => simp
    | cons y ys ih =>
        intro acc
        rw [List.foldl_cons, ih]
        by_cases hy : y ∈ acc
        · rw [if_pos hy, List.mem_cons]
          constructor
          · rintro (h | h)
            · exact .inl h
            · exact .inr (.inr h)
          · rintro (h | rfl | h)
            · exact .inl h
            · exact .inl hy
            · exact .inr h
        · rw [if_neg hy]
          simp [or_assoc]
  unfold dedup
  rw [hfold]
  simp

theorem dedup_nodup {α : Type} [DecidableEq α] (xs : List α) : (dedup xs).Nodup := by
  have hfold : ∀ ys acc : List α, acc.Nodup →
      (ys.foldl (fun unique x => if x ∈ unique then unique else unique ++ [x]) acc).Nodup := by
    intro ys
    induction ys with
    | nil => exact fun _ h => h
    | cons y ys ih =>
        intro acc hacc
        rw [List.foldl_cons]
        split
        · exact ih acc hacc
        · rename_i hy
          refine ih _ (List.nodup_append.mpr ⟨hacc, by simp, fun a ha b hb => ?_⟩)
          rw [List.mem_singleton.mp hb]
          exact fun hab => hy (hab ▸ ha)
  exact hfold xs [] List.nodup_nil

theorem foldl_max_le_iff {xs : List Nat} {a n : Nat} :
    xs.foldl max a ≤ n ↔ a ≤ n ∧ ∀ x ∈ xs, x ≤ n := by
  induction xs generalizing a with
  | nil => simp
  | cons x xs ih =>
      rw [List.foldl_cons, ih, Nat.max_le, List.forall_mem_cons, and_assoc]

/-- The segments of `s` between `/`. -/
def segments (s : String) : List (List Char) := s.toList.splitOn '/'

/-- Check the globs a task declares: none blank, none absolute, none with a `.` or `..` segment. -/
def validatePathGlobs (globs : List String) : Except DomainError Unit :=
  globs.forM fun glob => do
    require (!isBlank glob) (.invalidPathGlob glob "it is blank")
    require (glob.toList.head? != some '/')
      (.invalidPathGlob glob "it must be relative to the repository root")
    require (!(segments glob).any fun s => s = ['.'] || s = ['.', '.'])
      (.invalidPathGlob glob "it must not have a . or .. segment")
    require (!(segments glob).any List.isEmpty)
      (.invalidPathGlob glob "it must not have an empty segment")

example : (validatePathGlobs ["docs/**", "a/b?c"]).isOk = true ∧
    (validatePathGlobs ["docs/../src"]).isOk = false := by decide

end Dagq
