/-
# Dagq.Landing.Git -- what a landing relies on of git, and how it moves `main`.

Commits are named by their content, so what a commit is and how two commits differ never changes; only
references do.  Git itself is a parameter, with the documented behaviour of `commit-tree` and of
ancestry.  How `main` is moved is the adapter's: where a worktree has `main` checked out the new commit
is merged there, fast-forward only, and elsewhere the reference is updated if it still has the expected
value.
-/
import Dagq.Domain.Values

namespace Dagq.Landing

/-- Git's objects; `T` are its trees. -/
structure Git (T : Type) where
  parents : CommitSha → List CommitSha
  tree : CommitSha → T
  /-- `git commit-tree`; the last argument is what the clock adds to the commit. -/
  commitTree : T → CommitSha → List String → Nat → CommitSha
  /-- Whether the first commit is the second one or an ancestor of it. -/
  isAncestor : CommitSha → CommitSha → Bool
  /-- `git diff --name-only --no-renames`, which compares trees. -/
  changedPaths : T → T → List String
  /-- The paths the second tree adds over the first. -/
  addedPaths : T → T → List String
  pathsIn : T → String → List String
  /-- Which of the paths contain the text. -/
  pathsContaining : T → String → List String → List String
  tree_commitTree : ∀ t parent message stamp, tree (commitTree t parent message stamp) = t
  parents_commitTree : ∀ t parent message stamp,
    parents (commitTree t parent message stamp) = [parent]
  isAncestor_iff : ∀ a c, isAncestor a c = true ↔ a = c ∨ ∃ p ∈ parents c, isAncestor a p = true
  acyclic : ∀ c, ∀ p ∈ parents c, isAncestor c p = false

/-- What becomes of a command that is to move `main`. -/
structure Updating where
  /-- Whether a worktree has `main` checked out. -/
  checkedOut : Bool
  /-- That worktree switched to another branch since it was looked up. -/
  leftMain : Bool := false
  /-- Its local changes collide with the merge, or git fails for another reason of its own. -/
  collides : Bool := false
  /-- Git is killed at its deadline, after it moved the reference. -/
  cutOff : Bool := false

section Update

variable {T : Type} (git : Git T)

/-- `git merge --ff-only to` on `current`: where `current` is moved to, or nowhere when the merge is
refused. -/
def mergeFfOnly (current target : CommitSha) : Option CommitSha :=
  if git.isAncestor target current = true then some current
  else if git.isAncestor current target = true then some target
  else none

/-- `advance_main`: the commit `main` is at afterwards, and whether success is reported. -/
def advance (how : Updating) (current source target : CommitSha) : CommitSha × Bool :=
  if how.collides = true then (current, false)
  else if how.checkedOut = true then
    -- The expected value is not looked at here.
    if how.leftMain = true then (current, !how.cutOff)
    else match mergeFfOnly git current target with
      | some main => (main, !how.cutOff)
      | none => (current, false)
  else if current = source then (target, !how.cutOff)
  else (current, false)

end Update

namespace Git

variable {T : Type} (git : Git T)

theorem isAncestor_self (c : CommitSha) : git.isAncestor c c = true :=
  (git.isAncestor_iff c c).mpr (.inl rfl)

/-- A commit just made is on top of its parent. -/
theorem parent_isAncestor {c p : CommitSha} (h : p ∈ git.parents c) :
    git.isAncestor p c = true :=
  (git.isAncestor_iff p c).mpr (.inr ⟨p, h, git.isAncestor_self p⟩)

theorem ne_parent {c p : CommitSha} (h : p ∈ git.parents c) : c ≠ p := by
  rintro rfl
  have hnot := git.acyclic c c h
  rw [git.isAncestor_self] at hnot
  cases hnot

end Git

/-! ## When `main` is moved as it should -/

section Fits

variable {T : Type} (git : Git T)

/-- Git refuses to move `main` at all, or is cut off where there is nothing to move. -/
def Updating.refused (how : Updating) (current source target : CommitSha) : Bool :=
  how.collides ||
    if how.checkedOut then
      (how.cutOff && (how.leftMain || git.isAncestor target current)) ||
        (!how.leftMain && !git.isAncestor target current && !git.isAncestor current target)
    else current != source

/-- Nothing comes between the main that `source` was read from and its update. -/
def Updating.undisturbed (how : Updating) (current source : CommitSha) : Bool :=
  current = source && !(how.checkedOut && how.leftMain) && !how.cutOff

/-- `main` moves by the new commit alone when that is reported, and not at all otherwise, exactly if
the update is refused or undisturbed. -/
theorem advance_exact {how : Updating} {current source target : CommitSha}
    (hparent : source ∈ git.parents target) :
    (((advance git how current source target).2 = true →
        current = source ∧ (advance git how current source target).1 = target) ∧
      ((advance git how current source target).2 = false →
        (advance git how current source target).1 = current)) ↔
    how.refused git current source target = true ∨ how.undisturbed current source = true := by
  have hne : target ≠ source := git.ne_parent hparent
  have habove : git.isAncestor source target = true := git.parent_isAncestor hparent
  have hnot : git.isAncestor target source = false := git.acyclic target source hparent
  unfold advance mergeFfOnly Updating.refused Updating.undisturbed
  by_cases hcollides : how.collides = true
  · simp [hcollides]
  · simp only [Bool.not_eq_true] at hcollides
    by_cases hcheckout : how.checkedOut = true
    · by_cases hleft : how.leftMain = true
      · -- The merge is made into the branch the worktree left for.
        cases hcut : how.cutOff with
        | true => simp [hcollides, hcheckout, hleft]
        | false =>
            have hstays : current = source → current ≠ target :=
              fun hsame heq => hne (heq.symm.trans hsame)
            simpa [hcollides, hcheckout, hleft] using hstays
      · simp only [Bool.not_eq_true] at hleft
        cases hhas : git.isAncestor target current with
        | true =>
            -- Already up to date: nothing moves.
            cases hcut : how.cutOff with
            | true => simp [hcollides, hcheckout, hleft]
            | false =>
                have hmoved : current ≠ source := by
                  rintro rfl
                  rw [hnot] at hhas
                  cases hhas
                simp [hcollides, hcheckout, hleft, hmoved]
        | false =>
            cases hbelow : git.isAncestor current target with
            | false => simp [hcollides, hcheckout, hleft]
            | true =>
                cases hcut : how.cutOff with
                | false => simp [hcollides, hcheckout, hleft]
                | true =>
                    have hmoves : target ≠ current := by
                      rintro rfl
                      rw [git.isAncestor_self] at hhas
                      cases hhas
                    simp [hcollides, hcheckout, hleft, hmoves]
    · simp only [Bool.not_eq_true] at hcheckout
      by_cases hsame : current = source
      · subst hsame
        cases hcut : how.cutOff <;> simp [hcollides, hcheckout, hne]
      · simp [hcollides, hcheckout, hsame]

end Fits

end Dagq.Landing
