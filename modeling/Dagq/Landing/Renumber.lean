/-
# Dagq.Landing.Renumber -- what a landing does with the number of a migration.

`main` may have taken the number of a migration while the run was open.  The run's only migration is then
moved past every number it did not bring itself; a collision of several is left to a session.  What the
run adds is held apart from what it finds, and from nothing else: two migrations the run itself adds under
one number pass unseen.
-/
import Dagq.Landing.Land

namespace Dagq.Landing

open Lib MigrationNumbers

/-! ## The migrations of a landing -/

section Trees

variable {T : Type} (git : Git T)

/-- The file names of the migrations the run adds. -/
def addedMigrations (main rebased : CommitSha) : List String :=
  (git.addedPaths (git.tree main) (git.tree rebased)).filterMap inDirectory

/-- The file names of the migrations of a commit. -/
def migrationsOf (c : CommitSha) : List String :=
  (git.pathsIn (git.tree c) directory).filterMap inDirectory

/-- The migrations of the rebased tree that the run did not add. -/
def keptMigrations (main rebased : CommitSha) : List String :=
  (migrationsOf git rebased).filter fun name => !(addedMigrations git main rebased).contains name

/-- One past every number that is kept. -/
def nextNumber (main rebased : CommitSha) : Nat :=
  ((keptMigrations git main rebased).filterMap number).foldl max 0 + 1

/-- The head whose tree lands, when the numbers were settled. -/
def Renumbering.head (rebased : CommitSha) : Renumbering → Option CommitSha
  | .unchanged => some rebased
  | .renumbered head => some head
  | .blocked _ => none

/-- The migrations the run adds, under the names they then have. -/
def Renumbering.adds (main rebased : CommitSha) : Renumbering → List String
  | .renumbered _ => (addedMigrations git main rebased).map fun name =>
      MigrationNumbers.renumbered name (nextNumber git main rebased)
  | _ => addedMigrations git main rebased

/-- The commit is the rebased one with the file `source` moved to `target`. -/
def MovesFile (rebased head : CommitSha) (source target : String) : Prop :=
  ∀ path, path ∈ git.pathsIn (git.tree head) directory ↔
    path = target ∨ (path ∈ git.pathsIn (git.tree rebased) directory ∧ path ≠ source)

end Trees

/-! ## What is decided -/

section Outcome

variable {T : Type} {git : Git T} {host : Host T} {id : RunId} {main rebased : CommitSha}
  {next : Nat} {taken : List String} {name : String} {outcome : Renumbering} {w w' : World}

/-- A move is refused or made. -/
theorem moveMigration_ok
    (h : moveMigration git host id main rebased next taken name w = (.ok outcome, w')) :
    outcome = .renumbered host.renamedHead ∨ ∃ reason, outcome = .blocked reason := by
  unfold moveMigration at h
  simp only [Attempt.bind_ok, call_ok] at h
  obtain ⟨changed, w₁, ⟨_, rfl, rfl⟩, referring, w₂, ⟨_, rfl, rfl⟩, h⟩ := h
  split at h
  · obtain ⟨rfl, _⟩ := Attempt.pure_ok.mp h
    exact .inr ⟨_, rfl⟩
  · simp only [Attempt.bind_ok, call_ok] at h
    obtain ⟨_, _, ⟨_, rfl, _⟩, _, _, _, h⟩ := h
    obtain ⟨rfl, _⟩ := Attempt.pure_ok.mp h
    exact .inl rfl

/-- Nothing is changed where no number is taken, and only the one migration of a run is moved. -/
theorem renumberMigration_ok (h : renumberMigration git host id main rebased w = (.ok outcome, w')) :
    (outcome = .unchanged ∧ ∀ name ∈ addedMigrations git main rebased,
      (number name).getD 0 ∉ (keptMigrations git main rebased).filterMap number) ∨
    (outcome = .renumbered host.renamedHead ∧
      ∃ name, addedMigrations git main rebased = [name]) ∨
    ∃ reason, outcome = .blocked reason := by
  unfold renumberMigration at h
  simp only [Attempt.bind_ok, call_ok] at h
  obtain ⟨_, _, ⟨_, rfl, rfl⟩, h⟩ := h
  split at h
  · rename_i hnone
    obtain ⟨rfl, _⟩ := Attempt.pure_ok.mp h
    -- Nothing is added, so nothing can collide.
    refine .inl ⟨rfl, fun name hname => ?_⟩
    rw [addedMigrations, hnone] at hname
    exact absurd hname List.not_mem_nil
  · rename_i hsome
    simp only [Attempt.bind_ok, call_ok] at h
    obtain ⟨_, _, ⟨_, rfl, rfl⟩, h⟩ := h
    split at h
    · rename_i hnone
      obtain ⟨rfl, _⟩ := Attempt.pure_ok.mp h
      refine .inl ⟨rfl, fun name hname => ?_⟩
      exact fun hmem => List.filter_eq_nil_iff.mp hnone name hname (List.contains_iff_mem.mpr hmem)
    · split at h
      · obtain ⟨rfl, _⟩ := Attempt.pure_ok.mp h
        exact .inr (.inr ⟨_, rfl⟩)
      · rename_i hone
        rcases moveMigration_ok h with hmoved | hblocked
        · refine .inr (.inl ⟨hmoved, ?_⟩)
          -- One at most, by the guard, and one at least.
          have hpos : 0 < (addedMigrations git main rebased).length :=
            List.length_pos_iff.mpr hsome
          exact List.length_eq_one_iff.mp (Nat.le_antisymm (Nat.not_lt.mp hone) hpos)
        · exact .inr (.inr hblocked)

/-! ## Numbers held apart -/

theorem lt_nextNumber {other : String} {n : Nat} (hother : other ∈ keptMigrations git main rebased)
    (hn : number other = some n) : n < nextNumber git main rebased := by
  have hmem : n ∈ (keptMigrations git main rebased).filterMap number :=
    List.mem_filterMap.mpr ⟨other, hother, hn⟩
  have hle : n ≤ ((keptMigrations git main rebased).filterMap number).foldl max 0 :=
    (foldl_max_le_iff.mp (Nat.le_refl _)).2 n hmem
  exact Nat.lt_succ_of_le hle

theorem isSome_of_added (h : name ∈ addedMigrations git main rebased) : (number name).isSome := by
  obtain ⟨path, _, hpath⟩ := List.mem_filterMap.mp h
  exact (inDirectory_eq_some.mp hpath).2

theorem mem_migrationsOf {c : CommitSha} : name ∈ migrationsOf git c ↔
    pathOf name ∈ git.pathsIn (git.tree c) directory ∧ (number name).isSome := by
  simp only [migrationsOf, List.mem_filterMap, inDirectory_eq_some]
  constructor
  · rintro ⟨_, hpath, rfl, hnumber⟩
    exact ⟨hpath, hnumber⟩
  · rintro ⟨hpath, hnumber⟩
    exact ⟨_, hpath, rfl, hnumber⟩

theorem mem_keptMigrations {other : String} : other ∈ keptMigrations git main rebased ↔
    other ∈ migrationsOf git rebased ∧ other ∉ addedMigrations git main rebased := by
  rw [keptMigrations, List.mem_filter, Bool.not_eq_true', List.contains_eq_mem, decide_eq_false_iff_not]

/-- After a move the tree holds the moved migration and what was kept. -/
theorem mem_of_moved {head : CommitSha} {other : String}
    (hadded : addedMigrations git main rebased = [name])
    (hmoves : MovesFile git rebased head (pathOf name) (pathOf (renumbered name next)))
    (hother : other ∈ migrationsOf git head) :
    other = renumbered name next ∨ other ∈ keptMigrations git main rebased := by
  obtain ⟨hpath, hnumber⟩ := mem_migrationsOf.mp hother
  rcases (hmoves _).mp hpath with heq | ⟨hpath, hne⟩
  · exact .inl (pathOf_inj heq)
  · refine .inr (mem_keptMigrations.mpr ⟨mem_migrationsOf.mpr ⟨hpath, hnumber⟩, fun hin => hne ?_⟩)
    rw [hadded] at hin
    rw [List.mem_singleton.mp hin]

/-- Once the numbers are settled no migration the run adds shares its number with another one of the
tree, unless the run itself adds both; and a moved migration is read with the next number, which is past
every number the run did not bring, while that has four digits. -/
theorem landed_migrations_apart {T : Type} (git : Git T) (host : Host T) (id : RunId)
    (main rebased head : CommitSha) (w : World) (outcome : Renumbering)
    (h : (renumberMigration git host id main rebased w).1 = .ok outcome)
    (hhead : outcome.head rebased = some head)
    (hmoves : outcome = .renumbered head → ∀ name, addedMigrations git main rebased = [name] →
      MovesFile git rebased head (pathOf name) (pathOf (renumbered name (nextNumber git main rebased)))) :
    (∀ name ∈ outcome.adds git main rebased, ∀ other ∈ migrationsOf git head, other ≠ name →
      number other = number name →
        outcome = .unchanged ∧ other ∈ addedMigrations git main rebased) ∧
    (outcome ≠ .unchanged → ∃ name, addedMigrations git main rebased = [name] ∧
      (∀ other ∈ keptMigrations git main rebased,
        ∀ n, number other = some n → n < nextNumber git main rebased) ∧
      (nextNumber git main rebased < 10 ^ 4 →
        number (renumbered name (nextNumber git main rebased)) =
          some (nextNumber git main rebased))) := by
  have hrun : renumberMigration git host id main rebased w =
      (.ok outcome, (renumberMigration git host id main rebased w).2) := by rw [← h]
  rcases renumberMigration_ok hrun with ⟨rfl, hfree⟩ | ⟨rfl, name, hadded⟩ | ⟨reason, rfl⟩
  · -- Nothing moved: no number of the run's is kept.
    cases hhead
    refine ⟨fun name hname other hother _ hsame => ⟨rfl, ?_⟩, fun hne => absurd rfl hne⟩
    by_contra hkept
    obtain ⟨n, hn⟩ := Option.isSome_iff_exists.mp (isSome_of_added hname)
    refine hfree name hname (List.mem_filterMap.mpr ⟨other, mem_keptMigrations.mpr ⟨hother, hkept⟩, ?_⟩)
    rw [hsame, hn]
    rfl
  · cases hhead
    have hname : name ∈ addedMigrations git main rebased := hadded ▸ List.mem_singleton_self name
    have hnumber : (number name).isSome := isSome_of_added hname
    refine ⟨fun moved hmoved other hother hne hsame => ?_, fun _ => ⟨name, hadded, ?_, fun hfour => ?_⟩⟩
    · -- The moved file is the only one with its number, if it has one.
      have hmoved : moved = renumbered name (nextNumber git main rebased) := by
        rw [Renumbering.adds, hadded] at hmoved
        exact List.mem_singleton.mp hmoved
      subst hmoved
      have hother := mem_of_moved hadded (hmoves rfl name hadded) hother
      have hkept := hother.resolve_left hne
      obtain ⟨n, hn⟩ := Option.isSome_iff_exists.mp (mem_migrationsOf.mp (mem_keptMigrations.mp hkept).1).2
      have hlt := lt_nextNumber hkept hn
      rw [hn, number_renumbered hnumber] at hsame
      split_ifs at hsame
      cases hsame
      exact absurd hlt (Nat.lt_irrefl _)
    · exact fun other hother n hn => lt_nextNumber hother hn
    · rw [number_renumbered hnumber, if_pos hfour]
  · cases hhead

end Outcome

/-! ## On three trees -/

deriving instance DecidableEq for Renumbering

/-- Whether the first commit is the second or stands above it: commit `c` is on top of `(c - 1) / 3`. -/
def isAbove (a : CommitSha) : CommitSha → Bool
  | 0 => a = 0
  | c + 1 => a = c + 1 || isAbove a (c / 3)
  termination_by c => c
  decreasing_by exact Nat.lt_succ_of_le (Nat.div_le_self c 3)

theorem isAbove_le {a c : CommitSha} (h : isAbove a c = true) : a ≤ c := by
  induction c using Nat.strongRecOn with
  | ind c ih =>
      cases c with
      | zero =>
          rw [isAbove, decide_eq_true_eq] at h
          exact Nat.le_of_eq h
      | succ c =>
          rw [isAbove, Bool.or_eq_true, decide_eq_true_eq] at h
          rcases h with rfl | h
          · exact Nat.le_refl _
          · have hle := ih (c / 3) (Nat.lt_succ_of_le (Nat.div_le_self c 3)) h
            exact hle.trans ((Nat.div_le_self c 3).trans (Nat.le_succ c))

/-- Histories over three trees, each given by the files it has: commit `3 * p + t + 1` is tree `t` on top
of commit `p`. -/
def threeTrees (files : Fin 3 → List String) : Git (Fin 3) where
  parents c := if c = 0 then [] else [(c - 1) / 3]
  tree c := if c = 0 then 0 else Fin.ofNat 3 (c - 1)
  -- A commit is its parent and its tree in one number, so it is above its parent.
  commitTree t parent _ _ := 3 * parent + t + 1
  isAncestor := isAbove
  changedPaths a b :=
    (files a).filter (fun path => path ∉ files b) ++ (files b).filter fun path => path ∉ files a
  addedPaths a b := (files b).filter fun path => path ∉ files a
  pathsIn t name := (files t).filter fun path => (name ++ "/").toList.isPrefixOf path.toList
  pathsContaining _ _ _ := []
  tree_commitTree t parent _ _ := by
    have hmod (p : Nat) : (3 * p + t.val) % 3 = t.val := by omega
    rw [if_neg (Nat.succ_ne_zero _), Nat.add_sub_cancel]
    exact Fin.ext (hmod parent)
  parents_commitTree t parent _ _ := by
    have hdiv (p : Nat) : (3 * p + t.val) / 3 = p := by omega
    rw [if_neg (Nat.succ_ne_zero _), Nat.add_sub_cancel, hdiv]
  isAncestor_iff a c := by
    cases c with
    | zero => simp [isAbove]
    | succ c =>
        rw [isAbove, Bool.or_eq_true, decide_eq_true_eq]
        simp
  acyclic c p hp := by
    cases c with
    | zero => cases hp
    | succ c =>
        have hparent : p = c / 3 := List.mem_singleton.mp hp
        have hlt : p < c + 1 := hparent ▸ Nat.lt_succ_of_le (Nat.div_le_self c 3)
        exact Bool.eq_false_iff.mpr fun h => Nat.not_lt.mpr (isAbove_le h) hlt

/-- Nothing fails; the move, if there is one, makes tree 2 out of the rebased commit 2. -/
def movingHost : Host (Fin 3) where
  branch := some "refs/heads/dagq/1"
  head := 2
  receipt := .missing
  headAfter := 2
  renamedHead := 9
  command _ := { found := 1, code := some 0 }
  stamp := 0
  updating := { checkedOut := true }
  now := 0

def quietWorld : World where
  main := 0
  history := none
  store := queue.run [
    .task (.add { title := "t" }),
    .task (.transition 1 .bypassReview),
    .run (.claimNext 1 0 [1])]
  refused := []

/-- `main` (tree 0) took number 7, as did the run (tree 1). -/
def takenNumber : Fin 3 → List String
  | 0 => ["migrations/0006_base.sql", "migrations/0007_theirs.sql"]
  | 1 => ["migrations/0006_base.sql", "migrations/0007_ours.sql", "migrations/0007_theirs.sql"]
  | 2 => ["migrations/0006_base.sql", "migrations/0007_theirs.sql", "migrations/0008_ours.sql"]

theorem ok_of_toOption {ε α : Type} {x : Except ε α} {a : α} (h : x.toOption = some a) : x = .ok a := by
  cases x with
  | ok b => exact congrArg Except.ok (Option.some.inj h)
  | error e => cases h

theorem moved_takenNumber (path : String) :
    path ∈ (threeTrees takenNumber).pathsIn ((threeTrees takenNumber).tree 9) directory ↔
      path = "migrations/0008_ours.sql" ∨
        (path ∈ (threeTrees takenNumber).pathsIn ((threeTrees takenNumber).tree 2) directory ∧
          path ≠ "migrations/0007_ours.sql") := by
  have hafter : (threeTrees takenNumber).pathsIn ((threeTrees takenNumber).tree 9) directory =
      ["migrations/0006_base.sql", "migrations/0007_theirs.sql", "migrations/0008_ours.sql"] := by
    decide +kernel
  have hbefore : (threeTrees takenNumber).pathsIn ((threeTrees takenNumber).tree 2) directory =
      ["migrations/0006_base.sql", "migrations/0007_ours.sql", "migrations/0007_theirs.sql"] := by
    decide +kernel
  rw [hafter, hbefore]
  simp only [List.mem_cons, List.not_mem_nil, or_false]
  constructor
  · rintro (rfl | rfl | rfl)
    · exact .inr ⟨.inl rfl, by decide⟩
    · exact .inr ⟨.inr (.inr rfl), by decide⟩
    · exact .inl rfl
  · rintro (rfl | ⟨rfl | rfl | rfl, hne⟩)
    · exact .inr (.inr rfl)
    · exact .inl rfl
    · exact absurd rfl hne
    · exact .inr (.inl rfl)

theorem renumbered_takenNumber : (renumberMigration (threeTrees takenNumber) movingHost 1 0 2
    quietWorld).1 = .ok (.renumbered 9) := ok_of_toOption (by decide +kernel)

theorem landed_migrations_apart_takenNumber :
    (∀ name ∈ ["0008_ours.sql"], ∀ other ∈ migrationsOf (threeTrees takenNumber) 9, other ≠ name →
      number other ≠ number name) ∧ number "0008_ours.sql" = some 8 := by
  have hadded : addedMigrations (threeTrees takenNumber) 0 2 = ["0007_ours.sql"] := by
    decide +kernel
  have hnext : nextNumber (threeTrees takenNumber) 0 2 = 8 := by decide +kernel
  have hname : renumbered "0007_ours.sql" 8 = "0008_ours.sql" := by decide +kernel
  obtain ⟨hapart, hmoved⟩ := landed_migrations_apart (threeTrees takenNumber) movingHost 1 0 2 9 quietWorld
    (.renumbered 9) renumbered_takenNumber rfl fun _ name hname => by
      rw [hadded] at hname
      rw [hnext, ← List.singleton_inj.mp hname]
      exact moved_takenNumber
  refine ⟨fun name hin other hother hne hsame => ?_, ?_⟩
  · have hadds : name ∈ (Renumbering.renumbered 9).adds (threeTrees takenNumber) 0 2 := by
      rw [Renumbering.adds, hadded, hnext, List.map_singleton, hname]
      exact hin
    exact absurd (hapart name hadds other hother hne hsame).1 nofun
  · obtain ⟨name, hone, _, hread⟩ := hmoved nofun
    rw [hadded] at hone
    rw [hnext, ← List.singleton_inj.mp hone, hname] at hread
    exact hread (by decide)

/-- The run (tree 1) brings two migrations under one number. -/
def twinNumbers : Fin 3 → List String
  | 0 => ["migrations/0006_base.sql"]
  | _ => ["migrations/0006_base.sql", "migrations/0007_a.sql", "migrations/0007_b.sql"]

/-- `main` took the last number of four digits, as did the run. -/
def lastNumber : Fin 3 → List String
  | 0 => ["migrations/9999_theirs.sql"]
  | 1 => ["migrations/9999_ours.sql", "migrations/9999_theirs.sql"]
  | 2 => ["migrations/10000_ours.sql", "migrations/9999_theirs.sql"]

/-- Two migrations of one run keep a number they share, and the number after the last one of four digits
makes a name that is none of a migration. -/
theorem added_migrations_share_number :
    ((renumberMigration (threeTrees twinNumbers) movingHost 1 0 2 quietWorld).1.toOption =
        some .unchanged ∧
      addedMigrations (threeTrees twinNumbers) 0 2 = ["0007_a.sql", "0007_b.sql"] ∧
      "0007_b.sql" ∈ migrationsOf (threeTrees twinNumbers) 2 ∧
      number "0007_a.sql" = number "0007_b.sql") ∧
    ((renumberMigration (threeTrees lastNumber) movingHost 1 0 2 quietWorld).1.toOption =
        some (.renumbered 9) ∧
      (Renumbering.renumbered 9).adds (threeTrees lastNumber) 0 2 = ["10000_ours.sql"] ∧
      number "10000_ours.sql" = none) := by
  refine ⟨⟨?_, ?_, ?_, ?_⟩, ?_, ?_, ?_⟩ <;> decide +kernel

end Dagq.Landing
