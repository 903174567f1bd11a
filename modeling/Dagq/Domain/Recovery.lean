/-
# Dagq.Domain.Recovery -- the processes of a run that recovery may stop.

Ancestry is followed through a snapshot of the process table, which may lack parents and hold cycles.
The code follows it through pids above 1 only; `Under` is that relation, and `Ancestor` the one of the
whole table.  The two agree where the processes with a pid of at most 1 have no parent above 1.
-/
import Dagq.Domain.Values
import Dagq.Lib.Walk

namespace Dagq

open Lib

/-! ## Paths -/

/-- A component of a path. -/
inductive Component
  | rootDir | curDir | parentDir
  | normal (name : List Char)
  deriving DecidableEq

/-- What a segment adds to a path it does not begin. -/
def component (segment : List Char) : Option Component :=
  if segment = [] ∨ segment = ['.'] then none
  else if segment = ['.', '.'] then some .parentDir
  else some (.normal segment)

/-- The components of a path: repeated separators and inner `.` segments are none. -/
def components (path : String) : List Component :=
  let first : List Component :=
    if path.toList.head? = some '/' then [.rootDir]
    else if (segments path).head? = some ['.'] then [.curDir]
    else []
  first ++ (segments path).filterMap component

/-- Whether `path` is `root` or under it. -/
def under (path root : String) : Bool := (components root).isPrefixOf (components path)

example : under "/runs/r/worktree/src" "/runs/r/worktree" = true ∧
    under "/runs/r/worktree-2" "/runs/r/worktree" = false := by decide +kernel

/-! ## The process table -/

/-- A process as the runtime lists it for the recovery job. -/
structure ProcessInfo where
  pid : Pid
  ppid : Pid
  elapsedSecs : Nat
  command : String
  /-- The working directory; `none` when it could not be read. -/
  cwd : Option String
  deriving DecidableEq

def parent (all : List ProcessInfo) (pid : Pid) : Option Pid :=
  (all.find? fun p => p.pid = pid).map (·.ppid)

/-- The loop of `chain`: up from `current`, until there is no parent above 1 that is not in `chain`;
`none` when `fuel` steps are not enough. -/
def chainLoop (all : List ProcessInfo) : Nat → List Pid → Pid → Option (List Pid)
  | 0, _, _ => none
  | fuel + 1, chain, current =>
      match parent all current with
      | none => some chain
      | some next =>
          if next ≤ 1 ∨ next ∈ chain then some chain else chainLoop all fuel (chain ++ [next]) next

/-- The parent, where the loop goes on to it. -/
def above (all : List ProcessInfo) (pid : Pid) : Option Pid := (parent all pid).filter (1 < ·)

theorem chainLoop_eq (all : List ProcessInfo) (fuel : Nat) (chain : List Pid) (current : Pid) :
    chainLoop all fuel chain current = Walk.walk (above all) fuel chain current := by
  induction fuel generalizing chain current with
  | zero => rfl
  | succ fuel ih =>
      rw [chainLoop, Walk.walk, above]
      cases parent all current with
      | none => rfl
      | some next =>
          by_cases hle : next ≤ 1
          · simp [Option.filter_some, hle, Nat.not_lt_of_le hle]
          · simp [Option.filter_some, hle, Nat.lt_of_not_le hle, ih]

theorem parent_mem {all : List ProcessInfo} {pid next : Pid} (h : parent all pid = some next) :
    next ∈ all.map (·.ppid) := by
  obtain ⟨p, hp, rfl⟩ := Option.map_eq_some_iff.mp h
  exact List.mem_map_of_mem (List.mem_of_find?_eq_some hp)

/-- The loop ends, whatever the table: every step adds a parent that was not there. -/
theorem chainLoop_isSome (all : List ProcessInfo) (pid : Pid) {fuel : Nat}
    (hfuel : all.length < fuel) : (chainLoop all fuel [pid] pid).isSome := by
  rw [chainLoop_eq]
  have hvalues : ∀ a b, above all a = some b → b ∈ all.map (·.ppid) := fun a b h =>
    parent_mem (Option.filter_eq_some_iff.mp h).1
  refine Walk.walk_isSome hvalues List.nodup_nil (List.nil_subset _) ?_
  rw [List.length_map, List.length_nil]
  omega

/-- The chain of parents from `pid` up, `pid` included. -/
def chain (all : List ProcessInfo) (pid : Pid) : List Pid :=
  (chainLoop all (all.length + 1) [pid] pid).get (chainLoop_isSome all pid (Nat.lt_succ_self _))

/-- The processes of a run that `stop_processes` may stop. -/
def runProcesses (all : List ProcessInfo) (worktree : String) (wrapper agent : Option Pid)
    (except : Pid) : List ProcessInfo :=
  let supervisor := chain all except
  -- A wrapper that is the supervisor or runs above it makes nothing the run's by descent.
  let wrapper := wrapper.filter fun pid => !supervisor.contains pid
  let session := [wrapper, agent].filterMap id
  let excluded := session.flatMap (chain all) ++ supervisor
  (all.filter fun p =>
    1 < p.pid && !excluded.contains p.pid && !(chain all p.pid).contains except).filter fun p =>
      p.cwd.any (under · worktree) || wrapper.any fun wrapper => (chain all p.pid).contains wrapper

/-! ## Ancestry -/

/-- `y` is the parent of `x` in the table. -/
def ParentOf (all : List ProcessInfo) (x y : Pid) : Prop := ∃ p ∈ all, p.pid = x ∧ p.ppid = y

/-- `y` is `x` or an ancestor of it. -/
def Ancestor (all : List ProcessInfo) : Pid → Pid → Prop := Relation.ReflTransGen (ParentOf all)

/-- `y` is `x` or an ancestor of it, with no pid of at most 1 between them. -/
def Under (all : List ProcessInfo) : Pid → Pid → Prop :=
  Relation.ReflTransGen fun x y => ParentOf all x y ∧ 1 < y

section Ancestry

variable {all : List ProcessInfo} {x y : Pid}

theorem parent_eq_iff (hpids : (all.map (·.pid)).Nodup) : parent all x = some y ↔ ParentOf all x y := by
  constructor
  · intro h
    obtain ⟨p, hp, rfl⟩ := Option.map_eq_some_iff.mp h
    exact ⟨p, List.mem_of_find?_eq_some hp, by simpa using List.find?_some hp, rfl⟩
  · rintro ⟨p, hp, rfl, rfl⟩
    obtain ⟨q, hq⟩ : ∃ q, all.find? (fun q => q.pid = p.pid) = some q := by
      rw [← Option.isSome_iff_exists, List.find?_isSome]
      exact ⟨p, hp, by simp⟩
    have hpid : q.pid = p.pid := by simpa using List.find?_some hq
    have hqp : q = p := List.inj_on_of_nodup_map hpids (List.mem_of_find?_eq_some hq) hp hpid
    rw [parent, hq, hqp]
    rfl

theorem mem_chain_iff (hpids : (all.map (·.pid)).Nodup) : y ∈ chain all x ↔ Under all x y := by
  have hloop : Walk.walk (above all) (all.length + 1) [x] x = some (chain all x) := by
    rw [← chainLoop_eq]
    exact (Option.some_get _).symm
  have hstep : Walk.Step (above all) = fun a b => ParentOf all a b ∧ 1 < b := by
    funext a b
    rw [Walk.Step, above, Option.filter_eq_some_iff, parent_eq_iff hpids, decide_eq_true_eq]
  rw [Walk.mem_walk_iff hloop, hstep]
  rfl

theorem Under.ancestor (h : Under all x y) : Ancestor all x y :=
  Relation.ReflTransGen.mono (fun _ _ hab => hab.1) x y h

/-- Where nothing of pid at most 1 has a parent above it, an ancestor above 1 is above by way of pids
above 1. -/
theorem ancestor_iff_under (hroots : ∀ p ∈ all, p.pid ≤ 1 → p.ppid ≤ 1) (hy : 1 < y) :
    Ancestor all x y ↔ Under all x y := by
  refine ⟨fun h => ?_, Under.ancestor⟩
  induction h with
  | refl => exact .refl
  | tail _ hbc ih =>
      obtain ⟨p, hp, rfl, rfl⟩ := hbc
      have hbig : 1 < p.pid := by
        by_contra hle
        exact Nat.not_le_of_lt hy (hroots p hp (Nat.le_of_not_lt hle))
      exact (ih hbig).tail ⟨⟨p, hp, rfl, rfl⟩, hy⟩

end Ancestry

/-! ## What may be stopped -/

section Stop

variable {all : List ProcessInfo} {worktree : String} {wrapper agent : Option Pid} {except : Pid}

theorem mem_runProcesses_iff (hpids : (all.map (·.pid)).Nodup) {p : ProcessInfo} :
    p ∈ runProcesses all worktree wrapper agent except ↔ p ∈ all ∧ 1 < p.pid ∧
      ¬Under all except p.pid ∧ ¬Under all p.pid except ∧
      (∀ w ∈ wrapper, ¬Under all w p.pid) ∧ (∀ a ∈ agent, ¬Under all a p.pid) ∧
      ((∃ cwd ∈ p.cwd, under cwd worktree = true) ∨
        ∃ w ∈ wrapper, ¬Under all except w ∧ Under all p.pid w) := by
  have hchain (x y : Pid) : (chain all x).contains y = true ↔ Under all x y := by
    rw [List.contains_iff_mem, mem_chain_iff hpids]
  -- The wrapper left, where it is neither `except` nor above it.
  have hwrapper (w : Pid) : w ∈ wrapper.filter (fun pid => !(chain all except).contains pid) ↔
      w ∈ wrapper ∧ ¬Under all except w := by
    rw [Option.mem_def, Option.filter_eq_some_iff, Bool.not_eq_true', ← Bool.not_eq_true, hchain]
    rfl
  have hexcluded (x : Pid) :
      (([wrapper.filter fun pid => !(chain all except).contains pid, agent].filterMap id).flatMap
        (chain all) ++ chain all except).contains x = true ↔
      (∃ w ∈ wrapper, ¬Under all except w ∧ Under all w x) ∨ (∃ a ∈ agent, Under all a x) ∨
        Under all except x := by
    rw [List.contains_iff_mem, List.mem_append, List.mem_flatMap, mem_chain_iff hpids, ← or_assoc]
    refine or_congr_left ?_
    simp only [List.mem_filterMap, List.mem_cons, List.not_mem_nil, or_false, id, mem_chain_iff hpids]
    constructor
    · rintro ⟨pid, ⟨_, rfl | rfl, hpid⟩, hunder⟩
      · obtain ⟨hw, hnot⟩ := (hwrapper pid).mp hpid
        exact .inl ⟨pid, hw, hnot, hunder⟩
      · exact .inr ⟨pid, hpid, hunder⟩
    · rintro (⟨w, hw, hnot, hunder⟩ | ⟨a, ha, hunder⟩)
      · exact ⟨w, ⟨_, .inl rfl, (hwrapper w).mpr ⟨hw, hnot⟩⟩, hunder⟩
      · exact ⟨a, ⟨_, .inr rfl, ha⟩, hunder⟩
  rw [runProcesses, List.mem_filter, List.mem_filter]
  simp only [Bool.and_eq_true, Bool.or_eq_true, Bool.not_eq_true', ← Bool.not_eq_true, hchain,
    hexcluded, decide_eq_true_eq, Option.any_eq_true, ← Option.mem_def, hwrapper]
  constructor
  · rintro ⟨⟨hp, ⟨hpid, hout⟩, hbelow⟩, hreason⟩
    rw [not_or, not_or] at hout
    obtain ⟨hw, ha, hexcept⟩ := hout
    refine ⟨hp, hpid, hexcept, hbelow, fun w hmem hunder => ?_,
      fun a hmem hunder => ha ⟨a, hmem, hunder⟩, ?_⟩
    · -- A wrapper above `except` has only ancestors of `except` above it.
      exact hw ⟨w, hmem, fun habove => hexcept (habove.trans hunder), hunder⟩
    · refine hreason.imp_right ?_
      rintro ⟨w, ⟨hmem, hnot⟩, hunder⟩
      exact ⟨w, hmem, hnot, hunder⟩
  · rintro ⟨hp, hpid, hexcept, hbelow, hw, ha, hreason⟩
    refine ⟨⟨hp, ⟨hpid, ?_⟩, hbelow⟩, hreason.imp_right ?_⟩
    · rintro (⟨w, hmem, _, hunder⟩ | ⟨a, hmem, hunder⟩ | hunder)
      · exact hw w hmem hunder
      · exact ha a hmem hunder
      · exact hexcept hunder
    · rintro ⟨w, hmem, hnot, hunder⟩
      exact ⟨w, ⟨hmem, hnot⟩, hunder⟩

/-- Every walk up ends, and what may be stopped is every process above 1 in the worktree or under the
wrapper, except what the session and `except` run under and what runs under `except`.  Ancestry here is
by way of pids above 1, which is all of it where nothing of pid at most 1 has a parent above 1. -/
theorem stoppable_iff (hpids : (all.map (·.pid)).Nodup) :
    (∀ pid fuel, all.length < fuel → chainLoop all fuel [pid] pid = some (chain all pid)) ∧
    ((∀ p ∈ all, p.pid ≤ 1 → p.ppid ≤ 1) → ∀ x y, 1 < y → (Ancestor all x y ↔ Under all x y)) ∧
    (runProcesses all worktree wrapper agent except).Sublist all ∧
    ∀ p ∈ all, p ∈ runProcesses all worktree wrapper agent except ↔
      1 < p.pid ∧ ¬Under all except p.pid ∧ ¬Under all p.pid except ∧
      (∀ w ∈ wrapper, ¬Under all w p.pid) ∧ (∀ a ∈ agent, ¬Under all a p.pid) ∧
      ((∃ cwd ∈ p.cwd, under cwd worktree = true) ∨
        ∃ w ∈ wrapper, ¬Under all except w ∧ Under all p.pid w) := by
  refine ⟨fun pid fuel hfuel => ?_, fun hroots x y hy => ancestor_iff_under hroots hy, ?_,
    fun p hp => ?_⟩
  · have hloop : chainLoop all (all.length + 1) [pid] pid = some (chain all pid) :=
      (Option.some_get _).symm
    rw [chainLoop_eq] at hloop ⊢
    exact Walk.walk_mono hloop hfuel
  · exact List.filter_sublist.trans List.filter_sublist
  · rw [mem_runProcesses_iff hpids]
    exact and_iff_right hp

/-- A terminal in the worktree runs the wrapper, a shell in a subdirectory is an orphan of it, and the
supervisor runs elsewhere. -/
def runTable : List ProcessInfo :=
  [⟨1, 0, 5, "cmd 1", some "/"⟩, ⟨10, 1, 5, "cmd 10", some "/runs/r/worktree"⟩,
    ⟨11, 10, 5, "cmd 11", some "/runs/r"⟩, ⟨12, 11, 5, "cmd 12", some "/runs/r/worktree"⟩,
    ⟨13, 12, 5, "cmd 13", some "/runs/r/worktree/src"⟩, ⟨14, 13, 5, "cmd 14", none⟩,
    ⟨20, 1, 5, "cmd 20", some "/runs/r/worktree"⟩, ⟨30, 1, 5, "cmd 30", some "/runs/r/worktree"⟩,
    ⟨31, 30, 5, "cmd 31", some "/repo"⟩]

theorem stoppable_iff_runTable :
    (runTable.map (·.pid)).Nodup ∧
    (runProcesses runTable "/runs/r/worktree" (some 11) (some 12) 31).map (·.pid) = [13, 14, 20] ∧
    ∀ p ∈ runTable, p ∈ runProcesses runTable "/runs/r/worktree" (some 11) (some 12) 31 ↔
      1 < p.pid ∧ ¬Under runTable 31 p.pid ∧ ¬Under runTable p.pid 31 ∧
      (∀ w ∈ some 11, ¬Under runTable w p.pid) ∧ (∀ a ∈ some 12, ¬Under runTable a p.pid) ∧
      ((∃ cwd ∈ p.cwd, under cwd "/runs/r/worktree" = true) ∨
        ∃ w ∈ some 11, ¬Under runTable 31 w ∧ Under runTable p.pid w) :=
  ⟨by decide, by decide +kernel, (stoppable_iff (by decide)).2.2.2⟩

/-- A pid 1 with a parent hides that parent: it is above everything, and not protected. -/
theorem stops_above_one :
    ¬∀ (all : List ProcessInfo) (worktree : String) (wrapper agent except : Pid),
      (all.map (·.pid)).Nodup → 1 < wrapper → 1 < agent → 1 < except →
        ∀ p ∈ runProcesses all worktree (some wrapper) (some agent) except,
          ¬Ancestor all except p.pid := by
  intro h
  let all : List ProcessInfo :=
    [⟨5, 0, 9, "cmd 5", some "/runs/r/worktree"⟩, ⟨1, 5, 9, "cmd 1", some "/"⟩,
      ⟨11, 1, 5, "cmd 11", some "/runs/r"⟩, ⟨12, 11, 5, "cmd 12", some "/runs/r/worktree"⟩,
      ⟨31, 1, 5, "cmd 31", some "/repo"⟩]
  refine h all "/runs/r/worktree" 11 12 31 (by decide) (by decide) (by decide) (by decide)
    ⟨5, 0, 9, "cmd 5", some "/runs/r/worktree"⟩ (by decide +kernel) ?_
  have hsupervisor : ParentOf all 31 1 := ⟨⟨31, 1, 5, "cmd 31", some "/repo"⟩, by decide, rfl, rfl⟩
  have hone : ParentOf all 1 5 := ⟨⟨1, 5, 9, "cmd 1", some "/"⟩, by decide, rfl, rfl⟩
  exact .head hsupervisor (.single hone)

end Stop

end Dagq
