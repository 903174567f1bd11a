/-
# Dagq.Domain.Update -- the automatic update of the binary, as its log tells it.

What main has to change for a build, what a log is measured from, and which step it is at.  A log is read
newest first.
-/
import Dagq.Domain.Ask
import Dagq.Domain.Time

namespace Dagq.Update

/-- The steps of the automatic update. -/
inductive Kind
  | started | built | restored | installed | failed | awaitingApproval | answered | retry
  deriving DecidableEq

/-- A step, with the main commit it is about, the job's process and the ask it opened or applied. -/
structure UpdateEvent where
  kind : Kind
  commit : Option String := none
  pid : Option Pid := none
  askId : Option AskId := none
  deriving DecidableEq

/-- The paths whose change makes a landing change the runtime: a directory ends with `/`. -/
def runtimePaths : List String := ["src/", "migrations/", "Cargo.toml", "Cargo.lock", "build.rs"]

/-- Whether any of `paths` is part of the runtime. -/
def changesRuntime (paths : List String) : Bool :=
  paths.any fun path => runtimePaths.any fun runtime =>
    match Time.stripLast (· = '/') runtime.toList with
    | some dir => runtime.toList.isPrefixOf path.toList || path.toList = dir
    | none => path = runtime

/-- The commit a build identifier names: `<commit>` of `X.Y.Z-dev+<commit>[.dirty]`. -/
def buildCommit (version : String) : Option String := do
  let (_, metadata) ← Time.splitOnce (· = '+') version.toList
  let dirty := ".dirty".toList
  let commit :=
    if dirty.isSuffixOf metadata then metadata.take (metadata.length - dirty.length) else metadata
  if commit ≠ "unknown".toList ∧ commit ≠ [] then some (String.ofList commit) else none

/-- The steps a job writes before the one that ends it. -/
def Kind.isJobStep : Kind → Bool
  | .started | .built | .restored => true
  | _ => false

/-- An answer of an ask. -/
def Kind.isAnswer : Kind → Bool
  | .answered | .retry => true
  | _ => false

/-- The newest step a job wrote. -/
def latestJobStep (updates : List UpdateEvent) : Option UpdateEvent :=
  updates.find? fun update => !update.kind.isAnswer

/-- A step of a job still working. -/
def inProgress (alive : Pid → Bool) (update : UpdateEvent) : Bool :=
  update.kind.isJobStep && update.pid.any alive

/-- The commit the latest job worked on, else the commit this build names, else `fallback`. -/
def baseCommit (updates : List UpdateEvent) (version : String) (fallback : Option String) :
    Option String :=
  (((updates.find? (·.kind = .started)).bind (·.commit)).or (buildCommit version)).or fallback

/-- The latest word in the log is a `retry` answer after the latest job. -/
def retryRequested (updates : List UpdateEvent) : Bool :=
  (updates.find? fun update => update.kind = .started || update.kind = .retry).any (·.kind = .retry)

example : changesRuntime ["docs/src/a.md", "srcs/a.rs", "Cargo.toml.bak"] = false := by decide

example : buildCommit "0.4.0-dev+abc123.dirty" = some "abc123" := by decide

end Dagq.Update
