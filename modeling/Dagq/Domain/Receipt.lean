/-
# Dagq.Domain.Receipt -- the completion receipt an agent writes, and what is checked of it alone.

The text is JSON; what the parser makes of it is taken as given.  Git's state is checked elsewhere.
-/
import Dagq.Domain.Ask
import Dagq.Domain.Event
import Dagq.Domain.Task

namespace Dagq

inductive ReceiptResult
  | succeeded | failed
  deriving DecidableEq

inductive CheckStatus
  | passed | failed | notApplicable
  deriving DecidableEq

def EvidenceCheck.asStr : EvidenceCheck → String
  | .tests => "tests"
  | .e2e => "e2e"
  | .subagentReview => "subagent_review"

/-- What the agent claims of one check. -/
structure ReceiptCheck where
  status : CheckStatus
  evidenceOrReason : String := ""

/-- The follow-up tasks a receipt proposes: JSON of any shape. -/
inductive FollowUps
  | array (items : List String)
  | notArray

/-- A receipt that was parsed. -/
structure Receipt where
  runId : RunId
  result : ReceiptResult
  /-- The object its text names, in either case of the letters; `none` when it names none. -/
  commit : Option CommitSha
  tests : ReceiptCheck
  e2e : ReceiptCheck
  subagentReview : ReceiptCheck
  summary : String := ""
  followUps : Option FollowUps := none

/-- What a receipt fails at. -/
inductive ReceiptError
  | malformed (reason : String)
  | runMismatch (receiptRunId runId : RunId)
  | agentReported (summary : String)
  | checkFailed (check : EvidenceCheck) (evidenceOrReason : String)
  | checkUnexplained (check : EvidenceCheck) (status : CheckStatus)
  | invalidCommit
  | followUpsNotArray

def CheckStatus.asStr : CheckStatus → String
  | .passed => "passed"
  | .failed => "failed"
  | .notApplicable => "not_applicable"

def ReceiptError.message : ReceiptError → String
  | .malformed reason => s!"receipt is not a valid completion receipt: {reason}"
  | .runMismatch receiptRunId runId =>
      s!"receipt run_id {receiptRunId} does not match run {runId}"
  | .agentReported summary => s!"agent reported result failed: {summary}"
  | .checkFailed check evidence => s!"receipt reports {check.asStr} as failed: {evidence}"
  | .checkUnexplained check status =>
      s!"receipt {check.asStr} is {status.asStr} without evidence or reason"
  | .invalidCommit =>
      "receipt commit: must be a full 40- or 64-character hexadecimal Git object ID"
  | .followUpsNotArray => "receipt follow_ups must be an array"

def ReasonCode.ofReceiptError : ReceiptError → ReasonCode
  | .agentReported _ => .workerFailed
  | .checkFailed .. => .evidenceFailed
  | _ => .receiptInvalid

namespace Receipt

def evidence (receipt : Receipt) : EvidenceCheck → ReceiptCheck
  | .tests => receipt.tests
  | .e2e => receipt.e2e
  | .subagentReview => receipt.subagentReview

/-- A check that is not required: not failed, and explained. -/
def checkClaim (receipt : Receipt) (check : EvidenceCheck) : Except ReceiptError Unit :=
  let claim := receipt.evidence check
  if claim.status = .failed then .error (.checkFailed check claim.evidenceOrReason)
  else if isBlank claim.evidenceOrReason then .error (.checkUnexplained check claim.status)
  else .ok ()

/-- The receipt on its own; what is wrong with a `required` check is left to `missingEvidence`. -/
def checkRequiring (receipt : Receipt) (runId : RunId) (required : List EvidenceCheck) :
    Except ReceiptError Unit := do
  if receipt.runId ≠ runId then throw (.runMismatch receipt.runId runId)
  if receipt.result ≠ .succeeded then throw (.agentReported receipt.summary)
  ([.tests, .e2e, .subagentReview] : List EvidenceCheck).forM fun check =>
    if required.contains check then .ok () else receipt.checkClaim check
  if receipt.commit = none then throw .invalidCommit
  match receipt.followUps with
  | some .notArray => throw .followUpsNotArray
  | _ => return ()

/-- The `required` checks the receipt does not back. -/
def missingEvidence (receipt : Receipt) (required : List EvidenceCheck) : List EvidenceCheck :=
  required.filter fun check =>
    (receipt.evidence check).status ≠ .passed || isBlank (receipt.evidence check).evidenceOrReason

end Receipt

def evidenceMissingReason (missing : List EvidenceCheck) : String :=
  "evidence missing: " ++ ", ".intercalate (missing.map EvidenceCheck.asStr)

/-- The message of the commit a run lands as, by paragraphs. -/
def commitMessage (task : Task) (taskId : TaskId) (runId : RunId) (receipt : Receipt) : List String :=
  let summary := String.ofList (trimChars receipt.summary)
  [String.ofList (trimChars task.title)] ++ (if summary = "" then [] else [summary])
    ++ [s!"Dagq-Task: {taskId}\nDagq-Run: {runId}"]

end Dagq
