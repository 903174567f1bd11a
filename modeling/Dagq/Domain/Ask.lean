/-
# Dagq.Domain.Ask -- questions for a person, and which kinds may be about what.
-/
import Dagq.Domain.Values

namespace Dagq

/-- An ask about the automatic update of the binary. -/
def AskKind.isUpdate (kind : AskKind) : Bool := kind = .updateFailed || kind = .approveUpdate

/-- Authentication and cost hold the whole queue. -/
def AskReason.holdsTheQueue : AskReason → Bool
  | .authentication | .cost => true
  | _ => false

/-- An ask to register: `taskId` or `runId` names what it is about (a run implies its task). -/
structure NewAsk where
  kind : AskKind
  taskId : Option TaskId := none
  runId : Option RunId := none
  question : String
  options : List String := []
  askedBy : String
  reasonCategory : AskReason
  findingId : Option FindingId := none

namespace NewAsk

def validate (ask : NewAsk) : Except DomainError Unit := do
  require (!isBlank ask.question) (.blank "question")
  require (ask.options.all fun o => !isBlank o) (.blank "options")
  require (!isBlank ask.askedBy) (.blank "asked_by")
  require (ask.taskId.all (0 < ·)) (.nonPositiveId "task ID")
  require (ask.kind != .queueHold && !ask.reasonCategory.holdsTheQueue)
    (.askHoldsTheQueue ask.reasonCategory)
  require (ask.findingId.isNone || ask.kind = .blocked) (.askFindingNotBlocked ask.kind)
  require (ask.taskId.isSome || ask.runId.isSome || ask.kind = .blocked) (.askWithoutTarget ask.kind)

end NewAsk

/-- The rules an ask's kind binds, checked where an ask is written: only a known kind is written, an
ask about no task is a `blocked`, `queue_hold` or update ask about no run, an update ask is about no
task, and a `queue_hold` ask, and only it, is for authentication or cost. -/
def checkAskKind (kind : AskKind) (taskId : Option TaskId) (runId : Option RunId)
    (reason : AskReason) : Except DomainError Unit := do
  match kind with
  | .other value => .error (.unknownValue "AskKind" value)
  | _ => .ok ()
  require (taskId.isSome || ((kind = .blocked || kind = .queueHold || kind.isUpdate) && runId.isNone))
    (.askWithoutTarget kind)
  require (!kind.isUpdate || taskId.isNone) (.updateAskWithTarget kind)
  require ((decide (kind = .queueHold)) == reason.holdsTheQueue) (.askKindReason kind reason)

/-- A question for a person, open while neither answered nor closed. -/
structure Ask where
  kind : AskKind
  taskId : Option TaskId := none
  runId : Option RunId := none
  question : String
  options : List String := []
  answer : Option String := none
  askedBy : String
  reasonCategory : AskReason
  /-- What a `queue_hold` ask is about, next to its reason. -/
  subject : Option String := none
  /-- The runs a `queue_hold` ask holds. -/
  affected : List RunId := []
  answeredAt : Option Seconds := none
  closedAt : Option Seconds := none
  findingId : Option FindingId := none
  answeredBy : Option String := none
  optionIndex : Option Nat := none

/-- Nobody answered or withdrew it yet. -/
def Ask.isOpen (ask : Ask) : Bool := ask.answeredAt.isNone && ask.closedAt.isNone

/-- Nobody closed it: open, or answered and not applied. -/
def Ask.isUnclosed (ask : Ask) : Bool := ask.closedAt.isNone

/-! ## Holds -/

/-- A hold of the queue: `runId` is the run that hit it, none for one no run hit yet.  The question is
what the person is asked, without the runs. -/
structure NewHold where
  reasonCategory : AskReason
  subject : Option String := none
  runId : Option RunId := none
  question : String
  options : List String := []
  askedBy : String

/-- Where the question of a `queue_hold` ask lists the runs it holds. -/
def holdAffectedHeading : String := "Affected runs: "

namespace NewHold

def validate (hold : NewHold) : Except DomainError Unit := do
  require (!isBlank hold.question) (.blank "question")
  require (hold.options.all fun o => !isBlank o) (.blank "options")
  require (!isBlank hold.askedBy) (.blank "asked_by")
  require hold.reasonCategory.holdsTheQueue (.holdWithoutQueueReason hold.reasonCategory)

/-- The question of the ask holding `affected`; without runs, the question alone. -/
def questionFor (question : String) (affected : List RunId) : String :=
  if affected.isEmpty then question
  else question ++ "\n\n" ++ holdAffectedHeading ++ ", ".intercalate (affected.map toString)

end NewHold

/-- What stands before the last `pattern` of `text`, or all of it (`rsplit_once`). -/
def beforeLast (pattern text : List Char) : List Char :=
  match (List.range (text.length + 1)).reverse.find? fun i => pattern.isPrefixOf (text.drop i) with
  | some i => text.take i
  | none => text

/-- The question of a hold's ask without its list of runs. -/
def Ask.holdQuestion (ask : Ask) : String :=
  String.ofList (beforeLast ("\n\n" ++ holdAffectedHeading).toList ask.question.toList)

example : beforeLast "bc".toList "abcbcd".toList = "abc".toList := by decide

/-! ## Answers -/

/-- `s.trim()`. -/
def trimChars (s : String) : List Char :=
  ((s.toList.dropWhile isWhitespace).reverse.dropWhile isWhitespace).reverse

/-- The index of the option `answer` chooses: the first one equal to the trimmed answer. -/
def optionIndex (options : List String) (answer : String) : Option Nat :=
  options.findIdx? fun option => trimChars option = trimChars answer

example : optionIndex ["ready", "send_back", "cancel"] " cancel\n" = some 2 := by decide

end Dagq
