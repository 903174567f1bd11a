/-
# Dagq.Domain.Worktime -- what a session spent its time on.

A span is broken down by its transcript: the tools its main session called, by what they ran, and the
model's time between two records.  Every millisecond gets one category, by priority.
-/
import Dagq.Domain.Ask
import Dagq.Domain.Transcript
import Dagq.Lib.Pieces
import Dagq.Lib.Sums

namespace Dagq.Worktime

open Lib

/-! ## Categories -/

inductive Category
  | model
  /-- Commands joined in one line that run two or more heavy kinds. -/
  | chain
  | e2e | llvmCov | test | build | fmt | wait | dagq | git | otherCommand
  /-- Other tools. -/
  | tool
  | subagent | idle
  deriving DecidableEq, Repr

open Category in
/-- Every category, in the order they are listed, which also breaks ties between overlapping commands
of the same priority. -/
def categories : List Category :=
  [model, chain, e2e, llvmCov, test, build, fmt, wait, dagq, git, otherCommand, tool, subagent, idle]

open Category in
/-- The heavy commands. -/
def heavy : List Category := [chain, e2e, llvmCov, test, build]

open Category in
/-- The kinds of a part, heaviest first. -/
def ranks : List Category := [e2e, llvmCov, test, build, fmt, wait, dagq, git, otherCommand]

/-- Tools that only wait. -/
def waitTools : List String := ["ScheduleWakeup", "Monitor", "TaskOutput", "BashOutput"]

/-! ## Shell commands -/

/-- `split` at two such characters in a row. -/
def splitPair (c : Char) : List Char → List (List Char)
  | a :: b :: text =>
      if a = c ∧ b = c then [] :: splitPair c text
      else (splitPair c (b :: text)).modifyHead (a :: ·)
  | text => [text]

/-- `split_whitespace`. -/
def words (text : List Char) : List String :=
  ((text.splitOnP isWhitespace).filter (· ≠ [])).map String.ofList

/-- The parts of a command joined with `&&`, `||`, `;` or a newline. -/
def parts (command : String) : List String :=
  ((command.toList.splitOnP fun c => c = '\n' || c = ';').flatMap (splitPair '&')
    |>.flatMap (splitPair '|')
    |>.map fun part => String.ofList (trimChars (String.ofList part))).filter (· ≠ "")

/-- The name a word runs as a command: its file name, without the shell's punctuation around it. -/
def commandWord (word : String) : Option String :=
  let word := word.toList.dropWhile (· ∈ ['(', '|', '&', '\x60', '$'])
  let name := (word.splitOnP (· = '/')).getLast?.getD []
  if name = [] then none else some (String.ofList name)

/-- What stands after the first `cargo`. -/
def afterCargo (words : List String) : Option (List String) :=
  if words.any fun word => commandWord word = some "cargo" then
    some ((words.dropWhile fun word => commandWord word ≠ some "cargo").tail)
  else none

def startsWith (start : String) (word : String) : Bool := start.toList <+: word.toList

/-- The subcommand after the first `cargo` (a `+toolchain` skipped). -/
def cargoSubcommand (words : List String) : Option String :=
  (afterCargo words).bind fun rest => rest.find? fun word => !startsWith "+" word

/-- The first rule the text matches. -/
def rank (text : String) : Category :=
  let words := words text.toList
  let sub := cargoSubcommand words
  if (words.zip words.tail).any (fun pair => pair.1 = "--test" && pair.2 = "e2e")
      || "--test=e2e" ∈ words then .e2e
  else if sub = some "llvm-cov" then .llvmCov
  else if sub = some "test" ∨ sub = some "nextest" then .test
  else if sub = some "build" ∨ sub = some "clippy" ∨ sub = some "check" ∨ sub = some "run" then .build
  else if sub = some "fmt" then .fmt
  else if "sleep" ∈ words ∨ "uptime" ∈ words ∨ "until" ∈ words ∨
      ("sysctl".toList <:+: text.toList ∧ "loadavg".toList <:+: text.toList) then .wait
  else if words.any fun word => commandWord word = some "dagq" then .dagq
  else if words.any fun word => commandWord word = some "git" then .git
  else .otherCommand

/-- The category of a shell command: the heaviest of its parts, or `chain` when two or more parts are
heavy of different kinds. -/
def classify (command : String) : Category :=
  -- Sorted by their place among the ranks, each once.
  let kinds := ranks.filter (· ∈ (parts command).map rank)
  if 2 ≤ kinds.countP (· ∈ heavy) then .chain else kinds.head?.getD .otherCommand

/-- Flags of `cargo test` that choose a target or filter. -/
def targeted : List String :=
  ["--test", "--lib", "--bin", "--bins", "--doc", "--example", "--package", "-p", "-E"]

/-- Flags only, none of them choosing a target or filtering, up to what is no argument of cargo's. -/
def onlyFlags (words : List String) : Bool :=
  ((words.takeWhile fun word =>
      word ∉ ["--", "|", "&", ">"] && !startsWith ">" word).filter fun word =>
        !startsWith "2>" word).all fun word =>
          startsWith "-" word && !targeted.any fun flag => word = flag || startsWith (flag ++ "=") word

/-- Whether a part runs the whole test suite. -/
def fullTest (part : String) : Bool :=
  match (afterCargo (words part.toList)).map (·.dropWhile (startsWith "+")) with
  | some ("test" :: flags) => onlyFlags flags
  | some ("nextest" :: "run" :: flags) => onlyFlags flags
  | _ => false

/-- What `integrate` also runs. -/
inductive VerificationClass
  | llvmCov | e2e | fullTest
  deriving DecidableEq

def verificationClasses (command : String) : List VerificationClass :=
  (parts command).filterMap fun part =>
    match rank part with
    | .llvmCov => some .llvmCov
    | .e2e => some .e2e
    | .test => if fullTest part then some .fullTest else none
    | _ => none

example : classify "cargo fmt && cargo clippy --all; cargo llvm-cov" = .chain ∧
    classify "cd /repo && git status" = .git ∧ fullTest "cargo +nightly test --workspace" = true := by
  decide +kernel

/-! ## Records -/

/-- A `tool_use` of an `assistant` record. -/
structure ToolUse where
  id : String
  name : String
  /-- `input.command` of a shell tool. -/
  command : Option String := none
  background : Bool := false

/-- A `tool_result` of a `user` record. -/
structure ToolResult where
  toolUseId : String
  isError : Bool := false
  exitCode : Option Int := none

/-- The background command or subagent started by the tool use ended. -/
structure Notification where
  toolUseId : String
  status : Option String := none
  exitCode : Option Int := none

/-- A record of a transcript with what the work breakdown reads. -/
structure WorkRecord extends Sessions.TranscriptRecord where
  /-- A subagent's record. -/
  sidechain : Bool := false
  assistant : Bool := false
  toolUses : List ToolUse := []
  toolResults : List ToolResult := []
  notification : Option Notification := none

/-- The first result of a tool use, with the time of its record. -/
def firstResult (records : List WorkRecord) (id : String) : Option (Int × ToolResult) :=
  (records.flatMap fun record => record.toolResults.map fun result => (record.at', result)).find?
    (·.2.toolUseId = id)

/-- The first notice of a tool use, with the time of its record. -/
def firstNotice (records : List WorkRecord) (id : String) : Option (Int × Notification) :=
  (records.filterMap fun record => record.notification.map fun notice => (record.at', notice)).find?
    (·.2.toolUseId = id)

/-- One tool call of the span. -/
structure Command where
  toolUseId : String
  tool : String
  category : Category
  start : Int
  stop : Int
  /-- Its end was seen; otherwise it is cut at the span's end. -/
  finished : Bool
  background : Bool
  exitCode : Option Int
  /-- `none` when its outcome is unknown. -/
  failed : Option Bool
  status : Option String
  command : Option String

def Command.priority (command : Command) : Nat :=
  if command.category = .subagent then 3 else if command.background then 2 else 1

/-- The category of a call, whether it ran in the background, and when it ended. -/
def kindOf (toolUse : ToolUse) (result notice : Option Int) : Category × Bool × Option Int :=
  if toolUse.name = "Agent" then (.subagent, notice.isSome, notice.or result)
  else
    match toolUse.command with
    | some command =>
        -- Run in the background from the start, or moved there while it ran: it ends at its notice.
        if toolUse.background ∨ notice.isSome then (classify command, true, notice)
        else (classify command, false, result)
    | none =>
        if toolUse.name ∈ waitTools then (.wait, false, result) else (.tool, false, result)

/-- The exit code of a call, whether it failed, and the status of its notice. -/
def outcome (background : Bool) (notice : Option Notification) (result : Option ToolResult) :
    Option Int × Option Bool × Option String :=
  match background, notice, result with
  | true, some notice, _ =>
      (notice.exitCode,
        if notice.status = some "failed" then some true
        else if notice.status = some "completed" then some (notice.exitCode.any (· ≠ 0))
        else none,
        notice.status)
  | false, _, some result =>
      (result.exitCode, some (result.isError || result.exitCode.any (· ≠ 0)), none)
  | _, _, _ => (none, none, none)

/-- `Ord::clamp`. -/
def clamp (low high x : Int) : Int := if x < low then low else if high < x then high else x

/-- The call of a record. -/
def commandOf (records : List WorkRecord) (to_ : Int) (record : WorkRecord) (toolUse : ToolUse) :
    Command :=
  let result := firstResult records toolUse.id
  let notice := firstNotice records toolUse.id
  let (category, background, stop) := kindOf toolUse (result.map (·.1)) (notice.map (·.1))
  let (exitCode, failed, status) := outcome background (notice.map (·.2)) (result.map (·.2))
  { toolUseId := toolUse.id, tool := toolUse.name, category
    start := record.at'
    stop := (stop.map (clamp record.at' to_)).getD to_
    finished := stop.isSome
    background, exitCode, failed, status
    command := toolUse.command }

/-- The tool calls that start in the span, in the order they started.  A call whose end was not seen is
cut at the span's end. -/
def commands (records : List WorkRecord) (from_ to_ : Int) : List Command :=
  (records.filter fun record => !record.sidechain && from_ ≤ record.at' && record.at' < to_).flatMap
    fun record => record.toolUses.map (commandOf records to_ record)

/-- The model's time: from a record of the main session to the `assistant` record that follows it. -/
def modelIntervals (records : List WorkRecord) : List (Int × Int) :=
  let main := (records.filter fun record => !record.sidechain && record.role ≠ .other).mergeSort
    fun a b => a.at' ≤ b.at'
  ((main.zip main.tail).filter (·.2.assistant)).map fun pair => (pair.1.at', pair.2.at')

/-! ## The breakdown -/

/-- A stretch of time with the category it gives, and how it ranks among others. -/
structure Interval where
  start : Int
  stop : Int
  priority : Nat
  category : Category
  deriving DecidableEq

/-- The place among the categories. -/
def order (category : Category) : Nat := categories.idxOf category

/-- By priority, then category, then times. -/
def Interval.le (a b : Interval) : Bool :=
  a.priority < b.priority || (a.priority = b.priority &&
    (order a.category < order b.category || (order a.category = order b.category &&
      (a.start < b.start || (a.start = b.start && a.stop ≤ b.stop)))))

/-- The calls and the model's time. -/
def stretches (records : List WorkRecord) (from_ to_ : Int) : List Interval :=
  (commands records from_ to_).map (fun c => ⟨c.start, c.stop, c.priority, c.category⟩) ++
    (modelIntervals records).map fun pair => ⟨pair.1, pair.2, 4, .model⟩

/-- Cut to the span, the foremost first. -/
def intervals (records : List WorkRecord) (from_ to_ : Int) : List Interval :=
  (((stretches records from_ to_).map fun i =>
    { i with start := max i.start from_, stop := min i.stop to_ }).filter fun i =>
      i.start < i.stop).mergeSort Interval.le

/-- Where anything starts or ends. -/
def bounds (intervals : List Interval) (from_ to_ : Int) : List Int :=
  Pieces.dedupRuns ((intervals.flatMap (fun i => [i.start, i.stop]) ++ [from_, to_]).mergeSort)

/-- The category of a piece. -/
def pick (intervals : List Interval) (piece : Int × Int) : Category :=
  ((intervals.find? fun i => i.start ≤ piece.1 && piece.2 ≤ i.stop).map (·.category)).getD .idle

/-- Milliseconds per category, for the categories that have some. -/
abbrev Millis := Category → Option Int

def Millis.add (millis : Millis) (category : Category) (length : Int) : Millis := fun c =>
  if c = category then some ((millis c).getD 0 + length) else millis c

/-- The work of one span. -/
structure Breakdown where
  totalMillis : Int
  millis : Millis
  commands : List Command
  verificationRepeats : Nat
  fullTests : Nat
  llvmCovRuns : Nat

/-- The breakdown of a span, whose task verifies with `verification`. -/
def breakdown (records : List WorkRecord) (from_ to_ : Int) (verification : List String) : Breakdown :=
  let to_ := max to_ from_
  let commands := commands records from_ to_
  let intervals := intervals records from_ to_
  let millis := (Pieces.pieces (bounds intervals from_ to_)).foldl
    (fun millis piece => Millis.add millis (pick intervals piece) (piece.2 - piece.1)) fun _ => none
  let wanted := verification.flatMap verificationClasses
  let shell := commands.filterMap (·.command)
  { totalMillis := to_ - from_
    millis
    commands
    verificationRepeats := shell.countP fun command => (verificationClasses command).any (· ∈ wanted)
    fullTests := shell.countP fun command => (parts command).any fullTest
    llvmCovRuns := shell.countP fun command => (parts command).any (rank · = .llvmCov) }

end Dagq.Worktime
