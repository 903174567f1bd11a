/-
# Dagq.Store.Schema -- which migrations may be declared compatible.

The checker cuts the comments away line by line, splits the text at its semicolons and looks at the
words between the blanks, all without regard to quotations.
-/
import Dagq.Domain.Values
import Dagq.Lib.Words
import Mathlib.Data.List.Infix

namespace Dagq.Schema

open Lib

/-! ## Texts -/

/-- `text.lines()`: a line may end in a carriage return and a line feed. -/
def lines : List Char → List (List Char)
  | [] => []
  | '\n' :: text => [] :: lines text
  | '\r' :: '\n' :: text => [] :: lines text
  | c :: text =>
      match lines text with
      | [] => [[c]]
      | line :: rest => (c :: line) :: rest

/-- A line up to its first `--`. -/
def beforeDashes : List Char → List Char
  | [] => []
  | '-' :: '-' :: _ => []
  | c :: line => c :: beforeDashes line

/-- The text without its line comments. -/
def withoutComments (migration : List Char) : List Char :=
  ['\n'].intercalate ((lines migration).map beforeDashes)

/-- `text.to_ascii_uppercase()`. -/
def uppercase (text : List Char) : List Char := text.map Char.toUpper

/-- `text.trim()`. -/
def trim (text : List Char) : List Char :=
  ((text.dropWhile isWhitespace).reverse.dropWhile isWhitespace).reverse

/-- `text.contains(part)`. -/
def contains (part : String) (text : List Char) : Bool := text.tails.any part.toList.isPrefixOf

/-- `words.join(" ")`. -/
def join (words : List (List Char)) : List Char := [' '].intercalate words

/-- The words of a text in upper case. -/
def upperWords (text : List Char) : List (List Char) := (words isWhitespace text).map uppercase

/-- The words behind the given ones. -/
def behind (heads : List String) (words : List (List Char)) : Option (List (List Char)) :=
  (heads.map String.toList).isPrefixOf? words

/-- The word right behind the given ones. -/
def nameBehind (heads : List String) (words : List (List Char)) : Option (List Char) :=
  (behind heads words).bind List.head?

/-! ## Statements -/

/-- Split at `;`, a trigger running to the `END` that is a chunk of its own; the first argument is a
trigger that has begun. -/
def statementsFrom : Option (List Char) → List (List Char) → List (List Char)
  | none, [] => []
  -- An unterminated trigger is still judged.
  | some trigger, [] => [trigger]
  | some trigger, chunk :: rest =>
      if uppercase (trim chunk) = "END".toList then
        (trigger ++ ';' :: chunk) :: statementsFrom none rest
      else statementsFrom (some (trigger ++ ';' :: chunk)) rest
  | none, chunk :: rest =>
      if ((words isWhitespace chunk).take 2).map uppercase = ["CREATE".toList, "TRIGGER".toList] then
        statementsFrom (some chunk) rest
      else chunk :: statementsFrom none rest

/-- The statements of a text. -/
def statements (text : List Char) : List (List Char) := statementsFrom none (text.splitOn ';')

/-! ## What a statement may be -/

def isQuoteMark (c : Char) : Bool := c = '"' || c = '\x60' || c = '[' || c = ']'

/-- A table name as a statement spells it, without its column list or quotes. -/
def tableName (word : List Char) : List Char :=
  (((word.takeWhile (· ≠ '(')).dropWhile isQuoteMark).reverse.dropWhile isQuoteMark).reverse

/-- The table that a `CREATE TABLE` creates. -/
def createdTable (words : List (List Char)) : Option (List Char) :=
  ((nameBehind ["CREATE", "TABLE", "IF", "NOT", "EXISTS"] words).or
    ((nameBehind ["CREATE", "TABLE"] words).or
      (nameBehind ["CREATE", "VIRTUAL", "TABLE"] words))).map tableName

/-- The table that an `INSERT` names. -/
def insertTarget (words : List (List Char)) : Option (List Char) :=
  ((nameBehind ["INSERT", "INTO"] words).or
    ((behind ["INSERT", "OR"] words).bind fun rest => nameBehind ["INTO"] rest.tail)).map tableName

/-- The table that a statement of a trigger writes. -/
def writeTarget (words : List (List Char)) : Option (List Char) :=
  (insertTarget words).or
    (((nameBehind ["UPDATE"] words).or (nameBehind ["DELETE", "FROM"] words)).map tableName)

/-- A trigger that runs after the write that fires it and only writes tables in `created`. -/
def triggerWritesOnly (words : List (List Char)) (created : List (List Char)) : Bool :=
  match words.idxOf? "BEGIN".toList with
  | none => false
  | some start =>
      (words.take start).contains "AFTER".toList && words.getLast? = some "END".toList &&
        !words.any (contains "RAISE") &&
        ((((join ((words.drop (start + 1)).dropLast)).splitOn ';').map (Lib.words isWhitespace)).filter
          (· ≠ [])).all fun statement => (writeTarget statement).any (created.contains ·)

/-- A column that is nullable or has a default. -/
def mayAddColumn (rest : List (List Char)) : Bool :=
  let definition := join ((behind ["COLUMN"] rest).getD rest)
  !contains "NOT NULL" definition || contains "DEFAULT" definition

def isAllowed (created words : List (List Char)) : Bool :=
  if (createdTable words).isSome then true
  else if (behind ["CREATE", "TRIGGER"] words).isSome then triggerWritesOnly words created
  else if (behind ["CREATE", "INDEX"] words).isSome then true
  else match (behind ["ALTER", "TABLE"] words).bind (behind ["ADD"] ·.tail) with
    | some rest => mayAddColumn rest
    | none => (insertTarget words).any (created.contains ·)

/-- The expression in parentheses that a text goes on with, when the text before it opened `depth` of
them; nothing where the text does not start with one. -/
def parenthesizedFrom (depth : Nat) : List Char → Option (List Char)
  | [] => some []
  | '(' :: text => (parenthesizedFrom (depth + 1) text).map ('(' :: ·)
  | ')' :: text =>
      if depth ≤ 1 then some [')'] else (parenthesizedFrom (depth - 1) text).map (')' :: ·)
  | c :: text => if depth = 0 then none else (parenthesizedFrom depth text).map (c :: ·)

/-- The balanced parenthesized expression a text starts with, or all of it when it does not close. -/
def parenthesized (text : List Char) : List Char :=
  (parenthesizedFrom 0 (text.dropWhile isWhitespace)).getD []

/-- A CHECK whose expression names a `kind` column and a value of it.  Two `CHECK`s do not overlap. -/
def namesAKind (words : List (List Char)) : Bool :=
  (join words).tails.any fun rest => "CHECK".toList.isPrefixOf rest &&
    let expression := parenthesized (rest.drop 5)
    (expression.splitOnP fun c => !(c.isAlphanum || c = '_')).contains "KIND".toList &&
      expression.contains '\''

/-- The tables created so far, and what may break a binary unaware of the migration. -/
structure Judged where
  created : List (List Char) := []
  violations : List (List Char) := []

def judge (judged : Judged) (statement : List Char) : Judged :=
  let words := upperWords statement
  if words = [] then judged
  else
    let ok := isAllowed judged.created words &&
      !words.any (fun w => contains "REFERENCES" w || contains "/*" w) && !namesAKind words
    { created := judged.created ++ (createdTable words).toList
      violations := judged.violations ++ if ok then [] else [join words] }

/-- Every statement that could break a binary unaware of the migration. -/
def compatibilityViolations (migration : List Char) : List (List Char) :=
  ((statements (withoutComments migration)).foldl judge {}).violations

end Dagq.Schema
