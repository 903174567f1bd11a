/-
# Dagq.Store.Migrations -- what SQLite makes of a migration, and when the checker sees the same.

A compatible migration only adds: a new table, an index, a column an older binary may leave out, rows of
its own tables, and triggers that write to these.
-/
import Dagq.Lib.SqlText
import Dagq.Store.Schema

namespace Dagq.Schema

open Lib Sql

/-! ## The documented forms -/

/-- The table that a definition names, and whether it may be there already. -/
def newTable (ts : List Lexeme) : Option (Bool × Name) :=
  match afterWords ["IF", "NOT", "EXISTS"] ts with
  | some rest => (Sql.tableName rest).map fun name => (true, name.1)
  | none => (Sql.tableName ts).map fun name => (false, name.1)

/-- The table that a statement creates. -/
def createsTable (ts : List Lexeme) : Option (Bool × Name) :=
  ((afterWords ["CREATE", "TABLE"] ts).or (afterWords ["CREATE", "VIRTUAL", "TABLE"] ts)).bind newTable

/-- What stands behind `INSERT INTO`, with a conflict clause or without. -/
def insertBody (ts : List Lexeme) : Option (List Lexeme) :=
  (afterWords ["INSERT", "INTO"] ts).or
    ((afterWords ["INSERT", "OR"] ts).bind fun rest =>
      match skip rest with
      | .word _ :: rest => afterWords ["INTO"] rest
      | _ => none)

/-- What stands behind `UPDATE`, with a conflict clause or without. -/
def updateBody (ts : List Lexeme) : Option (List Lexeme) :=
  (afterWords ["UPDATE"] ts).bind fun rest =>
    match afterWords ["OR"] rest with
    | some rest =>
        match skip rest with
        | .word _ :: rest => some rest
        | _ => none
    | none => some rest

/-- The table into which a statement inserts. -/
def insertsInto (ts : List Lexeme) : Option Name :=
  ((insertBody ts).bind Sql.tableName).map Prod.fst

/-- The table that a command of a trigger writes. -/
def writes (ts : List Lexeme) : Option Name :=
  (((insertBody ts).or ((updateBody ts).or (afterWords ["DELETE", "FROM"] ts))).bind
    Sql.tableName).map Prod.fst

/-- The column that a statement adds to a table. -/
def addsColumn (ts : List Lexeme) : Option (List Lexeme) :=
  ((afterWords ["ALTER", "TABLE"] ts).bind Sql.tableName).bind fun name => afterWords ["ADD"] name.2

/-- The definition says `NOT NULL`. -/
def isNotNull (definition : List Lexeme) : Bool :=
  definition.tails.any fun ts => (afterWords ["NOT", "NULL"] ts).isSome

def hasDefault (definition : List Lexeme) : Bool := definition.any (Lexeme.isKeyword "DEFAULT")

/-- The trigger runs after the write that fires it. -/
def runsAfter (head : List Lexeme) : Bool :=
  (((afterWords ["CREATE", "TRIGGER"] head).bind fun rest =>
    Sql.tableName ((afterWords ["IF", "NOT", "EXISTS"] rest).getD rest)).bind fun name =>
      afterWords ["AFTER"] name.2).isSome

/-- What stands before the `BEGIN` of a trigger. -/
def beforeBegin (head : List Lexeme) : List Lexeme := head.takeWhile (!Lexeme.isKeyword "BEGIN" ·)

/-- The first command of a trigger. -/
def firstCommand (head : List Lexeme) : Option (List Lexeme) :=
  (head.dropWhile (!Lexeme.isKeyword "BEGIN" ·)).tail?

def isBlank (ts : List Lexeme) : Bool := ts.all Lexeme.isSpace

/-- A statement of one of the forms a compatible migration may have, where `existing` tells the tables
that were there before it, and `created` are those it has created so far. -/
inductive Documented (existing : Name → Bool) (created : List Name) : Statement → Prop
  | blank {ts : List Lexeme} (h : isBlank ts = true) : Documented existing created (.plain ts)
  | table {ts : List Lexeme} {ifNotExists : Bool} {name : Name}
      (h : createsTable ts = some (ifNotExists, name))
      (hnew : ifNotExists = true → existing name = false) : Documented existing created (.plain ts)
  | index {ts : List Lexeme} (h : (afterWords ["CREATE", "INDEX"] ts).isSome) :
      Documented existing created (.plain ts)
  | column {ts definition : List Lexeme} (h : addsColumn ts = some definition)
      (hdefault : isNotNull definition = true → hasDefault definition = true) :
      Documented existing created (.plain ts)
  | insert {ts : List Lexeme} {name : Name} (h : insertsInto ts = some name) (hmem : name ∈ created) :
      Documented existing created (.plain ts)
  | trigger {head first : List Lexeme} {body : List (List Lexeme)} (hafter : runsAfter head = true)
      (hfirst : firstCommand head = some first)
      (hwrites : ∀ command ∈ first :: body, isBlank command = true ∨
        ∃ name ∈ created, writes command = some name) :
      Documented existing created (.trigger head body)

/-- The table that a statement creates. -/
def creates : Statement → Option Name
  | .plain ts => (createsTable ts).map Prod.snd
  | _ => none

/-- Every statement of the text, as SQLite divides it, is of a documented form. -/
def OnlyAdds (existing : Name → Bool) (text : List Char) : Prop :=
  ∀ before statement after, Sql.statements text = before ++ statement :: after →
    Documented existing (before.filterMap creates) statement

/-! ## What the checker sees as it is -/

/-- No `--` and no `;` in a quotation, and no blank outside one that SQLite does not take for one. -/
def isPlain : Lexeme → Bool
  | .space text => text.all isWhitespace
  | .word text => text.all (!isWhitespace ·)
  | .symbol c => !isWhitespace c
  | .quoted _ text => !contains "--" text && !text.contains ';'
  | .unclosed text => !contains "--" text && !text.contains ';'
  | _ => true

/-- The part of a name that a token spells with the characters of words alone. -/
def part : Lexeme → Option (List Char)
  | .word text => some (uppercase text)
  | .quoted _ text =>
      if text.dropLast ≠ [] ∧ text.dropLast.all (fun c => isIdChar c && !isWhitespace c) = true then
        some (uppercase text.dropLast)
      else none
  | _ => none

/-- A word of the checker ends here, or its parenthesis begins. -/
def endsName : List Lexeme → Bool
  | [] => true
  | .space _ :: _ => true
  | .symbol c :: _ => c = '('
  | _ => false

/-- The name the tokens go on with, where it stands in one word of the checker. -/
def wordName (ts : List Lexeme) : Option (Name × List Lexeme) :=
  if (ts.head?.any Lexeme.isSpace) = false then none
  else
    match skip ts with
    | t :: .symbol '.' :: u :: rest =>
        if endsName rest = true then
          (part t).bind fun a => (part u).map fun b => (⟨some a, b⟩, rest)
        else none
    | t :: rest =>
        if endsName rest = true ∧ (skip rest).head? ≠ some (.symbol '.') then
          (part t).map fun a => (⟨none, a⟩, rest)
        else none
    | [] => none

def isNamed (ts : List Lexeme) : Bool := (wordName ts).isSome

/-- The conflict clause is one word. -/
def isPlainOr (ts : List Lexeme) : Bool :=
  match skip ts with
  | .word _ :: rest => (afterWords ["INTO"] rest).any isNamed
  | _ => false

/-- `DEFAULT` does not only stand in a name or a literal of a column that may not be null. -/
def isPlainColumn (definition : List Lexeme) : Bool :=
  !isNotNull definition || !contains "DEFAULT" (join (upperWords (source definition))) ||
    hasDefault definition

/-- The tables a statement names are words, `IF NOT EXISTS` is said of no table that is there (and of no
virtual table, for which the checker does not know it). -/
def isPlainCommand (existing : Name → Bool) (ts : List Lexeme) : Bool :=
  (afterWords ["CREATE", "TABLE"] ts).all (fun rest =>
    match afterWords ["IF", "NOT", "EXISTS"] rest with
    | some rest => (wordName rest).any fun name => !existing name.1
    | none => isNamed rest) &&
  (afterWords ["CREATE", "VIRTUAL", "TABLE"] ts).all (fun rest =>
    (afterWords ["IF", "NOT", "EXISTS"] rest).isNone && isNamed rest) &&
  (afterWords ["ALTER", "TABLE"] ts).all (fun rest =>
    (wordName rest).any fun name =>
      name.2.head?.any Lexeme.isSpace && (afterWords ["ADD"] name.2).all isPlainColumn) &&
  (afterWords ["INSERT", "INTO"] ts).all isNamed &&
  (afterWords ["INSERT", "OR"] ts).all isPlainOr

def isPlainWrite (ts : List Lexeme) : Bool :=
  (afterWords ["INSERT", "INTO"] ts).all isNamed &&
  (afterWords ["INSERT", "OR"] ts).all isPlainOr &&
  (afterWords ["UPDATE"] ts).all (fun rest => (afterWords ["OR"] rest).isNone && isNamed rest) &&
  (afterWords ["DELETE", "FROM"] ts).all isNamed

/-- `BEGIN` is the first word of the checker that says so, and no `AFTER` before it is anything but the
time of the trigger. -/
def isPlainTrigger (head : List Lexeme) (body : List (List Lexeme)) : Bool :=
  let before := beforeBegin head
  let wordsBefore := upperWords (source before)
  !wordsBefore.contains "BEGIN".toList && (!wordsBefore.contains "AFTER".toList || runsAfter head) &&
  (firstCommand head).any fun first =>
    before.getLast?.any Lexeme.isSpace && first.head?.any Lexeme.isSpace &&
      (first :: body).all isPlainWrite

def isPlainStatement (existing : Name → Bool) : Statement → Bool
  | .plain ts => isPlainCommand existing ts
  | .trigger head body => isPlainTrigger head body
  | .unended _ _ => false

/-- The checker reads the text as SQLite does. -/
def readsPlainly (existing : Name → Bool) (text : List Char) : Bool :=
  (lex text).all isPlain && (Sql.statements text).all (isPlainStatement existing)

end Dagq.Schema
