/-
# Dagq.Store.SchemaMisread -- what a compatible migration leaves alone, and what the checker misreads.

A text of the documented forms changes no row, column or table that was there before it.  The checker
promises these forms of the texts it reads as SQLite does, and of no kind of the others: for each
clause of `readsPlainly` there is a text without it that the checker accepts and that is of another
form.
-/
import Dagq.Store.SchemaSound

namespace Dagq.Schema

open Lib Sql

variable {existing : Name → Bool} {created : List Name} {ts : List Lexeme}

/-! ## The forms, decided -/

def isDocumented (existing : Name → Bool) (created : List Name) : Statement → Bool
  | .plain ts =>
      isBlank ts || (createsTable ts).any (fun t => t.1 = true → existing t.2 = false) ||
        (afterWords ["CREATE", "INDEX"] ts).isSome ||
        (addsColumn ts).any (fun definition =>
          isNotNull definition = true → hasDefault definition = true) ||
        (insertsInto ts).any (created.contains ·)
  | .trigger head body =>
      runsAfter head && (firstCommand head).any fun first =>
        (first :: body).all fun command =>
          isBlank command || (writes command).any (created.contains ·)
  | .unended _ _ => false

theorem isDocumented_iff {st : Statement} :
    isDocumented existing created st = true ↔ Documented existing created st := by
  cases st with
  | plain ts =>
      simp only [isDocumented, Bool.or_eq_true, Option.any_eq_true,
        decide_eq_true_eq, List.contains_iff_mem]
      constructor
      · rintro ((((h | ⟨t, h, hnew⟩) | h) | ⟨definition, h, hdefault⟩) | ⟨name, h, hmem⟩)
        · exact .blank h
        · exact .table h hnew
        · exact .index h
        · exact .column h hdefault
        · exact .insert h hmem
      · rintro (h | ⟨h, hnew⟩ | h | ⟨h, hdefault⟩ | ⟨h, hmem⟩)
        · exact .inl (.inl (.inl (.inl h)))
        · exact .inl (.inl (.inl (.inr ⟨_, h, hnew⟩)))
        · exact .inl (.inl (.inr h))
        · exact .inl (.inr ⟨_, h, hdefault⟩)
        · exact .inr ⟨_, h, hmem⟩
  | trigger head body =>
      simp only [isDocumented, Bool.and_eq_true, Option.any_eq_true, List.all_eq_true,
        Bool.or_eq_true, List.contains_iff_mem]
      constructor
      · rintro ⟨hafter, first, hfirst, hwrites⟩
        refine .trigger hafter hfirst fun command hmem => (hwrites command hmem).imp_right ?_
        rintro ⟨name, hname, hcreated⟩
        exact ⟨name, hcreated, hname⟩
      · intro h
        cases h with
        | trigger hafter hfirst hwrites =>
            refine ⟨hafter, _, hfirst, fun command hmem => (hwrites command hmem).imp_right ?_⟩
            rintro ⟨name, hcreated, hname⟩
            exact ⟨name, hname, hcreated⟩
  | unended head body => exact ⟨nofun, nofun⟩

/-- Each statement, behind those that created the given tables. -/
def areDocumented (existing : Name → Bool) : List Name → List Statement → Bool
  | _, [] => true
  | created, st :: rest => isDocumented existing created st &&
      areDocumented existing (created ++ (creates st).toList) rest

theorem areDocumented_iff {sts : List Statement} : areDocumented existing created sts = true ↔
    ∀ before st after, sts = before ++ st :: after →
      Documented existing (created ++ before.filterMap creates) st := by
  induction sts generalizing created with
  | nil => exact iff_of_true rfl fun before st after h => absurd h (by simp)
  | cons first rest ih =>
      rw [areDocumented, Bool.and_eq_true, isDocumented_iff, ih]
      constructor
      · rintro ⟨hfirst, hrest⟩ before st after h
        cases before with
        | nil =>
            obtain ⟨rfl, -⟩ := List.cons.inj h
            rwa [List.filterMap_nil, List.append_nil]
        | cons other before =>
            obtain ⟨rfl, hbehind⟩ := List.cons.inj h
            have hlater := hrest before st after hbehind
            rwa [List.append_assoc, ← filterMap_creates] at hlater
      · intro h
        refine ⟨?_, fun before st after hrest => ?_⟩
        · simpa using h [] first rest rfl
        · have hlater := h (first :: before) st after (by rw [hrest]; rfl)
          rwa [List.append_assoc, ← filterMap_creates]

instance (existing : Name → Bool) (text : List Char) : Decidable (OnlyAdds existing text) :=
  decidable_of_iff (areDocumented existing [] (Sql.statements text) = true) areDocumented_iff

/-! ## What was there before -/

/-- The statement renames a table or a column, or drops a column. -/
def alters (ts : List Lexeme) : Bool :=
  ((afterWords ["ALTER", "TABLE"] ts).bind Sql.tableName).any fun name =>
    ["RENAME", "DROP"].any fun k => (afterWords [k] name.2).isSome

/-- The statement drops, deletes, updates or renames, or inserts into a table that was there; a
command of a trigger writes such a table. -/
def changesOlder (existing : Name → Bool) : Statement → Bool
  | .plain ts => (["DROP", "DELETE", "UPDATE", "REPLACE", "WITH"].any fun k =>
      (afterWords [k] ts).isSome) || alters ts || (insertsInto ts).any existing
  | .trigger head body => ((firstCommand head).toList ++ body).any fun command =>
      (writes command).any existing
  -- SQLite refuses it.
  | .unended _ _ => false

/-- No table is created that is there, which SQLite refuses. -/
def CreatesNew (existing : Name → Bool) (text : List Char) : Prop :=
  ∀ ts, .plain ts ∈ Sql.statements text → ∀ name, createsTable ts = some (false, name) →
    existing name = false

theorem afterWords_of_blank {k : String} {ks : List String} (h : isBlank ts = true) :
    afterWords (k :: ks) ts = none := by
  have hskip : skip ts = [] := List.dropWhile_eq_nil_iff.mpr (List.all_eq_true.mp h)
  rw [afterWords, hskip]

theorem createsTable_begins {t : Bool × Name} (h : createsTable ts = some t) :
    ∃ k ∈ ["TABLE", "VIRTUAL"], ∃ ks, (afterWords ("CREATE" :: k :: ks) ts).isSome := by
  obtain ⟨rest, hrest, -⟩ := Option.bind_eq_some_iff.mp h
  rcases Option.or_eq_some_iff.mp hrest with h | ⟨-, h⟩
  · exact ⟨"TABLE", by decide, [], Option.isSome_of_eq_some h⟩
  · exact ⟨"VIRTUAL", by decide, ["TABLE"], Option.isSome_of_eq_some h⟩

theorem insertsInto_begins {name : Name} (h : insertsInto ts = some name) :
    ∃ ks, (afterWords ("INSERT" :: ks) ts).isSome := by
  obtain ⟨t, ht, -⟩ := Option.map_eq_some_iff.mp h
  obtain ⟨rest, hrest, -⟩ := Option.bind_eq_some_iff.mp ht
  rcases Option.or_eq_some_iff.mp hrest with h | ⟨-, h⟩
  · exact ⟨_, Option.isSome_of_eq_some h⟩
  · obtain ⟨rest, h, -⟩ := Option.bind_eq_some_iff.mp h
    exact ⟨_, Option.isSome_of_eq_some h⟩

theorem addsColumn_begins {definition : List Lexeme} (h : addsColumn ts = some definition) :
    (afterWords ["ALTER", "TABLE"] ts).isSome := by
  obtain ⟨name, hname, -⟩ := Option.bind_eq_some_iff.mp h
  obtain ⟨rest, hrest, -⟩ := Option.bind_eq_some_iff.mp hname
  exact Option.isSome_of_eq_some hrest

/-- The form of a documented statement by its first word. -/
theorem Documented.of_word (h : Documented existing created (.plain ts)) {k : String}
    {ks : List String} (hk : (afterWords (k :: ks) ts).isSome) :
    (k = "CREATE" ∧ ((∃ ifNotExists name, createsTable ts = some (ifNotExists, name) ∧
        (ifNotExists = true → existing name = false)) ∨ (afterWords ["CREATE", "INDEX"] ts).isSome)) ∨
      (k = "ALTER" ∧ ∃ definition, addsColumn ts = some definition) ∨
        (k = "INSERT" ∧ ∃ name ∈ created, insertsInto ts = some name) := by
  cases h with
  | blank h =>
      rw [afterWords_of_blank h] at hk
      cases hk
  | table h hnew =>
      obtain ⟨_, _, _, hcreate⟩ := createsTable_begins h
      exact .inl ⟨afterWords_head hk hcreate, .inl ⟨_, _, h, hnew⟩⟩
  | index h => exact .inl ⟨afterWords_head hk h, .inr h⟩
  | column h hdefault => exact .inr (.inl ⟨afterWords_head hk (addsColumn_begins h), _, h⟩)
  | insert h hmem =>
      obtain ⟨_, hinsert⟩ := insertsInto_begins h
      exact .inr (.inr ⟨afterWords_head hk hinsert, _, hmem, h⟩)

/-- An added column does not alter another. -/
theorem Documented.not_alters (h : Documented existing created (.plain ts)) : alters ts = false := by
  refine Bool.eq_false_iff.mpr fun halters => ?_
  obtain ⟨name, hname, hword⟩ := (Option.any_eq_true _ _).mp halters
  obtain ⟨k, hk, hsome⟩ := List.any_eq_true.mp hword
  obtain ⟨rest, hrest, htable⟩ := Option.bind_eq_some_iff.mp hname
  rcases h.of_word (Option.isSome_of_eq_some hrest) with ⟨hno, -⟩ | ⟨-, definition, h⟩ | ⟨hno, -⟩
  · exact absurd hno (by decide)
  · rw [addsColumn, hrest, Option.bind_some, htable, Option.bind_some] at h
    obtain rfl : k = "ADD" := afterWords_head hsome (Option.isSome_of_eq_some h)
    exact absurd hk (by decide)
  · exact absurd hno (by decide)

theorem Documented.inserts_created (h : Documented existing created (.plain ts)) {name : Name}
    (hname : insertsInto ts = some name) : name ∈ created := by
  obtain ⟨_, hinsert⟩ := insertsInto_begins hname
  rcases h.of_word hinsert with ⟨hno, -⟩ | ⟨hno, -⟩ | ⟨-, other, hmem, hother⟩
  · exact absurd hno (by decide)
  · exact absurd hno (by decide)
  · rw [hname, Option.some.injEq] at hother
    exact hother ▸ hmem

theorem writes_of_blank (h : isBlank ts = true) : writes ts = none := by
  simp only [writes, insertBody, updateBody, afterWords_of_blank h, Option.bind_none, Option.or_none,
    Option.map_none]

/-- A documented statement changes nothing that was there before the tables created so far. -/
theorem Documented.leaves_older {st : Statement} (h : Documented existing created st)
    (hcreated : ∀ name ∈ created, existing name = false) : changesOlder existing st = false := by
  cases st with
  | plain ts =>
      simp only [changesOlder, Bool.or_eq_false_iff]
      refine ⟨⟨?_, h.not_alters⟩, ?_⟩
      · refine List.any_eq_false.mpr fun k hk hsome => ?_
        rcases h.of_word hsome with ⟨rfl, -⟩ | ⟨rfl, -⟩ | ⟨rfl, -⟩ <;> exact absurd hk (by decide)
      · refine Bool.eq_false_iff.mpr fun hany => ?_
        obtain ⟨name, hname, hexists⟩ := (Option.any_eq_true _ _).mp hany
        rw [hcreated name (h.inserts_created hname)] at hexists
        cases hexists
  | trigger head body =>
      cases h with
      | trigger hafter hfirst hwrites =>
          simp only [changesOlder, hfirst]
          refine List.any_eq_false.mpr fun command hmem hany => ?_
          obtain ⟨name, hname, hexists⟩ := (Option.any_eq_true _ _).mp hany
          rcases hwrites command hmem with hblank | ⟨other, hother, hwrite⟩
          · rw [writes_of_blank hblank] at hname
            cases hname
          · rw [hwrite, Option.some.injEq] at hname
            rw [← hname, hcreated other hother] at hexists
            cases hexists
  | unended head body => cases h

/-- The tables a text of the documented forms creates are new. -/
theorem OnlyAdds.created_new {text : List Char} (h : OnlyAdds existing text)
    (hnew : CreatesNew existing text) {before after : List Statement} {st : Statement}
    (hsplit : Sql.statements text = before ++ st :: after) :
    ∀ name ∈ before.filterMap creates, existing name = false := by
  intro name hname
  obtain ⟨other, hother, hcreates⟩ := List.mem_filterMap.mp hname
  have hmem : other ∈ Sql.statements text := hsplit ▸ List.mem_append_left _ hother
  cases other with
  | plain ts =>
      obtain ⟨⟨ifNotExists, created⟩, htable, rfl⟩ := Option.map_eq_some_iff.mp hcreates
      cases ifNotExists with
      | false => exact hnew ts hmem created htable
      | true =>
          obtain ⟨before', after', hsplit'⟩ := List.append_of_mem hmem
          obtain ⟨k, hk, _, hcreate⟩ := createsTable_begins htable
          rcases (h before' _ after' hsplit').of_word hcreate with
            ⟨-, ⟨ifNotExists, name, hother, hexists⟩ | hindex⟩ | ⟨hno, -⟩ | ⟨hno, -⟩
          · rw [htable, Option.some.injEq, Prod.mk.injEq] at hother
            obtain ⟨rfl, rfl⟩ := hother
            exact hexists rfl
          · obtain rfl : k = "INDEX" := afterWords_second hcreate hindex
            exact absurd hk (by decide)
          · exact absurd hno (by decide)
          · exact absurd hno (by decide)
  | trigger => cases hcreates
  | unended => cases hcreates

/-! ## Sound or not -/

/-- Accepting the text means that it is of the documented forms, and that it changes nothing that was
there, if SQLite runs it. -/
def SoundOn (existing : Name → Bool) (text : List Char) : Prop :=
  compatibilityViolations text = [] → OnlyAdds existing text ∧
    (CreatesNew existing text → ∀ st ∈ Sql.statements text, changesOlder existing st = false)

def tasksThere : Name → Bool := fun name => name = ⟨none, "TASKS".toList⟩

/-- A table of its own, and a trigger on a table that was there. -/
def plainMigration : String :=
  "CREATE TABLE n (x DEFAULT 'DROP'); -- new\n" ++
  "CREATE TRIGGER t AFTER UPDATE ON tasks BEGIN DELETE FROM n; END;"

/-- Texts of other forms that the checker accepts: with `--` or `;` in a quotation, a blank that is
none to SQLite, a table that is there, a virtual table, names of more than one word, a table's name
without a blank behind it, a conflict clause in a trigger, `DEFAULT` and `AFTER` as names, `BEGIN` in a
literal, and a trigger that does not end. -/
def misread : List String := [
  "CREATE TABLE t (x DEFAULT '--'); DROP TABLE tasks;",
  "CREATE TABLE t (x DEFAULT '; CREATE TRIGGER u AFTER INSERT ON t BEGIN " ++
    "DELETE FROM t '); DELETE FROM t; END;",
  "CREATE TABLE n (x); INSERT INTO n\u00a0x VALUES (1);",
  "CREATE TABLE IF NOT EXISTS tasks (x); INSERT INTO tasks VALUES (1);",
  "CREATE VIRTUAL TABLE IF NOT EXISTS v USING fts5(x); INSERT INTO \"IF\" VALUES (1);",
  "CREATE TABLE \"a b\" (x); INSERT INTO \"a c\" VALUES (1);",
  "ALTER TABLE \"tasks\"RENAME add TO y;",
  "CREATE TABLE \"OR\" (x); CREATE TRIGGER t AFTER INSERT ON tasks BEGIN " ++
    "UPDATE OR IGNORE tasks SET x = 1; END;",
  "ALTER TABLE tasks ADD COLUMN \"DEFAULT\" NOT NULL;",
  "CREATE TABLE n (x); CREATE TRIGGER after BEFORE INSERT ON tasks BEGIN DELETE FROM n; END;",
  "CREATE TABLE n (x); CREATE TRIGGER t AFTER INSERT ON tasks WHEN x = ' BEGIN " ++
    "DELETE FROM n WHERE ' BEGIN DELETE FROM tasks; END;",
  "CREATE TABLE n (x); CREATE TRIGGER t AFTER INSERT ON tasks BEGIN DELETE FROM n END"]

end Dagq.Schema
