/-
# Dagq.Domain.MigrationNumbers -- how the queue's migration files are named and numbered.

A migration is `migrations/NNNN_<name>.sql`.  Four bytes that are ASCII digits are four characters, so
names are read by characters.
-/
import Dagq.Lib.Digits
import Mathlib.Data.List.Basic

namespace Dagq.MigrationNumbers

open Lib

def directory : String := "migrations"

def isDigit (c : Char) : Bool := '0'.toNat ≤ c.toNat && c.toNat ≤ '9'.toNat

/-- The number four digits write. -/
def parse (digits : List Char) : Nat := digits.foldl (fun n c => 10 * n + (c.toNat - '0'.toNat)) 0

/-- What stands after `pre` in `text`. -/
def stripStart (pre text : List Char) : Option (List Char) :=
  if pre.isPrefixOf text then some (text.drop pre.length) else none

/-- What stands before `post` in `text`. -/
def stripEnd (post text : List Char) : Option (List Char) :=
  if post.isSuffixOf text then some (text.take (text.length - post.length)) else none

/-- The number of a migration file named `NNNN_<name>.sql`. -/
def number (fileName : String) : Option Nat :=
  let digits := fileName.toList.take 4
  match (stripStart ['_'] (fileName.toList.drop 4)).bind (stripEnd ".sql".toList) with
  | some name =>
      if digits.length = 4 ∧ name ≠ [] ∧ digits.all isDigit then some (parse digits) else none
  | none => none

/-- The number as the four digits a file name starts with. -/
def digits (n : Nat) : String := "".pushn '0' (4 - (toString n).length) ++ toString n

/-- The file name with its number replaced. -/
def renumbered (fileName : String) (n : Nat) : String :=
  digits n ++ String.ofList (fileName.toList.drop 4)

/-- The file name of a migration's path. -/
def inDirectory (path : String) : Option String :=
  ((stripStart (directory.toList ++ ['/']) path.toList).map String.ofList).filter fun name =>
    (number name).isSome

/-- The path of a migration. -/
def pathOf (fileName : String) : String := directory ++ "/" ++ fileName

example : number "0028_draft_planners.sql" = some 28 ∧ number "28_x.sql" = none ∧
    number "0028_.sql" = none ∧ digits 29 = "0029" ∧
    renumbered "0028_draft_planners.sql" 29 = "0029_draft_planners.sql" ∧
    inDirectory "migrations/0028_draft_planners.sql" = some "0028_draft_planners.sql" := by
  decide +kernel

/-! ## Numbers written and read back -/

variable {fileName name : String} {n : Nat}

theorem stripStart_eq_some {pre text rest : List Char} :
    stripStart pre text = some rest ↔ text = pre ++ rest := by
  unfold stripStart
  constructor
  · intro h
    split at h
    · rename_i hpre
      obtain ⟨tail, rfl⟩ := List.isPrefixOf_iff_prefix.mp hpre
      cases h
      rw [List.drop_left]
    · cases h
  · rintro rfl
    rw [if_pos (List.isPrefixOf_iff_prefix.mpr (List.prefix_append pre rest)), List.drop_left]

theorem pushn_toList (text : String) (c : Char) (k : Nat) :
    (text.pushn c k).toList = text.toList ++ List.replicate k c := by
  rw [String.pushn_eq_repeat_push]
  induction k with
  | zero => simp [Nat.repeat]
  | succ k ih => rw [Nat.repeat, String.toList_push, ih, List.append_assoc, List.replicate_succ']

theorem digits_toList (n : Nat) : (digits n).toList = Digits.padded 4 n := by
  rw [digits, String.toList_append, pushn_toList]
  show _ ++ n.repr.toList = _
  rw [Nat.toList_repr, ← String.length_toList]
  show _ ++ List.replicate (4 - n.repr.toList.length) '0' ++ _ = _
  rw [Nat.toList_repr]
  rfl

theorem parse_eq (digits : List Char) : parse digits = Digits.value digits := rfl

theorem pathOf_inj {a b : String} (h : pathOf a = pathOf b) : a = b := by
  have htext (x : String) : (pathOf x).toList = (directory ++ "/").toList ++ x.toList :=
    String.toList_append
  rw [← String.toList_inj, htext, htext] at h
  exact String.toList_inj.mp (List.append_cancel_left h)

theorem inDirectory_eq_some {path : String} :
    inDirectory path = some name ↔ path = pathOf name ∧ (number name).isSome := by
  rw [inDirectory, Option.filter_eq_some_iff, Option.map_eq_some_iff]
  constructor
  · rintro ⟨⟨chars, hchars, rfl⟩, hnumber⟩
    refine ⟨?_, hnumber⟩
    rw [stripStart_eq_some] at hchars
    rw [← String.toList_inj, hchars, pathOf, String.toList_append, String.toList_append]
    simp
  · rintro ⟨rfl, hnumber⟩
    refine ⟨⟨name.toList, stripStart_eq_some.mpr ?_, String.ofList_toList⟩, hnumber⟩
    rw [pathOf, String.toList_append, String.toList_append]
    rfl

/-- A renumbered migration is read with its new number while that has four digits; past them its name
is none of a migration. -/
theorem number_renumbered (h : (number fileName).isSome) (n : Nat) :
    number (renumbered fileName n) = if n < 10 ^ 4 then some n else none := by
  have hchars : (renumbered fileName n).toList = Digits.padded 4 n ++ fileName.toList.drop 4 := by
    rw [renumbered, String.toList_append, digits_toList, String.toList_ofList]
  unfold number at h ⊢
  rw [hchars]
  split_ifs with hn
  · have hlen : (Digits.padded 4 n).length = 4 := Digits.length_padded (by omega) hn
    rw [List.drop_left' hlen, List.take_left' hlen]
    split at h
    · rename_i name hname
      dsimp only at h
      split_ifs at h with hread
      · dsimp only
        rw [if_pos ⟨hlen, hread.2.1, List.all_eq_true.mpr fun c hc => Digits.isDigit_padded hc⟩,
          parse_eq, Digits.value_padded]
      · cases h
    · cases h
  · -- The fifth digit stands where the underscore should.
    have hlong : 4 < (Digits.padded 4 n).length := Digits.lt_length_padded (by omega) (by omega)
    have hnone : stripStart ['_'] ((Digits.padded 4 n ++ fileName.toList.drop 4).drop 4) = none := by
      rw [Option.eq_none_iff_forall_ne_some]
      intro rest hrest
      rw [stripStart_eq_some, List.drop_append_of_le_length hlong.le,
        List.drop_eq_getElem_cons hlong] at hrest
      have hdigit : (Digits.padded 4 n)[4].isDigit = true :=
        Digits.isDigit_padded (List.getElem_mem hlong)
      rw [(List.cons.inj hrest).1] at hdigit
      cases hdigit
    rw [hnone]
    rfl

end Dagq.MigrationNumbers
