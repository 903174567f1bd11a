/-
# Dagq.Domain.Transcript -- a transcript as its records, and the turns they make.

A turn runs from an actual input to the last output before the next one.  Every turn but the last is
complete; reading on can add turns and lengthen the last one, and never changes a complete one.
-/
import Mathlib.Data.Int.Order.Basic
import Mathlib.Data.List.Induction

namespace Dagq.Sessions

/-- What a record is, for the turns. -/
inductive RecordRole
  | input | output | other
  deriving DecidableEq, Repr

/-- One record of a transcript; `at` is in unix milliseconds. -/
structure TranscriptRecord where
  at' : Int
  role : RecordRole
  deriving DecidableEq, Repr

/-- One turn, in unix milliseconds. -/
structure Turn where
  start : Int
  finish : Int
  deriving DecidableEq, Repr

/-- The turns of some records. -/
structure Turns where
  complete : List Turn := []
  last : Option Turn := none
  deriving DecidableEq, Repr

/-- Every turn, the last one included. -/
def Turns.all (turns : Turns) : List Turn := turns.complete ++ turns.last.toList

/-- What one record does to the turns. -/
def Turns.record (turns : Turns) (record : TranscriptRecord) : Turns :=
  match record.role with
  | .input => { complete := turns.all, last := some ⟨record.at', record.at'⟩ }
  | .output =>
      { turns with last := turns.last.map fun turn => { turn with finish := max turn.finish record.at' } }
  | .other => turns

/-- `turns`. -/
def turns (records : List TranscriptRecord) : Turns := records.foldl Turns.record {}

/-- `TranscriptRecord::last_at` of a transcript: the time of its last record. -/
def lastAt (records : List TranscriptRecord) : Option Int := (records.map (·.at')).max?

/-- `span_turns`: the turns of a span open from `start` to `stop` (`none` while it is open) that start
after `after`, cut at the span's end. -/
def spanTurns (turns : List Turn) (start : Int) (stop after : Option Int) : List Turn :=
  (turns.filter fun turn =>
      decide (start ≤ turn.start) && stop.all (turn.start < ·) && after.all (· < turn.start)).map
    fun turn => { turn with finish := stop.elim turn.finish (min turn.finish) }

/-! ## Reading on -/

theorem turns_append (records more : List TranscriptRecord) :
    turns (records ++ more) = more.foldl Turns.record (turns records) := by
  rw [turns, List.foldl_append, turns]

theorem Turns.complete_prefix_all (t : Turns) : t.complete <+: t.all := List.prefix_append _ _

/-- A complete turn stays as it is. -/
theorem Turns.record_complete (t : Turns) (record : TranscriptRecord) :
    t.complete <+: (t.record record).complete := by
  unfold Turns.record
  split
  · exact t.complete_prefix_all
  · exact List.prefix_refl _
  · exact List.prefix_refl _

/-- The complete turns of a prefix come first among the complete turns of the whole. -/
theorem turns_complete_prefix (records more : List TranscriptRecord) :
    (turns records).complete <+: (turns (records ++ more)).complete := by
  rw [turns_append]
  induction more generalizing records with
  | nil => exact List.prefix_refl _
  | cons record more ih =>
      have hone : (turns (records ++ [record])) = (turns records).record record :=
        turns_append records [record]
      have hrest := ih (records ++ [record])
      rw [hone] at hrest
      exact ((turns records).record_complete record).trans hrest

theorem turns_take_mono (records : List TranscriptRecord) {m n : Nat} (h : m ≤ n) :
    (turns (records.take m)).complete <+: (turns (records.take n)).complete := by
  have hsplit : records.take n = records.take m ++ (records.take n).drop m := by
    conv_lhs => rw [← List.take_append_drop m (records.take n)]
    rw [List.take_take, Nat.min_eq_left h]
  rw [hsplit]
  exact turns_complete_prefix _ _

theorem turns_take_prefix_all (records : List TranscriptRecord) (n : Nat) :
    (turns (records.take n)).complete <+: (turns records).all := by
  have h := turns_complete_prefix (records.take n) (records.drop n)
  rw [List.take_append_drop] at h
  exact h.trans (Turns.complete_prefix_all _)

/-! ## The shape of a turn -/

theorem Turns.record_start_le {t : Turns} {record : TranscriptRecord}
    (h : ∀ u ∈ t.all, u.start ≤ u.finish) : ∀ u ∈ (t.record record).all, u.start ≤ u.finish := by
  intro u hu
  unfold Turns.record at hu
  split at hu
  · simp only [Turns.all, Option.toList_some, List.mem_append, List.mem_singleton] at hu
    rcases hu with hu | rfl
    · exact h u (List.mem_append.mpr hu)
    · exact le_refl _
  · simp only [Turns.all, List.mem_append, Option.mem_toList, Option.map_eq_some_iff] at hu
    rcases hu with hu | ⟨v, hv, rfl⟩
    · exact h u (List.mem_append_left _ hu)
    · have hv := h v (List.mem_append_right _ (Option.mem_toList.mpr hv))
      show v.start ≤ max v.finish record.at'
      omega
  · exact h u hu

/-- No turn ends before it starts. -/
theorem turns_start_le (records : List TranscriptRecord) :
    ∀ u ∈ (turns records).all, u.start ≤ u.finish := by
  induction records using List.reverseRecOn with
  | nil => intro u hu; cases hu
  | append_singleton records record ih =>
      rw [turns_append]
      exact Turns.record_start_le ih

end Dagq.Sessions
