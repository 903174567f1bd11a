/-
# Dagq.Domain.ClaimDefer -- deferring the claim of one task.

A candidate whose expected files meet those of a run in flight on a conflict hotspot is passed over,
and the next candidate is claimed instead.  A task of interrupt priority is never deferred, and a
deferral ends once it has lasted its limit: the task is claimed then even if the files still meet.
-/
import Dagq.Domain.Values
import Mathlib.Tactic.SplitIfs

namespace Dagq

/-- Where a candidate's expected files meet the runs in flight on hotspots. -/
structure Overlap where
  /-- The hotspots both sides touch. -/
  files : List String
  /-- The runs in flight that touch them, with their tasks. -/
  runs : List (RunId × TaskId)

/-- Why a deferral ended: the files no longer meet or the task became an interrupt, it lasted the
limit, or the task left the candidates. -/
inductive DeferralEnd
  | cleared | expired | notCandidate
  deriving DecidableEq

/-- What is recorded on the task when its claim is first deferred, and when the deferral ends. -/
inductive DeferralEvent
  | deferred (overlap : Overlap) (maxSecs : Seconds)
  | ended (why : DeferralEnd) (deferredSecs : Seconds)

/-- A task's deferral as the supervisor keeps it: since when, and whether it ran out, which lets the
task be claimed while the files still meet. -/
structure Deferral where
  since : Seconds
  expired : Bool := false
  deriving DecidableEq

/-- What to do with one candidate this pass: claim it, or pass over it.  The event ends or starts a
deferral. -/
inductive Decision
  | claim (event : Option DeferralEvent)
  | defer (event : Option DeferralEvent)

namespace Decision

def event : Decision → Option DeferralEvent
  | .claim event => event
  | .defer event => event

def claims : Decision → Bool
  | .claim _ => true
  | .defer _ => false

end Decision

namespace Deferral

/-- The end of a deferral that began at `since`. -/
def ended (why : DeferralEnd) (since now : Seconds) : DeferralEvent :=
  .ended why (max (now - since) 0)

/-- Judge one candidate: the decision, and the deferral in place after it. -/
def decide (interrupt : Bool) (overlap : Option Overlap) (deferral : Option Deferral)
    (now maxSecs : Seconds) : Decision × Option Deferral :=
  match overlap.filter fun _ => !interrupt, deferral with
  | some _, some d =>
      if d.expired = true then (.claim none, some d)
      else if maxSecs ≤ now - d.since then
        (.claim (some (ended .expired d.since now)), some { d with expired := true })
      else (.defer none, some d)
  | some overlap, none =>
      -- No limit left to wait for: nothing is deferred.
      if maxSecs ≤ 0 then (.claim none, none)
      else (.defer (some (.deferred overlap maxSecs)), some { since := now })
  | none, some d =>
      -- An expired deferral stays expired, so the task is not deferred anew.
      if d.expired = true then (.claim none, some d)
      else (.claim (some (ended .cleared d.since now)), none)
  | none, none => (.claim none, none)

/-- The event that ends the deferral of a task that left the candidates, if it was still open. -/
def left (deferral : Deferral) (now : Seconds) : Option DeferralEvent :=
  if deferral.expired = true then none else some (ended .notCandidate deferral.since now)

/-- All that a decision looks at: since when the deferral is open, or that it ran out. -/
def standing (deferral : Deferral) : Option Seconds :=
  if deferral.expired = true then none else some deferral.since

/-! ## One judgement -/

variable {interrupt : Bool} {overlap : Option Overlap} {d d' : Option Deferral} {now maxSecs : Seconds}

theorem standing_eq {a b : Deferral} (h : a.standing = b.standing) :
    a.expired = b.expired ∧ (a.expired = false → a.since = b.since) := by
  unfold standing at h
  split_ifs at h with ha hb <;> simp_all

/-- Deferrals that stand alike are judged alike. -/
theorem decide_congr (h : d.map standing = d'.map standing) :
    (decide interrupt overlap d now maxSecs).1 = (decide interrupt overlap d' now maxSecs).1 ∧
      (decide interrupt overlap d now maxSecs).2.map standing
        = (decide interrupt overlap d' now maxSecs).2.map standing := by
  cases d with
  | none =>
      cases d' with
      | none => exact ⟨rfl, rfl⟩
      | some b => cases h
  | some a =>
      cases d' with
      | none => cases h
      | some b =>
          obtain ⟨hexpired, hsince⟩ := standing_eq (Option.some.inj h)
          unfold decide
          cases hb : b.expired with
          | true =>
              rw [hb] at hexpired
              cases overlap.filter fun _ => !interrupt <;> simp [hexpired, hb, standing]
          | false =>
              rw [hb] at hexpired
              have hsame := hsince hexpired
              cases overlap.filter fun _ => !interrupt with
              | none => simp [hexpired, hb, hsame]
              | some _ =>
                  simp only [hexpired, hb, hsame]
                  split_ifs <;> simp_all [standing]

theorem left_congr {a b : Deferral} (h : a.standing = b.standing) : a.left now = b.left now := by
  obtain ⟨hexpired, hsince⟩ := standing_eq h
  unfold left
  rw [← hexpired]
  split_ifs with ha
  · rfl
  · rw [hsince (by simpa using ha)]

/-- A candidate is passed over only while its deferral is open and shorter than the limit; the start of
the deferral is recorded, and nothing after that. -/
theorem decide_defers (h : (decide interrupt overlap d now maxSecs).1.claims = false) :
    ∃ since, (decide interrupt overlap d now maxSecs).2 = some { since := since } ∧
      now - since < maxSecs ∧
      (d = some { since := since } ∧ (decide interrupt overlap d now maxSecs).1.event = none ∨
        d = none ∧ since = now ∧
          ∃ o, (decide interrupt overlap d now maxSecs).1.event = some (.deferred o maxSecs)) := by
  unfold decide at h ⊢
  generalize overlap.filter (fun _ => !interrupt) = meets at h ⊢
  cases meets with
  | none =>
      cases d with
      | none => cases h
      | some a =>
          dsimp only at h
          split_ifs at h <;> cases h
  | some o =>
      cases d with
      | none =>
          dsimp only at h ⊢
          split_ifs at h ⊢ with hlimit
          · cases h
          · -- A deferral that begins now has its whole time left.
            refine ⟨now, rfl, ?_, .inr ⟨rfl, rfl, o, rfl⟩⟩
            rw [Int.sub_self]
            exact Int.not_le.mp hlimit
      | some a =>
          dsimp only at h ⊢
          split_ifs at h ⊢ with hexpired hlimit
          · cases h
          · cases h
          · -- One that goes on keeps its beginning, and had time left.
            obtain ⟨since, expired⟩ := a
            obtain rfl : expired = false := by simpa using hexpired
            exact ⟨since, rfl, by simpa using hlimit, .inl ⟨rfl, rfl⟩⟩

/-- A deferral in place after a judgement was in place before it, or begins now. -/
theorem decide_since {after : Deferral}
    (h : (decide interrupt overlap d now maxSecs).2 = some after) :
    after.since = now ∨ ∃ before, d = some before ∧ after.since = before.since := by
  unfold decide at h
  generalize overlap.filter (fun _ => !interrupt) = meets at h
  cases d with
  | none =>
      cases meets with
      | none => cases h
      | some o =>
          dsimp only at h
          split_ifs at h
          cases h
          exact .inl rfl
  | some before =>
      -- Whatever is met, one that stands keeps its beginning.
      refine .inr ⟨before, rfl, ?_⟩
      cases meets with
      | none =>
          dsimp only at h
          split_ifs at h
          cases h
          rfl
      | some o =>
          dsimp only at h
          split_ifs at h <;> cases h <;> rfl

end Deferral

end Dagq
