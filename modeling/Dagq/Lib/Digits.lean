/-
# Dagq.Lib.Digits -- numbers written in a fixed number of decimal digits.

`padded w n` writes `n` with zeros in front up to `w` digits.  A number below `10 ^ w` takes exactly `w`
of them, is read back by its value, and texts of one length stand in the order of their values; so texts
built from such fields compare field by field.
-/
import Mathlib.Algebra.Ring.Nat
import Mathlib.Data.List.Lex
import Mathlib.Order.Defs.LinearOrder

namespace Dagq.Lib.Digits

variable {w n a b : Nat} {xs ys : List Char}

/-- `n` in decimal, with zeros in front up to `w` digits. -/
def padded (w n : Nat) : List Char :=
  List.replicate (w - (Nat.toDigits 10 n).length) '0' ++ Nat.toDigits 10 n

/-- The number the digits write. -/
def value (digits : List Char) : Nat := Nat.ofDigitChars 10 digits 0

/-! ## One field -/

theorem length_padded (hw : 0 < w) (h : n < 10 ^ w) : (padded w n).length = w := by
  have hlen : (Nat.toDigits 10 n).length ≤ w := (Nat.length_toDigits_le_iff (by omega) hw).mpr h
  rw [padded, List.length_append, List.length_replicate]
  omega

/-- A number too large for the field takes more digits. -/
theorem lt_length_padded (hw : 0 < w) (h : 10 ^ w ≤ n) : w < (padded w n).length := by
  have hlen : ¬(Nat.toDigits 10 n).length ≤ w := fun hle =>
    Nat.not_lt.mpr h ((Nat.length_toDigits_le_iff (by omega) hw).mp hle)
  rw [padded, List.length_append]
  omega

theorem isDigit_padded {c : Char} (hc : c ∈ padded w n) : c.isDigit = true := by
  rcases List.mem_append.mp hc with hc | hc
  · rw [List.eq_of_mem_replicate hc]
    rfl
  · exact Nat.isDigit_of_mem_toDigits (by omega) (Nat.le_refl _) hc

@[simp] theorem value_padded (w n : Nat) : value (padded w n) = n := by
  rw [value, padded, Nat.ofDigitChars_append, Nat.ofDigitChars_replicate_zero, Nat.mul_zero,
    Nat.ofDigitChars_ten_toDigits]

theorem padded_inj (h : padded w a = padded w b) : a = b := by
  rw [← value_padded w a, h, value_padded]

/-! ## The order of texts -/

theorem isDigit_bounds {c : Char} (hc : c.isDigit = true) : 48 ≤ c.toNat ∧ c.toNat ≤ 57 := by
  simp only [Char.isDigit, Bool.and_eq_true, decide_eq_true_eq] at hc
  exact hc

theorem value_cons (c : Char) (xs : List Char) :
    value (c :: xs) = 10 ^ xs.length * (c.toNat - 48) + value xs := by
  rw [value, Nat.ofDigitChars_cons, Nat.ofDigitChars_eq_ofDigitChars_zero, Nat.mul_zero,
    Nat.zero_add]
  rfl

theorem value_lt (hxs : ∀ c ∈ xs, c.isDigit = true) : value xs < 10 ^ xs.length := by
  induction xs with
  | nil => exact Nat.one_pos
  | cons c xs ih =>
      obtain ⟨hc, hrest⟩ := List.forall_mem_cons.mp hxs
      have hbounds := isDigit_bounds hc
      have hlt := ih hrest
      have hmul : 10 ^ xs.length * (c.toNat - 48) ≤ 10 ^ xs.length * 9 :=
        Nat.mul_le_mul_left _ (by omega)
      rw [value_cons, List.length_cons, Nat.pow_succ]
      omega

/-- Of two texts of the same length the leading digit decides, then the rest. -/
theorem lt_iff_value_lt (hlen : xs.length = ys.length) (hxs : ∀ c ∈ xs, c.isDigit = true)
    (hys : ∀ c ∈ ys, c.isDigit = true) : xs < ys ↔ value xs < value ys := by
  induction xs generalizing ys with
  | nil =>
      rw [List.length_nil, eq_comm, List.length_eq_zero_iff] at hlen
      rw [hlen]
      simp
  | cons c xs ih =>
      cases ys with
      | nil => cases hlen
      | cons d ys =>
          obtain ⟨hc, hxs⟩ := List.forall_mem_cons.mp hxs
          obtain ⟨hd, hys⟩ := List.forall_mem_cons.mp hys
          have hlen : xs.length = ys.length := Nat.succ_injective hlen
          have hxlt := value_lt hxs
          have hylt := value_lt hys
          have hcb := isDigit_bounds hc
          have hdb := isDigit_bounds hd
          -- The first digits decide unless they are equal: what follows weighs less than one of them.
          rw [List.cons_lt_cons_iff, ih hlen hxs hys, value_cons, value_cons, hlen]
          rw [hlen] at hxlt
          have hlt : c < d ↔ c.toNat < d.toNat := Iff.rfl
          rw [hlt]
          generalize 10 ^ ys.length = p at *
          rcases Nat.lt_trichotomy c.toNat d.toNat with hcd | hcd | hcd
          · have hstep : p * (c.toNat - 48 + 1) ≤ p * (d.toNat - 48) :=
              Nat.mul_le_mul_left p (by omega)
            rw [Nat.mul_add] at hstep
            exact ⟨fun _ => by omega, fun _ => .inl hcd⟩
          · have heq : c = d := Char.toNat_inj.mp hcd
            rw [heq]
            constructor
            · rintro (h | ⟨_, h⟩) <;> omega
            · exact fun h => .inr ⟨rfl, by omega⟩
          · have hstep : p * (d.toNat - 48 + 1) ≤ p * (c.toNat - 48) :=
              Nat.mul_le_mul_left p (by omega)
            rw [Nat.mul_add] at hstep
            constructor
            · rintro (h | ⟨rfl, _⟩) <;> omega
            · exact fun h => by omega

theorem padded_lt_iff (hw : 0 < w) (ha : a < 10 ^ w) (hb : b < 10 ^ w) :
    padded w a < padded w b ↔ a < b := by
  rw [lt_iff_value_lt ((length_padded hw ha).trans (length_padded hw hb).symm)
    (fun _ => isDigit_padded) (fun _ => isDigit_padded), value_padded, value_padded]

/-- After fields of one length the next field decides. -/
theorem append_lt_append_iff {x y : List Char} (hlen : xs.length = ys.length) :
    xs ++ x < ys ++ y ↔ xs < ys ∨ (xs = ys ∧ x < y) := by
  induction xs generalizing ys with
  | nil =>
      rw [List.length_nil, eq_comm, List.length_eq_zero_iff] at hlen
      rw [hlen]
      simp
  | cons c xs ih =>
      cases ys with
      | nil => cases hlen
      | cons d ys =>
          have hlen : xs.length = ys.length := Nat.succ_injective hlen
          rw [List.cons_append, List.cons_append, List.cons_lt_cons_iff, ih hlen,
            List.cons_lt_cons_iff, List.cons.injEq]
          tauto

end Dagq.Lib.Digits
