/-
# Dagq.Lib.Utf8 -- text as bytes: where characters begin, and what a cut leaves.

A character is a first byte, which tells its width by its leading ones, and continuation bytes.  No
encoding is the beginning of another, so text is read back character by character; a cut anywhere in
encoded text leaves encoded text, with the rest of one character before it when the cut falls inside.
-/
import Mathlib.Data.List.Basic

namespace Dagq.Lib.Utf8

/-- The number of ones before the first zero, from the highest bit. -/
def leadingOnes (b : UInt8) : Nat :=
  ((List.range 8).takeWhile fun i => b.toNat.testBit (7 - i)).length

/-- The width of the character that begins with `b`, as its leading ones tell it. -/
def width (b : UInt8) : Nat :=
  match leadingOnes b with
  | 0 => 1
  | n => n

def isContinuation (b : UInt8) : Bool := 0x80 ≤ b.toNat && b.toNat < 0xc0

/-- The bytes of a text. -/
def encode (text : List Char) : List UInt8 := text.flatMap String.utf8EncodeChar

/-! ## One character -/

/-- The width of a byte by its range. -/
theorem width_eq (b : UInt8) :
    (b.toNat < 0xc0 → width b = 1) ∧ (0xc0 ≤ b.toNat → b.toNat < 0xe0 → width b = 2) ∧
      (0xe0 ≤ b.toNat → b.toNat < 0xf0 → width b = 3) ∧
      (0xf0 ≤ b.toNat → b.toNat < 0xf8 → width b = 4) := by
  have hall : ∀ n < 256,
      (n < 0xc0 → ((List.range 8).takeWhile fun i => n.testBit (7 - i)).length ≤ 1) ∧
      (0xc0 ≤ n → n < 0xe0 → ((List.range 8).takeWhile fun i => n.testBit (7 - i)).length = 2) ∧
      (0xe0 ≤ n → n < 0xf0 → ((List.range 8).takeWhile fun i => n.testBit (7 - i)).length = 3) ∧
      (0xf0 ≤ n → n < 0xf8 → ((List.range 8).takeWhile fun i => n.testBit (7 - i)).length = 4) := by
    decide +kernel
  obtain ⟨h₁, h₂, h₃, h₄⟩ := hall b.toNat b.toNat_lt
  unfold width leadingOnes
  refine ⟨fun h => ?_, fun h h' => ?_, fun h h' => ?_, fun h h' => ?_⟩
  · have hle := h₁ h
    generalize (List.takeWhile _ _).length = n at hle ⊢
    rcases n with _ | _ | n
    · rfl
    · rfl
    · omega
  · rw [h₂ h h']
    rfl
  · rw [h₃ h h']
    rfl
  · rw [h₄ h h']
    rfl

theorem width_of_continuation {b : UInt8} (h : isContinuation b = true) : width b = 1 := by
  simp only [isContinuation, Bool.and_eq_true, decide_eq_true_eq] at h
  exact (width_eq b).1 h.2

theorem ofNat_toNat {n : Nat} (h : n < 256) : (UInt8.ofNat n).toNat = n := by
  simp [Nat.mod_eq_of_lt h]

/-- A character is a first byte of its width, and continuation bytes. -/
theorem encodeChar_shape (c : Char) : ∃ b ks, String.utf8EncodeChar c = b :: ks ∧
    width b = ks.length + 1 ∧ isContinuation b = false ∧ ∀ k ∈ ks, isContinuation k = true := by
  have hcont (n : Nat) : isContinuation (UInt8.ofNat (n % 0x40 + 0x80)) = true := by
    have hlt : n % 0x40 < 0x40 := Nat.mod_lt _ (by decide)
    rw [isContinuation, ofNat_toNat (by omega)]
    simp only [Bool.and_eq_true, decide_eq_true_eq]
    omega
  have hfirst (b : UInt8) (h : b.toNat < 0x80 ∨ 0xc0 ≤ b.toNat) : isContinuation b = false := by
    simp only [isContinuation, Bool.and_eq_false_iff, decide_eq_false_iff_not]
    omega
  -- By the number of bytes, one to four.
  unfold String.utf8EncodeChar
  dsimp only
  split
  · rename_i hv
    have hb : (UInt8.ofNat c.val.toNat).toNat = c.val.toNat := ofNat_toNat (by omega)
    exact ⟨_, [], rfl, (width_eq _).1 (by omega), hfirst _ (by omega), by simp⟩
  · split
    · have hlt : c.val.toNat / 64 % 0x20 < 0x20 := Nat.mod_lt _ (by decide)
      have hb := ofNat_toNat (n := c.val.toNat / 64 % 0x20 + 0xc0) (by omega)
      refine ⟨_, [_], rfl, (width_eq _).2.1 (by omega) (by omega), hfirst _ (by omega), ?_⟩
      exact List.forall_mem_singleton.mpr (hcont _)
    · split
      · have hlt : c.val.toNat / 4096 % 0x10 < 0x10 := Nat.mod_lt _ (by decide)
        have hb := ofNat_toNat (n := c.val.toNat / 4096 % 0x10 + 0xe0) (by omega)
        refine ⟨_, [_, _], rfl, (width_eq _).2.2.1 (by omega) (by omega), hfirst _ (by omega), ?_⟩
        exact List.forall_mem_cons.mpr ⟨hcont _, List.forall_mem_singleton.mpr (hcont _)⟩
      · have hlt : c.val.toNat / 262144 % 0x08 < 0x08 := Nat.mod_lt _ (by decide)
        have hb := ofNat_toNat (n := c.val.toNat / 262144 % 0x08 + 0xf0) (by omega)
        refine ⟨_, [_, _, _], rfl, (width_eq _).2.2.2 (by omega) (by omega), hfirst _ (by omega), ?_⟩
        exact List.forall_mem_cons.mpr ⟨hcont _,
          List.forall_mem_cons.mpr ⟨hcont _, List.forall_mem_singleton.mpr (hcont _)⟩⟩

/-- No character's bytes begin another's. -/
theorem encodeChar_inj {c d : Char} {x y : List UInt8}
    (h : String.utf8EncodeChar c ++ x = String.utf8EncodeChar d ++ y) : c = d := by
  have hc := ByteArray.utf8DecodeChar?_utf8EncodeChar_append (b := x.toByteArray) (c := c)
  have hd := ByteArray.utf8DecodeChar?_utf8EncodeChar_append (b := y.toByteArray) (c := d)
  rw [← List.toByteArray_append, h, List.toByteArray_append, hd, Option.some.injEq] at hc
  exact hc.symm

theorem encodeChar_append_inj {c d : Char} {x y : List UInt8}
    (h : String.utf8EncodeChar c ++ x = String.utf8EncodeChar d ++ y) : c = d ∧ x = y := by
  obtain rfl := encodeChar_inj h
  exact ⟨rfl, List.append_cancel_left h⟩

/-- An ASCII byte is a character of its own. -/
theorem encodeChar_of_ascii {c : Char} {b : UInt8} (hb : b.toNat < 0x80)
    (h : b ∈ String.utf8EncodeChar c) : String.utf8EncodeChar c = [b] := by
  obtain ⟨b', ks, hc, hwidth, _, hks⟩ := encodeChar_shape c
  rw [hc] at h ⊢
  rcases List.mem_cons.mp h with rfl | hk
  · rw [(width_eq b).1 (by omega)] at hwidth
    rw [List.length_eq_zero_iff.mp (show ks.length = 0 by omega)]
  · have hcont := hks b hk
    simp only [isContinuation, Bool.and_eq_true, decide_eq_true_eq] at hcont
    omega

/-! ## Text -/

@[simp] theorem encode_nil : encode [] = [] := rfl

@[simp] theorem encode_cons (c : Char) (text : List Char) :
    encode (c :: text) = String.utf8EncodeChar c ++ encode text := rfl

theorem encode_append (text more : List Char) : encode (text ++ more) = encode text ++ encode more :=
  List.flatMap_append

theorem encode_eq_nil {text : List Char} : encode text = [] ↔ text = [] := by
  cases text with
  | nil => simp
  | cons c text =>
      obtain ⟨b, ks, hc, _⟩ := encodeChar_shape c
      simp [hc]

/-- What is left of encoded text after a cut: encoded text, or the rest of a character before it. -/
inductive Cut : List Char → List UInt8 → Prop
  | between (before text : List Char) : Cut (before ++ text) (encode text)
  | inside (before : List Char) (c : Char) (text : List Char) (ks : List UInt8)
      (hne : ks ≠ []) (hks : ∀ k ∈ ks, isContinuation k = true) :
      Cut (before ++ c :: text) (ks ++ encode text)

theorem Cut.cons {text : List Char} {left : List UInt8} (c : Char) (h : Cut text left) :
    Cut (c :: text) left := by
  cases h with
  | between before text => exact .between (c :: before) text
  | inside before d text ks hne hks => exact .inside (c :: before) d text ks hne hks

theorem cut_drop (text : List Char) (n : Nat) : Cut text ((encode text).drop n) := by
  induction text generalizing n with
  | nil =>
      rw [encode_nil, List.drop_nil]
      exact .between [] []
  | cons c text ih =>
      obtain ⟨b, ks, hc, _, _, hks⟩ := encodeChar_shape c
      rw [encode_cons, hc]
      cases n with
      | zero =>
          rw [List.drop_zero, ← hc, ← encode_cons]
          exact .between [] (c :: text)
      | succ n =>
          rw [List.cons_append, List.drop_succ_cons, List.drop_append]
          by_cases hn : n < ks.length
          · rw [Nat.sub_eq_zero_of_le (Nat.le_of_lt hn), List.drop_zero]
            refine .inside [] c text _ ?_ fun k hk => hks k (List.mem_of_mem_drop hk)
            rw [Ne, List.drop_eq_nil_iff]
            omega
          · rw [List.drop_eq_nil_of_le (by omega), List.nil_append]
            exact (ih _).cons c

end Dagq.Lib.Utf8
