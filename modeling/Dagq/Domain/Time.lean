/-
# Dagq.Domain.Time -- times as text and as unix milliseconds.

Three functions write a time in UTC, each with its own conversion of the day number, and two read one.
Texts are lists of characters here; where the source cuts at a byte, so does the model.
-/
import Dagq.Lib.Calendar
import Dagq.Lib.Digits
import Mathlib.Data.String.Basic
import Mathlib.Tactic.Tauto

namespace Dagq.Time

open Lib

/-! ## Writing -/

/-- A number with zeros in front; a sign takes the place of one of them. -/
def padded (w : Nat) (n : Int) : List Char :=
  if n < 0 then '-' :: Digits.padded (w - 1) n.natAbs else Digits.padded w n.toNat

/-- `{year:04}-{month:02}-{day:02}T{hour:02}:{minute:02}:{second:02}.{millis:03}`. -/
def dateTime (year month day hour minute second millis : Int) : List Char :=
  padded 4 year ++ '-' :: (padded 2 month ++ '-' :: (padded 2 day ++ 'T' :: (padded 2 hour ++ ':' ::
    (padded 2 minute ++ ':' :: (padded 2 second ++ '.' :: padded 3 millis)))))

/-- A time, in nanoseconds from 1970 on, as it is stamped on events; the epoch for a time before it. -/
def timestamp (time : Int) : String :=
  let elapsed := max time 0
  let secs := elapsed / 1000000000
  let days := secs / 86400
  let rest := secs % 86400
  let z := days + 719468
  let era := z / 146097
  let doe := z % 146097
  let yoe := (doe - doe / 1460 + doe / 36524 - doe / 146096) / 365
  let doy := doe - (365 * yoe + yoe / 4 - yoe / 100)
  let mp := (5 * doy + 2) / 153
  let day := doy - (153 * mp + 2) / 5 + 1
  let month := if mp < 10 then mp + 3 else mp - 9
  let year := yoe + era * 400 + if month ≤ 2 then 1 else 0
  String.ofList (dateTime year month day (rest / 3600) (rest % 3600 / 60) (rest % 60)
    (elapsed % 1000000000 / 1000000) ++ ['Z'])

/-- Unix milliseconds in the form of `created_at`. -/
def millisText (millis : Int) : String :=
  let days := millis / 86400000
  let rest := millis % 86400000
  let z := days + 719468
  let era := z / 146097
  let doe := z - era * 146097
  let yoe := (doe - doe / 1460 + doe / 36524 - doe / 146096) / 365
  let doy := doe - (365 * yoe + yoe / 4 - yoe / 100)
  let mp := (5 * doy + 2) / 153
  let day := doy - (153 * mp + 2) / 5 + 1
  let month := if mp < 10 then mp + 3 else mp - 9
  let year := yoe + era * 400 + if month ≤ 2 then 1 else 0
  String.ofList (dateTime year month day (rest / 3600000) (rest / 60000 % 60) (rest / 1000 % 60)
    (rest % 1000) ++ ['Z'])

/-- Unix milliseconds as the marks write them. -/
def utcText (millis : Int) : String :=
  let days := millis / 86400000
  let rest := millis % 86400000
  let z := days + 719468
  let era := z / 146097
  let doe := z - era * 146097
  let yoe := (doe - doe / 1460 + doe / 36524 - doe / 146096) / 365
  let doy := doe - (365 * yoe + yoe / 4 - yoe / 100)
  let mp := (5 * doy + 2) / 153
  let day := doy - (153 * mp + 2) / 5 + 1
  let month := if mp < 10 then mp + 3 else mp - 9
  let year := yoe + era * 400 + if month ≤ 2 then 1 else 0
  String.ofList (dateTime year month day (rest / 3600000) (rest / 60000 % 60) (rest / 1000 % 60)
    (rest % 1000) ++ ['Z'])

/-! ## Reading -/

/-- `split_once`: what stands before and after the first such character. -/
def splitOnce (p : Char → Bool) : List Char → Option (List Char × List Char)
  | [] => none
  | c :: text =>
      if p c then some ([], text)
      else (splitOnce p text).map fun parts => (c :: parts.1, parts.2)

/-- What stands before a last character. -/
def stripLast (p : Char → Bool) (text : List Char) : Option (List Char) :=
  if text.getLast?.any p then some text.dropLast else none

/-- The first `n` bytes and the rest, if they end with a character. -/
def splitBytes : List Char → Nat → Option (List Char × List Char)
  | text, 0 => some ([], text)
  | [], _ + 1 => none
  | c :: text, n + 1 =>
      if c.utf8Size ≤ n + 1 then
        (splitBytes text (n + 1 - c.utf8Size)).map fun parts => (c :: parts.1, parts.2)
      else none

def byteLength (text : List Char) : Nat := (text.map Char.utf8Size).foldl (· + ·) 0

/-- Digits, at least one. -/
def parseDigits (text : List Char) : Option Nat :=
  if text ≠ [] ∧ text.all Char.isDigit then some (Digits.value text) else none

/-- `parse::<i64>()`. -/
def parseI64 (text : List Char) : Option Int :=
  (match text with
    | '-' :: digits => (parseDigits digits).map fun n => -Int.ofNat n
    | '+' :: digits => (parseDigits digits).map Int.ofNat
    | digits => (parseDigits digits).map Int.ofNat).filter fun n =>
      -9223372036854775808 ≤ n ∧ n ≤ 9223372036854775807

/-- `parse::<u8>()`. -/
def parseU8 (text : List Char) : Option Nat :=
  (match text with
    | '+' :: digits => parseDigits digits
    | digits => parseDigits digits).filter (· ≤ 255)

def readDate (text : List Char) : Option (Int × Int × Int) := do
  let (year, text) ← splitOnce (· = '-') text
  let (month, day) ← splitOnce (· = '-') text
  return (← parseI64 year, ← parseI64 month, ← parseI64 day)

def readClock (text : List Char) : Option (Int × Int × Int × Int) := do
  let (hour, text) ← splitOnce (· = ':') text
  let (minute, seconds) ← splitOnce (· = ':') text
  let (second, fraction) := (splitOnce (· = '.') seconds).getD (seconds, [])
  let (millis, _) ← splitBytes (fraction ++ List.replicate (3 - fraction.length) '0') 3
  return (← parseI64 hour, ← parseI64 minute, ← parseI64 second, ← parseI64 millis)

/-- Days from the civil date. -/
def civilDays (year month day : Int) : Int :=
  let y := if month ≤ 2 then year - 1 else year
  let era := y / 400
  let yoe := y - era * 400
  let mp := (month + 9) % 12
  let doy := (153 * mp + 2) / 5 + day - 1
  let doe := yoe * 365 + yoe / 4 - yoe / 100 + doy
  era * 146097 + doe - 719468

/-- Unix milliseconds of a queue timestamp. -/
def timestampMillis (text : List Char) : Option Int := do
  let text := (stripLast (· = 'Z') text).getD text
  let (date, time) ← splitOnce (fun c => c = 'T' || c = ' ') text
  let (year, month, day) ← readDate date
  let (hour, minute, second, millis) ← readClock time
  if ¬(1 ≤ month ∧ month ≤ 12) ∨ ¬(1 ≤ day ∧ day ≤ 31) then none
  else some (((civilDays year month day * 24 + hour) * 60 + minute) * 60000 + second * 1000 + millis)

/-- East of UTC or west of it. -/
def offsetSign (offset : List Char) : Option Int :=
  match offset.head? with
  | some '+' => some 1
  | some '-' => some (-1)
  | _ => none

/-- The text before an offset from UTC, and the offset in milliseconds. -/
def splitOffset (text : List Char) : Option (List Char × Int) := do
  let n ← if 6 ≤ byteLength text then some (byteLength text - 6) else none
  let (clock, offset) ← splitBytes text n
  let sign ← offsetSign offset
  let (hours, minutes) ← splitOnce (· = ':') offset.tail
  let hours ← parseU8 hours
  let minutes ← parseU8 minutes
  if 23 < hours ∨ 59 < minutes then none
  else some (clock, sign * ((hours : Int) * 60 + minutes) * 60000)

/-- The text before the zone, and how far east of UTC it is. -/
def splitZone (text : List Char) : Option (List Char × Int) :=
  match stripLast (fun c => c = 'Z' || c = 'z') text with
  | some clock => some (clock, 0)
  | none => splitOffset text

/-- Unix milliseconds of an RFC 3339 time. -/
def rfc3339Millis (text : List Char) : Option Int := do
  let (clock, offset) ← splitZone text
  let (year, _) ← splitBytes clock 5
  -- A four-digit year keeps the arithmetic far from overflowing.
  let dash ← stripLast (· = '-') year
  if dash.all Char.isDigit then
    let millis ← timestampMillis clock
    some (millis - offset)
  else none

example : millisText 0 = "1970-01-01T00:00:00.000Z" ∧
    millisText (-1) = "1969-12-31T23:59:59.999Z" ∧
    timestampMillis "2026-09-26 08:52:00.5".toList = some 1790412720500 ∧
    rfc3339Millis "2026-09-26T08:52:00+09:00".toList = some 1790380320000 := by decide +kernel

/-! ## The fields of an instant -/

/-- The text of an instant without the zone. -/
def clockText (millis : Int) : List Char :=
  let date := Calendar.civil (millis / 86400000)
  let rest := millis % 86400000
  dateTime date.year date.month date.day (rest / 3600000) (rest / 60000 % 60) (rest / 1000 % 60)
    (rest % 1000)

variable {m m' n : Int} {w : Nat} {xs ys : List Char} {p : Char → Bool} {c : Char}

theorem millisText_toList (m : Int) : (millisText m).toList = clockText m ++ ['Z'] :=
  String.toList_ofList

theorem utcText_eq (m : Int) : utcText m = millisText m := rfl

/-- The third writer takes the remainder itself, and the clock from seconds. -/
theorem timestamp_eq (h : 0 ≤ n) : timestamp n = millisText (n / 1000000) := by
  have hmax : max n 0 = n := max_eq_left h
  have hdays : n / 1000000000 / 86400 = n / 1000000 / 86400000 := by omega
  have hcivil := Calendar.civil_of_steps (n := n / 1000000000 / 86400) rfl rfl
    (by omega : _ = (n / 1000000000 / 86400 + 719468) % 146097) rfl rfl
  have hclock : dateTime (Calendar.civil (n / 1000000000 / 86400)).year
      (Calendar.civil (n / 1000000000 / 86400)).month (Calendar.civil (n / 1000000000 / 86400)).day
      (n / 1000000000 % 86400 / 3600) (n / 1000000000 % 86400 % 3600 / 60)
      (n / 1000000000 % 86400 % 60) (n % 1000000000 / 1000000) = clockText (n / 1000000) := by
    have hhour : n / 1000000000 % 86400 / 3600 = n / 1000000 % 86400000 / 3600000 := by omega
    have hminute : n / 1000000000 % 86400 % 3600 / 60 = n / 1000000 % 86400000 / 60000 % 60 := by
      omega
    have hsecond : n / 1000000000 % 86400 % 60 = n / 1000000 % 86400000 / 1000 % 60 := by omega
    have hmilli : n % 1000000000 / 1000000 = n / 1000000 % 86400000 % 1000 := by omega
    rw [hdays, hhour, hminute, hsecond, hmilli]
    rfl
  rw [← String.toList_inj, millisText_toList, ← hclock, hcivil]
  unfold timestamp
  rw [hmax]
  exact String.toList_ofList

/-! ## Fields read back -/

theorem padded_eq (h : 0 ≤ n) : padded w n = Digits.padded w n.toNat := if_neg (by omega)

theorem isDigit_padded (h : 0 ≤ n) (hc : c ∈ padded w n) : c.isDigit = true := by
  rw [padded_eq h] at hc
  exact Digits.isDigit_padded hc

theorem length_padded (hw : 0 < w) (h : 0 ≤ n) (hn : n < 10 ^ w) : (padded w n).length = w := by
  have hnat : n.toNat < 10 ^ w := by
    have hcast : ((10 ^ w : Nat) : Int) = 10 ^ w := by push_cast; rfl
    omega
  rw [padded_eq h, Digits.length_padded hw hnat]

theorem padded_ne_nil (h : 0 ≤ n) : padded w n ≠ [] := by
  rw [padded_eq h, Digits.padded]
  simp

theorem parseDigits_padded (h : 0 ≤ n) : parseDigits (padded w n) = some n.toNat := by
  have hall : (padded w n).all Char.isDigit = true :=
    List.all_eq_true.mpr fun c hc => isDigit_padded h hc
  rw [parseDigits, if_pos ⟨padded_ne_nil h, hall⟩, padded_eq h, Digits.value_padded]

/-- A number without a sign starts with a digit. -/
theorem padded_cons (h : 0 ≤ n) : ∃ d rest, padded w n = d :: rest ∧ d ≠ '-' ∧ d ≠ '+' := by
  obtain ⟨d, rest, hcons⟩ := List.exists_cons_of_ne_nil (padded_ne_nil (w := w) h)
  have hdigit : d.isDigit = true := isDigit_padded (w := w) h (hcons ▸ List.mem_cons_self)
  refine ⟨d, rest, hcons, ?_, ?_⟩
  · rintro rfl
    cases hdigit
  · rintro rfl
    cases hdigit

theorem parseI64_padded (h : 0 ≤ n) (hmax : n ≤ 9223372036854775807) :
    parseI64 (padded w n) = some n := by
  obtain ⟨d, rest, hcons, hminus, hplus⟩ := padded_cons (w := w) h
  have hdigits := parseDigits_padded (w := w) h
  have hcast : Int.ofNat n.toNat = n := Int.toNat_of_nonneg h
  rw [hcons] at hdigits ⊢
  unfold parseI64
  split
  · rename_i heq
    exact absurd (List.cons.inj heq).1 hminus
  · rename_i heq
    exact absurd (List.cons.inj heq).1 hplus
  · rw [hdigits, Option.map_some, hcast, Option.filter_some, decide_eq_true (by omega)]
    rfl

theorem parseU8_padded (h : 0 ≤ n) (hmax : n ≤ 255) : parseU8 (padded w n) = some n.toNat := by
  obtain ⟨d, rest, hcons, _, hplus⟩ := padded_cons (w := w) h
  have hdigits := parseDigits_padded (w := w) h
  rw [hcons] at hdigits ⊢
  unfold parseU8
  split
  · rename_i heq
    exact absurd (List.cons.inj heq).1 hplus
  · rw [hdigits, Option.filter_some, decide_eq_true (by omega)]
    rfl

theorem splitOnce_append (hxs : ∀ x ∈ xs, p x = false) (hc : p c = true) :
    splitOnce p (xs ++ c :: ys) = some (xs, ys) := by
  induction xs with
  | nil => rw [List.nil_append, splitOnce, if_pos hc]
  | cons x xs ih =>
      obtain ⟨hx, hxs⟩ := List.forall_mem_cons.mp hxs
      rw [List.cons_append, splitOnce, hx, if_neg Bool.false_ne_true, ih hxs]
      rfl

theorem ne_of_isDigit {x c : Char} (hc : c.isDigit = false) (hx : x.isDigit = true) :
    decide (x = c) = false := by
  rw [decide_eq_false_iff_not]
  rintro rfl
  rw [hx] at hc
  cases hc

/-- A field of digits ends at the separator. -/
theorem splitOnce_padded (c : Char) (hc : c.isDigit = false) (h : 0 ≤ n) :
    splitOnce (· = c) (padded w n ++ c :: ys) = some (padded w n, ys) :=
  splitOnce_append (fun _ hx => ne_of_isDigit hc (isDigit_padded h hx)) (decide_eq_true rfl)

theorem utf8Size_of_isDigit (h : c.isDigit = true) : c.utf8Size = 1 := by
  have hbounds := Digits.isDigit_bounds h
  rw [Char.utf8Size_eq_one_iff, UInt32.le_iff_toNat_le]
  show c.toNat ≤ 127
  omega

theorem splitBytes_append (hxs : ∀ x ∈ xs, x.utf8Size = 1) :
    splitBytes (xs ++ ys) xs.length = some (xs, ys) := by
  induction xs with
  | nil => simp [splitBytes]
  | cons x xs ih =>
      obtain ⟨hx, hxs⟩ := List.forall_mem_cons.mp hxs
      rw [List.cons_append, List.length_cons, splitBytes, hx, if_pos (by omega), Nat.add_sub_cancel,
        ih hxs]
      rfl

theorem stripLast_append (hc : p c = true) : stripLast p (xs ++ [c]) = some xs := by
  rw [stripLast, List.getLast?_concat, Option.any_some, if_pos hc, List.dropLast_concat]

/-! ## Instants read back -/

/-- The instants of the years 0000 to 9999. -/
def InFourDigitYears (millis : Int) : Prop :=
  Calendar.dayNumber ⟨0, 1, 1⟩ * 86400000 ≤ millis ∧
    millis < Calendar.dayNumber ⟨10000, 1, 1⟩ * 86400000

/-- Fields of a clock: each has as many digits as its place. -/
structure Fields where
  date : Calendar.Date
  hour : Int
  minute : Int
  second : Int
  milli : Int

/-- The fields of an instant. -/
def fields (millis : Int) : Fields where
  date := Calendar.civil (millis / 86400000)
  hour := millis % 86400000 / 3600000
  minute := millis % 86400000 / 60000 % 60
  second := millis % 86400000 / 1000 % 60
  milli := millis % 86400000 % 1000

/-- What the format leaves room for. -/
structure Fields.Fit (f : Fields) : Prop where
  year : 0 ≤ f.date.year ∧ f.date.year ≤ 9999
  month : 1 ≤ f.date.month ∧ f.date.month ≤ 12
  day : 1 ≤ f.date.day ∧ f.date.day ≤ 31
  hour : 0 ≤ f.hour ∧ f.hour ≤ 23
  minute : 0 ≤ f.minute ∧ f.minute ≤ 59
  second : 0 ≤ f.second ∧ f.second ≤ 59
  milli : 0 ≤ f.milli ∧ f.milli ≤ 999

def Fields.text (f : Fields) : List Char :=
  dateTime f.date.year f.date.month f.date.day f.hour f.minute f.second f.milli

/-- The instant the fields are of. -/
def Fields.millis (f : Fields) : Int :=
  ((Calendar.dayNumber f.date * 24 + f.hour) * 60 + f.minute) * 60000 + f.second * 1000 + f.milli

theorem clockText_eq (m : Int) : clockText m = (fields m).text := rfl

theorem fields_millis (m : Int) : (fields m).millis = m := by
  unfold Fields.millis fields
  dsimp only
  rw [Calendar.dayNumber_civil]
  omega

theorem fields_fit (h : InFourDigitYears m) : (fields m).Fit := by
  obtain ⟨hlow, hhigh⟩ := h
  have hvalid := Calendar.civil_valid (m / 86400000)
  have hlength := Calendar.monthLength_pos (Calendar.civil (m / 86400000)).year
    (Calendar.civil (m / 86400000)).month
  have hbelow : m / 86400000 < Calendar.dayNumber ⟨9999 + 1, 1, 1⟩ := by
    show m / 86400000 < Calendar.dayNumber ⟨10000, 1, 1⟩
    omega
  have habove : ¬m / 86400000 < Calendar.dayNumber ⟨0, 1, 1⟩ := by omega
  rw [Calendar.lt_firstDay_iff] at hbelow habove
  exact {
    year := ⟨by show 0 ≤ (Calendar.civil _).year; omega, by show (Calendar.civil _).year ≤ 9999; omega⟩
    month := hvalid.month
    day := ⟨hvalid.day.1, hvalid.day.2.trans hlength.2⟩
    hour := by show 0 ≤ _ / _ ∧ _ / _ ≤ _; omega
    minute := by show 0 ≤ _ % _ ∧ _ % _ ≤ _; omega
    second := by show 0 ≤ _ % _ ∧ _ % _ ≤ _; omega
    milli := by show 0 ≤ _ % _ ∧ _ % _ ≤ _; omega }

/-- A text that ends with a field of digits ends with none of the zones. -/
theorem stripLast_padded (hdigit : ∀ x : Char, x.isDigit = true → p x = false) (h : 0 ≤ n) :
    stripLast p (xs ++ padded w n) = none := by
  rw [stripLast, List.getLast?_append_of_ne_nil _ (padded_ne_nil h)]
  cases hlast : (padded w n).getLast? with
  | none => rfl
  | some c =>
      have hc : p c = false := hdigit c (isDigit_padded h (List.mem_of_getLast? hlast))
      rw [Option.any_some, hc]
      rfl

theorem stripLast_text {f : Fields} (h : f.Fit)
    (hdigit : ∀ x : Char, x.isDigit = true → p x = false) : stripLast p f.text = none := by
  have htext : f.text = (padded 4 f.date.year ++ '-' :: (padded 2 f.date.month ++ '-' ::
      (padded 2 f.date.day ++ 'T' :: (padded 2 f.hour ++ ':' :: (padded 2 f.minute ++ ':' ::
        (padded 2 f.second ++ ['.'])))))) ++ padded 3 f.milli := by
    simp [Fields.text, dateTime]
  rw [htext, stripLast_padded hdigit h.milli.1]

theorem splitBytes_padded (hw : 0 < w) (h : 0 ≤ n) (hn : n < 10 ^ w) :
    splitBytes (padded w n ++ ys) w = some (padded w n, ys) := by
  have hsplit : splitBytes (padded w n ++ ys) (padded w n).length = some (padded w n, ys) :=
    splitBytes_append fun x hx => utf8Size_of_isDigit (isDigit_padded h hx)
  rwa [length_padded hw h hn] at hsplit

/-- The date ends at the `T`. -/
theorem splitOnce_date {f : Fields} (h : f.Fit) : splitOnce (fun c => c = 'T' || c = ' ') f.text =
    some (padded 4 f.date.year ++ '-' :: (padded 2 f.date.month ++ '-' :: padded 2 f.date.day),
      padded 2 f.hour ++ ':' :: (padded 2 f.minute ++ ':' :: (padded 2 f.second ++ '.' ::
        padded 3 f.milli))) := by
  have hdigit {x : Char} (hx : x.isDigit = true) : (x = 'T' || x = ' ') = false := by
    rw [ne_of_isDigit rfl hx, ne_of_isDigit rfl hx]
    rfl
  have htext : f.text = (padded 4 f.date.year ++ '-' :: (padded 2 f.date.month ++ '-' ::
      padded 2 f.date.day)) ++ 'T' :: (padded 2 f.hour ++ ':' :: (padded 2 f.minute ++ ':' ::
        (padded 2 f.second ++ '.' :: padded 3 f.milli))) := by
    simp [Fields.text, dateTime]
  rw [htext]
  refine splitOnce_append (fun x hx => ?_) rfl
  simp only [List.mem_append, List.mem_cons] at hx
  rcases hx with hx | rfl | hx | rfl | hx
  · exact hdigit (isDigit_padded h.year.1 hx)
  · rfl
  · exact hdigit (isDigit_padded (Int.le_trans (by decide) h.month.1) hx)
  · rfl
  · exact hdigit (isDigit_padded (Int.le_trans (by decide) h.day.1) hx)

theorem readDate_text {f : Fields} (h : f.Fit) : readDate (padded 4 f.date.year ++ '-' ::
    (padded 2 f.date.month ++ '-' :: padded 2 f.date.day)) =
      some (f.date.year, f.date.month, f.date.day) := by
  have hyear : f.date.year ≤ 9223372036854775807 := Int.le_trans h.year.2 (by decide)
  have hmonth : f.date.month ≤ 9223372036854775807 := Int.le_trans h.month.2 (by decide)
  have hday : f.date.day ≤ 9223372036854775807 := Int.le_trans h.day.2 (by decide)
  have hmonth0 : 0 ≤ f.date.month := Int.le_trans (by decide) h.month.1
  have hday0 : 0 ≤ f.date.day := Int.le_trans (by decide) h.day.1
  unfold readDate
  rw [splitOnce_padded '-' rfl h.year.1]
  dsimp only [Option.bind_eq_bind, Option.bind_some]
  rw [splitOnce_padded '-' rfl hmonth0]
  dsimp only [Option.bind_some]
  rw [parseI64_padded h.year.1 hyear, parseI64_padded hmonth0 hmonth, parseI64_padded hday0 hday]
  rfl

theorem readClock_text {f : Fields} (h : f.Fit) : readClock (padded 2 f.hour ++ ':' ::
    (padded 2 f.minute ++ ':' :: (padded 2 f.second ++ '.' :: padded 3 f.milli))) =
      some (f.hour, f.minute, f.second, f.milli) := by
  have hhour : f.hour ≤ 9223372036854775807 := Int.le_trans h.hour.2 (by decide)
  have hminute : f.minute ≤ 9223372036854775807 := Int.le_trans h.minute.2 (by decide)
  have hsecond : f.second ≤ 9223372036854775807 := Int.le_trans h.second.2 (by decide)
  have hmilli : f.milli ≤ 9223372036854775807 := Int.le_trans h.milli.2 (by decide)
  have hfits : f.milli < 10 ^ 3 := Int.lt_of_le_of_lt h.milli.2 (by decide)
  have hfraction : padded 3 f.milli ++ List.replicate (3 - (padded 3 f.milli).length) '0' =
      padded 3 f.milli ++ [] := by
    rw [length_padded (by omega) h.milli.1 hfits]
    rfl
  unfold readClock
  rw [splitOnce_padded ':' rfl h.hour.1]
  dsimp only [Option.bind_eq_bind, Option.bind_some]
  rw [splitOnce_padded ':' rfl h.minute.1]
  dsimp only [Option.bind_some]
  rw [splitOnce_padded '.' rfl h.second.1]
  dsimp only [Option.getD_some]
  rw [hfraction, splitBytes_padded (Nat.succ_pos 2) h.milli.1 hfits]
  dsimp only [Option.bind_some]
  rw [parseI64_padded h.hour.1 hhour, parseI64_padded h.minute.1 hminute,
    parseI64_padded h.second.1 hsecond, parseI64_padded h.milli.1 hmilli]
  rfl

/-- The reader takes the fields off one by one. -/
theorem timestampMillis_text {f : Fields} (h : f.Fit) : timestampMillis f.text = some f.millis := by
  unfold timestampMillis
  rw [stripLast_text h fun x hx => ne_of_isDigit rfl hx, Option.getD_none]
  dsimp only
  rw [splitOnce_date h]
  dsimp only [Option.bind_eq_bind, Option.bind_some]
  rw [readDate_text h, readClock_text h]
  dsimp only [Option.bind_some]
  rw [if_neg fun hbad => hbad.elim (fun hm => hm h.month) fun hd => hd h.day]
  rfl

/-! ## Zones -/

theorem timestampMillis_zulu {f : Fields} (h : f.Fit) :
    timestampMillis (f.text ++ ['Z']) = some f.millis := by
  have htext := timestampMillis_text h
  unfold timestampMillis at htext ⊢
  rw [stripLast_append (decide_eq_true rfl), Option.getD_some]
  rwa [stripLast_text h fun x hx => ne_of_isDigit rfl hx, Option.getD_none] at htext

/-- Everything in a time is written in one byte. -/
theorem utf8Size_text {f : Fields} (h : f.Fit) : ∀ x ∈ f.text, x.utf8Size = 1 := by
  intro x hx
  simp only [Fields.text, dateTime, List.mem_append, List.mem_cons] at hx
  have hmonth : 0 ≤ f.date.month := Int.le_trans (by decide) h.month.1
  have hday : 0 ≤ f.date.day := Int.le_trans (by decide) h.day.1
  rcases hx with hx | rfl | hx | rfl | hx | rfl | hx | rfl | hx | rfl | hx | rfl | hx
  · exact utf8Size_of_isDigit (isDigit_padded h.year.1 hx)
  · rfl
  · exact utf8Size_of_isDigit (isDigit_padded hmonth hx)
  · rfl
  · exact utf8Size_of_isDigit (isDigit_padded hday hx)
  · rfl
  · exact utf8Size_of_isDigit (isDigit_padded h.hour.1 hx)
  · rfl
  · exact utf8Size_of_isDigit (isDigit_padded h.minute.1 hx)
  · rfl
  · exact utf8Size_of_isDigit (isDigit_padded h.second.1 hx)
  · rfl
  · exact utf8Size_of_isDigit (isDigit_padded h.milli.1 hx)

/-- The check of the year: four digits and a dash. -/
theorem year_text {f : Fields} (h : f.Fit) : ∃ rest,
    splitBytes f.text 5 = some (padded 4 f.date.year ++ ['-'], rest) := by
  have hlength : (padded 4 f.date.year ++ ['-']).length = 5 := by
    rw [List.length_append, length_padded (by omega) h.year.1 (Int.lt_of_le_of_lt h.year.2 (by decide))]
    rfl
  obtain ⟨rest, htext⟩ : ∃ rest, f.text = (padded 4 f.date.year ++ ['-']) ++ rest :=
    ⟨padded 2 f.date.month ++ '-' :: (padded 2 f.date.day ++ 'T' :: (padded 2 f.hour ++ ':' ::
      (padded 2 f.minute ++ ':' :: (padded 2 f.second ++ '.' :: padded 3 f.milli)))),
      by simp only [Fields.text, dateTime, List.append_assoc, List.cons_append, List.nil_append]⟩
  refine ⟨rest, ?_⟩
  have hone : ∀ x ∈ padded 4 f.date.year ++ ['-'], x.utf8Size = 1 := by
    intro x hx
    rcases List.mem_append.mp hx with hx | hx
    · exact utf8Size_of_isDigit (isDigit_padded h.year.1 hx)
    · rw [List.mem_singleton.mp hx]
      rfl
  have hsplit := @splitBytes_append _ rest hone
  rwa [hlength, ← htext] at hsplit

/-- An offset from UTC. -/
structure Offset where
  east : Bool
  hours : Nat
  minutes : Nat
  hours_le : hours ≤ 23
  minutes_le : minutes ≤ 59

def Offset.text (o : Offset) : List Char :=
  (if o.east then '+' else '-') :: (padded 2 o.hours ++ ':' :: padded 2 o.minutes)

def Offset.millis (o : Offset) : Int :=
  (if o.east then 1 else -1) * ((o.hours : Int) * 60 + o.minutes) * 60000

theorem byteLength_append (hxs : ∀ x ∈ xs, x.utf8Size = 1) (hys : ∀ x ∈ ys, x.utf8Size = 1) :
    byteLength (xs ++ ys) = xs.length + ys.length := by
  have hone : ∀ (zs : List Char) (n : Nat), (∀ x ∈ zs, x.utf8Size = 1) →
      (zs.map Char.utf8Size).foldl (· + ·) n = n + zs.length := by
    intro zs
    induction zs with
    | nil => exact fun n _ => rfl
    | cons z zs ih =>
        intro n hzs
        obtain ⟨hz, hzs⟩ := List.forall_mem_cons.mp hzs
        rw [List.map_cons, List.foldl_cons, ih _ hzs, hz, List.length_cons]
        omega
  rw [byteLength, hone _ 0 fun x hx => (List.mem_append.mp hx).elim (hxs x) (hys x), List.length_append]
  omega

theorem length_offset (o : Offset) : o.text.length = 6 := by
  have hhours : (padded 2 o.hours).length = 2 :=
    length_padded (by omega) (Int.natCast_nonneg _) (by have := o.hours_le; omega)
  have hminutes : (padded 2 o.minutes).length = 2 :=
    length_padded (by omega) (Int.natCast_nonneg _) (by have := o.minutes_le; omega)
  rw [Offset.text, List.length_cons, List.length_append, List.length_cons, hhours, hminutes]

theorem utf8Size_offset (o : Offset) : ∀ x ∈ o.text, x.utf8Size = 1 := by
  intro x hx
  simp only [Offset.text, List.mem_append, List.mem_cons] at hx
  rcases hx with rfl | hx | rfl | hx
  · split <;> rfl
  · exact utf8Size_of_isDigit (isDigit_padded (Int.natCast_nonneg _) hx)
  · rfl
  · exact utf8Size_of_isDigit (isDigit_padded (Int.natCast_nonneg _) hx)

theorem offsetSign_text (o : Offset) : offsetSign o.text = some (if o.east then 1 else -1) := by
  unfold offsetSign Offset.text
  cases o.east <;> rfl

/-- The last six bytes are the offset. -/
theorem splitOffset_text {f : Fields} (h : f.Fit) (o : Offset) :
    splitOffset (f.text ++ o.text) = some (f.text, o.millis) := by
  have hlength := byteLength_append (utf8Size_text h) (utf8Size_offset o)
  rw [length_offset] at hlength
  have hhours := o.hours_le
  have hminutes := o.minutes_le
  unfold splitOffset
  rw [hlength, if_pos (by omega), Nat.add_sub_cancel]
  dsimp only [Option.bind_eq_bind, Option.bind_some]
  rw [splitBytes_append (utf8Size_text h)]
  dsimp only [Option.bind_some]
  have htail : o.text.tail = padded 2 o.hours ++ ':' :: padded 2 o.minutes := rfl
  rw [htail, splitOnce_padded ':' rfl (Int.natCast_nonneg _)]
  have hread {n : Nat} (hn : n ≤ 59) : parseU8 (padded 2 n) = some n :=
    parseU8_padded (Int.natCast_nonneg _) (by omega)
  rw [offsetSign_text]
  dsimp only [Option.bind_some]
  rw [hread (by omega), hread hminutes]
  dsimp only [Option.bind_some]
  rw [if_neg (by omega)]
  rfl

theorem rfc3339Millis_of_zone {f : Fields} (h : f.Fit) {text : List Char} {offset : Int}
    (hzone : splitZone text = some (f.text, offset)) :
    rfc3339Millis text = some (f.millis - offset) := by
  obtain ⟨rest, hyear⟩ := year_text h
  have hall : (padded 4 f.date.year).all Char.isDigit = true :=
    List.all_eq_true.mpr fun c hc => isDigit_padded h.year.1 hc
  unfold rfc3339Millis
  rw [hzone]
  dsimp only [Option.bind_eq_bind, Option.bind_some]
  rw [hyear]
  dsimp only [Option.bind_some]
  rw [stripLast_append (decide_eq_true rfl)]
  dsimp only [Option.bind_some]
  rw [if_pos hall, timestampMillis_text h]
  rfl

theorem rfc3339Millis_zulu {f : Fields} (h : f.Fit) :
    rfc3339Millis (f.text ++ ['Z']) = some f.millis := by
  have hzone : splitZone (f.text ++ ['Z']) = some (f.text, 0) := by
    rw [splitZone, stripLast_append rfl]
  rw [rfc3339Millis_of_zone h hzone, Int.sub_zero]

theorem rfc3339Millis_offset {f : Fields} (h : f.Fit) (o : Offset) :
    rfc3339Millis (f.text ++ o.text) = some (f.millis - o.millis) := by
  have hlast : stripLast (fun c => c = 'Z' || c = 'z') (f.text ++ o.text) = none := by
    have htext : f.text ++ o.text = (f.text ++ (if o.east then '+' else '-') ::
        (padded 2 o.hours ++ [':'])) ++ padded 2 o.minutes := by
      simp [Offset.text]
    rw [htext]
    refine stripLast_padded (fun x hx => ?_) (Int.natCast_nonneg _)
    rw [ne_of_isDigit rfl hx, ne_of_isDigit rfl hx]
    rfl
  have hzone : splitZone (f.text ++ o.text) = some (f.text, o.millis) := by
    rw [splitZone, hlast]
    exact splitOffset_text h o
  exact rfc3339Millis_of_zone h hzone

/-! ## The order of the texts -/

/-- Fields in the order of the clock. -/
def Fields.Before (f g : Fields) : Prop :=
  f.date.Before g.date ∨ (f.date = g.date ∧ (f.hour < g.hour ∨ (f.hour = g.hour ∧
    (f.minute < g.minute ∨ (f.minute = g.minute ∧ (f.second < g.second ∨
      (f.second = g.second ∧ f.milli < g.milli)))))))

theorem fields_before_iff : (fields m).Before (fields m') ↔ m < m' := by
  have hdate : (fields m).date = (fields m').date ↔ m / 86400000 = m' / 86400000 := by
    refine ⟨fun h => ?_, fun h => congrArg Calendar.civil h⟩
    have hdays := congrArg Calendar.dayNumber h
    exact (Calendar.dayNumber_civil _).symm.trans (hdays.trans (Calendar.dayNumber_civil _))
  have hbefore : (fields m).date.Before (fields m').date ↔ m / 86400000 < m' / 86400000 :=
    Calendar.civil_before_iff
  unfold Fields.Before
  rw [hdate, hbefore]
  unfold fields
  dsimp only
  omega

theorem padded_lt_iff (hw : 0 < w) (hn : 0 ≤ n) (hm : 0 ≤ m) (hnw : n < 10 ^ w) (hmw : m < 10 ^ w) :
    padded w n < padded w m ↔ n < m := by
  have hcast : ((10 ^ w : Nat) : Int) = 10 ^ w := by push_cast; rfl
  rw [padded_eq hn, padded_eq hm, Digits.padded_lt_iff hw (by omega) (by omega)]
  omega

theorem padded_inj (hn : 0 ≤ n) (hm : 0 ≤ m) : padded w n = padded w m ↔ n = m := by
  refine ⟨fun h => ?_, fun h => by rw [h]⟩
  rw [padded_eq hn, padded_eq hm] at h
  have hnat := Digits.padded_inj h
  omega

/-- A field decides, or leaves it to what follows. -/
theorem field_lt_iff {k : Int} (hw : 0 < w) (hk : k < 10 ^ w) (hn : 0 ≤ n ∧ n ≤ k) (hm : 0 ≤ m ∧ m ≤ k) :
    padded w n ++ c :: xs < padded w m ++ c :: ys ↔ n < m ∨ (n = m ∧ xs < ys) := by
  have hnw : n < 10 ^ w := Int.lt_of_le_of_lt hn.2 hk
  have hmw : m < 10 ^ w := Int.lt_of_le_of_lt hm.2 hk
  have hlength := (length_padded hw hn.1 hnw).trans (length_padded hw hm.1 hmw).symm
  rw [Digits.append_lt_append_iff hlength, padded_lt_iff hw hn.1 hm.1 hnw hmw, padded_inj hn.1 hm.1,
    List.cons_lt_cons_self]

theorem before_or_iff {a b : Calendar.Date} {rest : Prop} :
    (a.year < b.year ∨ (a.year = b.year ∧ (a.month < b.month ∨ (a.month = b.month ∧
      (a.day < b.day ∨ (a.day = b.day ∧ rest)))))) ↔ a.Before b ∨ (a = b ∧ rest) := by
  obtain ⟨ay, am, ad⟩ := a
  obtain ⟨bY, bm, bd⟩ := b
  rw [Calendar.Date.mk.injEq, Calendar.Date.Before]
  dsimp only
  tauto

/-- Times compare as their texts do. -/
theorem text_lt_iff {f g : Fields} (hf : f.Fit) (hg : g.Fit) :
    f.text ++ ['Z'] < g.text ++ ['Z'] ↔ f.Before g := by
  -- A month or a day is not 0, which the format has room for.
  have hzero {n k : Int} (h : 1 ≤ n ∧ n ≤ k) : 0 ≤ n ∧ n ≤ k :=
    ⟨Int.le_trans (by decide) h.1, h.2⟩
  have hlast : padded 3 f.milli ++ ['Z'] < padded 3 g.milli ++ ['Z'] ↔ f.milli < g.milli := by
    rw [field_lt_iff (by omega) (by decide) hf.milli hg.milli]
    simp
  unfold Fields.text dateTime
  simp only [List.append_assoc, List.cons_append]
  rw [field_lt_iff (by omega) (by decide) hf.year hg.year,
    field_lt_iff (by omega) (by decide) (hzero hf.month) (hzero hg.month),
    field_lt_iff (by omega) (by decide) (hzero hf.day) (hzero hg.day),
    field_lt_iff (by omega) (by decide) hf.hour hg.hour,
    field_lt_iff (by omega) (by decide) hf.minute hg.minute,
    field_lt_iff (by omega) (by decide) hf.second hg.second, hlast]
  exact before_or_iff

/-- A text reads as the instant it was written from, in any zone, and later instants have later texts. -/
theorem time_texts_inverse (m : Int) (hm : InFourDigitYears m) :
    (utcText m = millisText m ∧
      ∀ nanos : Int, 0 ≤ nanos → nanos / 1000000 = m → timestamp nanos = millisText m) ∧
    (timestampMillis (millisText m).toList = some m ∧ rfc3339Millis (millisText m).toList = some m) ∧
    (∀ o : Offset, rfc3339Millis ((millisText m).toList.dropLast ++ o.text) = some (m - o.millis)) ∧
    (∀ o : Offset, InFourDigitYears (m + o.millis) →
      rfc3339Millis ((millisText (m + o.millis)).toList.dropLast ++ o.text) = some m) ∧
    (∀ m', InFourDigitYears m' → (millisText m < millisText m' ↔ m < m')) := by
  -- What is written before the zone is read with any of them.
  have hoffset {i : Int} (hi : InFourDigitYears i) (o : Offset) :
      rfc3339Millis ((millisText i).toList.dropLast ++ o.text) = some (i - o.millis) := by
    rw [millisText_toList, clockText_eq, List.dropLast_concat, rfc3339Millis_offset (fields_fit hi),
      fields_millis]
  refine ⟨⟨rfl, fun nanos hnanos heq => ?_⟩, ⟨?_, ?_⟩, hoffset hm, fun o ho => ?_, fun m' hm' => ?_⟩
  · rw [timestamp_eq hnanos, heq]
  · rw [millisText_toList, clockText_eq, timestampMillis_zulu (fields_fit hm), fields_millis]
  · rw [millisText_toList, clockText_eq, rfc3339Millis_zulu (fields_fit hm), fields_millis]
  · rw [hoffset ho, Int.add_sub_cancel]
  · rw [String.lt_iff_toList_lt, millisText_toList, millisText_toList, clockText_eq, clockText_eq,
      text_lt_iff (fields_fit hm) (fields_fit hm'), fields_before_iff]

theorem time_texts_inverse_leapDay :
    timestampMillis (millisText (-68508000001)).toList = some (-68508000001) :=
  (time_texts_inverse (-68508000001) (by unfold InFourDigitYears; decide)).2.1.1

end Dagq.Time
