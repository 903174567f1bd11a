/-
# Dagq.Stats.Cursors -- reading a cursor or a time with 64-bit integers.

`Domain.Time` reads times with integers of any size.  Here every product, sum and difference is one of
64 bits and stops where it overflows.  The four digits of the year keep the days small; the hour, the
minute and the second are read from as many digits as a 64-bit integer has, and nothing bounds them
before they are multiplied.
-/
import Dagq.Domain.Ask
import Dagq.Domain.Stats
import Dagq.Domain.Time
import Dagq.Lib.Checked

namespace Dagq.Time

open Lib Lib.I64

variable {text : List Char} {f : Fields} {offset : Int}

/-! ## The fields, before any arithmetic -/

/-- The fields of a queue timestamp. -/
def readFields (text : List Char) : Option Fields := do
  let text := (stripLast (· = 'Z') text).getD text
  let (date, time) ← splitOnce (fun c => c = 'T' || c = ' ') text
  let (year, month, day) ← readDate date
  let (hour, minute, second, milli) ← readClock time
  if ¬(1 ≤ month ∧ month ≤ 12) ∨ ¬(1 ≤ day ∧ day ≤ 31) then none
  else some { date := ⟨year, month, day⟩, hour, minute, second, milli }

theorem timestampMillis_eq (text : List Char) :
    timestampMillis text = (readFields text).map Fields.millis := by
  simp only [timestampMillis, readFields, Option.bind_eq_bind, Option.map_bind, Function.comp_def,
    apply_ite (Option.map _), Option.map_none, Option.map_some]
  rfl

/-- An offset from UTC: its side, its hours and its minutes. -/
structure Zone where
  sign : Int
  hours : Nat
  minutes : Nat

/-- The text before an offset from UTC, and the offset. -/
def readOffset (text : List Char) : Option (List Char × Zone) := do
  let n ← if 6 ≤ byteLength text then some (byteLength text - 6) else none
  let (clock, offset) ← splitBytes text n
  let sign ← offsetSign offset
  let (hours, minutes) ← splitOnce (· = ':') offset.tail
  let hours ← parseU8 hours
  let minutes ← parseU8 minutes
  if 23 < hours ∨ 59 < minutes then none else some (clock, ⟨sign, hours, minutes⟩)

/-- The offset in milliseconds. -/
def Zone.millis (zone : Zone) : Int := zone.sign * ((zone.hours : Int) * 60 + zone.minutes) * 60000

theorem splitOffset_eq (text : List Char) : splitOffset text =
    (readOffset text).map fun found => (found.1, found.2.millis) := by
  simp only [splitOffset, readOffset, Option.bind_eq_bind, Option.map_bind, Function.comp_def,
    apply_ite (Option.map _), Option.map_none, Option.map_some, Zone.millis]

/-! ## The arithmetic -/

/-- Days from the civil date. -/
def Fields.checkedDays (f : Fields) : Checked Int := do
  let y ← if f.date.month ≤ 2 then sub f.date.year 1 else pure f.date.year
  let era := y / 400
  let yoe ← sub y (← mul era 400)
  let mp := (← add f.date.month 9) % 12
  let doy ← sub (← add ((← add (← mul 153 mp) 2) / 5) f.date.day) 1
  let doe ← add (← sub (← add (← mul yoe 365) (yoe / 4)) (yoe / 100)) doy
  sub (← add (← mul era 146097) doe) 719468

/-- Unix milliseconds of the fields. -/
def Fields.checkedMillis (f : Fields) : Checked Int := do
  let days ← f.checkedDays
  let minutes ← add (← mul (← add (← mul days 24) f.hour) 60) f.minute
  add (← add (← mul minutes 60000) (← mul f.second 1000)) f.milli

def Zone.checkedMillis (zone : Zone) : Checked Int := do
  mul (← mul zone.sign (← add (← mul zone.hours 60) zone.minutes)) 60000

/-- A year of four digits, a month and a day. -/
structure Fields.Dated (f : Fields) : Prop where
  year : 0 ≤ f.date.year ∧ f.date.year ≤ 9999
  month : 1 ≤ f.date.month ∧ f.date.month ≤ 12
  day : 1 ≤ f.date.day ∧ f.date.day ≤ 31

/-- The days of four-digit years are few. -/
theorem Fields.Dated.days (h : f.Dated) :
    -1000000 ≤ Calendar.dayNumber f.date ∧ Calendar.dayNumber f.date ≤ 3000000 := by
  obtain ⟨hyear, hmonth, hday⟩ := h
  unfold Calendar.dayNumber
  split_ifs
  · dsimp only
    omega
  · dsimp only
    omega

theorem Fields.Dated.checkedDays_eq (h : f.Dated) :
    f.checkedDays = .ok (Calendar.dayNumber f.date) := by
  obtain ⟨hyear, hmonth, hday⟩ := h
  unfold Fields.checkedDays Calendar.dayNumber
  split_ifs
  · simp (disch := (unfold InRange; omega)) only [add, sub, mul, checked_of_inRange, ok_bind]
  · simp (disch := (unfold InRange; omega)) only [add, sub, mul, checked_of_inRange, pure_bind, ok_bind]

/-- How large the hour, the minute and the second may be at a date, when `offset` is taken off: the hour
and the minute before they are multiplied, the second so that the fraction and the offset have room. -/
structure Fields.InReach (f : Fields) (offset : Int) : Prop where
  hour : -153722867280912930 ≤ 24 * Calendar.dayNumber f.date + f.hour ∧
    24 * Calendar.dayNumber f.date + f.hour ≤ 153722867280912930
  minute : -153722867280912 ≤ 60 * (24 * Calendar.dayNumber f.date + f.hour) + f.minute ∧
    60 * (24 * Calendar.dayNumber f.date + f.hour) + f.minute ≤ 153722867280912
  second : -9223372036854775 ≤ f.second ∧ f.second ≤ 9223372036854775
  room : -9223372036854775808 - min 0 (min f.milli (f.milli - offset)) ≤
      60000 * (60 * (24 * Calendar.dayNumber f.date + f.hour) + f.minute) + 1000 * f.second ∧
    60000 * (60 * (24 * Calendar.dayNumber f.date + f.hour) + f.minute) + 1000 * f.second ≤
      9223372036854775807 - max 0 (max f.milli (f.milli - offset))

/-- The arithmetic of a dated clock goes through on these fields and no others. -/
theorem Fields.Dated.fits_checkedMillis_bind (h : f.Dated) :
    Fits (f.checkedMillis >>= fun millis => sub millis offset) ↔ f.InReach offset := by
  have hdays := h.days
  unfold Fields.checkedMillis
  rw [h.checkedDays_eq]
  simp only [ok_bind, bind_assoc, add, sub, mul, fits_checked_bind, fits_checked, InRange]
  constructor
  · rintro ⟨_, hhours, hhours60, hminutes, hminutes60, hsecond, hclock, hmilli, hoffset⟩
    exact ⟨by omega, by omega, by omega, by omega⟩
  · rintro ⟨hhour, hminute, hsecond, hroom⟩
    omega

/-- An ordinary clock is far from overflowing. -/
theorem Fields.Dated.inReach (h : f.Dated) (hhour : -1000000000000 ≤ f.hour ∧ f.hour ≤ 1000000000000)
    (hminute : -1000000000000 ≤ f.minute ∧ f.minute ≤ 1000000000000)
    (hsecond : -1000000000000 ≤ f.second ∧ f.second ≤ 1000000000000)
    (hmilli : -999 ≤ f.milli ∧ f.milli ≤ 999) (hoffset : -86400000 ≤ offset ∧ offset ≤ 86400000) :
    f.InReach offset := by
  have hdays := h.days
  exact ⟨by omega, by omega, by omega, by omega⟩

/-- Where they go through, the days and the milliseconds are the calendar's. -/
theorem Fields.computes_checkedDays (f : Fields) : Computes f.checkedDays (Calendar.dayNumber f.date) := by
  unfold Fields.checkedDays Calendar.dayNumber
  split_ifs
  · refine (computes_checked _).bind ?_
    repeat' refine (computes_checked _).bind ?_
    exact computes_checked _
  · rw [pure_bind]
    repeat' refine (computes_checked _).bind ?_
    exact computes_checked _

theorem Fields.computes_checkedMillis (f : Fields) : Computes f.checkedMillis f.millis := by
  refine f.computes_checkedDays.bind ?_
  repeat' refine (computes_checked _).bind ?_
  exact computes_checked _

/-- An offset of less than a day. -/
structure Zone.Bounded (zone : Zone) : Prop where
  sign : zone.sign = 1 ∨ zone.sign = -1
  hours : zone.hours ≤ 23
  minutes : zone.minutes ≤ 59

theorem Zone.Bounded.checkedMillis_eq {zone : Zone} (h : zone.Bounded) :
    zone.checkedMillis = .ok zone.millis := by
  obtain ⟨hsign, hhours, hminutes⟩ := h
  unfold Zone.checkedMillis Zone.millis
  rcases hsign with hsign | hsign
  · rw [hsign]
    simp (disch := (unfold InRange; omega)) only [add, mul, checked_of_inRange, ok_bind]
  · rw [hsign]
    simp (disch := (unfold InRange; omega)) only [add, mul, checked_of_inRange, ok_bind]

theorem offsetSign_eq {sign : Int} (h : offsetSign text = some sign) : sign = 1 ∨ sign = -1 := by
  unfold offsetSign at h
  split at h
  · exact .inl (Option.some.inj h).symm
  · exact .inr (Option.some.inj h).symm
  · cases h

theorem readOffset_bounded {zone : Zone} {clock : List Char} (h : readOffset text = some (clock, zone)) :
    zone.Bounded := by
  unfold readOffset at h
  split_ifs at h
  · simp only [Option.bind_eq_bind, Option.bind_some, Option.bind_eq_some_iff] at h
    obtain ⟨parts, _, sign, hsign, _, _, hours, _, minutes, _, h⟩ := h
    split_ifs at h with hbad
    obtain ⟨hhours, hminutes⟩ := not_or.mp hbad
    obtain ⟨rfl, rfl⟩ := Prod.mk.inj (Option.some.inj h)
    exact ⟨offsetSign_eq hsign, Nat.le_of_not_lt hhours, Nat.le_of_not_lt hminutes⟩
  · cases h

/-! ## A four-digit year -/

/-- `YYYY-` at the front. -/
def fourDigitYear (clock : List Char) : Bool :=
  match splitBytes clock 5 with
  | none => false
  | some (year, _) => ((stripLast (· = '-') year).map (·.all Char.isDigit)).getD false

variable {xs ys rest clock digits : List Char} {p : Char → Bool} {n : Nat} {year : Int}

theorem splitBytes_spec (h : splitBytes text n = some (xs, rest)) : text = xs ++ rest ∧ xs.length ≤ n := by
  induction text, n using splitBytes.induct generalizing xs with
  | case1 text =>
      rw [splitBytes] at h
      obtain ⟨rfl, rfl⟩ := Prod.mk.inj (Option.some.inj h)
      exact ⟨rfl, Nat.le_refl _⟩
  | case2 n => cases h
  | case3 c text n hfits ih =>
      rw [splitBytes, if_pos hfits] at h
      obtain ⟨⟨front, left⟩, hparts, heq⟩ := Option.map_eq_some_iff.mp h
      obtain ⟨rfl, rfl⟩ := Prod.mk.inj heq
      obtain ⟨rfl, hlength⟩ := ih hparts
      refine ⟨rfl, ?_⟩
      have hsize := c.utf8Size_pos
      show front.length + 1 ≤ n + 1
      have hfront : front.length ≤ n + 1 - c.utf8Size := hlength
      omega
  | case4 c text n hfits =>
      rw [splitBytes, if_neg hfits] at h
      cases h

theorem stripLast_spec (h : stripLast p text = some xs) : ∃ c, p c = true ∧ text = xs ++ [c] := by
  unfold stripLast at h
  split_ifs at h with hlast
  obtain rfl := Option.some.inj h
  cases hc : text.getLast? with
  | none =>
      rw [hc] at hlast
      cases hlast
  | some c =>
      rw [hc] at hlast
      exact ⟨c, hlast, (List.dropLast_append_getLast? c hc).symm⟩

theorem fourDigitYear_spec (h : fourDigitYear clock = true) : ∃ digits rest,
    clock = digits ++ '-' :: rest ∧ digits.length ≤ 4 ∧ ∀ c ∈ digits, c.isDigit = true := by
  unfold fourDigitYear at h
  split at h
  · cases h
  · rename_i front rest hfront
    obtain ⟨rfl, hlength⟩ := splitBytes_spec hfront
    cases hdash : stripLast (· = '-') front with
    | none =>
        rw [hdash] at h
        cases h
    | some digits =>
        rw [hdash] at h
        obtain ⟨c, hc, rfl⟩ := stripLast_spec hdash
        obtain rfl : c = '-' := of_decide_eq_true hc
        rw [List.length_append, List.length_singleton] at hlength
        exact ⟨digits, rest, by simp, by omega, List.all_eq_true.mp h⟩

theorem splitOnce_append_of_forall (h : ∀ x ∈ xs, p x = false) :
    splitOnce p (xs ++ ys) = (splitOnce p ys).map fun parts => (xs ++ parts.1, parts.2) := by
  induction xs with
  | nil =>
      rw [List.nil_append]
      cases splitOnce p ys <;> rfl
  | cons x xs ih =>
      obtain ⟨hx, hxs⟩ := List.forall_mem_cons.mp h
      rw [List.cons_append, splitOnce, hx, if_neg Bool.false_ne_true, ih hxs, Option.map_map]
      rfl

theorem parseI64_digits (hdigits : ∀ c ∈ digits, c.isDigit = true) (h : parseI64 digits = some year) :
    year = Digits.value digits := by
  unfold parseI64 parseDigits at h
  split at h
  · exact absurd (hdigits '-' List.mem_cons_self) (by decide)
  · exact absurd (hdigits '+' List.mem_cons_self) (by decide)
  · obtain ⟨h, _⟩ := Option.filter_eq_some_iff.mp h
    split_ifs at h
    · exact (Option.some.inj h).symm
    · cases h

theorem parseI64_fourDigits (hdigits : ∀ c ∈ digits, c.isDigit = true) (hlength : digits.length ≤ 4)
    (h : parseI64 digits = some year) : 0 ≤ year ∧ year ≤ 9999 := by
  have hvalue := parseI64_digits hdigits h
  have hlt : Digits.value digits < 10 ^ 4 :=
    Nat.lt_of_lt_of_le (Digits.value_lt hdigits) (Nat.pow_le_pow_right (by decide) hlength)
  omega

/-- A `Z` at the end comes after a dash at the front. -/
theorem stripLast_dash (digits rest : List Char) : ∃ rest',
    (stripLast (· = 'Z') (digits ++ '-' :: rest)).getD (digits ++ '-' :: rest) = digits ++ '-' :: rest' := by
  cases hlast : stripLast (· = 'Z') (digits ++ '-' :: rest) with
  | none => exact ⟨rest, rfl⟩
  | some text =>
      obtain ⟨c, hc, htext⟩ := stripLast_spec hlast
      rcases List.eq_nil_or_concat rest with rfl | ⟨rest', c', rfl⟩
      · obtain ⟨_, hsame⟩ := List.append_inj' htext rfl
        obtain rfl := (List.cons.inj hsame).1
        exact absurd hc (by decide)
      · rw [List.concat_eq_append, ← List.cons_append, ← List.append_assoc] at htext
        exact ⟨rest', (List.append_inj' htext rfl).1.symm⟩

theorem readDate_digits (hdigits : ∀ c ∈ digits, c.isDigit = true) {month day : Int}
    (h : readDate (digits ++ '-' :: rest) = some (year, month, day)) : parseI64 digits = some year := by
  have hsplit : splitOnce (· = '-') (digits ++ '-' :: rest) = some (digits, rest) :=
    splitOnce_append (fun x hx => ne_of_isDigit rfl (hdigits x hx)) rfl
  unfold readDate at h
  rw [hsplit] at h
  simp only [Option.bind_eq_bind, Option.bind_some, Option.bind_eq_some_iff] at h
  obtain ⟨_, _, year', hyear, _, _, _, _, heq⟩ := h
  obtain rfl := (Prod.mk.inj (Option.some.inj heq)).1
  exact hyear

/-- The year read is the one at the front. -/
theorem readFields_dated (hyear : fourDigitYear clock = true) (h : readFields clock = some f) : f.Dated := by
  obtain ⟨digits, rest, rfl, hlength, hdigits⟩ := fourDigitYear_spec hyear
  obtain ⟨rest', hfront⟩ := stripLast_dash digits rest
  have hnot : ∀ x ∈ digits ++ ['-'], (x = 'T' || x = ' ') = false := by
    refine List.forall_mem_append.mpr ⟨fun x hx => ?_, List.forall_mem_singleton.mpr rfl⟩
    rw [ne_of_isDigit rfl (hdigits x hx), ne_of_isDigit rfl (hdigits x hx)]
    rfl
  unfold readFields at h
  rw [hfront, List.append_cons] at h
  dsimp only at h
  rw [splitOnce_append_of_forall hnot] at h
  simp only [Option.bind_eq_bind, Option.bind_eq_some_iff, Option.map_eq_some_iff] at h
  obtain ⟨_, ⟨parts, _, rfl⟩, ⟨year, month, day⟩, hdate, _, _, h⟩ := h
  split_ifs at h with hbad
  obtain rfl := Option.some.inj h
  rw [← List.append_cons] at hdate
  obtain ⟨hmonth, hday⟩ := not_or.mp hbad
  exact ⟨parseI64_fourDigits hdigits hlength (readDate_digits hdigits hdate), not_not.mp hmonth,
    not_not.mp hday⟩

/-! ## The readers -/

def checkedTimestampMillis (text : List Char) : Checked (Option Int) :=
  match readFields text with
  | none => .ok none
  | some f => some <$> f.checkedMillis

def checkedSplitZone (text : List Char) : Checked (Option (List Char × Int)) :=
  match stripLast (fun c => c = 'Z' || c = 'z') text with
  | some clock => .ok (some (clock, 0))
  | none =>
      match readOffset text with
      | none => .ok none
      | some (clock, zone) => (fun millis => some (clock, millis)) <$> zone.checkedMillis

def checkedRfc3339Millis (text : List Char) : Checked (Option Int) := do
  match ← checkedSplitZone text with
  | none => return none
  | some (clock, offset) =>
      if fourDigitYear clock then
        match ← checkedTimestampMillis clock with
        | none => return none
        | some millis => some <$> sub millis offset
      else return none

/-- The fields of an RFC 3339 time and the offset taken off. -/
def readInstant (text : List Char) : Option (Fields × Int) := do
  let (clock, offset) ← splitZone text
  if fourDigitYear clock then (readFields clock).map fun f => (f, offset) else none

/-- The offset never overflows. -/
theorem checkedSplitZone_eq (text : List Char) : checkedSplitZone text = .ok (splitZone text) := by
  unfold checkedSplitZone splitZone
  cases stripLast (fun c => c = 'Z' || c = 'z') text with
  | some clock => rfl
  | none =>
      dsimp only
      rw [splitOffset_eq]
      cases hoffset : readOffset text with
      | none => rfl
      | some found =>
          obtain ⟨clock, zone⟩ := found
          show (fun millis => some (clock, millis)) <$> zone.checkedMillis = _
          rw [(readOffset_bounded hoffset).checkedMillis_eq]
          rfl

theorem rfc3339Millis_eq (text : List Char) :
    rfc3339Millis text = (readInstant text).map fun found => found.1.millis - found.2 := by
  unfold rfc3339Millis readInstant fourDigitYear
  dsimp only [Option.bind_eq_bind]
  cases splitZone text with
  | none => rfl
  | some parts =>
      dsimp only [Option.bind_some]
      cases splitBytes parts.1 5 with
      | none => rfl
      | some year =>
          dsimp only [Option.bind_some]
          rcases Option.eq_none_or_eq_some (stripLast (· = '-') year.1) with hdash | ⟨digits, hdash⟩
          · simp only [hdash]
            rfl
          · simp only [hdash, timestampMillis_eq, Option.map_some, Option.getD_some, Option.bind_some]
            split_ifs
            · cases readFields parts.1 <;> rfl
            · rfl

/-- The fields a text is read into are small enough for every step. -/
def InReach (text : List Char) : Prop := ∀ found ∈ readInstant text, found.1.InReach found.2

theorem fits_checkedRfc3339Millis (text : List Char) : Fits (checkedRfc3339Millis text) ↔ InReach text := by
  unfold checkedRfc3339Millis InReach readInstant
  rw [checkedSplitZone_eq, ok_bind]
  cases splitZone text with
  | none => exact iff_of_true (fits_ok none) fun _ hfound => absurd hfound (Option.not_mem_none _)
  | some parts =>
      obtain ⟨clock, offset⟩ := parts
      dsimp only [Option.bind_eq_bind, Option.bind_some]
      split_ifs with hyear
      · unfold checkedTimestampMillis
        cases hfields : readFields clock with
        | none => exact iff_of_true (fits_ok none) fun _ hfound => absurd hfound (Option.not_mem_none _)
        | some f =>
            have hdated := readFields_dated hyear hfields
            have hmem : (∀ found ∈ (some f).map fun f => (f, offset), found.1.InReach found.2) ↔
                f.InReach offset := by simp
            rw [hmem, ← hdated.fits_checkedMillis_bind]
            dsimp only
            cases f.checkedMillis with
            | error stop => exact iff_of_false (not_fits_error stop) (not_fits_error stop)
            | ok millis => exact fits_map
      · exact iff_of_true (fits_ok none) fun _ hfound => absurd hfound (Option.not_mem_none _)

theorem parseDigits_lt (h : parseDigits digits = some n) : n < 10 ^ digits.length := by
  unfold parseDigits at h
  split_ifs at h with hdigits
  obtain rfl := Option.some.inj h
  exact Digits.value_lt (List.all_eq_true.mp hdigits.2)

/-- A fraction of three bytes, with a sign or without. -/
theorem parseI64_fraction {milli : Int} (hlength : text.length ≤ 3) (h : parseI64 text = some milli) :
    -999 ≤ milli ∧ milli ≤ 999 := by
  have hbound {digits : List Char} {n : Nat} (hdigits : digits.length ≤ 3)
      (hn : parseDigits digits = some n) : n < 1000 :=
    Nat.lt_of_lt_of_le (parseDigits_lt hn) (Nat.pow_le_pow_right (by decide) hdigits)
  unfold parseI64 at h
  obtain ⟨h, _⟩ := Option.filter_eq_some_iff.mp h
  split at h
  · obtain ⟨n, hn, rfl⟩ := Option.map_eq_some_iff.mp h
    have hlt := hbound (Nat.le_of_succ_le hlength) hn
    show -999 ≤ -(n : Int) ∧ -(n : Int) ≤ 999
    omega
  · obtain ⟨n, hn, rfl⟩ := Option.map_eq_some_iff.mp h
    have hlt := hbound (Nat.le_of_succ_le hlength) hn
    show -999 ≤ (n : Int) ∧ (n : Int) ≤ 999
    omega
  · obtain ⟨n, hn, rfl⟩ := Option.map_eq_some_iff.mp h
    have hlt := hbound hlength hn
    show -999 ≤ (n : Int) ∧ (n : Int) ≤ 999
    omega

theorem readFields_milli (h : readFields text = some f) : -999 ≤ f.milli ∧ f.milli ≤ 999 := by
  unfold readFields at h
  simp only [Option.bind_eq_bind, Option.bind_eq_some_iff] at h
  obtain ⟨_, _, _, _, _, hclock, h⟩ := h
  split_ifs at h
  obtain rfl := Option.some.inj h
  unfold readClock at hclock
  simp only [Option.bind_eq_bind, Option.bind_eq_some_iff] at hclock
  obtain ⟨_, _, _, _, _, hsplit, _, _, _, _, _, _, milli, hmilli, heq⟩ := hclock
  obtain rfl := Option.some.inj heq
  exact parseI64_fraction (splitBytes_spec hsplit).2 hmilli

theorem splitZone_offset (h : splitZone text = some (clock, offset)) :
    -86400000 ≤ offset ∧ offset ≤ 86400000 := by
  unfold splitZone at h
  split at h
  · obtain ⟨rfl, rfl⟩ := Prod.mk.inj (Option.some.inj h)
    decide
  · rw [splitOffset_eq] at h
    obtain ⟨⟨front, zone⟩, hfound, heq⟩ := Option.map_eq_some_iff.mp h
    obtain ⟨rfl, rfl⟩ := Prod.mk.inj heq
    obtain ⟨hsign, hhours, hminutes⟩ := readOffset_bounded hfound
    show -86400000 ≤ zone.millis ∧ zone.millis ≤ 86400000
    unfold Zone.millis
    rcases hsign with hsign | hsign
    · rw [hsign]
      omega
    · rw [hsign]
      omega

/-- Only an hour, a minute or a second of more than twelve digits can be out of reach. -/
theorem inReach_of_small (h : ∀ found ∈ readInstant text,
    (-1000000000000 ≤ found.1.hour ∧ found.1.hour ≤ 1000000000000) ∧
      (-1000000000000 ≤ found.1.minute ∧ found.1.minute ≤ 1000000000000) ∧
      (-1000000000000 ≤ found.1.second ∧ found.1.second ≤ 1000000000000)) : InReach text := by
  rintro ⟨f, offset⟩ hfound
  obtain ⟨hhour, hminute, hsecond⟩ := h _ hfound
  unfold readInstant at hfound
  simp only [Option.bind_eq_bind, Option.mem_def, Option.bind_eq_some_iff] at hfound
  obtain ⟨⟨clock, offset'⟩, hzone, hfound⟩ := hfound
  split_ifs at hfound with hyear
  obtain ⟨f', hfields, heq⟩ := Option.map_eq_some_iff.mp hfound
  obtain ⟨rfl, rfl⟩ := Prod.mk.inj heq
  exact (readFields_dated hyear hfields).inReach hhour hminute hsecond (readFields_milli hfields)
    (splitZone_offset hzone)

/-- Where every step goes through, the time read is the one integers of any size give. -/
theorem computes_checkedRfc3339Millis (text : List Char) :
    Computes (checkedRfc3339Millis text) (rfc3339Millis text) := by
  unfold checkedRfc3339Millis
  rw [rfc3339Millis_eq, checkedSplitZone_eq, ok_bind]
  unfold readInstant
  cases splitZone text with
  | none => exact computes_ok none
  | some parts =>
      obtain ⟨clock, offset⟩ := parts
      dsimp only [Option.bind_eq_bind, Option.bind_some]
      split_ifs
      · unfold checkedTimestampMillis
        cases readFields clock with
        | none => exact computes_ok none
        | some f => exact f.computes_checkedMillis.map.bind ((computes_checked _).map)
      · exact computes_ok none

end Dagq.Time

namespace Dagq.Stats

open Lib.I64 Time

/-- Digits, one at least. -/
def isDigits (text : List Char) : Bool := !text.isEmpty && text.all Char.isDigit

/-- What comes after the `@` of a unix time. -/
def unixSeconds : List Char → Option (List Char)
  | '@' :: secs => if isDigits secs then some secs else none
  | _ => none

/-- `checked_mul`: the caller is told of the overflow. -/
def checkedMul (a b : Int) : Option Int := if InRange (a * b) then some (a * b) else none

/-- An event id, `@` and unix seconds, or an RFC 3339 time. -/
def Cursor.parsed (text : List Char) : Checked (Option Cursor) :=
  if isDigits text then .ok ((parseI64 text).map fun id => .event id.toNat)
  else
    match unixSeconds text with
    | some secs => .ok (((parseI64 secs).bind fun secs => checkedMul secs 1000).map .time)
    | none => (·.map Cursor.time) <$> checkedRfc3339Millis text

/-- `ok_or_else`; `debug` is how a text is written in a rejection. -/
def Cursor.orRejected (debug : List Char → String) (text : List Char) :
    Option Cursor → Except String Cursor
  | some cursor => .ok cursor
  | none => .error (debug text ++ " is not an event id, @<unix seconds> or an RFC 3339 time such as " ++
      "2026-09-26T08:52:00+09:00")

/-- Reads a cursor. -/
def Cursor.fromStr (debug : List Char → String) (text : String) : Checked (Except String Cursor) :=
  Cursor.orRejected debug (trimChars text) <$> Cursor.parsed (trimChars text)

/-! ## Overflow -/

/-- What is read as a time, and not as an id or as unix seconds, is in reach. -/
def CursorInReach (text : List Char) : Prop :=
  isDigits text = false → unixSeconds text = none → InReach text

theorem fits_fromStr (debug : List Char → String) (text : String) :
    Fits (Cursor.fromStr debug text) ↔ CursorInReach (trimChars text) := by
  unfold Cursor.fromStr Cursor.parsed CursorInReach
  rw [fits_map]
  split_ifs with hdigits
  · exact iff_of_true (fits_ok _) fun hfalse => absurd (hfalse.symm.trans hdigits) Bool.false_ne_true
  · rw [forall_prop_of_true (Bool.eq_false_iff.mpr hdigits)]
    cases unixSeconds (trimChars text) with
    | some secs => exact iff_of_true (fits_ok _) fun hnone => absurd hnone (Option.some_ne_none secs)
    | none => rw [forall_prop_of_true rfl, ← fits_checkedRfc3339Millis, fits_map]

/-- Reading goes through without overflow on the texts that are in reach, and on no others. -/
theorem reading_stays_in_range_iff (debug : List Char → String) :
    (∀ text : List Char, Fits (checkedRfc3339Millis text) ↔ InReach text) ∧
      ∀ text : String, Fits (Cursor.fromStr debug text) ↔ CursorInReach (trimChars text) :=
  ⟨fits_checkedRfc3339Millis, fits_fromStr debug⟩

/-- A second of nineteen digits overflows when it is multiplied. -/
theorem seconds_out_of_range :
    ¬(∀ text : List Char, Fits (checkedRfc3339Millis text)) ∧
      ¬∀ text : String, Fits (Cursor.fromStr String.ofList text) := by
  have hstops : checkedRfc3339Millis "2026-01-01T00:00:9223372036854775807Z".toList =
      .error .overflow := by decide +kernel
  have hstops' : Cursor.fromStr String.ofList "2026-01-01T00:00:9223372036854775807Z" =
      .error .overflow := by decide +kernel
  refine ⟨fun hall => ?_, fun hall => ?_⟩
  · exact not_fits_error _ (hstops ▸ hall _)
  · exact not_fits_error _ (hstops' ▸ hall _)

end Dagq.Stats
