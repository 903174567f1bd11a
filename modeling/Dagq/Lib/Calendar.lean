/-
# Dagq.Lib.Calendar -- the Gregorian calendar over all years, and days counted from 1970-01-01.

`Date.next` is the calendar itself: the lengths of the months and the leap years.  `civil` and
`dayNumber` are the usual conversions, which count years from March so that the leap day comes last and
split an era of 400 years into centuries, four-year spans and years.  They are inverse, and `civil` takes
the next day number to the next date, so it walks the calendar day by day in both directions.
-/
import Mathlib.Order.Monotone.Basic
import Mathlib.Algebra.Order.Group.Int
import Mathlib.Algebra.Order.SuccPred
import Mathlib.Data.Int.SuccPred

namespace Dagq.Lib.Calendar

/-! ## The calendar -/

structure Date where
  year : Int
  month : Int
  day : Int
  deriving DecidableEq, Repr

/-- Every fourth year, of the centuries every fourth one. -/
def isLeap (year : Int) : Bool := year % 4 = 0 ∧ (year % 100 ≠ 0 ∨ year % 400 = 0)

def monthLength (year month : Int) : Int :=
  if month = 2 then if isLeap year then 29 else 28
  else if month = 4 ∨ month = 6 ∨ month = 9 ∨ month = 11 then 30 else 31

namespace Date

/-- A date of the calendar. -/
structure Valid (d : Date) : Prop where
  month : 1 ≤ d.month ∧ d.month ≤ 12
  day : 1 ≤ d.day ∧ d.day ≤ monthLength d.year d.month

/-- The day after. -/
def next (d : Date) : Date :=
  if d.day < monthLength d.year d.month then { d with day := d.day + 1 }
  else if d.month < 12 then ⟨d.year, d.month + 1, 1⟩
  else ⟨d.year + 1, 1, 1⟩

/-- By year, then month, then day. -/
def Before (a b : Date) : Prop :=
  a.year < b.year ∨ (a.year = b.year ∧
    (a.month < b.month ∨ (a.month = b.month ∧ a.day < b.day)))

end Date

theorem monthLength_pos (year month : Int) : 28 ≤ monthLength year month ∧ monthLength year month ≤ 31 := by
  unfold monthLength
  split_ifs <;> omega

theorem Date.Valid.next {d : Date} (h : d.Valid) : d.next.Valid := by
  obtain ⟨⟨hm1, hm12⟩, hd1, hd⟩ := h
  unfold Date.next
  split_ifs with hday hmonth
  · exact ⟨⟨hm1, hm12⟩, by constructor <;> dsimp only <;> omega⟩
  · have hlen := monthLength_pos d.year (d.month + 1)
    exact ⟨by constructor <;> dsimp only <;> omega, by constructor <;> dsimp only <;> omega⟩
  · have hlen := monthLength_pos (d.year + 1) 1
    exact ⟨by constructor <;> dsimp only <;> omega, by constructor <;> dsimp only <;> omega⟩

theorem Date.before_next (d : Date) : d.Before d.next := by
  unfold Date.Before Date.next
  split_ifs with hday hmonth
  · exact .inr ⟨rfl, .inr ⟨rfl, by dsimp only; omega⟩⟩
  · exact .inr ⟨rfl, .inl (by dsimp only; omega)⟩
  · exact .inl (by dsimp only; omega)

/-! ## The conversions -/

/-- The date of a day number. -/
def civil (days : Int) : Date :=
  let z := days + 719468
  let era := z / 146097
  let doe := z - era * 146097
  let yoe := (doe - doe / 1460 + doe / 36524 - doe / 146096) / 365
  let doy := doe - (365 * yoe + yoe / 4 - yoe / 100)
  let mp := (5 * doy + 2) / 153
  let day := doy - (153 * mp + 2) / 5 + 1
  let month := if mp < 10 then mp + 3 else mp - 9
  let year := yoe + era * 400 + if month ≤ 2 then 1 else 0
  ⟨year, month, day⟩

/-- The day number of a date. -/
def dayNumber (d : Date) : Int :=
  let y := if d.month ≤ 2 then d.year - 1 else d.year
  let era := y / 400
  let yoe := y - era * 400
  let mp := (d.month + 9) % 12
  let doy := (153 * mp + 2) / 5 + d.day - 1
  let doe := yoe * 365 + yoe / 4 - yoe / 100 + doy
  era * 146097 + doe - 719468

/-! ## Years counted from March -/

/-- The days before the first of March of `year`, from that of the year 0. -/
def yearStart (year : Int) : Int := 365 * year + year / 4 - year / 100 + year / 400

/-- The days before a month, counted from March as month 0. -/
def monthStart (mp : Int) : Int := (153 * mp + 2) / 5

/-- A year counted from March ends with the leap day of the next one. -/
theorem yearStart_succ (year : Int) :
    yearStart (year + 1) = yearStart year + 365 + if isLeap (year + 1) then 1 else 0 := by
  unfold yearStart isLeap
  split_ifs with hleap
  · simp only [decide_eq_true_eq] at hleap
    omega
  · simp only [decide_eq_true_eq] at hleap
    omega

/-- The days before a month, from the first of March of the year 0. -/
def monthBegin (year month : Int) : Int :=
  yearStart (if month ≤ 2 then year - 1 else year) + monthStart ((month + 9) % 12)

theorem dayNumber_eq (d : Date) : dayNumber d = monthBegin d.year d.month + d.day - 719469 := by
  obtain ⟨year, month, day⟩ := d
  unfold dayNumber monthBegin yearStart monthStart
  dsimp only
  generalize (if month ≤ 2 then year - 1 else year) = y
  omega

theorem monthBegin_succ {year month : Int} (h1 : 1 ≤ month) (h12 : month < 12) :
    monthBegin year (month + 1) = monthBegin year month + monthLength year month := by
  have hleap := yearStart_succ (year - 1)
  rw [Int.sub_add_cancel] at hleap
  by_cases hfeb : month = 2
  · -- February ends the year counted from March.
    subst hfeb
    show yearStart year + 0 = yearStart (year - 1) + 337 + if isLeap year then 29 else 28
    rw [hleap]
    split_ifs <;> omega
  · have hsame : (if month + 1 ≤ 2 then year - 1 else year) = if month ≤ 2 then year - 1 else year := by
      split_ifs <;> omega
    have hlength : monthStart ((month + 1 + 9) % 12) =
        monthStart ((month + 9) % 12) + monthLength year month := by
      obtain rfl | rfl | rfl | rfl | rfl | rfl | rfl | rfl | rfl | rfl | rfl : month = 1 ∨ month = 2 ∨
          month = 3 ∨ month = 4 ∨ month = 5 ∨ month = 6 ∨ month = 7 ∨ month = 8 ∨ month = 9 ∨
            month = 10 ∨ month = 11 := by omega
      case inr.inl => exact absurd rfl hfeb
      all_goals simp [monthStart, monthLength]
    unfold monthBegin
    rw [hsame, hlength]
    omega

theorem monthBegin_newYear (year : Int) : monthBegin (year + 1) 1 = monthBegin year 12 + 31 := by
  show yearStart (year + 1 - 1) + 306 = yearStart year + 275 + 31
  rw [Int.add_sub_cancel]
  omega

/-- The next day has the next number. -/
theorem dayNumber_next {d : Date} (h : d.Valid) : dayNumber d.next = dayNumber d + 1 := by
  obtain ⟨year, month, day⟩ := d
  obtain ⟨⟨hm1, hm12⟩, hd1, hd⟩ := h
  dsimp only at hm1 hm12 hd1 hd
  rw [dayNumber_eq, dayNumber_eq]
  unfold Date.next
  dsimp only
  split_ifs with hday hmonth
  · dsimp only
    omega
  · dsimp only
    rw [monthBegin_succ hm1 hmonth]
    omega
  · have hdec : month = 12 := by omega
    subst hdec
    have hlength : monthLength year 12 = 31 := rfl
    dsimp only
    rw [monthBegin_newYear]
    omega

/-! ## The conversions are inverse -/

/-- A year of an era: its century, its four-year span and its place there. -/
theorem exists_spans {x : Int} (h0 : 0 ≤ x) (h1 : x < 146097) : ∃ c q p t : Int,
    (0 ≤ c ∧ c ≤ 3) ∧ (0 ≤ q ∧ q ≤ 24) ∧ (0 ≤ p ∧ p ≤ 3) ∧ (0 ≤ t ∧ t ≤ 365) ∧
      (t = 365 → p = 3 ∧ (q < 24 ∨ c = 3)) ∧ x = 36524 * c + 1461 * q + 365 * p + t := by
  obtain ⟨c, r, hc, hr, hx, hlast⟩ : ∃ c r : Int, (0 ≤ c ∧ c ≤ 3) ∧ (0 ≤ r ∧ r ≤ 36524) ∧
      x = 36524 * c + r ∧ (r = 36524 → c = 3) := by
    -- The last day of the era is the leap day of its last century.
    by_cases h : x < 146096
    · exact ⟨x / 36524, x % 36524, by omega, by omega, by omega, by omega⟩
    · exact ⟨3, 36524, by omega, by omega, by omega, by omega⟩
  obtain ⟨p, t, hp, ht, hs, hleap⟩ : ∃ p t : Int, (0 ≤ p ∧ p ≤ 3) ∧ (0 ≤ t ∧ t ≤ 365) ∧
      r % 1461 = 365 * p + t ∧ (t = 365 → p = 3) := by
    by_cases h : r % 1461 < 1460
    · exact ⟨r % 1461 / 365, r % 1461 % 365, by omega, by omega, by omega, by omega⟩
    · exact ⟨3, 365, by omega, by omega, by omega, by omega⟩
  exact ⟨c, r / 1461, p, t, hc, by omega, hp, ht, by omega, by omega⟩

/-- The year of the era the conversion finds is the one those spans give. -/
theorem yearOfEra_eq {c q p t : Int} (hc : 0 ≤ c ∧ c ≤ 3) (hq : 0 ≤ q ∧ q ≤ 24) (hp : 0 ≤ p ∧ p ≤ 3)
    (ht : 0 ≤ t ∧ t ≤ 365) (hleap : t = 365 → p = 3 ∧ (q < 24 ∨ c = 3)) {x : Int}
    (hx : x = 36524 * c + 1461 * q + 365 * p + t) :
    (x - x / 1460 + x / 36524 - x / 146096) / 365 = 100 * c + 4 * q + p := by
  have hcentury : x / 36524 - x / 146096 = c := by
    by_cases hlast : x = 146096
    · omega
    · have hzero : x / 146096 = 0 := by omega
      have hc : x / 36524 = c := by omega
      omega
  have hspan : x / 1460 = 25 * c + q + (24 * c + q + 365 * p + t) / 1460 := by omega
  by_cases hcarry : 1460 ≤ 24 * c + q + 365 * p + t
  · have hone : (24 * c + q + 365 * p + t) / 1460 = 1 := by omega
    have hpos : 0 < t := by omega
    have hdays : x - x / 1460 + x / 36524 - x / 146096 =
        365 * (100 * c + 4 * q + p) + (t - 1) := by omega
    rw [hdays]
    omega
  · have hzero : (24 * c + q + 365 * p + t) / 1460 = 0 := by omega
    have hshort : t < 365 := by omega
    have hdays : x - x / 1460 + x / 36524 - x / 146096 = 365 * (100 * c + 4 * q + p) + t := by omega
    rw [hdays]
    omega

/-- The spans of a year, counted from March. -/
theorem yearStart_spans {era c q p : Int} (hc : 0 ≤ c ∧ c ≤ 3) (hq : 0 ≤ q ∧ q ≤ 24)
    (hp : 0 ≤ p ∧ p ≤ 3) : yearStart (400 * era + 100 * c + 4 * q + p) =
      146097 * era + 36524 * c + 1461 * q + 365 * p := by
  unfold yearStart
  omega

theorem isLeap_spans {era c q p : Int} (hc : 0 ≤ c ∧ c ≤ 3) (hq : 0 ≤ q ∧ q ≤ 24)
    (hp : 0 ≤ p ∧ p ≤ 3) : isLeap (400 * era + 100 * c + 4 * q + p + 1) = true ↔
      p = 3 ∧ (q < 24 ∨ c = 3) := by
  unfold isLeap
  rw [decide_eq_true_eq]
  omega

/-- Every day has a year counted from March and a place there, the last one in leap years only. -/
theorem exists_marchDay (n : Int) : ∃ year t : Int, (0 ≤ t ∧ t ≤ 365) ∧
    (t = 365 → isLeap (year + 1) = true) ∧ n = yearStart year + t - 719468 := by
  obtain ⟨c, q, p, t, hc, hq, hp, ht, hleap, hx⟩ :=
    exists_spans (x := (n + 719468) % 146097) (by omega) (by omega)
  refine ⟨400 * ((n + 719468) / 146097) + 100 * c + 4 * q + p, t, ht, fun h => ?_, ?_⟩
  · exact (isLeap_spans hc hq hp).mpr (hleap h)
  · rw [yearStart_spans hc hq hp]
    omega

/-- The date of a place in a year counted from March. -/
def marchDate (year t : Int) : Date :=
  let mp := (5 * t + 2) / 153
  let month := if mp < 10 then mp + 3 else mp - 9
  ⟨year + if month ≤ 2 then 1 else 0, month, t - (153 * mp + 2) / 5 + 1⟩

/-- The conversion step by step. -/
theorem civil_of_steps {n z era doe yoe doy : Int} (hz : n + 719468 = z) (hera : z / 146097 = era)
    (hdoe : z - era * 146097 = doe)
    (hyoe : (doe - doe / 1460 + doe / 36524 - doe / 146096) / 365 = yoe)
    (hdoy : doe - (365 * yoe + yoe / 4 - yoe / 100) = doy) :
    civil n = marchDate (yoe + era * 400) doy := by
  subst hz hera hdoe hyoe hdoy
  rfl

theorem exists_yearSpans (year : Int) : ∃ era c q p : Int, (0 ≤ c ∧ c ≤ 3) ∧ (0 ≤ q ∧ q ≤ 24) ∧
    (0 ≤ p ∧ p ≤ 3) ∧ year = 400 * era + 100 * c + 4 * q + p :=
  ⟨year / 400, year % 400 / 100, year % 400 % 100 / 4, year % 400 % 100 % 4, by omega, by omega,
    by omega, by omega⟩

theorem civil_eq {year t : Int} (ht : 0 ≤ t ∧ t ≤ 365) (hleap : t = 365 → isLeap (year + 1) = true) :
    civil (yearStart year + t - 719468) = marchDate year t := by
  obtain ⟨era, c, q, p, hc, hq, hp, rfl⟩ := exists_yearSpans year
  rw [isLeap_spans hc hq hp] at hleap
  obtain ⟨x, hx⟩ : ∃ x, x = 36524 * c + 1461 * q + 365 * p + t := ⟨_, rfl⟩
  have hz : yearStart (400 * era + 100 * c + 4 * q + p) + t - 719468 + 719468 = 146097 * era + x := by
    rw [yearStart_spans hc hq hp]
    omega
  have hrange : 0 ≤ x ∧ x < 146097 := by omega
  have hera : (146097 * era + x) / 146097 = era := by omega
  have hdoe : 146097 * era + x - era * 146097 = x := by omega
  have hfour : (100 * c + 4 * q + p) / 4 = 25 * c + q := by omega
  have hcentury : (100 * c + 4 * q + p) / 100 = c := by omega
  have hdoy : x - (365 * (100 * c + 4 * q + p) + (100 * c + 4 * q + p) / 4
      - (100 * c + 4 * q + p) / 100) = t := by
    rw [hfour, hcentury]
    omega
  have hyear : 100 * c + 4 * q + p + era * 400 = 400 * era + 100 * c + 4 * q + p := by omega
  rw [civil_of_steps hz hera hdoe (yearOfEra_eq hc hq hp ht hleap hx) hdoy, hyear]

/-- The place of a day in the year counted from March: a month and a day in it. -/
theorem exists_monthDay {t : Int} (ht : 0 ≤ t ∧ t ≤ 365) : ∃ mp day : Int, (0 ≤ mp ∧ mp ≤ 11) ∧
    (5 * t + 2) / 153 = mp ∧ t = monthStart mp + day - 1 ∧ 1 ≤ day ∧
      (mp < 11 → day ≤ monthStart (mp + 1) - monthStart mp) ∧ (mp = 11 → day ≤ 29) := by
  unfold monthStart
  exact ⟨(5 * t + 2) / 153, t - (153 * ((5 * t + 2) / 153) + 2) / 5 + 1, by omega, rfl, by omega,
    by omega, by omega, by omega⟩

/-- A month counted from March lasts until the next one starts. -/
theorem monthStart_succ (year : Int) {mp : Int} (h : 0 ≤ mp ∧ mp < 11) :
    monthStart (mp + 1) - monthStart mp = monthLength year (if mp < 10 then mp + 3 else mp - 9) := by
  obtain rfl | rfl | rfl | rfl | rfl | rfl | rfl | rfl | rfl | rfl | rfl : mp = 0 ∨ mp = 1 ∨ mp = 2 ∨
      mp = 3 ∨ mp = 4 ∨ mp = 5 ∨ mp = 6 ∨ mp = 7 ∨ mp = 8 ∨ mp = 9 ∨ mp = 10 := by omega
  all_goals simp [monthStart, monthLength]

theorem marchDate_eq {year t mp : Int} (hmp : (5 * t + 2) / 153 = mp) : marchDate year t =
    ⟨year + if (if mp < 10 then mp + 3 else mp - 9) ≤ 2 then 1 else 0,
      if mp < 10 then mp + 3 else mp - 9, t - monthStart mp + 1⟩ := by
  subst hmp
  rfl

theorem marchDate_valid {year t : Int} (ht : 0 ≤ t ∧ t ≤ 365)
    (hleap : t = 365 → isLeap (year + 1) = true) : (marchDate year t).Valid := by
  obtain ⟨mp, day, hmp, hmonth, hday, hpos, hshort, hlast⟩ := exists_monthDay ht
  have hthis : t - monthStart mp + 1 = day := by omega
  rw [marchDate_eq hmonth, hthis]
  refine ⟨by dsimp only; split_ifs <;> omega, hpos, ?_⟩
  dsimp only
  by_cases hfeb : mp = 11
  · -- The leap day is the last of its year counted from March.
    subst hfeb
    show day ≤ if isLeap (year + 1) then 29 else 28
    have hstart : monthStart 11 = 337 := rfl
    split_ifs with h
    · exact hlast rfl
    · have hne : t ≠ 365 := fun heq => h (hleap heq)
      have hle := hlast rfl
      omega
  · rw [← monthStart_succ _ ⟨hmp.1, by omega⟩]
    exact hshort (by omega)

theorem dayNumber_marchDate {year t : Int} (ht : 0 ≤ t ∧ t ≤ 365) :
    dayNumber (marchDate year t) = yearStart year + t - 719468 := by
  obtain ⟨mp, day, hmp, hmonth, hday, _⟩ := exists_monthDay ht
  rw [marchDate_eq hmonth, dayNumber_eq, monthBegin]
  dsimp only
  have hmarch : ((if mp < 10 then mp + 3 else mp - 9) + 9) % 12 = mp := by split_ifs <;> omega
  have hyear : (if (if mp < 10 then mp + 3 else mp - 9) ≤ 2 then
      year + (if (if mp < 10 then mp + 3 else mp - 9) ≤ 2 then 1 else 0) - 1
      else year + if (if mp < 10 then mp + 3 else mp - 9) ≤ 2 then 1 else 0) = year := by
    split_ifs <;> omega
  rw [hmarch, hyear]
  omega

/-! ## Day by day -/

theorem civil_valid (n : Int) : (civil n).Valid := by
  obtain ⟨year, t, ht, hleap, rfl⟩ := exists_marchDay n
  rw [civil_eq ht hleap]
  exact marchDate_valid ht hleap

@[simp] theorem dayNumber_civil (n : Int) : dayNumber (civil n) = n := by
  obtain ⟨year, t, ht, hleap, rfl⟩ := exists_marchDay n
  rw [civil_eq ht hleap, dayNumber_marchDate ht]

/-- Every date of the calendar is a place in a year counted from March. -/
theorem exists_marchDate {d : Date} (h : d.Valid) : ∃ year t : Int, (0 ≤ t ∧ t ≤ 365) ∧
    (t = 365 → isLeap (year + 1) = true) ∧ d = marchDate year t := by
  obtain ⟨year, month, day⟩ := d
  obtain ⟨⟨hm1, hm12⟩, hd1, hd⟩ := h
  dsimp only at hm1 hm12 hd1 hd
  -- February ends the year that begins in March, and alone varies in length.
  by_cases hfeb : month = 2
  · subst hfeb
    have hd : day ≤ if isLeap year then 29 else 28 := hd
    have hmonth : (5 * (336 + day) + 2) / 153 = 11 := by split_ifs at hd <;> omega
    refine ⟨year - 1, 336 + day, by split_ifs at hd <;> omega, fun hlast => ?_, ?_⟩
    · rw [Int.sub_add_cancel]
      by_contra hshort
      rw [if_neg hshort] at hd
      omega
    · have hstart : monthStart 11 = 337 := rfl
      rw [marchDate_eq hmonth, hstart, Date.mk.injEq]
      exact ⟨(Int.sub_add_cancel year 1).symm, rfl, by omega⟩
  · have hmp : 0 ≤ (month + 9) % 12 ∧ (month + 9) % 12 < 11 := by omega
    have hback : (if (month + 9) % 12 < 10 then (month + 9) % 12 + 3 else (month + 9) % 12 - 9) =
        month := by split_ifs <;> omega
    have hlength := monthStart_succ year hmp
    rw [hback] at hlength
    have hmonth : (5 * (monthStart ((month + 9) % 12) + day - 1) + 2) / 153 = (month + 9) % 12 := by
      unfold monthStart at hlength ⊢
      omega
    refine ⟨if month ≤ 2 then year - 1 else year, monthStart ((month + 9) % 12) + day - 1, ?_, ?_, ?_⟩
    · unfold monthStart at hlength ⊢
      omega
    · unfold monthStart at hlength ⊢
      omega
    · rw [marchDate_eq hmonth, hback, Date.mk.injEq]
      exact ⟨by split_ifs <;> omega, rfl, by omega⟩

theorem civil_dayNumber {d : Date} (h : d.Valid) : civil (dayNumber d) = d := by
  obtain ⟨year, t, ht, hleap, rfl⟩ := exists_marchDate h
  rw [dayNumber_marchDate ht, civil_eq ht hleap]

/-- The day after has the next number, so `civil` walks the calendar. -/
theorem civil_succ (n : Int) : civil (n + 1) = (civil n).next := by
  have hnext : dayNumber (civil n).next = n + 1 := by
    rw [dayNumber_next (civil_valid n), dayNumber_civil]
  rw [← hnext, civil_dayNumber (civil_valid n).next]

/-! ## The order of the days -/

theorem Date.Before.trans {a b c : Date} (hab : a.Before b) (hbc : b.Before c) : a.Before c := by
  unfold Date.Before at *
  omega

theorem Date.Before.irrefl (a : Date) : ¬a.Before a := by
  unfold Date.Before
  omega

/-- Later days have later dates. -/
theorem civil_before_of_lt {a b : Int} (h : a < b) : (civil a).Before (civil b) := by
  obtain ⟨n, rfl⟩ : ∃ n : Nat, b = a + 1 + n := ⟨(b - a - 1).toNat, by omega⟩
  clear h
  induction n with
  | zero =>
      rw [Int.natCast_zero, Int.add_zero, civil_succ]
      exact (civil a).before_next
  | succ n ih =>
      have hnext := (civil (a + 1 + n)).before_next
      rw [← civil_succ] at hnext
      rw [Int.natCast_succ, ← Int.add_assoc]
      exact ih.trans hnext

theorem civil_before_iff {a b : Int} : (civil a).Before (civil b) ↔ a < b := by
  refine ⟨fun h => ?_, civil_before_of_lt⟩
  rcases Int.lt_trichotomy a b with hlt | heq | hgt
  · exact hlt
  · rw [heq] at h
    exact absurd h (Date.Before.irrefl _)
  · exact absurd (h.trans (civil_before_of_lt hgt)) (Date.Before.irrefl _)

theorem firstDay_valid (year : Int) : (⟨year, 1, 1⟩ : Date).Valid where
  month := ⟨Int.le_refl 1, by show (1 : Int) ≤ 12; omega⟩
  day := by
    have hlength := monthLength_pos year 1
    exact ⟨Int.le_refl 1, by show 1 ≤ monthLength year 1; omega⟩

/-- A day stands before a year when its date is of an earlier one. -/
theorem lt_firstDay_iff {n year : Int} : n < dayNumber ⟨year, 1, 1⟩ ↔ (civil n).year < year := by
  rw [← civil_before_iff, civil_dayNumber (firstDay_valid year)]
  obtain ⟨⟨hm, _⟩, hd, _⟩ := civil_valid n
  show (civil n).Before ⟨year, 1, 1⟩ ↔ _
  unfold Date.Before
  dsimp only
  omega

/-! ## Weeks -/

/-- The day of the week, Monday as 0: 1970-01-01 was a Thursday. -/
def weekday (n : Int) : Int := (n + 3) % 7

/-- The Monday a year's weeks are counted from: its first week holds January the fourth. -/
def weekOne (year : Int) : Int :=
  dayNumber ⟨year, 1, 1⟩ + 3 - weekday (dayNumber ⟨year, 1, 1⟩ + 3)

/-- The day is in the given week of the year of weeks. -/
structure InWeek (year week n : Int) : Prop where
  within : weekOne year ≤ n ∧ n < weekOne (year + 1)
  counted : week = (n - weekOne year) / 7 + 1

theorem firstDay_succ (year : Int) : dayNumber ⟨year + 1, 1, 1⟩ =
    dayNumber ⟨year, 1, 1⟩ + 365 + if isLeap year then 1 else 0 := by
  have hstart := yearStart_succ (year - 1)
  have hback : year - 1 + 1 = year := by omega
  rw [hback] at hstart
  rw [dayNumber_eq, dayNumber_eq]
  unfold monthBegin
  dsimp only
  rw [if_pos (by omega), if_pos (by omega), Int.add_sub_cancel, hstart]
  omega

/-- A week belongs to the year of its Thursday. -/
theorem InWeek.of_thursday {n : Int} (hn : weekday n = 0) : InWeek (civil (n + 3)).year
    ((n + 3 - dayNumber ⟨(civil (n + 3)).year, 1, 1⟩) / 7 + 1) n := by
  have hnot : ¬n + 3 < dayNumber ⟨(civil (n + 3)).year, 1, 1⟩ := by
    rw [lt_firstDay_iff]
    omega
  have hlt : n + 3 < dayNumber ⟨(civil (n + 3)).year + 1, 1, 1⟩ := by
    rw [lt_firstDay_iff]
    omega
  have hyear := firstDay_succ (civil (n + 3)).year
  generalize (civil (n + 3)).year = year at *
  constructor
  · unfold weekOne weekday at *
    omega
  · unfold weekOne weekday at *
    omega

/-- The other days of a week are in it too. -/
theorem InWeek.of_monday {year week n d : Int} (h : InWeek year week n) (hn : weekday n = 0)
    (hd : n ≤ d ∧ d < n + 7) : InWeek year week d := by
  obtain ⟨hyear, rfl⟩ := h
  constructor
  · unfold weekOne weekday at *
    omega
  · unfold weekOne weekday at *
    omega

/-- A year has 52 weeks or 53. -/
theorem InWeek.bounds {year week n : Int} (h : InWeek year week n) : 1 ≤ week ∧ week ≤ 53 := by
  obtain ⟨hyear, rfl⟩ := h
  have hsucc := firstDay_succ year
  unfold weekOne weekday at *
  split at hsucc <;> omega

/-- A year and a week name one Monday. -/
theorem InWeek.monday_unique {year week n m : Int} (h : InWeek year week n) (h' : InWeek year week m) :
    n - weekday n = m - weekday m := by
  obtain ⟨hyear, rfl⟩ := h
  obtain ⟨hyear', hweek⟩ := h'
  unfold weekOne weekday at *
  omega

end Dagq.Lib.Calendar
