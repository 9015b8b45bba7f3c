/-
  Libc/Ctime.lean --- broken-down times (`rt-thread/components/libc/compilers/common/ctime.c`).

  `gmtime_r` takes the years off the day number one by one, and finds the month in a table for
  common years.  `timegm` first carries what exceeds the range of a field into the next one, and
  counts the leap years in closed form.  The fields are `int`; the results below are about times
  whose day number is one, so that nothing overflows.

  `gmtimeR_civil` compares both with the calendar.
-/
import Gd32Vw553h.Foundation.Calendar
import Mathlib.Tactic.IntervalCases

set_option autoImplicit false

namespace Gd32Vw553h.Libc

open Gd32Vw553h.Foundation

/-! ## The code -/

/-- `struct tm` -/
structure Tm where
  tmSec : Int
  tmMin : Int
  tmHour : Int
  tmMday : Int
  tmMon : Int
  tmYear : Int
  tmWday : Int
  tmYday : Int
  tmIsdst : Int
  deriving DecidableEq

/-- The conversion of a `time_t` to `int`. -/
def toInt (x : Int) : Int := x.bmod 0x100000000

/-- `__spm`: the days of a common year before a month. -/
def spm (i : Nat) : Int :=
  [0, 31, 59, 90, 120, 151, 181, 212, 243, 273, 304, 334, 365].getD i 0

/-- `__isleap` -/
def isLeap (year : Int) : Bool :=
  year.tmod 4 == 0 && (year.tmod 100 != 0 || year.tmod 400 == 0)

/-- The loop over the years, for at most `fuel` years. -/
def yearLoop : Nat → Int → Int → Int × Int
  | 0, i, work => (i, work)
  | fuel + 1, i, work =>
    let k := if isLeap i then 366 else 365
    if work ≥ k then yearLoop fuel (i + 1) (work - k) else (i, work)

/-- `for (i = 11; i && (__spm[i] > work); --i)` -/
def monthLoop (work : Int) : Nat → Nat
  | 0 => 0
  | i + 1 => if spm (i + 1) > work then monthLoop work i else i + 1

/-- The end of `gmtime_r`, with the year and the day of the year. -/
def monthAndDay (year work : Int) : Nat × Int :=
  let late := isLeap year && decide (work > 58)
  let mday := if late && decide (work = 59) then 2 else 1
  let work := if late then work - 1 else work
  let i := monthLoop work 11
  (i, mday + (work - spm i))

/-- `rt_tz_is_dst` -/
def rtTzIsDst : Int := 0

/-- `gmtime_r` -/
def gmtimeR (timep : Int) : Tm :=
  let time := toInt (timep.tmod 86400)
  let work := toInt (timep.tdiv 86400)
  let year := yearLoop (work.toNat + 1) 1970 work
  let month := monthAndDay year.1 year.2
  { tmSec := time.tmod 60
    tmMin := (time.tdiv 60).tmod 60
    tmHour := (time.tdiv 60).tdiv 60
    tmMday := month.2
    tmMon := month.1
    tmYear := year.1 - 1900
    tmWday := (4 + work).tmod 7
    tmYday := year.2
    tmIsdst := rtTzIsDst }

/-- `localtime_r`, with the offset of `rt_tz_get`. -/
def localtimeR (tzOffset t : Int) : Tm := gmtimeR (t + tzOffset)

/-- A field above its limit is carried into the next one. -/
def carry (limit base field next : Int) : Int × Int :=
  if field ≥ limit then (field.tmod base, next + field.tdiv base) else (field, next)

/-- `while (t->tm_mday > __spm[1 + t->tm_mon])`, at most `fuel` times. -/
def dayLoop : Nat → Tm → Tm
  | 0, t => t
  | fuel + 1, t =>
    if t.tmMday > spm (1 + t.tmMon.toNat) then
      let mday := if t.tmMon = 1 && isLeap (t.tmYear + 1900) then t.tmMday - 1 else t.tmMday
      let mday := mday - spm t.tmMon.toNat
      let mon := t.tmMon + 1
      dayLoop fuel (if mon > 11 then
          { t with tmMday := mday, tmMon := 0, tmYear := t.tmYear + 1 }
        else { t with tmMday := mday, tmMon := mon })
    else t

/-- The tests before the day loop of `timegm`. -/
def carryFields (t : Tm) : Tm :=
  let (sec, min) := carry 61 60 t.tmSec t.tmMin
  let (min, hour) := carry 60 60 min t.tmHour
  let (hour, mday) := carry 24 24 hour t.tmMday
  let (mon, year) := carry 12 12 t.tmMon t.tmYear
  { t with
    tmSec := sec, tmMin := min, tmHour := hour, tmMday := mday, tmMon := mon, tmYear := year }

/-- The days before a year, counted from 1970. -/
def daysBeforeYear (years : Int) : Int :=
  let day := years * 365 + (years + 1).tdiv 4
  if years ≥ 131 then
    let centuries := (years - 131).tdiv 100
    let day := day - (centuries / 4 * 3 + 1)
    let rest := centuries % 4
    day - (if rest = 3 then rest - 1 else rest)
  else day

/-- The end of `timegm`: the result, and what it stores in the fields. -/
def timegmEnd (t : Tm) : Int × Tm :=
  if t.tmYear < 70 then (-1, t)
  else
    let yday := spm t.tmMon.toNat + t.tmMday - 1 +
      (if isLeap (t.tmYear + 1900) && decide (t.tmMon > 1) then 1 else 0)
    let day := daysBeforeYear (t.tmYear - 70) + yday
    (((day * 24 + t.tmHour) * 60 + t.tmMin) * 60 + t.tmSec,
      { t with tmYday := yday, tmWday := (day + 4).tmod 7 })

/-- `timegm` -/
def timegm (t : Tm) : Int × Tm :=
  let t := carryFields t
  timegmEnd (dayLoop (12 * t.tmMday.toNat) t)

/-- `mktime` -/
def mktime (tzOffset : Int) (t : Tm) : Int := (timegm t).1 - tzOffset

/-! ## The tables -/

theorem isLeap_iff (year : Nat) : isLeap (year : Int) = true ↔ IsLeap year := by
  have h4 : (year : Int).tmod 4 = ((year % 4 : Nat) : Int) := (Int.ofNat_tmod year 4).symm
  have h100 : (year : Int).tmod 100 = ((year % 100 : Nat) : Int) :=
    (Int.ofNat_tmod year 100).symm
  have h400 : (year : Int).tmod 400 = ((year % 400 : Nat) : Int) :=
    (Int.ofNat_tmod year 400).symm
  unfold isLeap IsLeap
  rw [h4, h100, h400]
  simp only [Bool.and_eq_true, Bool.or_eq_true, beq_iff_eq, bne_iff_ne]
  omega

/-- The table has the months of a common year. -/
theorem daysToMonth_eq_spm (year : Nat) {m : Nat} (hm : m ≤ 12) :
    (daysToMonth year m : Int) = spm m + (if IsLeap year ∧ 1 < m then 1 else 0) := by
  by_cases h : IsLeap year
  · interval_cases m <;> simp [daysToMonth, blockStart, monthDays, spm, h]
  · interval_cases m <;> simp [daysToMonth, blockStart, monthDays, spm, h]

theorem spm_mono {i j : Nat} (hij : i ≤ j) (hj : j ≤ 12) : spm i ≤ spm j := by
  have hi := hij.trans hj
  interval_cases j <;> interval_cases i <;> decide

theorem monthLoop_eq {work : Int} {m : Nat} (hfirst : spm m ≤ work) (hlast : work < spm (m + 1))
    (hm : m ≤ 11) {i : Nat} (hle : m ≤ i) (hi : i ≤ 11) : monthLoop work i = m := by
  induction i with
  | zero => exact (Nat.le_zero.mp hle).symm
  | succ i ih =>
    rw [monthLoop]
    rcases Nat.lt_or_eq_of_le hle with hlt | rfl
    · have hnext : spm (m + 1) ≤ spm (i + 1) := spm_mono hlt (by omega)
      rw [if_pos (by omega)]
      exact ih (Nat.le_of_lt_succ hlt) (by omega)
    · rw [if_neg (by omega)]

theorem toInt_eq {x : Int} (hlow : -0x80000000 ≤ x) (hhigh : x < 0x80000000) : toInt x = x :=
  Int.bmod_eq_of_le (by omega) (by omega)

/-! ## The day number -/

/-- The leap years are those of the calendar. -/
theorem daysBeforeYear_eq (years : Nat) :
    daysBeforeYear years = blockStart (fun i => yearDays (1970 + i)) years := by
  have hclosed : blockStart (fun i => yearDays (1970 + i)) years + (1969 + years) / 100 + 492 + 4 =
      365 * years + 19 + (1969 + years) / 4 + (1969 + years) / 400 := blockStart_yearDays 1969 years
  generalize blockStart (fun i => yearDays (1970 + i)) years = days at hclosed ⊢
  unfold daysBeforeYear
  rw [Int.tdiv_eq_ediv_of_nonneg (by omega)]
  dsimp only
  split
  · rw [Int.tdiv_eq_ediv_of_nonneg (by omega)]
    split <;> omega
  · omega

theorem daysToYear_eq {year : Nat} (h : 1970 ≤ year) :
    daysBeforeYear ((year : Int) - 1900 - 70) = daysToYear 1970 year := by
  have hyears : (year : Int) - 1900 - 70 = ((year - 1970 : Nat) : Int) := by omega
  rw [hyears, daysBeforeYear_eq]
  rfl

/-- The loop over the years ends in the year that has the day. -/
theorem yearLoop_eq {k n : Nat} (hin : InBlock (fun i => yearDays (1970 + i)) k n) {fuel j : Nat}
    (hle : j ≤ k) (hfuel : k < j + fuel) :
    yearLoop fuel ((1970 + j : Nat) : Int)
        ((n : Int) - blockStart (fun i => yearDays (1970 + i)) j) =
      (((1970 + k : Nat) : Int), (n : Int) - blockStart (fun i => yearDays (1970 + i)) k) := by
  induction fuel generalizing j with
  | zero => omega
  | succ fuel ih =>
    have hdays : (if isLeap ((1970 + j : Nat) : Int) then (366 : Int) else 365) =
        yearDays (1970 + j) := by
      unfold yearDays
      by_cases hleap : IsLeap (1970 + j)
      · rw [if_pos ((isLeap_iff _).mpr hleap), if_pos hleap]
        rfl
      · rw [if_neg fun h => hleap ((isLeap_iff _).mp h), if_neg hleap]
        rfl
    have hnext : blockStart (fun i => yearDays (1970 + i)) (j + 1) =
        blockStart (fun i => yearDays (1970 + i)) j + yearDays (1970 + j) := rfl
    simp only [yearLoop, hdays]
    rcases Nat.lt_or_eq_of_le hle with hlt | rfl
    · have hstart : blockStart (fun i => yearDays (1970 + i)) (j + 1) ≤
          blockStart (fun i => yearDays (1970 + i)) k := blockStart_le hlt
      have hfirst := hin.1
      rw [if_pos (by omega)]
      have hgo := ih hlt (by omega)
      have hwork : (n : Int) - blockStart (fun i => yearDays (1970 + i)) (j + 1) =
          n - blockStart (fun i => yearDays (1970 + i)) j - yearDays (1970 + j) := by
        rw [hnext]
        omega
      rw [hwork] at hgo
      exact hgo
    · have hlast := hin.2
      rw [if_neg (by omega)]

theorem yearLoop_date (d : Date 1970) :
    yearLoop ((d.dayNumber : Int).toNat + 1) 1970 d.dayNumber =
      ((d.year : Int), (d.yearDay : Int)) := by
  have hin := d.dayNumber_inBlock
  have hyear := d.year_ge
  have hle := (le_blockStart (fun i => yearDays_pos (1970 + i)) (d.year - 1970)).trans hin.1
  have hloop := @yearLoop_eq _ _ hin (d.dayNumber + 1) 0 (Nat.zero_le _) (by omega)
  have hstart : (d.dayNumber : Int) - ((blockStart (fun i => yearDays (1970 + i)) 0 : Nat) : Int) =
      d.dayNumber := Int.sub_zero _
  have hlast : ((d.dayNumber : Int) -
      (blockStart (fun i => yearDays (1970 + i)) (d.year - 1970) : Nat)) = d.yearDay := by
    show ((daysToYear 1970 d.year + d.yearDay : Nat) : Int) - (daysToYear 1970 d.year : Nat) = _
    omega
  rw [hstart, hlast, Nat.add_sub_cancel' hyear] at hloop
  exact hloop

/-- The end of `gmtime_r` finds the month and the day. -/
theorem monthAndDay_date {origin : Nat} (d : Date origin) :
    monthAndDay d.year d.yearDay = (d.month, (d.day : Int)) := by
  have hm := d.month_lt
  have hpos := d.day_pos
  have hle := d.day_le
  have htable := daysToMonth_eq_spm d.year (le_of_lt hm)
  have htable' := daysToMonth_eq_spm d.year (show d.month + 1 ≤ 12 by omega)
  have hlast : d.yearDay < daysToMonth d.year (d.month + 1) := d.yearDay_inBlock.2
  have hday : (d.yearDay : Int) = daysToMonth d.year d.month + d.day - 1 := by
    unfold Date.yearDay
    omega
  have hzero : spm 0 = 0 := rfl
  have hone : spm 1 = 31 := rfl
  have htwo : spm 2 = 59 := rfl
  unfold monthAndDay
  by_cases hlate : IsLeap d.year ∧ (d.yearDay : Int) > 58
  · -- the leap day and all days behind it
    obtain ⟨hleap, hafter⟩ := hlate
    have hmonth : 1 ≤ d.month := by
      by_contra hno
      obtain hnone : d.month = 0 := by omega
      rw [hnone, Nat.zero_add, if_neg (by omega), hone] at htable'
      rw [hnone, Nat.zero_add] at hlast
      omega
    rw [if_pos ⟨hleap, by omega⟩] at htable'
    rw [(isLeap_iff d.year).mpr hleap, decide_eq_true hafter]
    simp only [Bool.true_and, if_true, decide_eq_true_eq]
    rcases Nat.eq_or_lt_of_le hmonth with heq | hlt
    · rw [← heq, if_neg (by omega), hone] at htable
      rw [← heq, htwo] at htable'
      rw [← heq] at hlast hday ⊢
      have hfebruary : (d.yearDay : Int) = 59 := by omega
      rw [hfebruary, monthLoop_eq (m := 1) (by decide) (by decide) (by decide) (by decide)
        (le_refl _), hone, if_pos rfl]
      exact Prod.ext rfl (by dsimp only; omega)
    · rw [if_pos ⟨hleap, hlt⟩] at htable
      have hmore : spm 2 ≤ spm d.month := spm_mono hlt (le_of_lt hm)
      rw [monthLoop_eq (m := d.month) (by omega) (by omega) (by omega) (by omega) (le_refl _),
        if_neg (by omega)]
      exact Prod.ext rfl (by dsimp only; omega)
  · have hnot : (isLeap (d.year : Int) && decide ((d.yearDay : Int) > 58)) = false := by
      rw [Bool.and_eq_false_iff]
      by_cases hleap : IsLeap d.year
      · exact .inr (decide_eq_false fun hafter => hlate ⟨hleap, hafter⟩)
      · exact .inl (Bool.eq_false_iff.mpr fun h => hleap ((isLeap_iff _).mp h))
    rw [hnot]
    simp only [Bool.false_and, Bool.false_eq_true, if_false]
    have hfirst : (daysToMonth d.year d.month : Int) = spm d.month := by
      rw [htable]
      split
      · rename_i hleap
        have hmore : spm 2 ≤ spm d.month := spm_mono hleap.2 (le_of_lt hm)
        rw [if_pos hleap] at htable
        exact absurd ⟨hleap.1, by omega⟩ hlate
      · exact add_zero _
    have hnext : (d.yearDay : Int) < spm (d.month + 1) := by
      by_cases hleap : IsLeap d.year
      · have hearly : ¬ (d.yearDay : Int) > 58 := fun hafter => hlate ⟨hleap, hafter⟩
        by_cases hjanuary : d.month = 0
        · rw [hjanuary, Nat.zero_add, if_neg (by omega)] at htable'
          rw [hjanuary] at hlast ⊢
          rw [Nat.zero_add] at hlast ⊢
          omega
        · have hmore : spm 2 ≤ spm (d.month + 1) := spm_mono (by omega) (by omega)
          omega
      · rw [if_neg fun h => hleap h.1] at htable'
        omega
    rw [monthLoop_eq (m := d.month) (by omega) hnext (by omega) (by omega) (le_refl _)]
    exact Prod.ext rfl (by dsimp only; omega)

/-! ## Times of day -/

/-- The fields of a time of day, before the epoch, too. -/
structure TimeOfDay (time sec min hour : Int) : Prop where
  whole : (hour * 60 + min) * 60 + sec = time
  sec : sec < 60
  min : min < 60
  hour : hour < 24

theorem timeOfDay_of_lt {time : Int} (hlow : -86400 < time) (hhigh : time < 86400) :
    TimeOfDay time (time.tmod 60) ((time.tdiv 60).tmod 60) ((time.tdiv 60).tdiv 60) := by
  have hsec := Int.tdiv_mul_add_tmod time 60
  have hmin := Int.tdiv_mul_add_tmod (time.tdiv 60) 60
  have hseclt := Int.tmod_lt_of_pos time (show (0 : Int) < 60 by decide)
  have hminlt := Int.tmod_lt_of_pos (time.tdiv 60) (show (0 : Int) < 60 by decide)
  refine ⟨by omega, hseclt, hminlt, ?_⟩
  rcases Int.le_total 0 time with hpos | hneg
  · rw [Int.tdiv_eq_ediv_of_nonneg hpos, Int.tdiv_eq_ediv_of_nonneg (by omega)]
    omega
  · have hfirst : 0 ≤ (-time).tdiv 60 := Int.tdiv_nonneg (by omega) (by decide)
    rw [Int.neg_tdiv] at hfirst
    have hsecond : 0 ≤ (-time.tdiv 60).tdiv 60 := Int.tdiv_nonneg (by omega) (by decide)
    rw [Int.neg_tdiv] at hsecond
    omega

/-! ## There and back -/

/-- The fields that `gmtime_r` finds for a day and a time of day. -/
def dayTm (d : Date 1970) (time : Int) : Tm where
  tmSec := time.tmod 60
  tmMin := (time.tdiv 60).tmod 60
  tmHour := (time.tdiv 60).tdiv 60
  tmMday := d.day
  tmMon := d.month
  tmYear := d.year - 1900
  tmWday := ((d.dayNumber : Int) + 4).tmod 7
  tmYday := d.yearDay
  tmIsdst := 0

theorem tmod_day_bounds (t : Int) : -86400 < t.tmod 86400 ∧ t.tmod 86400 < 86400 :=
  ⟨Int.lt_tmod_of_pos t (by decide), Int.tmod_lt_of_pos t (by decide)⟩

theorem toInt_tmod (t : Int) : toInt (t.tmod 86400) = t.tmod 86400 := by
  obtain ⟨hlow, hhigh⟩ := tmod_day_bounds t
  exact toInt_eq (by omega) (by omega)

theorem gmtimeR_of_day {t : Int} {d : Date 1970} (hday : t.tdiv 86400 = d.dayNumber)
    (hlast : (d.dayNumber : Int) ≤ 0x7ffffffb) : gmtimeR t = dayTm d (t.tmod 86400) := by
  have hwork : toInt (t.tdiv 86400) = d.dayNumber := by
    rw [hday]
    exact toInt_eq (by omega) (by omega)
  unfold gmtimeR
  simp only [toInt_tmod, hwork, yearLoop_date, monthAndDay_date]
  rw [Int.add_comm 4]
  rfl

theorem gmtimeR_of_neg {t : Int} (hneg : t.tdiv 86400 < 0) (hlow : -0x80000000 ≤ t.tdiv 86400) :
    gmtimeR t = {
      tmSec := (t.tmod 86400).tmod 60
      tmMin := ((t.tmod 86400).tdiv 60).tmod 60
      tmHour := ((t.tmod 86400).tdiv 60).tdiv 60
      tmMday := 1 + t.tdiv 86400
      tmMon := 0
      tmYear := 70
      tmWday := (t.tdiv 86400 + 4).tmod 7
      tmYday := t.tdiv 86400
      tmIsdst := 0 } := by
  have hwork : toInt (t.tdiv 86400) = t.tdiv 86400 := toInt_eq hlow (by omega)
  unfold gmtimeR
  simp only [toInt_tmod, hwork]
  generalize t.tdiv 86400 = n at hneg ⊢
  have hfuel : n.toNat = 0 := by omega
  have hyear : yearLoop (n.toNat + 1) 1970 n = (1970, n) := by
    rw [hfuel, yearLoop, show isLeap 1970 = false from rfl, if_neg Bool.false_ne_true]
    exact if_neg (by omega)
  have hmonth : monthAndDay 1970 n = (0, 1 + n) := by
    have hloop : monthLoop n 11 = 0 := by
      have hall : ∀ i, i ≤ 11 → monthLoop n i = 0 := by
        intro i hi
        induction i with
        | zero => rfl
        | succ i ih =>
          have hpos : spm 0 ≤ spm (i + 1) := spm_mono (Nat.zero_le _) (by omega)
          have hzero : spm 0 = 0 := rfl
          rw [monthLoop, if_pos (by omega)]
          exact ih (by omega)
      exact hall 11 (le_refl _)
    simp only [monthAndDay, show isLeap 1970 = false from rfl, Bool.false_and,
      Bool.false_eq_true, if_false, hloop]
    exact Prod.ext rfl (congrArg (1 + ·) (Int.sub_zero n))
  simp only [hyear, hmonth]
  rw [Int.add_comm 4]
  rfl

/-! ## `timegm` -/

theorem carry_of_lt {limit base field next : Int} (h : field < limit) :
    carry limit base field next = (field, next) := if_neg (by omega)

/-- Fields that are in range are left as they are. -/
theorem carryFields_eq {t : Tm} (hsec : t.tmSec < 61) (hmin : t.tmMin < 60)
    (hhour : t.tmHour < 24) (hmon : t.tmMon < 12) : carryFields t = t := by
  unfold carryFields
  rw [carry_of_lt hsec]
  dsimp only
  rw [carry_of_lt hmin]
  dsimp only
  rw [carry_of_lt hhour]
  dsimp only
  rw [carry_of_lt hmon]

theorem dayLoop_eq {t : Tm} (hmday : t.tmMday ≤ spm (1 + t.tmMon.toNat)) (fuel : Nat) :
    dayLoop fuel t = t := by
  cases fuel with
  | zero => rfl
  | succ fuel =>
    rw [dayLoop]
    exact if_neg (by omega)

/-- The end of `timegm`, for a year and a month of the calendar. -/
theorem timegmEnd_eq {t : Tm} {year month : Nat} (hyear : 1970 ≤ year) (hmonth : month < 12)
    (htmYear : t.tmYear = year - 1900) (htmMon : t.tmMon = month) :
    timegmEnd t = (
      ((((daysToYear 1970 year : Int) + daysToMonth year month + t.tmMday - 1) * 24 +
        t.tmHour) * 60 + t.tmMin) * 60 + t.tmSec,
      { t with
        tmYday := daysToMonth year month + t.tmMday - 1
        tmWday := ((daysToYear 1970 year : Int) + daysToMonth year month + t.tmMday - 1 +
          4).tmod 7 }) := by
  have hleap : (if isLeap (t.tmYear + 1900) && decide (t.tmMon > 1) then (1 : Int) else 0) =
      if IsLeap year ∧ 1 < month then 1 else 0 := by
    have hthis : t.tmYear + 1900 = year := by omega
    refine if_congr ?_ rfl rfl
    rw [hthis, Bool.and_eq_true, isLeap_iff, decide_eq_true_iff]
    exact and_congr_right fun _ => by omega
  have hdays : daysBeforeYear (t.tmYear - 70) = daysToYear 1970 year := by
    rw [htmYear]
    exact daysToYear_eq hyear
  have hmon : t.tmMon.toNat = month := by omega
  have hyday : spm month + t.tmMday - 1 + (if IsLeap year ∧ 1 < month then 1 else 0) =
      daysToMonth year month + t.tmMday - 1 := by
    rw [daysToMonth_eq_spm year (le_of_lt hmonth)]
    omega
  have hday : (daysToYear 1970 year : Int) + (daysToMonth year month + t.tmMday - 1) =
      daysToYear 1970 year + daysToMonth year month + t.tmMday - 1 := by omega
  unfold timegmEnd
  rw [if_neg (by omega)]
  simp only [hleap, hdays, hmon, hyday, hday]

/-- `timegm` of fields that are in range. -/
theorem timegm_eq {t : Tm} {year month : Nat} (hyear : 1970 ≤ year) (hmonth : month < 12)
    (htmYear : t.tmYear = year - 1900) (htmMon : t.tmMon = month) (hsec : t.tmSec < 61)
    (hmin : t.tmMin < 60) (hhour : t.tmHour < 24) (hmday : t.tmMday ≤ spm (1 + month)) :
    timegm t = (
      ((((daysToYear 1970 year : Int) + daysToMonth year month + t.tmMday - 1) * 24 +
        t.tmHour) * 60 + t.tmMin) * 60 + t.tmSec,
      { t with
        tmYday := daysToMonth year month + t.tmMday - 1
        tmWday := ((daysToYear 1970 year : Int) + daysToMonth year month + t.tmMday - 1 +
          4).tmod 7 }) := by
  have hmon : t.tmMon.toNat = month := by omega
  unfold timegm
  rw [carryFields_eq hsec hmin hhour (by omega)]
  dsimp only
  rw [dayLoop_eq (by rw [hmon]; exact hmday)]
  exact timegmEnd_eq hyear hmonth htmYear htmMon

/-- A day of the month is not behind the end of the month in the table. -/
theorem day_le_spm {origin : Nat} (d : Date origin) : (d.day : Int) ≤ spm (1 + d.month) := by
  have hle := d.day_le
  have hmonth : monthDays d.year d.month ≤ 31 := by
    unfold monthDays
    split_ifs <;> decide
  have hfirst : spm 1 ≤ spm (1 + d.month) :=
    spm_mono (Nat.le_add_right _ _) (by have := d.month_lt; omega)
  have hone : spm 1 = 31 := rfl
  omega

/-- `timegm` undoes `gmtime_r`, before the epoch, too, and leaves the fields as they are. -/
theorem timegm_gmtimeR {t : Int} (hlow : -0x80000000 ≤ t.tdiv 86400)
    (hhigh : t.tdiv 86400 ≤ 0x7ffffffb) : timegm (gmtimeR t) = (t, gmtimeR t) := by
  have ht := Int.tdiv_mul_add_tmod t 86400
  obtain ⟨htime, hsec, hmin, hhour⟩ :=
    timeOfDay_of_lt (tmod_day_bounds t).1 (tmod_day_bounds t).2
  rcases Int.lt_or_le (t.tdiv 86400) 0 with hneg | hpos
  · have htable : spm (1 + 0) = 31 := rfl
    have hyday : (daysToMonth 1970 0 : Int) + (1 + t.tdiv 86400) - 1 = t.tdiv 86400 := by
      have hmonth : (daysToMonth 1970 0 : Int) = 0 := rfl
      omega
    have hnumber : (daysToYear 1970 1970 : Int) + daysToMonth 1970 0 + (1 + t.tdiv 86400) - 1 =
        t.tdiv 86400 := by
      have hyear : (daysToYear 1970 1970 : Int) = 0 := rfl
      omega
    rw [gmtimeR_of_neg hneg hlow, @timegm_eq _ 1970 0 (le_refl _) (by decide)
      rfl rfl (by dsimp only; omega) hmin hhour (by rw [htable]; dsimp only; omega)]
    dsimp only
    rw [hnumber, hyday]
    exact Prod.ext (by dsimp only; omega) rfl
  · obtain ⟨d, hd⟩ : ∃ d : Date 1970, d.dayNumber = (t.tdiv 86400).toNat :=
      Date.exists_dayNumber _
    have hday : t.tdiv 86400 = d.dayNumber := by omega
    have hpos := d.day_pos
    have hyday : (d.yearDay : Int) = daysToMonth d.year d.month + d.day - 1 := by
      unfold Date.yearDay
      omega
    have hnumber : (d.dayNumber : Int) =
        daysToYear 1970 d.year + daysToMonth d.year d.month + d.day - 1 := by
      unfold Date.dayNumber
      omega
    rw [gmtimeR_of_day hday (by omega), @timegm_eq _ d.year d.month d.year_ge d.month_lt rfl rfl
      (by show (t.tmod 86400).tmod 60 < 61; omega) hmin hhour (day_le_spm d)]
    unfold dayTm
    dsimp only
    rw [← hnumber, ← hyday]
    exact Prod.ext (by dsimp only; omega) rfl

/-- `mktime` undoes `localtime_r`, for every offset. -/
theorem mktime_localtimeR {tzOffset t : Int} (hlow : -0x80000000 ≤ (t + tzOffset).tdiv 86400)
    (hhigh : (t + tzOffset).tdiv 86400 ≤ 0x7ffffffb) :
    mktime tzOffset (localtimeR tzOffset t) = t := by
  unfold mktime localtimeR
  rw [timegm_gmtimeR hlow hhigh]
  exact Int.add_sub_cancel t tzOffset

theorem mktime_localtimeR_beforeEpoch : mktime 28800 (localtimeR 28800 (-90001)) = -90001 :=
  mktime_localtimeR (by decide) (by decide)

/-! ## The calendar -/

/-- The fields of a civil time. -/
def toTm (c : Civil 1970) : Tm where
  tmSec := c.sec
  tmMin := c.min
  tmHour := c.hour
  tmMday := c.date.day
  tmMon := c.date.month
  tmYear := c.date.year - 1900
  tmWday := (c.date.dayNumber + 4) % 7
  tmYday := c.date.yearDay
  tmIsdst := 0

theorem gmtimeR_seconds (c : Civil 1970) (hday : (c.date.dayNumber : Int) ≤ 0x7ffffffb) :
    gmtimeR c.seconds = toTm c := by
  have hhour := c.hour_lt
  have hmin := c.min_lt
  have hsec := c.sec_lt
  have hseconds : (c.seconds : Int) =
      (((c.date.dayNumber : Int) * 24 + c.hour) * 60 + c.min) * 60 + c.sec := by
    unfold Civil.seconds
    omega
  have hdiv : (c.seconds : Int).tdiv 86400 = c.date.dayNumber := by
    rw [Int.tdiv_eq_ediv_of_nonneg (by omega)]
    omega
  have hmod : (c.seconds : Int).tmod 86400 = ((c.hour : Int) * 60 + c.min) * 60 + c.sec := by
    rw [Int.tmod_eq_emod_of_nonneg (by omega)]
    omega
  rw [gmtimeR_of_day hdiv hday, hmod]
  unfold dayTm toTm
  rw [Int.tdiv_eq_ediv_of_nonneg (by omega), Int.tdiv_eq_ediv_of_nonneg (by omega),
    Int.tmod_eq_emod_of_nonneg (by omega), Int.tmod_eq_emod_of_nonneg (by omega),
    Int.tmod_eq_emod_of_nonneg (by omega)]
  congr 1
  · omega
  · omega
  · omega

/-- Each second from the epoch on belongs to one civil time; `gmtime_r` stores its fields, and
`timegm` gets back from them. -/
theorem gmtimeR_civil {t : Int} (hpos : 0 ≤ t) (hhigh : t.tdiv 86400 ≤ 0x7ffffffb) :
    ∃! c : Civil 1970, c.seconds = t ∧ gmtimeR t = toTm c ∧ timegm (toTm c) = (t, toTm c) := by
  obtain ⟨c, hc, honly⟩ : ∃! c : Civil 1970, c.seconds = t.toNat := Civil.existsUnique_seconds _
  have ht : (c.seconds : Int) = t := by
    have hc' : c.seconds = t.toNat := hc
    omega
  have hday : (c.date.dayNumber : Int) ≤ 0x7ffffffb := by
    have hhour := c.hour_lt
    have hmin := c.min_lt
    have hsec := c.sec_lt
    have hseconds : c.seconds = ((c.date.dayNumber * 24 + c.hour) * 60 + c.min) * 60 + c.sec := rfl
    rw [Int.tdiv_eq_ediv_of_nonneg hpos] at hhigh
    omega
  have hfields : gmtimeR t = toTm c := by
    rw [← ht]
    exact gmtimeR_seconds c hday
  refine ⟨c, ⟨ht, hfields, ?_⟩, fun c' hc' => honly c' ?_⟩
  · have hback := timegm_gmtimeR (t := t)
      ((show (-0x80000000 : Int) ≤ 0 by decide).trans (Int.tdiv_nonneg hpos (by decide))) hhigh
    rw [hfields] at hback
    exact hback
  · show c'.seconds = t.toNat
    have hseconds := hc'.1
    omega

theorem gmtimeR_civil_leapDay : ∃! c : Civil 1970, c.seconds = (951827696 : Int) ∧
    gmtimeR 951827696 = toTm c ∧ timegm (toTm c) = (951827696, toTm c) :=
  gmtimeR_civil (by decide) (by decide)

/-! ## Fields out of range -/

/-- The loop over the days takes the table for the lengths of the months: the 32nd of January
becomes the 32nd of February. -/
example : (timegm ⟨0, 0, 0, 32, 0, 70, 0, 0, 0⟩).1 = 62 * 86400 := by decide

end Gd32Vw553h.Libc
