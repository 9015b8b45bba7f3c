/-
  Foundation/Calendar.lean --- the Gregorian calendar, counted from the first day of a year.

  Consecutive blocks of days cover the natural numbers, each number once (`inBlock_unique`,
  `exists_inBlock`).  Years are such blocks, and the months of a year are blocks in it.  So each
  number is that of one date (`Date.dayNumber_injective`, `Date.exists_dayNumber`) and each second
  that of one civil time (`Civil.existsUnique_seconds`).  Months are counted from zero, as in C.
-/
import Mathlib.Order.Basic
import Mathlib.Tactic.Common

set_option autoImplicit false

namespace Gd32Vw553h.Foundation

/-! ## Blocks -/

section Blocks

variable (length : Nat → Nat)

/-- Where block `k` begins. -/
def blockStart : Nat → Nat
  | 0 => 0
  | k + 1 => blockStart k + length k

/-- The number lies in block `k`. -/
def InBlock (k n : Nat) : Prop := blockStart length k ≤ n ∧ n < blockStart length (k + 1)

variable {length} {j k n : Nat}

theorem blockStart_le (h : j ≤ k) : blockStart length j ≤ blockStart length k := by
  induction h with
  | refl => exact Nat.le_refl _
  | step _ ih => exact Nat.le_trans ih (Nat.le_add_right _ _)

/-- A number lies in one block. -/
theorem inBlock_unique (hj : InBlock length j n) (hk : InBlock length k n) : j = k := by
  have hle : ∀ {j k}, InBlock length j n → InBlock length k n → j ≤ k := by
    intro j k hj hk
    by_contra hlt
    have hstart : blockStart length (k + 1) ≤ blockStart length j :=
      blockStart_le (Nat.lt_of_not_le hlt)
    exact absurd (Nat.lt_of_lt_of_le hk.2 hstart) (Nat.not_lt.mpr hj.1)
  exact Nat.le_antisymm (hle hj hk) (hle hk hj)

theorem exists_inBlock_lt (h : n < blockStart length k) : ∃ j, j < k ∧ InBlock length j n := by
  induction k with
  | zero => exact absurd h (Nat.not_lt_zero n)
  | succ k ih =>
    by_cases hlt : n < blockStart length k
    · obtain ⟨j, hj, hin⟩ := ih hlt
      exact ⟨j, Nat.lt_succ_of_lt hj, hin⟩
    · exact ⟨k, Nat.lt_succ_self k, Nat.le_of_not_lt hlt, h⟩

theorem le_blockStart (hpos : ∀ k, 0 < length k) (k : Nat) : k ≤ blockStart length k := by
  induction k with
  | zero => exact Nat.le_refl _
  | succ k ih => exact Nat.add_le_add ih (hpos k)

/-- Blocks that are not empty cover everything. -/
theorem exists_inBlock (hpos : ∀ k, 0 < length k) (n : Nat) : ∃ k, InBlock length k n := by
  obtain ⟨k, -, hin⟩ := exists_inBlock_lt (le_blockStart hpos (n + 1))
  exact ⟨k, hin⟩

end Blocks

/-! ## Years and months -/

/-- Every fourth year, but not the centuries, but every fourth century. -/
def IsLeap (year : Nat) : Prop := year % 4 = 0 ∧ (year % 100 ≠ 0 ∨ year % 400 = 0)

instance (year : Nat) : Decidable (IsLeap year) := inferInstanceAs (Decidable (_ ∧ _))

def yearDays (year : Nat) : Nat := if IsLeap year then 366 else 365

def monthDays (year month : Nat) : Nat :=
  if month = 1 then if IsLeap year then 29 else 28
  else if month = 3 ∨ month = 5 ∨ month = 8 ∨ month = 10 then 30 else 31

/-- The days of a year before a month. -/
def daysToMonth (year month : Nat) : Nat := blockStart (monthDays year) month

/-- The days before a year. -/
def daysToYear (origin year : Nat) : Nat :=
  blockStart (fun i => yearDays (origin + i)) (year - origin)

theorem yearDays_pos (year : Nat) : 0 < yearDays year := by
  unfold yearDays
  split <;> decide

/-- One more leap year, in the closed form of their number. -/
theorem yearDays_succ (y : Nat) :
    yearDays (y + 1) + (y + 1) / 100 + y / 4 + y / 400 =
      365 + y / 100 + (y + 1) / 4 + (y + 1) / 400 := by
  by_cases hleap : IsLeap (y + 1)
  · rw [yearDays, if_pos hleap]
    obtain ⟨h4, h100⟩ := hleap
    by_cases hcentury : (y + 1) % 100 = 0
    · have h400 := h100.resolve_left (not_not.mpr hcentury)
      omega
    · omega
  · rw [yearDays, if_neg hleap]
    unfold IsLeap at hleap
    by_cases h4 : (y + 1) % 4 = 0
    · have hcentury : (y + 1) % 100 = 0 := by tauto
      have h400 : ¬ (y + 1) % 400 = 0 := by tauto
      omega
    · omega

/-- The days of so many years behind the year `year`, in closed form. -/
theorem blockStart_yearDays (year k : Nat) :
    blockStart (fun i => yearDays (year + 1 + i)) k + (year + k) / 100 + year / 4 + year / 400 =
      365 * k + year / 100 + (year + k) / 4 + (year + k) / 400 := by
  induction k with
  | zero =>
    show 0 + year / 100 + year / 4 + year / 400 = 0 + year / 100 + year / 4 + year / 400
    rfl
  | succ k ih =>
    have hnext : blockStart (fun i => yearDays (year + 1 + i)) (k + 1) =
        blockStart (fun i => yearDays (year + 1 + i)) k + yearDays (year + k + 1) := by
      rw [Nat.add_right_comm year k 1]
      rfl
    have hyear := yearDays_succ (year + k)
    rw [hnext, ← Nat.add_assoc year k 1]
    -- linear in the quotients
    generalize (year + k + 1) / 4 = a at hyear ⊢
    generalize (year + k + 1) / 100 = b at hyear ⊢
    generalize (year + k + 1) / 400 = c at hyear ⊢
    generalize (year + k) / 4 = a' at ih hyear ⊢
    generalize (year + k) / 100 = b' at ih hyear ⊢
    generalize (year + k) / 400 = c' at ih hyear ⊢
    generalize year / 4 = a'' at ih ⊢
    generalize year / 100 = b'' at ih ⊢
    generalize year / 400 = c'' at ih ⊢
    omega

/-- The months make up the year. -/
theorem daysToMonth_twelve (year : Nat) : daysToMonth year 12 = yearDays year := by
  by_cases h : IsLeap year
  · simp [daysToMonth, blockStart, monthDays, yearDays, h]
  · simp [daysToMonth, blockStart, monthDays, yearDays, h]

/-! ## Dates -/

/-- A day of the calendar, not before the year `origin`. -/
@[ext]
structure Date (origin : Nat) where
  year : Nat
  month : Nat
  day : Nat
  year_ge : origin ≤ year
  month_lt : month < 12
  day_pos : 1 ≤ day
  day_le : day ≤ monthDays year month

namespace Date

variable {origin : Nat}

/-- The days of the year before the date. -/
def yearDay (d : Date origin) : Nat := daysToMonth d.year d.month + (d.day - 1)

/-- The days since the first day of `origin`. -/
def dayNumber (d : Date origin) : Nat := daysToYear origin d.year + d.yearDay

theorem yearDay_inBlock (d : Date origin) : InBlock (monthDays d.year) d.month d.yearDay := by
  have hpos := d.day_pos
  have hle := d.day_le
  have hnext : blockStart (monthDays d.year) (d.month + 1) =
      daysToMonth d.year d.month + monthDays d.year d.month := rfl
  refine ⟨Nat.le_add_right _ _, ?_⟩
  rw [hnext, yearDay]
  omega

theorem yearDay_lt (d : Date origin) : d.yearDay < yearDays d.year := by
  have hnext := d.yearDay_inBlock.2
  rw [← daysToMonth_twelve]
  exact Nat.lt_of_lt_of_le hnext (blockStart_le d.month_lt)

theorem dayNumber_inBlock (d : Date origin) :
    InBlock (fun i => yearDays (origin + i)) (d.year - origin) d.dayNumber := by
  have hlt := d.yearDay_lt
  have hyear : origin + (d.year - origin) = d.year := Nat.add_sub_cancel' d.year_ge
  have hnext : blockStart (fun i => yearDays (origin + i)) (d.year - origin + 1) =
      daysToYear origin d.year + yearDays (origin + (d.year - origin)) := rfl
  refine ⟨Nat.le_add_right _ _, ?_⟩
  rw [hnext, hyear, dayNumber]
  exact Nat.add_lt_add_left hlt _

/-- The number of a day determines its date. -/
theorem dayNumber_injective : Function.Injective (@dayNumber origin) := by
  intro d e heq
  have hin := d.dayNumber_inBlock
  rw [heq] at hin
  have hblock := inBlock_unique hin e.dayNumber_inBlock
  have hd := d.year_ge
  have he := e.year_ge
  have hyear : d.year = e.year := by omega
  have hday : d.yearDay = e.yearDay := by
    unfold dayNumber at heq
    rw [hyear] at heq
    exact Nat.add_left_cancel heq
  have hmonths := d.yearDay_inBlock
  rw [hyear, hday] at hmonths
  have hmonth := inBlock_unique hmonths e.yearDay_inBlock
  have hdpos := d.day_pos
  have hepos := e.day_pos
  refine Date.ext hyear hmonth ?_
  unfold yearDay at hday
  rw [hyear, hmonth] at hday
  omega

/-- Every number is that of a day. -/
theorem exists_dayNumber (n : Nat) : ∃ d : Date origin, d.dayNumber = n := by
  obtain ⟨k, hle, hlt⟩ :=
    exists_inBlock (fun i => yearDays_pos (origin + i)) n
  have hnext : blockStart (fun i => yearDays (origin + i)) (k + 1) =
      blockStart (fun i => yearDays (origin + i)) k + yearDays (origin + k) := rfl
  rw [hnext] at hlt
  have hin : n - blockStart (fun i => yearDays (origin + i)) k <
      blockStart (monthDays (origin + k)) 12 := by
    have htwelve := daysToMonth_twelve (origin + k)
    unfold daysToMonth at htwelve
    omega
  obtain ⟨m, hm, hfirst, hlast⟩ := exists_inBlock_lt hin
  have hmonth : blockStart (monthDays (origin + k)) (m + 1) =
      blockStart (monthDays (origin + k)) m + monthDays (origin + k) m := rfl
  rw [hmonth] at hlast
  refine ⟨{
    year := origin + k
    month := m
    day := n - blockStart (fun i => yearDays (origin + i)) k -
      blockStart (monthDays (origin + k)) m + 1
    year_ge := Nat.le_add_right _ _
    month_lt := hm
    day_pos := Nat.le_add_left _ _
    day_le := by omega }, ?_⟩
  show blockStart (fun i => yearDays (origin + i)) (origin + k - origin) +
    (blockStart (monthDays (origin + k)) m + (_ + 1 - 1)) = n
  rw [Nat.add_sub_cancel_left]
  omega

end Date

/-! ## Civil times -/

/-- A date and a time of day. -/
@[ext]
structure Civil (origin : Nat) where
  date : Date origin
  hour : Nat
  min : Nat
  sec : Nat
  hour_lt : hour < 24
  min_lt : min < 60
  sec_lt : sec < 60

namespace Civil

variable {origin : Nat}

/-- The seconds since the beginning of `origin`. -/
def seconds (c : Civil origin) : Nat :=
  ((c.date.dayNumber * 24 + c.hour) * 60 + c.min) * 60 + c.sec

/-- Each second belongs to one civil time. -/
theorem existsUnique_seconds (t : Nat) : ∃! c : Civil origin, c.seconds = t := by
  obtain ⟨d, hd⟩ : ∃ d : Date origin, d.dayNumber = t / 86400 := Date.exists_dayNumber _
  refine ⟨⟨d, t / 3600 % 24, t / 60 % 60, t % 60, Nat.mod_lt _ (by decide),
    Nat.mod_lt _ (by decide), Nat.mod_lt _ (by decide)⟩, ?_, fun c hc => ?_⟩
  · show ((d.dayNumber * 24 + t / 3600 % 24) * 60 + t / 60 % 60) * 60 + t % 60 = t
    rw [hd]
    omega
  · have hhour := c.hour_lt
    have hmin := c.min_lt
    have hsec := c.sec_lt
    have ht : ((c.date.dayNumber * 24 + c.hour) * 60 + c.min) * 60 + c.sec = t := hc
    have hdate : c.date = d := Date.dayNumber_injective (by omega)
    refine Civil.ext hdate ?_ ?_ ?_
    · show c.hour = t / 3600 % 24
      omega
    · show c.min = t / 60 % 60
      omega
    · show c.sec = t % 60
      omega

end Civil

end Gd32Vw553h.Foundation
