/-
  Drivers/Pwm.lean --- period and pulse of a PWM channel (`src/libraries/gd32_drivers/drv_pwm.c`).

  `drv_pwm_set` turns nanoseconds into a prescaler, an auto-reload and a compare value;
  `drv_pwm_get` turns the three registers back into nanoseconds.  With `tick` for the
  prescaled timer tick in units of 1/clock nanoseconds, setting is a division by `tick` and
  two clamps (`drvPwmSet_eq`).  Getting multiplies in 32 bits, takes the compare value for
  one less than it is, and takes two prescaler values for clock divisions.

  64-bit products stay below 2^45 and are modelled in `Nat`; `% 2 ^ 32` stands where the
  source has a 32-bit type.  `rcu_clock_freq_get` and the constants `TIMER_CKDIV_DIV2` and
  `TIMER_CKDIV_DIV4` belong to the vendor library and are parameters.
-/
import Mathlib.Tactic.Common
import Mathlib.Tactic.Linarith

set_option autoImplicit false

namespace Gd32Vw553h.Drivers

/-! ## Setting and getting -/

/-- `MAX_PERIOD` -/
abbrev maxPeriod : Nat := 65535

/-- `MIN_PERIOD` -/
abbrev minPeriod : Nat := 3

/-- `MIN_PULSE` -/
abbrev minPulse : Nat := 2

/-- The registers of a timer that a PWM channel uses. -/
structure PwmRegisters where
  prescaler : Nat
  autoreload : Nat
  compare : Nat
  deriving DecidableEq

/-- `tim_clock`, in MHz -/
def timClock (ckSys : Nat) : Nat := ckSys / 1000000

/-- `period` in timer ticks, before it is stored in an `rt_uint32_t`. -/
def periodTicks (clock period : Nat) : Nat := period * clock / 1000

/-- `psc` -/
def pwmScale (clock period : Nat) : Nat := periodTicks clock period % 2 ^ 32 / maxPeriod + 1

/-- `period` in prescaled ticks, before it is stored. -/
def periodScaled (clock period : Nat) : Nat :=
  periodTicks clock period % 2 ^ 32 / pwmScale clock period

/-- `pulse` in prescaled ticks, before it is stored. -/
def pulseScaled (clock period pulse : Nat) : Nat :=
  pulse * clock / pwmScale clock period / 1000

/-- `drv_pwm_set` -/
def drvPwmSet (ckSys period pulse : Nat) : PwmRegisters :=
  let clock := timClock ckSys
  let psc := pwmScale clock period
  let ticks := periodScaled clock period % 2 ^ 32
  let ticks := if ticks < minPeriod then minPeriod else ticks
  let width := pulseScaled clock period pulse % 2 ^ 32
  let width :=
    if width < minPulse then minPulse
    else if width > ticks then ticks
    else width
  { prescaler := psc - 1
    autoreload := ticks - 1
    compare := width }

/-- The nanoseconds of so many prescaled ticks, with a 32-bit product. -/
def ticksToNs (count psc clock : Nat) : Nat :=
  count % 2 ^ 32 * (psc + 1) % 2 ^ 32 * 1000 % 2 ^ 32 / clock

/-- `drv_pwm_get`: period and pulse. -/
def drvPwmGet (div2 div4 ckSys : Nat) (registers : PwmRegisters) : Nat × Nat :=
  let psc := registers.prescaler % 2 ^ 16
  let timClock := if psc = div2 then ckSys / 2 else if psc = div4 then ckSys / 4 else ckSys
  let clock := timClock / 1000000
  (ticksToNs (registers.autoreload + 1) psc clock, ticksToNs (registers.compare + 1) psc clock)

/-! ## What is programmed -/

section Set

variable {clock period pulse other : Nat}

/-- No 32-bit variable loses bits. -/
theorem periodTicks_le (hclock : clock < 1000) (hperiod : period < 2 ^ 32) :
    periodTicks clock period ≤ 4290672327 := by
  have hmul : period * clock ≤ 4294967295 * 999 := Nat.mul_le_mul (by omega) (by omega)
  unfold periodTicks
  omega

theorem periodTicks_lt (hclock : clock < 1000) (hperiod : period < 2 ^ 32) :
    periodTicks clock period < 2 ^ 32 :=
  (periodTicks_le hclock hperiod).trans_lt (by decide)

/-- The length of a prescaled tick, in units of 1/clock nanoseconds. -/
def pwmTick (clock period : Nat) : Nat := 1000 * pwmScale clock period

theorem pwmScale_eq (hclock : clock < 1000) (hperiod : period < 2 ^ 32) :
    pwmScale clock period = periodTicks clock period / maxPeriod + 1 := by
  rw [pwmScale, Nat.mod_eq_of_lt (periodTicks_lt hclock hperiod)]

theorem pwmScale_pos : 0 < pwmScale clock period := Nat.succ_pos _

/-- Two divisions in a row are one. -/
theorem periodScaled_eq (hclock : clock < 1000) (hperiod : period < 2 ^ 32) :
    periodScaled clock period = period * clock / pwmTick clock period := by
  rw [periodScaled, Nat.mod_eq_of_lt (periodTicks_lt hclock hperiod), periodTicks,
    Nat.div_div_eq_div_mul, pwmTick]

theorem pulseScaled_eq : pulseScaled clock period pulse = pulse * clock / pwmTick clock period := by
  rw [pulseScaled, Nat.div_div_eq_div_mul, Nat.mul_comm, pwmTick, Nat.mul_comm 1000,
    Nat.mul_comm clock]

/-- The scaled period fits the 16-bit counter. -/
theorem periodScaled_lt (hclock : clock < 1000) (hperiod : period < 2 ^ 32) :
    periodScaled clock period < maxPeriod := by
  rw [periodScaled, pwmScale_eq hclock hperiod, Nat.mod_eq_of_lt (periodTicks_lt hclock hperiod)]
  refine (Nat.div_lt_iff_lt_mul (Nat.succ_pos _)).mpr ?_
  exact Nat.lt_mul_div_succ _ (by decide)

theorem pulseScaled_lt (hclock : clock < 1000) (hpulse : pulse < 2 ^ 32) :
    pulseScaled clock period pulse < 2 ^ 32 := by
  rw [pulseScaled_eq]
  refine (Nat.div_lt_iff_lt_mul (Nat.mul_pos (by decide) pwmScale_pos)).mpr ?_
  calc pulse * clock ≤ pulse * 1000 := Nat.mul_le_mul_left pulse hclock.le
    _ < 2 ^ 32 * 1000 := Nat.mul_lt_mul_of_pos_right hpulse (by decide)
    _ ≤ 2 ^ 32 * pwmTick clock period :=
      Nat.mul_le_mul_left _ (Nat.le_mul_of_pos_right 1000 pwmScale_pos)

theorem pwmScale_le (hclock : clock < 1000) (hperiod : period < 2 ^ 32) :
    pwmScale clock period ≤ 65472 := by
  have hticks := periodTicks_le hclock hperiod
  rw [pwmScale_eq hclock hperiod]
  have hdiv : periodTicks clock period / maxPeriod < 65472 :=
    (Nat.div_lt_iff_lt_mul (by decide)).mpr (hticks.trans_lt (by decide))
  omega

/-- A period of at least three ticks is not clamped. -/
theorem minPeriod_le_periodScaled (hclock : clock < 1000) (hperiod : period < 2 ^ 32)
    (hticks : minPeriod ≤ periodTicks clock period) : minPeriod ≤ periodScaled clock period := by
  rw [periodScaled, Nat.mod_eq_of_lt (periodTicks_lt hclock hperiod), pwmScale_eq hclock hperiod]
  refine (Nat.le_div_iff_mul_le (Nat.succ_pos _)).mpr ?_
  by_cases hsmall : periodTicks clock period < maxPeriod
  · rw [Nat.div_eq_of_lt hsmall]
    exact hticks
  · -- The scale is at most two more than the ticks in units of the largest period.
    have hmul := Nat.div_mul_le_self (periodTicks clock period) maxPeriod
    have hone : 1 ≤ periodTicks clock period / maxPeriod :=
      Nat.div_pos (Nat.le_of_not_lt hsmall) (by decide)
    have hle : minPeriod * (periodTicks clock period / maxPeriod + 1) ≤
        periodTicks clock period / maxPeriod * maxPeriod := by
      simp only [minPeriod, maxPeriod] at hone ⊢
      omega
    exact hle.trans hmul

/-- What `drv_pwm_set` programs. -/
theorem drvPwmSet_eq {ckSys : Nat} (hclock : timClock ckSys < 1000) (hperiod : period < 2 ^ 32)
    (hpulse : pulse < 2 ^ 32) :
    drvPwmSet ckSys period pulse =
      { prescaler := pwmScale (timClock ckSys) period - 1
        autoreload := max minPeriod (periodScaled (timClock ckSys) period) - 1
        compare := max minPulse (min (pulseScaled (timClock ckSys) period pulse)
          (max minPeriod (periodScaled (timClock ckSys) period))) } := by
  have hlt := periodScaled_lt hclock hperiod
  unfold drvPwmSet
  dsimp only
  rw [Nat.mod_eq_of_lt (hlt.trans (by decide)), Nat.mod_eq_of_lt (pulseScaled_lt hclock hpulse)]
  have hmax : (if periodScaled (timClock ckSys) period < minPeriod then minPeriod
      else periodScaled (timClock ckSys) period) =
      max minPeriod (periodScaled (timClock ckSys) period) := by
    split <;> simp only [minPeriod] at * <;> omega
  simp only [hmax, PwmRegisters.mk.injEq, true_and]
  simp only [minPulse, minPeriod] at *
  split
  · omega
  · split <;> omega

/-- What is programmed for each period and pulse. -/
theorem drvPwmSet_spec (ckSys : Nat) (hclock : 1 ≤ timClock ckSys ∧ timClock ckSys < 1000)
    (hperiod : period < 2 ^ 32) (hpulse : pulse < 2 ^ 32) (hother : other < 2 ^ 32) :
    let registers := drvPwmSet ckSys period pulse
    registers.prescaler ≤ 65535 ∧
    (2 ≤ registers.autoreload ∧ registers.autoreload ≤ 65534) ∧
    (2 ≤ registers.compare ∧ registers.compare ≤ registers.autoreload + 1) ∧
    (periodTicks (timClock ckSys) period < 2 ^ 32 ∧ periodScaled (timClock ckSys) period < 2 ^ 32 ∧
      pulseScaled (timClock ckSys) period pulse < 2 ^ 32) ∧
    (pulse ≤ other → registers.compare ≤ (drvPwmSet ckSys period other).compare) ∧
    (minPeriod ≤ periodTicks (timClock ckSys) period → pulse = period →
      registers.compare = registers.autoreload + 1) := by
  have hscale := pwmScale_le hclock.2 hperiod
  have hscaled := periodScaled_lt hclock.2 hperiod
  have hmono : pulse ≤ other → pulseScaled (timClock ckSys) period pulse ≤
      pulseScaled (timClock ckSys) period other := by
    intro hle
    rw [pulseScaled_eq, pulseScaled_eq]
    exact Nat.div_le_div_right (Nat.mul_le_mul_right _ hle)
  dsimp only
  rw [drvPwmSet_eq hclock.2 hperiod hpulse, drvPwmSet_eq hclock.2 hperiod hother]
  refine ⟨by dsimp only; omega, ?_, ?_, ⟨periodTicks_lt hclock.2 hperiod,
    hscaled.trans (by decide), pulseScaled_lt hclock.2 hpulse⟩, fun hle => ?_,
    fun hticks heq => ?_⟩
  · simp only [minPeriod, maxPeriod] at hscaled ⊢
    omega
  · simp only [minPeriod, minPulse]
    omega
  · have hle := hmono hle
    simp only [minPeriod, minPulse]
    omega
  · have hmin := minPeriod_le_periodScaled hclock.2 hperiod hticks
    have hsame : pulseScaled (timClock ckSys) period pulse =
        periodScaled (timClock ckSys) period := by
      rw [heq, pulseScaled_eq, periodScaled_eq hclock.2 hperiod]
    simp only [minPeriod, minPulse, hsame] at hmin ⊢
    omega

/-- One millisecond with a pulse of a quarter, at 160 MHz. -/
theorem drvPwmSet_quarter :
    let registers := drvPwmSet 160000000 1000000 250000
    registers = ⟨2, 53332, 13333⟩ ∧ registers.prescaler ≤ 65535 ∧
    (2 ≤ registers.autoreload ∧ registers.autoreload ≤ 65534) ∧
    (2 ≤ registers.compare ∧ registers.compare ≤ registers.autoreload + 1) ∧
    (periodTicks (timClock 160000000) 1000000 < 2 ^ 32 ∧
      periodScaled (timClock 160000000) 1000000 < 2 ^ 32 ∧
      pulseScaled (timClock 160000000) 1000000 250000 < 2 ^ 32) ∧
    (250000 ≤ 500000 → registers.compare ≤ (drvPwmSet 160000000 1000000 500000).compare) ∧
    (minPeriod ≤ periodTicks (timClock 160000000) 1000000 → 250000 = 1000000 →
      registers.compare = registers.autoreload + 1) :=
  ⟨by decide, drvPwmSet_spec 160000000 (by decide) (by decide) (by decide) (by decide)⟩

/-- A period of one tick is made three ticks long, and its pulse two. -/
theorem not_fullDuty : drvPwmSet 160000000 10 10 = ⟨0, 2, 2⟩ ∧
    (drvPwmSet 160000000 10 10).compare ≠ (drvPwmSet 160000000 10 10).autoreload + 1 := by
  decide

end Set

/-! ## What is read back -/

section Get

variable {clock period pulse tick q w div2 div4 : Nat}

/-- At most one prescaled tick lies between these times, in units of 1/clock nanoseconds. -/
def WithinTick (clock tick configured read : Nat) : Prop :=
  read * clock ≤ configured * clock + tick ∧ configured * clock ≤ read * clock + tick

/-- What is read back is close to what has been set. -/
structure ReadsBack (clock tick period pulse : Nat) (read : Nat × Nat) : Prop where
  withinPeriod : WithinTick clock tick period read.1
  withinPulse : WithinTick clock tick pulse read.2
  le : read.2 ≤ read.1

/-- The period, in units of 1/clock nanoseconds, fits 32 bits when it is cut to whole ticks, and
what is cut off does not reach into the last, broken nanosecond of a tick; the pulse has two
ticks, but for a broken nanosecond, and fewer than the period. -/
def Recoverable (clock tick period pulse : Nat) : Prop :=
  period * clock / tick * tick < 2 ^ 32 ∧
  period * clock % tick ≤ tick / clock * clock ∧
  2 * tick ≤ pulse * clock + 3 * tick % clock ∧
  pulse * clock / tick < period * clock / tick

theorem ticksToNs_eq (count psc clock : Nat) :
    ticksToNs count psc clock = count * (1000 * (psc + 1)) % 2 ^ 32 / clock := by
  have hmod := Nat.mod_mul_mod (count % 2 ^ 32 * (psc + 1)) 1000 (2 ^ 32)
  have hmod' := Nat.mod_mul_mod count ((psc + 1) * 1000) (2 ^ 32)
  rw [ticksToNs, hmod, Nat.mul_assoc, hmod', Nat.mul_comm (psc + 1)]

/-- The arithmetic of `ReadsBack`, when the clock is read back as it was. -/
theorem withinTick_iff (hclock : 0 < clock) (htick : clock < tick) (htick' : tick ≤ 65472000)
    (hq : period * clock / tick = q) (hw : pulse * clock / tick = w) (hq3 : 3 ≤ q) (hwq : w ≤ q) :
    (WithinTick clock tick period (q * tick % 2 ^ 32 / clock) ∧
      WithinTick clock tick pulse ((max 2 w + 1) * tick % 2 ^ 32 / clock) ∧
      (max 2 w + 1) * tick % 2 ^ 32 / clock ≤ q * tick % 2 ^ 32 / clock) ↔
    Recoverable clock tick period pulse := by
  have hpos : 0 < tick := hclock.trans htick
  have hperiod := Nat.div_add_mod' (period * clock) tick
  have hcut := Nat.mod_lt (period * clock) hpos
  have hpulse := Nat.div_add_mod' (pulse * clock) tick
  have hrest := Nat.mod_lt (pulse * clock) hpos
  rw [hq] at hperiod
  rw [hw] at hpulse
  have hwtick : w * tick ≤ q * tick := Nat.mul_le_mul_right tick hwq
  have h3tick : 3 * tick ≤ q * tick := Nat.mul_le_mul_right tick hq3
  unfold WithinTick Recoverable
  rw [hq, hw]
  constructor
  · rintro ⟨⟨-, hbelow⟩, ⟨habove', hbelow'⟩, hle⟩
    -- A product that wraps is at least 2^32 too small.
    have hfit : q * tick < 2 ^ 32 := by
      by_contra hwrap
      have hread := Nat.div_mul_le_self (q * tick % 2 ^ 32) clock
      omega
    rw [Nat.mod_eq_of_lt hfit] at hbelow hle
    have hread := Nat.div_add_mod' (q * tick) clock
    refine ⟨hfit, ?_, ?_, ?_⟩
    · -- The difference is a whole number of nanoseconds.
      have hle' : q * tick / clock ≤ period := by
        refine Nat.div_le_of_le_mul ?_
        rw [Nat.mul_comm clock]
        omega
      have hdiff : (period - q * tick / clock) * clock ≤ tick := by
        rw [Nat.sub_mul]
        omega
      have hwhole := Nat.mul_le_mul_right clock ((Nat.le_div_iff_mul_le hclock).mpr hdiff)
      rw [Nat.sub_mul] at hwhole
      omega
    · by_cases htwo : 2 ≤ w
      · have hmul : 2 * tick ≤ w * tick := Nat.mul_le_mul_right tick htwo
        omega
      · have hmax : max 2 w + 1 = 3 := by omega
        have hread' := Nat.div_add_mod' (3 * tick) clock
        rw [hmax, Nat.mod_eq_of_lt (h3tick.trans_lt hfit)] at habove'
        omega
    · by_contra hnot
      obtain rfl : w = q := Nat.le_antisymm hwq (Nat.le_of_not_lt hnot)
      have hmax : max 2 w + 1 = w + 1 := by omega
      rw [hmax, Nat.succ_mul] at hbelow' hle
      by_cases hwrap : w * tick + tick < 2 ^ 32
      · rw [Nat.mod_eq_of_lt hwrap] at hle
        have hmore : w * tick / clock + 1 ≤ (w * tick + tick) / clock := by
          rw [← Nat.add_div_right _ hclock]
          exact Nat.div_le_div_right (by omega)
        omega
      · have hread' := Nat.div_mul_le_self ((w * tick + tick) % 2 ^ 32) clock
        omega
  · rintro ⟨hfit, hbroken, htwo, hlt⟩
    have hmax : (max 2 w + 1) * tick ≤ q * tick := Nat.mul_le_mul_right tick (by omega)
    rw [Nat.mod_eq_of_lt hfit, Nat.mod_eq_of_lt (hmax.trans_lt hfit)]
    have hread := Nat.div_add_mod' (q * tick) clock
    have hmod := Nat.mod_lt (q * tick) hclock
    refine ⟨⟨by omega, ?_⟩, ?_, Nat.div_le_div_right hmax⟩
    · have hdiff : period - q * tick / clock < tick / clock + 1 := by
        refine Nat.lt_of_mul_lt_mul_right (a := clock) ?_
        rw [Nat.sub_mul, Nat.succ_mul]
        omega
      have hwhole := Nat.mul_le_mul_right clock (Nat.le_of_lt_succ hdiff)
      have hle := Nat.div_mul_le_self tick clock
      rw [Nat.sub_mul] at hwhole
      omega
    · have hread' := Nat.div_add_mod' ((max 2 w + 1) * tick) clock
      have hmod' := Nat.mod_lt ((max 2 w + 1) * tick) hclock
      by_cases hw2 : 2 ≤ w
      · have heq : (max 2 w + 1) * tick = w * tick + tick := by
          rw [Nat.max_eq_right hw2, Nat.succ_mul]
        rw [heq] at hread' hmod' ⊢
        omega
      · have heq : max 2 w + 1 = 3 := by omega
        have hless : w * tick ≤ 1 * tick := Nat.mul_le_mul_right tick (by omega)
        rw [heq] at hread' hmod' ⊢
        omega

/-- The ticks of the period lie in the range of the scale. -/
theorem periodTicks_of_scale (hclock : clock < 1000) (hperiod : period < 2 ^ 32) {n : Nat}
    (hscale : pwmScale clock period = n + 1) :
    maxPeriod * n ≤ periodTicks clock period ∧
      periodTicks clock period < (periodScaled clock period + 1) * (n + 1) := by
  have heq := pwmScale_eq hclock hperiod
  have hn : periodTicks clock period / maxPeriod = n := by omega
  refine ⟨?_, ?_⟩
  · rw [← hn]
    exact Nat.mul_div_le _ _
  · rw [periodScaled, Nat.mod_eq_of_lt (periodTicks_lt hclock hperiod), hscale, Nat.mul_comm]
    exact Nat.lt_mul_div_succ _ (Nat.succ_pos n)

/-- A clock that is divided by `d` is read back as nothing like the period.  `n` is the
prescaler, and `a` how often the product of the tick count wraps. -/
theorem not_withinTick_divided {n k c a : Nat} (hclock : clock < 1000)
    (hperiod : period < 2 ^ 32) (hscale : pwmScale clock period = n + 1)
    (hk : 2 * clock ≤ c * k)
    (hwrap : ∀ q, maxPeriod * n < (q + 1) * (n + 1) → q < maxPeriod →
      a * 2 ^ 32 ≤ q * (1000 * (n + 1)) ∧ q * (1000 * (n + 1)) < a * 2 ^ 32 + 2 ^ 32 ∧
      c * (q * (1000 * (n + 1)) - a * 2 ^ 32) + 2 * (1000 * (n + 1)) <
        2 * (q * (1000 * (n + 1)))) :
    ¬ WithinTick clock (pwmTick clock period) period
      (periodScaled clock period * pwmTick clock period % 2 ^ 32 / k) := by
  rintro ⟨-, hbelow⟩
  obtain ⟨hlow, hhigh⟩ := periodTicks_of_scale hclock hperiod hscale
  have hcut : periodScaled clock period * pwmTick clock period ≤ period * clock := by
    rw [periodScaled_eq hclock hperiod]
    exact Nat.div_mul_le_self _ _
  obtain ⟨hge, hlt, hfar⟩ := hwrap _ (hlow.trans_lt hhigh) (periodScaled_lt hclock hperiod)
  have htick : pwmTick clock period = 1000 * (n + 1) := by rw [pwmTick, hscale]
  rw [htick] at hbelow hcut
  -- The product without the 32-bit words that it has lost.
  have hmod : periodScaled clock period * (1000 * (n + 1)) % 2 ^ 32 =
      periodScaled clock period * (1000 * (n + 1)) - a * 2 ^ 32 := by
    have hsplit := Nat.sub_add_cancel hge
    rw [← hsplit, Nat.add_mul_mod_self_right, Nat.add_sub_cancel]
    exact Nat.mod_eq_of_lt (by omega)
  rw [hmod] at hbelow
  have hread := Nat.div_mul_le_self
    (periodScaled clock period * (1000 * (n + 1)) - a * 2 ^ 32) k
  have hscaled : 2 * ((periodScaled clock period * (1000 * (n + 1)) - a * 2 ^ 32) / k * clock) ≤
      c * (periodScaled clock period * (1000 * (n + 1)) - a * 2 ^ 32) := by
    calc 2 * ((periodScaled clock period * (1000 * (n + 1)) - a * 2 ^ 32) / k * clock)
        = (periodScaled clock period * (1000 * (n + 1)) - a * 2 ^ 32) / k * (2 * clock) := by
          rw [Nat.mul_left_comm]
      _ ≤ (periodScaled clock period * (1000 * (n + 1)) - a * 2 ^ 32) / k * (c * k) :=
          Nat.mul_le_mul_left _ hk
      _ = c * ((periodScaled clock period * (1000 * (n + 1)) - a * 2 ^ 32) / k * k) := by
          rw [Nat.mul_left_comm]
      _ ≤ _ := Nat.mul_le_mul_left c hread
  omega

/-- With a prescaler of 256 or 512 the product always wraps. -/
theorem not_withinTick_special (hclock : clock < 1000) (hperiod : period < 2 ^ 32) :
    (pwmScale clock period = 257 → ¬ WithinTick clock (pwmTick clock period) period
      (periodScaled clock period * pwmTick clock period % 2 ^ 32 / (clock / 2))) ∧
    (pwmScale clock period = 513 → ¬ WithinTick clock (pwmTick clock period) period
      (periodScaled clock period * pwmTick clock period % 2 ^ 32 / (clock / 4))) := by
  -- Such prescalers take a clock of at least 4 and 8 MHz.
  have hfast : ∀ n m, pwmScale clock period = n + 1 → m * 4294967296 / 1000 < 65535 * n →
      m < clock := by
    intro n m hscale hm
    by_contra hslow
    have hmul : period * clock ≤ 4294967296 * m :=
      Nat.mul_le_mul hperiod.le (Nat.le_of_not_lt hslow)
    have hticks := (periodTicks_of_scale hclock hperiod hscale).1
    simp only [maxPeriod, periodTicks] at hticks
    omega
  refine ⟨fun hscale => ?_, fun hscale => ?_⟩
  · have h3 := hfast 256 3 hscale (by decide)
    refine not_withinTick_divided (n := 256) (c := 5) (a := 3) hclock hperiod hscale (by omega)
      fun q hlow hhigh => ?_
    simp only [maxPeriod] at hlow hhigh
    omega
  · have h7 := hfast 512 7 hscale (by decide)
    refine not_withinTick_divided (n := 512) (c := 11) (a := 7) hclock hperiod hscale (by omega)
      fun q hlow hhigh => ?_
    simp only [maxPeriod] at hlow hhigh
    omega

/-- `PWM_CMD_GET` after `PWM_CMD_SET` returns what has been set exactly when the values are
`Recoverable`. -/
theorem drvPwmGet_undoes_iff (hdiv2 : div2 = 0x100) (hdiv4 : div4 = 0x200)
    (hclock : 1 ≤ clock ∧ clock < 1000) (hperiod : period < 2 ^ 32) (hle : pulse ≤ period)
    (hmin : minPeriod ≤ periodTicks clock pulse) :
    ReadsBack clock (pwmTick clock period) period pulse
      (drvPwmGet div2 div4 (clock * 1000000) (drvPwmSet (clock * 1000000) period pulse)) ↔
    Recoverable clock (pwmTick clock period) period pulse := by
  have hsys : timClock (clock * 1000000) = clock := Nat.mul_div_cancel clock (by decide)
  have hscale := pwmScale_le hclock.2 hperiod
  have hpos : 0 < pwmScale clock period := pwmScale_pos
  have hticks : minPeriod ≤ periodTicks clock period :=
    hmin.trans (Nat.div_le_div_right (Nat.mul_le_mul_right clock hle))
  have hq := minPeriod_le_periodScaled hclock.2 hperiod hticks
  have hwq : pulseScaled clock period pulse ≤ periodScaled clock period := by
    rw [pulseScaled_eq, periodScaled_eq hclock.2 hperiod]
    exact Nat.div_le_div_right (Nat.mul_le_mul_right clock hle)
  have hset : drvPwmSet (clock * 1000000) period pulse =
      { prescaler := pwmScale clock period - 1
        autoreload := periodScaled clock period - 1
        compare := max 2 (pulseScaled clock period pulse) } := by
    rw [drvPwmSet_eq (by rw [hsys]; exact hclock.2) hperiod (hle.trans_lt hperiod), hsys,
      Nat.max_eq_right hq, Nat.min_eq_left hwq]
  have hpsc : (pwmScale clock period - 1) % 2 ^ 16 = pwmScale clock period - 1 :=
    Nat.mod_eq_of_lt (by omega)
  have hback : periodScaled clock period - 1 + 1 = periodScaled clock period :=
    Nat.sub_add_cancel ((by decide : 1 ≤ minPeriod).trans hq)
  have hback' : pwmScale clock period - 1 + 1 = pwmScale clock period := Nat.sub_add_cancel hpos
  rw [hset]
  unfold drvPwmGet
  dsimp only
  rw [hpsc, hback, ticksToNs_eq, ticksToNs_eq, hback', ← pwmTick]
  -- A product that wraps is one of the ways not to be recoverable.
  have hwide : ∀ n, pwmScale clock period = n + 1 →
      (∀ q, 65535 * n < (q + 1) * (n + 1) → 2 ^ 32 ≤ q * (1000 * (n + 1))) →
      ¬ Recoverable clock (pwmTick clock period) period pulse := by
    intro n hn hlarge hrec
    have hfit := hrec.1
    obtain ⟨hlow, hhigh⟩ := periodTicks_of_scale hclock.2 hperiod hn
    rw [← periodScaled_eq hclock.2 hperiod, pwmTick, hn] at hfit
    exact absurd hfit (Nat.not_lt.mpr (hlarge _ (hlow.trans_lt hhigh)))
  obtain ⟨hspecial2, hspecial4⟩ := not_withinTick_special hclock.2 hperiod
  by_cases h2 : pwmScale clock period - 1 = div2
  · have hscale2 : pwmScale clock period = 257 := by omega
    have hclock2 : clock * 1000000 / 2 / 1000000 = clock / 2 := by omega
    rw [if_pos h2, hclock2]
    exact iff_of_false (fun h => hspecial2 hscale2 h.withinPeriod)
      (hwide 256 hscale2 fun q hq => by omega)
  · rw [if_neg h2]
    by_cases h4 : pwmScale clock period - 1 = div4
    · have hscale4 : pwmScale clock period = 513 := by omega
      have hclock4 : clock * 1000000 / 4 / 1000000 = clock / 4 := by omega
      rw [if_pos h4, hclock4]
      exact iff_of_false (fun h => hspecial4 hscale4 h.withinPeriod)
        (hwide 512 hscale4 fun q hq => by omega)
    · rw [if_neg h4, Nat.mul_div_cancel clock (by decide)]
      have htick : clock < pwmTick clock period := by
        unfold pwmTick
        omega
      have htick' : pwmTick clock period ≤ 65472000 := by
        unfold pwmTick
        omega
      have harith := withinTick_iff hclock.1 htick htick'
        (periodScaled_eq hclock.2 hperiod).symm (@pulseScaled_eq clock period pulse).symm hq hwq
      exact ⟨fun h => harith.mp ⟨h.withinPeriod, h.withinPulse, h.le⟩, fun h =>
        ⟨(harith.mpr h).1, (harith.mpr h).2.1, (harith.mpr h).2.2⟩⟩

end Get

/-- Ten microseconds with a pulse of a quarter, at 160 MHz. -/
theorem drvPwmGet_undoes_quarter :
    drvPwmGet 0x100 0x200 (160 * 1000000) (drvPwmSet (160 * 1000000) 10000 2500) = (10000, 2506) ∧
    (ReadsBack 160 (pwmTick 160 10000) 10000 2500
      (drvPwmGet 0x100 0x200 (160 * 1000000) (drvPwmSet (160 * 1000000) 10000 2500)) ↔
    Recoverable 160 (pwmTick 160 10000) 10000 2500) :=
  ⟨by decide, drvPwmGet_undoes_iff rfl rfl (by decide) (by decide) (by decide) (by decide)⟩

/-- A pulse of the whole period is read back longer than the period; a period of 100 ms loses
whole 32-bit words. -/
theorem not_readsBack :
    (drvPwmGet 0x100 0x200 (160 * 1000000) (drvPwmSet (160 * 1000000) 10000 10000) =
        (10000, 10006) ∧
      ¬ ReadsBack 160 (pwmTick 160 10000) 10000 10000
        (drvPwmGet 0x100 0x200 (160 * 1000000) (drvPwmSet (160 * 1000000) 10000 10000))) ∧
    (drvPwmGet 0x100 0x200 (160 * 1000000) (drvPwmSet (160 * 1000000) 100000000 50000000) =
        (19469175, 23157891) ∧
      ¬ ReadsBack 160 (pwmTick 160 100000000) 100000000 50000000
        (drvPwmGet 0x100 0x200 (160 * 1000000)
          (drvPwmSet (160 * 1000000) 100000000 50000000))) := by
  refine ⟨⟨by decide, fun h => absurd h.le (by decide)⟩, by decide,
    fun h => absurd h.withinPeriod.2 (by decide)⟩

end Gd32Vw553h.Drivers
