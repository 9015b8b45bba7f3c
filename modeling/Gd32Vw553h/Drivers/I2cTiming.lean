/-
  Drivers/I2cTiming.lean --- the clock of the I2C master (`src/libraries/gd32_drivers/drv_i2c.c`).

  `gd32_i2c_timing_configure` computes the high and low periods of SCL in unsigned 32-bit
  arithmetic and programs half of the result into each of SCLH and SCLL.  Nothing checks
  that the subtractions stay above zero or that the halves fit the 8-bit fields.

  The peripheral clock is a parameter: `rcu_clock_freq_get` belongs to the vendor library.
-/
import Mathlib.Tactic.Common

set_option autoImplicit false

namespace Gd32Vw553h.Drivers

/-! ## The computation -/

/-- `clk_psc`: `I2C_CLK_PSC_LOW`, `I2C_CLK_PSC_STAND` -/
def clkPsc (speed : UInt32) : UInt8 :=
  if speed < 100 then 15
  else if speed ≤ 400 then 7
  else 7

/-- `scldely`: `I2C_SCLDELY_LOW`, `I2C_SCLDELY_FAST` -/
def scldely (speed : UInt32) : UInt8 :=
  if speed < 100 then 9
  else if speed ≤ 400 then 9
  else 3

/-- `I2C_SDADELY` -/
def i2cSdadely : UInt32 := 0

/-- The periods of the peripheral clock in one of SCL. -/
def sclPeriods (i2cFreq speed : UInt32) : UInt32 := i2cFreq / (1000 * speed)

/-- `clk_psc + 1` -/
def clkScale (speed : UInt32) : UInt32 := (clkPsc speed).toUInt32 + 1

/-- What is taken from the period for the data hold time. -/
def holdPeriods (speed : UInt32) : UInt32 := i2cSdadely * clkScale speed + 1

/-- What is taken from the period for the data setup time. -/
def setupPeriods (speed : UInt32) : UInt32 := ((scldely speed).toUInt32 + 1) * clkScale speed

/-- `sclh_scll` -/
def sclhScll (i2cFreq speed : UInt32) : UInt32 :=
  (sclPeriods i2cFreq speed - holdPeriods speed - setupPeriods speed) / clkScale speed - 2

/-- The values that `gd32_i2c_timing_configure` gives to `i2c_master_clock_config`. -/
def masterClockConfig (i2cFreq speed : UInt32) : UInt32 × UInt32 :=
  (sclhScll i2cFreq speed / 2, sclhScll i2cFreq speed / 2)

/-! ## When it is right -/

/-- No subtraction goes below zero, and both values fit 8 bits. -/
structure TimingFits (i2cFreq speed : UInt32) : Prop where
  hold : holdPeriods speed ≤ sclPeriods i2cFreq speed
  setup : setupPeriods speed ≤ sclPeriods i2cFreq speed - holdPeriods speed
  scale : 2 ≤ (sclPeriods i2cFreq speed - holdPeriods speed - setupPeriods speed) /
    clkScale speed
  sclh : (masterClockConfig i2cFreq speed).1 ≤ 255
  scll : (masterClockConfig i2cFreq speed).2 ≤ 255

/-- The peripheral clock is not too slow for the speed, and below 100 kHz not too fast. -/
def TimingRange (i2cFreq speed : Nat) : Prop :=
  if speed < 100 then 193000 * speed ≤ i2cFreq ∧ i2cFreq < 8385000 * speed
  else if speed ≤ 400 then 97000 * speed ≤ i2cFreq
  else 49000 * speed ≤ i2cFreq

variable {i2cFreq speed : UInt32}

theorem holdPeriods_toNat (speed : UInt32) : (holdPeriods speed).toNat = 1 := by
  rw [holdPeriods, i2cSdadely, UInt32.zero_mul, UInt32.zero_add]
  rfl

theorem sclPeriods_toNat (hspeed : speed.toNat ≤ 1000) :
    (sclPeriods i2cFreq speed).toNat = i2cFreq.toNat / (1000 * speed.toNat) := by
  rw [sclPeriods, UInt32.toNat_div, UInt32.toNat_mul]
  congr 1
  exact Nat.mod_eq_of_lt (by show 1000 * speed.toNat < 2 ^ 32; omega)

/-- In terms of the periods of the peripheral clock: two subtractions leave twice the
divisor, and the quotient is below 514. -/
theorem timingFits_iff_periods {d e n : Nat} (hd : (clkScale speed).toNat = d)
    (he : (setupPeriods speed).toNat = e) (hn : (sclPeriods i2cFreq speed).toNat = n)
    (hpos : 0 < d) : TimingFits i2cFreq speed ↔ 1 + e + 2 * d ≤ n ∧ n < 1 + e + 514 * d := by
  have hhold := holdPeriods_toNat speed
  -- What the unsigned subtractions are as long as they stay above zero.
  have hdiff : holdPeriods speed ≤ sclPeriods i2cFreq speed →
      setupPeriods speed ≤ sclPeriods i2cFreq speed - holdPeriods speed →
      1 + e ≤ n ∧ (sclPeriods i2cFreq speed - holdPeriods speed - setupPeriods speed).toNat =
        n - (1 + e) := by
    intro hle hle'
    have hsub := UInt32.toNat_sub_of_le _ _ hle
    have hsub' := UInt32.toNat_sub_of_le _ _ hle'
    rw [UInt32.le_iff_toNat_le] at hle hle'
    omega
  have hquot : 2 ≤ (sclPeriods i2cFreq speed - holdPeriods speed - setupPeriods speed) /
      clkScale speed → (sclhScll i2cFreq speed).toNat =
        ((sclPeriods i2cFreq speed - holdPeriods speed - setupPeriods speed).toNat / d) - 2 := by
    intro hle
    rw [sclhScll, UInt32.toNat_sub_of_le _ _ hle, UInt32.toNat_div, hd]
    rfl
  constructor
  · intro h
    obtain ⟨hn', hvalue⟩ := hdiff h.hold h.setup
    have hscale := h.scale
    have hhalf := h.sclh
    rw [UInt32.le_iff_toNat_le, UInt32.toNat_div, hd, hvalue] at hscale
    rw [masterClockConfig, UInt32.le_iff_toNat_le, UInt32.toNat_div, hquot h.scale, hvalue]
      at hhalf
    have hlow : 2 ≤ (n - (1 + e)) / d := hscale
    have hhigh : ((n - (1 + e)) / d - 2) / 2 ≤ 255 := hhalf
    have hmul := (Nat.le_div_iff_mul_le hpos).mp hlow
    have hlt : (n - (1 + e)) / d < 514 := by omega
    have hmul' := (Nat.div_lt_iff_lt_mul hpos).mp hlt
    omega
  · rintro ⟨hlow, hhigh⟩
    have hle : holdPeriods speed ≤ sclPeriods i2cFreq speed := by
      rw [UInt32.le_iff_toNat_le]
      omega
    have hle' : setupPeriods speed ≤ sclPeriods i2cFreq speed - holdPeriods speed := by
      rw [UInt32.le_iff_toNat_le, UInt32.toNat_sub_of_le _ _ hle]
      omega
    obtain ⟨-, hvalue⟩ := hdiff hle hle'
    have hmul : 2 ≤ (n - (1 + e)) / d := (Nat.le_div_iff_mul_le hpos).mpr (by omega)
    have hmul' : (n - (1 + e)) / d < 514 := (Nat.div_lt_iff_lt_mul hpos).mpr (by omega)
    have hscale : 2 ≤ (sclPeriods i2cFreq speed - holdPeriods speed - setupPeriods speed) /
        clkScale speed := by
      rw [UInt32.le_iff_toNat_le, UInt32.toNat_div, hd, hvalue]
      exact hmul
    have hhalf : sclhScll i2cFreq speed / 2 ≤ 255 := by
      rw [UInt32.le_iff_toNat_le, UInt32.toNat_div, hquot hscale, hvalue]
      show ((n - (1 + e)) / d - 2) / 2 ≤ 255
      omega
    exact ⟨hle, hle', hscale, hhalf, hhalf⟩

/-- For the speeds and clocks of the board, the timing fits exactly in `TimingRange`. -/
theorem timingFits_iff (hspeed : 10 ≤ speed.toNat ∧ speed.toNat ≤ 1000)
    (hfreq : 16000000 ≤ i2cFreq.toNat ∧ i2cFreq.toNat ≤ 160000000) :
    TimingFits i2cFreq speed ↔ TimingRange i2cFreq.toNat speed.toNat := by
  have hn : (sclPeriods i2cFreq speed).toNat = i2cFreq.toNat / (1000 * speed.toNat) :=
    sclPeriods_toNat hspeed.2
  have hpos : 0 < 1000 * speed.toNat := by omega
  unfold TimingRange
  by_cases hlow : speed < 100
  · have hlow' : speed.toNat < 100 := UInt32.lt_iff_toNat_lt.mp hlow
    have hpsc : clkPsc speed = 15 := if_pos hlow
    have hdely : scldely speed = 9 := if_pos hlow
    rw [if_pos hlow', timingFits_iff_periods (d := 16) (e := 160) (by rw [clkScale, hpsc]; rfl)
      (by rw [setupPeriods, clkScale, hpsc, hdely]; rfl) hn (by decide),
      Nat.le_div_iff_mul_le hpos, Nat.div_lt_iff_lt_mul hpos]
    omega
  · have hlow' : ¬ speed.toNat < 100 := fun h => hlow (UInt32.lt_iff_toNat_lt.mpr h)
    rw [if_neg hlow']
    by_cases hmid : speed ≤ 400
    · have hmid' : speed.toNat ≤ 400 := UInt32.le_iff_toNat_le.mp hmid
      have hpsc : clkPsc speed = 7 := by rw [clkPsc, if_neg hlow, if_pos hmid]
      have hdely : scldely speed = 9 := by rw [scldely, if_neg hlow, if_pos hmid]
      rw [if_pos hmid', timingFits_iff_periods (d := 8) (e := 80) (by rw [clkScale, hpsc]; rfl)
        (by rw [setupPeriods, clkScale, hpsc, hdely]; rfl) hn (by decide),
        Nat.le_div_iff_mul_le hpos, Nat.div_lt_iff_lt_mul hpos]
      omega
    · have hmid' : ¬ speed.toNat ≤ 400 := fun h => hmid (UInt32.le_iff_toNat_le.mpr h)
      have hpsc : clkPsc speed = 7 := by rw [clkPsc, if_neg hlow, if_neg hmid]
      have hdely : scldely speed = 3 := by rw [scldely, if_neg hlow, if_neg hmid]
      rw [if_neg hmid', timingFits_iff_periods (d := 8) (e := 32) (by rw [clkScale, hpsc]; rfl)
        (by rw [setupPeriods, clkScale, hpsc, hdely]; rfl) hn (by decide),
        Nat.le_div_iff_mul_le hpos, Nat.div_lt_iff_lt_mul hpos]
      omega

/-- The default speed of 100 kHz at 40 MHz. -/
theorem timingFits_default : TimingFits 40000000 100 ↔ TimingRange 40000000 100 :=
  @timingFits_iff 40000000 100 (by decide) (by decide)

/-- At 16 MHz and 1000 kHz the setup time is longer than the period; at 160 MHz and 10 kHz
the halves take more than 8 bits. -/
theorem not_timingFits :
    (sclPeriods 16000000 1000 < setupPeriods 1000 ∧
      masterClockConfig 16000000 1000 = (268435453, 268435453) ∧ ¬ TimingFits 16000000 1000) ∧
    masterClockConfig 160000000 10 = (493, 493) ∧ ¬ TimingFits 160000000 10 := by
  refine ⟨⟨by decide, by decide, fun h => absurd h.setup (by decide)⟩, by decide,
    fun h => absurd h.sclh (by decide)⟩

end Gd32Vw553h.Drivers
