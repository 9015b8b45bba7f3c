/-
  Drivers/Hwtimer.lean --- rate and count of a hardware timer
  (`src/libraries/gd32_drivers/drv_hwtimer.c`,
  `components/drivers/clock_time/clock_timer.c`).

  The framework checks a frequency against `info`, the driver turns it into a prescaler.
  The event clock of the framework starts the timer with a count.  Prescaler and auto-reload
  value are 16 bits wide; neither is checked against that width, and the frequencies and
  counts that fit are exactly those of `hwtimer_fits_iff`.

  `HWTIMER_CTRL_FREQ_SET` and `HWTIMER_MODE_ONESHOT` are the driver's names for
  `CLOCK_TIMER_CTRL_FREQ_SET` and `CLOCK_TIMER_MODE_ONESHOT`.  All operations of
  `g_gd32_hwtimer_ops` are set.  The clock tree belongs to the vendor library and is a
  parameter; `% 2 ^ 32` and `% 2 ^ 16` stand where the source has a type of that width.
-/
import Gd32Vw553h.Klibc.KErrno
import Mathlib.Algebra.Field.Rat
import Mathlib.Algebra.Ring.Nat
import Mathlib.Tactic.Common

set_option autoImplicit false

namespace Gd32Vw553h.Drivers

open Gd32Vw553h.Klibc

/-! ## The device -/

/-- The peripheral clocks. -/
structure RcuClocks where
  /-- `rcu_clock_freq_get(CK_APB1)` -/
  ap1freq : Nat
  /-- `rcu_clock_freq_get(CK_APB2)` -/
  ap2freq : Nat
  /-- `(RCU_CFG0 & RCU_CFG0_APB1PSC) >> 8` -/
  apb1psc : Nat
  /-- `(RCU_CFG0 & RCU_CFG0_APB2PSC) >> 11` -/
  apb2psc : Nat

/-- The timers that have a device. -/
inductive Timerx where
  | timer0
  | timer1
  | timer2
  | timer5
  | timer15
  | timer16
  deriving DecidableEq

/-- `rt_clock_timer_mode_t` -/
inductive ClockTimerMode where
  | oneshot
  | period
  deriving DecidableEq

/-- `struct rt_clock_timer_info` -/
structure RtClockTimerInfo where
  maxfreq : Int
  minfreq : Int
  maxcnt : Nat
  cntmode : Nat
  deriving DecidableEq

/-- `HWTIMER0_CONFIG`; the other timers have the same values. -/
def hwtimerInfo : RtClockTimerInfo := ⟨1000000, 1000, 0xffff, 0⟩

/-- The registers of a timer, as the library calls of the driver are passed them. -/
structure TimerRegisters where
  prescaler : Nat
  counter : Nat
  autoreload : Nat
  singlePulse : Bool
  enabled : Bool
  deriving DecidableEq

/-- `rt_clock_timer_t`, with its registers. -/
structure RtClockTimer where
  userData : Timerx
  info : RtClockTimerInfo
  freq : Int
  mode : ClockTimerMode
  registers : TimerRegisters
  /-- the counts that `ops->start` has been passed -/
  started : List Nat
  deriving DecidableEq

/-! ## The driver -/

/-- The clock of a timer: that of its bus, doubled when the bus is divided. -/
def timerClock (rcu : RcuClocks) (timerx : Timerx) : Nat :=
  if timerx = .timer0 ∨ timerx = .timer15 ∨ timerx = .timer16 then
    let temp := if rcu.apb2psc < 4 then 0 else 1
    rcu.ap2freq * 2 ^ temp % 2 ^ 32
  else
    let temp := if rcu.apb1psc < 4 then 0 else 1
    rcu.ap1freq * 2 ^ temp % 2 ^ 32

/-- `__set_timerx_freq`: the prescaler. -/
def setTimerxFreq (rcu : RcuClocks) (timerx : Timerx) (freq : Nat) : Nat :=
  (timerClock rcu timerx / freq + (2 ^ 32 - 1)) % 2 ^ 32 % 2 ^ 16

/-- `gd32_hwtimer_start` -/
def gd32HwtimerStart (timer : RtClockTimer) (cnt : Nat) (mode : ClockTimerMode) :
    Int × RtClockTimer :=
  (0, { timer with
    registers := { timer.registers with
      singlePulse := mode = .oneshot
      counter := 0
      autoreload := (cnt + (2 ^ 32 - 1)) % 2 ^ 32
      enabled := true }
    started := timer.started ++ [cnt] })

/-- `gd32_hwtimer_stop` -/
def gd32HwtimerStop (timer : RtClockTimer) : RtClockTimer :=
  { timer with registers := { timer.registers with enabled := false } }

/-- `gd32_hwtimer_control` with `HWTIMER_CTRL_FREQ_SET` -/
def gd32HwtimerFreqSet (rcu : RcuClocks) (timer : RtClockTimer) (freq : Int) :
    Int × RtClockTimer :=
  (0, { timer with
    registers := { timer.registers with
      prescaler := setTimerxFreq rcu timer.userData (freq % 2 ^ 32).toNat } })

/-! ## The framework -/

/-- The commands of `rt_clock_timer_control`, with what `args` points to. -/
inductive ClockTimerCtrl where
  | stop
  | freqSet (args : Option Int)
  | infoGet (args : Option RtClockTimerInfo)
  | modeSet (args : Option ClockTimerMode)
  | other

/-- `rt_clock_timer_control`: the result, the device, and the information asked for. -/
def rtClockTimerControl (rcu : RcuClocks) (timer : RtClockTimer) :
    ClockTimerCtrl → Int × RtClockTimer × Option RtClockTimerInfo
  | .stop => (0, gd32HwtimerStop timer, none)
  | .freqSet none => (-rtEEmpty, timer, none)
  | .freqSet (some f) =>
    if f > timer.info.maxfreq ∨ f < timer.info.minfreq then (-rtEInval, timer, none)
    else
      let (result, timer) := gd32HwtimerFreqSet rcu timer f
      (result, if result = 0 then { timer with freq := f } else timer, none)
  | .infoGet none => (-rtEEmpty, timer, none)
  | .infoGet (some _) => (0, timer, some timer.info)
  | .modeSet none => (-rtEEmpty, timer, none)
  | .modeSet (some m) => (0, { timer with mode := m }, none)
  -- the driver knows no other command
  | .other => (-rtEInval, timer, none)

/-- `_clock_timer_clock_set_timeout`, with `_clock_timer_owner` -/
def clockTimerClockSetTimeout (owner : Option RtClockTimer) (delta : Nat) :
    Int × Option RtClockTimer :=
  match owner with
  | none => (-rtENosys, none)
  | some timer =>
    if delta = 0 then (0, some (gd32HwtimerStop timer))
    else
      let timer := { gd32HwtimerStop timer with mode := .oneshot }
      let delta := if delta > 2 ^ 32 - 1 then 2 ^ 32 - 1 else delta
      let (result, timer) := gd32HwtimerStart timer (delta % 2 ^ 32) .oneshot
      (result, some timer)

/-! ## What is programmed -/

section Program

variable {rcu : RcuClocks} {timer : RtClockTimer} {f : Int} {delta clock freq : Nat}

/-- The frequency is set, and the prescaler is as the division says. -/
structure RateRight (rcu : RcuClocks) (timer : RtClockTimer) (f : Int) : Prop where
  accepted : (rtClockTimerControl rcu timer (.freqSet (some f))).1 = 0
  freq : (rtClockTimerControl rcu timer (.freqSet (some f))).2.1.freq = f
  prescaler : (rtClockTimerControl rcu timer (.freqSet (some f))).2.1.registers.prescaler =
    timerClock rcu timer.userData / f.toNat - 1
  rate : (timerClock rcu timer.userData : ℚ) /
      ((rtClockTimerControl rcu timer (.freqSet (some f))).2.1.registers.prescaler + 1) =
    timerClock rcu timer.userData / (timerClock rcu timer.userData / f.toNat : Nat)

/-- The timer is started once, with a count for which the auto-reload value fits. -/
def CountRight (timer : RtClockTimer) (delta : Nat) : Prop :=
  ∃ cnt started, clockTimerClockSetTimeout (some timer) delta = (0, some started) ∧
    started.started = timer.started ++ [cnt] ∧
    1 ≤ cnt ∧ cnt ≤ timer.info.maxcnt + 1 ∧
    started.registers.autoreload = cnt - 1 ∧ started.registers.autoreload ≤ timer.info.maxcnt

/-- The range of `info` is accepted, and no other frequency. -/
theorem freqSet_accepted_iff (rcu : RcuClocks) (timer : RtClockTimer) (f : Int) :
    (rtClockTimerControl rcu timer (.freqSet (some f))).1 = 0 ↔
      timer.info.minfreq ≤ f ∧ f ≤ timer.info.maxfreq := by
  constructor
  · intro hzero
    by_contra hnot
    have hout : f > timer.info.maxfreq ∨ f < timer.info.minfreq := by omega
    simp only [rtClockTimerControl, if_pos hout] at hzero
    exact absurd hzero (by decide)
  · intro hin
    have hnot : ¬ (f > timer.info.maxfreq ∨ f < timer.info.minfreq) := by omega
    simp only [rtClockTimerControl, if_neg hnot, gd32HwtimerFreqSet]

/-- What an accepted frequency leaves in the device. -/
theorem freqSet_eq (haccepted : timer.info.minfreq ≤ f ∧ f ≤ timer.info.maxfreq)
    (hfreq : 0 ≤ f ∧ f < 2 ^ 32) :
    rtClockTimerControl rcu timer (.freqSet (some f)) = (0, { timer with
      freq := f
      registers := { timer.registers with
        prescaler := setTimerxFreq rcu timer.userData f.toNat } }, none) := by
  have hin : ¬ (f > timer.info.maxfreq ∨ f < timer.info.minfreq) := by omega
  have hword : (f % 2 ^ 32).toNat = f.toNat := by rw [Int.emod_eq_of_lt hfreq.1 hfreq.2]
  simp only [rtClockTimerControl, gd32HwtimerFreqSet, if_neg hin, if_true, hword]

/-- The quotient less one is cut to 16 bits. -/
theorem setTimerxFreq_eq_iff (hclock : timerClock rcu timer.userData < 2 ^ 32)
    (hfreq : freq ≤ timerClock rcu timer.userData) (hpos : 0 < freq) :
    setTimerxFreq rcu timer.userData freq = timerClock rcu timer.userData / freq - 1 ↔
      timerClock rcu timer.userData / freq ≤ 2 ^ 16 := by
  have hone : 1 ≤ timerClock rcu timer.userData / freq := (Nat.one_le_div_iff hpos).mpr hfreq
  have hle : timerClock rcu timer.userData / freq ≤ timerClock rcu timer.userData :=
    Nat.div_le_self _ _
  unfold setTimerxFreq
  generalize timerClock rcu timer.userData / freq = q at hone hle ⊢
  have hword : (q + (2 ^ 32 - 1)) % 2 ^ 32 = q - 1 := by omega
  rw [hword]
  constructor
  · intro heq
    have hlt := Nat.mod_lt (q - 1) (show 0 < 2 ^ 16 by decide)
    omega
  · intro hfit
    exact Nat.mod_eq_of_lt (by omega)

theorem rateRight_iff (haccepted : timer.info.minfreq ≤ f ∧ f ≤ timer.info.maxfreq)
    (hfreq : 0 < f ∧ f.toNat ≤ timerClock rcu timer.userData)
    (hclock : timerClock rcu timer.userData < 2 ^ 32) :
    RateRight rcu timer f ↔ timerClock rcu timer.userData / f.toNat ≤ 2 ^ 16 := by
  have hpos : 0 < f.toNat := by omega
  have hset : rtClockTimerControl rcu timer (.freqSet (some f)) = (0, { timer with
      freq := f
      registers := { timer.registers with
        prescaler := setTimerxFreq rcu timer.userData f.toNat } }, none) :=
    freqSet_eq haccepted (by omega)
  have hone : 1 ≤ timerClock rcu timer.userData / f.toNat :=
    (Nat.one_le_div_iff hpos).mpr hfreq.2
  constructor
  · intro h
    have hprescaler := h.prescaler
    rw [hset] at hprescaler
    exact (setTimerxFreq_eq_iff hclock hfreq.2 hpos).mp hprescaler
  · intro hfit
    have hprescaler := (setTimerxFreq_eq_iff hclock hfreq.2 hpos).mpr hfit
    refine ⟨by rw [hset], by rw [hset], by rw [hset]; exact hprescaler, ?_⟩
    have hsucc : (setTimerxFreq rcu timer.userData f.toNat : ℚ) + 1 =
        (timerClock rcu timer.userData / f.toNat : Nat) := by
      rw [hprescaler]
      have hback : timerClock rcu timer.userData / f.toNat - 1 + 1 =
          timerClock rcu timer.userData / f.toNat := Nat.sub_add_cancel hone
      exact_mod_cast hback
    rw [hset]
    exact congrArg _ hsucc

theorem countRight_iff (hpos : 0 < delta) (hcnt : timer.info.maxcnt + 1 < 2 ^ 32 - 1) :
    CountRight timer delta ↔ delta ≤ timer.info.maxcnt + 1 := by
  have hne : ¬ delta = 0 := by omega
  constructor
  · rintro ⟨cnt, started, hset, hlog, -, hle, -⟩
    simp only [clockTimerClockSetTimeout, if_neg hne, gd32HwtimerStart, gd32HwtimerStop,
      Prod.mk.injEq, Option.some.injEq, true_and] at hset
    subst hset
    have hcount := (List.append_inj' hlog rfl).2
    have hcount := List.singleton_inj.mp hcount
    -- a count that has been cut to 32 bits is too large as well
    split at hcount
    · omega
    · omega
  · intro hle
    have hword : ¬ delta > 2 ^ 32 - 1 := by omega
    have hcut : delta % 2 ^ 32 = delta := Nat.mod_eq_of_lt (by omega)
    have hreload : (delta + (2 ^ 32 - 1)) % 2 ^ 32 = delta - 1 := by omega
    have hset : clockTimerClockSetTimeout (some timer) delta =
        (0, some (gd32HwtimerStart { gd32HwtimerStop timer with mode := .oneshot } delta
          .oneshot).2) := by
      simp only [clockTimerClockSetTimeout, if_neg hne, if_neg hword, hcut, gd32HwtimerStart]
    refine ⟨delta, _, hset, ?_, hpos, hle, ?_, ?_⟩
    · simp only [gd32HwtimerStart, gd32HwtimerStop]
    · simp only [gd32HwtimerStart, hreload]
    · simp only [gd32HwtimerStart, hreload]
      omega

/-- Prescaler and count are right exactly if the quotient of clock and frequency has at most
2^16 as its value, and the timeout has at most one count more than the counter can hold. -/
theorem hwtimer_fits_iff (rcu : RcuClocks) (timer : RtClockTimer) (f : Int) (delta : Nat)
    (hinfo : timer.info = hwtimerInfo)
    (hclock : 1000000 ≤ timerClock rcu timer.userData ∧
      timerClock rcu timer.userData ≤ 160000000)
    (haccepted : (rtClockTimerControl rcu timer (.freqSet (some f))).1 = 0)
    (hdelta : 0 < delta) :
    RateRight rcu timer f ∧ CountRight timer delta ↔
      timerClock rcu timer.userData / f.toNat ≤ 2 ^ 16 ∧ delta ≤ timer.info.maxcnt + 1 := by
  have hrange := (freqSet_accepted_iff rcu timer f).mp haccepted
  have hrange' := hrange
  rw [hinfo] at hrange'
  simp only [hwtimerInfo] at hrange'
  have hcnt : timer.info.maxcnt + 1 < 2 ^ 32 - 1 := by
    rw [hinfo]
    decide
  rw [rateRight_iff hrange ⟨by omega, by omega⟩ (by omega), countRight_iff hdelta hcnt]

/-- A timer on the second bus, at 160 MHz. -/
def fastTimer : RtClockTimer where
  userData := .timer0
  info := hwtimerInfo
  freq := 1000000
  mode := .oneshot
  registers := ⟨159, 0, 0xffff, false, false⟩
  started := []

/-- The clocks at 160 MHz. -/
def fastClocks : RcuClocks := ⟨160000000, 160000000, 0, 0⟩

/-- One megahertz and a timeout of a millisecond. -/
theorem hwtimer_fits_megahertz :
    RateRight fastClocks fastTimer 1000000 ∧ CountRight fastTimer 1000 :=
  (hwtimer_fits_iff fastClocks fastTimer 1000000 1000 rfl (by decide) (by decide) (by decide)).mpr
    (by decide)

/-- At one kilohertz the prescaler is 28927, where 159999 is needed; a timeout of 65537 counts
is programmed as it is. -/
theorem not_hwtimer_fits :
    (rtClockTimerControl fastClocks fastTimer (.freqSet (some 1000))).1 = 0 ∧
    (rtClockTimerControl fastClocks fastTimer (.freqSet (some 1000))).2.1.registers.prescaler =
      28927 ∧
    (clockTimerClockSetTimeout (some fastTimer) 65537).2.map RtClockTimer.started =
      some [65537] ∧
    ¬ RateRight fastClocks fastTimer 1000 ∧ ¬ CountRight fastTimer 65537 := by
  refine ⟨by decide, by decide, by decide, fun hrate => ?_, fun hcount => ?_⟩
  · have hprescaler := hrate.prescaler
    revert hprescaler
    decide
  · have hle : 65537 ≤ fastTimer.info.maxcnt + 1 :=
      (countRight_iff (by decide) (by decide)).mp hcount
    revert hle
    decide

end Program

end Gd32Vw553h.Drivers
