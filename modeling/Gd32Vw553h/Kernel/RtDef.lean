/-
  Kernel/RtDef.lean --- sizes and alignment (`rt-thread/include/rtdef.h`, `rtconfig.h`).

  The target has 32-bit words: a `rt_size_t` is a number below `wordSize`, and
  `RT_ALIGN` wraps for sizes that lie less than `RT_ALIGN_SIZE` below it.
-/
import Mathlib.Algebra.Group.Nat.Defs

set_option autoImplicit false

namespace Gd32Vw553h.Kernel

/-- `2^32` -/
abbrev wordSize : Nat := 4294967296

/-- `RT_ALIGN_SIZE` -/
abbrev rtAlignSize : Nat := 8

/-- `RT_TICK_MAX` -/
abbrev rtTickMax : Nat := 4294967295

/-- `RT_TICK_MAX / 2` -/
abbrev rtTickHalf : Nat := 2147483647

/-- `RT_ALIGN(size, RT_ALIGN_SIZE)` -/
def rtAlign (size : Nat) : Nat := (size + (rtAlignSize - 1)) % wordSize / rtAlignSize * rtAlignSize

/-- `RT_ALIGN_DOWN(size, RT_ALIGN_SIZE)` -/
def rtAlignDown (size : Nat) : Nat := size / rtAlignSize * rtAlignSize

/-- The difference of two words. -/
def wordSub (a b : Nat) : Nat := (wordSize + a - b) % wordSize

theorem wordSub_eq {a b : Nat} (h : b ≤ a) (ha : a < wordSize) : wordSub a b = a - b := by
  unfold wordSub wordSize at *
  omega

/-- Within half the circle behind a base, later ticks are those less than half ahead. -/
theorem wordSub_lt_half_iff {a b base : Nat} (ha : a < wordSize) (hb : b < wordSize)
    (hbase : base < wordSize) (hab : wordSub a base < rtTickHalf)
    (hbb : wordSub b base < rtTickHalf) :
    wordSub b a < rtTickHalf ↔ wordSub a base ≤ wordSub b base := by
  unfold wordSub wordSize rtTickHalf at *
  omega

theorem wordSub_inj {a b base : Nat} (ha : a < wordSize) (hb : b < wordSize)
    (hbase : base < wordSize) : wordSub a base = wordSub b base ↔ a = b := by
  unfold wordSub wordSize at *
  omega

theorem wordSub_eq_zero_iff {a b : Nat} (ha : a < wordSize) (hb : b < wordSize) :
    wordSub b a = 0 ↔ a = b := by
  unfold wordSub wordSize at *
  omega

theorem rtAlign_dvd (size : Nat) : rtAlignSize ∣ rtAlign size := Nat.dvd_mul_left _ _

theorem rtAlignDown_dvd (size : Nat) : rtAlignSize ∣ rtAlignDown size := Nat.dvd_mul_left _ _

theorem rtAlignDown_le (size : Nat) : rtAlignDown size ≤ size := Nat.div_mul_le_self _ _

/-- The largest size that `RT_ALIGN` does not wrap. -/
abbrev alignMax : Nat := wordSize - rtAlignSize

theorem le_rtAlign_iff {size : Nat} (h : size < wordSize) :
    (size ≤ alignMax → size ≤ rtAlign size) ∧ (alignMax < size → rtAlign size = 0) := by
  unfold rtAlign alignMax wordSize rtAlignSize at *
  omega

theorem rtAlign_rtAlign {size : Nat} : rtAlign (rtAlign size) = rtAlign size := by
  unfold rtAlign wordSize rtAlignSize
  omega

end Gd32Vw553h.Kernel
