/-
  Foundation/Slots.lean --- areas and slots of one size in a circle of addresses.

  Addresses are numbers below a limit `W`, and sums of them wrap.  An area is given by its
  first address and its size; which part of it a region has to lie in follows from the
  offset alone (`inArea_iff`).  Slots that follow each other at one distance do not meet
  as long as all of them fit on the circle (`slots_apart_iff`).
-/
import Mathlib.Algebra.Order.Ring.Nat

set_option autoImplicit false

namespace Gd32Vw553h.Foundation

variable {W start size off stride count : Nat}

/-- Each of the `n` bytes at the address `a` belongs to the area. -/
def InArea (W start size a n : Nat) : Prop :=
  ∀ b < n, (W + (a + b) % W - start) % W < size

theorem offset_address (hstart : start < W) (hoff : off < W) (b : Nat) :
    (W + ((start + off) % W + b) % W - start) % W = (off + b) % W := by
  have hpos : 0 < W := Nat.lt_of_le_of_lt (Nat.zero_le _) hoff
  have hsum : ((start + off) % W + b) % W = (start + (off + b) % W) % W := by
    rw [Nat.mod_add_mod, Nat.add_assoc, Nat.add_mod_mod]
  have hrest := Nat.mod_lt (off + b) hpos
  rw [hsum]
  generalize (off + b) % W = rest at hrest ⊢
  by_cases hwrap : start + rest < W
  · have hvalue : W + (start + rest) - start = rest + W := by omega
    rw [Nat.mod_eq_of_lt hwrap, hvalue, Nat.add_mod_right, Nat.mod_eq_of_lt hrest]
  · have hvalue : W + (start + rest - W) - start = rest := by omega
    have hmod : (start + rest) % W = start + rest - W := by
      rw [Nat.mod_eq_sub_mod (by omega), Nat.mod_eq_of_lt (by omega)]
    rw [hmod, hvalue, Nat.mod_eq_of_lt hrest]

/-- A region with an offset into the area is part of it when it ends there. -/
theorem inArea_iff {n : Nat} (hstart : start < W) (hsize : size < W) (hoff : off < W)
    (hn : 0 < n) : InArea W start size ((start + off) % W) n ↔ off + n ≤ size := by
  constructor
  · intro h
    by_cases hwrap : off + n ≤ W
    · have hlast := h (n - 1) (by omega)
      rw [offset_address hstart hoff, Nat.mod_eq_of_lt (by omega)] at hlast
      omega
    · have hlast := h (W - 1 - off) (by omega)
      have hsum : off + (W - 1 - off) = W - 1 := by omega
      rw [offset_address hstart hoff, hsum, Nat.mod_eq_of_lt (by omega)] at hlast
      omega
  · intro h b hb
    rw [offset_address hstart hoff, Nat.mod_eq_of_lt (by omega)]
    omega

/-- The address of a byte of a slot. -/
def slotByte (W stride i b : Nat) : Nat := (i * stride + b) % W

/-- No byte belongs to two of the slots. -/
def SlotsApart (W stride count : Nat) : Prop :=
  ∀ i j, i < count → j < count → i ≠ j → ∀ b c, b < stride → c < stride →
    slotByte W stride i b ≠ slotByte W stride j c

/-- A slot ends in front of the next one. -/
theorem slot_lt {i j b : Nat} (hij : i < j) (hb : b < stride) : i * stride + b < j * stride := by
  calc i * stride + b < i * stride + stride := by omega
    _ = (i + 1) * stride := (Nat.succ_mul i stride).symm
    _ ≤ j * stride := Nat.mul_le_mul_right stride hij

theorem slots_apart_iff (hstride : 0 < stride) (hle : stride ≤ W) :
    SlotsApart W stride count ↔ count * stride ≤ W := by
  constructor
  · intro h
    by_contra hlong
    -- the slot that the last address belongs to, or that follows it, meets the first one
    have hslot : W / stride * stride ≤ W := Nat.div_mul_le_self W stride
    have hnext : W < W / stride * stride + stride := by
      rw [← Nat.succ_mul]
      exact (Nat.div_lt_iff_lt_mul hstride).mp (Nat.lt_succ_self _)
    have hcount : W / stride < count := by
      by_contra hle'
      have := Nat.mul_le_mul_right stride (Nat.le_of_not_lt hle')
      omega
    have hfirst : 0 < W / stride := Nat.div_pos hle hstride
    refine h (W / stride) 0 hcount (by omega) (by omega) (W - W / stride * stride) 0 (by omega)
      hstride ?_
    unfold slotByte
    have hsum : W / stride * stride + (W - W / stride * stride) = W := by omega
    rw [hsum, Nat.mod_self, Nat.zero_mul, Nat.add_zero, Nat.zero_mod]
  · intro h i j hi hj hne b c hb hc
    have hbelow : ∀ k d, k < count → d < stride → k * stride + d < W := fun k d hk hd =>
      Nat.lt_of_lt_of_le (slot_lt hk hd) h
    unfold slotByte
    rw [Nat.mod_eq_of_lt (hbelow i b hi hb), Nat.mod_eq_of_lt (hbelow j c hj hc)]
    rcases Nat.lt_or_gt_of_ne hne with hij | hji
    · have := slot_lt hij hb
      omega
    · have := slot_lt hji hc
      omega

end Gd32Vw553h.Foundation
