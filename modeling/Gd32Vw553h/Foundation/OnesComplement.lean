/-
  Foundation/OnesComplement.lean --- sums with end-around carry.

  Numbers are added modulo `M`, but zero and `M` are kept apart.  `StandsFor M x n` says that `x`
  may take the place of `n` in such a sum; it goes through sums and products.  Where `M + 1` is the
  square of a base, exchanging the two digits of a word multiplies it by the base
  (`standsFor_swap`), and doing so twice is nothing (`standsFor_square`).  `endAround` is the one
  number up to `M` that stands for `n`.
-/
import Mathlib.Data.Nat.ModEq
import Mathlib.Tactic.Common

set_option autoImplicit false

namespace Gd32Vw553h.Foundation

/-- The two are equal modulo `M`, and only zero stands for zero. -/
def StandsFor (M x n : Nat) : Prop := x ≡ n [MOD M] ∧ (x = 0 ↔ n = 0)

namespace StandsFor

variable {M x y z n m k : Nat}

theorem refl (M n : Nat) : StandsFor M n n := ⟨rfl, Iff.rfl⟩

theorem symm (h : StandsFor M x n) : StandsFor M n x := ⟨h.1.symm, h.2.symm⟩

theorem trans (h : StandsFor M x y) (h' : StandsFor M y z) : StandsFor M x z :=
  ⟨h.1.trans h'.1, h.2.trans h'.2⟩

theorem add (h : StandsFor M x n) (h' : StandsFor M y m) : StandsFor M (x + y) (n + m) := by
  refine ⟨h.1.add h'.1, ?_⟩
  rw [Nat.add_eq_zero_iff, Nat.add_eq_zero_iff, h.2, h'.2]

theorem mul_left (h : StandsFor M x n) (k : Nat) : StandsFor M (k * x) (k * n) := by
  refine ⟨h.1.mul_left k, ?_⟩
  rw [Nat.mul_eq_zero, Nat.mul_eq_zero, h.2]

end StandsFor

variable {M B n x : Nat}

/-- The carries are added at the other end. -/
theorem standsFor_fold (M n : Nat) : StandsFor M (n / (M + 1) + n % (M + 1)) n := by
  have hsplit := Nat.div_add_mod n (M + 1)
  constructor
  · have hmod : n / (M + 1) + n % (M + 1) ≡
        M * (n / (M + 1)) + (n / (M + 1) + n % (M + 1)) [MOD M] :=
      (Nat.modEq_iff_dvd' (Nat.le_add_left _ _)).mpr ⟨n / (M + 1), by omega⟩
    have hsum : M * (n / (M + 1)) + (n / (M + 1) + n % (M + 1)) = n := by
      rw [← Nat.add_assoc, ← Nat.succ_mul]
      exact hsplit
    rwa [hsum] at hmod
  · constructor
    · intro hzero
      obtain ⟨hdiv, hmod⟩ := Nat.add_eq_zero_iff.mp hzero
      rw [← hsplit, hdiv, hmod, Nat.mul_zero]
    · rintro rfl
      simp

theorem fold_le (h : n < (M + 1) * (M + 1)) : n / (M + 1) + n % (M + 1) ≤ 2 * M := by
  have hdiv : n / (M + 1) < M + 1 := Nat.div_lt_of_lt_mul h
  have hmod := Nat.mod_lt n (Nat.succ_pos M)
  rw [Nat.two_mul]
  exact Nat.add_le_add (Nat.lt_succ_iff.mp hdiv) (Nat.lt_succ_iff.mp hmod)

/-- Two digits further up is the same place. -/
theorem standsFor_square (hB : 0 < B) (n : Nat) : StandsFor (B * B - 1) (B * (B * n)) n := by
  have hpos : 1 ≤ B * B := Nat.mul_pos hB hB
  constructor
  · refine ((Nat.modEq_iff_dvd' ?_).mpr ⟨n, ?_⟩).symm
    · rw [← Nat.mul_assoc]
      exact Nat.le_mul_of_pos_left n hpos
    · rw [← Nat.mul_assoc, Nat.sub_mul, Nat.one_mul]
  · rw [← Nat.mul_assoc, Nat.mul_eq_zero]
    omega

/-- The two digits of a word are exchanged. -/
theorem standsFor_swap (hB : 0 < B) (w : Nat) :
    StandsFor (B * B - 1) (w % B * B + w / B) (B * w) := by
  have hsplit : B * w = w % B * B + B * (B * (w / B)) := by
    have hw : B * (w % B + B * (w / B)) = B * w := congrArg _ (Nat.mod_add_div w B)
    rw [← hw, Nat.mul_add, Nat.mul_comm B (w % B)]
  rw [hsplit]
  exact (StandsFor.refl _ _).add (standsFor_square hB _).symm

/-- An even number of digits further up is the same place, an odd number the next one. -/
theorem standsFor_pow (hB : 0 < B) (k n : Nat) :
    StandsFor (B * B - 1) (B ^ k * n) (if k % 2 = 0 then n else B * n) := by
  induction k with
  | zero => simpa using StandsFor.refl _ _
  | succ k ih =>
    have hnext : B ^ (k + 1) * n = B * (B ^ k * n) := by
      rw [Nat.pow_succ, Nat.mul_comm (B ^ k) B, Nat.mul_assoc]
    rw [hnext]
    refine (ih.mul_left B).trans ?_
    by_cases heven : k % 2 = 0
    · rw [if_pos heven, if_neg (by omega)]
      exact .refl _ _
    · rw [if_neg heven, if_pos (by omega)]
      exact standsFor_square hB n

/-! ## The number that stands for a sum -/

/-- The number up to `M` that stands for `n`. -/
def endAround (M n : Nat) : Nat := if n = 0 then 0 else (n - 1) % M + 1

theorem StandsFor.eq_endAround (h : StandsFor M x n) (hM : 0 < M) (hx : x ≤ M) :
    x = endAround M n := by
  unfold endAround
  by_cases hn : n = 0
  · rw [if_pos hn]
    exact h.2.mpr hn
  · rw [if_neg hn]
    have hpos : x ≠ 0 := fun hzero => hn (h.2.mp hzero)
    have hmod : x - 1 + 1 ≡ n - 1 + 1 [MOD M] := by
      rw [Nat.sub_add_cancel (Nat.pos_of_ne_zero hpos), Nat.sub_add_cancel (Nat.pos_of_ne_zero hn)]
      exact h.1
    have hpred : (x - 1) % M = (n - 1) % M := hmod.add_right_cancel' 1
    rw [Nat.mod_eq_of_lt (by omega)] at hpred
    omega

theorem endAround_le (hM : 0 < M) (n : Nat) : endAround M n ≤ M := by
  unfold endAround
  split
  · exact Nat.zero_le _
  · exact Nat.mod_lt _ hM

theorem standsFor_endAround (M n : Nat) : StandsFor M (endAround M n) n := by
  unfold endAround
  by_cases hn : n = 0
  · rw [if_pos hn, hn]
    exact .refl _ _
  · rw [if_neg hn]
    refine ⟨?_, by omega⟩
    have hmod : (n - 1) % M + 1 ≡ n - 1 + 1 [MOD M] := (Nat.mod_modEq _ _).add_right 1
    rwa [Nat.sub_add_cancel (Nat.pos_of_ne_zero hn)] at hmod

/-- Only multiples of `M` other than zero have all ones. -/
theorem sub_endAround_eq_zero_iff (hM : 0 < M) : M - endAround M n = 0 ↔ n ≠ 0 ∧ M ∣ n := by
  have hle := endAround_le hM n
  have hstands := standsFor_endAround M n
  constructor
  · intro hsub
    have heq : endAround M n = M := by omega
    rw [heq] at hstands
    refine ⟨fun hn => ?_, ?_⟩
    · have := hstands.2.mpr hn
      omega
    · exact (Nat.modEq_zero_iff_dvd.mp (hstands.1.symm.trans (Nat.modEq_zero_iff_dvd.mpr dvd_rfl)))
  · rintro ⟨hn, hdvd⟩
    have hself : StandsFor M M n :=
      ⟨(Nat.modEq_zero_iff_dvd.mpr dvd_rfl).trans (Nat.modEq_zero_iff_dvd.mpr hdvd).symm, by omega⟩
    rw [← hself.eq_endAround hM (Nat.le_refl M), Nat.sub_self]

end Gd32Vw553h.Foundation
