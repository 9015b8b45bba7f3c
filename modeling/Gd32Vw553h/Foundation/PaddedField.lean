/-
  Foundation/PaddedField.lean --- a sign, a prefix and a body in a field.

  The gap of a field is filled behind the body, between prefix and body, or in front of the
  sign.  Lengths and the number of blanks tell most fields apart.
-/
import Mathlib.Data.List.Basic
import Mathlib.Tactic.SplitIfs

set_option autoImplicit false

namespace Gd32Vw553h.Foundation

variable {α : Type*}

/-- Where the gap of a field is. -/
inductive Filling where
  /-- behind the body, with blanks -/
  | behind
  /-- in front of the body, with zeros -/
  | zeros
  /-- in front of the sign, with blanks -/
  | front
  deriving DecidableEq, Repr

/-- A field with a gap of `gap` characters. -/
def paddedField (blank zero : α) (filling : Filling) (gap : Nat) (sign pre body : List α) : List α :=
  match filling with
  | .behind => sign ++ pre ++ body ++ List.replicate gap blank
  | .zeros => sign ++ pre ++ List.replicate gap zero ++ body
  | .front => List.replicate gap blank ++ sign ++ pre ++ body

variable {blank zero : α} {filling : Filling} {gap : Nat} {sign pre body : List α}

theorem paddedField_length :
    (paddedField blank zero filling gap sign pre body).length =
      gap + (sign.length + pre.length + body.length) := by
  cases filling <;> simp only [paddedField, List.length_append, List.length_replicate] <;> omega

theorem paddedField_gap_zero :
    paddedField blank zero filling 0 sign pre body = sign ++ pre ++ body := by
  cases filling <;> simp [paddedField]

/-- A prefix of zeros is a part of a body that zeros or nothing stand in front of. -/
theorem paddedField_prefix (n : Nat) :
    paddedField blank zero filling gap sign (List.replicate n zero) body =
      paddedField blank zero filling gap sign [] (List.replicate n zero ++ body) := by
  cases filling with
  | behind => simp [paddedField]
  | front => simp [paddedField]
  | zeros =>
    simp only [paddedField, List.append_assoc, List.append_nil, List.append_cancel_left_eq]
    rw [← List.append_assoc, ← List.append_assoc, List.replicate_append_replicate,
      List.replicate_append_replicate, Nat.add_comm]

variable [DecidableEq α]

/-- The blanks of a field are those of the gap and of the sign. -/
theorem paddedField_count (hzero : zero ≠ blank) (hpre : blank ∉ pre) (hbody : blank ∉ body) :
    (paddedField blank zero filling gap sign pre body).count blank =
      (if filling = .zeros then 0 else gap) + sign.count blank := by
  have hpre' : pre.count blank = 0 := List.count_eq_zero.mpr hpre
  have hbody' : body.count blank = 0 := List.count_eq_zero.mpr hbody
  have hzeros : (List.replicate gap zero).count blank = 0 := by
    rw [List.count_eq_zero, List.mem_replicate]
    exact fun h => hzero h.2.symm
  cases filling with
  | behind =>
    simp only [paddedField, List.count_append, hpre', hbody', List.count_replicate_self]
    simp only [reduceCtorEq, if_false]
    omega
  | zeros =>
    simp only [paddedField, List.count_append, hpre', hbody', hzeros, if_true]
    omega
  | front =>
    simp only [paddedField, List.count_append, hpre', hbody', List.count_replicate_self]
    simp only [reduceCtorEq, if_false]
    omega

end Gd32Vw553h.Foundation
