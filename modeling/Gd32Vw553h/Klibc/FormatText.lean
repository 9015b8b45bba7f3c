/-
  Klibc/FormatText.lean --- what each conversion of `rt_vsnprintf` puts.

  `Produces` says which characters a format puts for its arguments.  The remaining-size
  counter of `print_number` comes down to one gap in a padded field
  (`printNumber_puts`), and so do the loops of `%s` and `%c`.
-/
import Gd32Vw553h.Foundation.PaddedField
import Gd32Vw553h.Klibc.Vsnprintf

set_option autoImplicit false

namespace Gd32Vw553h.Klibc

open Gd32Vw553h.Foundation

/-- The characters that a format puts, wherever the output goes. -/
def Produces (fmt : List UInt8) (args : List VaArg) (S : List UInt8) : Prop :=
  ∀ str : Out, formatLoop (cString fmt).length (cString fmt) args str = some (str.puts S)

/-- A field of characters. -/
abbrev field (filling : Filling) (gap : Nat) (sign pre body : List UInt8) : List UInt8 :=
  paddedField (chr ' ') (chr '0') filling gap sign pre body

/-- Where the flags put the gap of a number. -/
def Flags.filling (type : Flags) : Filling :=
  if type.left then .behind else if type.zeropad then .zeros else .front

/-- The gap of `%c` and `%s` is never filled with zeros. -/
def Flags.textFilling (type : Flags) : Filling := if type.left then .behind else .front

/-- The sign of a number. -/
def signText (num : UInt32) (qualifier : UInt8) (type : Flags) : List UInt8 :=
  if (getSign num qualifier type).1 ≠ 0 then [(getSign num qualifier type).1] else []

/-- The digits of a number, the most significant first. -/
def digitText (num : UInt32) (base : Nat) (qualifier : UInt8) (type : Flags) : List UInt8 :=
  (tmpDigits (if type.large then largeDigits else smallDigits) base
    (getSign num qualifier type).2.toNat).reverse

/-- The digits behind the zeros that the precision asks for; a precision of zero hides them. -/
def numberBody (digits : List UInt8) (precision : Int) : List UInt8 :=
  List.replicate (precision - digits.length).toNat (chr '0') ++
    if precision ≠ 0 then digits else []

/-- What `print_number` puts. -/
def numberText (num : UInt32) (base : Nat) (qualifier : UInt8) (s precision : Int)
    (type : Flags) : List UInt8 :=
  let digits := digitText num base qualifier type
  let sign := signText num qualifier type
  field type.filling
    (s - (basePrefix base type).length - max (digits.length : Int) precision - sign.length).toNat
    sign (basePrefix base type) (numberBody digits precision)

/-- What `%c` puts. -/
def charText (spec : Spec) (w : UInt32) : List UInt8 :=
  field spec.flags.textFilling (spec.fieldWidth - 1).toNat [] [] [w.toUInt8]

/-- The number of characters that `%s` takes. -/
def stringLen (spec : Spec) (n : Nat) : Int :=
  let len : Int := if 0 ≤ spec.fieldWidth then min (n : Int) spec.fieldWidth else n
  if spec.precision > 0 && len > spec.precision then spec.precision else len

/-- What `%s` puts. -/
def stringText (spec : Spec) (s : List UInt8) : List UInt8 :=
  field spec.flags.textFilling (spec.fieldWidth - stringLen spec s.length).toNat [] []
    (s.take (stringLen spec s.length).toNat)

/-! ## The counters of the loops -/

/-- Behind a loop of blanks the counter is used up, also when the sign is taken off. -/
theorem afterPad_toNat (size : Int) : (afterPad size).toNat = 0 := by
  unfold afterPad
  omega

theorem afterPad_sub_toNat (size : Int) : (afterPad size - 1).toNat = 0 := by
  unfold afterPad
  omega

theorem printNumber_puts (num : UInt32) (base : Nat) (qualifier : UInt8) (s precision : Int)
    (type : Flags) (str : Out) : printNumber num base qualifier s precision type str =
      str.puts (numberText num base qualifier s precision type) := by
  unfold printNumber numberText numberBody digitText signText Flags.filling
  simp only [List.length_reverse, pad_eq, Sink.put_eq_puts]
  generalize (getSign num qualifier type).1 = sign
  generalize tmpDigits (if type.large then largeDigits else smallDigits) base
    (getSign num qualifier type).2.toNat = tmp
  generalize basePrefix base type = pre
  have hmax : (if (tmp.length : Int) > precision then (tmp.length : Int) else precision) =
      max (tmp.length : Int) precision := by
    split_ifs <;> omega
  have hzeros : (max (tmp.length : Int) precision - tmp.length).toNat =
      (precision - tmp.length).toNat := by omega
  have hbody : ∀ str : Out, (if precision ≠ 0 then str.puts tmp.reverse else str) =
      str.puts (if precision ≠ 0 then tmp.reverse else []) := fun str => Sink.ite_puts str _
  rw [hmax, hzeros]
  simp only [hbody]
  generalize (if precision ≠ 0 then tmp.reverse else []) = shown
  generalize (precision - (tmp.length : Int)).toNat = zeros
  generalize s - (pre.length : Int) - max (tmp.length : Int) precision = size
  cases type.left with
  | true =>
    simp only [Bool.or_true, Bool.not_true, Bool.false_and, Bool.false_eq_true, if_false, if_true]
    by_cases hsign : sign ≠ 0
    · simp only [if_pos hsign, Sink.puts_puts, field, paddedField, List.append_assoc,
        List.length_singleton]
      rfl
    · simp only [if_neg hsign, Sink.puts_puts, field, paddedField, List.append_assoc,
        List.length_nil, List.nil_append]
      simp
  | false =>
    cases type.zeropad with
    | true =>
      simp only [Bool.or_false, Bool.not_true, Bool.false_and, Bool.false_eq_true, if_false,
        if_true, Bool.not_false, afterPad_toNat, List.replicate_zero, Sink.puts_nil]
      by_cases hsign : sign ≠ 0
      · simp only [if_pos hsign, Sink.puts_puts, field, paddedField, List.append_assoc,
          List.length_singleton]
        rfl
      · simp only [if_neg hsign, Sink.puts_puts, field, paddedField, List.append_assoc,
          List.length_nil, List.nil_append, Nat.cast_zero, sub_zero]
    | false =>
      simp only [Bool.or_false, Bool.false_eq_true, if_false, if_true, Bool.not_false,
        Bool.true_and, afterPad_toNat, List.replicate_zero, Sink.puts_nil]
      by_cases hsign : sign ≠ 0
      · have hgap : (if (decide (sign ≠ 0) && decide (size > 0)) = true then size - 1
            else size).toNat = (size - 1).toNat := by
          rw [decide_eq_true hsign, Bool.true_and]
          split_ifs with hroom
          · rfl
          · rw [decide_eq_true_eq] at hroom
            omega
        simp only [if_pos hsign, hgap, afterPad_sub_toNat, List.replicate_zero, Sink.puts_nil,
          Sink.puts_puts, field, paddedField, List.append_assoc, List.length_singleton]
        rfl
      · have hgap : (if (decide (sign ≠ 0) && decide (size > 0)) = true then size - 1
            else size) = size := by
          rw [decide_eq_false hsign, Bool.false_and]
          exact if_neg Bool.false_ne_true
        simp only [if_neg hsign, hgap, afterPad_toNat, List.replicate_zero, Sink.puts_nil,
          Sink.puts_puts, field, paddedField, List.append_assoc, List.length_nil,
          List.nil_append, Nat.cast_zero, sub_zero]

theorem convertChar_puts (spec : Spec) (w : UInt32) (str : Out) :
    convertChar spec w str = str.puts (charText spec w) := by
  unfold convertChar charText Flags.textFilling
  simp only [pad_eq, Sink.put_eq_puts]
  cases spec.flags.left with
  | true =>
    simp only [Bool.not_true, Bool.false_eq_true, if_false, if_true, Sink.puts_puts, field,
      paddedField, List.append_nil, List.nil_append, List.singleton_append]
    refine congrArg (fun n : Int => str.puts (_ :: List.replicate n.toNat (chr ' '))) ?_
    omega
  | false =>
    have hnone : (spec.fieldWidth - 1 - (spec.fieldWidth - 1).toNat - 1).toNat = 0 := by omega
    simp only [Bool.not_false, Bool.false_eq_true, if_false, if_true, Sink.puts_puts, hnone,
      List.replicate_zero, Sink.puts_nil, field, paddedField, List.append_nil]

theorem convertString_puts (spec : Spec) (s : Option (List UInt8)) (str : Out) :
    convertString spec s str =
      str.puts (stringText spec (cString (s.getD (['(', 'n', 'u', 'l', 'l', ')'].map chr)))) := by
  unfold convertString stringText stringLen Flags.textFilling
  generalize cString (s.getD (['(', 'n', 'u', 'l', 'l', ')'].map chr)) = text
  simp only [pad_eq]
  generalize (if spec.precision > 0 && (if 0 ≤ spec.fieldWidth
    then min (text.length : Int) spec.fieldWidth else text.length) > spec.precision
    then spec.precision else (if 0 ≤ spec.fieldWidth
      then min (text.length : Int) spec.fieldWidth else text.length)) = len
  cases spec.flags.left with
  | true =>
    simp only [Bool.not_true, Bool.false_eq_true, if_false, if_true, Sink.puts_puts, field,
      paddedField, List.nil_append]
  | false =>
    have hnone : (len + afterPad (spec.fieldWidth - len) - len).toNat = 0 := by
      unfold afterPad
      omega
    simp only [Bool.not_false, Bool.false_eq_true, if_false, if_true, Sink.puts_puts, hnone,
      List.replicate_zero, Sink.puts_nil, field, paddedField, List.append_nil]

end Gd32Vw553h.Klibc
