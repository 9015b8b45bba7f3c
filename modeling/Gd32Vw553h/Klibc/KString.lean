/-
  Klibc/KString.lean --- the string routines of `rt-thread/src/klibc/kstring.c`.

  Source configuration: none of the `RT_KLIBC_USING_LIBC_*` switches is set, so
  each routine is the loop in the file itself.
-/
import Gd32Vw553h.Foundation.CString

set_option autoImplicit false

namespace Gd32Vw553h.Klibc

open Gd32Vw553h.Foundation

/-- `rt_strlen`: count bytes up to the terminator. -/
def rtStrlen : List UInt8 → Nat
  | [] => 0
  | b :: s => if b = 0 then 0 else rtStrlen s + 1

theorem rtStrlen_eq (s : List UInt8) : rtStrlen s = (cString s).length := by
  induction s with
  | nil => rfl
  | cons b s ih =>
    by_cases hb : b = 0
    · simp [rtStrlen, cString, hb]
    · simp [rtStrlen, hb, ih, cString]

/-- `rt_strncpy`: the `n` bytes stored at `dst`.  Once the terminator has been
copied the inner loop stores NUL bytes up to `n`. -/
def rtStrncpy : Nat → List UInt8 → List UInt8
  | 0, _ => []
  | n + 1, [] => List.replicate (n + 1) 0
  | n + 1, b :: s => if b = 0 then List.replicate (n + 1) 0 else b :: rtStrncpy n s

theorem rtStrncpy_eq (n : Nat) (s : List UInt8) : rtStrncpy n s = zeroPad n (cString s) := by
  induction n generalizing s with
  | zero => simp [rtStrncpy, zeroPad]
  | succ n ih =>
    cases s with
    | nil => simp [rtStrncpy, zeroPad, cString]
    | cons b s =>
      by_cases hb : b = 0
      · simp [rtStrncpy, zeroPad, cString, hb]
      · simp [rtStrncpy, hb, ih, zeroPad, cString]

@[simp] theorem rtStrncpy_length (n : Nat) (s : List UInt8) : (rtStrncpy n s).length = n := by
  rw [rtStrncpy_eq, zeroPad_length]

/-- `rt_strncpy(dst, src, sizeof(dst))` on a character array. -/
def rtStrncpyArray (n : Nat) (s : List UInt8) : Vector UInt8 n :=
  ⟨(rtStrncpy n s).toArray, by simp⟩

theorem rtStrncpyArray_toList (n : Nat) (s : List UInt8) :
    (rtStrncpyArray n s).toList = zeroPad n (cString s) := by
  simp [rtStrncpyArray, rtStrncpy_eq]

/-- `rt_strncmp`, whose result is the difference cut to a signed character.  Behind the
end of a list stands its terminator. -/
def rtStrncmp : List UInt8 → List UInt8 → Nat → Int8
  | _, _, 0 => 0
  | cs, ct, count + 1 =>
    let c := cs.headD 0
    let res := (c - ct.headD 0).toInt8
    if res ≠ 0 ∨ c = 0 then res else rtStrncmp cs.tail ct.tail count

theorem toInt8_sub_eq_zero {c d : UInt8} : (c - d).toInt8 = 0 ↔ c = d := by
  constructor
  · intro h
    have hzero : c - d = 0 := congrArg Int8.toUInt8 h
    calc c = c - d + d := (UInt8.sub_add_cancel c d).symm
      _ = d := by rw [hzero, UInt8.zero_add]
  · rintro rfl
    rw [UInt8.sub_self]
    rfl

/-- Whether two strings agree does not depend on which is the first. -/
theorem rtStrncmp_comm (cs ct : List UInt8) (count : Nat) :
    rtStrncmp cs ct count = 0 ↔ rtStrncmp ct cs count = 0 := by
  induction count generalizing cs ct with
  | zero => exact iff_of_true rfl rfl
  | succ count ih =>
    rw [rtStrncmp, rtStrncmp]
    by_cases hcd : cs.headD 0 = ct.headD 0
    · rw [hcd]
      by_cases hstop : (ct.headD 0 - ct.headD 0).toInt8 ≠ 0 ∨ ct.headD 0 = 0
      · rw [if_pos hstop, if_pos hstop]
      · rw [if_neg hstop, if_neg hstop]
        exact ih cs.tail ct.tail
    · have hne : (cs.headD 0 - ct.headD 0).toInt8 ≠ 0 := fun h => hcd (toInt8_sub_eq_zero.mp h)
      have hne' : (ct.headD 0 - cs.headD 0).toInt8 ≠ 0 :=
        fun h => hcd (toInt8_sub_eq_zero.mp h).symm
      rw [if_pos (.inl hne), if_pos (.inl hne')]
      exact iff_of_false hne hne'

/-- Comparing as many characters as a string has asks whether it is a prefix. -/
theorem rtStrncmp_begins {p : List UInt8} (hp : NulFree p) (l : List UInt8) :
    rtStrncmp p l p.length = 0 ↔ p <+: l := by
  induction p generalizing l with
  | nil => exact iff_of_true rfl List.nil_prefix
  | cons c p ih =>
    have hc : c ≠ 0 := hp c List.mem_cons_self
    have hrest : NulFree p := fun b hb => hp b (List.mem_cons_of_mem c hb)
    rw [List.length_cons, rtStrncmp]
    cases l with
    | nil =>
      have hne : (c - 0).toInt8 ≠ 0 := fun h => hc (toInt8_sub_eq_zero.mp h)
      rw [List.headD_cons, List.headD_nil, if_pos (.inl hne)]
      exact iff_of_false hne (fun h => List.cons_ne_nil c p (List.prefix_nil.mp h))
    | cons d l =>
      rw [List.headD_cons, List.headD_cons, List.cons_prefix_cons]
      by_cases hcd : c = d
      · have hnone : ¬((c - d).toInt8 ≠ 0 ∨ c = 0) :=
          fun h => h.elim (fun h => h (toInt8_sub_eq_zero.mpr hcd)) hc
        rw [if_neg hnone, List.tail_cons, List.tail_cons, ih hrest]
        exact ⟨fun h => ⟨hcd, h⟩, fun h => h.2⟩
      · have hne : (c - d).toInt8 ≠ 0 := fun h => hcd (toInt8_sub_eq_zero.mp h)
        rw [if_pos (.inl hne)]
        exact iff_of_false hne (fun h => hcd h.1)

/-- Only so many characters are looked at. -/
theorem rtStrncmp_append (cs p q : List UInt8) :
    rtStrncmp cs (p ++ q) p.length = rtStrncmp cs p p.length := by
  induction p generalizing cs with
  | nil => rfl
  | cons c p ih =>
    rw [List.length_cons, rtStrncmp, rtStrncmp, List.cons_append, List.tail_cons, List.tail_cons,
      ih, List.headD_cons, List.headD_cons]

end Gd32Vw553h.Klibc
