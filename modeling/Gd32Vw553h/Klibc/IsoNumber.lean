/-
  Klibc/IsoNumber.lean --- the numbers of `print_number` and of ISO C.

  Both are padded fields.  Their lengths, their blanks and the letter of a prefix tell them
  apart; `plain_iff`, `precise_iff` and `hidden_iff` say when they are the same without a
  precision, with one, and with one for which `print_number` leaves the digits out.
-/
import Gd32Vw553h.Klibc.IsoFormat
import Mathlib.Data.List.GetD

set_option autoImplicit false

namespace Gd32Vw553h.Klibc

open Gd32Vw553h.Foundation

/-! ## Telling fields apart -/

section Fields

variable {F F' : Filling} {width : Nat} {sign pre body : List UInt8}

theorem isoField_length : (isoField F width sign pre body).length =
    max width (sign.length + pre.length + body.length) := by
  rw [isoField, paddedField_length]
  omega

theorem isoField_full (h : width ≤ sign.length + pre.length + body.length) :
    isoField F width sign pre body = sign ++ pre ++ body := by
  rw [isoField, Nat.sub_eq_zero_of_le h]
  exact paddedField_gap_zero

theorem isoField_count (hpre : chr ' ' ∉ pre) (hbody : chr ' ' ∉ body) :
    (isoField F width sign pre body).count (chr ' ') =
      (if F = .zeros then 0 else width - (sign.length + pre.length + body.length)) +
        sign.count (chr ' ') :=
  paddedField_count (by decide) hpre hbody

/-- A zero as the prefix is a zero in front of the body. -/
theorem isoField_zero_prefix : isoField F width sign [chr '0'] body =
    isoField F width sign [] (chr '0' :: body) := by
  have hlength : sign.length + [chr '0'].length + body.length =
      sign.length + ([] : List UInt8).length + (chr '0' :: body).length := by
    simp only [List.length_cons, List.length_nil]
    omega
  rw [isoField, isoField, hlength]
  exact paddedField_prefix 1

/-- A field without zeros in its gap differs from one with them, unless there is no gap. -/
theorem isoField_filling_iff (hpre : chr ' ' ∉ pre) (hbody : chr ' ' ∉ body) (left zero : Bool) :
    isoField (filling left zero) width sign pre body =
        isoField (filling left false) width sign pre body ↔
      (zero = true → left = false → width ≤ sign.length + pre.length + body.length) := by
  constructor
  · rintro heq rfl rfl
    have hcount := congrArg (List.count (chr ' ')) heq
    rw [isoField_count hpre hbody, isoField_count hpre hbody] at hcount
    simp only [filling, Bool.false_eq_true, if_false, if_true, reduceCtorEq] at hcount
    omega
  · intro hfull
    cases left with
    | true => rfl
    | false =>
      cases zero with
      | false => rfl
      | true => rw [isoField_full (hfull rfl rfl), isoField_full (hfull rfl rfl)]

/-- A zero more in the body shows, unless zeros fill the gap of both fields. -/
theorem isoField_extra_zero (hbody : chr ' ' ∉ body) (hF : F = F' ∨ F' ≠ .zeros)
    (heq : isoField F width sign [] (chr '0' :: body) = isoField F' width sign [] body) :
    F' = .zeros ∧ sign.length + body.length + 1 ≤ width := by
  have hcons : chr ' ' ∉ chr '0' :: body := by
    rw [List.mem_cons, not_or]
    exact ⟨by decide, hbody⟩
  have hlength := congrArg List.length heq
  have hcount := congrArg (List.count (chr ' ')) heq
  rw [isoField_length, isoField_length] at hlength
  rw [isoField_count List.not_mem_nil hcons, isoField_count List.not_mem_nil hbody] at hcount
  simp only [List.length_cons, List.length_nil] at hlength hcount
  have hroom : sign.length + body.length + 1 ≤ width := by omega
  refine ⟨?_, hroom⟩
  by_contra hne
  rw [if_neg hne] at hcount
  rcases hF with rfl | -
  · rw [if_neg hne] at hcount
    omega
  · split_ifs at hcount <;> omega

/-- A letter in the prefix shows. -/
theorem isoField_letter {c : UInt8} (hc : c ∈ pre) (hblank : c ≠ chr ' ') (hzero : c ≠ chr '0')
    {body' : List UInt8} (hbody : c ∉ body') (gap : Nat) :
    field F gap [] pre body ≠ isoField F' width [] [] body' := by
  intro heq
  have hleft : c ∈ field F gap [] pre body := by
    cases F <;> simp only [field, paddedField, List.mem_append, hc, or_true, true_or]
  rw [heq] at hleft
  cases F' <;> simp [isoField, field, paddedField, hblank, hzero, hbody] at hleft

end Fields

/-! ## Digits -/

section Digits

variable {base : Nat} {upper alternative : Bool} {n : Nat}

theorem isoDigits_zero (base : Nat) (upper : Bool) : isoDigits base upper 0 = [] := by
  rw [isoDigits, Nat.digits_zero]
  rfl

theorem isoDigits_length (base : Nat) (upper : Bool) (n : Nat) :
    (isoDigits base upper n).length = (Nat.digits base n).length := by
  rw [isoDigits, List.length_reverse, List.length_map]

theorem isoDigits_pos (hn : n ≠ 0) : 0 < (isoDigits base upper n).length := by
  rw [isoDigits_length]
  exact List.length_pos_of_ne_nil (Nat.digits_ne_nil_iff_ne_zero.mpr hn)

/-- No digit is a blank. -/
theorem isoDigits_blank (base : Nat) (upper : Bool) (n : Nat) :
    chr ' ' ∉ isoDigits base upper n := by
  have htable : ∀ table : List UInt8, chr ' ' ∉ table → ∀ d, table.getD d 0 ≠ chr ' ' := by
    intro table htable d heq
    rcases Nat.lt_or_ge d table.length with hd | hd
    · rw [List.getD_eq_getElem _ _ hd] at heq
      exact htable (heq ▸ List.getElem_mem hd)
    · rw [List.getD_eq_default _ _ hd] at heq
      exact absurd heq (by decide)
  have hdigits : chr ' ' ∉ (if upper then largeDigits else smallDigits) := by
    cases upper <;> decide
  intro hmem
  rw [isoDigits, List.mem_reverse] at hmem
  obtain ⟨d, -, hd⟩ := List.mem_map.mp hmem
  exact htable _ hdigits d hd

/-- The first digit of an octal number other than zero is no zero. -/
theorem isoDigits_head (hn : n ≠ 0) :
    ∃ c rest, isoDigits 8 upper n = c :: rest ∧ c ≠ chr '0' := by
  have hne := Nat.digits_ne_nil_iff_ne_zero (b := 8).mpr hn
  have hlast : (Nat.digits 8 n).getLast hne ≠ 0 := Nat.getLast_digit_ne_zero 8 hn
  have hless : (Nat.digits 8 n).getLast hne < 8 :=
    Nat.digits_lt_base (by decide) (List.getLast_mem hne)
  have hsplit := List.dropLast_append_getLast hne
  generalize (Nat.digits 8 n).getLast hne = d at *
  refine ⟨(if upper then largeDigits else smallDigits).getD d 0,
    ((Nat.digits 8 n).dropLast.map fun d =>
      (if upper then largeDigits else smallDigits).getD d 0).reverse, ?_, ?_⟩
  · rw [isoDigits, ← hsplit, List.map_append, List.reverse_append]
    simp
  · have hall : ∀ d < 8, d ≠ 0 → smallDigits.getD d 0 ≠ chr '0' ∧
        largeDigits.getD d 0 ≠ chr '0' := by decide
    cases upper
    · exact (hall d hless hlast).1
    · exact (hall d hless hlast).2

/-- The digits that `print_number` keeps in `tmp`, the most significant first. -/
def shownDigits (base : Nat) (upper : Bool) (n : Nat) : List UInt8 :=
  if n = 0 then [chr '0'] else isoDigits base upper n

theorem tmpDigits_reverse (base : Nat) (upper : Bool) (n : Nat) :
    (tmpDigits (if upper then largeDigits else smallDigits) base n).reverse =
      shownDigits base upper n := by
  unfold tmpDigits shownDigits
  split
  · rfl
  · rfl

theorem shownDigits_pos (base : Nat) (upper : Bool) (n : Nat) :
    0 < (shownDigits base upper n).length := by
  unfold shownDigits
  split
  · exact Nat.one_pos
  · next hn => exact isoDigits_pos hn

/-- The digits with the zeros of the precision. -/
def plainBody (base : Nat) (upper : Bool) (precision : Option Nat) (n : Nat) : List UInt8 :=
  List.replicate (precision.getD 1 - (isoDigits base upper n).length) (chr '0') ++
    isoDigits base upper n

theorem plainBody_blank (base : Nat) (upper : Bool) (precision : Option Nat) (n : Nat) :
    chr ' ' ∉ plainBody base upper precision n := by
  rw [plainBody, List.mem_append, List.mem_replicate, not_or]
  exact ⟨fun h => absurd h.2 (by decide), isoDigits_blank base upper n⟩

/-- Without a precision the formatter shows the digits. -/
theorem numberBody_none (base : Nat) (upper : Bool) (n : Nat) :
    numberBody (shownDigits base upper n) (-1) = plainBody base upper none n := by
  have hzero : ((-1 : Int) - (shownDigits base upper n).length).toNat = 0 := by omega
  rw [numberBody, hzero, if_pos (by decide), List.replicate_zero, List.nil_append, plainBody,
    shownDigits]
  by_cases hn : n = 0
  · rw [if_pos hn, hn, isoDigits_zero]
    rfl
  · have hpos := @isoDigits_pos base upper n hn
    have hnone : (none : Option Nat).getD 1 - (isoDigits base upper n).length = 0 :=
      Nat.sub_eq_zero_of_le hpos
    rw [if_neg hn, hnone]
    rfl

/-- With a precision other than zero it shows as many zeros as ISO C. -/
theorem numberBody_some (base : Nat) (upper : Bool) {precision : Nat} (hpos : precision ≠ 0)
    (n : Nat) : numberBody (shownDigits base upper n) precision =
      plainBody base upper (some precision) n := by
  have hne : (precision : Int) ≠ 0 := by omega
  rw [numberBody, if_pos hne, plainBody, shownDigits, Option.getD_some]
  by_cases hn : n = 0
  · have hcount : ((precision : Int) - ([chr '0'] : List UInt8).length).toNat = precision - 1 := by
      rw [List.length_singleton]
      omega
    have hzeros : List.replicate (precision - 1) (chr '0') ++ [chr '0'] =
        List.replicate precision (chr '0') := by
      rw [← List.replicate_succ', Nat.sub_add_cancel (Nat.pos_of_ne_zero hpos)]
    rw [if_pos hn, hcount, hzeros, hn, isoDigits_zero, List.append_nil, List.length_nil,
      Nat.sub_zero]
  · have hcount : ((precision : Int) - (isoDigits base upper n).length).toNat =
        precision - (isoDigits base upper n).length := by omega
    rw [if_neg hn, hcount]

/-- Only the alternative form of an octal number changes the digits. -/
theorem isoBody_plain (h : ¬ (base = 8 ∧ alternative = true)) (precision : Option Nat) :
    isoBody base upper alternative precision n = plainBody base upper precision n := by
  unfold isoBody plainBody
  exact if_neg fun hall => h ⟨hall.1, hall.2.1⟩

/-- An octal number gets a zero in front unless the precision or the value gives one. -/
theorem isoBody_octal (precision : Option Nat) :
    isoBody 8 upper true precision n =
      if (n ≠ 0 ∧ precision.getD 1 ≤ (isoDigits 8 upper n).length) ∨
          (n = 0 ∧ precision = some 0) then
        chr '0' :: plainBody 8 upper precision n
      else plainBody 8 upper precision n := by
  unfold isoBody
  show (if 8 = 8 ∧ true = true ∧ (plainBody 8 upper precision n).head? ≠ some (chr '0')
    then chr '0' :: plainBody 8 upper precision n else plainBody 8 upper precision n) = _
  refine if_congr ?_ rfl rfl
  simp only [true_and]
  by_cases hn : n = 0
  · subst hn
    rw [plainBody, isoDigits_zero, List.append_nil, List.length_nil, Nat.sub_zero]
    cases precision with
    | none => simp
    | some precision =>
      cases precision with
      | zero => simp
      | succ precision => simp [List.replicate_succ]
  · obtain ⟨c, rest, hdigits, hc⟩ := @isoDigits_head upper n hn
    rcases Nat.lt_or_ge (isoDigits 8 upper n).length (precision.getD 1) with hmore | hless
    · obtain ⟨k, hk⟩ : ∃ k, precision.getD 1 - (isoDigits 8 upper n).length = k + 1 :=
        ⟨precision.getD 1 - (isoDigits 8 upper n).length - 1, by omega⟩
      rw [plainBody, hk, List.replicate_succ]
      simp [hn, hmore]
    · rw [plainBody, Nat.sub_eq_zero_of_le hless, hdigits]
      rw [hdigits] at hless
      simpa [hn, hc] using hless

end Digits

/-! ## Numbers -/

section Numbers

variable {base : Nat} {upper alternative left zero : Bool} {width n : Nat} {sign : List UInt8}
  {s : Int}

/-- The characters that `print_number` puts in front of the digits. -/
def codePrefix (base : Nat) (upper alternative : Bool) : List UInt8 :=
  if alternative then
    if base = 16 then [chr '0', if upper then chr 'X' else chr 'x']
    else if base = 8 then [chr '0']
    else []
  else []

/-- What `print_number` puts for a magnitude. -/
def codeNumber (base : Nat) (upper alternative left zero : Bool) (s precision : Int)
    (sign : List UInt8) (n : Nat) : List UInt8 :=
  field (filling left zero)
    (s - (codePrefix base upper alternative).length -
      max ((shownDigits base upper n).length : Int) precision - sign.length).toNat
    sign (codePrefix base upper alternative) (numberBody (shownDigits base upper n) precision)

/-- What ISO C prescribes for a magnitude. -/
def isoShown (base : Nat) (upper alternative left zero : Bool) (width : Nat)
    (precision : Option Nat) (sign : List UInt8) (n : Nat) : List UInt8 :=
  isoField (filling left (zero && precision.isNone)) width sign
    (isoPrefix base upper alternative n) (isoBody base upper alternative precision n)

/-- The field width without a width is negative. -/
def WidthRead (s : Int) (width : Nat) : Prop := s = width ∨ s = -1 ∧ width = 0

theorem numberBody_length (digits : List UInt8) {precision : Int} (h : precision ≠ 0) :
    ((numberBody digits precision).length : Int) = max (digits.length : Int) precision := by
  rw [numberBody, if_pos h, List.length_append, List.length_replicate]
  push_cast
  omega

/-- Where the digits are shown, the counter is the width without the content. -/
theorem codeNumber_shown (hs : WidthRead s width) {precision : Int} (h : precision ≠ 0) :
    codeNumber base upper alternative left zero s precision sign n =
      isoField (filling left zero) width sign (codePrefix base upper alternative)
        (numberBody (shownDigits base upper n) precision) := by
  have hlength := numberBody_length (shownDigits base upper n) h
  have hpos := shownDigits_pos base upper n
  have hgap : (s - (codePrefix base upper alternative).length -
      max ((shownDigits base upper n).length : Int) precision - sign.length).toNat =
        width - (sign.length + (codePrefix base upper alternative).length +
          (numberBody (shownDigits base upper n) precision).length) := by
    rw [← hlength]
    rcases hs with rfl | ⟨rfl, rfl⟩ <;> omega
  rw [codeNumber, hgap, isoField]

/-- The digit zero behind a zero prefix, where ISO C has the zero alone. -/
theorem plain_zero_iff : isoField (filling left zero) width [] [] [chr '0', chr '0'] =
      isoField (filling left zero) width [] [] [chr '0'] ↔
    zero = true ∧ left = false ∧ 2 ≤ width := by
  constructor
  · intro heq
    obtain ⟨hzeros, hroom⟩ := isoField_extra_zero (by decide) (.inl rfl) heq
    have hflags : zero = true ∧ left = false := by
      cases left <;> cases zero <;> simp [filling] at hzeros ⊢
    exact ⟨hflags.1, hflags.2, hroom⟩
  · rintro ⟨rfl, rfl, hroom⟩
    obtain ⟨k, rfl⟩ : ∃ k, width = k + 2 := ⟨width - 2, by omega⟩
    show [] ++ [] ++ List.replicate (k + 2 - 2) (chr '0') ++ [chr '0', chr '0'] =
      [] ++ [] ++ List.replicate (k + 2 - 1) (chr '0') ++ [chr '0']
    rw [show k + 2 - 2 = k from rfl, show k + 2 - 1 = k + 1 from rfl, List.replicate_succ']
    simp

theorem isoPrefix_false : isoPrefix base upper false n = [] := if_neg (by simp)

/-- The formatter puts `0x` in front of zero. -/
theorem letter_ne {F F' : Filling} {body : List UInt8} (k gap : Nat) :
    field F gap [] [chr '0', if upper then chr 'X' else chr 'x'] body ≠
      isoField F' width [] [] (List.replicate k (chr '0')) := by
  have hmem : (if upper then chr 'X' else chr 'x') ∈
      [chr '0', if upper then chr 'X' else chr 'x'] := List.mem_pair.mpr (.inr rfl)
  have hblank : (if upper then chr 'X' else chr 'x') ≠ chr ' ' := by
    cases upper <;> decide
  have hzero : (if upper then chr 'X' else chr 'x') ≠ chr '0' := by
    cases upper <;> decide
  exact isoField_letter hmem hblank hzero (fun h => hzero (List.eq_of_mem_replicate h)) gap

/-- Zero has only the zeros of its precision. -/
theorem plainBody_zero (base : Nat) (upper : Bool) (precision : Option Nat) :
    plainBody base upper precision 0 = List.replicate (precision.getD 1) (chr '0') := by
  rw [plainBody, isoDigits_zero, List.append_nil, List.length_nil, Nat.sub_zero]

/-- Without a precision. -/
theorem plain_iff (hs : WidthRead s width) (halt : alternative = true → base = 8 ∨ base = 16)
    (hsign : alternative = true → sign = []) :
    codeNumber base upper alternative left zero s (-1) sign n =
        isoShown base upper alternative left zero width none sign n ↔
      plainFits base alternative left zero width n := by
  rw [codeNumber_shown hs (by decide), numberBody_none, isoShown, Option.isNone_none, Bool.and_true]
  cases alternative with
  | false =>
    rw [isoBody_plain (by simp), isoPrefix_false]
    exact iff_of_true rfl (fun h => absurd h Bool.false_ne_true)
  | true =>
    obtain rfl := hsign rfl
    rcases halt rfl with rfl | rfl
    · have hcode : codePrefix 8 upper true = [chr '0'] := rfl
      have hiso : isoPrefix 8 upper true n = [] := if_neg (by simp)
      rw [hcode, hiso, isoField_zero_prefix, isoBody_octal]
      by_cases hn : n = 0
      · subst hn
        have hplain : plainBody 8 upper none 0 = [chr '0'] := plainBody_zero 8 upper none
        rw [hplain, if_neg (by simp), plain_zero_iff]
        simp [plainFits]
      · have hpos := @isoDigits_pos 8 upper n hn
        rw [if_pos (.inl ⟨hn, hpos⟩)]
        exact iff_of_true rfl (fun _ => .inl hn)
    · have hcode : codePrefix 16 upper true = [chr '0', if upper then chr 'X' else chr 'x'] := rfl
      rw [isoBody_plain (by simp), hcode]
      by_cases hn : n = 0
      · subst hn
        have hiso : isoPrefix 16 upper true 0 = [] := if_neg (by simp)
        rw [plainBody_zero, hiso]
        exact iff_of_false (letter_ne 1 _) (by simp [plainFits])
      · have hiso : isoPrefix 16 upper true n = [chr '0', if upper then chr 'X' else chr 'x'] :=
          if_pos ⟨rfl, rfl, hn⟩
        rw [hiso]
        exact iff_of_true rfl (fun _ => .inl hn)

theorem plainBody_length (base : Nat) (upper : Bool) (precision : Option Nat) (n : Nat) :
    (plainBody base upper precision n).length =
      max (isoDigits base upper n).length (precision.getD 1) := by
  rw [plainBody, List.length_append, List.length_replicate]
  omega

/-- With a precision other than zero. -/
theorem precise_iff (hs : WidthRead s width) (halt : alternative = true → base = 8 ∨ base = 16)
    (hsign : alternative = true → sign = []) {precision : Nat} (hpos : precision ≠ 0) :
    codeNumber base upper alternative left zero s precision sign n =
        isoShown base upper alternative left zero width (some precision) sign n ↔
      preciseFits base alternative left zero width precision n sign (isoDigits base upper n) := by
  have hne : (precision : Int) ≠ 0 := by omega
  have hbody := plainBody_blank base upper (some precision) n
  have hlength := plainBody_length base upper (some precision) n
  rw [codeNumber_shown hs hne, numberBody_some base upper hpos, isoShown, Option.isNone_some,
    Bool.and_false]
  unfold preciseFits prefixLength
  cases alternative with
  | false =>
    rw [isoBody_plain (by simp), isoPrefix_false]
    have hcode : codePrefix base upper false = [] := rfl
    rw [hcode, isoField_filling_iff List.not_mem_nil hbody, hlength]
    simp
  | true =>
    obtain rfl := hsign rfl
    rcases halt rfl with rfl | rfl
    · have hcode : codePrefix 8 upper true = [chr '0'] := rfl
      have hiso : isoPrefix 8 upper true n = [] := if_neg (by simp)
      rw [hcode, hiso, isoField_zero_prefix, isoBody_octal]
      by_cases hcut : n ≠ 0 ∧ precision ≤ (isoDigits 8 upper n).length
      · have hblank : chr ' ' ∉ chr '0' :: plainBody 8 upper (some precision) n := by
          rw [List.mem_cons, not_or]
          exact ⟨by decide, hbody⟩
        rw [if_pos (.inl hcut), isoField_filling_iff List.not_mem_nil hblank, List.length_cons,
          hlength]
        have hsum : ∀ m : Nat, width ≤ 0 + 0 + (m + 1) ↔ width ≤ 0 + 1 + m := by
          intro m
          omega
        simp only [List.length_nil, Option.getD_some, hsum]
        simp [hcut.1, hcut.2]
      · have hnot : ¬((n ≠ 0 ∧ (some precision).getD 1 ≤ (isoDigits 8 upper n).length) ∨
            (n = 0 ∧ some precision = some 0)) := by
          rintro (h | h)
          · exact hcut h
          · exact hpos (Option.some.inj h.2)
        rw [if_neg hnot]
        refine iff_of_false (fun heq => ?_) (fun h => hcut ⟨(h.1 rfl).1, (h.1 rfl).2 rfl⟩)
        have hfront : filling left false ≠ .zeros := by
          cases left <;> decide
        exact hfront (isoField_extra_zero hbody (.inr hfront) heq).1
    · have hcode : codePrefix 16 upper true = [chr '0', if upper then chr 'X' else chr 'x'] := rfl
      rw [isoBody_plain (by simp), hcode]
      by_cases hn : n = 0
      · subst hn
        have hiso : isoPrefix 16 upper true 0 = [] := if_neg (by simp)
        rw [hiso, plainBody_zero]
        exact iff_of_false (letter_ne _ _) (by simp)
      · have hiso : isoPrefix 16 upper true n = [chr '0', if upper then chr 'X' else chr 'x'] :=
          if_pos ⟨rfl, rfl, hn⟩
        have hblank : chr ' ' ∉ [chr '0', if upper then chr 'X' else chr 'x'] := by
          cases upper <;> decide
        rw [hiso, isoField_filling_iff hblank hbody, hlength]
        simp [hn]

theorem numberBody_hidden (base : Nat) (upper : Bool) (n : Nat) :
    numberBody (shownDigits base upper n) 0 = [] := by
  have hzero : ((0 : Int) - (shownDigits base upper n).length).toNat = 0 := by omega
  rw [numberBody, hzero, if_neg (by decide)]
  rfl

/-- The room that `print_number` reserves is not more than what ISO C shows of a number. -/
theorem hidden_content_le (halt : alternative = true → base = 8 ∨ base = 16)
    {precision : Option Nat} (hprecision : precision = none ∨ precision = some 0) (hn : n ≠ 0) :
    (codePrefix base upper alternative).length + (isoDigits base upper n).length ≤
      (isoPrefix base upper alternative n).length +
        (isoBody base upper alternative precision n).length := by
  have hplain := plainBody_length base upper precision n
  cases alternative with
  | false =>
    rw [isoBody_plain (by simp), hplain]
    exact Nat.add_le_add (Nat.zero_le _) (Nat.le_max_left _ _)
  | true =>
    rcases halt rfl with rfl | rfl
    · have hcode : codePrefix 8 upper true = [chr '0'] := rfl
      have hcut : precision.getD 1 ≤ (isoDigits 8 upper n).length := by
        have hdigit := @isoDigits_pos 8 upper n hn
        rcases hprecision with rfl | rfl
        · exact hdigit
        · exact Nat.zero_le _
      rw [isoBody_octal, if_pos (.inl ⟨hn, hcut⟩), List.length_cons, hplain, hcode,
        List.length_singleton]
      omega
    · have hcode : codePrefix 16 upper true = [chr '0', if upper then chr 'X' else chr 'x'] :=
        rfl
      have hiso : isoPrefix 16 upper true n = [chr '0', if upper then chr 'X' else chr 'x'] :=
        if_pos ⟨rfl, rfl, hn⟩
      rw [isoBody_plain (by simp), hplain, hcode, hiso]
      exact Nat.add_le_add_left (Nat.le_max_left _ _) _

/-- The digits of zero are left out. -/
theorem hidden_zero_iff (hs : WidthRead s width) (halt : alternative = true → base = 8 ∨ base = 16)
    (hsign : alternative = true → sign = []) {precision : Option Nat}
    (hprecision : precision = none ∨ precision = some 0) :
    codeNumber base upper alternative left zero s 0 sign 0 =
        isoShown base upper alternative left zero width precision sign 0 ↔
      hiddenFits base alternative width precision 0 sign := by
  have hdigits : (shownDigits base upper 0).length = 1 := rfl
  have hmax : max ((1 : Nat) : Int) 0 = ((1 : Nat) : Int) := rfl
  rw [codeNumber, numberBody_hidden, hdigits, hmax, isoShown]
  unfold hiddenFits prefixLength
  cases alternative with
  | false =>
    have hcode : codePrefix base upper false = [] := rfl
    rw [hcode, isoPrefix_false, isoBody_plain (by simp), plainBody_zero]
    simp only [List.length_nil, Nat.cast_zero, Nat.cast_one]
    rcases hprecision with rfl | rfl
    · refine iff_of_false (fun heq => ?_) (by simp)
      have hlength := congrArg List.length heq
      rw [paddedField_length, isoField_length, Option.getD_none, List.length_replicate] at hlength
      simp only [List.length_nil] at hlength
      rcases hs with rfl | ⟨rfl, rfl⟩ <;> omega
    · constructor
      · intro heq
        have hlength := congrArg List.length heq
        rw [paddedField_length, isoField_length, Option.getD_some, List.length_replicate]
          at hlength
        simp only [List.length_nil] at hlength
        refine ⟨trivial, by simp, by simp, ?_⟩
        simp only [Bool.false_eq_true, if_false]
        rcases hs with rfl | ⟨rfl, rfl⟩ <;> omega
      · rintro ⟨-, -, -, hfull⟩
        simp only [Bool.false_eq_true, if_false, Nat.add_zero] at hfull
        have hgap : (s - 0 - 1 - sign.length).toNat = 0 := by
          rcases hs with rfl | ⟨rfl, rfl⟩ <;> omega
        rw [isoField_full (by simpa using hfull), hgap]
        exact paddedField_gap_zero
  | true =>
    obtain rfl := hsign rfl
    rcases halt rfl with rfl | rfl
    · have hcode : codePrefix 8 upper true = [chr '0'] := rfl
      have hiso : isoPrefix 8 upper true 0 = [] := if_neg (by simp)
      have hzero : isoBody 8 upper true precision 0 = [chr '0'] := by
        rw [isoBody_octal, plainBody_zero]
        rcases hprecision with rfl | rfl
        · rfl
        · rfl
      rw [hcode, hiso, hzero]
      simp only [List.length_nil, List.length_singleton, Nat.cast_zero, Nat.cast_one, sub_zero]
      constructor
      · intro heq
        have hlength := congrArg List.length heq
        rw [paddedField_length, isoField_length] at hlength
        simp only [List.length_nil, List.length_singleton] at hlength
        refine ⟨trivial, fun _ => trivial, fun _ => trivial, ?_⟩
        simp only [if_true, Nat.reduceEqDiff, if_false]
        rcases hs with rfl | ⟨rfl, rfl⟩ <;> omega
      · rintro ⟨-, -, -, hfull⟩
        simp only [if_true, Nat.reduceEqDiff, if_false] at hfull
        have hgap : (s - 1 - 1).toNat = 0 := by
          rcases hs with rfl | ⟨rfl, rfl⟩ <;> omega
        rw [isoField_full hfull, hgap]
        exact paddedField_gap_zero
    · have hcode : codePrefix 16 upper true = [chr '0', if upper then chr 'X' else chr 'x'] :=
        rfl
      have hiso : isoPrefix 16 upper true 0 = [] := if_neg (by simp)
      rw [hcode, hiso, isoBody_plain (by simp), plainBody_zero]
      exact iff_of_false (letter_ne _ _) (by simp)

/-- With a precision of zero, or a negative one, the digits are left out. -/
theorem hidden_iff (hs : WidthRead s width) (halt : alternative = true → base = 8 ∨ base = 16)
    (hsign : alternative = true → sign = []) {precision : Option Nat}
    (hprecision : precision = none ∨ precision = some 0) :
    codeNumber base upper alternative left zero s 0 sign n =
        isoShown base upper alternative left zero width precision sign n ↔
      hiddenFits base alternative width precision n sign := by
  by_cases hn : n = 0
  · subst hn
    exact hidden_zero_iff hs halt hsign hprecision
  · refine iff_of_false (fun heq => ?_) (fun h => hn h.1)
    have hpos := shownDigits_pos base upper n
    have hmax : max ((shownDigits base upper n).length : Int) 0 =
        (shownDigits base upper n).length := by
      omega
    rw [codeNumber, numberBody_hidden, hmax, isoShown] at heq
    have hlength := congrArg List.length heq
    rw [paddedField_length, isoField_length] at hlength
    have hdigits : (shownDigits base upper n).length = (isoDigits base upper n).length := by
      rw [shownDigits, if_neg hn]
    have hcontent := @hidden_content_le base upper alternative n halt precision hprecision hn
    rw [hdigits] at hlength hpos
    rcases hs with rfl | ⟨rfl, rfl⟩
    · simp only [List.length_nil] at hlength
      omega
    · simp only [List.length_nil] at hlength
      omega

end Numbers

end Gd32Vw553h.Klibc
