/-
  Klibc/IsoPrintf.lean --- `rt_vsnprintf` and the formatted output of ISO C.

  `directive_iff` is about one directive.  In a format the directives hand on the arguments
  that are left, and no output tells two texts apart only if they are the same
  (`Sink.puts_cancel`); `isoPrintf_iff` is about whole formats.
-/
import Gd32Vw553h.Klibc.IsoNumber

set_option autoImplicit false

namespace Gd32Vw553h.Klibc

open Gd32Vw553h.Foundation

/-! ## What both read -/

theorem isoWidth_read {width : Width} {args rest : List VaArg} {negative : Bool} {n : Nat}
    (h : isoWidth args width = some (negative, n, rest)) :
    ∃ s, width.read args = (s, negative, rest) ∧
      ((width = .none → s = -1 ∧ n = 0) ∧ (width ≠ .none → s = n)) := by
  cases width with
  | none =>
    obtain ⟨rfl, rfl, rfl⟩ : negative = false ∧ n = 0 ∧ rest = args := by
      simpa [isoWidth, eq_comm] using h
    exact ⟨-1, rfl, fun _ => ⟨rfl, rfl⟩, fun hne => absurd rfl hne⟩
  | decimal first hfirst more =>
    obtain ⟨rfl, rfl, rfl⟩ : negative = false ∧ n = decimalValue (first :: more) ∧ rest = args := by
      simpa [isoWidth, eq_comm] using h
    exact ⟨_, rfl, fun hnone => (Width.noConfusion hnone), fun _ => rfl⟩
  | star =>
    cases args with
    | nil => cases h
    | cons arg args =>
      cases arg with
      | string s => cases h
      | double => cases h
      | word w =>
        obtain ⟨rfl, rfl, rfl⟩ : negative = decide (w.toInt32.toInt < 0) ∧
            n = w.toInt32.toInt.natAbs ∧ rest = args := by
          simpa [isoWidth, eq_comm] using h
        rw [Width.read]
        dsimp only [vaWord]
        by_cases hneg : w.toInt32.toInt < 0
        · rw [if_pos hneg, decide_eq_true hneg]
          refine ⟨_, rfl, fun hnone => (Width.noConfusion hnone), fun _ => ?_⟩
          omega
        · rw [if_neg hneg, decide_eq_false hneg]
          refine ⟨_, rfl, fun hnone => (Width.noConfusion hnone), fun _ => ?_⟩
          omega

/-- A precision as the formatter keeps it. -/
def precisionInt : Option Nat → Int
  | none => -1
  | some precision => precision

theorem isoPrecision_read {d : Directive} {args rest : List VaArg} {precision : Option Nat}
    (h : isoPrecision args d.precision = some (precision, rest)) :
    d.precision.read args = (precisionInt (d.codePrecision precision), rest) := by
  unfold Directive.codePrecision
  cases hd : d.precision with
  | none =>
    obtain ⟨rfl, rfl⟩ : precision = none ∧ rest = args := by
      simpa [isoPrecision, hd, eq_comm] using h
    rfl
  | decimal digits =>
    obtain ⟨rfl, rfl⟩ : precision = some (decimalValue digits) ∧ rest = args := by
      simpa [isoPrecision, hd, eq_comm] using h
    rfl
  | star =>
    rw [hd] at h
    cases args with
    | nil => cases h
    | cons arg args =>
      cases arg with
      | string s => cases h
      | double => cases h
      | word w =>
        simp only [isoPrecision, Option.some.injEq, Prod.mk.injEq] at h
        obtain ⟨rfl, rfl⟩ := h
        simp only [Precision.read, vaWord, reduceCtorEq, if_false, precisionInt]
        by_cases hneg : w.toInt32.toInt < 0
        · rw [if_pos hneg, Option.getD_none, max_eq_right hneg.le]
          rfl
        · rw [if_neg hneg, Option.getD_some, max_eq_left (Int.not_lt.mp hneg),
            Int.toNat_of_nonneg (Int.not_lt.mp hneg)]

/-- What ISO C reads for a directive is what the formatter reads. -/
theorem isoRead_spec {d : Directive} {args rest : List VaArg} {left : Bool} {width : Nat}
    {precision : Option Nat} (h : d.isoRead args = some (left, width, precision, rest)) :
    ∃ s, d.spec args = (⟨{ flagBits d.flags with left := left }, s,
        precisionInt (d.codePrecision precision), d.length.qualifier⟩, rest) ∧
      ((d.width = .none → s = -1 ∧ width = 0) ∧ (d.width ≠ .none → s = width)) := by
  unfold Directive.isoRead at h
  split at h
  · obtain ⟨⟨negative, n, mid⟩, hwidth, h⟩ := Option.bind_eq_some_iff.mp h
    obtain ⟨⟨precision', rest'⟩, hprecision, h⟩ := Option.map_eq_some_iff.mp h
    simp only [Prod.mk.injEq] at h
    obtain ⟨rfl, rfl, rfl, rfl⟩ := h
    obtain ⟨s, hread, hs⟩ := isoWidth_read hwidth
    refine ⟨s, ?_, hs⟩
    rw [Directive.spec, hread]
    dsimp only
    rw [isoPrecision_read hprecision]
    rfl
  · cases h

theorem widthRead_of {width : Width} {s : Int} {n : Nat}
    (h : (width = .none → s = -1 ∧ n = 0) ∧ (width ≠ .none → s = n)) : WidthRead s n := by
  by_cases hnone : width = .none
  · exact .inr (h.1 hnone)
  · exact .inl (h.2 hnone)

/-! ## Signs -/

/-- The two's complement of a word that stands for a negative number is its magnitude. -/
theorem word_magnitude (num : UInt32) :
    (num.toInt32.toInt < 0 → (-num).toNat = num.toInt32.toInt.natAbs) ∧
      (¬ num.toInt32.toInt < 0 → num.toNat = num.toInt32.toInt.natAbs) := by
  have hnat := num.toNat_lt
  have hint : num.toInt32.toInt = (num.toNat : Int).bmod (2 ^ 32) :=
    BitVec.toInt_eq_toNat_bmod num.toBitVec
  have hneg : (-num).toNat = (2 ^ 32 - num.toNat) % 2 ^ 32 := UInt32.toNat_neg num
  rw [hint, hneg, Int.bmod]
  split_ifs <;> omega

/-- The same for a word that a 16-bit number has been extended to. -/
theorem halfword_magnitude (x : Int16) :
    x.toInt32.toUInt32.toUInt16.toInt16 = x ∧
      (x.toInt < 0 → (-x.toInt32.toUInt32).toUInt16.toUInt32.toNat = x.toInt.natAbs) ∧
      (¬ x.toInt < 0 → x.toInt32.toUInt32.toNat = x.toInt.natAbs) := by
  have hint : x.toInt = (x.toInt32.toUInt32.toNat : Int).bmod (2 ^ 32) :=
    (Int16.toInt_toInt32 x).symm.trans (BitVec.toInt_eq_toNat_bmod _)
  have hneg : (-x.toInt32.toUInt32).toUInt16.toUInt32.toNat =
      (2 ^ 32 - x.toInt32.toUInt32.toNat) % 2 ^ 32 % 2 ^ 16 := rfl
  have hback : x.toInt32.toUInt32.toUInt16.toInt16.toInt =
      ((x.toInt32.toUInt32.toNat % 2 ^ 16 : Nat) : Int).bmod (2 ^ 16) :=
    BitVec.toInt_eq_toNat_bmod _
  have hword := x.toInt32.toUInt32.toNat_lt
  have hlow := Int16.le_toInt x
  have hhigh := Int16.toInt_lt x
  generalize x.toInt32.toUInt32.toNat = num at *
  refine ⟨Int16.toInt_inj.mp ?_, ?_, ?_⟩
  · rw [hback, hint, Int.bmod, Int.bmod]
    rw [hint, Int.bmod] at hlow hhigh
    split_ifs at * <;> omega
  · rw [hneg, hint, Int.bmod]
    rw [hint, Int.bmod] at hlow hhigh
    split_ifs at * <;> omega
  · rw [hint, Int.bmod]
    rw [hint, Int.bmod] at hlow hhigh
    split_ifs at * <;> omega

/-- The sign of a negative number, or the one that the flags ask for. -/
theorem getSign_cases {num : UInt32} {qualifier : UInt8} {type : Flags} (hsign : type.sign = true)
    {k : Int} {negated : UInt32}
    (hnegative : (if qualifier = chr 'h' then
        if num.toUInt16.toInt16 < 0 then (chr '-', (-num).toUInt16.toUInt32) else (0, num)
      else if num.toInt32 < 0 then (chr '-', -num) else (0, num)) =
        if k < 0 then (chr '-', negated) else (0, num)) :
    getSign num qualifier type =
      if k < 0 then (chr '-', negated)
      else if type.plus then (chr '+', num)
      else if type.space then (chr ' ', num)
      else (0, num) := by
  unfold getSign
  rw [if_pos hsign, hnegative]
  by_cases hk : k < 0
  · rw [if_pos hk, if_pos hk]
    exact if_neg (not_not_intro rfl)
  · rw [if_neg hk, if_neg hk]
    exact if_pos (by decide)

/-- The sign and the magnitude of a signed conversion. -/
theorem getSign_signed (length : Length) (w : UInt32) {type : Flags} (flags : List Flag)
    (hsign : type.sign = true) (hplus : type.plus = flags.contains .plus)
    (hspace : type.space = flags.contains .space) :
    signText (getNum length.qualifier type w) length.qualifier type =
        isoSign flags (isoInt length w) ∧
      (getSign (getNum length.qualifier type w) length.qualifier type).2.toNat =
        (isoInt length w).natAbs := by
  have hcore : ∃ num negated : UInt32,
      (isoInt length w < 0 → negated.toNat = (isoInt length w).natAbs) ∧
      (¬ isoInt length w < 0 → num.toNat = (isoInt length w).natAbs) ∧
      getSign (getNum length.qualifier type w) length.qualifier type =
        if isoInt length w < 0 then (chr '-', negated)
        else if type.plus then (chr '+', num)
        else if type.space then (chr ' ', num)
        else (0, num) := by
    have hword : ∀ num : UInt32, (num.toInt32 < 0) ↔ num.toInt32.toInt < 0 :=
      fun num => Int32.lt_iff_toInt_lt
    have hplain : ∀ num : UInt32, length.qualifier ≠ chr 'h' →
        isoInt length w = num.toInt32.toInt → getNum length.qualifier type w = num →
        ∃ num negated : UInt32,
          (isoInt length w < 0 → negated.toNat = (isoInt length w).natAbs) ∧
          (¬ isoInt length w < 0 → num.toNat = (isoInt length w).natAbs) ∧
          getSign (getNum length.qualifier type w) length.qualifier type =
            if isoInt length w < 0 then (chr '-', negated)
            else if type.plus then (chr '+', num)
            else if type.space then (chr ' ', num)
            else (0, num) := by
      intro num hqualifier hvalue hnum
      obtain ⟨hless, hmore⟩ := word_magnitude num
      rw [hvalue, hnum]
      refine ⟨num, -num, hless, hmore, getSign_cases hsign ?_⟩
      rw [if_neg hqualifier]
      exact if_congr (hword num) rfl rfl
    cases length with
    | none => exact hplain w (by decide) rfl rfl
    | l => exact hplain w (by decide) rfl rfl
    | z => exact hplain w (by decide) rfl rfl
    | hh =>
      refine hplain w.toUInt8.toInt8.toInt32.toUInt32 (by decide) ?_ ?_
      · exact (Int8.toInt_toInt32 _).symm
      · exact (if_pos rfl).trans (if_pos hsign)
    | h =>
      have hnum : getNum Length.h.qualifier type w = w.toUInt16.toInt16.toInt32.toUInt32 :=
        (if_neg (by decide)).trans ((if_pos rfl).trans (if_pos hsign))
      obtain ⟨hback, hless, hmore⟩ := halfword_magnitude w.toUInt16.toInt16
      rw [hnum]
      refine ⟨_, _, hless, hmore, getSign_cases hsign ?_⟩
      have hqualifier : Length.h.qualifier = chr 'h' := rfl
      rw [if_pos hqualifier, hback]
      exact if_congr Int16.lt_iff_toInt_lt rfl rfl
  obtain ⟨num, negated, hless, hmore, hget⟩ := hcore
  rw [signText, hget, isoSign, hplus, hspace]
  by_cases hneg : isoInt length w < 0
  · simp only [if_pos hneg]
    exact ⟨if_pos (by decide), hless hneg⟩
  · simp only [if_neg hneg]
    by_cases hp : flags.contains .plus = true
    · simp only [if_pos hp]
      exact ⟨if_pos (by decide), hmore hneg⟩
    · simp only [if_neg hp]
      by_cases hs : flags.contains .space = true
      · simp only [if_pos hs]
        exact ⟨if_pos (by decide), hmore hneg⟩
      · simp only [if_neg hs]
        exact ⟨if_neg (by decide), hmore hneg⟩

/-- An unsigned conversion shows no sign. -/
theorem getSign_unsigned (length : Length) (w : UInt32) {type : Flags} (hsign : type.sign = false) :
    signText (getNum length.qualifier type w) length.qualifier type = [] ∧
      (getSign (getNum length.qualifier type w) length.qualifier type).2.toNat =
        isoNat length w := by
  have hget : ∀ num qualifier, getSign num qualifier type = (0, num) := by
    intro num qualifier
    rw [getSign, if_neg (by rw [hsign]; decide)]
  rw [signText, hget]
  refine ⟨if_neg (not_not_intro rfl), ?_⟩
  have hnot : ¬ type.sign = true := by
    rw [hsign]
    decide
  cases length with
  | none => rfl
  | l => rfl
  | z => rfl
  | hh =>
    have hnum : getNum Length.hh.qualifier type w = w.toUInt8.toUInt32 :=
      (if_pos rfl).trans (if_neg hnot)
    rw [hnum]
    rfl
  | h =>
    have hnum : getNum Length.h.qualifier type w = w.toUInt16.toUInt32 :=
      (if_neg (by decide)).trans ((if_pos rfl).trans (if_neg hnot))
    rw [hnum]
    rfl

/-! ## Directives -/

section Directives

variable {d : Directive} {args rest : List VaArg} {left : Bool} {width : Nat}
  {precision : Option Nat} {s : Int}

/-- The conversions of integers. -/
def Conv.isInteger : Conv → Bool
  | .c => false
  | .s => false
  | _ => true

theorem shown_spec (hinteger : d.conv.isInteger = true) (left : Bool) (w : UInt32) :
    signText (getNum d.length.qualifier (d.conv.bits { flagBits d.flags with left := left }) w)
        d.length.qualifier (d.conv.bits { flagBits d.flags with left := left }) = (d.shown w).1 ∧
      (getSign (getNum d.length.qualifier (d.conv.bits { flagBits d.flags with left := left }) w)
        d.length.qualifier (d.conv.bits { flagBits d.flags with left := left })).2.toNat =
          (d.shown w).2 := by
  unfold Directive.shown
  cases hconv : d.conv with
  | c => rw [hconv] at hinteger; cases hinteger
  | s => rw [hconv] at hinteger; cases hinteger
  | d => exact getSign_signed d.length w d.flags rfl rfl rfl
  | i => exact getSign_signed d.length w d.flags rfl rfl rfl
  | u => exact getSign_unsigned d.length w rfl
  | o => exact getSign_unsigned d.length w rfl
  | x => exact getSign_unsigned d.length w rfl
  | X => exact getSign_unsigned d.length w rfl

theorem basePrefix_eq (base : Nat) (type : Flags) (h : base = 8 ∨ base = 10 ∨ base = 16) :
    basePrefix base type = codePrefix base type.large type.special := by
  unfold basePrefix codePrefix
  rcases h with rfl | rfl | rfl <;> rfl

theorem Conv.base_cases (conv : Conv) : conv.base = 8 ∨ conv.base = 10 ∨ conv.base = 16 := by
  cases conv <;> decide

/-- An integer conversion puts the number of its magnitude. -/
theorem numberText_shown (hinteger : d.conv.isInteger = true) (left : Bool) (s precision : Int)
    (w : UInt32) :
    numberText (getNum d.length.qualifier (d.conv.bits { flagBits d.flags with left := left }) w)
        d.conv.base d.length.qualifier s precision
        (d.conv.bits { flagBits d.flags with left := left }) =
      codeNumber d.conv.base d.upper (d.flags.contains .hash) left (d.flags.contains .zero) s
        precision (d.shown w).1 (d.shown w).2 := by
  obtain ⟨hsign, hmagnitude⟩ := shown_spec hinteger left w
  unfold numberText codeNumber digitText
  rw [hsign, hmagnitude, basePrefix_eq _ _ d.conv.base_cases]
  have hfilling : (d.conv.bits { flagBits d.flags with left := left }).filling =
      filling left (d.flags.contains .zero) := by
    unfold Flags.filling filling
    cases d.conv <;> rfl
  have hlarge : (d.conv.bits { flagBits d.flags with left := left }).large = d.upper := by
    unfold Directive.upper
    cases d.conv <;> rfl
  have hspecial : (d.conv.bits { flagBits d.flags with left := left }).special =
      d.flags.contains .hash := by
    cases d.conv <;> rfl
  rw [hfilling, hlarge, hspecial, tmpDigits_reverse]

/-- A number is the one of ISO C exactly where it fits. -/
theorem number_iff (hdefined : d.defined = true)
    (hnone : d.precision = .none → precision = none) (hs : WidthRead s width) (w : UInt32) :
    codeNumber d.conv.base d.upper (d.flags.contains .hash) left (d.flags.contains .zero) s
        (precisionInt (d.codePrecision precision)) (d.shown w).1 (d.shown w).2 =
        d.isoNumber left width precision w ↔
      d.numberFits left width precision w := by
  have halt : d.flags.contains .hash = true → d.conv.base = 8 ∨ d.conv.base = 16 := by
    intro hhash
    unfold Directive.defined at hdefined
    cases hconv : d.conv <;> simp_all [Conv.base]
  have hsign : d.flags.contains .hash = true → (d.shown w).1 = [] := by
    intro hhash
    unfold Directive.defined at hdefined
    unfold Directive.shown
    cases hconv : d.conv <;> simp_all
  have hiso : d.isoNumber left width precision w = isoShown d.conv.base d.upper
      (d.flags.contains .hash) left (d.flags.contains .zero) width precision (d.shown w).1
      (d.shown w).2 := rfl
  rw [hiso]
  unfold Directive.numberFits Directive.codePrecision
  by_cases hprecision : d.precision = .none
  · obtain rfl := hnone hprecision
    rw [if_pos hprecision]
    exact plain_iff hs halt hsign
  · rw [if_neg hprecision]
    cases precision with
    | none => exact hidden_iff hs halt hsign (.inl rfl)
    | some precision =>
      cases precision with
      | zero => exact hidden_iff hs halt hsign (.inr rfl)
      | succ precision => exact precise_iff hs halt hsign (Nat.succ_ne_zero precision)

/-- Only blanks look like the blanks of a field. -/
theorem field_blank_iff {F : Filling} (hF : F ≠ .zeros) (gap : Nat) (body : List UInt8) :
    field F gap [] [] body = field F (gap + body.length) [] [] [] ↔ ∀ c ∈ body, c = chr ' ' := by
  have hblanks : field F (gap + body.length) [] [] [] =
      List.replicate (gap + body.length) (chr ' ') := by
    cases F with
    | behind => rfl
    | zeros => exact absurd rfl hF
    | front => simp [field, paddedField]
  rw [hblanks, List.eq_replicate_iff, paddedField_length]
  constructor
  · rintro ⟨-, hall⟩ c hc
    refine hall c ?_
    cases F <;> simp only [paddedField, List.mem_append, hc, or_true, true_or]
  · intro hall
    refine ⟨by simp, fun c hc => ?_⟩
    cases F with
    | behind =>
      simp only [field, paddedField, List.nil_append, List.mem_append] at hc
      rcases hc with hc | hc
      · exact hall c hc
      · exact List.eq_of_mem_replicate hc
    | zeros => exact absurd rfl hF
    | front =>
      simp only [field, paddedField, List.append_nil, List.mem_append] at hc
      rcases hc with hc | hc
      · exact List.eq_of_mem_replicate hc
      · exact hall c hc

theorem isoString_length (precision : Option Nat) (text : List UInt8) :
    (isoString precision text).length = min (precision.getD (cString text).length)
      (cString text).length := by
  rw [isoString, List.length_take]

/-- Except for a precision of zero, `%s` takes what the precision leaves, and of that no more
than the width. -/
theorem stringLen_eq (flags : Flags) (qualifier : UInt8) (hs : WidthRead s width)
    (hprecision : precision ≠ some 0) (hnone : d.precision = .none → precision = none)
    (text : List UInt8) :
    stringLen ⟨flags, s, precisionInt (d.codePrecision precision), qualifier⟩
        (cString text).length =
      if 0 ≤ s then min ((isoString precision text).length : Int) width
      else (isoString precision text).length := by
  rw [isoString_length]
  unfold stringLen
  simp only [Bool.and_eq_true, decide_eq_true_eq]
  cases precision with
  | none =>
    have hzero : ¬ 0 < precisionInt (d.codePrecision none) := by
      unfold Directive.codePrecision
      split
      · decide
      · decide
    rw [if_neg fun h => hzero h.1, Option.getD_none]
    rcases hs with rfl | ⟨rfl, rfl⟩
    · split_ifs <;> omega
    · split_ifs <;> omega
  | some precision =>
    have hcode : precisionInt (d.codePrecision (some precision)) = precision := by
      have hgiven : d.precision ≠ .none := fun h => Option.some_ne_none _ (hnone h)
      rw [Directive.codePrecision, if_neg hgiven]
      rfl
    have hpos : precision ≠ 0 := fun h => hprecision (congrArg some h)
    rw [hcode, Option.getD_some]
    rcases hs with rfl | ⟨rfl, rfl⟩
    · split_ifs <;> omega
    · split_ifs <;> omega

/-- A string is the one of ISO C exactly where it fits. -/
theorem string_iff (flags : Flags) (qualifier : UInt8)
    (hs : (d.width = .none → s = -1 ∧ width = 0) ∧ (d.width ≠ .none → s = width))
    (hnone : d.precision = .none → precision = none) (text : List UInt8) :
    stringText ⟨{ flags with left := left }, s, precisionInt (d.codePrecision precision),
        qualifier⟩ (cString text) =
        isoField (filling left false) width [] [] (isoString precision text) ↔
      d.stringFits width precision text := by
  have hfilling : ({ flags with left := left } : Flags).textFilling = filling left false := rfl
  have hfront : filling left false ≠ .zeros := by
    cases left <;> decide
  unfold stringText
  rw [hfilling]
  unfold Directive.stringFits
  by_cases hzero : precision = some 0
  · -- the formatter shows the string, ISO C only the field
    subst hzero
    have hgiven : d.precision ≠ .none := fun h => Option.some_ne_none _ (hnone h)
    have hcode : precisionInt (d.codePrecision (some 0)) = 0 := by
      rw [Directive.codePrecision, if_neg hgiven]
      rfl
    have hempty : isoString (some 0) text = [] := rfl
    rw [if_pos rfl, hcode, hempty, isoField]
    unfold stringLen
    simp only [gt_iff_lt, lt_self_iff_false, decide_false, Bool.false_and, Bool.false_eq_true,
      if_false, List.length_nil, Nat.add_zero, Nat.sub_zero]
    by_cases hwidth : d.width = .none
    · obtain ⟨rfl, rfl⟩ := hs.1 hwidth
      rw [if_pos hwidth, if_neg (by decide), Int.toNat_natCast, List.take_length]
      have hgap : ((-1 : Int) - (cString text).length).toNat = 0 := by omega
      have hfull : ∀ body : List UInt8, field (filling left false) 0 [] [] body = body :=
        fun body => paddedField_gap_zero
      rw [hgap, hfull, hfull]
    · obtain rfl := hs.2 hwidth
      have hnonneg : (0 : Int) ≤ width := Int.natCast_nonneg width
      rw [if_neg hwidth, if_pos hnonneg]
      have htake : (cString text).take (min ((cString text).length : Int) width).toNat =
          (cString text).take width := by
        have hmin : (min ((cString text).length : Int) width).toNat =
            min width (cString text).length := by omega
        rw [hmin, ← List.take_eq_take_min]
      have hgap : width = ((width : Int) - min ((cString text).length : Int) width).toNat +
          ((cString text).take width).length := by
        rw [List.length_take]
        omega
      rw [htake]
      have hiff := field_blank_iff hfront
        ((width : Int) - min ((cString text).length : Int) width).toNat ((cString text).take width)
      rw [← hgap] at hiff
      exact hiff
  · rw [if_neg hzero,
      stringLen_eq { flags with left := left } qualifier (widthRead_of hs) hzero hnone]
    have hprefix : ∀ k, k ≤ (isoString precision text).length →
        (cString text).take k = (isoString precision text).take k := by
      intro k hk
      rw [isoString_length] at hk
      rw [isoString, List.take_take, Nat.min_eq_left (by omega)]
    by_cases hwidth : d.width = .none
    · obtain ⟨rfl, rfl⟩ := hs.1 hwidth
      have hgap : ((-1 : Int) - (isoString precision text).length).toNat = 0 := by omega
      rw [if_neg (by decide), hgap, Int.toNat_natCast, hprefix _ (Nat.le_refl _), List.take_length,
        isoField, Nat.zero_sub]
      exact iff_of_true rfl (fun hne => absurd hwidth hne)
    · obtain rfl := hs.2 hwidth
      have hnonneg : (0 : Int) ≤ width := Int.natCast_nonneg width
      rw [if_pos hnonneg]
      have hmin : (min ((isoString precision text).length : Int) width).toNat =
          min (isoString precision text).length width := by omega
      rw [hmin, hprefix _ (Nat.min_le_left _ _)]
      constructor
      · intro heq _
        have hlength := congrArg List.length heq
        rw [paddedField_length, isoField_length, List.length_take] at hlength
        simp only [List.length_nil] at hlength
        omega
      · intro hfits
        have hroom := hfits hwidth
        have hgap : ((width : Int) - min ((isoString precision text).length : Int) width).toNat =
            width - (0 + 0 + (isoString precision text).length) := by omega
        rw [Nat.min_eq_left hroom, List.take_length, hgap]
        rfl

theorem char_eq (flags : Flags) (qualifier : UInt8) (hs : WidthRead s width) (p : Int)
    (w : UInt32) : charText ⟨{ flags with left := left }, s, p, qualifier⟩ w =
      isoField (filling left false) width [] [] [w.toUInt8] := by
  have hgap : (s - 1).toNat = width - ([] : List UInt8).length - ([] : List UInt8).length -
      [w.toUInt8].length := by
    simp only [List.length_nil, List.length_singleton]
    rcases hs with rfl | ⟨rfl, rfl⟩ <;> omega
  rw [isoField, Nat.add_assoc, ← Nat.sub_sub, ← Nat.sub_sub]
  exact congrArg (fun gap => field (filling left false) gap [] [] [w.toUInt8]) hgap

theorem isoRead_defined (h : d.isoRead args = some (left, width, precision, rest)) :
    d.defined = true ∧ (d.precision = .none → precision = none) := by
  unfold Directive.isoRead at h
  split at h
  · next hdefined =>
    obtain ⟨⟨negative, n, mid⟩, -, h⟩ := Option.bind_eq_some_iff.mp h
    obtain ⟨⟨precision', rest'⟩, hprecision, h⟩ := Option.map_eq_some_iff.mp h
    simp only [Prod.mk.injEq] at h
    obtain ⟨-, -, rfl, -⟩ := h
    refine ⟨hdefined, fun hnone => ?_⟩
    rw [hnone] at hprecision
    exact (congrArg Prod.fst (Option.some.inj hprecision)).symm
  · cases h

/-- An integer conversion takes a word. -/
theorem iso_integer (hinteger : d.conv.isInteger = true)
    (hread : d.isoRead args = some (left, width, precision, rest)) {text : List UInt8}
    {left' : List VaArg} (h : d.iso args = some (text, left')) :
    ∃ w, rest = .word w :: left' ∧ text = d.isoNumber left width precision w := by
  rw [Directive.iso, hread, Option.bind_some] at h
  dsimp only at h
  cases rest with
  | nil => cases hconv : d.conv <;> simp [hconv] at h
  | cons arg args' =>
    cases hconv : d.conv with
    | c => rw [hconv] at hinteger; cases hinteger
    | s => rw [hconv] at hinteger; cases hinteger
    | d | i | u | o | x | X =>
      rw [hconv] at h
      cases arg with
      | string s => cases h
      | double => cases h
      | word w =>
        obtain ⟨rfl, rfl⟩ := Prod.mk.inj (Option.some.inj h)
        exact ⟨w, rfl, rfl⟩

/-- A character takes a word, a string one. -/
theorem iso_text {left : Bool} {width : Nat} {precision : Option Nat} {mid : List VaArg}
    {text : List UInt8} (hinteger : ¬ d.conv.isInteger = true)
    (hread : d.isoRead args = some (left, width, precision, mid))
    (h : d.iso args = some (text, rest)) :
    (∃ w, d.conv = .c ∧ mid = .word w :: rest ∧
        text = isoField (filling left false) width [] [] [w.toUInt8]) ∨
      ∃ s, d.conv = .s ∧ mid = .string (some s) :: rest ∧
        text = isoField (filling left false) width [] [] (isoString precision s) := by
  rw [Directive.iso, hread, Option.bind_some] at h
  dsimp only at h
  cases hconv : d.conv with
  | d | i | u | o | x | X => exact absurd (by rw [hconv]; rfl) hinteger
  | c =>
    rw [hconv] at h
    cases mid with
    | nil => cases h
    | cons arg args' =>
      cases arg with
      | string s => cases h
      | double => cases h
      | word w =>
        obtain ⟨rfl, rfl⟩ := Prod.mk.inj (Option.some.inj h)
        exact .inl ⟨w, rfl, rfl, rfl⟩
  | s =>
    rw [hconv] at h
    cases mid with
    | nil => cases h
    | cons arg args' =>
      cases arg with
      | double => cases h
      | word w => cases h
      | string s =>
        cases s with
        | none => cases h
        | some s =>
          obtain ⟨rfl, rfl⟩ := Prod.mk.inj (Option.some.inj h)
          exact .inr ⟨s, rfl, rfl, rfl⟩

/-- What an integer conversion puts, and where it fits. -/
theorem text_integer (hinteger : d.conv.isInteger = true) {w : UInt32}
    (hread : d.isoRead args = some (left, width, precision, .word w :: rest))
    (hspec : d.spec args = (⟨{ flagBits d.flags with left := left }, s,
      precisionInt (d.codePrecision precision), d.length.qualifier⟩, .word w :: rest)) :
    d.text args = (codeNumber d.conv.base d.upper (d.flags.contains .hash) left
        (d.flags.contains .zero) s (precisionInt (d.codePrecision precision)) (d.shown w).1
        (d.shown w).2, rest) ∧
      (d.Fits args ↔ d.numberFits left width precision w) := by
  rw [← numberText_shown hinteger]
  unfold Directive.text Directive.Fits
  rw [hspec, hread]
  dsimp only
  cases hconv : d.conv with
  | c => rw [hconv] at hinteger; cases hinteger
  | s => rw [hconv] at hinteger; cases hinteger
  | d | i | u | o | x | X => exact ⟨rfl, Iff.rfl⟩

/-- A directive puts what ISO C prescribes exactly where it fits. -/
theorem directive_iff {text : List UInt8} (h : d.iso args = some (text, rest)) :
    (d.text args).2 = rest ∧ ((d.text args).1 = text ↔ d.Fits args) := by
  obtain ⟨⟨left, width, precision, mid⟩, hread, -⟩ := Option.bind_eq_some_iff.mp h
  obtain ⟨s, hspec, hs⟩ := isoRead_spec hread
  obtain ⟨hdefined, hnone⟩ := isoRead_defined hread
  by_cases hinteger : d.conv.isInteger = true
  · obtain ⟨w, rfl, rfl⟩ := iso_integer hinteger hread h
    obtain ⟨htext, hfits⟩ := text_integer hinteger hread hspec
    rw [htext, hfits]
    exact ⟨rfl, number_iff hdefined hnone (widthRead_of hs) w⟩
  · unfold Directive.text Directive.Fits
    obtain ⟨w, hconv, rfl, rfl⟩ | ⟨str, hconv, rfl, rfl⟩ := iso_text hinteger hread h
    · rw [hspec, hread, hconv]
      exact ⟨rfl, iff_of_true (char_eq _ _ (widthRead_of hs) _ w) trivial⟩
    · rw [hspec, hread, hconv]
      exact ⟨rfl, string_iff _ _ hs hnone str⟩

end Directives

/-! ## How long the texts are -/

section Lengths

variable {d : Directive} {args rest : List VaArg}

/-- A number is as long as its field or its content. -/
theorem codeNumber_length_le (base : Nat) (upper alternative left zero : Bool) (s precision : Int)
    (sign : List UInt8) (n : Nat) :
    (codeNumber base upper alternative left zero s precision sign n).length ≤
      max s.toNat (sign.length + (codePrefix base upper alternative).length +
        max (shownDigits base upper n).length precision.toNat) := by
  rw [codeNumber, paddedField_length]
  have hbody : (numberBody (shownDigits base upper n) precision).length ≤
      max (shownDigits base upper n).length precision.toNat := by
    rw [numberBody, List.length_append, List.length_replicate]
    split_ifs
    · omega
    · rw [List.length_nil]
      omega
  omega

theorem codePrefix_length_le (base : Nat) (upper alternative : Bool) :
    (codePrefix base upper alternative).length ≤ 2 := by
  unfold codePrefix
  split_ifs <;> simp

theorem shown_le (d : Directive) (w : UInt32) :
    (d.shown w).1.length ≤ 1 ∧ (d.shown w).2 < 2 ^ 32 := by
  have hsign : ∀ n : Int, (isoSign d.flags n).length ≤ 1 := by
    intro n
    unfold isoSign
    split_ifs <;> simp
  have hint : (isoInt d.length w).natAbs < 2 ^ 32 := by
    have hbyte := Int8.le_toInt w.toUInt8.toInt8
    have hbyte' := Int8.toInt_lt w.toUInt8.toInt8
    have hhalf := Int16.le_toInt w.toUInt16.toInt16
    have hhalf' := Int16.toInt_lt w.toUInt16.toInt16
    have hword := Int32.le_toInt w.toInt32
    have hword' := Int32.toInt_lt w.toInt32
    unfold isoInt
    cases d.length <;> dsimp only <;> omega
  have hnat : isoNat d.length w < 2 ^ 32 := by
    have hbyte := w.toUInt8.toNat_lt
    have hhalf := w.toUInt16.toNat_lt
    have hword := w.toNat_lt
    unfold isoNat
    cases d.length <;> dsimp only <;> omega
  unfold Directive.shown
  cases d.conv with
  | d | i => exact ⟨hsign _, hint⟩
  | u | o | x | X | c | s => exact ⟨Nat.zero_le _, hnat⟩

theorem shownDigits_length_le (conv : Conv) (upper : Bool) {n : Nat} (hn : n < 2 ^ 32) :
    (shownDigits conv.base upper n).length ≤ 32 := by
  unfold shownDigits
  split
  · exact Nat.le_of_ble_eq_true rfl
  · have hbase : 2 ≤ conv.base := by
      rcases conv.base_cases with h | h | h <;> omega
    rw [isoDigits_length, Nat.digits_length_le_iff (by omega)]
    exact hn.trans_le (Nat.pow_le_pow_left hbase 32)

/-- A field of ISO C is no shorter than its width, and a number no shorter than its
precision. -/
theorem isoNumber_length_ge (left : Bool) (width : Nat) (precision : Option Nat) (w : UInt32) :
    width ≤ (d.isoNumber left width precision w).length ∧
      precision.getD 1 ≤ (d.isoNumber left width precision w).length := by
  have hbody : precision.getD 1 ≤
      (isoBody d.conv.base d.upper (d.flags.contains .hash) precision (d.shown w).2).length := by
    have hplain := plainBody_length d.conv.base d.upper precision (d.shown w).2
    unfold isoBody
    show precision.getD 1 ≤ (if _ then chr '0' :: plainBody d.conv.base d.upper precision
      (d.shown w).2 else plainBody d.conv.base d.upper precision (d.shown w).2).length
    split_ifs
    · rw [List.length_cons]
      omega
    · omega
  have hiso : d.isoNumber left width precision w = isoShown d.conv.base d.upper
      (d.flags.contains .hash) left (d.flags.contains .zero) width precision (d.shown w).1
      (d.shown w).2 := rfl
  rw [hiso, isoShown, isoField_length]
  omega

/-- The arguments left are arguments. -/
theorem isoRead_subset {left : Bool} {width : Nat} {precision : Option Nat}
    (h : d.isoRead args = some (left, width, precision, rest)) : rest ⊆ args := by
  have hword : ∀ {args rest : List VaArg} {width : Width} {negative : Bool} {n : Nat},
      isoWidth args width = some (negative, n, rest) → rest ⊆ args := by
    intro args rest width negative n h
    unfold isoWidth at h
    split at h
    · simp only [Option.some.injEq, Prod.mk.injEq] at h
      exact h.2.2 ▸ List.Subset.refl _
    · simp only [Option.some.injEq, Prod.mk.injEq] at h
      exact h.2.2 ▸ List.Subset.refl _
    · split at h
      · simp only [Option.some.injEq, Prod.mk.injEq] at h
        exact h.2.2 ▸ List.subset_cons_self _ _
      · cases h
  have hprecision : ∀ {args rest : List VaArg} {precision : Precision} {n : Option Nat},
      isoPrecision args precision = some (n, rest) → rest ⊆ args := by
    intro args rest precision n h
    unfold isoPrecision at h
    split at h
    · simp only [Option.some.injEq, Prod.mk.injEq] at h
      exact h.2 ▸ List.Subset.refl _
    · simp only [Option.some.injEq, Prod.mk.injEq] at h
      exact h.2 ▸ List.Subset.refl _
    · split at h
      · simp only [Option.some.injEq, Prod.mk.injEq] at h
        exact h.2 ▸ List.subset_cons_self _ _
      · cases h
  unfold Directive.isoRead at h
  split at h
  · obtain ⟨⟨negative, n, mid⟩, hwidth, h⟩ := Option.bind_eq_some_iff.mp h
    obtain ⟨⟨precision', rest'⟩, hread, h⟩ := Option.map_eq_some_iff.mp h
    simp only [Prod.mk.injEq] at h
    obtain ⟨-, -, -, rfl⟩ := h
    exact List.Subset.trans (hprecision hread) (hword hwidth)
  · cases h

theorem iso_subset {text : List UInt8} (h : d.iso args = some (text, rest)) : rest ⊆ args := by
  obtain ⟨⟨left, width, precision, mid⟩, hread, -⟩ := Option.bind_eq_some_iff.mp h
  have hmid := isoRead_subset hread
  have hcons : ∀ arg, mid = arg :: rest → rest ⊆ args := by
    rintro arg rfl
    exact List.Subset.trans (List.subset_cons_self _ _) hmid
  by_cases hinteger : d.conv.isInteger = true
  · obtain ⟨w, hmid, -⟩ := iso_integer hinteger hread h
    exact hcons _ hmid
  · obtain ⟨w, -, hmid, -⟩ | ⟨s, -, hmid, -⟩ := iso_text hinteger hread h
    · exact hcons _ hmid
    · exact hcons _ hmid

/-- A string is as long as its field or as itself. -/
theorem stringText_length_le (spec : Spec) (text : List UInt8) :
    (stringText spec text).length ≤ max spec.fieldWidth.toNat text.length := by
  have hnonneg : 0 ≤ stringLen spec text.length := by
    unfold stringLen
    simp only [Bool.and_eq_true, decide_eq_true_eq]
    split_ifs <;> omega
  rw [stringText, paddedField_length, List.length_take, List.length_nil]
  omega

/-- A directive whose text ISO C can count puts less than a whole address space. -/
theorem directive_length {text : List UInt8} (h : d.iso args = some (text, rest))
    (hlength : text.length < 2 ^ 31)
    (hargs : ∀ s, VaArg.string (some s) ∈ args → s.length < 2 ^ 32) :
    (d.text args).1.length < 2 ^ 32 := by
  obtain ⟨⟨left, width, precision, mid⟩, hread, -⟩ := Option.bind_eq_some_iff.mp h
  obtain ⟨s, hspec, hs⟩ := isoRead_spec hread
  by_cases hinteger : d.conv.isInteger = true
  · obtain ⟨w, rfl, rfl⟩ := iso_integer hinteger hread h
    obtain ⟨htext, -⟩ := text_integer hinteger hread hspec
    obtain ⟨hwidth, hprecision⟩ := @isoNumber_length_ge d left width precision w
    obtain ⟨hsign, hmagnitude⟩ := shown_le d w
    have hdigits := shownDigits_length_le d.conv d.upper hmagnitude
    have hprefix := codePrefix_length_le d.conv.base d.upper (d.flags.contains .hash)
    have hcode : (precisionInt (d.codePrecision precision)).toNat ≤ precision.getD 1 := by
      unfold Directive.codePrecision
      cases precision with
      | none => split_ifs <;> decide
      | some precision =>
        split_ifs
        · exact Nat.zero_le _
        · exact Nat.le_refl _
    have hs' : s.toNat ≤ width := by
      rcases widthRead_of hs with rfl | ⟨rfl, rfl⟩ <;> omega
    rw [htext]
    refine (codeNumber_length_le _ _ _ _ _ _ _ _ _).trans_lt ?_
    omega
  · obtain ⟨w, hconv, rfl, rfl⟩ | ⟨str, hconv, rfl, rfl⟩ := iso_text hinteger hread h
    · have hfits : d.Fits args := by
        unfold Directive.Fits
        rw [hread, hconv]
        trivial
      rw [(directive_iff h).2.mpr hfits]
      omega
    · have hstr := hargs str (isoRead_subset hread List.mem_cons_self)
      have hcut : (cString str).length ≤ str.length := (List.takeWhile_sublist _).length_le
      have htext : (d.text args).1 = stringText ⟨{ flagBits d.flags with left := left }, s,
          precisionInt (d.codePrecision precision), d.length.qualifier⟩ (cString str) := by
        unfold Directive.text
        rw [hspec, hconv]
        rfl
      have hs' : s.toNat ≤ width := by
        rcases widthRead_of hs with rfl | ⟨rfl, rfl⟩ <;> omega
      rw [isoField_length] at hlength
      rw [htext]
      refine (stringText_length_le _ _).trans_lt ?_
      dsimp only
      omega

end Lengths

/-! ## Formats -/

section Formats

variable {pieces : List Piece} {args : List VaArg}

/-- For the format and for everything that it begins with, the formatter puts the characters that
ISO C prescribes. -/
def IsoAgrees (pieces : List Piece) (args : List VaArg) : Prop :=
  ∀ n text, isoFormat (pieces.take n) args = some text →
    Produces (render (pieces.take n)) args text

/-- The arguments are strings of an address space. -/
def ArgsFit (args : List VaArg) : Prop := ∀ s, VaArg.string (some s) ∈ args → s.length < 2 ^ 32

theorem piece_subset {piece : Piece} {text : List UInt8} {rest : List VaArg}
    (h : piece.iso args = some (text, rest)) : rest ⊆ args := by
  cases piece with
  | char c hc => exact (Prod.mk.inj (Option.some.inj h)).2 ▸ List.Subset.refl _
  | percent => exact (Prod.mk.inj (Option.some.inj h)).2 ▸ List.Subset.refl _
  | directive d => exact iso_subset h

/-- A piece puts what ISO C prescribes exactly where it fits. -/
theorem piece_iff {piece : Piece} {text : List UInt8} {rest : List VaArg}
    (h : piece.iso args = some (text, rest)) :
    (piece.text args).2 = rest ∧ ((piece.text args).1 = text ↔ piece.Fits args) := by
  cases piece with
  | char c hc =>
    obtain ⟨rfl, rfl⟩ := Prod.mk.inj (Option.some.inj h)
    exact ⟨rfl, iff_of_true rfl trivial⟩
  | percent =>
    obtain ⟨rfl, rfl⟩ := Prod.mk.inj (Option.some.inj h)
    exact ⟨rfl, iff_of_true rfl trivial⟩
  | directive d => exact directive_iff h

theorem piece_length {piece : Piece} {text : List UInt8} {rest : List VaArg}
    (h : piece.iso args = some (text, rest)) (hlength : text.length < 2 ^ 31)
    (hargs : ArgsFit args) : (piece.text args).1.length < 2 ^ 32 := by
  cases piece with
  | char c hc => exact Nat.one_lt_two_pow (by decide)
  | percent => exact Nat.one_lt_two_pow (by decide)
  | directive d => exact directive_length h hlength hargs

theorem isoFormat_cons {piece : Piece} {rest : List Piece} {text : List UInt8}
    (h : isoFormat (piece :: rest) args = some text) :
    ∃ first args' more, piece.iso args = some (first, args') ∧ isoFormat rest args' = some more ∧
      text = first ++ more := by
  obtain ⟨⟨first, args'⟩, hpiece, h⟩ := Option.bind_eq_some_iff.mp h
  obtain ⟨more, hrest, rfl⟩ := Option.map_eq_some_iff.mp h
  exact ⟨first, args', more, hpiece, hrest, rfl⟩

/-- Where all directives fit, the formatter puts the text of ISO C. -/
theorem formatText_of_fits {text : List UInt8} (h : isoFormat pieces args = some text)
    (hfits : FormatFits pieces args) : formatText pieces args = text := by
  induction pieces generalizing args text with
  | nil => exact Option.some.inj h
  | cons piece rest ih =>
    obtain ⟨first, args', more, hpiece, hrest, rfl⟩ := isoFormat_cons h
    obtain ⟨hargs, hiff⟩ := piece_iff hpiece
    rw [formatText, hargs, hiff.mpr hfits.1, ih hrest (hfits.2 _ _ hpiece)]

/-- The beginnings of a format that fits fit. -/
theorem FormatFits.take (h : FormatFits pieces args) (n : Nat) :
    FormatFits (pieces.take n) args := by
  induction pieces generalizing args n with
  | nil =>
    rw [List.take_nil]
    trivial
  | cons piece rest ih =>
    cases n with
    | zero => trivial
    | succ n => exact ⟨h.1, fun text args' hpiece => ih (h.2 text args' hpiece) n⟩

/-- What no output tells apart, behind a common beginning, is put by directives that fit. -/
theorem fits_of_puts (before : List UInt8) {text : List UInt8}
    (h : isoFormat pieces args = some text) (hlength : text.length < 2 ^ 31) (hargs : ArgsFit args)
    (hsame : ∀ n text, isoFormat (pieces.take n) args = some text → ∀ str : Out,
      str.puts (before ++ formatText (pieces.take n) args) = str.puts (before ++ text)) :
    FormatFits pieces args := by
  induction pieces generalizing args before text with
  | nil => trivial
  | cons piece rest ih =>
    obtain ⟨first, args', more, hpiece, hrest, rfl⟩ := isoFormat_cons h
    obtain ⟨hleft, hiff⟩ := piece_iff hpiece
    rw [List.length_append] at hlength
    have hfirst : (piece.text args).1 = first := by
      have hone : isoFormat ((piece :: rest).take 1) args = some first := by
        show (piece.iso args).bind _ = some first
        rw [hpiece]
        show some (first ++ []) = some first
        rw [List.append_nil]
      have hputs := hsame 1 first hone
      have htext : formatText ((piece :: rest).take 1) args = (piece.text args).1 :=
        List.append_nil _
      rw [htext] at hputs
      exact Sink.puts_cancel (fun _ => 0) hputs
        (piece_length hpiece (by omega) hargs) (by omega)
    refine ⟨hiff.mp hfirst, fun text args'' hpiece' => ?_⟩
    obtain ⟨rfl, rfl⟩ := Prod.mk.inj (Option.some.inj (hpiece.symm.trans hpiece'))
    refine ih (before ++ first) hrest (by omega)
      (fun s hs => hargs s (piece_subset hpiece hs)) fun n text htext str => ?_
    have hnext : isoFormat ((piece :: rest).take (n + 1)) args = some (first ++ text) := by
      show (piece.iso args).bind _ = some (first ++ text)
      rw [hpiece]
      show (isoFormat (rest.take n) args').map (first ++ ·) = some (first ++ text)
      rw [htext]
      rfl
    have hputs := hsame (n + 1) (first ++ text) hnext str
    have htexts : formatText ((piece :: rest).take (n + 1)) args =
        first ++ formatText (rest.take n) args' := by
      rw [List.take_succ_cons, formatText, hfirst, hleft]
    rw [htexts, ← List.append_assoc, ← List.append_assoc] at hputs
    exact hputs

/-- Formatting agrees with ISO C, for a format and everything that it begins with, exactly when
each directive fits the arguments that it gets.  ISO C has to define the format, and the number
of its characters has to be an `int`. -/
theorem isoPrintf_iff {text : List UInt8} (hdefined : isoFormat pieces args = some text)
    (hlength : text.length < 2 ^ 31) (hargs : ArgsFit args) :
    IsoAgrees pieces args ↔ FormatFits pieces args := by
  constructor
  · intro hagrees
    refine fits_of_puts [] hdefined hlength hargs fun n text htext str => ?_
    have hcode := produces_render (pieces.take n) args str
    have hiso := hagrees n text htext str
    exact Option.some.inj (hcode.symm.trans hiso)
  · intro hfits n text htext
    rw [← formatText_of_fits htext (hfits.take n)]
    exact produces_render _ _

/-- `%3s` with a string of one character. -/
theorem isoPrintf_iff_three :
    IsoAgrees [.directive ⟨[], .decimal 3 (by decide) [], .none, .none, .s⟩]
      [.string (some [chr 'a'])] :=
  (@isoPrintf_iff _ _ [chr ' ', chr ' ', chr 'a'] (by decide) (by decide) (by
    intro s hs
    obtain rfl : s = [chr 'a'] := by simpa using hs
    decide)).mpr ⟨by
      intro _
      show 1 ≤ 3
      decide, fun _ _ _ => trivial⟩

/-- `%2s` with a string of three characters: the formatter puts two of them. -/
theorem not_isoPrintf : ¬ ∀ pieces args text, isoFormat pieces args = some text →
    text.length < 2 ^ 31 → ArgsFit args → Produces (render pieces) args text := by
  intro hall
  have hiso := hall [.directive ⟨[], .decimal 2 (by decide) [], .none, .none, .s⟩]
    [.string (some [chr 'a', chr 'b', chr 'c'])] [chr 'a', chr 'b', chr 'c'] (by decide)
    (by decide) (by
      intro s hs
      obtain rfl : s = [chr 'a', chr 'b', chr 'c'] := by simpa using hs
      decide)
  have hcode := produces_render [.directive ⟨[], .decimal 2 (by decide) [], .none, .none, .s⟩]
    [.string (some [chr 'a', chr 'b', chr 'c'])]
  have hputs : ∀ str : Out, str.puts ([] ++ [chr 'a', chr 'b', chr 'c']) =
      str.puts ([] ++ [chr 'a', chr 'b']) := fun str =>
    Option.some.inj ((hiso str).symm.trans (hcode str))
  exact absurd (Sink.puts_cancel (fun _ => 0) hputs (by decide) (by decide)) (by decide)

end Formats

end Gd32Vw553h.Klibc
