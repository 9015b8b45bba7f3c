/-
  Klibc/Directive.lean --- format strings by their parts.

  A format is a list of pieces: ordinary characters, `%%` and directives.  `render` spells
  it; `getSpec_render` says that the formatter reads back what a directive spells.
-/
import Gd32Vw553h.Klibc.FormatText

set_option autoImplicit false

namespace Gd32Vw553h.Klibc

open Gd32Vw553h.Foundation

/-! ## The parts of a directive -/

inductive Flag where
  | minus
  | plus
  | space
  | hash
  | zero
  deriving DecidableEq, Repr

def Flag.char : Flag → UInt8
  | .minus => chr '-'
  | .plus => chr '+'
  | .space => chr ' '
  | .hash => chr '#'
  | .zero => chr '0'

/-- The value of a decimal number. -/
def decimalValue (digits : List (Fin 10)) : Nat := digits.foldl (fun n d => n * 10 + d.val) 0

def digitChar (d : Fin 10) : UInt8 := chr '0' + UInt8.ofNat d.val

/-- A field width; a zero in front would be a flag. -/
inductive Width where
  | none
  | decimal (first : Fin 10) (hfirst : first.val ≠ 0) (more : List (Fin 10))
  | star
  deriving DecidableEq, Repr

def Width.chars : Width → List UInt8
  | .none => []
  | .decimal first _ more => (first :: more).map digitChar
  | .star => [chr '*']

/-- A precision; a dot alone is the decimal number without digits. -/
inductive Precision where
  | none
  | decimal (digits : List (Fin 10))
  | star
  deriving DecidableEq, Repr

def Precision.chars : Precision → List UInt8
  | .none => []
  | .decimal digits => chr '.' :: digits.map digitChar
  | .star => [chr '.', chr '*']

inductive Length where
  | none
  | h
  | hh
  | l
  | z
  deriving DecidableEq, Repr

def Length.chars : Length → List UInt8
  | .none => []
  | .h => [chr 'h']
  | .hh => [chr 'h', chr 'h']
  | .l => [chr 'l']
  | .z => [chr 'z']

inductive Conv where
  | d
  | i
  | u
  | o
  | x
  | X
  | c
  | s
  deriving DecidableEq, Repr

def Conv.char : Conv → UInt8
  | .d => chr 'd'
  | .i => chr 'i'
  | .u => chr 'u'
  | .o => chr 'o'
  | .x => chr 'x'
  | .X => chr 'X'
  | .c => chr 'c'
  | .s => chr 's'

structure Directive where
  flags : List Flag
  width : Width
  precision : Precision
  length : Length
  conv : Conv
  deriving DecidableEq, Repr

/-- What stands behind the `%`. -/
def Directive.chars (d : Directive) : List UInt8 :=
  d.flags.map Flag.char ++
    (d.width.chars ++ (d.precision.chars ++ (d.length.chars ++ [d.conv.char])))

/-- A part of a format. -/
inductive Piece where
  | char (c : UInt8) (hc : c ≠ chr '%' ∧ c ≠ 0)
  | percent
  | directive (d : Directive)
  deriving DecidableEq, Repr

def Piece.render : Piece → List UInt8
  | .char c _ => [c]
  | .percent => [chr '%', chr '%']
  | .directive d => chr '%' :: d.chars

/-- The format string of the pieces. -/
def render (pieces : List Piece) : List UInt8 := pieces.flatMap Piece.render

/-! ## What the formatter reads -/

/-- The bits of `flags`. -/
def flagBits (flags : List Flag) : Flags where
  zeropad := flags.contains .zero
  sign := false
  plus := flags.contains .plus
  space := flags.contains .space
  left := flags.contains .minus
  special := flags.contains .hash
  large := false

/-- `field_width`, whether an argument asks for the left side, and the arguments left. -/
def Width.read (args : List VaArg) : Width → Int × Bool × List VaArg
  | .none => (-1, false, args)
  | .decimal first _ more => (decimalValue (first :: more), false, args)
  | .star =>
    let (w, args) := vaWord args
    if w.toInt32.toInt < 0 then (-w.toInt32.toInt, true, args) else (w.toInt32.toInt, false, args)

/-- `precision`, and the arguments left. -/
def Precision.read (args : List VaArg) : Precision → Int × List VaArg
  | .none => (-1, args)
  | .decimal digits => (decimalValue digits, args)
  | .star =>
    let (w, args) := vaWord args
    (max w.toInt32.toInt 0, args)

def Length.qualifier : Length → UInt8
  | .none => 0
  | .h => chr 'h'
  | .hh => chr 'H'
  | .l => chr 'l'
  | .z => chr 'z'

/-- The values that the formatter reads for a directive, and the arguments left. -/
def Directive.spec (d : Directive) (args : List VaArg) : Spec × List VaArg :=
  let (width, left, args) := d.width.read args
  let (precision, args) := d.precision.read args
  let flags := flagBits d.flags
  (⟨{ flags with left := flags.left || left }, width, precision, d.length.qualifier⟩, args)

/-! ## Reading back -/

/-- The list does not begin with such a character. -/
def StopsAt (p : UInt8 → Bool) (l : List UInt8) : Prop := ∀ c ∈ l.head?, p c = false

def isFlagChar (c : UInt8) : Bool :=
  c = chr '-' || c = chr '+' || c = chr ' ' || c = chr '#' || c = chr '0'

/-- The character of a conversion is none that the formatter reads before it. -/
theorem conv_stops (conv : Conv) (rest : List UInt8) :
    StopsAt isFlagChar (conv.char :: rest) ∧ StopsAt isDigit (conv.char :: rest) ∧
      StopsAt (fun c => c = chr '*' || c = chr '.') (conv.char :: rest) := by
  have hall : ∀ conv : Conv, isFlagChar conv.char = false ∧ isDigit conv.char = false ∧
      (conv.char = chr '*' || conv.char = chr '.') = false := by
    intro conv
    cases conv <;> decide
  obtain ⟨hflag, hdigit, hother⟩ := hall conv
  refine ⟨fun c hc => ?_, fun c hc => ?_, fun c hc => ?_⟩
  · exact Option.mem_some.mp hc ▸ hflag
  · exact Option.mem_some.mp hc ▸ hdigit
  · exact Option.mem_some.mp hc ▸ hother

theorem digitChar_digit (d : Fin 10) :
    isDigit (digitChar d) = true ∧ (digitChar d).toNat = 48 + d.val := by
  revert d
  decide

theorem skipAtoi_digits (digits : List (Fin 10)) {rest : List UInt8} (hrest : StopsAt isDigit rest)
    (n : Nat) : skipAtoi (digits.map digitChar ++ rest) n =
      (Nat.cast (digits.foldl (fun n d => n * 10 + d.val) n), rest) := by
  induction digits generalizing n with
  | nil =>
    cases rest with
    | nil => rfl
    | cons c rest =>
      have hc : isDigit c = false := hrest c rfl
      simp [skipAtoi, hc]
  | cons d digits ih =>
    obtain ⟨hdigit, hvalue⟩ := digitChar_digit d
    have hnext : (n : Int) * 10 + (digitChar d).toNat - (chr '0').toNat =
        (n * 10 + d.val : Nat) := by
      have hzero : (chr '0').toNat = 48 := by decide
      rw [hvalue, hzero]
      push_cast
      omega
    rw [List.map_cons, List.cons_append, skipAtoi, if_pos hdigit, hnext, ih]
    rfl

/-- A flag sets its bit. -/
def Flag.set (flags : Flags) : Flag → Flags
  | .minus => { flags with left := true }
  | .plus => { flags with plus := true }
  | .space => { flags with space := true }
  | .hash => { flags with special := true }
  | .zero => { flags with zeropad := true }

theorem getFlags_chars (fs : List Flag) {rest : List UInt8} (hrest : StopsAt isFlagChar rest)
    (flags : Flags) :
    getFlags (fs.map Flag.char ++ rest) flags = (fs.foldl Flag.set flags, rest) := by
  induction fs generalizing flags with
  | nil =>
    cases rest with
    | nil => rfl
    | cons c rest =>
      have hc : isFlagChar c = false := hrest c rfl
      simp only [isFlagChar, Bool.or_eq_false_iff, decide_eq_false_iff_not] at hc
      obtain ⟨⟨⟨⟨hminus, hplus⟩, hspace⟩, hhash⟩, hzero⟩ := hc
      rw [List.map_nil, List.nil_append, getFlags, if_neg hminus, if_neg hplus, if_neg hspace,
        if_neg hhash, if_neg hzero]
      rfl
  | cons f fs ih =>
    rw [List.map_cons, List.cons_append, List.foldl_cons, ← ih]
    cases f with
    | minus => exact if_pos rfl
    | plus => rfl
    | space => rfl
    | hash => rfl
    | zero => rfl

theorem foldl_set (fs : List Flag) (flags : Flags) :
    fs.foldl Flag.set flags =
      { zeropad := flags.zeropad || fs.contains .zero
        sign := flags.sign
        plus := flags.plus || fs.contains .plus
        space := flags.space || fs.contains .space
        left := flags.left || fs.contains .minus
        special := flags.special || fs.contains .hash
        large := flags.large } := by
  induction fs generalizing flags with
  | nil => simp
  | cons f fs ih =>
    rw [List.foldl_cons, ih]
    cases f <;> simp [Flag.set]

theorem getFlags_render (fs : List Flag) {rest : List UInt8} (hrest : StopsAt isFlagChar rest) :
    getFlags (fs.map Flag.char ++ rest) noFlags = (flagBits fs, rest) := by
  rw [getFlags_chars fs hrest, foldl_set]
  simp [noFlags, flagBits]

/-- A width, which is followed by no digit and no star. -/
theorem getFieldWidth_render (width : Width) {rest : List UInt8} (args : List VaArg) (spec : Spec)
    (hspec : spec.fieldWidth = -1) (hdigit : StopsAt isDigit rest)
    (hstar : StopsAt (· = chr '*') rest) :
    getFieldWidth (width.chars ++ rest) args spec =
      ({ spec with
          fieldWidth := (width.read args).1
          flags := { spec.flags with left := spec.flags.left || (width.read args).2.1 } },
        rest, (width.read args).2.2) := by
  cases width with
  | none =>
    cases rest with
    | nil => simp [getFieldWidth, Width.chars, Width.read, ← hspec]
    | cons c rest =>
      have hc : isDigit c = false := hdigit c rfl
      have hc' : c ≠ chr '*' := of_decide_eq_false (hstar c rfl)
      simp [getFieldWidth, Width.chars, Width.read, ← hspec, hc, hc']
  | decimal first hfirst more =>
    have hatoi : skipAtoi (digitChar first :: (more.map digitChar ++ rest)) 0 =
        (Nat.cast (decimalValue (first :: more)), rest) :=
      skipAtoi_digits (first :: more) hdigit 0
    rw [Width.chars, List.map_cons, List.cons_append, getFieldWidth,
      if_pos (digitChar_digit first).1, hatoi]
    simp [Width.read]
  | star =>
    have hnodigit : isDigit (chr '*') = false := by decide
    rw [Width.chars, List.singleton_append, getFieldWidth, if_neg (by simp [hnodigit]),
      if_pos rfl]
    unfold Width.read
    dsimp only
    split
    · simp
    · simp

/-- A precision, which is followed by no digit, star or dot. -/
theorem getPrecision_render (precision : Precision) {rest : List UInt8} (args : List VaArg)
    (spec : Spec) (hspec : spec.precision = -1) (hdigit : StopsAt isDigit rest)
    (hother : StopsAt (fun c => c = chr '*' || c = chr '.') rest) :
    getPrecision (precision.chars ++ rest) args spec =
      ({ spec with precision := (precision.read args).1 }, rest, (precision.read args).2) := by
  have hother' : ∀ c tail, rest = c :: tail → c ≠ chr '*' ∧ c ≠ chr '.' := by
    rintro c tail rfl
    have hc := hother c rfl
    simpa using hc
  cases precision with
  | none =>
    cases rest with
    | nil => simp [getPrecision, Precision.chars, Precision.read, ← hspec]
    | cons c rest =>
      obtain ⟨-, hc⟩ := hother' c rest rfl
      simp [getPrecision, Precision.chars, Precision.read, ← hspec, hc]
  | decimal digits =>
    have hatoi : skipAtoi (digits.map digitChar ++ rest) 0 =
        (Nat.cast (decimalValue digits), rest) := skipAtoi_digits digits hdigit 0
    simp only [Precision.chars, List.cons_append, getPrecision, if_true]
    cases digits with
    | nil =>
      cases rest with
      | nil => rfl
      | cons c rest =>
        obtain ⟨hc, -⟩ := hother' c rest rfl
        have hc' : isDigit c = false := hdigit c rfl
        simp [hc, hc', Precision.read, decimalValue]
    | cons d digits =>
      rw [List.map_cons, List.cons_append] at hatoi
      rw [List.map_cons, List.cons_append]
      have hnonneg : ¬ (Nat.cast (decimalValue (d :: digits)) : Int) < 0 := by omega
      simp only [(digitChar_digit d).1, if_true, hatoi, Precision.read, if_neg hnonneg]
  | star =>
    have hnodigit : isDigit (chr '*') = false := by decide
    have hmax : ∀ n : Int, (if n < 0 then 0 else n) = max n 0 := by
      intro n
      split_ifs <;> omega
    simp only [Precision.chars, List.cons_append, List.nil_append, getPrecision, if_true, hnodigit,
      Bool.false_eq_true, if_false, hmax, Precision.read]

theorem getQualifier_render (length : Length) (conv : Conv) (rest : List UInt8) (flags : Flags)
    (fieldWidth precision : Int) :
    getQualifier (length.chars ++ conv.char :: rest) ⟨flags, fieldWidth, precision, 0⟩ =
      (⟨flags, fieldWidth, precision, length.qualifier⟩, conv.char :: rest) := by
  cases length with
  | none => cases conv <;> rfl
  | h => cases conv <;> rfl
  | hh => cases conv <;> rfl
  | l => cases conv <;> rfl
  | z => cases conv <;> rfl

/-- What stands behind a precision begins with no digit, star, dot or flag. -/
theorem length_stops (length : Length) (conv : Conv) (rest : List UInt8) :
    StopsAt isFlagChar (length.chars ++ conv.char :: rest) ∧
      StopsAt isDigit (length.chars ++ conv.char :: rest) ∧
      StopsAt (fun c => c = chr '*' || c = chr '.') (length.chars ++ conv.char :: rest) := by
  have hqualifiers : ∀ c, c = chr 'h' ∨ c = chr 'l' ∨ c = chr 'z' → isFlagChar c = false ∧
      isDigit c = false ∧ (c = chr '*' || c = chr '.') = false := by
    rintro c (rfl | rfl | rfl) <;> decide
  have hcons : ∀ c tail, c = chr 'h' ∨ c = chr 'l' ∨ c = chr 'z' →
      StopsAt isFlagChar (c :: tail) ∧ StopsAt isDigit (c :: tail) ∧
        StopsAt (fun c => c = chr '*' || c = chr '.') (c :: tail) := by
    intro c tail hc
    obtain ⟨hflag, hdigit, hother⟩ := hqualifiers c hc
    refine ⟨fun c' hc' => ?_, fun c' hc' => ?_, fun c' hc' => ?_⟩
    · exact Option.mem_some.mp hc' ▸ hflag
    · exact Option.mem_some.mp hc' ▸ hdigit
    · exact Option.mem_some.mp hc' ▸ hother
  cases length with
  | none => exact conv_stops conv rest
  | h => exact hcons _ _ (.inl rfl)
  | hh => exact hcons _ _ (.inl rfl)
  | l => exact hcons _ _ (.inr (.inl rfl))
  | z => exact hcons _ _ (.inr (.inr rfl))

/-- What stands behind a width begins with no digit, star or flag. -/
theorem precision_stops (d : Directive) (rest : List UInt8) :
    StopsAt isFlagChar (d.precision.chars ++ (d.length.chars ++ d.conv.char :: rest)) ∧
      StopsAt isDigit (d.precision.chars ++ (d.length.chars ++ d.conv.char :: rest)) ∧
      StopsAt (fun c => c = chr '*')
        (d.precision.chars ++ (d.length.chars ++ d.conv.char :: rest)) := by
  have hdot : ∀ tail, StopsAt isFlagChar (chr '.' :: tail) ∧ StopsAt isDigit (chr '.' :: tail) ∧
      StopsAt (fun c => c = chr '*') (chr '.' :: tail) := by
    intro tail
    refine ⟨fun c hc => ?_, fun c hc => ?_, fun c hc => ?_⟩
    · rw [← Option.mem_some.mp hc]
      decide
    · rw [← Option.mem_some.mp hc]
      decide
    · rw [← Option.mem_some.mp hc]
      decide
  cases d.precision with
  | none =>
    obtain ⟨hflag, hdigit, hother⟩ := length_stops d.length d.conv rest
    exact ⟨hflag, hdigit, fun c hc => (Bool.or_eq_false_iff.mp (hother c hc)).1⟩
  | decimal digits => exact hdot _
  | star => exact hdot _

theorem width_stops (d : Directive) (rest : List UInt8) :
    StopsAt isFlagChar
      (d.width.chars ++ (d.precision.chars ++ (d.length.chars ++ d.conv.char :: rest))) := by
  have hnonzero : ∀ first : Fin 10, first.val ≠ 0 → isFlagChar (digitChar first) = false := by
    decide
  cases d.width with
  | none => exact (precision_stops d rest).1
  | decimal first hfirst more =>
    intro c hc
    rw [← Option.mem_some.mp hc]
    exact hnonzero first hfirst
  | star =>
    intro c hc
    rw [← Option.mem_some.mp hc]
    decide

/-- The formatter reads back what a directive spells. -/
theorem getSpec_render (d : Directive) (rest : List UInt8) (args : List VaArg) :
    getSpec (d.chars ++ rest) args =
      ((d.spec args).1, d.conv.char :: rest, (d.spec args).2) := by
  obtain ⟨-, hdigit, hstar⟩ := precision_stops d rest
  obtain ⟨-, hdigit', hother⟩ := length_stops d.length d.conv rest
  have hchars : d.chars ++ rest = d.flags.map Flag.char ++ (d.width.chars ++
      (d.precision.chars ++ (d.length.chars ++ d.conv.char :: rest))) := by
    simp only [Directive.chars, List.append_assoc, List.singleton_append]
  unfold getSpec
  rw [hchars, getFlags_render d.flags (width_stops d rest)]
  dsimp only
  rw [getFieldWidth_render d.width args _ rfl hdigit hstar]
  dsimp only
  rw [getPrecision_render d.precision _ _ rfl hdigit' hother]
  dsimp only
  rw [getQualifier_render]
  rfl

/-! ## What the formatter puts -/

def Conv.base : Conv → Nat
  | .o => 8
  | .x => 16
  | .X => 16
  | _ => 10

/-- The bits that the conversion adds to the flags. -/
def Conv.bits (flags : Flags) : Conv → Flags
  | .d => { flags with sign := true }
  | .i => { flags with sign := true }
  | .X => { flags with large := true }
  | _ => flags

/-- What a directive puts, and the arguments left. -/
def Directive.text (d : Directive) (args : List VaArg) : List UInt8 × List VaArg :=
  let (spec, args) := d.spec args
  match d.conv with
  | .c =>
    let (w, args) := vaWord args
    (charText spec w, args)
  | .s =>
    let (s, args) := vaString args
    (stringText spec (cString (s.getD (['(', 'n', 'u', 'l', 'l', ')'].map chr))), args)
  | conv =>
    let (w, args) := vaWord args
    let flags := conv.bits spec.flags
    (numberText (getNum spec.qualifier flags w) conv.base spec.qualifier spec.fieldWidth
      spec.precision flags, args)

/-- What a piece puts, and the arguments left. -/
def Piece.text (args : List VaArg) : Piece → List UInt8 × List VaArg
  | .char c _ => ([c], args)
  | .percent => ([chr '%'], args)
  | .directive d => d.text args

/-- What a format puts. -/
def formatText : List Piece → List VaArg → List UInt8
  | [], _ => []
  | piece :: rest, args => (piece.text args).1 ++ formatText rest (piece.text args).2

/-- The `switch` takes the branch of the conversion. -/
theorem convert_directive (d : Directive) (args : List VaArg) (str : Out) :
    (convert d.conv.char (d.spec args).1 (d.spec args).2).1 = (d.text args).2 ∧
      (convert d.conv.char (d.spec args).1 (d.spec args).2).2 str = str.puts (d.text args).1 := by
  unfold Directive.text
  cases d.conv with
  | c => exact ⟨rfl, convertChar_puts _ _ _⟩
  | s => exact ⟨rfl, convertString_puts _ _ _⟩
  | d => exact ⟨rfl, printNumber_puts _ _ _ _ _ _ _⟩
  | i => exact ⟨rfl, printNumber_puts _ _ _ _ _ _ _⟩
  | u => exact ⟨rfl, printNumber_puts _ _ _ _ _ _ _⟩
  | o => exact ⟨rfl, printNumber_puts _ _ _ _ _ _ _⟩
  | x => exact ⟨rfl, printNumber_puts _ _ _ _ _ _ _⟩
  | X => exact ⟨rfl, printNumber_puts _ _ _ _ _ _ _⟩

theorem render_cons (piece : Piece) (rest : List Piece) :
    render (piece :: rest) = piece.render ++ render rest := List.flatMap_cons

/-- The loop of the formatter goes piece by piece. -/
theorem formatLoop_render (pieces : List Piece) (args : List VaArg) {fuel : Nat}
    (hfuel : (render pieces).length ≤ fuel) (str : Out) :
    formatLoop fuel (render pieces) args str = some (str.puts (formatText pieces args)) := by
  induction pieces generalizing args fuel str with
  | nil =>
    cases fuel with
    | zero => rfl
    | succ fuel => rfl
  | cons piece rest ih =>
    rw [render_cons] at hfuel ⊢
    rw [List.length_append] at hfuel
    obtain ⟨fuel, rfl⟩ : ∃ n, fuel = n + 1 := by
      have hpos : 0 < piece.render.length := by
        cases piece <;> exact Nat.succ_pos _
      exact ⟨fuel - 1, by omega⟩
    rw [formatText, Sink.puts_append]
    cases piece with
    | char c hc =>
      rw [Piece.render, List.singleton_append, formatLoop, if_pos hc.1]
      exact ih _ (by simp only [Piece.render, List.length_singleton] at hfuel; omega) _
    | percent =>
      have hnot : ¬ chr '%' ≠ chr '%' := not_not_intro rfl
      have hspec : getSpec (chr '%' :: render rest) args =
          (⟨noFlags, -1, -1, 0⟩, chr '%' :: render rest, args) := rfl
      rw [Piece.render, List.cons_append, List.singleton_append, formatLoop, if_neg hnot, hspec]
      exact ih _ (by simp only [Piece.render, List.length_cons, List.length_nil] at hfuel; omega) _
    | directive d =>
      have hnot : ¬ chr '%' ≠ chr '%' := not_not_intro rfl
      obtain ⟨hargs, hputs⟩ := convert_directive d args str
      rw [Piece.render, List.cons_append, formatLoop, if_neg hnot, getSpec_render]
      dsimp only
      rw [hargs, hputs]
      exact ih _ (by simp only [Piece.render, List.length_cons] at hfuel; omega) _

theorem directive_nulFree (d : Directive) : NulFree d.chars := by
  have hflag : ∀ f : Flag, f.char ≠ 0 := by
    intro f
    cases f <;> decide
  have hdigit : ∀ n : Fin 10, digitChar n ≠ 0 := by decide
  have hconv : ∀ conv : Conv, conv.char ≠ 0 := by
    intro conv
    cases conv <;> decide
  have hlength : ∀ length : Length, NulFree length.chars := by
    intro length
    cases length <;> decide
  have hdigits : ∀ digits : List (Fin 10), NulFree (digits.map digitChar) := by
    intro digits c hc
    obtain ⟨n, -, rfl⟩ := List.mem_map.mp hc
    exact hdigit n
  intro c hc
  simp only [Directive.chars, List.mem_append, List.mem_singleton] at hc
  rcases hc with hc | hc | hc | hc | hc
  · obtain ⟨f, -, rfl⟩ := List.mem_map.mp hc
    exact hflag f
  · cases hwidth : d.width with
    | none =>
      rw [hwidth] at hc
      cases hc
    | decimal first hfirst more =>
      rw [hwidth] at hc
      exact hdigits (first :: more) c hc
    | star =>
      rw [hwidth] at hc
      rw [List.mem_singleton.mp hc]
      decide
  · cases hprecision : d.precision with
    | none =>
      rw [hprecision] at hc
      cases hc
    | decimal digits =>
      rw [hprecision] at hc
      rcases List.mem_cons.mp hc with rfl | hc
      · decide
      · exact hdigits digits c hc
    | star =>
      rw [hprecision] at hc
      rcases List.mem_pair.mp hc with rfl | rfl
      · decide
      · decide
  · exact hlength d.length c hc
  · rw [hc]
    exact hconv d.conv

theorem render_nulFree (pieces : List Piece) : NulFree (render pieces) := by
  intro c hc
  obtain ⟨piece, -, hc⟩ := List.mem_flatMap.mp hc
  cases piece with
  | char c' hc' =>
    rw [List.mem_singleton.mp hc]
    exact hc'.2
  | percent =>
    rcases List.mem_pair.mp hc with rfl | rfl
    · decide
    · decide
  | directive d =>
    rcases List.mem_cons.mp hc with rfl | hc
    · decide
    · exact directive_nulFree d c hc

/-- A format puts what its pieces put. -/
theorem produces_render (pieces : List Piece) (args : List VaArg) :
    Produces (render pieces) args (formatText pieces args) := by
  intro str
  rw [cString_of_nulFree (render_nulFree pieces)]
  exact formatLoop_render pieces args (Nat.le_refl _) str

end Gd32Vw553h.Klibc
