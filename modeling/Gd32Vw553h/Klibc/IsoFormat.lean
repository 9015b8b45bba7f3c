/-
  Klibc/IsoFormat.lean --- the formatted output of ISO C.

  `isoFormat` is what ISO C prescribes for a format and its arguments, where it prescribes
  something: no value for combinations of flags, lengths and conversions that it leaves
  undefined, nor for arguments of another type.  Wide characters depend on the locale and
  are left out.

  `FormatFits` says for which formats and arguments `rt_vsnprintf` puts the same characters.
-/
import Gd32Vw553h.Klibc.Directive

set_option autoImplicit false

namespace Gd32Vw553h.Klibc

open Gd32Vw553h.Foundation

/-! ## Formatted output of ISO C -/

/-- A field width: whether a negative argument asks for the left side, the width, and the
arguments left. -/
def isoWidth (args : List VaArg) : Width → Option (Bool × Nat × List VaArg)
  | .none => some (false, 0, args)
  | .decimal first _ more => some (false, decimalValue (first :: more), args)
  | .star =>
    match args with
    | .word w :: args => some (decide (w.toInt32.toInt < 0), w.toInt32.toInt.natAbs, args)
    | _ => none

/-- A precision; a negative argument counts as none. -/
def isoPrecision (args : List VaArg) : Precision → Option (Option Nat × List VaArg)
  | .none => some (none, args)
  | .decimal digits => some (some (decimalValue digits), args)
  | .star =>
    match args with
    | .word w :: args =>
      some (if w.toInt32.toInt < 0 then none else some w.toInt32.toInt.toNat, args)
    | _ => none

/-- The argument of a signed conversion, converted to the type that the length names. -/
def isoInt (length : Length) (w : UInt32) : Int :=
  match length with
  | .hh => w.toUInt8.toInt8.toInt
  | .h => w.toUInt16.toInt16.toInt
  | _ => w.toInt32.toInt

/-- The argument of an unsigned conversion. -/
def isoNat (length : Length) (w : UInt32) : Nat :=
  match length with
  | .hh => w.toUInt8.toNat
  | .h => w.toUInt16.toNat
  | _ => w.toNat

def isoSign (flags : List Flag) (n : Int) : List UInt8 :=
  if n < 0 then [chr '-']
  else if flags.contains .plus then [chr '+']
  else if flags.contains .space then [chr ' ']
  else []

/-- The digits of a number, none for zero. -/
def isoDigits (base : Nat) (upper : Bool) (n : Nat) : List UInt8 :=
  ((Nat.digits base n).map fun d => (if upper then largeDigits else smallDigits).getD d 0).reverse

/-- At least as many digits as the precision says; the alternative form of an octal number
begins with a zero. -/
def isoBody (base : Nat) (upper alternative : Bool) (precision : Option Nat) (n : Nat) :
    List UInt8 :=
  let digits := isoDigits base upper n
  let body := List.replicate (precision.getD 1 - digits.length) (chr '0') ++ digits
  if base = 8 ∧ alternative = true ∧ body.head? ≠ some (chr '0') then chr '0' :: body else body

/-- The alternative form of a hexadecimal number other than zero has `0x` in front. -/
def isoPrefix (base : Nat) (upper alternative : Bool) (n : Nat) : List UInt8 :=
  if base = 16 ∧ alternative = true ∧ n ≠ 0 then [chr '0', if upper then chr 'X' else chr 'x']
  else []

def filling (left zero : Bool) : Filling :=
  if left then .behind else if zero then .zeros else .front

/-- A field as wide as the width says, or as its content. -/
def isoField (filling : Filling) (width : Nat) (sign pre body : List UInt8) : List UInt8 :=
  field filling (width - (sign.length + pre.length + body.length)) sign pre body

/-- The sign and the magnitude that an integer conversion shows. -/
def Directive.shown (d : Directive) (w : UInt32) : List UInt8 × Nat :=
  match d.conv with
  | .d => (isoSign d.flags (isoInt d.length w), (isoInt d.length w).natAbs)
  | .i => (isoSign d.flags (isoInt d.length w), (isoInt d.length w).natAbs)
  | _ => ([], isoNat d.length w)

def Directive.upper (d : Directive) : Bool := d.conv = .X

/-- An integer conversion; a precision overrides the flag `0`. -/
def Directive.isoNumber (d : Directive) (left : Bool) (width : Nat) (precision : Option Nat)
    (w : UInt32) : List UInt8 :=
  let (sign, n) := d.shown w
  let alternative := d.flags.contains .hash
  isoField (filling left (d.flags.contains .zero && precision.isNone)) width sign
    (isoPrefix d.conv.base d.upper alternative n)
    (isoBody d.conv.base d.upper alternative precision n)

/-- The characters of a string that the precision leaves. -/
def isoString (precision : Option Nat) (s : List UInt8) : List UInt8 :=
  (cString s).take (precision.getD (cString s).length)

/-- The combinations of flags, precision and length that ISO C defines for a conversion. -/
def Directive.defined (d : Directive) : Bool :=
  match d.conv with
  | .d | .i | .u => !d.flags.contains .hash
  | .o | .x | .X => true
  | .c =>
    !d.flags.contains .hash && !d.flags.contains .zero && d.precision = .none && d.length = .none
  | .s => !d.flags.contains .hash && !d.flags.contains .zero && d.length = .none

/-- What a directive reads: the side, the width, the precision and the arguments left. -/
def Directive.isoRead (d : Directive) (args : List VaArg) :
    Option (Bool × Nat × Option Nat × List VaArg) :=
  if d.defined then
    (isoWidth args d.width).bind fun (negative, width, args) =>
      (isoPrecision args d.precision).map fun (precision, args) =>
        (d.flags.contains .minus || negative, width, precision, args)
  else none

/-- What ISO C prescribes for a directive, and the arguments left. -/
def Directive.iso (d : Directive) (args : List VaArg) : Option (List UInt8 × List VaArg) :=
  (d.isoRead args).bind fun (left, width, precision, args) =>
    match d.conv, args with
    | .s, .string (some s) :: args =>
        some (isoField (filling left false) width [] [] (isoString precision s), args)
    | .s, _ => none
    | .c, .word w :: args => some (isoField (filling left false) width [] [] [w.toUInt8], args)
    | _, .word w :: args => some (d.isoNumber left width precision w, args)
    | _, _ => none

def Piece.iso (args : List VaArg) : Piece → Option (List UInt8 × List VaArg)
  | .char c _ => some ([c], args)
  | .percent => some ([chr '%'], args)
  | .directive d => d.iso args

/-- What ISO C prescribes for a format. -/
def isoFormat : List Piece → List VaArg → Option (List UInt8)
  | [], _ => some []
  | piece :: rest, args =>
    (piece.iso args).bind fun (text, args) => (isoFormat rest args).map (text ++ ·)

/-! ## Where the formatter agrees -/

/-- The precision that the formatter takes for one that ISO C reads. -/
def Directive.codePrecision (d : Directive) (precision : Option Nat) : Option Nat :=
  if d.precision = .none then none else some (precision.getD 0)

/-- The characters in front of the digits that the flag `#` adds. -/
def prefixLength (base : Nat) (alternative : Bool) : Nat :=
  if alternative then if base = 16 then 2 else if base = 8 then 1 else 0 else 0

/-- A number without a precision: zero has no alternative form of its own, unless zeros fill
its field. -/
def plainFits (base : Nat) (alternative left zero : Bool) (width n : Nat) : Prop :=
  alternative = true → n ≠ 0 ∨ base = 8 ∧ zero = true ∧ left = false ∧ 2 ≤ width

/-- A number with a precision: zeros of the precision are no alternative form, and the field
has no gap that zeros would fill. -/
def preciseFits (base : Nat) (alternative left zero : Bool) (width precision n : Nat)
    (sign digits : List UInt8) : Prop :=
  (alternative = true → n ≠ 0 ∧ (base = 8 → precision ≤ digits.length)) ∧
    (zero = true → left = false → width ≤ sign.length + prefixLength base alternative +
      max digits.length precision)

/-- A number whose digits the formatter leaves out: zero, in a field without a gap. -/
def hiddenFits (base : Nat) (alternative : Bool) (width : Nat) (precision : Option Nat) (n : Nat)
    (sign : List UInt8) : Prop :=
  n = 0 ∧ (alternative = true → base = 8) ∧ (precision = none → alternative = true) ∧
    width ≤ sign.length + prefixLength base alternative

/-- Where `print_number` puts the characters of ISO C. -/
def Directive.numberFits (d : Directive) (left : Bool) (width : Nat) (precision : Option Nat)
    (w : UInt32) : Prop :=
  let (sign, n) := d.shown w
  let alternative := d.flags.contains .hash
  let zero := d.flags.contains .zero
  match d.codePrecision precision with
  | none => plainFits d.conv.base alternative left zero width n
  | some 0 => hiddenFits d.conv.base alternative width precision n sign
  | some precision => preciseFits d.conv.base alternative left zero width precision n sign
      (isoDigits d.conv.base d.upper n)

/-- Where the loops of `%s` put the characters of ISO C: with a precision of zero only blanks
are shown, and otherwise the width leaves room for the string. -/
def Directive.stringFits (d : Directive) (width : Nat) (precision : Option Nat)
    (s : List UInt8) : Prop :=
  if precision = some 0 then
    if d.width = .none then cString s = [] else ∀ c ∈ (cString s).take width, c = chr ' '
  else d.width ≠ .none → (isoString precision s).length ≤ width

/-- The formatter agrees with ISO C about a directive. -/
def Directive.Fits (d : Directive) (args : List VaArg) : Prop :=
  match d.isoRead args with
  | none => True
  | some (left, width, precision, args) =>
    match d.conv, args with
    | .c, _ => True
    | .s, .string (some s) :: _ => d.stringFits width precision s
    | .s, _ => True
    | _, .word w :: _ => d.numberFits left width precision w
    | _, _ => True

def Piece.Fits (args : List VaArg) : Piece → Prop
  | .directive d => d.Fits args
  | _ => True

/-- All directives of a format fit the arguments that they get. -/
def FormatFits : List Piece → List VaArg → Prop
  | [], _ => True
  | piece :: rest, args =>
    piece.Fits args ∧ ∀ text args', piece.iso args = some (text, args') → FormatFits rest args'

end Gd32Vw553h.Klibc
