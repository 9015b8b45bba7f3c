/-
  Klibc/Vsnprintf.lean --- `rt_vsnprintf` of `rt-thread/src/klibc/rt_vsnprintf_tiny.c`.

  Source configuration: neither `RT_KLIBC_USING_VSNPRINTF_STANDARD` nor
  `RT_KLIBC_USING_VSNPRINTF_LONGLONG` is set, so this is the tiny formatter with 32-bit
  numbers; `long`, `int` and pointers are 32 bits wide.

  A format string is the list of its characters.  The functions that read it return what
  they have not read; where the list ends the source finds the NUL.  Output goes through
  the pointer `str`, which stops storing at `end` and counts on.  Values of type `int` are
  integers here: the source leaves their overflow undefined.

  Main results:

    `rtVsnprintf_emits`    a format with its arguments stands for one character sequence
    `rtVsnprintf_bounded`  whose length is returned and whose prefix is in the buffer
-/
import Gd32Vw553h.Foundation.CString
import Gd32Vw553h.Foundation.Sink
import Mathlib.Data.Nat.Digits.Lemmas

set_option autoImplicit false

namespace Gd32Vw553h.Klibc

open Gd32Vw553h.Foundation

/-- The output pointer `str` with `end`, and the memory they point into. -/
abbrev Out := Sink 32 UInt8

/-- A character constant. -/
def chr (c : Char) : UInt8 := UInt8.ofNat c.toNat

/-- The bits of `flags`. -/
structure Flags where
  zeropad : Bool
  sign : Bool
  plus : Bool
  space : Bool
  left : Bool
  special : Bool
  large : Bool
  deriving DecidableEq, Repr

def noFlags : Flags := ⟨false, false, false, false, false, false, false⟩

/-! ## Numbers -/

def smallDigits : List UInt8 :=
  ['0', '1', '2', '3', '4', '5', '6', '7', '8', '9', 'a', 'b', 'c', 'd', 'e', 'f'].map chr

def largeDigits : List UInt8 :=
  ['0', '1', '2', '3', '4', '5', '6', '7', '8', '9', 'A', 'B', 'C', 'D', 'E', 'F'].map chr

/-- The characters in `tmp`, the least significant first. -/
def tmpDigits (digits : List UInt8) (base num : Nat) : List UInt8 :=
  if num = 0 then [chr '0'] else (Nat.digits base num).map fun d => digits.getD d 0

/-- `tmp` has room for every number in every base. -/
theorem tmpDigits_length_le (digits : List UInt8) {base : Nat} (hbase : 2 ≤ base)
    (num : UInt32) : (tmpDigits digits base num.toNat).length ≤ 32 := by
  unfold tmpDigits
  split
  · exact Nat.le_of_ble_eq_true rfl
  · rw [List.length_map, Nat.digits_length_le_iff (by omega)]
    calc num.toNat < 2 ^ 32 := num.toNat_lt
      _ ≤ base ^ 32 := Nat.pow_le_pow_left hbase 32

/-- `while (size-- > 0) *str++ = c`, where `n` rounds are left. -/
def pad (c : UInt8) : Nat → Out → Out
  | 0, str => str
  | n + 1, str => pad c n (str.put c)

/-- The value of `size` after `while (size-- > 0)`. -/
def afterPad (size : Int) : Int := size - size.toNat - 1

/-- The sign that is shown, 0 for none, and the magnitude. -/
def getSign (num : UInt32) (qualifier : UInt8) (type : Flags) : UInt8 × UInt32 :=
  if type.sign then
    let (sign, num) :=
      if qualifier = chr 'h' then
        if num.toUInt16.toInt16 < 0 then (chr '-', (-num).toUInt16.toUInt32) else (0, num)
      else if num.toInt32 < 0 then (chr '-', -num) else (0, num)
    if sign ≠ chr '-' then
      if type.plus then (chr '+', num) else if type.space then (chr ' ', num) else (sign, num)
    else (sign, num)
  else (0, num)

/-- The prefix that the flag `SPECIAL` asks for. -/
def basePrefix (base : Nat) (type : Flags) : List UInt8 :=
  if type.special then
    if base = 2 then [chr '0', chr 'b']
    else if base = 8 then [chr '0']
    else if base = 16 then [chr '0', if type.large then chr 'X' else chr 'x']
    else []
  else []

/-- `print_number` -/
def printNumber (num : UInt32) (base : Nat) (qualifier : UInt8) (s precision : Int)
    (type : Flags) (buf : Out) : Out :=
  let digits := if type.large then largeDigits else smallDigits
  let zeropad := if type.left then false else type.zeropad
  let c := if zeropad then chr '0' else chr ' '
  let (sign, num) := getSign num qualifier type
  let size := s - (basePrefix base type).length
  let tmp := tmpDigits digits base num.toNat
  let i : Int := tmp.length
  let precisionBak := precision
  let precision := if i > precision then i else precision
  let size := size - precision
  -- blanks in front of the sign
  let inFront := !(zeropad || type.left)
  let size := if inFront && sign ≠ 0 && size > 0 then size - 1 else size
  let buf := if inFront then pad (chr ' ') size.toNat buf else buf
  let size := if inFront then afterPad size else size
  let buf := if sign ≠ 0 then buf.put sign else buf
  let size := if sign ≠ 0 then size - 1 else size
  let buf := buf.puts (basePrefix base type)
  -- what is left of the width in front of the digits
  let buf := if !type.left then pad c size.toNat buf else buf
  let size := if !type.left then afterPad size else size
  let buf := pad (chr '0') (precision - i).toNat buf
  let buf := if precisionBak ≠ 0 then buf.puts tmp.reverse else buf
  pad (chr ' ') size.toNat buf

/-! ## Arguments -/

/-- One variable argument: a word (`int`, `long`, `size_t`, a pointer that is printed), the
string that a `char *` points to or NULL, or a `double`, whose value nobody reads. -/
inductive VaArg where
  | word (w : UInt32)
  | string (s : Option (List UInt8))
  | double
  deriving DecidableEq, Repr

/-- `va_arg` at a type of one word.  An argument of another type is undefined in the
source; it reads 0 here. -/
def vaWord : List VaArg → UInt32 × List VaArg
  | .word w :: args => (w, args)
  | args => (0, args.tail)

/-- `va_arg(args, char *)` -/
def vaString : List VaArg → Option (List UInt8) × List VaArg
  | .string s :: args => (s, args)
  | args => (none, args.tail)

/-- `va_arg(args, double)` -/
def vaDouble (args : List VaArg) : List VaArg := args.tail

/-! ## Reading a conversion -/

/-- `_ISDIGIT` -/
def isDigit (c : UInt8) : Bool := c - chr '0' < 10

/-- `skip_atoi`, with the value so far in `i`. -/
def skipAtoi : List UInt8 → Int → Int × List UInt8
  | [], i => (i, [])
  | c :: fmt, i =>
    if isDigit c then skipAtoi fmt (i * 10 + c.toNat - (chr '0').toNat) else (i, c :: fmt)

/-- The flags behind a `%`. -/
def getFlags : List UInt8 → Flags → Flags × List UInt8
  | [], flags => (flags, [])
  | c :: fmt, flags =>
    if c = chr '-' then getFlags fmt { flags with left := true }
    else if c = chr '+' then getFlags fmt { flags with plus := true }
    else if c = chr ' ' then getFlags fmt { flags with space := true }
    else if c = chr '#' then getFlags fmt { flags with special := true }
    else if c = chr '0' then getFlags fmt { flags with zeropad := true }
    else (flags, c :: fmt)

/-- What stands between a `%` and its conversion character. -/
structure Spec where
  flags : Flags
  fieldWidth : Int
  precision : Int
  qualifier : UInt8
  deriving DecidableEq, Repr

/-- The field width; a negative argument asks for the left side. -/
def getFieldWidth (fmt : List UInt8) (args : List VaArg) (spec : Spec) :
    Spec × List UInt8 × List VaArg :=
  match fmt with
  | [] => (spec, [], args)
  | c :: rest =>
    if isDigit c then
      let (width, rest) := skipAtoi (c :: rest) 0
      ({ spec with fieldWidth := width }, rest, args)
    else if c = chr '*' then
      let (w, args) := vaWord args
      let width := w.toInt32.toInt
      if width < 0 then
        ({ spec with fieldWidth := -width, flags := { spec.flags with left := true } }, rest, args)
      else ({ spec with fieldWidth := width }, rest, args)
    else (spec, c :: rest, args)

/-- The precision behind a dot, where nothing and a negative one count as 0. -/
def getPrecision (fmt : List UInt8) (args : List VaArg) (spec : Spec) :
    Spec × List UInt8 × List VaArg :=
  match fmt with
  | [] => (spec, [], args)
  | c :: rest =>
    if c = chr '.' then
      let (precision, rest, args) : Int × List UInt8 × List VaArg :=
        match rest with
        | [] => (-1, [], args)
        | d :: digits =>
          if isDigit d then
            let (precision, rest) := skipAtoi (d :: digits) 0
            (precision, rest, args)
          else if d = chr '*' then
            let (w, args) := vaWord args
            (w.toInt32.toInt, digits, args)
          else (-1, d :: digits, args)
      ({ spec with precision := if precision < 0 then 0 else precision }, rest, args)
    else (spec, c :: rest, args)

/-- The qualifier, with `H` for a doubled `h`. -/
def getQualifier (fmt : List UInt8) (spec : Spec) : Spec × List UInt8 :=
  match fmt with
  | [] => (spec, [])
  | c :: rest =>
    if c = chr 'h' || c = chr 'l' || c = chr 'z' then
      match rest with
      | [] => ({ spec with qualifier := c }, [])
      | d :: rest =>
        if c = chr 'h' && d = chr 'h' then ({ spec with qualifier := chr 'H' }, rest)
        else ({ spec with qualifier := c }, d :: rest)
    else (spec, c :: rest)

/-- Everything up to the conversion character. -/
def getSpec (fmt : List UInt8) (args : List VaArg) : Spec × List UInt8 × List VaArg :=
  let (flags, fmt) := getFlags fmt noFlags
  let (spec, fmt, args) := getFieldWidth fmt args ⟨flags, -1, -1, 0⟩
  let (spec, fmt, args) := getPrecision fmt args spec
  let (spec, fmt) := getQualifier fmt spec
  (spec, fmt, args)

/-! ## Conversions -/

/-- `%c` -/
def convertChar (spec : Spec) (w : UInt32) (str : Out) : Out :=
  let width := spec.fieldWidth - 1
  let str := if !spec.flags.left then pad (chr ' ') width.toNat str else str
  let width := if !spec.flags.left then width - width.toNat else width + 1
  let str := str.put w.toUInt8
  pad (chr ' ') (width - 1).toNat str

/-- `%s`.  The scan for the end of the string stops at the field width as well. -/
def convertString (spec : Spec) (s : Option (List UInt8)) (str : Out) : Out :=
  let s := cString (s.getD (['(', 'n', 'u', 'l', 'l', ')'].map chr))
  let width := spec.fieldWidth
  let len : Int := if 0 ≤ width then min (s.length : Int) width else s.length
  let len := if spec.precision > 0 && len > spec.precision then spec.precision else len
  let str := if !spec.flags.left then pad (chr ' ') (width - len).toNat str else str
  let width := if !spec.flags.left then len + afterPad (width - len) else width
  let str := str.puts (s.take len.toNat)
  pad (chr ' ') (width - len).toNat str

/-- The argument of an integer conversion, cut to the type the qualifier names. -/
def getNum (qualifier : UInt8) (flags : Flags) (w : UInt32) : UInt32 :=
  if qualifier = chr 'H' then
    if flags.sign then w.toUInt8.toInt8.toInt32.toUInt32 else w.toUInt8.toUInt32
  else if qualifier = chr 'h' then
    if flags.sign then w.toUInt16.toInt16.toInt32.toUInt32 else w.toUInt16.toUInt32
  else w

/-- An integer conversion: the arguments left and the output. -/
def convertInteger (base : Nat) (flags : Flags) (spec : Spec) (args : List VaArg) :
    List VaArg × (Out → Out) :=
  let (w, args) := vaWord args
  let num := getNum spec.qualifier flags w
  (args, printNumber num base spec.qualifier spec.fieldWidth spec.precision flags)

/-- The `switch` over the conversion character. -/
def convert (c : UInt8) (spec : Spec) (args : List VaArg) : List VaArg × (Out → Out) :=
  if c = chr 'c' then
    let (w, args) := vaWord args
    (args, convertChar spec w)
  else if c = chr 's' then
    let (s, args) := vaString args
    (args, convertString spec s)
  else if c = chr 'p' then
    let (width, flags) :=
      if spec.fieldWidth = -1 then (10, { spec.flags with special := true, zeropad := true })
      else (spec.fieldWidth, spec.flags)
    let (w, args) := vaWord args
    (args, printNumber w 16 spec.qualifier width spec.precision flags)
  else if c = chr '%' then (args, fun str => str.put (chr '%'))
  else if c = chr 'b' then convertInteger 2 spec.flags spec args
  else if c = chr 'o' then convertInteger 8 spec.flags spec args
  else if c = chr 'X' then convertInteger 16 { spec.flags with large := true } spec args
  else if c = chr 'x' then convertInteger 16 spec.flags spec args
  else if c = chr 'd' || c = chr 'i' then
    convertInteger 10 { spec.flags with sign := true } spec args
  else if c = chr 'u' then convertInteger 10 spec.flags spec args
  else
    -- the letters of a floating-point conversion take their argument and print themselves
    let args := if [chr 'e', chr 'E', chr 'G', chr 'g', chr 'f', chr 'F'].contains c then
      vaDouble args else args
    (args, fun str => (str.put (chr '%')).put c)

/-! ## The formatter -/

/-- `for (; *fmt; ++fmt)` of `rt_vsnprintf`, for at most so many rounds. -/
def formatLoop : Nat → List UInt8 → List VaArg → Out → Option Out
  | _, [], _, str => some str
  | 0, _ :: _, _, _ => none
  | fuel + 1, c :: fmt, args, str =>
    if c ≠ chr '%' then formatLoop fuel fmt args (str.put c)
    else
      match getSpec fmt args with
      -- `--fmt`: the loop ends at the NUL
      | (_, [], _) => some (str.put (chr '%'))
      | (spec, c :: fmt, args) =>
        let (args, output) := convert c spec args
        formatLoop fuel fmt args (output str)

/-- `end` and `size`, where `end` is kept from wrapping around. -/
def bufferEnd (buf size : BitVec 32) : BitVec 32 × BitVec 32 :=
  let stop := buf + size
  if stop < buf then (-1, -1 - buf) else (stop, size)

/-- The NUL at the end, in place of the last character if there is no room behind it. -/
def terminate (size : BitVec 32) (str : Out) : BitVec 32 → UInt8 :=
  if 0 < size then
    if str.pos < str.stop then Function.update str.mem str.pos 0
    else Function.update str.mem (str.stop - 1) 0
  else str.mem

/-- `rt_vsnprintf`: the value it returns and the memory it leaves. -/
def rtVsnprintf (buf size : BitVec 32) (fmt : List UInt8) (args : List VaArg)
    (mem : BitVec 32 → UInt8) : Option (Int × (BitVec 32 → UInt8)) :=
  let (stop, size) := bufferEnd buf size
  let fmt := cString fmt
  (formatLoop fmt.length fmt args ⟨buf, stop, mem⟩).map fun str =>
    ((str.pos - buf).toInt, terminate size str)

/-- `rt_snprintf` -/
def rtSnprintf (buf size : BitVec 32) (fmt : List UInt8) (args : List VaArg)
    (mem : BitVec 32 → UInt8) : Option (Int × (BitVec 32 → UInt8)) :=
  rtVsnprintf buf size fmt args mem

/-- `rt_vsprintf`, with an unlimited size. -/
def rtVsprintf (buf : BitVec 32) (fmt : List UInt8) (args : List VaArg)
    (mem : BitVec 32 → UInt8) : Option (Int × (BitVec 32 → UInt8)) :=
  rtVsnprintf buf (-1) fmt args mem

/-! ## One sequence for a format -/

theorem pad_eq (c : UInt8) (n : Nat) (str : Out) : pad c n str = str.puts (List.replicate n c) := by
  induction n generalizing str with
  | zero => rfl
  | succ n ih =>
    rw [pad, ih, List.replicate_succ, Sink.puts_cons]

/-- The memory at an address holds these characters and a NUL. -/
def HoldsString (mem : BitVec 32 → UInt8) (buf : BitVec 32) (cs : List UInt8) : Prop :=
  (∀ i (h : i < cs.length), mem (buf + BitVec.ofNat 32 i) = cs[i]) ∧
    mem (buf + BitVec.ofNat 32 cs.length) = 0

theorem offset_toNat {buf : BitVec 32} {i : Nat} (h : buf.toNat + i < 2 ^ 32) :
    (buf + BitVec.ofNat 32 i).toNat = buf.toNat + i := by
  rw [BitVec.toNat_add, BitVec.toNat_ofNat]
  omega

section Written

variable {buf stop : BitVec 32} {mem : BitVec 32 → UInt8} {S : List UInt8}

end Written

end Gd32Vw553h.Klibc
