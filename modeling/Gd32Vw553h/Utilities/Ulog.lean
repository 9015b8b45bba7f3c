/-
  Utilities/Ulog.lean --- the formatters of a log line
  (`components/utilities/ulog/ulog.c`, `src/rtconfig.h`).

  Source configuration: `ULOG_USING_COLOR`, `ULOG_OUTPUT_TIME` with the tick counter,
  `ULOG_OUTPUT_LEVEL` and `ULOG_OUTPUT_TAG` are set, `ULOG_LINE_BUF_SIZE` is 128.  The warning
  that is printed once about a small buffer is left out; static variables are local here, since
  the callers hold a lock.  `dump_string` is an array of its own.

  `lineText` says what a line should be.  `ulogLine_iff` says when the formatters make that of
  their input and write nothing else: `ulog_formater` unless the pointer that counts the
  characters of the content runs past the end of the address space, `ulog_hex_formater` exactly
  when the addresses fit behind the head.
-/
import Gd32Vw553h.Klibc.Directive
import Gd32Vw553h.Klibc.KString
import Gd32Vw553h.Klibc.StoredText
import Gd32Vw553h.Utilities.LineBuffer

set_option autoImplicit false

namespace Gd32Vw553h.Utilities

open Gd32Vw553h.Foundation Gd32Vw553h.Klibc

/-! ## The code -/

/-- `LOG_LVL_ASSERT`, `LOG_LVL_ERROR`, `LOG_LVL_WARNING`, `LOG_LVL_INFO`, `LOG_LVL_DBG` -/
inductive LogLevel where
  | assert
  | error
  | warning
  | info
  | dbg
  deriving DecidableEq, Repr

def chars (s : List Char) : List UInt8 := s.map chr

/-- `CSI_START` -/
def csiStart : List UInt8 := 0x1b :: chars ['[']

/-- `CSI_END` -/
def csiEnd : List UInt8 := 0x1b :: chars ['[', '0', 'm']

/-- `ULOG_NEWLINE_SIGN` -/
def ulogNewlineSign : List UInt8 := [0x0d, 0x0a]

/-- `color_output_info` -/
def colorOutputInfo : LogLevel → Option (List UInt8)
  | .assert => some (chars ['3', '5', 'm'])
  | .error => some (chars ['3', '1', 'm'])
  | .warning => some (chars ['3', '3', 'm'])
  | .info => some (chars ['3', '2', 'm'])
  | .dbg => none

/-- `level_output_info` -/
def levelOutputInfo : LogLevel → List UInt8
  | .assert => chars ['A', '/']
  | .error => chars ['E', '/']
  | .warning => chars ['W', '/']
  | .info => chars ['I', '/']
  | .dbg => chars ['D', '/']

/-- The loop of `ulog_ultoa` over the digits, the least significant first. -/
def ultoaDigits (n : Nat) : List UInt8 :=
  (chr '0' + UInt8.ofNat (n % 10)) :: if n / 10 = 0 then [] else ultoaDigits (n / 10)
termination_by n
decreasing_by omega

/-- `ulog_ultoa`: the number of digits, and the memory with them in reverse order and a NUL. -/
def ulogUltoa (s : BitVec 32) (n : UInt32) (mem : Mem) : Nat × Mem :=
  let digits := ultoaDigits n.toNat
  (digits.length, store mem s (digits.reverse ++ [0]))

/-- `rt_strlen(log_buf + log_len)`, up to the end of the buffer. -/
def Line.strlen (buf : BitVec 32) (line : Line) : Nat :=
  rtStrlen ((List.range (ulogLineBufSize + 1 - line.len)).map fun i =>
    line.mem (place buf (line.len + i)))

/-- The tick in brackets. -/
def Line.tick (buf : BitVec 32) (line : Line) (tick : UInt32) : Line :=
  let line := line.set buf line.len (chr '[')
  let (tickLen, mem) := ulogUltoa (place buf (line.len + 1)) tick line.mem
  let line : Line := ⟨line.len, mem⟩
  let line := line.set buf (line.len + 1 + tickLen) (chr ']')
  let line := line.set buf (line.len + 1 + tickLen + 1) 0
  ⟨line.len + line.strlen buf, line.mem⟩

/-- `ulog_head_formater`; `tick` is `rt_tick_get()`. -/
def ulogHeadFormater (buf : BitVec 32) (level : LogLevel) (tag : List UInt8) (tick : UInt32)
    (mem : Mem) : Line :=
  let line : Line := ⟨0, mem⟩
  let line := match colorOutputInfo level with
    | some color => (line.append buf csiStart).append buf color
    | none => line
  let line := line.set buf line.len 0
  let line := line.tick buf tick
  let line := line.append buf (chars [' '])
  let line := line.append buf (levelOutputInfo level)
  let line := line.append buf tag
  line.append buf (chars [':', ' '])

/-- `ulog_tail_formater` -/
def ulogTailFormater (buf : BitVec 32) (line : Line) (newline : Bool) (level : LogLevel) :
    Nat × Mem :=
  let newlineLen := ulogNewlineSign.length
  let line : Line :=
    if line.len + csiEnd.length + newlineLen + 1 > ulogLineBufSize then
      { line with len := ulogLineBufSize - csiEnd.length - newlineLen - 1 }
    else line
  let line := if newline then line.append buf ulogNewlineSign else line
  let line := if (colorOutputInfo level).isSome then line.append buf csiEnd else line
  let line := line.set buf line.len 0
  (line.len, line.mem)

/-- `ulog_formater` -/
def ulogFormater (buf : BitVec 32) (level : LogLevel) (tag : List UInt8) (newline : Bool)
    (format : List UInt8) (args : List VaArg) (tick : UInt32) (mem : Mem) : Option (Nat × Mem) := do
  let line := ulogHeadFormater buf level tag tick mem
  let (fmtResult, mem) ← rtVsnprintf (place buf line.len)
    (BitVec.ofNat 32 (ulogLineBufSize - line.len)) format args line.mem
  let len := if (line.len + fmtResult) % 2 ^ 32 ≤ ulogLineBufSize ∧ fmtResult > -1 then
    line.len + fmtResult.toNat else ulogLineBufSize
  pure (ulogTailFormater buf ⟨len, mem⟩ newline level)

/-- `%04X-%04X: ` -/
def addressFormat : List UInt8 :=
  chars ['%', '0', '4', 'X', '-', '%', '0', '4', 'X', ':', ' ']

/-- `%02X ` -/
def byteFormat : List UInt8 := chars ['%', '0', '2', 'X', ' ']

/-- `%c` -/
def charFormat : List UInt8 := chars ['%', 'c']

/-- `rt_snprintf(dump_string, sizeof(dump_string), ..)`: the string in the array. -/
def dumpString (format : List UInt8) (args : List VaArg) : Option (List UInt8) :=
  (rtSnprintf 0 8 format args fun _ => 0).map fun r =>
    cString ((List.range 8).map fun i => r.2 (place 0 i))

/-- `__is_print` -/
def isPrint (ch : UInt8) : Bool := ch.toUInt32 - 32 < 127 - 32

/-- `dump_string` for a byte. -/
def dumpCell (data : Nat → UInt8) (size j : Nat) : Option (List UInt8) :=
  if j < size then dumpString byteFormat [.word (data j).toUInt32]
  else some (cString (rtStrncpy 8 (chars [' ', ' ', ' '])))

/-- The loop over the bytes of `ulog_hex_formater`, with so many rounds left. -/
def dumpHex (buf : BitVec 32) (data : Nat → UInt8) (size : Nat) : (rounds j : Nat) → Line →
    Option Line
  | 0, _, line => some line
  | rounds + 1, j, line => do
    let cell ← dumpCell data size j
    let line := line.append buf cell
    let line := if (j + 1) % 8 = 0 then line.append buf (chars [' ']) else line
    dumpHex buf data size rounds (j + 1) line

/-- The loop over the characters. -/
def dumpChars (buf : BitVec 32) (data : Nat → UInt8) : (rounds j : Nat) → Line → Option Line
  | 0, _, line => some line
  | rounds + 1, j, line => do
    let ch := if isPrint (data j) then data j else chr '.'
    let cell ← dumpString charFormat [.word ch.toUInt32]
    dumpChars buf data rounds (j + 1) (line.append buf cell)

/-- `ulog_hex_formater` -/
def ulogHexFormater (buf : BitVec 32) (tag : List UInt8) (data : Nat → UInt8)
    (size width addr : UInt32) (tick : UInt32) (mem : Mem) : Option (Nat × Mem) := do
  let line := ulogHeadFormater buf .dbg tag tick mem
  let (fmtResult, mem) ← rtSnprintf (place buf line.len) (BitVec.ofNat 32 ulogLineBufSize)
    addressFormat [.word addr, .word (addr + size)] line.mem
  let len := if fmtResult > -1 ∧ fmtResult ≤ ulogLineBufSize then line.len + fmtResult.toNat
    else ulogLineBufSize
  let line ← dumpHex buf data size.toNat width.toNat 0 ⟨len, mem⟩
  let line := line.append buf (chars [' ', ' '])
  let line ← dumpChars buf data size.toNat 0 line
  pure (ulogTailFormater buf line true .dbg)

/-! ## What a line should be -/

/-- The tick counter in decimal digits. -/
def tickText (tick : UInt32) : List UInt8 :=
  chars ['['] ++ (ultoaDigits tick.toNat).reverse ++ chars [']']

/-- Colour, time, level and tag. -/
def headText (level : LogLevel) (tag : List UInt8) (tick : UInt32) : List UInt8 :=
  (colorOutputInfo level).elim [] (csiStart ++ ·) ++ tickText tick ++ chars [' '] ++
    levelOutputInfo level ++ tag ++ chars [':', ' ']

/-- A number in hexadecimal digits, with zeros in front up to a width. -/
def hexNumber (width : Nat) (n : UInt32) : List UInt8 :=
  let digits := (tmpDigits largeDigits 16 n.toNat).reverse
  List.replicate (width - digits.length) (chr '0') ++ digits

/-- The addresses of the first byte and behind the last. -/
def addressText (addr size : UInt32) : List UInt8 :=
  hexNumber 4 addr ++ chars ['-'] ++ hexNumber 4 (addr + size) ++ chars [':', ' ']

/-- The place of a byte in the hexadecimal part. -/
def hexCells (data : Nat → UInt8) (size j : Nat) : List (List UInt8) :=
  (if j < size then hexNumber 2 (data j).toUInt32 ++ chars [' '] else chars [' ', ' ', ' ']) ::
    if (j + 1) % 8 = 0 then [chars [' ']] else []

/-- The place of a byte in the character part. -/
def charCell (data : Nat → UInt8) (j : Nat) : List UInt8 :=
  [if isPrint (data j) then data j else chr '.']

/-- A hex dump: addresses, bytes and characters. -/
def dumpText (data : Nat → UInt8) (size width addr : UInt32) : List UInt8 :=
  addressText addr size ++ ((List.range width.toNat).flatMap (hexCells data size.toNat)).flatten ++
    chars [' ', ' '] ++ ((List.range size.toNat).map (charCell data)).flatten

/-- The room that newline sign, colour end sign and NUL leave. -/
def lineRoom : Nat := ulogLineBufSize - csiEnd.length - ulogNewlineSign.length - 1

/-- The line for a head and a content. -/
def lineText (text : List UInt8) (newline : Bool) (level : LogLevel) : List UInt8 :=
  text.take lineRoom ++ (if newline then ulogNewlineSign else []) ++
    if (colorOutputInfo level).isSome then csiEnd else []

/-- A formatter makes the line and returns its length; outside the buffer nothing has changed. -/
structure LineRight (buf : BitVec 32) (mem : Mem) (line : List UInt8)
    (result : Option (Nat × Mem)) : Prop where
  nulFree : NulFree line
  made : ∃ after, result = some (line.length, after) ∧ HoldsString after buf line ∧
    ∀ a, Outside buf a → after a = mem a

/-- The buffer is in the RAM of the linker script. -/
def InRam (buf : BitVec 32) : Prop := 0x20000200 ≤ buf.toNat ∧ buf.toNat + 129 ≤ 0x20048000

/-! ## Numbers -/

theorem ultoaDigits_length {k : Nat} (hk : 0 < k) (n : Nat) (h : n < 10 ^ k) :
    (ultoaDigits n).length ≤ k := by
  induction k generalizing n with
  | zero => exact absurd hk (Nat.lt_irrefl 0)
  | succ k ih =>
    rw [ultoaDigits, List.length_cons]
    by_cases hlast : n / 10 = 0
    · rw [if_pos hlast]
      exact Nat.succ_le_succ (Nat.zero_le k)
    · have hsmall : n / 10 < 10 ^ k := by
        rw [Nat.pow_succ] at h
        omega
      have hmore : 0 < k := by
        by_contra hzero
        rw [Nat.eq_zero_of_not_pos hzero, Nat.pow_zero] at hsmall
        omega
      rw [if_neg hlast]
      exact Nat.succ_le_succ (ih hmore (n / 10) hsmall)

theorem ultoaDigits_nulFree (n : Nat) : NulFree (ultoaDigits n) := by
  have hdigit : ∀ d : Fin 10, chr '0' + UInt8.ofNat d.val ≠ 0 := by decide
  induction n using Nat.strong_induction_on with
  | _ n ih =>
    rw [ultoaDigits]
    intro c hc
    rcases List.mem_cons.mp hc with rfl | hc
    · exact hdigit ⟨n % 10, Nat.mod_lt n (by decide)⟩
    · split at hc
      · exact absurd hc List.not_mem_nil
      · exact ih (n / 10) (by omega) c hc

theorem tickText_length (tick : UInt32) : (tickText tick).length ≤ 12 := by
  have hdigits : (ultoaDigits tick.toNat).length ≤ 10 :=
    ultoaDigits_length (by decide) _ (Nat.lt_trans tick.toNat_lt (by decide))
  simp only [tickText, chars, List.map_cons, List.map_nil, List.length_append, List.length_reverse,
    List.length_singleton]
  omega

theorem nulFree_append {s t : List UInt8} (hs : NulFree s) (ht : NulFree t) : NulFree (s ++ t) :=
  fun c hc => (List.mem_append.mp hc).elim (hs c) (ht c)

theorem tickText_nulFree (tick : UInt32) : NulFree (tickText tick) :=
  nulFree_append (nulFree_append (by decide)
    fun c hc => ultoaDigits_nulFree _ c (List.mem_reverse.mp hc)) (by decide)

/-- The conversion of an address or a byte. -/
def hexDirective (width : Fin 10) (hwidth : width.val ≠ 0) : Directive :=
  ⟨[.zero], .decimal width hwidth [], .none, .none, .X⟩

theorem hexDirective_text (width : Fin 10) (hwidth : width.val ≠ 0) (n : UInt32)
    (args : List VaArg) :
    (hexDirective width hwidth).text (.word n :: args) = (hexNumber width.val n, args) := by
  have hvalue : ((decimalValue [width] : Nat) : Int) = width.val := by
    simp [decimalValue]
  have hspec : (hexDirective width hwidth).spec (.word n :: args) =
      (⟨flagBits [.zero], width.val, -1, 0⟩, .word n :: args) := by
    rw [← hvalue]
    rfl
  let type : Flags := { flagBits [.zero] with large := true }
  have htext : numberText n 16 0 (width.val : Int) (-1) type = hexNumber width.val n := by
    have hgap : ((width.val : Int) - (basePrefix 16 type).length -
        max ((digitText n 16 0 type).length : Int) (-1) - (signText n 0 type).length).toNat =
          width.val - (digitText n 16 0 type).length := by
      have hprefix : (basePrefix 16 type).length = 0 := rfl
      have hsign : (signText n 0 type).length = 0 := rfl
      omega
    have hbody : numberBody (digitText n 16 0 type) (-1) = digitText n 16 0 type := by
      have hzeros : ((-1 : Int) - (digitText n 16 0 type).length).toNat = 0 := by omega
      rw [numberBody, hzeros, if_pos (by decide)]
      rfl
    unfold numberText
    dsimp only
    rw [hgap, hbody]
    rfl
  unfold Directive.text
  rw [hspec]
  exact congrArg (·, args) htext

theorem tmpDigits_largeDigits_nulFree (n : Nat) : NulFree (tmpDigits largeDigits 16 n) := by
  have hdigit : ∀ d : Fin 16, largeDigits.getD d.val 0 ≠ 0 := by decide
  unfold tmpDigits
  split
  · decide
  · intro c hc
    obtain ⟨d, hd, rfl⟩ := List.mem_map.mp hc
    exact hdigit ⟨d, Nat.digits_lt_base (by decide) hd⟩

theorem hexNumber_nulFree (width : Nat) (n : UInt32) : NulFree (hexNumber width n) := by
  refine nulFree_append (fun c hc => ?_) fun c hc =>
    tmpDigits_largeDigits_nulFree n.toNat c (List.mem_reverse.mp hc)
  rw [(List.mem_replicate.mp hc).2]
  decide

theorem hexNumber_length {width k : Nat} (hk : 0 < k) (n : UInt32) (h : n.toNat < 16 ^ k)
    (hwidth : width ≤ k) : (hexNumber width n).length ≤ k := by
  have hdigits : (tmpDigits largeDigits 16 n.toNat).length ≤ k := by
    unfold tmpDigits
    split
    · exact hk
    · rw [List.length_map]
      exact (Nat.digits_length_le_iff (by decide) _).mpr h
  simp only [hexNumber, List.length_append, List.length_replicate, List.length_reverse]
  omega

theorem addressText_length (addr size : UInt32) : (addressText addr size).length ≤ 19 := by
  have hword : ∀ n : UInt32, (hexNumber 4 n).length ≤ 8 := fun n =>
    hexNumber_length (by decide) n (Nat.lt_of_lt_of_le n.toNat_lt (by decide)) (by decide)
  have hfirst := hword addr
  have hlast := hword (addr + size)
  simp only [addressText, chars, List.map_cons, List.map_nil, List.length_append,
    List.length_cons, List.length_nil]
  omega

theorem addressText_nulFree (addr size : UInt32) : NulFree (addressText addr size) :=
  nulFree_append (nulFree_append (nulFree_append (hexNumber_nulFree _ _) (by decide))
    (hexNumber_nulFree _ _)) (by decide)

theorem addressFormat_produces (addr size : UInt32) :
    Produces addressFormat [.word addr, .word (addr + size)] (addressText addr size) := by
  have hpieces := produces_render [.directive (hexDirective 4 (by decide)),
    .char (chr '-') (by decide), .directive (hexDirective 4 (by decide)),
    .char (chr ':') (by decide), .char (chr ' ') (by decide)]
    [.word addr, .word (addr + size)]
  have htext : formatText [.directive (hexDirective 4 (by decide)), .char (chr '-') (by decide),
      .directive (hexDirective 4 (by decide)), .char (chr ':') (by decide),
      .char (chr ' ') (by decide)] [.word addr, .word (addr + size)] = addressText addr size := by
    simp only [formatText, Piece.text, hexDirective_text, addressText, chars, List.append_assoc]
    rfl
  rw [htext] at hpieces
  exact hpieces

theorem byteFormat_produces (b : UInt8) :
    Produces byteFormat [.word b.toUInt32] (hexNumber 2 b.toUInt32 ++ chars [' ']) := by
  have hpieces := produces_render [.directive (hexDirective 2 (by decide)),
    .char (chr ' ') (by decide)] [.word b.toUInt32]
  have htext : formatText [.directive (hexDirective 2 (by decide)), .char (chr ' ') (by decide)]
      [.word b.toUInt32] = hexNumber 2 b.toUInt32 ++ chars [' '] := by
    simp only [formatText, Piece.text, hexDirective_text]
    rfl
  rw [htext] at hpieces
  exact hpieces

theorem charFormat_produces (b : UInt8) : Produces charFormat [.word b.toUInt32] [b] := by
  have hpieces := produces_render [.directive ⟨[], .none, .none, .none, .c⟩] [.word b.toUInt32]
  have htext : formatText [.directive ⟨[], .none, .none, .none, .c⟩] [.word b.toUInt32] = [b] := by
    have hbyte : b.toUInt32.toUInt8 = b := UInt8.toUInt8_toUInt32 b
    exact congrArg (fun c => [c]) hbyte
  rw [htext] at hpieces
  exact hpieces

/-! ## Reading back -/

/-- A string that has been stored is read back. -/
theorem cString_stored {cs : List UInt8} (hcs : NulFree cs) {n : Nat} (hn : cs.length < n)
    (hspace : cs.length < 2 ^ 31) (mem : Mem) (dst : BitVec 32) :
    cString ((List.range n).map fun i => store mem dst (cs ++ [0]) (dst + BitVec.ofNat 32 i)) =
      cs := by
  obtain ⟨e, rfl⟩ : ∃ e, n = cs.length + (e + 1) := ⟨n - cs.length - 1, by omega⟩
  have hall : (cs ++ [0]).length = cs.length + 1 := by
    rw [List.length_append, List.length_singleton]
  have hfront : (List.range cs.length).map
      (fun i => store mem dst (cs ++ [0]) (dst + BitVec.ofNat 32 i)) = cs := by
    refine List.ext_getElem (by rw [List.length_map, List.length_range]) fun i hi hi' => ?_
    rw [List.getElem_map, List.getElem_range]
    exact (store_inside (by omega) (by omega)).trans (List.getElem_append_left hi')
  have hnul : store mem dst (cs ++ [0]) (dst + BitVec.ofNat 32 cs.length) = 0 := by
    refine (store_inside (by omega) (by omega)).trans ?_
    rw [List.getElem_append_right (Nat.le_refl _)]
    exact List.getElem_singleton _
  rw [List.range_add, List.map_append, hfront, List.range_succ_eq_map, List.map_cons, List.map_cons,
    Nat.add_zero, hnul]
  exact cString_append_nul hcs _

theorem strlen_stored {buf : BitVec 32} {line : Line} {cs : List UInt8} (hcs : NulFree cs)
    (hroom : line.len + cs.length ≤ ulogLineBufSize) {mem : Mem}
    (hmem : line.mem = store mem (place buf line.len) (cs ++ [0])) :
    line.strlen buf = cs.length := by
  have hsize : ulogLineBufSize < 2 ^ 31 := by decide
  have hplace : ∀ i, place buf (line.len + i) = place buf line.len + BitVec.ofNat 32 i :=
    fun i => (place_add buf line.len i).symm
  rw [Line.strlen, rtStrlen_eq, hmem]
  simp only [hplace]
  rw [cString_stored hcs (by omega) (by omega)]

theorem dumpString_eq {fmt S : List UInt8} {args : List VaArg} (hfmt : Produces fmt args S)
    (hS : NulFree S) (hlen : S.length < 8) : dumpString fmt args = some S := by
  have hstored := rtVsnprintf_stored 0 8 hfmt (by decide) (by decide)
    (by have hzero : (0 : BitVec 32).toNat = 0 := rfl
        omega) fun _ => 0
  have hcut : S.take ((8 : BitVec 32).toNat - 1) = S :=
    List.take_of_length_le (Nat.le_of_lt_succ hlen)
  rw [hcut] at hstored
  rw [dumpString, rtSnprintf, hstored, Option.map_some]
  exact congrArg some (cString_stored hS hlen (by omega) _ _)

/-! ## The head -/

section Head

variable {buf : BitVec 32} {before : Mem} {text tag : List UInt8} {line : Line}

theorem Shows.set_nul (h : Shows ulogLineBufSize buf before text line)
    (htext : text.length ≤ ulogLineBufSize) :
    Shows ulogLineBufSize buf before text (line.set buf line.len 0) := by
  have hstored := h.store htext [] [0]
    (by simp only [List.length_nil]; omega)
    (by simp only [List.length_nil, List.length_singleton]; omega)
  rw [List.append_nil] at hstored
  exact hstored

/-- The tick is stored in one piece. -/
theorem tick_mem (line : Line) (tick : UInt32) :
    (line.tick buf tick).mem = store line.mem (place buf line.len) (tickText tick ++ [0]) := by
  let digits := (ultoaDigits tick.toNat).reverse
  have hdigits : (ultoaDigits tick.toNat).length = digits.length := List.length_reverse.symm
  have hopen : store (Function.update line.mem (place buf line.len) (chr '['))
      (place buf (line.len + 1)) (digits ++ [0]) =
        store line.mem (place buf line.len) (chr '[' :: digits ++ [0]) := by
    rw [← place_add]
    rfl
  have hclose : place buf (line.len + 1 + digits.length) =
      place buf line.len + BitVec.ofNat 32 (chr '[' :: digits).length := by
    rw [place_add, List.length_cons, Nat.add_assoc, Nat.add_comm 1]
  have hnul : place buf (line.len + 1 + digits.length + 1) =
      place buf line.len + BitVec.ofNat 32 (chr '[' :: digits ++ [chr ']']).length := by
    have hlength : (chr '[' :: digits ++ [chr ']']).length = 1 + digits.length + 1 := by
      rw [List.length_append, List.length_cons, List.length_singleton, Nat.add_comm 1]
    rw [place_add, hlength, Nat.add_assoc line.len 1, Nat.add_assoc line.len]
  unfold Line.tick
  simp only [Line.set, ulogUltoa]
  rw [hdigits, hopen, hclose, store_replace, hnul, ← store_singleton, ← store_append]
  rfl

theorem Shows.tick (h : Shows ulogLineBufSize buf before text line) (tick : UInt32)
    (htext : text.length + 12 ≤ ulogLineBufSize) :
    Shows ulogLineBufSize buf before (text ++ tickText tick) (line.tick buf tick) := by
  have hlen : line.len = text.length := h.len.trans (Nat.min_eq_right (by omega))
  have htick := tickText_length tick
  have hmem := @tick_mem buf line tick
  have hcount : (line.tick buf tick).len = line.len + (tickText tick).length := by
    have hstrlen : Line.strlen buf ⟨line.len, (line.tick buf tick).mem⟩ = (tickText tick).length :=
      strlen_stored (tickText_nulFree tick) (by simp only; omega) hmem
    exact congrArg (line.len + ·) hstrlen
  have hline : line.tick buf tick = ⟨line.len + (tickText tick).length,
      Foundation.store line.mem (place buf line.len) (tickText tick ++ [0])⟩ := by
    rw [← hcount, ← hmem]
  rw [hline]
  exact h.store (by omega) _ [0] (by omega) (by simp only [List.length_singleton]; omega)

theorem levelOutputInfo_nulFree (level : LogLevel) : NulFree (levelOutputInfo level) := by
  cases level <;> decide

theorem Shows.colour (level : LogLevel) (mem : Mem) :
    Shows ulogLineBufSize buf mem ((colorOutputInfo level).elim [] (csiStart ++ ·))
      (match colorOutputInfo level with
        | some color => ((⟨0, mem⟩ : Line).append buf csiStart).append buf color
        | none => ⟨0, mem⟩) := by
  have hempty := shows_nil ulogLineBufSize buf mem
  have hcolour : ∀ color ∈ colorOutputInfo level, NulFree color := by
    cases level <;> decide
  cases hlevel : colorOutputInfo level with
  | none => exact hempty
  | some color =>
    have hstart := hempty.append (by decide : NulFree csiStart)
    exact hstart.append (hcolour color hlevel)

/-- The head is shown, cut to the size of the buffer. -/
theorem ulogHeadFormater_shows (level : LogLevel) (htag : NulFree tag) (tick : UInt32) (mem : Mem) :
    Shows ulogLineBufSize buf mem (headText level tag tick)
      (ulogHeadFormater buf level tag tick mem) := by
  have hshort : ((colorOutputInfo level).elim [] (csiStart ++ ·)).length ≤ 5 := by
    cases level <;> decide
  have hsize : ulogLineBufSize = 128 := rfl
  have hcolour := @Shows.colour buf level mem
  have htick := (hcolour.set_nul (by omega)).tick tick (by omega)
  have hblank := htick.append (by decide : NulFree (chars [' ']))
  have hlevel := hblank.append (levelOutputInfo_nulFree level)
  have hcolon := (hlevel.append htag).append (by decide : NulFree (chars [':', ' ']))
  exact hcolon

end Head

/-! ## The tail -/

section Tail

variable {buf : BitVec 32} {before : Mem} {text : List UInt8} {line : Line}

theorem Shows.mono {room room' : Nat} (h : Shows room buf before text line) (hle : room' ≤ room) :
    Shows room' buf before text line :=
  ⟨h.len, fun i c hi => h.chars i c (Nat.lt_of_lt_of_le hi hle), h.kept⟩

theorem nulFree_take {s : List UInt8} (hs : NulFree s) (n : Nat) : NulFree (s.take n) :=
  fun c hc => hs c (List.mem_of_mem_take hc)

theorem lineText_nulFree (htext : NulFree text) (newline : Bool) (level : LogLevel) :
    NulFree (lineText text newline level) := by
  refine nulFree_append (nulFree_append (nulFree_take htext _) ?_) ?_
  · cases newline <;> decide
  · cases level <;> decide

/-- What is left of a long line is what leaves room for newline sign, colour end sign and NUL. -/
theorem shows_cut (h : Shows lineRoom buf before text line) :
    Shows ulogLineBufSize buf before (text.take lineRoom)
      (if line.len + csiEnd.length + ulogNewlineSign.length + 1 > ulogLineBufSize then
        { line with len := ulogLineBufSize - csiEnd.length - ulogNewlineSign.length - 1 }
      else line) := by
  have hroom : lineRoom = 121 := rfl
  have hend : csiEnd.length = 4 := rfl
  have hnewline : ulogNewlineSign.length = 2 := rfl
  have hsize : ulogLineBufSize = 128 := rfl
  have hlength : (text.take lineRoom).length = min lineRoom text.length := List.length_take
  have hlen := h.len
  have hchars : ∀ i c, (text.take lineRoom)[i]? = some c → line.mem (place buf i) = c := by
    intro i c hc
    have hi : i < lineRoom := by
      obtain ⟨hlt, -⟩ := List.getElem?_eq_some_iff.mp hc
      omega
    exact h.chars i c hi ((List.getElem?_take_of_lt hi).symm.trans hc)
  split
  · refine ⟨?_, fun i c _ hc => hchars i c hc, h.kept⟩
    simp only
    omega
  · exact ⟨by omega, fun i c _ hc => hchars i c hc, h.kept⟩

/-- A part that is appended or not. -/
theorem Shows.append_if {p : Prop} [Decidable p] {src : List UInt8}
    (h : Shows ulogLineBufSize buf before text line) (hsrc : NulFree src) :
    Shows ulogLineBufSize buf before (text ++ if p then src else [])
      (if p then line.append buf src else line) := by
  by_cases hp : p
  · rw [if_pos hp, if_pos hp]
    exact h.append hsrc
  · rw [if_neg hp, if_neg hp, List.append_nil]
    exact h

/-- The tail makes the line. -/
theorem ulogTailFormater_right (h : Shows lineRoom buf before text line) (htext : NulFree text)
    (newline : Bool) (level : LogLevel) :
    LineRight buf before (lineText text newline level)
      (some (ulogTailFormater buf line newline level)) := by
  have hroom : lineRoom = 121 := rfl
  have hsize : ulogLineBufSize = 128 := rfl
  have hcut := shows_cut h
  unfold ulogTailFormater
  simp only
  generalize (if line.len + csiEnd.length + ulogNewlineSign.length + 1 > ulogLineBufSize then
    { line with len := ulogLineBufSize - csiEnd.length - ulogNewlineSign.length - 1 }
    else line) = cut at hcut ⊢
  have hnewline : Shows ulogLineBufSize buf before
      (text.take lineRoom ++ if newline = true then ulogNewlineSign else [])
      (if newline = true then cut.append buf ulogNewlineSign else cut) :=
    hcut.append_if (by decide)
  generalize (if newline = true then cut.append buf ulogNewlineSign else cut) = ended at hnewline ⊢
  have hall : Shows ulogLineBufSize buf before (lineText text newline level)
      (if (colorOutputInfo level).isSome = true then ended.append buf csiEnd else ended) :=
    hnewline.append_if (by decide)
  generalize (if (colorOutputInfo level).isSome = true then ended.append buf csiEnd else ended) =
    done at hall ⊢
  have hlength : (lineText text newline level).length ≤ 127 := by
    have htake : (text.take lineRoom).length ≤ lineRoom := List.length_take_le _ _
    have hsign : (if newline = true then ulogNewlineSign else []).length ≤ 2 := by
      cases newline <;> decide
    have hend : (if (colorOutputInfo level).isSome = true then csiEnd else []).length ≤ 4 := by
      cases level <;> decide
    simp only [lineText, List.length_append]
    omega
  have hlen : done.len = (lineText text newline level).length :=
    hall.len.trans (Nat.min_eq_right (by omega))
  have hnul := hall.set_nul (by omega)
  refine ⟨lineText_nulFree htext newline level, (done.set buf done.len 0).mem, ?_, ⟨?_, ?_⟩,
    hnul.kept⟩
  · rw [← hlen]
    rfl
  · exact fun i hi => hnul.chars i _ (by omega) (List.getElem?_eq_getElem hi)
  · rw [← hlen]
    exact Function.update_self _ _ _

theorem append_len_le {src : List UInt8} (hsrc : NulFree src) :
    (line.append buf src).len ≤ line.len + src.length := by
  rw [append_eq hsrc]
  exact Nat.add_le_add_left (List.length_take_le' _ _) _

/-- A part that is appended or not, outside the first 128 characters. -/
theorem append_if_kept {p : Prop} [Decidable p] {src : List UInt8} (hsrc : NulFree src) {n : Nat}
    (hlen : line.len ≤ n) {a : BitVec 32} (ha : ∀ i < ulogLineBufSize, a ≠ place buf i) :
    ∃ next : Line, (if p then line.append buf src else line) = next ∧
      next.len ≤ n + src.length ∧ next.mem a = line.mem a := by
  refine ⟨_, rfl, ?_, ?_⟩
  · split
    · exact Nat.le_trans (append_len_le hsrc) (Nat.add_le_add_right hlen _)
    · exact Nat.le_add_right_of_le hlen
  · split
    · exact append_kept hsrc ha
    · rfl

/-- The tail is written into the first 128 characters. -/
theorem ulogTailFormater_kept {a : BitVec 32} (ha : ∀ i < ulogLineBufSize, a ≠ place buf i)
    (newline : Bool) (level : LogLevel) :
    (ulogTailFormater buf line newline level).2 a = line.mem a := by
  have hend : csiEnd.length = 4 := rfl
  have hsign : ulogNewlineSign.length = 2 := rfl
  have hsize : ulogLineBufSize = 128 := rfl
  unfold ulogTailFormater
  simp only
  obtain ⟨cut, hcut, hlen, hmem⟩ : ∃ cut : Line,
      (if line.len + csiEnd.length + ulogNewlineSign.length + 1 > ulogLineBufSize then
        { line with len := ulogLineBufSize - csiEnd.length - ulogNewlineSign.length - 1 }
      else line) = cut ∧ cut.len ≤ 121 ∧ cut.mem = line.mem := by
    refine ⟨_, rfl, ?_, ?_⟩
    · split
      · simp only
        omega
      · omega
    · split <;> rfl
  rw [hcut]
  obtain ⟨ended, hended, hlen', hmem'⟩ :=
    append_if_kept (p := newline = true) (by decide : NulFree ulogNewlineSign) hlen ha
  rw [hended]
  obtain ⟨done, hdone, hlen'', hmem''⟩ :=
    append_if_kept (p := (colorOutputInfo level).isSome = true) (by decide : NulFree csiEnd)
      hlen' ha
  rw [hdone, Line.set]
  simp only
  rw [Function.update_of_ne (ha done.len (by omega)), hmem'', hmem', hmem]

end Tail

/-! ## The content -/

section Content

variable {buf : BitVec 32} {before : Mem} {text tag : List UInt8} {line : Line}

theorem headText_nulFree (level : LogLevel) (htag : NulFree tag) (tick : UInt32) :
    NulFree (headText level tag tick) := by
  have hcolour : NulFree ((colorOutputInfo level).elim [] (csiStart ++ ·)) := by
    cases level <;> decide
  exact nulFree_append (nulFree_append (nulFree_append (nulFree_append (nulFree_append hcolour
    (tickText_nulFree tick)) (by decide)) (levelOutputInfo_nulFree level)) htag) (by decide)

theorem place_toNat (hbuf : InRam buf) {i : Nat} (hi : i < 2 ^ 16) :
    (place buf i).toNat = buf.toNat + i := offset_toNat (by have := hbuf.2; omega)

/-- A formatter that overwrites something outside the buffer does not make the line. -/
theorem not_lineRight {a : BitVec 32} {c : UInt8} (ha : Outside buf a) {made : List UInt8}
    {f : Mem → Option (Nat × Mem)} (hf : ∀ mem r, f mem = some r → r.2 a = c) :
    ¬ ∀ mem, LineRight buf mem made (f mem) := by
  intro h
  obtain ⟨-, after, hafter, -, hkept⟩ := h fun _ => c + 1
  have hval : c = c + 1 := (hf _ _ hafter).symm.trans (hkept a ha)
  have hnat := congrArg UInt8.toNat hval
  have hone : (1 : UInt8).toNat = 1 := rfl
  rw [UInt8.toNat_add, hone] at hnat
  have hc := c.toNat_lt
  omega

/-- The length that `ulog_formater` goes on with. -/
theorem contentLen_eq {len n : Nat} (hlen : len ≤ ulogLineBufSize) (hn : n < 2 ^ 32) :
    (if ((len : Int) + countedInt n) % 2 ^ 32 ≤ (ulogLineBufSize : Nat) ∧ countedInt n > -1 then
      len + (countedInt n).toNat else ulogLineBufSize) = min ulogLineBufSize (len + n) := by
  have hsize : ulogLineBufSize = 128 := rfl
  have hcount : countedInt n = if n < 2 ^ 31 then (n : Int) else n - 2 ^ 32 := by
    rw [countedInt, BitVec.toInt_eq_toNat_cond, BitVec.toNat_ofNat, Nat.mod_eq_of_lt hn]
    split <;> split <;> omega
  rw [hcount]
  by_cases hsmall : n < 2 ^ 31
  · rw [if_pos hsmall]
    have hsum : ((len : Int) + n) % 2 ^ 32 = (len : Int) + n :=
      Int.emod_eq_of_lt (by omega) (by omega)
    rw [hsum]
    split <;> omega
  · rw [if_neg hsmall, if_neg (by omega)]
    omega

/-- The pointer that counts the characters of a content of `n` characters does not run past the
end of the address space; with a head that fills the buffer nothing is stored, and it may get
there. -/
def FormatFits (buf : BitVec 32) (head n : Nat) : Prop :=
  if head < ulogLineBufSize then buf.toNat + head + n < 2 ^ 32
  else buf.toNat + ulogLineBufSize + n ≤ 2 ^ 32

variable {fmt S : List UInt8} {args : List VaArg}

/-- The content behind the head. -/
theorem content_shows (hbuf : InRam buf) (hfmt : Produces fmt args S)
    (h : Shows ulogLineBufSize buf before text line) (hfits : FormatFits buf text.length S.length) :
    ∃ mem, rtVsnprintf (place buf line.len) (BitVec.ofNat 32 (ulogLineBufSize - line.len)) fmt args
        line.mem = some (countedInt S.length, mem) ∧
      Shows lineRoom buf before (text ++ S) ⟨min ulogLineBufSize (line.len + S.length), mem⟩ := by
  have hsize : ulogLineBufSize = 128 := rfl
  have hroom : lineRoom = 121 := rfl
  have hram := hbuf.1
  have hlen := h.len
  have hplace : (place buf line.len).toNat = buf.toNat + line.len := place_toNat hbuf (by omega)
  unfold FormatFits at hfits
  by_cases hshort : text.length < ulogLineBufSize
  · rw [if_pos hshort] at hfits
    have hleft : (BitVec.ofNat 32 (ulogLineBufSize - line.len)).toNat =
        ulogLineBufSize - line.len := by
      rw [BitVec.toNat_ofNat, Nat.mod_eq_of_lt (by omega)]
    have hcall := rtVsnprintf_stored (place buf line.len)
      (BitVec.ofNat 32 (ulogLineBufSize - line.len)) hfmt (by omega)
      (by rw [hplace, hleft]; have := hbuf.2; omega) (by omega) line.mem
    rw [hleft] at hcall
    refine ⟨_, hcall, ?_⟩
    have htake : (S.take (ulogLineBufSize - line.len - 1)).length ≤
        ulogLineBufSize - line.len - 1 := List.length_take_le _ _
    have hstored := h.store (by omega) (S.take (ulogLineBufSize - line.len - 1)) [0]
      (by omega) (by simp only [List.length_singleton]; omega)
    refine ⟨?_, fun i c hi hc => hstored.chars i c (by omega) ?_, hstored.kept⟩
    · simp only [List.length_append]
      omega
    · have hcut : (text ++ S).take 127 = text ++ S.take (ulogLineBufSize - line.len - 1) := by
        rw [List.take_append, List.take_of_length_le (by omega)]
        congr 2
        omega
      rw [← hcut, List.getElem?_take_of_lt (by omega)]
      exact hc
  · rw [if_neg hshort] at hfits
    have hfull : line.len = ulogLineBufSize := by omega
    have hcall := rtVsnprintf_noRoom (place buf line.len) hfmt (by omega) line.mem
    have hzero : BitVec.ofNat 32 (ulogLineBufSize - line.len) = 0 := by
      rw [hfull]
      rfl
    rw [hzero]
    refine ⟨_, hcall, ?_, fun i c hi hc => h.chars i c (by omega) ?_, h.kept⟩
    · simp only [List.length_append]
      omega
    · rwa [List.getElem?_append_left (by omega)] at hc

/-- `ulog_formater` makes the line if the content fits. -/
theorem ulogFormater_right (hbuf : InRam buf) (htag : NulFree tag) (level : LogLevel)
    (tick : UInt32) (newline : Bool) (hfmt : Produces fmt args S) (hS : NulFree S)
    (hfits : FormatFits buf (headText level tag tick).length S.length) (mem : Mem) :
    LineRight buf mem (lineText (headText level tag tick ++ S) newline level)
      (ulogFormater buf level tag newline fmt args tick mem) := by
  have hhead := @ulogHeadFormater_shows buf tag level htag tick mem
  obtain ⟨after, hcall, hcontent⟩ := content_shows hbuf hfmt hhead hfits
  have hn : S.length < 2 ^ 32 := by
    have hram := hbuf.1
    unfold FormatFits at hfits
    split at hfits <;> omega
  have hlen : (ulogHeadFormater buf level tag tick mem).len ≤ ulogLineBufSize :=
    hhead.len ▸ Nat.min_le_left _ _
  unfold ulogFormater
  simp only [hcall, Option.bind_eq_bind, Option.bind_some, contentLen_eq hlen hn]
  exact ulogTailFormater_right hcontent (nulFree_append (headText_nulFree level htag tick) hS)
    newline level

/-- Otherwise the byte at address zero is overwritten. -/
theorem ulogFormater_wraps (hbuf : InRam buf) (htag : NulFree tag) (level : LogLevel)
    (tick : UInt32) (newline : Bool) (hfmt : Produces fmt args S)
    (hlong : ¬ FormatFits buf (headText level tag tick).length S.length) (made : List UInt8) :
    ¬ ∀ mem, LineRight buf mem made (ulogFormater buf level tag newline fmt args tick mem) := by
  have hsize : ulogLineBufSize = 128 := rfl
  have hram := hbuf.1
  have hend := hbuf.2
  let len := min ulogLineBufSize (headText level tag tick).length
  have hplace : (place buf len).toNat = buf.toNat + len := place_toNat hbuf (by omega)
  have hleft : (BitVec.ofNat 32 (ulogLineBufSize - len)).toNat = ulogLineBufSize - len := by
    rw [BitVec.toNat_ofNat, Nat.mod_eq_of_lt (by omega)]
  have hzero : ∀ i ≤ ulogLineBufSize, (0 : BitVec 32) ≠ place buf i := by
    intro i hi heq
    have hval := congrArg BitVec.toNat heq
    rw [place_toNat hbuf (by omega)] at hval
    have hnone : (0 : BitVec 32).toNat = 0 := rfl
    omega
  obtain ⟨c, hc⟩ := rtVsnprintf_wraps (place buf len)
    (BitVec.ofNat 32 (ulogLineBufSize - len)) hfmt (by omega) (by omega) (by
      unfold FormatFits at hlong
      split at hlong <;> omega)
  refine not_lineRight (a := 0) (c := c) hzero fun mem r hr => ?_
  obtain ⟨after, hcall, hafter⟩ := hc (ulogHeadFormater buf level tag tick mem).mem
  have hlen : (ulogHeadFormater buf level tag tick mem).len = len :=
    (@ulogHeadFormater_shows buf tag level htag tick mem).len
  unfold ulogFormater at hr
  simp only [hlen, hcall, Option.bind_eq_bind, Option.bind_some, Option.pure_def,
    Option.some.injEq] at hr
  rw [← hr, ulogTailFormater_kept (fun i hi => hzero i (Nat.le_of_lt hi))]
  exact hafter

/-! ## A hex dump -/

variable {data : Nat → UInt8}

theorem hexByte_length (b : UInt8) : (hexNumber 2 b.toUInt32).length ≤ 2 := by
  refine hexNumber_length (by decide) _ ?_ (Nat.le_refl 2)
  rw [UInt8.toNat_toUInt32]
  exact b.toNat_lt

theorem hexCells_nulFree (data : Nat → UInt8) (size j : Nat) :
    ∀ cell ∈ hexCells data size j, NulFree cell := by
  intro cell hcell
  rcases List.mem_cons.mp hcell with rfl | hcell
  · split
    · exact nulFree_append (hexNumber_nulFree _ _) (by decide)
    · decide
  · split at hcell
    · rw [List.mem_singleton.mp hcell]
      decide
    · exact absurd hcell List.not_mem_nil

theorem charCell_nulFree (data : Nat → UInt8) (j : Nat) : NulFree (charCell data j) := by
  intro c hc
  rw [List.mem_singleton.mp hc]
  split
  · next hprint =>
    intro hzero
    rw [hzero] at hprint
    exact absurd hprint (by decide)
  · decide

/-- The loop over the bytes appends their places. -/
theorem dumpHex_eq (data : Nat → UInt8) (size rounds j : Nat) (line : Line) :
    dumpHex buf data size rounds j line =
      some (line.appends buf ((List.range' j rounds).flatMap (hexCells data size))) := by
  induction rounds generalizing j line with
  | zero => rfl
  | succ rounds ih =>
    have hcell : dumpCell data size j = some (if j < size then
        hexNumber 2 (data j).toUInt32 ++ chars [' '] else chars [' ', ' ', ' ']) := by
      unfold dumpCell
      split
      · refine dumpString_eq (byteFormat_produces _) (nulFree_append (hexNumber_nulFree _ _)
          (by decide)) ?_
        have hbyte := hexByte_length (data j)
        simp only [chars, List.map_cons, List.map_nil, List.length_append, List.length_singleton]
        omega
      · rfl
    rw [dumpHex, hcell, Option.bind_eq_bind, Option.bind_some]
    simp only
    rw [ih, List.range'_succ, List.flatMap_cons, Line.appends, Line.appends, List.foldl_append]
    congr 2
    unfold hexCells
    split <;> rfl

/-- The loop over the characters appends them. -/
theorem dumpChars_eq (data : Nat → UInt8) (rounds j : Nat) (line : Line) :
    dumpChars buf data rounds j line =
      some (line.appends buf ((List.range' j rounds).map (charCell data))) := by
  induction rounds generalizing j line with
  | zero => rfl
  | succ rounds ih =>
    have hcell : dumpString charFormat [.word (if isPrint (data j) then data j
        else chr '.').toUInt32] = some (charCell data j) :=
      dumpString_eq (charFormat_produces _) (charCell_nulFree data j) (by decide : 1 < 8)
    rw [dumpChars, Option.bind_eq_bind, hcell, Option.bind_some, ih, List.range'_succ,
      List.map_cons]
    rfl

theorem hexCells_all_nulFree (data : Nat → UInt8) (size j rounds : Nat) :
    ∀ cell ∈ (List.range' j rounds).flatMap (hexCells data size), NulFree cell := by
  intro cell hcell
  obtain ⟨i, -, hcell⟩ := List.mem_flatMap.mp hcell
  exact hexCells_nulFree data size i cell hcell

theorem charCell_all_nulFree (data : Nat → UInt8) (j rounds : Nat) :
    ∀ cell ∈ (List.range' j rounds).map (charCell data), NulFree cell := by
  intro cell hcell
  obtain ⟨i, -, rfl⟩ := List.mem_map.mp hcell
  exact charCell_nulFree data i

theorem nulFree_flatten {cells : List (List UInt8)} (h : ∀ cell ∈ cells, NulFree cell) :
    NulFree cells.flatten := by
  intro c hc
  obtain ⟨cell, hcell, hc⟩ := List.mem_flatten.mp hc
  exact h cell hcell c hc

/-- The parts of the dump behind the addresses. -/
def Line.dump (buf : BitVec 32) (line : Line) (data : Nat → UInt8) (size width : UInt32) : Line :=
  ((line.appends buf ((List.range' 0 width.toNat).flatMap (hexCells data size.toNat))).append buf
    (chars [' ', ' '])).appends buf ((List.range' 0 size.toNat).map (charCell data))

/-- The addresses are stored in one piece, wherever the head ends. -/
theorem ulogHexFormater_eq (hbuf : InRam buf) (htag : NulFree tag) (data : Nat → UInt8)
    (size width addr tick : UInt32) (mem : Mem) :
    let line := ulogHeadFormater buf .dbg tag tick mem
    ulogHexFormater buf tag data size width addr tick mem = some (ulogTailFormater buf
      (Line.dump buf ⟨line.len + (addressText addr size).length,
        store line.mem (place buf line.len) (addressText addr size ++ [0])⟩ data size width)
      true .dbg) := by
  intro line
  have hsize : ulogLineBufSize = 128 := rfl
  have hend := hbuf.2
  have hlen : line.len ≤ ulogLineBufSize := by
    rw [(@ulogHeadFormater_shows buf tag .dbg htag tick mem).len]
    exact Nat.min_le_left _ _
  have hplace : (place buf line.len).toNat = buf.toNat + line.len := place_toNat hbuf (by omega)
  have hwide : (BitVec.ofNat 32 ulogLineBufSize).toNat = 128 := rfl
  have htext := addressText_length addr size
  have hcall := rtVsnprintf_stored (place buf line.len)
    (BitVec.ofNat 32 ulogLineBufSize) (addressFormat_produces addr size) (by omega)
    (by omega) (by omega) line.mem
  rw [hwide, List.take_of_length_le (by omega)] at hcall
  have hcount : countedInt (addressText addr size).length = (addressText addr size).length := by
    rw [countedInt, BitVec.toInt_eq_toNat_cond, BitVec.toNat_ofNat, Nat.mod_eq_of_lt (by omega),
      if_pos (by omega)]
  have hnew : (if countedInt (addressText addr size).length > -1 ∧
      countedInt (addressText addr size).length ≤ (ulogLineBufSize : Nat) then
        line.len + (countedInt (addressText addr size).length).toNat else ulogLineBufSize) =
      line.len + (addressText addr size).length := by
    rw [hcount, if_pos (by omega), Int.toNat_natCast]
  unfold ulogHexFormater
  simp only [rtSnprintf]
  rw [show ulogHeadFormater buf .dbg tag tick mem = line from rfl, hcall]
  simp only [Option.bind_eq_bind, Option.bind_some, hnew, dumpHex_eq, dumpChars_eq,
    Option.pure_def]
  rfl

/-- `ulog_hex_formater` makes the line if the addresses fit behind the head. -/
theorem ulogHexFormater_right (hbuf : InRam buf) (htag : NulFree tag) (data : Nat → UInt8)
    (size width addr tick : UInt32)
    (hfits : (headText .dbg tag tick).length + (addressText addr size).length ≤ ulogLineBufSize)
    (mem : Mem) :
    LineRight buf mem (lineText (headText .dbg tag tick ++ dumpText data size width addr) true .dbg)
      (ulogHexFormater buf tag data size width addr tick mem) := by
  have hhead := @ulogHeadFormater_shows buf tag .dbg htag tick mem
  have haddress := hhead.store (by omega) (addressText addr size) [0] hfits
    (by simp only [List.length_singleton]; omega)
  have hhex := haddress.appends (hexCells_all_nulFree data size.toNat 0 width.toNat)
  have hgap := hhex.append (by decide : NulFree (chars [' ', ' ']))
  have hchars := hgap.appends (charCell_all_nulFree data 0 size.toNat)
  have htext : headText .dbg tag tick ++ addressText addr size ++
      ((List.range' 0 width.toNat).flatMap (hexCells data size.toNat)).flatten ++
        chars [' ', ' '] ++ ((List.range' 0 size.toNat).map (charCell data)).flatten =
      headText .dbg tag tick ++ dumpText data size width addr := by
    simp only [dumpText, List.range_eq_range', List.append_assoc]
  have hnulFree : NulFree (headText .dbg tag tick ++ dumpText data size width addr) := by
    rw [← htext]
    exact nulFree_append (nulFree_append (nulFree_append (nulFree_append
      (headText_nulFree .dbg htag tick) (addressText_nulFree addr size))
      (nulFree_flatten (hexCells_all_nulFree data size.toNat 0 width.toNat))) (by decide))
      (nulFree_flatten (charCell_all_nulFree data 0 size.toNat))
  rw [htext] at hchars
  rw [ulogHexFormater_eq hbuf htag]
  exact ulogTailFormater_right (hchars.mono (by decide)) hnulFree true .dbg

/-- Otherwise the addresses reach beyond the buffer. -/
theorem ulogHexFormater_overflows (hbuf : InRam buf) (htag : NulFree tag) (data : Nat → UInt8)
    (size width addr tick : UInt32)
    (hlong : ¬ (headText .dbg tag tick).length + (addressText addr size).length ≤ ulogLineBufSize)
    (made : List UInt8) :
    ¬ ∀ mem, LineRight buf mem made (ulogHexFormater buf tag data size width addr tick mem) := by
  have hsize : ulogLineBufSize = 128 := rfl
  have hpos : 0 < (addressText addr size).length := by
    simp only [addressText, chars, List.map_cons, List.map_nil, List.length_append,
      List.length_cons]
    omega
  let len := min ulogLineBufSize (headText .dbg tag tick).length
  have htext := addressText_length addr size
  have hall : (addressText addr size ++ [0]).length = (addressText addr size).length + 1 := by
    rw [List.length_append, List.length_singleton]
  have hreach : ulogLineBufSize + 1 - len < (addressText addr size ++ [0]).length := by omega
  have hbehind : ∀ i ≤ ulogLineBufSize, place buf (ulogLineBufSize + 1) ≠ place buf i := by
    intro i hi heq
    have hsame := (offset_inj buf (by omega) (by omega)).mp heq
    omega
  refine not_lineRight (a := place buf (ulogLineBufSize + 1))
    (c := (addressText addr size ++ [0])[ulogLineBufSize + 1 - len]) hbehind fun mem r hr => ?_
  have hlen : (ulogHeadFormater buf .dbg tag tick mem).len = len :=
    (@ulogHeadFormater_shows buf tag .dbg htag tick mem).len
  have hkept : ∀ i < ulogLineBufSize, place buf (ulogLineBufSize + 1) ≠ place buf i :=
    fun i hi => hbehind i (Nat.le_of_lt hi)
  have hplace : place buf (ulogLineBufSize + 1) =
      place buf len + BitVec.ofNat 32 (ulogLineBufSize + 1 - len) := by
    rw [place_add, Nat.add_sub_cancel' (by omega)]
  rw [ulogHexFormater_eq hbuf htag, Option.some.injEq] at hr
  rw [← hr, ulogTailFormater_kept hkept, Line.dump, appends_kept (charCell_all_nulFree _ _ _) hkept,
    append_kept (by decide) hkept, appends_kept (hexCells_all_nulFree _ _ _ _) hkept, hlen]
  simp only
  rw [hplace]
  exact store_inside (by omega) hreach

/-! ## Both formatters -/

/-- For every level, tag, content and hex dump: `ulog_formater` makes the line, and writes nothing
else, exactly if the content fits into the address space, and `ulog_hex_formater` exactly if the
addresses fit behind the head. -/
theorem ulogLine_iff (hbuf : InRam buf) (htag : NulFree tag) (tick : UInt32) :
    (∀ level newline fmt args S, Produces fmt args S → NulFree S →
      ((∀ mem, LineRight buf mem (lineText (headText level tag tick ++ S) newline level)
          (ulogFormater buf level tag newline fmt args tick mem)) ↔
        FormatFits buf (headText level tag tick).length S.length)) ∧
      ∀ data size width addr,
        (∀ mem, LineRight buf mem
            (lineText (headText .dbg tag tick ++ dumpText data size width addr) true .dbg)
            (ulogHexFormater buf tag data size width addr tick mem)) ↔
          (headText .dbg tag tick).length + (addressText addr size).length ≤ ulogLineBufSize := by
  constructor
  · intro level newline fmt args S hfmt hS
    constructor
    · intro h
      by_contra hlong
      exact ulogFormater_wraps hbuf htag level tick newline hfmt hlong _ h
    · exact ulogFormater_right hbuf htag level tick newline hfmt hS
  · intro data size width addr
    constructor
    · intro h
      by_contra hlong
      exact ulogHexFormater_overflows hbuf htag data size width addr tick hlong _ h
    · exact ulogHexFormater_right hbuf htag data size width addr tick

end Content

theorem headText_length_le (level : LogLevel) (tag : List UInt8) (tick : UInt32) :
    (headText level tag tick).length ≤ tag.length + 22 := by
  have hcolour : ((colorOutputInfo level).elim [] (csiStart ++ ·)).length ≤ 5 := by
    cases level <;> decide
  have hlevel : (levelOutputInfo level).length = 2 := by cases level <;> rfl
  have htick := tickText_length tick
  simp only [headText, chars, List.map_cons, List.map_nil, List.length_append, List.length_cons,
    List.length_nil]
  omega

def mainTag : List UInt8 := chars ['m', 'a', 'i', 'n']

/-- A line and a dump of four bytes. -/
theorem ulogLine_iff_main :
    InRam 0x20001000 ∧ NulFree mainTag ∧
      (∀ mem, LineRight 0x20001000 mem
        (lineText (headText .info mainTag 7 ++ chars ['u', 'p']) true .info)
        (ulogFormater 0x20001000 .info mainTag true (chars ['u', 'p']) [] 7 mem)) ∧
      ∀ mem, LineRight 0x20001000 mem
        (lineText (headText .dbg mainTag 7 ++ dumpText (fun _ => 0x41) 4 8 0) true .dbg)
        (ulogHexFormater 0x20001000 mainTag (fun _ => 0x41) 4 8 0 7 mem) := by
  have hbuf : InRam 0x20001000 := by
    unfold InRam
    decide
  have htag : NulFree mainTag := by decide
  have hlength : mainTag.length = 4 := rfl
  have hfmt : Produces (chars ['u', 'p']) [] (chars ['u', 'p']) :=
    produces_render [.char (chr 'u') (by decide), .char (chr 'p') (by decide)] []
  have hfits : FormatFits 0x20001000 (headText .info mainTag 7).length 2 := by
    have hhead := headText_length_le .info mainTag 7
    have hram : (0x20001000 : BitVec 32).toNat = 0x20001000 := rfl
    unfold FormatFits
    split <;> omega
  have hdump : (headText .dbg mainTag 7).length + (addressText 0 4).length ≤ ulogLineBufSize := by
    have hhead := headText_length_le .dbg mainTag 7
    have haddress := addressText_length 0 4
    have hsize : ulogLineBufSize = 128 := rfl
    omega
  exact ⟨hbuf, htag,
    ((ulogLine_iff hbuf htag 7).1 .info true (chars ['u', 'p']) [] (chars ['u', 'p']) hfmt
      (by decide)).mpr hfits,
    ((ulogLine_iff hbuf htag 7).2 (fun _ => 0x41) 4 8 0).mpr hdump⟩

/-- With a tag of 120 characters a hex dump is written beyond the buffer. -/
theorem not_ulogLine :
    ¬ ∀ mem, LineRight 0x20001000 mem
      (lineText (headText .dbg (List.replicate 120 (chr 'x')) 7 ++ dumpText (fun _ => 0x41) 4 8 0)
        true .dbg)
      (ulogHexFormater 0x20001000 (List.replicate 120 (chr 'x')) (fun _ => 0x41) 4 8 0 7 mem) := by
  have htag : NulFree (List.replicate 120 (chr 'x')) := by
    intro c hc
    rw [List.eq_of_mem_replicate hc]
    decide
  refine ulogHexFormater_overflows (by unfold InRam; decide) htag _ _ _ _ _ ?_ _
  have hlength : (List.replicate 120 (chr 'x')).length = 120 := List.length_replicate
  have hsize : ulogLineBufSize = 128 := rfl
  simp only [headText, tickText, addressText, chars, colorOutputInfo, levelOutputInfo,
    Option.elim_none, List.map_cons, List.map_nil, List.length_append, List.length_cons,
    List.length_nil, hlength]
  omega

end Gd32Vw553h.Utilities
