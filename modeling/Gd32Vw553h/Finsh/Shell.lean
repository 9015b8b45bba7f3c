/-
  Finsh/Shell.lean --- the line editor of `components/finsh/shell.c`.

  Source configuration: `FINSH_USING_HISTORY` with 5 lines, `FINSH_USING_WORD_OPERATION`
  and `FINSH_USING_OPTION_COMPLETION` are set; `FINSH_USING_FUNC_EXT`, `FINSH_USING_AUTH`
  and `RT_USING_POSIX_STDIO` are not.  `finsh_thread_entry` reads one byte after the other;
  `finshThreadEntry` is what it does with a byte until it reads the next one.  A place
  inside a key where it reads a byte is part of the state (`Getchar`).

  The echo on the terminal is not modelled.  A copy that would leave `line[0..80]` is not
  carried out but noted in `outside`; what it would destroy is left open.
-/
import Gd32Vw553h.Finsh.Complete
import Gd32Vw553h.Foundation.Runs
import Mathlib.Logic.Function.Basic

set_option autoImplicit false

namespace Gd32Vw553h.Finsh

open Gd32Vw553h.Foundation Gd32Vw553h.Klibc

/-- `FINSH_HISTORY_LINES` -/
def finshHistoryLines : Nat := 5

/-- `enum input_stat`; `WAIT_EXT_KEY` belongs to `FINSH_USING_FUNC_EXT`. -/
inductive InputStat where
  | waitNormal
  | waitSpecKey
  | waitFuncKey
  deriving DecidableEq, Repr

/-- The call of `finsh_getchar` that waits: the one of the loop, or one of those for the
modifier sequence `1;5D` or `1;5C`. -/
inductive Getchar where
  | loop
  | semicolon
  | five
  | final
  deriving DecidableEq, Repr

/-- `struct finsh_shell`, with the lines and lengths passed to `msh_exec` so far. -/
structure Shell where
  stat : InputStat
  getchar : Getchar
  currentHistory : Nat
  historyCount : Nat
  cmdHistory : Nat → List UInt8
  line : List UInt8
  linePosition : Nat
  lineCurpos : Nat
  outside : Bool
  executed : List (List UInt8 × Nat)

/-- The shell that `rt_calloc` returns. -/
def shellInit : Shell :=
  { stat := .waitNormal
    getchar := .loop
    currentHistory := 0
    historyCount := 0
    cmdHistory := fun _ => List.replicate finshCmdSize 0
    line := List.replicate (finshCmdSize + 1) 0
    linePosition := 0
    lineCurpos := 0
    outside := false
    executed := [] }

/-! ## The buffer -/

namespace Shell

/-- Bytes stored at an index of `line`. -/
def write (s : Shell) (dst : Int) (bytes : List UInt8) : Shell :=
  if 0 ≤ dst ∧ dst + bytes.length ≤ finshCmdSize + 1 then
    { s with line := overwrite s.line dst.toNat bytes }
  else { s with outside := true }

/-- `rt_memmove` inside `line`.  A negative count is a huge `size_t`. -/
def memmove (s : Shell) (dst src : Nat) (n : Int) : Shell :=
  if 0 ≤ n ∧ src + n ≤ finshCmdSize + 1 then s.write dst ((s.line.drop src).take n.toNat)
  else { s with outside := true }

/-- `rt_memset` to 0 inside `line`. -/
def memset (s : Shell) (dst : Int) (n : Nat) : Shell := s.write dst (List.replicate n 0)

/-- `shell->line_curpos = shell->line_position = (rt_uint16_t)rt_strlen(shell->line)` -/
def measure (s : Shell) : Shell :=
  { s with linePosition := rtStrlen s.line, lineCurpos := rtStrlen s.line }

/-! ## History -/

/-- A row of `cmd_history`: zeroed, and the line copied into it. -/
def historyRow (s : Shell) : List UInt8 :=
  overwrite (List.replicate finshCmdSize 0) 0 (s.line.take s.linePosition)

/-- `shell_push_history` -/
def shellPushHistory (s : Shell) : Shell :=
  let s :=
    if s.linePosition ≠ 0 then
      if finshHistoryLines ≤ s.historyCount then
        -- if current cmd is same as last cmd, don't push
        if s.cmdHistory (finshHistoryLines - 1) ≠ s.line.take finshCmdSize then
          { s with
            cmdHistory := fun index =>
              if index < finshHistoryLines - 1 then s.cmdHistory (index + 1)
              else if index = finshHistoryLines - 1 then s.historyRow
              else s.cmdHistory index
            historyCount := finshHistoryLines }
        else s
      else if s.historyCount = 0 ∨ s.cmdHistory (s.historyCount - 1) ≠ s.line.take finshCmdSize then
        { s with
          currentHistory := s.historyCount
          cmdHistory := Function.update s.cmdHistory s.historyCount s.historyRow
          historyCount := s.historyCount + 1 }
      else s
    else s
  { s with currentHistory := s.historyCount }

/-- Copy the history command. -/
def recallHistory (s : Shell) : Shell :=
  (s.write 0 (s.cmdHistory s.currentHistory)).measure

def upKey (s : Shell) : Shell :=
  if 0 < s.currentHistory then recallHistory { s with currentHistory := s.currentHistory - 1 }
  else { s with currentHistory := 0 }

def downKey (s : Shell) : Shell :=
  if (s.currentHistory : Int) < s.historyCount - 1 then
    recallHistory { s with currentHistory := s.currentHistory + 1 }
  else if s.historyCount ≠ 0 then recallHistory { s with currentHistory := s.historyCount - 1 }
  else s

/-! ## Moving -/

def leftKey (s : Shell) : Shell :=
  if s.lineCurpos ≠ 0 then { s with lineCurpos := s.lineCurpos - 1 } else s

def rightKey (s : Shell) : Shell :=
  if s.lineCurpos < s.linePosition then { s with lineCurpos := s.lineCurpos + 1 } else s

end Shell

/-- A blank or a tab. -/
def isBlank (c : UInt8) : Bool := c = 0x20 || c = 0x09

/-- `while (--curpos > 0 && blank(line[curpos]))` -/
def skipBack (line : List UInt8) : Nat → Nat
  | 0 => 0
  | curpos + 1 => if 0 < curpos ∧ isBlank (line.getD curpos 0) then skipBack line curpos else curpos

/-- `while (curpos > 0 && !blank(line[curpos])) curpos--` -/
def wordBack (line : List UInt8) : Nat → Nat
  | 0 => 0
  | curpos + 1 => if !isBlank (line.getD (curpos + 1) 0) then wordBack line curpos else curpos + 1

/-- `find_prev_word_start` -/
def findPrevWordStart (line : List UInt8) (curpos : Nat) : Nat :=
  if curpos ≤ 0 then 0
  else
    let curpos := wordBack line (skipBack line curpos)
    if curpos ≤ 0 then 0 else curpos + 1

/-- `while (curpos < max && p(line[curpos])) curpos++`, with `n` characters up to `max`. -/
def skipWhile (p : UInt8 → Bool) (line : List UInt8) : Nat → Nat → Nat
  | 0, curpos => curpos
  | n + 1, curpos =>
    if p (line.getD curpos 0) then skipWhile p line n (curpos + 1) else curpos

/-- `find_next_word_end` -/
def findNextWordEnd (line : List UInt8) (curpos max : Nat) : Nat :=
  if max ≤ curpos then max
  else
    let curpos := skipWhile isBlank line (max - curpos) curpos
    skipWhile (!isBlank ·) line (max - curpos) curpos

namespace Shell

def ctrlLeftKey (s : Shell) : Shell :=
  { s with lineCurpos := findPrevWordStart s.line s.lineCurpos }

def ctrlRightKey (s : Shell) : Shell :=
  { s with lineCurpos := findNextWordEnd s.line s.lineCurpos s.linePosition }

/-! ## Editing -/

/-- `msh_auto_complete(shell->line)` -/
def autoComplete (table : List Command) (s : Shell) : Shell :=
  match mshAutoComplete table (cString s.line) with
  | some bytes => s.write 0 bytes
  | none => s

/-- `msh_opt_auto_complete(shell->line)` -/
def optAutoComplete (table : List Command) (s : Shell) : Shell :=
  match mshOptAutoComplete table (cString s.line) with
  | some (start, bytes) => s.write start bytes
  | none => s

/-- `shell_auto_complete` -/
def shellAutoComplete (table : List Command) (s : Shell) : Shell :=
  (s.autoComplete table).optAutoComplete table

/-- Tab: complete, and re-calculate the position. -/
def tabKey (table : List Command) (s : Shell) : Shell := (s.shellAutoComplete table).measure

/-- The backspace key; a position is a 16-bit number. -/
def backspaceKey (s : Shell) : Shell :=
  if s.lineCurpos = 0 then s
  else
    let s := { s with
      linePosition := (s.linePosition + 65535) % 65536
      lineCurpos := s.lineCurpos - 1 }
    if s.lineCurpos < s.linePosition then
      let s := s.memmove s.lineCurpos (s.lineCurpos + 1) (s.linePosition - s.lineCurpos)
      s.write s.linePosition [0]
    else s.write s.linePosition [0]

/-- Ctrl-W: delete back to the start of the word. -/
def ctrlWKey (s : Shell) : Shell :=
  if s.lineCurpos = 0 then s
  else
    let start := findPrevWordStart s.line s.lineCurpos
    let delCount := s.lineCurpos - start
    let newLen : Int := s.linePosition - delCount
    let t := s.memmove start (start + delCount) (newLen - start + 1)
    let t := t.memset newLen delCount
    { t with linePosition := (newLen % 65536).toNat, lineCurpos := start }

/-- Enter: `msh_exec`, and an empty line. -/
def enterKey (s : Shell) : Shell :=
  let s := s.shellPushHistory
  { s with
    executed := s.executed ++ [(s.line, s.linePosition)]
    line := List.replicate (finshCmdSize + 1) 0
    linePosition := 0
    lineCurpos := 0 }

/-- A normal character. -/
def insertChar (s : Shell) (ch : UInt8) : Shell :=
  -- it's a large line, discard it
  let s := if finshCmdSize ≤ s.linePosition then { s with linePosition := 0 } else s
  let s :=
    if s.lineCurpos < s.linePosition then
      let s := { s with linePosition := s.linePosition + 1 }
      let s := s.memmove (s.lineCurpos + 1) s.lineCurpos (s.linePosition - s.lineCurpos)
      let s := s.write s.lineCurpos [ch]
      { s with lineCurpos := s.lineCurpos + 1 }
    else
      let s := s.write s.linePosition [ch]
      { s with linePosition := s.linePosition + 1, lineCurpos := s.lineCurpos + 1 }
  -- clear command line
  if finshCmdSize ≤ s.linePosition then { s with linePosition := 0, lineCurpos := 0 } else s

/-- The keys of one byte. -/
def plainKey (table : List Command) (s : Shell) (ch : UInt8) : Shell :=
  if ch = 0 ∨ ch = 0xff then s
  else if ch = 0x09 then s.tabKey table
  else if ch = 0x7f ∨ ch = 0x08 then s.backspaceKey
  else if ch = 0x17 then s.ctrlWKey
  else if ch = 0x0d ∨ ch = 0x0a then s.enterKey
  else s.insertChar ch

end Shell

/-- The body of the loop in `finsh_thread_entry`, from one `finsh_getchar` to the next. -/
def finshThreadEntry (table : List Command) (s : Shell) (ch : UInt8) : Shell :=
  match s.getchar with
  | .loop =>
    if ch = 0x1b then { s with stat := .waitSpecKey }
    else
      match s.stat with
      | .waitSpecKey =>
        if ch = 0x5b ∨ ch = 0x41 ∨ ch = 0x42 ∨ ch = 0x43 ∨ ch = 0x44 then
          { s with stat := .waitFuncKey }
        else Shell.plainKey table { s with stat := .waitNormal } ch
      | .waitFuncKey =>
        let s := { s with stat := .waitNormal }
        if ch = 0x41 then s.upKey
        else if ch = 0x42 then s.downKey
        else if ch = 0x44 then s.leftKey
        else if ch = 0x43 then s.rightKey
        else if ch = 0x31 then { s with getchar := .semicolon }
        else s.plainKey table ch
      | .waitNormal => s.plainKey table ch
  -- where the sequence breaks off, the digit 1 that began it is taken for a character
  | .semicolon =>
    if ch = 0x3b then { s with getchar := .five }
    else Shell.plainKey table { s with getchar := .loop } 0x31
  | .five =>
    if ch = 0x35 then { s with getchar := .final }
    else Shell.plainKey table { s with getchar := .loop } 0x31
  | .final =>
    if ch = 0x44 then Shell.ctrlLeftKey { s with getchar := .loop }
    else if ch = 0x43 then Shell.ctrlRightKey { s with getchar := .loop }
    else Shell.plainKey table { s with getchar := .loop } 0x31

/-- The shell as a machine that reads bytes. -/
def finsh (table : List Command) : Machine Shell UInt8 where
  step s ch := some (finshThreadEntry table s ch)

end Gd32Vw553h.Finsh
