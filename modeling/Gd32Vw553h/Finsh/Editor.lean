/-
  Finsh/Editor.lean --- what the keys of the shell do to a line.

  The abstract editor keeps the text before and behind the cursor, the list of the last
  commands and the lines that were submitted.  Bytes are decoded to keys by an automaton;
  a key is a function on the editor.

  The shell is where the editor is (`Follows`) if its buffer and its rows hold the text and
  the last commands.  `StaysEditable` is the condition under which it stays there.
-/
import Gd32Vw553h.Finsh.Shell

set_option autoImplicit false

namespace Gd32Vw553h.Finsh

open Gd32Vw553h.Foundation Gd32Vw553h.Klibc

/-! ## Keys -/

inductive Key where
  | up
  | down
  | left
  | right
  | wordLeft
  | wordRight
  | tab
  | backspace
  | deleteWord
  | enter
  | char (c : UInt8)
  deriving DecidableEq, Repr

/-- How much of an escape sequence has been read. -/
inductive Decoder where
  | idle
  | escape
  | bracket
  | one
  | oneSemicolon
  | oneSemicolonFive
  deriving DecidableEq, Repr

/-- A byte on its own. -/
def plain (ch : UInt8) : Option Key :=
  if ch = 0 ∨ ch = 0xff then none
  else if ch = 0x09 then some .tab
  else if ch = 0x7f ∨ ch = 0x08 then some .backspace
  else if ch = 0x17 then some .deleteWord
  else if ch = 0x0d ∨ ch = 0x0a then some .enter
  else some (.char ch)

/-- The next byte.  A sequence that breaks off behind its `1` stands for that character. -/
def decode : Decoder → UInt8 → Decoder × Option Key
  | .idle, ch => if ch = 0x1b then (.escape, none) else (.idle, plain ch)
  | .escape, ch =>
    if ch = 0x1b then (.escape, none)
    else if ch = 0x5b ∨ ch = 0x41 ∨ ch = 0x42 ∨ ch = 0x43 ∨ ch = 0x44 then (.bracket, none)
    else (.idle, plain ch)
  | .bracket, ch =>
    if ch = 0x1b then (.escape, none)
    else if ch = 0x41 then (.idle, some .up)
    else if ch = 0x42 then (.idle, some .down)
    else if ch = 0x44 then (.idle, some .left)
    else if ch = 0x43 then (.idle, some .right)
    else if ch = 0x31 then (.one, none)
    else (.idle, plain ch)
  | .one, ch => if ch = 0x3b then (.oneSemicolon, none) else (.idle, some (.char 0x31))
  | .oneSemicolon, ch =>
    if ch = 0x35 then (.oneSemicolonFive, none) else (.idle, some (.char 0x31))
  | .oneSemicolonFive, ch =>
    if ch = 0x44 then (.idle, some .wordLeft)
    else if ch = 0x43 then (.idle, some .wordRight)
    else (.idle, some (.char 0x31))

/-! ## The editor -/

/-- The text around the cursor, the last commands and the place in them, and what has been
submitted. -/
structure Editor where
  decoder : Decoder
  before : List UInt8
  after : List UInt8
  history : List (List UInt8)
  current : Nat
  submitted : List (List UInt8)
  deriving DecidableEq

def editorInit : Editor := ⟨.idle, [], [], [], 0, []⟩

/-- Where the word before the cursor begins. -/
def wordStart (before : List UInt8) : Nat :=
  ((before.reverse.dropWhile isBlank).dropWhile (!isBlank ·)).length

/-- How far the next word reaches behind the cursor. -/
def wordEnd (after : List UInt8) : Nat :=
  (after.takeWhile isBlank).length + ((after.dropWhile isBlank).takeWhile (!isBlank ·)).length

/-- The last commands after one more: not an empty one and not the same twice. -/
def remember (history : List (List UInt8)) (text : List UInt8) : List (List UInt8) :=
  if text = [] ∨ history.getLast? = some text then history
  else (history ++ [text]).drop (history.length + 1 - finshHistoryLines)

namespace Editor

def text (e : Editor) : List UInt8 := e.before ++ e.after

/-- Another line with the cursor at its end. -/
def setText (e : Editor) (text : List UInt8) : Editor := { e with before := text, after := [] }

/-- A command of the history. -/
def recallHistory (e : Editor) (index : Nat) : Editor :=
  { e.setText (e.history.getD index []) with current := index }

/-- A line that reaches 80 characters is discarded. -/
def insert (e : Editor) (c : UInt8) : Editor :=
  if e.text.length + 1 < finshCmdSize then { e with before := e.before ++ [c] } else e.setText []

def press (table : List Command) (e : Editor) : Key → Editor
  | .up => if e.current = 0 then e else e.recallHistory (e.current - 1)
  | .down =>
    if e.history = [] then e else e.recallHistory (min (e.current + 1) (e.history.length - 1))
  | .left => { e with
      before := e.before.dropLast
      after := e.before.drop (e.before.length - 1) ++ e.after }
  | .right => { e with before := e.before ++ e.after.take 1, after := e.after.drop 1 }
  | .wordLeft => { e with
      before := e.before.take (wordStart e.before)
      after := e.before.drop (wordStart e.before) ++ e.after }
  | .wordRight => { e with
      before := e.before ++ e.after.take (wordEnd e.after)
      after := e.after.drop (wordEnd e.after) }
  | .tab => e.setText (complete table e.text)
  | .backspace => { e with before := e.before.dropLast }
  | .deleteWord => { e with before := e.before.take (wordStart e.before) }
  | .enter => { e.setText [] with
      history := remember e.history e.text
      current := (remember e.history e.text).length
      submitted := e.submitted ++ [e.text] }
  | .char c => e.insert c

/-- The next byte. -/
def input (table : List Command) (e : Editor) (ch : UInt8) : Editor :=
  let (decoder, key) := decode e.decoder ch
  match key with
  | some key => press table { e with decoder := decoder } key
  | none => { e with decoder := decoder }

end Editor

/-- The editor after so many bytes. -/
def editor (table : List Command) (bytes : List UInt8) : Editor :=
  bytes.foldl (Editor.input table) editorInit

/-! ## Following the editor -/

/-- The place of the shell in an escape sequence. -/
def Shell.decoder (s : Shell) : Decoder :=
  match s.getchar with
  | .loop =>
    match s.stat with
    | .waitNormal => .idle
    | .waitSpecKey => .escape
    | .waitFuncKey => .bracket
  | .semicolon => .one
  | .five => .oneSemicolon
  | .final => .oneSemicolonFive

/-- `stat` at a place in an escape sequence. -/
def Decoder.stat : Decoder → InputStat
  | .escape => .waitSpecKey
  | .bracket => .waitFuncKey
  | _ => .waitNormal

/-- The call that waits at a place in an escape sequence. -/
def Decoder.getchar : Decoder → Getchar
  | .one => .semicolon
  | .oneSemicolon => .five
  | .oneSemicolonFive => .final
  | _ => .loop

/-- The shell with a text around the cursor. -/
def Shell.show (s : Shell) (before after : List UInt8) : Shell :=
  { s with
    line := zeroPad (finshCmdSize + 1) (before ++ after)
    linePosition := (before ++ after).length
    lineCurpos := before.length }

/-- The rows hold the last commands. -/
structure HoldsHistory (s : Shell) (history : List (List UInt8)) (current : Nat) : Prop where
  count : s.historyCount = history.length
  atMost : history.length ≤ finshHistoryLines
  rows : ∀ i (h : i < history.length), s.cmdHistory i = zeroPad finshCmdSize history[i]
  short : ∀ text ∈ history, text.length < finshCmdSize
  nulFree : ∀ text ∈ history, NulFree text
  place : s.currentHistory = current
  placeLe : current ≤ history.length

/-- The shell is where the editor is. -/
structure Follows (s : Shell) (e : Editor) : Prop where
  shown : s = s.show e.before e.after
  short : e.text.length < finshCmdSize
  nulFree : NulFree e.text
  inside : s.outside = false
  history : HoldsHistory s e.history e.current
  stat : s.stat = e.decoder.stat
  getchar : s.getchar = e.decoder.getchar
  executed : s.executed =
    e.submitted.map fun text => (zeroPad (finshCmdSize + 1) text, text.length)

/-- A key with which the shell follows the editor. -/
def KeyOk (table : List Command) (text before : List UInt8) : Key → Prop
  | .char _ => text.length + 1 < finshCmdSize
  | .tab => (complete table text).length < finshCmdSize
  | .wordLeft => wordStart before ≠ 1
  | .deleteWord => wordStart before ≠ 1
  | _ => True

instance (table : List Command) (text before : List UInt8) (key : Key) :
    Decidable (KeyOk table text before key) := by
  cases key <;> unfold KeyOk <;> infer_instance

/-- The byte does not bring a line to 80 characters, and no word is sought that begins in
column 1 behind a blank. -/
def StaysEditable (table : List Command) (s : Shell) (ch : UInt8) : Prop :=
  match (decode s.decoder ch).2 with
  | some key => KeyOk table (s.line.take s.linePosition) (s.line.take s.lineCurpos) key
  | none => True

instance (table : List Command) (s : Shell) (ch : UInt8) :
    Decidable (StaysEditable table s ch) := by
  unfold StaysEditable
  split <;> infer_instance

/-- The buffer is sound: the positions are in order and in range, the text has no NUL and
nothing but NULs behind it, and nothing outside has been written. -/
structure LineOk (s : Shell) : Prop where
  curpos : s.lineCurpos ≤ s.linePosition
  position : s.linePosition < finshCmdSize
  text : NulFree (s.line.take s.linePosition)
  tail : s.line.drop s.linePosition = List.replicate (finshCmdSize + 1 - s.linePosition) 0
  inside : s.outside = false

end Gd32Vw553h.Finsh
