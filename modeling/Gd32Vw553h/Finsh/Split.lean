/-
  Finsh/Split.lean --- how a command line is cut into arguments (`msh_split`, called by
  `msh_exec` of `components/finsh/msh.c`).

  The line is cut in place: `argv` points into it, and blanks and closing quotes are
  overwritten with NULs.  The pointer `ptr` and the counter `position` move together, and
  every access to the line is written down.

  `tokens` says what the arguments of a line are.  `SplitInv` holds at the head of the outer
  loop: the arguments that are closed are terminated in front of `ptr`, the last one may
  still end at the blank under `ptr`, and the tokens that remain are those of the rest.
-/
import Gd32Vw553h.Finsh.Shell
import Gd32Vw553h.Foundation.Loops
import Mathlib.Data.List.Forall2

set_option autoImplicit false

namespace Gd32Vw553h.Finsh

open Gd32Vw553h.Foundation Gd32Vw553h.Klibc

/-! ## The code -/

/-- `FINSH_ARG_MAX` -/
def finshArgMax : Nat := 10

/-- `'"'` -/
abbrev doubleQuote : UInt8 := 0x22

/-- `'\\'` -/
abbrev backslash : UInt8 := 0x5c

/-- The variables of `msh_split` and the memory they point into. -/
structure Split where
  mem : Nat → UInt8
  ptr : Nat
  position : Nat
  argv : List Nat
  /-- the addresses that have been read or written -/
  accesses : List Nat

namespace Split

variable (s : Split)

/-- `*(ptr + offset)` is read. -/
def look (offset : Nat) : Split := { s with accesses := s.accesses ++ [s.ptr + offset] }

/-- `*ptr = '\0'` -/
def cut : Split :=
  { s with mem := Function.update s.mem s.ptr 0, accesses := s.accesses ++ [s.ptr] }

/-- `ptr ++; position ++` -/
def advance : Split := { s with ptr := s.ptr + 1, position := s.position + 1 }

/-- `argv[argc] = ptr; argc ++` -/
def push : Split := { s with argv := s.argv ++ [s.ptr] }

end Split

/-- Strip blanks and tabs. -/
def stripBlanks (length : Nat) (s : Split) : Split :=
  if _h : isBlank (s.mem s.ptr) = true ∧ s.position < length then
    stripBlanks length (s.look 0).cut.advance
  else s.look 0
termination_by length - s.position
decreasing_by
  show length - (s.position + 1) < length - s.position
  omega

/-- Skip a string, up to the closing quote. -/
def skipString (length : Nat) (s : Split) : Split :=
  if _h : s.mem s.ptr ≠ doubleQuote ∧ s.position < length then
    if s.mem s.ptr = backslash then
      if s.mem (s.ptr + 1) = doubleQuote then skipString length ((s.look 0).look 1).advance.advance
      else skipString length ((s.look 0).look 1).advance
    else skipString length (s.look 0).advance
  else s.look 0
termination_by length - s.position
decreasing_by
  · show length - (s.position + 1 + 1) < length - s.position
    omega
  · show length - (s.position + 1) < length - s.position
    omega
  · show length - (s.position + 1) < length - s.position
    omega

/-- Skip what is no blank. -/
def skipWord (length : Nat) (s : Split) : Split :=
  if _h : isBlank (s.mem s.ptr) = false ∧ s.position < length then
    skipWord length (s.look 0).advance
  else s.look 0
termination_by length - s.position
decreasing_by
  show length - (s.position + 1) < length - s.position
  omega

/-- A round of `while (position < length)`.  The message about too many arguments reads the
arguments that there are. -/
def splitRound (length : Nat) (s : Split) : Split ⊕ Split :=
  if s.position < length then
    let s := stripBlanks length s
    if finshArgMax ≤ s.argv.length then .inr s
    else if length ≤ s.position then .inr s
    else if s.mem s.ptr = doubleQuote then
      let s := skipString length (s.look 0).advance.push
      if length ≤ s.position then .inr s else .inl s.cut.advance
    else
      let s := skipWord length (s.look 0).push
      if length ≤ s.position then .inr s else .inl s
  else .inr s

/-- `msh_split`, for at most `rounds` rounds. -/
def mshSplit (rounds : Nat) (mem : Nat → UInt8) (cmd length : Nat) : Option Split :=
  loop (splitRound length) rounds
    { mem := mem, ptr := cmd, position := 0, argv := [], accesses := [] }

/-- The beginning of `msh_exec`: `cmd` and `length` behind leading blanks. -/
def skipLeading (mem : Nat → UInt8) : Nat → Nat → Nat × Nat
  | cmd, 0 => (cmd, 0)
  | cmd, length + 1 =>
    if isBlank (mem cmd) then skipLeading mem (cmd + 1) length else (cmd, length + 1)

/-- `cmd0_size` of `_msh_exec_cmd` -/
def commandSize (mem : Nat → UInt8) : Nat → Nat → Nat
  | _, 0 => 0
  | cmd, length + 1 => if isBlank (mem cmd) then 0 else commandSize mem (cmd + 1) length + 1

/-- The bytes from an address on. -/
def textAt (mem : Nat → UInt8) (start n : Nat) : List UInt8 :=
  (List.range n).map fun i => mem (start + i)

/-- `msh_exec` up to the call of the command: the arguments that it is called with.  Which
names are commands is given. -/
def mshExec (isCommand : List UInt8 → Bool) (rounds : Nat) (mem : Nat → UInt8)
    (cmd length : Nat) : Option Split :=
  let (cmd, length) := skipLeading mem cmd length
  if length = 0 then none
  else
    let size := commandSize mem cmd length
    if size = 0 then none
    else if isCommand (textAt mem cmd size) then
      (mshSplit rounds mem cmd length).bind fun s => if s.argv.length = 0 then none else some s
    else none

/-! ## Tokens -/

/-- The text up to the next double quote that no backslash precedes, and what is behind that
quote. -/
def quotedText : UInt8 → List UInt8 → List UInt8 × List UInt8
  | _, [] => ([], [])
  | previous, c :: rest =>
    if c = doubleQuote ∧ previous ≠ backslash then ([], rest)
    else (c :: (quotedText c rest).1, (quotedText c rest).2)

theorem quote_ne_backslash : doubleQuote ≠ backslash := by decide

theorem quotedText_length (previous : UInt8) (line : List UInt8) :
    (quotedText previous line).2.length ≤ line.length := by
  induction line generalizing previous with
  | nil => exact Nat.le_refl _
  | cons c rest ih =>
    unfold quotedText
    split
    · exact Nat.le_succ _
    · exact Nat.le_succ_of_le (ih c)

/-- The tokens of a line: maximal runs of other characters than blanks, and quoted texts where
a token starts with a double quote. -/
def tokens : List UInt8 → List (List UInt8)
  | [] => []
  | c :: rest =>
    if isBlank c then tokens rest
    else if c = doubleQuote then
      (quotedText c rest).1 :: tokens (quotedText c rest).2
    else
      (c :: rest.takeWhile (!isBlank ·)) :: tokens (rest.dropWhile (!isBlank ·))
termination_by line => line.length
decreasing_by
  · exact Nat.lt_succ_self _
  · exact Nat.lt_succ_of_le (quotedText_length _ _)
  · exact Nat.lt_succ_of_le (List.dropWhile_sublist _).length_le

theorem tokens_nil : tokens [] = [] := by
  unfold tokens
  rfl

theorem tokens_blank {c : UInt8} (hc : isBlank c = true) (rest : List UInt8) :
    tokens (c :: rest) = tokens rest := by
  rw [tokens, if_pos hc]

theorem tokens_quote (rest : List UInt8) : tokens (doubleQuote :: rest) =
    (quotedText doubleQuote rest).1 :: tokens (quotedText doubleQuote rest).2 := by
  rw [tokens, if_neg (by decide), if_pos rfl]

theorem tokens_word {c : UInt8} (hc : isBlank c = false) (hquote : c ≠ doubleQuote)
    (rest : List UInt8) : tokens (c :: rest) =
      (c :: rest).takeWhile (!isBlank ·) :: tokens ((c :: rest).dropWhile (!isBlank ·)) := by
  rw [tokens, if_neg (by simp [hc]), if_neg hquote, List.takeWhile_cons, List.dropWhile_cons,
    if_pos (by simp [hc]), if_pos (by simp [hc])]

/-- What comes before a character other than a double quote does not matter to it. -/
theorem quotedText_of_ne {c : UInt8} (hc : c ≠ doubleQuote) (previous : UInt8)
    (rest : List UInt8) : quotedText previous (c :: rest) =
      (c :: (quotedText c rest).1, (quotedText c rest).2) := by
  rw [quotedText, if_neg fun h => hc h.1]

/-! ## Text in memory -/

theorem textAt_succ (mem : Nat → UInt8) (start n : Nat) :
    textAt mem start (n + 1) = mem start :: textAt mem (start + 1) n := by
  rw [textAt, List.range_succ_eq_map, List.map_cons, List.map_map, textAt]
  refine congrArg (mem start :: ·) (List.map_congr_left fun i _ => congrArg mem ?_)
  show start + (i + 1) = start + 1 + i
  omega

theorem textAt_length (mem : Nat → UInt8) (start n : Nat) : (textAt mem start n).length = n := by
  rw [textAt, List.length_map, List.length_range]

theorem textAt_congr {mem mem' : Nat → UInt8} {start n : Nat}
    (h : ∀ a, start ≤ a → a < start + n → mem' a = mem a) :
    textAt mem' start n = textAt mem start n :=
  List.map_congr_left fun i hi => h (start + i) (Nat.le_add_right _ _)
    (Nat.add_lt_add_left (List.mem_range.mp hi) start)

/-- The string with this text begins at an address. -/
structure StringAt (mem : Nat → UInt8) (start : Nat) (text : List UInt8) : Prop where
  chars : textAt mem start text.length = text
  nulFree : NulFree text
  terminated : mem (start + text.length) = 0

theorem StringAt.congr {mem mem' : Nat → UInt8} {start : Nat} {text : List UInt8}
    (h : StringAt mem start text) (hsame : ∀ a ≤ start + text.length, mem' a = mem a) :
    StringAt mem' start text where
  chars := (textAt_congr fun a _ ha => hsame a ha.le).trans h.chars
  nulFree := h.nulFree
  terminated := (hsame _ (Nat.le_refl _)).trans h.terminated

/-! ## The inner loops -/

section Loops

variable {line : Nat → UInt8} {cmd length : Nat} {s : Split}

/-- Where the loops are in the line `line`: they have changed nothing from `ptr` on and have
stayed inside. -/
structure InLine (line : Nat → UInt8) (cmd length : Nat) (s : Split) : Prop where
  ptr : s.ptr = cmd + s.position
  inside : s.position ≤ length
  ahead : ∀ a, s.ptr ≤ a → s.mem a = line a
  before : ∀ a < cmd, s.mem a = line a
  accesses : ∀ a ∈ s.accesses, cmd ≤ a ∧ a ≤ cmd + length

/-- What the loops have not looked at. -/
def remaining (line : Nat → UInt8) (length : Nat) (s : Split) : List UInt8 :=
  textAt line s.ptr (length - s.position)

theorem InLine.here (h : InLine line cmd length s) : s.mem s.ptr = line s.ptr :=
  h.ahead s.ptr (Nat.le_refl _)

theorem InLine.remaining_cons (h : InLine line cmd length s) (hless : s.position < length) :
    remaining line length s = s.mem s.ptr :: remaining line length s.advance := by
  have hcount : length - s.position = length - (s.position + 1) + 1 := by omega
  rw [remaining, hcount, textAt_succ, h.here]
  rfl

theorem remaining_nil (hend : length ≤ s.position) : remaining line length s = [] := by
  rw [remaining, Nat.sub_eq_zero_of_le hend]
  rfl

theorem InLine.look (h : InLine line cmd length s) {offset : Nat}
    (hoffset : s.position + offset ≤ length) : InLine line cmd length (s.look offset) where
  ptr := h.ptr
  inside := h.inside
  ahead := h.ahead
  before := h.before
  accesses a ha := by
    rcases List.mem_append.mp ha with ha | ha
    · exact h.accesses a ha
    · rw [List.mem_singleton.mp ha, h.ptr]
      omega

theorem InLine.advance (h : InLine line cmd length s) (hless : s.position < length) :
    InLine line cmd length s.advance where
  ptr := congrArg (· + 1) h.ptr
  inside := hless
  ahead a ha := h.ahead a (Nat.le_of_succ_le ha)
  before := h.before
  accesses := h.accesses

theorem InLine.push (h : InLine line cmd length s) : InLine line cmd length s.push :=
  ⟨h.ptr, h.inside, h.ahead, h.before, h.accesses⟩

/-- A character is overwritten and passed. -/
theorem InLine.cut_advance (h : InLine line cmd length s) (hless : s.position < length) :
    InLine line cmd length s.cut.advance where
  ptr := congrArg (· + 1) h.ptr
  inside := hless
  ahead a ha := by
    have hgt : s.ptr < a := ha
    exact (Function.update_of_ne (Nat.ne_of_gt hgt) _ _).trans (h.ahead a hgt.le)
  before a ha := by
    have hne : a ≠ s.ptr := by
      rw [h.ptr]
      omega
    exact (Function.update_of_ne hne _ _).trans (h.before a ha)
  accesses a ha := by
    rcases List.mem_append.mp ha with ha | ha
    · exact h.accesses a ha
    · rw [List.mem_singleton.mp ha, h.ptr]
      omega

/-- What stripping blanks leaves. -/
structure Stripped (line : Nat → UInt8) (cmd length : Nat) (s r : Split) : Prop where
  inLine : InLine line cmd length r
  argv : r.argv = s.argv
  moved : s.position ≤ r.position
  kept : ∀ a < s.ptr, r.mem a = s.mem a
  remains : tokens (remaining line length r) = tokens (remaining line length s)
  stopped : r.position < length → isBlank (r.mem r.ptr) = false
  cut : s.position < length → isBlank (s.mem s.ptr) = true →
    r.mem s.ptr = 0 ∧ s.position < r.position

theorem stripBlanks_spec (h : InLine line cmd length s) :
    Stripped line cmd length s (stripBlanks length s) := by
  induction hn : length - s.position using Nat.strong_induction_on generalizing s with
  | _ n ih =>
    unfold stripBlanks
    split
    · next hblank =>
      obtain ⟨hblank, hless⟩ := hblank
      have hnext : InLine line cmd length (s.look 0).cut.advance :=
        (h.look (by omega)).cut_advance hless
      have hspec := ih (length - (s.position + 1)) (by omega) hnext rfl
      have hzero : (s.look 0).cut.advance.mem s.ptr = 0 := Function.update_self _ _ _
      refine ⟨hspec.inLine, hspec.argv, Nat.le_of_succ_le hspec.moved, fun a ha => ?_, ?_,
        hspec.stopped, fun _ _ => ⟨?_, hspec.moved⟩⟩
      · have hkept := hspec.kept a (Nat.lt_succ_of_lt ha)
        exact hkept.trans (Function.update_of_ne (Nat.ne_of_lt ha) _ _)
      · rw [hspec.remains, h.remaining_cons hless, tokens_blank hblank]
        rfl
      · exact (hspec.kept s.ptr (Nat.lt_succ_self _)).trans hzero
    · next hstop =>
      refine ⟨h.look (by simpa using h.inside), rfl, Nat.le_refl _, fun _ _ => rfl, rfl,
        fun hless => ?_, fun hless hblank => absurd ⟨hblank, hless⟩ hstop⟩
      exact Bool.eq_false_iff.mpr fun hblank => hstop ⟨hblank, hless⟩

/-- What skipping a token leaves: `text` lies between, and nothing is written. -/
structure Skipped (line : Nat → UInt8) (cmd length : Nat) (s r : Split) (text : List UInt8) :
    Prop where
  inLine : InLine line cmd length r
  argv : r.argv = s.argv
  mem : r.mem = s.mem
  moved : r.position = s.position + text.length
  chars : textAt line s.ptr text.length = text

/-- One more character is skipped in front. -/
theorem Skipped.cons {r mid : Split} {text : List UInt8} (h : InLine line cmd length s)
    (hskipped : Skipped line cmd length mid r text) (hargv : mid.argv = s.argv)
    (hmem : mid.mem = s.mem) (hposition : mid.position = s.position + 1)
    (hptr : mid.ptr = s.ptr + 1) : Skipped line cmd length s r (s.mem s.ptr :: text) where
  inLine := hskipped.inLine
  argv := hskipped.argv.trans hargv
  mem := hskipped.mem.trans hmem
  moved := by
    rw [hskipped.moved, hposition, List.length_cons]
    omega
  chars := by
    rw [List.length_cons, textAt_succ, ← hptr, hskipped.chars, h.here]

theorem Skipped.nil (h : InLine line cmd length s) : Skipped line cmd length s (s.look 0) [] where
  inLine := h.look (by simpa using h.inside)
  argv := rfl
  mem := rfl
  moved := rfl
  chars := rfl

theorem skipWord_spec (h : InLine line cmd length s) :
    Skipped line cmd length s (skipWord length s)
        ((remaining line length s).takeWhile (!isBlank ·)) ∧
      remaining line length (skipWord length s) =
        (remaining line length s).dropWhile (!isBlank ·) ∧
      ((skipWord length s).position < length →
        isBlank ((skipWord length s).mem (skipWord length s).ptr) = true) := by
  induction hn : length - s.position using Nat.strong_induction_on generalizing s with
  | _ n ih =>
    unfold skipWord
    split
    · next hword =>
      obtain ⟨hword, hless⟩ := hword
      have hnext : InLine line cmd length (s.look 0).advance := (h.look (by omega)).advance hless
      obtain ⟨hskipped, hrest, hstop⟩ := ih (length - (s.position + 1)) (by omega) hnext rfl
      have hkeep : (!isBlank (s.mem s.ptr)) = true := by rw [hword]; rfl
      rw [h.remaining_cons hless, List.takeWhile_cons, List.dropWhile_cons, if_pos hkeep,
        if_pos hkeep]
      exact ⟨hskipped.cons h rfl rfl rfl rfl, hrest, hstop⟩
    · next hstop =>
      rcases Nat.lt_or_ge s.position length with hless | hend
      · have hblank : isBlank (s.mem s.ptr) = true := by
          by_contra hword
          exact hstop ⟨Bool.eq_false_iff.mpr hword, hless⟩
        have hdrop : ¬(!isBlank (s.mem s.ptr)) = true := by simp [hblank]
        have hcons := h.remaining_cons hless
        rw [hcons, List.takeWhile_cons, List.dropWhile_cons, if_neg hdrop, if_neg hdrop, ← hcons]
        exact ⟨.nil h, rfl, fun _ => hblank⟩
      · rw [remaining_nil hend]
        exact ⟨.nil h, remaining_nil hend, fun hless => absurd hless (Nat.not_lt.mpr hend)⟩

/-- The NUL behind the line keeps the look-ahead for an escaped quote inside. -/
theorem skipString_spec (hend : line (cmd + length) = 0) (h : InLine line cmd length s)
    {previous : UInt8} (hprevious : previous ≠ backslash ∨ s.mem s.ptr ≠ doubleQuote) :
    Skipped line cmd length s (skipString length s)
        (quotedText previous (remaining line length s)).1 ∧
      ((skipString length s).position < length →
        (quotedText previous (remaining line length s)).2 =
          remaining line length (skipString length s).advance) ∧
      (length ≤ (skipString length s).position →
        (quotedText previous (remaining line length s)).2 = []) := by
  induction hn : length - s.position using Nat.strong_induction_on generalizing s previous with
  | _ n ih =>
    unfold skipString
    split
    · next hmore =>
      obtain ⟨hquote, hless⟩ := hmore
      have hlook : InLine line cmd length (s.look 0) := h.look hless.le
      rw [h.remaining_cons hless, quotedText_of_ne hquote]
      split
      · next hslash =>
        have hlook' : InLine line cmd length ((s.look 0).look 1) := hlook.look hless
        split
        · next hescaped =>
          -- the quote is inside the line, since a NUL is behind it
          have hless' : s.position + 1 < length := by
            rcases Nat.lt_or_ge (s.position + 1) length with hless' | hlast
            · exact hless'
            · have hnul : s.mem (s.ptr + 1) = 0 := by
                have haddress : s.ptr + 1 = cmd + length := by
                  rw [h.ptr]
                  omega
                refine (h.ahead _ (Nat.le_succ _)).trans ?_
                rw [Nat.succ_eq_add_one, haddress, hend]
              rw [hnul] at hescaped
              exact absurd hescaped (by decide)
          have hmid : InLine line cmd length ((s.look 0).look 1).advance := hlook'.advance hless
          have hnext : InLine line cmd length ((s.look 0).look 1).advance.advance :=
            hmid.advance hless'
          have hsecond := hmid.remaining_cons hless'
          have hsame : remaining line length s.advance =
            remaining line length ((s.look 0).look 1).advance := rfl
          obtain ⟨hskipped, hfound, hnone⟩ := ih (length - (s.position + 1 + 1)) (by omega) hnext
            (.inl quote_ne_backslash) rfl
          have hvalue : ((s.look 0).look 1).advance.mem ((s.look 0).look 1).advance.ptr =
            doubleQuote := hescaped
          have hkept : ¬(doubleQuote = doubleQuote ∧ s.mem s.ptr ≠ backslash) :=
            fun hboth => hboth.2 hslash
          rw [hsame, hsecond, hvalue, quotedText, if_neg hkept]
          have hone : Skipped line cmd length ((s.look 0).look 1).advance _ _ :=
            hskipped.cons hmid rfl rfl rfl rfl
          rw [hvalue] at hone
          exact ⟨hone.cons h rfl rfl rfl rfl, hfound, hnone⟩
        · next hplain =>
          have hnext : InLine line cmd length ((s.look 0).look 1).advance := hlook'.advance hless
          obtain ⟨hskipped, hfound, hnone⟩ := @ih (length - (s.position + 1)) (by omega) _ hnext
            (s.mem s.ptr) (.inr hplain) rfl
          exact ⟨hskipped.cons h rfl rfl rfl rfl, hfound, hnone⟩
      · next hslash =>
        have hnext : InLine line cmd length (s.look 0).advance := hlook.advance hless
        obtain ⟨hskipped, hfound, hnone⟩ := ih (length - (s.position + 1)) (by omega) hnext
          (.inl hslash) rfl
        exact ⟨hskipped.cons h rfl rfl rfl rfl, hfound, hnone⟩
    · next hstop =>
      rcases Nat.lt_or_ge s.position length with hless | hover
      · have hquote : s.mem s.ptr = doubleQuote := by
          by_contra hother
          exact hstop ⟨hother, hless⟩
        have hclosing : previous ≠ backslash := hprevious.resolve_right fun hne => hne hquote
        rw [h.remaining_cons hless, hquote, quotedText, if_pos ⟨rfl, hclosing⟩]
        exact ⟨.nil h, fun _ => rfl, fun hover => absurd hless (Nat.not_lt.mpr hover)⟩
      · rw [remaining_nil hover, quotedText]
        exact ⟨.nil h, fun hless => absurd hless (Nat.not_lt.mpr hover), fun _ => rfl⟩

end Loops

/-! ## The outer loop -/

/-- The line has been cut into its first tokens, and nothing else has been touched. -/
structure SplitRight (line : Nat → UInt8) (cmd length : Nat) (s : Split) : Prop where
  accesses : ∀ a ∈ s.accesses, cmd ≤ a ∧ a ≤ cmd + length
  outside : ∀ a, a < cmd ∨ cmd + length < a → s.mem a = line a
  argc : s.argv.length ≤ finshArgMax
  increasing : s.argv.Pairwise (· < ·)
  within : ∀ a ∈ s.argv, cmd ≤ a ∧ a ≤ cmd + length
  strings : List.Forall₂ (fun start text => StringAt s.mem start text ∧
    start + text.length ≤ cmd + length) s.argv ((tokens (textAt line cmd length)).take finshArgMax)

/-- Arguments that are closed: they end in front of `ptr`, and what remains yields the other
tokens. -/
structure Closed (line : Nat → UInt8) (cmd length : Nat) (s : Split)
    (texts : List (List UInt8)) : Prop where
  inLine : InLine line cmd length s
  increasing : s.argv.Pairwise (· < ·)
  within : ∀ a ∈ s.argv, cmd ≤ a ∧ a < s.ptr
  strings : List.Forall₂ (fun start text => StringAt s.mem start text ∧
    start + text.length < s.ptr) s.argv texts
  remains : tokens (textAt line cmd length) = texts ++ tokens (remaining line length s)
  room : s.argv.length ≤ finshArgMax

/-- The head of the outer loop: all arguments are closed, or all but the last one, which ends at
the blank under `ptr`. -/
inductive SplitInv (line : Nat → UInt8) (cmd length : Nat) (s : Split) : Prop
  | closed (texts : List (List UInt8)) (h : Closed line cmd length s texts)
  | pending (texts : List (List UInt8)) (before : Split) (start : Nat) (text : List UInt8)
      (h : Closed line cmd length before texts) (hroom : before.argv.length < finshArgMax)
      (hmem : s.mem = before.mem) (hargv : s.argv = before.argv ++ [start])
      (hstart : before.ptr ≤ start) (hnonempty : 0 < text.length)
      (hend : start + text.length = s.ptr)
      (hchars : textAt line start text.length = text)
      (hin : InLine line cmd length s) (hless : s.position < length)
      (hblank : isBlank (s.mem s.ptr) = true)
      (htokens : tokens (remaining line length before) =
        text :: tokens (remaining line length s))

section Outer

variable {line : Nat → UInt8} {cmd length : Nat} {s r : Split} {texts : List (List UInt8)}

/-- Loops that write from `ptr` on and drop no token keep closed arguments. -/
theorem Closed.of_stripped (h : Closed line cmd length s texts)
    (hr : Stripped line cmd length s r) : Closed line cmd length r texts where
  inLine := hr.inLine
  increasing := hr.argv ▸ h.increasing
  within a ha := by
    rw [hr.argv] at ha
    obtain ⟨hle, hlt⟩ := h.within a ha
    have hmoved := hr.moved
    rw [h.inLine.ptr] at hlt
    rw [hr.inLine.ptr]
    omega
  strings := by
    rw [hr.argv]
    refine h.strings.imp fun start text hboth => ?_
    obtain ⟨hstring, hlt⟩ := hboth
    have hmoved := hr.moved
    refine ⟨hstring.congr fun a ha => hr.kept a (by omega), ?_⟩
    rw [h.inLine.ptr] at hlt
    rw [hr.inLine.ptr]
    omega
  remains := by
    rw [h.remains, hr.remains]
  room := hr.argv ▸ h.room

/-- One more argument is closed. -/
theorem Closed.append {start : Nat} {text : List UInt8} (h : Closed line cmd length s texts)
    (hroom : s.argv.length < finshArgMax) (hin : InLine line cmd length r)
    (hargv : r.argv = s.argv ++ [start]) (hstart : s.ptr ≤ start)
    (hstring : StringAt r.mem start text) (hend : start + text.length < r.ptr)
    (hkept : ∀ a < s.ptr, r.mem a = s.mem a)
    (htokens : tokens (remaining line length s) = text :: tokens (remaining line length r)) :
    Closed line cmd length r (texts ++ [text]) where
  inLine := hin
  increasing := by
    rw [hargv]
    refine List.pairwise_append.mpr ⟨h.increasing, List.pairwise_singleton _ _, ?_⟩
    intro a ha b hb
    rw [List.mem_singleton.mp hb]
    exact (h.within a ha).2.trans_le hstart
  within a ha := by
    rw [hargv] at ha
    rcases List.mem_append.mp ha with ha | ha
    · exact ⟨(h.within a ha).1, by have := (h.within a ha).2; omega⟩
    · rw [List.mem_singleton.mp ha]
      have hptr := h.inLine.ptr
      exact ⟨by omega, by omega⟩
  strings := by
    rw [hargv]
    refine List.rel_append ?_ (.cons ⟨hstring, hend⟩ .nil)
    refine h.strings.imp fun start' text' hboth => ?_
    exact ⟨hboth.1.congr fun a ha => hkept a (by have := hboth.2; omega), by
      have := hboth.2
      omega⟩
  remains := by
    rw [h.remains, htokens, List.append_assoc, List.singleton_append]
  room := by
    rw [hargv, List.length_append, List.length_singleton]
    exact hroom

/-- The characters of a part of the line. -/
theorem nulFree_of_line (hline : ∀ i < length, line (cmd + i) ≠ 0) {start : Nat}
    {text : List UInt8} (hstart : cmd ≤ start) (hend : start + text.length ≤ cmd + length)
    (hchars : textAt line start text.length = text) : NulFree text := by
  intro c hc
  rw [← hchars] at hc
  obtain ⟨i, hi, rfl⟩ := List.mem_map.mp hc
  have hlt := List.mem_range.mp hi
  have haddress : start + i = cmd + (start + i - cmd) := by omega
  rw [haddress]
  exact hline _ (by omega)

/-- Stripping blanks closes the last argument. -/
theorem SplitInv.strip (hline : ∀ i < length, line (cmd + i) ≠ 0) (h : SplitInv line cmd length s)
    (hless : s.position < length) :
    InLine line cmd length s ∧ ∃ texts, Closed line cmd length (stripBlanks length s) texts := by
  cases h with
  | closed texts h => exact ⟨h.inLine, texts, h.of_stripped (stripBlanks_spec h.inLine)⟩
  | pending texts before start text h hroom hmem hargv hstart hnonempty hend hchars hin hless'
      hblank htokens =>
    have hspec := stripBlanks_spec hin
    obtain ⟨hzero, hmoved⟩ := hspec.cut hless hblank
    have hptr := hin.ptr
    have hbefore := h.inLine.ptr
    refine ⟨hin, texts ++ [text], h.append hroom hspec.inLine (hspec.argv.trans hargv) hstart
      ⟨?_, ?_, ?_⟩ ?_ (fun a ha => ?_) (by rw [htokens, hspec.remains])⟩
    · refine (textAt_congr fun a ha hlt => ?_).trans hchars
      rw [hspec.kept a (by omega), hmem]
      exact h.inLine.ahead a (by omega)
    · exact nulFree_of_line hline (by omega) (by omega) hchars
    · rw [hend]
      exact hzero
    · rw [hend, hspec.inLine.ptr, hptr]
      omega
    · rw [hspec.kept a (by omega), hmem]

/-- The end of the loop, when the arguments are all of the tokens that are wanted. -/
theorem splitRight_of (hin : InLine line cmd length r) (hargc : r.argv.length ≤ finshArgMax)
    (hincreasing : r.argv.Pairwise (· < ·)) (hwithin : ∀ a ∈ r.argv, cmd ≤ a ∧ a ≤ cmd + length)
    (hstrings : List.Forall₂ (fun start text => StringAt r.mem start text ∧
      start + text.length ≤ cmd + length) r.argv texts)
    (htokens : (tokens (textAt line cmd length)).take finshArgMax = texts) :
    SplitRight line cmd length r where
  accesses := hin.accesses
  outside a ha := by
    rcases ha with ha | ha
    · exact hin.before a ha
    · refine hin.ahead a ?_
      have hptr := hin.ptr
      have hinside := hin.inside
      omega
  argc := hargc
  increasing := hincreasing
  within := hwithin
  strings := htokens ▸ hstrings

theorem Closed.right (h : Closed line cmd length r texts)
    (hall : finshArgMax ≤ r.argv.length ∨ length ≤ r.position) : SplitRight line cmd length r := by
  have hptr := h.inLine.ptr
  have hinside := h.inLine.inside
  have hcount := h.strings.length_eq
  have hstrings : List.Forall₂ (fun start text => StringAt r.mem start text ∧
      start + text.length ≤ cmd + length) r.argv texts := by
    refine h.strings.imp fun start text hboth => ⟨hboth.1, ?_⟩
    have hlt := hboth.2
    omega
  refine splitRight_of h.inLine h.room h.increasing (fun a ha => ?_) hstrings ?_
  · have hlt := (h.within a ha).2
    exact ⟨(h.within a ha).1, by omega⟩
  · rw [h.remains]
    have hroom := h.room
    rcases hall with hfull | hover
    · exact List.take_left' (by omega)
    · rw [remaining_nil hover, tokens_nil, List.append_nil]
      exact List.take_of_length_le (by omega)

/-- The last argument ends with the line. -/
theorem Closed.right_last {start : Nat} {text : List UInt8} (h : Closed line cmd length s texts)
    (hend : line (cmd + length) = 0) (hline : ∀ i < length, line (cmd + i) ≠ 0)
    (hroom : s.argv.length < finshArgMax) (hin : InLine line cmd length r)
    (hargv : r.argv = s.argv ++ [start]) (hmem : r.mem = s.mem) (hstart : s.ptr ≤ start)
    (hlast : start + text.length = cmd + length)
    (hchars : textAt line start text.length = text)
    (htokens : tokens (remaining line length s) = [text]) : SplitRight line cmd length r := by
  have hptr := h.inLine.ptr
  have hinside := h.inLine.inside
  have hcount := h.strings.length_eq
  have hstring : StringAt r.mem start text := by
    refine ⟨(textAt_congr fun a ha _ => ?_).trans hchars,
      nulFree_of_line hline (by omega) hlast.le hchars, ?_⟩
    · rw [hmem]
      exact h.inLine.ahead a (by omega)
    · rw [hmem, hlast]
      exact (h.inLine.ahead _ (by omega)).trans hend
  refine @splitRight_of line cmd length r (texts ++ [text]) hin ?_ ?_ (fun a ha => ?_) ?_ ?_
  · rw [hargv, List.length_append, List.length_singleton]
    exact hroom
  · rw [hargv]
    refine List.pairwise_append.mpr ⟨h.increasing, List.pairwise_singleton _ _, ?_⟩
    intro a ha b hb
    rw [List.mem_singleton.mp hb]
    exact (h.within a ha).2.trans_le hstart
  · rw [hargv] at ha
    rcases List.mem_append.mp ha with ha | ha
    · have hlt := (h.within a ha).2
      exact ⟨(h.within a ha).1, by omega⟩
    · rw [List.mem_singleton.mp ha]
      exact ⟨by omega, by omega⟩
  · rw [hargv, hmem]
    rw [hmem] at hstring
    refine List.rel_append (h.strings.imp fun start' text' hboth => ⟨hboth.1, ?_⟩)
      (.cons ⟨hstring, hlast.le⟩ .nil)
    have hlt := hboth.2
    omega
  · rw [h.remains, htokens]
    refine List.take_of_length_le ?_
    rw [List.length_append, List.length_singleton, ← hcount]
    exact hroom

/-- The token that starts with a double quote. -/
theorem Closed.quote (hend : line (cmd + length) = 0) (hline : ∀ i < length, line (cmd + i) ≠ 0)
    (h : Closed line cmd length s texts) (hroom : s.argv.length < finshArgMax)
    (hless : s.position < length) (hquote : s.mem s.ptr = doubleQuote)
    (hr : r = skipString length (s.look 0).advance.push) :
    (length ≤ r.position → SplitRight line cmd length r) ∧
      (r.position < length → SplitInv line cmd length r.cut.advance) ∧
      s.position < r.position := by
  have hin := h.inLine
  have hptr := hin.ptr
  have hopened : InLine line cmd length (s.look 0).advance.push :=
    ((hin.look hless.le).advance hless).push
  obtain ⟨hskipped, hfound, hnone⟩ := skipString_spec hend hopened (.inl quote_ne_backslash)
  rw [← hr] at hskipped hfound hnone
  have htokens : tokens (remaining line length s) =
      (quotedText doubleQuote (remaining line length (s.look 0).advance.push)).1 ::
        tokens (quotedText doubleQuote (remaining line length (s.look 0).advance.push)).2 := by
    rw [hin.remaining_cons hless, hquote]
    exact tokens_quote _
  generalize quotedText doubleQuote (remaining line length (s.look 0).advance.push) = quoted at *
  have hargv : r.argv = s.argv ++ [s.ptr + 1] := hskipped.argv
  have hmem : r.mem = s.mem := hskipped.mem
  have hchars : textAt line (s.ptr + 1) quoted.1.length = quoted.1 := hskipped.chars
  have hmoved : r.position = s.position + 1 + quoted.1.length := hskipped.moved
  have hptr' := hskipped.inLine.ptr
  have hinside := hskipped.inLine.inside
  refine ⟨fun hover => ?_, fun hless' => ?_, by omega⟩
  · rw [hnone hover, tokens_nil] at htokens
    exact h.right_last hend hline hroom hskipped.inLine hargv hmem (Nat.le_succ _) (by omega)
      hchars htokens
  · have hcut := hskipped.inLine.cut_advance hless'
    have hsame : ∀ a, a ≠ r.ptr → r.cut.advance.mem a = s.mem a := fun a ha =>
      (Function.update_of_ne ha _ _).trans (congrFun hmem a)
    rw [hfound hless'] at htokens
    refine .closed _ (h.append hroom hcut hargv (Nat.le_succ _) ⟨?_, ?_, ?_⟩ ?_ ?_ htokens)
    · refine (textAt_congr fun a ha hlt => ?_).trans hchars
      rw [hsame a (by omega)]
      exact hin.ahead a (by omega)
    · exact nulFree_of_line hline (by omega) (by omega) hchars
    · have haddress : s.ptr + 1 + quoted.1.length = r.ptr := by omega
      rw [haddress]
      exact Function.update_self _ _ _
    · show s.ptr + 1 + quoted.1.length < r.ptr + 1
      omega
    · exact fun a ha => hsame a (by omega)

/-- The token that starts with another character. -/
theorem Closed.word (hend : line (cmd + length) = 0) (hline : ∀ i < length, line (cmd + i) ≠ 0)
    (h : Closed line cmd length s texts) (hroom : s.argv.length < finshArgMax)
    (hless : s.position < length) (hblank : isBlank (s.mem s.ptr) = false)
    (hquote : s.mem s.ptr ≠ doubleQuote) (hr : r = skipWord length (s.look 0).push) :
    (length ≤ r.position → SplitRight line cmd length r) ∧
      (r.position < length → SplitInv line cmd length r) ∧ s.position < r.position := by
  have hin := h.inLine
  have hptr := hin.ptr
  have hopened : InLine line cmd length (s.look 0).push := (hin.look hless.le).push
  obtain ⟨hskipped, hrest, hstop⟩ := skipWord_spec hopened
  rw [← hr] at hskipped hrest hstop
  have hsame : remaining line length (s.look 0).push = remaining line length s := rfl
  rw [hsame] at hskipped hrest
  have hnonempty : 0 < ((remaining line length s).takeWhile (!isBlank ·)).length := by
    rw [hin.remaining_cons hless, List.takeWhile_cons, if_pos (by simp [hblank])]
    exact Nat.succ_pos _
  have htokens : tokens (remaining line length s) =
      (remaining line length s).takeWhile (!isBlank ·) :: tokens (remaining line length r) := by
    rw [hrest, hin.remaining_cons hless]
    exact tokens_word hblank hquote _
  generalize (remaining line length s).takeWhile (!isBlank ·) = text at *
  have hargv : r.argv = s.argv ++ [s.ptr] := hskipped.argv
  have hmem : r.mem = s.mem := hskipped.mem
  have hchars : textAt line s.ptr text.length = text := hskipped.chars
  have hmoved : r.position = s.position + text.length := hskipped.moved
  have hptr' := hskipped.inLine.ptr
  have hinside := hskipped.inLine.inside
  refine ⟨fun hover => ?_, fun hless' => ?_, by omega⟩
  · rw [remaining_nil hover, tokens_nil] at htokens
    exact h.right_last hend hline hroom hskipped.inLine hargv hmem (Nat.le_refl _) (by omega)
      hchars htokens
  · exact .pending texts s s.ptr text h hroom hmem hargv (Nat.le_refl _) hnonempty (by omega)
      hchars hskipped.inLine hless' (hstop hless') htokens

/-- A round keeps the invariant and goes on, or leaves the line cut. -/
theorem splitRound_spec (hend : line (cmd + length) = 0) (hline : ∀ i < length, line (cmd + i) ≠ 0)
    (h : SplitInv line cmd length s) :
    Sum.elim (fun next => SplitInv line cmd length next ∧ s.position < next.position)
      (SplitRight line cmd length) (splitRound length s) := by
  unfold splitRound
  by_cases hless : s.position < length
  · rw [if_pos hless]
    obtain ⟨hin, texts, hclosed⟩ := h.strip hline hless
    have hspec := stripBlanks_spec hin
    have hmoved := hspec.moved
    have hstop := hspec.stopped
    clear hspec h
    generalize stripBlanks length s = t at *
    dsimp only
    by_cases hfull : finshArgMax ≤ t.argv.length
    · rw [if_pos hfull]
      exact hclosed.right (.inl hfull)
    · rw [if_neg hfull]
      by_cases hover : length ≤ t.position
      · rw [if_pos hover]
        exact hclosed.right (.inr hover)
      · rw [if_neg hover]
        have hroom : t.argv.length < finshArgMax := Nat.lt_of_not_le hfull
        have hless' : t.position < length := Nat.lt_of_not_le hover
        by_cases hquote : t.mem t.ptr = doubleQuote
        · rw [if_pos hquote]
          obtain ⟨hright, hinv, hmore⟩ := hclosed.quote hend hline hroom hless' hquote rfl
          split
          · next hover' => exact hright hover'
          · next hless'' =>
            refine ⟨hinv (Nat.lt_of_not_le hless''), ?_⟩
            exact Nat.lt_succ_of_lt (Nat.lt_of_le_of_lt hmoved hmore)
        · rw [if_neg hquote]
          obtain ⟨hright, hinv, hmore⟩ :=
            hclosed.word hend hline hroom hless' (hstop hless') hquote rfl
          split
          · next hover' => exact hright hover'
          · next hless'' =>
            exact ⟨hinv (Nat.lt_of_not_le hless''), Nat.lt_of_le_of_lt hmoved hmore⟩
  · rw [if_neg hless]
    cases h with
    | closed texts h => exact h.right (.inr (Nat.not_lt.mp hless))
    | pending _ _ _ _ _ _ _ _ _ _ _ _ _ hless' => exact absurd hless' hless

end Outer

/-- The rounds end, and leave the line cut. -/
theorem mshSplit_total {line : Nat → UInt8} {cmd length : Nat} (hend : line (cmd + length) = 0)
    (hline : ∀ i < length, line (cmd + i) ≠ 0) {rounds : Nat} (hrounds : length < rounds) :
    ∃ s, mshSplit rounds line cmd length = some s ∧ SplitRight line cmd length s := by
  have hinit : InLine line cmd length
      { mem := line, ptr := cmd, position := 0, argv := [], accesses := [] } :=
    ⟨rfl, Nat.zero_le _, fun _ _ => rfl, fun _ _ => rfl, fun a ha => absurd ha List.not_mem_nil⟩
  have hclosed : Closed line cmd length
      { mem := line, ptr := cmd, position := 0, argv := [], accesses := [] } [] :=
    ⟨hinit, List.Pairwise.nil, fun a ha => absurd ha List.not_mem_nil, .nil, rfl, Nat.zero_le _⟩
  refine @loop_total _ _ _ (SplitInv line cmd length) (fun s => length - s.position) _
    (fun s next hinv hbody => ?_) (fun s result hinv hbody => ?_) _ _ (.closed [] hclosed) hrounds
  · have hspec := splitRound_spec hend hline hinv
    rw [hbody] at hspec
    obtain ⟨hnext, hmore⟩ := hspec
    have hless : s.position < length := by
      by_contra hover
      rw [splitRound, if_neg hover] at hbody
      cases hbody
    exact ⟨hnext, by omega⟩
  · have hspec := splitRound_spec hend hline hinv
    rw [hbody] at hspec
    exact hspec

/-! ## From `msh_exec` on -/

section Exec

variable {mem : Nat → UInt8} {cmd length : Nat}

theorem tokens_dropWhile (line : List UInt8) : tokens (line.dropWhile isBlank) = tokens line := by
  induction line with
  | nil => rfl
  | cons c rest ih =>
    rw [List.dropWhile_cons]
    split
    · next hblank => rw [ih, tokens_blank hblank]
    · rfl

theorem tokens_ne_nil {c : UInt8} (hc : isBlank c = false) (rest : List UInt8) :
    tokens (c :: rest) ≠ [] := by
  by_cases hquote : c = doubleQuote
  · rw [hquote, tokens_quote]
    exact List.cons_ne_nil _ _
  · rw [tokens_word hc hquote]
    exact List.cons_ne_nil _ _

/-- Leading blanks are dropped from the line. -/
theorem skipLeading_spec (cmd length : Nat) :
    cmd ≤ (skipLeading mem cmd length).1 ∧
      (skipLeading mem cmd length).1 + (skipLeading mem cmd length).2 = cmd + length ∧
      textAt mem (skipLeading mem cmd length).1 (skipLeading mem cmd length).2 =
        (textAt mem cmd length).dropWhile isBlank := by
  induction length generalizing cmd with
  | zero => exact ⟨Nat.le_refl _, rfl, rfl⟩
  | succ length ih =>
    rw [skipLeading, textAt_succ, List.dropWhile_cons]
    by_cases hblank : isBlank (mem cmd) = true
    · rw [if_pos hblank, if_pos hblank]
      obtain ⟨hle, hsum, htext⟩ := ih (cmd + 1)
      exact ⟨by omega, by omega, htext⟩
    · rw [if_neg hblank, if_neg hblank]
      exact ⟨Nat.le_refl _, rfl, textAt_succ mem cmd length⟩

theorem commandSize_spec (cmd length : Nat) :
    textAt mem cmd (commandSize mem cmd length) =
      (textAt mem cmd length).takeWhile (!isBlank ·) := by
  induction length generalizing cmd with
  | zero => rfl
  | succ length ih =>
    rw [commandSize, textAt_succ mem cmd length, List.takeWhile_cons]
    by_cases hblank : isBlank (mem cmd) = true
    · rw [if_pos hblank, if_neg (by simp [hblank])]
      rfl
    · rw [if_neg hblank, if_pos (by simp [hblank]), textAt_succ, ih]

/-- A line behind blanks that do not count. -/
theorem SplitRight.widen {cmd' length' : Nat} {s : Split} (h : SplitRight mem cmd' length' s)
    (hle : cmd ≤ cmd') (hsum : cmd' + length' = cmd + length)
    (htokens : tokens (textAt mem cmd' length') = tokens (textAt mem cmd length)) :
    SplitRight mem cmd length s where
  accesses a ha := by
    obtain ⟨hfrom, hto⟩ := h.accesses a ha
    exact ⟨hle.trans hfrom, hsum ▸ hto⟩
  outside a ha := by
    refine h.outside a ?_
    omega
  argc := h.argc
  increasing := h.increasing
  within a ha := by
    obtain ⟨hfrom, hto⟩ := h.within a ha
    exact ⟨hle.trans hfrom, hsum ▸ hto⟩
  strings := by
    rw [← htokens, ← hsum]
    exact h.strings

/-- The word that `msh_exec` looks a command up for. -/
def commandWord (line : List UInt8) : List UInt8 :=
  (line.dropWhile isBlank).takeWhile (!isBlank ·)

/-- A line that ends with its first NUL is split inside its bounds into its first tokens.  So is
the line that `msh_exec` runs a command with, which it does where the first word is one. -/
theorem mshSplit_right (isCommand : List UInt8 → Bool) (mem : Nat → UInt8) (cmd length : Nat)
    (hend : mem (cmd + length) = 0) (hline : ∀ i < length, mem (cmd + i) ≠ 0) :
    (∃ s, mshSplit (length + 1) mem cmd length = some s ∧ SplitRight mem cmd length s) ∧
      (∀ s, mshExec isCommand (length + 1) mem cmd length = some s →
        SplitRight mem cmd length s) ∧
      (mshExec isCommand (length + 1) mem cmd length ≠ none ↔
        commandWord (textAt mem cmd length) ≠ [] ∧
          isCommand (commandWord (textAt mem cmd length)) = true) := by
  refine ⟨mshSplit_total hend hline (Nat.lt_succ_self _), ?_⟩
  obtain ⟨hle, hsum, htext⟩ := @skipLeading_spec mem cmd length
  unfold mshExec commandWord
  rw [← htext]
  have htokens : tokens (textAt mem (skipLeading mem cmd length).1 (skipLeading mem cmd length).2) =
      tokens (textAt mem cmd length) := by
    rw [htext, tokens_dropWhile]
  have hfirst : ∀ c rest, textAt mem (skipLeading mem cmd length).1
      (skipLeading mem cmd length).2 = c :: rest → isBlank c = false := by
    intro c rest hcons
    have hhead := List.head?_dropWhile_not isBlank (textAt mem cmd length)
    rw [← htext, hcons] at hhead
    exact hhead
  generalize skipLeading mem cmd length = at' at *
  obtain ⟨cmd', length'⟩ := at'
  dsimp only at *
  rw [← commandSize_spec]
  by_cases hempty : length' = 0
  · rw [if_pos hempty, hempty]
    exact ⟨fun s hs => absurd hs.symm (Option.some_ne_none s), fun hne => absurd rfl hne,
      fun hne => absurd rfl hne.1⟩
  rw [if_neg hempty]
  by_cases hsize : commandSize mem cmd' length' = 0
  · rw [if_pos hsize, hsize]
    exact ⟨fun s hs => absurd hs.symm (Option.some_ne_none s), fun hne => absurd rfl hne,
      fun hne => absurd rfl hne.1⟩
  rw [if_neg hsize]
  have hword : textAt mem cmd' (commandSize mem cmd' length') ≠ [] := by
    refine List.ne_nil_of_length_pos ?_
    rw [textAt_length]
    exact Nat.pos_of_ne_zero hsize
  by_cases hcommand : isCommand (textAt mem cmd' (commandSize mem cmd' length')) = true
  · rw [if_pos hcommand]
    have hend' : mem (cmd' + length') = 0 := by
      rw [hsum]
      exact hend
    have hline' : ∀ i < length', mem (cmd' + i) ≠ 0 := by
      intro i hi
      have haddress : cmd' + i = cmd + (cmd' + i - cmd) := by omega
      rw [haddress]
      exact hline _ (by omega)
    have hrounds : length' < length + 1 := by omega
    obtain ⟨s, hsplit, hright⟩ := mshSplit_total hend' hline' hrounds
    have hargc : s.argv.length ≠ 0 := by
      obtain ⟨more, rfl⟩ : ∃ more, length' = more + 1 := ⟨length' - 1, by omega⟩
      have hnonempty := tokens_ne_nil (hfirst _ _ (textAt_succ mem cmd' more))
        (textAt mem (cmd' + 1) more)
      rw [← textAt_succ] at hnonempty
      rw [hright.strings.length_eq, List.length_take]
      have hpos := List.length_pos_of_ne_nil hnonempty
      have hmax : finshArgMax = 10 := rfl
      omega
    have hrun : ((mshSplit (length + 1) mem cmd' length').bind fun s =>
        if s.argv.length = 0 then none else some s) = some s := by
      rw [hsplit]
      exact if_neg hargc
    rw [hrun]
    refine ⟨fun s' hs' => ?_, fun _ => ⟨hword, hcommand⟩, fun _ => Option.some_ne_none s⟩
    obtain rfl := Option.some.inj hs'
    exact hright.widen hle hsum htokens
  · rw [if_neg hcommand]
    exact ⟨fun s hs => absurd hs.symm (Option.some_ne_none s), fun hne => absurd rfl hne,
      fun hne => absurd hne.2 hcommand⟩

/-- `x "a\"b" c`: three arguments. -/
theorem mshSplit_right_three :
    ∃ s, mshSplit 11 (([0x78, 0x20, 0x22, 0x61, 0x5c, 0x22, 0x62, 0x22, 0x20, 0x63] :
      List UInt8).getD · 0) 0 10 = some s ∧ s.argv.length = 3 := by
  obtain ⟨s, hsplit, hright⟩ := (mshSplit_right (fun _ => true)
    (([0x78, 0x20, 0x22, 0x61, 0x5c, 0x22, 0x62, 0x22, 0x20, 0x63] : List UInt8).getD · 0) 0 10
    (by decide) (by decide)).1
  refine ⟨s, hsplit, ?_⟩
  have htokens : tokens [0x78, 0x20, 0x22, 0x61, 0x5c, 0x22, 0x62, 0x22, 0x20, 0x63] =
      [[0x78], [0x61, 0x5c, 0x22, 0x62], [0x63]] := by
    simp +decide [tokens, quotedText]
  have htext : textAt (([0x78, 0x20, 0x22, 0x61, 0x5c, 0x22, 0x62, 0x22, 0x20, 0x63] :
      List UInt8).getD · 0) 0 10 = [0x78, 0x20, 0x22, 0x61, 0x5c, 0x22, 0x62, 0x22, 0x20, 0x63] :=
    rfl
  rw [hright.strings.length_eq, htext, htokens]
  rfl

end Exec

end Gd32Vw553h.Finsh
