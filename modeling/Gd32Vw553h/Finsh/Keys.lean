/-
  Finsh/Keys.lean --- what each key of `finsh_thread_entry` does to the text in the buffer.

  A shell with a text around the cursor is `s.show before after`; each key is an equation
  between two of them, under the condition that belongs to it.
-/
import Gd32Vw553h.Finsh.Editor
import Mathlib.Data.List.GetD

set_option autoImplicit false

namespace Gd32Vw553h.Finsh

open Gd32Vw553h.Foundation Gd32Vw553h.Klibc

/-! ## Words -/

section Words

variable {line : List UInt8}

theorem reverse_take_succ {curpos : Nat} (h : curpos < line.length) :
    (line.take (curpos + 1)).reverse = line.getD curpos 0 :: (line.take curpos).reverse := by
  rw [List.take_succ_eq_append_getElem h, List.reverse_append, List.getD_eq_getElem line 0 h,
    List.reverse_singleton, List.singleton_append]

/-- The last character before the cursor that is no blank, where column 0 counts as one. -/
theorem skipBack_eq {curpos : Nat} (h : curpos ≤ line.length) :
    skipBack line curpos = ((line.take curpos).reverse.dropWhile isBlank).length - 1 := by
  induction curpos with
  | zero => rfl
  | succ curpos ih =>
    rw [skipBack, reverse_take_succ h]
    cases hblank : isBlank (line.getD curpos 0) with
    | true =>
      rw [List.dropWhile_cons_of_pos hblank]
      by_cases hpos : 0 < curpos
      · rw [if_pos ⟨hpos, rfl⟩]
        exact ih (Nat.le_of_succ_le h)
      · obtain rfl : curpos = 0 := by omega
        rfl
    | false =>
      have hstop : ¬(0 < curpos ∧ false = true) := fun h => absurd h.2 Bool.noConfusion
      have hlen : ((line.take curpos).reverse).length = curpos := by
        rw [List.length_reverse, List.length_take]
        omega
      rw [if_neg hstop, List.dropWhile_cons_of_neg (by rw [hblank]; exact Bool.noConfusion),
        List.length_cons, hlen, Nat.add_sub_cancel]

/-- The last blank at or before an index, where column 0 counts as one. -/
theorem wordBack_eq {curpos : Nat} (h : curpos < line.length) :
    wordBack line curpos =
      ((line.take (curpos + 1)).reverse.dropWhile (!isBlank ·)).length - 1 := by
  induction curpos with
  | zero =>
    rw [wordBack, reverse_take_succ h]
    have hle := (List.dropWhile_sublist (!isBlank ·)
      (l := line.getD 0 0 :: (line.take 0).reverse)).length_le
    rw [List.take_zero, List.reverse_nil, List.length_singleton] at hle
    rw [List.take_zero, List.reverse_nil]
    omega
  | succ curpos ih =>
    rw [wordBack, reverse_take_succ h]
    cases hblank : isBlank (line.getD (curpos + 1) 0) with
    | true =>
      have hlen : ((line.take (curpos + 1)).reverse).length = curpos + 1 := by
        rw [List.length_reverse, List.length_take]
        omega
      rw [List.dropWhile_cons_of_neg (by rw [hblank]; exact Bool.noConfusion), List.length_cons,
        hlen]
      rfl
    | false =>
      rw [List.dropWhile_cons_of_pos (by rw [hblank]; rfl)]
      exact ih (Nat.lt_of_succ_lt h)

/-- What is dropped from the end leaves a beginning. -/
theorem reverse_dropWhile_reverse (p : UInt8 → Bool) (l : List UInt8) :
    (l.reverse.dropWhile p).reverse = l.take (l.reverse.dropWhile p).length := by
  have hsuffix : (l.reverse.dropWhile p) <:+ l.reverse := List.dropWhile_suffix p
  have hbegins : (l.reverse.dropWhile p).reverse <+: l := by
    have := List.reverse_prefix.mpr hsuffix
    rwa [List.reverse_reverse] at this
  have heq := List.prefix_iff_eq_take.mp hbegins
  rw [List.length_reverse] at heq
  exact heq

/-- `find_prev_word_start` finds the start of the word unless that is column 1. -/
theorem findPrevWordStart_eq {curpos : Nat} (h : curpos ≤ line.length)
    (hstart : wordStart (line.take curpos) ≠ 1) :
    findPrevWordStart line curpos = wordStart (line.take curpos) := by
  unfold findPrevWordStart
  by_cases hzero : curpos ≤ 0
  · obtain rfl : curpos = 0 := by omega
    rw [if_pos hzero]
    rfl
  rw [if_neg hzero]
  dsimp only
  rw [skipBack_eq h]
  unfold wordStart at hstart ⊢
  have hskipped := reverse_dropWhile_reverse isBlank (line.take curpos)
  have hle := (List.dropWhile_sublist isBlank (l := (line.take curpos).reverse)).length_le
  rw [List.length_reverse, List.length_take, Nat.min_eq_left h] at hle
  generalize (line.take curpos).reverse.dropWhile isBlank = skipped at hstart hskipped hle ⊢
  cases skipped with
  | nil => rfl
  | cons c skipped =>
    have hindex : (c :: skipped).length - 1 < line.length := by
      rw [List.length_cons] at hle ⊢
      omega
    have hword : (line.take ((c :: skipped).length - 1 + 1)).reverse = c :: skipped := by
      rw [List.take_take, Nat.min_eq_left hle] at hskipped
      have hlen : (c :: skipped).length - 1 + 1 = (c :: skipped).length := rfl
      rw [hlen, ← hskipped, List.reverse_reverse]
    rw [wordBack_eq hindex, hword]
    split
    · omega
    · omega

theorem wordStart_lt {before : List UInt8} (h : before ≠ []) :
    wordStart before < before.length := by
  unfold wordStart
  have hreverse : before.reverse ≠ [] := by
    rwa [Ne, List.reverse_eq_nil_iff]
  have hlen : before.length = before.reverse.length := List.length_reverse.symm
  rw [hlen]
  generalize before.reverse = chars at hreverse ⊢
  cases chars with
  | nil => exact absurd rfl hreverse
  | cons c chars =>
    have hle : ∀ (p : UInt8 → Bool) (l : List UInt8), (l.dropWhile p).length ≤ l.length :=
      fun p l => (List.dropWhile_sublist p).length_le
    rw [List.length_cons]
    cases hblank : isBlank c with
    | true =>
      rw [List.dropWhile_cons_of_pos hblank]
      exact Nat.lt_succ_of_le ((hle _ _).trans (hle _ _))
    | false =>
      rw [List.dropWhile_cons_of_neg (by rw [hblank]; exact Bool.noConfusion),
        List.dropWhile_cons_of_pos (by rw [hblank]; rfl)]
      exact Nat.lt_succ_of_le (hle _ _)

theorem wordStart_le (before : List UInt8) : wordStart before ≤ before.length := by
  cases before with
  | nil => exact Nat.le_refl _
  | cons c before => exact (wordStart_lt (List.cons_ne_nil c before)).le

theorem skipWhile_eq (p : UInt8 → Bool) {n curpos : Nat} (h : curpos + n ≤ line.length) :
    skipWhile p line n curpos = curpos + (((line.drop curpos).take n).takeWhile p).length := by
  induction n generalizing curpos with
  | zero => rw [skipWhile, List.take_zero, List.takeWhile_nil, List.length_nil, Nat.add_zero]
  | succ n ih =>
    have hlt : curpos < line.length := by omega
    have hhead : line.drop curpos = line.getD curpos 0 :: line.drop (curpos + 1) := by
      rw [List.getD_eq_getElem line 0 hlt, List.drop_eq_getElem_cons hlt]
    rw [skipWhile, hhead, List.take_succ_cons]
    cases hp : p (line.getD curpos 0) with
    | true =>
      rw [if_pos rfl, List.takeWhile_cons_of_pos hp, List.length_cons, ih (by omega)]
      omega
    | false =>
      rw [if_neg Bool.noConfusion, List.takeWhile_cons_of_neg (by rw [hp]; exact Bool.noConfusion),
        List.length_nil, Nat.add_zero]

theorem dropWhile_eq_drop (p : UInt8 → Bool) (l : List UInt8) :
    l.dropWhile p = l.drop (l.takeWhile p).length := by
  calc l.dropWhile p
      = (l.takeWhile p ++ l.dropWhile p).drop (l.takeWhile p).length := List.drop_left.symm
    _ = l.drop (l.takeWhile p).length := by rw [List.takeWhile_append_dropWhile]

theorem wordEnd_le (after : List UInt8) : wordEnd after ≤ after.length := by
  have hsplit := congrArg List.length (List.takeWhile_append_dropWhile (p := isBlank) (l := after))
  have hword := (List.takeWhile_sublist (!isBlank ·) (l := after.dropWhile isBlank)).length_le
  rw [List.length_append] at hsplit
  unfold wordEnd
  omega

/-- `find_next_word_end` finds the end of the word. -/
theorem findNextWordEnd_eq {curpos max : Nat} (h : curpos ≤ max) (hmax : max ≤ line.length) :
    findNextWordEnd line curpos max =
      curpos + wordEnd ((line.drop curpos).take (max - curpos)) := by
  unfold findNextWordEnd
  by_cases hend : max ≤ curpos
  · obtain rfl : curpos = max := by omega
    rw [if_pos hend, Nat.sub_self, List.take_zero]
    rfl
  · rw [if_neg hend]
    dsimp only
    rw [skipWhile_eq isBlank (by omega)]
    have hle := (List.takeWhile_sublist isBlank
      (l := (line.drop curpos).take (max - curpos))).length_le
    rw [List.length_take, List.length_drop, Nat.min_eq_left (by omega)] at hle
    rw [skipWhile_eq _ (by omega)]
    unfold wordEnd
    generalize hblanks : (((line.drop curpos).take (max - curpos)).takeWhile isBlank).length = k
    have hdrop : ((line.drop curpos).take (max - curpos)).dropWhile isBlank =
        (line.drop (curpos + k)).take (max - (curpos + k)) := by
      rw [dropWhile_eq_drop, hblanks, List.drop_take, List.drop_drop, Nat.sub_sub]
    rw [hdrop]
    omega

end Words

/-! ## Keys on a text

`s.show before after` has the text in the buffer whatever stood there before, so that each
key is an equation between two of them. -/

namespace Shell

variable (s : Shell) {before after : List UInt8}

theorem write_of_le {dst : Nat} {bytes : List UInt8} (h : dst + bytes.length ≤ finshCmdSize + 1) :
    s.write dst bytes = { s with line := overwrite s.line dst bytes } := by
  rw [write, if_pos ⟨Int.natCast_nonneg dst, by omega⟩, Int.toNat_natCast]

theorem memmove_of_le {dst src n : Nat} (hsrc : src + n ≤ finshCmdSize + 1)
    (hdst : dst + n ≤ finshCmdSize + 1) :
    s.memmove dst src n = { s with line := overwrite s.line dst ((s.line.drop src).take n) } := by
  have hlen : dst + ((s.line.drop src).take n).length ≤ finshCmdSize + 1 := by
    rw [List.length_take]
    omega
  rw [memmove, if_pos ⟨Int.natCast_nonneg n, by omega⟩, Int.toNat_natCast, write_of_le s hlen]

theorem leftKey_show : (s.show before after).leftKey =
    s.show before.dropLast (before.drop (before.length - 1) ++ after) := by
  have htext : before.dropLast ++ (before.drop (before.length - 1) ++ after) = before ++ after := by
    rw [← List.append_assoc, List.dropLast_eq_take, List.take_append_drop]
  unfold leftKey Shell.show
  rw [htext]
  dsimp only
  split
  · rw [List.length_dropLast]
  · next hzero =>
    have hnil : before.length = 0 := by omega
    rw [List.length_dropLast, hnil]

theorem rightKey_show : (s.show before after).rightKey =
    s.show (before ++ after.take 1) (after.drop 1) := by
  have htext : before ++ after.take 1 ++ after.drop 1 = before ++ after := by
    rw [List.append_assoc, List.take_append_drop]
  unfold rightKey Shell.show
  rw [htext]
  dsimp only
  rw [List.length_append, List.length_append, List.length_take]
  split
  · rw [Nat.min_eq_left (by omega)]
  · rw [Nat.min_eq_right (by omega)]
    congr 1
    omega

/-- The buffer up to the cursor. -/
theorem take_before (hfit : (before ++ after).length ≤ finshCmdSize + 1) :
    (zeroPad (finshCmdSize + 1) (before ++ after)).take before.length = before := by
  rw [take_zeroPad (by rw [List.length_append]; omega) hfit, List.take_left]

theorem findPrevWordStart_before (hfit : (before ++ after).length ≤ finshCmdSize + 1)
    (hstart : wordStart before ≠ 1) :
    findPrevWordStart (zeroPad (finshCmdSize + 1) (before ++ after)) before.length =
      wordStart before := by
  have hcurpos : before.length ≤ (zeroPad (finshCmdSize + 1) (before ++ after)).length := by
    rw [zeroPad_length]
    rw [List.length_append] at hfit
    omega
  have hprev := findPrevWordStart_eq hcurpos
  rw [take_before hfit] at hprev
  exact hprev hstart

theorem ctrlLeftKey_show (hfit : (before ++ after).length ≤ finshCmdSize + 1)
    (hstart : wordStart before ≠ 1) : (s.show before after).ctrlLeftKey =
      s.show (before.take (wordStart before)) (before.drop (wordStart before) ++ after) := by
  have htext : before.take (wordStart before) ++ (before.drop (wordStart before) ++ after) =
      before ++ after := by
    rw [← List.append_assoc, List.take_append_drop]
  unfold ctrlLeftKey Shell.show
  rw [htext]
  dsimp only
  rw [findPrevWordStart_before hfit hstart, List.length_take,
    Nat.min_eq_left (wordStart_le before)]

theorem ctrlRightKey_show (hfit : (before ++ after).length ≤ finshCmdSize + 1) :
    (s.show before after).ctrlRightKey =
      s.show (before ++ after.take (wordEnd after)) (after.drop (wordEnd after)) := by
  have htext : before ++ after.take (wordEnd after) ++ after.drop (wordEnd after) =
      before ++ after := by
    rw [List.append_assoc, List.take_append_drop]
  have hafter : (((zeroPad (finshCmdSize + 1) (before ++ after)).drop before.length).take
      ((before ++ after).length - before.length)) = after := by
    have hslice := @slice_zeroPad (finshCmdSize + 1) before after 0 (by omega)
    rw [List.replicate_zero, List.append_nil, Nat.add_zero] at hslice
    rw [List.length_append, Nat.add_sub_cancel_left, hslice]
  have hend : findNextWordEnd (zeroPad (finshCmdSize + 1) (before ++ after)) before.length
      (before ++ after).length = before.length + wordEnd after := by
    rw [findNextWordEnd_eq (by rw [List.length_append]; omega)
      (by rw [zeroPad_length]; exact hfit), hafter]
  have hcurpos : (before ++ after.take (wordEnd after)).length = before.length + wordEnd after := by
    rw [List.length_append, List.length_take, Nat.min_eq_left (wordEnd_le after)]
  unfold ctrlRightKey Shell.show
  rw [htext]
  dsimp only
  rw [hend, hcurpos]

/-- A character that leaves the line short enough. -/
theorem insertChar_show (c : UInt8) (hshort : (before ++ after).length + 1 < finshCmdSize) :
    (s.show before after).insertChar c = s.show (before ++ [c]) after := by
  have hlen : (before ++ after).length = before.length + after.length := List.length_append
  have hlarge : ¬finshCmdSize ≤ (before ++ after).length := by omega
  have htext : before ++ [c] ++ after = before ++ c :: after := by
    rw [List.append_assoc, List.singleton_append]
  have hnew : (before ++ c :: after).length = (before ++ after).length + 1 := by
    rw [List.length_append, List.length_cons, hlen]
    omega
  have hcurpos : (before ++ [c]).length = before.length + 1 := by
    rw [List.length_append, List.length_singleton]
  have hlarge' : ¬finshCmdSize ≤ (before ++ after).length + 1 := by omega
  unfold insertChar Shell.show
  rw [htext, hnew, if_neg hlarge]
  dsimp only
  by_cases hmid : before.length < (before ++ after).length
  · have hcount : (((before ++ after).length + 1 : Nat) : Int) - (before.length : Int) =
        ((after.length + 1 : Nat) : Int) := by omega
    rw [if_pos hmid]
    dsimp only
    rw [hcount, memmove_of_le _ (by omega) (by omega)]
    dsimp only
    rw [write_of_le _ (by rw [List.length_singleton]; omega)]
    dsimp only
    rw [if_neg hlarge', @slice_zeroPad (finshCmdSize + 1) before after 1 (by omega),
      List.replicate_one, overwrite_insert c (by omega), hcurpos]
  · have hnil : after = [] := List.length_eq_zero_iff.mp (by omega)
    have hextend := @overwrite_extend (finshCmdSize + 1) before [] [c] List.nil_prefix (by omega)
    rw [List.append_nil] at hextend
    rw [if_neg hmid]
    dsimp only
    rw [write_of_le _ (by rw [List.length_singleton]; omega)]
    dsimp only
    rw [if_neg hlarge', hnil, List.append_nil, hextend, hcurpos]

theorem backspaceKey_show_cons (c : UInt8) (hfit : (before ++ c :: after).length ≤ finshCmdSize) :
    (s.show (before ++ [c]) after).backspaceKey = s.show before after := by
  have hsize : finshCmdSize = 80 := rfl
  have htext : before ++ [c] ++ after = before ++ c :: after := by
    rw [List.append_assoc, List.singleton_append]
  have hlen : (before ++ c :: after).length = before.length + after.length + 1 := by
    rw [List.length_append, List.length_cons]
    omega
  have hlen' : (before ++ after).length = before.length + after.length := List.length_append
  have hcurpos : (before ++ [c]).length = before.length + 1 := by
    rw [List.length_append, List.length_singleton]
  have hposition : ((before ++ c :: after).length + 65535) % 65536 = (before ++ after).length := by
    omega
  have hslice := @slice_zeroPad (finshCmdSize + 1) (before ++ [c]) after 0 (by rw [htext]; omega)
  have hcut := @overwrite_cut (finshCmdSize + 1) before [c] after 0 (Nat.zero_le _)
    (by rw [htext]; omega)
  rw [htext, hcurpos, Nat.add_zero, List.replicate_zero, List.append_nil] at hslice
  rw [htext, List.replicate_zero, List.append_nil, List.length_singleton,
    List.replicate_one] at hcut
  unfold backspaceKey Shell.show
  rw [htext]
  dsimp only
  rw [hcurpos, if_neg (Nat.succ_ne_zero _), hposition, Nat.add_sub_cancel]
  by_cases hmid : before.length < (before ++ after).length
  · have hcount : ((before ++ after).length : Int) - (before.length : Int) =
        ((after.length : Nat) : Int) := by omega
    rw [if_pos hmid, hcount, memmove_of_le _ (by omega) (by omega)]
    dsimp only
    rw [write_of_le _ (by rw [List.length_singleton]; omega)]
    dsimp only
    rw [hslice, hlen', hcut]
  · have hnil : after = [] := List.length_eq_zero_iff.mp (by omega)
    rw [if_neg hmid, write_of_le _ (by rw [List.length_singleton]; omega)]
    dsimp only
    rw [hnil] at hcut ⊢
    rw [overwrite_nil] at hcut
    rw [List.append_nil] at hcut ⊢
    exact congrArg (fun line => { s with
      line := line, linePosition := before.length, lineCurpos := before.length }) hcut

/-- The backspace key. -/
theorem backspaceKey_show (hfit : (before ++ after).length ≤ finshCmdSize) :
    (s.show before after).backspaceKey = s.show before.dropLast after := by
  rcases List.eq_nil_or_concat before with rfl | ⟨front, c, rfl⟩
  · rfl
  · rw [List.concat_eq_append, List.dropLast_concat]
    rw [List.concat_eq_append, List.append_assoc, List.singleton_append] at hfit
    exact backspaceKey_show_cons s c hfit

/-- Ctrl-W. -/
theorem ctrlWKey_show (hfit : (before ++ after).length ≤ finshCmdSize)
    (hstart : wordStart before ≠ 1) :
    (s.show before after).ctrlWKey = s.show (before.take (wordStart before)) after := by
  have hsize : finshCmdSize = 80 := rfl
  have hprev := @findPrevWordStart_before before after (by omega) hstart
  by_cases hnil : before = []
  · subst hnil
    rfl
  have hlt := wordStart_lt hnil
  have hfront : (before.take (wordStart before)).length = wordStart before := by
    rw [List.length_take]
    omega
  have hword : (before.drop (wordStart before)).length = before.length - wordStart before :=
    List.length_drop
  have hsplit : before.take (wordStart before) ++ before.drop (wordStart before) = before :=
    List.take_append_drop _ _
  have hlen : (before ++ after).length = before.length + after.length := List.length_append
  have hlen' : (before.take (wordStart before) ++ after).length =
      wordStart before + after.length := by
    rw [List.length_append, hfront]
  have hcut := @overwrite_cut (finshCmdSize + 1) (before.take (wordStart before))
    (before.drop (wordStart before)) after 1 (by omega) (by rw [hsplit]; omega)
  rw [hsplit, hfront, hword, List.replicate_one] at hcut
  have hslice := @slice_zeroPad (finshCmdSize + 1) before after 1 (by omega)
  rw [List.replicate_one] at hslice
  unfold ctrlWKey Shell.show
  dsimp only
  rw [if_neg (by omega), hprev]
  generalize wordStart before = start at hlt hfront hword hcut hlen' ⊢
  have hnew : ((before ++ after).length : Int) - ((before.length - start : Nat) : Int) =
      ((start + after.length : Nat) : Int) := by omega
  have hcount : ((start + after.length : Nat) : Int) - (start : Int) + 1 =
      ((after.length + 1 : Nat) : Int) := by omega
  have hsrc : start + (before.length - start) = before.length := by omega
  have hposition : (((start + after.length : Nat) : Int) % 65536).toNat = start + after.length := by
    omega
  rw [hnew, hcount, hsrc, hposition, memmove_of_le _ (by omega) (by omega), memset,
    write_of_le _ (by rw [List.length_replicate]; omega)]
  dsimp only
  rw [hslice, hcut, hlen', hfront]

/-- The positions behind a copy into the buffer. -/
theorem measure_zeroPad {text : List UInt8} (hnul : NulFree text)
    (hshort : text.length < finshCmdSize) (s : Shell) :
    measure { s with line := zeroPad (finshCmdSize + 1) text } = s.show text [] := by
  have hlen : rtStrlen (zeroPad (finshCmdSize + 1) text) = text.length := by
    rw [rtStrlen_eq, cString_zeroPad hnul (by omega)]
  unfold measure Shell.show
  rw [List.append_nil]
  dsimp only
  rw [hlen]

/-- A command of the history in place of the text. -/
theorem recallHistory_show {text : List UInt8} (hnul : NulFree text)
    (hshort : text.length < finshCmdSize) (hfit : (before ++ after).length ≤ finshCmdSize)
    (hrow : s.cmdHistory s.currentHistory = zeroPad finshCmdSize text) :
    (s.show before after).recallHistory = s.show text [] := by
  have hrow' : (s.show before after).cmdHistory (s.show before after).currentHistory =
      zeroPad finshCmdSize text := hrow
  have hwhole := overwrite_whole hfit hshort.le (Nat.le_succ finshCmdSize)
  have hwrite : (s.show before after).write ((0 : Nat) : Int) (zeroPad finshCmdSize text) =
      { s.show before after with line := zeroPad (finshCmdSize + 1) text } := by
    rw [write_of_le _ (by rw [zeroPad_length]; omega)]
    exact congrArg (fun line => { s.show before after with line := line }) hwhole
  unfold recallHistory
  rw [hrow']
  exact (congrArg measure hwrite).trans (measure_zeroPad hnul hshort _)

/-- A longer string over the end of the text. -/
theorem write_extend {front word more : List UInt8}
    (hline : s.line = zeroPad (finshCmdSize + 1) (front ++ word)) (hmore : word <+: more)
    (hfit : (front ++ more).length ≤ finshCmdSize + 1) :
    s.write front.length more = { s with line := zeroPad (finshCmdSize + 1) (front ++ more) } := by
  rw [write_of_le s (by rw [← List.length_append]; exact hfit), hline, overwrite_extend hmore hfit]

variable {table : List Command} {text : List UInt8}

/-- The command is completed first. -/
theorem autoComplete_line (hline : s.line = zeroPad (finshCmdSize + 1) text) (hnul : NulFree text)
    (hshort : text.length < finshCmdSize) :
    s.autoComplete table =
      { s with line := zeroPad (finshCmdSize + 1) (completeCommand table text) } := by
  have htext : cString s.line = text := by
    rw [hline, cString_zeroPad hnul (by omega)]
  unfold autoComplete
  rw [htext]
  rcases @mshAutoComplete_eq table text hnul with ⟨hnone, hsame⟩ | hsome
  · rw [hnone, hsame, ← hline]
  · rw [hsome]
    have hfit := @completeCommand_short table text hshort
    have hfit' : ([] ++ completeCommand table text).length ≤ finshCmdSize + 1 := by
      rw [List.nil_append]
      omega
    have hline' : s.line = zeroPad (finshCmdSize + 1) ([] ++ text) := hline
    exact s.write_extend hline' (prefix_completeCommand table text) hfit'

/-- Then its argument. -/
theorem optAutoComplete_line (hline : s.line = zeroPad (finshCmdSize + 1) text)
    (hnul : NulFree text) (hshort : text.length < finshCmdSize)
    (hfit : (completeOption table text).length < finshCmdSize) :
    s.optAutoComplete table =
      { s with line := zeroPad (finshCmdSize + 1) (completeOption table text) } := by
  have htext : cString s.line = text := by
    rw [hline, cString_zeroPad hnul (by omega)]
  unfold optAutoComplete
  rw [htext]
  rcases @mshOptAutoComplete_eq table text hnul with
    ⟨hnone, hsame⟩ | ⟨start, bytes, hsome, hstart, hbegins, heq⟩
  · rw [hnone, hsame, ← hline]
  · have hfront : (text.take start).length = start := by
      rw [List.length_take, Nat.min_eq_left hstart]
    have hsplit : s.line = zeroPad (finshCmdSize + 1) (text.take start ++ text.drop start) := by
      rw [List.take_append_drop]
      exact hline
    rw [heq] at hfit ⊢
    rw [hsome]
    have hwrite := s.write_extend hsplit hbegins (by omega)
    rw [hfront] at hwrite
    exact hwrite

/-- Tab. -/
theorem tabKey_show (hnul : NulFree (before ++ after))
    (hshort : (before ++ after).length < finshCmdSize)
    (hfit : (complete table (before ++ after)).length < finshCmdSize) :
    (s.show before after).tabKey table = s.show (complete table (before ++ after)) [] := by
  have hcommand := @completeCommand_nulFree table _ hnul
  have hfirst := @autoComplete_line (s.show before after) table _ rfl hnul hshort
  unfold tabKey shellAutoComplete
  rw [hfirst, optAutoComplete_line _ rfl hcommand (completeCommand_short hshort) hfit]
  exact measure_zeroPad (completeOption_nulFree hcommand) hfit _

end Shell

end Gd32Vw553h.Finsh
