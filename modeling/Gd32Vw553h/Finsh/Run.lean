/-
  Finsh/Run.lean --- the shell follows the editor.

  Each byte takes the shell where it takes the editor (`Follows.step`), so that in every run
  in which the lines stay editable the buffer is sound before each byte and the lines that
  are executed are those that the editor submits (`finsh_run`).

  The branch for a line that has become too long resets the positions but leaves its
  characters in the buffer (`not_finsh_run`).
-/
import Gd32Vw553h.Finsh.Keys

set_option autoImplicit false

namespace Gd32Vw553h.Finsh

open Gd32Vw553h.Foundation Gd32Vw553h.Klibc

variable {table : List Command} {s : Shell} {e : Editor} {ch : UInt8}

/-! ## Decoding -/

/-- The function of the shell for a key. -/
def Shell.key (table : List Command) (s : Shell) : Key → Shell
  | .up => s.upKey
  | .down => s.downKey
  | .left => s.leftKey
  | .right => s.rightKey
  | .wordLeft => s.ctrlLeftKey
  | .wordRight => s.ctrlRightKey
  | .tab => s.tabKey table
  | .backspace => s.backspaceKey
  | .deleteWord => s.ctrlWKey
  | .enter => s.enterKey
  | .char c => s.insertChar c

/-- The shell at another place in an escape sequence. -/
def Shell.goto (s : Shell) (d : Decoder) : Shell := { s with stat := d.stat, getchar := d.getchar }

theorem plainKey_eq (s : Shell) (ch : UInt8) :
    s.plainKey table ch = match plain ch with
      | some key => s.key table key
      | none => s := by
  unfold Shell.plainKey plain
  split_ifs <;> rfl

/-- The character that a broken-off sequence stands for. -/
theorem plainKey_one (s : Shell) : s.plainKey table 0x31 = s.insertChar 0x31 :=
  plainKey_eq s 0x31

/-- A byte is decoded, and then its key is applied. -/
theorem finshThreadEntry_eq {d : Decoder} (hstat : s.stat = d.stat)
    (hgetchar : s.getchar = d.getchar) (ch : UInt8) :
    finshThreadEntry table s ch = match (decode d ch).2 with
      | some key => (s.goto (decode d ch).1).key table key
      | none => s.goto (decode d ch).1 := by
  obtain ⟨stat, getchar, currentHistory, historyCount, cmdHistory, line, linePosition, lineCurpos,
    outside, executed⟩ := s
  dsimp only at hstat hgetchar
  subst hstat hgetchar
  cases d with
  | idle =>
    simp only [finshThreadEntry, Decoder.stat, Decoder.getchar, decode]
    split_ifs
    · rfl
    · exact plainKey_eq _ ch
  | escape =>
    simp only [finshThreadEntry, Decoder.stat, Decoder.getchar, decode]
    split_ifs
    · rfl
    · rfl
    · exact plainKey_eq _ ch
  | bracket =>
    simp only [finshThreadEntry, Decoder.stat, Decoder.getchar, decode]
    split_ifs
    · rfl
    · rfl
    · rfl
    · rfl
    · rfl
    · rfl
    · exact plainKey_eq _ ch
  | one =>
    simp only [finshThreadEntry, Decoder.stat, Decoder.getchar, decode]
    split_ifs
    · rfl
    · exact plainKey_one _
  | oneSemicolon =>
    simp only [finshThreadEntry, Decoder.stat, Decoder.getchar, decode]
    split_ifs
    · rfl
    · exact plainKey_one _
  | oneSemicolonFive =>
    simp only [finshThreadEntry, Decoder.stat, Decoder.getchar, decode]
    split_ifs
    · rfl
    · rfl
    · exact plainKey_one _

/-! ## History -/

section History

variable {history : List (List UInt8)} {current : Nat} {text : List UInt8}

/-- Whether the line is the last command can be told from its row. -/
theorem HoldsHistory.last (h : HoldsHistory s history current) (hnul : NulFree text)
    (hshort : text.length < finshCmdSize) :
    history.getLast? = some text ↔
      0 < history.length ∧ s.cmdHistory (history.length - 1) = zeroPad finshCmdSize text := by
  rcases List.eq_nil_or_concat history with rfl | ⟨front, final, rfl⟩
  · have hnone : ([] : List (List UInt8)).getLast? ≠ some text := by simp
    exact iff_of_false hnone (fun h => absurd h.1 (Nat.lt_irrefl 0))
  · rw [List.concat_eq_append] at h ⊢
    have hmem : final ∈ front ++ [final] := List.mem_append_right front List.mem_cons_self
    have hlen : (front ++ [final]).length - 1 = front.length := by
      rw [List.length_append, List.length_singleton, Nat.add_sub_cancel]
    have hlt : front.length < (front ++ [final]).length := by
      rw [List.length_append, List.length_singleton]
      omega
    have hrow := h.rows front.length hlt
    rw [List.getElem_concat_length rfl] at hrow
    rw [hlen, hrow, List.getLast?_concat, zeroPad_inj (h.nulFree final hmem) hnul
      (h.short final hmem) hshort, Option.some.injEq]
    exact ⟨fun heq => ⟨by omega, heq⟩, fun heq => heq.2⟩

/-- The row for a line. -/
theorem historyRow_eq (hline : s.line = zeroPad (finshCmdSize + 1) text)
    (hposition : s.linePosition = text.length) (hshort : text.length < finshCmdSize) :
    s.historyRow = zeroPad finshCmdSize text := by
  have hextend := @overwrite_extend finshCmdSize [] [] text List.nil_prefix (by
    rw [List.nil_append]
    exact hshort.le)
  rw [List.nil_append, List.nil_append, zeroPad_nil] at hextend
  rw [Shell.historyRow, hline, hposition, take_zeroPad (Nat.le_refl _) (by omega), List.take_length]
  exact hextend

/-- A line that is not pushed. -/
theorem HoldsHistory.keep (h : HoldsHistory s history current) :
    HoldsHistory { s with currentHistory := s.historyCount } history history.length where
  count := h.count
  atMost := h.atMost
  rows := h.rows
  short := h.short
  nulFree := h.nulFree
  place := h.count
  placeLe := Nat.le_refl _

/-- A row behind the last one. -/
theorem HoldsHistory.append (h : HoldsHistory s history current)
    (hroom : history.length < finshHistoryLines) (hnul : NulFree text)
    (hshort : text.length < finshCmdSize) :
    HoldsHistory { s with
      currentHistory := s.historyCount + 1
      cmdHistory := Function.update s.cmdHistory s.historyCount (zeroPad finshCmdSize text)
      historyCount := s.historyCount + 1 } (history ++ [text]) (history ++ [text]).length where
  count := by
    rw [List.length_append, List.length_singleton]
    exact congrArg (· + 1) h.count
  atMost := by
    rw [List.length_append, List.length_singleton]
    exact hroom
  rows := by
    intro i hi
    rw [List.length_append, List.length_singleton] at hi
    dsimp only
    rw [h.count]
    by_cases hlast : i = history.length
    · subst hlast
      rw [Function.update_self, List.getElem_concat_length rfl]
    · rw [Function.update_of_ne hlast, List.getElem_append_left (by omega)]
      exact h.rows i (by omega)
  short := by
    intro other hother
    rcases List.mem_append.mp hother with hother | hother
    · exact h.short other hother
    · rw [List.mem_singleton.mp hother]
      exact hshort
  nulFree := by
    intro other hother
    rcases List.mem_append.mp hother with hother | hother
    · exact h.nulFree other hother
    · rw [List.mem_singleton.mp hother]
      exact hnul
  place := by
    rw [List.length_append, List.length_singleton]
    exact congrArg (· + 1) h.count
  placeLe := Nat.le_refl _

/-- The rows move up by one, and the last one is new. -/
theorem HoldsHistory.shift (h : HoldsHistory s history current)
    (hfull : history.length = finshHistoryLines) (hnul : NulFree text)
    (hshort : text.length < finshCmdSize) :
    HoldsHistory { s with
      currentHistory := finshHistoryLines
      cmdHistory := fun index =>
        if index < finshHistoryLines - 1 then s.cmdHistory (index + 1)
        else if index = finshHistoryLines - 1 then zeroPad finshCmdSize text
        else s.cmdHistory index
      historyCount := finshHistoryLines }
      ((history ++ [text]).drop 1) ((history ++ [text]).drop 1).length := by
  have hlines : finshHistoryLines = 5 := rfl
  have hlen : ((history ++ [text]).drop 1).length = finshHistoryLines := by
    rw [List.length_drop, List.length_append, List.length_singleton, hfull]
    rfl
  have hmem : ∀ other ∈ (history ++ [text]).drop 1, other ∈ history ∨ other = text := by
    intro other hother
    rcases List.mem_append.mp (List.mem_of_mem_drop hother) with hother | hother
    · exact .inl hother
    · exact .inr (List.mem_singleton.mp hother)
  refine ⟨hlen.symm, hlen.le, ?_, ?_, ?_, hlen.symm, Nat.le_refl _⟩
  · intro i hi
    rw [hlen] at hi
    rw [List.getElem_drop]
    dsimp only
    by_cases hbelow : i < finshHistoryLines - 1
    · have hrow := h.rows (i + 1) (by omega)
      rw [if_pos hbelow, hrow]
      congr 1
      rw [List.getElem_append_left (by omega)]
      congr 1
      omega
    · have hlast : 1 + i = history.length := by omega
      rw [if_neg hbelow, if_pos (by omega)]
      congr 1
      rw [List.getElem_concat_length hlast]
  · intro other hother
    rcases hmem other hother with hother | rfl
    · exact h.short other hother
    · exact hshort
  · intro other hother
    rcases hmem other hother with hother | rfl
    · exact h.nulFree other hother
    · exact hnul

theorem remember_same (h : text = [] ∨ history.getLast? = some text) :
    remember history text = history := if_pos h

theorem remember_new (h : ¬(text = [] ∨ history.getLast? = some text)) :
    remember history text =
      (history ++ [text]).drop (history.length + 1 - finshHistoryLines) := if_neg h

/-- `shell_push_history` remembers the line. -/
theorem HoldsHistory.push (h : HoldsHistory s history current)
    (hline : s.line = zeroPad (finshCmdSize + 1) text) (hposition : s.linePosition = text.length)
    (hnul : NulFree text) (hshort : text.length < finshCmdSize) :
    HoldsHistory s.shellPushHistory (remember history text) (remember history text).length := by
  have hrow := historyRow_eq hline hposition hshort
  have hcompared : s.line.take finshCmdSize = zeroPad finshCmdSize text := by
    rw [hline, take_zeroPad_of_le hshort.le (Nat.le_succ _)]
  have hlast := h.last hnul hshort
  have hatMost := h.atMost
  have hlines : finshHistoryLines = 5 := rfl
  rw [← h.count] at hlast hatMost
  by_cases hempty : text = []
  · have hzero : ¬s.linePosition ≠ 0 := by
      rw [hposition, hempty]
      exact fun hne => hne rfl
    rw [remember_same (.inl hempty), Shell.shellPushHistory, if_neg hzero]
    exact h.keep
  have hpos : s.linePosition ≠ 0 := by
    rw [hposition]
    exact fun hzero => hempty (List.length_eq_zero_iff.mp hzero)
  by_cases hsame : history.getLast? = some text
  · -- the same command again
    obtain ⟨hsome, heq⟩ := hlast.mp hsame
    rw [remember_same (.inr hsame), Shell.shellPushHistory, if_pos hpos, hcompared]
    by_cases hfull : finshHistoryLines ≤ s.historyCount
    · have hindex : finshHistoryLines - 1 = s.historyCount - 1 := by omega
      rw [if_pos hfull, hindex, if_neg (fun hne => hne heq)]
      exact h.keep
    · have hnot : ¬(s.historyCount = 0 ∨
          s.cmdHistory (s.historyCount - 1) ≠ zeroPad finshCmdSize text) :=
        fun hor => hor.elim (by omega) (fun hne => hne heq)
      rw [if_neg hfull, if_neg hnot]
      exact h.keep
  · have hnew : ¬(text = [] ∨ history.getLast? = some text) := fun hor => hor.elim hempty hsame
    rw [remember_new hnew, Shell.shellPushHistory, if_pos hpos, hcompared, hrow, ← h.count]
    by_cases hfull : finshHistoryLines ≤ s.historyCount
    · have hcount : s.historyCount = finshHistoryLines := by omega
      have hdiffers : s.cmdHistory (finshHistoryLines - 1) ≠ zeroPad finshCmdSize text := by
        intro heq
        rw [hcount] at hlast
        exact hsame (hlast.mpr ⟨by omega, heq⟩)
      have hdrop : s.historyCount + 1 - finshHistoryLines = 1 := by omega
      rw [if_pos hfull, if_pos hdiffers, hdrop]
      exact h.shift (h.count.symm.trans hcount) hnul hshort
    · have hroom : history.length < finshHistoryLines := by
        rw [← h.count]
        omega
      have hdiffers : s.historyCount = 0 ∨
          s.cmdHistory (s.historyCount - 1) ≠ zeroPad finshCmdSize text := by
        by_cases hnone : s.historyCount = 0
        · exact .inl hnone
        · exact .inr fun heq => hsame (hlast.mpr ⟨by omega, heq⟩)
      have hdrop : s.historyCount + 1 - finshHistoryLines = 0 := by omega
      rw [if_neg hfull, if_pos hdiffers, hdrop, List.drop_zero]
      exact h.append hroom hnul hshort

end History

/-! ## One key -/

theorem Follows.line (h : Follows s e) : s.line = zeroPad (finshCmdSize + 1) e.text :=
  congrArg Shell.line h.shown

theorem Follows.linePosition (h : Follows s e) : s.linePosition = e.text.length :=
  congrArg Shell.linePosition h.shown

theorem Follows.lineCurpos (h : Follows s e) : s.lineCurpos = e.before.length :=
  congrArg Shell.lineCurpos h.shown

/-- Another text around the cursor. -/
theorem Follows.show (h : Follows s e) {before after : List UInt8}
    (hshort : (before ++ after).length < finshCmdSize) (hnul : NulFree (before ++ after)) :
    Follows (s.show before after) { e with before := before, after := after } where
  shown := rfl
  short := hshort
  nulFree := hnul
  inside := h.inside
  history := ⟨h.history.count, h.history.atMost, h.history.rows, h.history.short,
    h.history.nulFree, h.history.place, h.history.placeLe⟩
  stat := h.stat
  getchar := h.getchar
  executed := h.executed

/-- The same text with the cursor at another place. -/
theorem Follows.move (h : Follows s e) {before after : List UInt8}
    (htext : before ++ after = e.text) :
    Follows (s.show before after) { e with before := before, after := after } :=
  h.show (by rw [htext]; exact h.short) (by rw [htext]; exact h.nulFree)

/-- A part of the text. -/
theorem Follows.shorten (h : Follows s e) {before after : List UInt8}
    (hsub : (before ++ after).Sublist e.text) :
    Follows (s.show before after) { e with before := before, after := after } :=
  h.show (hsub.length_le.trans_lt h.short) fun b hb => h.nulFree b (hsub.subset hb)

theorem Follows.goto (h : Follows s e) (d : Decoder) :
    Follows (s.goto d) { e with decoder := d } where
  shown := congrArg (fun t : Shell => t.goto d) h.shown
  short := h.short
  nulFree := h.nulFree
  inside := h.inside
  history := ⟨h.history.count, h.history.atMost, h.history.rows, h.history.short,
    h.history.nulFree, h.history.place, h.history.placeLe⟩
  stat := rfl
  getchar := rfl
  executed := h.executed

/-- A command of the history. -/
theorem Follows.recallHistory (h : Follows s e) {index : Nat} (hindex : index < e.history.length) :
    Follows (Shell.recallHistory { s with currentHistory := index }) (e.recallHistory index) := by
  have hmem := List.getElem_mem hindex
  have hshort := h.history.short _ hmem
  have hnul := h.history.nulFree _ hmem
  have hshown : ({ s with currentHistory := index } : Shell) =
      Shell.show { s with currentHistory := index } e.before e.after :=
    congrArg (fun t : Shell => { t with currentHistory := index }) h.shown
  rw [hshown, Shell.recallHistory_show _ hnul hshort h.short.le (h.history.rows index hindex),
    Editor.recallHistory, List.getD_eq_getElem _ _ hindex]
  exact {
    shown := rfl
    short := by
      show (e.history[index] ++ []).length < finshCmdSize
      rw [List.append_nil]
      exact hshort
    nulFree := by
      show NulFree (e.history[index] ++ [])
      rw [List.append_nil]
      exact hnul
    inside := h.inside
    history := ⟨h.history.count, h.history.atMost, h.history.rows, h.history.short,
      h.history.nulFree, rfl, hindex.le⟩
    stat := h.stat
    getchar := h.getchar
    executed := h.executed }

theorem Follows.up (h : Follows s e) : Follows s.upKey (e.press table .up) := by
  have hplace := h.history.place
  have hplaceLe := h.history.placeLe
  unfold Shell.upKey Editor.press
  rw [hplace]
  by_cases hzero : e.current = 0
  · have hsame : ({ s with currentHistory := 0 } : Shell) = s := by
      rw [← hplace.trans hzero]
    rw [if_neg (by omega), if_pos hzero, hsame]
    exact h
  · rw [if_pos (by omega), if_neg hzero]
    exact h.recallHistory (by omega)

theorem Follows.down (h : Follows s e) : Follows s.downKey (e.press table .down) := by
  have hplace := h.history.place
  have hcount := h.history.count
  have hlen : e.history = [] ↔ e.history.length = 0 := List.length_eq_zero_iff.symm
  unfold Shell.downKey Editor.press
  by_cases hnone : e.history = []
  · have hzero := hlen.mp hnone
    rw [if_neg (by omega), if_neg (by omega), if_pos hnone]
    exact h
  · have hpos : e.history.length ≠ 0 := fun hzero => hnone (hlen.mpr hzero)
    have hindex : min (e.current + 1) (e.history.length - 1) < e.history.length := by omega
    rw [if_neg hnone]
    by_cases hnext : (s.currentHistory : Int) < (s.historyCount : Int) - 1
    · have hmin : s.currentHistory + 1 = min (e.current + 1) (e.history.length - 1) := by omega
      rw [if_pos hnext, hmin]
      exact h.recallHistory hindex
    · have hmin : s.historyCount - 1 = min (e.current + 1) (e.history.length - 1) := by
        have hplaceLe := h.history.placeLe
        omega
      rw [if_neg hnext, if_pos (by omega), hmin]
      exact h.recallHistory hindex

theorem shellPushHistory_frame (s : Shell) :
    ∃ current count rows, s.shellPushHistory =
      { s with currentHistory := current, historyCount := count, cmdHistory := rows } := by
  unfold Shell.shellPushHistory
  split_ifs
  · exact ⟨_, _, _, rfl⟩
  · exact ⟨_, _, _, rfl⟩
  · exact ⟨_, _, _, rfl⟩
  · exact ⟨_, _, _, rfl⟩
  · exact ⟨_, _, _, rfl⟩

/-- Enter submits the text. -/
theorem Follows.enter (h : Follows s e) : Follows s.enterKey (e.press table .enter) := by
  have hpush := h.history.push h.line h.linePosition h.nulFree h.short
  obtain ⟨current, count, rows, hframe⟩ := shellPushHistory_frame s
  have hline : s.enterKey.line = zeroPad (finshCmdSize + 1) ([] ++ []) := (zeroPad_nil _).symm
  exact {
    shown := congrArg (fun line => { s.enterKey with line := line }) hline
    short := Nat.zero_lt_succ _
    nulFree := fun _ hb => absurd hb List.not_mem_nil
    inside := by
      show s.shellPushHistory.outside = false
      rw [hframe]
      exact h.inside
    history := ⟨hpush.count, hpush.atMost, hpush.rows, hpush.short, hpush.nulFree, hpush.place,
      hpush.placeLe⟩
    stat := by
      show s.shellPushHistory.stat = e.decoder.stat
      rw [hframe]
      exact h.stat
    getchar := by
      show s.shellPushHistory.getchar = e.decoder.getchar
      rw [hframe]
      exact h.getchar
    executed := by
      show s.shellPushHistory.executed ++
        [(s.shellPushHistory.line, s.shellPushHistory.linePosition)] =
          (e.submitted ++ [e.text]).map _
      rw [hframe, List.map_append, ← h.executed]
      dsimp only
      rw [h.line, h.linePosition]
      rfl }

/-- Each key takes the shell where it takes the editor. -/
theorem Follows.press (h : Follows s e) {key : Key} (hok : KeyOk table e.text e.before key)
    (hchar : key ≠ .char 0) : Follows (s.key table key) (e.press table key) := by
  have hfit : (e.before ++ e.after).length ≤ finshCmdSize := h.short.le
  have hfit' : (e.before ++ e.after).length ≤ finshCmdSize + 1 := Nat.le_succ_of_le hfit
  cases key with
  | up => exact h.up
  | down => exact h.down
  | left =>
    have hkey := @Shell.leftKey_show s e.before e.after
    rw [← h.shown] at hkey
    rw [Shell.key, hkey]
    refine h.move ?_
    rw [← List.append_assoc, List.dropLast_eq_take, List.take_append_drop]
    rfl
  | right =>
    have hkey := @Shell.rightKey_show s e.before e.after
    rw [← h.shown] at hkey
    rw [Shell.key, hkey]
    refine h.move ?_
    rw [List.append_assoc, List.take_append_drop]
    rfl
  | wordLeft =>
    have hkey := @Shell.ctrlLeftKey_show s e.before e.after hfit' hok
    rw [← h.shown] at hkey
    rw [Shell.key, hkey]
    refine h.move ?_
    rw [← List.append_assoc, List.take_append_drop]
    rfl
  | wordRight =>
    have hkey := @Shell.ctrlRightKey_show s e.before e.after hfit'
    rw [← h.shown] at hkey
    rw [Shell.key, hkey]
    refine h.move ?_
    rw [List.append_assoc, List.take_append_drop]
    rfl
  | tab =>
    have hkey := @Shell.tabKey_show s e.before e.after table h.nulFree h.short hok
    rw [← h.shown] at hkey
    rw [Shell.key, hkey]
    refine h.show ?_ ?_
    · rw [List.append_nil]
      exact hok
    · rw [List.append_nil]
      exact completeOption_nulFree (completeCommand_nulFree h.nulFree)
  | backspace =>
    have hkey := @Shell.backspaceKey_show s e.before e.after hfit
    rw [← h.shown] at hkey
    rw [Shell.key, hkey]
    exact h.shorten ((List.dropLast_sublist e.before).append_right e.after)
  | deleteWord =>
    have hkey := @Shell.ctrlWKey_show s e.before e.after hfit hok
    rw [← h.shown] at hkey
    rw [Shell.key, hkey]
    exact h.shorten ((List.take_sublist _ e.before).append_right e.after)
  | enter => exact h.enter
  | char c =>
    have hshort : (e.before ++ e.after).length + 1 < finshCmdSize := hok
    have hfits : e.text.length + 1 < finshCmdSize := hok
    have hkey := @Shell.insertChar_show s e.before e.after c hshort
    rw [← h.shown] at hkey
    rw [Shell.key, hkey, Editor.press, Editor.insert, if_pos hfits]
    refine h.show ?_ ?_
    · rw [List.append_assoc, List.length_append, List.length_append, List.length_singleton]
      rw [List.length_append] at hshort
      omega
    · intro b hb
      rw [List.append_assoc] at hb
      rcases List.mem_append.mp hb with hb | hb
      · exact h.nulFree b (List.mem_append_left _ hb)
      rcases List.mem_append.mp hb with hb | hb
      · rw [List.mem_singleton.mp hb]
        exact fun hzero => hchar (congrArg Key.char hzero)
      · exact h.nulFree b (List.mem_append_right _ hb)

/-! ## Runs -/

theorem plain_ne_char_zero (ch : UInt8) : plain ch ≠ some (.char 0) := by
  unfold plain
  split_ifs with hnul htab hbackspace hword henter
  · exact Option.some_ne_none _ ∘ Eq.symm
  · decide
  · decide
  · decide
  · decide
  · intro heq
    exact hnul (.inl (Key.char.inj (Option.some.inj heq)))

/-- No NUL is taken for a character. -/
theorem decode_ne_char_zero (d : Decoder) (ch : UInt8) : (decode d ch).2 ≠ some (.char 0) := by
  have hplain := plain_ne_char_zero ch
  cases d <;> simp only [decode] <;> split_ifs <;> first | exact hplain | decide

/-- Each byte takes the shell where it takes the editor. -/
theorem Follows.step (h : Follows s e) (hok : StaysEditable table s ch) :
    Follows (finshThreadEntry table s ch) (e.input table ch) := by
  have hdecoder : s.decoder = e.decoder := by
    unfold Shell.decoder
    rw [h.getchar, h.stat]
    cases e.decoder <;> rfl
  have hfit : e.text.length ≤ finshCmdSize + 1 := Nat.le_succ_of_le h.short.le
  have htext : s.line.take s.linePosition = e.text := by
    rw [h.line, h.linePosition, take_zeroPad (Nat.le_refl _) hfit, List.take_length]
  have hbefore : s.line.take s.lineCurpos = e.before := by
    rw [h.line, h.lineCurpos]
    exact Shell.take_before hfit
  have hchar := decode_ne_char_zero e.decoder ch
  unfold StaysEditable at hok
  rw [hdecoder, htext, hbefore] at hok
  rw [finshThreadEntry_eq h.stat h.getchar, Editor.input]
  generalize decode e.decoder ch = decoded at hok hchar ⊢
  obtain ⟨d, key⟩ := decoded
  cases key with
  | none => exact h.goto d
  | some key => exact (h.goto d).press hok fun heq => hchar (congrArg some heq)

theorem follows_init : Follows shellInit editorInit where
  shown := congrArg (fun line => { shellInit with line := line }) (zeroPad_nil _).symm
  short := Nat.zero_lt_succ _
  nulFree := fun _ hb => absurd hb List.not_mem_nil
  inside := rfl
  history := ⟨rfl, Nat.zero_le _, fun i hi => absurd hi (Nat.not_lt_zero i),
    fun _ htext => absurd htext List.not_mem_nil,
    fun _ htext => absurd htext List.not_mem_nil, rfl, Nat.le_refl 0⟩
  stat := rfl
  getchar := rfl
  executed := rfl

/-- Whole runs. -/
theorem Follows.run {bytes : List UInt8} {final : Shell} (h : Follows s e)
    (run : (finsh table).Run (StaysEditable table) s bytes final) :
    Follows final (bytes.foldl (Editor.input table) e) := by
  induction run generalizing e with
  | nil s => exact h
  | cons hok hstep _ ih =>
    obtain rfl := Option.some.inj hstep
    exact ih (h.step hok)

/-- A shell that follows the editor has a sound buffer. -/
theorem Follows.lineOk (h : Follows s e) : LineOk s := by
  have hline := h.line
  have hposition := h.linePosition
  have hshort := h.short
  have hfit : e.text.length ≤ finshCmdSize + 1 := by omega
  refine ⟨?_, ?_, ?_, ?_, h.inside⟩
  · rw [hposition, h.lineCurpos, Editor.text, List.length_append]
    omega
  · rw [hposition]
    exact hshort
  · rw [hline, hposition, take_zeroPad (Nat.le_refl _) hfit, List.take_length]
    exact h.nulFree
  · rw [hline, hposition, drop_zeroPad (Nat.le_refl _) hfit]

/-- In every run in which the lines stay editable, the buffer is sound before each byte, and
`msh_exec` has been given the lines that the keys yield. -/
theorem finsh_run {table : List Command} {bytes : List UInt8} {s : Shell}
    (run : (finsh table).Run (StaysEditable table) shellInit bytes s) :
    LineOk s ∧ s.executed = (editor table bytes).submitted.map fun text =>
      (zeroPad (finshCmdSize + 1) text, text.length) := by
  have hfollows := follows_init.run run
  exact ⟨hfollows.lineOk, hfollows.executed⟩

/-- `lx`, backspace, `s`, Enter. -/
theorem finsh_run_ls :
    ∃ s, (finsh []).exec shellInit [0x6c, 0x78, 0x7f, 0x73, 0x0d] = some s ∧ LineOk s ∧
      s.executed = [(zeroPad (finshCmdSize + 1) [0x6c, 0x73], 2)] := by
  refine ⟨_, rfl, ?_⟩
  have hadmitted :
      (finsh []).Admitted (StaysEditable []) shellInit [0x6c, 0x78, 0x7f, 0x73, 0x0d] :=
    .cons (by decide) rfl (.cons (by decide) rfl (.cons (by decide) rfl
      (.cons (by decide) rfl (.cons (by decide) rfl trivial))))
  exact finsh_run (Machine.Run.of_exec rfl hadmitted)

/-! ## Where the shell does not follow -/

/-- A name of the letter `a`. -/
def longName (n : Nat) (h : n < finshCmdSize) : Name where
  chars := List.replicate n 0x61
  nulFree := by
    intro b hb
    rw [(List.mem_replicate.mp hb).2]
    decide
  short := by
    rw [List.length_replicate]
    exact h

/-- A line that reaches 80 characters stays in the buffer (`a`, Tab, `b`); the completion of
an argument writes past the buffer (`c`, two blanks, `a`, Tab); and Ctrl-W deletes a blank in
column 0 with the word behind it (a blank, `a`, Ctrl-W, `b`, Enter). -/
theorem not_finsh_run :
    (¬ ∀ (table : List Command) (bytes : List UInt8) (s : Shell),
      (finsh table).exec shellInit bytes = some s → LineOk s ∧
        s.executed = (editor table bytes).submitted.map fun text =>
          (zeroPad (finshCmdSize + 1) text, text.length)) ∧
    (∃ table bytes s, (finsh table).exec shellInit bytes = some s ∧ s.outside = true) ∧
    (∃ table bytes s, (finsh table).exec shellInit bytes = some s ∧ LineOk s ∧
      s.executed ≠ (editor table bytes).submitted.map fun text =>
        (zeroPad (finshCmdSize + 1) text, text.length)) := by
  refine ⟨?_, ?_, ?_⟩
  · intro h
    have htail := (h [⟨longName 79 (by decide), []⟩] [0x61, 0x09, 0x62] _ rfl).1.tail
    revert htail
    decide
  · exact ⟨[⟨⟨[0x63], by decide, by decide⟩, [longName 79 (by decide)]⟩],
      [0x63, 0x20, 0x20, 0x61, 0x09], _, rfl, by decide⟩
  · refine ⟨[], [0x20, 0x61, 0x17, 0x62, 0x0d], _, rfl, ⟨by decide, by decide, by decide, by decide,
      rfl⟩, by decide⟩

end Gd32Vw553h.Finsh
