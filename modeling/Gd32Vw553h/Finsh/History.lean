/-
  Finsh/History.lean --- the command history of the shell (`shell_push_history`, and the Up
  and Down keys of `finsh_thread_entry`).

  A session edits the line in any way, recalls commands and enters what the line holds.  The
  rows of `cmd_history` are the end of one list, that of all lines that have been pushed
  (`pushed`); the arrows move a cursor in it that every Enter puts behind the newest one.
-/
import Gd32Vw553h.Finsh.Run

set_option autoImplicit false

namespace Gd32Vw553h.Finsh

open Gd32Vw553h.Foundation Gd32Vw553h.Klibc

/-! ## Sessions -/

/-- What changes the line or the history. -/
inductive HistoryKey where
  /-- the keys between two recalls or entries, which leave this text in the line -/
  | edit (text : List UInt8)
  | up
  | down
  | enter
  deriving DecidableEq

/-- A session at the prompt.  A line holds at most 79 characters. -/
def session : Machine Shell HistoryKey where
  step s
    | .edit text =>
        if NulFree text ∧ text.length < finshCmdSize then some (s.show text []) else none
    | .up => some s.upKey
    | .down => some s.downKey
    | .enter => some s.enterKey

/-! ## What the history is for -/

/-- A line that has been entered, if it is not empty and not the one pushed before it. -/
def pushLine (pushed : List (List UInt8)) (line : List UInt8) : List (List UInt8) :=
  if line = [] ∨ pushed.getLast? = some line then pushed else pushed ++ [line]

/-- All lines that are pushed when these are entered. -/
def pushed (lines : List (List UInt8)) : List (List UInt8) := lines.foldl pushLine []

/-- The last `FINSH_HISTORY_LINES` of them. -/
def lastLines (pushed : List (List UInt8)) : List (List UInt8) :=
  pushed.drop (pushed.length - finshHistoryLines)

/-- The lines that have been entered. -/
def entered (s : Shell) : List (List UInt8) := s.executed.map fun r => r.1.take r.2

/-- The commands that can be recalled, oldest first. -/
def commands (s : Shell) : List (List UInt8) := lastLines (pushed (entered s))

/-- The text in the line. -/
def lineText (s : Shell) : List UInt8 := s.line.take s.linePosition

/-- The keys that recall. -/
inductive Arrow where
  | up
  | down
  deriving DecidableEq

def Arrow.key : Arrow → HistoryKey
  | .up => .up
  | .down => .down

/-- The place of the cursor among `count` commands: one older, or one newer up to the newest. -/
def Arrow.move (count cursor : Nat) : Arrow → Nat
  | .up => cursor - 1
  | .down => min (cursor + 1) (count - 1)

/-- Row by row, `cmd_history` holds the commands, each with a NUL behind it. -/
structure RowsHold (s : Shell) : Prop where
  count : s.historyCount = min finshHistoryLines (pushed (entered s)).length
  rows : ∀ i (h : i < (commands s).length), (s.cmdHistory i).length = finshCmdSize ∧
    (commands s)[i].length < finshCmdSize ∧ cString (s.cmdHistory i) = (commands s)[i]

/-- At a fresh prompt, the arrows show the commands, and a command other than the newest one
is pushed again when it is entered. -/
structure PromptRight (s : Shell) : Prop where
  up : ∀ (k : Nat) (final : Shell), 0 < k → commands s ≠ [] →
    session.exec s (List.replicate k .up) = some final →
      lineText final = (commands s).getD ((commands s).length - k) []
  arrows : ∀ (keys : List Arrow) (final : Shell), keys ≠ [] → commands s ≠ [] →
    session.exec s (keys.map Arrow.key) = some final →
      lineText final =
        (commands s).getD (keys.foldl (Arrow.move (commands s).length) (commands s).length) []
  again : ∀ (keys : List Arrow) (mid final : Shell), keys ≠ [] → commands s ≠ [] →
    session.exec s (keys.map Arrow.key) = some mid →
      (commands s).getLast? ≠ some (lineText mid) → session.step mid .enter = some final →
        pushed (entered final) = pushed (entered s) ++ [lineText mid]

/-! ## The last lines -/

section Lists

variable {lines : List (List UInt8)} {line : List UInt8}

theorem lastLines_length (lines : List (List UInt8)) :
    (lastLines lines).length = min finshHistoryLines lines.length := by
  rw [lastLines, List.length_drop]
  omega

theorem lastLines_getLast? (lines : List (List UInt8)) :
    (lastLines lines).getLast? = lines.getLast? := by
  have hlines : finshHistoryLines = 5 := rfl
  rcases List.eq_nil_or_concat lines with rfl | ⟨front, last, rfl⟩
  · rfl
  · rw [List.concat_eq_append, lastLines, List.drop_append_of_le_length (by simp; omega),
      List.getLast?_concat, List.getLast?_concat]

/-- Remembering a line keeps the last ones of what has been pushed. -/
theorem remember_lastLines (lines : List (List UInt8)) (line : List UInt8) :
    remember (lastLines lines) line = lastLines (pushLine lines line) := by
  have hlines : finshHistoryLines = 5 := rfl
  by_cases hsame : line = [] ∨ lines.getLast? = some line
  · have hsame' : line = [] ∨ (lastLines lines).getLast? = some line := by
      rwa [lastLines_getLast?]
    rw [remember_same hsame', pushLine, if_pos hsame]
  · have hnew : ¬(line = [] ∨ (lastLines lines).getLast? = some line) := by
      rwa [lastLines_getLast?]
    rw [remember_new hnew, pushLine, if_neg hsame, lastLines_length]
    unfold lastLines
    rw [← List.drop_append_of_le_length (Nat.sub_le _ _), List.drop_drop, List.length_append,
      List.length_singleton]
    congr 1
    omega

/-- No empty line is pushed. -/
theorem pushed_ne_nil (lines : List (List UInt8)) : ∀ line ∈ pushed lines, line ≠ [] := by
  induction lines using List.reverseRecOn with
  | nil => exact fun line hline => absurd hline List.not_mem_nil
  | append_singleton lines last ih =>
    intro line hline
    rw [pushed, List.foldl_append, List.foldl_cons, List.foldl_nil, pushLine] at hline
    split at hline
    · exact ih line hline
    · next hnew =>
      rcases List.mem_append.mp hline with hline | hline
      · exact ih line hline
      · rw [List.mem_singleton.mp hline]
        exact fun hnil => hnew (.inl hnil)

theorem pushed_append (lines : List (List UInt8)) (line : List UInt8) :
    pushed (lines ++ [line]) = pushLine (pushed lines) line := by
  rw [pushed, List.foldl_append]
  rfl

end Lists

/-! ## Where the shell is -/

/-- The shell is where an editor is whose history is that of the lines entered. -/
structure InSession (s : Shell) (e : Editor) : Prop where
  follows : Follows s e
  history : e.history = lastLines (pushed e.submitted)
  short : ∀ text ∈ e.submitted, text.length < finshCmdSize

section Sessions

variable {s s' : Shell} {e : Editor}

theorem InSession.entered (h : InSession s e) : entered s = e.submitted := by
  rw [Finsh.entered, h.follows.executed, List.map_map]
  refine (List.map_congr_left fun text htext => ?_).trans (List.map_id _)
  have hfit : text.length ≤ finshCmdSize + 1 := Nat.le_succ_of_le (h.short text htext).le
  show (zeroPad (finshCmdSize + 1) text).take text.length = text
  rw [take_zeroPad (Nat.le_refl _) hfit, List.take_length]

theorem InSession.commands (h : InSession s e) : commands s = e.history := by
  rw [Finsh.commands, h.entered, h.history]

theorem InSession.lineText (h : InSession s e) : lineText s = e.text := by
  have hfit : e.text.length ≤ finshCmdSize + 1 := Nat.le_succ_of_le h.follows.short.le
  rw [Finsh.lineText, h.follows.line, h.follows.linePosition, take_zeroPad (Nat.le_refl _) hfit,
    List.take_length]

theorem InSession.rowsHold (h : InSession s e) : RowsHold s where
  count := by
    rw [h.entered, h.follows.history.count, h.history, lastLines_length]
  rows := by
    rw [h.commands]
    intro i hi
    have hmem := List.getElem_mem hi
    have hshort := h.follows.history.short _ hmem
    rw [h.follows.history.rows i hi, zeroPad_length]
    exact ⟨rfl, hshort, cString_zeroPad (h.follows.history.nulFree _ hmem) hshort⟩

theorem inSession_init : InSession shellInit editorInit where
  follows := follows_init
  history := rfl
  short := fun _ htext => absurd htext List.not_mem_nil

/-- Editing does not touch the history. -/
theorem InSession.edit (h : InSession s e) {text : List UInt8} (hnul : NulFree text)
    (hshort : text.length < finshCmdSize) : InSession (s.show text []) (e.setText text) where
  follows := by
    rw [← List.append_nil text] at hnul hshort
    exact h.follows.show hshort hnul
  history := h.history
  short := h.short

/-- Entering a line. -/
theorem InSession.enter (h : InSession s e) : InSession s.enterKey (e.press [] .enter) where
  follows := h.follows.enter
  history := by
    show remember e.history e.text = lastLines (pushed (e.submitted ++ [e.text]))
    rw [h.history, remember_lastLines, pushed_append]
  short := by
    intro text htext
    rcases List.mem_append.mp htext with htext | htext
    · exact h.short text htext
    · rw [List.mem_singleton.mp htext]
      exact h.follows.short

/-- The key of the editor for an arrow. -/
def Arrow.toKey : Arrow → Key
  | .up => .up
  | .down => .down

/-- What the shell does at an arrow. -/
def Arrow.apply (s : Shell) : Arrow → Shell
  | .up => s.upKey
  | .down => s.downKey

/-- Without a command an arrow does nothing.  Otherwise it moves the cursor, and the line is the
command there, unless the oldest one is to be left for an older one. -/
theorem press_arrow (e : Editor) (arrow : Arrow) :
    (e.press [] arrow.toKey).history = e.history ∧
      (e.press [] arrow.toKey).submitted = e.submitted ∧
      (e.history ≠ [] →
        (e.press [] arrow.toKey).current = arrow.move e.history.length e.current ∧
          ((e.press [] arrow.toKey).text =
              e.history.getD (arrow.move e.history.length e.current) [] ∨
            e.current = 0 ∧ e.press [] arrow.toKey = e)) := by
  cases arrow with
  | up =>
    by_cases hzero : e.current = 0
    · have hsame : e.press [] .up = e := if_pos hzero
      rw [Arrow.toKey, hsame]
      exact ⟨rfl, rfl, fun _ => ⟨by rw [Arrow.move, hzero], .inr ⟨hzero, rfl⟩⟩⟩
    · have hrecall : e.press [] .up = e.recallHistory (e.current - 1) := if_neg hzero
      rw [Arrow.toKey, hrecall]
      exact ⟨rfl, rfl, fun _ => ⟨rfl, .inl (List.append_nil _)⟩⟩
  | down =>
    by_cases hnone : e.history = []
    · have hsame : e.press [] .down = e := if_pos hnone
      rw [Arrow.toKey, hsame]
      exact ⟨rfl, rfl, fun hsome => absurd hnone hsome⟩
    · have hrecall : e.press [] .down =
        e.recallHistory (min (e.current + 1) (e.history.length - 1)) := if_neg hnone
      rw [Arrow.toKey, hrecall]
      exact ⟨rfl, rfl, fun _ => ⟨rfl, .inl (List.append_nil _)⟩⟩

theorem InSession.arrow (h : InSession s e) (arrow : Arrow) :
    InSession (arrow.apply s) (e.press [] arrow.toKey) := by
  obtain ⟨hhistory, hsubmitted, -⟩ := press_arrow e arrow
  refine ⟨?_, ?_, ?_⟩
  · cases arrow with
    | up => exact h.follows.up
    | down => exact h.follows.down
  · rw [hhistory, hsubmitted]
    exact h.history
  · rw [hsubmitted]
    exact h.short

/-- Every step of a session takes the shell where it takes some editor. -/
theorem InSession.step (h : InSession s e) {key : HistoryKey}
    (hstep : session.step s key = some s') : ∃ e', InSession s' e' := by
  cases key with
  | edit text =>
    by_cases hok : NulFree text ∧ text.length < finshCmdSize
    · obtain rfl : _ = s' := by simpa [session, hok] using hstep
      exact ⟨_, h.edit hok.1 hok.2⟩
    · simp [session, hok] at hstep
  | up =>
    obtain rfl := Option.some.inj hstep
    exact ⟨_, h.arrow .up⟩
  | down =>
    obtain rfl := Option.some.inj hstep
    exact ⟨_, h.arrow .down⟩
  | enter =>
    obtain rfl := Option.some.inj hstep
    exact ⟨_, h.enter⟩

theorem inSession_of_run {keys : List HistoryKey}
    (run : session.Run Machine.anyStep shellInit keys s) : ∃ e, InSession s e :=
  run.invariant (I := fun s => ∃ e, InSession s e)
    (fun _ _ _ _ hstep h => h.elim fun _ h => h.step hstep) ⟨_, inSession_init⟩

/-! ## At the prompt -/

theorem step_arrow (s : Shell) (arrow : Arrow) :
    session.step s arrow.key = some (arrow.apply s) := by
  cases arrow with
  | up => rfl
  | down => rfl

/-- The line is the command at the cursor. -/
def ShowsCursor (e : Editor) : Prop := e.text = e.history.getD e.current []

/-- Arrows show the command at the cursor once it has left its place behind the newest one. -/
theorem InSession.arrows (h : InSession s e) (hsome : e.history ≠ [])
    (hshows : ShowsCursor e ∨ e.current ≠ 0) (keys : List Arrow) {final : Shell}
    (hexec : session.exec s (keys.map Arrow.key) = some final) :
    ∃ e', InSession final e' ∧ e'.history = e.history ∧ e'.submitted = e.submitted ∧
      e'.current = keys.foldl (Arrow.move e.history.length) e.current ∧
      (keys ≠ [] ∨ ShowsCursor e → ShowsCursor e') := by
  induction keys generalizing s e with
  | nil =>
    obtain rfl := Option.some.inj hexec
    exact ⟨e, h, rfl, rfl, rfl, fun hor => hor.elim (fun hne => absurd rfl hne) id⟩
  | cons arrow keys ih =>
    obtain ⟨hhistory, hsubmitted, hmove⟩ := press_arrow e arrow
    obtain ⟨hcurrent, htext⟩ := hmove hsome
    have hshown : ShowsCursor (e.press [] arrow.toKey) := by
      rcases htext with htext | ⟨hzero, hsame⟩
      · rw [ShowsCursor, htext, hhistory, hcurrent]
      · rw [hsame]
        exact hshows.resolve_right fun hne => hne hzero
    rw [List.map_cons, Machine.exec, step_arrow, Option.bind_some] at hexec
    obtain ⟨e', hin, hhistory', hsubmitted', hcurrent', hshow⟩ :=
      ih (h.arrow arrow) (by rwa [hhistory]) (.inl hshown) hexec
    rw [hhistory, hcurrent] at hcurrent'
    exact ⟨e', hin, hhistory'.trans hhistory, hsubmitted'.trans hsubmitted, hcurrent',
      fun _ => hshow (.inr hshown)⟩

theorem foldl_up (count cursor k : Nat) :
    (List.replicate k Arrow.up).foldl (Arrow.move count) cursor = cursor - k := by
  induction k generalizing cursor with
  | zero => rfl
  | succ k ih =>
    rw [List.replicate_succ, List.foldl_cons, ih, Arrow.move]
    omega

theorem foldl_move_lt {count cursor : Nat} (hcount : 0 < count) (keys : List Arrow)
    (hne : keys ≠ []) (hcursor : cursor ≤ count) : keys.foldl (Arrow.move count) cursor < count := by
  induction keys generalizing cursor with
  | nil => exact absurd rfl hne
  | cons arrow keys ih =>
    have hmoved : arrow.move count cursor < count := by
      cases arrow with
      | up => exact (by omega : cursor - 1 < count)
      | down => exact (by omega : min (cursor + 1) (count - 1) < count)
    rw [List.foldl_cons]
    by_cases hnil : keys = []
    · rw [hnil]
      exact hmoved
    · exact ih hnil hmoved.le

/-- With the cursor behind the newest command, the arrows do what they are for. -/
theorem InSession.promptRight (h : InSession s e) (hfresh : e.current = e.history.length) :
    PromptRight s := by
  have hcommands := h.commands
  have harrows : ∀ (keys : List Arrow) (final : Shell), keys ≠ [] → e.history ≠ [] →
      session.exec s (keys.map Arrow.key) = some final →
        ∃ e', InSession final e' ∧ e'.submitted = e.submitted ∧ e'.history = e.history ∧
          e'.text = e.history.getD
            (keys.foldl (Arrow.move e.history.length) e.history.length) [] := by
    intro keys final hne hsome hexec
    have hplace : e.current ≠ 0 := by
      rw [hfresh]
      exact fun hzero => hsome (List.length_eq_zero_iff.mp hzero)
    obtain ⟨e', hin, hhistory, hsubmitted, hcurrent, hshow⟩ :=
      h.arrows hsome (.inr hplace) keys hexec
    have hshown := hshow (.inl hne)
    rw [ShowsCursor, hhistory, hcurrent, hfresh] at hshown
    exact ⟨e', hin, hsubmitted, hhistory, hshown⟩
  refine ⟨fun k final hk hsome hexec => ?_, fun keys final hne hsome hexec => ?_,
    fun keys mid final hne hsome hexec hnewest hstep => ?_⟩
  · rw [hcommands] at hsome ⊢
    have hreplicate : List.replicate k HistoryKey.up =
        (List.replicate k Arrow.up).map Arrow.key := by
      rw [List.map_replicate]
      rfl
    rw [hreplicate] at hexec
    obtain ⟨e', hin, -, -, htext⟩ := harrows _ final (by simp; omega) hsome hexec
    rw [hin.lineText, htext, foldl_up]
  · rw [hcommands] at hsome ⊢
    obtain ⟨e', hin, -, -, htext⟩ := harrows keys final hne hsome hexec
    rw [hin.lineText, htext]
  · rw [hcommands] at hsome hnewest
    obtain ⟨e', hin, hsubmitted, hhistory, htext⟩ := harrows keys mid hne hsome hexec
    obtain rfl := Option.some.inj hstep
    rw [hin.lineText] at hnewest ⊢
    have hentered : Finsh.entered mid.enterKey = Finsh.entered s ++ [e'.text] := by
      rw [hin.enter.entered, h.entered, ← hsubmitted]
      rfl
    have hcursor := foldl_move_lt (List.length_pos_iff.mpr hsome) keys hne (Nat.le_refl _)
    have hmem : e'.text ∈ e.history := by
      rw [htext, List.getD_eq_getElem _ _ hcursor]
      exact List.getElem_mem hcursor
    rw [h.history, ← h.entered] at hmem hnewest
    rw [lastLines_getLast?] at hnewest
    have hword : e'.text ≠ [] := pushed_ne_nil _ _ (List.mem_of_mem_drop hmem)
    rw [hentered, pushed_append, pushLine, if_neg fun hor => hor.elim hword hnewest]

/-- In every session the rows hold the last commands, and at every fresh prompt the arrows
show them. -/
theorem shellHistory_right {keys : List HistoryKey}
    (run : session.Run Machine.anyStep shellInit keys s) :
    RowsHold s ∧ (keys = [] ∨ keys.getLast? = some .enter → PromptRight s) := by
  obtain ⟨e, h⟩ := inSession_of_run run
  refine ⟨h.rowsHold, fun hfresh => ?_⟩
  rcases List.eq_nil_or_concat keys with rfl | ⟨front, last, rfl⟩
  · cases run
    exact inSession_init.promptRight rfl
  · rw [List.concat_eq_append] at run hfresh
    have hlast : last = .enter := by simpa using hfresh
    obtain ⟨mid, hbefore, hlastRun⟩ := run.split
    obtain ⟨before, hmid⟩ := inSession_of_run hbefore
    rw [hlast] at hlastRun
    cases hlastRun with
    | cons _ hstep htail =>
      cases htail
      obtain rfl := Option.some.inj hstep
      exact hmid.enter.promptRight rfl

end Sessions

/-- Three commands are entered, the last one twice; from the prompt behind them the first one
is recalled and entered again. -/
theorem shellHistory_right_three :
    ∃ s, session.exec shellInit [.edit [0x61], .enter, .edit [0x62], .enter, .edit [0x63], .enter,
      .edit [0x63], .enter, .up, .up, .up, .enter] = some s ∧ RowsHold s ∧ PromptRight s ∧
        pushed (entered s) = [[0x61], [0x62], [0x63], [0x61]] := by
  refine ⟨_, rfl, ?_⟩
  have hexec : session.exec shellInit [.edit [0x61], .enter, .edit [0x62], .enter, .edit [0x63],
      .enter, .edit [0x63], .enter, .up, .up, .up, .enter] = some _ := rfl
  have hright := shellHistory_right (Machine.Run.of_exec hexec (Machine.admitted_anyStep _ _))
  exact ⟨hright.1, hright.2 (.inr rfl), by decide⟩

end Gd32Vw553h.Finsh
