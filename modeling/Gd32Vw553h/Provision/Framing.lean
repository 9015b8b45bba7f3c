/-
  Provision/Framing.lean --- what one connection's byte stream submits.

  Within the line limit the receive loop submits the non-empty lines of the
  stream, however it is cut into calls (`gdProvBleRxCalls_submits_lines`).  Beyond
  the limit the loop does not remember that it is inside a rejected line: it
  starts over behind the byte that did not fit.  `lineRejected_iff` states for
  which lengths the outcome is still the rejection of the whole line.
-/
import Gd32Vw553h.Provision.Callbacks

set_option autoImplicit false

namespace Gd32Vw553h.Provision

open Gd32Vw553h.Foundation Gd32Vw553h.Klibc

/-! ## Reading a call sequence -/

/-- The buffer and the connection of a `gd_prov_submit_json` call. -/
def submission? : Effect → Option (Vector UInt8 gdProvJsonBufferLen × UInt8)
  | .submitJson json connIdx => some (json, connIdx)
  | _ => none

/-- The `gd_prov_submit_json` calls of a call sequence, in order. -/
def submissions (calls : List Effect) : List (Vector UInt8 gdProvJsonBufferLen × UInt8) :=
  calls.filterMap submission?

/-- The strings handed to `gd_prov_submit_json`. -/
def submittedLines (calls : List Effect) : List (List UInt8) :=
  (submissions calls).map fun s => cString s.1.toList

/-- The number of `too_long` notifications. -/
def tooLongCount (calls : List Effect) : Nat :=
  (frameEvents calls).count .overflow

theorem submissions_append (s t : List Effect) :
    submissions (s ++ t) = submissions s ++ submissions t := List.filterMap_append

/-- The submitted strings are the framer's lines. -/
theorem submittedLines_eq (calls : List Effect) :
    submittedLines calls = deliveredLines (frameEvents calls) := by
  simp only [submittedLines, submissions, deliveredLines, frameEvents, List.map_filterMap,
    List.filterMap_filterMap]
  refine List.filterMap_congr fun e _ => ?_
  cases e with
  | submitJson json connIdx => rfl
  | notify connIdx text =>
    by_cases htext : text = statusText "too_long" <;>
      simp [lineEvent, submission?, FrameEvent.line?, htext]
  | datatransSend connIdx text len => rfl
  | semRelease => rfl

/-- A submission made by a call on `connIdx` is one on `connIdx`. -/
theorem submissions_on {connIdx : UInt8} {calls : List Effect}
    (h : ∀ e ∈ calls, CallOn connIdx e) :
    ∀ s ∈ submissions calls, s.2 = connIdx ∧ 0 ∈ s.1.toList := by
  intro s hs
  obtain ⟨e, he, hsome⟩ := List.mem_filterMap.mp hs
  cases e with
  | submitJson json c =>
    obtain rfl : (json, c) = s := Option.some.inj hsome
    exact h _ he
  | notify c text => exact absurd hsome (by simp [submission?])
  | datatransSend c text len => exact absurd hsome (by simp [submission?])
  | semRelease => exact absurd hsome (by simp [submission?])

/-! ## Lines within the limit -/

variable (env : Env)

/-- An empty line buffer has no pending bytes. -/
theorem pending_eq_nil {g : Globals} (hempty : g.json.len.val = 0) : g.json.pending = [] :=
  List.length_eq_zero_iff.mp (g.json.pending_length.trans hempty)

/-- The calls of a stream are the framer's events on it, however it is cut. -/
theorem gdProvBleRxCalls_refines (connIdx : UInt8) (chunks : List (List UInt8)) (g : Globals)
    (hpending : ∀ b ∈ g.json.pending, isTerm b = false) :
    Reflects env connIdx g (gdProvBleRxCalls env connIdx chunks g)
      (lineFrame g.json.pending chunks.flatten).1
      (lineFrame g.json.pending chunks.flatten).2 := by
  have h := gdProvBleRxLoop_refines env connIdx chunks.flatten g hpending
  rw [gdProvBleRxCalls_eq]
  exact ⟨h.calls, h.pending, h.errors, h.oks, h.creds, h.connected, h.connIdx⟩

/-- When no line is longer than the buffer, exactly the non-empty lines of the
stream are submitted, in order and NUL-terminated inside the buffer, and the
unfinished line is what the buffer keeps. -/
theorem gdProvBleRxCalls_submits_lines (connIdx : UInt8) (chunks : List (List UInt8))
    (g : Globals) (hempty : g.json.len.val = 0)
    (hfits : ∀ line ∈ allLines isTerm (stripCr chunks.flatten),
      line.length ≤ gdProvJsonBufferLen - 1) :
    ∃ calls, (gdProvBleRxCalls env connIdx chunks g).trace = g.trace ++ calls ∧
      submittedLines calls =
        (completeLines isTerm (stripCr chunks.flatten)).filter (fun line => !line.isEmpty) ∧
      (∀ s ∈ submissions calls, s.2 = connIdx ∧ 0 ∈ s.1.toList) ∧
      (gdProvBleRxCalls env connIdx chunks g).json.pending =
        unfinishedLine isTerm (stripCr chunks.flatten) := by
  have hnil := pending_eq_nil hempty
  have h := gdProvBleRxCalls_refines env connIdx chunks g (by simp [hnil])
  have hframe := frame_of_fits (gdProvJsonBufferLen - 1) [] (by simp)
    (stripCr chunks.flatten) hfits
  rw [hnil, lineFrame, hframe] at h
  obtain ⟨calls, htrace, hanswers⟩ := h.calls
  refine ⟨calls, htrace, ?_, submissions_on hanswers.on, h.pending⟩
  rw [submittedLines_eq, hanswers.frameEvents, deliveredLines_map_line]
  rfl

/-- An environment that parses nothing and accepts every send. -/
def quietEnv : Env where
  cJSONParse _ := none
  datatransSend _ _ _ := 0

theorem gdProvBleRxCalls_submits_split_line :
    ∃ calls, (gdProvBleRxCalls quietEnv 3 [ascii "\x7b", [], ascii "\x7d\r\n\n5"]
        Globals.initial).trace = Globals.initial.trace ++ calls ∧
      submittedLines calls = [ascii "\x7b\x7d"] := by
  obtain ⟨calls, htrace, hlines, -, -⟩ := gdProvBleRxCalls_submits_lines quietEnv 3
    [ascii "\x7b", [], ascii "\x7d\r\n\n5"] Globals.initial rfl (by decide)
  exact ⟨calls, htrace, hlines.trans (by decide)⟩

/-! ## Lines beyond the limit -/

/-- In a run over `chunks`, which cut `before ++ line ++ t :: after` in some way,
the line `line` is rejected as a whole: while its bytes and its terminator are
read, one `too_long` is sent, one error is counted and nothing is submitted; and
the run submits and keeps what it would without the line. -/
structure LineRejected (connIdx : UInt8) (g : Globals) (chunks : List (List UInt8))
    (before line : List UInt8) (t : UInt8) (after : List UInt8) : Prop where
  onLine : ∃ atBefore onLine atAfter,
    (gdProvBleRxLoop env connIdx before g).trace = g.trace ++ atBefore ∧
    (gdProvBleRxLoop env connIdx (before ++ line ++ [t]) g).trace =
      g.trace ++ atBefore ++ onLine ∧
    (gdProvBleRxCalls env connIdx chunks g).trace = g.trace ++ atBefore ++ onLine ++ atAfter ∧
    tooLongCount onLine = 1 ∧ submissions onLine = []
  errors : (gdProvBleRxLoop env connIdx (before ++ line ++ [t]) g).jsonErrorCount =
    (gdProvBleRxLoop env connIdx before g).jsonErrorCount + 1
  framedOn : ∃ withLine without,
    (gdProvBleRxCalls env connIdx chunks g).trace = g.trace ++ withLine ∧
    (gdProvBleRxLoop env connIdx (before ++ after) g).trace = g.trace ++ without ∧
    submittedLines withLine = submittedLines without
  kept : (gdProvBleRxCalls env connIdx chunks g).json.pending =
    (gdProvBleRxLoop env connIdx (before ++ after) g).json.pending

section LongLine

variable (connIdx : UInt8) {g : Globals} {chunks : List (List UInt8)}
  {before line after : List UInt8} {t : UInt8}

/-- Terminators are no carriage returns, so they survive the stripping. -/
theorem stripCr_term {t : UInt8} (ht : isTerm t = true) : stripCr [t] = [t] := by
  have hcr : isCr t = false := by
    rcases (by simpa [isTerm] using ht : t = 10 ∨ t = 0) with rfl | rfl <;> rfl
  simp [stripCr, hcr]

/-- The events of the over-long line alone. -/
theorem lineFrame_line (hline : ∀ b ∈ line, isTerm b = false) (ht : isTerm t = true) :
    ∃ tail : List UInt8, tail.length = (stripCr line).length % gdProvJsonBufferLen ∧
      lineFrame [] (line ++ [t]) =
        ([], List.replicate ((stripCr line).length / gdProvJsonBufferLen) .overflow ++
          if tail.isEmpty then [] else [.line tail]) := by
  have hstripped : ∀ b ∈ stripCr line, isTerm b = false := fun b hb =>
    hline b (List.mem_of_mem_filter hb)
  obtain ⟨tail, hlen, hframe⟩ :=
    frame_line (gdProvJsonBufferLen - 1) hstripped ht
  refine ⟨tail, hlen, ?_⟩
  rw [lineFrame, stripCr_append, stripCr_term ht]
  exact hframe

theorem gdProvBleRxLoop_append (s u : List UInt8) (g : Globals) :
    gdProvBleRxLoop env connIdx (s ++ u) g =
      gdProvBleRxLoop env connIdx u (gdProvBleRxLoop env connIdx s g) := List.foldl_append

/-- Up to a line start: some events, nothing kept. -/
theorem reflects_before (hempty : g.json.len.val = 0)
    (hstart : unfinishedLine isTerm (stripCr before) = []) :
    ∃ events, Reflects env connIdx g (gdProvBleRxLoop env connIdx before g) [] events := by
  have hnil := pending_eq_nil hempty
  have h := gdProvBleRxLoop_refines env connIdx before g (by simp [hnil])
  rw [hnil] at h
  have hkept : (lineFrame [] before).1 = [] := frame_at_line_start hstart
  rw [hkept] at h
  exact ⟨_, h⟩

/-- The stretch of the over-long line: an overflow for every 256 bytes and the
bytes behind the last one as a line of their own. -/
theorem reflects_line (hempty : g.json.len.val = 0)
    (hstart : unfinishedLine isTerm (stripCr before) = [])
    (hline : ∀ b ∈ line, isTerm b = false) (ht : isTerm t = true) :
    ∃ tail : List UInt8, tail.length = (stripCr line).length % gdProvJsonBufferLen ∧
      Reflects env connIdx (gdProvBleRxLoop env connIdx before g)
        (gdProvBleRxLoop env connIdx (before ++ line ++ [t]) g) []
        (List.replicate ((stripCr line).length / gdProvJsonBufferLen) .overflow ++
          if tail.isEmpty then [] else [.line tail]) := by
  obtain ⟨_, hbefore⟩ := reflects_before env connIdx hempty hstart
  obtain ⟨tail, hlen, hframe⟩ := lineFrame_line hline ht
  have hnil := hbefore.pending
  have h := gdProvBleRxLoop_refines env connIdx (line ++ [t])
    (gdProvBleRxLoop env connIdx before g) (by simp [hnil])
  rw [hnil, hframe] at h
  rw [List.append_assoc, gdProvBleRxLoop_append]
  exact ⟨tail, hlen, h⟩

/-- A line rejected as a whole is one byte longer than the limit. -/
theorem LineRejected.length_eq (hempty : g.json.len.val = 0)
    (hstart : unfinishedLine isTerm (stripCr before) = [])
    (hline : ∀ b ∈ line, isTerm b = false) (ht : isTerm t = true)
    (h : LineRejected env connIdx g chunks before line t after) :
    (stripCr line).length = gdProvJsonBufferLen := by
  obtain ⟨tail, hlen, hreflects⟩ := reflects_line env connIdx hempty hstart hline ht
  obtain ⟨atBefore, onLine, -, hatBefore, honLine, -, hcount, hnone⟩ := h.onLine
  obtain ⟨calls, htrace, hanswers⟩ := hreflects.calls
  have hevents := hanswers.frameEvents
  -- the calls of the stretch are the ones the events describe
  have hcalls : calls = onLine := by
    rw [honLine, hatBefore] at htrace
    exact (List.append_cancel_left htrace).symm
  rw [hcalls] at hevents
  have hblocks : (stripCr line).length / gdProvJsonBufferLen = 1 := by
    rw [tooLongCount, hevents, List.count_append, List.count_replicate_self] at hcount
    cases htail : tail.isEmpty <;> simpa [htail] using hcount
  have htail : tail = [] := by
    have hlines : submittedLines onLine = [] := by rw [submittedLines, hnone]; rfl
    rw [submittedLines_eq, hevents, deliveredLines_append] at hlines
    cases hcase : tail.isEmpty with
    | true => exact List.isEmpty_iff.mp hcase
    | false => simp [hcase, deliveredLines, FrameEvent.line?] at hlines
  rw [htail, List.length_nil] at hlen
  have hdiv := Nat.div_add_mod (stripCr line).length gdProvJsonBufferLen
  rw [hblocks, ← hlen] at hdiv
  omega

/-- A line one byte longer than the limit is rejected as a whole. -/
theorem lineRejected_of_length_eq (hempty : g.json.len.val = 0)
    (hcut : chunks.flatten = before ++ line ++ t :: after)
    (hstart : unfinishedLine isTerm (stripCr before) = [])
    (hline : ∀ b ∈ line, isTerm b = false) (ht : isTerm t = true)
    (hlength : (stripCr line).length = gdProvJsonBufferLen) :
    LineRejected env connIdx g chunks before line t after := by
  obtain ⟨_, hbefore⟩ := reflects_before env connIdx hempty hstart
  obtain ⟨tail, hlen, honLine⟩ := reflects_line env connIdx hempty hstart hline ht
  have htail : tail = [] := List.length_eq_zero_iff.mp (by rw [hlen, hlength]; rfl)
  rw [htail, hlength] at honLine
  -- behind the line, and behind `before` when the line is left out
  have hafter := gdProvBleRxLoop_refines env connIdx after
    (gdProvBleRxLoop env connIdx (before ++ line ++ [t]) g)
    (by rw [honLine.pending]; simp)
  have hwithout := gdProvBleRxLoop_refines env connIdx after
    (gdProvBleRxLoop env connIdx before g) (by rw [hbefore.pending]; simp)
  rw [honLine.pending, ← gdProvBleRxLoop_append] at hafter
  rw [hbefore.pending, ← gdProvBleRxLoop_append] at hwithout
  have hwhole : gdProvBleRxCalls env connIdx chunks g =
      { gdProvBleRxLoop env connIdx (before ++ line ++ [t] ++ after) g with
        bleRxCount := g.bleRxCount + chunks.length } := by
    rw [gdProvBleRxCalls_eq, hcut]
    simp
  obtain ⟨callsBefore, htraceBefore, -⟩ := hbefore.calls
  obtain ⟨callsLine, htraceLine, hanswersLine⟩ := honLine.calls
  obtain ⟨callsAfter, htraceAfter, hanswersAfter⟩ := hafter.calls
  obtain ⟨callsWithout, htraceWithout, hanswersWithout⟩ := hwithout.calls
  have hlineNone : submittedLines callsLine = [] := by
    rw [submittedLines_eq, hanswersLine.frameEvents]
    rfl
  refine ⟨⟨callsBefore, callsLine, callsAfter, htraceBefore, ?_, ?_, ?_, ?_⟩,
    honLine.errors, ⟨callsBefore ++ callsLine ++ callsAfter, callsBefore ++ callsWithout,
    ?_, ?_, ?_⟩, ?_⟩
  · rw [htraceLine, htraceBefore]
  · rw [hwhole, htraceAfter, htraceLine, htraceBefore]
  · rw [tooLongCount, hanswersLine.frameEvents]
    rfl
  · exact List.map_eq_nil_iff.mp hlineNone
  · rw [hwhole, htraceAfter, htraceLine, htraceBefore]
    simp
  · rw [htraceWithout, htraceBefore]
    simp
  · have hsame : submittedLines callsAfter = submittedLines callsWithout := by
      rw [submittedLines_eq, submittedLines_eq, hanswersAfter.frameEvents,
        hanswersWithout.frameEvents]
    simp only [submittedLines, submissions_append, List.map_append] at hlineNone hsame ⊢
    rw [hlineNone, hsame, List.append_nil]
  · rw [hwhole, hwithout.pending]
    exact hafter.pending

/-- An over-long line is rejected as a whole exactly when it is one byte longer
than the limit: a longer one starts a second line behind its 256th byte. -/
theorem lineRejected_iff (hempty : g.json.len.val = 0)
    (hcut : chunks.flatten = before ++ line ++ t :: after)
    (hstart : unfinishedLine isTerm (stripCr before) = [])
    (hline : ∀ b ∈ line, isTerm b = false) (ht : isTerm t = true)
    (_hlong : gdProvJsonBufferLen - 1 < (stripCr line).length) :
    LineRejected env connIdx g chunks before line t after ↔
      (stripCr line).length = gdProvJsonBufferLen :=
  ⟨LineRejected.length_eq env connIdx hempty hstart hline ht,
    lineRejected_of_length_eq env connIdx hempty hcut hstart hline ht⟩

end LongLine

/-- A line of `n` times the letter `a`. -/
def letterLine (n : Nat) : List UInt8 := List.replicate n 97

theorem letterLine_no_term (n : Nat) : ∀ b ∈ letterLine n, isTerm b = false := by
  intro b hb
  rw [List.eq_of_mem_replicate hb]
  rfl

theorem stripCr_letterLine (n : Nat) : (stripCr (letterLine n)).length = n := by
  have hkept : ∀ b ∈ letterLine n, (!isCr b) = true := by
    intro b hb
    rw [List.eq_of_mem_replicate hb]
    rfl
  rw [stripCr, List.filter_eq_self.mpr hkept, letterLine, List.length_replicate]

theorem lineRejected_256 :
    LineRejected quietEnv 0 Globals.initial [letterLine 256, [10, 98]] []
      (letterLine 256) 10 [98] :=
  (lineRejected_iff quietEnv 0 rfl (by simp) rfl (letterLine_no_term 256) rfl
    (by rw [stripCr_letterLine]; decide)).mpr (stripCr_letterLine 256)

/-- A line of 257 bytes is not rejected: its last byte is submitted as a document. -/
theorem not_lineRejected_257 :
    isTerm 10 = true ∧ (∀ b ∈ letterLine 257, isTerm b = false) ∧
      gdProvJsonBufferLen - 1 < (stripCr (letterLine 257)).length ∧
      ¬ LineRejected quietEnv 0 Globals.initial [letterLine 257 ++ [10]] []
        (letterLine 257) 10 [] := by
  refine ⟨rfl, letterLine_no_term 257, by rw [stripCr_letterLine]; decide, fun h => ?_⟩
  have hlength := h.length_eq quietEnv 0 rfl rfl (letterLine_no_term 257) rfl
  rw [stripCr_letterLine] at hlength
  exact absurd hlength (by decide)

end Gd32Vw553h.Provision
