/-
  Provision/Isolation.lean --- several connections and one line buffer.

  The module keeps one buffer whatever connection a callback names, and a
  disconnect of any connection empties it.  As long as only one connection at a
  time is inside a line, the shared buffer holds that connection's unfinished line
  (`Shared`), and every submission is a line of the connection it is made for
  (`isolated_of_oneLineAtATime`).
-/
import Gd32Vw553h.Provision.Framing
import Mathlib.Data.List.Induction

set_option autoImplicit false

namespace Gd32Vw553h.Provision

open Gd32Vw553h.Foundation

variable (env : Env)

/-! ## Callbacks of several connections -/

/-- A callback of the BLE stack. -/
inductive BleCall where
  | rx (connIdx : UInt8) (data : List UInt8)
  | connEvt (connIdx : UInt8) (connected : Bool)

def bleCall (g : Globals) : BleCall → Globals
  | .rx connIdx data => gdProvBleRx env connIdx data g
  | .connEvt connIdx connected => gdProvBleConnEvt connIdx connected g

def bleCalls (calls : List BleCall) (g : Globals) : Globals := calls.foldl (bleCall env) g

theorem bleCalls_snoc (calls : List BleCall) (call : BleCall) (g : Globals) :
    bleCalls env (calls ++ [call]) g = bleCall env (bleCalls env calls g) call := by
  simp [bleCalls]

/-- The bytes received on `connIdx` since its last connection event. -/
def received (connIdx : UInt8) (calls : List BleCall) : List UInt8 :=
  calls.foldl (fun bytes call => match call with
    | .rx c data => if c = connIdx then bytes ++ data else bytes
    | .connEvt c _ => if c = connIdx then [] else bytes) []

/-- The complete non-empty lines among them. -/
def connLines (connIdx : UInt8) (calls : List BleCall) : List (List UInt8) :=
  (completeLines isTerm (stripCr (received connIdx calls))).filter fun line => !line.isEmpty

/-- The unfinished line among them. -/
def connRest (connIdx : UInt8) (calls : List BleCall) : List UInt8 :=
  unfinishedLine isTerm (stripCr (received connIdx calls))

section Received

variable {connIdx c : UInt8} (calls : List BleCall)

theorem received_rx_self (data : List UInt8) :
    received connIdx (calls ++ [.rx connIdx data]) = received connIdx calls ++ data := by
  simp [received]

theorem received_rx_other (h : c ≠ connIdx) (data : List UInt8) :
    received connIdx (calls ++ [.rx c data]) = received connIdx calls := by
  simp [received, h]

theorem received_connEvt_self (connected : Bool) :
    received connIdx (calls ++ [.connEvt connIdx connected]) = [] := by
  simp [received]

theorem received_connEvt_other (h : c ≠ connIdx) (connected : Bool) :
    received connIdx (calls ++ [.connEvt c connected]) = received connIdx calls := by
  simp [received, h]

end Received

/-! ## One line at a time -/

/-- After `calls`, a callback comes to a connection only while no other connection
is inside a line; a connect event names a connection that is not inside one. -/
def Undisturbed (calls : List BleCall) : BleCall → Prop
  | .rx connIdx data => stripCr data ≠ [] → ∀ c, c ≠ connIdx → connRest c calls = []
  | .connEvt connIdx false => ∀ c, c ≠ connIdx → connRest c calls = []
  | .connEvt connIdx true => connRest connIdx calls = []

/-- At most one connection is inside a line at any time. -/
def OneLineAtATime (calls : List BleCall) : Prop :=
  ∀ before call after, calls = before ++ call :: after → Undisturbed before call

/-- No line of any connection is longer than the buffer. -/
def LinesFit (calls : List BleCall) : Prop :=
  ∀ before after, calls = before ++ after → ∀ connIdx,
    ∀ line ∈ allLines isTerm (stripCr (received connIdx before)),
      line.length ≤ gdProvJsonBufferLen - 1

/-- The lines submitted for a connection are its own, and its unfinished line stays
in the buffer until its next callback. -/
structure Isolated (g : Globals) (calls : List BleCall) : Prop where
  /-- what a receive call submits are the lines it completes on its connection -/
  lines : ∀ before connIdx data after, calls = before ++ .rx connIdx data :: after →
    ∃ new, (bleCalls env (before ++ [.rx connIdx data]) g).trace =
        (bleCalls env before g).trace ++ new ∧
      (∀ s ∈ submissions new, s.2 = connIdx ∧ 0 ∈ s.1.toList) ∧
      connLines connIdx (before ++ [.rx connIdx data]) =
        connLines connIdx before ++ submittedLines new
  /-- a connection event submits nothing -/
  events : ∀ before connIdx connected after,
    calls = before ++ .connEvt connIdx connected :: after →
      (bleCalls env (before ++ [.connEvt connIdx connected]) g).trace =
        (bleCalls env before g).trace
  /-- the bytes of an unfinished line are in the buffer -/
  pending : ∀ before after, calls = before ++ after → ∀ connIdx, connRest connIdx before ≠ [] →
    (bleCalls env before g).json.pending = connRest connIdx before

/-! ## The shared buffer -/

/-- The buffer is the unfinished line of one connection and no other is inside a line. -/
def Shared (g : Globals) (calls : List BleCall) : Prop :=
  ∃ connIdx, (bleCalls env calls g).json.pending = connRest connIdx calls ∧
    ∀ c, c ≠ connIdx → connRest c calls = []

variable {g : Globals} {calls : List BleCall}

theorem Shared.pending_eq (h : Shared env g calls) {connIdx : UInt8}
    (hothers : ∀ c, c ≠ connIdx → connRest c calls = []) :
    (bleCalls env calls g).json.pending = connRest connIdx calls := by
  obtain ⟨owner, hpending, hrest⟩ := h
  by_cases howner : owner = connIdx
  · rw [← howner]
    exact hpending
  · rw [hpending, hothers owner howner, hrest connIdx (Ne.symm howner)]

/-- A receive call on a connection whose unfinished line is in the buffer. -/
theorem rx_completes_lines {connIdx : UInt8}
    (hpending : (bleCalls env calls g).json.pending = connRest connIdx calls)
    (data : List UInt8)
    (hfits : ∀ line ∈ allLines isTerm (stripCr (received connIdx (calls ++ [.rx connIdx data]))),
      line.length ≤ gdProvJsonBufferLen - 1) :
    (∃ new, (bleCalls env (calls ++ [.rx connIdx data]) g).trace =
        (bleCalls env calls g).trace ++ new ∧
      (∀ s ∈ submissions new, s.2 = connIdx ∧ 0 ∈ s.1.toList) ∧
      connLines connIdx (calls ++ [.rx connIdx data]) =
        connLines connIdx calls ++ submittedLines new) ∧
      (bleCalls env (calls ++ [.rx connIdx data]) g).json.pending =
        connRest connIdx (calls ++ [.rx connIdx data]) := by
  have hstream : stripCr (received connIdx (calls ++ [.rx connIdx data])) =
      stripCr (received connIdx calls) ++ stripCr data := by
    rw [received_rx_self, stripCr_append]
  have hopen : ∀ b ∈ connRest connIdx calls, isTerm b = false := unfinishedLine_no_term isTerm _
  -- the lines of the unfinished line and the new bytes are lines of the connection
  have hfits' : ∀ line ∈ allLines isTerm (connRest connIdx calls ++ stripCr data),
      line.length ≤ gdProvJsonBufferLen - 1 := by
    intro line hline
    refine hfits line ?_
    rw [hstream, allLines_append]
    exact List.mem_append_right _ hline
  have h := gdProvBleRxCalls_refines env connIdx [data] (bleCalls env calls g)
    (by rw [hpending]; exact hopen)
  have hframe := frame_of_fits (gdProvJsonBufferLen - 1) _ hopen (stripCr data) hfits'
  have hrun : gdProvBleRxCalls env connIdx [data] (bleCalls env calls g) =
      bleCalls env (calls ++ [.rx connIdx data]) g := by
    rw [bleCalls_snoc]
    rfl
  rw [List.flatten_singleton, hpending, lineFrame, hframe, hrun] at h
  obtain ⟨new, htrace, hanswers⟩ := h.calls
  refine ⟨⟨new, htrace, submissions_on hanswers.on, ?_⟩, ?_⟩
  · rw [submittedLines_eq, hanswers.frameEvents, deliveredLines_map_line, connLines, hstream,
      completeLines_append, List.filter_append]
    rfl
  · have hrest : connRest connIdx (calls ++ [.rx connIdx data]) =
        unfinishedLine isTerm (connRest connIdx calls ++ stripCr data) := by
      change unfinishedLine isTerm (stripCr (received _ _)) = _
      rw [hstream, unfinishedLine_append]
      rfl
    rw [h.pending, hrest]

/-- A receive call without a byte that counts. -/
theorem rx_nothing {connIdx : UInt8} {data : List UInt8} (hdata : stripCr data = []) (c : UInt8) :
    connRest c (calls ++ [.rx connIdx data]) = connRest c calls ∧
      connLines c (calls ++ [.rx connIdx data]) = connLines c calls := by
  have hsame : stripCr (received c (calls ++ [.rx connIdx data])) = stripCr (received c calls) := by
    by_cases hc : connIdx = c
    · rw [hc, received_rx_self, stripCr_append, hdata, List.append_nil]
    · rw [received_rx_other calls hc]
  exact ⟨by rw [connRest, hsame, connRest], by rw [connLines, hsame, connLines]⟩

theorem rx_nothing_trace (connIdx : UInt8) {data : List UInt8} (hdata : stripCr data = [])
    (hpending : ∀ b ∈ (bleCalls env calls g).json.pending, isTerm b = false) :
    (∃ new, (bleCalls env (calls ++ [.rx connIdx data]) g).trace =
        (bleCalls env calls g).trace ++ new ∧
      (∀ s ∈ submissions new, s.2 = connIdx ∧ 0 ∈ s.1.toList) ∧ submittedLines new = []) ∧
      (bleCalls env (calls ++ [.rx connIdx data]) g).json.pending =
        (bleCalls env calls g).json.pending := by
  have h := gdProvBleRxCalls_refines env connIdx [data] (bleCalls env calls g) hpending
  have hrun : gdProvBleRxCalls env connIdx [data] (bleCalls env calls g) =
      bleCalls env (calls ++ [.rx connIdx data]) g := by
    rw [bleCalls_snoc]
    rfl
  rw [List.flatten_singleton, lineFrame, hdata, frame_nil, hrun] at h
  obtain ⟨new, htrace, hanswers⟩ := h.calls
  refine ⟨⟨new, htrace, submissions_on hanswers.on, ?_⟩, h.pending⟩
  rw [submittedLines_eq, hanswers.frameEvents]
  rfl

theorem Shared.pending_no_term (h : Shared env g calls) :
    ∀ b ∈ (bleCalls env calls g).json.pending, isTerm b = false := by
  obtain ⟨owner, hpending, -⟩ := h
  rw [hpending]
  exact unfinishedLine_no_term isTerm _

theorem connRest_rx_other (calls : List BleCall) {connIdx c : UInt8} (hc : c ≠ connIdx)
    (data : List UInt8) :
    connRest c (calls ++ [.rx connIdx data]) = connRest c calls := by
  simp only [connRest, received_rx_other calls hc.symm]

theorem connRest_connEvt_self (connIdx : UInt8) (connected : Bool) :
    connRest connIdx (calls ++ [.connEvt connIdx connected]) = [] := by
  simp [connRest, received_connEvt_self]

theorem connRest_connEvt_other {connIdx c : UInt8} (hc : c ≠ connIdx) (connected : Bool) :
    connRest c (calls ++ [.connEvt connIdx connected]) = connRest c calls := by
  simp only [connRest, received_connEvt_other calls hc.symm]

theorem rx_shared (h : Shared env g calls) {connIdx : UInt8} {data : List UInt8}
    (hone : Undisturbed calls (.rx connIdx data))
    (hfits : ∀ line ∈ allLines isTerm (stripCr (received connIdx (calls ++ [.rx connIdx data]))),
      line.length ≤ gdProvJsonBufferLen - 1) :
    Shared env g (calls ++ [.rx connIdx data]) := by
  by_cases hdata : stripCr data = []
  · obtain ⟨owner, hpending, hrest⟩ := h
    have hopen : ∀ b ∈ (bleCalls env calls g).json.pending, isTerm b = false :=
      Shared.pending_no_term env ⟨owner, hpending, hrest⟩
    refine ⟨owner, ?_, fun c hc => ?_⟩
    · rw [(rx_nothing_trace env connIdx hdata hopen).2, hpending, (rx_nothing hdata owner).1]
    · rw [(rx_nothing hdata c).1]
      exact hrest c hc
  · have hothers := hone hdata
    refine ⟨connIdx, (rx_completes_lines env (h.pending_eq env hothers) data hfits).2,
      fun c hc => ?_⟩
    rw [connRest_rx_other calls hc]
    exact hothers c hc

theorem connEvt_shared (h : Shared env g calls) {connIdx : UInt8} {connected : Bool}
    (hone : Undisturbed calls (.connEvt connIdx connected)) :
    Shared env g (calls ++ [.connEvt connIdx connected]) := by
  cases connected with
  | true =>
    -- a connect event empties nothing, and the connection it names has nothing
    have hsame : ∀ c, connRest c (calls ++ [.connEvt connIdx true]) = connRest c calls := by
      intro c
      by_cases hc : c = connIdx
      · rw [hc, connRest_connEvt_self]
        exact hone.symm
      · exact connRest_connEvt_other hc true
    obtain ⟨owner, hpending, hrest⟩ := h
    refine ⟨owner, ?_, fun c hc => by rw [hsame]; exact hrest c hc⟩
    rw [bleCalls_snoc, hsame]
    exact hpending
  | false =>
    refine ⟨connIdx, ?_, fun c hc => ?_⟩
    · rw [bleCalls_snoc, connRest_connEvt_self]
      exact JsonBuffer.pending_clear _
    · rw [connRest_connEvt_other hc]
      exact hone c hc

/-- The buffer is shared cleanly after every callback. -/
theorem shared_of_oneLineAtATime (hempty : g.json.len.val = 0) (hone : OneLineAtATime calls)
    (hfits : LinesFit calls) :
    ∀ before after, calls = before ++ after → Shared env g before := by
  intro before
  induction before using List.reverseRecOn with
  | nil =>
    intro after _
    exact ⟨0, pending_eq_nil hempty, fun _ _ => rfl⟩
  | append_singleton before call ih =>
    intro after hcalls
    have hcut : calls = before ++ call :: after := by rw [hcalls]; simp
    have hshared := ih (call :: after) hcut
    cases call with
    | rx connIdx data =>
      exact rx_shared env hshared (hone before _ after hcut) (hfits _ after hcalls connIdx)
    | connEvt connIdx connected => exact connEvt_shared env hshared (hone before _ after hcut)

/-- With one line at a time the connections are isolated: every string submitted for
a connection is a complete non-empty line of the bytes received on it since its last
connection event, and no callback of another connection removes or adds a byte. -/
theorem isolated_of_oneLineAtATime (hempty : g.json.len.val = 0) (hone : OneLineAtATime calls)
    (hfits : LinesFit calls) : Isolated env g calls where
  lines := by
    intro before connIdx data after hcalls
    have hshared := shared_of_oneLineAtATime env hempty hone hfits before _ hcalls
    by_cases hdata : stripCr data = []
    · obtain ⟨new, htrace, hon, hnone⟩ := (rx_nothing_trace env connIdx hdata
        (hshared.pending_no_term env)).1
      refine ⟨new, htrace, hon, ?_⟩
      rw [(rx_nothing hdata connIdx).2, hnone, List.append_nil]
    · have hothers := hone before _ after hcalls hdata
      refine (rx_completes_lines env (hshared.pending_eq env hothers) data
        (hfits _ after ?_ connIdx)).1
      rw [hcalls]
      simp
  events := by
    intro before connIdx connected after _
    rw [bleCalls_snoc]
    cases connected <;> rfl
  pending := by
    intro before after hcalls connIdx hrest
    have hshared := shared_of_oneLineAtATime env hempty hone hfits before after hcalls
    refine hshared.pending_eq env fun c hc => ?_
    -- the buffer belongs to the connection that is inside a line
    obtain ⟨owner, -, hothers⟩ := hshared
    by_cases howner : connIdx = owner
    · rw [howner] at hc
      exact hothers c hc
    · exact absurd (hothers connIdx howner) hrest

/-! ## Two clients -/

/-- The bytes a callback brings. -/
def BleCall.bytes : BleCall → List UInt8
  | .rx _ data => data
  | .connEvt _ _ => []

theorem received_length_le (connIdx : UInt8) (calls : List BleCall) :
    (received connIdx calls).length ≤ (calls.flatMap BleCall.bytes).length := by
  induction calls using List.reverseRecOn with
  | nil => exact Nat.le_refl 0
  | append_singleton before call ih =>
    rw [List.flatMap_append, List.flatMap_singleton, List.length_append]
    cases call with
    | rx c data =>
      by_cases hc : c = connIdx
      · rw [hc, received_rx_self, List.length_append]
        exact Nat.add_le_add_right ih data.length
      · rw [received_rx_other before hc]
        exact Nat.le_add_right_of_le ih
    | connEvt c connected =>
      by_cases hc : c = connIdx
      · rw [hc, received_connEvt_self]
        exact Nat.zero_le _
      · rw [received_connEvt_other before hc]
        exact Nat.le_add_right_of_le ih

/-- Callbacks that bring fewer bytes than the buffer holds have no line too long. -/
theorem linesFit_of_short
    (h : (calls.flatMap BleCall.bytes).length ≤ gdProvJsonBufferLen - 1) : LinesFit calls := by
  intro before after hcalls connIdx line hline
  have hlen := received_length_le connIdx before
  have hstrip : (stripCr (received connIdx before)).length ≤ (received connIdx before).length :=
    List.length_filter_le _ _
  have hshort := length_le_of_mem_allLines isTerm hline
  rw [hcalls, List.flatMap_append, List.length_append] at h
  omega

theorem isolated_of_two_lines :
    Isolated quietEnv Globals.initial [.rx 0 (ascii "5\n"), .rx 1 (ascii "6\n")] := by
  refine isolated_of_oneLineAtATime quietEnv rfl ?_ (linesFit_of_short (by decide))
  intro before call after hcalls
  match before, hcalls with
  | [], hcalls =>
    obtain ⟨rfl, -⟩ := List.cons.inj hcalls
    exact fun _ c _ => rfl
  | [first], hcalls =>
    obtain ⟨rfl, hrest⟩ := List.cons.inj hcalls
    obtain ⟨rfl, -⟩ := List.cons.inj hrest
    intro _ c _
    by_cases hc : c = 0
    · rw [hc]
      decide
    · exact connRest_rx_other [] hc _
  | _ :: _ :: before, hcalls => simp at hcalls

/-- Two connected clients, each inside a line. -/
def twoClients : List BleCall :=
  [.connEvt 0 true, .connEvt 1 true, .rx 0 (ascii "\x7b\"a"), .rx 1 (ascii "b\"\x7d\n")]

/-- The bytes of connection 0 end up in a line submitted for connection 1. -/
theorem spliced_of_twoClients :
    LinesFit twoClients ∧
      (submissions (bleCalls quietEnv twoClients Globals.initial).trace).map
        (fun s => (cString s.1.toList, s.2)) = [(ascii "\x7b\"ab\"\x7d", 1)] ∧
      ascii "\x7b\"ab\"\x7d" ∉ connLines 1 twoClients :=
  ⟨linesFit_of_short (by decide), by decide +kernel, by decide +kernel⟩

end Gd32Vw553h.Provision
