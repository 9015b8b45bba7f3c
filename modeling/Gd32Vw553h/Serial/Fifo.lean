/-
  Serial/Fifo.lean --- the receive FIFO of a serial device
  (`components/drivers/serial/dev_serial.c`).

  The receive interrupt appends the bytes it gets and moves on `put_index`; reading
  calls take bytes off at `get_index`, one critical section a byte.  `is_full` tells
  a full FIFO from an empty one.  `Fifo.unread` is what a reader can still get;
  `unread_putChar` and `takeChar_cases` say what the two sides do to it, and
  `serialFifo_lockStep_iff` compares the FIFO with a queue that drops its oldest
  bytes.

  Indices stay below `bufsz`, at most 65535, so that one more fits their sixteen
  bits.  `RT_USING_SERIAL_BYPASS` is not set.
-/
import Gd32Vw553h.Foundation.RingQueue
import Gd32Vw553h.Foundation.Runs

set_option autoImplicit false

namespace Gd32Vw553h.Serial

open Gd32Vw553h.Foundation

/-! ## The code -/

/-- `struct rt_serial_rx_fifo` -/
structure RtSerialRxFifo where
  buffer : Nat → UInt8
  putIndex : Nat
  getIndex : Nat
  isFull : Bool

section Code

variable (bufsz : Nat)

/-- The critical section of the receive interrupt for one byte. -/
def putChar (rxFifo : RtSerialRxFifo) (ch : UInt8) : RtSerialRxFifo :=
  let buffer := Function.update rxFifo.buffer rxFifo.putIndex ch
  let putIndex := ringNext bufsz rxFifo.putIndex
  if putIndex = rxFifo.getIndex then
    { buffer := buffer, putIndex := putIndex, getIndex := putIndex, isFull := true }
  else { rxFifo with buffer := buffer, putIndex := putIndex }

/-- `rx_length` of the receive interrupt. -/
def rxLength (rxFifo : RtSerialRxFifo) : Nat :=
  ringDistance bufsz rxFifo.getIndex rxFifo.putIndex

/-- `rt_hw_serial_isr` with `RT_SERIAL_EVENT_RX_IND`, for the bytes that `getc` returns:
the FIFO, and the argument of `rx_indicate` when it is called. -/
def rtHwSerialIsr (rxIndicate : Bool) (rxFifo : RtSerialRxFifo) (bytes : List UInt8) :
    RtSerialRxFifo × Option Nat :=
  let rxFifo := bytes.foldl (putChar bufsz) rxFifo
  (rxFifo, if rxIndicate = true ∧ rxLength bufsz rxFifo ≠ 0 then some (rxLength bufsz rxFifo)
    else none)

/-- The critical section of `_serial_int_rx`: the byte taken, or nothing. -/
def takeChar (rxFifo : RtSerialRxFifo) : Option (UInt8 × RtSerialRxFifo) :=
  if rxFifo.getIndex = rxFifo.putIndex ∧ rxFifo.isFull = false then none
  else
    some (rxFifo.buffer rxFifo.getIndex,
      { rxFifo with getIndex := ringNext bufsz rxFifo.getIndex, isFull := false })

end Code

/-- A call of `_serial_int_rx` in progress: what it may still read, what it has read. -/
structure ReadCall where
  length : Nat
  data : List UInt8

/-- What the receive interrupt and the reading calls do to a buffer. -/
structure RxBuffer (σ : Type*) where
  receive : σ → List UInt8 → σ × Option Nat
  take : σ → Option (UInt8 × σ)

/-- A serial device in interrupt mode, with a buffer of type `σ` and reading threads `τ`. -/
structure SerialState (σ τ : Type*) where
  rx : σ
  calls : τ → Option ReadCall
  /-- what the reading calls have returned -/
  returned : List (τ × List UInt8)
  /-- the calls of `rx_indicate` -/
  indicated : List Nat

inductive SerialStep (τ : Type*) where
  /-- a receive interrupt whose `getc` obtains these bytes -/
  | interrupt (bytes : List UInt8)
  /-- `rt_serial_read` is entered -/
  | read (thread : τ) (size : Nat)
  /-- one pass of the loop of `_serial_int_rx` -/
  | pass (thread : τ)

section Machines

variable {σ τ : Type*} [DecidableEq τ]

/-- The loop of `_serial_int_rx` ends. -/
def SerialState.finish (s : SerialState σ τ) (thread : τ) (call : ReadCall) : SerialState σ τ :=
  { s with
    calls := Function.update s.calls thread none
    returned := s.returned ++ [(thread, call.data)] }

/-- Interrupts and reading calls over a buffer. -/
def serial (buffer : RxBuffer σ) : Machine (SerialState σ τ) (SerialStep τ) where
  step s
    | .interrupt bytes =>
        let (rx, rxIndicate) := buffer.receive s.rx bytes
        some { s with rx := rx, indicated := s.indicated ++ rxIndicate.toList }
    | .read thread size =>
        match s.calls thread with
        | some _ => none
        | none =>
          if size = 0 then some { s with returned := s.returned ++ [(thread, [])] }
          else some { s with calls := Function.update s.calls thread (some ⟨size, []⟩) }
    | .pass thread =>
        match s.calls thread with
        | none => none
        | some call =>
          if call.length = 0 then some (s.finish thread call)
          else
            match buffer.take s.rx with
            | none => some (s.finish thread call)
            | some (ch, rx) =>
              some { s with
                rx := rx
                calls := Function.update s.calls thread
                  (some ⟨call.length - 1, call.data ++ [ch]⟩) }

/-- The FIFO of the source. -/
def fifoBuffer (bufsz : Nat) (rxIndicate : Bool) : RxBuffer RtSerialRxFifo where
  receive := rtHwSerialIsr bufsz rxIndicate
  take := takeChar bufsz

/-- A queue of at most `bufsz` bytes that drops its oldest ones; `rx_indicate` is called
with the number of bytes unless there are none. -/
def queueBuffer (bufsz : Nat) (rxIndicate : Bool) : RxBuffer (List UInt8) where
  receive queue bytes :=
    let queue := (queue ++ bytes).drop ((queue ++ bytes).length - bufsz)
    (queue, if rxIndicate = true ∧ queue ≠ [] then some queue.length else none)
  take
    | [] => none
    | ch :: queue => some (ch, queue)

end Machines

/-! ## What a reader can still get -/

/-- The unread bytes, oldest first. -/
def RtSerialRxFifo.unread (bufsz : Nat) (rxFifo : RtSerialRxFifo) : List UInt8 :=
  ringSlice bufsz rxFifo.buffer rxFifo.getIndex
    (if rxFifo.putIndex = rxFifo.getIndex ∧ rxFifo.isFull = true then bufsz
      else rxLength bufsz rxFifo)

/-- Both indices are below the size of the buffer. -/
structure RtSerialRxFifo.InRange (bufsz : Nat) (rxFifo : RtSerialRxFifo) : Prop where
  put : rxFifo.putIndex < bufsz
  get : rxFifo.getIndex < bufsz

section Unread

variable {bufsz : Nat} {rxFifo : RtSerialRxFifo}

theorem inRange_putChar (h : rxFifo.InRange bufsz) (ch : UInt8) :
    (putChar bufsz rxFifo ch).InRange bufsz := by
  have hpos : 0 < bufsz := Nat.zero_lt_of_lt h.put
  unfold Serial.putChar
  dsimp only
  split
  · exact ⟨ringNext_lt hpos _, ringNext_lt hpos _⟩
  · exact ⟨ringNext_lt hpos _, h.get⟩

theorem unread_length_le (h : rxFifo.InRange bufsz) : (rxFifo.unread bufsz).length ≤ bufsz := by
  have hdist : ringDistance bufsz rxFifo.getIndex rxFifo.putIndex < bufsz := ringDistance_lt h.put
  rw [RtSerialRxFifo.unread, ringSlice_length]
  split
  · exact le_refl bufsz
  · exact hdist.le

/-- The interrupt counts a full FIFO as an empty one. -/
theorem rxLength_eq (h : rxFifo.InRange bufsz) :
    rxLength bufsz rxFifo =
      if (rxFifo.unread bufsz).length = bufsz then 0 else (rxFifo.unread bufsz).length := by
  have hdist : rxLength bufsz rxFifo < bufsz := ringDistance_lt h.put
  have hzero : rxLength bufsz rxFifo = 0 ↔ rxFifo.putIndex = rxFifo.getIndex :=
    ringDistance_eq_zero h.get
  rw [RtSerialRxFifo.unread, ringSlice_length]
  by_cases hfull : rxFifo.putIndex = rxFifo.getIndex ∧ rxFifo.isFull = true
  · rw [if_pos hfull, if_pos rfl]
    exact hzero.mpr hfull.1
  · rw [if_neg hfull, if_neg hdist.ne]

/-- The new byte stands behind the bytes between the indices. -/
theorem unread_putChar_slice (h : rxFifo.InRange bufsz) (ch : UInt8) :
    (putChar bufsz rxFifo ch).unread bufsz =
      ringSlice bufsz rxFifo.buffer rxFifo.getIndex (rxLength bufsz rxFifo) ++ [ch] := by
  have hdist : rxLength bufsz rxFifo < bufsz := ringDistance_lt h.put
  have hindex : ringIndex bufsz rxFifo.getIndex (rxLength bufsz rxFifo) = rxFifo.putIndex :=
    ringIndex_distance h.get h.put
  have hslice : ringSlice bufsz (Function.update rxFifo.buffer (ringIndex bufsz rxFifo.getIndex
      (rxLength bufsz rxFifo)) ch) rxFifo.getIndex (rxLength bufsz rxFifo + 1) = _ :=
    ringSlice_update rxFifo.buffer hdist ch
  rw [hindex] at hslice
  rw [← hslice]
  unfold putChar
  dsimp only
  by_cases hmeet : ringNext bufsz rxFifo.putIndex = rxFifo.getIndex
  · have hall : rxLength bufsz rxFifo + 1 = bufsz := (ringNext_eq_get h.get h.put).mp hmeet
    rw [if_pos hmeet, RtSerialRxFifo.unread, if_pos ⟨rfl, rfl⟩, hall]
    dsimp only
    rw [hmeet]
  · have hnext := ringDistance_next_put h.get h.put
    rw [if_neg hmeet] at hnext
    rw [if_neg hmeet, RtSerialRxFifo.unread, if_neg (fun hfull => hmeet hfull.1)]
    exact congrArg _ hnext

/-- A byte is appended; a full FIFO is emptied first. -/
theorem unread_putChar (h : rxFifo.InRange bufsz) (ch : UInt8) :
    (putChar bufsz rxFifo ch).unread bufsz =
      if (rxFifo.unread bufsz).length < bufsz then rxFifo.unread bufsz ++ [ch] else [ch] := by
  have hdist : rxLength bufsz rxFifo < bufsz := ringDistance_lt h.put
  rw [unread_putChar_slice h]
  by_cases hfull : rxFifo.putIndex = rxFifo.getIndex ∧ rxFifo.isFull = true
  · have hzero : rxLength bufsz rxFifo = 0 := (ringDistance_eq_zero h.get).mpr hfull.1
    have hlen : (rxFifo.unread bufsz).length = bufsz := by
      rw [RtSerialRxFifo.unread, ringSlice_length, if_pos hfull]
    rw [hzero, ringSlice_zero, hlen, if_neg (lt_irrefl bufsz), List.nil_append]
  · have hunread : rxFifo.unread bufsz =
        ringSlice bufsz rxFifo.buffer rxFifo.getIndex (rxLength bufsz rxFifo) := by
      rw [RtSerialRxFifo.unread, if_neg hfull]
    rw [hunread, ringSlice_length, if_pos hdist]

/-- What several bytes do: whole buffers are dropped, never single bytes. -/
theorem unread_putChars (h : rxFifo.InRange bufsz) (bytes : List UInt8) :
    (bytes.foldl (putChar bufsz) rxFifo).InRange bufsz ∧
      (bytes.foldl (putChar bufsz) rxFifo).unread bufsz =
        (rxFifo.unread bufsz ++ bytes).drop
          (bufsz * (((rxFifo.unread bufsz).length + bytes.length - 1) / bufsz)) := by
  have hpos : 0 < bufsz := Nat.zero_lt_of_lt h.put
  induction bytes generalizing rxFifo with
  | nil =>
    have hlen := unread_length_le h
    have hquot : ((rxFifo.unread bufsz).length + 0 - 1) / bufsz = 0 :=
      Nat.div_eq_of_lt (by omega)
    refine ⟨h, ?_⟩
    rw [List.length_nil, hquot, Nat.mul_zero, List.drop_zero, List.append_nil]
    rfl
  | cons ch bytes ih =>
    obtain ⟨hrange, hunread⟩ := ih (inRange_putChar h ch)
    refine ⟨hrange, hunread.trans ?_⟩
    have hlen := unread_length_le h
    rw [unread_putChar h]
    by_cases hroom : (rxFifo.unread bufsz).length < bufsz
    · rw [if_pos hroom, List.append_assoc, List.singleton_append, List.length_append,
        List.length_singleton, List.length_cons, Nat.add_assoc, Nat.add_comm 1]
    · -- the FIFO was full: one more whole buffer is dropped
      have hfull : (rxFifo.unread bufsz).length = bufsz := by omega
      have hquot : (bufsz + (bytes.length + 1) - 1) / bufsz = bytes.length / bufsz + 1 := by
        rw [← Nat.add_assoc, Nat.add_sub_cancel, Nat.add_div_left _ hpos]
      have hdrop : (rxFifo.unread bufsz ++ ch :: bytes).drop bufsz = ch :: bytes :=
        List.drop_left' hfull
      rw [if_neg hroom, List.length_singleton, List.singleton_append, List.length_cons, hfull,
        hquot, Nat.mul_succ, Nat.add_comm (bufsz * _), ← List.drop_drop, hdrop,
        Nat.add_comm 1, Nat.add_sub_cancel]

/-- A reader takes the oldest unread byte. -/
theorem takeChar_cases (h : rxFifo.InRange bufsz) :
    (takeChar bufsz rxFifo = none ∧ rxFifo.unread bufsz = []) ∨
      ∃ ch next, takeChar bufsz rxFifo = some (ch, next) ∧ next.InRange bufsz ∧
        rxFifo.unread bufsz = ch :: next.unread bufsz := by
  have hpos : 0 < bufsz := Nat.zero_lt_of_lt h.put
  have hdist : rxLength bufsz rxFifo < bufsz := ringDistance_lt h.put
  have hzero : rxLength bufsz rxFifo = 0 ↔ rxFifo.putIndex = rxFifo.getIndex :=
    ringDistance_eq_zero h.get
  have hnext := ringDistance_next_get h.get h.put
  unfold takeChar
  by_cases hempty : rxFifo.getIndex = rxFifo.putIndex ∧ rxFifo.isFull = false
  · have hnot : ¬ (rxFifo.putIndex = rxFifo.getIndex ∧ rxFifo.isFull = true) := by
      rintro ⟨-, hfull⟩
      rw [hempty.2] at hfull
      exact absurd hfull (by decide)
    refine .inl ⟨if_pos hempty, ?_⟩
    rw [RtSerialRxFifo.unread, if_neg hnot, hzero.mpr hempty.1.symm, ringSlice_zero]
  · let next : RtSerialRxFifo :=
      { rxFifo with getIndex := ringNext bufsz rxFifo.getIndex, isFull := false }
    refine .inr ⟨rxFifo.buffer rxFifo.getIndex, next, if_neg hempty,
      ⟨h.put, ringNext_lt hpos _⟩, ?_⟩
    have hunread : next.unread bufsz = ringSlice bufsz rxFifo.buffer
        (ringNext bufsz rxFifo.getIndex) (rxLength bufsz next) := by
      rw [RtSerialRxFifo.unread, if_neg (fun hfull => Bool.false_ne_true hfull.2)]
    rw [hunread, RtSerialRxFifo.unread]
    by_cases hfull : rxFifo.putIndex = rxFifo.getIndex ∧ rxFifo.isFull = true
    · rw [if_pos hfull.1] at hnext
      have hlen : rxLength bufsz next = bufsz - 1 := hnext
      obtain ⟨n, rfl⟩ : ∃ n, bufsz = n + 1 := ⟨bufsz - 1, by omega⟩
      rw [if_pos hfull, hlen, Nat.add_sub_cancel, ringSlice_cons _ h.get (Nat.lt_succ_self n)]
    · have hne : rxFifo.putIndex ≠ rxFifo.getIndex := by
        intro heq
        refine hfull ⟨heq, ?_⟩
        by_contra hflag
        exact hempty ⟨heq.symm, Bool.eq_false_iff.mpr hflag⟩
      rw [if_neg hne] at hnext
      have hlen : rxLength bufsz next = rxLength bufsz rxFifo - 1 := hnext
      have hone : rxLength bufsz rxFifo ≠ 0 := mt hzero.mp hne
      obtain ⟨n, hn⟩ : ∃ n, rxLength bufsz rxFifo = n + 1 :=
        ⟨rxLength bufsz rxFifo - 1, by omega⟩
      rw [if_neg hfull, hlen, hn, Nat.add_sub_cancel, ringSlice_cons _ h.get (by omega)]

end Unread

/-! ## One interrupt -/

/-- The interrupt leaves room, or drops nothing but what the queue drops. -/
def InterruptFits (bufsz : Nat) (rxIndicate : Bool) (unread received : Nat) : Prop :=
  if rxIndicate then unread + received < bufsz
  else unread + received ≤ bufsz ∨ bufsz ∣ unread + received

instance (bufsz : Nat) (rxIndicate : Bool) (unread received : Nat) :
    Decidable (InterruptFits bufsz rxIndicate unread received) :=
  inferInstanceAs (Decidable (if rxIndicate then _ else _))

/-- Dropping whole buffers and dropping the excess are the same for short inputs and for
whole multiples. -/
theorem mul_div_eq_sub_iff {bufsz n : Nat} (hpos : 0 < bufsz) :
    bufsz * ((n - 1) / bufsz) = n - bufsz ↔ n ≤ bufsz ∨ bufsz ∣ n := by
  have hdivmod := Nat.div_add_mod (n - 1) bufsz
  have hmod := Nat.mod_lt (n - 1) hpos
  constructor
  · intro heq
    by_cases hle : n ≤ bufsz
    · exact .inl hle
    · refine .inr ⟨(n - 1) / bufsz + 1, ?_⟩
      rw [Nat.mul_succ]
      omega
  · rintro (hle | ⟨q, rfl⟩)
    · rw [Nat.div_eq_of_lt (by omega), Nat.mul_zero]
      omega
    · cases q with
      | zero => simp
      | succ q =>
        have hcomm := Nat.mul_comm bufsz (q + 1)
        have hsucc := Nat.add_one_mul q bufsz
        have hquot : (bufsz * (q + 1) - 1) / bufsz = q :=
          Nat.div_eq_of_lt_le (by omega) (by omega)
        rw [hquot, Nat.mul_succ, Nat.add_sub_cancel]

section Interrupt

variable {bufsz : Nat} {rxFifo : RtSerialRxFifo}

/-- The unread bytes are those of the queue, and so is their number. -/
theorem unread_agrees_iff (h : rxFifo.InRange bufsz) (bytes : List UInt8) :
    (bytes.foldl (putChar bufsz) rxFifo).unread bufsz =
        (rxFifo.unread bufsz ++ bytes).drop ((rxFifo.unread bufsz ++ bytes).length - bufsz) ↔
      (rxFifo.unread bufsz).length + bytes.length ≤ bufsz ∨
        bufsz ∣ (rxFifo.unread bufsz).length + bytes.length := by
  have hpos : 0 < bufsz := Nat.zero_lt_of_lt h.put
  rw [(unread_putChars h bytes).2, List.length_append, ← mul_div_eq_sub_iff hpos]
  constructor
  · intro heq
    have hlen := congrArg List.length heq
    have hle := Nat.mul_div_le ((rxFifo.unread bufsz).length + bytes.length - 1) bufsz
    rw [List.length_drop, List.length_drop, List.length_append] at hlen
    omega
  · intro heq
    rw [heq]

/-- The FIFO and the queue agree after an interrupt exactly when it fits. -/
theorem receive_agrees_iff (h : rxFifo.InRange bufsz) (rxIndicate : Bool) (bytes : List UInt8) :
    ((rtHwSerialIsr bufsz rxIndicate rxFifo bytes).1.unread bufsz =
          ((queueBuffer bufsz rxIndicate).receive (rxFifo.unread bufsz) bytes).1 ∧
        (rtHwSerialIsr bufsz rxIndicate rxFifo bytes).2 =
          ((queueBuffer bufsz rxIndicate).receive (rxFifo.unread bufsz) bytes).2) ↔
      InterruptFits bufsz rxIndicate (rxFifo.unread bufsz).length bytes.length := by
  have hpos : 0 < bufsz := Nat.zero_lt_of_lt h.put
  have hagree := unread_agrees_iff h bytes
  have hlength := rxLength_eq (unread_putChars h bytes).1
  have hsize : (rxFifo.unread bufsz ++ bytes).length =
      (rxFifo.unread bufsz).length + bytes.length := List.length_append
  simp only [rtHwSerialIsr, queueBuffer]
  cases rxIndicate with
  | false =>
    simp only [Bool.false_eq_true, false_and, if_false, and_true, InterruptFits]
    exact hagree
  | true =>
    simp only [true_and, InterruptFits, if_true]
    constructor
    · rintro ⟨hunread, hcall⟩
      -- with a full FIFO the interrupt would not call `rx_indicate`
      by_contra hfull
      rw [hunread, List.length_drop, hsize] at hlength
      have hzero : rxLength bufsz (bytes.foldl (putChar bufsz) rxFifo) = 0 := by
        rw [hlength, if_pos (by omega)]
      have hne : (rxFifo.unread bufsz ++ bytes).drop
          ((rxFifo.unread bufsz ++ bytes).length - bufsz) ≠ [] := by
        intro hnil
        have hlen := congrArg List.length hnil
        rw [List.length_drop, hsize, List.length_nil] at hlen
        omega
      rw [if_neg (not_not_intro hzero), if_pos hne] at hcall
      exact absurd hcall (by simp)
    · intro hroom
      have hunread := hagree.mpr (.inl hroom.le)
      refine ⟨hunread, ?_⟩
      rw [hunread, List.length_drop, hsize, if_neg (by omega)] at hlength
      rw [hlength, List.length_drop, hsize]
      have hnil : (rxFifo.unread bufsz ++ bytes).drop
          ((rxFifo.unread bufsz).length + bytes.length - bufsz) = [] ↔
          (rxFifo.unread bufsz).length + bytes.length -
            ((rxFifo.unread bufsz).length + bytes.length - bufsz) = 0 := by
        rw [← List.length_eq_zero_iff, List.length_drop, hsize]
      by_cases hzero : (rxFifo.unread bufsz).length + bytes.length -
          ((rxFifo.unread bufsz).length + bytes.length - bufsz) = 0
      · rw [if_neg (not_not_intro hzero), if_neg (not_not_intro (hnil.mpr hzero))]
      · rw [if_pos hzero, if_pos (mt hnil.mp hzero)]

end Interrupt

/-! ## Over all interleavings -/

section Refinement

variable {τ : Type*} [DecidableEq τ]

/-- The device behaves as the queue: the same bytes are readable, and the same calls have
been made, are in progress and have returned. -/
structure Agrees (bufsz : Nat) (s : SerialState RtSerialRxFifo τ)
    (q : SerialState (List UInt8) τ) : Prop where
  inRange : s.rx.InRange bufsz
  unread : s.rx.unread bufsz = q.rx
  calls : s.calls = q.calls
  returned : s.returned = q.returned
  indicated : s.indicated = q.indicated

/-- Each interrupt of the step fits. -/
def StepFits (bufsz : Nat) (rxIndicate : Bool) (s : SerialState RtSerialRxFifo τ) :
    SerialStep τ → Prop
  | .interrupt bytes => InterruptFits bufsz rxIndicate (s.rx.unread bufsz).length bytes.length
  | _ => True

instance (bufsz : Nat) (rxIndicate : Bool) (s : SerialState RtSerialRxFifo τ) :
    (step : SerialStep τ) → Decidable (StepFits bufsz rxIndicate s step)
  | .interrupt bytes =>
      inferInstanceAs (Decidable (InterruptFits bufsz rxIndicate (s.rx.unread bufsz).length
        bytes.length))
  | .read _ _ => isTrue trivial
  | .pass _ => isTrue trivial

variable {bufsz : Nat} {rxIndicate : Bool} {s : SerialState RtSerialRxFifo τ}
  {q : SerialState (List UInt8) τ}

theorem toList_injective {α : Type*} {a b : Option α} (h : a.toList = b.toList) : a = b := by
  have hhead := congrArg List.head? h
  rwa [Option.head?_toList, Option.head?_toList] at hhead

/-- Reading calls are never the reason for a difference. -/
theorem agrees_read (h : Agrees bufsz s q) (thread : τ) (size : Nat)
    {s' : SerialState RtSerialRxFifo τ}
    (hstep : (serial (fifoBuffer bufsz rxIndicate)).step s (.read thread size) = some s') :
    ∃ q', (serial (queueBuffer bufsz rxIndicate)).step q (.read thread size) = some q' ∧
      Agrees bufsz s' q' := by
  obtain ⟨hrange, hunread, hcalls, hreturned, hindicated⟩ := h
  simp only [serial, hcalls] at hstep ⊢
  cases hcall : q.calls thread with
  | some call => simp [hcall] at hstep
  | none =>
    rw [hcall] at hstep
    by_cases hsize : size = 0
    · rw [if_pos hsize] at hstep ⊢
      obtain rfl := Option.some.inj hstep
      exact ⟨_, rfl, hrange, hunread, rfl, by rw [hreturned], hindicated⟩
    · rw [if_neg hsize] at hstep ⊢
      obtain rfl := Option.some.inj hstep
      exact ⟨_, rfl, hrange, hunread, rfl, hreturned, hindicated⟩

theorem agrees_finish (h : Agrees bufsz s q) (thread : τ) (call : ReadCall) :
    Agrees bufsz (s.finish thread call) (q.finish thread call) where
  inRange := h.inRange
  unread := h.unread
  calls := by simp only [SerialState.finish, h.calls]
  returned := congrArg (fun returned => returned ++ [(thread, call.data)]) h.returned
  indicated := h.indicated

theorem agrees_pass (h : Agrees bufsz s q) (thread : τ) {s' : SerialState RtSerialRxFifo τ}
    (hstep : (serial (fifoBuffer bufsz rxIndicate)).step s (.pass thread) = some s') :
    ∃ q', (serial (queueBuffer bufsz rxIndicate)).step q (.pass thread) = some q' ∧
      Agrees bufsz s' q' := by
  simp only [serial, h.calls] at hstep ⊢
  cases hcall : q.calls thread with
  | none => simp [hcall] at hstep
  | some call =>
    rw [hcall] at hstep
    dsimp only at hstep ⊢
    by_cases hlength : call.length = 0
    · rw [if_pos hlength] at hstep ⊢
      obtain rfl := Option.some.inj hstep
      exact ⟨_, rfl, agrees_finish h thread call⟩
    · rw [if_neg hlength] at hstep ⊢
      simp only [fifoBuffer] at hstep
      rcases takeChar_cases h.inRange with ⟨hnone, hempty⟩ | ⟨ch, next, hsome, hnext, hhead⟩
      · rw [hnone] at hstep
        obtain rfl := Option.some.inj hstep
        rw [h.unread] at hempty
        refine ⟨q.finish thread call, ?_, agrees_finish h thread call⟩
        rw [hempty]
        rfl
      · rw [hsome] at hstep
        obtain rfl := Option.some.inj hstep
        rw [h.unread] at hhead
        refine ⟨{ q with
          rx := next.unread bufsz
          calls := Function.update q.calls thread
            (some ⟨call.length - 1, call.data ++ [ch]⟩) }, ?_, ?_⟩
        · rw [hhead]
          rfl
        · exact ⟨hnext, rfl, rfl, h.returned, h.indicated⟩

/-- A step of the device can be followed by the queue exactly when it fits. -/
theorem agrees_step_iff (h : Agrees bufsz s q) (step : SerialStep τ) :
    (∀ s', (serial (fifoBuffer bufsz rxIndicate)).step s step = some s' →
        ∃ q', (serial (queueBuffer bufsz rxIndicate)).step q step = some q' ∧
          Agrees bufsz s' q') ↔
      StepFits bufsz rxIndicate s step := by
  cases step with
  | read thread size =>
    exact ⟨fun _ => trivial, fun _ s' hstep => agrees_read h thread size hstep⟩
  | pass thread => exact ⟨fun _ => trivial, fun _ s' hstep => agrees_pass h thread hstep⟩
  | interrupt bytes =>
    have hagree := receive_agrees_iff h.inRange rxIndicate bytes
    rw [StepFits, ← hagree]
    have hrange := (unread_putChars h.inRange bytes).1
    constructor
    · intro hall
      obtain ⟨q', hq', hrel⟩ := hall _ rfl
      obtain rfl := Option.some.inj hq'
      have hlist : (rtHwSerialIsr bufsz rxIndicate s.rx bytes).2.toList =
          ((queueBuffer bufsz rxIndicate).receive q.rx bytes).2.toList := by
        have hcalls := hrel.indicated
        dsimp only at hcalls
        rw [h.indicated] at hcalls
        exact List.append_cancel_left hcalls
      rw [h.unread]
      exact ⟨hrel.unread, toList_injective hlist⟩
    · rintro ⟨hunread, hcall⟩ s' hstep
      obtain rfl := Option.some.inj hstep
      refine ⟨_, rfl, hrange, ?_, h.calls, h.returned, ?_⟩
      · rw [← h.unread]
        exact hunread
      · rw [← h.indicated, ← h.unread]
        exact congrArg (fun call => s.indicated ++ call.toList) hcall

/-- The FIFO of `rt_serial_open`. -/
def RtSerialRxFifo.opened : RtSerialRxFifo where
  buffer := fun _ => 0
  putIndex := 0
  getIndex := 0
  isFull := false

/-- A device that has just been opened. -/
def SerialState.opened {σ : Type*} (rx : σ) : SerialState σ τ where
  rx := rx
  calls := fun _ => none
  returned := []
  indicated := []

omit [DecidableEq τ] in
theorem agrees_opened (hpos : 0 < bufsz) :
    Agrees bufsz (.opened .opened : SerialState RtSerialRxFifo τ) (.opened []) where
  inRange := ⟨hpos, hpos⟩
  unread := by
    have hempty : ¬ ((0 : Nat) = 0 ∧ false = true) := fun h => Bool.false_ne_true h.2
    have hzero : rxLength bufsz .opened = 0 := (ringDistance_eq_zero hpos).mpr rfl
    rw [RtSerialRxFifo.unread, SerialState.opened, hzero]
    exact congrArg _ (if_neg hempty)
  calls := rfl
  returned := rfl
  indicated := rfl

/-- The FIFO behaves as the queue through a whole run exactly when each of its interrupts
fits. -/
theorem serialFifo_lockStep_iff (hpos : 0 < bufsz) (rxIndicate : Bool)
    (steps : List (SerialStep τ)) :
    (serial (fifoBuffer bufsz rxIndicate)).LockStep (serial (queueBuffer bufsz rxIndicate))
        (Agrees bufsz) (.opened .opened) (.opened []) steps ↔
      (serial (fifoBuffer bufsz rxIndicate)).Admitted (StepFits bufsz rxIndicate)
        (.opened .opened) steps :=
  Machine.lockStep_iff_admitted (fun _ _ step h => agrees_step_iff h step) steps
    (agrees_opened hpos)

/-- A byte that comes between two reads of a FIFO of two bytes. -/
theorem serialFifo_lockStep_short :
    (serial (fifoBuffer 2 true)).LockStep (serial (queueBuffer 2 true)) (Agrees 2)
      (.opened .opened) (.opened []) [.interrupt [97], .read () 1, .pass (), .interrupt [98]] := by
  refine (serialFifo_lockStep_iff (by decide) true _).mpr ?_
  refine ⟨by decide, fun s hs => ?_⟩
  obtain rfl := Option.some.inj hs
  refine ⟨trivial, fun s hs => ?_⟩
  obtain rfl := Option.some.inj hs
  refine ⟨trivial, fun s hs => ?_⟩
  obtain rfl := Option.some.inj hs
  exact ⟨by decide, fun s hs => trivial⟩

/-- The 65th byte costs all 64 bytes that were in the FIFO. -/
theorem not_serialFifo_lockStep_65 :
    ¬ (serial (fifoBuffer 64 false)).LockStep (serial (queueBuffer 64 false)) (Agrees 64)
      (.opened .opened : SerialState RtSerialRxFifo Unit) (.opened [])
      [.interrupt (List.replicate 64 97), .interrupt [98]] := by
  intro h
  obtain ⟨q, hq, hagrees⟩ := h _ [] (List.append_nil _).symm _ rfl
  have hqueue : q.rx.length = 64 := by
    rw [← Option.some.inj hq]
    decide
  have hlen := congrArg List.length hagrees.unread
  rw [hqueue] at hlen
  revert hlen
  decide +kernel

end Refinement

end Gd32Vw553h.Serial
