/-
  Serial/DmaRx.lean --- receiving by DMA (`components/drivers/serial/dev_serial.c`).

  The hardware stores the received bytes cyclically into the buffer of the FIFO and
  announces them batch by batch.  The interrupt moves `put_index` on by the length of the
  batch and, when that reaches unread bytes, drops them by moving `get_index` too.  A
  reading call copies at most two ranges of the buffer.

  `rxDmadone_spec`, `recvData_small` and `updateGetIndex_spec` say what the two sides do;
  `dmaRx_lockStep_iff` compares the device with a queue of the newest `bufsz` unread bytes.

  `RT_ASSERT` is not compiled in.
-/
import Gd32Vw553h.Kernel.RtDef
import Gd32Vw553h.Serial.Fifo

set_option autoImplicit false

namespace Gd32Vw553h.Serial

open Gd32Vw553h.Foundation Gd32Vw553h.Kernel

/-! ## The code -/

/-- `2^16`: both indices are `rt_uint16_t`. -/
abbrev halfWordSize : Nat := 65536

section Code

variable (bufsz : Nat)

/-- `_serial_fifo_calc_recved_len` -/
def rtDmaCalcRecvedLen (rxFifo : RtSerialRxFifo) : Nat :=
  if rxFifo.putIndex = rxFifo.getIndex then
    if rxFifo.isFull = false then 0 else bufsz
  else if rxFifo.putIndex > rxFifo.getIndex then rxFifo.putIndex - rxFifo.getIndex
  else bufsz - (rxFifo.getIndex - rxFifo.putIndex)

/-- `rt_dma_recv_update_get_index` -/
def rtDmaRecvUpdateGetIndex (rxFifo : RtSerialRxFifo) (len : Nat) : RtSerialRxFifo :=
  let isFull := if rxFifo.isFull = true ∧ len ≠ 0 then false else rxFifo.isFull
  let getIndex := (rxFifo.getIndex + len % halfWordSize) % halfWordSize
  { rxFifo with
    getIndex := if getIndex ≥ bufsz then getIndex % bufsz else getIndex
    isFull := isFull }

/-- `rt_dma_recv_update_put_index` -/
def rtDmaRecvUpdatePutIndex (rxFifo : RtSerialRxFifo) (len : Nat) : RtSerialRxFifo :=
  let putIndex := (rxFifo.putIndex + len % halfWordSize) % halfWordSize
  let moved : RtSerialRxFifo :=
    if rxFifo.getIndex ≤ rxFifo.putIndex then
      if putIndex ≥ bufsz then
        { rxFifo with
          putIndex := putIndex % bufsz
          isFull := if putIndex % bufsz ≥ rxFifo.getIndex then true else rxFifo.isFull }
      else { rxFifo with putIndex := putIndex }
    else
      if putIndex ≥ rxFifo.getIndex then
        { rxFifo with
          putIndex := if putIndex ≥ bufsz then putIndex % bufsz else putIndex
          isFull := true }
      else { rxFifo with putIndex := putIndex }
  if moved.isFull = true then { moved with getIndex := moved.putIndex } else moved

/-- A call of `rt_memcpy` that reads `buffer` from `src` on. -/
structure Memcpy where
  dst : Nat
  src : Nat
  len : Nat
deriving DecidableEq

/-- What the destination holds after a copy. -/
def Memcpy.run (buffer : Nat → UInt8) (data : Nat → UInt8) (c : Memcpy) : Nat → UInt8 := fun i =>
  if c.dst ≤ i ∧ i < c.dst + c.len then buffer (c.src + (i - c.dst)) else data i

/-- `recv_len` of `_serial_dma_rx`: `length` is the size as an `int`. -/
def recvLen (rxFifo : RtSerialRxFifo) (size : Nat) : Nat :=
  if Int.bmod size wordSize < rtDmaCalcRecvedLen bufsz rxFifo then size
  else rtDmaCalcRecvedLen bufsz rxFifo

/-- The copies of `_serial_dma_rx`. -/
def recvCopies (rxFifo : RtSerialRxFifo) (size : Nat) : List Memcpy :=
  let behind := (rxFifo.getIndex + recvLen bufsz rxFifo size) % wordSize
  if behind < bufsz then [⟨0, rxFifo.getIndex, recvLen bufsz rxFifo size⟩]
  else
    [⟨0, rxFifo.getIndex, bufsz - rxFifo.getIndex⟩,
      ⟨bufsz - rxFifo.getIndex, 0, behind - bufsz⟩]

/-- The first `recv_len` bytes of the destination after the copies. -/
def recvData (rxFifo : RtSerialRxFifo) (size : Nat) : List UInt8 :=
  (List.range (recvLen bufsz rxFifo size)).map
    ((recvCopies bufsz rxFifo size).foldl (Memcpy.run rxFifo.buffer) fun _ => 0)

/-- The event for a batch of `length` bytes: `RT_SERIAL_EVENT_RX_DMADONE | (length << 8)`. -/
def rxDmadone (length : Nat) : Nat := length * 256 + 0x03

/-- `(event & (~0xff)) >> 8` -/
def eventLength (event : Nat) : Nat := (event - event % 256) / 256

end Code

/-- A serial device in DMA mode. -/
structure DmaSerial where
  rxFifo : RtSerialRxFifo
  /-- where the hardware stores the next byte -/
  position : Nat
  /-- the received lengths that the interrupts have computed -/
  lengths : List Nat
  /-- what the reading calls have returned -/
  returned : List (List UInt8)
  /-- the copies that the reading calls have made -/
  copies : List Memcpy

inductive DmaStep where
  /-- the hardware has stored these bytes, and the interrupt announces them -/
  | rxDmadone (bytes : List UInt8)
  /-- `rt_serial_read` -/
  | read (size : UInt32)

/-- The hardware, the interrupt and reading calls.  A batch has at most `bufsz` bytes. -/
def dmaSerial (bufsz : Nat) : Machine DmaSerial DmaStep where
  step s
    | .rxDmadone bytes =>
        if bytes.length ≤ bufsz then
          let stored : RtSerialRxFifo :=
            { s.rxFifo with buffer := ringWrite bufsz s.rxFifo.buffer s.position bytes }
          let rxFifo := rtDmaRecvUpdatePutIndex bufsz stored (eventLength (rxDmadone bytes.length))
          some { s with
            rxFifo := rxFifo
            position := (s.position + bytes.length) % bufsz
            lengths := s.lengths ++ [rtDmaCalcRecvedLen bufsz rxFifo] }
        else none
    | .read size =>
        if size.toNat = 0 then some { s with returned := s.returned ++ [[]] }
        else
          some { s with
            rxFifo := rtDmaRecvUpdateGetIndex bufsz s.rxFifo (recvLen bufsz s.rxFifo size.toNat)
            returned := s.returned ++ [recvData bufsz s.rxFifo size.toNat]
            copies := s.copies ++ recvCopies bufsz s.rxFifo size.toNat }

/-! ## The queue -/

/-- The newest unread bytes, and how many bytes there have ever been. -/
structure DmaQueue where
  unread : List UInt8
  total : Nat
  lengths : List Nat
  returned : List (List UInt8)

/-- A queue that keeps the newest `bufsz` bytes. -/
def dmaQueue (bufsz : Nat) : Machine DmaQueue DmaStep where
  step q
    | .rxDmadone bytes =>
        let unread := (q.unread ++ bytes).drop ((q.unread ++ bytes).length - bufsz)
        some { q with
          unread := unread
          total := q.total + bytes.length
          lengths := q.lengths ++ [unread.length] }
    | .read size =>
        some { q with
          unread := q.unread.drop size.toNat
          returned := q.returned ++ [q.unread.take size.toNat] }

/-- The device behaves as the queue, and no copy has left the buffer. -/
structure DmaAgrees (bufsz : Nat) (s : DmaSerial) (q : DmaQueue) : Prop where
  inRange : s.rxFifo.InRange bufsz
  full : s.rxFifo.isFull = true → s.rxFifo.putIndex = s.rxFifo.getIndex
  position : s.position = s.rxFifo.putIndex
  putIndex : s.rxFifo.putIndex = q.total % bufsz
  unread : s.rxFifo.unread bufsz = q.unread
  lengths : s.lengths = q.lengths
  returned : s.returned = q.returned
  copies : ∀ c ∈ s.copies, c.src + c.len ≤ bufsz

/-- The size of a read is no negative `int`. -/
def ReadFits (_ : DmaSerial) : DmaStep → Prop
  | .rxDmadone _ => True
  | .read size => size.toNat < 2147483648

/-! ## The two sides -/

section Sides

variable {bufsz : Nat} {rxFifo : RtSerialRxFifo}

theorem eventLength_rxDmadone (length : Nat) : eventLength (rxDmadone length) = length := by
  unfold eventLength rxDmadone
  omega

theorem calcRecvedLen_eq (h : rxFifo.InRange bufsz) :
    rtDmaCalcRecvedLen bufsz rxFifo = (rxFifo.unread bufsz).length := by
  have hput := h.put
  have hget := h.get
  rw [RtSerialRxFifo.unread, ringSlice_length, rtDmaCalcRecvedLen, rxLength, ringDistance]
  cases rxFifo.isFull with
  | true =>
    simp only [Bool.true_eq_false, if_false, and_true]
    split_ifs <;> omega
  | false =>
    simp only [Bool.false_eq_true, if_true, and_false, if_false]
    split_ifs <;> omega

/-- The unread bytes end in front of `put_index`. -/
theorem unread_eq_slice (h : rxFifo.InRange bufsz) :
    rxFifo.unread bufsz =
        ringSlice bufsz rxFifo.buffer rxFifo.getIndex (rtDmaCalcRecvedLen bufsz rxFifo) ∧
      rtDmaCalcRecvedLen bufsz rxFifo ≤ bufsz ∧
      ringIndex bufsz rxFifo.getIndex (rtDmaCalcRecvedLen bufsz rxFifo) = rxFifo.putIndex := by
  have hput := h.put
  have hget := h.get
  have hlength := calcRecvedLen_eq h
  refine ⟨?_, hlength ▸ unread_length_le h, ?_⟩
  · rw [RtSerialRxFifo.unread, ringSlice_length] at hlength
    rw [RtSerialRxFifo.unread, hlength]
  · unfold rtDmaCalcRecvedLen ringIndex
    split_ifs <;> omega

/-- The received length of a FIFO that is not full. -/
theorem calcRecvedLen_of_not_full (hget : rxFifo.getIndex < bufsz) {n : Nat} (hn : n < bufsz)
    (hput : rxFifo.putIndex = ringIndex bufsz rxFifo.getIndex n) (hfull : rxFifo.isFull = false) :
    rtDmaCalcRecvedLen bufsz rxFifo = n := by
  unfold rtDmaCalcRecvedLen
  rw [hput, if_pos hfull]
  unfold ringIndex
  split_ifs <;> omega

theorem calcRecvedLen_lt (h : rxFifo.InRange bufsz) (hfull : rxFifo.isFull = false) :
    rtDmaCalcRecvedLen bufsz rxFifo < bufsz := by
  have hput := h.put
  have hget := h.get
  unfold rtDmaCalcRecvedLen
  rw [if_pos hfull]
  split_ifs <;> omega

theorem calcRecvedLen_of_full (hput : rxFifo.putIndex = rxFifo.getIndex)
    (hfull : rxFifo.isFull = true) : rtDmaCalcRecvedLen bufsz rxFifo = bufsz := by
  rw [rtDmaCalcRecvedLen, if_pos hput, if_neg (by rw [hfull]; decide)]

/-- The received length by the order of the indices. -/
theorem calcRecvedLen_cases (hfull : rxFifo.isFull = true → rxFifo.putIndex = rxFifo.getIndex) :
    (rxFifo.isFull = true ∧ rxFifo.putIndex = rxFifo.getIndex ∧
        rtDmaCalcRecvedLen bufsz rxFifo = bufsz) ∨
      (rxFifo.isFull = false ∧
        (rxFifo.getIndex ≤ rxFifo.putIndex →
          rtDmaCalcRecvedLen bufsz rxFifo = rxFifo.putIndex - rxFifo.getIndex) ∧
        (rxFifo.putIndex < rxFifo.getIndex →
          rtDmaCalcRecvedLen bufsz rxFifo = bufsz - (rxFifo.getIndex - rxFifo.putIndex))) := by
  cases hflag : rxFifo.isFull with
  | true => exact .inl ⟨rfl, hfull hflag, calcRecvedLen_of_full (hfull hflag) hflag⟩
  | false =>
    refine .inr ⟨rfl, fun horder => ?_, fun horder => ?_⟩
    · rw [rtDmaCalcRecvedLen, if_pos hflag]
      split_ifs <;> omega
    · rw [rtDmaCalcRecvedLen, if_neg (by omega), if_neg (by omega)]

/-- Dropping what does not fit moves the first index to where the second one goes. -/
theorem ringIndex_dropped {get count len : Nat} (hget : get < bufsz) (hcount : count ≤ bufsz)
    (hlen : len ≤ bufsz) :
    ringIndex bufsz get (count + len - bufsz) =
      if bufsz ≤ count + len then ringIndex bufsz (ringIndex bufsz get count) len else get := by
  unfold ringIndex
  split_ifs <;> omega

/-- The interrupt moves `put_index` on, and drops what does not fit. -/
theorem updatePutIndex_eq (hmax : bufsz ≤ 32768) (h : rxFifo.InRange bufsz)
    (hfull : rxFifo.isFull = true → rxFifo.putIndex = rxFifo.getIndex) {len : Nat}
    (hlen : len ≤ bufsz) :
    rtDmaRecvUpdatePutIndex bufsz rxFifo len =
      { rxFifo with
        putIndex := ringIndex bufsz rxFifo.putIndex len
        getIndex := ringIndex bufsz rxFifo.getIndex
          (rtDmaCalcRecvedLen bufsz rxFifo + len - bufsz)
        isFull := decide (bufsz ≤ rtDmaCalcRecvedLen bufsz rxFifo + len) } := by
  obtain ⟨-, hle, hindex⟩ := unread_eq_slice h
  have hcount := @calcRecvedLen_cases bufsz _ hfull
  have hput := h.put
  have hget := h.get
  have hdropped := ringIndex_dropped hget hle hlen
  rw [hindex] at hdropped
  generalize rtDmaCalcRecvedLen bufsz rxFifo = count at *
  have hword : (rxFifo.putIndex + len % halfWordSize) % halfWordSize = rxFifo.putIndex + len := by
    unfold halfWordSize
    omega
  have hwrap : rxFifo.putIndex + len ≥ bufsz →
      (rxFifo.putIndex + len) % bufsz = rxFifo.putIndex + len - bufsz := by
    intro hover
    rw [Nat.mod_eq_sub_mod hover, Nat.mod_eq_of_lt (by omega)]
  have hplace : ringIndex bufsz rxFifo.putIndex len =
      if rxFifo.putIndex + len ≥ bufsz then (rxFifo.putIndex + len) % bufsz
      else rxFifo.putIndex + len := by
    unfold ringIndex
    by_cases hover : rxFifo.putIndex + len ≥ bufsz
    · rw [if_pos hover, if_neg (Nat.not_lt.mpr hover), hwrap hover]
    · rw [if_neg hover, if_pos (Nat.not_le.mp hover)]
  -- with the flag, `get_index` follows
  have hfollows : ∀ moved : RtSerialRxFifo,
      moved = { rxFifo with
        putIndex := ringIndex bufsz rxFifo.putIndex len
        isFull := decide (bufsz ≤ count + len) } →
      (if moved.isFull = true then { moved with getIndex := moved.putIndex } else moved) =
        { rxFifo with
          putIndex := ringIndex bufsz rxFifo.putIndex len
          getIndex := ringIndex bufsz rxFifo.getIndex (count + len - bufsz)
          isFull := decide (bufsz ≤ count + len) } := by
    rintro _ rfl
    by_cases hreach : bufsz ≤ count + len
    · rw [hdropped, if_pos hreach, if_pos (decide_eq_true hreach)]
    · rw [hdropped, if_neg hreach, if_neg (by simpa using hreach)]
  refine hfollows _ ?_
  rw [hword, hplace]
  by_cases horder : rxFifo.getIndex ≤ rxFifo.putIndex
  · rw [if_pos horder]
    by_cases hover : rxFifo.putIndex + len ≥ bufsz
    · have hflag : (if (rxFifo.putIndex + len) % bufsz ≥ rxFifo.getIndex then true
          else rxFifo.isFull) = decide (bufsz ≤ count + len) := by
        rw [hwrap hover]
        rcases hcount with ⟨htrue, -, hsize⟩ | ⟨hfalse, hbehind, -⟩
        · rw [htrue, ite_self, decide_eq_true (by omega)]
        · have hcount := hbehind horder
          by_cases hreach : rxFifo.putIndex + len - bufsz ≥ rxFifo.getIndex
          · rw [if_pos hreach, decide_eq_true (by omega)]
          · rw [if_neg hreach, hfalse, decide_eq_false (by omega)]
      rw [if_pos hover, if_pos hover, hflag]
    · have hflag : rxFifo.isFull = decide (bufsz ≤ count + len) := by
        rcases hcount with ⟨htrue, -, hsize⟩ | ⟨hfalse, hbehind, -⟩
        · rw [htrue, decide_eq_true (by omega)]
        · have hcount := hbehind horder
          rw [hfalse, decide_eq_false (by omega)]
      rw [if_neg hover, if_neg hover, ← hflag]
  · have hahead : bufsz - (rxFifo.getIndex - rxFifo.putIndex) = count ∧ rxFifo.isFull = false := by
      rcases hcount with ⟨-, hmeet, -⟩ | ⟨hfalse, -, hahead⟩
      · exact absurd hmeet.ge horder
      · exact ⟨(hahead (Nat.not_le.mp horder)).symm, hfalse⟩
    rw [if_neg horder]
    by_cases hreach : rxFifo.putIndex + len ≥ rxFifo.getIndex
    · rw [if_pos hreach, decide_eq_true (by omega)]
    · rw [if_neg hreach, if_neg (by omega), decide_eq_false (by omega), ← hahead.2]

/-- What the interrupt leaves of the FIFO. -/
theorem rxDmadone_spec (hmax : bufsz ≤ 32768) (h : rxFifo.InRange bufsz)
    (hfull : rxFifo.isFull = true → rxFifo.putIndex = rxFifo.getIndex) {bytes : List UInt8}
    (hlen : bytes.length ≤ bufsz) {next : RtSerialRxFifo}
    (hnext : next = rtDmaRecvUpdatePutIndex bufsz
      { rxFifo with buffer := ringWrite bufsz rxFifo.buffer rxFifo.putIndex bytes }
      bytes.length) :
    next.InRange bufsz ∧ (next.isFull = true → next.putIndex = next.getIndex) ∧
      next.putIndex = ringIndex bufsz rxFifo.putIndex bytes.length ∧
      next.unread bufsz = (rxFifo.unread bufsz ++ bytes).drop
        ((rxFifo.unread bufsz ++ bytes).length - bufsz) := by
  obtain ⟨hunread, hle, hput⟩ := unread_eq_slice h
  have hstored : ({ rxFifo with
      buffer := ringWrite bufsz rxFifo.buffer rxFifo.putIndex bytes } : RtSerialRxFifo).InRange
        bufsz := ⟨h.put, h.get⟩
  rw [updatePutIndex_eq hmax hstored hfull hlen] at hnext
  have hcount : rtDmaCalcRecvedLen bufsz { rxFifo with
      buffer := ringWrite bufsz rxFifo.buffer rxFifo.putIndex bytes } =
        rtDmaCalcRecvedLen bufsz rxFifo := rfl
  rw [hcount] at hnext
  rw [hunread, List.length_append, ringSlice_length]
  generalize rtDmaCalcRecvedLen bufsz rxFifo = count at *
  have hget := h.get
  have hput' := h.put
  have hbuffer : next.buffer = ringWrite bufsz rxFifo.buffer rxFifo.putIndex bytes := by rw [hnext]
  have hnextput : next.putIndex = ringIndex bufsz rxFifo.putIndex bytes.length := by rw [hnext]
  have hnextget : next.getIndex =
      ringIndex bufsz rxFifo.getIndex (count + bytes.length - bufsz) := by rw [hnext]
  have hnextfull : next.isFull = decide (bufsz ≤ count + bytes.length) := by rw [hnext]
  have hrange : next.InRange bufsz := by
    refine ⟨?_, ?_⟩
    · rw [hnextput]
      exact ringIndex_lt hput' hlen
    · rw [hnextget]
      exact ringIndex_lt hget (by omega)
  have hmeet : next.isFull = true → next.putIndex = next.getIndex := by
    intro hover
    rw [hnextfull, decide_eq_true_eq] at hover
    rw [hnextput, hnextget, ← hput]
    unfold ringIndex
    split_ifs <;> omega
  refine ⟨hrange, hmeet, hnextput, ?_⟩
  -- the bytes that are dropped, and those that stay in front of the batch
  have hkept : count - (count + bytes.length - bufsz) + bytes.length ≤ bufsz := by omega
  have hbehind : ringIndex bufsz (ringIndex bufsz rxFifo.getIndex (count + bytes.length - bufsz))
      (count - (count + bytes.length - bufsz)) = rxFifo.putIndex := by
    rw [ringIndex_add hget (by omega), ← hput]
    exact congrArg _ (by omega)
  have hnextcount : rtDmaCalcRecvedLen bufsz next =
      count - (count + bytes.length - bufsz) + bytes.length := by
    rcases Nat.lt_or_ge (count + bytes.length) bufsz with hroom | hover
    · have hnone : count + bytes.length - bufsz = 0 := by omega
      rw [hnone, Nat.sub_zero]
      refine calcRecvedLen_of_not_full hrange.get hroom ?_ ?_
      · rw [hnextput, hnextget, hnone, ← hput]
        unfold ringIndex
        split_ifs <;> omega
      · rw [hnextfull]
        exact decide_eq_false (Nat.not_le.mpr hroom)
    · have htrue : next.isFull = true := by
        rw [hnextfull]
        exact decide_eq_true hover
      rw [calcRecvedLen_of_full (hmeet htrue) htrue]
      omega
  obtain ⟨hslice, -, -⟩ := unread_eq_slice hrange
  rw [hslice, hnextcount, hbuffer, hnextget, ← hbehind,
    ringSlice_ringWrite _ (ringIndex_lt hget (by omega)) hkept,
    List.drop_append_of_le_length (by rw [ringSlice_length]; omega),
    ringSlice_drop _ hget hle (by omega)]

/-- The length of a read that is no negative `int`. -/
theorem recvLen_small (h : rxFifo.InRange bufsz) {size : Nat}
    (hsize : size < 2147483648) :
    recvLen bufsz rxFifo size = min size (rtDmaCalcRecvedLen bufsz rxFifo) := by
  have hle := (unread_eq_slice h).2.1
  have hsigned : Int.bmod size wordSize = size := by
    refine Int.bmod_eq_of_le (by omega) ?_
    unfold wordSize
    omega
  unfold recvLen
  rw [hsigned]
  split_ifs with hless <;> omega

/-- A read that is no negative `int` copies the oldest unread bytes from inside the buffer. -/
theorem recvData_small (hmax : bufsz ≤ 32768) (h : rxFifo.InRange bufsz) {size : Nat}
    (hsize : size < 2147483648) :
    (∀ c ∈ recvCopies bufsz rxFifo size, c.src + c.len ≤ bufsz) ∧
      recvData bufsz rxFifo size = (rxFifo.unread bufsz).take size := by
  obtain ⟨hunread, hle, -⟩ := unread_eq_slice h
  have hget := h.get
  have hmin := recvLen_small h hsize
  have hlength : recvLen bufsz rxFifo size ≤ rtDmaCalcRecvedLen bufsz rxFifo := by omega
  have htake : (rxFifo.unread bufsz).take size =
      ringSlice bufsz rxFifo.buffer rxFifo.getIndex (recvLen bufsz rxFifo size) := by
    rw [hunread, List.take_eq_take_min, ringSlice_length, ← hmin]
    exact ringSlice_take _ hget hle hlength
  rw [htake]
  unfold recvData recvCopies
  generalize recvLen bufsz rxFifo size = n at *
  have hword : (rxFifo.getIndex + n) % wordSize = rxFifo.getIndex + n := by
    unfold wordSize
    omega
  rw [hword]
  dsimp only
  by_cases hstraight : rxFifo.getIndex + n < bufsz
  · rw [if_pos hstraight]
    refine ⟨?_, List.map_congr_left fun i hi => ?_⟩
    · rintro c hc
      rw [List.mem_singleton.mp hc]
      exact hstraight.le
    · have hlt : i < n := List.mem_range.mp hi
      have hindex : ringIndex bufsz rxFifo.getIndex i = rxFifo.getIndex + i := if_pos (by omega)
      rw [hindex, List.foldl_cons, List.foldl_nil, Memcpy.run]
      refine if_pos ⟨Nat.zero_le _, ?_⟩
      show i < 0 + n
      omega
  · rw [if_neg hstraight]
    refine ⟨?_, List.map_congr_left fun i hi => ?_⟩
    · rintro c hc
      rcases List.mem_pair.mp hc with rfl | rfl
      · dsimp only
        omega
      · dsimp only
        omega
    · have hlt : i < n := List.mem_range.mp hi
      rw [List.foldl_cons, List.foldl_cons, List.foldl_nil, Memcpy.run, Memcpy.run, ringIndex]
      dsimp only
      by_cases hfirst : rxFifo.getIndex + i < bufsz
      · rw [if_neg (by omega), if_pos ⟨Nat.zero_le _, by omega⟩, if_pos hfirst]
        rfl
      · rw [if_pos ⟨by omega, by omega⟩, if_neg hfirst]
        exact congrArg _ (by omega)

/-- A read that is a negative `int` copies more than the buffer holds. -/
theorem recvCopies_large (hmax : bufsz ≤ 32768) (h : rxFifo.InRange bufsz) {size : Nat}
    (hsize : 2147483648 ≤ size) (hword : size < wordSize) :
    ∃ c ∈ recvCopies bufsz rxFifo size, bufsz < c.src + c.len := by
  have hget := h.get
  have hnegative : Int.bmod size wordSize < rtDmaCalcRecvedLen bufsz rxFifo := by
    unfold wordSize at *
    rw [Int.bmod]
    split_ifs <;> omega
  have hlength : recvLen bufsz rxFifo size = size := if_pos hnegative
  unfold recvCopies
  rw [hlength]
  unfold wordSize at *
  dsimp only
  by_cases hbehind : (rxFifo.getIndex + size) % 4294967296 < bufsz
  · rw [if_pos hbehind]
    refine ⟨_, List.mem_singleton.mpr rfl, ?_⟩
    dsimp only
    omega
  · rw [if_neg hbehind]
    refine ⟨_, List.mem_pair.mpr (.inr rfl), ?_⟩
    dsimp only
    omega

/-- What a read that is no negative `int` leaves of the FIFO. -/
theorem updateGetIndex_spec (hmax : bufsz ≤ 32768) (h : rxFifo.InRange bufsz)
    (hfull : rxFifo.isFull = true → rxFifo.putIndex = rxFifo.getIndex) {size : Nat}
    (hsize : size < 2147483648) {next : RtSerialRxFifo}
    (hnext : next = rtDmaRecvUpdateGetIndex bufsz rxFifo (recvLen bufsz rxFifo size)) :
    next.InRange bufsz ∧ (next.isFull = true → next.putIndex = next.getIndex) ∧
      next.putIndex = rxFifo.putIndex ∧
      next.unread bufsz = (rxFifo.unread bufsz).drop size := by
  obtain ⟨hunread, hle, hput⟩ := unread_eq_slice h
  have hmin := recvLen_small h hsize
  have hget := h.get
  have hput' := h.put
  have hdrop : (rxFifo.unread bufsz).drop size =
      (rxFifo.unread bufsz).drop (recvLen bufsz rxFifo size) := by
    rw [hunread, hmin]
    rcases Nat.le_total size (rtDmaCalcRecvedLen bufsz rxFifo) with hless | hover
    · rw [Nat.min_eq_left hless]
    · rw [Nat.min_eq_right hover, List.drop_of_length_le (by rw [ringSlice_length]; exact hover),
        List.drop_of_length_le (ringSlice_length _ _ _).le]
  have hlength : recvLen bufsz rxFifo size ≤ rtDmaCalcRecvedLen bufsz rxFifo := by omega
  rw [hdrop, hunread, ringSlice_drop _ hget hle hlength]
  generalize recvLen bufsz rxFifo size = n at *
  have hmod : (rxFifo.getIndex + n % halfWordSize) % halfWordSize = rxFifo.getIndex + n := by
    unfold halfWordSize
    omega
  have hnextput : next.putIndex = rxFifo.putIndex := by rw [hnext, rtDmaRecvUpdateGetIndex]
  have hbuffer : next.buffer = rxFifo.buffer := by rw [hnext, rtDmaRecvUpdateGetIndex]
  have hnextfull : next.isFull = if rxFifo.isFull = true ∧ n ≠ 0 then false else rxFifo.isFull := by
    rw [hnext, rtDmaRecvUpdateGetIndex]
  have hindex : next.getIndex = ringIndex bufsz rxFifo.getIndex n := by
    rw [hnext, rtDmaRecvUpdateGetIndex, hmod, ringIndex]
    dsimp only
    by_cases hover : rxFifo.getIndex + n ≥ bufsz
    · rw [if_pos hover, if_neg (Nat.not_lt.mpr hover), Nat.mod_eq_sub_mod hover,
        Nat.mod_eq_of_lt (by omega)]
    · rw [if_neg hover, if_pos (Nat.lt_of_not_le hover)]
  have hrange : next.InRange bufsz := by
    refine ⟨hnextput ▸ h.put, ?_⟩
    rw [hindex]
    exact ringIndex_lt hget (by omega)
  have hbehind : next.putIndex =
      ringIndex bufsz next.getIndex (rtDmaCalcRecvedLen bufsz rxFifo - n) := by
    rw [hnextput, hindex, ringIndex_add hget (by omega), Nat.add_sub_cancel' hlength, hput]
  have hstill : next.isFull = true → rxFifo.isFull = true ∧ n = 0 := by
    intro htrue
    rw [hnextfull] at htrue
    split at htrue
    · exact absurd htrue Bool.false_ne_true
    · next hnot => exact ⟨htrue, by_contra fun hzero => hnot ⟨htrue, hzero⟩⟩
  have hmeet : next.isFull = true → next.putIndex = next.getIndex := by
    intro htrue
    obtain ⟨hwas, rfl⟩ := hstill htrue
    rw [hnextput, hindex, hfull hwas]
    exact (if_pos hget).symm
  refine ⟨hrange, hmeet, hnextput, ?_⟩
  obtain ⟨hslice, -, -⟩ := unread_eq_slice hrange
  rw [hslice, hbuffer, hindex]
  refine congrArg _ ?_
  cases htrue : next.isFull with
  | true =>
    obtain ⟨hwas, rfl⟩ := hstill htrue
    rw [calcRecvedLen_of_full (hmeet htrue) htrue, calcRecvedLen_of_full (hfull hwas) hwas,
      Nat.sub_zero]
  | false =>
    refine calcRecvedLen_of_not_full hrange.get ?_ hbehind htrue
    by_contra hall
    have hzero : n = 0 := by omega
    have hwas : rxFifo.isFull = true := by
      by_contra hnot
      have hless := calcRecvedLen_lt h (Bool.eq_false_iff.mpr hnot)
      omega
    rw [hnextfull, if_neg fun hboth => hboth.2 hzero, hwas] at htrue
    exact absurd htrue.symm Bool.false_ne_true

end Sides

/-! ## Over all interleavings -/

section Refinement

variable {bufsz : Nat} {s : DmaSerial} {q : DmaQueue}

theorem dmaAgrees_rxDmadone (hmax : bufsz ≤ 32768) (h : DmaAgrees bufsz s q) {bytes : List UInt8}
    {s' : DmaSerial} (hstep : (dmaSerial bufsz).step s (.rxDmadone bytes) = some s') :
    ∃ q', (dmaQueue bufsz).step q (.rxDmadone bytes) = some q' ∧ DmaAgrees bufsz s' q' := by
  simp only [dmaSerial] at hstep
  by_cases hlen : bytes.length ≤ bufsz
  · rw [if_pos hlen, eventLength_rxDmadone, h.position] at hstep
    obtain rfl := Option.some.inj hstep
    obtain ⟨hrange, hmeet, hput, hunread⟩ := rxDmadone_spec hmax h.inRange h.full hlen rfl
    have hmod : (s.rxFifo.putIndex + bytes.length) % bufsz =
        ringIndex bufsz s.rxFifo.putIndex bytes.length := by
      have hless := h.inRange.put
      unfold ringIndex
      split
      · next hroom => exact Nat.mod_eq_of_lt hroom
      · next hover =>
        rw [Nat.mod_eq_sub_mod (Nat.not_lt.mp hover), Nat.mod_eq_of_lt (by omega)]
    refine ⟨_, rfl, hrange, hmeet, ?_, ?_, ?_, ?_, h.returned, h.copies⟩
    · exact hmod.trans hput.symm
    · rw [hput, ← hmod, h.putIndex]
      exact Nat.mod_add_mod _ _ _
    · rw [← h.unread]
      exact hunread
    · dsimp only
      rw [calcRecvedLen_eq hrange, hunread, h.unread, h.lengths]
  · rw [if_neg hlen] at hstep
    cases hstep

/-- A read can be followed by the queue exactly when its size fits. -/
theorem dmaAgrees_read_iff (hmax : bufsz ≤ 32768) (h : DmaAgrees bufsz s q) (size : UInt32) :
    (∀ s', (dmaSerial bufsz).step s (.read size) = some s' →
        ∃ q', (dmaQueue bufsz).step q (.read size) = some q' ∧ DmaAgrees bufsz s' q') ↔
      size.toNat < 2147483648 := by
  have hword : size.toNat < wordSize := size.toNat_lt
  simp only [dmaSerial, dmaQueue]
  by_cases hzero : size.toNat = 0
  · rw [if_pos hzero, hzero]
    refine ⟨fun _ => by decide, fun _ s' hstep => ?_⟩
    obtain rfl := Option.some.inj hstep
    refine ⟨_, rfl, h.inRange, h.full, h.position, h.putIndex, h.unread, h.lengths, ?_, h.copies⟩
    exact congrArg (· ++ [[]]) h.returned
  · rw [if_neg hzero]
    constructor
    · intro hall
      obtain ⟨q', -, hagrees⟩ := hall _ rfl
      by_contra hlarge
      obtain ⟨c, hc, hover⟩ := recvCopies_large hmax h.inRange (Nat.not_lt.mp hlarge) hword
      exact absurd (hagrees.copies c (List.mem_append_right _ hc)) (Nat.not_le.mpr hover)
    · rintro hsize s' hstep
      obtain rfl := Option.some.inj hstep
      obtain ⟨hcopies, hdata⟩ := recvData_small hmax h.inRange hsize
      obtain ⟨hrange, hmeet, hput, hunread⟩ :=
        updateGetIndex_spec hmax h.inRange h.full hsize rfl
      refine ⟨_, rfl, hrange, hmeet, ?_, ?_, ?_, h.lengths, ?_, ?_⟩
      · exact h.position.trans hput.symm
      · exact hput.trans h.putIndex
      · rw [← h.unread]
        exact hunread
      · dsimp only
        rw [hdata, h.unread, h.returned]
      · intro c hc
        rcases List.mem_append.mp hc with hc | hc
        · exact h.copies c hc
        · exact hcopies c hc

/-- A device whose FIFO has just been opened, and an empty queue. -/
def DmaSerial.opened : DmaSerial where
  rxFifo := .opened
  position := 0
  lengths := []
  returned := []
  copies := []

def DmaQueue.opened : DmaQueue where
  unread := []
  total := 0
  lengths := []
  returned := []

theorem dmaAgrees_opened (hpos : 0 < bufsz) : DmaAgrees bufsz .opened .opened where
  inRange := ⟨hpos, hpos⟩
  full hfull := absurd hfull Bool.false_ne_true
  position := rfl
  putIndex := (Nat.zero_mod bufsz).symm
  unread := rfl
  lengths := rfl
  returned := rfl
  copies _ hc := absurd hc List.not_mem_nil

/-- The device behaves as the queue through a schedule of batches and reads exactly when no
size is a negative `int`. -/
theorem dmaRx_lockStep_iff (hpos : 1 ≤ bufsz) (hmax : bufsz ≤ 32768) (actions : List DmaStep) :
    (dmaSerial bufsz).LockStep (dmaQueue bufsz) (DmaAgrees bufsz) .opened .opened actions ↔
      (dmaSerial bufsz).Admitted ReadFits .opened actions := by
  refine Machine.lockStep_iff_admitted (fun s q step h => ?_) actions (dmaAgrees_opened hpos)
  cases step with
  | rxDmadone bytes => exact ⟨fun _ => trivial, fun _ s' hstep => dmaAgrees_rxDmadone hmax h hstep⟩
  | read size => exact dmaAgrees_read_iff hmax h size

/-- Six bytes into a buffer of four, with a read between the batches. -/
theorem dmaRx_lockStep_iff_four :
    (dmaSerial 4).LockStep (dmaQueue 4) (DmaAgrees 4) .opened .opened
      [.rxDmadone [1, 2, 3], .read 1, .rxDmadone [4, 5, 6], .read 9] :=
  (dmaRx_lockStep_iff (by decide) (by decide) _).mpr
    ⟨trivial, fun _ _ => ⟨by show _ < _; decide, fun _ _ => ⟨trivial, fun _ _ =>
      ⟨by show _ < _; decide, fun _ _ => trivial⟩⟩⟩⟩

/-- A read of `2^31` bytes copies as many from a buffer of one. -/
theorem not_dmaRx_lockStep :
    ¬ ∀ bufsz, 1 ≤ bufsz → bufsz ≤ 32768 → ∀ actions,
      (dmaSerial bufsz).LockStep (dmaQueue bufsz) (DmaAgrees bufsz) .opened .opened actions := by
  intro hall
  obtain ⟨q', -, hagrees⟩ := hall 1 (by decide) (by decide) [.read 2147483648] [.read 2147483648] []
    rfl _ rfl
  have hmem : (⟨1, 0, 2147483647⟩ : Memcpy) ∈ recvCopies 1 .opened 2147483648 := by decide
  exact absurd (hagrees.copies _ (List.mem_append_right _ hmem)) (by decide)

end Refinement

end Gd32Vw553h.Serial
