/-
  Ipc/RingBuffer.lean --- the ring buffer (`components/drivers/ipc/ringbuffer.c`).

  Each index has a mirror bit that flips when the index wraps; equal indices mean an
  empty buffer with equal mirror bits and a full one with different ones.  Every
  operation is a `skip` of the oldest bytes, a `write` behind the newest, or both
  (`rtRingbufferPut_eq` and its siblings), and `bytes_skip` and `bytes_write` say
  what these two do to the bytes held.  `ringbuffer_refines` compares any sequence
  of calls with a queue of bounded length.

  An index field has 31 bits and stays below `buffer_size`, which is no larger than
  the size asked for.
-/
import Gd32Vw553h.Foundation.RingQueue
import Gd32Vw553h.Kernel.RtDef

set_option autoImplicit false

namespace Gd32Vw553h.Ipc

open Gd32Vw553h.Foundation Gd32Vw553h.Kernel

/-! ## The code -/

/-- `struct rt_ringbuffer` -/
structure RtRingbuffer where
  bufferPtr : Nat → UInt8
  readMirror : Bool
  readIndex : Nat
  writeMirror : Bool
  writeIndex : Nat
  bufferSize : Nat

/-- `enum rt_ringbuffer_state` -/
inductive RtRingbufferState where
  | empty
  | full
  | halffull
  deriving DecidableEq

/-- `rt_memcpy` to a place in the pool. -/
def rtMemcpy (pool : Nat → UInt8) (dst : Nat) (src : List UInt8) : Nat → UInt8 := fun i =>
  if dst ≤ i then src.getD (i - dst) (pool i) else pool i

/-- The `n` bytes of the pool from `src` on. -/
def poolBytes (pool : Nat → UInt8) (src n : Nat) : List UInt8 :=
  (List.range n).map fun i => pool (src + i)

/-- `rt_ringbuffer_status` -/
def rtRingbufferStatus (rb : RtRingbuffer) : RtRingbufferState :=
  if rb.readIndex = rb.writeIndex then
    if rb.readMirror = rb.writeMirror then .empty else .full
  else .halffull

/-- `rt_ringbuffer_data_len` -/
def rtRingbufferDataLen (rb : RtRingbuffer) : Nat :=
  match rtRingbufferStatus rb with
  | .empty => 0
  | .full => rb.bufferSize
  | .halffull =>
    if rb.writeIndex > rb.readIndex then rb.writeIndex - rb.readIndex
    else rb.bufferSize - (rb.readIndex - rb.writeIndex)

/-- `rt_ringbuffer_space_len` -/
def rtRingbufferSpaceLen (rb : RtRingbuffer) : Nat := rb.bufferSize - rtRingbufferDataLen rb

/-- `rt_ringbuffer_init` -/
def rtRingbufferInit (pool : Nat → UInt8) (size : Nat) : RtRingbuffer where
  bufferPtr := pool
  readMirror := false
  readIndex := 0
  writeMirror := false
  writeIndex := 0
  bufferSize := rtAlignDown size

/-- `rt_ringbuffer_create`, with what the two calls of `rt_malloc` return. -/
def rtRingbufferCreate (object : Bool) (pool : Option (Nat → UInt8)) (size : Nat) :
    Option RtRingbuffer :=
  let size := rtAlignDown size
  if object = false then none
  else
    match pool with
    | none => none
    | some pool => some (rtRingbufferInit pool size)

/-- `rt_ringbuffer_reset` -/
def rtRingbufferReset (rb : RtRingbuffer) : RtRingbuffer :=
  { rb with readMirror := false, readIndex := 0, writeMirror := false, writeIndex := 0 }

/-- `rt_ringbuffer_put` of the bytes at `ptr`: what it returns, and the buffer. -/
def rtRingbufferPut (rb : RtRingbuffer) (ptr : List UInt8) : Nat × RtRingbuffer :=
  let size := rtRingbufferSpaceLen rb
  if size = 0 then (0, rb)
  else
    let length := if size < ptr.length then size else ptr.length
    if rb.bufferSize - rb.writeIndex > length then
      (length, { rb with
        bufferPtr := rtMemcpy rb.bufferPtr rb.writeIndex (ptr.take length)
        writeIndex := rb.writeIndex + length })
    else
      let first := rb.bufferSize - rb.writeIndex
      (length, { rb with
        bufferPtr := rtMemcpy (rtMemcpy rb.bufferPtr rb.writeIndex (ptr.take first)) 0
          ((ptr.drop first).take (length - first))
        writeMirror := !rb.writeMirror
        writeIndex := length - first })

/-- `rt_ringbuffer_put_force` -/
def rtRingbufferPutForce (rb : RtRingbuffer) (ptr : List UInt8) : Nat × RtRingbuffer :=
  let spaceLength := rtRingbufferSpaceLen rb
  let ptr := if ptr.length > rb.bufferSize then ptr.drop (ptr.length - rb.bufferSize) else ptr
  let length := ptr.length
  if rb.bufferSize - rb.writeIndex > length then
    let writeIndex := rb.writeIndex + length
    (length, { rb with
      bufferPtr := rtMemcpy rb.bufferPtr rb.writeIndex (ptr.take length)
      writeIndex := writeIndex
      readIndex := if length > spaceLength then writeIndex else rb.readIndex })
  else
    let first := rb.bufferSize - rb.writeIndex
    let writeIndex := length - first
    (length, { rb with
      bufferPtr := rtMemcpy (rtMemcpy rb.bufferPtr rb.writeIndex (ptr.take first)) 0
        ((ptr.drop first).take (length - first))
      writeMirror := !rb.writeMirror
      writeIndex := writeIndex
      readMirror :=
        if length > spaceLength ∧ writeIndex ≤ rb.readIndex then !rb.readMirror
        else rb.readMirror
      readIndex := if length > spaceLength then writeIndex else rb.readIndex })

/-- `rt_ringbuffer_get`: what it returns, the bytes copied to `ptr`, and the buffer. -/
def rtRingbufferGet (rb : RtRingbuffer) (length : Nat) : Nat × List UInt8 × RtRingbuffer :=
  let size := rtRingbufferDataLen rb
  if size = 0 then (0, [], rb)
  else
    let length := if size < length then size else length
    if rb.bufferSize - rb.readIndex > length then
      (length, poolBytes rb.bufferPtr rb.readIndex length,
        { rb with readIndex := rb.readIndex + length })
    else
      let first := rb.bufferSize - rb.readIndex
      (length,
        poolBytes rb.bufferPtr rb.readIndex first ++ poolBytes rb.bufferPtr 0 (length - first),
        { rb with readMirror := !rb.readMirror, readIndex := length - first })

/-- `rt_ringbuffer_get_direct`: what it returns, the place that `*ptr` points to, and the
buffer. -/
def rtRingbufferGetDirect (rb : RtRingbuffer) : Nat × Option Nat × RtRingbuffer :=
  let size := rtRingbufferDataLen rb
  if size = 0 then (0, none, rb)
  else if rb.bufferSize - rb.readIndex > size then
    (size, some rb.readIndex, { rb with readIndex := rb.readIndex + size })
  else
    (rb.bufferSize - rb.readIndex, some rb.readIndex,
      { rb with readMirror := !rb.readMirror, readIndex := 0 })

/-- `rt_ringbuffer_peek` -/
def rtRingbufferPeek (rb : RtRingbuffer) : Nat × Option Nat :=
  let size := rtRingbufferDataLen rb
  if size = 0 then (0, none)
  else if rb.bufferSize - rb.readIndex > size then (size, some rb.readIndex)
  else (rb.bufferSize - rb.readIndex, some rb.readIndex)

/-- `rt_ringbuffer_putchar` -/
def rtRingbufferPutchar (rb : RtRingbuffer) (ch : UInt8) : Nat × RtRingbuffer :=
  if rtRingbufferSpaceLen rb = 0 then (0, rb)
  else
    let bufferPtr := Function.update rb.bufferPtr rb.writeIndex ch
    if rb.writeIndex = rb.bufferSize - 1 then
      (1, { rb with bufferPtr := bufferPtr, writeMirror := !rb.writeMirror, writeIndex := 0 })
    else (1, { rb with bufferPtr := bufferPtr, writeIndex := rb.writeIndex + 1 })

/-- `rt_ringbuffer_putchar_force` -/
def rtRingbufferPutcharForce (rb : RtRingbuffer) (ch : UInt8) : Nat × RtRingbuffer :=
  let oldState := rtRingbufferStatus rb
  let bufferPtr := Function.update rb.bufferPtr rb.writeIndex ch
  if rb.writeIndex = rb.bufferSize - 1 then
    let rb := { rb with bufferPtr := bufferPtr, writeMirror := !rb.writeMirror, writeIndex := 0 }
    (1, if oldState = .full then
        { rb with readMirror := !rb.readMirror, readIndex := rb.writeIndex }
      else rb)
  else
    let rb := { rb with bufferPtr := bufferPtr, writeIndex := rb.writeIndex + 1 }
    (1, if oldState = .full then { rb with readIndex := rb.writeIndex } else rb)

/-- `rt_ringbuffer_getchar`: what it returns, `*ch` when it is set, and the buffer. -/
def rtRingbufferGetchar (rb : RtRingbuffer) : Nat × Option UInt8 × RtRingbuffer :=
  if rtRingbufferDataLen rb = 0 then (0, none, rb)
  else
    let ch := rb.bufferPtr rb.readIndex
    if rb.readIndex = rb.bufferSize - 1 then
      (1, some ch, { rb with readMirror := !rb.readMirror, readIndex := 0 })
    else (1, some ch, { rb with readIndex := rb.readIndex + 1 })

/-! ## Calls -/

/-- A call on a ring buffer. -/
inductive RingCall where
  | put (ptr : List UInt8)
  | putForce (ptr : List UInt8)
  | putchar (ch : UInt8)
  | putcharForce (ch : UInt8)
  | get (length : Nat)
  | getDirect
  | peek
  | getchar
  | reset
  | dataLen

/-- What a call returns, and the bytes that it hands to the caller: copied, or readable
where `*ptr` points to. -/
structure RingReply where
  size : Nat
  bytes : List UInt8

/-- The bytes at the pointer that a call has set. -/
def bytesAt (pool : Nat → UInt8) (ptr : Option Nat) (size : Nat) : List UInt8 :=
  match ptr with
  | none => []
  | some ptr => poolBytes pool ptr size

/-- One call. -/
def RtRingbuffer.serve (rb : RtRingbuffer) : RingCall → RingReply × RtRingbuffer
  | .put ptr => (⟨(rtRingbufferPut rb ptr).1, []⟩, (rtRingbufferPut rb ptr).2)
  | .putForce ptr => (⟨(rtRingbufferPutForce rb ptr).1, []⟩, (rtRingbufferPutForce rb ptr).2)
  | .putchar ch => (⟨(rtRingbufferPutchar rb ch).1, []⟩, (rtRingbufferPutchar rb ch).2)
  | .putcharForce ch =>
      (⟨(rtRingbufferPutcharForce rb ch).1, []⟩, (rtRingbufferPutcharForce rb ch).2)
  | .get length =>
      let (size, bytes, rb) := rtRingbufferGet rb length
      (⟨size, bytes⟩, rb)
  | .getDirect =>
      let (size, ptr, rb) := rtRingbufferGetDirect rb
      (⟨size, bytesAt rb.bufferPtr ptr size⟩, rb)
  | .peek =>
      let (size, ptr) := rtRingbufferPeek rb
      (⟨size, bytesAt rb.bufferPtr ptr size⟩, rb)
  | .getchar =>
      let (size, ch, rb) := rtRingbufferGetchar rb
      (⟨size, ch.toList⟩, rb)
  | .reset => (⟨0, []⟩, rtRingbufferReset rb)
  | .dataLen => (⟨rtRingbufferDataLen rb, []⟩, rb)

/-- A sequence of calls: each with its reply, and the buffer at the end. -/
def RtRingbuffer.serveAll : RtRingbuffer → List RingCall →
    List (RingCall × RingReply) × RtRingbuffer
  | rb, [] => ([], rb)
  | rb, call :: calls =>
    let (reply, rb) := rb.serve call
    let (served, rb) := rb.serveAll calls
    ((call, reply) :: served, rb)

/-! ## The queue -/

/-- What a call with this reply does to a queue of at most `cap` bytes. -/
def QueueStep (cap : Nat) (queue : List UInt8) (reply : RingReply) (next : List UInt8) :
    RingCall → Prop
  | .put ptr =>
      reply.size = min ptr.length (cap - queue.length) ∧ next = queue ++ ptr.take reply.size
  | .putForce ptr =>
      reply.size = min ptr.length cap ∧
        next = (queue ++ ptr).drop ((queue ++ ptr).length - cap)
  | .putchar ch =>
      if queue.length < cap then reply.size = 1 ∧ next = queue ++ [ch]
      else reply.size = 0 ∧ next = queue
  | .putcharForce ch =>
      reply.size = 1 ∧ next = (queue ++ [ch]).drop ((queue ++ [ch]).length - cap)
  | .get length =>
      reply.size = min length queue.length ∧ reply.bytes = queue.take length ∧
        next = queue.drop length
  | .getDirect =>
      (reply.bytes ≠ [] ↔ queue ≠ []) ∧ reply.size = reply.bytes.length ∧
        queue = reply.bytes ++ next
  | .peek =>
      (reply.bytes ≠ [] ↔ queue ≠ []) ∧ reply.size = reply.bytes.length ∧
        reply.bytes <+: queue ∧ next = queue
  | .getchar =>
      match queue with
      | [] => reply.size = 0 ∧ reply.bytes = [] ∧ next = []
      | ch :: rest => reply.size = 1 ∧ reply.bytes = [ch] ∧ next = rest
  | .reset => next = []
  | .dataLen => reply.size = queue.length ∧ next = queue

/-- A sequence of calls with these replies. -/
inductive QueueRun (cap : Nat) : List UInt8 → List (RingCall × RingReply) → List UInt8 → Prop
  | nil (queue : List UInt8) : QueueRun cap queue [] queue
  | cons {queue mid final : List UInt8} {call : RingCall} {reply : RingReply}
      {rest : List (RingCall × RingReply)} (hstep : QueueStep cap queue reply mid call)
      (htail : QueueRun cap mid rest final) : QueueRun cap queue ((call, reply) :: rest) final

/-! ## Skipping and writing -/

/-- The write side has wrapped once more than the read side. -/
def RtRingbuffer.turned (rb : RtRingbuffer) : Bool := rb.readMirror ^^ rb.writeMirror

/-- Both indices are inside the pool, and `turned` says which one is ahead. -/
structure RtRingbuffer.Valid (rb : RtRingbuffer) : Prop where
  read : rb.readIndex < rb.bufferSize
  write : rb.writeIndex < rb.bufferSize
  straight : rb.turned = false → rb.readIndex ≤ rb.writeIndex
  wrapped : rb.turned = true → rb.writeIndex ≤ rb.readIndex

/-- The bytes held, oldest first. -/
def RtRingbuffer.held (rb : RtRingbuffer) : List UInt8 :=
  ringSlice rb.bufferSize rb.bufferPtr rb.readIndex (rtRingbufferDataLen rb)

/-- The read side moves on by `n` bytes. -/
def RtRingbuffer.skip (rb : RtRingbuffer) (n : Nat) : RtRingbuffer :=
  { rb with
    readMirror := rb.readMirror ^^ decide (rb.bufferSize ≤ rb.readIndex + n)
    readIndex := ringIndex rb.bufferSize rb.readIndex n }

/-- `data` is written and the write side moves behind it. -/
def RtRingbuffer.write (rb : RtRingbuffer) (data : List UInt8) : RtRingbuffer :=
  { rb with
    bufferPtr := ringWrite rb.bufferSize rb.bufferPtr rb.writeIndex data
    writeMirror := rb.writeMirror ^^ decide (rb.bufferSize ≤ rb.writeIndex + data.length)
    writeIndex := ringIndex rb.bufferSize rb.writeIndex data.length }

section Moves

variable {rb : RtRingbuffer}

theorem turned_skip (rb : RtRingbuffer) (n : Nat) :
    (rb.skip n).turned = (rb.turned ^^ decide (rb.bufferSize ≤ rb.readIndex + n)) :=
  Bool.xor_right_comm _ _ _

theorem turned_write (rb : RtRingbuffer) (data : List UInt8) :
    (rb.write data).turned =
      (rb.turned ^^ decide (rb.bufferSize ≤ rb.writeIndex + data.length)) :=
  (Bool.xor_assoc _ _ _).symm

theorem dataLen_eq (h : rb.Valid) :
    rtRingbufferDataLen rb =
      if rb.turned = true then rb.bufferSize - (rb.readIndex - rb.writeIndex)
      else rb.writeIndex - rb.readIndex := by
  unfold rtRingbufferDataLen rtRingbufferStatus
  cases hturned : rb.turned with
  | false =>
    have hle := h.straight hturned
    have hmirror : rb.readMirror = rb.writeMirror := by simpa [RtRingbuffer.turned] using hturned
    rw [if_pos hmirror, if_neg Bool.false_ne_true]
    by_cases heq : rb.readIndex = rb.writeIndex
    · rw [if_pos heq, heq, Nat.sub_self]
    · simp only [if_neg heq]
      exact if_pos (by omega)
  | true =>
    have hle := h.wrapped hturned
    have hmirror : rb.readMirror ≠ rb.writeMirror := by simpa [RtRingbuffer.turned] using hturned
    rw [if_neg hmirror, if_pos rfl]
    by_cases heq : rb.readIndex = rb.writeIndex
    · rw [if_pos heq, heq, Nat.sub_self, Nat.sub_zero]
    · simp only [if_neg heq]
      exact if_neg (by omega)

theorem dataLen_le (h : rb.Valid) : rtRingbufferDataLen rb ≤ rb.bufferSize := by
  have hwrite := h.write
  rw [dataLen_eq h]
  split_ifs <;> omega

theorem held_length (rb : RtRingbuffer) : rb.held.length = rtRingbufferDataLen rb :=
  ringSlice_length _ _ _

/-- The write side stands behind the bytes held. -/
theorem ringIndex_dataLen (h : rb.Valid) :
    ringIndex rb.bufferSize rb.readIndex (rtRingbufferDataLen rb) = rb.writeIndex := by
  have hread := h.read
  have hwrite := h.write
  rw [dataLen_eq h, ringIndex]
  cases hturned : rb.turned with
  | false =>
    have hle := h.straight hturned
    rw [if_neg Bool.false_ne_true, Nat.add_sub_cancel' hle, if_pos hwrite]
  | true =>
    have hle := h.wrapped hturned
    rw [if_pos rfl, if_neg (by omega)]
    omega

/-- Where the read side stands after skipping bytes that are there. -/
theorem skip_cases (h : rb.Valid) {n : Nat} (hn : n ≤ rtRingbufferDataLen rb) :
    ((rb.skip n).turned = rb.turned ∧ rb.readIndex + n < rb.bufferSize ∧
        (rb.skip n).readIndex = rb.readIndex + n) ∨
      rb.turned = true ∧ (rb.skip n).turned = false ∧ rb.bufferSize ≤ rb.readIndex + n ∧
        (rb.skip n).readIndex = rb.readIndex + n - rb.bufferSize := by
  have hwrite := h.write
  have hturned := turned_skip rb n
  rw [dataLen_eq h] at hn
  by_cases hwrap : rb.bufferSize ≤ rb.readIndex + n
  · have hside : rb.turned = true := by
      by_contra hside
      have hle := h.straight (Bool.eq_false_iff.mpr hside)
      rw [if_neg hside] at hn
      omega
    rw [hside, decide_eq_true hwrap] at hturned
    exact .inr ⟨hside, hturned, hwrap, if_neg (by omega)⟩
  · rw [decide_eq_false hwrap, Bool.xor_false] at hturned
    exact .inl ⟨hturned, by omega, if_pos (by omega)⟩

theorem valid_skip (h : rb.Valid) {n : Nat} (hn : n ≤ rtRingbufferDataLen rb) :
    (rb.skip n).Valid := by
  have hread := h.read
  have hlen := dataLen_eq h
  rcases skip_cases h hn with ⟨hturned, hroom, hindex⟩ | ⟨hside, hturned, hwrap, hindex⟩
  · refine ⟨hindex.trans_lt hroom, h.write, fun hside => ?_, fun hside => ?_⟩
    · rw [hturned] at hside
      have hle := h.straight hside
      rw [hlen, if_neg (Bool.eq_false_iff.mp hside)] at hn
      change _ ≤ rb.writeIndex
      omega
    · have hle := h.wrapped (hturned.symm.trans hside)
      change rb.writeIndex ≤ _
      omega
  · have hle := h.wrapped hside
    rw [hlen, if_pos hside] at hn
    refine ⟨?_, h.write, fun _ => ?_, fun hturn => absurd (hturned.symm.trans hturn) (by decide)⟩
    · change _ < rb.bufferSize
      omega
    · change _ ≤ rb.writeIndex
      omega

theorem dataLen_skip (h : rb.Valid) {n : Nat} (hn : n ≤ rtRingbufferDataLen rb) :
    rtRingbufferDataLen (rb.skip n) = rtRingbufferDataLen rb - n := by
  have hread := h.read
  have hwrite : (rb.skip n).writeIndex = rb.writeIndex := rfl
  have hsize : (rb.skip n).bufferSize = rb.bufferSize := rfl
  rw [dataLen_eq (valid_skip h hn), dataLen_eq h, hwrite, hsize]
  rcases skip_cases h hn with ⟨hturned, hroom, hindex⟩ | ⟨hside, hturned, hwrap, hindex⟩
  · rw [hturned, hindex]
    split_ifs with hside
    · have hle := h.wrapped hside
      omega
    · omega
  · have hle := h.wrapped hside
    rw [hturned, hindex, if_neg Bool.false_ne_true, if_pos hside]
    omega

/-- The oldest bytes go. -/
theorem held_skip (h : rb.Valid) {n : Nat} (hn : n ≤ rtRingbufferDataLen rb) :
    (rb.skip n).held = rb.held.drop n := by
  rw [RtRingbuffer.held, dataLen_skip h hn]
  exact (ringSlice_drop rb.bufferPtr h.read (dataLen_le h) hn).symm

/-- Where the write side stands after writing bytes that fit. -/
theorem write_cases (h : rb.Valid) {data : List UInt8}
    (hroom : rtRingbufferDataLen rb + data.length ≤ rb.bufferSize) :
    ((rb.write data).turned = rb.turned ∧ rb.writeIndex + data.length < rb.bufferSize ∧
        (rb.write data).writeIndex = rb.writeIndex + data.length) ∨
      rb.turned = false ∧ (rb.write data).turned = true ∧
        rb.bufferSize ≤ rb.writeIndex + data.length ∧
        (rb.write data).writeIndex = rb.writeIndex + data.length - rb.bufferSize := by
  have hread := h.read
  have hturned := turned_write rb data
  rw [dataLen_eq h] at hroom
  by_cases hwrap : rb.bufferSize ≤ rb.writeIndex + data.length
  · have hside : rb.turned = false := by
      by_contra hside
      have hle := h.wrapped (eq_true_of_ne_false hside)
      rw [if_pos (eq_true_of_ne_false hside)] at hroom
      omega
    rw [hside, decide_eq_true hwrap] at hturned
    exact .inr ⟨hside, hturned, hwrap, if_neg (by omega)⟩
  · rw [decide_eq_false hwrap, Bool.xor_false] at hturned
    exact .inl ⟨hturned, by omega, if_pos (by omega)⟩

theorem valid_write (h : rb.Valid) {data : List UInt8}
    (hroom : rtRingbufferDataLen rb + data.length ≤ rb.bufferSize) : (rb.write data).Valid := by
  have hwrite := h.write
  have hlen := dataLen_eq h
  rcases write_cases h hroom with ⟨hturned, hlt, hindex⟩ | ⟨hside, hturned, hwrap, hindex⟩
  · refine ⟨h.read, hindex.trans_lt hlt, fun hside => ?_, fun hside => ?_⟩
    · have hle := h.straight (hturned.symm.trans hside)
      change rb.readIndex ≤ _
      omega
    · rw [hturned] at hside
      have hle := h.wrapped hside
      rw [hlen, if_pos hside] at hroom
      change _ ≤ rb.readIndex
      omega
  · have hle := h.straight hside
    rw [hlen, if_neg (Bool.eq_false_iff.mp hside)] at hroom
    refine ⟨h.read, ?_, fun hturn => absurd (hturned.symm.trans hturn) (by decide), fun _ => ?_⟩
    · change _ < rb.bufferSize
      omega
    · change _ ≤ rb.readIndex
      omega

theorem dataLen_write (h : rb.Valid) {data : List UInt8}
    (hroom : rtRingbufferDataLen rb + data.length ≤ rb.bufferSize) :
    rtRingbufferDataLen (rb.write data) = rtRingbufferDataLen rb + data.length := by
  have hread : (rb.write data).readIndex = rb.readIndex := rfl
  have hsize : (rb.write data).bufferSize = rb.bufferSize := rfl
  have hpos := h.read
  rw [dataLen_eq (valid_write h hroom), dataLen_eq h, hread, hsize]
  rcases write_cases h hroom with ⟨hturned, hlt, hindex⟩ | ⟨hside, hturned, hwrap, hindex⟩
  · rw [hturned, hindex]
    rw [dataLen_eq h] at hroom
    split_ifs with hside
    · have hle := h.wrapped hside
      rw [if_pos hside] at hroom
      omega
    · have hle := h.straight (Bool.eq_false_iff.mpr hside)
      omega
  · have hle := h.straight hside
    rw [dataLen_eq h, if_neg (Bool.eq_false_iff.mp hside)] at hroom
    rw [hturned, hindex, if_pos rfl, if_neg (Bool.eq_false_iff.mp hside)]
    omega

/-- The new bytes stand behind the others. -/
theorem held_write (h : rb.Valid) {data : List UInt8}
    (hroom : rtRingbufferDataLen rb + data.length ≤ rb.bufferSize) :
    (rb.write data).held = rb.held ++ data := by
  have hslice := ringSlice_ringWrite rb.bufferPtr h.read hroom
  rw [ringIndex_dataLen h] at hslice
  rw [RtRingbuffer.held, dataLen_write h hroom]
  exact hslice

/-! ## The operations as skips and writes -/

/-- One copy is enough before the end of the pool. -/
theorem rtMemcpy_eq {cap dst : Nat} (pool : Nat → UInt8) {data : List UInt8}
    (hend : dst + data.length ≤ cap) : rtMemcpy pool dst data = ringWrite cap pool dst data := by
  funext i
  unfold rtMemcpy ringWrite ringDistance
  by_cases hin : dst ≤ i
  · rw [if_pos hin, if_pos hin]
    split_ifs with hcap
    · rfl
    · exact List.getD_eq_default _ _ (by omega)
  · rw [if_neg hin, if_neg hin, List.getD_eq_default _ _ (by omega), ite_self]

/-- Two copies around the end of the pool. -/
theorem rtMemcpy_rtMemcpy {cap dst : Nat} (pool : Nat → UInt8) {data : List UInt8}
    (hdst : dst < cap) (hend : cap ≤ dst + data.length) (hlen : data.length ≤ cap) :
    rtMemcpy (rtMemcpy pool dst (data.take (cap - dst))) 0 (data.drop (cap - dst)) =
      ringWrite cap pool dst data := by
  funext i
  have hfirst : (data.take (cap - dst)).length = cap - dst := by
    rw [List.length_take]
    omega
  have hsecond : (data.drop (cap - dst)).length = data.length - (cap - dst) := List.length_drop
  unfold rtMemcpy ringWrite ringDistance
  rw [if_pos (Nat.zero_le i), Nat.sub_zero]
  by_cases hin : dst ≤ i
  · rw [if_pos hin, if_pos hin, List.getD_eq_default (data.drop _) _ (by omega)]
    by_cases hcap : i < cap
    · rw [if_pos hcap, List.getD_eq_getElem _ _ (by omega), List.getElem_take,
        List.getD_eq_getElem]
    · rw [if_neg hcap, List.getD_eq_default _ _ (by omega)]
  · rw [if_neg hin, if_neg hin, if_pos (by omega)]
    have hoffset : cap - (dst - i) = cap - dst + i := by omega
    simp only [List.getD_eq_getElem?_getD, List.getElem?_drop, hoffset]

theorem write_straight {ptr : List UInt8} {length : Nat} (hlength : length ≤ ptr.length)
    (hend : rb.writeIndex + length < rb.bufferSize) :
    rb.write (ptr.take length) = { rb with
      bufferPtr := rtMemcpy rb.bufferPtr rb.writeIndex (ptr.take length)
      writeIndex := rb.writeIndex + length } := by
  have hlen : (ptr.take length).length = length := List.length_take_of_le hlength
  unfold RtRingbuffer.write ringIndex
  have hcopy : rtMemcpy rb.bufferPtr rb.writeIndex (ptr.take length) =
      ringWrite rb.bufferSize rb.bufferPtr rb.writeIndex (ptr.take length) :=
    rtMemcpy_eq rb.bufferPtr (by omega)
  rw [hlen, if_pos hend, decide_eq_false (by omega), Bool.xor_false, hcopy]

theorem write_wrapped {ptr : List UInt8} {length : Nat} (hlength : length ≤ ptr.length)
    (hwrite : rb.writeIndex < rb.bufferSize) (hend : rb.bufferSize ≤ rb.writeIndex + length)
    (hcap : length ≤ rb.bufferSize) :
    rb.write (ptr.take length) = { rb with
      bufferPtr := rtMemcpy
        (rtMemcpy rb.bufferPtr rb.writeIndex (ptr.take (rb.bufferSize - rb.writeIndex))) 0
        ((ptr.drop (rb.bufferSize - rb.writeIndex)).take
          (length - (rb.bufferSize - rb.writeIndex)))
      writeMirror := !rb.writeMirror
      writeIndex := length - (rb.bufferSize - rb.writeIndex) } := by
  have hlen : (ptr.take length).length = length := List.length_take_of_le hlength
  have hfirst : ptr.take (rb.bufferSize - rb.writeIndex) =
      (ptr.take length).take (rb.bufferSize - rb.writeIndex) := by
    rw [List.take_take, Nat.min_eq_left (by omega)]
  have hindex : rb.writeIndex + length - rb.bufferSize =
      length - (rb.bufferSize - rb.writeIndex) := by omega
  rw [hfirst, ← List.drop_take, rtMemcpy_rtMemcpy _ hwrite (by omega) (by omega)]
  unfold RtRingbuffer.write ringIndex
  rw [hlen, if_neg (by omega), decide_eq_true hend, Bool.xor_true, hindex]

theorem skip_straight {n : Nat} (hend : rb.readIndex + n < rb.bufferSize) :
    rb.skip n = { rb with readIndex := rb.readIndex + n } := by
  unfold RtRingbuffer.skip ringIndex
  rw [if_pos hend, decide_eq_false (by omega), Bool.xor_false]

theorem skip_wrapped {n : Nat} (hread : rb.readIndex < rb.bufferSize)
    (hend : rb.bufferSize ≤ rb.readIndex + n) :
    rb.skip n = { rb with
      readMirror := !rb.readMirror
      readIndex := n - (rb.bufferSize - rb.readIndex) } := by
  have hindex : rb.readIndex + n - rb.bufferSize = n - (rb.bufferSize - rb.readIndex) := by omega
  unfold RtRingbuffer.skip ringIndex
  rw [if_neg (by omega), decide_eq_true hend, Bool.xor_true, hindex]

theorem skip_zero (h : rb.Valid) : rb.skip 0 = rb := skip_straight h.read

theorem write_nil (h : rb.Valid) : rb.write [] = rb := by
  have hcopy : rtMemcpy rb.bufferPtr rb.writeIndex [] = rb.bufferPtr :=
    funext fun i => ite_self (rb.bufferPtr i)
  have hwrite := write_straight (Nat.zero_le ([] : List UInt8).length) h.write
  rw [List.take_nil, hcopy] at hwrite
  exact hwrite

/-- `rt_ringbuffer_put` writes what fits. -/
theorem rtRingbufferPut_eq (h : rb.Valid) (ptr : List UInt8) :
    rtRingbufferPut rb ptr =
      (min ptr.length (rtRingbufferSpaceLen rb),
        rb.write (ptr.take (min ptr.length (rtRingbufferSpaceLen rb)))) := by
  have hwrite := h.write
  have hspace : rtRingbufferSpaceLen rb ≤ rb.bufferSize := Nat.sub_le _ _
  have hlength : (if rtRingbufferSpaceLen rb < ptr.length then rtRingbufferSpaceLen rb
      else ptr.length) = min ptr.length (rtRingbufferSpaceLen rb) := by
    split_ifs <;> omega
  unfold rtRingbufferPut
  simp only [hlength]
  generalize hn : min ptr.length (rtRingbufferSpaceLen rb) = length
  by_cases hzero : rtRingbufferSpaceLen rb = 0
  · have hnone : length = 0 := by omega
    rw [if_pos hzero, hnone, List.take_zero, write_nil h]
  · rw [if_neg hzero]
    by_cases hend : rb.bufferSize - rb.writeIndex > length
    · rw [if_pos hend, write_straight (by omega) (by omega)]
    · rw [if_neg hend, write_wrapped (by omega) hwrite (by omega) (by omega)]

/-- `rt_ringbuffer_put_force` skips what the last `buffer_size` bytes need and writes
them. -/
theorem rtRingbufferPutForce_eq (h : rb.Valid) (ptr : List UInt8) :
    rtRingbufferPutForce rb ptr =
      (min ptr.length rb.bufferSize,
        (rb.skip (rtRingbufferDataLen rb + min ptr.length rb.bufferSize - rb.bufferSize)).write
          (ptr.drop (ptr.length - rb.bufferSize))) := by
  have hread := h.read
  have hwrite := h.write
  have hlen := dataLen_eq h
  have hle := dataLen_le h
  have hlast : (if ptr.length > rb.bufferSize then ptr.drop (ptr.length - rb.bufferSize)
      else ptr) = ptr.drop (ptr.length - rb.bufferSize) := by
    split_ifs with hlong
    · rfl
    · rw [Nat.sub_eq_zero_of_le (by omega), List.drop_zero]
  have hn : min ptr.length rb.bufferSize = (ptr.drop (ptr.length - rb.bufferSize)).length := by
    rw [List.length_drop]
    omega
  have hcap : (ptr.drop (ptr.length - rb.bufferSize)).length ≤ rb.bufferSize := by omega
  unfold rtRingbufferPutForce
  simp only [hlast]
  rw [hn]
  clear hn hlast
  generalize ptr.drop (ptr.length - rb.bufferSize) = data at hcap ⊢
  have hspace : rtRingbufferSpaceLen rb = rb.bufferSize - rtRingbufferDataLen rb := rfl
  have hall : data.take data.length = data := List.take_length
  by_cases hover : data.length > rtRingbufferSpaceLen rb
  · generalize hk : rtRingbufferDataLen rb + data.length - rb.bufferSize = k
    have hskip : (rb.skip k).writeIndex = rb.writeIndex ∧
      (rb.skip k).bufferSize = rb.bufferSize := ⟨rfl, rfl⟩
    by_cases hend : rb.bufferSize - rb.writeIndex > data.length
    · have hside : rb.turned = true := by
        by_contra hside
        rw [if_neg hside] at hlen
        omega
      rw [if_pos hside] at hlen
      have hback := h.wrapped hside
      have hindex : rb.readIndex + k = rb.writeIndex + data.length := by omega
      have hwritten : (rb.skip k).write (data.take data.length) = _ :=
        write_straight le_rfl (by omega)
      rw [hall] at hwritten
      rw [if_pos hend, if_pos hover, hwritten, skip_straight (by omega), hindex, hall]
    · have hwritten : (rb.skip k).write (data.take data.length) = _ :=
        write_wrapped le_rfl hwrite (by omega) hcap
      rw [hall] at hwritten
      rw [if_neg hend, if_pos hover, hwritten]
      cases hside : rb.turned with
      | false =>
        rw [if_neg (Bool.eq_false_iff.mp hside)] at hlen
        have hback := h.straight hside
        have hindex : rb.readIndex + k =
            data.length - (rb.bufferSize - rb.writeIndex) := by omega
        rw [skip_straight (by omega), hindex, if_neg (fun hboth => by omega)]
      | true =>
        rw [if_pos hside] at hlen
        have hback := h.wrapped hside
        have hindex : k - (rb.bufferSize - rb.readIndex) =
            data.length - (rb.bufferSize - rb.writeIndex) := by omega
        rw [skip_wrapped hread (by omega), hindex, if_pos ⟨hover, by omega⟩]
  · have hk : rtRingbufferDataLen rb + data.length - rb.bufferSize = 0 := by omega
    rw [hk, skip_zero h]
    simp only [if_neg hover, if_neg (not_and_of_not_left _ hover)]
    by_cases hend : rb.bufferSize - rb.writeIndex > data.length
    · rw [if_pos hend, ← write_straight le_rfl (by omega), hall]
    · rw [if_neg hend, ← write_wrapped le_rfl hwrite (by omega) hcap, hall]

/-- Bytes before the end of the pool are the oldest ones held. -/
theorem poolBytes_eq (h : rb.Valid) {n : Nat} (hn : n ≤ rtRingbufferDataLen rb)
    (hend : rb.readIndex + n ≤ rb.bufferSize) :
    poolBytes rb.bufferPtr rb.readIndex n = rb.held.take n := by
  rw [RtRingbuffer.held, ringSlice_take _ h.read (dataLen_le h) hn, ringSlice_straight _ hend]
  rfl

/-- `rt_ringbuffer_get` takes the oldest bytes. -/
theorem rtRingbufferGet_eq (h : rb.Valid) (length : Nat) :
    rtRingbufferGet rb length =
      (min length (rtRingbufferDataLen rb), rb.held.take length,
        rb.skip (min length (rtRingbufferDataLen rb))) := by
  have hread := h.read
  have hle := dataLen_le h
  have hlength : (if rtRingbufferDataLen rb < length then rtRingbufferDataLen rb else length) =
      min length (rtRingbufferDataLen rb) := by
    split_ifs <;> omega
  have htake : rb.held.take length = rb.held.take (min length (rtRingbufferDataLen rb)) := by
    rw [← held_length, ← List.take_eq_take_min]
  unfold rtRingbufferGet
  simp only [hlength]
  rw [htake]
  generalize hn : min length (rtRingbufferDataLen rb) = n
  by_cases hzero : rtRingbufferDataLen rb = 0
  · have hnone : n = 0 := by omega
    rw [if_pos hzero, hnone, skip_zero h, List.take_zero]
  · rw [if_neg hzero]
    by_cases hend : rb.bufferSize - rb.readIndex > n
    · rw [if_pos hend, skip_straight (by omega), poolBytes_eq h (by omega) (by omega)]
    · -- the bytes up to the end of the pool, and those behind its start
      have hfirst : rb.readIndex + (rb.bufferSize - rb.readIndex) ≤ rb.bufferSize := by omega
      have hindex : ringIndex rb.bufferSize rb.readIndex (rb.bufferSize - rb.readIndex) = 0 := by
        unfold ringIndex
        rw [if_neg (by omega)]
        omega
      have hsplit := ringSlice_add rb.bufferPtr hread
        (show rb.bufferSize - rb.readIndex + (n - (rb.bufferSize - rb.readIndex)) ≤ rb.bufferSize
          by omega)
      rw [hindex, Nat.add_sub_cancel' (by omega), ringSlice_straight _ hfirst,
        ringSlice_straight _
          (show 0 + (n - (rb.bufferSize - rb.readIndex)) ≤ rb.bufferSize by omega)]
        at hsplit
      rw [if_neg hend, skip_wrapped hread (by omega), RtRingbuffer.held,
        ringSlice_take _ hread hle (by omega), hsplit]
      rfl

/-- `rt_ringbuffer_get_direct` hands out the bytes up to the end of the pool. -/
theorem rtRingbufferGetDirect_eq (h : rb.Valid) :
    rtRingbufferGetDirect rb =
      (min (rtRingbufferDataLen rb) (rb.bufferSize - rb.readIndex),
        if rtRingbufferDataLen rb = 0 then none else some rb.readIndex,
        rb.skip (min (rtRingbufferDataLen rb) (rb.bufferSize - rb.readIndex))) := by
  have hread := h.read
  unfold rtRingbufferGetDirect
  by_cases hzero : rtRingbufferDataLen rb = 0
  · simp only [if_pos hzero]
    rw [hzero, Nat.zero_min, skip_zero h]
  · simp only [if_neg hzero]
    by_cases hend : rb.bufferSize - rb.readIndex > rtRingbufferDataLen rb
    · rw [if_pos hend, Nat.min_eq_left (by omega), skip_straight (by omega)]
    · rw [if_neg hend, Nat.min_eq_right (by omega), skip_wrapped hread (by omega), Nat.sub_self]

/-- `rt_ringbuffer_peek` shows what `rt_ringbuffer_get_direct` would take. -/
theorem rtRingbufferPeek_eq (h : rb.Valid) :
    rtRingbufferPeek rb = ((rtRingbufferGetDirect rb).1, (rtRingbufferGetDirect rb).2.1) := by
  rw [rtRingbufferGetDirect_eq h]
  unfold rtRingbufferPeek
  by_cases hzero : rtRingbufferDataLen rb = 0
  · simp only [if_pos hzero]
    rw [hzero, Nat.zero_min]
  · simp only [if_neg hzero]
    by_cases hend : rb.bufferSize - rb.readIndex > rtRingbufferDataLen rb
    · rw [if_pos hend, Nat.min_eq_left (by omega)]
    · rw [if_neg hend, Nat.min_eq_right (by omega)]

/-- The bytes that these two calls hand out. -/
theorem bytesAt_direct (h : rb.Valid) :
    bytesAt rb.bufferPtr (if rtRingbufferDataLen rb = 0 then none else some rb.readIndex)
        (min (rtRingbufferDataLen rb) (rb.bufferSize - rb.readIndex)) =
      rb.held.take (min (rtRingbufferDataLen rb) (rb.bufferSize - rb.readIndex)) := by
  have hread := h.read
  by_cases hzero : rtRingbufferDataLen rb = 0
  · rw [if_pos hzero, hzero, Nat.zero_min, List.take_zero]
    rfl
  · rw [if_neg hzero, ← poolBytes_eq h (by omega) (by omega)]
    rfl

/-- Writing one byte, as `putchar` and `putchar_force` do. -/
theorem write_char (hwrite : rb.writeIndex < rb.bufferSize) (ch : UInt8) :
    rb.write [ch] =
      if rb.writeIndex = rb.bufferSize - 1 then
        { rb with
          bufferPtr := Function.update rb.bufferPtr rb.writeIndex ch
          writeMirror := !rb.writeMirror
          writeIndex := 0 }
      else
        { rb with
          bufferPtr := Function.update rb.bufferPtr rb.writeIndex ch
          writeIndex := rb.writeIndex + 1 } := by
  have hcopy : ringWrite rb.bufferSize rb.bufferPtr rb.writeIndex [ch] =
      Function.update rb.bufferPtr rb.writeIndex ch := by
    rw [← rtMemcpy_eq _ (show rb.writeIndex + [ch].length ≤ rb.bufferSize from hwrite)]
    funext i
    rw [rtMemcpy, Function.update_apply]
    split_ifs with hin heq heq
    · rw [heq, Nat.sub_self]
      rfl
    · exact List.getD_eq_default _ _ (by rw [List.length_singleton]; omega)
    · omega
    · rfl
  unfold RtRingbuffer.write ringIndex
  rw [hcopy, List.length_singleton]
  by_cases hlast : rb.writeIndex = rb.bufferSize - 1
  · have hindex : rb.writeIndex + 1 - rb.bufferSize = 0 := by omega
    rw [if_pos hlast, if_neg (by omega), decide_eq_true (by omega), Bool.xor_true, hindex]
  · rw [if_neg hlast, if_pos (by omega), decide_eq_false (by omega), Bool.xor_false]

theorem skip_one (hread : rb.readIndex < rb.bufferSize) :
    rb.skip 1 =
      if rb.readIndex = rb.bufferSize - 1 then
        { rb with readMirror := !rb.readMirror, readIndex := 0 }
      else { rb with readIndex := rb.readIndex + 1 } := by
  by_cases hlast : rb.readIndex = rb.bufferSize - 1
  · have hindex : 1 - (rb.bufferSize - rb.readIndex) = 0 := by omega
    rw [if_pos hlast, skip_wrapped hread (by omega), hindex]
  · rw [if_neg hlast, skip_straight (by omega)]

theorem status_full_iff (h : rb.Valid) :
    rtRingbufferStatus rb = .full ↔ rtRingbufferDataLen rb = rb.bufferSize := by
  have hread := h.read
  have hwrite := h.write
  constructor
  · intro hfull
    rw [rtRingbufferDataLen, hfull]
  · intro hall
    rw [dataLen_eq h] at hall
    have hside : rb.turned = true := by
      by_contra hside
      rw [if_neg hside] at hall
      omega
    have hback := h.wrapped hside
    have hmirror : rb.readMirror ≠ rb.writeMirror := by simpa [RtRingbuffer.turned] using hside
    rw [if_pos hside] at hall
    rw [rtRingbufferStatus, if_pos (by omega), if_neg hmirror]

theorem rtRingbufferPutchar_eq (h : rb.Valid) (ch : UInt8) :
    rtRingbufferPutchar rb ch =
      if rtRingbufferDataLen rb < rb.bufferSize then (1, rb.write [ch]) else (0, rb) := by
  have hle := dataLen_le h
  unfold rtRingbufferPutchar rtRingbufferSpaceLen
  by_cases hroom : rtRingbufferDataLen rb < rb.bufferSize
  · rw [if_neg (by omega), if_pos hroom, write_char h.write]
    split_ifs <;> rfl
  · rw [if_pos (by omega), if_neg hroom]

theorem rtRingbufferPutcharForce_eq (h : rb.Valid) (ch : UInt8) :
    rtRingbufferPutcharForce rb ch =
      (1, (rb.skip (rtRingbufferDataLen rb + 1 - rb.bufferSize)).write [ch]) := by
  have hread := h.read
  have hwrite := h.write
  have hle := dataLen_le h
  unfold rtRingbufferPutcharForce
  simp only [status_full_iff h]
  by_cases hfull : rtRingbufferDataLen rb = rb.bufferSize
  · have hsame : rb.readIndex = rb.writeIndex := by
      have hstatus := (status_full_iff h).mpr hfull
      unfold rtRingbufferStatus at hstatus
      by_contra hne
      rw [if_neg hne] at hstatus
      cases hstatus
    have hone : rtRingbufferDataLen rb + 1 - rb.bufferSize = 1 := by omega
    have hskip : (rb.skip 1).writeIndex < (rb.skip 1).bufferSize := hwrite
    rw [hone, write_char hskip, skip_one hread, hsame]
    simp only [if_pos hfull]
    split_ifs <;> rfl
  · have hnone : rtRingbufferDataLen rb + 1 - rb.bufferSize = 0 := by omega
    rw [hnone, skip_zero h, write_char hwrite]
    simp only [if_neg hfull]
    split_ifs <;> rfl

theorem rtRingbufferGetchar_eq (h : rb.Valid) :
    rtRingbufferGetchar rb =
      if rtRingbufferDataLen rb = 0 then (0, none, rb)
      else (1, some (rb.bufferPtr rb.readIndex), rb.skip 1) := by
  unfold rtRingbufferGetchar
  rw [skip_one h.read]
  split_ifs <;> rfl

end Moves

/-! ## Refinement -/

/-- The buffer stands for a queue of at most `cap` bytes. -/
structure RtRingbuffer.Represents (rb : RtRingbuffer) (cap : Nat) (queue : List UInt8) :
    Prop where
  valid : rb.Valid
  size : rb.bufferSize = cap
  held : rb.held = queue

section Refinement

variable {rb : RtRingbuffer} {cap : Nat} {queue : List UInt8}

theorem RtRingbuffer.Represents.dataLen (h : rb.Represents cap queue) :
    rtRingbufferDataLen rb = queue.length := by
  rw [← h.held, held_length]

theorem RtRingbuffer.Represents.skip (h : rb.Represents cap queue) {n : Nat}
    (hn : n ≤ queue.length) : (rb.skip n).Represents cap (queue.drop n) := by
  rw [← h.dataLen] at hn
  refine ⟨valid_skip h.valid hn, h.size, ?_⟩
  rw [held_skip h.valid hn, h.held]

theorem RtRingbuffer.Represents.write (h : rb.Represents cap queue) {data : List UInt8}
    (hroom : queue.length + data.length ≤ cap) :
    (rb.write data).Represents cap (queue ++ data) := by
  rw [← h.dataLen, ← h.size] at hroom
  refine ⟨valid_write h.valid hroom, h.size, ?_⟩
  rw [held_write h.valid hroom, h.held]

/-- Skipping and writing: the last `cap` bytes remain. -/
theorem RtRingbuffer.Represents.force (h : rb.Represents cap queue) (ptr : List UInt8) :
    ((rb.skip (queue.length + min ptr.length cap - cap)).write
      (ptr.drop (ptr.length - cap))).Represents cap
        ((queue ++ ptr).drop ((queue ++ ptr).length - cap)) := by
  have hle : queue.length ≤ cap := by
    rw [← h.dataLen, ← h.size]
    exact dataLen_le h.valid
  have hskip : queue.length + min ptr.length cap - cap ≤ queue.length := by omega
  have hroom : (queue.drop (queue.length + min ptr.length cap - cap)).length +
      (ptr.drop (ptr.length - cap)).length ≤ cap := by
    rw [List.length_drop, List.length_drop]
    omega
  have hdrop : (queue ++ ptr).drop ((queue ++ ptr).length - cap) =
      queue.drop (queue.length + min ptr.length cap - cap) ++ ptr.drop (ptr.length - cap) := by
    rw [List.length_append, List.drop_append]
    by_cases hlong : ptr.length ≤ cap
    · have hzero : ptr.length - cap = 0 := by omega
      have hrest : queue.length + ptr.length - cap - queue.length = 0 := by omega
      rw [Nat.min_eq_left hlong, hzero, hrest]
    · have hall : queue.length ≤ queue.length + ptr.length - cap := by omega
      have hrest : queue.length + ptr.length - cap - queue.length = ptr.length - cap := by omega
      rw [Nat.min_eq_right (by omega), Nat.add_sub_cancel, List.drop_length,
        List.drop_eq_nil_of_le hall, hrest]
  rw [hdrop]
  exact (h.skip hskip).write hroom

theorem RtRingbuffer.Represents.nil_iff (h : rb.Represents cap queue) :
    rtRingbufferDataLen rb = 0 ↔ queue = [] := by
  rw [h.dataLen, List.length_eq_zero_iff]

/-- What `get_direct` and `peek` hand out is the front of the queue, and not nothing unless
the queue is empty. -/
theorem RtRingbuffer.Represents.direct (h : rb.Represents cap queue) :
    ∃ n ≤ queue.length, (n = 0 ↔ queue = []) ∧
      min (rtRingbufferDataLen rb) (rb.bufferSize - rb.readIndex) = n ∧
      bytesAt rb.bufferPtr (if rtRingbufferDataLen rb = 0 then none else some rb.readIndex) n =
        queue.take n := by
  have hread := h.valid.read
  have hbytes := bytesAt_direct h.valid
  rw [h.held] at hbytes
  refine ⟨_, ?_, ?_, rfl, hbytes⟩
  · rw [h.dataLen]
    exact Nat.min_le_left _ _
  · rw [← h.nil_iff]
    omega

/-- One call does to the queue what its reply says. -/
theorem serve_refines (h : rb.Represents cap queue) (call : RingCall) :
    ∃ next, QueueStep cap queue (rb.serve call).1 next call ∧
      (rb.serve call).2.Represents cap next := by
  have hvalid := h.valid
  have hle : queue.length ≤ cap := by
    rw [← h.dataLen, ← h.size]
    exact dataLen_le hvalid
  cases call with
  | put ptr =>
    have hspace : rtRingbufferSpaceLen rb = cap - queue.length := by
      rw [rtRingbufferSpaceLen, h.size, h.dataLen]
    simp only [RtRingbuffer.serve, rtRingbufferPut_eq hvalid, hspace]
    refine ⟨_, ⟨rfl, rfl⟩, h.write ?_⟩
    rw [List.length_take]
    omega
  | putForce ptr =>
    simp only [RtRingbuffer.serve, rtRingbufferPutForce_eq hvalid, h.size, h.dataLen]
    exact ⟨_, ⟨rfl, rfl⟩, h.force ptr⟩
  | putchar ch =>
    simp only [RtRingbuffer.serve, rtRingbufferPutchar_eq hvalid, h.size, h.dataLen, QueueStep]
    by_cases hroom : queue.length < cap
    · simp only [if_pos hroom]
      exact ⟨_, ⟨trivial, rfl⟩, h.write hroom⟩
    · simp only [if_neg hroom]
      exact ⟨_, ⟨trivial, rfl⟩, h⟩
  | putcharForce ch =>
    have hpos : 0 < cap := h.size ▸ Nat.zero_lt_of_lt hvalid.read
    have hforce := h.force [ch]
    have hone : min [ch].length cap = 1 := Nat.min_eq_left hpos
    have hall : [ch].length - cap = 0 := Nat.sub_eq_zero_of_le hpos
    rw [hone, hall] at hforce
    simp only [RtRingbuffer.serve, rtRingbufferPutcharForce_eq hvalid, h.size, h.dataLen]
    exact ⟨_, ⟨rfl, rfl⟩, hforce⟩
  | get length =>
    simp only [RtRingbuffer.serve, rtRingbufferGet_eq hvalid, h.dataLen, h.held]
    have htake : queue.drop (min length queue.length) = queue.drop length := by
      rcases Nat.le_total length queue.length with hle | hle
      · rw [Nat.min_eq_left hle]
      · rw [Nat.min_eq_right hle, List.drop_length, List.drop_eq_nil_of_le hle]
    exact ⟨_, ⟨rfl, rfl, htake⟩, h.skip (Nat.min_le_right _ _)⟩
  | getDirect =>
    obtain ⟨n, hn, hzero, hmin, hbytes⟩ := h.direct
    have hlen : (queue.take n).length = n := List.length_take_of_le hn
    have hpool : (rb.skip n).bufferPtr = rb.bufferPtr := rfl
    simp only [RtRingbuffer.serve, rtRingbufferGetDirect_eq hvalid, hmin, hpool, hbytes]
    refine ⟨_, ⟨not_congr ?_, hlen.symm, (List.take_append_drop n queue).symm⟩, h.skip hn⟩
    rw [← hzero, ← List.length_eq_zero_iff, hlen]
  | peek =>
    obtain ⟨n, hn, hzero, hmin, hbytes⟩ := h.direct
    have hlen : (queue.take n).length = n := List.length_take_of_le hn
    simp only [RtRingbuffer.serve, rtRingbufferPeek_eq hvalid, rtRingbufferGetDirect_eq hvalid,
      hmin, hbytes]
    refine ⟨_, ⟨not_congr ?_, hlen.symm, List.take_prefix n queue, rfl⟩, h⟩
    rw [← hzero, ← List.length_eq_zero_iff, hlen]
  | getchar =>
    simp only [RtRingbuffer.serve, rtRingbufferGetchar_eq hvalid]
    cases queue with
    | nil =>
      rw [if_pos (h.nil_iff.mpr rfl)]
      exact ⟨[], ⟨rfl, rfl, rfl⟩, h⟩
    | cons ch rest =>
      have hsome : rtRingbufferDataLen rb ≠ 0 := mt h.nil_iff.mp (List.cons_ne_nil ch rest)
      have hread := hvalid.read
      have hfirst := poolBytes_eq (n := 1) hvalid (by omega) (by omega)
      rw [h.held] at hfirst
      have hch : rb.bufferPtr rb.readIndex = ch := (List.cons.inj hfirst).1
      rw [if_neg hsome, hch]
      exact ⟨rest, ⟨rfl, rfl, rfl⟩, h.skip (Nat.le_add_left 1 rest.length)⟩
  | reset =>
    have hreset : (rtRingbufferReset rb).Valid :=
      ⟨Nat.zero_lt_of_lt hvalid.read, Nat.zero_lt_of_lt hvalid.read, fun _ => le_rfl,
        fun _ => le_rfl⟩
    exact ⟨[], rfl, hreset, h.size, rfl⟩
  | dataLen => exact ⟨queue, ⟨h.dataLen, rfl⟩, h⟩

/-- No call writes behind the pool. -/
theorem serve_outside (h : rb.Represents cap queue) (call : RingCall) {i : Nat} (hi : cap ≤ i) :
    (rb.serve call).2.bufferPtr i = rb.bufferPtr i := by
  have hvalid := h.valid
  have hwrite : ∀ data, ringWrite rb.bufferSize rb.bufferPtr rb.writeIndex data i =
      rb.bufferPtr i := fun data => if_neg (by rw [h.size]; omega)
  cases call with
  | put ptr =>
    simp only [RtRingbuffer.serve, rtRingbufferPut_eq hvalid]
    exact hwrite _
  | putForce ptr =>
    simp only [RtRingbuffer.serve, rtRingbufferPutForce_eq hvalid]
    exact hwrite _
  | putchar ch =>
    simp only [RtRingbuffer.serve, rtRingbufferPutchar_eq hvalid]
    split_ifs
    · exact hwrite [ch]
    · rfl
  | putcharForce ch =>
    simp only [RtRingbuffer.serve, rtRingbufferPutcharForce_eq hvalid]
    exact hwrite [ch]
  | get length =>
    simp only [RtRingbuffer.serve, rtRingbufferGet_eq hvalid]
    rfl
  | getDirect =>
    simp only [RtRingbuffer.serve, rtRingbufferGetDirect_eq hvalid]
    rfl
  | getchar =>
    simp only [RtRingbuffer.serve, rtRingbufferGetchar_eq hvalid]
    split_ifs <;> rfl
  | peek | reset | dataLen => rfl

theorem serveAll_refines (h : rb.Represents cap queue) (calls : List RingCall) :
    ∃ final, QueueRun cap queue (rb.serveAll calls).1 final ∧
      (rb.serveAll calls).2.Represents cap final ∧
      ∀ i ≥ cap, (rb.serveAll calls).2.bufferPtr i = rb.bufferPtr i := by
  induction calls generalizing rb queue with
  | nil => exact ⟨queue, .nil queue, h, fun i _ => rfl⟩
  | cons call calls ih =>
    obtain ⟨mid, hstep, hmid⟩ := serve_refines h call
    obtain ⟨final, hrun, hfinal, houtside⟩ := ih hmid
    exact ⟨final, .cons hstep hrun, hfinal,
      fun i hi => (houtside i hi).trans (serve_outside h call hi)⟩

/-- A buffer of at least `RT_ALIGN_SIZE` bytes starts as the empty queue. -/
theorem represents_init (pool : Nat → UInt8) {size : Nat} (hsize : rtAlignSize ≤ size) :
    (rtRingbufferInit pool size).Represents (rtAlignDown size) [] := by
  have hpos : 0 < rtAlignDown size := by
    unfold rtAlignDown rtAlignSize at *
    omega
  exact ⟨⟨hpos, hpos, fun _ => le_rfl, fun _ => le_rfl⟩, rfl, rfl⟩

end Refinement

/-- Any calls on a created ring buffer reply as a queue of `RT_ALIGN_DOWN(size,
RT_ALIGN_SIZE)` bytes does; afterwards the indices are inside the pool, the bytes held are
the queue, and nothing behind the pool has been written. -/
theorem ringbuffer_refines (object : Bool) (pool : Option (Nat → UInt8)) {size : Nat}
    (hsize : rtAlignSize ≤ size) {rb : RtRingbuffer}
    (hcreate : rtRingbufferCreate object pool size = some rb) (calls : List RingCall) :
    ∃ queue, QueueRun (rtAlignDown size) [] (rb.serveAll calls).1 queue ∧
      (rb.serveAll calls).2.Represents (rtAlignDown size) queue ∧
      rtRingbufferDataLen (rb.serveAll calls).2 = queue.length ∧
      queue.length ≤ rtAlignDown size ∧
      (rb.serveAll calls).2.readIndex < rtAlignDown size ∧
      (rb.serveAll calls).2.writeIndex < rtAlignDown size ∧
      ∀ i ≥ rtAlignDown size, (rb.serveAll calls).2.bufferPtr i = rb.bufferPtr i := by
  have halign : rtAlignDown (rtAlignDown size) = rtAlignDown size :=
    Nat.div_mul_cancel (rtAlignDown_dvd size)
  have hinit : rb.Represents (rtAlignDown size) [] := by
    unfold rtRingbufferCreate at hcreate
    cases object with
    | false => cases hcreate
    | true =>
      cases pool with
      | none => cases hcreate
      | some pool =>
        obtain rfl : rtRingbufferInit pool (rtAlignDown size) = rb := Option.some.inj hcreate
        have hrep := represents_init pool (show rtAlignSize ≤ rtAlignDown size from
          Nat.le_of_dvd (by unfold rtAlignDown rtAlignSize at *; omega) (rtAlignDown_dvd size))
        rwa [halign] at hrep
  obtain ⟨queue, hrun, hfinal, houtside⟩ := serveAll_refines hinit calls
  have hlen := hfinal.dataLen
  have hle := dataLen_le hfinal.valid
  rw [hfinal.size, hlen] at hle
  refine ⟨queue, hrun, hfinal, hlen, hle, ?_, ?_, houtside⟩
  · rw [← hfinal.size]
    exact hfinal.valid.read
  · rw [← hfinal.size]
    exact hfinal.valid.write

/-- A buffer of nineteen bytes holds sixteen; twenty more replace them, around the end of the
pool. -/
theorem ringbuffer_refines_run :
    ∃ rb, rtRingbufferCreate true (some fun _ => 0) 19 = some rb ∧
      ((rb.serveAll [.put (List.replicate 5 1), .get 3, .put (List.replicate 20 2), .dataLen,
        .putForce (List.replicate 20 3), .getDirect, .peek, .getchar]).1.map fun served =>
          (served.2.size, served.2.bytes.length)) =
        [(5, 0), (3, 3), (14, 0), (16, 0), (16, 0), (13, 13), (3, 3), (1, 1)] ∧
      ∃ queue, QueueRun 16 [] (rb.serveAll [.put (List.replicate 5 1), .get 3,
        .put (List.replicate 20 2), .dataLen, .putForce (List.replicate 20 3), .getDirect, .peek,
        .getchar]).1 queue := by
  have hcreate : rtRingbufferCreate true (some fun _ => 0) 19 =
      some (rtRingbufferInit (fun _ => 0) 16) := rfl
  obtain ⟨queue, hrun, -⟩ := ringbuffer_refines true (some fun _ => 0) (by decide) hcreate
    [.put (List.replicate 5 1), .get 3, .put (List.replicate 20 2), .dataLen,
      .putForce (List.replicate 20 3), .getDirect, .peek, .getchar]
  exact ⟨_, hcreate, by decide, queue, hrun⟩

end Gd32Vw553h.Ipc
