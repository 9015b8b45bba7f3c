/-
  Ipc/MsgQueue.lean --- the storage of a message queue (`rt_mq_init` and `rt_mq_create` of
  `src/ipc.c`).

  A slot is a header and `RT_ALIGN(msg_size, RT_ALIGN_SIZE)` bytes, counted in words that
  wrap.  The queue keeps `msg_size` and `max_msgs` in sixteen bits; the distance of the
  slots is computed from the argument, the size that `rt_mq_send` accepts is what has been
  kept, and the size that `rt_mq_create` allocates is a product.  `mqStorage_iff` says for
  which arguments the four agree.

  `RT_USING_MESSAGEQUEUE_PRIORITY` is not set.  The objects, the lists of suspended threads
  and the spin lock are left out.
-/
import Gd32Vw553h.Foundation.Slots
import Gd32Vw553h.Kernel.RtDef
import Gd32Vw553h.Klibc.KErrno
import Mathlib.Logic.Function.Basic

set_option autoImplicit false

namespace Gd32Vw553h.Ipc

open Gd32Vw553h.Foundation Gd32Vw553h.Kernel Gd32Vw553h.Klibc

/-! ## The code -/

/-- `sizeof(struct rt_mq_message)` -/
abbrev sizeofMqMessage : Nat := 8

/-- A value in a `rt_uint16_t`. -/
def toUInt16 (n : Nat) : Nat := n % 65536

/-- The quotient of two words.  A divisor of 0 leaves all bits set, as the instruction of the
target has it. -/
def divu (a b : Nat) : Nat := if b = 0 then wordSize - 1 else a / b

/-- `struct rt_messagequeue`, and the `next` fields of the headers in its pool. -/
structure RtMessagequeue where
  msgPool : Nat
  msgSize : Nat
  maxMsgs : Nat
  entry : Nat
  msgQueueHead : Option Nat
  msgQueueTail : Option Nat
  msgQueueFree : Option Nat
  next : Nat → Option Nat
  /-- the headers that have been written -/
  headers : List Nat

/-- `msg_align_size + sizeof(struct rt_mq_message)` -/
def slotSize (msgSize : Nat) : Nat := (rtAlign msgSize + sizeofMqMessage) % wordSize

/-- `head` in the round `temp` of the loop. -/
def slotHead (msgPool stride temp : Nat) : Nat := (msgPool + temp * stride % wordSize) % wordSize

/-- A round of the loop that initialises the empty list. -/
def pushFree (stride : Nat) (mq : RtMessagequeue) (temp : Nat) : RtMessagequeue :=
  let head := slotHead mq.msgPool stride temp
  { mq with
    next := Function.update mq.next head mq.msgQueueFree
    msgQueueFree := some head
    headers := mq.headers ++ [head] }

/-- The lists of an empty queue. -/
def initLists (msgPool msgSize maxMsgs : Nat) (next : Nat → Option Nat) : RtMessagequeue :=
  (List.range (toUInt16 maxMsgs)).foldl (pushFree (slotSize msgSize))
    { msgPool := msgPool
      msgSize := toUInt16 msgSize
      maxMsgs := toUInt16 maxMsgs
      entry := 0
      msgQueueHead := none
      msgQueueTail := none
      msgQueueFree := none
      next := next
      headers := [] }

/-- `rt_mq_init`, over memory with these words. -/
def rtMqInit (next : Nat → Option Nat) (msgpool msgSize poolSize : UInt32) :
    Except Int RtMessagequeue :=
  let maxMsgs := divu poolSize.toNat (slotSize msgSize.toNat)
  if toUInt16 maxMsgs = 0 then .error (-rtEInval)
  else .ok (initLists msgpool.toNat msgSize.toNat maxMsgs next)

/-- The argument of `RT_KERNEL_MALLOC`. -/
def mallocSize (msgSize maxMsgs : Nat) : Nat := slotSize msgSize * toUInt16 maxMsgs % wordSize

/-- `rt_mq_create`, where `object` says whether the object could be allocated and `malloc` is
the allocator. -/
def rtMqCreate (object : Bool) (malloc : Nat → Option UInt32) (next : Nat → Option Nat)
    (msgSize maxMsgs : UInt32) : Option RtMessagequeue :=
  if object then
    (malloc (mallocSize msgSize.toNat maxMsgs.toNat)).map fun msgPool =>
      initLists msgPool.toNat msgSize.toNat maxMsgs.toNat next
  else none

/-- `size > mq->msg_size` in `_rt_mq_send_wait` -/
def sendRefuses (mq : RtMessagequeue) (size : Nat) : Bool := size > mq.msgSize

/-- A queue that is set up in one way or the other. -/
inductive MqSetup where
  | init (msgpool msgSize poolSize : UInt32)
  | create (object : Bool) (malloc : Nat → Option UInt32) (msgSize maxMsgs : UInt32)

/-- The queue if the call reports success. -/
def MqSetup.queue (next : Nat → Option Nat) : MqSetup → Option RtMessagequeue
  | .init msgpool msgSize poolSize => (rtMqInit next msgpool msgSize poolSize).toOption
  | .create object malloc msgSize maxMsgs => rtMqCreate object malloc next msgSize maxMsgs

def MqSetup.msgSize : MqSetup → Nat
  | .init _ msgSize _ => msgSize.toNat
  | .create _ _ msgSize _ => msgSize.toNat

/-- The size of the memory for the messages: what the caller provides, or what is asked for. -/
def MqSetup.poolSize : MqSetup → Nat
  | .init _ _ poolSize => poolSize.toNat
  | .create _ _ msgSize maxMsgs => mallocSize msgSize.toNat maxMsgs.toNat

/-! ## The storage -/

/-- Headers are written into the pool, slots do not overlap, and a message that `rt_mq_send`
does not refuse fits behind the header of a slot. -/
structure StorageRight (setup : MqSetup) (mq : RtMessagequeue) : Prop where
  headers : ∀ head ∈ mq.headers,
    InArea wordSize mq.msgPool setup.poolSize head sizeofMqMessage
  apart : SlotsApart wordSize (slotSize setup.msgSize) mq.maxMsgs
  fits : ∀ temp < mq.maxMsgs, ∀ size, sendRefuses mq size = false →
    sizeofMqMessage + size ≤ slotSize setup.msgSize

/-- The size of a slot does not wrap, and `rt_mq_create` is not asked for more slots than
fit into a word, or for none. -/
def MqSetup.Fits : MqSetup → Prop
  | .init _ msgSize _ => msgSize.toNat + sizeofMqMessage ≤ alignMax
  | .create _ _ msgSize maxMsgs =>
    toUInt16 maxMsgs.toNat = 0 ∨
      (msgSize.toNat + sizeofMqMessage ≤ alignMax ∧
        (rtAlign msgSize.toNat + sizeofMqMessage) * toUInt16 maxMsgs.toNat < wordSize)

section Storage

variable {next : Nat → Option Nat} {msgPool msgSize maxMsgs : Nat}

/-- The loop writes one header for each slot and leaves the rest of the queue alone. -/
theorem pushFree_foldl (stride : Nat) (mq : RtMessagequeue) (n : Nat) :
    ∃ next free, (List.range n).foldl (pushFree stride) mq = { mq with
      next := next
      msgQueueFree := free
      headers := mq.headers ++ (List.range n).map (slotHead mq.msgPool stride) } := by
  induction n with
  | zero => exact ⟨mq.next, mq.msgQueueFree, by simp⟩
  | succ n ih =>
    obtain ⟨next, free, hfold⟩ := ih
    rw [List.range_succ, List.foldl_append, hfold, List.map_append, ← List.append_assoc]
    exact ⟨_, _, rfl⟩

theorem initLists_eq (msgPool msgSize maxMsgs : Nat) (next : Nat → Option Nat) :
    (initLists msgPool msgSize maxMsgs next).msgPool = msgPool ∧
      (initLists msgPool msgSize maxMsgs next).msgSize = toUInt16 msgSize ∧
      (initLists msgPool msgSize maxMsgs next).maxMsgs = toUInt16 maxMsgs ∧
      (initLists msgPool msgSize maxMsgs next).headers =
        (List.range (toUInt16 maxMsgs)).map (slotHead msgPool (slotSize msgSize)) := by
  unfold initLists
  obtain ⟨next', free, hfold⟩ := pushFree_foldl (slotSize msgSize) {
    msgPool := msgPool, msgSize := toUInt16 msgSize, maxMsgs := toUInt16 maxMsgs, entry := 0,
    msgQueueHead := none, msgQueueTail := none, msgQueueFree := none, next := next,
    headers := [] } (toUInt16 maxMsgs)
  rw [hfold]
  exact ⟨rfl, rfl, rfl, rfl⟩

/-- Near the limit of a word a slot is too small for messages of the size that is kept. -/
theorem slotSize_cases (h : msgSize < wordSize) :
    (msgSize + sizeofMqMessage ≤ alignMax ∧ slotSize msgSize = rtAlign msgSize + sizeofMqMessage ∧
      msgSize ≤ rtAlign msgSize ∧ slotSize msgSize < wordSize) ∨
    (alignMax < msgSize + sizeofMqMessage ∧
      slotSize msgSize < sizeofMqMessage + toUInt16 msgSize) := by
  unfold slotSize toUInt16 rtAlign alignMax wordSize rtAlignSize sizeofMqMessage at *
  omega

/-- The storage of a queue whose pool has any size. -/
theorem storage_iff {size : Nat} (hpool : msgPool < wordSize) (hmsg : msgSize < wordSize)
    (hsize : size < wordSize) (setup : MqSetup) (hsetup : setup.msgSize = msgSize)
    (hpoolSize : setup.poolSize = size) :
    StorageRight setup (initLists msgPool msgSize maxMsgs next) ↔
      toUInt16 maxMsgs = 0 ∨
        (msgSize + sizeofMqMessage ≤ alignMax ∧ toUInt16 maxMsgs * slotSize msgSize ≤ wordSize ∧
          (toUInt16 maxMsgs - 1) * slotSize msgSize + sizeofMqMessage ≤ size) := by
  have hheader : sizeofMqMessage = 8 := rfl
  obtain ⟨hpool', hkept, hmax, hheaders⟩ := initLists_eq msgPool msgSize maxMsgs next
  generalize toUInt16 maxMsgs = n at *
  constructor
  · rintro ⟨hinside, hapart, hfits⟩
    rw [hmax, hsetup] at hapart hfits
    rcases Nat.eq_zero_or_pos n with rfl | hn
    · exact .inl rfl
    · have hlongest := hfits 0 hn (toUInt16 msgSize) (by simp [sendRefuses, hkept])
      rcases slotSize_cases hmsg with ⟨hfit, hslot, -, hless⟩ | ⟨-, hshort⟩
      · have hcircle := (slots_apart_iff (by omega) hless.le).mp hapart
        have hlast : (n - 1) * slotSize msgSize < wordSize := by
          have hmul : (n - 1) * slotSize msgSize + slotSize msgSize = n * slotSize msgSize := by
            rw [← Nat.succ_mul, Nat.succ_eq_add_one, Nat.sub_add_cancel hn]
          omega
        have harea := hinside (slotHead msgPool (slotSize msgSize) (n - 1)) (by
          rw [hheaders]
          exact List.mem_map.mpr ⟨n - 1, List.mem_range.mpr (by omega), rfl⟩)
        rw [hpool', hpoolSize, slotHead, Nat.mod_eq_of_lt hlast] at harea
        exact .inr ⟨hfit, hcircle, (inArea_iff hpool hsize hlast (by decide)).mp harea⟩
      · omega
  · intro h
    have hright : ∀ temp < n, msgSize + sizeofMqMessage ≤ alignMax ∧
        n * slotSize msgSize ≤ wordSize ∧
        (n - 1) * slotSize msgSize + sizeofMqMessage ≤ size := fun temp htemp =>
      h.resolve_left (by omega)
    refine ⟨fun head hmem => ?_, ?_, fun temp htemp k hk => ?_⟩
    · rw [hheaders] at hmem
      obtain ⟨temp, htemp, rfl⟩ := List.mem_map.mp hmem
      have hlt := List.mem_range.mp htemp
      obtain ⟨-, -, hend⟩ := hright temp hlt
      have hle : temp * slotSize msgSize ≤ (n - 1) * slotSize msgSize :=
        Nat.mul_le_mul_right _ (by omega)
      rw [hpool', hpoolSize, slotHead, Nat.mod_eq_of_lt (by omega : temp * slotSize msgSize < wordSize)]
      exact (inArea_iff hpool hsize (by omega) (by decide)).mpr (by omega)
    · rw [hmax, hsetup]
      rcases Nat.eq_zero_or_pos n with rfl | hn
      · exact fun i j hi => absurd hi (Nat.not_lt_zero i)
      · obtain ⟨hfit, hcircle, -⟩ := hright 0 hn
        rcases slotSize_cases hmsg with ⟨-, hslot, -, hless⟩ | ⟨hwrap, -⟩
        · exact (slots_apart_iff (by omega) hless.le).mpr hcircle
        · omega
    · rw [hmax] at htemp
      rw [hsetup]
      obtain ⟨hfit, -, -⟩ := hright temp htemp
      have haccepted : k ≤ toUInt16 msgSize := by simpa [sendRefuses, hkept] using hk
      have hkeptLe : toUInt16 msgSize ≤ msgSize := Nat.mod_le _ _
      rcases slotSize_cases hmsg with ⟨-, hslot, hle, -⟩ | ⟨hwrap, -⟩
      · omega
      · omega

/-- The storage is right exactly for these arguments. -/
theorem mqStorage_iff {setup : MqSetup} {mq : RtMessagequeue} (hqueue : setup.queue next = some mq) :
    StorageRight setup mq ↔ setup.Fits := by
  have hheader : sizeofMqMessage = 8 := rfl
  cases setup with
  | init msgpool msgSize poolSize =>
    have hmsg : msgSize.toNat < wordSize := msgSize.toNat_lt
    have hstorage := @storage_iff next _ _ (divu poolSize.toNat (slotSize msgSize.toNat)) _
      msgpool.toNat_lt hmsg poolSize.toNat_lt
      (.init msgpool msgSize poolSize) rfl rfl
    have hcount : toUInt16 (divu poolSize.toNat (slotSize msgSize.toNat)) ≠ 0 := by
      intro hzero
      simp [MqSetup.queue, rtMqInit, hzero, Except.toOption] at hqueue
    obtain rfl : initLists msgpool.toNat msgSize.toNat _ next = mq := by
      simpa [MqSetup.queue, rtMqInit, hcount, Except.toOption] using hqueue
    rw [hstorage]
    constructor
    · intro h
      exact (h.resolve_left hcount).1
    · intro h
      have hfit : msgSize.toNat + sizeofMqMessage ≤ alignMax := h
      rcases slotSize_cases hmsg with ⟨-, hslot, -, hless⟩ | ⟨hwrap, -⟩
      · have hquot : divu poolSize.toNat (slotSize msgSize.toNat) =
            poolSize.toNat / slotSize msgSize.toNat := if_neg (by omega)
        have hpool : poolSize.toNat < wordSize := poolSize.toNat_lt
        have hall : toUInt16 (divu poolSize.toNat (slotSize msgSize.toNat)) *
            slotSize msgSize.toNat ≤ poolSize.toNat := by
          calc toUInt16 (divu poolSize.toNat (slotSize msgSize.toNat)) * slotSize msgSize.toNat
              ≤ poolSize.toNat / slotSize msgSize.toNat * slotSize msgSize.toNat := by
                rw [hquot]
                exact Nat.mul_le_mul_right _ (Nat.mod_le _ _)
            _ ≤ poolSize.toNat := Nat.div_mul_le_self _ _
        generalize toUInt16 (divu poolSize.toNat (slotSize msgSize.toNat)) = n at *
        have hmul : (n - 1) * slotSize msgSize.toNat + slotSize msgSize.toNat =
            n * slotSize msgSize.toNat := by
          rw [← Nat.succ_mul, Nat.succ_eq_add_one, Nat.sub_add_cancel (by omega)]
        exact .inr ⟨hfit, by omega, by omega⟩
      · omega
  | create object malloc msgSize maxMsgs =>
    have hmsg : msgSize.toNat < wordSize := msgSize.toNat_lt
    cases object with
    | false => simp [MqSetup.queue, rtMqCreate] at hqueue
    | true =>
      obtain ⟨msgPool, -, rfl⟩ : ∃ msgPool,
          malloc (mallocSize msgSize.toNat maxMsgs.toNat) = some msgPool ∧
            initLists msgPool.toNat msgSize.toNat maxMsgs.toNat next = mq := by
        simpa [MqSetup.queue, rtMqCreate] using hqueue
      have hsize : mallocSize msgSize.toNat maxMsgs.toNat < wordSize := Nat.mod_lt _ (by decide)
      rw [storage_iff msgPool.toNat_lt hmsg hsize (.create true malloc msgSize maxMsgs) rfl rfl]
      refine or_congr_right' fun hcount => and_congr_right fun hfit => ?_
      rcases slotSize_cases hmsg with ⟨-, hslot, -, hless⟩ | ⟨hwrap, -⟩
      · have hmalloc : mallocSize msgSize.toNat maxMsgs.toNat =
          slotSize msgSize.toNat * toUInt16 maxMsgs.toNat % wordSize := rfl
        rw [hmalloc, ← hslot]
        generalize toUInt16 maxMsgs.toNat = n at *
        have hmul : (n - 1) * slotSize msgSize.toNat + slotSize msgSize.toNat =
            n * slotSize msgSize.toNat := by
          rw [← Nat.succ_mul, Nat.succ_eq_add_one, Nat.sub_add_cancel (by omega)]
        rw [Nat.mul_comm (slotSize msgSize.toNat) n]
        constructor
        · rintro ⟨hle, hend⟩
          rcases Nat.lt_or_eq_of_le hle with hlt | heq
          · exact hlt
          · rw [heq, Nat.mod_self] at hend
            omega
        · intro hlt
          rw [Nat.mod_eq_of_lt hlt]
          exact ⟨hlt.le, by omega⟩
      · omega

end Storage

/-- A pool of 100 bytes for messages of up to ten. -/
theorem mqStorage_iff_ten : ∃ mq,
    (MqSetup.init 536870912 10 100).queue (fun _ => none) = some mq ∧ mq.maxMsgs = 4 ∧
      StorageRight (.init 536870912 10 100) mq := by
  have hqueue : (MqSetup.init 536870912 10 100).queue (fun _ => none) =
      some (initLists 536870912 10 (divu 100 (slotSize 10)) fun _ => none) := rfl
  exact ⟨_, hqueue, by decide, (mqStorage_iff hqueue).mpr (by unfold MqSetup.Fits; decide)⟩

/-- Two messages of 2^31 bytes: sixteen bytes are asked for, and the second header lies far
behind them. -/
theorem not_mqStorage : ∃ mq,
    (MqSetup.create true (fun _ => some 536870912) 2147483648 2).queue (fun _ => none) = some mq ∧
      ¬StorageRight (.create true (fun _ => some 536870912) 2147483648 2) mq := by
  refine ⟨initLists 536870912 2147483648 2 fun _ => none, rfl, fun h => ?_⟩
  have harea := h.headers 2684354568 (by decide) 0 (by decide)
  revert harea
  decide

end Gd32Vw553h.Ipc
