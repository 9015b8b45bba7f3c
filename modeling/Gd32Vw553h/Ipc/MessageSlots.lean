/-
  Ipc/MessageSlots.lean --- the slots of a message queue and their two lists
  (`rt-thread/src/ipc.c`).

  A slot is a `struct rt_mq_message` and the bytes behind it.  It is named by its number in the
  pool here; `Ipc.MsgQueue` is about where it lies.  Slots that are free and slots with messages
  are linked through `next`, and each of the functions below is what `_rt_mq_send_wait`,
  `rt_mq_urgent`, `_rt_mq_recv` and `rt_mq_control` do to the two lists in one section that holds
  the lock, or to a slot in between.

  `RT_USING_MESSAGEQUEUE_PRIORITY` is not set.
-/
import Gd32Vw553h.Foundation.LinkedFrom
import Mathlib.Data.List.Perm.Basic
import Mathlib.Data.List.Range

set_option autoImplicit false

namespace Gd32Vw553h.Ipc

open Gd32Vw553h.Foundation

/-! ## The code -/

/-- `struct rt_messagequeue` and its slots, without the lists of threads. -/
structure MqStore where
  msgSize : Nat
  maxMsgs : Nat
  entry : Nat
  msgQueueHead : Option Nat
  msgQueueTail : Option Nat
  msgQueueFree : Option Nat
  /-- `next` of `struct rt_mq_message` -/
  next : Nat → Option Nat
  /-- `length` of `struct rt_mq_message` -/
  length : Nat → Nat
  /-- `GET_MESSAGEBYTE_ADDR` -/
  bytes : Nat → Nat → UInt8

namespace MqStore

/-- A slot is put into the free list. -/
def pushFree (mq : MqStore) (slot : Nat) : MqStore :=
  { mq with next := Function.update mq.next slot mq.msgQueueFree, msgQueueFree := some slot }

/-- `rt_mq_init` and `rt_mq_create`, over memory with these contents. -/
def init (msgSize maxMsgs : UInt16) (next : Nat → Option Nat) (length : Nat → Nat)
    (bytes : Nat → Nat → UInt8) : MqStore :=
  (List.range maxMsgs.toNat).foldl pushFree {
    msgSize := msgSize.toNat
    maxMsgs := maxMsgs.toNat
    entry := 0
    msgQueueHead := none
    msgQueueTail := none
    msgQueueFree := none
    next := next
    length := length
    bytes := bytes }

/-- A slot is taken from the free list. -/
def popFree (mq : MqStore) : Option (Nat × MqStore) :=
  mq.msgQueueFree.map fun slot => (slot, { mq with msgQueueFree := mq.next slot })

/-- The first slot of the queue is taken; `entry` is not changed. -/
def popHead (mq : MqStore) : Option (Nat × MqStore) :=
  mq.msgQueueHead.map fun slot => (slot, { mq with
    msgQueueHead := mq.next slot
    msgQueueTail := if mq.msgQueueTail = some slot then none else mq.msgQueueTail })

/-- A slot is linked behind the last one. -/
def linkTail (mq : MqStore) (slot : Nat) : MqStore :=
  { mq with
    next :=
      match mq.msgQueueTail with
      | some tail => Function.update mq.next tail (some slot)
      | none => mq.next
    msgQueueTail := some slot
    msgQueueHead := if mq.msgQueueHead.isNone then some slot else mq.msgQueueHead }

/-- A slot is linked in front of the first one. -/
def linkHead (mq : MqStore) (slot : Nat) : MqStore :=
  { mq with
    next := Function.update mq.next slot mq.msgQueueHead
    msgQueueHead := some slot
    msgQueueTail := if mq.msgQueueTail.isNone then some slot else mq.msgQueueTail }

/-- The loop of `RT_IPC_CMD_RESET`, over at most `fuel` messages. -/
def releaseLoop : Nat → MqStore → MqStore
  | 0, mq => mq
  | fuel + 1, mq =>
    match mq.popHead with
    | some (slot, mq) => releaseLoop fuel (mq.pushFree slot)
    | none => mq

/-- What `RT_IPC_CMD_RESET` does to the queue. -/
def reset (mq : MqStore) : MqStore := { releaseLoop (mq.maxMsgs + 1) mq with entry := 0 }

/-- The length and the bytes of a message are written. -/
def fill (mq : MqStore) (slot : Nat) (buffer : List UInt8) : MqStore :=
  { mq with
    length := Function.update mq.length slot buffer.length
    bytes := Function.update mq.bytes slot fun i => buffer.getD i (mq.bytes slot i) }

/-- `rt_memcpy` to a buffer of `size` bytes. -/
def read (mq : MqStore) (slot size : Nat) : List UInt8 :=
  let len := if mq.length slot > size then size else mq.length slot
  (List.range len).map (mq.bytes slot)

/-! ## The lists -/

/-- The message in a slot. -/
def text (mq : MqStore) (slot : Nat) : List UInt8 :=
  (List.range (mq.length slot)).map (mq.bytes slot)

/-- The free slots and the messages in their order, `entry` apart. -/
structure Lists (mq : MqStore) (free queued : List Nat) : Prop where
  spare : LinkedFrom mq.next mq.msgQueueFree free
  queue : LinkedFrom mq.next mq.msgQueueHead queued
  tail : mq.msgQueueTail = queued.getLast?

section Lists

variable {mq : MqStore} {free queued : List Nat} {slot : Nat} {buffer : List UInt8}

theorem read_eq (mq : MqStore) (slot size : Nat) :
    mq.read slot size = (mq.text slot).take size := by
  unfold read text
  rw [← List.map_take, List.take_range]
  refine congrArg (fun n => (List.range n).map (mq.bytes slot)) ?_
  split <;> omega

theorem text_fill_self (mq : MqStore) (slot : Nat) (buffer : List UInt8) :
    (mq.fill slot buffer).text slot = buffer := by
  unfold text fill
  simp only [Function.update_self]
  refine List.ext_getElem (by simp) fun i hi hi' => ?_
  rw [List.getElem_map, List.getElem_range, List.getD, List.getElem?_eq_getElem hi']
  rfl

theorem text_fill_of_ne {other : Nat} (hne : other ≠ slot) :
    (mq.fill slot buffer).text other = mq.text other := by
  unfold text fill
  simp only [Function.update_of_ne hne]

/-- A slot in neither list is put into the free one. -/
theorem Lists.pushFree (h : mq.Lists free queued) (hfree : slot ∉ free) (hqueued : slot ∉ queued) :
    (mq.pushFree slot).Lists (slot :: free) queued :=
  ⟨h.spare.push hfree, h.queue.update hqueued _, h.tail⟩

theorem Lists.popFree (h : mq.Lists free queued) (hsome : mq.msgQueueFree.isNone = false) :
    ∃ slot rest, free = slot :: rest ∧
      mq.popFree = some (slot, { mq with msgQueueFree := mq.next slot }) ∧
      { mq with msgQueueFree := mq.next slot }.Lists rest queued := by
  obtain ⟨slot, hslot⟩ : ∃ slot, mq.msgQueueFree = some slot :=
    Option.isSome_iff_exists.mp (Option.isNone_eq_false_iff.mp hsome)
  have hlinked := h.spare
  rw [hslot] at hlinked
  obtain ⟨rest, rfl, hrest⟩ := hlinked.tail
  refine ⟨slot, rest, rfl, ?_, hrest, h.queue, h.tail⟩
  rw [MqStore.popFree, hslot]
  rfl

/-- The first message is taken. -/
theorem Lists.popHead (h : mq.Lists free queued) (hnodup : queued.Nodup) (hsome : queued ≠ []) :
    ∃ slot rest mq', queued = slot :: rest ∧ mq.popHead = some (slot, mq') ∧
      mq'.Lists free rest ∧ mq'.entry = mq.entry ∧ mq'.maxMsgs = mq.maxMsgs ∧
      mq'.msgQueueFree = mq.msgQueueFree ∧ mq'.next = mq.next ∧ mq'.text = mq.text := by
  cases queued with
  | nil => exact absurd rfl hsome
  | cons slot rest =>
    obtain ⟨hhead, hrest⟩ := h.queue
    have hout := (List.nodup_cons.mp hnodup).1
    refine ⟨slot, rest, { mq with
        msgQueueHead := mq.next slot
        msgQueueTail := if mq.msgQueueTail = some slot then none else mq.msgQueueTail }, rfl, ?_,
      ⟨h.spare, hrest, ?_⟩, rfl, rfl, rfl, rfl, rfl⟩
    · rw [MqStore.popHead, hhead]
      rfl
    · show (if mq.msgQueueTail = some slot then none else mq.msgQueueTail) = rest.getLast?
      rw [h.tail]
      cases rest with
      | nil => exact if_pos rfl
      | cons next rest =>
        rw [List.getLast?_cons_cons]
        refine if_neg fun hlast => hout ?_
        exact List.mem_of_getLast? hlast

/-- A slot in neither list is linked behind the last message. -/
theorem Lists.linkTail (h : mq.Lists free queued) (hnodup : (free ++ queued).Nodup)
    (hqueued : slot ∉ queued) (hend : mq.next slot = none) :
    (mq.linkTail slot).Lists free (queued ++ [slot]) := by
  obtain ⟨-, hqueuedNodup, hdisjoint⟩ := List.nodup_append.mp hnodup
  cases hlast : mq.msgQueueTail with
  | none =>
    obtain rfl : queued = [] := List.getLast?_eq_none_iff.mp (h.tail.symm.trans hlast)
    have hhead : mq.msgQueueHead = none := h.queue
    have heq : mq.linkTail slot =
        { mq with msgQueueTail := some slot, msgQueueHead := some slot } := by
      unfold MqStore.linkTail
      rw [hlast, hhead]
      rfl
    rw [heq]
    exact ⟨h.spare, ⟨rfl, hend⟩, rfl⟩
  | some tail =>
    have hmem : tail ∈ queued := List.mem_of_getLast? (h.tail.symm.trans hlast)
    have hhead : mq.msgQueueHead.isNone = false := by
      rw [h.queue.head]
      cases queued with
      | nil => cases hmem
      | cons first rest => rfl
    have heq : mq.linkTail slot = { mq with
        next := Function.update mq.next tail (some slot)
        msgQueueTail := some slot } := by
      unfold MqStore.linkTail
      rw [hlast, hhead]
      rfl
    rw [heq]
    refine ⟨h.spare.update (fun hin => hdisjoint tail hin tail hmem rfl) _,
      h.queue.concat hqueuedNodup (h.tail.symm.trans hlast) hqueued hend, ?_⟩
    exact List.getLast?_concat.symm

/-- Only the last message gets another next one. -/
theorem Lists.linkTail_next (h : mq.Lists free queued) {other : Nat} (hout : other ∉ queued) :
    (mq.linkTail slot).next other = mq.next other := by
  unfold MqStore.linkTail
  cases hlast : mq.msgQueueTail with
  | none => rfl
  | some tail =>
    have hmem : tail ∈ queued := List.mem_of_getLast? (h.tail.symm.trans hlast)
    exact Function.update_of_ne (ne_of_mem_of_not_mem hmem hout).symm _ _

/-- A slot in neither list is linked in front of the first message. -/
theorem Lists.linkHead (h : mq.Lists free queued) (hfree : slot ∉ free)
    (hqueued : slot ∉ queued) : (mq.linkHead slot).Lists free (slot :: queued) := by
  refine ⟨h.spare.update hfree _, h.queue.push hqueued, ?_⟩
  show (if mq.msgQueueTail.isNone then some slot else mq.msgQueueTail) =
    (slot :: queued).getLast?
  rw [h.tail]
  cases queued with
  | nil => rfl
  | cons first rest =>
    rw [List.getLast?_cons_cons, List.getLast?_cons]
    exact if_neg Bool.false_ne_true

/-- The loop that initialises the free list. -/
theorem Lists.pushFree_foldl (h : mq.Lists [] []) (n : Nat) :
    ((List.range n).foldl MqStore.pushFree mq).Lists (List.range n).reverse [] ∧
      ((List.range n).foldl MqStore.pushFree mq).entry = mq.entry ∧
      ((List.range n).foldl MqStore.pushFree mq).maxMsgs = mq.maxMsgs := by
  induction n with
  | zero => exact ⟨h, rfl, rfl⟩
  | succ n ih =>
    obtain ⟨hlists, hentry, hmax⟩ := ih
    rw [List.range_succ, List.foldl_concat, List.reverse_append]
    refine ⟨hlists.pushFree (fun hmem => ?_) List.not_mem_nil, hentry, hmax⟩
    exact absurd (List.mem_range.mp (List.mem_reverse.mp hmem)) (lt_irrefl n)

/-- The loop of a reset takes every message to the free list, and leaves the other slots alone. -/
theorem Lists.releaseLoop (h : mq.Lists free queued) (hnodup : (free ++ queued).Nodup) {fuel : Nat}
    (hfuel : queued.length < fuel) :
    (MqStore.releaseLoop fuel mq).Lists (queued.reverse ++ free) [] ∧
      (MqStore.releaseLoop fuel mq).text = mq.text ∧
      (MqStore.releaseLoop fuel mq).maxMsgs = mq.maxMsgs ∧
      ∀ other, other ∉ queued → (MqStore.releaseLoop fuel mq).next other = mq.next other := by
  induction fuel generalizing mq free queued with
  | zero => exact absurd hfuel (Nat.not_lt_zero _)
  | succ fuel ih =>
    cases queued with
    | nil =>
      have hhead : mq.popHead = none := by
        rw [MqStore.popHead, show mq.msgQueueHead = none from h.queue]
        rfl
      have hdone : MqStore.releaseLoop (fuel + 1) mq = mq := by
        simp only [MqStore.releaseLoop, hhead]
      rw [hdone]
      exact ⟨h, rfl, rfl, fun _ _ => rfl⟩
    | cons slot rest =>
      obtain ⟨-, hqueuedNodup, hdisjoint⟩ := List.nodup_append.mp hnodup
      obtain ⟨first, others, mq', hlist, hpop, hlists, -, hmax, -, hnext, htext⟩ :=
        h.popHead hqueuedNodup (List.cons_ne_nil slot rest)
      obtain ⟨rfl, rfl⟩ := List.cons.inj hlist
      have hfree : slot ∉ free := fun hin => hdisjoint slot hin slot List.mem_cons_self rfl
      have hpush := hlists.pushFree hfree (List.nodup_cons.mp hqueuedNodup).1
      have hperm : (slot :: free ++ rest).Perm (free ++ slot :: rest) := List.perm_middle.symm
      obtain ⟨hfinal, htext', hmax', hothers⟩ := ih hpush (hperm.nodup_iff.mpr hnodup)
        (Nat.lt_of_succ_lt_succ hfuel)
      simp only [MqStore.releaseLoop, hpop]
      rw [List.reverse_cons, List.append_assoc]
      refine ⟨hfinal, htext'.trans htext, hmax'.trans hmax, fun other hout => ?_⟩
      obtain ⟨hne, hout⟩ := not_or.mp (mt List.mem_cons.mpr hout)
      rw [hothers other hout, ← hnext]
      exact Function.update_of_ne hne _ _

end Lists

end MqStore

end Gd32Vw553h.Ipc
