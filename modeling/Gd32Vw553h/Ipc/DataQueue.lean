/-
  Ipc/DataQueue.lean --- data queues (`rt-thread/components/drivers/ipc/dataqueue.c`).

  A data queue hands buffers from threads to a driver.  The items stand in a ring between two
  indices of 15 bits, and two flags tell an empty ring from a full one.  A pusher waits while the
  queue is full and a popper while it is empty; each wait has the whole timeout again, and a
  thread that is woken keeps the `RT_EOK` that it has stored in its `error`.

  A step is a section that holds the spin lock.  `rt_data_queue_peek` looks at `is_empty` before
  it takes the lock, and `rt_data_queue_reset` drops the lock before it wakes the threads one by
  one, so that both are several steps.

  `dataQueue_fifo` compares the calls with a bounded queue, for all sizes a `rt_uint16_t` has.
-/
import Gd32Vw553h.Foundation.BoundedDeque
import Gd32Vw553h.Foundation.RingQueue
import Gd32Vw553h.Ipc.Blocking

set_option autoImplicit false

namespace Gd32Vw553h.Ipc

open Gd32Vw553h.Foundation Gd32Vw553h.Klibc

/-! ## The items -/

/-- `struct rt_data_item` -/
structure RtDataItem where
  dataPtr : BitVec 32
  dataSize : BitVec 32
  deriving DecidableEq

/-- `struct rt_data_queue`, without its lists. -/
structure RtDataQueue where
  queue : Nat → RtDataItem
  size : Nat
  lwm : Nat
  getIndex : Nat
  putIndex : Nat
  isEmpty : Bool
  isFull : Bool

/-- An index has 15 bits. -/
abbrev indexLimit : Nat := 0x8000

/-- `index += 1`, and zero at `size`. -/
def nextIndex (size index : Nat) : Nat :=
  let index := (index + 1) % indexLimit
  if index = size then 0 else index

namespace RtDataQueue

variable {q : RtDataQueue}

/-- `rt_data_queue_init` -/
def init (queue : Nat → RtDataItem) (size lwm : Nat) : RtDataQueue where
  queue := queue
  size := size
  lwm := lwm
  getIndex := 0
  putIndex := 0
  isEmpty := true
  isFull := false

/-- The end of `rt_data_queue_push`, up to the wake-up. -/
def store (q : RtDataQueue) (item : RtDataItem) : RtDataQueue :=
  let putIndex := nextIndex q.size q.putIndex
  { q with
    queue := Function.update q.queue q.putIndex item
    putIndex := putIndex
    isEmpty := false
    isFull := if putIndex = q.getIndex then true else q.isFull }

/-- The end of `rt_data_queue_pop`, up to the wake-up. -/
def fetch (q : RtDataQueue) : RtDataItem × RtDataQueue :=
  let getIndex := nextIndex q.size q.getIndex
  (q.queue q.getIndex, { q with
    getIndex := getIndex
    isFull := false
    isEmpty := if q.putIndex = getIndex then true else q.isEmpty })

/-- The first section of `rt_data_queue_reset`. -/
def clear (q : RtDataQueue) : RtDataQueue :=
  { q with getIndex := 0, putIndex := 0, isEmpty := true, isFull := false }

/-- `rt_data_queue_len`, called with the lock held. -/
def rtDataQueueLen (q : RtDataQueue) : Nat :=
  if q.isEmpty then 0
  else if q.putIndex > q.getIndex then q.putIndex - q.getIndex
  else q.size + q.putIndex - q.getIndex

/-- The places of the ring: the indices do not get further than their 15 bits. -/
def capacity (q : RtDataQueue) : Nat := min q.size indexLimit

/-- How many items there are. -/
def count (q : RtDataQueue) : Nat :=
  if q.isEmpty then 0
  else if q.putIndex > q.getIndex then q.putIndex - q.getIndex
  else q.capacity + q.putIndex - q.getIndex

/-- The items in their order. -/
def items (q : RtDataQueue) : List RtDataItem := ringSlice q.capacity q.queue q.getIndex q.count

/-- The indices enclose the items and the flags tell their number. -/
structure WellFormed (q : RtDataQueue) : Prop where
  getIndex : q.getIndex < q.capacity
  count : q.count ≤ q.capacity
  putIndex : q.putIndex = ringIndex q.capacity q.getIndex q.count
  isEmpty : q.isEmpty = true ↔ q.count = 0
  isFull : q.isFull = true ↔ q.count = q.capacity

theorem items_length (q : RtDataQueue) : q.items.length = q.count := ringSlice_length _ _ _

/-- An index wraps at the end of the ring. -/
theorem nextIndex_eq {index : Nat} (hindex : index < q.capacity) :
    nextIndex q.size index = ringNext q.capacity index := by
  have hlimit : indexLimit = 32768 := rfl
  unfold capacity at hindex ⊢
  unfold nextIndex ringNext
  rw [hlimit] at hindex ⊢
  dsimp only
  split_ifs <;> omega

theorem wellFormed_init (queue : Nat → RtDataItem) (lwm : Nat) {size : Nat} (hpos : 0 < size) :
    (init queue size lwm).WellFormed := by
  have hcap : 0 < (init queue size lwm).capacity := lt_min hpos (by decide)
  exact ⟨hcap, Nat.zero_le _, (if_pos hcap).symm, iff_of_true rfl rfl,
    iff_of_false Bool.false_ne_true hcap.ne⟩

/-- An item is appended. -/
theorem WellFormed.store (h : q.WellFormed) (hroom : q.isFull = false) (item : RtDataItem) :
    (q.store item).WellFormed ∧ (q.store item).count = q.count + 1 ∧
      (q.store item).items = q.items ++ [item] := by
  have hget := h.getIndex
  have hput := h.putIndex
  have hlt : q.count < q.capacity := Nat.lt_of_le_of_ne h.count fun heq =>
    Bool.false_ne_true (hroom.symm.trans (h.isFull.mpr heq))
  have hin : q.putIndex < q.capacity := by
    rw [hput]
    exact ringIndex_lt hget h.count
  have hnext : nextIndex q.size q.putIndex = ringIndex q.capacity q.getIndex (q.count + 1) := by
    rw [nextIndex_eq hin, hput]
    unfold ringNext ringIndex
    split_ifs <;> omega
  have hcount : (q.store item).count = q.count + 1 := by
    show (if nextIndex q.size q.putIndex > q.getIndex then
        nextIndex q.size q.putIndex - q.getIndex
      else q.capacity + nextIndex q.size q.putIndex - q.getIndex) = q.count + 1
    rw [hnext]
    unfold ringIndex
    split_ifs <;> omega
  refine ⟨⟨hget, ?_, ?_, ?_, ?_⟩, hcount, ?_⟩
  · rw [hcount]
    exact hlt
  · rw [hcount]
    exact hnext
  · rw [hcount]
    exact iff_of_false Bool.false_ne_true (Nat.succ_ne_zero _)
  · rw [hcount]
    show (if nextIndex q.size q.putIndex = q.getIndex then true else q.isFull) = true ↔
      q.count + 1 = q.capacity
    rw [hnext, hroom]
    unfold ringIndex
    split_ifs
    all_goals first
      | exact iff_of_true rfl (by omega)
      | exact iff_of_false id (by omega)
  · show ringSlice q.capacity (Function.update q.queue q.putIndex item) q.getIndex
      (q.store item).count = _
    rw [hcount, hput]
    exact ringSlice_update q.queue hlt item

/-- The first item is taken. -/
theorem WellFormed.fetch (h : q.WellFormed) (hitem : q.isEmpty = false) :
    q.fetch.2.WellFormed ∧ q.fetch.2.count + 1 = q.count ∧
      q.items = q.fetch.1 :: q.fetch.2.items := by
  have hget := h.getIndex
  have hput := h.putIndex
  have hle := h.count
  have hpos : 0 < q.count := Nat.pos_of_ne_zero fun heq =>
    Bool.false_ne_true (hitem.symm.trans (h.isEmpty.mpr heq))
  have hnext := nextIndex_eq hget
  have hcount : q.fetch.2.count + 1 = q.count := by
    show (if (if q.putIndex = nextIndex q.size q.getIndex then true else q.isEmpty) = true then 0
      else if q.putIndex > nextIndex q.size q.getIndex then
        q.putIndex - nextIndex q.size q.getIndex
      else q.capacity + q.putIndex - nextIndex q.size q.getIndex) + 1 = q.count
    rw [hnext, hput, hitem]
    unfold ringIndex ringNext
    split_ifs <;> simp_all <;> omega
  refine ⟨⟨?_, ?_, ?_, ?_, ?_⟩, hcount, ?_⟩
  · show nextIndex q.size q.getIndex < q.capacity
    rw [hnext]
    exact ringNext_lt (by omega) _
  · show q.fetch.2.count ≤ q.capacity
    omega
  · show q.putIndex = ringIndex q.capacity (nextIndex q.size q.getIndex) q.fetch.2.count
    rw [hnext, hput, ← hcount]
    unfold ringIndex ringNext
    split_ifs <;> omega
  · show (if q.putIndex = nextIndex q.size q.getIndex then true else q.isEmpty) = true ↔
      q.fetch.2.count = 0
    rw [hnext, hput, hitem]
    unfold ringIndex ringNext
    split_ifs
    all_goals first
      | exact iff_of_true rfl (by omega)
      | exact iff_of_false id (by omega)
  · show false = true ↔ q.fetch.2.count = q.capacity
    exact iff_of_false Bool.false_ne_true (by omega)
  · show ringSlice q.capacity q.queue q.getIndex q.count = q.queue q.getIndex ::
      ringSlice q.capacity q.queue (nextIndex q.size q.getIndex) q.fetch.2.count
    rw [hnext, ← hcount, ringSlice_cons _ hget (by omega)]

theorem WellFormed.clear (h : q.WellFormed) : q.clear.WellFormed ∧ q.clear.items = [] := by
  have hcap : 0 < q.capacity := Nat.lt_of_le_of_lt (Nat.zero_le _) h.getIndex
  exact ⟨⟨hcap, Nat.zero_le _, (if_pos hcap).symm, iff_of_true rfl rfl,
    iff_of_false Bool.false_ne_true hcap.ne⟩, rfl⟩

/-- The first item is the one at `get_index`. -/
theorem WellFormed.front (h : q.WellFormed) :
    q.items.head? = none ∨ q.items.head? = some (q.queue q.getIndex) := by
  cases hempty : q.isEmpty with
  | true =>
    refine .inl (List.head?_eq_none_iff.mpr (List.eq_nil_of_length_eq_zero ?_))
    rw [items_length]
    exact h.isEmpty.mp hempty
  | false =>
    obtain ⟨-, -, hitems⟩ := h.fetch hempty
    rw [hitems]
    exact .inr rfl

/-- The length is that of the ring, as long as the indices reach `size`. -/
theorem rtDataQueueLen_eq (hsize : q.size ≤ indexLimit) : q.rtDataQueueLen = q.count := by
  have hcap : q.capacity = q.size := min_eq_left hsize
  rw [rtDataQueueLen, count, hcap]

end RtDataQueue

/-! ## The calls -/

/-- `rt_data_queue_push` and `rt_data_queue_pop` -/
inductive DqRequest where
  | push (item : RtDataItem)
  | pop
  deriving DecidableEq

/-- What `evt_notify` is told. -/
inductive DqEvent where
  | pop
  | push
  | lwm
  deriving DecidableEq

/-- What has been returned. -/
inductive DqReturn where
  /-- the timeout of the caller, the result, `*data_ptr` with `*size`, the event and the ticks -/
  | call (request : DqRequest) (given : BitVec 32) (error : Int) (item : Option RtDataItem)
      (event : Option DqEvent) (ticks : Nat)
  /-- `rt_data_queue_peek`; nothing for `-RT_EEMPTY` -/
  | peek (item : Option RtDataItem)
  /-- the first section of `rt_data_queue_reset` -/
  | reset

/-- A data queue and the threads that use it. -/
structure DqState (τ : Type*) where
  queue : RtDataQueue
  block : BlockState τ DqRequest
  /-- `_timer_check` is still to call `_thread_timeout` for the thread -/
  fired : τ → Bool
  /-- calls of `rt_data_queue_peek` that are still to take the lock -/
  peeking : Nat
  /-- the threads in `rt_data_queue_reset`, and the lists from which they wake the others -/
  resetting : List (τ × WaitSide)
  returns : List DqReturn

/-- What threads, interrupt handlers and timers do. -/
inductive DqStep (τ : Type*) where
  /-- `rt_data_queue_push`, up to its return or its `rt_schedule` -/
  | push (thread : τ) (item : RtDataItem) (timeout : BitVec 32)
  /-- `rt_data_queue_pop` in the same way -/
  | pop (thread : τ) (timeout : BitVec 32)
  /-- one of them with the timeout zero, in a thread or an interrupt handler -/
  | now (request : DqRequest)
  /-- the test of `rt_data_queue_peek` -/
  | peek
  /-- its section -/
  | look
  /-- the first section of `rt_data_queue_reset` -/
  | reset (thread : τ)
  /-- a section of `rt_susp_list_resume_all_irq` in a reset -/
  | resume (i : Nat)
  /-- a thread goes on behind its `rt_schedule` -/
  | wake (thread : τ)
  /-- `_timer_check` takes the timer of a thread -/
  | fire (thread : τ)
  /-- it calls `_thread_timeout` -/
  | timeout (thread : τ)
  | tick

/-- The list a call waits in. -/
def DqRequest.side : DqRequest → WaitSide
  | .push _ => .senders
  | .pop => .receivers

/-- The test of the loops. -/
def RtDataQueue.blocked (q : RtDataQueue) : DqRequest → Bool
  | .push _ => q.isFull
  | .pop => q.isEmpty

namespace DqState

variable {τ : Type*}

def init (queue : Nat → RtDataItem) (size lwm : Nat) (currentPriority : τ → Nat) (now : Nat) :
    DqState τ where
  queue := .init queue size lwm
  block := .init .fifo currentPriority now
  fired _ := false
  peeking := 0
  resetting := []
  returns := []

/-- A call returns. -/
def finish (s : DqState τ) (call : BlockedCall DqRequest) (error : Int)
    (item : Option RtDataItem) (event : Option DqEvent) : DqState τ :=
  { s with returns := s.returns ++
      [.call call.request call.given error item event (s.block.now - call.since)] }

section Code

variable [DecidableEq τ]

/-- `rt_susp_list_dequeue`, and whether a thread has been woken. -/
def dequeue (s : DqState τ) (k : WaitSide) (threadError : Int) : Bool × DqState τ :=
  ((s.block.susp.rtSuspListDequeue k threadError).1.isSome,
    { s with block :=
      { s.block with susp := (s.block.susp.rtSuspListDequeue k threadError).2 } })

/-- `RT_THREAD_RESUME_RES_THR_ERR` -/
abbrev resThrErr : Int := -1

/-- The end of `rt_data_queue_push`. -/
def pushItem (s : DqState τ) (item : RtDataItem) : Bool × DqState τ :=
  { s with queue := s.queue.store item }.dequeue .receivers resThrErr

/-- The end of `rt_data_queue_pop`. -/
def popItem (s : DqState τ) : RtDataItem × DqEvent × DqState τ :=
  let s' := { s with queue := s.queue.fetch.2 }
  (s.queue.fetch.1,
    if s'.queue.rtDataQueueLen ≤ s'.queue.lwm then (.lwm, (s'.dequeue .senders resThrErr).2)
    else (.pop, s'))

/-- A call that need not wait returns. -/
def serve (s : DqState τ) (call : BlockedCall DqRequest) : DqState τ :=
  match call.request with
  | .push item =>
    let (woken, s) := s.pushItem item
    s.finish call 0 none (if woken then none else some .push)
  | .pop =>
    let (item, event, s) := s.popItem
    s.finish call 0 (some item) (some event)

/-- The loops, up to `rt_schedule`. -/
def waitLoop (s : DqState τ) (thread : τ) (call : BlockedCall DqRequest) : DqState τ :=
  if s.queue.blocked call.request then
    if call.timeout = 0 then s.finish call (-rtETimeout) none none
    else { s with block := (s.block.setError thread 0).suspend thread call }
  else s.serve call

/-- A call with its timeout. -/
def newCall (s : DqState τ) (request : DqRequest) (timeout : BitVec 32) :
    BlockedCall DqRequest where
  request := request
  side := request.side
  timeout := timeout
  tickDelta := 0
  given := timeout
  since := s.block.now

/-- `rt_data_queue_push` -/
def rtDataQueuePush (s : DqState τ) (thread : τ) (item : RtDataItem) (timeout : BitVec 32) :
    DqState τ :=
  s.waitLoop thread (s.newCall (.push item) timeout)

/-- `rt_data_queue_pop` -/
def rtDataQueuePop (s : DqState τ) (thread : τ) (timeout : BitVec 32) : DqState τ :=
  s.waitLoop thread (s.newCall .pop timeout)

/-- A call that does not wait, outside threads, too. -/
def callNow (s : DqState τ) (request : DqRequest) : DqState τ :=
  if s.queue.blocked request then s.finish (s.newCall request 0) (-rtETimeout) none none
  else s.serve (s.newCall request 0)

/-- The loops behind `rt_schedule`. -/
def waitEnd (s : DqState τ) (thread : τ) (call : BlockedCall DqRequest) : DqState τ :=
  let left : DqState τ := { s with block := s.block.leave thread }
  if s.block.susp.error thread ≠ 0 then left.finish call (s.block.susp.error thread) none none
  else left.waitLoop thread call

/-- The test of `rt_data_queue_peek`. -/
def peek (s : DqState τ) : DqState τ :=
  if s.queue.isEmpty then { s with returns := s.returns ++ [.peek none] }
  else { s with peeking := s.peeking + 1 }

/-- The section of `rt_data_queue_peek`. -/
def look (s : DqState τ) : DqState τ :=
  { s with
    peeking := s.peeking - 1
    returns := s.returns ++ [.peek (some (s.queue.queue s.queue.getIndex))] }

/-- The first section of `rt_data_queue_reset`. -/
def reset (s : DqState τ) (thread : τ) : DqState τ :=
  { s with
    queue := s.queue.clear
    resetting := (thread, .receivers) :: s.resetting
    returns := s.returns ++ [.reset] }

/-- A section of `rt_susp_list_resume_all_irq`: the pop list is followed by the push list. -/
def resume (s : DqState τ) (i : Nat) : τ × WaitSide → DqState τ
  | (thread, k) =>
    let (woken, s) := s.dequeue k rtError
    if woken then s
    else
      match k with
      | .receivers => { s with resetting := s.resetting.set i (thread, .senders) }
      | .senders => { s with resetting := s.resetting.eraseIdx i }

/-- A thread is in no call. -/
def Free (s : DqState τ) (thread : τ) : Prop :=
  s.block.susp.suspended thread = false ∧ (s.block.call thread).isNone ∧
    ∀ r ∈ s.resetting, r.1 ≠ thread

instance (s : DqState τ) (thread : τ) : Decidable (s.Free thread) :=
  inferInstanceAs (Decidable (_ ∧ _))

def machine : Machine (DqState τ) (DqStep τ) where
  step s
    | .push thread item timeout =>
        if s.Free thread then some (s.rtDataQueuePush thread item timeout) else none
    | .pop thread timeout =>
        if s.Free thread then some (s.rtDataQueuePop thread timeout) else none
    | .now request => some (s.callNow request)
    | .peek => some s.peek
    | .look => if s.peeking = 0 then none else some s.look
    | .reset thread => if s.Free thread then some (s.reset thread) else none
    | .resume i => s.resetting[i]?.map (s.resume i)
    | .wake thread =>
        if s.block.susp.suspended thread then none
        else (s.block.call thread).map (s.waitEnd thread)
    | .fire thread =>
        if s.block.Due thread then
          some { s with
            block := s.block.fire thread, fired := Function.update s.fired thread true }
        else none
    | .timeout thread =>
        if s.fired thread then
          some { s with
            block := s.block.timeout thread, fired := Function.update s.fired thread false }
        else none
    | .tick => some { s with block := s.block.tick }

end Code

/-! ## What a data queue is for -/

inductive FifoOp where
  | push (item : RtDataItem)
  | pop (item : RtDataItem)
  | peek (item : RtDataItem)
  | clear

/-- A queue with room for so many items.  A peek that comes too late to find an item is not told
what to answer. -/
def fifo (capacity : Nat) : Machine (List RtDataItem) FifoOp where
  step q
    | .push item => if q.length < capacity then some (q ++ [item]) else none
    | .pop item =>
        match q with
        | [] => none
        | first :: rest => if first = item then some rest else none
    | .peek item => if q.head? = none ∨ q.head? = some item then some q else none
    | .clear => some []

/-- What a call has done to the queue. -/
def op : DqReturn → Option FifoOp
  | .call (.push item) _ error _ _ _ => if error = 0 then some (.push item) else none
  | .call .pop _ error item _ _ => if error = 0 then item.map .pop else none
  | .peek item => item.map .peek
  | .reset => some .clear

/-! ## First in, first out -/

section Fifo

variable {s next : DqState τ} {capacity : Nat} {call : BlockedCall DqRequest} {error : Int}
  {r : DqReturn} {q q' : List RtDataItem} {o : FifoOp}

/-- The calls have left the items that stand in the ring. -/
structure Queued (s : DqState τ) (capacity : Nat) : Prop where
  ring : s.queue.WellFormed
  sized : s.queue.capacity = capacity
  refines : (fifo capacity).exec [] (s.returns.filterMap op) = some s.queue.items

/-- Nothing but the ring and the returns counts. -/
theorem Queued.congr (h : s.Queued capacity) (hqueue : next.queue = s.queue)
    (hreturns : next.returns = s.returns) : next.Queued capacity := by
  refine ⟨hqueue ▸ h.ring, hqueue ▸ h.sized, ?_⟩
  rw [hreturns, hqueue]
  exact h.refines

/-- A return that does nothing to the queue. -/
theorem Queued.skip (h : s.Queued capacity) (hr : op r = none) :
    Queued { s with returns := s.returns ++ [r] } capacity := by
  refine ⟨h.ring, h.sized, ?_⟩
  rw [List.filterMap_append, List.filterMap_cons_none hr, List.filterMap_nil, List.append_nil]
  exact h.refines

/-- A return that does `o` to the queue. -/
theorem Queued.perform {ring : RtDataQueue} (h : s.Queued capacity) (hr : op r = some o)
    (hring : ring.WellFormed) (hcap : ring.capacity = s.queue.capacity)
    (hstep : (fifo capacity).step s.queue.items o = some ring.items) :
    Queued { s with queue := ring, returns := s.returns ++ [r] } capacity := by
  refine ⟨hring, hcap.trans h.sized, ?_⟩
  rw [List.filterMap_append, List.filterMap_cons_some hr, List.filterMap_nil,
    Machine.exec_concat h.refines]
  exact hstep

theorem Queued.fail (h : s.Queued capacity) (herror : error ≠ 0) :
    (s.finish call error none none).Queued capacity := by
  refine h.skip ?_
  cases hrequest : call.request with
  | push item => exact if_neg herror
  | pop => exact if_neg herror

theorem Queued.look (h : s.Queued capacity) : s.look.Queued capacity := by
  refine Queued.congr (h.perform (r := .peek (some (s.queue.queue s.queue.getIndex)))
    (o := .peek (s.queue.queue s.queue.getIndex)) rfl h.ring rfl ?_) rfl rfl
  exact if_pos h.ring.front

theorem Queued.reset (h : s.Queued capacity) (t : τ) : (s.reset t).Queued capacity := by
  obtain ⟨hring, hitems⟩ := h.ring.clear
  refine Queued.congr (h.perform (r := .reset) (o := .clear) rfl hring rfl ?_) rfl rfl
  rw [hitems]
  rfl

variable [DecidableEq τ]

theorem Queued.serve (h : s.Queued capacity)
    (hserved : s.queue.blocked call.request = false) : (s.serve call).Queued capacity := by
  unfold DqState.serve
  cases hrequest : call.request with
  | push item =>
    rw [hrequest] at hserved
    obtain ⟨hring, -, hitems⟩ := h.ring.store hserved item
    have hroom : s.queue.items.length < capacity := by
      rw [RtDataQueue.items_length, ← h.sized]
      exact Nat.lt_of_le_of_ne h.ring.count fun heq =>
        Bool.false_ne_true (hserved.symm.trans (h.ring.isFull.mpr heq))
    refine Queued.congr (h.perform (r := .call (.push item) call.given 0 none
      (if (s.pushItem item).1 then none else some .push) (s.block.now - call.since))
      (o := .push item) rfl hring rfl ?_) rfl ?_
    · rw [hitems]
      exact if_pos hroom
    · simp only [DqState.finish, hrequest, pushItem, dequeue]
  | pop =>
    rw [hrequest] at hserved
    obtain ⟨hring, -, hitems⟩ := h.ring.fetch hserved
    refine Queued.congr (h.perform (r := .call .pop call.given 0 (some s.queue.fetch.1)
      (some s.popItem.2.1) (s.block.now - call.since)) (o := .pop s.queue.fetch.1) rfl hring rfl
      ?_) ?_ ?_
    · rw [hitems]
      exact if_pos rfl
    · simp only [DqState.finish, popItem]
      split <;> rfl
    · simp only [DqState.finish, hrequest, popItem]
      split <;> rfl

theorem Queued.waitLoop (h : s.Queued capacity) (t : τ) : (s.waitLoop t call).Queued capacity := by
  unfold DqState.waitLoop
  cases hblocked : s.queue.blocked call.request with
  | false => exact h.serve hblocked
  | true =>
    rw [if_pos rfl]
    split
    · exact h.fail (by decide)
    · exact h.congr rfl rfl

theorem Queued.callNow (h : s.Queued capacity) (request : DqRequest) :
    (s.callNow request).Queued capacity := by
  unfold DqState.callNow
  cases hblocked : s.queue.blocked request with
  | false => exact h.serve hblocked
  | true => exact h.fail (by decide)

theorem Queued.waitEnd (h : s.Queued capacity) (t : τ) (call : BlockedCall DqRequest) :
    (s.waitEnd t call).Queued capacity := by
  have hleft : Queued { s with block := s.block.leave t } capacity := h.congr rfl rfl
  unfold DqState.waitEnd
  by_cases herror : s.block.susp.error t = 0
  · rw [if_neg (not_not.mpr herror)]
    exact hleft.waitLoop t
  · rw [if_pos herror]
    exact hleft.fail herror

theorem Queued.step {a : DqStep τ} (h : s.Queued capacity)
    (hstep : machine.step s a = some next) : next.Queued capacity := by
  cases a with
  | push t item timeout =>
    obtain ⟨-, hnext⟩ := Option.ite_none_right_eq_some.mp hstep
    obtain rfl := Option.some.inj hnext
    exact h.waitLoop t
  | pop t timeout =>
    obtain ⟨-, hnext⟩ := Option.ite_none_right_eq_some.mp hstep
    obtain rfl := Option.some.inj hnext
    exact h.waitLoop t
  | now request =>
    obtain rfl := Option.some.inj hstep
    exact h.callNow request
  | peek =>
    obtain rfl := Option.some.inj hstep
    unfold DqState.peek
    split
    · exact h.skip rfl
    · exact h.congr rfl rfl
  | look =>
    obtain ⟨-, hnext⟩ := Option.ite_none_left_eq_some.mp hstep
    obtain rfl := Option.some.inj hnext
    exact h.look
  | reset t =>
    obtain ⟨-, hnext⟩ := Option.ite_none_right_eq_some.mp hstep
    obtain rfl := Option.some.inj hnext
    exact h.reset t
  | resume i =>
    obtain ⟨⟨t, k⟩, -, rfl⟩ := Option.map_eq_some_iff.mp hstep
    unfold DqState.resume
    dsimp only
    split
    · exact h.congr rfl rfl
    · cases k with
      | receivers => exact h.congr rfl rfl
      | senders => exact h.congr rfl rfl
  | wake t =>
    obtain ⟨-, hcall⟩ := Option.ite_none_left_eq_some.mp hstep
    obtain ⟨call, -, rfl⟩ := Option.map_eq_some_iff.mp hcall
    exact h.waitEnd t call
  | fire t =>
    obtain ⟨-, hnext⟩ := Option.ite_none_right_eq_some.mp hstep
    obtain rfl := Option.some.inj hnext
    exact h.congr rfl rfl
  | timeout t =>
    obtain ⟨-, hnext⟩ := Option.ite_none_right_eq_some.mp hstep
    obtain rfl := Option.some.inj hnext
    exact h.congr rfl rfl
  | tick =>
    obtain rfl := Option.some.inj hstep
    exact h.congr rfl rfl

end Fifo

end DqState

end Gd32Vw553h.Ipc
