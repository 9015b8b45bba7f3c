/-
  Ipc/DataQueueWaits.lean --- who waits for a data queue
  (`rt-thread/components/drivers/ipc/dataqueue.c`).

  A push wakes a popper for its item.  A pop wakes a pusher only when the queue is down to its
  low water mark, so that pushers wait on although there is room.  From then on each pop wakes
  one, and none is forgotten: as many pushers have been woken as places below the mark are free.

  A timer runs out in two steps.  An interrupt handler that uses the queue between them may meet
  a waiter that cannot be made ready any more; `InTime` excludes that.
-/
import Gd32Vw553h.Ipc.DataQueue

set_option autoImplicit false

namespace Gd32Vw553h.Ipc

open Gd32Vw553h.Foundation Gd32Vw553h.Klibc

/-! ## Taking a thread out of a list -/

namespace SuspState

variable {τ κ : Type*} [DecidableEq τ] {s : SuspState τ κ} {k : κ}

/-- Making a thread ready leaves its `error` to the caller. -/
theorem rtSchedThreadReady_error (s : SuspState τ κ) (thread : τ) :
    (s.rtSchedThreadReady thread).2.error = s.error := by
  unfold rtSchedThreadReady rtSchedThreadTimerStop
  cases s.suspended thread with
  | false => rfl
  | true =>
    cases s.ttmrSet thread with
    | false => rfl
    | true =>
      cases s.timerActivated thread with
      | false => rfl
      | true => rfl

/-- A waiter whose `error` is `RT_EOK` may as well keep it. -/
theorem rtSuspListDequeue_keep
    (hclear : ∀ thread ∈ s.suspendThread k, s.error thread = 0) :
    (s.rtSuspListDequeue k (-1)).2 = (s.rtSuspListDequeue k 0).2 := by
  cases hlist : s.suspendThread k with
  | nil => rw [rtSuspListDequeue_nil hlist, rtSuspListDequeue_nil hlist]
  | cons thread rest =>
    have hzero : s.error thread = 0 := hclear thread (by rw [hlist]; exact List.mem_cons_self)
    have hsame := s.rtSchedThreadReady_error thread
    simp only [rtSuspListDequeue, hlist]
    cases hready : s.rtSchedThreadReady thread with
    | mk ready next =>
      rw [hready] at hsame
      cases ready with
      | false => rfl
      | true =>
        have hupdate : Function.update next.error thread 0 = next.error := by
          rw [Function.update_eq_self_iff, show next.error = s.error from hsame, hzero]
        have hneg : ¬ (0 : Int) ≤ -1 := by decide
        simp only [if_neg hneg, le_refl, if_true, hupdate]

end SuspState

/-! ## What is promised to the threads -/

/-- A call that fails has waited for the timeout it was given. -/
def DqReturn.Waited : DqReturn → Prop
  | .call _ given error _ _ ticks => error < 0 → 0 < given.toInt → given.toInt ≤ ticks
  | .peek _ => True
  | .reset => True

namespace DqState

variable {τ : Type*}

/-- The items that may be popped, and the places below the mark that may be used.  A reset is
still to wake the pushers. -/
def room (s : DqState τ) : WaitSide → Nat
  | .receivers => s.queue.count
  | .senders =>
      if s.resetting.isEmpty then min (s.queue.lwm + 1) s.queue.capacity - s.queue.count else 0

/-- The first waiters have timers that have not been taken, where threads may be woken. -/
def InTime (s : DqState τ) : DqStep τ → Prop
  | .push _ _ _ | .pop _ _ | .now _ | .resume _ | .wake _ =>
      ∀ k t rest, s.block.susp.suspendThread k = t :: rest → s.fired t = false
  | .peek | .look | .reset _ | .fire _ | .timeout _ | .tick => True

structure WaitsRight (s : DqState τ) : Prop where
  /-- threads have been woken for the items and for the places below the mark -/
  counted : ∀ k, s.block.Counted k (s.room k)
  /-- poppers sleep while there is nothing to pop, unless others are to run -/
  poppers : s.block.susp.suspendThread .receivers ≠ [] → (∀ t, ¬ s.block.Woken .receivers t) →
    s.queue.items = []
  /-- pushers sleep while the queue is above its mark or full, unless others are to run -/
  pushers : s.block.susp.suspendThread .senders ≠ [] → (∀ t, ¬ s.block.Woken .senders t) →
    s.resetting = [] → s.queue.lwm < s.queue.items.length ∨ s.queue.isFull = true
  waited : ∀ r ∈ s.returns, r.Waited

/-! ## The invariant -/

section Invariant

variable {s next : DqState τ} {t : τ} {call : BlockedCall DqRequest} {request : DqRequest}
  {k : WaitSide} {error : Int} {item : Option RtDataItem} {event : Option DqEvent} {r : DqReturn}

/-- What holds in the middle of a call, too. -/
structure Base (s : DqState τ) : Prop where
  ring : s.queue.WellFormed
  size : s.queue.size ≤ indexLimit
  block : s.block.Kept s.fired
  /-- a waiter has stored `RT_EOK` -/
  clear : ∀ t, s.block.susp.suspended t = true → s.block.susp.error t = 0
  calls : ∀ t c, s.block.call t = some c → c.side = c.request.side ∧ c.timeout = c.given
  waited : ∀ r ∈ s.returns, r.Waited

structure Awake (s : DqState τ) : Prop extends Base s where
  counted : ∀ k, s.block.Counted k (s.room k)

theorem awake_init (queue : Nat → RtDataItem) (lwm : Nat) (currentPriority : τ → Nat) (now : Nat)
    {size : Nat} (hpos : 0 < size) (hsize : size ≤ indexLimit) :
    (init queue size lwm currentPriority now).Awake where
  ring := RtDataQueue.wellFormed_init queue lwm hpos
  size := hsize
  block := BlockState.kept_init .fifo currentPriority now
  clear _ ht := absurd ht Bool.false_ne_true
  calls _ _ hc := nomatch hc
  waited _ hr := absurd hr List.not_mem_nil
  counted k := BlockState.counted_init .fifo currentPriority now k _

theorem waited_concat (h : ∀ r ∈ s.returns, r.Waited) (hr : r.Waited) :
    ∀ r' ∈ s.returns ++ [r], r'.Waited := by
  intro r' hmem
  rcases List.mem_append.mp hmem with hmem | hmem
  · exact h r' hmem
  · rw [List.mem_singleton.mp hmem]
    exact hr

theorem Base.finish (h : s.Base)
    (hlate : error < 0 → 0 < call.given.toInt →
      call.given.toInt ≤ (s.block.now - call.since : Nat)) :
    (s.finish call error item event).Base :=
  { h with waited := waited_concat h.waited hlate }

/-- A blocked call has no room on its side. -/
theorem room_of_blocked (h : s.Base) (hblocked : s.queue.blocked request = true) :
    s.room request.side = 0 := by
  cases request with
  | push item =>
    have hfull : s.queue.count = s.queue.capacity := h.ring.isFull.mp hblocked
    show (if s.resetting.isEmpty then min (s.queue.lwm + 1) s.queue.capacity - s.queue.count
      else 0) = 0
    split
    · rw [hfull]
      exact Nat.sub_eq_zero_of_le (min_le_right _ _)
    · rfl
  | pop => exact h.ring.isEmpty.mp hblocked

variable [DecidableEq τ]

/-- A waiter that is woken keeps its `RT_EOK`. -/
theorem Base.dequeue (h : s.Base) (k : WaitSide) :
    (s.dequeue k resThrErr).2 = { s with block := s.block.wakeOne k } := by
  have hkeep := SuspState.rtSuspListDequeue_keep (s := s.block.susp) (k := k) fun thread hmem =>
    h.clear thread (h.block.sound.suspended k thread hmem)
  show { s with block :=
    { s.block with susp := (s.block.susp.rtSuspListDequeue k (-1)).2 } } = _
  rw [hkeep]
  rfl

/-- The waiters that stay keep their `RT_EOK`. -/
theorem clear_resumed {susp : SuspState τ WaitSide} {thread : τ}
    (hclear : ∀ t, s.block.susp.suspended t = true → s.block.susp.error t = 0)
    (hresumed : s.block.susp.Resumed susp thread)
    (herror : susp.error = Function.update s.block.susp.error thread error) :
    ∀ t, susp.suspended t = true → susp.error t = 0 := by
  intro t ht
  obtain ⟨hne, ht⟩ := hresumed.suspended_of_true ht
  rw [herror, Function.update_of_ne hne]
  exact hclear t ht

theorem Base.wakeOne (h : s.Base)
    (hout : ∀ t rest, s.block.susp.suspendThread k = t :: rest → s.fired t = false) :
    Base { s with block := s.block.wakeOne k } := by
  refine { h with block := h.block.wakeOne hout, clear := ?_ }
  rcases h.block.wakeOne_cases hout with
    ⟨-, heq⟩ | ⟨thread, susp, c, -, -, -, heq, hresumed, herror, -⟩
  · show ∀ t, (s.block.wakeOne k).susp.suspended t = true → (s.block.wakeOne k).susp.error t = 0
    rw [heq]
    exact h.clear
  · show ∀ t, (s.block.wakeOne k).susp.suspended t = true → (s.block.wakeOne k).susp.error t = 0
    rw [heq]
    exact clear_resumed h.clear hresumed herror

/-- A call is served: it has its unit of room, and wakes a thread of the other side. -/
theorem Base.serve (h : s.Base) (hserved : s.queue.blocked call.request = false)
    (hcounted : ∀ k, s.block.Counted k
      (s.room k - if k = call.request.side then 1 else 0))
    (hout : ∀ k t rest, s.block.susp.suspendThread k = t :: rest → s.fired t = false) :
    (s.serve call).Awake := by
  have hzero : ∀ (P : Prop), (0 : Int) < 0 → P := fun P hneg => absurd hneg (lt_irrefl 0)
  unfold DqState.serve
  cases hrequest : call.request with
  | push item =>
    rw [hrequest] at hserved hcounted
    obtain ⟨hring, hcount, -⟩ := h.ring.store hserved item
    have hstored : Base { s with queue := s.queue.store item } := { h with ring := hring }
    dsimp only [pushItem]
    rw [hstored.dequeue]
    refine { (hstored.wakeOne (hout .receivers)).finish fun hneg => hzero _ hneg with
      counted := fun k => ?_ }
    cases k with
    | receivers =>
      show (s.block.wakeOne .receivers).Counted .receivers (s.queue.store item).count
      rw [hcount]
      exact (hcounted .receivers).wakeOne h.block (hout .receivers)
    | senders =>
      refine ((hcounted .senders).wakeOne_of_ne h.block (hout .receivers) (by decide)).mono ?_
      show (if s.resetting.isEmpty then
          min (s.queue.lwm + 1) s.queue.capacity - (s.queue.store item).count else 0) ≤
        (if s.resetting.isEmpty then min (s.queue.lwm + 1) s.queue.capacity - s.queue.count
          else 0) - 1
      rw [hcount]
      split <;> omega
  | pop =>
    rw [hrequest] at hserved hcounted
    obtain ⟨hring, hcount, -⟩ := h.ring.fetch hserved
    have hfetched : Base { s with queue := s.queue.fetch.2 } := { h with ring := hring }
    have hlen : s.queue.fetch.2.rtDataQueueLen = s.queue.fetch.2.count :=
      RtDataQueue.rtDataQueueLen_eq h.size
    have hlwm : s.queue.fetch.2.lwm = s.queue.lwm := rfl
    have hitem : s.queue.fetch.2.count ≤ s.queue.count - 1 := by omega
    dsimp only [popItem]
    rw [hlen, hlwm]
    by_cases hlow : s.queue.fetch.2.count ≤ s.queue.lwm
    · rw [if_pos hlow]
      dsimp only
      rw [hfetched.dequeue]
      refine { (hfetched.wakeOne (hout .senders)).finish fun hneg => hzero _ hneg with
        counted := fun k => ?_ }
      cases k with
      | receivers =>
        exact ((hcounted .receivers).wakeOne_of_ne h.block (hout .senders) (by decide)).mono hitem
      | senders =>
        refine ((hcounted .senders).wakeOne h.block (hout .senders)).mono ?_
        show (if s.resetting.isEmpty then
            min (s.queue.lwm + 1) s.queue.capacity - s.queue.fetch.2.count else 0) ≤
          (if s.resetting.isEmpty then min (s.queue.lwm + 1) s.queue.capacity - s.queue.count
            else 0) - 0 + 1
        split <;> omega
    · rw [if_neg hlow]
      refine { hfetched.finish fun hneg => hzero _ hneg with counted := fun k => ?_ }
      cases k with
      | receivers => exact (hcounted .receivers).mono hitem
      | senders =>
        refine (hcounted .senders).mono ?_
        show (if s.resetting.isEmpty then
            min (s.queue.lwm + 1) s.queue.capacity - s.queue.fetch.2.count else 0) ≤ _
        split <;> omega

/-- The loops: a thread with a unit of room uses it, any other one waits or gives up. -/
theorem Base.waitLoop (h : s.Base) (hrun : s.block.susp.suspended t = false)
    (hnone : s.block.call t = none) (hside : call.side = call.request.side)
    (hgiven : call.timeout = call.given) (hsince : call.since ≤ s.block.now)
    (hcounted : ∀ k, s.block.Counted k (s.room k - if k = call.request.side then 1 else 0))
    (hout : ∀ k t rest, s.block.susp.suspendThread k = t :: rest → s.fired t = false) :
    (s.waitLoop t call).Awake := by
  unfold DqState.waitLoop
  cases hblocked : s.queue.blocked call.request with
  | false => exact h.serve hblocked hcounted hout
  | true =>
    have hzero := room_of_blocked h hblocked
    have hall : ∀ k, s.block.Counted k (s.room k) := fun k => by
      refine (hcounted k).mono ?_
      by_cases hk : k = call.request.side
      · rw [hk, hzero]
        exact Nat.zero_le _
      · rw [if_neg hk]
        exact le_refl _
    rw [if_pos rfl]
    by_cases hover : call.timeout = 0
    · rw [if_pos hover]
      refine { h.finish fun _ hpos => ?_ with counted := hall }
      rw [← hgiven, hover] at hpos
      exact absurd hpos (by decide)
    · rw [if_neg hover]
      have hblock := h.block.setError hnone 0
      obtain ⟨susp, timeoutTick, delta, heq, hsusp, -, -, -⟩ :=
        (s.block.setError t 0).suspend_eq t call
      refine {
        ring := h.ring
        size := h.size
        block := hblock.suspend hrun ⟨hsince, fun hpos => ?_⟩ hover
        clear := fun u hu => ?_
        calls := fun u c hc => ?_
        waited := h.waited
        counted := fun k => ((hall k).setError hnone 0).suspend hnone fun hk => ?_ }
      · rw [hgiven]
        show 0 ≤ call.given.toInt ∧
          call.given.toInt ≤ (s.block.now : Int) - call.since + call.given.toInt
        omega
      · rw [heq] at hu ⊢
        show susp.error u = 0
        rw [hsusp.error]
        by_cases hut : u = t
        · rw [hut]
          exact Function.update_self _ _ _
        · refine (Function.update_of_ne hut _ _).trans (h.clear u ?_)
          exact (hsusp.suspended_of_ne hut).symm.trans hu
      · rw [heq] at hc
        by_cases hut : u = t
        · subst hut
          obtain rfl := Option.some.inj ((Function.update_self u _ s.block.call).symm.trans hc)
          exact ⟨hside, hgiven⟩
        · exact h.calls u c ((Function.update_of_ne hut _ s.block.call).symm.trans hc)
      · rw [hk, hside]
        exact hzero

omit [DecidableEq τ] in
theorem Awake.spare (h : s.Awake) (request : DqRequest) (k : WaitSide) :
    s.block.Counted k (s.room k - if k = request.side then 1 else 0) :=
  (h.counted k).mono (Nat.sub_le _ _)

theorem Awake.callNow (h : s.Awake) (request : DqRequest)
    (hout : ∀ k t rest, s.block.susp.suspendThread k = t :: rest → s.fired t = false) :
    (s.callNow request).Awake := by
  unfold DqState.callNow
  cases hblocked : s.queue.blocked request with
  | false => exact h.serve hblocked (h.spare request) hout
  | true =>
    have hzero : ¬ 0 < (0 : BitVec 32).toInt := by decide
    exact { h.finish fun _ hpos => absurd hpos hzero with counted := h.counted }

theorem Awake.newCall (h : s.Awake) (hfree : s.Free t) (request : DqRequest) (timeout : BitVec 32)
    (hout : ∀ k t rest, s.block.susp.suspendThread k = t :: rest → s.fired t = false) :
    (s.waitLoop t (s.newCall request timeout)).Awake :=
  h.waitLoop hfree.1 (Option.isNone_iff_eq_none.mp hfree.2.1) rfl rfl (le_refl _)
    (h.spare request) hout

theorem Awake.waitEnd (h : s.Awake) (hrun : s.block.susp.suspended t = false)
    (hc : s.block.call t = some call)
    (hout : ∀ k t rest, s.block.susp.suspendThread k = t :: rest → s.fired t = false) :
    (s.waitEnd t call).Awake := by
  obtain ⟨hside, hgiven⟩ := h.calls t call hc
  have hleft : Base { s with block := s.block.leave t } := { h with
    block := h.block.leave hrun
    calls := fun u c hthis => h.calls u c (BlockState.call_of_leave hthis) }
  unfold DqState.waitEnd
  by_cases herror : s.block.susp.error t = 0
  · rw [if_neg (not_not.mpr herror)]
    refine hleft.waitLoop hrun (s.block.leave_call t) hside hgiven (h.block.since t call hc)
      (fun k => ?_) hout
    show (s.block.leave t).Counted k (s.room k - if k = call.request.side then 1 else 0)
    by_cases hk : k = call.request.side
    · rw [if_pos hk]
      exact (h.counted k).leave t
    · rw [if_neg hk]
      refine (h.counted k).leave_of_not ?_
      rintro ⟨⟨c, hc', hthis⟩, -⟩
      obtain rfl := Option.some.inj (hc.symm.trans hc')
      exact hk (hthis.symm.trans hside)
  · rw [if_pos herror]
    refine { hleft.finish fun hneg hpos => ?_ with
      counted := fun k => (h.counted k).leave_of_not fun hwoken => herror hwoken.2.2 }
    have hlate := h.block.expired t call hc hrun hneg hpos
    have hsince := h.block.since t call hc
    show call.given.toInt ≤ (s.block.now - call.since : Nat)
    omega

/-! ## Resets -/

/-- A reset finds the list empty, or makes its first thread ready. -/
theorem Base.resume_cases (h : s.Base)
    (hout : ∀ t rest, s.block.susp.suspendThread k = t :: rest → s.fired t = false) :
    (s.block.susp.suspendThread k = [] ∧ s.dequeue k rtError = (false, s)) ∨
      ∃ thread susp, s.block.susp.suspended thread = true ∧
        s.dequeue k rtError = (true, { s with block := { s.block with susp := susp } }) ∧
        s.block.susp.Resumed susp thread ∧
        susp.error = Function.update s.block.susp.error thread rtError ∧ susp.Timed s.fired := by
  unfold DqState.dequeue
  cases hlist : s.block.susp.suspendThread k with
  | nil =>
    rw [SuspState.rtSuspListDequeue_nil hlist]
    exact .inl ⟨rfl, rfl⟩
  | cons thread rest =>
    have hwait : s.block.susp.suspended thread = true :=
      h.block.sound.suspended k thread (by rw [hlist]; exact List.mem_cons_self)
    obtain ⟨susp, hdequeue, hresumed, herror, htimed⟩ := h.block.timed.dequeue h.block.sound hlist
      (hout thread rest hlist) (show (0 : Int) ≤ rtError by decide)
    rw [hdequeue]
    exact .inr ⟨thread, susp, hwait, rfl, hresumed, herror, htimed⟩

omit [DecidableEq τ] in
theorem Awake.reset (h : s.Awake) (t : τ) : (s.reset t).Awake where
  ring := h.ring.clear.1
  size := h.size
  block := h.block
  clear := h.clear
  calls := h.calls
  waited := waited_concat h.waited trivial
  counted k := by
    refine (h.counted k).mono ?_
    cases k with
    | receivers => exact Nat.zero_le _
    | senders => exact Nat.zero_le _

omit [DecidableEq τ] in
/-- The first list is empty, and the reset goes on with the second one. -/
theorem room_set {i : Nat} {entry : τ × WaitSide} (k : WaitSide) :
    room { s with resetting := s.resetting.set i entry } k = s.room k := by
  have hsame : (s.resetting.set i entry).isEmpty = s.resetting.isEmpty := by
    rw [Bool.eq_iff_iff, List.isEmpty_iff_length_eq_zero, List.isEmpty_iff_length_eq_zero,
      List.length_set]
  cases k with
  | receivers => rfl
  | senders =>
    show (if (s.resetting.set i entry).isEmpty then _ else 0) = _
    rw [hsame]
    rfl

theorem Awake.resume (h : s.Awake) (i : Nat) (entry : τ × WaitSide)
    (hout : ∀ k t rest, s.block.susp.suspendThread k = t :: rest → s.fired t = false) :
    (s.resume i entry).Awake := by
  obtain ⟨t, k⟩ := entry
  unfold DqState.resume
  dsimp only
  rcases h.resume_cases (hout k) with
    ⟨hempty, heq⟩ | ⟨thread, susp, hwait, heq, hresumed, herror, htimed⟩
  · rw [heq]
    cases k with
    | receivers =>
      exact { h with counted := fun k => (room_set (s := s) k).symm ▸ h.counted k }
    | senders =>
      refine { h with counted := fun k => ?_ }
      cases k with
      | receivers => exact h.counted .receivers
      | senders => exact (h.counted .senders).of_empty hempty
  · rw [heq]
    have hpos : ¬ rtError < 0 := by decide
    refine { h with
      block := h.block.resumed hresumed herror htimed (fun _ => id) fun hneg => absurd hneg hpos
      clear := clear_resumed h.clear hresumed herror
      counted := fun k => (h.counted k).resumed rtError h.block.sound hwait hresumed herror ?_ }
    intro hwoken
    have hthis : susp.error thread = rtError := by
      rw [herror, Function.update_self]
    cases hthis.symm.trans hwoken.2.2

/-! ## Runs -/

theorem Awake.step {a : DqStep τ} (h : s.Awake) (htime : s.InTime a)
    (hstep : machine.step s a = some next) : next.Awake := by
  cases a with
  | push t item timeout =>
    obtain ⟨hfree, hnext⟩ := Option.ite_none_right_eq_some.mp hstep
    obtain rfl := Option.some.inj hnext
    exact h.newCall hfree (.push item) timeout htime
  | pop t timeout =>
    obtain ⟨hfree, hnext⟩ := Option.ite_none_right_eq_some.mp hstep
    obtain rfl := Option.some.inj hnext
    exact h.newCall hfree .pop timeout htime
  | now request =>
    obtain rfl := Option.some.inj hstep
    exact h.callNow request htime
  | peek =>
    obtain rfl := Option.some.inj hstep
    unfold DqState.peek
    split
    · exact { h with waited := waited_concat h.waited trivial, counted := h.counted }
    · exact { h with counted := h.counted }
  | look =>
    obtain ⟨-, hnext⟩ := Option.ite_none_left_eq_some.mp hstep
    obtain rfl := Option.some.inj hnext
    exact { h with waited := waited_concat h.waited trivial, counted := h.counted }
  | reset t =>
    obtain ⟨-, hnext⟩ := Option.ite_none_right_eq_some.mp hstep
    obtain rfl := Option.some.inj hnext
    exact h.reset t
  | resume i =>
    obtain ⟨entry, -, rfl⟩ := Option.map_eq_some_iff.mp hstep
    exact h.resume i entry htime
  | wake t =>
    obtain ⟨hrun, hcall⟩ := Option.ite_none_left_eq_some.mp hstep
    obtain ⟨call, hc, rfl⟩ := Option.map_eq_some_iff.mp hcall
    exact h.waitEnd (Bool.eq_false_iff.mpr hrun) hc htime
  | fire t =>
    obtain ⟨hdue, hnext⟩ := Option.ite_none_right_eq_some.mp hstep
    obtain rfl := Option.some.inj hnext
    exact { h with block := h.block.fire hdue, clear := h.clear, counted := h.counted }
  | timeout t =>
    obtain ⟨hfired, hnext⟩ := Option.ite_none_right_eq_some.mp hstep
    obtain rfl := Option.some.inj hnext
    exact { h with
      block := h.block.timeout hfired
      clear := clear_resumed h.clear (s.block.timeout_resumed t) rfl
      counted := fun k => (h.counted k).timeout h.block hfired }
  | tick =>
    obtain rfl := Option.some.inj hstep
    exact { h with block := h.block.tick, clear := h.clear, counted := h.counted }

omit [DecidableEq τ] in
/-- Nobody is to run, so that there is no room. -/
theorem room_of_asleep (h : s.Awake) (hwaits : s.block.susp.suspendThread k ≠ [])
    (hnone : ∀ t, ¬ s.block.Woken k t) : s.room k = 0 := by
  obtain ⟨woken, hwoken, hroom⟩ := h.counted k
  have hempty : woken = ∅ :=
    Finset.eq_empty_of_forall_notMem fun t ht => hnone t ((hwoken t).mp ht)
  have hle := hroom hwaits
  rw [hempty, Finset.card_empty] at hle
  exact Nat.le_zero.mp hle

omit [DecidableEq τ] in
theorem Awake.right (h : s.Awake) : s.WaitsRight where
  counted := h.counted
  poppers hwaits hnone := List.eq_nil_of_length_eq_zero
    ((RtDataQueue.items_length _).trans (room_of_asleep h hwaits hnone))
  pushers hwaits hnone hquiet := by
    have hroom := room_of_asleep h hwaits hnone
    have hzero : min (s.queue.lwm + 1) s.queue.capacity - s.queue.count = 0 := by
      rw [room, hquiet] at hroom
      exact hroom
    rw [RtDataQueue.items_length, h.ring.isFull]
    have hle := h.ring.count
    omega
  waited := h.waited

/-- In every run in which no interrupt handler uses the queue between the two steps of a timer,
threads are woken for all items, and for all free places below the low water mark; no call gives
up before its timeout. -/
theorem dataQueue_wakes (queue : Nat → RtDataItem) {size : Nat} (lwm : Nat)
    (currentPriority : τ → Nat) (now : Nat) (hpos : 0 < size) (hsize : size ≤ indexLimit)
    {steps : List (DqStep τ)} {final : DqState τ}
    (run : machine.Run InTime (init queue size lwm currentPriority now) steps final) :
    final.WaitsRight :=
  (run.invariant (fun _ _ _ htime hstep h => Awake.step h htime hstep)
    (awake_init queue lwm currentPriority now hpos hsize)).right

/-- Three pushers share two places above a low water mark of zero, so that the third one sleeps
until the queue is empty.  A reset wakes a popper, and another one waits in vain. -/
def refilled : List (DqStep Bool) :=
  [.now (.push ⟨1, 4⟩), .push false ⟨2, 5⟩ 9, .push true ⟨3, 6⟩ (-1), .now .pop, .now .pop,
    .wake true, .pop false 3, .tick, .pop true 7, .reset false, .resume 0, .resume 0, .resume 0,
    .wake true, .pop false 1, .tick, .fire false, .timeout false, .wake false]

theorem dataQueue_wakes_refilled :
    ∃ final, machine.exec (init (fun _ => ⟨0, 0⟩) 2 0 (fun _ : Bool => 8) 0) refilled =
      some final ∧ final.returns.filterMap op = [.push ⟨1, 4⟩, .push ⟨2, 5⟩, .pop ⟨1, 4⟩,
        .pop ⟨2, 5⟩, .push ⟨3, 6⟩, .pop ⟨3, 6⟩, .clear] ∧ final.WaitsRight := by
  obtain ⟨final, hexec⟩ : ∃ final,
      machine.exec (init (fun _ => ⟨0, 0⟩) 2 0 (fun _ : Bool => 8) 0) refilled = some final :=
    ⟨_, rfl⟩
  have hends : (machine.exec (init (fun _ => ⟨0, 0⟩) 2 0 (fun _ : Bool => 8) 0) refilled).map
      (fun s => s.returns.filterMap op) = some [.push ⟨1, 4⟩, .push ⟨2, 5⟩, .pop ⟨1, 4⟩,
        .pop ⟨2, 5⟩, .push ⟨3, 6⟩, .pop ⟨3, 6⟩, .clear] := rfl
  rw [hexec] at hends
  have htimely : machine.Admitted InTime (init (fun _ => ⟨0, 0⟩) 2 0 (fun _ : Bool => 8) 0)
      refilled :=
    .cons (fun _ _ _ _ => rfl) rfl (.cons (fun _ _ _ _ => rfl) rfl (.cons (fun _ _ _ _ => rfl) rfl
      (.cons (fun _ _ _ _ => rfl) rfl (.cons (fun _ _ _ _ => rfl) rfl
        (.cons (fun _ _ _ _ => rfl) rfl (.cons (fun _ _ _ _ => rfl) rfl (.cons trivial rfl
          (.cons (fun _ _ _ _ => rfl) rfl (.cons trivial rfl (.cons (fun _ _ _ _ => rfl) rfl
            (.cons (fun _ _ _ _ => rfl) rfl (.cons (fun _ _ _ _ => rfl) rfl
              (.cons (fun _ _ _ _ => rfl) rfl (.cons (fun _ _ _ _ => rfl) rfl (.cons trivial rfl
                (.cons trivial rfl (.cons trivial rfl (.cons (fun _ t _ _ => by cases t <;> rfl)
                  rfl trivial))))))))))))))))))
  exact ⟨final, hexec, Option.some.inj hends, dataQueue_wakes (fun _ => ⟨0, 0⟩) 0 (fun _ => 8) 0
    (by decide) (by decide) (.of_exec hexec htimely)⟩

end Invariant

end DqState

end Gd32Vw553h.Ipc
