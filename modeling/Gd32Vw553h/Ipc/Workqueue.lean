/-
  Ipc/Workqueue.lean --- the work queue (`components/drivers/ipc/workqueue.c`).

  A work item is linked into `work_list` or `delayed_list` of the queue, or alone.  Its
  `flags` and its `workqueue` are to say the same, but `rt_workqueue_urgent_work` only
  moves the item.  `Lists` is what every operation keeps of the links, whatever is
  called (`lists_submitWork` and its siblings); `workqueue_tracked_iff` says in which
  runs the fields agree with the lists.

  Each call is one step; the lock and, for `rt_workqueue_cancel_all_work`, the critical
  section keep others out.  The worker's wait can end at any time.  The scans end
  after as many items as there are.
-/
import Gd32Vw553h.Foundation.History
import Gd32Vw553h.Foundation.LinkedRing
import Gd32Vw553h.Foundation.Runs
import Gd32Vw553h.Kernel.RtDef
import Mathlib.Data.Fintype.Card
import Mathlib.Data.List.TakeWhile

set_option autoImplicit false

namespace Gd32Vw553h.Ipc

open Gd32Vw553h.Foundation Gd32Vw553h.Kernel

/-! ## The code -/

/-- A list node: one of the two heads in `struct rt_workqueue`, or the one in a work item. -/
inductive ListNode (τ : Type*) where
  | workList
  | delayedList
  | item (work : τ)
  deriving DecidableEq

/-- The work item around a node. -/
def ListNode.work? {τ : Type*} : ListNode τ → Option τ
  | .item work => some work
  | _ => none

/-- `flags` of a work item. -/
structure WorkFlags where
  /-- `RT_WORK_STATE_PENDING` -/
  pending : Bool := false
  /-- `RT_WORK_STATE_SUBMITTING` -/
  submitting : Bool := false
  deriving DecidableEq

/-- A work queue with the work items that may be put on it. -/
structure RtWorkqueue (τ : Type*) where
  links : Links (ListNode τ)
  workCurrent : Option τ
  flags : τ → WorkFlags
  timeoutTick : τ → Nat
  /-- `work->workqueue` is the queue, not null -/
  workqueue : τ → Bool

namespace RtWorkqueue

variable {τ : Type*} [DecidableEq τ] [Fintype τ]

/-- After `rt_workqueue_create`, and `rt_work_init` of every item. -/
def create : RtWorkqueue τ where
  links := { next := id, prev := id }
  workCurrent := none
  flags _ := {}
  timeoutTick _ := 0
  workqueue _ := false

/-- The items in the list with this head. -/
def itemsIn (queue : RtWorkqueue τ) (head : ListNode τ) : List τ :=
  (queue.links.members head (Fintype.card τ)).filterMap ListNode.work?

/-- The items in `work_list`. -/
def workItems (queue : RtWorkqueue τ) : List τ := queue.itemsIn .workList

/-- The items in `delayed_list`. -/
def delayedItems (queue : RtWorkqueue τ) : List τ := queue.itemsIn .delayedList

/-- `rt_list_remove` of an item. -/
def listRemove (queue : RtWorkqueue τ) (work : τ) : RtWorkqueue τ :=
  { queue with links := queue.links.remove (.item work) }

/-- `rt_list_insert_after(queue->work_list.prev, &(work->list))` -/
def listAppend (queue : RtWorkqueue τ) (work : τ) : RtWorkqueue τ :=
  { queue with links := queue.links.insertAfter (queue.links.prev .workList) (.item work) }

/-- `work->flags = flags` -/
def setFlags (queue : RtWorkqueue τ) (work : τ) (flags : WorkFlags) : RtWorkqueue τ :=
  { queue with flags := Function.update queue.flags work flags }

/-- `work->workqueue = queue` or `RT_NULL` -/
def setWorkqueue (queue : RtWorkqueue τ) (work : τ) (set : Bool) : RtWorkqueue τ :=
  { queue with workqueue := Function.update queue.workqueue work set }

/-- The place in `delayed_list` in front of which an item with this deadline goes. -/
def delayedPlace (queue : RtWorkqueue τ) (timeoutTick : Nat) : ListNode τ :=
  match queue.delayedItems.find? fun workTmp =>
      wordSub (queue.timeoutTick workTmp) timeoutTick < rtTickHalf with
  | some workTmp => .item workTmp
  | none => .delayedList

/-- `_workqueue_submit_work` at tick `now`: what it returns is `RT_EOK`, and the queue. -/
def submitWork (queue : RtWorkqueue τ) (now : Nat) (work : τ) (ticks : Nat) :
    Bool × RtWorkqueue τ :=
  let queue := (queue.listRemove work).setFlags work {}
  if ticks = 0 then
    (true, ((queue.listAppend work).setFlags work { pending := true }).setWorkqueue work true)
  else if ticks < rtTickHalf then
    let timeoutTick := (now + ticks) % wordSize
    let queue := (queue.setFlags work { submitting := true }).setWorkqueue work true
    let queue :=
      { queue with timeoutTick := Function.update queue.timeoutTick work timeoutTick }
    (true,
      { queue with
        links := queue.links.insertBefore (queue.delayedPlace timeoutTick) (.item work) })
  else (false, queue)

/-- `rt_workqueue_urgent_work` -/
def urgentWork (queue : RtWorkqueue τ) (work : τ) : RtWorkqueue τ :=
  let queue := queue.listRemove work
  { queue with links := queue.links.insertAfter .workList (.item work) }

/-- `_workqueue_cancel_work`: what it returns is `RT_EOK`, and the queue. -/
def cancelWork (queue : RtWorkqueue τ) (work : τ) : Bool × RtWorkqueue τ :=
  let queue := (queue.listRemove work).setFlags work {}
  (queue.workCurrent ≠ some work, queue.setWorkqueue work false)

/-- A loop of `rt_workqueue_cancel_all_work`, over at most `fuel` items. -/
def cancelList (head : ListNode τ) : Nat → RtWorkqueue τ → RtWorkqueue τ
  | 0, queue => queue
  | fuel + 1, queue =>
    match queue.links.next head with
    | .item work => cancelList head fuel (queue.cancelWork work).2
    | _ => queue

/-- `rt_workqueue_cancel_all_work` -/
def cancelAllWork (queue : RtWorkqueue τ) : RtWorkqueue τ :=
  let queue := cancelList .workList (Fintype.card τ) queue
  cancelList .delayedList (Fintype.card τ) queue

/-- The timer check of `_workqueue_thread_entry`, over at most `fuel` items. -/
def timerCheck (currentTick : Nat) : Nat → RtWorkqueue τ → RtWorkqueue τ
  | 0, queue => queue
  | fuel + 1, queue =>
    match queue.links.next .delayedList with
    | .item work =>
      if wordSub currentTick (queue.timeoutTick work) < rtTickHalf then
        timerCheck currentTick fuel
          (((queue.listRemove work).listAppend work).setFlags work
            { queue.flags work with submitting := false, pending := true })
      else queue
    | _ => queue

/-- The locked part of `_workqueue_thread_entry` at tick `now`: the item that it is going to
execute, or nothing when it waits. -/
def takeWork (queue : RtWorkqueue τ) (now : Nat) : Option τ × RtWorkqueue τ :=
  let queue := timerCheck now (Fintype.card τ) queue
  match queue.links.next .workList with
  | .item work =>
    let queue := { queue.listRemove work with workCurrent := some work }
    (some work, (queue.setFlags work { queue.flags work with pending := false }).setWorkqueue
      work false)
  | _ => (none, queue)

/-- `queue->work_current = RT_NULL` -/
def cleanCurrent (queue : RtWorkqueue τ) : RtWorkqueue τ := { queue with workCurrent := none }

end RtWorkqueue

/-! ## Runs -/

/-- What has happened to a work item. -/
inductive WorkEvent (τ : Type*) where
  | submitted (work : τ)
  | cancelled (work : τ)
  | cancelledAll
  | taken (work : τ)

/-- A work queue with its callers and its worker. -/
structure WorkState (τ : Type*) where
  queue : RtWorkqueue τ
  tick : Nat
  history : List (WorkEvent τ)

inductive WorkStep (τ : Type*) where
  | dowork (work : τ)
  | submitWork (work : τ) (ticks : Nat)
  | urgentWork (work : τ)
  | cancelWork (work : τ)
  | cancelAllWork
  /-- the worker looks at the lists -/
  | workerLook
  /-- the worker's `work_func` has returned -/
  | workerDone
  | tick (n : Nat)

section Machine

variable {τ : Type*} [DecidableEq τ] [Fintype τ]

/-- Calls, the worker and the tick. -/
def workqueueMachine : Machine (WorkState τ) (WorkStep τ) where
  step s
    | .dowork work =>
        some { s with
          queue := (s.queue.submitWork s.tick work 0).2
          history := s.history ++ [.submitted work] }
    | .submitWork work ticks =>
        -- RT_ASSERT(ticks < RT_TICK_MAX / 2)
        if ticks < rtTickHalf then
          some { s with
            queue := (s.queue.submitWork s.tick work ticks).2
            history := s.history ++ [.submitted work] }
        else none
    | .urgentWork work =>
        some { s with
          queue := s.queue.urgentWork work
          history := s.history ++ [.submitted work] }
    | .cancelWork work =>
        some { s with
          queue := (s.queue.cancelWork work).2
          history := s.history ++ [.cancelled work] }
    | .cancelAllWork =>
        some { s with
          queue := s.queue.cancelAllWork
          history := s.history ++ [.cancelledAll] }
    | .workerLook =>
        match s.queue.workCurrent with
        | some _ => none
        | none =>
          let (work, queue) := s.queue.takeWork s.tick
          some { s with
            queue := queue
            history := s.history ++ (work.map .taken).toList }
    | .workerDone =>
        match s.queue.workCurrent with
        | some _ => some { s with queue := s.queue.cleanCurrent }
        | none => none
    | .tick n => some { s with tick := (s.tick + n) % wordSize }

/-- A new queue at any tick. -/
def WorkState.start (tick : Nat) : WorkState τ := ⟨.create, tick, []⟩

/-- What became last of the item was its submission. -/
def owed (work : τ) : List (WorkEvent τ) → Bool :=
  List.foldl (fun due event =>
    match event with
    | .submitted other => if other = work then true else due
    | .cancelled other | .taken other => if other = work then false else due
    | .cancelledAll => false) false

/-- Each item that is taken has been submitted, and neither taken nor cancelled since. -/
def Accounted (history : List (WorkEvent τ)) : Prop :=
  Explained (fun before event => ∀ work, event = .taken work → owed work before = true) history

/-- The fields of the work items agree with the lists. -/
structure RtWorkqueue.Tracked (queue : RtWorkqueue τ) : Prop where
  apart : ∀ work ∈ queue.workItems, work ∉ queue.delayedItems
  pending : ∀ work, (queue.flags work).pending = true ↔ work ∈ queue.workItems
  submitting : ∀ work, (queue.flags work).submitting = true ↔ work ∈ queue.delayedItems
  workqueue : ∀ work,
    queue.workqueue work = true ↔ work ∈ queue.workItems ∨ work ∈ queue.delayedItems

/-- `rt_workqueue_urgent_work` is called for items in `work_list` only. -/
def UrgentPending (s : WorkState τ) : WorkStep τ → Prop
  | .urgentWork work => work ∈ s.queue.workItems
  | _ => True

end Machine

/-! ## The links -/

section Links

variable {τ : Type*} {L : Links (ListNode τ)} {ws ds : List τ} {head : ListNode τ} {work w : τ}

/-- The items `ws` are in `work_list` and the items `ds` in `delayed_list`, in this order;
every other item is alone. -/
structure Lists (L : Links (ListNode τ)) (ws ds : List τ) : Prop where
  work : L.Ring .workList (ws.map .item)
  delayed : L.Ring .delayedList (ds.map .item)
  alone : ∀ w, w ∉ ws → w ∉ ds → L.Ring (.item w) []
  apart : ∀ w ∈ ws, w ∉ ds

theorem item_injective : Function.Injective (ListNode.item : τ → ListNode τ) :=
  fun _ _ h => ListNode.item.inj h

theorem item_mem_iff (hhead : head ≠ .item work) :
    ListNode.item work ∈ head :: ws.map .item ↔ work ∈ ws := by
  rw [List.mem_cons, List.mem_map_of_injective item_injective]
  exact or_iff_right (Ne.symm hhead)

theorem ring_nodup (r : L.Ring head (ws.map .item)) : ws.Nodup :=
  ((List.nodup_cons.mp r.nodup).2).of_map _

/-- The nodes of one list are not in the other. -/
theorem Lists.nodes_apart (h : Lists L ws ds) :
    ∀ z ∈ ListNode.workList :: ws.map .item, z ∉ ListNode.delayedList :: ds.map .item := by
  intro z hz
  cases z with
  | workList => simp
  | delayedList => simp at hz
  | item w =>
    rw [item_mem_iff (by simp)] at hz ⊢
    exact h.apart w hz

theorem nodes_apart_alone (hhead : head ≠ .item w) (hw : w ∉ ws) :
    ∀ z ∈ head :: ws.map .item, z ∉ [ListNode.item w] := by
  intro z hz hsame
  obtain rfl := List.mem_singleton.mp hsame
  exact hw ((item_mem_iff hhead).mp hz)

/-- The rings apart from a list, and without this node, are rings of the new links. -/
def Carried (L L' : Links (ListNode τ)) (nodes : List (ListNode τ)) (work : τ) : Prop :=
  ∀ head qs, L.Ring head qs → (∀ z ∈ nodes, z ∉ head :: qs) → .item work ∉ head :: qs →
    L'.Ring head qs

theorem Lists.intoWork {L' : Links (ListNode τ)} {ws' : List τ} (h : Lists L ws ds)
    (hds : work ∉ ds) (hring : L'.Ring .workList (ws'.map .item))
    (hmem : ∀ w, w ∈ ws' ↔ w = work ∨ w ∈ ws)
    (hcarried : Carried L L' (.workList :: ws.map .item) work) : Lists L' ws' ds where
  work := hring
  delayed := hcarried _ _ h.delayed h.nodes_apart (mt (item_mem_iff (by simp)).mp hds)
  alone w hw hd := by
    obtain ⟨hne, hold⟩ := not_or.mp (mt (hmem w).mpr hw)
    refine hcarried _ _ (h.alone w hold hd) (nodes_apart_alone (by simp) hold) fun hsame => ?_
    exact hne (item_injective (List.mem_singleton.mp hsame)).symm
  apart w hw := by
    rcases (hmem w).mp hw with rfl | hold
    · exact hds
    · exact h.apart w hold

theorem Lists.intoDelayed {L' : Links (ListNode τ)} {ds' : List τ} (h : Lists L ws ds)
    (hws : work ∉ ws) (hring : L'.Ring .delayedList (ds'.map .item))
    (hmem : ∀ w, w ∈ ds' ↔ w = work ∨ w ∈ ds)
    (hcarried : Carried L L' (.delayedList :: ds.map .item) work) : Lists L' ws ds' where
  work := hcarried _ _ h.work (fun z hd hw => h.nodes_apart z hw hd)
    (mt (item_mem_iff (by simp)).mp hws)
  delayed := hring
  alone w hw hd := by
    obtain ⟨hne, hold⟩ := not_or.mp (mt (hmem w).mpr hd)
    refine hcarried _ _ (h.alone w hw hold) (nodes_apart_alone (by simp) hold) fun hsame => ?_
    exact hne (item_injective (List.mem_singleton.mp hsame)).symm
  apart w hw hd := by
    rcases (hmem w).mp hd with rfl | hold
    · exact hws hw
    · exact h.apart w hw hold

variable [DecidableEq τ]

/-- Removing a member of a list. -/
theorem ring_remove (r : L.Ring head (ws.map .item)) (hwork : work ∈ ws) :
    (L.remove (.item work)).Ring head ((ws.erase work).map .item) ∧
      (L.remove (.item work)).Ring (.item work) [] := by
  have hnodup := ring_nodup r
  obtain ⟨xs, ys, rfl⟩ := List.append_of_mem hwork
  have hxs : work ∉ xs := fun hmem =>
    (List.nodup_append.mp hnodup).2.2 work hmem work List.mem_cons_self rfl
  rw [List.erase_append_right _ hxs, List.erase_cons_head]
  rw [List.map_append, List.map_cons] at r
  rw [List.map_append]
  exact r.remove

/-- Removing an item from wherever it is. -/
theorem Lists.remove (h : Lists L ws ds) (work : τ) :
    Lists (L.remove (.item work)) (ws.erase work) (ds.erase work) := by
  have hapart : ∀ w ∈ ws.erase work, w ∉ ds.erase work := fun w hw hd =>
    h.apart w (List.mem_of_mem_erase hw) (List.mem_of_mem_erase hd)
  by_cases hwork : work ∈ ws
  · have hsame : ds.erase work = ds := List.erase_of_not_mem (h.apart work hwork)
    obtain ⟨hring, halone⟩ := ring_remove h.work hwork
    have hnode := (item_mem_iff (show ListNode.workList ≠ .item work by simp)).mpr hwork
    rw [hsame] at hapart ⊢
    refine ⟨hring, h.work.remove_apart h.delayed h.nodes_apart hnode, fun w hw hd => ?_, hapart⟩
    by_cases hne : w = work
    · rw [hne]
      exact halone
    · have hws : w ∉ ws := mt (List.mem_erase_of_ne hne).mpr hw
      exact h.work.remove_apart (h.alone w hws hd) (nodes_apart_alone (by simp) hws) hnode
  · have hsame : ws.erase work = ws := List.erase_of_not_mem hwork
    rw [hsame] at hapart ⊢
    by_cases hdelayed : work ∈ ds
    · obtain ⟨hring, halone⟩ := ring_remove h.delayed hdelayed
      have hnode := (item_mem_iff (show ListNode.delayedList ≠ .item work by simp)).mpr hdelayed
      refine ⟨h.delayed.remove_apart h.work (fun z hd hw => h.nodes_apart z hw hd) hnode, hring,
        fun w hw hd => ?_, hapart⟩
      by_cases hne : w = work
      · rw [hne]
        exact halone
      · have hds : w ∉ ds := mt (List.mem_erase_of_ne hne).mpr hd
        exact h.delayed.remove_apart (h.alone w hw hds) (nodes_apart_alone (by simp) hds) hnode
    · rw [List.erase_of_not_mem hdelayed, Links.remove_alone (h.alone work hwork hdelayed)]
      exact h

theorem not_mem_erase_self (hnodup : ws.Nodup) : work ∉ ws.erase work := fun hmem =>
  (List.Nodup.mem_erase_iff hnodup).mp hmem |>.1 rfl

theorem Lists.queued_erase (h : Lists L ws ds) (work w : τ) :
    w ∈ ws.erase work ∨ w ∈ ds.erase work ↔ w ≠ work ∧ (w ∈ ws ∨ w ∈ ds) := by
  rw [(ring_nodup h.work).mem_erase_iff, (ring_nodup h.delayed).mem_erase_iff, and_or_left]

/-- Appending an item that is alone to `work_list`. -/
theorem Lists.append (h : Lists L ws ds) (hws : work ∉ ws) (hds : work ∉ ds) :
    Lists (L.insertAfter (L.prev .workList) (.item work)) (ws ++ [work]) ds := by
  refine h.intoWork hds ?_ (fun w => ?_) fun head qs hother hapart hnew => ?_
  · rw [List.map_append]
    exact h.work.insertAfter_last (mt (item_mem_iff (by simp)).mp hws)
  · rw [List.mem_append, List.mem_singleton, or_comm]
  · exact h.work.insertAfter_apart hother hapart (h.work.neighbours List.mem_cons_self).2 hnew

/-- Putting an item that is alone in front of `work_list`. -/
theorem Lists.push (h : Lists L ws ds) (hws : work ∉ ws) (hds : work ∉ ds) :
    Lists (L.insertAfter .workList (.item work)) (work :: ws) ds := by
  refine h.intoWork hds ?_ (fun w => List.mem_cons) fun head qs hother hapart hnew => ?_
  · exact h.work.insertAfter (mt (item_mem_iff (by simp)).mp hws)
  · exact h.work.insertAfter_apart hother hapart List.mem_cons_self hnew

/-- Putting an item that is alone in front of a member of `delayed_list`, or last. -/
theorem Lists.insert {xs ys : List τ} (h : Lists L ws (xs ++ ys)) (hws : work ∉ ws)
    (hds : work ∉ xs ++ ys) :
    Lists (L.insertBefore ((ys.head?.map .item).getD .delayedList) (.item work)) ws
      (xs ++ work :: ys) := by
  have hnew := mt (item_mem_iff (show ListNode.delayedList ≠ .item work by simp)).mp hds
  have hring := h.delayed
  refine h.intoDelayed hws ?_ (fun w => ?_) fun head qs hother hapart hnot => ?_
  · cases ys with
    | nil =>
      rw [List.append_nil] at hring hnew
      rw [List.map_append]
      exact hring.insertBefore hnew
    | cons y ys =>
      rw [List.map_append, List.map_cons] at hring hnew
      rw [List.map_append, List.map_cons, List.map_cons]
      exact hring.insertBefore_mem hnew
  · simp only [List.mem_append, List.mem_cons]
    exact or_left_comm
  · refine hring.insertBefore_apart hother hapart ?_ hnot
    cases ys with
    | nil => exact List.mem_cons_self
    | cons y ys =>
      refine List.mem_cons_of_mem _ (List.mem_map_of_mem ?_)
      exact List.mem_append_right xs List.mem_cons_self

end Links

/-! ## The operations -/

namespace RtWorkqueue

section Operations

variable {τ : Type*} {queue : RtWorkqueue τ} {ws ds : List τ}

/-- The fields of the items say that `ws` are in `work_list` and `ds` in `delayed_list`. -/
structure Fields (queue : RtWorkqueue τ) (ws ds : List τ) : Prop where
  pending : ∀ w, (queue.flags w).pending = true ↔ w ∈ ws
  submitting : ∀ w, (queue.flags w).submitting = true ↔ w ∈ ds
  workqueue : ∀ w, queue.workqueue w = true ↔ w ∈ ws ∨ w ∈ ds

/-- From the lists `ws` and `ds`, the operation leads to `ws'` and `ds'`; fields that agreed
still do. -/
structure Moves (queue : RtWorkqueue τ) (ws ds : List τ) (queue' : RtWorkqueue τ)
    (ws' ds' : List τ) : Prop where
  lists : Lists queue'.links ws' ds'
  fields : queue.Fields ws ds → queue'.Fields ws' ds'
  current : queue'.workCurrent = queue.workCurrent

theorem Moves.refl (h : Lists queue.links ws ds) : queue.Moves ws ds queue ws ds :=
  ⟨h, id, rfl⟩

theorem Moves.trans {mid final : RtWorkqueue τ} {ws' ds' ws'' ds'' : List τ}
    (h : queue.Moves ws ds mid ws' ds') (h' : mid.Moves ws' ds' final ws'' ds'') :
    queue.Moves ws ds final ws'' ds'' :=
  ⟨h'.lists, fun hfields => h'.fields (h.fields hfields), h'.current.trans h.current⟩

/-- Fields that are as they were for the other items, and right for this one. -/
theorem Fields.change {queue' : RtWorkqueue τ} {ws' ds' : List τ}
    (h : queue.Fields ws ds) (work : τ)
    (hflags : ∀ w, w ≠ work → queue'.flags w = queue.flags w ∧
      queue'.workqueue w = queue.workqueue w ∧ (w ∈ ws' ↔ w ∈ ws) ∧ (w ∈ ds' ↔ w ∈ ds))
    (hwork : ((queue'.flags work).pending = true ↔ work ∈ ws') ∧
      ((queue'.flags work).submitting = true ↔ work ∈ ds') ∧
      (queue'.workqueue work = true ↔ work ∈ ws' ∨ work ∈ ds')) : queue'.Fields ws' ds' := by
  obtain ⟨hpending, hsubmitting, hqueue⟩ := hwork
  constructor <;> intro w <;> by_cases hne : w = work
  · exact hne ▸ hpending
  · obtain ⟨hflags, -, hws, -⟩ := hflags w hne
    rw [hflags, hws]
    exact h.pending w
  · exact hne ▸ hsubmitting
  · obtain ⟨hflags, -, -, hds⟩ := hflags w hne
    rw [hflags, hds]
    exact h.submitting w
  · exact hne ▸ hqueue
  · obtain ⟨-, hset, hws, hds⟩ := hflags w hne
    rw [hset, hws, hds]
    exact h.workqueue w

variable [DecidableEq τ]

theorem moves_cancelWork (h : Lists queue.links ws ds) (work : τ) :
    queue.Moves ws ds (queue.cancelWork work).2 (ws.erase work) (ds.erase work) := by
  have hws : work ∉ ws.erase work := not_mem_erase_self (ring_nodup h.work)
  have hds : work ∉ ds.erase work := not_mem_erase_self (ring_nodup h.delayed)
  refine ⟨h.remove work, fun hfields => hfields.change work (fun w hne => ?_) ?_, rfl⟩
  · simp only [cancelWork, setFlags, setWorkqueue, listRemove, Function.update_of_ne hne,
      List.mem_erase_of_ne hne, and_self]
  · simp [cancelWork, setFlags, setWorkqueue, hws, hds]

theorem lists_urgentWork (h : Lists queue.links ws ds) (work : τ) :
    Lists (queue.urgentWork work).links (work :: ws.erase work) (ds.erase work) :=
  (h.remove work).push (not_mem_erase_self (ring_nodup h.work))
    (not_mem_erase_self (ring_nodup h.delayed))

/-- For an item that is pending, moving it is enough. -/
theorem fields_urgentWork (h : Lists queue.links ws ds) (hfields : queue.Fields ws ds)
    {work : τ} (hwork : work ∈ ws) :
    (queue.urgentWork work).Fields (work :: ws.erase work) (ds.erase work) := by
  have hds : work ∉ ds := h.apart work hwork
  refine hfields.change work (fun w hne => ?_) ?_
  · simp [urgentWork, listRemove, List.mem_erase_of_ne hne, hne]
  · have hpending := (hfields.pending work).mpr hwork
    have hsubmitting := mt (hfields.submitting work).mp hds
    have hqueue := (hfields.workqueue work).mpr (.inl hwork)
    simp [urgentWork, listRemove, List.erase_of_not_mem hds, hds, hpending, hsubmitting, hqueue]

/-- One item whose delay is over. -/
theorem moves_timeout {work : τ} (h : Lists queue.links ws (work :: ds)) :
    queue.Moves ws (work :: ds)
      (((queue.listRemove work).listAppend work).setFlags work
        { queue.flags work with submitting := false, pending := true }) (ws ++ [work]) ds := by
  have hws : work ∉ ws := fun hmem => h.apart work hmem List.mem_cons_self
  have hds : work ∉ ds := (List.nodup_cons.mp (ring_nodup h.delayed)).1
  have hlists := h.remove work
  rw [List.erase_of_not_mem hws, List.erase_cons_head] at hlists
  refine ⟨hlists.append hws hds, fun hfields => ?_, rfl⟩
  refine hfields.change work (fun w hne => ?_) ?_
  · simp [setFlags, listRemove, listAppend, hne]
  · have hqueue := (hfields.workqueue work).mpr (.inr List.mem_cons_self)
    simp [setFlags, listRemove, listAppend, hds, hqueue]

@[simp] theorem timeoutTick_timerCheck (now fuel : Nat) (queue : RtWorkqueue τ) :
    (timerCheck now fuel queue).timeoutTick = queue.timeoutTick := by
  induction fuel generalizing queue with
  | zero => rfl
  | succ fuel ih =>
    rw [timerCheck]
    split
    · split
      · rw [ih]
        rfl
      · rfl
    · rfl

/-- The timer check takes the items that are due off the front of `delayed_list`, up to one
that is not. -/
theorem moves_timerCheck (now fuel : Nat) (h : Lists queue.links ws ds) :
    ∃ moved rest, ds = moved ++ rest ∧
      queue.Moves ws ds (timerCheck now fuel queue) (ws ++ moved) rest ∧
      (∀ w ∈ moved, wordSub now (queue.timeoutTick w) < rtTickHalf) ∧
      (ds.length ≤ fuel → ∀ w ∈ rest.head?,
        ¬ wordSub now (queue.timeoutTick w) < rtTickHalf) := by
  induction fuel generalizing queue ws ds with
  | zero =>
    refine ⟨[], ds, rfl, by rw [List.append_nil]; exact .refl h, by simp, fun hfuel => ?_⟩
    obtain rfl := List.eq_nil_of_length_eq_zero (Nat.le_zero.mp hfuel)
    simp
  | succ fuel ih =>
    have hnext := h.delayed.next_head
    cases ds with
    | nil =>
      have hempty : queue.links.next .delayedList = .delayedList := hnext
      rw [timerCheck, hempty]
      exact ⟨[], [], rfl, by rw [List.append_nil]; exact .refl h, by simp, by simp⟩
    | cons work ds =>
      have hfirst : queue.links.next .delayedList = .item work := hnext
      rw [timerCheck, hfirst]
      dsimp only
      split
      · rename_i hdue
        have hmoved := moves_timeout h
        obtain ⟨moved, rest, rfl, hrest, hmovedDue, hstop⟩ := ih hmoved.lists
        rw [List.append_assoc, List.singleton_append] at hrest
        refine ⟨work :: moved, rest, rfl, hmoved.trans hrest, fun w hw => ?_, fun hfuel =>
          hstop (Nat.le_of_succ_le_succ hfuel)⟩
        rcases List.mem_cons.mp hw with rfl | hw
        · exact hdue
        · exact hmovedDue w hw
      · rename_i hdue
        refine ⟨[], work :: ds, rfl, by rw [List.append_nil]; exact .refl h, by simp,
          fun _ w hw => ?_⟩
        obtain rfl : work = w := by simpa using hw
        exact hdue

/-- A loop of `rt_workqueue_cancel_all_work` cancels the members of its list. -/
theorem moves_cancelList {head : ListNode τ} {items : List τ} {fuel : Nat}
    (hhead : head.work? = none) (h : Lists queue.links ws ds)
    (r : queue.links.Ring head (items.map .item)) (hfuel : items.length ≤ fuel) :
    ∃ ws' ds', queue.Moves ws ds (cancelList head fuel queue) ws' ds' ∧
      (∀ w, w ∈ ws' ↔ w ∈ ws ∧ w ∉ items) ∧ ∀ w, w ∈ ds' ↔ w ∈ ds ∧ w ∉ items := by
  induction fuel generalizing queue ws ds items with
  | zero =>
    obtain rfl := List.eq_nil_of_length_eq_zero (Nat.le_zero.mp hfuel)
    exact ⟨ws, ds, .refl h, by simp, by simp⟩
  | succ fuel ih =>
    have hnext := r.next_head
    cases items with
    | nil =>
      have hempty : queue.links.next head = head := hnext
      have hstop : cancelList head (fuel + 1) queue = queue := by
        rw [cancelList, hempty]
        cases head with
        | workList | delayedList => rfl
        | item work => cases hhead
      rw [hstop]
      exact ⟨ws, ds, .refl h, by simp, by simp⟩
    | cons work items =>
      have hfirst : queue.links.next head = .item work := hnext
      have hcancel := moves_cancelWork h work
      have hring := (ring_remove r List.mem_cons_self).1
      rw [List.erase_cons_head] at hring
      obtain ⟨ws', ds', hrest, hws', hds'⟩ :=
        ih hcancel.lists hring (Nat.le_of_succ_le_succ hfuel)
      rw [cancelList, hfirst]
      refine ⟨ws', ds', hcancel.trans hrest, fun w => ?_, fun w => ?_⟩
      · rw [hws', (ring_nodup h.work).mem_erase_iff, List.mem_cons, not_or]
        grind
      · rw [hds', (ring_nodup h.delayed).mem_erase_iff, List.mem_cons, not_or]
        grind

variable [Fintype τ]

theorem itemsIn_eq {head : ListNode τ} {items : List τ}
    (r : queue.links.Ring head (items.map .item)) : queue.itemsIn head = items := by
  have hlen : (items.map ListNode.item).length ≤ Fintype.card τ := by
    rw [List.length_map]
    exact (ring_nodup r).length_le_card
  rw [itemsIn, r.members_eq hlen, List.filterMap_map]
  exact List.filterMap_some

theorem workItems_eq (h : Lists queue.links ws ds) : queue.workItems = ws := itemsIn_eq h.work

theorem delayedItems_eq (h : Lists queue.links ws ds) : queue.delayedItems = ds :=
  itemsIn_eq h.delayed

theorem tracked_iff (h : Lists queue.links ws ds) : queue.Tracked ↔ queue.Fields ws ds := by
  have hws := workItems_eq h
  have hds := delayedItems_eq h
  constructor
  · rintro ⟨-, hpending, hsubmitting, hqueue⟩
    rw [hws, hds] at *
    exact ⟨hpending, hsubmitting, hqueue⟩
  · rintro ⟨hpending, hsubmitting, hqueue⟩
    constructor
    · rw [hws, hds]
      exact h.apart
    · rw [hws]
      exact hpending
    · rw [hds]
      exact hsubmitting
    · rw [hws, hds]
      exact hqueue

theorem moves_dowork (h : Lists queue.links ws ds) (now : Nat) (work : τ) :
    queue.Moves ws ds (queue.submitWork now work 0).2 (ws.erase work ++ [work])
      (ds.erase work) := by
  have hws : work ∉ ws.erase work := not_mem_erase_self (ring_nodup h.work)
  have hds : work ∉ ds.erase work := not_mem_erase_self (ring_nodup h.delayed)
  refine ⟨(h.remove work).append hws hds, fun hfields => ?_, rfl⟩
  refine hfields.change work (fun w hne => ?_) ?_
  · simp [submitWork, setFlags, setWorkqueue, listRemove, listAppend,
      List.mem_erase_of_ne hne, hne]
  · simp [submitWork, setFlags, setWorkqueue, hds]

/-- A delayed item goes into `delayed_list` in front of the first item that its deadline is
not ahead of. -/
theorem moves_submitWork (h : Lists queue.links ws ds) (now : Nat) (work : τ) {ticks : Nat}
    (hzero : ticks ≠ 0) (hticks : ticks < rtTickHalf) :
    ∃ xs ys, ds.erase work = xs ++ ys ∧
      queue.Moves ws ds (queue.submitWork now work ticks).2 (ws.erase work)
        (xs ++ work :: ys) ∧
      (∀ w ∈ xs,
        ¬ wordSub (queue.timeoutTick w) ((now + ticks) % wordSize) < rtTickHalf) ∧
      ∀ w ∈ ys.head?, wordSub (queue.timeoutTick w) ((now + ticks) % wordSize) < rtTickHalf := by
  have hws : work ∉ ws.erase work := not_mem_erase_self (ring_nodup h.work)
  have hds : work ∉ ds.erase work := not_mem_erase_self (ring_nodup h.delayed)
  have hlists := h.remove work
  let timeout := (now + ticks) % wordSize
  let queue' : RtWorkqueue τ := { queue.listRemove work with
    timeoutTick := Function.update queue.timeoutTick work timeout }
  let p : τ → Bool := fun w => wordSub (queue'.timeoutTick w) timeout < rtTickHalf
  have hold : ∀ w ∈ ds.erase work,
      p w = decide (wordSub (queue.timeoutTick w) timeout < rtTickHalf) := by
    intro w hw
    have hne : w ≠ work := fun heq => hds (heq ▸ hw)
    simp only [p, queue', Function.update_of_ne hne]
  have hplace : queue'.delayedPlace timeout =
      (((ds.erase work).dropWhile fun w => !p w).head?.map .item).getD .delayedList := by
    rw [← List.find?_eq_head?_dropWhile_not, delayedPlace,
      show queue'.delayedItems = ds.erase work from delayedItems_eq hlists]
    cases (ds.erase work).find? p <;> rfl
  have hsplit : ds.erase work =
      (ds.erase work).takeWhile (fun w => !p w) ++ (ds.erase work).dropWhile fun w => !p w :=
    List.takeWhile_append_dropWhile.symm
  refine ⟨_, _, hsplit, ⟨?_, fun hfields => ?_, ?_⟩, fun w hw => ?_, fun w hw => ?_⟩
  · rw [hsplit] at hlists hds
    have hinsert := hlists.insert hws hds
    rw [← hplace] at hinsert
    simp only [submitWork, if_neg hzero, if_pos hticks]
    exact hinsert
  · refine hfields.change work (fun w hne => ?_) ?_
    · have hmem : w ∈ ds.erase work ↔ w ∈ ds := List.mem_erase_of_ne hne
      rw [hsplit, List.mem_append] at hmem
      simp [submitWork, if_neg hzero, if_pos hticks, setFlags, setWorkqueue, listRemove,
        List.mem_erase_of_ne hne, hne, hmem]
    · simp [submitWork, if_neg hzero, if_pos hticks, setFlags, setWorkqueue, hws]
  · simp only [submitWork, if_neg hzero, if_pos hticks]
    rfl
  · have hpasses := List.mem_takeWhile_imp hw
    rw [hold w ((List.takeWhile_sublist _).subset hw)] at hpasses
    simpa using hpasses
  · have hstops : p w = true := by
      have hfind := List.find?_eq_head?_dropWhile_not (p := p) (l := ds.erase work)
      rw [Option.mem_def.mp hw] at hfind
      exact List.find?_some hfind
    have hmem : w ∈ ds.erase work :=
      (List.dropWhile_sublist _).subset (List.mem_of_mem_head? hw)
    rw [hold w hmem] at hstops
    simpa using hstops

/-- A submitted item is in one of the lists, beside those that were. -/
theorem moves_submit (h : Lists queue.links ws ds) (now : Nat) (work : τ) {ticks : Nat}
    (hticks : ticks < rtTickHalf) :
    ∃ ws' ds', queue.Moves ws ds (queue.submitWork now work ticks).2 ws' ds' ∧
      ∀ w, w ∈ ws' ∨ w ∈ ds' ↔ w = work ∨ w ∈ ws ∨ w ∈ ds := by
  have herase := h.queued_erase work
  by_cases hzero : ticks = 0
  · subst hzero
    refine ⟨_, _, moves_dowork h now work, fun w => ?_⟩
    have hw := herase w
    rw [List.mem_append, List.mem_singleton]
    grind
  · obtain ⟨xs, ys, hsplit, hmoves, -⟩ := moves_submitWork h now work hzero hticks
    refine ⟨_, _, hmoves, fun w => ?_⟩
    have hw := herase w
    rw [hsplit, List.mem_append] at hw
    rw [List.mem_append, List.mem_cons]
    grind

/-- The worker waits with an empty `work_list`, or takes its first item. -/
theorem takeWork_cases (now : Nat) (h : Lists queue.links ws ds) :
    (∃ rest, (queue.takeWork now).1 = none ∧ queue.Moves ws ds (queue.takeWork now).2 [] rest ∧
        ∀ w, w ∈ rest ↔ w ∈ ws ∨ w ∈ ds) ∨
      ∃ work ws' rest, (queue.takeWork now).1 = some work ∧ (work ∈ ws ∨ work ∈ ds) ∧
        Lists (queue.takeWork now).2.links ws' rest ∧
        (queue.Fields ws ds → (queue.takeWork now).2.Fields ws' rest) ∧
        (queue.takeWork now).2.workCurrent = some work ∧
        ∀ w, w ∈ ws' ∨ w ∈ rest ↔ w ≠ work ∧ (w ∈ ws ∨ w ∈ ds) := by
  obtain ⟨moved, rest, rfl, hmoves, -⟩ := moves_timerCheck now (Fintype.card τ) h
  have hsame : ∀ w, w ∈ ws ++ moved ∨ w ∈ rest ↔ w ∈ ws ∨ w ∈ moved ++ rest := by
    intro w
    rw [List.mem_append, List.mem_append, or_assoc]
  have hnext := hmoves.lists.work.next_head
  unfold takeWork
  dsimp only
  generalize timerCheck now (Fintype.card τ) queue = checked at hmoves hnext ⊢
  generalize ws ++ moved = ready at hmoves hnext hsame
  cases ready with
  | nil =>
    have hempty : checked.links.next .workList = .workList := hnext
    rw [hempty]
    refine .inl ⟨rest, rfl, hmoves, fun w => ?_⟩
    rw [← hsame, or_iff_right List.not_mem_nil]
  | cons work ws' =>
    have hfirst : checked.links.next .workList = .item work := hnext
    have hws : work ∉ ws' := (List.nodup_cons.mp (ring_nodup hmoves.lists.work)).1
    have hds : work ∉ rest := hmoves.lists.apart work List.mem_cons_self
    have hlists := hmoves.lists.remove work
    rw [List.erase_cons_head, List.erase_of_not_mem hds] at hlists
    rw [hfirst]
    refine .inr ⟨work, ws', rest, rfl, (hsame work).mp (.inl List.mem_cons_self), hlists,
      fun hfields => ?_, rfl, fun w => ?_⟩
    · have hready := hmoves.fields hfields
      have hsubmitting := mt (hready.submitting work).mp hds
      refine hready.change work (fun w hne => ?_) ?_
      · simp [setFlags, setWorkqueue, listRemove, hne]
      · simp [setFlags, setWorkqueue, listRemove, hws, hds, hsubmitting]
    · have hqueued := hmoves.lists.queued_erase work w
      rw [List.erase_cons_head, List.erase_of_not_mem hds] at hqueued
      rw [hqueued, hsame]

/-- Both loops run until their list is empty. -/
theorem moves_cancelAllWork (h : Lists queue.links ws ds) :
    queue.Moves ws ds queue.cancelAllWork [] [] := by
  obtain ⟨ws', ds', hwork, hws', -⟩ :=
    moves_cancelList rfl h h.work (ring_nodup h.work).length_le_card
  obtain ⟨ws'', ds'', hdelayed, hws'', hds''⟩ := moves_cancelList rfl hwork.lists
    hwork.lists.delayed (ring_nodup hwork.lists.delayed).length_le_card
  have hworkEmpty : ws'' = [] := List.eq_nil_iff_forall_not_mem.mpr fun w hw => by
    obtain ⟨hold, -⟩ := (hws'' w).mp hw
    obtain ⟨hmem, hnot⟩ := (hws' w).mp hold
    exact hnot hmem
  have hdelayedEmpty : ds'' = [] := List.eq_nil_iff_forall_not_mem.mpr fun w hw => by
    obtain ⟨hmem, hnot⟩ := (hds'' w).mp hw
    exact hnot hmem
  rw [hworkEmpty, hdelayedEmpty] at hdelayed
  exact hwork.trans hdelayed

end Operations

end RtWorkqueue

/-! ## Bookkeeping in every run -/

section History

variable {τ : Type*} [DecidableEq τ]

theorem owed_append (work : τ) (history : List (WorkEvent τ)) (event : WorkEvent τ) :
    owed work (history ++ [event]) =
      match event with
      | .submitted other => if other = work then true else owed work history
      | .cancelled other | .taken other => if other = work then false else owed work history
      | .cancelledAll => false := by
  rw [owed, List.foldl_append]
  rfl

end History

section Bookkeeping

variable {τ : Type*} [DecidableEq τ] {s mid : WorkState τ} {ws ds : List τ}

/-- The links, and what has happened to the items that they hold. -/
structure WorkState.Kept (s : WorkState τ) (ws ds : List τ) : Prop where
  lists : Lists s.queue.links ws ds
  owed : ∀ w, owed w s.history = true ↔ w ∈ ws ∨ w ∈ ds
  accounted : Accounted s.history

theorem kept_start (tick : Nat) :
    (WorkState.start (τ := τ) tick).Kept [] [] ∧
      (WorkState.start (τ := τ) tick).queue.Fields [] [] := by
  have hring : ∀ node : ListNode τ,
      (RtWorkqueue.create (τ := τ)).links.Ring node [] := fun node =>
    Links.ring_nil_iff.mpr ⟨rfl, rfl⟩
  refine ⟨⟨⟨hring _, hring _, fun w _ _ => hring _, ?_⟩, ?_, ?_⟩, ⟨?_, ?_, ?_⟩⟩
  · exact fun w hw => absurd hw List.not_mem_nil
  · simp [WorkState.start, owed]
  · intro before work after hsplit
    simp [WorkState.start] at hsplit
  · simp [WorkState.start, RtWorkqueue.create]
  · simp [WorkState.start, RtWorkqueue.create]
  · simp [WorkState.start, RtWorkqueue.create]

/-- An item is put on one of the lists. -/
theorem WorkState.Kept.submitted {ws' ds' : List τ} {work : τ} (h : s.Kept ws ds)
    (hlists : Lists mid.queue.links ws' ds')
    (hhistory : mid.history = s.history ++ [.submitted work])
    (hmem : ∀ w, w ∈ ws' ∨ w ∈ ds' ↔ w = work ∨ w ∈ ws ∨ w ∈ ds) : mid.Kept ws' ds' where
  lists := hlists
  owed w := by
    rw [hhistory, owed_append, hmem, ← h.owed w]
    by_cases heq : work = w
    · simp [heq]
    · simp [heq, Ne.symm heq]
  accounted := by
    rw [hhistory]
    exact h.accounted.append fun w htaken => by cases htaken

/-- An item is taken off the lists. -/
theorem WorkState.Kept.dropped {ws' ds' : List τ} {work : τ} {event : WorkEvent τ}
    (h : s.Kept ws ds) (hlists : Lists mid.queue.links ws' ds')
    (hhistory : mid.history = s.history ++ [event])
    (hevent : event = .cancelled work ∨ event = .taken work ∧ (work ∈ ws ∨ work ∈ ds))
    (hmem : ∀ w, w ∈ ws' ∨ w ∈ ds' ↔ w ≠ work ∧ (w ∈ ws ∨ w ∈ ds)) : mid.Kept ws' ds' where
  lists := hlists
  owed w := by
    rw [hhistory, owed_append, hmem, ← h.owed w]
    rcases hevent with rfl | ⟨rfl, -⟩ <;> by_cases heq : work = w
    · simp [heq]
    · simp [heq, Ne.symm heq]
    · simp [heq]
    · simp [heq, Ne.symm heq]
  accounted := by
    rw [hhistory]
    refine h.accounted.append fun w htaken => (h.owed w).mpr ?_
    rcases hevent with rfl | ⟨rfl, hwork⟩
    · cases htaken
    · obtain rfl := WorkEvent.taken.inj htaken
      exact hwork

variable [Fintype τ]

/-- A step keeps the links whatever it does, and the fields unless it moves an item that is
not pending to the front. -/
theorem kept_step {a : WorkStep τ} (h : s.Kept ws ds)
    (hstep : workqueueMachine.step s a = some mid) :
    ∃ ws' ds', mid.Kept ws' ds' ∧
      (UrgentPending s a → s.queue.Fields ws ds → mid.queue.Fields ws' ds') := by
  have hlists := h.lists
  cases a with
  | dowork work =>
    obtain rfl := Option.some.inj hstep
    obtain ⟨ws', ds', hmoves, hmem⟩ :=
      RtWorkqueue.moves_submit hlists s.tick work (show 0 < rtTickHalf by decide)
    exact ⟨ws', ds', h.submitted hmoves.lists rfl hmem, fun _ => hmoves.fields⟩
  | submitWork work ticks =>
    by_cases hticks : ticks < rtTickHalf
    · obtain rfl : _ = mid := by simpa [workqueueMachine, hticks] using hstep
      obtain ⟨ws', ds', hmoves, hmem⟩ := RtWorkqueue.moves_submit hlists s.tick work hticks
      exact ⟨ws', ds', h.submitted hmoves.lists rfl hmem, fun _ => hmoves.fields⟩
    · simp [workqueueMachine, hticks] at hstep
  | urgentWork work =>
    obtain rfl := Option.some.inj hstep
    refine ⟨_, _, h.submitted (RtWorkqueue.lists_urgentWork hlists work) rfl fun w => ?_,
      fun hpending hfields => RtWorkqueue.fields_urgentWork hlists hfields ?_⟩
    · have hqueued := hlists.queued_erase work w
      rw [List.mem_cons]
      grind
    · rwa [UrgentPending, RtWorkqueue.workItems_eq hlists] at hpending
  | cancelWork work =>
    obtain rfl := Option.some.inj hstep
    have hmoves := RtWorkqueue.moves_cancelWork hlists work
    exact ⟨_, _, h.dropped hmoves.lists rfl (.inl rfl) (hlists.queued_erase work),
      fun _ => hmoves.fields⟩
  | cancelAllWork =>
    obtain rfl := Option.some.inj hstep
    have hmoves := RtWorkqueue.moves_cancelAllWork hlists
    refine ⟨[], [], ⟨hmoves.lists, fun w => ?_, h.accounted.append (by simp)⟩,
      fun _ => hmoves.fields⟩
    rw [owed_append]
    simp
  | workerLook =>
    cases hcurrent : s.queue.workCurrent with
    | some work => simp [workqueueMachine, hcurrent] at hstep
    | none =>
      obtain rfl : _ = mid := by simpa [workqueueMachine, hcurrent] using hstep
      rcases RtWorkqueue.takeWork_cases s.tick hlists with ⟨rest, hnone, hmoves, hmem⟩ |
        ⟨work, ws', rest, hsome, hqueued, htaken, hfields, -, hmem⟩
      · refine ⟨[], rest, ⟨hmoves.lists, fun w => ?_, ?_⟩, fun _ => hmoves.fields⟩
        · rw [hnone, or_iff_right List.not_mem_nil, hmem]
          simpa using h.owed w
        · rw [hnone]
          simpa using h.accounted
      · refine ⟨ws', rest, h.dropped htaken ?_ (.inr ⟨rfl, hqueued⟩) hmem, fun _ => hfields⟩
        rw [hsome]
        rfl
  | workerDone =>
    cases hcurrent : s.queue.workCurrent with
    | none => simp [workqueueMachine, hcurrent] at hstep
    | some work =>
      obtain rfl : _ = mid := by simpa [workqueueMachine, hcurrent] using hstep
      exact ⟨ws, ds, ⟨hlists, h.owed, h.accounted⟩, fun _ hfields =>
        ⟨hfields.pending, hfields.submitting, hfields.workqueue⟩⟩
  | tick n =>
    obtain rfl := Option.some.inj hstep
    exact ⟨ws, ds, ⟨hlists, h.owed, h.accounted⟩, fun _ hfields => hfields⟩

/-- Moving an item to the front that is not pending leaves its flags wrong. -/
theorem not_tracked_urgentWork (h : s.Kept ws ds) (hfields : s.queue.Fields ws ds) {work : τ}
    (hwork : work ∉ s.queue.workItems) : ¬ (s.queue.urgentWork work).Tracked := by
  intro htracked
  have hurgent := RtWorkqueue.lists_urgentWork h.lists work
  rw [RtWorkqueue.workItems_eq h.lists] at hwork
  have hmem := htracked.pending work
  rw [RtWorkqueue.workItems_eq hurgent] at hmem
  exact hwork ((hfields.pending work).mp (hmem.mpr List.mem_cons_self))

/-- In every run, each item is in one list at most, and each execution comes from a
submission of its own. -/
theorem accounted_of_run {tick : Nat} {schedule : List (WorkStep τ)} {final : WorkState τ}
    (run : workqueueMachine.Run Machine.anyStep (.start tick) schedule final) :
    (∀ work ∈ final.queue.workItems, work ∉ final.queue.delayedItems) ∧
      Accounted final.history := by
  have hkept : ∃ ws ds, final.Kept ws ds := by
    refine run.invariant (I := fun s => ∃ ws ds, s.Kept ws ds) ?_ ⟨[], [], (kept_start tick).1⟩
    rintro s a mid - hstep ⟨ws, ds, h⟩
    obtain ⟨ws', ds', hmid, -⟩ := kept_step h hstep
    exact ⟨ws', ds', hmid⟩
  obtain ⟨ws, ds, h⟩ := hkept
  refine ⟨?_, h.accounted⟩
  rw [RtWorkqueue.workItems_eq h.lists, RtWorkqueue.delayedItems_eq h.lists]
  exact h.lists.apart

/-- The fields agree with the lists after every step exactly when
`rt_workqueue_urgent_work` is only called for pending items. -/
theorem workqueue_tracked_iff (tick : Nat) (schedule : List (WorkStep τ)) :
    ((WorkState.start (τ := τ) tick).queue.Tracked ∧
        workqueueMachine.AllSteps (fun _ _ s => s.queue.Tracked ∧ Accounted s.history)
          (.start tick) schedule) ↔
      workqueueMachine.Admitted UrgentPending (.start tick) schedule := by
  obtain ⟨hkept, hfields⟩ := kept_start (τ := τ) tick
  have hstart := (RtWorkqueue.tracked_iff hkept.lists).mpr hfields
  have hkeep : ∀ (s : WorkState τ) a mid, UrgentPending s a →
      workqueueMachine.step s a = some mid → (∃ ws ds, s.Kept ws ds ∧ s.queue.Fields ws ds) →
      ∃ ws ds, mid.Kept ws ds ∧ mid.queue.Fields ws ds := by
    rintro s a mid hok hstep ⟨ws, ds, h, hagree⟩
    obtain ⟨ws', ds', hmid, hnext⟩ := kept_step h hstep
    exact ⟨ws', ds', hmid, hnext hok hagree⟩
  refine (and_iff_right hstart).trans
    (Machine.allSteps_iff_admitted (fun s a h => ⟨fun hall => ?_, fun hok mid hstep => ?_⟩)
      hkeep schedule ⟨[], [], hkept, hfields⟩)
  · obtain ⟨ws, ds, h, hagree⟩ := h
    cases a with
    | urgentWork work =>
      by_contra hwork
      exact not_tracked_urgentWork h hagree hwork (hall _ rfl).1
    | dowork | submitWork | cancelWork | cancelAllWork | workerLook | workerDone | tick => trivial
  · obtain ⟨ws, ds, hmid, hagree⟩ := hkeep s a mid hok hstep h
    exact ⟨(RtWorkqueue.tracked_iff hmid.lists).mpr hagree, hmid.accounted⟩

end Bookkeeping

/-- An urgent item that was not pending is in `work_list` without the flag. -/
theorem not_tracked_after_urgentWork :
    ¬ workqueueMachine.AllSteps (fun _ _ s => s.queue.Tracked ∧ Accounted s.history)
      (WorkState.start (τ := Unit) 0) [.urgentWork ()] := by
  intro h
  have hpending := ((h _ rfl).1.1.pending ()).mpr (by decide)
  exact absurd hpending (by decide)

end Gd32Vw553h.Ipc
