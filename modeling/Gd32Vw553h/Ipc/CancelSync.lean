/-
  Ipc/CancelSync.lean --- `rt_workqueue_cancel_work_sync`
  (`components/drivers/ipc/workqueue.c`).

  A canceller reads `work_current` without the lock.  When the item is executing, it
  waits on `queue->sem`, which the worker pulses after every item until nobody waits;
  otherwise it cancels the item.  `cancelWorkSync_iff` says that nobody is left waiting
  and that the item is gone when the call returns exactly in the runs in which what a
  canceller has read is still so when it acts on it, and the item is not put back too
  early.  `not_cancelWorkSync_synchronous` has three runs in which it is not so.

  Submissions and the other calls may come from any thread, and from the executing item.
  The semaphore's value is 1 at most, far from its limit.
-/
import Gd32Vw553h.Ipc.Workqueue

set_option autoImplicit false

namespace Gd32Vw553h.Ipc

open Gd32Vw553h.Foundation Gd32Vw553h.Kernel

/-! ## The code -/

/-- Where `_workqueue_thread_entry` stands. -/
inductive WorkerPoint (τ : Type*) where
  /-- before the locked part of the loop -/
  | look
  /-- in `work_func` -/
  | doWork (work : τ)
  /-- before `rt_sem_trytake` of `_workqueue_work_completion` -/
  | tryTake (work : τ)
  /-- before its `rt_sem_release` -/
  | release (work : τ)
  deriving DecidableEq

/-- Where a call of `rt_workqueue_cancel_work_sync` stands. -/
inductive CancelPoint (τ : Type*) where
  /-- before `rt_sem_take` -/
  | take (work : τ)
  /-- before `_workqueue_cancel_work` -/
  | cancel (work : τ)
  /-- in `rt_sem_take`, suspended or resumed -/
  | semWait (work : τ)
  /-- before the return -/
  | leave (work : τ)
  deriving DecidableEq

/-- A work queue with its worker and the calls in progress. -/
structure SyncState (κ τ : Type*) where
  queue : RtWorkqueue τ
  tick : Nat
  worker : WorkerPoint τ
  semValue : Nat
  /-- the threads suspended on `queue->sem`, in `RT_IPC_FLAG_FIFO` order -/
  semWaiters : List κ
  calls : κ → Option (CancelPoint τ)

inductive SyncStep (κ τ : Type*) where
  | submitWork (work : τ) (ticks : Nat)
  | urgentWork (work : τ)
  | cancelWork (work : τ)
  | cancelAllWork
  /-- the next statement of the worker -/
  | worker
  /-- `rt_workqueue_cancel_work_sync` is called and reads `work_current` -/
  | cancelWorkSync (thread : κ) (work : τ)
  /-- the next statement of a call -/
  | next (thread : κ)
  | tick (n : Nat)

section Code

variable {κ τ : Type*} [DecidableEq κ] [DecidableEq τ] [Fintype τ]

/-- A new queue at any tick. -/
def SyncState.start (tick : Nat) : SyncState κ τ where
  queue := .create
  tick := tick
  worker := .look
  semValue := 0
  semWaiters := []
  calls _ := none

/-- A call goes on, or returns. -/
def SyncState.goTo (s : SyncState κ τ) (thread : κ) (point : Option (CancelPoint τ)) :
    SyncState κ τ :=
  { s with calls := Function.update s.calls thread point }

/-- The next statement of the worker. -/
def SyncState.workerStep (s : SyncState κ τ) : SyncState κ τ :=
  match s.worker with
  | .look =>
    let (work, queue) := s.queue.takeWork s.tick
    { s with queue := queue, worker := (work.map .doWork).getD .look }
  | .doWork work => { s with queue := s.queue.cleanCurrent, worker := .tryTake work }
  | .tryTake work =>
    if 0 < s.semValue then { s with semValue := s.semValue - 1, worker := .look }
    else { s with worker := .release work }
  | .release work =>
    match s.semWaiters with
    | _ :: waiters => { s with semWaiters := waiters, worker := .tryTake work }
    | [] => { s with semValue := s.semValue + 1, worker := .tryTake work }

/-- The next statement of a call. -/
def SyncState.callStep (s : SyncState κ τ) (thread : κ) : Option (SyncState κ τ) :=
  match s.calls thread with
  | none => none
  | some (.take work) =>
    if 0 < s.semValue then
      some ({ s with semValue := s.semValue - 1 }.goTo thread (some (.leave work)))
    else
      some ({ s with semWaiters := s.semWaiters ++ [thread] }.goTo thread (some (.semWait work)))
  | some (.cancel work) =>
    some ({ s with queue := (s.queue.cancelWork work).2 }.goTo thread (some (.leave work)))
  | some (.semWait _) => if thread ∈ s.semWaiters then none else some (s.goTo thread none)
  | some (.leave _) => some (s.goTo thread none)

/-- All interleavings. -/
def cancelSyncMachine : Machine (SyncState κ τ) (SyncStep κ τ) where
  step s
    | .submitWork work ticks =>
        -- RT_ASSERT(ticks < RT_TICK_MAX / 2); rt_workqueue_dowork has no delay
        if ticks < rtTickHalf then
          some { s with queue := (s.queue.submitWork s.tick work ticks).2 }
        else none
    | .urgentWork work => some { s with queue := s.queue.urgentWork work }
    | .cancelWork work => some { s with queue := (s.queue.cancelWork work).2 }
    | .cancelAllWork => some { s with queue := s.queue.cancelAllWork }
    | .worker => some s.workerStep
    | .cancelWorkSync thread work =>
        match s.calls thread with
        | some _ => none
        | none =>
          some (s.goTo thread
            (some (if s.queue.workCurrent = some work then .take work else .cancel work)))
    | .next thread => s.callStep thread
    | .tick n => some { s with tick := (s.tick + n) % wordSize }

/-! ## What is claimed, and when -/

/-- The item is executing, or its completion is being acknowledged. -/
def SyncState.Serves (s : SyncState κ τ) (work : τ) : Prop :=
  s.queue.workCurrent = some work ∨ s.worker = .tryTake work ∨ s.worker = .release work

/-- The call is suspended on `queue->sem`. -/
def SyncState.Blocked (s : SyncState κ τ) (thread : κ) (work : τ) : Prop :=
  s.calls thread = some (.semWait work) ∧ thread ∈ s.semWaiters

/-- The call has nothing left to do but to return. -/
def SyncState.Returns (s : SyncState κ τ) (thread : κ) (work : τ) : Prop :=
  s.calls thread = some (.leave work) ∨
    s.calls thread = some (.semWait work) ∧ thread ∉ s.semWaiters

/-- The item is in one of the lists. -/
def RtWorkqueue.Queued (queue : RtWorkqueue τ) (work : τ) : Prop :=
  work ∈ queue.workItems ∨ work ∈ queue.delayedItems

/-- The item is not executing and in neither list. -/
def RtWorkqueue.Gone (queue : RtWorkqueue τ) (work : τ) : Prop :=
  queue.workCurrent ≠ some work ∧ ¬ queue.Queued work

/-- Nobody waits for an item that is not executing, and what a call returns for is gone. -/
def SyncState.Synchronous (s : SyncState κ τ) : Prop :=
  (∀ thread work, s.Blocked thread work → s.Serves work) ∧
    ∀ thread work, s.Returns thread work → s.queue.Gone work

/-- What a call at this point has read is still so: an item that it is going to wait for is
executing, or its completion is being acknowledged; one that it takes the acknowledgement of is
in no list again; one that it is going to cancel is not executing. -/
def SyncState.StillSo (s : SyncState κ τ) : Option (CancelPoint τ) → Prop
  | some (.take work) => if 0 < s.semValue then ¬ s.queue.Queued work else s.Serves work
  | some (.cancel work) => s.queue.workCurrent ≠ some work
  | _ => True

/-- What a canceller has read is still so when it acts on it, an item is not in a list again
when its completion is acknowledged to a canceller, and it is not submitted before that
canceller returns. -/
def Undisturbed (s : SyncState κ τ) : SyncStep κ τ → Prop
  | .submitWork work ticks => ticks < rtTickHalf → ∀ thread, ¬ s.Returns thread work
  | .urgentWork work => ∀ thread, ¬ s.Returns thread work
  | .worker => ∀ last thread waiters work, s.worker = .release last →
      s.semWaiters = thread :: waiters → s.calls thread = some (.semWait work) →
      ¬ s.queue.Queued work
  | .next thread => s.StillSo (s.calls thread)
  | _ => True

end Code

/-! ## What every step keeps -/

section Steps

variable {κ τ : Type*} {queue queue' : RtWorkqueue τ} {s mid : SyncState κ τ} {ws ds : List τ}

/-- The item that the worker executes. -/
def WorkerPoint.executing : WorkerPoint τ → Option τ
  | .doWork work => some work
  | _ => none

/-- The lists are in order, `work_current` is the executing item, and the semaphore has a
value only while it is pulsed and nobody waits. -/
structure SyncState.Kept (s : SyncState κ τ) (ws ds : List τ) : Prop where
  lists : Lists s.queue.links ws ds
  current : s.queue.workCurrent = s.worker.executing
  value : s.semValue ≤ 1
  pulse : 0 < s.semValue → s.semWaiters = [] ∧ ∃ work, s.worker = .tryTake work
  nodup : s.semWaiters.Nodup
  waiting : ∀ thread ∈ s.semWaiters, ∃ work, s.calls thread = some (.semWait work)

/-- The item that the worker has at hand. -/
def WorkerPoint.work? : WorkerPoint τ → Option τ
  | .look => none
  | .doWork work | .tryTake work | .release work => some work

theorem SyncState.Kept.serves_iff (h : s.Kept ws ds) (work : τ) :
    s.Serves work ↔ s.worker.work? = some work := by
  rw [SyncState.Serves, h.current]
  cases s.worker <;> simp [WorkerPoint.executing, WorkerPoint.work?]

theorem SyncState.Kept.withQueue (h : s.Kept ws ds)
    (hlists : ∃ ws' ds', Lists queue'.links ws' ds')
    (hcurrent : queue'.workCurrent = s.queue.workCurrent) :
    ∃ ws' ds', SyncState.Kept { s with queue := queue' } ws' ds' := by
  obtain ⟨ws', ds', hlists⟩ := hlists
  exact ⟨ws', ds', hlists, hcurrent.trans h.current, h.value, h.pulse, h.nodup, h.waiting⟩

/-! ### The lists -/

variable [DecidableEq τ] [Fintype τ]

theorem queued_iff (h : Lists queue.links ws ds) (work : τ) :
    queue.Queued work ↔ work ∈ ws ∨ work ∈ ds := by
  rw [RtWorkqueue.Queued, RtWorkqueue.workItems_eq h, RtWorkqueue.delayedItems_eq h]

/-- What the calls that put an item on a list do to the lists. -/
theorem queued_submitWork (h : Lists queue.links ws ds) (now : Nat) (work : τ) {ticks : Nat}
    (hticks : ticks < rtTickHalf) :
    (∃ ws' ds', Lists (queue.submitWork now work ticks).2.links ws' ds') ∧
      (queue.submitWork now work ticks).2.workCurrent = queue.workCurrent ∧
      ∀ w, (queue.submitWork now work ticks).2.Queued w ↔ w = work ∨ queue.Queued w := by
  obtain ⟨ws', ds', hmoves, hmem⟩ := RtWorkqueue.moves_submit h now work hticks
  refine ⟨⟨ws', ds', hmoves.lists⟩, hmoves.current, fun w => ?_⟩
  rw [queued_iff hmoves.lists, queued_iff h, hmem]

theorem queued_urgentWork (h : Lists queue.links ws ds) (work : τ) :
    (∃ ws' ds', Lists (queue.urgentWork work).links ws' ds') ∧
      ∀ w, (queue.urgentWork work).Queued w ↔ w = work ∨ queue.Queued w := by
  have hlists := RtWorkqueue.lists_urgentWork h work
  refine ⟨⟨_, _, hlists⟩, fun w => ?_⟩
  have hqueued := h.queued_erase work w
  rw [queued_iff hlists, queued_iff h, List.mem_cons]
  tauto

theorem queued_cancelWork (h : Lists queue.links ws ds) (work : τ) :
    (∃ ws' ds', Lists (queue.cancelWork work).2.links ws' ds') ∧
      ∀ w, (queue.cancelWork work).2.Queued w ↔ w ≠ work ∧ queue.Queued w := by
  have hmoves := RtWorkqueue.moves_cancelWork h work
  refine ⟨⟨_, _, hmoves.lists⟩, fun w => ?_⟩
  rw [queued_iff hmoves.lists, queued_iff h, h.queued_erase]

theorem queued_cancelAllWork (h : Lists queue.links ws ds) :
    (∃ ws' ds', Lists queue.cancelAllWork.links ws' ds') ∧
      queue.cancelAllWork.workCurrent = queue.workCurrent ∧
      ∀ w, ¬ queue.cancelAllWork.Queued w := by
  have hmoves := RtWorkqueue.moves_cancelAllWork h
  refine ⟨⟨_, _, hmoves.lists⟩, hmoves.current, fun w => ?_⟩
  rw [queued_iff hmoves.lists]
  simp

/-- Taking items off the lists disturbs nobody. -/
theorem synchronous_removed (h : s.Synchronous)
    (hcurrent : queue'.workCurrent = s.queue.workCurrent)
    (hqueued : ∀ w, queue'.Queued w → s.queue.Queued w) :
    SyncState.Synchronous { s with queue := queue' } := by
  refine ⟨fun thread work hblocked => ?_, fun thread work hreturns => ?_⟩
  · rcases h.1 thread work hblocked with hserves | hserves
    · exact .inl (hcurrent.trans hserves)
    · exact .inr hserves
  · obtain ⟨hidle, hgone⟩ := h.2 thread work hreturns
    exact ⟨fun hexec => hidle (hcurrent.symm.trans hexec), fun hmem => hgone (hqueued work hmem)⟩

/-- Putting an item on a list disturbs the calls that return for it. -/
theorem synchronous_added_iff {work : τ} (h : s.Synchronous)
    (hcurrent : queue'.workCurrent = s.queue.workCurrent)
    (hqueued : ∀ w, queue'.Queued w ↔ w = work ∨ s.queue.Queued w) :
    SyncState.Synchronous { s with queue := queue' } ↔ ∀ thread, ¬ s.Returns thread work := by
  constructor
  · rintro ⟨-, hreturns⟩ thread hthread
    exact (hreturns thread work hthread).2 ((hqueued work).mpr (.inl rfl))
  · intro hnone
    refine ⟨fun thread other hblocked => ?_, fun thread other hreturns => ?_⟩
    · rcases h.1 thread other hblocked with hserves | hserves
      · exact .inl (hcurrent.trans hserves)
      · exact .inr hserves
    · obtain ⟨hidle, hgone⟩ := h.2 thread other hreturns
      refine ⟨fun hexec => hidle (hcurrent.symm.trans hexec), fun hmem => ?_⟩
      rcases (hqueued other).mp hmem with rfl | hold
      · exact hnone thread hreturns
      · exact hgone hold

/-! ### The worker -/

theorem SyncState.Kept.workerStep (h : s.Kept ws ds) : ∃ ws' ds', s.workerStep.Kept ws' ds' := by
  have hcurrent := h.current
  unfold SyncState.workerStep
  cases hworker : s.worker with
  | look =>
    have hzero : ¬ 0 < s.semValue := fun hpos => by
      obtain ⟨-, work, htry⟩ := h.pulse hpos
      rw [hworker] at htry
      cases htry
    rw [hworker] at hcurrent
    rcases RtWorkqueue.takeWork_cases s.tick h.lists with ⟨rest, hnone, hmoves, -⟩ |
      ⟨work, ws', rest, hsome, -, hlists, -, hexec, -⟩
    · simp only [hnone]
      exact ⟨_, _, hmoves.lists, hmoves.current.trans hcurrent, h.value,
        fun hpos => absurd hpos hzero, h.nodup, h.waiting⟩
    · simp only [hsome]
      exact ⟨_, _, hlists, hexec, h.value, fun hpos => absurd hpos hzero, h.nodup, h.waiting⟩
  | doWork work =>
    have hzero : ¬ 0 < s.semValue := fun hpos => by
      obtain ⟨-, other, htry⟩ := h.pulse hpos
      rw [hworker] at htry
      cases htry
    exact ⟨ws, ds, h.lists, rfl, h.value, fun hpos => absurd hpos hzero, h.nodup, h.waiting⟩
  | tryTake work =>
    rw [hworker] at hcurrent
    have hvalue := h.value
    by_cases hpos : 0 < s.semValue
    · simp only [if_pos hpos]
      refine ⟨ws, ds, h.lists, hcurrent, Nat.le_trans (Nat.sub_le _ _) hvalue, fun hagain => ?_,
        h.nodup, h.waiting⟩
      dsimp only at hagain
      omega
    · simp only [if_neg hpos]
      exact ⟨ws, ds, h.lists, hcurrent, hvalue, fun hagain => absurd hagain hpos, h.nodup,
        h.waiting⟩
  | release work =>
    rw [hworker] at hcurrent
    have hzero : s.semValue = 0 := by
      by_contra hne
      obtain ⟨-, other, htry⟩ := h.pulse (Nat.pos_of_ne_zero hne)
      rw [hworker] at htry
      cases htry
    have hnodup := h.nodup
    have hwaiting := h.waiting
    cases hwaiters : s.semWaiters with
    | nil =>
      rw [hwaiters] at hnodup hwaiting
      refine ⟨ws, ds, h.lists, hcurrent, ?_, fun _ => ⟨rfl, work, rfl⟩, hnodup, hwaiting⟩
      dsimp only
      omega
    | cons thread waiters =>
      rw [hwaiters] at hnodup hwaiting
      refine ⟨ws, ds, h.lists, hcurrent, h.value, fun hpos => ?_, (List.nodup_cons.mp hnodup).2,
        fun other hother => hwaiting other (List.mem_cons_of_mem thread hother)⟩
      dsimp only at hpos
      omega

/-- A step that moves neither callers nor waiters. -/
theorem SyncState.Synchronous.mono (h : s.Synchronous) (hcalls : mid.calls = s.calls)
    (hwaiters : mid.semWaiters = s.semWaiters)
    (hserves : ∀ thread work, s.Blocked thread work → s.Serves work → mid.Serves work)
    (hgone : ∀ work, s.queue.Gone work → mid.queue.Gone work) : mid.Synchronous := by
  refine ⟨fun thread work hblocked => ?_, fun thread work hreturns => ?_⟩
  · rw [SyncState.Blocked, hcalls, hwaiters] at hblocked
    exact hserves thread work hblocked (h.1 thread work hblocked)
  · rw [SyncState.Returns, hcalls, hwaiters] at hreturns
    exact hgone work (h.2 thread work hreturns)

/-- Except for the release, no statement of the worker wakes a canceller. -/
theorem synchronous_workerStep (h : s.Kept ws ds) (hsync : s.Synchronous)
    (hworker : ∀ last, s.worker ≠ .release last) : s.workerStep.Synchronous := by
  obtain ⟨ws', ds', hmid⟩ := h.workerStep
  have hserves := h.serves_iff
  have hserves' := hmid.serves_iff
  unfold SyncState.workerStep at hserves' ⊢
  cases hpoint : s.worker with
  | look =>
    rw [hpoint] at hserves
    refine hsync.mono rfl rfl (fun _ work _ hserve => ?_) fun work ⟨hidle, hgone⟩ => ?_
    · exact absurd ((hserves work).mp hserve).symm (Option.some_ne_none work)
    · rw [queued_iff h.lists] at hgone
      rcases RtWorkqueue.takeWork_cases s.tick h.lists with ⟨rest, -, hmoves, hmem⟩ |
        ⟨other, ws', rest, -, hqueued, hlists, -, hexec, hmem⟩
      · refine ⟨?_, ?_⟩
        · rw [hmoves.current]
          exact hidle
        · rw [queued_iff hmoves.lists, or_iff_right List.not_mem_nil, hmem]
          exact hgone
      · refine ⟨fun hwork => ?_, ?_⟩
        · obtain rfl : other = work := Option.some.inj (hexec.symm.trans hwork)
          exact hgone hqueued
        · rw [queued_iff hlists, hmem]
          exact fun hboth => hgone hboth.2
  | doWork last =>
    rw [hpoint] at hserves hserves'
    refine hsync.mono rfl rfl (fun _ work _ hserve => ?_) fun work hgone => ?_
    · exact (hserves' work).mpr ((hserves work).mp hserve)
    · exact ⟨(Option.some_ne_none work).symm, hgone.2⟩
  | tryTake last =>
    rw [hpoint] at hserves hserves'
    by_cases hpos : 0 < s.semValue
    · simp only [if_pos hpos]
      refine hsync.mono rfl rfl (fun thread work hblocked _ => ?_) fun work => id
      rw [SyncState.Blocked, (h.pulse hpos).1] at hblocked
      exact absurd hblocked.2 List.not_mem_nil
    · simp only [if_neg hpos] at hserves' ⊢
      refine hsync.mono rfl rfl (fun _ work _ hserve => ?_) fun work => id
      exact (hserves' work).mpr ((hserves work).mp hserve)
  | release last => exact absurd hpoint (hworker last)

/-- The release wakes the first canceller; that is too early when the item is in a list
again. -/
theorem synchronous_release_iff (h : s.Kept ws ds) (hsync : s.Synchronous) {last : τ}
    (hworker : s.worker = .release last) :
    s.workerStep.Synchronous ↔
      ∀ thread waiters work, s.semWaiters = thread :: waiters →
        s.calls thread = some (.semWait work) → ¬ s.queue.Queued work := by
  obtain ⟨ws', ds', hmid⟩ := h.workerStep
  have hserves := h.serves_iff
  have hserves' := hmid.serves_iff
  have hnodup := h.nodup
  have hcurrent := h.current
  rw [hworker] at hserves hcurrent
  unfold SyncState.workerStep at hserves' ⊢
  rw [hworker] at hserves' ⊢
  cases hwaiters : s.semWaiters with
  | nil =>
    rw [hwaiters] at hserves'
    refine iff_of_true ?_ fun _ _ _ hnone => absurd hnone.symm (List.cons_ne_nil _ _)
    refine hsync.mono rfl ?_ (fun _ work _ hserve => ?_) fun work => id
    · exact hwaiters.symm
    · exact (hserves' work).mpr ((hserves work).mp hserve)
  | cons thread waiters =>
    rw [hwaiters] at hserves' hnodup
    constructor
    · rintro ⟨-, hreturns⟩ thread' waiters' work hsplit hcall
      obtain ⟨rfl, rfl⟩ := List.cons.inj hsplit
      exact (hreturns thread work (.inr ⟨hcall, (List.nodup_cons.mp hnodup).1⟩)).2
    · intro hnot
      refine ⟨fun other work hblocked => ?_, fun other work hreturns => ?_⟩
      · have hold : s.Blocked other work :=
          ⟨hblocked.1, hwaiters ▸ List.mem_cons_of_mem thread hblocked.2⟩
        exact (hserves' work).mpr ((hserves work).mp (hsync.1 other work hold))
      · by_cases hwoken : s.calls other = some (.semWait work) ∧ other = thread
        · obtain ⟨hcall, rfl⟩ := hwoken
          refine ⟨?_, hnot other waiters work rfl hcall⟩
          exact fun hexec => Option.some_ne_none work (hexec.symm.trans hcurrent)
        · refine hsync.2 other work (hreturns.imp_right fun ⟨hcall, hout⟩ => ⟨hcall, ?_⟩)
          rw [hwaiters, List.mem_cons, not_or]
          exact ⟨fun heq => hwoken ⟨hcall, heq⟩, hout⟩

end Steps

/-! ### The calls -/

section Calls

variable {κ τ : Type*} {s mid : SyncState κ τ} {ws ds : List τ} {thread : κ}

/-- A thread whose call stands elsewhere is not suspended. -/
theorem SyncState.Kept.not_waiting (h : s.Kept ws ds)
    (hcall : ∀ work, s.calls thread ≠ some (.semWait work)) : thread ∉ s.semWaiters := by
  intro hmem
  obtain ⟨work, hwait⟩ := h.waiting thread hmem
  exact hcall work hwait

variable [DecidableEq κ]

theorem SyncState.goTo_self (s : SyncState κ τ) (point : Option (CancelPoint τ)) :
    (s.goTo thread point).calls thread = point := Function.update_self _ _ _

theorem SyncState.goTo_other (s : SyncState κ τ) (point : Option (CancelPoint τ)) {other : κ}
    (hne : other ≠ thread) : (s.goTo thread point).calls other = s.calls other :=
  Function.update_of_ne hne _ _

theorem SyncState.blocked_goTo {point : Option (CancelPoint τ)} {work : τ}
    (h : (s.goTo thread point).Blocked thread work) :
    point = some (.semWait work) ∧ thread ∈ s.semWaiters := by
  rwa [SyncState.Blocked, SyncState.goTo_self] at h

theorem SyncState.returns_goTo {point : Option (CancelPoint τ)} {work : τ} :
    (s.goTo thread point).Returns thread work ↔
      point = some (.leave work) ∨ point = some (.semWait work) ∧ thread ∉ s.semWaiters := by
  rw [SyncState.Returns, SyncState.goTo_self]
  rfl

/-- A thread that is not suspended goes on. -/
theorem SyncState.Kept.call {point : Option (CancelPoint τ)} (h : s.Kept ws ds)
    (hout : thread ∉ s.semWaiters) : (s.goTo thread point).Kept ws ds := by
  refine ⟨h.lists, h.current, h.value, h.pulse, h.nodup, fun other hother => ?_⟩
  have hne : other ≠ thread := fun heq => hout (heq ▸ hother)
  obtain ⟨work, hcall⟩ := h.waiting other hother
  exact ⟨work, (s.goTo_other point hne).trans hcall⟩

variable [DecidableEq τ]

/-- What the next statement of a call does. -/
theorem callStep_cases (hstep : s.callStep thread = some mid) :
    (∃ work, s.calls thread = some (.take work) ∧ 0 < s.semValue ∧
        mid = { s with semValue := s.semValue - 1 }.goTo thread (some (.leave work))) ∨
      (∃ work, s.calls thread = some (.take work) ∧ ¬ 0 < s.semValue ∧
        mid = { s with semWaiters := s.semWaiters ++ [thread] }.goTo thread
          (some (.semWait work))) ∨
      (∃ work, s.calls thread = some (.cancel work) ∧
        mid = { s with queue := (s.queue.cancelWork work).2 }.goTo thread
          (some (.leave work))) ∨
      ∃ work, s.Returns thread work ∧ mid = s.goTo thread none := by
  unfold SyncState.callStep at hstep
  cases hcall : s.calls thread with
  | none =>
    rw [hcall] at hstep
    cases hstep
  | some point =>
    rw [hcall] at hstep
    cases point with
    | take work =>
      by_cases hpos : 0 < s.semValue
      · exact .inl ⟨work, rfl, hpos, by simpa [hpos] using hstep.symm⟩
      · exact .inr (.inl ⟨work, rfl, hpos, by simpa [hpos] using hstep.symm⟩)
    | cancel work => exact .inr (.inr (.inl ⟨work, rfl, (Option.some.inj hstep).symm⟩))
    | semWait work =>
      by_cases hout : thread ∈ s.semWaiters
      · simp [hout] at hstep
      · exact .inr (.inr (.inr ⟨work, .inr ⟨hcall, hout⟩, by simpa [hout] using hstep.symm⟩))
    | leave work =>
      exact .inr (.inr (.inr ⟨work, .inl hcall, (Option.some.inj hstep).symm⟩))

variable [Fintype τ]

theorem SyncState.Kept.callStep (h : s.Kept ws ds) (hstep : s.callStep thread = some mid) :
    ∃ ws' ds', mid.Kept ws' ds' := by
  rcases callStep_cases hstep with ⟨work, hcall, hpos, rfl⟩ | ⟨work, hcall, hzero, rfl⟩ |
    ⟨work, hcall, rfl⟩ | ⟨work, hreturns, rfl⟩
  · have hout := h.not_waiting fun other heq => by
      rw [hcall] at heq
      cases heq
    have hvalue := h.value
    have htaken : SyncState.Kept { s with semValue := s.semValue - 1 } ws ds := by
      refine ⟨h.lists, h.current, ?_, fun hagain => ?_, h.nodup, h.waiting⟩
      · dsimp only
        omega
      · dsimp only at hagain
        omega
    exact ⟨ws, ds, htaken.call hout⟩
  · have hout := h.not_waiting fun other heq => by
      rw [hcall] at heq
      cases heq
    refine ⟨ws, ds, h.lists, h.current, h.value, fun hpos => absurd hpos hzero, ?_,
      fun other hother => ?_⟩
    · exact List.nodup_append.mpr ⟨h.nodup, List.nodup_singleton thread, fun a ha b hb heq =>
        hout (List.mem_singleton.mp hb ▸ heq ▸ ha)⟩
    · by_cases hne : other = thread
      · exact ⟨work, hne ▸ SyncState.goTo_self _ _⟩
      · rcases List.mem_append.mp hother with hold | hnew
        · obtain ⟨waited, hwait⟩ := h.waiting other hold
          exact ⟨waited, (SyncState.goTo_other _ _ hne).trans hwait⟩
        · exact absurd (List.mem_singleton.mp hnew) hne
  · have hout := h.not_waiting fun other heq => by
      rw [hcall] at heq
      cases heq
    obtain ⟨ws', ds', hcancelled⟩ := h.withQueue (queued_cancelWork h.lists work).1 rfl
    exact ⟨ws', ds', hcancelled.call hout⟩
  · have hout : thread ∉ s.semWaiters := by
      rcases hreturns with hcall | ⟨-, hout⟩
      · exact h.not_waiting fun other heq => by
          rw [hcall] at heq
          cases heq
      · exact hout
    exact ⟨ws, ds, h.call hout⟩

/-- A step of one call leaves the others as they are. -/
theorem SyncState.Synchronous.call (h : s.Synchronous)
    (hcalls : ∀ other, other ≠ thread → mid.calls other = s.calls other)
    (hwaiters : ∀ other, other ≠ thread → (other ∈ mid.semWaiters ↔ other ∈ s.semWaiters))
    (hserves : ∀ work, s.Serves work → mid.Serves work)
    (hgone : ∀ work, s.queue.Gone work → mid.queue.Gone work)
    (hblocked : ∀ work, mid.Blocked thread work → mid.Serves work)
    (hreturns : ∀ work, mid.Returns thread work → mid.queue.Gone work) : mid.Synchronous := by
  refine ⟨fun other work hwait => ?_, fun other work hleave => ?_⟩ <;>
    by_cases hne : other = thread
  · exact hblocked work (hne ▸ hwait)
  · rw [SyncState.Blocked, hcalls other hne, hwaiters other hne] at hwait
    exact hserves work (h.1 other work hwait)
  · exact hreturns work (hne ▸ hleave)
  · rw [SyncState.Returns, hcalls other hne, hwaiters other hne] at hleave
    exact hgone work (h.2 other work hleave)

/-- A thread that neither waits nor is about to return. -/
theorem SyncState.Synchronous.goTo (h : s.Synchronous) {point : Option (CancelPoint τ)}
    (hpoint : ∀ work, point ≠ some (.semWait work) ∧ point ≠ some (.leave work)) :
    (s.goTo thread point).Synchronous := by
  refine h.call (fun other hne => SyncState.goTo_other _ _ hne) (fun _ _ => Iff.rfl)
    (fun _ => id) (fun _ => id) (fun other hblocked => ?_) fun other hreturns => ?_
  · exact absurd (SyncState.blocked_goTo hblocked).1 (hpoint other).1
  · rcases SyncState.returns_goTo.mp hreturns with heq | ⟨heq, -⟩
    · exact absurd heq (hpoint other).2
    · exact absurd heq (hpoint other).1

/-- A call does its part as long as what it has read is still so. -/
theorem synchronous_callStep_iff (h : s.Kept ws ds) (hsync : s.Synchronous) :
    (∀ mid, s.callStep thread = some mid → mid.Synchronous) ↔
      s.StillSo (s.calls thread) := by
  unfold SyncState.callStep
  cases hcall : s.calls thread with
  | none => exact iff_of_true (fun mid hstep => Option.some_ne_none mid hstep.symm |>.elim) trivial
  | some point =>
    cases point with
    | take work =>
      by_cases hpos : 0 < s.semValue
      · -- the semaphore is pulsed: nothing is executing
        have hidle : s.queue.workCurrent ≠ some work := by
          obtain ⟨-, last, hworker⟩ := h.pulse hpos
          rw [h.current, hworker]
          exact (Option.some_ne_none work).symm
        simp only [SyncState.StillSo, if_pos hpos, Option.some.injEq, forall_eq']
        constructor
        · intro hafter
          exact (hafter.2 thread work (SyncState.returns_goTo.mpr (.inl rfl))).2
        · intro hgone
          refine hsync.call (fun other hne => SyncState.goTo_other _ _ hne) (fun _ _ => Iff.rfl)
            (fun _ => id) (fun _ => id) (fun other hblocked => ?_) fun other hreturns => ?_
          · cases (SyncState.blocked_goTo hblocked).1
          · rcases SyncState.returns_goTo.mp hreturns with heq | ⟨heq, -⟩
            · cases heq
              exact ⟨hidle, hgone⟩
            · cases heq
      · simp only [SyncState.StillSo, if_neg hpos, Option.some.injEq, forall_eq']
        have hlast : thread ∈ s.semWaiters ++ [thread] :=
          List.mem_append_right _ (List.mem_singleton_self thread)
        constructor
        · intro hafter
          exact hafter.1 thread work ⟨SyncState.goTo_self _ _, hlast⟩
        · intro hserves
          refine hsync.call (fun other hne => SyncState.goTo_other _ _ hne) (fun other hne => ?_)
            (fun _ => id) (fun _ => id) (fun other hblocked => ?_) fun other hreturns => ?_
          · exact List.mem_append.trans (or_iff_left fun hmem => hne (List.mem_singleton.mp hmem))
          · cases (SyncState.blocked_goTo hblocked).1
            exact hserves
          · rcases SyncState.returns_goTo.mp hreturns with heq | ⟨-, hout⟩
            · cases heq
            · exact absurd hlast hout
    | cancel work =>
      obtain ⟨⟨ws', ds', hlists⟩, hqueued⟩ := queued_cancelWork h.lists work
      simp only [SyncState.StillSo, Option.some.injEq, forall_eq']
      constructor
      · intro hafter
        exact (hafter.2 thread work (SyncState.returns_goTo.mpr (.inl rfl))).1
      · intro hidle
        refine hsync.call (fun other hne => SyncState.goTo_other _ _ hne) (fun _ _ => Iff.rfl)
          (fun _ => id) (fun other hgone => ?_) (fun other hblocked => ?_) fun other hreturns => ?_
        · exact ⟨hgone.1, fun hmem => hgone.2 ((hqueued other).mp hmem).2⟩
        · cases (SyncState.blocked_goTo hblocked).1
        · rcases SyncState.returns_goTo.mp hreturns with heq | ⟨heq, -⟩
          · cases heq
            exact ⟨hidle, fun hmem => ((hqueued work).mp hmem).1 rfl⟩
          · cases heq
    | semWait work =>
      refine iff_of_true (fun mid hstep => ?_) trivial
      by_cases hout : thread ∈ s.semWaiters
      · simp [hout] at hstep
      · simp only [if_neg hout, Option.some.injEq] at hstep
        exact hstep ▸ hsync.goTo fun _ =>
          ⟨(Option.some_ne_none _).symm, (Option.some_ne_none _).symm⟩
    | leave work =>
      refine iff_of_true (fun mid hstep => ?_) trivial
      obtain rfl := Option.some.inj hstep
      exact hsync.goTo fun _ => ⟨(Option.some_ne_none _).symm, (Option.some_ne_none _).symm⟩

/-! ## Every run -/

theorem kept_cancelSync {a : SyncStep κ τ} (h : s.Kept ws ds)
    (hstep : cancelSyncMachine.step s a = some mid) : ∃ ws' ds', mid.Kept ws' ds' := by
  cases a with
  | submitWork work ticks =>
    by_cases hticks : ticks < rtTickHalf
    · obtain rfl : _ = mid := by simpa [cancelSyncMachine, hticks] using hstep
      obtain ⟨hlists, hcurrent, -⟩ := queued_submitWork h.lists s.tick work hticks
      exact h.withQueue hlists hcurrent
    · simp [cancelSyncMachine, hticks] at hstep
  | urgentWork work =>
    obtain rfl := Option.some.inj hstep
    exact h.withQueue (queued_urgentWork h.lists work).1 rfl
  | cancelWork work =>
    obtain rfl := Option.some.inj hstep
    exact h.withQueue (queued_cancelWork h.lists work).1 rfl
  | cancelAllWork =>
    obtain rfl := Option.some.inj hstep
    obtain ⟨hlists, hcurrent, -⟩ := queued_cancelAllWork h.lists
    exact h.withQueue hlists hcurrent
  | worker =>
    obtain rfl := Option.some.inj hstep
    exact h.workerStep
  | cancelWorkSync thread work =>
    cases hcall : s.calls thread with
    | some point => simp [cancelSyncMachine, hcall] at hstep
    | none =>
      obtain rfl : _ = mid := by
        simpa only [cancelSyncMachine, hcall, Option.some.injEq] using hstep
      exact ⟨ws, ds, h.call (h.not_waiting fun other heq =>
        Option.some_ne_none _ (heq.symm.trans hcall))⟩
  | next thread => exact h.callStep hstep
  | tick n =>
    obtain rfl := Option.some.inj hstep
    exact ⟨ws, ds, h.lists, h.current, h.value, h.pulse, h.nodup, h.waiting⟩

/-- A step leaves the calls synchronous exactly when it does not disturb them. -/
theorem synchronous_step_iff {a : SyncStep κ τ} (h : s.Kept ws ds) (hsync : s.Synchronous) :
    (∀ mid, cancelSyncMachine.step s a = some mid → mid.Synchronous) ↔ Undisturbed s a := by
  have hsome : ∀ next : SyncState κ τ,
      (∀ mid, some next = some mid → mid.Synchronous) ↔ next.Synchronous := fun next =>
    ⟨fun hall => hall next rfl, fun hnext mid heq => Option.some.inj heq ▸ hnext⟩
  cases a with
  | submitWork work ticks =>
    by_cases hticks : ticks < rtTickHalf
    · obtain ⟨-, hcurrent, hqueued⟩ := queued_submitWork h.lists s.tick work hticks
      have hstep : cancelSyncMachine.step s (.submitWork work ticks : SyncStep κ τ) =
          some { s with queue := (s.queue.submitWork s.tick work ticks).2 } := if_pos hticks
      rw [hstep, hsome, synchronous_added_iff hsync hcurrent hqueued]
      exact ⟨fun hnone _ => hnone, fun hnone => hnone hticks⟩
    · have hstep : cancelSyncMachine.step s (.submitWork work ticks : SyncStep κ τ) = none :=
        if_neg hticks
      rw [hstep]
      exact iff_of_true (fun mid heq => absurd heq.symm (Option.some_ne_none mid))
        fun hlt => absurd hlt hticks
  | urgentWork work =>
    obtain ⟨-, hqueued⟩ := queued_urgentWork h.lists work
    exact (hsome _).trans (synchronous_added_iff hsync rfl hqueued)
  | cancelWork work =>
    obtain ⟨-, hqueued⟩ := queued_cancelWork h.lists work
    exact iff_of_true ((hsome _).mpr (synchronous_removed hsync rfl
      fun w hw => ((hqueued w).mp hw).2)) trivial
  | cancelAllWork =>
    obtain ⟨-, hcurrent, hnone⟩ := queued_cancelAllWork h.lists
    exact iff_of_true ((hsome _).mpr (synchronous_removed hsync hcurrent
      fun w hw => absurd hw (hnone w))) trivial
  | worker =>
    refine (hsome _).trans ?_
    by_cases hrelease : ∃ last, s.worker = .release last
    · obtain ⟨last, hworker⟩ := hrelease
      rw [synchronous_release_iff h hsync hworker]
      exact ⟨fun hall _ thread waiters work _ => hall thread waiters work,
        fun hall thread waiters work => hall last thread waiters work hworker⟩
    · rw [not_exists] at hrelease
      exact iff_of_true (synchronous_workerStep h hsync hrelease)
        fun last _ _ _ hworker => absurd hworker (hrelease last)
  | cancelWorkSync thread work =>
    refine iff_of_true (fun mid hstep => ?_) trivial
    cases hcall : s.calls thread with
    | some point => simp [cancelSyncMachine, hcall] at hstep
    | none =>
      obtain rfl : _ = mid := by
        simpa only [cancelSyncMachine, hcall, Option.some.injEq] using hstep
      refine hsync.goTo fun other => ?_
      split_ifs <;> exact ⟨by simp, by simp⟩
  | next thread => exact synchronous_callStep_iff h hsync
  | tick n => exact iff_of_true ((hsome _).mpr ⟨hsync.1, hsync.2⟩) trivial

omit [DecidableEq κ] in
theorem kept_syncStart (tick : Nat) :
    (SyncState.start (κ := κ) (τ := τ) tick).Kept [] [] ∧
      (SyncState.start (κ := κ) (τ := τ) tick).Synchronous := by
  have hlists := (kept_start (τ := τ) tick).1.lists
  refine ⟨⟨hlists, rfl, Nat.zero_le 1, fun hpos => absurd hpos (lt_irrefl 0), List.nodup_nil,
    fun thread hthread => absurd hthread List.not_mem_nil⟩, fun thread work hblocked => ?_,
    fun thread work hreturns => ?_⟩
  · exact absurd hblocked.1.symm (Option.some_ne_none _)
  · rcases hreturns with hcall | ⟨hcall, -⟩ <;> exact absurd hcall.symm (Option.some_ne_none _)

/-- No canceller is left waiting, and what a call returns for is gone, in every state of a
run exactly when no step of it disturbs a call. -/
theorem cancelWorkSync_iff (tick : Nat) (schedule : List (SyncStep κ τ)) :
    ((SyncState.start (κ := κ) (τ := τ) tick).Synchronous ∧
        cancelSyncMachine.AllSteps (fun _ _ s => s.Synchronous) (.start tick) schedule) ↔
      cancelSyncMachine.Admitted Undisturbed (.start tick) schedule := by
  obtain ⟨hkept, hstart⟩ := kept_syncStart (κ := κ) (τ := τ) tick
  refine (and_iff_right hstart).trans (Machine.allSteps_iff_admitted
    (I := fun s => (∃ ws ds, s.Kept ws ds) ∧ s.Synchronous) (fun s a h => ?_)
    (fun s a mid hok hstep h => ?_) schedule ⟨⟨[], [], hkept⟩, hstart⟩)
  · obtain ⟨⟨ws, ds, hinv⟩, hsync⟩ := h
    exact synchronous_step_iff hinv hsync
  · obtain ⟨⟨ws, ds, hinv⟩, hsync⟩ := h
    exact ⟨kept_cancelSync hinv hstep, (synchronous_step_iff hinv hsync).mpr hok mid hstep⟩

end Calls

/-- A canceller that waits for an item that has finished, and whose completion has been
acknowledged; one that returns while the item is executing; and one that returns while the
item, which has submitted itself again, is in `work_list`. -/
theorem not_cancelWorkSync_synchronous :
    (∃ final : SyncState Unit Unit, cancelSyncMachine.Run Machine.anyStep (.start 0)
        [.submitWork () 0, .worker, .cancelWorkSync () (), .worker, .worker, .worker, .worker,
          .next ()] final ∧ final.Blocked () () ∧ ¬ final.Serves ()) ∧
      (∃ final : SyncState Unit Unit, cancelSyncMachine.Run Machine.anyStep (.start 0)
        [.submitWork () 0, .cancelWorkSync () (), .worker, .next ()] final ∧
          final.Returns () () ∧ final.queue.workCurrent = some ()) ∧
      ∃ final : SyncState Unit Unit, cancelSyncMachine.Run Machine.anyStep (.start 0)
        [.submitWork () 0, .worker, .cancelWorkSync () (), .next (), .submitWork () 0, .worker,
          .worker, .worker] final ∧ final.Returns () () ∧ () ∈ final.queue.workItems := by
  refine ⟨?_, ?_, ?_⟩
  · obtain ⟨final, hexec, hfinal⟩ := Option.map_eq_some_iff.mp (show
      ((cancelSyncMachine.exec (SyncState.start 0 : SyncState Unit Unit)
        [.submitWork () 0, .worker, .cancelWorkSync () (), .worker, .worker, .worker, .worker,
          .next ()]).map fun s =>
            (s.calls (), s.semWaiters, s.worker, s.queue.workCurrent)) =
        some (some (.semWait ()), [()], .look, none) by decide)
    simp only [Prod.mk.injEq] at hfinal
    obtain ⟨hcall, hwaiters, hworker, hcurrent⟩ := hfinal
    refine ⟨final, .of_exec hexec (Machine.admitted_anyStep _ _), ⟨hcall, ?_⟩, ?_⟩
    · rw [hwaiters]
      exact List.mem_singleton_self ()
    · simp [SyncState.Serves, hworker, hcurrent]
  · obtain ⟨final, hexec, hfinal⟩ := Option.map_eq_some_iff.mp (show
      ((cancelSyncMachine.exec (SyncState.start 0 : SyncState Unit Unit)
        [.submitWork () 0, .cancelWorkSync () (), .worker, .next ()]).map fun s =>
            (s.calls (), s.queue.workCurrent)) = some (some (.leave ()), some ()) by decide)
    simp only [Prod.mk.injEq] at hfinal
    exact ⟨final, .of_exec hexec (Machine.admitted_anyStep _ _), .inl hfinal.1, hfinal.2⟩
  · obtain ⟨final, hexec, hfinal⟩ := Option.map_eq_some_iff.mp (show
      ((cancelSyncMachine.exec (SyncState.start 0 : SyncState Unit Unit)
        [.submitWork () 0, .worker, .cancelWorkSync () (), .next (), .submitWork () 0, .worker,
          .worker, .worker]).map fun s =>
            (s.calls (), s.semWaiters, s.queue.workItems)) =
        some (some (.semWait ()), [], [()]) by decide)
    simp only [Prod.mk.injEq] at hfinal
    obtain ⟨hcall, hwaiters, hitems⟩ := hfinal
    refine ⟨final, .of_exec hexec (Machine.admitted_anyStep _ _), .inr ⟨hcall, ?_⟩, ?_⟩
    · rw [hwaiters]
      exact List.not_mem_nil
    · rw [hitems]
      exact List.mem_singleton_self ()

end Gd32Vw553h.Ipc
