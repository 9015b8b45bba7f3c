/-
  Kernel/Scheduler.lean --- the single-core scheduler (`rt-thread/src/scheduler_up.c`,
  `scheduler_comm.c`).

  A thread is in the ready queue of its priority, is the current thread, or is suspended.
  The scheduler runs the first thread of the highest ready priority.  A thread that has no
  slice left carries `RT_THREAD_STAT_YIELD` in its `stat` and is inserted last, any other
  first.

  Every function here runs with interrupts off and is one step.  What calls
  `rt_schedule` may be interrupted before it does, so most steps do not end with it.
  A thread that is initialised again after its end counts as another thread.
-/
import Gd32Vw553h.Foundation.Runs
import Mathlib.Data.List.Nodup
import Mathlib.Logic.Function.Basic

set_option autoImplicit false

namespace Gd32Vw553h.Kernel

open Gd32Vw553h.Foundation

/-! ## The code -/

/-- `RT_THREAD_PRIORITY_MAX` -/
abbrev rtThreadPriorityMax : Nat := 32

/-- `stat & RT_THREAD_STAT_MASK` -/
inductive ThreadStat where
  | init
  | close
  | ready
  | running
  | suspend
  deriving DecidableEq

/-- `stat` of a thread. -/
structure SchedStat where
  state : ThreadStat
  /-- `RT_THREAD_STAT_YIELD` -/
  yield : Bool := false

/-- The scheduler and the scheduling data of the threads. -/
structure Scheduler (τ : Type*) where
  /-- `rt_current_thread` -/
  currentThread : Option τ
  /-- `rt_thread_priority_table` -/
  priorityTable : Nat → List τ
  /-- the bits of `rt_thread_ready_priority_group` -/
  readyPriorityGroup : Nat → Bool
  stat : τ → SchedStat
  currentPriority : τ → Nat
  initTick : τ → Nat
  remainingTick : τ → Nat
  /-- `rt_scheduler_lock_nest` -/
  lockNest : Nat
  /-- `rt_scheduler_critical_switch_flag` -/
  criticalSwitch : Bool

namespace Scheduler

variable {τ : Type*}

/-- `rt_system_scheduler_init`, with threads of these priorities and slices. -/
def init (currentPriority initTick : τ → Nat) : Scheduler τ where
  currentThread := none
  priorityTable _ := []
  readyPriorityGroup _ := false
  stat _ := { state := .init }
  currentPriority := currentPriority
  initTick := initTick
  remainingTick := initTick
  lockNest := 0
  criticalSwitch := false

/-- The thread is in state `RT_THREAD_RUNNING`. -/
def Running (s : Scheduler τ) (thread : τ) : Prop := (s.stat thread).state = .running

instance (s : Scheduler τ) (thread : τ) : Decidable (s.Running thread) :=
  inferInstanceAs (Decidable (_ = _))

/-- `__rt_ffs(rt_thread_ready_priority_group) - 1`, or nothing when no bit is set. -/
def highestReadyPriority (s : Scheduler τ) : Option Nat :=
  (List.range rtThreadPriorityMax).find? s.readyPriorityGroup

variable [DecidableEq τ]

/-- `stat = state | (stat & ~RT_THREAD_STAT_MASK)` -/
def setState (s : Scheduler τ) (thread : τ) (state : ThreadStat) : Scheduler τ :=
  { s with stat := Function.update s.stat thread { s.stat thread with state := state } }

/-- `stat = state` -/
def resetStat (s : Scheduler τ) (thread : τ) (state : ThreadStat) : Scheduler τ :=
  { s with stat := Function.update s.stat thread { state := state } }

/-- `stat &= ~RT_THREAD_STAT_YIELD_MASK` -/
def clearYield (s : Scheduler τ) (thread : τ) : Scheduler τ :=
  { s with stat := Function.update s.stat thread { s.stat thread with yield := false } }

/-- `rt_sched_insert_thread` -/
def insertThread (s : Scheduler τ) (thread : τ) : Scheduler τ :=
  if s.currentThread = some thread then s.setState thread .running
  else
    let s := s.setState thread .ready
    let priority := s.currentPriority thread
    let queue := s.priorityTable priority
    { s with
      priorityTable := Function.update s.priorityTable priority
        (if (s.stat thread).yield then queue ++ [thread] else thread :: queue)
      readyPriorityGroup := Function.update s.readyPriorityGroup priority true }

/-- `rt_sched_remove_thread` -/
def removeThread (s : Scheduler τ) (thread : τ) : Scheduler τ :=
  let priority := s.currentPriority thread
  let queue := (s.priorityTable priority).erase thread
  { s with
    priorityTable := Function.update s.priorityTable priority queue
    readyPriorityGroup :=
      if queue = [] then Function.update s.readyPriorityGroup priority false
      else s.readyPriorityGroup }

/-- What `rt_schedule` does once the destination is known not to be the current thread. -/
def switchTo (s : Scheduler τ) (fromThread toThread : τ) (needInsertFromThread : Bool) :
    Scheduler τ :=
  let s := { s with currentThread := some toThread }
  let s := if needInsertFromThread then s.insertThread fromThread else s
  ((s.clearYield fromThread).removeThread toThread).setState toThread .running

/-- `rt_schedule` -/
def schedule (s : Scheduler τ) : Scheduler τ :=
  match s.currentThread with
  | none => s
  | some currThread =>
    if s.lockNest = 0 then
      match s.highestReadyPriority with
      | none => s
      | some highest =>
        match s.priorityTable highest with
        -- a list whose bit is set is not empty
        | [] => s
        | first :: _ =>
          let stays : Bool := s.Running currThread ∧
            (s.currentPriority currThread < highest ∨
              s.currentPriority currThread = highest ∧ ¬ (s.stat currThread).yield)
          let toThread := if stays then currThread else first
          if toThread ≠ currThread then
            s.switchTo currThread toThread (s.Running currThread)
          else (s.removeThread currThread).setState currThread .running
    else { s with criticalSwitch := true }

/-- `rt_system_scheduler_start` -/
def systemSchedulerStart (s : Scheduler τ) : Option (Scheduler τ) :=
  match s.currentThread, s.highestReadyPriority.map s.priorityTable with
  | none, some (toThread :: _) =>
    let s := { s with currentThread := some toThread, criticalSwitch := false }
    some ((s.removeThread toThread).resetStat toThread .running)
  | _, _ => none

/-- `rt_sched_thread_startup` of a new thread. -/
def schedThreadStartup (s : Scheduler τ) (thread : τ) : Option (Scheduler τ) :=
  if (s.stat thread).state = .init then some (s.resetStat thread .suspend) else none

/-- `rt_sched_thread_ready`; its timer can be stopped. -/
def schedThreadReady (s : Scheduler τ) (thread : τ) : Scheduler τ :=
  if (s.stat thread).state = .suspend then s.insertThread thread else s

/-- `rt_sched_thread_yield` -/
def schedThreadYield (s : Scheduler τ) (thread : τ) : Scheduler τ :=
  { s with
    remainingTick := Function.update s.remainingTick thread (s.initTick thread)
    stat := Function.update s.stat thread { s.stat thread with yield := true } }

/-- `rt_sched_tick_increase` -/
def schedTickIncrease (s : Scheduler τ) (thread : τ) (tick : Nat) : Scheduler τ :=
  let remaining := if s.remainingTick thread > tick then s.remainingTick thread - tick else 0
  let s := { s with remainingTick := Function.update s.remainingTick thread remaining }
  if remaining ≠ 0 then s else (s.schedThreadYield thread).schedule

/-- `rt_thread_yield` -/
def threadYield (s : Scheduler τ) (thread : τ) : Scheduler τ :=
  (s.schedThreadYield thread).schedule

/-- What `rt_thread_suspend_to_list` does to the ready queue; a thread that is neither ready
nor running stays as it is. -/
def threadSuspend (s : Scheduler τ) (thread : τ) : Scheduler τ :=
  if (s.stat thread).state = .ready ∨ s.Running thread then
    (s.removeThread thread).setState thread .suspend
  else s

/-- `rt_thread_close` -/
def threadClose (s : Scheduler τ) (thread : τ) : Scheduler τ :=
  match (s.stat thread).state with
  | .close => s
  | .init => s.resetStat thread .close
  | _ => (s.removeThread thread).resetStat thread .close

/-- `_rt_sched_update_priority` -/
def updatePriority (s : Scheduler τ) (thread : τ) (priority : Nat) : Scheduler τ :=
  if (s.stat thread).state = .ready then
    let s := s.removeThread thread
    let s := { s with
      currentPriority := Function.update s.currentPriority thread priority }
    (s.resetStat thread .init).insertThread thread
  else { s with currentPriority := Function.update s.currentPriority thread priority }

/-- `rt_exit_critical`, up to its test of the critical switch flag. -/
def exitCritical (s : Scheduler τ) : Scheduler τ := { s with lockNest := s.lockNest - 1 }

/-- The end of an `rt_exit_critical` that has unlocked the scheduler. -/
def exitSwitch (s : Scheduler τ) : Scheduler τ :=
  if s.criticalSwitch then { s with criticalSwitch := false }.schedule else s

end Scheduler

/-! ## Steps -/

/-- What threads and interrupt handlers do to the scheduler. -/
inductive SchedStep (τ : Type*) where
  | systemStart
  | startup (thread : τ)
  | ready (thread : τ)
  | suspend (thread : τ)
  | close (thread : τ)
  | updatePriority (thread : τ) (priority : Nat)
  | tick (n : Nat)
  | yield
  | schedule
  | enterCritical
  | exitCritical
  | exitSwitch

section Machine

variable {τ : Type*} [DecidableEq τ]

def schedulerMachine : Machine (Scheduler τ) (SchedStep τ) where
  step s
    | .systemStart => s.systemSchedulerStart
    | .startup thread => s.schedThreadStartup thread
    | .ready thread => some (s.schedThreadReady thread)
    | .suspend thread => some (s.threadSuspend thread)
    | .close thread => some (s.threadClose thread)
    | .updatePriority thread priority =>
        -- RT_ASSERT(priority < RT_THREAD_PRIORITY_MAX)
        if priority < rtThreadPriorityMax then some (s.updatePriority thread priority) else none
    | .tick n => s.currentThread.map fun thread => s.schedTickIncrease thread n
    | .yield => s.currentThread.map s.threadYield
    | .schedule => some s.schedule
    | .enterCritical => some { s with lockNest := s.lockNest + 1 }
    | .exitCritical => some s.exitCritical
    | .exitSwitch => if s.lockNest = 0 then some s.exitSwitch else none

end Machine

/-! ## The ready queues -/

namespace Scheduler

variable {τ : Type*} {s : Scheduler τ} {t u : τ}

/-- The ready queues hold ready threads of their priority, and a bit is set for each queue
that is not empty. -/
structure Queued (s : Scheduler τ) : Prop where
  group : ∀ p, s.readyPriorityGroup p = true ↔ s.priorityTable p ≠ []
  member : ∀ p, ∀ t ∈ s.priorityTable p, s.currentPriority t = p ∧ (s.stat t).state = .ready
  nodup : ∀ p, (s.priorityTable p).Nodup

/-- The current thread is in no ready queue, and no other thread has used up its slice. -/
structure WellFormed (s : Scheduler τ) : Prop extends Queued s where
  current : ∀ t, s.currentThread = some t → (s.stat t).state ≠ .ready
  yield : ∀ t, (s.stat t).yield = true → s.currentThread = some t

theorem wellFormed_init (currentPriority initTick : τ → Nat) :
    (init currentPriority initTick).WellFormed where
  group p := by simp [init]
  member p t ht := absurd ht List.not_mem_nil
  nodup p := List.nodup_nil
  current t ht := by cases ht
  yield t ht := by cases ht

/-- A thread that is not ready is in no ready queue. -/
theorem Queued.not_mem (h : s.Queued) (ht : (s.stat t).state ≠ .ready) (p : Nat) :
    t ∉ s.priorityTable p := fun hmem => ht (h.member p t hmem).2

theorem WellFormed.not_mem_current (h : s.WellFormed) (ht : s.currentThread = some t) (p : Nat) :
    t ∉ s.priorityTable p := h.not_mem (h.current t ht) p

theorem Queued.setCurrent (h : s.Queued) (thread : Option τ) :
    { s with currentThread := thread }.Queued := ⟨h.group, h.member, h.nodup⟩

/-- The queue with priority `p` after an insertion. -/
def inserted (s : Scheduler τ) (t : τ) (p : Nat) : List τ :=
  if p = s.currentPriority t then
    if (s.stat t).yield then s.priorityTable p ++ [t] else t :: s.priorityTable p
  else s.priorityTable p

theorem mem_inserted_iff (p : Nat) :
    u ∈ s.inserted t p ↔ p = s.currentPriority t ∧ u = t ∨ u ∈ s.priorityTable p := by
  rw [inserted]
  split
  · rename_i hp
    split
    · rw [List.mem_append, List.mem_singleton, or_comm, and_iff_right hp]
    · rw [List.mem_cons, and_iff_right hp]
  · rename_i hp
    rw [or_iff_right fun hand => hp hand.1]

/-- What was in a queue keeps its order in it. -/
theorem sublist_inserted (s : Scheduler τ) (t : τ) (p : Nat) :
    (s.priorityTable p).Sublist (s.inserted t p) := by
  rw [inserted]
  split
  · split
    · exact List.sublist_append_left _ _
    · exact List.sublist_cons_self _ _
  · exact List.Sublist.refl _

variable [DecidableEq τ]

/-- The `stat` of a thread that is in no ready queue changes. -/
theorem Queued.update_stat {x : SchedStat} (h : s.Queued) (hout : ∀ p, t ∉ s.priorityTable p) :
    { s with stat := Function.update s.stat t x }.Queued where
  group := h.group
  member p u hu := by
    have hne : u ≠ t := fun heq => hout p (heq ▸ hu)
    simp only [Function.update_of_ne hne]
    exact h.member p u hu
  nodup := h.nodup

theorem WellFormed.update_stat {x : SchedStat} (h : s.WellFormed)
    (hout : ∀ p, t ∉ s.priorityTable p) (hready : x.state = .ready → s.currentThread ≠ some t)
    (hyield : x.yield = true → s.currentThread = some t) :
    { s with stat := Function.update s.stat t x }.WellFormed where
  toQueued := h.toQueued.update_stat hout
  current u hu := by
    by_cases hut : u = t
    · subst hut
      simp only [Function.update_self]
      exact fun hstate => hready hstate hu
    · simp only [Function.update_of_ne hut]
      exact h.current u hu
  yield u hu := by
    by_cases hut : u = t
    · subst hut
      simp only [Function.update_self] at hu
      exact hyield hu
    · simp only [Function.update_of_ne hut] at hu
      exact h.yield u hu

theorem WellFormed.setState {state : ThreadStat} (h : s.WellFormed)
    (hout : ∀ p, t ∉ s.priorityTable p) (hready : state ≠ .ready) :
    (s.setState t state).WellFormed :=
  h.update_stat hout (fun heq => absurd heq hready) (h.yield t)

theorem WellFormed.resetStat {state : ThreadStat} (h : s.WellFormed)
    (hout : ∀ p, t ∉ s.priorityTable p) (hready : state ≠ .ready) :
    (s.resetStat t state).WellFormed :=
  h.update_stat hout (fun heq => absurd heq hready) (fun hyield => by cases hyield)

/-- Removing a thread takes it out of whatever queue it is in. -/
theorem Queued.removeThread_table (h : s.Queued) (t : τ) (p : Nat) :
    (s.removeThread t).priorityTable p = (s.priorityTable p).erase t := by
  by_cases hp : p = s.currentPriority t
  · subst hp
    exact Function.update_self _ _ _
  · rw [List.erase_of_not_mem fun hmem => hp (h.member p t hmem).1.symm]
    exact Function.update_of_ne hp _ _

theorem Queued.removeThread (h : s.Queued) (t : τ) : (s.removeThread t).Queued where
  group p := by
    rw [h.removeThread_table]
    by_cases hp : p = s.currentPriority t
    · subst hp
      by_cases hempty : (s.priorityTable (s.currentPriority t)).erase t = []
      · simp [Scheduler.removeThread, hempty]
      · have hne : s.priorityTable (s.currentPriority t) ≠ [] := fun heq => by
          rw [heq] at hempty
          exact hempty rfl
        simp [Scheduler.removeThread, hempty, (h.group _).mpr hne]
    · rw [List.erase_of_not_mem fun hmem => hp (h.member p t hmem).1.symm, ← h.group p]
      simp only [Scheduler.removeThread]
      split
      · rw [Function.update_of_ne hp]
      · rfl
  member p u hu := by
    rw [h.removeThread_table] at hu
    exact h.member p u (List.mem_of_mem_erase hu)
  nodup p := by
    rw [h.removeThread_table]
    exact (h.nodup p).erase t

theorem WellFormed.removeThread (h : s.WellFormed) (t : τ) : (s.removeThread t).WellFormed :=
  { h.toQueued.removeThread t with current := h.current, yield := h.yield }

theorem Queued.not_mem_removeThread (h : s.Queued) (t : τ) (p : Nat) :
    t ∉ (s.removeThread t).priorityTable p := by
  rw [h.removeThread_table]
  exact fun hmem => ((h.nodup p).mem_erase_iff.mp hmem).1 rfl

/-- Removing a thread that is in no ready queue does nothing. -/
theorem Queued.removeThread_eq (h : s.Queued) (hout : ∀ p, t ∉ s.priorityTable p) :
    s.removeThread t = s := by
  have htable : (s.removeThread t).priorityTable = s.priorityTable := by
    funext p
    rw [h.removeThread_table, List.erase_of_not_mem (hout p)]
  have hgroup : (s.removeThread t).readyPriorityGroup = s.readyPriorityGroup := by
    funext p
    rw [Bool.eq_iff_iff, (h.removeThread t).group, h.group, htable]
  calc s.removeThread t
      = { s with
          priorityTable := (s.removeThread t).priorityTable
          readyPriorityGroup := (s.removeThread t).readyPriorityGroup } := rfl
    _ = s := by rw [htable, hgroup]

theorem insertThread_eq (hcurrent : s.currentThread ≠ some t) :
    s.insertThread t = { s with
      priorityTable := s.inserted t
      readyPriorityGroup := Function.update s.readyPriorityGroup (s.currentPriority t) true
      stat := Function.update s.stat t { s.stat t with state := .ready } } := by
  have htable : Function.update s.priorityTable (s.currentPriority t)
      (if (s.stat t).yield then s.priorityTable (s.currentPriority t) ++ [t]
        else t :: s.priorityTable (s.currentPriority t)) = s.inserted t := by
    funext p
    by_cases hp : p = s.currentPriority t
    · subst hp
      rw [Function.update_self, inserted, if_pos rfl]
    · rw [Function.update_of_ne hp, inserted, if_neg hp]
  rw [insertThread, if_neg hcurrent, ← htable]
  simp only [Scheduler.setState, Function.update_self]

theorem Queued.insertThread (h : s.Queued) (hcurrent : s.currentThread ≠ some t)
    (hout : ∀ p, t ∉ s.priorityTable p) : (s.insertThread t).Queued := by
  rw [insertThread_eq hcurrent]
  constructor
  · intro p
    by_cases hp : p = s.currentPriority t
    · subst hp
      simp only [Function.update_self, inserted, if_true]
      split <;> simp
    · simp only [Function.update_of_ne hp, inserted, if_neg hp]
      exact h.group p
  · intro p u hu
    rcases (mem_inserted_iff p).mp hu with ⟨hp, rfl⟩ | hold
    · exact ⟨hp.symm, by simp only [Function.update_self]⟩
    · exact (h.update_stat hout).member p u hold
  · intro p
    simp only [inserted]
    split
    · split
      · exact (h.nodup p).append (List.nodup_singleton t)
          (List.disjoint_singleton.mpr (hout p))
      · exact List.nodup_cons.mpr ⟨hout p, h.nodup p⟩
    · exact h.nodup p

theorem WellFormed.insertThread (h : s.WellFormed) (hout : ∀ p, t ∉ s.priorityTable p) :
    (s.insertThread t).WellFormed := by
  by_cases hcurrent : s.currentThread = some t
  · rw [Scheduler.insertThread, if_pos hcurrent]
    exact h.setState hout (by simp)
  · have hstat := h.update_stat (x := { s.stat t with state := .ready }) hout
      (fun _ => hcurrent) (h.yield t)
    have hqueued := h.toQueued.insertThread hcurrent hout
    rw [insertThread_eq hcurrent] at hqueued ⊢
    exact { hqueued with current := hstat.current, yield := hstat.yield }

/-! ## The switch -/

/-- The queue with priority `p` when the current thread gives way to `dest`. -/
def switched (s : Scheduler τ) (curr dest : τ) (p : Nat) : List τ :=
  (if s.Running curr then s.inserted curr p else s.priorityTable p).erase dest

/-- What a switch leaves. -/
structure SwitchedTo (s : Scheduler τ) (curr dest : τ) (next : Scheduler τ) : Prop where
  wellFormed : next.WellFormed
  current : next.currentThread = some dest
  priority : next.currentPriority = s.currentPriority
  table : next.priorityTable = s.switched curr dest
  notYield : ∀ t, (next.stat t).yield = false

theorem Queued.clearYield (h : s.Queued) (t : τ) : (s.clearYield t).Queued where
  group := h.group
  member p u hu := by
    refine ⟨(h.member p u hu).1, ?_⟩
    by_cases hut : u = t
    · subst hut
      simp only [Scheduler.clearYield, Function.update_self]
      exact (h.member p u hu).2
    · simp only [Scheduler.clearYield, Function.update_of_ne hut]
      exact (h.member p u hu).2
  nodup := h.nodup

theorem WellFormed.switchTo {curr dest : τ} {p : Nat} (h : s.WellFormed)
    (hcurr : s.currentThread = some curr) (hdest : dest ∈ s.priorityTable p) :
    s.SwitchedTo curr dest (s.switchTo curr dest (s.Running curr)) := by
  have hout := h.not_mem_current hcurr
  have hne : dest ≠ curr := fun heq => hout p (heq ▸ hdest)
  let given : Scheduler τ := { s with currentThread := some dest }
  have hgiven : given.Queued := h.toQueued.setCurrent (some dest)
  have hother : given.currentThread ≠ some curr := fun heq => hne (Option.some.inj heq)
  let kept : Scheduler τ := if s.Running curr then given.insertThread curr else given
  have hkept : kept.Queued := by
    by_cases hrunning : s.Running curr
    · simp only [kept, if_pos hrunning]
      exact hgiven.insertThread hother hout
    · simp only [kept, if_neg hrunning]
      exact hgiven
  have hfields : kept.priorityTable =
        (fun p => if s.Running curr then s.inserted curr p else s.priorityTable p) ∧
      kept.currentThread = some dest ∧ kept.currentPriority = s.currentPriority ∧
      ∀ t, (kept.stat t).yield = (s.stat t).yield := by
    by_cases hrunning : s.Running curr
    · simp only [kept, if_pos hrunning, insertThread_eq hother]
      refine ⟨rfl, rfl, rfl, fun t => ?_⟩
      by_cases ht : t = curr
      · rw [ht, Function.update_self]
      · rw [Function.update_of_ne ht]
    · simp only [kept, if_neg hrunning]
      exact ⟨rfl, rfl, rfl, fun _ => rfl⟩
  obtain ⟨htable, hthread, hpriority, hyield⟩ := hfields
  have hcleared : (kept.clearYield curr).Queued := hkept.clearYield curr
  have hnext : s.switchTo curr dest (s.Running curr) =
      ((kept.clearYield curr).removeThread dest).setState dest .running := by
    simp only [Scheduler.switchTo, decide_eq_true_eq, kept, given]
  have hnone : ∀ t, ((s.switchTo curr dest (s.Running curr)).stat t).yield = false := by
    intro t
    rw [hnext]
    have hold : t ≠ curr → (s.stat t).yield = false := fun ht => by
      by_contra hset
      have hcurrent := h.yield t ((Bool.not_eq_false _).mp hset)
      exact ht (Option.some.inj (hcurrent.symm.trans hcurr))
    by_cases htd : t = dest
    · subst htd
      simp only [Scheduler.setState, Scheduler.removeThread, Scheduler.clearYield,
        Function.update_self, Function.update_of_ne hne, hyield, hold hne]
    · by_cases htc : t = curr
      · simp only [Scheduler.setState, Scheduler.removeThread, Scheduler.clearYield, htc,
          Function.update_of_ne hne.symm, Function.update_self]
      · simp only [Scheduler.setState, Scheduler.removeThread, Scheduler.clearYield,
          Function.update_of_ne htd, Function.update_of_ne htc, hyield, hold htc]
  have hqueued : (s.switchTo curr dest (s.Running curr)).Queued := by
    rw [hnext]
    exact (hcleared.removeThread dest).update_stat (hcleared.not_mem_removeThread dest)
  have hcurrent : (s.switchTo curr dest (s.Running curr)).currentThread = some dest := by
    rw [hnext]
    exact hthread
  constructor
  · refine { hqueued with current := fun t ht => ?_, yield := fun t ht => ?_ }
    · obtain rfl : dest = t := Option.some.inj (hcurrent.symm.trans ht)
      rw [hnext]
      simp [Scheduler.setState]
    · rw [hnone t] at ht
      cases ht
  · exact hcurrent
  · rw [hnext]
    exact hpriority
  · funext q
    rw [hnext, switched]
    have herase := hcleared.removeThread_table dest q
    rw [show (kept.clearYield curr).priorityTable = kept.priorityTable from rfl, htable] at herase
    exact herase
  · exact hnone

/-- What `rt_schedule` comes to: nothing before the start, a note while the scheduler is locked,
nothing if the current thread stays, or a switch to the first thread of the highest ready
priority. -/
theorem WellFormed.schedule_eq (h : s.WellFormed) :
    (s.currentThread = none ∧ s.schedule = s) ∨
      (s.lockNest ≠ 0 ∧ s.schedule = { s with criticalSwitch := true }) ∨
      (∃ curr, s.lockNest = 0 ∧ s.currentThread = some curr ∧ s.schedule = s ∧
        ∀ p, s.highestReadyPriority = some p → s.currentPriority curr ≤ p) ∨
      ∃ curr dest rest p, s.lockNest = 0 ∧ s.currentThread = some curr ∧
        s.highestReadyPriority = some p ∧ s.priorityTable p = dest :: rest ∧
        (s.Running curr → p < s.currentPriority curr ∨
          p = s.currentPriority curr ∧ (s.stat curr).yield = true) ∧
        s.schedule = s.switchTo curr dest (s.Running curr) := by
  cases hcurr : s.currentThread with
  | none =>
    refine .inl ⟨rfl, ?_⟩
    rw [schedule, hcurr]
  | some curr =>
    have hout := h.not_mem_current hcurr
    by_cases hlock : s.lockNest = 0
    · cases hhighest : s.highestReadyPriority with
      | none =>
        refine .inr (.inr (.inl ⟨curr, hlock, rfl, ?_, nofun⟩))
        simp only [schedule, hcurr, if_pos hlock, hhighest]
      | some p =>
        have hbit : s.readyPriorityGroup p = true := (List.find?_range_eq_some.mp hhighest).1
        obtain ⟨dest, rest, htable⟩ := List.exists_cons_of_ne_nil ((h.group p).mp hbit)
        have hdest : dest ∈ s.priorityTable p := htable ▸ List.mem_cons_self
        have hne : dest ≠ curr := fun heq => hout p (heq ▸ hdest)
        by_cases hstays : s.Running curr ∧ (s.currentPriority curr < p ∨
            s.currentPriority curr = p ∧ ¬ (s.stat curr).yield = true)
        · refine .inr (.inr (.inl ⟨curr, hlock, rfl, ?_, ?_⟩))
          · have hsame : (s.removeThread curr).setState curr .running = s := by
              rw [h.removeThread_eq hout, Scheduler.setState]
              have hstat : { s.stat curr with state := .running } = s.stat curr := by
                rw [← show (s.stat curr).state = .running from hstays.1]
              rw [hstat, Function.update_eq_self]
            simp only [schedule, hcurr, if_pos hlock, hhighest, htable, decide_eq_true_eq,
              if_pos hstays, ne_eq, not_true_eq_false, if_false]
            exact hsame
          · intro q hq
            obtain rfl := Option.some.inj hq
            rcases hstays.2 with hlt | ⟨heq, -⟩
            · exact Nat.le_of_lt hlt
            · exact Nat.le_of_eq heq
        · refine .inr (.inr (.inr ⟨curr, dest, rest, p, hlock, rfl, rfl, htable,
            fun hrunning => ?_, ?_⟩))
          · rcases Nat.lt_trichotomy p (s.currentPriority curr) with hlt | heq | hgt
            · exact .inl hlt
            · refine .inr ⟨heq, ?_⟩
              by_contra hyield
              exact hstays ⟨hrunning, .inr ⟨heq.symm, hyield⟩⟩
            · exact absurd ⟨hrunning, .inl hgt⟩ hstays
          · simp only [schedule, hcurr, if_pos hlock, hhighest, htable, decide_eq_true_eq,
              if_neg hstays, ne_eq, if_pos hne]
    · refine .inr (.inl ⟨hlock, ?_⟩)
      simp only [schedule, hcurr, if_neg hlock]

/-- `rt_schedule` leaves the threads as they are, or gives the processor to the first thread
of the highest ready priority: one with a higher priority than the current thread, or with the
same if that has used up its slice. -/
theorem WellFormed.schedule_cases (h : s.WellFormed) :
    (∃ flag, s.schedule = { s with criticalSwitch := flag }) ∨
      ∃ curr dest rest p, s.currentThread = some curr ∧ s.priorityTable p = dest :: rest ∧
        (s.Running curr → p < s.currentPriority curr ∨
          p = s.currentPriority curr ∧ (s.stat curr).yield = true) ∧
        s.SwitchedTo curr dest s.schedule := by
  rcases h.schedule_eq with ⟨-, heq⟩ | ⟨-, heq⟩ | ⟨curr, -, -, heq, -⟩ |
    ⟨curr, dest, rest, p, -, hcurr, -, htable, hwhy, heq⟩
  · exact .inl ⟨s.criticalSwitch, heq⟩
  · exact .inl ⟨true, heq⟩
  · exact .inl ⟨s.criticalSwitch, heq⟩
  · have hdest : dest ∈ s.priorityTable p := htable ▸ List.mem_cons_self
    exact .inr ⟨curr, dest, rest, p, hcurr, htable, hwhy, heq ▸ h.switchTo hcurr hdest⟩

/-- The start gives the processor to the first thread of the highest ready priority. -/
theorem WellFormed.systemSchedulerStart {next : Scheduler τ} (h : s.WellFormed)
    (hnext : s.systemSchedulerStart = some next) :
    s.currentThread = none ∧ next.WellFormed ∧ (∀ t, (next.stat t).yield = false) ∧
      ∃ dest, next.currentThread = some dest ∧
        ∀ p, next.priorityTable p = (s.priorityTable p).erase dest := by
  unfold Scheduler.systemSchedulerStart at hnext
  split at hnext
  · rename_i dest rest hnone _
    obtain rfl := Option.some.inj hnext
    have hold : ∀ t, (s.stat t).yield = false := fun t => by
      by_contra hset
      have hcurrent := h.yield t ((Bool.not_eq_false _).mp hset)
      rw [hnone] at hcurrent
      cases hcurrent
    let given : Scheduler τ := { s with currentThread := some dest, criticalSwitch := false }
    have hgiven : given.Queued := ⟨h.group, h.member, h.nodup⟩
    have hqueued := (hgiven.removeThread dest).update_stat
      (x := { state := .running }) (hgiven.not_mem_removeThread dest)
    have hyield : ∀ t, (((given.removeThread dest).resetStat dest .running).stat t).yield =
        false := fun t => by
      by_cases ht : t = dest
      · simp [Scheduler.resetStat, ht]
      · simp only [Scheduler.resetStat, Function.update_of_ne ht]
        exact hold t
    refine ⟨hnone, { hqueued with current := fun t ht => ?_, yield := fun t ht => ?_ }, hyield,
      dest, rfl, hgiven.removeThread_table dest⟩
    · obtain rfl : dest = t := Option.some.inj ht
      simp [Scheduler.resetStat]
    · have hclear := hyield t
      rw [show (((given.removeThread dest).resetStat dest .running).stat t).yield = true from ht]
        at hclear
      cases hclear
  · cases hnext

/-- A ready thread that gets a priority goes to the front of the queue of that priority. -/
theorem WellFormed.updatePriority_ready {p : Nat} (h : s.WellFormed)
    (hready : (s.stat t).state = .ready) :
    (s.updatePriority t p).WellFormed ∧
      (s.updatePriority t p).currentThread = s.currentThread ∧
      (s.updatePriority t p).currentPriority = Function.update s.currentPriority t p ∧
      (∀ u, ((s.updatePriority t p).stat u).yield = true → (s.stat u).yield = true) ∧
      ∀ q, (s.updatePriority t p).priorityTable q =
        if q = p then t :: (s.priorityTable q).erase t else (s.priorityTable q).erase t := by
  have hcurrent : s.currentThread ≠ some t := fun heq => h.current t heq hready
  have hout := h.not_mem_removeThread t
  let moved : Scheduler τ := { s.removeThread t with
    currentPriority := Function.update s.currentPriority t p }
  have hmoved : moved.WellFormed := by
    refine ⟨⟨(h.removeThread t).group, fun q u hu => ?_, (h.removeThread t).nodup⟩, h.current,
      h.yield⟩
    have hmem : u ∈ (s.removeThread t).priorityTable q := hu
    have hne : u ≠ t := fun heq => hout q (heq ▸ hmem)
    simp only [moved, Function.update_of_ne hne]
    exact (h.removeThread t).member q u hmem
  have hreset : (moved.resetStat t .init).WellFormed := hmoved.resetStat hout (by simp)
  have hnext : s.updatePriority t p = (moved.resetStat t .init).insertThread t := by
    rw [Scheduler.updatePriority, if_pos hready]
    rfl
  have hwf := hreset.insertThread hout
  have hother : (moved.resetStat t .init).currentThread ≠ some t := hcurrent
  rw [hnext]
  rw [insertThread_eq hother] at hwf ⊢
  refine ⟨hwf, rfl, rfl, fun u hu => ?_, fun q => ?_⟩
  · by_cases hut : u = t
    · subst hut
      simp [Scheduler.resetStat] at hu
    · simp only [Scheduler.resetStat, Function.update_of_ne hut] at hu
      exact hu
  · have herase : (moved.resetStat t .init).priorityTable q = (s.priorityTable q).erase t :=
      h.removeThread_table t q
    show (moved.resetStat t .init).inserted t q = _
    rw [inserted, herase]
    simp [moved, Scheduler.resetStat]

end Scheduler

end Gd32Vw553h.Kernel
