/-
  Ipc/Mutex.lean --- mutexes and who owns them (`src/ipc.c`, `src/thread.c`).

  `rt_mutex_take` and `rt_mutex_release` as their sections under the mutex's spin lock.
  The lock keeps other threads out, and what changes wait lists and priorities inside runs
  with interrupts disabled (`rt_sched_lock`), so that a section is one step and timers run
  out between sections.  The timers of threads are checked in the tick interrupt, which no
  thread sees half done: a timer that runs out and `_thread_timeout` are one step.

  A release hands the mutex to the first waiter, which finds out when it runs again.
  `Owned` says how owner, hold count, taken lists and wait lists fit together, and
  `MutexEffect` what a step can do when they do.

  Besides the mutexes, threads block in the lists `κ` of other objects.  The loop of
  `_thread_update_priority` follows at most `depth` owners; a loop that ends is a step
  for every `depth` that is large enough.  `RT_ASSERT` is empty in this configuration.
-/
import Gd32Vw553h.Foundation.Runs
import Gd32Vw553h.Ipc.SuspList

set_option autoImplicit false

namespace Gd32Vw553h.Ipc

open Gd32Vw553h.Foundation Gd32Vw553h.Klibc

/-! ## The state -/

/-- `RT_MUTEX_HOLD_MAX` -/
abbrev rtMutexHoldMax : Nat := 255

/-- `RT_THREAD_PRIORITY_MAX` -/
abbrev rtThreadPriorityMax : Nat := 32

/-- The priority of a mutex for which nobody waits, and the ceiling of one without. -/
abbrev noPriority : Nat := 0xff

/-- What a thread can wait for. -/
inductive WaitList (μ κ : Type*) where
  | mutex (m : μ)
  | other (k : κ)
  deriving DecidableEq

/-- Where a thread stands. -/
inductive MutexCall (μ κ : Type*) where
  /-- in `_rt_mutex_take`, suspended or resumed -/
  | taking (m : μ)
  /-- `_rt_mutex_take` has failed; `pending_object` is still to be cleared -/
  | leaving
  /-- in a call that blocks on another object -/
  | blocked (k : κ)
  /-- the thread has ended -/
  | closed
  deriving DecidableEq

/-- What calls have come to. -/
inductive MutexEvent (τ μ : Type*) where
  /-- `rt_mutex_take` has returned `RT_EOK` -/
  | taken (thread : τ) (m : μ)
  | takeFailed (thread : τ) (m : μ) (error : Int)
  /-- `rt_mutex_release` has returned `RT_EOK` -/
  | released (thread : τ) (m : μ)
  | releaseFailed (thread : τ) (m : μ)
  deriving DecidableEq

/-- The threads and the mutexes. -/
structure MutexState (τ μ κ : Type*) extends SuspState τ (WaitList μ κ) where
  initPriority : τ → Nat
  pendingObject : τ → Option μ
  takenObjectList : τ → List μ
  owner : μ → Option τ
  hold : μ → Nat
  priority : μ → Nat
  ceilingPriority : μ → Nat
  call : τ → Option (MutexCall μ κ)
  history : List (MutexEvent τ μ)
  /-- how often a thread has been put into a wait list -/
  arrivals : Nat
  /-- the number of the last time for a thread -/
  arrival : τ → Nat

/-- What the first section of `_rt_mutex_take` comes to. -/
inductive TakeResult where
  | done (error : Int)
  | suspended
  deriving DecidableEq

namespace MutexState

variable {τ μ κ : Type*}

/-- The priority of the first waiter. -/
def headPriority (s : MutexState τ μ κ) (m : μ) : Nat :=
  match s.suspendThread (.mutex m) with
  | [] => noPriority
  | thread :: _ => s.currentPriority thread

/-- `_thread_get_mutex_priority` -/
def threadGetMutexPriority (s : MutexState τ μ κ) (thread : τ) : Nat :=
  (s.takenObjectList thread).foldl (fun priority m =>
    let mutexPrio :=
      if s.priority m < s.ceilingPriority m then s.priority m else s.ceilingPriority m
    if priority > mutexPrio then mutexPrio else priority) (s.initPriority thread)

section Steps

variable [DecidableEq τ] [DecidableEq μ] [DecidableEq κ]

/-! ## Priorities -/

/-- `_mutex_update_priority` -/
def mutexUpdatePriority (s : MutexState τ μ κ) (m : μ) : MutexState τ μ κ :=
  { s with priority := Function.update s.priority m (s.headPriority m) }

/-- `rt_sched_thread_change_priority` -/
def changePriority (s : MutexState τ μ κ) (thread : τ) (priority : Nat) : MutexState τ μ κ :=
  { s with currentPriority := Function.update s.currentPriority thread priority }

/-- The thread has been put into a wait list. -/
def noteArrival (s : MutexState τ μ κ) (thread : τ) : MutexState τ μ κ :=
  { s with
    arrivals := s.arrivals + 1
    arrival := Function.update s.arrival thread s.arrivals }

/-- The waiter is put into the wait list of the mutex again. -/
def requeue (s : MutexState τ μ κ) (thread : τ) (m : μ) : MutexState τ μ κ :=
  let lists := (s.removeNode thread).suspendThread
  noteArrival { s with
    suspendThread := Function.update lists (.mutex m)
      (rtSuspListEnqueue s.currentPriority .prio thread (lists (.mutex m))) } thread

/-- `_thread_update_priority`, along at most `depth` owners. -/
def threadUpdatePriority : Nat → MutexState τ μ κ → τ → Nat → Option (MutexState τ μ κ)
  | 0, _, _, _ => none
  | depth + 1, s, thread, priority =>
    let s := s.changePriority thread priority
    if s.suspended thread then
      match s.pendingObject thread with
      | none => some s
      | some m =>
        let s := (s.requeue thread m).mutexUpdatePriority m
        match s.owner m with
        | none => none
        | some owner =>
          if s.threadGetMutexPriority owner = s.currentPriority owner then some s
          else threadUpdatePriority depth s owner (s.threadGetMutexPriority owner)
    else some s

/-- The owner is given the priority that its mutexes ask for, if it has another one. -/
def updateOwner (depth : Nat) (s : MutexState τ μ κ) (owner : τ) : Option (MutexState τ μ κ) :=
  if s.threadGetMutexPriority owner = s.currentPriority owner then some s
  else threadUpdatePriority depth s owner (s.threadGetMutexPriority owner)

/-- A waiter has left the wait list: the end of `_rt_mutex_take` when it fails, and of
`rt_mutex_drop_thread`.  The owner is looked at only if it has the waiter's priority. -/
def waiterLeft (depth : Nat) (s : MutexState τ μ κ) (thread : τ) (m : μ) :
    Option (MutexState τ μ κ) :=
  match s.owner m with
  | none => some (s.mutexUpdatePriority m)
  | some owner =>
    if s.currentPriority owner = s.currentPriority thread then
      updateOwner depth (s.mutexUpdatePriority m) owner
    else some (s.mutexUpdatePriority m)

/-! ## The calls -/

/-- The thread stands at `point`. -/
def setCall (s : MutexState τ μ κ) (thread : τ) (point : Option (MutexCall μ κ)) :
    MutexState τ μ κ :=
  { s with call := Function.update s.call thread point }

/-- `_rt_mutex_take` of a mutex without owner. -/
def takeFree (depth : Nat) (s : MutexState τ μ κ) (thread : τ) (m : μ) :
    Option (MutexState τ μ κ) :=
  let s := { s with
    owner := Function.update s.owner m (some thread)
    priority := Function.update s.priority m noPriority
    hold := Function.update s.hold m 1 }
  let raised :=
    if s.ceilingPriority m ≠ noPriority ∧ s.ceilingPriority m < s.currentPriority thread then
      threadUpdatePriority depth s thread (s.ceilingPriority m)
    else some s
  raised.map fun s => { s with
    takenObjectList := Function.update s.takenObjectList thread (m :: s.takenObjectList thread) }

/-- `_rt_mutex_take` suspends the thread on the mutex. -/
def suspendOn (s : MutexState τ μ κ) (thread : τ) (m : μ) : MutexState τ μ κ :=
  noteArrival (setCall { s with
    toSuspState := s.rtThreadSuspendToList thread (.mutex m) .prio
    pendingObject := Function.update s.pendingObject thread (some m) }
    thread (some (.taking m))) thread

/-- The new waiter lends its priority to the mutex and to the owner. -/
def lend (depth : Nat) (s : MutexState τ μ κ) (thread : τ) (m : μ) (owner : τ) :
    Option (MutexState τ μ κ) :=
  let priority := s.currentPriority thread
  if priority < s.priority m then
    let s := { s with priority := Function.update s.priority m priority }
    if priority < s.currentPriority owner then threadUpdatePriority depth s owner priority
    else some s
  else some s

/-- `_rt_mutex_take` up to the end of the first section. -/
def rtMutexTake (depth : Nat) (s : MutexState τ μ κ) (thread : τ) (m : μ) (timeout : Int) :
    Option (TakeResult × MutexState τ μ κ) :=
  let s := { s with error := Function.update s.error thread 0 }
  match s.owner m with
  | none => (s.takeFree depth thread m).map fun s => (.done 0, s)
  | some owner =>
    if owner = thread then
      if s.hold m < rtMutexHoldMax then
        some (.done 0, { s with hold := Function.update s.hold m (s.hold m + 1) })
      else some (.done (-rtEFull), s)
    else if timeout = 0 then
      some (.done (-rtETimeout), { s with error := Function.update s.error thread rtETimeout })
    else
      ((s.suspendOn thread m).lend depth thread m owner).map fun s =>
        (.suspended, { s with toSuspState := s.startTimer thread timeout })

/-- The second section, after `rt_schedule`: `RT_EOK` if the mutex has been handed over. -/
def rtMutexTakeResumed (depth : Nat) (s : MutexState τ μ κ) (thread : τ) (m : μ) :
    Option (Int × MutexState τ μ κ) :=
  if s.owner m = some thread then some (0, s.setCall thread none)
  else
    let ret := if s.error thread = 0 then -rtEIntr else s.error thread
    ((s.setCall thread (some .leaving)).waiterLeft depth thread m).map fun s =>
      (if ret > 0 then -ret else ret, s)

/-- `_check_and_update_prio` -/
def checkAndUpdatePrio (s : MutexState τ μ κ) (thread : τ) (m : μ) : MutexState τ μ κ :=
  if s.ceilingPriority m ≠ noPriority ∨ s.currentPriority thread = s.priority m then
    s.changePriority thread (s.threadGetMutexPriority thread)
  else s

/-- The loop of `rt_mutex_release` over the waiters: the first that can be made ready. -/
def resumeWaiter : List τ → MutexState τ μ κ → Option τ × MutexState τ μ κ
  | [], s => (none, s)
  | next :: rest, s =>
    match (s.removeNode next).rtSchedThreadReady next with
    | (true, susp) => (some next, { s with toSuspState := susp })
    | (false, susp) => resumeWaiter rest { s with toSuspState := susp }

/-- `rt_mutex_release` when no hold is left: the mutex goes to a waiter or is free. -/
def handOver (s : MutexState τ μ κ) (m : μ) : MutexState τ μ κ :=
  match resumeWaiter (s.suspendThread (.mutex m)) s with
  | (some next, s) =>
    mutexUpdatePriority { s with
      owner := Function.update s.owner m (some next)
      hold := Function.update s.hold m 1
      takenObjectList := Function.update s.takenObjectList next (m :: s.takenObjectList next)
      pendingObject := Function.update s.pendingObject next none } m
  | (none, s) =>
    { s with
      owner := Function.update s.owner m none
      priority := Function.update s.priority m noPriority }

/-- `rt_mutex_release`, and whether it returns `RT_EOK`. -/
def rtMutexRelease (s : MutexState τ μ κ) (thread : τ) (m : μ) : Bool × MutexState τ μ κ :=
  if s.owner m = some thread then
    let s := { s with hold := Function.update s.hold m (s.hold m - 1) }
    if s.hold m = 0 then
      let s := { s with
        takenObjectList :=
          Function.update s.takenObjectList thread ((s.takenObjectList thread).erase m) }
      (true, (s.checkAndUpdatePrio thread m).handOver m)
    else (true, s)
  else (false, { s with error := Function.update s.error thread (-rtError) })

/-- `rt_mutex_setprioceiling` -/
def rtMutexSetprioceiling (depth : Nat) (s : MutexState τ μ κ) (m : μ) (priority : Nat) :
    Option (MutexState τ μ κ) :=
  if priority < rtThreadPriorityMax then
    let s := { s with ceilingPriority := Function.update s.ceilingPriority m priority }
    match s.owner m with
    | none => some s
    | some owner => s.updateOwner depth owner
  else some s

end Steps

end MutexState

/-! ## All interleavings -/

inductive MutexStep (τ μ κ : Type*) where
  /-- a thread calls `rt_mutex_take`, or `rt_mutex_trytake`, which does not wait -/
  | take (thread : τ) (m : μ) (timeout : Int)
  /-- a thread runs again in `_rt_mutex_take` -/
  | resumed (thread : τ)
  /-- `_rt_mutex_take` clears `pending_object` and returns its error -/
  | leave (thread : τ)
  | release (thread : τ) (m : μ)
  | setprioceiling (m : μ) (priority : Nat)
  /-- the timer of a thread runs out -/
  | expire (thread : τ)
  /-- a thread suspends itself in the list of another object -/
  | block (thread : τ) (k : κ) (timeout : Int)
  /-- that call returns -/
  | unblock (thread : τ)
  /-- `rt_susp_list_dequeue` on the list of another object -/
  | dequeue (k : κ) (threadError : Int)
  /-- a waiter in the list of another object is made ready -/
  | ready (thread : τ)
  deriving DecidableEq

section Machine

variable {τ μ κ : Type*} [DecidableEq τ] [DecidableEq μ] [DecidableEq κ]

/-- The thread runs outside these calls. -/
def MutexState.Running (s : MutexState τ μ κ) (thread : τ) : Prop :=
  s.call thread = none ∧ s.suspended thread = false

instance (s : MutexState τ μ κ) (thread : τ) : Decidable (s.Running thread) :=
  inferInstanceAs (Decidable (_ ∧ _))

/-- A call has come to this. -/
def MutexState.record (s : MutexState τ μ κ) (event : MutexEvent τ μ) : MutexState τ μ κ :=
  { s with history := s.history ++ [event] }

/-- `rt_mutex_take` has returned this value. -/
def takeEvent (thread : τ) (m : μ) (error : Int) : MutexEvent τ μ :=
  if error = 0 then .taken thread m else .takeFailed thread m error

/-- All interleavings of threads, on any mutexes, with owners followed up to `depth`. -/
def mutexMachine (depth : Nat) : Machine (MutexState τ μ κ) (MutexStep τ μ κ) where
  step s
    | .take thread m timeout =>
        if s.Running thread then
          (s.rtMutexTake depth thread m timeout).map fun r =>
            match r.1 with
            | .done error => r.2.record (takeEvent thread m error)
            | .suspended => r.2
        else none
    | .resumed thread =>
        match s.call thread with
        | some (.taking m) =>
          if s.suspended thread then none
          else
            (s.rtMutexTakeResumed depth thread m).map fun r =>
              r.2.record (takeEvent thread m r.1)
        | _ => none
    | .leave thread =>
        if s.call thread = some .leaving then
          some (MutexState.setCall
            { s with pendingObject := Function.update s.pendingObject thread none } thread none)
        else none
    | .release thread m =>
        if s.Running thread then
          let (done, s) := s.rtMutexRelease thread m
          some (s.record (if done then .released thread m else .releaseFailed thread m))
        else none
    | .setprioceiling m priority => s.rtMutexSetprioceiling depth m priority
    | .expire thread =>
        if s.suspended thread = true ∧ s.timerActivated thread = true then
          some { s with toSuspState := s.toSuspState.expire thread }
        else none
    | .block thread k timeout =>
        if s.Running thread then
          some (MutexState.noteArrival (MutexState.setCall
            { s with
              toSuspState :=
                (s.rtThreadSuspendToList thread (.other k) .prio).startTimer thread timeout }
            thread (some (.blocked k))) thread)
        else none
    | .unblock thread =>
        match s.call thread with
        | some (.blocked _) => if s.suspended thread then none else some (s.setCall thread none)
        | _ => none
    | .dequeue k threadError =>
        some { s with toSuspState := (s.rtSuspListDequeue (.other k) threadError).2 }
    | .ready thread =>
        match s.call thread with
        | some (.blocked _) =>
          some { s with toSuspState := (s.rtSchedThreadReady thread).2 }
        | _ => none

/-- Threads with these priorities, free mutexes, and nobody waits. -/
def MutexState.start (priority : τ → Nat) : MutexState τ μ κ where
  suspendThread _ := []
  currentPriority := priority
  suspended _ := false
  error _ := 0
  ttmrSet _ := false
  timerActivated _ := false
  initPriority := priority
  pendingObject _ := none
  takenObjectList _ := []
  owner _ := none
  hold _ := 0
  priority _ := noPriority
  ceilingPriority _ := noPriority
  call _ := none
  history := []
  arrivals := 0
  arrival _ := 0

end Machine

/-! ## Owners, holds and wait lists -/

/-- A mutex without owner is not held, and stands in the taken list of its owner only. -/
structure Holding {τ μ : Type*} (owner : μ → Option τ) (hold : μ → Nat) (taken : τ → List μ) :
    Prop where
  free : ∀ m, owner m = none ↔ hold m = 0
  mem : ∀ t m, m ∈ taken t ↔ owner m = some t
  nodup : ∀ t, (taken t).Nodup

/-- Where the threads of a wait list stand. -/
def WaitList.point {μ κ : Type*} : WaitList μ κ → MutexCall μ κ
  | .mutex m => .taking m
  | .other k => .blocked k

/-- Their pending object. -/
def WaitList.object {μ κ : Type*} : WaitList μ κ → Option μ
  | .mutex m => some m
  | .other _ => none

namespace MutexState

section Invariant

variable {τ μ κ : Type*}

/-- How the fields fit together between the steps. -/
structure Owned (s : MutexState τ μ κ) : Prop where
  sound : s.toSuspState.Sound
  live : s.toSuspState.TimersLive
  holding : Holding s.owner s.hold s.takenObjectList
  waits : ∀ t, s.suspended t = true → ∃ l, t ∈ s.suspendThread l
  place : ∀ l t, t ∈ s.suspendThread l → s.call t = some l.point
  pending : ∀ t m, s.pendingObject t = some m →
    (s.call t = some (.taking m) ∨ s.call t = some .leaving ∨ s.call t = some .closed) ∧
      s.owner m ≠ some t
  taking : ∀ t m, s.call t = some (.taking m) →
    s.pendingObject t = some m ∨ s.owner m = some t
  waiter : ∀ t m, t ∈ s.suspendThread (.mutex m) → s.pendingObject t = some m
  held : ∀ m, s.suspendThread (.mutex m) ≠ [] → s.owner m ≠ none

/-- Priorities have changed, and with them the order of wait lists. -/
def Reprioritised (s s' : MutexState τ μ κ) : Prop :=
  ∃ lists current priority arrivals arrival,
    s' = { s with
      suspendThread := lists
      currentPriority := current
      priority := priority
      arrivals := arrivals
      arrival := arrival } ∧
    ∀ l, (lists l).Perm (s.suspendThread l)

variable {s s' s'' : MutexState τ μ κ} {t u : τ} {m : μ} {depth p : Nat}

theorem Reprioritised.refl (s : MutexState τ μ κ) : s.Reprioritised s :=
  ⟨_, _, _, _, _, rfl, fun _ => .refl _⟩

theorem Reprioritised.trans (h : s.Reprioritised s') (h' : s'.Reprioritised s'') :
    s.Reprioritised s'' := by
  obtain ⟨lists, _, _, _, _, rfl, hperm⟩ := h
  obtain ⟨lists', _, _, _, _, rfl, hperm'⟩ := h'
  exact ⟨lists', _, _, _, _, rfl, fun l => (hperm' l).trans (hperm l)⟩

theorem Owned.reprioritised (h : s.Owned) (hr : s.Reprioritised s') : s'.Owned := by
  obtain ⟨lists, _, _, _, _, rfl, hperm⟩ := hr
  have hmem : ∀ {l t}, t ∈ lists l → t ∈ s.suspendThread l := fun {l t} => (hperm l).mem_iff.mp
  refine ⟨⟨fun l => (hperm l).nodup_iff.mpr (h.sound.nodup l), fun l l' t ht ht' => ?_,
      fun l t ht => h.sound.suspended l t (hmem ht)⟩, h.live, h.holding,
    fun t ht => ?_, fun l t ht => h.place l t (hmem ht), h.pending, h.taking,
    fun t m ht => h.waiter t m (hmem ht), fun m hne => h.held m fun hnil => hne ?_⟩
  · exact h.sound.single l l' t (hmem ht) (hmem ht')
  · obtain ⟨l, hl⟩ := h.waits t ht
    exact ⟨l, (hperm l).mem_iff.mpr hl⟩
  · have hlist := hperm (.mutex m)
    rw [hnil] at hlist
    exact hlist.eq_nil

/-- A suspended thread with a pending mutex stands in its wait list. -/
theorem Owned.pending_mem (h : s.Owned) (hsusp : s.suspended t = true)
    (hpending : s.pendingObject t = some m) : t ∈ s.suspendThread (.mutex m) := by
  obtain ⟨l, hl⟩ := h.waits t hsusp
  have hpoint := h.place l t hl
  cases l with
  | mutex m' =>
    obtain rfl := Option.some.inj ((h.waiter t m' hl).symm.trans hpending)
    exact hl
  | other k =>
    rcases (h.pending t m hpending).1 with hcall | hcall | hcall
    · cases hpoint.symm.trans hcall
    · cases hpoint.symm.trans hcall
    · cases hpoint.symm.trans hcall

/-- The owner of a mutex does not wait for it. -/
theorem Owned.not_owner (h : s.Owned) (ht : t ∈ s.suspendThread (.mutex m)) :
    s.owner m ≠ some t := (h.pending t m (h.waiter t m ht)).2

/-- A running thread has no pending mutex and waits nowhere. -/
theorem Owned.running (h : s.Owned) (hrun : s.Running t) :
    s.pendingObject t = none ∧ ∀ l, t ∉ s.suspendThread l := by
  refine ⟨Option.eq_none_iff_forall_ne_some.mpr fun m hm => ?_, fun l hl => ?_⟩
  · rcases (h.pending t m hm).1 with hcall | hcall | hcall
    · cases hrun.1.symm.trans hcall
    · cases hrun.1.symm.trans hcall
    · cases hrun.1.symm.trans hcall
  · exact Bool.false_ne_true (hrun.2.symm.trans (h.sound.suspended l t hl))

@[simp]
theorem changePriority_self [DecidableEq τ] (s : MutexState τ μ κ) (t : τ) (p : Nat) :
    (s.changePriority t p).currentPriority t = p := Function.update_self _ _ _

theorem changePriority_of_ne [DecidableEq τ] (h : u ≠ t) (p : Nat) :
    (s.changePriority t p).currentPriority u = s.currentPriority u :=
  Function.update_of_ne h _ _

theorem changePriority_reprioritised [DecidableEq τ] (s : MutexState τ μ κ) (t : τ)
    (p : Nat) :
    s.Reprioritised (s.changePriority t p) :=
  ⟨_, _, _, _, _, rfl, fun _ => .refl _⟩

@[simp]
theorem mutexUpdatePriority_self [DecidableEq μ] (s : MutexState τ μ κ) (m : μ) :
    (s.mutexUpdatePriority m).priority m = s.headPriority m := Function.update_self _ _ _

theorem mutexUpdatePriority_of_ne [DecidableEq μ] {m' : μ} (h : m' ≠ m) :
    (s.mutexUpdatePriority m).priority m' = s.priority m' := Function.update_of_ne h _ _

theorem mutexUpdatePriority_reprioritised [DecidableEq μ] (s : MutexState τ μ κ) (m : μ) :
    s.Reprioritised (s.mutexUpdatePriority m) :=
  ⟨_, _, _, _, _, rfl, fun _ => .refl _⟩

end Invariant

section Reprioritise

variable {τ μ κ : Type*} [DecidableEq τ] [DecidableEq μ] [DecidableEq κ]
  {s s' : MutexState τ μ κ} {t u : τ} {m : μ} {depth p : Nat}

/-- What the loop of `_thread_update_priority` does: it stops at a thread that waits for no
mutex, or goes on to the owner of the mutex. -/
theorem threadUpdatePriority_cases (h : threadUpdatePriority depth s t p = some s') :
    ((s.suspended t = false ∨ s.pendingObject t = none) ∧ s' = s.changePriority t p) ∨
    ∃ d m owner, depth = d + 1 ∧ s.suspended t = true ∧ s.pendingObject t = some m ∧
      s.owner m = some owner ∧
      updateOwner d (((s.changePriority t p).requeue t m).mutexUpdatePriority m) owner =
        some s' := by
  cases depth with
  | zero => cases h
  | succ d =>
    rw [threadUpdatePriority] at h
    dsimp only at h
    by_cases hsusp : s.suspended t = true
    · rw [if_pos (show (s.changePriority t p).suspended t = true from hsusp)] at h
      cases hpending : s.pendingObject t with
      | none =>
        rw [show (s.changePriority t p).pendingObject t = none from hpending] at h
        exact .inl ⟨.inr rfl, (Option.some.inj h).symm⟩
      | some m =>
        rw [show (s.changePriority t p).pendingObject t = some m from hpending] at h
        dsimp only at h
        cases howner : s.owner m with
        | none =>
          rw [show (((s.changePriority t p).requeue t m).mutexUpdatePriority m).owner m = none
            from howner] at h
          cases h
        | some owner =>
          rw [show (((s.changePriority t p).requeue t m).mutexUpdatePriority m).owner m =
            some owner from howner] at h
          exact .inr ⟨d, m, owner, rfl, hsusp, rfl, howner, h⟩
    · rw [if_neg (show ¬ (s.changePriority t p).suspended t = true from hsusp)] at h
      exact .inl ⟨.inl (Bool.eq_false_iff.mpr hsusp), (Option.some.inj h).symm⟩

theorem updateOwner_cases {owner : τ} (h : updateOwner depth s owner = some s') :
    (s.threadGetMutexPriority owner = s.currentPriority owner ∧ s' = s) ∨
    threadUpdatePriority depth s owner (s.threadGetMutexPriority owner) = some s' := by
  unfold updateOwner at h
  split at h
  · rename_i hsame
    exact .inl ⟨hsame, (Option.some.inj h).symm⟩
  · exact .inr h

/-- `rt_mutex_setprioceiling` may have to look at the owner. -/
theorem setprioceiling_cases (h : s.rtMutexSetprioceiling depth m p = some s') :
    s' = s ∨ p < rtThreadPriorityMax ∧
      ((s.owner m = none ∧
          s' = { s with ceilingPriority := Function.update s.ceilingPriority m p }) ∨
        ∃ owner, s.owner m = some owner ∧ MutexState.updateOwner depth
          { s with ceilingPriority := Function.update s.ceilingPriority m p } owner =
            some s') := by
  unfold rtMutexSetprioceiling at h
  dsimp only at h
  split at h
  · rename_i hp
    refine .inr ⟨hp, ?_⟩
    cases howner : s.owner m with
    | none =>
      rw [howner] at h
      exact .inl ⟨rfl, (Option.some.inj h).symm⟩
    | some owner =>
      rw [howner] at h
      exact .inr ⟨owner, rfl, h⟩
  · exact .inl (Option.some.inj h).symm

/-- Putting a waiter into its list again only changes its place. -/
theorem Owned.requeue (h : s.Owned) (ht : t ∈ s.suspendThread (.mutex m)) :
    s.Reprioritised (s.requeue t m) := by
  refine ⟨_, _, _, _, _, rfl, fun l => ?_⟩
  by_cases hl : l = .mutex m
  · subst hl
    rw [Function.update_self]
    exact (rtSuspListEnqueue_perm _ _ _ _).trans (List.perm_cons_erase ht).symm
  · rw [Function.update_of_ne hl]
    have hout : t ∉ s.suspendThread l := fun hmem => hl (h.sound.single l _ t hmem ht)
    exact .of_eq (List.erase_of_not_mem hout)

/-- What a new priority of a waiter does to the wait lists. -/
structure Requeued (s s' : MutexState τ μ κ) (t : τ) (m : μ) (p : Nat) : Prop where
  reprioritised : s.Reprioritised s'
  lists : ∀ l, l ≠ .mutex m → s'.suspendThread l = s.suspendThread l
  list : s'.suspendThread (.mutex m) =
    rtSuspListEnqueue s'.currentPriority .prio t ((s.suspendThread (.mutex m)).erase t)
  current : s'.currentPriority = Function.update s.currentPriority t p
  priority : s'.priority = Function.update s.priority m (s'.headPriority m)
  arrivals : s'.arrivals = s.arrivals + 1
  arrival : s'.arrival = Function.update s.arrival t s.arrivals

theorem Owned.requeued (h : s.Owned) (ht : t ∈ s.suspendThread (.mutex m)) (p : Nat) :
    s.Requeued (((s.changePriority t p).requeue t m).mutexUpdatePriority m) t m p := by
  have hchange := changePriority_reprioritised s t p
  refine ⟨(hchange.trans ((h.reprioritised hchange).requeue ht)).trans
      (mutexUpdatePriority_reprioritised _ m), fun l hl => ?_, Function.update_self _ _ _, rfl,
    rfl, rfl, rfl⟩
  refine (Function.update_of_ne hl _ _).trans (List.erase_of_not_mem fun hmem => hl ?_)
  exact h.sound.single l _ t hmem ht

theorem Owned.threadUpdatePriority (h : s.Owned)
    (hupdate : threadUpdatePriority depth s t p = some s') : s.Reprioritised s' := by
  induction depth generalizing s t p with
  | zero => cases hupdate
  | succ depth ih =>
    rcases threadUpdatePriority_cases hupdate with
      ⟨-, rfl⟩ | ⟨d, m, owner, hd, hsusp, hpending, -, howner⟩
    · exact changePriority_reprioritised s t p
    · obtain rfl := Nat.succ.inj hd
      have hmid := (h.requeued (h.pending_mem hsusp hpending) p).reprioritised
      rcases updateOwner_cases howner with ⟨-, rfl⟩ | hnext
      · exact hmid
      · exact hmid.trans (ih (h.reprioritised hmid) hnext)

theorem Owned.updateOwner (h : s.Owned) {owner : τ}
    (hupdate : s.updateOwner depth owner = some s') : s.Reprioritised s' := by
  rcases updateOwner_cases hupdate with ⟨-, rfl⟩ | hnext
  · exact .refl _
  · exact h.threadUpdatePriority hnext

theorem Owned.waiterLeft (h : s.Owned) (hleft : s.waiterLeft depth t m = some s') :
    s.Reprioritised s' := by
  have hmid := mutexUpdatePriority_reprioritised s m
  unfold MutexState.waiterLeft at hleft
  cases howner : s.owner m with
  | none =>
    rw [howner] at hleft
    obtain rfl := Option.some.inj hleft
    exact hmid
  | some owner =>
    rw [howner] at hleft
    dsimp only at hleft
    split at hleft
    · exact hmid.trans ((h.reprioritised hmid).updateOwner hleft)
    · obtain rfl := Option.some.inj hleft
      exact hmid

theorem Owned.lend (h : s.Owned) {owner : τ} (hlend : s.lend depth t m owner = some s') :
    s.Reprioritised s' := by
  unfold MutexState.lend at hlend
  dsimp only at hlend
  split at hlend
  · have hmid : s.Reprioritised
        { s with priority := Function.update s.priority m (s.currentPriority t) } :=
      ⟨_, _, _, _, _, rfl, fun _ => .refl _⟩
    split at hlend
    · exact hmid.trans ((h.reprioritised hmid).threadUpdatePriority hlend)
    · obtain rfl := Option.some.inj hlend
      exact hmid
  · obtain rfl := Option.some.inj hlend
    exact .refl s

/-! ### What the calls do -/

/-- The priorities when a thread takes a mutex without owner. -/
def raised (s : MutexState τ μ κ) (t : τ) (m : μ) : τ → Nat :=
  if s.ceilingPriority m ≠ noPriority ∧ s.ceilingPriority m < s.currentPriority t then
    Function.update s.currentPriority t (s.ceilingPriority m)
  else s.currentPriority

theorem takeFree_eq (h : s.takeFree depth t m = some s') (hrun : s.suspended t = false) :
    s' = { s with
      owner := Function.update s.owner m (some t)
      priority := Function.update s.priority m noPriority
      hold := Function.update s.hold m 1
      currentPriority := s.raised t m
      takenObjectList := Function.update s.takenObjectList t (m :: s.takenObjectList t) } := by
  obtain ⟨mid, hraised, rfl⟩ := Option.map_eq_some_iff.mp h
  dsimp only at hraised
  unfold raised
  split at hraised
  · rename_i hceiling
    rw [if_pos hceiling]
    rcases threadUpdatePriority_cases hraised with ⟨-, rfl⟩ | ⟨_, _, _, _, hsusp, -⟩
    · rfl
    · exact absurd (hrun.symm.trans hsusp) Bool.false_ne_true
  · rename_i hceiling
    obtain rfl := Option.some.inj hraised
    rw [if_neg hceiling]

omit [DecidableEq κ] in
/-- Nobody can be resumed, or the first waiter is. -/
theorem handOver_nil (hlist : s.suspendThread (.mutex m) = []) :
    s.handOver m = { s with
      owner := Function.update s.owner m none
      priority := Function.update s.priority m noPriority } := by
  simp only [handOver, hlist, resumeWaiter]

omit [DecidableEq κ] in
theorem handOver_cons {next : τ} {rest : List τ} (hs : s.toSuspState.Sound)
    (hlive : s.toSuspState.TimersLive) (hlist : s.suspendThread (.mutex m) = next :: rest) :
    ∃ susp, s.toSuspState.Resumed susp next ∧ susp.error = s.error ∧
      s.handOver m = mutexUpdatePriority { s with
        toSuspState := susp
        owner := Function.update s.owner m (some next)
        hold := Function.update s.hold m 1
        takenObjectList := Function.update s.takenObjectList next (m :: s.takenObjectList next)
        pendingObject := Function.update s.pendingObject next none } m := by
  have hmem : next ∈ s.suspendThread (.mutex m) := by
    rw [hlist]
    exact List.mem_cons_self
  have hlive' : (s.toSuspState.removeNode next).TimersLive := hlive
  obtain ⟨susp, hready, hresumed, herror⟩ := SuspState.rtSchedThreadReady_live hlive'
    (show (s.toSuspState.removeNode next).suspended next = true from hs.suspended _ next hmem)
  refine ⟨susp, ⟨?_, hresumed.suspended, hresumed.priority, hresumed.live⟩, herror, ?_⟩
  · rw [hresumed.lists]
    funext l
    exact List.erase_of_not_mem ((hs.nodup l).not_mem_erase)
  · simp only [handOver, hlist, resumeWaiter, hready]

end Reprioritise

end MutexState

section Effect

variable {τ μ κ : Type*} [DecidableEq τ] [DecidableEq μ] [DecidableEq κ]

/-- What the steps do. -/
inductive MutexEffect (depth : Nat) (s : MutexState τ μ κ) :
    MutexStep τ μ κ → MutexState τ μ κ → Prop where
  | takeFree {t : τ} {m : μ} {timeout : Int} (hrun : s.Running t) (howner : s.owner m = none) :
      MutexEffect depth s (.take t m timeout) (MutexState.record { s with
        error := Function.update s.error t 0
        owner := Function.update s.owner m (some t)
        priority := Function.update s.priority m noPriority
        hold := Function.update s.hold m 1
        currentPriority := s.raised t m
        takenObjectList := Function.update s.takenObjectList t (m :: s.takenObjectList t) }
        (.taken t m))
  | takeAgain {t : τ} {m : μ} {timeout : Int} (hrun : s.Running t)
      (howner : s.owner m = some t) (hhold : s.hold m < rtMutexHoldMax) :
      MutexEffect depth s (.take t m timeout) (MutexState.record { s with
        error := Function.update s.error t 0
        hold := Function.update s.hold m (s.hold m + 1) } (.taken t m))
  | takeFailed {t : τ} {m : μ} {timeout error result : Int} (hrun : s.Running t)
      (hresult : result ≠ 0)
      (hfull : s.owner m = some t → result = -rtEFull ∧ ¬ s.hold m < rtMutexHoldMax) :
      MutexEffect depth s (.take t m timeout) (MutexState.record { s with
        error := Function.update s.error t error } (.takeFailed t m result))
  | wait {t : τ} {m : μ} {timeout : Int} {owner : τ} {lent : MutexState τ μ κ}
      (hrun : s.Running t) (howner : s.owner m = some owner) (hne : owner ≠ t)
      (hlend : (MutexState.suspendOn
        { s with error := Function.update s.error t 0 } t m).lend depth t m owner = some lent) :
      MutexEffect depth s (.take t m timeout)
        { lent with toSuspState := lent.startTimer t timeout }
  | handed {t : τ} {m : μ} (hcall : s.call t = some (.taking m)) (hsusp : s.suspended t = false)
      (howner : s.owner m = some t) :
      MutexEffect depth s (.resumed t) ((s.setCall t none).record (.taken t m))
  | failed {t : τ} {m : μ} {result : Int} {mid : MutexState τ μ κ}
      (hcall : s.call t = some (.taking m)) (hsusp : s.suspended t = false)
      (howner : s.owner m ≠ some t) (hresult : result ≠ 0)
      (hleft : (s.setCall t (some .leaving)).waiterLeft depth t m = some mid) :
      MutexEffect depth s (.resumed t) (mid.record (.takeFailed t m result))
  | leave {t : τ} (hcall : s.call t = some .leaving) :
      MutexEffect depth s (.leave t) (MutexState.setCall
        { s with pendingObject := Function.update s.pendingObject t none } t none)
  | releaseOne {t : τ} {m : μ} (hrun : s.Running t) (howner : s.owner m = some t)
      (hhold : s.hold m - 1 ≠ 0) :
      MutexEffect depth s (.release t m) (MutexState.record
        { s with hold := Function.update s.hold m (s.hold m - 1) } (.released t m))
  | releaseLast {t : τ} {m : μ} (hrun : s.Running t) (howner : s.owner m = some t)
      (hhold : s.hold m - 1 = 0) :
      MutexEffect depth s (.release t m) (((MutexState.checkAndUpdatePrio { s with
        hold := Function.update s.hold m (s.hold m - 1)
        takenObjectList :=
          Function.update s.takenObjectList t ((s.takenObjectList t).erase m) }
        t m).handOver m).record (.released t m))
  | releaseFailed {t : τ} {m : μ} (hrun : s.Running t) (howner : s.owner m ≠ some t) :
      MutexEffect depth s (.release t m) (MutexState.record
        { s with error := Function.update s.error t (-rtError) } (.releaseFailed t m))
  | ceiling {m : μ} {p : Nat} {s' : MutexState τ μ κ}
      (hceiling : s.rtMutexSetprioceiling depth m p = some s') :
      MutexEffect depth s (.setprioceiling m p) s'
  | block {t : τ} {k : κ} {timeout : Int} {susp : SuspState τ (WaitList μ κ)}
      (hrun : s.Running t) (hsusp : s.toSuspState.Suspended susp t (.other k) .prio) :
      MutexEffect depth s (.block t k timeout) (MutexState.noteArrival
        (MutexState.setCall { s with toSuspState := susp } t (some (.blocked k))) t)
  | unblock {t : τ} {k : κ} (hcall : s.call t = some (.blocked k))
      (hsusp : s.suspended t = false) :
      MutexEffect depth s (.unblock t) (s.setCall t none)
  | wake {a : MutexStep τ μ κ} {t : τ} {susp : SuspState τ (WaitList μ κ)}
      (hsusp : s.suspended t = true) (hresumed : s.toSuspState.Resumed susp t) :
      MutexEffect depth s a { s with toSuspState := susp }
  | same {a : MutexStep τ μ κ} : MutexEffect depth s a s

variable {depth : Nat} {s s' : MutexState τ μ κ}

theorem effect_take {t : τ} {m : μ} {timeout : Int}
    (h : (mutexMachine depth).step s (.take t m timeout) = some s') :
    MutexEffect depth s (.take t m timeout) s' := by
  simp only [mutexMachine] at h
  split at h
  case isFalse => cases h
  case isTrue hrun =>
    obtain ⟨⟨result, final⟩, htake, rfl⟩ := Option.map_eq_some_iff.mp h
    simp only [MutexState.rtMutexTake] at htake
    cases howner : s.owner m with
    | none =>
      rw [howner] at htake
      obtain ⟨free, hfree, hresult⟩ := Option.map_eq_some_iff.mp htake
      obtain ⟨rfl, rfl⟩ := Prod.mk.inj hresult
      obtain rfl := MutexState.takeFree_eq hfree hrun.2
      exact .takeFree hrun howner
    | some owner =>
      rw [howner] at htake
      dsimp only at htake
      by_cases hself : owner = t
      · subst hself
        rw [if_pos rfl] at htake
        split at htake
        · rename_i hhold
          obtain ⟨rfl, rfl⟩ := Prod.mk.inj (Option.some.inj htake)
          exact .takeAgain hrun howner hhold
        · rename_i hhold
          obtain ⟨rfl, rfl⟩ := Prod.mk.inj (Option.some.inj htake)
          exact .takeFailed hrun (show -rtEFull ≠ 0 by decide) fun _ => ⟨rfl, hhold⟩
      · rw [if_neg hself] at htake
        split at htake
        · obtain ⟨rfl, rfl⟩ := Prod.mk.inj (Option.some.inj htake)
          dsimp only
          rw [Function.update_idem]
          refine .takeFailed hrun (show -rtETimeout ≠ 0 by decide) fun heq => absurd ?_ hself
          exact Option.some.inj (howner.symm.trans heq)
        · obtain ⟨lent, hlend, hresult⟩ := Option.map_eq_some_iff.mp htake
          obtain ⟨rfl, rfl⟩ := Prod.mk.inj hresult
          exact .wait hrun howner hself hlend

theorem effect_resumed {t : τ} (h : (mutexMachine depth).step s (.resumed t) = some s') :
    MutexEffect depth s (.resumed t) s' := by
  simp only [mutexMachine] at h
  split at h
  case h_2 => cases h
  case h_1 m hcall =>
    split at h
    case isTrue => cases h
    case isFalse hsusp =>
      obtain ⟨⟨result, final⟩, hresumed, rfl⟩ := Option.map_eq_some_iff.mp h
      unfold MutexState.rtMutexTakeResumed at hresumed
      have hrun := Bool.eq_false_iff.mpr hsusp
      split at hresumed
      · rename_i howner
        obtain ⟨rfl, rfl⟩ := Prod.mk.inj (Option.some.inj hresumed)
        exact .handed hcall hrun howner
      · rename_i howner
        obtain ⟨mid, hleft, hresult⟩ := Option.map_eq_some_iff.mp hresumed
        obtain ⟨rfl, rfl⟩ := Prod.mk.inj hresult
        have hne : (if (if s.error t = 0 then -rtEIntr else s.error t) > 0 then
            -(if s.error t = 0 then -rtEIntr else s.error t)
            else if s.error t = 0 then -rtEIntr else s.error t) ≠ 0 := by
          by_cases herror : s.error t = 0
          · rw [if_pos herror]
            decide
          · rw [if_neg herror]
            split
            · exact Int.neg_ne_zero.mpr herror
            · exact herror
        dsimp only
        rw [takeEvent, if_neg hne]
        exact .failed hcall hrun howner hne hleft

/-- The three ways of `rt_mutex_release`. -/
theorem release_cases {t : τ} {m : μ}
    (h : (mutexMachine depth).step s (.release t m) = some s') : s.Running t ∧
    ((s.owner m ≠ some t ∧ s' = MutexState.record
        { s with error := Function.update s.error t (-rtError) } (.releaseFailed t m)) ∨
      (s.owner m = some t ∧ s.hold m - 1 ≠ 0 ∧ s' = MutexState.record
        { s with hold := Function.update s.hold m (s.hold m - 1) } (.released t m)) ∨
      s.owner m = some t ∧ s.hold m - 1 = 0 ∧ s' =
        ((MutexState.checkAndUpdatePrio { s with
          hold := Function.update s.hold m (s.hold m - 1)
          takenObjectList :=
            Function.update s.takenObjectList t ((s.takenObjectList t).erase m) }
          t m).handOver m).record (.released t m)) := by
  simp only [mutexMachine] at h
  split at h
  case isFalse => cases h
  case isTrue hrun =>
    obtain rfl := Option.some.inj h
    refine ⟨hrun, ?_⟩
    unfold MutexState.rtMutexRelease
    split
    · rename_i howner
      by_cases hhold : s.hold m - 1 = 0
      · rw [if_pos (show Function.update s.hold m (s.hold m - 1) m = 0 by
          rw [Function.update_self, hhold])]
        exact .inr (.inr ⟨howner, hhold, rfl⟩)
      · rw [if_neg (show ¬ Function.update s.hold m (s.hold m - 1) m = 0 by
          rw [Function.update_self]; exact hhold)]
        exact .inr (.inl ⟨howner, hhold, rfl⟩)
    · rename_i howner
      exact .inl ⟨howner, rfl⟩

theorem effect_release {t : τ} {m : μ}
    (h : (mutexMachine depth).step s (.release t m) = some s') :
    MutexEffect depth s (.release t m) s' := by
  obtain ⟨hrun, ⟨howner, rfl⟩ | ⟨howner, hhold, rfl⟩ | ⟨howner, hhold, rfl⟩⟩ := release_cases h
  · exact .releaseFailed hrun howner
  · exact .releaseOne hrun howner hhold
  · exact .releaseLast hrun howner hhold

/-- A thread that is made ready, by whatever, is suspended before, or nothing happens. -/
theorem effect_ready (h : s.Owned) (a : MutexStep τ μ κ) (t : τ) :
    MutexEffect depth s a { s with toSuspState := (s.rtSchedThreadReady t).2 } := by
  by_cases hsusp : s.suspended t = true
  · obtain ⟨susp, hready, hresumed, -⟩ := SuspState.rtSchedThreadReady_live h.live hsusp
    rw [hready]
    exact .wake hsusp hresumed
  · have hready : s.rtSchedThreadReady t = (false, s.toSuspState) := by
      rw [SuspState.rtSchedThreadReady, if_neg hsusp]
    rw [hready]
    exact .same

theorem effect_of_step (h : s.Owned) {a : MutexStep τ μ κ}
    (hstep : (mutexMachine depth).step s a = some s') : MutexEffect depth s a s' := by
  cases a with
  | take t m timeout => exact effect_take hstep
  | resumed t => exact effect_resumed hstep
  | leave t =>
    simp only [mutexMachine] at hstep
    split at hstep
    case isFalse => cases hstep
    case isTrue hcall =>
      obtain rfl := Option.some.inj hstep
      exact .leave hcall
  | release t m => exact effect_release hstep
  | setprioceiling m p => exact .ceiling hstep
  | expire t =>
    simp only [mutexMachine] at hstep
    split at hstep
    case isFalse => cases hstep
    case isTrue hdue =>
      obtain rfl := Option.some.inj hstep
      exact .wake hdue.1 (SuspState.expire_resumed s.toSuspState t)
  | block t k timeout =>
    simp only [mutexMachine] at hstep
    split at hstep
    case isFalse => cases hstep
    case isTrue hrun =>
      obtain rfl := Option.some.inj hstep
      have hsusp := SuspState.rtThreadSuspendToList_suspended s.toSuspState t (.other k) .prio
      exact .block hrun (hsusp.startTimer timeout)
  | unblock t =>
    simp only [mutexMachine] at hstep
    split at hstep
    case h_2 => cases hstep
    case h_1 k hcall =>
      split at hstep
      case isTrue => cases hstep
      case isFalse hsusp =>
        obtain rfl := Option.some.inj hstep
        exact .unblock hcall (Bool.eq_false_iff.mpr hsusp)
  | dequeue k threadError =>
    obtain rfl := Option.some.inj hstep
    cases hlist : s.suspendThread (.other k) with
    | nil =>
      rw [SuspState.rtSuspListDequeue_nil hlist]
      exact .same
    | cons t rest =>
      have hsusp : s.suspended t = true := h.sound.suspended (.other k) t (by
        rw [hlist]
        exact List.mem_cons_self)
      obtain ⟨susp, hready, hresumed, -⟩ := SuspState.rtSchedThreadReady_live h.live hsusp
      simp only [SuspState.rtSuspListDequeue, hlist, hready]
      refine .wake hsusp ?_
      split
      · exact ⟨hresumed.lists, hresumed.suspended, hresumed.priority, hresumed.live⟩
      · exact hresumed
  | ready t =>
    simp only [mutexMachine] at hstep
    split at hstep
    case h_2 => cases hstep
    case h_1 k hcall =>
      obtain rfl := Option.some.inj hstep
      exact effect_ready h _ t

end Effect

end Gd32Vw553h.Ipc
