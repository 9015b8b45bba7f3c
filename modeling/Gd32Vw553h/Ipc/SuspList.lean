/-
  Ipc/SuspList.lean --- suspended threads and the lists they wait in (`src/ipc.c`,
  `src/thread.c`, `src/scheduler_comm.c`).

  A thread that blocks on an IPC object is suspended and put into one of its lists, in
  the order of arrival or of priority.  It leaves the list when it is made ready: by
  `rt_susp_list_dequeue`, which stops its timer first, or by the timer itself, through
  `_thread_timeout`.  A timer that has run out cannot be stopped any more, and then
  `rt_sched_thread_ready` fails.

  A thread has one list node, so that it stands in at most one list (`SuspState.Sound`).
  The lists of an object are named by `κ`.  `RT_ASSERT` is empty in this configuration,
  and only the running thread suspends itself here.
-/
import Gd32Vw553h.Klibc.KErrno
import Mathlib.Data.List.Nodup
import Mathlib.Data.List.Sort
import Mathlib.Logic.Function.Basic

set_option autoImplicit false

namespace Gd32Vw553h.Ipc

open Gd32Vw553h.Klibc

/-! ## The order of a list -/

/-- `RT_IPC_FLAG_FIFO`, `RT_IPC_FLAG_PRIO` -/
inductive IpcFlag where
  | fifo
  | prio
  deriving DecidableEq

section Enqueue

variable {τ : Type*} {priority : τ → Nat} {flag : IpcFlag} {thread u : τ} {l : List τ}

/-- `rt_susp_list_enqueue` -/
def rtSuspListEnqueue (priority : τ → Nat) (flag : IpcFlag) (thread : τ) (suspList : List τ) :
    List τ :=
  match flag with
  | .fifo => suspList ++ [thread]
  | .prio => suspList.orderedInsert (fun a b => priority a < priority b) thread

theorem rtSuspListEnqueue_perm (priority : τ → Nat) (flag : IpcFlag) (thread : τ)
    (l : List τ) : (rtSuspListEnqueue priority flag thread l).Perm (thread :: l) := by
  cases flag with
  | fifo => exact List.perm_append_singleton thread l
  | prio => exact List.perm_orderedInsert _ thread l

theorem mem_rtSuspListEnqueue :
    u ∈ rtSuspListEnqueue priority flag thread l ↔ u = thread ∨ u ∈ l :=
  (rtSuspListEnqueue_perm priority flag thread l).mem_iff.trans List.mem_cons

theorem nodup_rtSuspListEnqueue (hnodup : l.Nodup) (hout : thread ∉ l) :
    (rtSuspListEnqueue priority flag thread l).Nodup :=
  (rtSuspListEnqueue_perm priority flag thread l).nodup_iff.mpr (List.nodup_cons.mpr ⟨hout, hnodup⟩)

/-- The thread is put before those of lower priority and behind all others. -/
theorem pairwise_rtSuspListEnqueue {R : τ → τ → Prop} (h : l.Pairwise R)
    (hkey : ∀ a ∈ l, ∀ b ∈ l, R a b → priority a ≤ priority b)
    (hbefore : ∀ b ∈ l, priority thread < priority b → R thread b)
    (hbehind : ∀ b ∈ l, ¬ priority thread < priority b → R b thread) :
    (rtSuspListEnqueue priority .prio thread l).Pairwise R := by
  show (l.orderedInsert (fun a b => priority a < priority b) thread).Pairwise R
  induction l with
  | nil => exact List.pairwise_singleton R thread
  | cons n rest ih =>
    obtain ⟨hfirst, hrest⟩ := List.pairwise_cons.mp h
    have hn : n ∈ n :: rest := List.mem_cons_self
    rw [List.orderedInsert_cons]
    by_cases hlt : priority thread < priority n
    · rw [if_pos hlt]
      refine List.pairwise_cons.mpr ⟨fun b hb => hbefore b hb ?_, h⟩
      rcases List.mem_cons.mp hb with rfl | hmem
      · exact hlt
      · exact lt_of_lt_of_le hlt (hkey n hn b hb (hfirst b hmem))
    · rw [if_neg hlt]
      refine List.pairwise_cons.mpr ⟨fun b hb => ?_, ih hrest
        (fun a ha b hb => hkey a (List.mem_cons_of_mem n ha) b (List.mem_cons_of_mem n hb))
        (fun b hb => hbefore b (List.mem_cons_of_mem n hb))
        (fun b hb => hbehind b (List.mem_cons_of_mem n hb))⟩
      rcases (List.mem_orderedInsert _).mp hb with rfl | hmem
      · exact hbehind n hn hlt
      · exact hfirst b hmem

end Enqueue

/-! ## The threads -/

theorem update_false_eq_true {τ : Type*} [DecidableEq τ] {f : τ → Bool} {thread t : τ} :
    Function.update f thread false t = true ↔ t ≠ thread ∧ f t = true := by
  by_cases h : t = thread
  · rw [h, Function.update_self]
    exact iff_of_false Bool.false_ne_true fun hand => hand.1 rfl
  · rw [Function.update_of_ne h]
    exact (and_iff_right h).symm

/-- The lists, and what the functions below read and write of the threads. -/
structure SuspState (τ κ : Type*) where
  suspendThread : κ → List τ
  currentPriority : τ → Nat
  /-- `RT_THREAD_SUSPEND_MASK` is set in `stat` -/
  suspended : τ → Bool
  error : τ → Int
  /-- `sched_flag_ttmr_set` -/
  ttmrSet : τ → Bool
  /-- `RT_TIMER_FLAG_ACTIVATED` is set in the flags of `thread_timer` -/
  timerActivated : τ → Bool

namespace SuspState

variable {τ κ : Type*} [DecidableEq τ]

/-- `rt_list_remove(&RT_THREAD_LIST_NODE(thread))` -/
def removeNode (s : SuspState τ κ) (thread : τ) : SuspState τ κ :=
  { s with suspendThread := fun k => (s.suspendThread k).erase thread }

/-- `rt_sched_thread_timer_stop`, and whether it returns `RT_EOK`. -/
def rtSchedThreadTimerStop (s : SuspState τ κ) (thread : τ) : Bool × SuspState τ κ :=
  if s.ttmrSet thread then
    (s.timerActivated thread,
      { s with
        timerActivated := Function.update s.timerActivated thread false
        ttmrSet := Function.update s.ttmrSet thread false })
  else (true, s)

/-- `rt_sched_thread_ready`, and whether it returns `RT_EOK`. -/
def rtSchedThreadReady (s : SuspState τ κ) (thread : τ) : Bool × SuspState τ κ :=
  if s.suspended thread then
    match s.rtSchedThreadTimerStop thread with
    | (true, s) =>
      (true, { s.removeNode thread with suspended := Function.update s.suspended thread false })
    | (false, s) => (false, s)
  else (false, s)

/-- `rt_susp_list_dequeue` -/
def rtSuspListDequeue (s : SuspState τ κ) (k : κ) (threadError : Int) :
    Option τ × SuspState τ κ :=
  match s.suspendThread k with
  | [] => (none, s)
  | thread :: _ =>
    match s.rtSchedThreadReady thread with
    | (true, s) =>
      (some thread,
        if 0 ≤ threadError then
          { s with error := Function.update s.error thread threadError }
        else s)
    | (false, s) => (none, s)

/-- The loop of `rt_susp_list_resume_all`, over at most `fuel` threads. -/
def resumeLoop (k : κ) (threadError : Int) : Nat → SuspState τ κ → SuspState τ κ
  | 0, s => s
  | fuel + 1, s =>
    match s.rtSuspListDequeue k threadError with
    | (some _, s) => resumeLoop k threadError fuel s
    | (none, s) => s

/-- `rt_susp_list_resume_all` -/
def rtSuspListResumeAll (s : SuspState τ κ) (k : κ) (threadError : Int) : SuspState τ κ :=
  resumeLoop k threadError ((s.suspendThread k).length + 1) s

/-- `rt_thread_suspend_to_list` of the running thread. -/
def rtThreadSuspendToList [DecidableEq κ] (s : SuspState τ κ) (thread : τ) (k : κ)
    (flag : IpcFlag) : SuspState τ κ :=
  let s := { s with
    suspended := Function.update s.suspended thread true
    suspendThread := Function.update s.suspendThread k
      (rtSuspListEnqueue s.currentPriority flag thread (s.suspendThread k)) }
  (s.rtSchedThreadTimerStop thread).2

/-- The thread timer is set and started, if there is a waiting time. -/
def startTimer (s : SuspState τ κ) (thread : τ) (timeout : Int) : SuspState τ κ :=
  if timeout > 0 then
    { s with
      ttmrSet := Function.update s.ttmrSet thread true
      timerActivated := Function.update s.timerActivated thread true }
  else s

/-- `_timer_check` takes the timer of the thread off the timer list. -/
def takeTimer (s : SuspState τ κ) (thread : τ) : SuspState τ κ :=
  { s with timerActivated := Function.update s.timerActivated thread false }

/-- `_thread_timeout` -/
def threadTimeout (s : SuspState τ κ) (thread : τ) : SuspState τ κ :=
  { s.removeNode thread with
    error := Function.update s.error thread (-rtETimeout)
    suspended := Function.update s.suspended thread false }

/-- The timer of the thread runs out and its callback is called. -/
def expire (s : SuspState τ κ) (thread : τ) : SuspState τ κ :=
  (s.takeTimer thread).threadTimeout thread

/-! ## Invariants -/

/-- A thread stands in at most one list, once, and is suspended there. -/
structure Sound (s : SuspState τ κ) : Prop where
  nodup : ∀ k, (s.suspendThread k).Nodup
  single : ∀ k k' t, t ∈ s.suspendThread k → t ∈ s.suspendThread k' → k = k'
  suspended : ∀ k t, t ∈ s.suspendThread k → s.suspended t = true

/-- The timers of suspended threads have not run out. -/
def TimersLive (s : SuspState τ κ) : Prop :=
  ∀ t, s.suspended t = true → s.ttmrSet t = true → s.timerActivated t = true

/-- What making a thread ready does, `error` apart. -/
structure Resumed (s s' : SuspState τ κ) (thread : τ) : Prop where
  lists : s'.suspendThread = fun k => (s.suspendThread k).erase thread
  suspended : s'.suspended = Function.update s.suspended thread false
  priority : s'.currentPriority = s.currentPriority
  live : s.TimersLive → s'.TimersLive

/-- What suspending the running thread in a list does. -/
structure Suspended [DecidableEq κ] (s s' : SuspState τ κ) (thread : τ) (k : κ)
    (flag : IpcFlag) : Prop where
  lists : s'.suspendThread = Function.update s.suspendThread k
    (rtSuspListEnqueue s.currentPriority flag thread (s.suspendThread k))
  suspended : s'.suspended = Function.update s.suspended thread true
  priority : s'.currentPriority = s.currentPriority
  error : s'.error = s.error
  live : s.TimersLive → s'.TimersLive

variable {s s' : SuspState τ κ} {thread t : τ} {k : κ} {flag : IpcFlag} {threadError timeout : Int}

/-! ### Making a thread ready -/

theorem Resumed.mem (h : s.Resumed s' thread) (hs : s.Sound) :
    t ∈ s'.suspendThread k ↔ t ≠ thread ∧ t ∈ s.suspendThread k := by
  rw [h.lists]
  exact (hs.nodup k).mem_erase_iff

theorem Resumed.suspended_self (h : s.Resumed s' thread) : s'.suspended thread = false := by
  rw [h.suspended]
  exact Function.update_self thread false s.suspended

theorem Resumed.suspended_of_ne (h : s.Resumed s' thread) (hne : t ≠ thread) :
    s'.suspended t = s.suspended t := by
  rw [h.suspended]
  exact Function.update_of_ne hne false s.suspended

theorem Resumed.suspended_of_true (h : s.Resumed s' thread) (ht : s'.suspended t = true) :
    t ≠ thread ∧ s.suspended t = true := by
  have hne : t ≠ thread := by
    rintro rfl
    exact Bool.false_ne_true (h.suspended_self.symm.trans ht)
  exact ⟨hne, (h.suspended_of_ne hne).symm.trans ht⟩

theorem Resumed.sound (h : s.Resumed s' thread) (hs : s.Sound) : s'.Sound where
  nodup k := by
    rw [h.lists]
    exact (hs.nodup k).erase thread
  single k k' t hk hk' := hs.single k k' t ((h.mem hs).mp hk).2 ((h.mem hs).mp hk').2
  suspended k t hk := by
    obtain ⟨hne, hmem⟩ := (h.mem hs).mp hk
    rw [h.suspended_of_ne hne]
    exact hs.suspended k t hmem

/-- A thread in no list of `k` leaves `k` as it is. -/
theorem Resumed.list_of_not_mem (h : s.Resumed s' thread) (hout : thread ∉ s.suspendThread k) :
    s'.suspendThread k = s.suspendThread k := by
  rw [h.lists]
  exact List.erase_of_not_mem hout

theorem rtSchedThreadReady_of_stop (hsusp : s.suspended thread = true)
    (hstop : s.rtSchedThreadTimerStop thread = (true, s')) :
    s.rtSchedThreadReady thread = (true,
      { s'.removeNode thread with suspended := Function.update s'.suspended thread false }) := by
  simp only [rtSchedThreadReady, if_pos hsusp, hstop]

/-- `rt_sched_thread_ready` succeeds when the timer of the thread has not run out. -/
theorem rtSchedThreadReady_active (hsusp : s.suspended thread = true)
    (hactive : s.ttmrSet thread = true → s.timerActivated thread = true) :
    ∃ set active, s.rtSchedThreadReady thread = (true, { s.removeNode thread with
        suspended := Function.update s.suspended thread false
        ttmrSet := set
        timerActivated := active }) ∧
      (∀ t, t ≠ thread → set t = s.ttmrSet t ∧ active t = s.timerActivated t) ∧
      set thread = false ∧ (active thread = true → s.ttmrSet thread = false ∧
        s.timerActivated thread = true) := by
  by_cases hset : s.ttmrSet thread = true
  · have hstop : s.rtSchedThreadTimerStop thread = (true, { s with
        timerActivated := Function.update s.timerActivated thread false
        ttmrSet := Function.update s.ttmrSet thread false }) := by
      rw [rtSchedThreadTimerStop, if_pos hset, hactive hset]
    refine ⟨Function.update s.ttmrSet thread false, Function.update s.timerActivated thread false,
      rtSchedThreadReady_of_stop hsusp hstop, fun t hne => ⟨?_, ?_⟩, Function.update_self _ _ _,
      fun hnow => absurd rfl (update_false_eq_true.mp hnow).1⟩
    · rw [Function.update_of_ne hne]
    · rw [Function.update_of_ne hne]
  · have hstop : s.rtSchedThreadTimerStop thread = (true, s) := by
      rw [rtSchedThreadTimerStop, if_neg hset]
    have hunset := Bool.eq_false_iff.mpr hset
    exact ⟨s.ttmrSet, s.timerActivated, rtSchedThreadReady_of_stop hsusp hstop,
      fun _ _ => ⟨rfl, rfl⟩, hunset, fun hnow => ⟨hunset, hnow⟩⟩

theorem rtSchedThreadReady_live (hlive : s.TimersLive) (hsusp : s.suspended thread = true) :
    ∃ s', s.rtSchedThreadReady thread = (true, s') ∧ s.Resumed s' thread ∧
      s'.error = s.error := by
  obtain ⟨set, active, hready, hothers, -, -⟩ := rtSchedThreadReady_active hsusp (hlive thread hsusp)
  refine ⟨_, hready, ⟨rfl, rfl, rfl, fun _ t ht hflag => ?_⟩, rfl⟩
  obtain ⟨hne, ht⟩ := update_false_eq_true.mp (show
    Function.update s.suspended thread false t = true from ht)
  obtain ⟨hset, hactive⟩ := hothers t hne
  exact hactive.trans (hlive t ht (hset.symm.trans hflag))

/-- A dequeue resumes the first thread and sets its `error`. -/
theorem rtSuspListDequeue_cons (hs : s.Sound) (hlive : s.TimersLive) {rest : List τ}
    (hlist : s.suspendThread k = thread :: rest) (herror : 0 ≤ threadError) :
    ∃ s', s.rtSuspListDequeue k threadError = (some thread, s') ∧ s.Resumed s' thread ∧
      s'.error = Function.update s.error thread threadError := by
  have hmem : thread ∈ s.suspendThread k := by
    rw [hlist]
    exact List.mem_cons_self
  obtain ⟨mid, hready, hresumed, hsame⟩ :=
    rtSchedThreadReady_live hlive (hs.suspended k thread hmem)
  refine ⟨{ mid with error := Function.update mid.error thread threadError }, ?_,
    ⟨hresumed.lists, hresumed.suspended, hresumed.priority, hresumed.live⟩, by rw [hsame]⟩
  simp only [rtSuspListDequeue, hlist, hready, if_pos herror]

theorem rtSuspListDequeue_nil (hlist : s.suspendThread k = []) :
    s.rtSuspListDequeue k threadError = (none, s) := by
  simp only [rtSuspListDequeue, hlist]

theorem expire_resumed (s : SuspState τ κ) (thread : τ) : s.Resumed (s.expire thread) thread := by
  refine ⟨rfl, rfl, rfl, fun hlive t ht hflag => ?_⟩
  obtain ⟨hne, ht⟩ := update_false_eq_true.mp (show
    Function.update s.suspended thread false t = true from ht)
  exact update_false_eq_true.mpr ⟨hne, hlive t ht hflag⟩

/-! ### Resuming all -/

/-- Afterwards the list is empty, and its threads are resumed with this `error`. -/
theorem resumeLoop_spec (herror : 0 ≤ threadError) {fuel : Nat} (hs : s.Sound)
    (hlive : s.TimersLive) (hfuel : (s.suspendThread k).length < fuel) :
    ∃ s', resumeLoop k threadError fuel s = s' ∧ s'.Sound ∧ s'.TimersLive ∧
      s'.suspendThread k = [] ∧ (∀ k', k' ≠ k → s'.suspendThread k' = s.suspendThread k') ∧
      s'.currentPriority = s.currentPriority ∧
      (∀ t, t ∉ s.suspendThread k → s'.suspended t = s.suspended t ∧ s'.error t = s.error t) ∧
      ∀ t, t ∈ s.suspendThread k → s'.suspended t = false ∧ s'.error t = threadError := by
  induction fuel generalizing s with
  | zero => exact absurd hfuel (Nat.not_lt_zero _)
  | succ fuel ih =>
    cases hlist : s.suspendThread k with
    | nil =>
      refine ⟨s, ?_, hs, hlive, hlist, fun k' _ => rfl, rfl, fun t _ => ⟨rfl, rfl⟩,
        fun t ht => absurd ht List.not_mem_nil⟩
      simp only [resumeLoop, rtSuspListDequeue_nil hlist]
    | cons thread rest =>
      obtain ⟨mid, hdequeue, hresumed, hmid⟩ := rtSuspListDequeue_cons hs hlive hlist herror
      have hfirst : thread ∈ s.suspendThread k := by
        rw [hlist]
        exact List.mem_cons_self
      have hrest : mid.suspendThread k = rest := by
        rw [hresumed.lists]
        dsimp only
        rw [hlist, List.erase_cons_head]
      have hshort : (mid.suspendThread k).length < fuel := by
        rw [hrest]
        rw [hlist, List.length_cons] at hfuel
        omega
      obtain ⟨final, hloop, hfs, hfl, hempty, hothers, hprio, hkept, hwoken⟩ :=
        ih (hresumed.sound hs) (hresumed.live hlive) hshort
      rw [hrest] at hkept hwoken
      refine ⟨final, ?_, hfs, hfl, hempty, fun k' hk' => ?_, hprio.trans hresumed.priority,
        fun t ht => ?_, fun t ht => ?_⟩
      · simp only [resumeLoop, hdequeue, hloop]
      · refine (hothers k' hk').trans (hresumed.list_of_not_mem fun hmem => hk' ?_)
        exact hs.single k' k thread hmem hfirst
      · obtain ⟨hne, hout⟩ := not_or.mp (mt List.mem_cons.mpr ht)
        obtain ⟨hsusp, herr⟩ := hkept t hout
        refine ⟨hsusp.trans (hresumed.suspended_of_ne hne), herr.trans ?_⟩
        rw [hmid]
        exact Function.update_of_ne hne threadError s.error
      · by_cases hmem : t ∈ rest
        · exact hwoken t hmem
        · obtain rfl := (List.mem_cons.mp ht).resolve_right hmem
          obtain ⟨hsusp, herr⟩ := hkept t hmem
          refine ⟨hsusp.trans hresumed.suspended_self, herr.trans ?_⟩
          rw [hmid]
          exact Function.update_self t threadError s.error

/-! ### Suspending the running thread -/

section Suspend

variable [DecidableEq κ]

theorem rtThreadSuspendToList_suspended (s : SuspState τ κ) (thread : τ) (k : κ)
    (flag : IpcFlag) : s.Suspended (s.rtThreadSuspendToList thread k flag) thread k flag := by
  unfold rtThreadSuspendToList rtSchedThreadTimerStop
  by_cases hset : s.ttmrSet thread = true
  · simp only [hset, if_true]
    refine ⟨rfl, rfl, rfl, rfl, fun hlive t ht hflag => ?_⟩
    obtain ⟨hne, hflag⟩ := update_false_eq_true.mp hflag
    dsimp only at ht
    rw [Function.update_of_ne hne] at ht
    exact update_false_eq_true.mpr ⟨hne, hlive t ht hflag⟩
  · simp only [hset, Bool.false_eq_true, if_false]
    refine ⟨rfl, rfl, rfl, rfl, fun hlive t ht hflag => ?_⟩
    have hne : t ≠ thread := by
      rintro rfl
      exact hset hflag
    dsimp only at ht
    rw [Function.update_of_ne hne] at ht
    exact hlive t ht hflag

omit [DecidableEq κ] in
/-- Starting the timer changes no other field. -/
theorem startTimer_eq (s : SuspState τ κ) (thread : τ) (timeout : Int) :
    ∃ set active, s.startTimer thread timeout =
        { s with ttmrSet := set, timerActivated := active } ∧
      (s.TimersLive → (s.startTimer thread timeout).TimersLive) := by
  unfold SuspState.startTimer
  split
  · refine ⟨_, _, rfl, fun hlive t ht hflag => ?_⟩
    by_cases heq : t = thread
    · rw [heq]
      exact Function.update_self thread true s.timerActivated
    · refine (Function.update_of_ne heq true s.timerActivated).trans (hlive t ht ?_)
      exact (Function.update_of_ne heq true s.ttmrSet).symm.trans hflag
  · exact ⟨_, _, rfl, id⟩

/-- The thread timer does not change what suspending does. -/
theorem Suspended.startTimer (h : s.Suspended s' thread k flag) (timeout : Int) :
    s.Suspended (s'.startTimer thread timeout) thread k flag := by
  obtain ⟨set, active, heq, hlive⟩ := s'.startTimer_eq thread timeout
  rw [heq] at hlive ⊢
  exact ⟨h.lists, h.suspended, h.priority, h.error, fun hl => hlive (h.live hl)⟩

theorem Suspended.mem (h : s.Suspended s' thread k flag) {k' : κ} :
    t ∈ s'.suspendThread k' ↔ t ∈ s.suspendThread k' ∨ t = thread ∧ k' = k := by
  rw [h.lists]
  by_cases hk : k' = k
  · subst hk
    rw [Function.update_self, mem_rtSuspListEnqueue]
    tauto
  · rw [Function.update_of_ne hk]
    tauto

theorem Suspended.suspended_self (h : s.Suspended s' thread k flag) :
    s'.suspended thread = true := by
  rw [h.suspended]
  exact Function.update_self thread true s.suspended

theorem Suspended.suspended_of_ne (h : s.Suspended s' thread k flag) (hne : t ≠ thread) :
    s'.suspended t = s.suspended t := by
  rw [h.suspended]
  exact Function.update_of_ne hne true s.suspended

theorem Suspended.list_self (h : s.Suspended s' thread k flag) :
    s'.suspendThread k = rtSuspListEnqueue s.currentPriority flag thread (s.suspendThread k) := by
  rw [h.lists]
  exact Function.update_self _ _ _

theorem Suspended.list_of_ne (h : s.Suspended s' thread k flag) {k' : κ} (hne : k' ≠ k) :
    s'.suspendThread k' = s.suspendThread k' := by
  rw [h.lists]
  exact Function.update_of_ne hne _ _

theorem Suspended.sound (h : s.Suspended s' thread k flag) (hs : s.Sound)
    (hrunning : s.suspended thread = false) : s'.Sound where
  nodup k' := by
    by_cases hk : k' = k
    · subst hk
      rw [h.list_self]
      refine nodup_rtSuspListEnqueue (hs.nodup k') fun hmem => ?_
      exact Bool.false_ne_true (hrunning.symm.trans (hs.suspended k' thread hmem))
    · rw [h.list_of_ne hk]
      exact hs.nodup k'
  single k₁ k₂ t h₁ h₂ := by
    have hout : ∀ k', t ∈ s.suspendThread k' → t ≠ thread := by
      rintro k' hmem rfl
      exact Bool.false_ne_true (hrunning.symm.trans (hs.suspended k' t hmem))
    rcases h.mem.mp h₁ with hmem₁ | ⟨rfl, rfl⟩
    · rcases h.mem.mp h₂ with hmem₂ | ⟨heq, -⟩
      · exact hs.single k₁ k₂ t hmem₁ hmem₂
      · exact absurd heq (hout k₁ hmem₁)
    · rcases h.mem.mp h₂ with hmem₂ | ⟨-, rfl⟩
      · exact absurd rfl (hout k₂ hmem₂)
      · rfl
  suspended k' t hmem := by
    by_cases heq : t = thread
    · rw [heq]
      exact h.suspended_self
    · rw [h.suspended_of_ne heq]
      exact hs.suspended k' t ((h.mem.mp hmem).resolve_right fun hself => heq hself.1)

end Suspend

/-! ### Timers that run out in two steps -/

/-- `_timer_check` has taken the timers of the threads in `fired`, and is still to call their
`_thread_timeout`. -/
structure Timed (s : SuspState τ κ) (fired : τ → Bool) : Prop where
  live : ∀ t, s.suspended t = true → s.ttmrSet t = true → fired t = false →
    s.timerActivated t = true
  armed : ∀ t, s.timerActivated t = true → s.ttmrSet t = true ∧ s.suspended t = true
  fired : ∀ t, fired t = true → s.suspended t = true ∧ s.timerActivated t = false

variable {fired : τ → Bool}

/-- A thread whose timer has not been taken can be made ready. -/
theorem Timed.ready (h : s.Timed fired) (hsusp : s.suspended thread = true)
    (hfired : fired thread = false) :
    ∃ s', s.rtSchedThreadReady thread = (true, s') ∧ s.Resumed s' thread ∧ s'.error = s.error ∧
      s'.Timed fired := by
  obtain ⟨set, active, hready, hothers, hset, hactive⟩ :=
    rtSchedThreadReady_active hsusp fun hset => h.live thread hsusp hset hfired
  have hlive : ∀ t, Function.update s.suspended thread false t = true → set t = true →
      fired t = false → active t = true := by
    intro t ht hflag hnot
    obtain ⟨hne, ht⟩ := update_false_eq_true.mp ht
    obtain ⟨hsame, hkept⟩ := hothers t hne
    exact hkept.trans (h.live t ht (hsame.symm.trans hflag) hnot)
  refine ⟨_, hready, ⟨rfl, rfl, rfl, fun hold t ht hflag => ?_⟩, rfl, hlive, fun t ht => ?_,
    fun t ht => ?_⟩
  · obtain ⟨hne, ht⟩ := update_false_eq_true.mp (show
      Function.update s.suspended thread false t = true from ht)
    obtain ⟨hsame, hkept⟩ := hothers t hne
    exact hkept.trans (hold t ht (hsame.symm.trans hflag))
  · have hne : t ≠ thread := by
      rintro rfl
      obtain ⟨hunset, hwas⟩ := hactive ht
      exact Bool.false_ne_true (hunset.symm.trans (h.armed t hwas).1)
    obtain ⟨hsame, hkept⟩ := hothers t hne
    obtain ⟨hflag, hwait⟩ := h.armed t (hkept.symm.trans ht)
    exact ⟨hsame.trans hflag, update_false_eq_true.mpr ⟨hne, hwait⟩⟩
  · have hne : t ≠ thread := by
      rintro rfl
      exact Bool.false_ne_true (hfired.symm.trans ht)
    obtain ⟨hwait, htaken⟩ := h.fired t ht
    exact ⟨update_false_eq_true.mpr ⟨hne, hwait⟩, (hothers t hne).2.trans htaken⟩

/-- A dequeue resumes the first thread if its timer has not been taken. -/
theorem Timed.dequeue (h : s.Timed fired) (hs : s.Sound) {rest : List τ}
    (hlist : s.suspendThread k = thread :: rest) (hfired : fired thread = false)
    (herror : 0 ≤ threadError) :
    ∃ s', s.rtSuspListDequeue k threadError = (some thread, s') ∧ s.Resumed s' thread ∧
      s'.error = Function.update s.error thread threadError ∧ s'.Timed fired := by
  have hmem : thread ∈ s.suspendThread k := by
    rw [hlist]
    exact List.mem_cons_self
  obtain ⟨mid, hready, hresumed, hsame, hlive⟩ := h.ready (hs.suspended k thread hmem) hfired
  refine ⟨{ mid with error := Function.update mid.error thread threadError }, ?_,
    ⟨hresumed.lists, hresumed.suspended, hresumed.priority, hresumed.live⟩, by rw [hsame],
    ⟨hlive.live, hlive.armed, hlive.fired⟩⟩
  simp only [rtSuspListDequeue, hlist, hready, if_pos herror]

theorem Timed.resumeLoop (h : s.Timed fired) (hs : s.Sound)
    (hfired : ∀ t ∈ s.suspendThread k, fired t = false) (herror : 0 ≤ threadError) {fuel : Nat} :
    (resumeLoop k threadError fuel s).Timed fired := by
  induction fuel generalizing s with
  | zero => exact h
  | succ fuel ih =>
    cases hlist : s.suspendThread k with
    | nil =>
      simp only [SuspState.resumeLoop, rtSuspListDequeue_nil hlist]
      exact h
    | cons thread rest =>
      have hfirst : fired thread = false := hfired thread (by simp [hlist])
      obtain ⟨mid, hdequeue, hresumed, -, hmid⟩ := h.dequeue hs hlist hfirst herror
      simp only [SuspState.resumeLoop, hdequeue]
      exact ih hmid (hresumed.sound hs) fun t ht => hfired t ((hresumed.mem hs).mp ht).2

theorem Timed.takeTimer (h : s.Timed fired) (hactive : s.timerActivated thread = true) :
    (s.takeTimer thread).Timed (Function.update fired thread true) where
  live t ht hflag hnot := by
    have hne : t ≠ thread := by
      rintro rfl
      rw [Function.update_self] at hnot
      exact Bool.false_ne_true hnot.symm
    rw [Function.update_of_ne hne] at hnot
    exact update_false_eq_true.mpr ⟨hne, h.live t ht hflag hnot⟩
  armed t ht := h.armed t (update_false_eq_true.mp ht).2
  fired t ht := by
    have htaken : Function.update s.timerActivated thread false t = false := by
      by_cases hne : t = thread
      · rw [hne, Function.update_self]
      · rw [Function.update_of_ne hne] at ht ⊢
        exact (h.fired t ht).2
    refine ⟨?_, htaken⟩
    by_cases hne : t = thread
    · rw [hne]
      exact (h.armed thread hactive).2
    · rw [Function.update_of_ne hne] at ht
      exact (h.fired t ht).1

theorem Timed.threadTimeout (h : s.Timed fired) (hfired : fired thread = true) :
    (s.threadTimeout thread).Timed (Function.update fired thread false) where
  live t ht hflag hnot := by
    obtain ⟨hne, ht⟩ := update_false_eq_true.mp ht
    rw [Function.update_of_ne hne] at hnot
    exact h.live t ht hflag hnot
  armed t ht := by
    have hne : t ≠ thread := by
      rintro rfl
      exact Bool.false_ne_true ((h.fired t hfired).2.symm.trans ht)
    exact ⟨(h.armed t ht).1, update_false_eq_true.mpr ⟨hne, (h.armed t ht).2⟩⟩
  fired t ht := by
    obtain ⟨hne, ht⟩ := update_false_eq_true.mp ht
    exact ⟨update_false_eq_true.mpr ⟨hne, (h.fired t ht).1⟩, (h.fired t ht).2⟩

/-- The running thread suspends itself and starts its timer. -/
theorem Timed.suspend [DecidableEq κ] (h : s.Timed fired) (hrun : s.suspended thread = false)
    (k : κ) (flag : IpcFlag) (timeout : Int) :
    ((s.rtThreadSuspendToList thread k flag).startTimer thread timeout).Timed fired := by
  have hidle : s.timerActivated thread = false := by
    refine Bool.eq_false_iff.mpr fun ht => ?_
    exact Bool.false_ne_true (hrun.symm.trans (h.armed thread ht).2)
  have hstopped : ∃ set active, s.rtThreadSuspendToList thread k flag = { s with
        suspended := Function.update s.suspended thread true
        suspendThread := Function.update s.suspendThread k
          (rtSuspListEnqueue s.currentPriority flag thread (s.suspendThread k))
        ttmrSet := set
        timerActivated := active } ∧ set thread = false ∧ active thread = false ∧
      ∀ t, t ≠ thread → set t = s.ttmrSet t ∧ active t = s.timerActivated t := by
    unfold rtThreadSuspendToList rtSchedThreadTimerStop
    by_cases hset : s.ttmrSet thread = true
    · simp only [hset, if_true]
      exact ⟨_, _, rfl, Function.update_self _ _ _, Function.update_self _ _ _,
        fun t hne => ⟨Function.update_of_ne hne _ _, Function.update_of_ne hne _ _⟩⟩
    · simp only [hset, Bool.false_eq_true, if_false]
      exact ⟨_, _, rfl, Bool.eq_false_iff.mpr hset, hidle, fun _ _ => ⟨rfl, rfl⟩⟩
  obtain ⟨set, active, heq, hset, hactive, hothers⟩ := hstopped
  rw [heq]
  have hfired : ∀ t, fired t = true → t ≠ thread := by
    rintro t ht rfl
    exact Bool.false_ne_true (hrun.symm.trans (h.fired t ht).1)
  have hwait : ∀ t, t ≠ thread → Function.update s.suspended thread true t = s.suspended t :=
    fun t hne => Function.update_of_ne hne true s.suspended
  unfold SuspState.startTimer
  split
  · refine ⟨fun t ht hflag hnot => ?_, fun t ht => ?_, fun t ht => ?_⟩
    · by_cases hne : t = thread
      · rw [hne]
        exact Function.update_self _ _ _
      · refine (Function.update_of_ne hne _ _).trans ((hothers t hne).2.trans ?_)
        refine h.live t ((hwait t hne).symm.trans ht) ?_ hnot
        exact (hothers t hne).1.symm.trans ((Function.update_of_ne hne _ _).symm.trans hflag)
    · by_cases hne : t = thread
      · rw [hne]
        exact ⟨Function.update_self _ _ _, Function.update_self _ _ _⟩
      · have hwas := (hothers t hne).2.symm.trans ((Function.update_of_ne hne _ _).symm.trans ht)
        obtain ⟨hflag, hsusp⟩ := h.armed t hwas
        exact ⟨(Function.update_of_ne hne _ _).trans ((hothers t hne).1.trans hflag),
          (hwait t hne).trans hsusp⟩
    · have hne := hfired t ht
      obtain ⟨hsusp, htaken⟩ := h.fired t ht
      exact ⟨(hwait t hne).trans hsusp,
        (Function.update_of_ne hne _ _).trans ((hothers t hne).2.trans htaken)⟩
  · refine ⟨fun t ht hflag hnot => ?_, fun t ht => ?_, fun t ht => ?_⟩
    · have hne : t ≠ thread := by
        rintro rfl
        exact Bool.false_ne_true (hset.symm.trans hflag)
      exact (hothers t hne).2.trans (h.live t ((hwait t hne).symm.trans ht)
        ((hothers t hne).1.symm.trans hflag) hnot)
    · have hne : t ≠ thread := by
        rintro rfl
        exact Bool.false_ne_true (hactive.symm.trans ht)
      obtain ⟨hflag, hsusp⟩ := h.armed t ((hothers t hne).2.symm.trans ht)
      exact ⟨(hothers t hne).1.trans hflag, (hwait t hne).trans hsusp⟩
    · have hne := hfired t ht
      obtain ⟨hsusp, htaken⟩ := h.fired t ht
      exact ⟨(hwait t hne).trans hsusp, (hothers t hne).2.trans htaken⟩

end SuspState

end Gd32Vw553h.Ipc
