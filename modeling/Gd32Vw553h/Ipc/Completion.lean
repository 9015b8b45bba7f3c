/-
  Ipc/Completion.lean --- completions (`components/drivers/ipc/completion_up.c`).

  A completion is one word with a waiting thread and a flag.  A wait is two critical
  sections with `rt_schedule` between them; a wakeup is one, in a thread or in an interrupt
  handler.  The timer of the waiting thread runs out in two steps, and a wakeup can come
  before, between or after them.

  The history has the result of every wakeup and of every wait.  `pending` says whether a
  wakeup that has not been refused is still to be consumed; it is the flag of the word.
  Errors that a signal would cause are left out, since signals are not configured.
-/
import Gd32Vw553h.Foundation.History
import Gd32Vw553h.Foundation.Runs
import Gd32Vw553h.Ipc.SuspList

set_option autoImplicit false

namespace Gd32Vw553h.Ipc

open Gd32Vw553h.Foundation Gd32Vw553h.Klibc

/-! ## The code -/

/-- `susp_thread_n_flag` -/
structure SuspThreadNFlag (τ : Type*) where
  thread : Option τ
  completed : Bool
  deriving DecidableEq

/-- Calls that have returned. -/
inductive CompletionEvent (τ : Type*) where
  | wakeup (ret : Int)
  | wait (thread : τ) (ret : Int)
  deriving DecidableEq

/-- A completion and the threads; there are no other lists. -/
structure CompletionState (τ : Type*) where
  susp : SuspState τ PEmpty
  word : SuspThreadNFlag τ
  /-- `_thread_timeout` is still to be called for the thread, whose timer has run out -/
  fired : τ → Bool
  /-- the thread that is between the two critical sections of its wait -/
  call : Option τ
  history : List (CompletionEvent τ)

namespace CompletionState

variable {τ : Type*} [DecidableEq τ]

/-- `rt_thread_suspend_with_flag` of the running thread -/
def rtThreadSuspendWithFlag (susp : SuspState τ PEmpty) (thread : τ) : SuspState τ PEmpty :=
  ({ susp with suspended := Function.update susp.suspended thread true }.rtSchedThreadTimerStop
    thread).2

/-- The wait returns. -/
def leave (s : CompletionState τ) (thread : τ) (ret : Int) : CompletionState τ :=
  { s with call := none, history := s.history ++ [.wait thread ret] }

/-- The completed flag and the thread are cleared on the way out. -/
def cleanLeave (s : CompletionState τ) (thread : τ) (ret : Int) : CompletionState τ :=
  { s with word := ⟨none, false⟩ }.leave thread ret

/-- `rt_completion_wait_flags`, from `__try_again` to its return or to `rt_schedule` -/
def tryAgain (s : CompletionState τ) (thread : τ) (timeout : Int) : CompletionState τ :=
  if s.word.completed then s.cleanLeave thread 0
  else if timeout = 0 then s.leave thread (-rtETimeout)
  else
    let susp := rtThreadSuspendWithFlag
      { s.susp with error := Function.update s.susp.error thread 0 } thread
    { s with
      susp := susp.startTimer thread timeout
      word := ⟨some thread, false⟩
      call := some thread }

/-- `rt_completion_wait_flags`, after `rt_schedule` -/
def afterSchedule (s : CompletionState τ) (thread : τ) : CompletionState τ :=
  if s.word ≠ ⟨some thread, false⟩ then s.tryAgain thread 0
  else
    let result := s.susp.error thread
    s.cleanLeave thread (if result > 0 then -result else result)

/-- `rt_completion_wakeup_by_errno` -/
def rtCompletionWakeupByErrno (s : CompletionState τ) (threadErrno : Int) : CompletionState τ :=
  if s.word.completed then { s with history := s.history ++ [.wakeup (-rtEBusy)] }
  else
    match s.word.thread with
    | none =>
      { s with word := ⟨none, true⟩, history := s.history ++ [.wakeup (-rtEEmpty)] }
    | some suspendThread =>
      let susp := if 0 ≤ threadErrno then
          { s.susp with error := Function.update s.susp.error suspendThread threadErrno }
        else s.susp
      let (resumed, susp) := susp.rtSchedThreadReady suspendThread
      { s with
        susp := susp
        word := ⟨none, true⟩
        history := s.history ++ [.wakeup (if resumed then 0 else -rtEEmpty)] }

end CompletionState

inductive CompletionStep (τ : Type*) where
  /-- a thread calls `rt_completion_wait_flags` -/
  | wait (thread : τ) (timeout : Int)
  /-- the waiting thread runs again -/
  | resumed
  /-- `rt_completion_wakeup_by_errno`, or `rt_completion_done` with -1 -/
  | wakeup (threadErrno : Int)
  /-- the timer of a thread runs out -/
  | takeTimer (thread : τ)
  /-- `_thread_timeout` -/
  | timeout (thread : τ)

section Machine

variable {τ : Type*} [DecidableEq τ]

/-- One thread at a time waits; everything else is interleaved. -/
def completion : Machine (CompletionState τ) (CompletionStep τ) where
  step s
    | .wait thread timeout =>
      if s.call = none ∧ s.susp.suspended thread = false then some (s.tryAgain thread timeout)
      else none
    | .resumed =>
      match s.call with
      | none => none
      | some thread =>
        if s.susp.suspended thread then none else some (s.afterSchedule thread)
    | .wakeup threadErrno => some (s.rtCompletionWakeupByErrno threadErrno)
    | .takeTimer thread =>
      if s.susp.timerActivated thread then
        some { s with
          susp := s.susp.takeTimer thread, fired := Function.update s.fired thread true }
      else none
    | .timeout thread =>
      if s.fired thread then
        some { s with
          susp := s.susp.threadTimeout thread, fired := Function.update s.fired thread false }
      else none

/-- `rt_completion_init`, with all threads running or ready. -/
def CompletionState.init (error : τ → Int) : CompletionState τ where
  susp :=
    { suspendThread := fun _ => [], currentPriority := fun _ => 0, suspended := fun _ => false,
      error := error, ttmrSet := fun _ => false, timerActivated := fun _ => false }
  word := ⟨none, false⟩
  fired := fun _ => false
  call := none
  history := []

end Machine

/-! ## What a history should be -/

section Spec

variable {τ : Type*}

/-- A wakeup that has not been refused is still to be consumed. -/
def pending (history : List (CompletionEvent τ)) : Bool :=
  history.foldl (fun was event => match event with
    | .wakeup ret => was || ret != -rtEBusy
    | .wait _ _ => false) false

/-- A wakeup is refused just if one is pending, and a wait succeeds just if one is pending. -/
def CompletionOk (before : List (CompletionEvent τ)) : CompletionEvent τ → Prop
  | .wakeup ret => ret = -rtEBusy ↔ pending before = true
  | .wait _ ret => ret = 0 ↔ pending before = true

variable {history : List (CompletionEvent τ)}

theorem pending_wakeup (history : List (CompletionEvent τ)) (ret : Int) :
    pending (history ++ [.wakeup ret]) = (pending history || ret != -rtEBusy) :=
  List.foldl_append

theorem pending_wait (history : List (CompletionEvent τ)) (thread : τ) (ret : Int) :
    pending (history ++ [.wait thread ret]) = false := List.foldl_append

end Spec

/-! ## What every step keeps -/

section Sound

variable {τ : Type*} [DecidableEq τ]

/-- What holds between the steps. -/
structure CompletionSound (s : CompletionState τ) : Prop where
  timed : s.susp.Timed s.fired
  thread : ∀ t, s.word.thread = some t → s.word.completed = false ∧ s.call = some t
  word : ∀ t, s.call = some t → s.word = ⟨some t, false⟩ ∨ s.word = ⟨none, true⟩
  /-- a waiting thread that is ready has been made so by its timer -/
  error : ∀ t, s.word.thread = some t → s.susp.suspended t = false →
    s.susp.error t = -rtETimeout
  /-- nobody has tried to stop the timer of the waiting thread -/
  set : ∀ t, s.word.thread = some t → s.fired t = true → s.susp.ttmrSet t = true
  /-- a thread that has been woken up runs again, at the latest after `_thread_timeout` -/
  woken : ∀ t, s.call = some t → s.word.completed = true → s.susp.suspended t = true →
    s.fired t = true
  flag : s.word.completed = pending s.history
  explained : Explained CompletionOk s.history

variable {s : CompletionState τ} {t thread : τ} {timeout ret : Int}

omit [DecidableEq τ] in
/-- `Timed` is about three fields only, whatever the lists are. -/
theorem timed_congr {κ κ' : Type*} {susp : SuspState τ κ} {susp' : SuspState τ κ'} {fired : τ → Bool}
    (h : susp.Timed fired) (hsuspended : susp'.suspended = susp.suspended)
    (hset : susp'.ttmrSet = susp.ttmrSet)
    (hactivated : susp'.timerActivated = susp.timerActivated) : susp'.Timed fired where
  live t := by
    rw [hsuspended, hset, hactivated]
    exact h.live t
  armed t := by
    rw [hsuspended, hset, hactivated]
    exact h.armed t
  fired t := by
    rw [hsuspended, hactivated]
    exact h.fired t

omit [DecidableEq τ] in
/-- A wait that returns with the word cleared. -/
theorem CompletionSound.cleanLeave (h : CompletionSound s)
    (hret : ret = 0 ↔ s.word.completed = true) : CompletionSound (s.cleanLeave thread ret) where
  timed := h.timed
  thread _ ht := absurd ht (Option.some_ne_none _).symm
  word _ ht := absurd ht (Option.some_ne_none _).symm
  error _ ht := absurd ht (Option.some_ne_none _).symm
  set _ ht := absurd ht (Option.some_ne_none _).symm
  woken _ ht := absurd ht (Option.some_ne_none _).symm
  flag := (pending_wait s.history thread ret).symm
  explained := by
    rw [h.flag] at hret
    exact h.explained.append hret

omit [DecidableEq τ] in
/-- A wait that returns at once. -/
theorem CompletionSound.leave (h : CompletionSound s) (hcall : s.call = none)
    (hcompleted : s.word.completed = false) (hret : ret ≠ 0) :
    CompletionSound (s.leave thread ret) where
  timed := h.timed
  thread t ht := absurd ((h.thread t ht).2.symm.trans hcall) (Option.some_ne_none t)
  word _ ht := absurd ht (Option.some_ne_none _).symm
  error := h.error
  set := h.set
  woken _ ht := absurd ht (Option.some_ne_none _).symm
  flag := hcompleted.trans (pending_wait s.history thread ret).symm
  explained := by
    refine h.explained.append ⟨fun hzero => absurd hzero hret, fun hpending => ?_⟩
    rw [← h.flag, hcompleted] at hpending
    exact absurd hpending Bool.noConfusion

/-- The running thread suspends itself, and no list matters. -/
theorem timed_suspendWithFlag {susp : SuspState τ PEmpty} {fired : τ → Bool}
    (h : susp.Timed fired) (hrun : susp.suspended thread = false) (timeout : Int) :
    ((CompletionState.rtThreadSuspendWithFlag susp thread).startTimer thread timeout).Timed
        fired ∧
      ((CompletionState.rtThreadSuspendWithFlag susp thread).startTimer thread timeout).suspended =
        Function.update susp.suspended thread true := by
  let other : SuspState τ Unit :=
    { suspendThread := fun _ => [], currentPriority := susp.currentPriority
      suspended := susp.suspended, error := susp.error, ttmrSet := susp.ttmrSet
      timerActivated := susp.timerActivated }
  have hother : other.Timed fired := timed_congr h rfl rfl rfl
  have hsame : ∃ set active,
      CompletionState.rtThreadSuspendWithFlag susp thread = { susp with
        suspended := Function.update susp.suspended thread true, ttmrSet := set
        timerActivated := active } ∧
      (other.rtThreadSuspendToList thread () .fifo).suspended =
        Function.update susp.suspended thread true ∧
      (other.rtThreadSuspendToList thread () .fifo).ttmrSet = set ∧
      (other.rtThreadSuspendToList thread () .fifo).timerActivated = active := by
    unfold CompletionState.rtThreadSuspendWithFlag SuspState.rtThreadSuspendToList
      SuspState.rtSchedThreadTimerStop
    cases hset : susp.ttmrSet thread with
    | true =>
      simp only [other, hset, if_true]
      exact ⟨_, _, rfl, trivial, rfl, rfl⟩
    | false =>
      simp only [other, hset, Bool.false_eq_true, if_false]
      exact ⟨_, _, rfl, trivial, rfl, rfl⟩
  obtain ⟨set, active, heq, hsuspended, hset, hactive⟩ := hsame
  have htimed := hother.suspend hrun () .fifo timeout
  rw [heq]
  unfold SuspState.startTimer at htimed ⊢
  by_cases htimeout : timeout > 0
  · rw [if_pos htimeout] at htimed ⊢
    refine ⟨timed_congr htimed hsuspended.symm ?_ ?_, rfl⟩
    · simp only [hset]
    · simp only [hactive]
  · rw [if_neg htimeout] at htimed ⊢
    exact ⟨timed_congr htimed hsuspended.symm hset.symm hactive.symm, rfl⟩

/-- `rt_thread_resume` of the waiting thread: it runs again, or its `_thread_timeout` is to
come. -/
theorem timed_resume {susp : SuspState τ PEmpty} {fired : τ → Bool} (h : susp.Timed fired)
    (hset : fired thread = true → susp.ttmrSet thread = true) :
    (susp.rtSchedThreadReady thread).2.Timed fired ∧
      ((susp.rtSchedThreadReady thread).2.suspended thread = true → fired thread = true) := by
  cases hsusp : susp.suspended thread with
  | false =>
    have hready : susp.rtSchedThreadReady thread = (false, susp) := by
      simp only [SuspState.rtSchedThreadReady, hsusp, Bool.false_eq_true, if_false]
    rw [hready]
    exact ⟨h, fun hwait => absurd (hsusp.symm.trans hwait) Bool.noConfusion⟩
  | true =>
    cases hfired : fired thread with
    | false =>
      obtain ⟨susp', hready, hresumed, -, htimed⟩ := h.ready hsusp hfired
      rw [hready]
      exact ⟨htimed, fun hwait => absurd (hresumed.suspended_self.symm.trans hwait)
        Bool.noConfusion⟩
    | true =>
      have hstop : susp.rtSchedThreadTimerStop thread = (false, { susp with
          timerActivated := Function.update susp.timerActivated thread false
          ttmrSet := Function.update susp.ttmrSet thread false }) := by
        rw [SuspState.rtSchedThreadTimerStop, if_pos (hset hfired), (h.fired thread hfired).2]
      have hready : susp.rtSchedThreadReady thread = (false, { susp with
          timerActivated := Function.update susp.timerActivated thread false
          ttmrSet := Function.update susp.ttmrSet thread false }) := by
        simp only [SuspState.rtSchedThreadReady, hsusp, if_true, hstop]
      rw [hready]
      refine ⟨⟨fun t ht hflag hnot => ?_, fun t ht => ?_, fun t ht => ?_⟩, fun _ => rfl⟩
      · obtain ⟨hne, hflag⟩ := update_false_eq_true.mp hflag
        exact update_false_eq_true.mpr ⟨hne, h.live t ht hflag hnot⟩
      · obtain ⟨hne, ht⟩ := update_false_eq_true.mp ht
        exact ⟨update_false_eq_true.mpr ⟨hne, (h.armed t ht).1⟩, (h.armed t ht).2⟩
      · obtain ⟨hwait, htaken⟩ := h.fired t ht
        refine ⟨hwait, Bool.eq_false_iff.mpr fun hactive => ?_⟩
        exact Bool.false_ne_true (htaken.symm.trans (update_false_eq_true.mp hactive).2)

/-! ### The steps -/

theorem CompletionSound.wait (h : CompletionSound s) (hcall : s.call = none)
    (hrun : s.susp.suspended thread = false) (timeout : Int) :
    CompletionSound (s.tryAgain thread timeout) := by
  unfold CompletionState.tryAgain
  cases hcompleted : s.word.completed with
  | true =>
    rw [if_pos rfl]
    exact h.cleanLeave (iff_of_true rfl hcompleted)
  | false =>
    rw [if_neg Bool.false_ne_true]
    by_cases htimeout : timeout = 0
    · rw [if_pos htimeout]
      exact h.leave hcall hcompleted (by decide)
    · rw [if_neg htimeout]
      have hreset : SuspState.Timed
          { s.susp with error := Function.update s.susp.error thread 0 } s.fired :=
        timed_congr h.timed rfl rfl rfl
      obtain ⟨htimed, hsuspended⟩ := timed_suspendWithFlag hreset hrun timeout
      have hself : ∀ t, some thread = some t → t = thread :=
        fun t ht => (Option.some.inj ht).symm
      exact
        { timed := htimed
          thread := fun t ht => ⟨rfl, ht⟩
          word := fun t ht => .inl (by rw [hself t ht])
          error := fun t ht hready => by
            obtain rfl := hself t ht
            have hwaits := congrFun hsuspended t
            rw [Function.update_self] at hwaits
            exact absurd (hready.symm.trans hwaits) Bool.noConfusion
          set := fun t ht hfired => by
            obtain rfl := hself t ht
            exact absurd (hrun.symm.trans (h.timed.fired t hfired).1) Bool.noConfusion
          woken := fun t _ hflag => absurd hflag Bool.noConfusion
          flag := hcompleted.symm.trans h.flag
          explained := h.explained }

theorem CompletionSound.resumed (h : CompletionSound s) (hcall : s.call = some thread)
    (hrun : s.susp.suspended thread = false) : CompletionSound (s.afterSchedule thread) := by
  unfold CompletionState.afterSchedule
  rcases h.word thread hcall with hword | hword
  · rw [if_neg (not_not_intro hword)]
    refine h.cleanLeave ?_
    have hthread : s.word.thread = some thread := by rw [hword]
    rw [h.error thread hthread hrun, hword]
    exact iff_of_false (by decide) Bool.noConfusion
  · have hchanged : s.word ≠ ⟨some thread, false⟩ := by
      rw [hword]
      exact fun hsame => absurd (congrArg SuspThreadNFlag.completed hsame) Bool.noConfusion
    have hcompleted : s.word.completed = true := by rw [hword]
    rw [if_pos hchanged]
    unfold CompletionState.tryAgain
    rw [if_pos hcompleted]
    exact h.cleanLeave (iff_of_true rfl hcompleted)

omit [DecidableEq τ] in
/-- A wakeup that is not refused sets the flag. -/
theorem CompletionSound.signal {susp : SuspState τ PEmpty} (h : CompletionSound s)
    (hcompleted : s.word.completed = false) (htimed : susp.Timed s.fired)
    (hwoken : ∀ t, s.word.thread = some t → susp.suspended t = true → s.fired t = true)
    (hret : ret ≠ -rtEBusy) :
    CompletionSound
      { s with susp := susp, word := ⟨none, true⟩, history := s.history ++ [.wakeup ret] } where
  timed := htimed
  thread _ ht := absurd ht (Option.some_ne_none _).symm
  word _ _ := .inr rfl
  error _ ht := absurd ht (Option.some_ne_none _).symm
  set _ ht := absurd ht (Option.some_ne_none _).symm
  woken t ht _ := by
    rcases h.word t ht with hword | hword
    · exact hwoken t (by rw [hword])
    · rw [hword] at hcompleted
      exact absurd hcompleted Bool.noConfusion
  flag := by
    rw [pending_wakeup, bne_iff_ne.mpr hret, Bool.or_true]
  explained := by
    refine h.explained.append ⟨fun hbusy => absurd hbusy hret, fun hpending => ?_⟩
    rw [← h.flag, hcompleted] at hpending
    exact absurd hpending Bool.noConfusion

theorem CompletionSound.wakeup (h : CompletionSound s) (threadErrno : Int) :
    CompletionSound (s.rtCompletionWakeupByErrno threadErrno) := by
  unfold CompletionState.rtCompletionWakeupByErrno
  cases hcompleted : s.word.completed with
  | true =>
    rw [if_pos rfl]
    exact
      { timed := h.timed, thread := h.thread, word := h.word, error := h.error, set := h.set
        woken := h.woken
        flag := by
          rw [pending_wakeup, ← h.flag, hcompleted]
          rfl
        explained := h.explained.append
          (iff_of_true rfl (h.flag.symm.trans hcompleted)) }
  | false =>
    rw [if_neg Bool.false_ne_true]
    cases hthread : s.word.thread with
    | none =>
      refine h.signal hcompleted h.timed (fun t ht => ?_) (by decide)
      exact absurd (hthread.symm.trans ht) (Option.some_ne_none t).symm
    | some suspendThread =>
      have herror : SuspState.Timed
          (if 0 ≤ threadErrno then
            { s.susp with error := Function.update s.susp.error suspendThread threadErrno }
          else s.susp) s.fired := by
        split
        · exact timed_congr h.timed rfl rfl rfl
        · exact h.timed
      have hset : s.fired suspendThread = true →
          SuspState.ttmrSet (if 0 ≤ threadErrno then
            { s.susp with error := Function.update s.susp.error suspendThread threadErrno }
          else s.susp) suspendThread = true := by
        intro hfired
        split
        · exact h.set suspendThread hthread hfired
        · exact h.set suspendThread hthread hfired
      obtain ⟨htimed, hwoken⟩ := timed_resume herror hset
      have hret : ∀ resumed : Bool, (if resumed then 0 else -rtEEmpty) ≠ -rtEBusy := by decide
      refine h.signal hcompleted htimed (fun t ht hwait => ?_) (hret _)
      obtain rfl : suspendThread = t := Option.some.inj (hthread.symm.trans ht)
      exact hwoken hwait

theorem CompletionSound.takeTimer (h : CompletionSound s)
    (hactive : s.susp.timerActivated thread = true) :
    CompletionSound { s with
      susp := s.susp.takeTimer thread, fired := Function.update s.fired thread true } where
  timed := h.timed.takeTimer hactive
  thread := h.thread
  word := h.word
  error := h.error
  set t ht hfired := by
    by_cases hself : t = thread
    · rw [hself]
      exact (h.timed.armed thread hactive).1
    · have hbefore : Function.update s.fired thread true t = s.fired t :=
        Function.update_of_ne hself true s.fired
      exact h.set t ht (hbefore.symm.trans hfired)
  woken t ht hflag hwait := by
    by_cases hself : t = thread
    · rw [hself]
      exact Function.update_self thread true s.fired
    · have hbefore : Function.update s.fired thread true t = s.fired t :=
        Function.update_of_ne hself true s.fired
      exact hbefore.trans (h.woken t ht hflag hwait)
  flag := h.flag
  explained := h.explained

theorem CompletionSound.threadTimeout (h : CompletionSound s) (hfired : s.fired thread = true) :
    CompletionSound { s with
      susp := s.susp.threadTimeout thread, fired := Function.update s.fired thread false } where
  timed := h.timed.threadTimeout hfired
  thread := h.thread
  word := h.word
  error t ht hready := by
    by_cases hself : t = thread
    · rw [hself]
      exact Function.update_self thread (-rtETimeout) s.susp.error
    · have herror : Function.update s.susp.error thread (-rtETimeout) t = s.susp.error t :=
        Function.update_of_ne hself (-rtETimeout) s.susp.error
      have hwait : Function.update s.susp.suspended thread false t = s.susp.suspended t :=
        Function.update_of_ne hself false s.susp.suspended
      exact herror.trans (h.error t ht (hwait.symm.trans hready))
  set t ht hstill := h.set t ht (update_false_eq_true.mp hstill).2
  woken t ht hflag hwait := by
    obtain ⟨hother, hwait⟩ := update_false_eq_true.mp hwait
    exact update_false_eq_true.mpr ⟨hother, h.woken t ht hflag hwait⟩
  flag := h.flag
  explained := h.explained

theorem CompletionSound.step {a : CompletionStep τ} {s' : CompletionState τ}
    (h : CompletionSound s) (hstep : completion.step s a = some s') : CompletionSound s' := by
  cases a with
  | wait thread timeout =>
    simp only [completion] at hstep
    split at hstep
    next hready =>
      obtain rfl := Option.some.inj hstep
      exact h.wait hready.1 hready.2 timeout
    next => cases hstep
  | resumed =>
    simp only [completion] at hstep
    split at hstep
    next => cases hstep
    next thread hcall =>
      split at hstep
      next => cases hstep
      next hrun =>
        obtain rfl := Option.some.inj hstep
        exact h.resumed hcall (Bool.eq_false_iff.mpr hrun)
  | wakeup threadErrno =>
    obtain rfl := Option.some.inj hstep
    exact h.wakeup threadErrno
  | takeTimer thread =>
    simp only [completion] at hstep
    split at hstep
    next hactive =>
      obtain rfl := Option.some.inj hstep
      exact h.takeTimer hactive
    next => cases hstep
  | timeout thread =>
    simp only [completion] at hstep
    split at hstep
    next hfired =>
      obtain rfl := Option.some.inj hstep
      exact h.threadTimeout hfired
    next => cases hstep

end Sound

/-! ## Every run -/

section Runs

variable {τ : Type*} [DecidableEq τ]

end Runs

end Gd32Vw553h.Ipc
