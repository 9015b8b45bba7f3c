/-
  Kernel/Hrtimer.lean --- the high-resolution timers
  (`components/drivers/clock_time/clock_hrtimer.c`).

  The timers are linked in one list, in the order of their deadlines, which are compared
  modulo the range of the counter.  A step of the machine is a call up to the end of its
  own work, or one iteration of `_hrtimer_process_locked` or of `_set_next_timeout_locked`;
  each reads the counter at most once and gets any value there.

  `Ordered` is what the list should be.  The calls that can break it are a start or a
  SET_TIME of an active timer and the detachment of an active timer (`Harmless`); all
  other steps keep it.  The completion of a timer is that of `Ipc/Completion.lean`.
  Timeout functions call none of the functions here, and `RT_ASSERT` is empty.
-/
import Gd32Vw553h.Foundation.Runs
import Gd32Vw553h.Klibc.KErrno
import Mathlib.Data.List.Sort
import Mathlib.Logic.Function.Basic

set_option autoImplicit false

namespace Gd32Vw553h.Kernel

open Gd32Vw553h.Foundation Gd32Vw553h.Klibc

/-! ## The code -/

/-- `_cnt_before` -/
def cntBefore (a b : UInt32) : Bool := decide (2147483648 ≤ (a - b).toNat)

/-- `_cnt_convert`, with the resolutions of the counter and of the event source. -/
def cntConvert (srcRes eventRes : UInt64) (now cnt : UInt32) : UInt32 :=
  let count := cnt - now
  if count > 2147483647 then 0
  else if srcRes = 0 ∨ eventRes = 0 then 0
  else
    let result := count.toUInt64 * srcRes / eventRes
    if result = 0 then 1 else result.toUInt32

/-- Where the code is, between calls or in one of the two loops. -/
inductive HrtimerPc where
  | idle
  /-- `_hrtimer_process_locked` -/
  | process
  /-- `_set_next_timeout_locked` -/
  | setNext
  deriving DecidableEq

/-- The timers and `_timer_list`. -/
structure HrtimerState (τ : Type*) where
  timerList : List τ
  delayCnt : τ → UInt32
  timeoutCnt : τ → UInt32
  /-- `RT_TIMER_FLAG_ACTIVATED` -/
  activated : τ → Bool
  /-- `RT_TIMER_FLAG_PERIODIC` -/
  periodic : τ → Bool
  /-- `timeout_func` is not `RT_NULL` -/
  timeoutFunc : τ → Bool
  error : τ → Int
  /-- the last argument of `rt_clock_hrtimer_settimeout` -/
  settimeout : Option UInt32
  pc : HrtimerPc
  /-- the timers whose `timeout_func` has been called -/
  ran : List τ

inductive HrtimerCall (τ : Type*) where
  | start (timer : τ) (delayCnt : UInt32)
  | stop (timer : τ)
  /-- `RT_TIMER_CTRL_SET_TIME` -/
  | setTime (timer : τ) (cnt : UInt32)
  /-- `RT_TIMER_CTRL_SET_ONESHOT`, `RT_TIMER_CTRL_SET_PERIODIC` -/
  | setPeriodic (timer : τ) (periodic : Bool)
  /-- `rt_clock_hrtimer_keep_errno` -/
  | keepErrno (timer : τ) (err : Int)
  | detach (timer : τ)
  | process
  deriving DecidableEq

namespace HrtimerState

variable {τ : Type*} [DecidableEq τ]

/-- `_insert_timer_to_list_locked` -/
def insertTimer (s : HrtimerState τ) (timer : τ) : HrtimerState τ :=
  { s with
    timerList :=
      s.timerList.orderedInsert (fun a b => cntBefore (s.timeoutCnt a) (s.timeoutCnt b)) timer
    activated := Function.update s.activated timer true }

/-- The new deadline of a start or of SET_TIME. -/
def setDeadline (s : HrtimerState τ) (timer : τ) (cnt now : UInt32) : HrtimerState τ :=
  { s with
    delayCnt := Function.update s.delayCnt timer cnt
    timeoutCnt := Function.update s.timeoutCnt timer (cnt + now) }

/-- `rt_clock_hrtimer_start` -/
def rtClockHrtimerStart (s : HrtimerState τ) (timer : τ) (delayCnt now : UInt32) :
    HrtimerState τ :=
  let s := s.setDeadline timer delayCnt now
  if s.activated timer then s else { s.insertTimer timer with pc := .setNext }

/-- `rt_clock_hrtimer_stop` -/
def rtClockHrtimerStop (s : HrtimerState τ) (timer : τ) : HrtimerState τ :=
  if s.activated timer then
    { s with
      timerList := s.timerList.erase timer
      activated := Function.update s.activated timer false
      pc := .setNext }
  else s

/-- `rt_clock_hrtimer_detach` -/
def rtClockHrtimerDetach (s : HrtimerState τ) (timer : τ) : HrtimerState τ :=
  let s := { s with activated := Function.update s.activated timer false }
  if s.error timer = -rtEIntr ∨ s.error timer = rtEIntr then
    { s with timerList := s.timerList.erase timer, pc := .setNext }
  else s

/-- A call, up to the loops. -/
def call (s : HrtimerState τ) (now : UInt32) : HrtimerCall τ → HrtimerState τ
  | .start timer delayCnt => s.rtClockHrtimerStart timer delayCnt now
  | .stop timer => s.rtClockHrtimerStop timer
  | .setTime timer cnt => s.setDeadline timer cnt now
  | .setPeriodic timer periodic =>
    { s with periodic := Function.update s.periodic timer periodic }
  | .keepErrno timer err => { s with error := Function.update s.error timer err }
  | .detach timer => s.rtClockHrtimerDetach timer
  | .process => { s with pc := .process }

/-- A timer that is due: the end of an iteration of `_hrtimer_process_locked`. -/
def expire (s : HrtimerState τ) (timer : τ) (now : UInt32) : HrtimerState τ :=
  let s := { s with timerList := s.timerList.erase timer }
  let s :=
    if s.periodic timer then
      { s with
        timeoutCnt := Function.update s.timeoutCnt timer (s.delayCnt timer + now) }.insertTimer
          timer
    else { s with activated := Function.update s.activated timer false }
  if s.timeoutFunc timer then { s with ran := s.ran ++ [timer] } else s

/-- An iteration of `_hrtimer_process_locked` -/
def hrtimerProcessLocked (s : HrtimerState τ) (now : UInt32) : HrtimerState τ :=
  match s.timerList with
  | [] => { s with pc := .setNext }
  | timer :: _ =>
    if cntBefore now (s.timeoutCnt timer) then { s with pc := .setNext } else s.expire timer now

/-- An iteration of `_set_next_timeout_locked` -/
def setNextTimeoutLocked (srcRes eventRes : UInt64) (s : HrtimerState τ) (now : UInt32) :
    HrtimerState τ :=
  match s.timerList with
  | [] => { s with pc := .idle }
  | timer :: _ =>
    let nextTimeoutCnt := cntConvert srcRes eventRes now (s.timeoutCnt timer)
    if nextTimeoutCnt > 0 then { s with settimeout := some nextTimeoutCnt, pc := .idle }
    else { s with pc := .process }

/-- The timers are initialised. -/
def init (periodic timeoutFunc : τ → Bool) : HrtimerState τ where
  timerList := []
  delayCnt _ := 0
  timeoutCnt _ := 0
  activated _ := false
  periodic := periodic
  timeoutFunc := timeoutFunc
  error _ := 0
  settimeout := none
  pc := .idle
  ran := []

end HrtimerState

/-- Steps; `now` is what the counter reads. -/
inductive HrtimerStep (τ : Type*) where
  | call (c : HrtimerCall τ) (now : UInt32)
  /-- the next iteration of the loop that is running -/
  | go (now : UInt32)
  deriving DecidableEq

/-- `_clock_time_get_cnt` in a step -/
def HrtimerStep.now {τ : Type*} : HrtimerStep τ → UInt32
  | .call _ now => now
  | .go now => now

/-- Calls, one after the other. -/
def hrtimers {τ : Type*} [DecidableEq τ] (srcRes eventRes : UInt64) :
    Machine (HrtimerState τ) (HrtimerStep τ) where
  step s
    | .call c now => if s.pc = .idle then some (s.call now c) else none
    | .go now =>
      match s.pc with
      | .idle => none
      | .process => some (s.hrtimerProcessLocked now)
      | .setNext => some (s.setNextTimeoutLocked srcRes eventRes now)

/-! ## Counts modulo the range of the counter -/

/-- The count is less than half the range after this base. -/
def Near (base cnt : UInt32) : Prop := (cnt - base).toNat < 2147483648

instance (base cnt : UInt32) : Decidable (Near base cnt) :=
  inferInstanceAs (Decidable (_ < _))

/-- Near a base, counts are compared by their distances from it. -/
theorem cntBefore_iff {base a b : UInt32} (ha : Near base a) (hb : Near base b) :
    cntBefore a b = true ↔ (a - base).toNat < (b - base).toNat := by
  unfold Near at ha hb
  unfold cntBefore
  have hasize := a.toNat_lt
  have hbsize := b.toNat_lt
  have hbasesize := base.toNat_lt
  rw [decide_eq_true_iff]
  simp only [UInt32.toNat_sub] at *
  omega

theorem cntBefore_eq_false_iff {base a b : UInt32} (ha : Near base a) (hb : Near base b) :
    cntBefore a b = false ↔ (b - base).toNat ≤ (a - base).toNat := by
  rw [← Nat.not_lt, ← cntBefore_iff ha hb, Bool.not_eq_true]

/-! ## The list -/

/-- No deadline is before one that stands in front of it. -/
def InOrder {τ : Type*} (timeoutCnt : τ → UInt32) (l : List τ) : Prop :=
  l.Pairwise fun a b => cntBefore (timeoutCnt b) (timeoutCnt a) = false

/-- `_timer_list` is in order and has exactly the active timers. -/
structure HrtimerState.Ordered {τ : Type*} (s : HrtimerState τ) : Prop where
  nodup : s.timerList.Nodup
  mem : ∀ t, t ∈ s.timerList ↔ s.activated t = true
  inOrder : InOrder s.timeoutCnt s.timerList

/-- The deadlines of the linked timers are near a base. -/
def HrtimerState.NearAll {τ : Type*} (s : HrtimerState τ) (base : UInt32) : Prop :=
  ∀ t ∈ s.timerList, Near base (s.timeoutCnt t)

instance {τ : Type*} (s : HrtimerState τ) (base : UInt32) : Decidable (s.NearAll base) :=
  inferInstanceAs (Decidable (∀ t ∈ s.timerList, Near base (s.timeoutCnt t)))

instance {τ : Type*} (timeoutCnt : τ → UInt32) (l : List τ) : Decidable (InOrder timeoutCnt l) :=
  inferInstanceAs (Decidable (l.Pairwise _))

section Lists

variable {τ : Type*} {s s' : HrtimerState τ} {t u : τ} {l : List τ} {base now cnt : UInt32}

/-- Only the deadlines of linked timers matter. -/
theorem InOrder.congr {timeoutCnt timeoutCnt' : τ → UInt32} (h : InOrder timeoutCnt l)
    (hsame : ∀ u ∈ l, timeoutCnt' u = timeoutCnt u) : InOrder timeoutCnt' l := by
  refine List.Pairwise.imp_of_mem ?_ h
  intro a b ha hb hab
  rw [hsame a ha, hsame b hb]
  exact hab

/-- The first deadline is no later than the others. -/
theorem InOrder.head {timeoutCnt : τ → UInt32} (h : InOrder timeoutCnt (t :: l))
    (hnear : ∀ u ∈ t :: l, Near base (timeoutCnt u)) (hu : u ∈ t :: l) :
    (timeoutCnt t - base).toNat ≤ (timeoutCnt u - base).toNat := by
  rcases List.mem_cons.mp hu with rfl | hmem
  · exact Nat.le_refl _
  · have hbefore := (List.pairwise_cons.mp h).1 u hmem
    exact (cntBefore_eq_false_iff (hnear u hu) (hnear t List.mem_cons_self)).mp hbefore

theorem HrtimerState.Ordered.out (h : s.Ordered) (hidle : s.activated t = false) :
    t ∉ s.timerList := by
  intro hmem
  exact absurd (hidle.symm.trans ((h.mem t).mp hmem)) Bool.noConfusion

variable [DecidableEq τ]

omit [DecidableEq τ] in
/-- A timer put before the first one with a later deadline. -/
theorem InOrder.insert {timeoutCnt : τ → UInt32} (h : InOrder timeoutCnt l)
    (hnear : ∀ u ∈ t :: l, Near base (timeoutCnt u)) :
    InOrder timeoutCnt
      (l.orderedInsert (fun a b => cntBefore (timeoutCnt a) (timeoutCnt b)) t) := by
  induction l with
  | nil => exact List.pairwise_singleton _ t
  | cons n rest ih =>
    have ht : Near base (timeoutCnt t) := hnear t List.mem_cons_self
    have hnext : ∀ u ∈ n :: rest, Near base (timeoutCnt u) :=
      fun u hu => hnear u (List.mem_cons_of_mem t hu)
    obtain ⟨hfirst, hrest⟩ := List.pairwise_cons.mp h
    rw [List.orderedInsert_cons]
    by_cases hbefore : cntBefore (timeoutCnt t) (timeoutCnt n) = true
    · rw [if_pos hbefore]
      refine List.pairwise_cons.mpr ⟨fun u hu => ?_, h⟩
      have hlt := (cntBefore_iff ht (hnext n List.mem_cons_self)).mp hbefore
      have hle := InOrder.head h hnext hu
      exact (cntBefore_eq_false_iff (hnext u hu) ht).mpr (by omega)
    · rw [if_neg hbefore]
      refine List.pairwise_cons.mpr ⟨fun u hu => ?_, ih hrest fun u hu => ?_⟩
      · rcases (List.mem_orderedInsert _).mp hu with rfl | hmem
        · exact Bool.eq_false_iff.mpr hbefore
        · exact hfirst u hmem
      · rcases List.mem_cons.mp hu with rfl | hmem
        · exact ht
        · exact hnext u (List.mem_cons_of_mem n hmem)

theorem HrtimerState.mem_insertTimer :
    u ∈ (s.insertTimer t).timerList ↔ u = t ∨ u ∈ s.timerList := List.mem_orderedInsert _

/-- Linking a timer that is not linked. -/
theorem HrtimerState.Ordered.insertTimer (h : s.Ordered) (hidle : s.activated t = false)
    (hnear : (s.insertTimer t).NearAll base) : (s.insertTimer t).Ordered where
  nodup := by
    have hperm := List.perm_orderedInsert
      (fun a b => cntBefore (s.timeoutCnt a) (s.timeoutCnt b)) t s.timerList
    exact hperm.nodup_iff.mpr (List.nodup_cons.mpr ⟨h.out hidle, h.nodup⟩)
  mem u := by
    rw [HrtimerState.mem_insertTimer]
    show _ ↔ Function.update s.activated t true u = true
    by_cases hu : u = t
    · rw [hu, Function.update_self]
      exact iff_of_true (.inl rfl) rfl
    · rw [Function.update_of_ne hu, h.mem]
      exact or_iff_right hu
  inOrder := by
    have hall : ∀ u ∈ t :: s.timerList, Near base (s.timeoutCnt u) :=
      fun u hu => hnear u (HrtimerState.mem_insertTimer.mpr (List.mem_cons.mp hu))
    exact InOrder.insert h.inOrder hall

/-- Taking a timer off the list and clearing its flag. -/
theorem HrtimerState.Ordered.erase (h : s.Ordered) (t : τ) :
    HrtimerState.Ordered { s with
      timerList := s.timerList.erase t, activated := Function.update s.activated t false } where
  nodup := h.nodup.erase t
  mem u := by
    show u ∈ s.timerList.erase t ↔ Function.update s.activated t false u = true
    rw [h.nodup.mem_erase_iff]
    by_cases hu : u = t
    · rw [hu, Function.update_self]
      exact iff_of_false (fun hne => hne.1 rfl) Bool.noConfusion
    · rw [Function.update_of_ne hu, h.mem]
      exact and_iff_right hu
  inOrder := List.Pairwise.sublist List.erase_sublist h.inOrder

/-- Another deadline for a timer that is not linked. -/
theorem HrtimerState.Ordered.setDeadline (h : s.Ordered) (hidle : s.activated t = false) :
    (s.setDeadline t cnt now).Ordered where
  nodup := h.nodup
  mem := h.mem
  inOrder := by
    refine h.inOrder.congr fun u hu => ?_
    have hne : u ≠ t := by
      rintro rfl
      exact h.out hidle hu
    exact Function.update_of_ne hne _ _

end Lists

/-! ## The steps -/

section Steps

variable {τ : Type*} [DecidableEq τ]

/-- A start or SET_TIME leaves the new deadline of an active timer in its place, and an active
timer is detached only if `error` says that its sleep has been interrupted. -/
def Harmless (s : HrtimerState τ) : HrtimerStep τ → Prop
  | .call (.start timer cnt) now | .call (.setTime timer cnt) now =>
    s.activated timer = true → InOrder (Function.update s.timeoutCnt timer (cnt + now)) s.timerList
  | .call (.detach timer) _ =>
    s.activated timer = true → s.error timer = -rtEIntr ∨ s.error timer = rtEIntr
  | _ => True

/-- The counter and the deadlines of the active timers stay within one stretch of half the range
of the counter. -/
def StaysClose (srcRes eventRes : UInt64) (s : HrtimerState τ) (a : HrtimerStep τ) : Prop :=
  ∀ s', (hrtimers srcRes eventRes).step s a = some s' →
    ∃ base, Near base a.now ∧ s.NearAll base ∧ s'.NearAll base

variable {srcRes eventRes : UInt64} {s s' : HrtimerState τ} {t u : τ} {a : HrtimerStep τ}
  {base now : UInt32}

/-- A timer that is due: the first of the list, and the counter is not before its deadline. -/
def Due (s : HrtimerState τ) (now : UInt32) (t : τ) : Prop :=
  s.timerList.head? = some t ∧ cntBefore now (s.timeoutCnt t) = false

/-- An iteration of `_hrtimer_process_locked`: the first timer is due, or none is. -/
theorem hrtimerProcessLocked_cases (h : s.Ordered) (hnow : Near base now) (hnear : s.NearAll base) :
    (∃ t, Due s now t ∧ s.hrtimerProcessLocked now = s.expire t now) ∨
      (s.hrtimerProcessLocked now = { s with pc := .setNext } ∧
        ∀ u ∈ s.timerList, cntBefore now (s.timeoutCnt u) = true) := by
  unfold HrtimerState.hrtimerProcessLocked
  cases hlist : s.timerList with
  | nil => exact .inr ⟨rfl, fun u hu => absurd hu List.not_mem_nil⟩
  | cons t rest =>
    cases hbefore : cntBefore now (s.timeoutCnt t) with
    | false =>
      refine .inl ⟨t, ⟨by rw [hlist]; rfl, hbefore⟩, ?_⟩
      simp only [hbefore, Bool.false_eq_true, if_false]
    | true =>
      refine .inr ⟨?_, fun u hu => ?_⟩
      · simp only [hbefore, if_true]
      · have horder := h.inOrder
        unfold HrtimerState.NearAll at hnear
        rw [hlist] at horder hnear
        have hle := InOrder.head horder hnear hu
        have hlt := (cntBefore_iff hnow (hnear t List.mem_cons_self)).mp hbefore
        exact (cntBefore_iff hnow (hnear u hu)).mpr (by omega)

/-- What the end of an iteration does with the timer that is due. -/
structure Expired (s s' : HrtimerState τ) (t : τ) : Prop where
  pc : s'.pc = s.pc
  ran : s'.ran = s.ran ++ if s.timeoutFunc t then [t] else []
  timeoutFunc : s'.timeoutFunc = s.timeoutFunc
  periodic : s'.periodic = s.periodic
  timeoutCnt : ∀ u, u ≠ t → s'.timeoutCnt u = s.timeoutCnt u
  mem : ∀ u, u ∈ s'.timerList ↔ u ∈ s.timerList ∧ (u = t → s.periodic t = true)

theorem expire_periodic (h : s.periodic t = true) :
    s.expire t now =
      { HrtimerState.insertTimer { s with
          timerList := s.timerList.erase t
          timeoutCnt := Function.update s.timeoutCnt t (s.delayCnt t + now) } t with
        ran := s.ran ++ if s.timeoutFunc t then [t] else [] } := by
  unfold HrtimerState.expire HrtimerState.insertTimer
  simp only [h, if_true]
  cases hfunc : s.timeoutFunc t with
  | true => rw [if_pos rfl, if_pos rfl]
  | false => simp only [Bool.false_eq_true, if_false, List.append_nil]

theorem expire_oneShot (h : s.periodic t = false) :
    s.expire t now =
      { s with
        timerList := s.timerList.erase t, activated := Function.update s.activated t false
        ran := s.ran ++ if s.timeoutFunc t then [t] else [] } := by
  unfold HrtimerState.expire
  simp only [h, Bool.false_eq_true, if_false]
  cases hfunc : s.timeoutFunc t with
  | true => rw [if_pos rfl, if_pos rfl]
  | false => simp only [Bool.false_eq_true, if_false, List.append_nil]

theorem expire_expired (h : s.Ordered) (ht : t ∈ s.timerList) : Expired s (s.expire t now) t := by
  have herase : ∀ u, u ∈ s.timerList.erase t ↔ u ≠ t ∧ u ∈ s.timerList :=
    fun u => h.nodup.mem_erase_iff
  cases hperiodic : s.periodic t with
  | true =>
    rw [expire_periodic hperiodic]
    refine ⟨rfl, rfl, rfl, rfl, fun u hu => Function.update_of_ne hu _ _, fun u => ?_⟩
    refine HrtimerState.mem_insertTimer.trans ?_
    show u = t ∨ u ∈ s.timerList.erase t ↔ _
    rw [herase, hperiodic]
    by_cases hu : u = t
    · rw [hu]
      exact iff_of_true (.inl rfl) ⟨ht, fun _ => rfl⟩
    · exact ⟨fun hin => ⟨(hin.resolve_left hu).2, fun _ => rfl⟩, fun hin => .inr ⟨hu, hin.1⟩⟩
  | false =>
    rw [expire_oneShot hperiodic]
    refine ⟨rfl, rfl, rfl, rfl, fun u _ => rfl, fun u => ?_⟩
    show u ∈ s.timerList.erase t ↔ _
    rw [herase, hperiodic]
    exact ⟨fun hin => ⟨hin.2, fun hu => absurd hu hin.1⟩,
      fun hin => ⟨fun hu => absurd (hin.2 hu) Bool.noConfusion, hin.1⟩⟩

theorem HrtimerState.Ordered.expire (h : s.Ordered) (hnear : (s.expire t now).NearAll base) :
    (s.expire t now).Ordered := by
  cases hperiodic : s.periodic t with
  | true =>
    rw [expire_periodic hperiodic] at hnear ⊢
    have hout : HrtimerState.Ordered { s with
        timerList := s.timerList.erase t, activated := Function.update s.activated t false } :=
      h.erase t
    have hmoved : HrtimerState.Ordered { s with
        timerList := s.timerList.erase t, activated := Function.update s.activated t false
        timeoutCnt := Function.update s.timeoutCnt t (s.delayCnt t + now) } := by
      refine ⟨hout.nodup, hout.mem, hout.inOrder.congr fun u hu => ?_⟩
      exact Function.update_of_ne (h.nodup.mem_erase_iff.mp hu).1 _ _
    have hlinked := hmoved.insertTimer (t := t) (Function.update_self t false s.activated) hnear
    refine ⟨hlinked.nodup, fun u => (hlinked.mem u).trans ?_, hlinked.inOrder⟩
    show Function.update (Function.update s.activated t false) t true u = true ↔
      Function.update s.activated t true u = true
    rw [Function.update_idem]
  | false =>
    rw [expire_oneShot hperiodic]
    have hout := h.erase t
    exact ⟨hout.nodup, hout.mem, hout.inOrder⟩

/-- Every step that is harmless keeps the list in order. -/
theorem HrtimerState.Ordered.call (h : s.Ordered) (c : HrtimerCall τ)
    (hharmless : Harmless s (.call c now)) (hnear : (s.call now c).NearAll base) :
    (s.call now c).Ordered := by
  cases c with
  | start t cnt =>
    have hstart : s.call now (.start t cnt) = s.rtClockHrtimerStart t cnt now := rfl
    rw [hstart] at hnear ⊢
    unfold HrtimerState.rtClockHrtimerStart at hnear ⊢
    cases hactive : s.activated t with
    | true =>
      have hset : (s.setDeadline t cnt now).activated t = true := hactive
      rw [if_pos hset] at hnear ⊢
      exact ⟨h.nodup, h.mem, hharmless hactive⟩
    | false =>
      have hset : (s.setDeadline t cnt now).activated t = false := hactive
      have hidle : ¬(s.setDeadline t cnt now).activated t = true := Bool.eq_false_iff.mp hset
      rw [if_neg hidle] at hnear ⊢
      have hdeadline : (s.setDeadline t cnt now).Ordered := h.setDeadline hactive
      have hlinked := hdeadline.insertTimer hset hnear
      exact ⟨hlinked.nodup, hlinked.mem, hlinked.inOrder⟩
  | stop t =>
    show HrtimerState.Ordered (s.rtClockHrtimerStop t)
    unfold HrtimerState.rtClockHrtimerStop
    split
    · have hout := h.erase t
      exact ⟨hout.nodup, hout.mem, hout.inOrder⟩
    · exact h
  | setTime t cnt =>
    cases hactive : s.activated t with
    | true => exact ⟨h.nodup, h.mem, hharmless hactive⟩
    | false => exact h.setDeadline hactive
  | setPeriodic t periodic => exact ⟨h.nodup, h.mem, h.inOrder⟩
  | keepErrno t err => exact ⟨h.nodup, h.mem, h.inOrder⟩
  | detach t =>
    have hout := h.erase t
    show HrtimerState.Ordered (s.rtClockHrtimerDetach t)
    unfold HrtimerState.rtClockHrtimerDetach
    dsimp only
    split
    next => exact ⟨hout.nodup, hout.mem, hout.inOrder⟩
    next herror =>
      have hidle : s.activated t = false := by
        refine Bool.eq_false_iff.mpr fun hactive => herror (hharmless hactive)
      have hsame : s.timerList.erase t = s.timerList := List.erase_of_not_mem (h.out hidle)
      rw [hsame] at hout
      exact ⟨hout.nodup, hout.mem, hout.inOrder⟩
  | process => exact ⟨h.nodup, h.mem, h.inOrder⟩

theorem HrtimerState.Ordered.step (h : s.Ordered) (hharmless : Harmless s a)
    (hnear : StaysClose srcRes eventRes s a)
    (hstep : (hrtimers srcRes eventRes).step s a = some s') : s'.Ordered := by
  obtain ⟨base, hnow, hbefore, hafter⟩ := hnear s' hstep
  cases a with
  | call c now =>
    simp only [hrtimers] at hstep
    split at hstep
    · obtain rfl := Option.some.inj hstep
      exact h.call c hharmless hafter
    · cases hstep
  | go now =>
    simp only [hrtimers] at hstep
    split at hstep
    · cases hstep
    · obtain rfl := Option.some.inj hstep
      have hreads : Near base now := hnow
      rcases hrtimerProcessLocked_cases h hreads hbefore with ⟨t, -, heq⟩ | ⟨heq, -⟩
      · rw [heq] at hafter ⊢
        exact h.expire hafter
      · rw [heq]
        exact ⟨h.nodup, h.mem, h.inOrder⟩
    · obtain rfl := Option.some.inj hstep
      have hkept : HrtimerState.Ordered (s.setNextTimeoutLocked srcRes eventRes now) := by
        unfold HrtimerState.setNextTimeoutLocked
        split
        · exact ⟨h.nodup, h.mem, h.inOrder⟩
        · simp only
          split
          · exact ⟨h.nodup, h.mem, h.inOrder⟩
          · exact ⟨h.nodup, h.mem, h.inOrder⟩
      exact hkept

end Steps

/-! ## Runs of `_hrtimer_process_locked` -/

section Process

variable {τ : Type*} [DecidableEq τ] {srcRes eventRes : UInt64} {s s' : HrtimerState τ} {t : τ}

/-- A step that is harmless, with the counter and the deadlines near one base. -/
def HrtimerOk (srcRes eventRes : UInt64) (s : HrtimerState τ) (a : HrtimerStep τ) : Prop :=
  Harmless s a ∧ StaysClose srcRes eventRes s a

/-- Iterations of `_hrtimer_process_locked` up to its end, the last with the reading `last`: the
timers in `events` have been due, in this order.  Each that is due at the end is one of them. -/
structure Processed (s s' : HrtimerState τ) (readings : List UInt32) (last : UInt32)
    (events : List τ) : Prop where
  ran : s'.ran = s.ran ++ events.filter s.timeoutFunc
  linked : ∀ t ∈ events, t ∈ s.timerList
  wasDue : ∀ t ∈ events, ∃ now ∈ readings, cntBefore now (s.timeoutCnt t) = false
  due : ∀ t ∈ s.timerList, cntBefore last (s.timeoutCnt t) = false → t ∈ events
  kept : ∀ t ∈ s.timerList, t ∉ events → t ∈ s'.timerList ∧ s'.timeoutCnt t = s.timeoutCnt t
  once : ∀ t, s.periodic t = false → events.count t ≤ 1 ∧ (t ∈ events → t ∉ s'.timerList)
  shrinks : ∀ t ∈ s'.timerList, t ∈ s.timerList
  left : ∀ t ∈ s'.timerList, cntBefore last (s'.timeoutCnt t) = true

theorem processed_nil {last : UInt32}
    (hnone : ∀ t ∈ s.timerList, cntBefore last (s.timeoutCnt t) = true) :
    Processed s { s with pc := .setNext } [] last [] where
  ran := (List.append_nil _).symm
  linked _ ht := absurd ht List.not_mem_nil
  wasDue _ ht := absurd ht List.not_mem_nil
  due t ht hdue := absurd (hdue.symm.trans (hnone t ht)) Bool.noConfusion
  kept _ ht _ := ⟨ht, rfl⟩
  once _ _ := ⟨Nat.zero_le 1, fun ht => absurd ht List.not_mem_nil⟩
  shrinks _ ht := ht
  left := hnone

/-- One timer is due, before the others. -/
theorem Processed.cons {mid : HrtimerState τ} {readings : List UInt32} {now last : UInt32}
    {events : List τ} (h : Processed mid s' readings last events) (hdue : Due s now t)
    (hexpired : Expired s mid t) : Processed s s' (now :: readings) last (t :: events) := by
  have hhead : t ∈ s.timerList := List.mem_of_mem_head? hdue.1
  have hback : ∀ u ∈ mid.timerList, u ∈ s.timerList := fun u hu => ((hexpired.mem u).mp hu).1
  have hforth : ∀ u ∈ s.timerList, u ≠ t → u ∈ mid.timerList :=
    fun u hu hne => (hexpired.mem u).mpr ⟨hu, fun heq => absurd heq hne⟩
  refine ⟨?_, fun u hu => ?_, fun u hu => ?_, fun u hu hlast => ?_, fun u hu hout => ?_,
    fun u hu => ?_, fun u hu => hback u (h.shrinks u hu), h.left⟩
  · rw [h.ran, hexpired.ran, hexpired.timeoutFunc, List.filter_cons, List.append_assoc]
    split
    · rfl
    · rfl
  · rcases List.mem_cons.mp hu with rfl | hmem
    · exact hhead
    · exact hback u (h.linked u hmem)
  · by_cases heq : u = t
    · rw [heq]
      exact ⟨now, List.mem_cons_self, hdue.2⟩
    · obtain ⟨reading, hin, hwas⟩ := h.wasDue u ((List.mem_cons.mp hu).resolve_left heq)
      rw [hexpired.timeoutCnt u heq] at hwas
      exact ⟨reading, List.mem_cons_of_mem now hin, hwas⟩
  · by_cases heq : u = t
    · rw [heq]
      exact List.mem_cons_self
    · rw [← hexpired.timeoutCnt u heq] at hlast
      exact List.mem_cons_of_mem t (h.due u (hforth u hu heq) hlast)
  · obtain ⟨hne, hout⟩ := not_or.mp (mt List.mem_cons.mpr hout)
    obtain ⟨hin, hsame⟩ := h.kept u (hforth u hu hne) hout
    exact ⟨hin, hsame.trans (hexpired.timeoutCnt u hne)⟩
  · have hmid : mid.periodic u = false := by rw [hexpired.periodic, hu]
    obtain ⟨hcount, hgone⟩ := h.once u hmid
    by_cases heq : u = t
    · subst heq
      have hunlinked : u ∉ mid.timerList := fun hin =>
        absurd (hu.symm.trans (((hexpired.mem u).mp hin).2 rfl)) Bool.noConfusion
      have hnever : u ∉ events := fun hin => hunlinked (h.linked u hin)
      refine ⟨?_, fun _ hin => hunlinked (h.shrinks u hin)⟩
      rw [List.count_cons_self, List.count_eq_zero_of_not_mem hnever]
    · refine ⟨?_, fun hin => hgone ((List.mem_cons.mp hin).resolve_left heq)⟩
      rw [List.count_cons_of_ne (Ne.symm heq)]
      exact hcount

theorem process_step {mid : HrtimerState τ} {now : UInt32} (h : s.Ordered)
    (hok : HrtimerOk srcRes eventRes s (.go now)) (hpc : s.pc = .process)
    (hstep : (hrtimers srcRes eventRes).step s (.go now) = some mid) :
    (∃ t, Due s now t ∧ Expired s mid t ∧ mid.Ordered) ∨
      mid = { s with pc := .setNext } ∧
        ∀ u ∈ s.timerList, cntBefore now (s.timeoutCnt u) = true := by
  have hordered := h.step hok.1 hok.2 hstep
  obtain ⟨base, hnow, hbefore, -⟩ := hok.2 mid hstep
  have hreads : Near base now := hnow
  simp only [hrtimers, hpc] at hstep
  obtain rfl := Option.some.inj hstep
  rcases hrtimerProcessLocked_cases h hreads hbefore with ⟨t, hdue, heq⟩ | ⟨heq, hnone⟩
  · have hexpired : Expired s (s.expire t now) t := expire_expired h (List.mem_of_mem_head? hdue.1)
    rw [heq] at hordered ⊢
    exact .inl ⟨t, hdue, hexpired, hordered⟩
  · exact .inr ⟨heq, hnone⟩

/-- The iterations of `_hrtimer_process_locked`, from the first to the last. -/
theorem hrtimerProcessLocked_run {readings : List UInt32} {last : UInt32} (h : s.Ordered)
    (run : (hrtimers srcRes eventRes).Run
      (fun s a => HrtimerOk srcRes eventRes s a ∧ s.pc = .process) s
      ((readings ++ [last]).map .go) s') (hend : s'.pc = .setNext) :
    ∃ events, Processed s s' readings last events := by
  induction readings generalizing s with
  | nil =>
    cases run with
    | cons hok hstep htail =>
      cases htail with
      | nil =>
        rcases process_step h hok.1 hok.2 hstep with ⟨t, -, hexpired, -⟩ | ⟨heq, hnone⟩
        · have hstill : s'.pc = .process := hexpired.pc.trans hok.2
          exact absurd (hend.symm.trans hstill) HrtimerPc.noConfusion
        · rw [heq]
          exact ⟨[], processed_nil hnone⟩
  | cons now readings ih =>
    cases run with
    | cons hok hstep htail =>
      rcases process_step h hok.1 hok.2 hstep with ⟨t, hdue, hexpired, hmid⟩ | ⟨heq, -⟩
      · obtain ⟨events, hprocessed⟩ := ih hmid htail
        exact ⟨t :: events, hprocessed.cons hdue hexpired⟩
      · -- the loop has ended, but there is another iteration
        rw [heq] at htail
        cases readings with
        | nil =>
          cases htail with
          | cons hnext _ _ => exact absurd hnext.2 HrtimerPc.noConfusion
        | cons _ _ =>
          cases htail with
          | cons hnext _ _ => exact absurd hnext.2 HrtimerPc.noConfusion

end Process

/-! ## Every run -/

section Runs

variable {τ : Type*} [DecidableEq τ] {srcRes eventRes : UInt64}

omit [DecidableEq τ] in
theorem ordered_init (periodic timeoutFunc : τ → Bool) :
    (HrtimerState.init periodic timeoutFunc).Ordered where
  nodup := List.nodup_nil
  mem _ := iff_of_false List.not_mem_nil Bool.noConfusion
  inOrder := List.Pairwise.nil

/-- A detached timer is not linked. -/
theorem HrtimerState.Ordered.detach {s : HrtimerState τ} {t : τ} {now : UInt32} (h : s.Ordered)
    (hharmless : Harmless s (.call (.detach t) now)) : t ∉ (s.call now (.detach t)).timerList := by
  show t ∉ (s.rtClockHrtimerDetach t).timerList
  unfold HrtimerState.rtClockHrtimerDetach
  dsimp only
  split
  next => exact fun hin => (h.nodup.mem_erase_iff.mp hin).1 rfl
  next herror =>
    refine h.out (Bool.eq_false_iff.mpr fun hactive => herror (hharmless hactive))

/-- Only a start links a timer. -/
theorem HrtimerState.Ordered.unlinked {s s' : HrtimerState τ} {t : τ} {a : HrtimerStep τ}
    (h : s.Ordered) (hok : HrtimerOk srcRes eventRes s a)
    (hstep : (hrtimers srcRes eventRes).step s a = some s') (hout : t ∉ s.timerList)
    (hother : ∀ cnt now, a ≠ .call (.start t cnt) now) : t ∉ s'.timerList := by
  have hpc : ∀ now, a = .go now → s.pc = .process → t ∉ s'.timerList := by
    rintro now rfl hpc
    rcases process_step h hok hpc hstep with ⟨u, -, hexpired, -⟩ | ⟨rfl, -⟩
    · exact fun hin => hout ((hexpired.mem t).mp hin).1
    · exact hout
  cases a with
  | go now =>
    cases hcase : s.pc with
    | idle =>
      simp only [hrtimers, hcase] at hstep
      cases hstep
    | process => exact hpc now rfl hcase
    | setNext =>
      simp only [hrtimers, hcase] at hstep
      obtain rfl := Option.some.inj hstep
      have hsame : (s.setNextTimeoutLocked srcRes eventRes now).timerList = s.timerList := by
        unfold HrtimerState.setNextTimeoutLocked
        split
        next => rfl
        next =>
          dsimp only
          split
          · rfl
          · rfl
      rw [hsame]
      exact hout
  | call c now =>
    simp only [hrtimers] at hstep
    split at hstep
    next =>
      obtain rfl := Option.some.inj hstep
      cases c with
      | start u cnt =>
        have hne : t ≠ u := by
          rintro rfl
          exact hother cnt now rfl
        show t ∉ (s.rtClockHrtimerStart u cnt now).timerList
        unfold HrtimerState.rtClockHrtimerStart
        dsimp only
        split
        · exact hout
        · exact fun hin => (HrtimerState.mem_insertTimer.mp hin).elim hne hout
      | stop u =>
        show t ∉ (s.rtClockHrtimerStop u).timerList
        unfold HrtimerState.rtClockHrtimerStop
        split
        · exact fun hin => hout (List.mem_of_mem_erase hin)
        · exact hout
      | setTime u cnt => exact hout
      | setPeriodic u periodic => exact hout
      | keepErrno u err => exact hout
      | detach u =>
        show t ∉ (s.rtClockHrtimerDetach u).timerList
        unfold HrtimerState.rtClockHrtimerDetach
        dsimp only
        split
        · exact fun hin => hout (List.mem_of_mem_erase hin)
        · exact hout
      | process => exact hout
    next => cases hstep

/-- In every run whose calls are harmless and whose deadlines stay near the counter:
`_timer_list` is in order and has exactly the active timers, each run of
`_hrtimer_process_locked` calls exactly the timers that are due, no detached timer is linked, and
none that is not linked becomes so until it is started. -/
theorem hrtimers_run {periodic timeoutFunc : τ → Bool} {actions : List (HrtimerStep τ)}
    {s : HrtimerState τ}
    (run : (hrtimers srcRes eventRes).Run (HrtimerOk srcRes eventRes)
      (HrtimerState.init periodic timeoutFunc) actions s) :
    s.Ordered ∧
      (∀ readings last s', (hrtimers srcRes eventRes).Run
        (fun s a => HrtimerOk srcRes eventRes s a ∧ s.pc = .process) s
        ((readings ++ [last]).map .go) s' → s'.pc = .setNext →
        ∃ events, Processed s s' readings last events) ∧
      ∀ a s', HrtimerOk srcRes eventRes s a → (hrtimers srcRes eventRes).step s a = some s' →
        ∀ t, (∃ now, a = .call (.detach t) now) ∨
            t ∉ s.timerList ∧ (∀ cnt now, a ≠ .call (.start t cnt) now) →
          t ∉ s'.timerList := by
  have hordered : s.Ordered :=
    run.invariant (fun _ _ _ hok hstep h => h.step hok.1 hok.2 hstep)
      (ordered_init periodic timeoutFunc)
  refine ⟨hordered, fun readings last s' hprocess hend =>
    hrtimerProcessLocked_run hordered hprocess hend, fun a s' hok hstep t ht => ?_⟩
  rcases ht with ⟨now, rfl⟩ | ⟨hout, hother⟩
  · simp only [hrtimers] at hstep
    split at hstep
    · obtain rfl := Option.some.inj hstep
      exact hordered.detach hok.1
    · cases hstep
  · exact hordered.unlinked hok hstep hout hother

theorem staysClose_of_base {s s' : HrtimerState τ} {a : HrtimerStep τ} (base : UInt32)
    (hstep : (hrtimers srcRes eventRes).step s a = some s') (hnow : Near base a.now)
    (hbefore : s.NearAll base) (hafter : s'.NearAll base) : StaysClose srcRes eventRes s a := by
  intro next hnext
  obtain rfl : s' = next := Option.some.inj (hstep.symm.trans hnext)
  exact ⟨base, hnow, hbefore, hafter⟩

/-- A periodic and a one-shot timer across the end of the counter's range. -/
theorem hrtimers_run_wrap :
    ∃ s : HrtimerState (Fin 2),
      (hrtimers 1 1).Run (HrtimerOk 1 1) (.init (fun t => t = 0) fun _ => true)
        [.call (.start 0 10) 4294967290, .go 4294967290, .call (.start 1 20) 4294967290,
          .go 4294967290, .call .process 5, .go 5] s ∧
      s.ran = [0] ∧ s.Ordered := by
  have hrun : ∃ s : HrtimerState (Fin 2),
      (hrtimers 1 1).Run (HrtimerOk 1 1) (.init (fun t => t = 0) fun _ => true)
        [.call (.start 0 10) 4294967290, .go 4294967290, .call (.start 1 20) 4294967290,
          .go 4294967290, .call .process 5, .go 5] s ∧ s.ran = [0] := by
    refine ⟨_, .cons ⟨?_, ?_⟩ rfl (.cons ⟨?_, ?_⟩ rfl (.cons ⟨?_, ?_⟩ rfl (.cons ⟨?_, ?_⟩ rfl
      (.cons ⟨?_, ?_⟩ rfl (.cons ⟨?_, ?_⟩ rfl (.nil _)))))), ?_⟩
    -- start and go, start and go
    · exact fun hactive => absurd hactive (by decide)
    · exact staysClose_of_base 4294967290 rfl (by decide) (by decide) (by decide)
    · trivial
    · exact staysClose_of_base 4294967290 rfl (by decide) (by decide) (by decide)
    · exact fun hactive => absurd hactive (by decide)
    · exact staysClose_of_base 4294967290 rfl (by decide) (by decide) (by decide)
    · trivial
    · exact staysClose_of_base 4294967290 rfl (by decide) (by decide) (by decide)
    -- process, with the first timer due
    · trivial
    · exact staysClose_of_base 4294967290 rfl (by decide) (by decide) (by decide)
    · trivial
    · exact staysClose_of_base 4294967290 rfl (by decide) (by decide) (by decide)
    · rfl
  obtain ⟨s, run, hran⟩ := hrun
  exact ⟨s, run, hran, (hrtimers_run run).1⟩

/-- A start and a SET_TIME of an active timer leave the list out of order, and a detached timer
stays linked, with all deadlines near the counter. -/
theorem not_hrtimers_run :
    (∃ s : HrtimerState (Fin 2),
      (hrtimers 1 1).Run (StaysClose 1 1) (.init (fun _ => false) fun _ => true)
        [.call (.start 0 10) 0, .go 0, .call (.start 1 20) 0, .go 0, .call (.start 0 30) 0] s ∧
      ¬s.Ordered) ∧
    (∃ s : HrtimerState (Fin 2),
      (hrtimers 1 1).Run (StaysClose 1 1) (.init (fun _ => false) fun _ => true)
        [.call (.start 0 10) 0, .go 0, .call (.start 1 20) 0, .go 0, .call (.setTime 0 30) 0] s ∧
      ¬s.Ordered) ∧
    ∃ s : HrtimerState (Fin 2),
      (hrtimers 1 1).Run (StaysClose 1 1) (.init (fun _ => false) fun _ => true)
        [.call (.start 0 10) 0, .go 0, .call (.detach 0) 0] s ∧
      0 ∈ s.timerList := by
  refine ⟨⟨_, .cons ?_ rfl (.cons ?_ rfl (.cons ?_ rfl (.cons ?_ rfl (.cons ?_ rfl (.nil _))))), ?_⟩,
    ⟨_, .cons ?_ rfl (.cons ?_ rfl (.cons ?_ rfl (.cons ?_ rfl (.cons ?_ rfl (.nil _))))), ?_⟩,
    ⟨_, .cons ?_ rfl (.cons ?_ rfl (.cons ?_ rfl (.nil _))), ?_⟩⟩
  any_goals exact staysClose_of_base 0 rfl (by decide) (by decide) (by decide)
  · exact fun h => absurd h.inOrder (by decide)
  · exact fun h => absurd h.inOrder (by decide)
  · decide

end Runs

end Gd32Vw553h.Kernel
