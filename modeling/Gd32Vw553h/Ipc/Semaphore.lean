/-
  Ipc/Semaphore.lean --- semaphores (`_rt_sem_take` and `rt_sem_release` of
  `rt-thread/src/ipc.c`).

  A release increments the value, or hands the unit to the first waiter.  A timer that runs out
  is taken off the timer list by `_timer_check`, which calls `_thread_timeout` later, and a
  release may come in between.  `rt_susp_list_dequeue` fails then, which `rt_sem_release` does
  not look at: the unit is gone.

  `semaphore_balanced` says that this is the only way in which a unit is lost.
-/
import Gd32Vw553h.Foundation.Runs
import Gd32Vw553h.Ipc.SuspList
import Mathlib.Data.Finset.Card

set_option autoImplicit false

namespace Gd32Vw553h.Ipc

open Gd32Vw553h.Foundation Gd32Vw553h.Klibc

/-! ## The code -/

/-- A semaphore and the threads that use it. -/
structure SemState (τ : Type*) where
  susp : SuspState τ Unit
  flag : IpcFlag
  value : Nat
  maxValue : Nat
  /-- `_timer_check` is still to call `_thread_timeout` for the thread -/
  fired : τ → Bool
  /-- the thread has been suspended in an `rt_sem_take` -/
  taking : τ → Bool
  /-- the releases that have returned `RT_EOK` -/
  released : Nat
  /-- the takes that have returned `RT_EOK` -/
  taken : Nat

/-- What threads, interrupt handlers and timers do. -/
inductive SemStep (τ : Type*) where
  /-- `rt_sem_take`, up to its return or its `rt_schedule` -/
  | take (thread : τ) (timeout : Int)
  /-- the end of an `rt_sem_take` after its `rt_schedule` -/
  | wake (thread : τ)
  /-- `rt_sem_release` -/
  | release
  /-- `_timer_check` takes the timer of a thread -/
  | fire (thread : τ)
  /-- it calls `_thread_timeout` -/
  | timeout (thread : τ)

namespace SemState

variable {τ : Type*}

def init (flag : IpcFlag) (currentPriority : τ → Nat) (value maxValue : Nat) : SemState τ where
  susp := {
    suspendThread := fun _ => []
    currentPriority := currentPriority
    suspended := fun _ => false
    error := fun _ => 0
    ttmrSet := fun _ => false
    timerActivated := fun _ => false }
  flag := flag
  value := value
  maxValue := maxValue
  fired _ := false
  taking _ := false
  released := 0
  taken := 0

/-- The threads that wait. -/
def waiters (s : SemState τ) : List τ := s.susp.suspendThread ()

section Code

variable [DecidableEq τ]

/-- `rt_sem_take` of a thread, up to its return or its `rt_schedule`. -/
def rtSemTake (s : SemState τ) (thread : τ) (timeout : Int) : SemState τ :=
  if s.value > 0 then { s with value := s.value - 1, taken := s.taken + 1 }
  else if timeout = 0 then s
  else
    let susp := { s.susp with error := Function.update s.susp.error thread rtEIntr }
    { s with
      susp := (susp.rtThreadSuspendToList thread () s.flag).startTimer thread timeout
      taking := Function.update s.taking thread true }

/-- The end of `rt_sem_take` of a thread that has been made ready. -/
def rtSemTakeEnd (s : SemState τ) (thread : τ) : SemState τ :=
  let s := { s with taking := Function.update s.taking thread false }
  if s.susp.error thread ≠ 0 then s else { s with taken := s.taken + 1 }

/-- `rt_sem_release` -/
def rtSemRelease (s : SemState τ) : SemState τ :=
  if s.waiters ≠ [] then
    { s with susp := (s.susp.rtSuspListDequeue () 0).2, released := s.released + 1 }
  else if s.value < s.maxValue then { s with value := s.value + 1, released := s.released + 1 }
  else s

def machine : Machine (SemState τ) (SemStep τ) where
  step s
    | .take thread timeout =>
        if s.susp.suspended thread = false ∧ s.taking thread = false then
          some (s.rtSemTake thread timeout)
        else none
    | .wake thread =>
        if s.susp.suspended thread = false ∧ s.taking thread = true then
          some (s.rtSemTakeEnd thread)
        else none
    | .release => some s.rtSemRelease
    | .fire thread =>
        if s.susp.timerActivated thread then
          some { s with
            susp := s.susp.takeTimer thread, fired := Function.update s.fired thread true }
        else none
    | .timeout thread =>
        if s.fired thread then
          some { s with
            susp := s.susp.threadTimeout thread, fired := Function.update s.fired thread false }
        else none

end Code

/-! ## What semaphores promise -/

/-- The thread has been given a unit, and its `rt_sem_take` is about to return `RT_EOK`. -/
def Granted (s : SemState τ) (t : τ) : Prop :=
  s.taking t = true ∧ s.susp.suspended t = false ∧ s.susp.error t = 0

/-- No unit is lost or made, and none is left over while a thread waits. -/
structure Balanced (s : SemState τ) (initial : Nat) : Prop where
  conserved : ∃ granted : Finset τ, (∀ t, t ∈ granted ↔ s.Granted t) ∧
    initial + s.released = s.value + s.taken + granted.card
  bounded : s.value ≤ s.maxValue
  waiting : s.waiters ≠ [] → s.value = 0

/-- A release gives its unit to the first waiter. -/
def HandsOver [DecidableEq τ] (s : SemState τ) : Prop :=
  ∀ t rest, s.waiters = t :: rest → s.rtSemRelease.Granted t

/-- A release finds no waiter, or one whose timer has not been taken. -/
def InTime (s : SemState τ) : SemStep τ → Prop
  | .release => ∀ t rest, s.waiters = t :: rest → s.fired t = false
  | _ => True

/-! ## The invariant -/

section Invariant

variable {s next : SemState τ} {t : τ} {initial : Nat}

/-- What every step keeps. -/
structure Kept (s : SemState τ) (initial : Nat) : Prop extends Balanced s initial where
  sound : s.susp.Sound
  timed : s.susp.Timed s.fired
  taking : ∀ t, s.susp.suspended t = true → t ∈ s.waiters ∧ s.taking t = true

theorem kept_init (flag : IpcFlag) (currentPriority : τ → Nat) {value maxValue : Nat}
    (hvalue : value ≤ maxValue) : (init flag currentPriority value maxValue).Kept value where
  conserved := ⟨∅, fun t => iff_of_false (Finset.notMem_empty t)
    fun h => Bool.false_ne_true h.1, rfl⟩
  bounded := hvalue
  waiting h := absurd rfl h
  sound := ⟨fun _ => List.nodup_nil, fun _ _ _ ht => absurd ht List.not_mem_nil,
    fun _ _ ht => absurd ht List.not_mem_nil⟩
  timed := ⟨fun _ ht => absurd ht Bool.false_ne_true, fun _ ht => absurd ht Bool.false_ne_true,
    fun _ ht => absurd ht Bool.false_ne_true⟩
  taking _ ht := absurd ht Bool.false_ne_true

/-- The threads that have a unit stay the same. -/
theorem conserved_congr {granted : Finset τ} (hgranted : ∀ t, t ∈ granted ↔ s.Granted t)
    (hsame : ∀ t, next.Granted t ↔ s.Granted t)
    (hsum : initial + next.released = next.value + next.taken + granted.card) :
    ∃ granted : Finset τ, (∀ t, t ∈ granted ↔ next.Granted t) ∧
      initial + next.released = next.value + next.taken + granted.card :=
  ⟨granted, fun t => (hgranted t).trans (hsame t).symm, hsum⟩

/-- A thread that is not in a call has not been given a unit. -/
theorem not_granted (htaking : s.taking t = false) : ¬ s.Granted t := fun h =>
  Bool.false_ne_true (htaking.symm.trans h.1)

variable [DecidableEq τ]

theorem Kept.rtSemTake (h : s.Kept initial) (hrun : s.susp.suspended t = false)
    (hout : s.taking t = false) (timeout : Int) : (s.rtSemTake t timeout).Kept initial := by
  obtain ⟨granted, hgranted, hsum⟩ := h.conserved
  unfold SemState.rtSemTake
  by_cases hvalue : s.value > 0
  · rw [if_pos hvalue]
    refine ⟨⟨conserved_congr hgranted (fun _ => Iff.rfl) ?_, ?_, fun hwait => ?_⟩, h.sound,
      h.timed, h.taking⟩
    · show initial + s.released = s.value - 1 + (s.taken + 1) + granted.card
      omega
    · exact (Nat.sub_le _ _).trans h.bounded
    · exact absurd (h.waiting hwait) (Nat.ne_of_gt hvalue)
  · rw [if_neg hvalue]
    by_cases hnow : timeout = 0
    · rw [if_pos hnow]
      exact h
    · rw [if_neg hnow]
      let susp : SuspState τ Unit :=
        { s.susp with error := Function.update s.susp.error t rtEIntr }
      have hsound : susp.Sound := ⟨h.sound.nodup, h.sound.single, h.sound.suspended⟩
      have htimed : susp.Timed s.fired := ⟨h.timed.live, h.timed.armed, h.timed.fired⟩
      have hsusp := (susp.rtThreadSuspendToList_suspended t () s.flag).startTimer timeout
      have hother : ∀ u, u ≠ t → (Function.update s.taking t true) u = s.taking u :=
        fun u hut => Function.update_of_ne hut _ _
      refine ⟨⟨conserved_congr hgranted (fun u => ?_) hsum, h.bounded,
        fun _ => Nat.eq_zero_of_not_pos hvalue⟩, hsusp.sound hsound hrun,
        htimed.suspend hrun () s.flag timeout, fun u hu => ?_⟩
      · by_cases hut : u = t
        · rw [hut]
          exact iff_of_false (fun hgot => Bool.false_ne_true
            (hgot.2.1.symm.trans hsusp.suspended_self)) (not_granted hout)
        · refine and_congr (Eq.congr_left (hother u hut)) (and_congr ?_ ?_)
          · exact Eq.congr_left (hsusp.suspended_of_ne hut)
          · exact Eq.congr_left ((congrFun hsusp.error u).trans (Function.update_of_ne hut _ _))
      · by_cases hut : u = t
        · rw [hut]
          exact ⟨hsusp.mem.mpr (.inr ⟨rfl, rfl⟩), Function.update_self _ _ _⟩
        · obtain ⟨hmem, htaking⟩ := h.taking u ((hsusp.suspended_of_ne hut).symm.trans hu)
          exact ⟨hsusp.mem.mpr (.inl hmem), (hother u hut).trans htaking⟩

theorem Kept.rtSemTakeEnd (h : s.Kept initial) (hrun : s.susp.suspended t = false)
    (htaking : s.taking t = true) : (s.rtSemTakeEnd t).Kept initial := by
  obtain ⟨granted, hgranted, hsum⟩ := h.conserved
  have hother : ∀ u, u ≠ t → (Function.update s.taking t false) u = s.taking u :=
    fun u hut => Function.update_of_ne hut _ _
  have hstill : ∀ u, s.susp.suspended u = true →
      u ∈ s.waiters ∧ Function.update s.taking t false u = true := fun u hu => by
    have hut : u ≠ t := by
      rintro rfl
      exact Bool.false_ne_true (hrun.symm.trans hu)
    rw [hother u hut]
    exact h.taking u hu
  have hself : ∀ u, (Function.update s.taking t false u = true ∧ s.susp.suspended u = false ∧
      s.susp.error u = 0) ↔ u ≠ t ∧ s.Granted u := fun u => by
    rw [update_false_eq_true, and_assoc]
    exact Iff.rfl
  unfold SemState.rtSemTakeEnd
  by_cases herror : s.susp.error t = 0
  · rw [if_neg (not_not.mpr herror)]
    have hmem : t ∈ granted := (hgranted t).mpr ⟨htaking, hrun, herror⟩
    refine ⟨⟨⟨granted.erase t, fun u => ?_, ?_⟩, h.bounded, h.waiting⟩, h.sound, h.timed, hstill⟩
    · rw [Finset.mem_erase, hgranted]
      exact (hself u).symm
    · have hcard := Finset.card_erase_add_one hmem
      show initial + s.released = s.value + (s.taken + 1) + (granted.erase t).card
      omega
  · rw [if_pos herror]
    refine ⟨⟨conserved_congr hgranted (fun u => (hself u).trans (and_iff_right_of_imp ?_)) hsum,
      h.bounded, h.waiting⟩, h.sound, h.timed, hstill⟩
    rintro hgot rfl
    exact herror hgot.2.2

theorem Kept.fire (h : s.Kept initial) (hactive : s.susp.timerActivated t = true) :
    { s with
      susp := s.susp.takeTimer t, fired := Function.update s.fired t true }.Kept initial where
  conserved := h.conserved
  bounded := h.bounded
  waiting := h.waiting
  sound := ⟨h.sound.nodup, h.sound.single, h.sound.suspended⟩
  timed := h.timed.takeTimer hactive
  taking := h.taking

theorem Kept.timeout (h : s.Kept initial) (hfired : s.fired t = true) :
    { s with
      susp := s.susp.threadTimeout t, fired := Function.update s.fired t false }.Kept initial := by
  obtain ⟨granted, hgranted, hsum⟩ := h.conserved
  have hresumed : s.susp.Resumed (s.susp.threadTimeout t) t :=
    ⟨rfl, rfl, rfl, fun hlive u hu hflag => hlive u (update_false_eq_true.mp hu).2 hflag⟩
  refine ⟨⟨conserved_congr hgranted (fun u => ?_) hsum, h.bounded, fun hwait => h.waiting ?_⟩,
    hresumed.sound h.sound, h.timed.threadTimeout hfired, fun u hu => ?_⟩
  · by_cases hut : u = t
    · subst hut
      refine iff_of_false (fun hgot => ?_) fun hgot => ?_
      · have hlate : (s.susp.threadTimeout u).error u = -rtETimeout := Function.update_self _ _ _
        cases hlate.symm.trans hgot.2.2
      · exact Bool.false_ne_true (hgot.2.1.symm.trans (h.timed.fired u hfired).1)
    · refine and_congr_right fun _ => and_congr ?_ ?_
      · rw [hresumed.suspended_of_ne hut]
      · exact Eq.congr_left (Function.update_of_ne hut _ _)
  · rintro hnone
    refine hwait ?_
    show (s.waiters).erase t = []
    rw [hnone]
    rfl
  · obtain ⟨hut, hu⟩ := hresumed.suspended_of_true hu
    obtain ⟨hmem, htaking⟩ := h.taking u hu
    exact ⟨(hresumed.mem h.sound).mpr ⟨hut, hmem⟩, htaking⟩

/-- A release in time hands its unit over, or adds it to the value. -/
theorem Kept.rtSemRelease (h : s.Kept initial) (htime : s.InTime .release) :
    s.rtSemRelease.Kept initial ∧ s.HandsOver := by
  obtain ⟨granted, hgranted, hsum⟩ := h.conserved
  cases hwaiters : s.waiters with
  | nil =>
    refine ⟨?_, fun t rest hfirst => nomatch hwaiters.symm.trans hfirst⟩
    rw [SemState.rtSemRelease, if_neg (not_not.mpr hwaiters)]
    by_cases hroom : s.value < s.maxValue
    · rw [if_pos hroom]
      refine ⟨⟨conserved_congr hgranted (fun _ => Iff.rfl) ?_, hroom,
        fun hwait => absurd hwaiters hwait⟩, h.sound, h.timed, h.taking⟩
      show initial + (s.released + 1) = s.value + 1 + s.taken + granted.card
      omega
    · rw [if_neg hroom]
      exact h
  | cons t rest =>
    have hmem : t ∈ s.waiters := by
      rw [hwaiters]
      exact List.mem_cons_self
    have hne : s.waiters ≠ [] := List.ne_nil_of_mem hmem
    have hwaits := h.sound.suspended () t hmem
    have htaking := (h.taking t hwaits).2
    obtain ⟨susp, hdequeue, hresumed, herror, htimed⟩ :=
      h.timed.dequeue h.sound hwaiters (htime t rest hwaiters) (le_refl 0)
    have hrelease : s.rtSemRelease = { s with susp := susp, released := s.released + 1 } := by
      rw [SemState.rtSemRelease, if_pos hne, hdequeue]
    have hgot : s.rtSemRelease.Granted t := by
      rw [hrelease]
      exact ⟨htaking, hresumed.suspended_self, herror ▸ Function.update_self _ _ _⟩
    refine ⟨?_, fun t' rest' hfirst => ?_⟩
    · rw [hrelease] at hgot ⊢
      have hout : t ∉ granted := fun hin =>
        Bool.false_ne_true (((hgranted t).mp hin).2.1.symm.trans hwaits)
      refine ⟨⟨⟨insert t granted, fun u => ?_, ?_⟩, h.bounded, fun _ => h.waiting hne⟩,
        hresumed.sound h.sound, htimed, fun u hu => ?_⟩
      · rw [Finset.mem_insert, hgranted]
        by_cases hut : u = t
        · rw [hut]
          exact iff_of_true (.inl rfl) hgot
        · rw [or_iff_right hut]
          refine and_congr_right fun _ => and_congr ?_ ?_
          · exact Eq.congr_left (hresumed.suspended_of_ne hut).symm
          · exact Eq.congr_left ((congrFun herror u).trans (Function.update_of_ne hut _ _)).symm
      · have hcard := Finset.card_insert_of_notMem hout
        show initial + (s.released + 1) = s.value + s.taken + (insert t granted).card
        omega
      · obtain ⟨hut, hu⟩ := hresumed.suspended_of_true hu
        obtain ⟨hmem', htaking'⟩ := h.taking u hu
        exact ⟨(hresumed.mem h.sound).mpr ⟨hut, hmem'⟩, htaking'⟩
    · obtain ⟨rfl, rfl⟩ := List.cons.inj (hwaiters.symm.trans hfirst)
      exact hgot

theorem Kept.step {a : SemStep τ} (h : s.Kept initial) (htime : s.InTime a)
    (hstep : machine.step s a = some next) : next.Kept initial := by
  cases a with
  | take t timeout =>
    by_cases hruns : s.susp.suspended t = false ∧ s.taking t = false
    · simp only [machine, if_pos hruns] at hstep
      obtain rfl := Option.some.inj hstep
      exact h.rtSemTake hruns.1 hruns.2 timeout
    · simp only [machine, if_neg hruns] at hstep
      cases hstep
  | wake t =>
    by_cases hruns : s.susp.suspended t = false ∧ s.taking t = true
    · simp only [machine, if_pos hruns] at hstep
      obtain rfl := Option.some.inj hstep
      exact h.rtSemTakeEnd hruns.1 hruns.2
    · simp only [machine, if_neg hruns] at hstep
      cases hstep
  | release =>
    obtain rfl := Option.some.inj hstep
    exact (h.rtSemRelease htime).1
  | fire t =>
    by_cases hactive : s.susp.timerActivated t = true
    · simp only [machine, if_pos hactive] at hstep
      obtain rfl := Option.some.inj hstep
      exact h.fire hactive
    · simp only [machine, if_neg hactive] at hstep
      cases hstep
  | timeout t =>
    by_cases hfired : s.fired t = true
    · simp only [machine, if_pos hfired] at hstep
      obtain rfl := Option.some.inj hstep
      exact h.timeout hfired
    · simp only [machine, if_neg hfired] at hstep
      cases hstep

/-- In every run whose releases come in time, the units balance in every state, and a release
in time gives its unit to the first waiter. -/
theorem semaphore_balanced (flag : IpcFlag) (currentPriority : τ → Nat) {value maxValue : Nat}
    (hvalue : value ≤ maxValue) {steps : List (SemStep τ)} {final : SemState τ}
    (run : machine.Run InTime (init flag currentPriority value maxValue) steps final) :
    final.Balanced value ∧ (final.InTime .release → final.HandsOver) := by
  have hkept : final.Kept value :=
    run.invariant (fun _ _ _ htime hstep h => Kept.step h htime hstep)
      (kept_init flag currentPriority hvalue)
  exact ⟨hkept.toBalanced, fun htime => (hkept.rtSemRelease htime).2⟩

/-- A thread waits, and is given a unit. -/
def givesUnit : List (SemStep Bool) := [.take false 5, .release, .wake false]

theorem semaphore_balanced_givesUnit :
    ∃ final, machine.exec (init .fifo (fun _ => 8) 0 65535) givesUnit = some final ∧
      final.Balanced 0 ∧ (final.InTime .release → final.HandsOver) := by
  obtain ⟨final, hexec⟩ :
      ∃ final, machine.exec (init .fifo (fun _ => 8) 0 65535) givesUnit = some final := ⟨_, rfl⟩
  have hadmitted : machine.Admitted InTime (init .fifo (fun _ => 8) 0 65535) givesUnit :=
    .cons trivial rfl (.cons (fun _ _ _ => rfl) rfl (.cons trivial rfl trivial))
  exact ⟨final, hexec, semaphore_balanced .fifo (fun _ => 8) (Nat.zero_le 65535)
    (Machine.Run.of_exec hexec hadmitted)⟩

/-- The only waiter's timer has been taken when the release comes. -/
def losesUnit : List (SemStep Bool) :=
  [.take false 5, .fire false, .release, .timeout false, .wake false]

theorem not_semaphore_balanced :
    ∃ final, machine.Run Machine.anyStep (init .fifo (fun _ => 8) 0 65535) losesUnit final ∧
      ¬ final.Balanced 0 := by
  obtain ⟨final, hexec⟩ :
      ∃ final, machine.exec (init .fifo (fun _ => 8) 0 65535) losesUnit = some final := ⟨_, rfl⟩
  have hends : (machine.exec (init .fifo (fun _ => 8) 0 65535) losesUnit).map (fun s =>
      (s.value, s.released, s.taken, s.taking false, s.taking true)) =
        some (0, 1, 0, false, false) := rfl
  rw [hexec] at hends
  simp only [Option.map_some, Option.some.injEq, Prod.mk.injEq] at hends
  obtain ⟨hvalue, hreleased, htaken, hfalse, htrue⟩ := hends
  refine ⟨final, .of_exec hexec (Machine.admitted_anyStep _ _), fun h => ?_⟩
  obtain ⟨granted, hgranted, hsum⟩ := h.conserved
  have hnone : granted = ∅ := Finset.eq_empty_of_forall_notMem fun t ht => by
    refine not_granted ?_ ((hgranted t).mp ht)
    cases t with
    | false => exact hfalse
    | true => exact htrue
  rw [hvalue, hreleased, htaken, hnone, Finset.card_empty] at hsum
  cases hsum

end Invariant

end SemState

end Gd32Vw553h.Ipc
