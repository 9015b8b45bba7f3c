/-
  Kernel/Critical.lean --- critical sections of the scheduler (`rt_enter_critical`,
  `rt_exit_critical` of `rt-thread/src/scheduler_up.c`).

  While the scheduler is locked, `rt_schedule` only sets a flag.  `rt_exit_critical` tests and
  clears it with interrupts on, so that handlers come in between, and so do other threads with
  critical sections of their own.  A `CriticalPoint` is where a thread has been interrupted.
  Handlers may be nested, and threads go on when there are none.

  `noLostReschedule` says that no request is lost: whatever has been made ready, the thread that
  runs outside of these functions has the highest priority.
-/
import Gd32Vw553h.Kernel.ReadyQueue

set_option autoImplicit false

namespace Gd32Vw553h.Kernel

open Gd32Vw553h.Foundation

/-! ## The code -/

/-- Where a thread is. -/
inductive CriticalPoint where
  | outside
  /-- `rt_exit_critical` has unlocked the scheduler, and tests the flag next -/
  | tests
  /-- it clears the flag next -/
  | clears
  /-- `rt_schedule` is called next -/
  | schedules
  deriving DecidableEq

/-- The scheduler, its threads and the interrupt handlers. -/
structure CriticalState (τ : Type*) where
  sched : Scheduler τ
  point : τ → CriticalPoint
  /-- the handlers in progress, with whether they have still to call `rt_schedule` -/
  handlers : List Bool

/-- What the current thread and interrupt handlers do. -/
inductive CriticalStep (τ : Type*) where
  /-- `rt_sched_thread_startup` -/
  | startup (thread : τ)
  /-- a thread is made ready before the start -/
  | bootReady (thread : τ)
  | systemStart
  /-- `rt_enter_critical` -/
  | enter
  /-- `rt_exit_critical`, with interrupts off -/
  | exit
  | test
  | clear
  | schedule
  /-- the thread suspends itself, and goes on to `rt_schedule` -/
  | suspend
  /-- the thread makes another one ready, and goes on to `rt_schedule` -/
  | resume (thread : τ)
  | handlerEnter
  /-- a handler makes a thread ready, and has to call `rt_schedule` -/
  | handlerReady (thread : τ)
  | handlerSchedule
  /-- `rt_sched_tick_increase` -/
  | handlerTick (n : Nat)
  | handlerExit

namespace CriticalState

variable {τ : Type*}

def init (currentPriority initTick : τ → Nat) : CriticalState τ where
  sched := .init currentPriority initTick
  point _ := .outside
  handlers := []

/-- The current thread, if no handler is running and it is at this point. -/
def turn (s : CriticalState τ) (point : CriticalPoint) : Option τ :=
  if s.handlers = [] then s.sched.currentThread.filter fun t => s.point t = point else none

/-- The last handler goes on. -/
def handle (s : CriticalState τ) (owes : Bool) (sched : Scheduler τ) :
    Option (CriticalState τ) :=
  match s.handlers with
  | [] => none
  | _ :: rest => some { s with sched := sched, handlers := owes :: rest }

section Code

variable [DecidableEq τ]

/-- The thread goes on to a point. -/
def goOn (s : CriticalState τ) (thread : τ) (point : CriticalPoint) (sched : Scheduler τ) :
    CriticalState τ :=
  { s with sched := sched, point := Function.update s.point thread point }

def machine : Machine (CriticalState τ) (CriticalStep τ) where
  step s
    | .startup thread =>
        (s.sched.schedThreadStartup thread).map fun sched => { s with sched := sched }
    | .bootReady thread =>
        if s.sched.currentThread = none then
          some { s with sched := s.sched.schedThreadReady thread }
        else none
    | .systemStart => s.sched.systemSchedulerStart.map fun sched => { s with sched := sched }
    | .enter => (s.turn .outside).map fun _ =>
        { s with sched := { s.sched with lockNest := s.sched.lockNest + 1 } }
    | .exit => (s.turn .outside).bind fun t =>
        -- every exit has its enter
        if s.sched.lockNest = 0 then none
        else if s.sched.exitCritical.lockNest = 0 then
          some (s.goOn t .tests s.sched.exitCritical)
        else some { s with sched := s.sched.exitCritical }
    | .test => (s.turn .tests).map fun t =>
        s.goOn t (if s.sched.criticalSwitch then .clears else .outside) s.sched
    | .clear => (s.turn .clears).map fun t =>
        s.goOn t .schedules { s.sched with criticalSwitch := false }
    | .schedule => (s.turn .schedules).map fun t => s.goOn t .outside s.sched.schedule
    | .suspend => (s.turn .outside).map fun t => s.goOn t .schedules (s.sched.threadSuspend t)
    | .resume thread => (s.turn .outside).map fun t =>
        s.goOn t .schedules (s.sched.schedThreadReady thread)
    | .handlerEnter => s.sched.currentThread.map fun _ =>
        { s with handlers := false :: s.handlers }
    | .handlerReady thread => s.handle true (s.sched.schedThreadReady thread)
    | .handlerSchedule => s.handle false s.sched.schedule
    | .handlerTick n =>
        if s.handlers = [] then none
        else s.sched.currentThread.map fun t =>
          { s with sched := s.sched.schedTickIncrease t n }
    | .handlerExit =>
        match s.handlers with
        | false :: rest => some { s with handlers := rest }
        | _ => none

end Code

end CriticalState

/-! ## What the functions of the scheduler leave -/

namespace Scheduler

variable {τ : Type*} {s next : Scheduler τ} {t : τ}

/-- No thread has become ready. -/
theorem Top.of_ready (h : s.Top) (hcurr : next.currentThread = s.currentThread)
    (hpriority : next.currentPriority = s.currentPriority)
    (hready : ∀ t, (next.stat t).state = .ready → (s.stat t).state = .ready) : next.Top := by
  intro curr hthis t ht
  rw [hpriority]
  exact h curr (hcurr.symm.trans hthis) t (hready t ht)

variable [DecidableEq τ]

theorem schedule_locked (hcurr : s.currentThread = some t) (hlock : s.lockNest ≠ 0) :
    s.schedule = { s with criticalSwitch := true } := by
  simp only [schedule, hcurr, if_neg hlock]

theorem Sound.schedule_current (h : s.Sound) (hcurr : s.currentThread = some t) :
    ∃ curr, s.schedule.currentThread = some curr := by
  rcases h.schedule_eq with ⟨hnone, -⟩ | ⟨-, heq⟩ | ⟨-, -, -, heq, -⟩ |
    ⟨curr, dest, rest, p, -, hcurr, -, htable, -, heq⟩
  · rw [hnone] at hcurr
    cases hcurr
  · exact ⟨t, heq ▸ hcurr⟩
  · exact ⟨t, heq.symm ▸ hcurr⟩
  · have hdest : dest ∈ s.priorityTable p := htable ▸ List.mem_cons_self
    exact ⟨dest, heq ▸ (h.toWellFormed.switchTo hcurr hdest).current⟩

theorem schedThreadStartup_eq (hnext : s.schedThreadStartup t = some next) :
    next = s.resetStat t .suspend := by
  unfold schedThreadStartup at hnext
  split at hnext
  · exact (Option.some.inj hnext).symm
  · cases hnext

theorem schedThreadReady_kept (s : Scheduler τ) (t : τ) :
    (s.schedThreadReady t).currentThread = s.currentThread ∧
      (s.schedThreadReady t).lockNest = s.lockNest := by
  unfold schedThreadReady insertThread
  split
  · split <;> exact ⟨rfl, rfl⟩
  · exact ⟨rfl, rfl⟩

theorem threadSuspend_current (s : Scheduler τ) (t : τ) :
    (s.threadSuspend t).currentThread = s.currentThread := by
  unfold threadSuspend
  split <;> rfl

/-- A tick is counted, and a thread without ticks yields. -/
theorem schedTickIncrease_eq (s : Scheduler τ) (t : τ) (n : Nat) :
    ∃ remaining, s.schedTickIncrease t n = { s with remainingTick := remaining } ∨
      s.schedTickIncrease t n = { s with remainingTick := remaining }.threadYield t := by
  unfold schedTickIncrease
  generalize (if s.remainingTick t > n then s.remainingTick t - n else 0) = left
  refine ⟨Function.update s.remainingTick t left, ?_⟩
  by_cases hleft : left ≠ 0
  · exact .inl (if_pos hleft)
  · exact .inr (if_neg hleft)

end Scheduler

/-! ## The invariant -/

namespace CriticalState

variable {τ : Type*}

/-- No handler has still to call `rt_schedule`. -/
def Settled (s : CriticalState τ) : Prop := true ∉ s.handlers

/-- What is known of the current thread: a request that has not taken effect is in the flag, or
the thread is about to call `rt_schedule`. -/
structure Kept (s : CriticalState τ) : Prop where
  sound : s.sched.Sound
  start : s.sched.currentThread = none → s.sched.lockNest = 0 ∧ s.handlers = []
  unlocked : ∀ curr, s.sched.currentThread = some curr →
    s.point curr = .tests ∨ s.point curr = .clears → s.sched.lockNest = 0
  outside : ∀ curr, s.sched.currentThread = some curr → s.Settled → s.point curr = .outside →
    s.sched.Top ∨ s.sched.lockNest ≠ 0 ∧ s.sched.criticalSwitch = true
  tests : ∀ curr, s.sched.currentThread = some curr → s.Settled → s.point curr = .tests →
    s.sched.Top ∨ s.sched.criticalSwitch = true

theorem kept_init {currentPriority : τ → Nat} (initTick : τ → Nat)
    (hpriority : ∀ t, currentPriority t < rtThreadPriorityMax) :
    (init currentPriority initTick).Kept where
  sound := Scheduler.sound_init initTick hpriority
  start _ := ⟨rfl, rfl⟩
  unlocked curr hcurr := by cases hcurr
  outside curr hcurr := by cases hcurr
  tests curr hcurr := by cases hcurr

variable {s next : CriticalState τ} {t : τ} {sched : Scheduler τ}

theorem turn_eq_some {point : CriticalPoint} (hturn : s.turn point = some t) :
    s.handlers = [] ∧ s.sched.currentThread = some t ∧ s.point t = point := by
  unfold turn at hturn
  split at hturn
  · rename_i hnone
    obtain ⟨hcurr, hpoint⟩ := Option.filter_eq_some_iff.mp hturn
    exact ⟨hnone, hcurr, of_decide_eq_true hpoint⟩
  · cases hturn

theorem handle_eq_some {owes : Bool} (hnext : s.handle owes sched = some next) :
    ∃ last rest, s.handlers = last :: rest ∧
      next = { s with sched := sched, handlers := owes :: rest } := by
  unfold handle at hnext
  split at hnext
  · cases hnext
  · rename_i last rest hhandlers
    exact ⟨last, rest, hhandlers, (Option.some.inj hnext).symm⟩

theorem Kept.current (h : s.Kept) (hhandlers : s.handlers ≠ []) :
    ∃ curr, s.sched.currentThread = some curr :=
  Option.ne_none_iff_exists'.mp fun hnone => hhandlers (h.start hnone).2

/-- Changes that make no thread ready and do not lock or unlock the scheduler. -/
theorem Kept.congr (h : s.Kept) (hsound : sched.Sound)
    (hcurr : sched.currentThread = s.sched.currentThread)
    (hlock : sched.lockNest = s.sched.lockNest)
    (hflag : sched.criticalSwitch = s.sched.criticalSwitch)
    (htop : s.sched.Top → sched.Top) : { s with sched := sched }.Kept where
  sound := hsound
  start hnone := by
    rw [hlock]
    exact h.start (hcurr.symm.trans hnone)
  unlocked curr hthis hpoint := hlock.trans (h.unlocked curr (hcurr.symm.trans hthis) hpoint)
  outside curr hthis hsettled hpoint := by
    rw [hlock, hflag]
    exact (h.outside curr (hcurr.symm.trans hthis) hsettled hpoint).imp_left htop
  tests curr hthis hsettled hpoint := by
    rw [hflag]
    exact (h.tests curr (hcurr.symm.trans hthis) hsettled hpoint).imp_left htop

theorem Kept.enter (h : s.Kept) (hturn : s.turn .outside = some t) :
    { s with sched := { s.sched with lockNest := s.sched.lockNest + 1 } }.Kept := by
  obtain ⟨-, hcurr, hout⟩ := turn_eq_some hturn
  have hat : ∀ curr, s.sched.currentThread = some curr → s.point curr = .outside :=
    fun curr hthis => by
      obtain rfl := Option.some.inj (hcurr.symm.trans hthis)
      exact hout
  exact {
    sound := h.sound.withLock _ _
    start := fun hnone => nomatch hcurr.symm.trans hnone
    unlocked := fun curr hthis hpoint => by
      have hthere := hat curr hthis
      rcases hpoint with hpoint | hpoint <;> cases hthere.symm.trans hpoint
    outside := fun curr hthis hsettled hpoint =>
      (h.outside curr hthis hsettled hpoint).imp_right fun hflag => ⟨Nat.succ_ne_zero _, hflag.2⟩
    tests := fun curr hthis _ hpoint => nomatch (hat curr hthis).symm.trans hpoint }

theorem Kept.handlerExit {rest : List Bool} (h : s.Kept)
    (hhandlers : s.handlers = false :: rest) : { s with handlers := rest }.Kept := by
  obtain ⟨curr, hcurr⟩ := h.current (by simp [hhandlers])
  have hsettled : true ∉ rest → s.Settled := fun hrest => by simp [Settled, hhandlers, hrest]
  exact {
    sound := h.sound
    start := fun hnone => nomatch hcurr.symm.trans hnone
    unlocked := h.unlocked
    outside := fun curr' hthis hrest => h.outside curr' hthis (hsettled hrest)
    tests := fun curr' hthis hrest => h.tests curr' hthis (hsettled hrest) }

theorem Kept.handlerEnter (h : s.Kept) (hcurr : s.sched.currentThread = some t) :
    { s with handlers := false :: s.handlers }.Kept := by
  have hsettled : true ∉ false :: s.handlers → s.Settled := fun hrest hmem =>
    hrest (List.mem_cons_of_mem false hmem)
  exact {
    sound := h.sound
    start := fun hnone => nomatch hcurr.symm.trans hnone
    unlocked := h.unlocked
    outside := fun curr hthis hrest => h.outside curr hthis (hsettled hrest)
    tests := fun curr hthis hrest => h.tests curr hthis (hsettled hrest) }

section Steps

variable [DecidableEq τ]

/-- After `rt_schedule`, the current thread has the highest priority, or the flag is set. -/
theorem kept_schedule {point : τ → CriticalPoint} {handlers : List Bool} (hsound : sched.Sound)
    (hcurr : sched.currentThread = some t)
    (hpoint : point t = .tests ∨ point t = .clears → sched.lockNest = 0) :
    Kept { sched := sched.schedule, point := point, handlers := handlers } := by
  obtain ⟨hnext, -, hnest⟩ := hsound.schedule
  obtain ⟨curr, hthis⟩ := hsound.schedule_current hcurr
  have hstart : sched.schedule.currentThread ≠ none := by
    rw [hthis]
    exact Option.some_ne_none curr
  by_cases hlock : sched.lockNest = 0
  · have htop := hsound.schedule_top hlock
    exact {
      sound := hnext
      start := fun hnone => absurd hnone hstart
      unlocked := fun _ _ _ => hnest.trans hlock
      outside := fun _ _ _ _ => .inl htop
      tests := fun _ _ _ _ => .inl htop }
  · have hflag : sched.schedule.criticalSwitch = true := by
      rw [Scheduler.schedule_locked hcurr hlock]
    have hsame : sched.schedule.currentThread = some t := by
      rw [Scheduler.schedule_locked hcurr hlock]
      exact hcurr
    exact {
      sound := hnext
      start := fun hnone => absurd hnone hstart
      unlocked := fun curr' hthis' hat => by
        obtain rfl := Option.some.inj (hsame.symm.trans hthis')
        exact hnest.trans (hpoint hat)
      outside := fun _ _ _ _ => .inr ⟨fun hzero => hlock (hnest.symm.trans hzero), hflag⟩
      tests := fun _ _ _ _ => .inr hflag }

/-- Whatever the current thread has done, it is kept when `rt_schedule` is next. -/
theorem kept_goOn_schedules (hsound : sched.Sound) (hcurr : sched.currentThread = some t) :
    (s.goOn t .schedules sched).Kept := by
  have hat : ∀ curr, sched.currentThread = some curr →
      Function.update s.point t .schedules curr = .schedules := fun curr hthis => by
    obtain rfl := Option.some.inj (hcurr.symm.trans hthis)
    exact Function.update_self _ _ _
  exact {
    sound := hsound
    start := fun hnone => by
      rw [show sched.currentThread = none from hnone] at hcurr
      cases hcurr
    unlocked := fun curr hthis hpoint => by
      have hthere := hat curr hthis
      rcases hpoint with hpoint | hpoint <;> cases hthere.symm.trans hpoint
    outside := fun curr hthis _ hpoint => nomatch (hat curr hthis).symm.trans hpoint
    tests := fun curr hthis _ hpoint => nomatch (hat curr hthis).symm.trans hpoint }

theorem Kept.systemStart (h : s.Kept) (hnext : s.sched.systemSchedulerStart = some sched) :
    { s with sched := sched }.Kept := by
  obtain ⟨hsound, -, htop, hnest⟩ := h.sound.systemSchedulerStart hnext
  obtain ⟨hnone, -, -, dest, hdest, -⟩ := h.sound.toWellFormed.systemSchedulerStart hnext
  exact {
    sound := hsound
    start := fun hnone' => by
      rw [show sched.currentThread = none from hnone'] at hdest
      cases hdest
    unlocked := fun _ _ _ => hnest.trans (h.start hnone).1
    outside := fun _ _ _ _ => .inl htop
    tests := fun _ _ _ _ => .inl htop }

/-- The decrement keeps the request, which is tested next if it has unlocked the scheduler. -/
theorem Kept.exit (h : s.Kept) (hturn : s.turn .outside = some t) (hlock : s.sched.lockNest ≠ 0) :
    (if s.sched.exitCritical.lockNest = 0 then s.goOn t .tests s.sched.exitCritical
      else { s with sched := s.sched.exitCritical }).Kept := by
  obtain ⟨hnone, hcurr, hout⟩ := turn_eq_some hturn
  have hsettled : s.Settled := by simp [Settled, hnone]
  have hpending : s.sched.exitCritical.Top ∨ s.sched.criticalSwitch = true :=
    (h.outside t hcurr hsettled hout).imp id And.right
  have hsound : s.sched.exitCritical.Sound := h.sound.withLock _ _
  by_cases hunlocks : s.sched.exitCritical.lockNest = 0
  · rw [if_pos hunlocks]
    have hat : ∀ curr, s.sched.currentThread = some curr →
        Function.update s.point t .tests curr = .tests := fun curr hthis => by
      obtain rfl := Option.some.inj (hcurr.symm.trans hthis)
      exact Function.update_self _ _ _
    exact {
      sound := hsound
      start := fun hnone' => nomatch hcurr.symm.trans hnone'
      unlocked := fun _ _ _ => hunlocks
      outside := fun curr hthis _ hpoint => nomatch (hat curr hthis).symm.trans hpoint
      tests := fun _ _ _ _ => hpending }
  · rw [if_neg hunlocks]
    exact {
      sound := hsound
      start := fun hnone' => nomatch hcurr.symm.trans hnone'
      unlocked := fun curr hthis hpoint => absurd (h.unlocked curr hthis hpoint) hlock
      outside := fun _ _ _ _ => hpending.imp_right fun hflag => ⟨hunlocks, hflag⟩
      tests := fun _ _ _ _ => hpending }

/-- A thread that finds the flag clear leaves with the highest priority. -/
theorem Kept.test (h : s.Kept) (hturn : s.turn .tests = some t) :
    (s.goOn t (if s.sched.criticalSwitch then .clears else .outside) s.sched).Kept := by
  obtain ⟨hnone, hcurr, htests⟩ := turn_eq_some hturn
  have hsettled : s.Settled := by simp [Settled, hnone]
  have hunlocked := h.unlocked t hcurr (.inl htests)
  have hpending := h.tests t hcurr hsettled htests
  have hat : ∀ (point : CriticalPoint) (curr : τ), s.sched.currentThread = some curr →
      Function.update s.point t point curr = point := fun point curr hthis => by
    obtain rfl := Option.some.inj (hcurr.symm.trans hthis)
    exact Function.update_self _ _ _
  cases hflag : s.sched.criticalSwitch with
  | true =>
    exact {
      sound := h.sound
      start := fun hnone' => nomatch hcurr.symm.trans hnone'
      unlocked := fun _ _ _ => hunlocked
      outside := fun curr hthis _ hpoint => nomatch (hat .clears curr hthis).symm.trans hpoint
      tests := fun curr hthis _ hpoint => nomatch (hat .clears curr hthis).symm.trans hpoint }
  | false =>
    have htop : s.sched.Top := hpending.resolve_right (by simp [hflag])
    exact {
      sound := h.sound
      start := fun hnone' => nomatch hcurr.symm.trans hnone'
      unlocked := fun _ _ _ => hunlocked
      outside := fun _ _ _ _ => .inl htop
      tests := fun _ _ _ _ => .inl htop }

theorem Kept.handlerReady (h : s.Kept) (thread : τ)
    (hnext : s.handle true (s.sched.schedThreadReady thread) = some next) : next.Kept := by
  obtain ⟨last, rest, hhandlers, rfl⟩ := handle_eq_some hnext
  obtain ⟨hcurrent, hnest⟩ := s.sched.schedThreadReady_kept thread
  obtain ⟨curr, hcurr⟩ := h.current (by simp [hhandlers])
  have howes : ¬ true ∉ true :: rest := fun hrest => hrest List.mem_cons_self
  exact {
    sound := h.sound.schedThreadReady thread
    start := fun hnone => nomatch hcurr.symm.trans (hcurrent.symm.trans hnone)
    unlocked := fun curr' hthis hpoint =>
      hnest.trans (h.unlocked curr' (hcurrent.symm.trans hthis) hpoint)
    outside := fun _ _ hrest => absurd hrest howes
    tests := fun _ _ hrest => absurd hrest howes }

theorem Kept.handlerSchedule (h : s.Kept)
    (hnext : s.handle false s.sched.schedule = some next) : next.Kept := by
  obtain ⟨last, rest, hhandlers, rfl⟩ := handle_eq_some hnext
  obtain ⟨curr, hcurr⟩ := h.current (by simp [hhandlers])
  exact kept_schedule h.sound hcurr (h.unlocked curr hcurr)

theorem Kept.handlerTick (h : s.Kept) (hcurr : s.sched.currentThread = some t) (n : Nat) :
    { s with sched := s.sched.schedTickIncrease t n }.Kept := by
  obtain ⟨remaining, heq | heq⟩ := s.sched.schedTickIncrease_eq t n
  · rw [heq]
    exact h.congr (h.sound.withTicks remaining) rfl rfl rfl
      fun htop => htop.of_ready rfl rfl fun _ ht => ht
  · rw [heq]
    obtain ⟨hmarked, -⟩ := (h.sound.withTicks remaining).schedThreadYield hcurr
    exact kept_schedule hmarked hcurr (h.unlocked t hcurr)

theorem Kept.startup (h : s.Kept) (hnext : s.sched.schedThreadStartup t = some sched) :
    { s with sched := sched }.Kept := by
  obtain ⟨hsound, -⟩ := h.sound.schedThreadStartup hnext
  obtain rfl := Scheduler.schedThreadStartup_eq hnext
  refine h.congr hsound rfl rfl rfl fun htop => htop.of_ready rfl rfl fun u hu => ?_
  by_cases hut : u = t
  · simp [Scheduler.resetStat, hut] at hu
  · simpa [Scheduler.resetStat, Function.update_of_ne hut] using hu

theorem Kept.bootReady (h : s.Kept) (thread : τ) (hnone : s.sched.currentThread = none) :
    { s with sched := s.sched.schedThreadReady thread }.Kept := by
  obtain ⟨hcurrent, hnest⟩ := s.sched.schedThreadReady_kept thread
  have hnone' := hcurrent.trans hnone
  exact {
    sound := h.sound.schedThreadReady thread
    start := fun _ => ⟨hnest.trans (h.start hnone).1, (h.start hnone).2⟩
    unlocked := fun curr hthis => nomatch hnone'.symm.trans hthis
    outside := fun curr hthis => nomatch hnone'.symm.trans hthis
    tests := fun curr hthis => nomatch hnone'.symm.trans hthis }

theorem Kept.step {a : CriticalStep τ} (h : s.Kept) (hstep : machine.step s a = some next) :
    next.Kept := by
  cases a with
  | startup thread =>
    obtain ⟨sched, hsched, rfl⟩ := Option.map_eq_some_iff.mp hstep
    exact h.startup hsched
  | bootReady thread =>
    by_cases hnone : s.sched.currentThread = none
    · obtain rfl : _ = next := by simpa [machine, hnone] using hstep
      exact h.bootReady thread hnone
    · simp [machine, hnone] at hstep
  | systemStart =>
    obtain ⟨sched, hsched, rfl⟩ := Option.map_eq_some_iff.mp hstep
    exact h.systemStart hsched
  | enter =>
    obtain ⟨t, hturn, rfl⟩ := Option.map_eq_some_iff.mp hstep
    exact h.enter hturn
  | exit =>
    obtain ⟨t, hturn, hexit⟩ := Option.bind_eq_some_iff.mp hstep
    by_cases hlock : s.sched.lockNest = 0
    · rw [if_pos hlock] at hexit
      cases hexit
    · rw [if_neg hlock, ← apply_ite some] at hexit
      obtain rfl := Option.some.inj hexit
      exact h.exit hturn hlock
  | test =>
    obtain ⟨t, hturn, rfl⟩ := Option.map_eq_some_iff.mp hstep
    exact h.test hturn
  | clear =>
    obtain ⟨t, hturn, rfl⟩ := Option.map_eq_some_iff.mp hstep
    exact kept_goOn_schedules (h.sound.withLock s.sched.lockNest false) (turn_eq_some hturn).2.1
  | schedule =>
    obtain ⟨t, hturn, rfl⟩ := Option.map_eq_some_iff.mp hstep
    refine kept_schedule h.sound (turn_eq_some hturn).2.1 fun hpoint => ?_
    rw [Function.update_self] at hpoint
    rcases hpoint with hpoint | hpoint <;> cases hpoint
  | suspend =>
    obtain ⟨t, hturn, rfl⟩ := Option.map_eq_some_iff.mp hstep
    have hcurr := (s.sched.threadSuspend_current t).trans (turn_eq_some hturn).2.1
    exact kept_goOn_schedules (h.sound.threadSuspend t) hcurr
  | resume thread =>
    obtain ⟨t, hturn, rfl⟩ := Option.map_eq_some_iff.mp hstep
    have hcurr := (s.sched.schedThreadReady_kept thread).1.trans (turn_eq_some hturn).2.1
    exact kept_goOn_schedules (h.sound.schedThreadReady thread) hcurr
  | handlerEnter =>
    obtain ⟨t, hcurr, rfl⟩ := Option.map_eq_some_iff.mp hstep
    exact h.handlerEnter hcurr
  | handlerReady thread => exact h.handlerReady thread hstep
  | handlerSchedule => exact h.handlerSchedule hstep
  | handlerTick n =>
    by_cases hnone : s.handlers = []
    · simp [machine, hnone] at hstep
    · simp only [machine, if_neg hnone] at hstep
      obtain ⟨t, hcurr, rfl⟩ := Option.map_eq_some_iff.mp hstep
      exact h.handlerTick hcurr n
  | handlerExit =>
    simp only [machine] at hstep
    split at hstep
    · rename_i rest hhandlers
      obtain rfl := Option.some.inj hstep
      exact h.handlerExit hhandlers
    · cases hstep

/-- In every run, when the scheduler is unlocked, the current thread is outside of
`rt_exit_critical` and `rt_schedule` and no handler has still to call `rt_schedule`, no ready
thread has a higher priority than the current thread. -/
theorem noLostReschedule {currentPriority : τ → Nat} (initTick : τ → Nat)
    (hpriority : ∀ t, currentPriority t < rtThreadPriorityMax) {steps : List (CriticalStep τ)}
    {final : CriticalState τ}
    (run : machine.Run Machine.anyStep (init currentPriority initTick) steps final)
    (hlock : final.sched.lockNest = 0) (hsettled : final.Settled)
    (houtside : ∀ t, final.sched.currentThread = some t → final.point t = .outside) :
    final.sched.Top := by
  have hkept : final.Kept :=
    run.invariant (fun _ _ _ _ hstep h => Kept.step h hstep) (kept_init initTick hpriority)
  intro curr hcurr
  have hpending := hkept.outside curr hcurr hsettled (houtside curr hcurr)
  exact hpending.resolve_right (fun hlocked => hlocked.1 hlock) curr hcurr

/-- A handler makes the other thread ready while the idle thread, `false`, has locked the
scheduler. -/
def resumesLocked : List (CriticalStep Bool) :=
  [.startup false, .bootReady false, .startup true, .systemStart, .enter, .handlerEnter,
    .handlerReady true, .handlerSchedule, .handlerExit, .exit, .test, .clear, .schedule]

theorem noLostReschedule_resumesLocked :
    ∃ final, machine.exec (init (fun t => cond t 10 31) fun _ => 5) resumesLocked = some final ∧
      final.sched.currentThread = some true ∧ final.sched.Top := by
  let start : CriticalState Bool := init (fun t => cond t 10 31) fun _ => 5
  obtain ⟨final, hexec⟩ : ∃ final, machine.exec start resumesLocked = some final := ⟨_, rfl⟩
  have hbelow : ∀ t : Bool, cond t 10 31 < rtThreadPriorityMax := by decide
  have hends : (machine.exec start resumesLocked).map (fun s =>
      (s.sched.currentThread, s.sched.lockNest, s.handlers, s.point true)) =
        some (some true, 0, [], .outside) := rfl
  rw [hexec] at hends
  simp only [Option.map_some, Option.some.injEq, Prod.mk.injEq] at hends
  obtain ⟨hcurr, hlock, hhandlers, hpoint⟩ := hends
  have hsettled : final.Settled := by simp [Settled, hhandlers]
  refine ⟨final, hexec, hcurr, noLostReschedule (fun _ => 5) hbelow
    (Machine.Run.of_exec hexec (Machine.admitted_anyStep _ _)) hlock hsettled fun t ht => ?_⟩
  obtain rfl := Option.some.inj (hcurr.symm.trans ht)
  exact hpoint

end Steps

end CriticalState

end Gd32Vw553h.Kernel
