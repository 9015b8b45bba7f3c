/-
  Kernel/TimeSlice.lean --- time slices of threads with one priority
  (`rt-thread/src/scheduler_up.c`, `scheduler_comm.c`).

  `rt_sched_tick_increase` and `rt_thread_yield` set `RT_THREAD_STAT_YIELD` also when no
  other thread of the priority is ready, and `rt_schedule` clears it only when it
  switches.  `timeSlice_right` is about the runs in which no thread of its priority joins
  a thread that carries such a flag from the time when it was alone.

  `SliceState` remembers, beside the scheduler, what the threads may rely on.
-/
import Gd32Vw553h.Kernel.Scheduler
import Mathlib.Data.Fin.VecNotation

set_option autoImplicit false

namespace Gd32Vw553h.Kernel

open Gd32Vw553h.Foundation

/-! ## What threads rely on -/

/-- The scheduler, and what holds between its threads. -/
structure SliceState (τ : Type*) where
  sched : Scheduler τ
  /-- the second thread became ready when the first ran alone at its priority, and since then
  the first has neither come to the end of its slice, nor yielded, nor blocked -/
  guarded : τ → τ → Prop
  /-- the current thread has come to the end of its slice, or has yielded, while another
  thread of its priority was ready -/
  ended : τ → Prop
  /-- the second thread was ready when the first, of the same priority, had to give way to a
  higher priority within its slice, and both have waited since then -/
  ahead : τ → τ → Prop

/-- The thread blocks or ends by the step. -/
def SchedStep.Stops {τ : Type*} (a : SchedStep τ) (t : τ) : Prop := a = .suspend t ∨ a = .close t

/-- The thread is taken out of its ready queue by the step, other than to run. -/
def SchedStep.Leaves {τ : Type*} (a : SchedStep τ) (t : τ) : Prop :=
  a.Stops t ∨ ∃ p, a = .updatePriority t p

namespace SliceState

variable {τ : Type*}

/-- The slice of the current thread ends by the step, or it yields. -/
def Relieved (s : SliceState τ) (a : SchedStep τ) (t : τ) : Prop :=
  s.sched.currentThread = some t ∧ (a = .yield ∨ ∃ n, a = .tick n ∧ s.sched.remainingTick t ≤ n)

/-- No other thread of its priority is ready. -/
def Alone (s : SliceState τ) (t : τ) : Prop :=
  s.sched.priorityTable (s.sched.currentPriority t) = []

/-- The step makes `u` ready, and `t` runs alone at the same priority. -/
def Joins (s : SliceState τ) (a : SchedStep τ) (t u : τ) : Prop :=
  a = .ready u ∧ (s.sched.stat u).state = .suspend ∧ s.sched.currentThread = some t ∧
    s.sched.Running t ∧ s.sched.currentPriority u = s.sched.currentPriority t ∧ s.Alone t

/-- The slice has ended, by this step at the latest. -/
def HasEnded (s : SliceState τ) (a : SchedStep τ) (t : τ) : Prop :=
  s.ended t ∨ s.Relieved a t ∧ ¬ s.Alone t

/-- The step takes the processor from the running thread for one with a higher priority,
before its slice has ended. -/
def Preempted (s : SliceState τ) (a : SchedStep τ) (next : Scheduler τ) (t : τ) : Prop :=
  s.sched.currentThread = some t ∧ s.sched.Running t ∧ ¬ s.HasEnded a t ∧
    ∃ u, next.currentThread = some u ∧ s.sched.currentPriority u < s.sched.currentPriority t

/-- What a step of the scheduler to `next` means for the threads. -/
def observe (s : SliceState τ) (a : SchedStep τ) (next : Scheduler τ) : SliceState τ where
  sched := next
  guarded t u := s.Joins a t u ∨
    s.guarded t u ∧ ¬ s.Relieved a t ∧ ¬ a.Stops t ∧ ¬ a.Stops u ∧ next.currentThread ≠ some u
  ended t := s.HasEnded a t ∧ next.currentThread = some t
  ahead t u :=
    s.Preempted a next t ∧ u ∈ s.sched.priorityTable (s.sched.currentPriority t) ∨
    s.ahead t u ∧ ¬ a.Leaves t ∧ ¬ a.Leaves u ∧ next.currentThread ≠ some t ∧
      next.currentThread ≠ some u

/-- Before the start of the scheduler, with threads of these priorities and slices. -/
def init (currentPriority initTick : τ → Nat) : SliceState τ where
  sched := .init currentPriority initTick
  guarded _ _ := False
  ended _ := False
  ahead _ _ := False

/-- Where the step passes the processor from `t` to `u`: if `t` could run on, and `u` with the
same priority has joined it when it was alone, the slice of `t` has ended, or `t` has yielded
or blocked, since then; and no thread that was preempted within its slice waits for `u`, which
waited already. -/
def SliceRight (s : SliceState τ) (a : SchedStep τ) (mid : SliceState τ) : Prop :=
  ∀ t u, s.sched.currentThread = some t → mid.sched.currentThread = some u → u ≠ t →
    (s.sched.Running t → s.sched.currentPriority u = s.sched.currentPriority t →
      s.guarded t u → s.Relieved a t) ∧
    ∀ v, ¬ s.ahead v u

/-- A current thread that is alone at its priority has no `RT_THREAD_STAT_YIELD` when a thread
of its priority becomes ready, or when a change of priority makes a ready thread and it equal. -/
def Fresh (s : SliceState τ) : SchedStep τ → Prop
  | .ready u => ∀ t, s.sched.currentThread = some t → u ≠ t →
      (s.sched.stat u).state = .suspend →
      s.sched.currentPriority u = s.sched.currentPriority t → s.Alone t →
      (s.sched.stat t).yield = false
  | .updatePriority u p => ∀ t, s.sched.currentThread = some t → s.Alone t →
      (u = t ∧ s.sched.priorityTable p ≠ [] ∨
        u ≠ t ∧ (s.sched.stat u).state = .ready ∧ p = s.sched.currentPriority t) →
      (s.sched.stat t).yield = false
  | _ => True

/-- The scheduler with what its threads rely on. -/
def machine [DecidableEq τ] : Machine (SliceState τ) (SchedStep τ) where
  step s a := (schedulerMachine.step s.sched a).map (s.observe a)

/-! ## The invariant -/

/-- The flag of a thread that others wait for has been set since they wait, and a preempted
thread is in front of those that waited before it. -/
structure Kept (s : SliceState τ) : Prop where
  wellFormed : s.sched.WellFormed
  guarded : ∀ t u, s.guarded t u → (s.sched.stat t).yield = false
  ended : ∀ t, s.sched.currentThread = some t → (s.sched.stat t).yield = true → ¬ s.Alone t →
    s.ended t
  ahead : ∀ t u, s.ahead t u → ∃ p, [t, u].Sublist (s.sched.priorityTable p)

theorem kept_init (currentPriority initTick : τ → Nat) :
    (init currentPriority initTick).Kept where
  wellFormed := Scheduler.wellFormed_init currentPriority initTick
  guarded t u h := h.elim
  ended t h := by cases h
  ahead t u h := h.elim

variable {s : SliceState τ} {a : SchedStep τ} {next : Scheduler τ}

/-- A step after which the same thread is current. -/
theorem Kept.still (h : s.Kept) (hwf : next.WellFormed)
    (hcurrent : next.currentThread = s.sched.currentThread)
    (hyield : ∀ t, (next.stat t).yield = true →
      s.Relieved a t ∨ (s.sched.stat t).yield = true)
    (hjoins : ∀ t u, s.Joins a t u → (s.sched.stat t).yield = false)
    (halone : ∀ t, s.sched.currentThread = some t →
      s.Relieved a t ∨ (s.sched.stat t).yield = true → s.Alone t →
      next.priorityTable (next.currentPriority t) = [])
    (hahead : ∀ t u p, ¬ a.Leaves t → ¬ a.Leaves u → [t, u].Sublist (s.sched.priorityTable p) →
      [t, u].Sublist (next.priorityTable p)) :
    (s.observe a next).Kept ∧ s.SliceRight a (s.observe a next) := by
  refine ⟨⟨hwf, fun t u hguard => ?_, fun t ht hset hjoined => ?_, fun t u hbefore => ?_⟩,
    fun t u ht hu hne => ?_⟩
  · have hold : ¬ s.Relieved a t ∧ (s.sched.stat t).yield = false := by
      rcases hguard with hnew | ⟨hguard, hrelieved, -⟩
      · refine ⟨fun hrelieved => ?_, hjoins t u hnew⟩
        rcases hrelieved.2 with heq | ⟨n, heq, -⟩
        · cases hnew.1.symm.trans heq
        · cases hnew.1.symm.trans heq
      · exact ⟨hrelieved, h.guarded t u hguard⟩
    by_contra hset
    rcases hyield t ((Bool.not_eq_false _).mp hset) with hrelieved | hstale
    · exact hold.1 hrelieved
    · rw [hold.2] at hstale
      cases hstale
  · have ht' : s.sched.currentThread = some t := hcurrent.symm.trans ht
    have hset' := hyield t hset
    have hcompany : ¬ s.Alone t := fun hempty => hjoined (halone t ht' hset' hempty)
    refine ⟨?_, ht⟩
    rcases hset' with hrelieved | hstale
    · exact .inr ⟨hrelieved, hcompany⟩
    · exact .inl (h.ended t ht' hstale hcompany)
  · rcases hbefore with ⟨⟨ht, -, -, u', hu', hlt⟩, -⟩ | ⟨hold, hleaves, hleaves', -⟩
    · obtain rfl : t = u' := Option.some.inj (ht.symm.trans (hcurrent.symm.trans hu'))
      exact absurd hlt (Nat.lt_irrefl _)
    · obtain ⟨p, hp⟩ := h.ahead t u hold
      exact ⟨p, hahead t u p hleaves hleaves' hp⟩
  · have hsame : u = t := Option.some.inj (hu.symm.trans (hcurrent.trans ht))
    exact absurd hsame hne

/-- The scheduler at the call of `rt_schedule` in a step: at most the current thread has been
relieved. -/
structure Marked (s : SliceState τ) (a : SchedStep τ) (marked : Scheduler τ) : Prop where
  wellFormed : marked.WellFormed
  current : marked.currentThread = s.sched.currentThread
  table : marked.priorityTable = s.sched.priorityTable
  priority : marked.currentPriority = s.sched.currentPriority
  running : ∀ t, marked.Running t ↔ s.sched.Running t
  yield : ∀ t, (marked.stat t).yield = true → s.Relieved a t ∨ (s.sched.stat t).yield = true

/-- The scheduler as it is, but for its lock and the ticks that remain. -/
theorem Kept.marked_self (h : s.Kept) {marked : Scheduler τ}
    (hcurrent : marked.currentThread = s.sched.currentThread)
    (htable : marked.priorityTable = s.sched.priorityTable)
    (hgroup : marked.readyPriorityGroup = s.sched.readyPriorityGroup)
    (hpriority : marked.currentPriority = s.sched.currentPriority)
    (hstat : marked.stat = s.sched.stat) : s.Marked a marked where
  wellFormed := by
    have hwf := h.wellFormed
    constructor
    · constructor
      · rw [htable, hgroup]
        exact hwf.group
      · rw [htable, hpriority, hstat]
        exact hwf.member
      · rw [htable]
        exact hwf.nodup
    · rw [hcurrent, hstat]
      exact hwf.current
    · rw [hcurrent, hstat]
      exact hwf.yield
  current := hcurrent
  table := htable
  priority := hpriority
  running t := by rw [Scheduler.Running, Scheduler.Running, hstat]
  yield t ht := by
    rw [hstat] at ht
    exact .inr ht

/-- A step that at most relieves the current thread. -/
theorem Kept.keep (h : s.Kept) (hmarked : s.Marked a next)
    (hjoins : ∀ t u, ¬ s.Joins a t u) :
    (s.observe a next).Kept ∧ s.SliceRight a (s.observe a next) := by
  refine h.still hmarked.wellFormed hmarked.current hmarked.yield
    (fun t u hjoin => absurd hjoin (hjoins t u)) (fun t _ _ halone => ?_) fun t u p _ _ hsub => ?_
  · rw [hmarked.table, hmarked.priority]
    exact halone
  · rw [hmarked.table]
    exact hsub

/-- The first member of a ready queue has no thread in front of it. -/
theorem not_sublist_of_nodup {t u : τ} {rest : List τ} (h : (u :: rest).Nodup) :
    ¬ [t, u].Sublist (u :: rest) := by
  intro hsub
  obtain ⟨hnot, -⟩ := List.nodup_cons.mp h
  cases hsub with
  | cons _ hrest => exact hnot (hrest.subset (List.mem_cons_of_mem t List.mem_cons_self))
  | cons_cons _ hrest => exact hnot (hrest.subset List.mem_cons_self)

variable [DecidableEq τ]

/-- Two threads that stay keep their order. -/
theorem sublist_erase {t u v : τ} {queue : List τ} (h : [t, u].Sublist queue) (ht : v ≠ t)
    (hu : v ≠ u) : [t, u].Sublist (queue.erase v) := by
  have herase := h.erase v
  rwa [List.erase_of_not_mem (by simp [ht, hu])] at herase

/-- A switch: `marked` is the scheduler when `rt_schedule` is called in the step. -/
theorem Kept.switch {marked : Scheduler τ} {curr dest : τ} {rest : List τ} {p : Nat}
    (h : s.Kept) (hmarked : s.Marked a marked) (hcurr : s.sched.currentThread = some curr)
    (hqueue : s.sched.priorityTable p = dest :: rest)
    (hwins : marked.Running curr → p < marked.currentPriority curr ∨
      p = marked.currentPriority curr ∧ (marked.stat curr).yield = true)
    (hswitch : marked.SwitchedTo curr dest next) :
    (s.observe a next).Kept ∧ s.SliceRight a (s.observe a next) := by
  have htable := hmarked.table
  have hpriority := hmarked.priority
  have hrunning := hmarked.running
  have hyield := hmarked.yield
  have hin : dest ∈ s.sched.priorityTable p := hqueue ▸ List.mem_cons_self
  have hdest : s.sched.currentPriority dest = p := (h.wellFormed.member p dest hin).1
  have hfirst : ∀ v, ¬ s.ahead v dest := by
    intro v hv
    obtain ⟨q, hq⟩ := h.ahead v dest hv
    have hmem : dest ∈ s.sched.priorityTable q :=
      hq.subset (List.mem_cons_of_mem v List.mem_cons_self)
    obtain rfl : q = p := (h.wellFormed.member q dest hmem).1.symm.trans hdest
    have hnodup := h.wellFormed.nodup q
    rw [hqueue] at hq hnodup
    exact not_sublist_of_nodup hnodup hq
  have hnextTable : ∀ q, next.priorityTable q = (if s.sched.Running curr then
      marked.inserted curr q else s.sched.priorityTable q).erase dest := by
    intro q
    rw [hswitch.table, Scheduler.switched, htable]
    simp only [hrunning]
  constructor
  · refine ⟨hswitch.wellFormed, fun t u _ => hswitch.notYield t, fun t _ hset _ => ?_,
      fun t u hbefore => ?_⟩
    · have hclear := hswitch.notYield t
      rw [show (next.stat t).yield = true from hset] at hclear
      cases hclear
    · rcases hbefore with ⟨⟨ht, hrun, hfresh, u', hu', hlt⟩, hmem⟩ | ⟨hold, -, -, ht, hu⟩
      · -- the preempted thread goes in front of its queue, as it has no flag
        obtain rfl : curr = t := Option.some.inj (hcurr.symm.trans ht)
        obtain rfl : dest = u' := Option.some.inj (hswitch.current.symm.trans hu')
        have hjoined : ¬ s.Alone curr := fun hempty => by
          rw [Alone] at hempty
          rw [hempty] at hmem
          cases hmem
        have hclear : (marked.stat curr).yield = false := by
          by_contra hset
          rcases hyield curr ((Bool.not_eq_false _).mp hset) with hrel | hstale
          · exact hfresh (.inr ⟨hrel, hjoined⟩)
          · exact hfresh (.inl (h.ended curr ht hstale hjoined))
        refine ⟨s.sched.currentPriority curr, ?_⟩
        show [curr, u].Sublist (next.priorityTable _)
        have hnot : dest ∉ curr :: s.sched.priorityTable (s.sched.currentPriority curr) := by
          rw [List.mem_cons, not_or]
          refine ⟨fun heq => Nat.lt_irrefl _ (heq ▸ hlt), fun hmem' => ?_⟩
          exact Nat.lt_irrefl _ ((h.wellFormed.member _ dest hmem').1 ▸ hlt)
        rw [hnextTable, if_pos hrun, Scheduler.inserted, hpriority, if_pos rfl, hclear, htable,
          if_neg Bool.false_ne_true, List.erase_of_not_mem hnot]
        exact (List.singleton_sublist.mpr hmem).cons_cons curr
      · obtain ⟨q, hq⟩ := h.ahead t u hold
        refine ⟨q, ?_⟩
        show [t, u].Sublist (next.priorityTable q)
        rw [hnextTable]
        have hkept : [t, u].Sublist (if s.sched.Running curr then marked.inserted curr q
            else s.sched.priorityTable q) := by
          split
          · rw [← htable] at hq
            exact hq.trans (marked.sublist_inserted curr q)
          · exact hq
        exact sublist_erase hkept (fun heq => ht (heq ▸ hswitch.current))
          fun heq => hu (heq ▸ hswitch.current)
  · intro t u ht hu hne
    obtain rfl : curr = t := Option.some.inj (hcurr.symm.trans ht)
    obtain rfl : dest = u := Option.some.inj (hswitch.current.symm.trans hu)
    refine ⟨fun hrun hequal hguard => ?_, hfirst⟩
    rw [hdest] at hequal
    rcases hwins ((hrunning curr).mpr hrun) with hlt | ⟨-, hset⟩
    · rw [hpriority, hequal] at hlt
      exact absurd hlt (Nat.lt_irrefl _)
    · rcases hyield curr hset with hrel | hstale
      · exact hrel
      · rw [h.guarded curr dest hguard] at hstale
        cases hstale

/-- A step that ends with `rt_schedule`. -/
theorem Kept.schedule {marked : Scheduler τ} (h : s.Kept) (hmarked : s.Marked a marked)
    (hready : ∀ u, a ≠ .ready u) :
    (s.observe a marked.schedule).Kept ∧ s.SliceRight a (s.observe a marked.schedule) := by
  rcases hmarked.wellFormed.schedule_cases with
    ⟨flag, hsame⟩ | ⟨curr, dest, rest, p, hcurr, hqueue, hwins, hswitch⟩
  · have hwf := hmarked.wellFormed
    rw [hsame]
    exact h.keep ⟨⟨⟨hwf.group, hwf.member, hwf.nodup⟩, hwf.current, hwf.yield⟩, hmarked.current,
      hmarked.table, hmarked.priority, hmarked.running, hmarked.yield⟩
      fun t u hjoin => hready u hjoin.1
  · exact h.switch hmarked (hmarked.current ▸ hcurr) (hmarked.table ▸ hqueue) hwins hswitch

/-- The scheduler when its current thread has been relieved. -/
theorem Kept.marked_yield (h : s.Kept) {t : τ} {remaining : τ → Nat}
    (hrelieved : s.Relieved a t) :
    s.Marked a ({ s.sched with remainingTick := remaining }.schedThreadYield t) := by
  have hwf := h.wellFormed
  have hout := hwf.not_mem_current hrelieved.1
  have hstat := hwf.update_stat (x := { s.sched.stat t with yield := true }) hout
    (fun hready => absurd hready (hwf.current t hrelieved.1)) fun _ => hrelieved.1
  refine ⟨⟨⟨hwf.group, hstat.member, hwf.nodup⟩, hstat.current, hstat.yield⟩, rfl, rfl, rfl,
    fun u => ?_, fun u hu => ?_⟩
  · by_cases hut : u = t
    · subst hut
      simp [Scheduler.Running, Scheduler.schedThreadYield]
    · simp [Scheduler.Running, Scheduler.schedThreadYield, Function.update_of_ne hut]
  · by_cases hut : u = t
    · subst hut
      exact .inl hrelieved
    · simp only [Scheduler.schedThreadYield, Function.update_of_ne hut] at hu
      exact .inr hu

/-! ## The steps -/

theorem Kept.systemStart (h : s.Kept) (hnext : s.sched.systemSchedulerStart = some next) :
    (s.observe .systemStart next).Kept ∧
      s.SliceRight .systemStart (s.observe .systemStart next) := by
  obtain ⟨hnone, hwf, hyield, dest, hdest, htable⟩ :=
    h.wellFormed.systemSchedulerStart hnext
  refine ⟨⟨hwf, fun t u _ => hyield t, fun t _ hset _ => ?_, fun t u hbefore => ?_⟩,
    fun t u ht => ?_⟩
  · have hclear := hyield t
    rw [show (next.stat t).yield = true from hset] at hclear
    cases hclear
  · rcases hbefore with ⟨⟨ht, -⟩, -⟩ | ⟨hbefore, -, -, ht, hu⟩
    · rw [hnone] at ht
      cases ht
    · obtain ⟨p, hp⟩ := h.ahead t u hbefore
      refine ⟨p, ?_⟩
      show [t, u].Sublist (next.priorityTable p)
      rw [htable]
      exact sublist_erase hp (fun heq => ht (heq ▸ hdest)) fun heq => hu (heq ▸ hdest)
  · rw [hnone] at ht
    cases ht

theorem Kept.startup {t : τ} (h : s.Kept) (hnext : s.sched.schedThreadStartup t = some next) :
    (s.observe (.startup t) next).Kept ∧
      s.SliceRight (.startup t) (s.observe (.startup t) next) := by
  have hwf := h.wellFormed
  unfold Scheduler.schedThreadStartup at hnext
  split at hnext
  · rename_i hinit
    obtain rfl := Option.some.inj hnext
    have hout := hwf.not_mem (t := t) (by rw [hinit]; simp)
    refine h.still (hwf.resetStat hout (by simp)) rfl (fun u hu => ?_)
      (fun v u hjoin => by cases hjoin.1) (fun u _ _ halone => halone) fun _ _ _ _ _ hsub => hsub
    by_cases hut : u = t
    · subst hut
      simp [Scheduler.resetStat] at hu
    · simp only [Scheduler.resetStat, Function.update_of_ne hut] at hu
      exact .inr hu
  · cases hnext

theorem Kept.ready {u : τ} (h : s.Kept) (hfresh : s.Fresh (.ready u)) :
    (s.observe (.ready u) (s.sched.schedThreadReady u)).Kept ∧
      s.SliceRight (.ready u) (s.observe (.ready u) (s.sched.schedThreadReady u)) := by
  have hwf := h.wellFormed
  unfold Scheduler.schedThreadReady
  split
  · rename_i hsuspend
    have hout := hwf.not_mem (t := u) (by rw [hsuspend]; simp)
    have hnext := hwf.insertThread hout
    by_cases hcurrent : s.sched.currentThread = some u
    · -- the current thread goes on
      rw [Scheduler.insertThread, if_pos hcurrent] at hnext ⊢
      refine h.still hnext rfl (fun t ht => ?_) (fun t v hjoin => ?_)
        (fun t _ _ halone => halone) fun _ _ _ _ _ hsub => hsub
      · by_cases htu : t = u
        · subst htu
          simp only [Scheduler.setState, Function.update_self] at ht
          exact .inr ht
        · simp only [Scheduler.setState, Function.update_of_ne htu] at ht
          exact .inr ht
      · obtain ⟨hready, -, ht, hrunning, -⟩ := hjoin
        obtain rfl : u = v := SchedStep.ready.inj hready
        obtain rfl : u = t := Option.some.inj (hcurrent.symm.trans ht)
        rw [Scheduler.Running, hsuspend] at hrunning
        cases hrunning
    · have hother : ∀ t, s.sched.currentThread = some t → u ≠ t := fun t ht heq =>
        hcurrent (heq ▸ ht)
      rw [Scheduler.insertThread_eq hcurrent] at hnext ⊢
      refine h.still hnext rfl (fun t ht => ?_) (fun t v hjoin => ?_) (fun t ht hset halone => ?_)
        fun t v p _ _ hsub => hsub.trans (s.sched.sublist_inserted u p)
      · by_cases htu : t = u
        · subst htu
          simp only [Function.update_self] at ht
          exact .inr ht
        · simp only [Function.update_of_ne htu] at ht
          exact .inr ht
      · obtain ⟨hready, -, ht, -, hequal, halone⟩ := hjoin
        obtain rfl : u = v := SchedStep.ready.inj hready
        exact hfresh t ht (hother t ht) hsuspend hequal halone
      · have hstale : (s.sched.stat t).yield = true := by
          rcases hset with ⟨-, heq | ⟨n, heq, -⟩⟩ | hstale
          · cases heq
          · cases heq
          · exact hstale
        show s.sched.inserted u (s.sched.currentPriority t) = []
        rw [Scheduler.inserted, if_neg fun hequal => ?_]
        · exact halone
        · rw [hfresh t ht (hother t ht) hsuspend hequal.symm halone] at hstale
          cases hstale
  · rename_i hsuspend
    exact h.keep (h.marked_self rfl rfl rfl rfl rfl) fun t v hjoin =>
      hsuspend (SchedStep.ready.inj hjoin.1 ▸ hjoin.2.1)

/-- A thread leaves its ready queue, and its `stat` changes. -/
theorem Kept.stop {u : τ} {x : SchedStat} (h : s.Kept) (hstops : a.Stops u)
    (hready : x.state ≠ .ready) (hyield : x.yield = true → (s.sched.stat u).yield = true)
    (hnext : next = { s.sched.removeThread u with stat := Function.update s.sched.stat u x }) :
    (s.observe a next).Kept ∧ s.SliceRight a (s.observe a next) := by
  have hwf := h.wellFormed
  have hremoved := (hwf.removeThread u).update_stat (x := x) (hwf.not_mem_removeThread u)
    (fun hstate => absurd hstate hready) fun hset => hwf.yield u (hyield hset)
  have htable : ∀ p, next.priorityTable p = (s.sched.priorityTable p).erase u := fun p => by
    rw [hnext]
    exact hwf.removeThread_table u p
  have hquiet : ∀ v, a ≠ .ready v := by
    rintro v rfl
    rcases hstops with heq | heq <;> cases heq
  refine h.still (hnext ▸ hremoved) (by rw [hnext]; rfl) (fun t ht => ?_)
    (fun t v hjoin => absurd hjoin.1 (hquiet v)) (fun t _ _ halone => ?_)
    fun t v p ht hv hsub => ?_
  · rw [hnext] at ht
    by_cases htu : t = u
    · subst htu
      simp only [Function.update_self] at ht
      exact .inr (hyield ht)
    · simp only [Function.update_of_ne htu] at ht
      exact .inr ht
  · rw [htable, show next.currentPriority t = s.sched.currentPriority t by rw [hnext]; rfl,
      show s.sched.priorityTable (s.sched.currentPriority t) = [] from halone]
    rfl
  · rw [htable]
    exact sublist_erase hsub (fun heq => ht (.inl (heq ▸ hstops))) fun heq =>
      hv (.inl (heq ▸ hstops))

theorem Kept.suspend {u : τ} (h : s.Kept) :
    (s.observe (.suspend u) (s.sched.threadSuspend u)).Kept ∧
      s.SliceRight (.suspend u) (s.observe (.suspend u) (s.sched.threadSuspend u)) := by
  unfold Scheduler.threadSuspend
  split
  · exact h.stop (.inl rfl) (x := { s.sched.stat u with state := .suspend }) (by simp) id rfl
  · exact h.keep (h.marked_self rfl rfl rfl rfl rfl) fun t v hjoin => by cases hjoin.1

theorem Kept.close {u : τ} (h : s.Kept) :
    (s.observe (.close u) (s.sched.threadClose u)).Kept ∧
      s.SliceRight (.close u) (s.observe (.close u) (s.sched.threadClose u)) := by
  unfold Scheduler.threadClose
  cases hstate : (s.sched.stat u).state with
  | close => exact h.keep (h.marked_self rfl rfl rfl rfl rfl) fun t v hjoin => by cases hjoin.1
  | init =>
    have hout := h.wellFormed.not_mem (t := u) (by rw [hstate]; simp)
    refine h.stop (.inr rfl) (x := { state := .close }) (by simp) (fun hset => by cases hset) ?_
    rw [h.wellFormed.removeThread_eq hout]
    rfl
  | ready | running | suspend =>
    exact h.stop (.inr rfl) (x := { state := .close }) (by simp) (fun hset => by cases hset) rfl

theorem Kept.updatePriority {u : τ} {p : Nat} (h : s.Kept)
    (hfresh : s.Fresh (.updatePriority u p)) :
    (s.observe (.updatePriority u p) (s.sched.updatePriority u p)).Kept ∧
      s.SliceRight (.updatePriority u p)
        (s.observe (.updatePriority u p) (s.sched.updatePriority u p)) := by
  have hwf := h.wellFormed
  have hleaves : ∀ t, ¬ (SchedStep.updatePriority u p).Leaves t → u ≠ t := fun t ht heq =>
    ht (.inr ⟨p, heq ▸ rfl⟩)
  have hstale : ∀ t, s.Relieved (.updatePriority u p) t ∨ (s.sched.stat t).yield = true →
      (s.sched.stat t).yield = true := by
    rintro t (⟨-, heq | ⟨n, heq, -⟩⟩ | hstale)
    · cases heq
    · cases heq
    · exact hstale
  by_cases hready : (s.sched.stat u).state = .ready
  · obtain ⟨hnext, hcurrent, hpriority, hyield, htable⟩ :=
      hwf.updatePriority_ready (p := p) hready
    refine h.still hnext hcurrent (fun t ht => .inr (hyield t ht))
      (fun t v hjoin => by cases hjoin.1) (fun t ht hset halone => ?_) fun t v q ht hv hsub => ?_
    · have htu : t ≠ u := fun heq => hwf.current t ht (heq ▸ hready)
      rw [hpriority, Function.update_of_ne htu, htable, if_neg fun hequal => ?_,
        show s.sched.priorityTable (s.sched.currentPriority t) = [] from halone]
      · rfl
      · have hclear := hfresh t ht halone (.inr ⟨htu.symm, hready, hequal.symm⟩)
        rw [hstale t hset] at hclear
        cases hclear
    · have hkept := sublist_erase hsub (hleaves t ht) (hleaves v hv)
      rw [htable]
      split
      · exact hkept.cons u
      · exact hkept
  · rw [Scheduler.updatePriority, if_neg hready]
    have hout := hwf.not_mem hready
    refine h.still ⟨⟨hwf.group, fun q t ht => ?_, hwf.nodup⟩, hwf.current, hwf.yield⟩ rfl
      (fun t ht => .inr ht) (fun t v hjoin => by cases hjoin.1) (fun t ht hset halone => ?_)
      fun _ _ _ _ _ hsub => hsub
    · have hne : t ≠ u := fun heq => hout q (heq ▸ ht)
      simp only [Function.update_of_ne hne]
      exact hwf.member q t ht
    · by_cases htu : t = u
      · subst htu
        by_contra hcompany
        simp only [Function.update_self] at hcompany
        have hclear := hfresh t ht halone (.inl ⟨rfl, hcompany⟩)
        rw [hstale t hset] at hclear
        cases hclear
      · simp only [Function.update_of_ne htu]
        exact halone

theorem Kept.tick {t : τ} {n : Nat} (h : s.Kept) (ht : s.sched.currentThread = some t) :
    (s.observe (.tick n) (s.sched.schedTickIncrease t n)).Kept ∧
      s.SliceRight (.tick n) (s.observe (.tick n) (s.sched.schedTickIncrease t n)) := by
  unfold Scheduler.schedTickIncrease
  dsimp only
  by_cases hover : s.sched.remainingTick t ≤ n
  · rw [if_neg (Nat.not_lt.mpr hover), if_neg (not_not.mpr rfl)]
    exact h.schedule (h.marked_yield ⟨ht, .inr ⟨n, rfl, hover⟩⟩) (by simp)
  · have hlt := Nat.lt_of_not_le hover
    rw [if_pos hlt, if_pos (Nat.sub_ne_zero_of_lt hlt)]
    exact h.keep (h.marked_self rfl rfl rfl rfl rfl) fun u v hjoin => by cases hjoin.1

theorem Kept.yield {t : τ} (h : s.Kept) (ht : s.sched.currentThread = some t) :
    (s.observe .yield (s.sched.threadYield t)).Kept ∧
      s.SliceRight .yield (s.observe .yield (s.sched.threadYield t)) :=
  h.schedule (h.marked_yield ⟨ht, .inl rfl⟩) (by simp)

theorem Kept.exitSwitch (h : s.Kept) :
    (s.observe .exitSwitch s.sched.exitSwitch).Kept ∧
      s.SliceRight .exitSwitch (s.observe .exitSwitch s.sched.exitSwitch) := by
  unfold Scheduler.exitSwitch
  split
  · exact h.schedule (h.marked_self rfl rfl rfl rfl rfl) (by simp)
  · exact h.keep (h.marked_self rfl rfl rfl rfl rfl) fun u v hjoin => by cases hjoin.1

theorem Kept.step {mid : SliceState τ} (h : s.Kept) (hfresh : s.Fresh a)
    (hstep : machine.step s a = some mid) : mid.Kept ∧ s.SliceRight a mid := by
  obtain ⟨next, hnext, rfl⟩ := Option.map_eq_some_iff.mp hstep
  cases a with
  | systemStart => exact h.systemStart hnext
  | startup t => exact h.startup hnext
  | ready t =>
    obtain rfl := Option.some.inj hnext
    exact h.ready hfresh
  | suspend t =>
    obtain rfl := Option.some.inj hnext
    exact h.suspend
  | close t =>
    obtain rfl := Option.some.inj hnext
    exact h.close
  | updatePriority t p =>
    by_cases hp : p < rtThreadPriorityMax
    · obtain rfl : _ = next := by simpa [schedulerMachine, hp] using hnext
      exact h.updatePriority hfresh
    · simp [schedulerMachine, hp] at hnext
  | tick n =>
    obtain ⟨t, ht, rfl⟩ := Option.map_eq_some_iff.mp hnext
    exact h.tick ht
  | yield =>
    obtain ⟨t, ht, rfl⟩ := Option.map_eq_some_iff.mp hnext
    exact h.yield ht
  | schedule =>
    obtain rfl := Option.some.inj hnext
    exact h.schedule (h.marked_self rfl rfl rfl rfl rfl) (by simp)
  | enterCritical | exitCritical =>
    obtain rfl := Option.some.inj hnext
    exact h.keep (h.marked_self rfl rfl rfl rfl rfl) fun u v hjoin => by cases hjoin.1
  | exitSwitch =>
    by_cases hlock : s.sched.lockNest = 0
    · obtain rfl : _ = next := by simpa [schedulerMachine, hlock] using hnext
      exact h.exitSwitch
    · simp [schedulerMachine, hlock] at hnext

/-- In every run in which no thread joins a current thread that carries a flag from the time
when it was alone, threads of one priority take turns by whole slices, and a preempted thread
runs on before those that waited. -/
theorem timeSlice_right (currentPriority initTick : τ → Nat) (schedule : List (SchedStep τ))
    (hfresh : machine.Admitted Fresh (init currentPriority initTick) schedule) :
    machine.AllSteps SliceRight (init currentPriority initTick) schedule :=
  Machine.allSteps_of_admitted (fun _ _ _ hok hstep h => Kept.step h hok hstep) schedule
    (kept_init currentPriority initTick) hfresh

/-- The idle thread, and two threads of one priority. -/
def idleAndTwo : Fin 3 → Nat := ![31, 10, 10]

/-- The second of the two joins the first within a slice, and waits. -/
theorem timeSlice_right_two :
    machine.AllSteps SliceRight (init idleAndTwo fun _ => 5)
      [.startup 0, .ready 0, .startup 1, .ready 1, .systemStart, .startup 2, .tick 3, .ready 2,
        .schedule] := by
  refine timeSlice_right _ _ _ (.cons trivial rfl (.cons (fun t ht => ?_) rfl (.cons trivial rfl
    (.cons (fun t ht => ?_) rfl (.cons trivial rfl (.cons trivial rfl (.cons trivial rfl
      (.cons (fun t ht _ _ _ _ => ?_) rfl (.cons trivial rfl trivial)))))))))
  · cases ht
  · cases ht
  · obtain rfl : 1 = t := Option.some.inj ht
    rfl

/-! ## A flag that is left over -/

/-- The first of the two comes to the end of a slice alone, and the second joins it. -/
def leftOver : List (SchedStep (Fin 3)) :=
  [.startup 0, .ready 0, .startup 1, .ready 1, .systemStart, .startup 2, .tick 5, .ready 2,
    .schedule]

/-- At once the second takes the place of the first. -/
theorem not_timeSlice :
    ¬ machine.AllSteps SliceRight (init idleAndTwo fun _ => 5) leftOver := by
  intro h
  have hlast := ((((((((h _ rfl).2 _ rfl).2 _ rfl).2 _ rfl).2 _ rfl).2 _ rfl).2 _ rfl).2 _ rfl).2
    _ rfl |>.1
  have hswitch := (hlast 1 2 rfl rfl (by decide)).1 rfl rfl (.inl ⟨rfl, rfl, rfl, rfl, rfl, rfl⟩)
  rcases hswitch.2 with heq | ⟨n, heq, -⟩
  · cases heq
  · cases heq

end SliceState

end Gd32Vw553h.Kernel
