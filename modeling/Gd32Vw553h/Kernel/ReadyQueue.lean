/-
  Kernel/ReadyQueue.lean --- the ready queue and the lists of one node
  (`rt-thread/src/scheduler_up.c`, `scheduler_comm.c`, `thread.c`, `defunct.c`).

  A thread has one list node.  It stands in the ready queue, in the suspend list of an IPC
  object or in `_rt_thread_defunct`, or in none of them.  `Sound` is the invariant of the
  ready queue: a thread is in the queue of its priority exactly when it is ready.  From it
  follows what `rt_schedule` chooses (`Sound.schedule_top`), in whatever order threads and
  interrupt handlers come to it (`readyQueue_right`).
-/
import Gd32Vw553h.Ipc.SuspList
import Gd32Vw553h.Kernel.Scheduler
import Mathlib.Data.Fin.VecNotation

set_option autoImplicit false

namespace Gd32Vw553h.Kernel

open Gd32Vw553h.Foundation

/-! ## The invariant of the ready queue -/

namespace Scheduler

variable {τ : Type*} {s next : Scheduler τ} {t u : τ}

/-- Every ready thread is in the queue of its priority, which is one of the table. -/
structure Sound (s : Scheduler τ) : Prop extends WellFormed s where
  placed : ∀ t, (s.stat t).state = .ready → t ∈ s.priorityTable (s.currentPriority t)
  bounded : ∀ t, s.currentPriority t < rtThreadPriorityMax

/-- No ready thread has a higher priority than the current thread. -/
def Top (s : Scheduler τ) : Prop :=
  ∀ curr, s.currentThread = some curr → ∀ t, (s.stat t).state = .ready →
    s.currentPriority curr ≤ s.currentPriority t

theorem sound_init {currentPriority : τ → Nat} (initTick : τ → Nat)
    (hpriority : ∀ t, currentPriority t < rtThreadPriorityMax) :
    (init currentPriority initTick).Sound where
  toWellFormed := wellFormed_init currentPriority initTick
  placed t ht := by cases ht
  bounded := hpriority

/-- A thread is in a queue exactly when it is ready and has the priority of the queue. -/
theorem Sound.mem_iff (h : s.Sound) (t : τ) (p : Nat) :
    t ∈ s.priorityTable p ↔ (s.stat t).state = .ready ∧ s.currentPriority t = p := by
  constructor
  · intro hmem
    obtain ⟨hpriority, hready⟩ := h.member p t hmem
    exact ⟨hready, hpriority⟩
  · rintro ⟨hready, rfl⟩
    exact h.placed t hready

/-- The highest ready priority is at or above that of every ready thread. -/
theorem Sound.highest_le (h : s.Sound) (ht : (s.stat t).state = .ready) :
    ∃ p, s.highestReadyPriority = some p ∧ p ≤ s.currentPriority t := by
  have hbit : s.readyPriorityGroup (s.currentPriority t) = true :=
    (h.group _).mpr (List.ne_nil_of_mem (h.placed t ht))
  cases hhighest : s.highestReadyPriority with
  | none =>
    have hclear := List.find?_range_eq_none.mp hhighest _ (h.bounded t)
    rw [hbit] at hclear
    cases hclear
  | some p =>
    obtain ⟨-, -, hbefore⟩ := List.find?_range_eq_some.mp hhighest
    refine ⟨p, rfl, ?_⟩
    by_contra hlt
    have hclear := hbefore _ (Nat.not_le.mp hlt)
    rw [hbit] at hclear
    cases hclear

/-- Fields that no queue depends on. -/
theorem Sound.congr (h : s.Sound) (hwf : next.WellFormed)
    (htable : next.priorityTable = s.priorityTable)
    (hpriority : next.currentPriority = s.currentPriority)
    (hstate : ∀ t, (next.stat t).state = (s.stat t).state) : next.Sound where
  toWellFormed := hwf
  placed t ht := by
    rw [htable, hpriority]
    exact h.placed t ((hstate t).symm.trans ht)
  bounded t := hpriority ▸ h.bounded t

theorem Sound.withLock (h : s.Sound) (n : Nat) (flag : Bool) :
    { s with lockNest := n, criticalSwitch := flag }.Sound :=
  h.congr ⟨⟨h.group, h.member, h.nodup⟩, h.current, h.yield⟩ rfl rfl fun _ => rfl

theorem Sound.withTicks (h : s.Sound) (remaining : τ → Nat) :
    { s with remainingTick := remaining }.Sound :=
  h.congr ⟨⟨h.group, h.member, h.nodup⟩, h.current, h.yield⟩ rfl rfl fun _ => rfl

variable [DecidableEq τ]

/-- A thread that is in no queue and does not become ready. -/
theorem Sound.update_stat {x : SchedStat} (h : s.Sound) (hout : (s.stat t).state ≠ .ready)
    (hready : x.state ≠ .ready) (hyield : x.yield = true → s.currentThread = some t) :
    { s with stat := Function.update s.stat t x }.Sound where
  toWellFormed := h.toWellFormed.update_stat (h.not_mem hout)
    (fun heq => absurd heq hready) hyield
  placed u hu := by
    by_cases hut : u = t
    · subst hut
      simp only [Function.update_self] at hu
      exact absurd hu hready
    · simp only [Function.update_of_ne hut] at hu
      exact h.placed u hu
  bounded := h.bounded

/-- A thread is taken out of its queue for a state in which it is not ready. -/
theorem Sound.take {x : SchedStat} (h : s.Sound) (hready : x.state ≠ .ready)
    (hyield : x.yield = true → s.currentThread = some t) :
    { s.removeThread t with stat := Function.update s.stat t x }.Sound where
  toWellFormed := (h.toWellFormed.removeThread t).update_stat (h.not_mem_removeThread t)
    (fun heq => absurd heq hready) hyield
  placed u hu := by
    have htable := h.removeThread_table t (s.currentPriority u)
    by_cases hut : u = t
    · subst hut
      simp only [Function.update_self] at hu
      exact absurd hu hready
    · simp only [Function.update_of_ne hut] at hu
      have hmem : u ∈ (s.removeThread t).priorityTable (s.currentPriority u) := by
        rw [htable]
        exact (List.mem_erase_of_ne hut).mpr (h.placed u hu)
      exact hmem
  bounded := h.bounded

/-- A thread that is not ready is inserted. -/
theorem Sound.insertThread (h : s.Sound) (hout : (s.stat t).state ≠ .ready) :
    (s.insertThread t).Sound := by
  have hwf := h.toWellFormed.insertThread (h.not_mem hout)
  by_cases hcurrent : s.currentThread = some t
  · rw [Scheduler.insertThread, if_pos hcurrent]
    exact h.update_stat hout (by simp) (h.yield t)
  · rw [insertThread_eq hcurrent] at hwf ⊢
    refine { hwf with placed := fun u hu => ?_, bounded := h.bounded }
    refine (mem_inserted_iff _).mpr ?_
    by_cases hut : u = t
    · subst hut
      exact .inl ⟨rfl, rfl⟩
    · simp only [Function.update_of_ne hut] at hu
      exact .inr (h.placed u hu)

theorem insertThread_state (hcurrent : s.currentThread ≠ some t) (u : τ) :
    ((s.insertThread t).stat u).state = if u = t then .ready else (s.stat u).state := by
  rw [insertThread_eq hcurrent]
  by_cases hut : u = t
  · simp only [hut, Function.update_self, if_true]
  · simp only [if_neg hut, Function.update_of_ne hut]

theorem insertThread_other {u : τ} (hut : u ≠ t) :
    ((s.insertThread t).stat u).state = (s.stat u).state := by
  by_cases hcurrent : s.currentThread = some t
  · rw [Scheduler.insertThread, if_pos hcurrent]
    simp only [Scheduler.setState, Function.update_of_ne hut]
  · rw [insertThread_state hcurrent, if_neg hut]

/-! ## What `rt_schedule` chooses -/

/-- The states after a switch. -/
theorem switchTo_state {curr dest : τ} (hne : dest ≠ curr) (t : τ) :
    ((s.switchTo curr dest (s.Running curr)).stat t).state =
      if t = dest then .running
      else if t = curr ∧ s.Running curr then .ready else (s.stat t).state := by
  let given : Scheduler τ := { s with currentThread := some dest }
  have hother : given.currentThread ≠ some curr := fun heq => hne (Option.some.inj heq)
  have hgive : s.switchTo curr dest (s.Running curr) =
      (((if s.Running curr then given.insertThread curr else given).clearYield curr).removeThread
        dest).setState dest .running := by
    simp only [Scheduler.switchTo, decide_eq_true_eq, given]
  rw [hgive]
  have hkept : ((if s.Running curr then given.insertThread curr else given).stat t).state =
      if t = curr ∧ s.Running curr then .ready else (s.stat t).state := by
    by_cases hrunning : s.Running curr
    · simp only [hrunning, if_true, and_true]
      exact insertThread_state hother t
    · simp only [hrunning, if_false, and_false, given]
  have hcleared : ∀ (r : Scheduler τ) (t u : τ), ((r.clearYield u).stat t).state =
      (r.stat t).state := fun r t u => by
    by_cases htu : t = u
    · simp only [Scheduler.clearYield, htu, Function.update_self]
    · simp only [Scheduler.clearYield, Function.update_of_ne htu]
  by_cases htd : t = dest
  · simp only [Scheduler.setState, htd, Function.update_self, if_true]
  · rw [if_neg htd, ← hkept]
    refine Eq.trans ?_ (hcleared _ t curr)
    simp only [Scheduler.setState, Scheduler.removeThread, Function.update_of_ne htd]

theorem insertThread_lockNest (s : Scheduler τ) (t : τ) :
    (s.insertThread t).lockNest = s.lockNest := by
  unfold Scheduler.insertThread
  split <;> rfl

theorem switchTo_lockNest (s : Scheduler τ) (curr dest : τ) (insert : Bool) :
    (s.switchTo curr dest insert).lockNest = s.lockNest := by
  cases insert with
  | false => rfl
  | true => exact insertThread_lockNest { s with currentThread := some dest } curr

theorem Sound.switchTo {curr dest : τ} {p : Nat} (h : s.Sound)
    (hcurr : s.currentThread = some curr) (hdest : dest ∈ s.priorityTable p) :
    (s.switchTo curr dest (s.Running curr)).Sound := by
  have hswitch := h.toWellFormed.switchTo hcurr hdest
  have hne : dest ≠ curr := fun heq => h.not_mem_current hcurr p (heq ▸ hdest)
  refine { hswitch.wellFormed with placed := fun t ht => ?_, bounded := fun t => ?_ }
  · rw [switchTo_state hne] at ht
    rw [hswitch.table, hswitch.priority, switched]
    by_cases htd : t = dest
    · rw [if_pos htd] at ht
      cases ht
    · rw [if_neg htd] at ht
      refine (List.mem_erase_of_ne htd).mpr ?_
      by_cases hrunning : s.Running curr
      · rw [if_pos hrunning, mem_inserted_iff]
        by_cases htc : t = curr
        · exact .inl ⟨by rw [htc], htc⟩
        · rw [if_neg fun hand => htc hand.1] at ht
          exact .inr (h.placed t ht)
      · rw [if_neg fun hand => hrunning hand.2] at ht
        rw [if_neg hrunning]
        exact h.placed t ht
  · rw [hswitch.priority]
    exact h.bounded t

/-- Threads that are suspended or closed stay so. -/
def Rests (s next : Scheduler τ) : Prop :=
  ∀ t, (s.stat t).state = .suspend ∨ (s.stat t).state = .close →
    (next.stat t).state = (s.stat t).state

/-- `rt_schedule` keeps the ready queue. -/
theorem Sound.schedule (h : s.Sound) :
    s.schedule.Sound ∧ s.Rests s.schedule ∧ s.schedule.lockNest = s.lockNest := by
  rcases h.schedule_eq with ⟨-, heq⟩ | ⟨-, heq⟩ | ⟨curr, -, -, heq, -⟩ |
    ⟨curr, dest, rest, p, -, hcurr, -, htable, -, heq⟩
  · rw [heq]
    exact ⟨h, fun _ _ => rfl, rfl⟩
  · rw [heq]
    exact ⟨h.withLock s.lockNest true, fun _ _ => rfl, rfl⟩
  · rw [heq]
    exact ⟨h, fun _ _ => rfl, rfl⟩
  · have hdest : dest ∈ s.priorityTable p := htable ▸ List.mem_cons_self
    have hne : dest ≠ curr := fun heq => h.not_mem_current hcurr p (heq ▸ hdest)
    rw [heq]
    refine ⟨h.switchTo hcurr hdest, fun t ht => ?_, switchTo_lockNest _ _ _ _⟩
    have htd : t ≠ dest := fun htd => by
      rw [htd, (h.member p dest hdest).2] at ht
      rcases ht with ht | ht <;> cases ht
    have htc : ¬ (t = curr ∧ s.Running curr) := fun hand => by
      rw [show (s.stat t).state = .running from hand.1 ▸ hand.2] at ht
      rcases ht with ht | ht <;> cases ht
    rw [switchTo_state hne, if_neg htd, if_neg htc]

/-- With the scheduler unlocked, `rt_schedule` leaves no ready thread above the current one. -/
theorem Sound.schedule_top (h : s.Sound) (hlock : s.lockNest = 0) : s.schedule.Top := by
  intro curr' hcurr' t ht
  rcases h.schedule_eq with ⟨hnone, heq⟩ | ⟨hlocked, -⟩ | ⟨curr, -, hcurr, heq, hstays⟩ |
    ⟨curr, dest, rest, p, -, hcurr, hhighest, htable, hwhy, heq⟩
  · rw [heq, hnone] at hcurr'
    cases hcurr'
  · exact absurd hlock hlocked
  · rw [heq] at hcurr' ht ⊢
    obtain rfl := Option.some.inj (hcurr.symm.trans hcurr')
    obtain ⟨p, hp, hle⟩ := h.highest_le ht
    exact Nat.le_trans (hstays p hp) hle
  · have hdest : dest ∈ s.priorityTable p := htable ▸ List.mem_cons_self
    have hne : dest ≠ curr := fun heq => h.not_mem_current hcurr p (heq ▸ hdest)
    have hswitch := h.toWellFormed.switchTo hcurr hdest
    rw [heq] at hcurr' ht ⊢
    obtain rfl := Option.some.inj (hswitch.current.symm.trans hcurr')
    rw [hswitch.priority, (h.member p dest hdest).1]
    rw [switchTo_state hne] at ht
    by_cases htd : t = dest
    · rw [if_pos htd] at ht
      cases ht
    · rw [if_neg htd] at ht
      by_cases htc : t = curr ∧ s.Running curr
      · obtain ⟨rfl, hrunning⟩ := htc
        rcases hwhy hrunning with hlt | ⟨heq, -⟩
        · exact hlt.le
        · exact heq.le
      · rw [if_neg htc] at ht
        obtain ⟨q, hq, hle⟩ := h.highest_le ht
        obtain rfl := Option.some.inj (hhighest.symm.trans hq)
        exact hle

/-! ## The other functions -/

/-- The start chooses a thread of the highest ready priority. -/
theorem Sound.systemSchedulerStart (h : s.Sound) (hnext : s.systemSchedulerStart = some next) :
    next.Sound ∧ s.Rests next ∧ next.Top ∧ next.lockNest = s.lockNest := by
  obtain ⟨-, hwf, -, dest, hdest, htable⟩ := h.toWellFormed.systemSchedulerStart hnext
  unfold Scheduler.systemSchedulerStart at hnext
  split at hnext
  · rename_i dest' rest hnone hfirst
    obtain rfl := Option.some.inj hnext
    obtain rfl : dest' = dest := Option.some.inj hdest
    obtain ⟨p, hp, hqueue⟩ := Option.map_eq_some_iff.mp hfirst
    have hmem : dest' ∈ s.priorityTable p := hqueue ▸ List.mem_cons_self
    have hready := (h.member p dest' hmem).2
    have hold : ∀ t, t ≠ dest' → ∀ x : SchedStat,
        (Function.update s.stat dest' x t).state = (s.stat t).state := fun t ht x => by
      rw [Function.update_of_ne ht]
    refine ⟨{ hwf with placed := fun t ht => ?_, bounded := h.bounded }, fun t ht => ?_,
      fun curr hcurr t ht => ?_, rfl⟩
    · have htd : t ≠ dest' := fun heq => by
        simp [Scheduler.resetStat, heq] at ht
      rw [htable]
      exact (List.mem_erase_of_ne htd).mpr (h.placed t ((hold t htd _).symm.trans ht))
    · have htd : t ≠ dest' := fun heq => by
        rw [heq, hready] at ht
        rcases ht with ht | ht <;> cases ht
      exact hold t htd _
    · obtain rfl : dest' = curr := Option.some.inj hcurr
      have htd : t ≠ dest' := fun heq => by
        simp [Scheduler.resetStat, heq] at ht
      obtain ⟨q, hq, hle⟩ := h.highest_le ((hold t htd _).symm.trans ht)
      obtain rfl := Option.some.inj (hp.symm.trans hq)
      exact le_of_eq_of_le (h.member p dest' hmem).1 hle
  · cases hnext

theorem Sound.schedThreadStartup (h : s.Sound) (hnext : s.schedThreadStartup t = some next) :
    next.Sound ∧ s.Rests next := by
  unfold Scheduler.schedThreadStartup at hnext
  split at hnext
  · rename_i hinit
    obtain rfl := Option.some.inj hnext
    refine ⟨h.update_stat (by rw [hinit]; simp) (by simp) nofun, fun u hu => ?_⟩
    have hut : u ≠ t := fun heq => by
      rw [heq, hinit] at hu
      rcases hu with hu | hu <;> cases hu
    simp only [Scheduler.resetStat, Function.update_of_ne hut]
  · cases hnext

theorem Sound.schedThreadReady (h : s.Sound) (t : τ) : (s.schedThreadReady t).Sound := by
  unfold Scheduler.schedThreadReady
  split
  · rename_i hsuspended
    exact h.insertThread (by rw [hsuspended]; simp)
  · exact h

theorem Sound.threadSuspend (h : s.Sound) (t : τ) : (s.threadSuspend t).Sound := by
  unfold Scheduler.threadSuspend
  split
  · exact h.take (x := { s.stat t with state := .suspend }) (by simp) (h.yield t)
  · exact h

theorem Sound.threadClose (h : s.Sound) (t : τ) : (s.threadClose t).Sound := by
  unfold Scheduler.threadClose
  split
  · exact h
  · rename_i hinit
    exact h.update_stat (by rw [hinit]; simp) (by simp) nofun
  · exact h.take (x := { state := .close }) (by simp) nofun

/-- A ready thread is ready after a change of its priority. -/
theorem updatePriority_state {p : Nat} (hcurrent : s.currentThread ≠ some t)
    (hready : (s.stat t).state = .ready) (u : τ) :
    ((s.updatePriority t p).stat u).state = (s.stat u).state := by
  let moved : Scheduler τ := { s.removeThread t with
    currentPriority := Function.update s.currentPriority t p }
  have hother : (moved.resetStat t .init).currentThread ≠ some t := hcurrent
  have hnext : s.updatePriority t p = (moved.resetStat t .init).insertThread t := by
    rw [Scheduler.updatePriority, if_pos hready]
    rfl
  rw [hnext, insertThread_state hother]
  by_cases hut : u = t
  · rw [if_pos hut, hut, hready]
  · rw [if_neg hut]
    simp only [Scheduler.resetStat, Function.update_of_ne hut]
    rfl

theorem Sound.updatePriority {p : Nat} (h : s.Sound) (hp : p < rtThreadPriorityMax) :
    (s.updatePriority t p).Sound ∧ s.Rests (s.updatePriority t p) := by
  have hbounded : ∀ u, Function.update s.currentPriority t p u < rtThreadPriorityMax := fun u => by
    by_cases hut : u = t
    · rw [hut, Function.update_self]
      exact hp
    · rw [Function.update_of_ne hut]
      exact h.bounded u
  by_cases hready : (s.stat t).state = .ready
  · obtain ⟨hwf, -, hpriority, -, htable⟩ := h.toWellFormed.updatePriority_ready (p := p) hready
    have hstate := updatePriority_state (p := p) (fun heq => h.current t heq hready) hready
    refine ⟨{ hwf with placed := fun u hu => ?_, bounded := fun u => ?_ }, fun u _ => hstate u⟩
    · rw [hstate] at hu
      rw [hpriority, htable]
      by_cases hut : u = t
      · rw [hut, Function.update_self, if_pos rfl]
        exact List.mem_cons_self
      · have hmem := (List.mem_erase_of_ne hut).mpr (h.placed u hu)
        rw [Function.update_of_ne hut]
        split
        · exact List.mem_cons_of_mem t hmem
        · exact hmem
    · rw [hpriority]
      exact hbounded u
  · rw [Scheduler.updatePriority, if_neg hready]
    refine ⟨⟨⟨⟨h.group, fun q u hu => ?_, h.nodup⟩, h.current, h.yield⟩, fun u hu => ?_,
      hbounded⟩, fun _ _ => rfl⟩
    · have hut : u ≠ t := fun heq => h.not_mem hready q (heq ▸ hu)
      simp only [Function.update_of_ne hut]
      exact h.member q u hu
    · have hut : u ≠ t := fun heq => hready (heq ▸ hu)
      simp only [Function.update_of_ne hut]
      exact h.placed u hu

/-- A thread that is current may get `RT_THREAD_STAT_YIELD`. -/
theorem Sound.schedThreadYield (h : s.Sound) (hcurrent : s.currentThread = some t) :
    (s.schedThreadYield t).Sound ∧ s.Rests (s.schedThreadYield t) := by
  have hstat := h.update_stat (t := t) (x := { s.stat t with yield := true })
    (h.current t hcurrent) (h.current t hcurrent) fun _ => hcurrent
  refine ⟨hstat.withTicks _, fun u _ => ?_⟩
  by_cases hut : u = t
  · simp [Scheduler.schedThreadYield, hut]
  · simp [Scheduler.schedThreadYield, Function.update_of_ne hut]

theorem Sound.threadYield (h : s.Sound) (hcurrent : s.currentThread = some t) :
    (s.threadYield t).Sound ∧ s.Rests (s.threadYield t) := by
  obtain ⟨hmarked, hrests⟩ := h.schedThreadYield hcurrent
  obtain ⟨hsound, hrests', -⟩ := hmarked.schedule
  refine ⟨hsound, fun u hu => ?_⟩
  have hmid := hrests u hu
  exact (hrests' u (hmid ▸ hu)).trans hmid

theorem Sound.schedTickIncrease (h : s.Sound) (hcurrent : s.currentThread = some t) (n : Nat) :
    (s.schedTickIncrease t n).Sound ∧ s.Rests (s.schedTickIncrease t n) := by
  unfold Scheduler.schedTickIncrease
  dsimp only
  generalize (if s.remainingTick t > n then s.remainingTick t - n else 0) = remaining
  by_cases hleft : remaining ≠ 0
  · rw [if_pos hleft]
    exact ⟨h.withTicks _, fun _ _ => rfl⟩
  · rw [if_neg hleft]
    exact (h.withTicks _).threadYield hcurrent

/-- What the steps do that take no thread out of a list and put none into one but the ready
queue. -/
theorem Sound.step {a : SchedStep τ} (h : s.Sound) (hstep : schedulerMachine.step s a = some next)
    (hother : ∀ t, a ≠ .ready t ∧ a ≠ .suspend t ∧ a ≠ .close t) :
    next.Sound ∧ s.Rests next := by
  cases a with
  | systemStart =>
    obtain ⟨hsound, hrests, -⟩ := h.systemSchedulerStart hstep
    exact ⟨hsound, hrests⟩
  | startup t => exact h.schedThreadStartup hstep
  | ready t => exact absurd rfl (hother t).1
  | suspend t => exact absurd rfl (hother t).2.1
  | close t => exact absurd rfl (hother t).2.2
  | updatePriority t p =>
    by_cases hp : p < rtThreadPriorityMax
    · obtain rfl : _ = next := by simpa [schedulerMachine, hp] using hstep
      exact h.updatePriority hp
    · simp [schedulerMachine, hp] at hstep
  | tick n =>
    obtain ⟨t, ht, rfl⟩ := Option.map_eq_some_iff.mp hstep
    exact h.schedTickIncrease ht n
  | yield =>
    obtain ⟨t, ht, rfl⟩ := Option.map_eq_some_iff.mp hstep
    exact h.threadYield ht
  | schedule =>
    obtain rfl := Option.some.inj hstep
    obtain ⟨hsound, hrests, -⟩ := h.schedule
    exact ⟨hsound, hrests⟩
  | enterCritical | exitCritical =>
    obtain rfl := Option.some.inj hstep
    exact ⟨h.withLock _ _, fun _ _ => rfl⟩
  | exitSwitch =>
    by_cases hlock : s.lockNest = 0
    · obtain rfl : _ = next := by simpa [schedulerMachine, hlock] using hstep
      unfold Scheduler.exitSwitch
      split
      · obtain ⟨hsound, hrests, -⟩ := (h.withLock s.lockNest false).schedule
        exact ⟨hsound, hrests⟩
      · exact ⟨h, fun _ _ => rfl⟩
    · simp [schedulerMachine, hlock] at hstep

end Scheduler

/-! ## The lists of a thread's node -/

/-- The scheduler with the other lists of `RT_THREAD_LIST_NODE`. -/
structure SchedLists (τ κ : Type*) where
  sched : Scheduler τ
  /-- the suspend lists of the IPC objects -/
  suspendThread : κ → List τ
  /-- `_rt_thread_defunct` -/
  defunct : List τ

/-- What threads and interrupt handlers do to the lists. -/
inductive ListStep (τ κ : Type*) where
  /-- `rt_thread_suspend_to_list` -/
  | suspend (thread : τ) (suspList : Option (κ × Ipc.IpcFlag))
  /-- `rt_sched_thread_ready`, or a timeout -/
  | ready (thread : τ)
  /-- `rt_thread_close` -/
  | close (thread : τ)
  /-- `rt_thread_defunct_enqueue` of a thread that has been closed -/
  | defunctEnqueue (thread : τ)
  /-- `rt_thread_defunct_dequeue` -/
  | defunctDequeue
  /-- any other step of the scheduler -/
  | sched (a : SchedStep τ)

namespace SchedLists

variable {τ κ : Type*}

def init (currentPriority initTick : τ → Nat) : SchedLists τ κ where
  sched := .init currentPriority initTick
  suspendThread _ := []
  defunct := []

section Code

variable [DecidableEq τ]

/-- `rt_list_remove` of the node of a thread that goes on with this scheduler. -/
def remove (s : SchedLists τ κ) (thread : τ) (sched : Scheduler τ) : SchedLists τ κ where
  sched := sched
  suspendThread k := (s.suspendThread k).erase thread
  defunct := s.defunct.erase thread

variable [DecidableEq κ]

/-- `rt_thread_suspend_to_list` -/
def threadSuspendToList (s : SchedLists τ κ) (thread : τ)
    (suspList : Option (κ × Ipc.IpcFlag)) : SchedLists τ κ :=
  if (s.sched.stat thread).state = .ready ∨ s.sched.Running thread then
    let s := s.remove thread (s.sched.threadSuspend thread)
    match suspList with
    | none => s
    | some (k, flag) =>
      { s with
        suspendThread := Function.update s.suspendThread k
          (Ipc.rtSuspListEnqueue s.sched.currentPriority flag thread (s.suspendThread k)) }
  else s

/-- `rt_sched_thread_ready` -/
def schedThreadReady (s : SchedLists τ κ) (thread : τ) : SchedLists τ κ :=
  if (s.sched.stat thread).state = .suspend then
    s.remove thread (s.sched.schedThreadReady thread)
  else s

/-- `rt_thread_close` -/
def threadClose (s : SchedLists τ κ) (thread : τ) : SchedLists τ κ :=
  if (s.sched.stat thread).state = .close ∨ (s.sched.stat thread).state = .init then
    { s with sched := s.sched.threadClose thread }
  else s.remove thread (s.sched.threadClose thread)

def machine : Machine (SchedLists τ κ) (ListStep τ κ) where
  step s
    | .suspend thread suspList => some (s.threadSuspendToList thread suspList)
    | .ready thread => some (s.schedThreadReady thread)
    | .close thread => some (s.threadClose thread)
    | .defunctEnqueue thread =>
        -- each thread ends once
        if (s.sched.stat thread).state = .close ∧ thread ∉ s.defunct then
          some { s with defunct := thread :: s.defunct }
        else none
    | .defunctDequeue => some { s with defunct := s.defunct.tail }
    | .sched (.ready _) | .sched (.suspend _) | .sched (.close _) => none
    | .sched a => (schedulerMachine.step s.sched a).map fun sched => { s with sched := sched }

/-- The step executes `rt_schedule`. -/
def Schedules (s : SchedLists τ κ) : ListStep τ κ → Prop
  | .sched .schedule | .sched .yield => True
  | .sched (.tick n) => ∀ t, s.sched.currentThread = some t → s.sched.remainingTick t ≤ n
  | .sched .exitSwitch => s.sched.criticalSwitch = true
  | _ => False

end Code

/-! ## The invariant of the lists -/

/-- The lists hold threads of one kind each. -/
structure Kept (s : SchedLists τ κ) : Prop where
  sound : s.sched.Sound
  waiting : ∀ k, (s.suspendThread k).Nodup ∧
    ∀ t ∈ s.suspendThread k, (s.sched.stat t).state = .suspend
  ended : s.defunct.Nodup ∧ ∀ t ∈ s.defunct, (s.sched.stat t).state = .close

theorem kept_init {currentPriority : τ → Nat} (initTick : τ → Nat)
    (hpriority : ∀ t, currentPriority t < rtThreadPriorityMax) :
    (init currentPriority initTick : SchedLists τ κ).Kept where
  sound := Scheduler.sound_init initTick hpriority
  waiting _ := ⟨List.nodup_nil, fun _ ht => absurd ht List.not_mem_nil⟩
  ended := ⟨List.nodup_nil, fun _ ht => absurd ht List.not_mem_nil⟩

variable {s : SchedLists τ κ} {t : τ}

/-- A step of the scheduler that rests the threads in the lists. -/
theorem Kept.rest {sched : Scheduler τ} (h : s.Kept) (hsound : sched.Sound)
    (hrests : s.sched.Rests sched) : { s with sched := sched }.Kept where
  sound := hsound
  waiting k := ⟨(h.waiting k).1, fun t ht => by
    have hstate := (h.waiting k).2 t ht
    exact (hrests t (.inl hstate)).trans hstate⟩
  ended := ⟨h.ended.1, fun t ht => by
    have hstate := h.ended.2 t ht
    exact (hrests t (.inr hstate)).trans hstate⟩

/-- What the ready queue and the lists that share its nodes show. -/
structure QueueRight (s : SchedLists τ κ) : Prop where
  /-- a bit is set for each queue that is not empty -/
  group : ∀ p, s.sched.readyPriorityGroup p = true ↔ s.sched.priorityTable p ≠ []
  placed : ∀ t p, t ∈ s.sched.priorityTable p ↔
    (s.sched.stat t).state = .ready ∧ s.sched.currentPriority t = p
  once : ∀ p, (s.sched.priorityTable p).Nodup
  /-- a thread in the ready queue is in no other list -/
  apart : ∀ t p, t ∈ s.sched.priorityTable p → (∀ k, t ∉ s.suspendThread k) ∧ t ∉ s.defunct
  current : ∀ t, s.sched.currentThread = some t → ∀ p, t ∉ s.sched.priorityTable p

theorem Kept.right (h : s.Kept) : s.QueueRight where
  group := h.sound.group
  placed := h.sound.mem_iff
  once := h.sound.nodup
  apart t p ht := by
    have hready := ((h.sound.mem_iff t p).mp ht).1
    refine ⟨fun k hmem => ?_, fun hmem => ?_⟩
    · rw [(h.waiting k).2 t hmem] at hready
      cases hready
    · rw [h.ended.2 t hmem] at hready
      cases hready
  current t ht := h.sound.not_mem_current ht

variable [DecidableEq τ]

/-- A step of the scheduler that changes the state of one thread, whose node is removed. -/
theorem Kept.remove {sched : Scheduler τ} (h : s.Kept) (hsound : sched.Sound)
    (hothers : ∀ u, u ≠ t → (sched.stat u).state = (s.sched.stat u).state) :
    (s.remove t sched).Kept where
  sound := hsound
  waiting k := by
    refine ⟨(h.waiting k).1.erase t, fun u hu => ?_⟩
    obtain ⟨hut, hmem⟩ := (h.waiting k).1.mem_erase_iff.mp hu
    exact (hothers u hut).trans ((h.waiting k).2 u hmem)
  ended := by
    refine ⟨h.ended.1.erase t, fun u hu => ?_⟩
    obtain ⟨hut, hmem⟩ := h.ended.1.mem_erase_iff.mp hu
    exact (hothers u hut).trans (h.ended.2 u hmem)

theorem Kept.schedThreadReady (h : s.Kept) (t : τ) : (s.schedThreadReady t).Kept := by
  unfold SchedLists.schedThreadReady
  by_cases hsuspended : (s.sched.stat t).state = .suspend
  · rw [if_pos hsuspended]
    refine h.remove (h.sound.schedThreadReady t) fun u hut => ?_
    rw [Scheduler.schedThreadReady, if_pos hsuspended]
    exact Scheduler.insertThread_other hut
  · rw [if_neg hsuspended]
    exact h

theorem Kept.threadClose (h : s.Kept) (t : τ) : (s.threadClose t).Kept := by
  have hothers : ∀ u, u ≠ t →
      ((s.sched.threadClose t).stat u).state = (s.sched.stat u).state := fun u hut => by
    unfold Scheduler.threadClose
    split
    · rfl
    · simp only [Scheduler.resetStat, Function.update_of_ne hut]
    · simp only [Scheduler.resetStat, Scheduler.removeThread, Function.update_of_ne hut]
  unfold SchedLists.threadClose
  by_cases hended : (s.sched.stat t).state = .close ∨ (s.sched.stat t).state = .init
  · rw [if_pos hended]
    refine h.rest (h.sound.threadClose t) fun u hu => ?_
    by_cases hut : u = t
    · subst hut
      rcases hended with hclose | hinit
      · simp only [Scheduler.threadClose, hclose]
      · rw [hinit] at hu
        rcases hu with hu | hu <;> cases hu
    · exact hothers u hut
  · rw [if_neg hended]
    exact h.remove (h.sound.threadClose t) hothers

variable [DecidableEq κ]

theorem Kept.threadSuspendToList (h : s.Kept) (t : τ) (suspList : Option (κ × Ipc.IpcFlag)) :
    (s.threadSuspendToList t suspList).Kept := by
  unfold SchedLists.threadSuspendToList
  by_cases hactive : (s.sched.stat t).state = .ready ∨ s.sched.Running t
  · have hsuspend : s.sched.threadSuspend t = (s.sched.removeThread t).setState t .suspend :=
      if_pos hactive
    have hothers : ∀ u, u ≠ t →
        ((s.sched.threadSuspend t).stat u).state = (s.sched.stat u).state := fun u hut => by
      rw [hsuspend]
      simp only [Scheduler.setState, Scheduler.removeThread, Function.update_of_ne hut]
    have hself : ((s.sched.threadSuspend t).stat t).state = .suspend := by
      rw [hsuspend]
      simp only [Scheduler.setState, Function.update_self]
    have hremoved := h.remove (h.sound.threadSuspend t) hothers
    rw [if_pos hactive]
    cases suspList with
    | none => exact hremoved
    | some entry =>
      obtain ⟨k, flag⟩ := entry
      refine { hremoved with waiting := fun k' => ?_ }
      have hout : t ∉ (s.suspendThread k).erase t := fun hmem =>
        ((h.waiting k).1.mem_erase_iff.mp hmem).1 rfl
      by_cases hk : k' = k
      · subst hk
        simp only [Function.update_self]
        refine ⟨Ipc.nodup_rtSuspListEnqueue (hremoved.waiting k').1 hout, fun u hu => ?_⟩
        rcases Ipc.mem_rtSuspListEnqueue.mp hu with rfl | hmem
        · exact hself
        · exact (hremoved.waiting k').2 u hmem
      · simp only [Function.update_of_ne hk]
        exact hremoved.waiting k'
  · rw [if_neg hactive]
    exact h

theorem Kept.step {next : SchedLists τ κ} {a : ListStep τ κ} (h : s.Kept)
    (hstep : machine.step s a = some next) : next.Kept := by
  cases a with
  | suspend t suspList =>
    obtain rfl := Option.some.inj hstep
    exact h.threadSuspendToList t suspList
  | ready t =>
    obtain rfl := Option.some.inj hstep
    exact h.schedThreadReady t
  | close t =>
    obtain rfl := Option.some.inj hstep
    exact h.threadClose t
  | defunctEnqueue t =>
    by_cases hclosed : (s.sched.stat t).state = .close ∧ t ∉ s.defunct
    · obtain rfl : _ = next := by simpa [machine, hclosed] using hstep
      exact { h with ended := ⟨List.nodup_cons.mpr ⟨hclosed.2, h.ended.1⟩,
        List.forall_mem_cons.mpr ⟨hclosed.1, h.ended.2⟩⟩ }
    · simp [machine, hclosed] at hstep
  | defunctDequeue =>
    obtain rfl := Option.some.inj hstep
    exact { h with ended := ⟨h.ended.1.tail, fun t ht => h.ended.2 t (List.mem_of_mem_tail ht)⟩ }
  | sched a =>
    have hother : ∀ t, a ≠ .ready t ∧ a ≠ .suspend t ∧ a ≠ .close t := fun t => by
      refine ⟨?_, ?_, ?_⟩
      all_goals
        rintro rfl
        cases hstep
    have hmap : (schedulerMachine.step s.sched a).map (fun sched => { s with sched := sched }) =
        some next := by
      cases a <;> first | exact hstep | cases hstep
    obtain ⟨sched, hsched, rfl⟩ := Option.map_eq_some_iff.mp hmap
    obtain ⟨hsound, hrests⟩ := h.sound.step hsched hother
    exact h.rest hsound hrests

/-- Every `rt_schedule` with the scheduler unlocked leaves a thread of the highest priority. -/
theorem Kept.dispatch {next : SchedLists τ κ} {a : ListStep τ κ} (h : s.Kept)
    (hstep : machine.step s a = some next) (hschedules : s.Schedules a)
    (hlock : s.sched.lockNest = 0) : next.sched.Top := by
  have hyields : ∀ (r : Scheduler τ) (t : τ), r.Sound → r.currentThread = some t →
      r.lockNest = 0 → (r.threadYield t).Top := fun r t hr ht hfree =>
    (hr.schedThreadYield ht).1.schedule_top hfree
  cases a with
  | suspend | ready | close | defunctEnqueue | defunctDequeue => exact hschedules.elim
  | sched a =>
    cases a with
    | systemStart | startup | ready | suspend | close | updatePriority | enterCritical
      | exitCritical => exact hschedules.elim
    | schedule =>
      obtain rfl := Option.some.inj hstep
      exact h.sound.schedule_top hlock
    | yield =>
      obtain ⟨sched, hsched, rfl⟩ := Option.map_eq_some_iff.mp hstep
      obtain ⟨t, ht, rfl⟩ := Option.map_eq_some_iff.mp hsched
      exact hyields s.sched t h.sound ht hlock
    | tick n =>
      obtain ⟨sched, hsched, rfl⟩ := Option.map_eq_some_iff.mp hstep
      obtain ⟨t, ht, rfl⟩ := Option.map_eq_some_iff.mp hsched
      have hused : (if s.sched.remainingTick t > n then s.sched.remainingTick t - n else 0) = 0 :=
        if_neg (Nat.not_lt.mpr (hschedules t ht))
      let counted : Scheduler τ :=
        { s.sched with remainingTick := Function.update s.sched.remainingTick t 0 }
      have htick : s.sched.schedTickIncrease t n = counted.threadYield t := by
        unfold Scheduler.schedTickIncrease
        rw [hused]
        rfl
      show (s.sched.schedTickIncrease t n).Top
      rw [htick]
      exact hyields counted t (h.sound.withTicks _) ht hlock
    | exitSwitch =>
      obtain ⟨sched, hsched, rfl⟩ := Option.map_eq_some_iff.mp hstep
      obtain rfl : _ = sched := by simpa [schedulerMachine, hlock] using hsched
      have hflag : s.sched.criticalSwitch = true := hschedules
      let cleared : Scheduler τ := { s.sched with criticalSwitch := false }
      have hexit : s.sched.exitSwitch = cleared.schedule := if_pos hflag
      show s.sched.exitSwitch.Top
      rw [hexit]
      exact (h.sound.withLock s.sched.lockNest false).schedule_top hlock

/-- In every run the bitmap, the ready queue and the states of the threads agree, a thread in the
ready queue is in no other list, and a thread of the highest priority is current after every
`rt_schedule` that finds the scheduler unlocked. -/
theorem readyQueue_right {currentPriority : τ → Nat} (initTick : τ → Nat)
    (hpriority : ∀ t, currentPriority t < rtThreadPriorityMax) {steps : List (ListStep τ κ)}
    {final : SchedLists τ κ}
    (run : machine.Run Machine.anyStep (init currentPriority initTick) steps final) :
    final.QueueRight ∧ ∀ a next, machine.step final a = some next → final.Schedules a →
      final.sched.lockNest = 0 → next.sched.Top := by
  have hkept : final.Kept :=
    run.invariant (fun _ _ _ _ hstep h => Kept.step h hstep) (kept_init initTick hpriority)
  exact ⟨hkept.right, fun a next hstep hschedules hlock =>
    hkept.dispatch hstep hschedules hlock⟩

/-- The idle thread and a thread that waits in a list and is resumed. -/
def awaits : List (ListStep (Fin 2) Unit) :=
  [.sched (.startup 0), .ready 0, .sched (.startup 1), .ready 1, .sched .systemStart,
    .suspend 1 (some ((), .prio)), .sched .schedule, .ready 1]

theorem readyQueue_right_two :
    ∃ final, machine.exec (init ![31, 10] fun _ => 5) awaits = some final ∧ final.QueueRight ∧
      ∀ a next, machine.step final a = some next → final.Schedules a →
        final.sched.lockNest = 0 → next.sched.Top := by
  obtain ⟨final, hexec⟩ : ∃ final, machine.exec (init ![31, 10] fun _ => 5) awaits = some final :=
    ⟨_, rfl⟩
  have hbelow : ∀ t : Fin 2, ![31, 10] t < rtThreadPriorityMax := by decide
  exact ⟨final, hexec, readyQueue_right (fun _ => 5) hbelow
    (Machine.Run.of_exec hexec (Machine.admitted_anyStep _ _))⟩

end SchedLists

end Gd32Vw553h.Kernel
