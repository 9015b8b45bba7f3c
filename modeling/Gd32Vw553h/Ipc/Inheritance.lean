/-
  Ipc/Inheritance.lean --- the priorities that waiters lend (`src/ipc.c`).

  A thread runs at the lowest number among its own priority, the priorities of the first
  waiters of its mutexes, and their ceilings.  `Ordered` is what every step keeps: a mutex
  has the priority of its first waiter unless a waiter is just returning.  `Fit` is the
  rest, for each thread, and two steps break it.  The last release does not raise the next owner to the ceiling, which a take
  of a free mutex does; and a release, or a waiter that gives up, looks at an owner's
  priority only if a comparison of two priorities asks for it.
-/
import Gd32Vw553h.Ipc.WaitOrder
import Mathlib.Order.Bounds.Basic

set_option autoImplicit false

namespace Gd32Vw553h.Ipc

open Gd32Vw553h.Foundation Gd32Vw553h.Klibc

/-! ## The lowest of some priorities -/

section Lowest

variable {μ : Type*} {value : μ → Nat} {mutexes : List μ} {first p : Nat}

/-- The least of `first` and of the values. -/
def lowest (value : μ → Nat) (mutexes : List μ) (first : Nat) : Nat :=
  mutexes.foldl (fun p m => min p (value m)) first

theorem le_lowest : p ≤ lowest value mutexes first ↔ p ≤ first ∧ ∀ m ∈ mutexes, p ≤ value m := by
  induction mutexes generalizing first with
  | nil => exact (and_iff_left fun m hm => absurd hm List.not_mem_nil).symm
  | cons m rest ih =>
    have hfold : lowest value (m :: rest) first = lowest value rest (min first (value m)) := rfl
    rw [hfold, ih, Nat.le_min, List.forall_mem_cons, and_assoc]

theorem lowest_le_first : lowest value mutexes first ≤ first := (le_lowest.mp le_rfl).1

/-- One of them is the least. -/
theorem lowest_mem : lowest value mutexes first = first ∨
    ∃ m ∈ mutexes, lowest value mutexes first = value m := by
  by_contra hnone
  obtain ⟨hfirst, hvalue⟩ := not_or.mp hnone
  obtain ⟨hle, hall⟩ := le_lowest.mp (le_refl (lowest value mutexes first))
  have hmore : lowest value mutexes first + 1 ≤ lowest value mutexes first := by
    refine le_lowest.mpr ⟨Nat.lt_of_le_of_ne hle hfirst, fun m hm => ?_⟩
    exact Nat.lt_of_le_of_ne (hall m hm) fun heq => hvalue ⟨m, hm, heq⟩
  exact Nat.not_succ_le_self _ hmore

theorem lowest_congr {value' : μ → Nat} (h : ∀ m ∈ mutexes, value m = value' m) :
    lowest value mutexes first = lowest value' mutexes first := by
  refine Nat.le_antisymm (le_lowest.mpr ⟨lowest_le_first, fun m hm => ?_⟩)
    (le_lowest.mpr ⟨lowest_le_first, fun m hm => ?_⟩)
  · rw [← h m hm]
    exact (le_lowest.mp le_rfl).2 m hm
  · rw [h m hm]
    exact (le_lowest.mp le_rfl).2 m hm

end Lowest

namespace MutexState

section Entitled

variable {τ μ κ : Type*} {s s' : MutexState τ μ κ} {t u : τ} {m : μ} {p : Nat}

theorem threadGetMutexPriority_eq (s : MutexState τ μ κ) (t : τ) :
    s.threadGetMutexPriority t = lowest (fun m => min (s.priority m) (s.ceilingPriority m))
      (s.takenObjectList t) (s.initPriority t) := by
  unfold threadGetMutexPriority lowest
  congr 1
  funext p m
  dsimp only
  split <;> split <;> omega

/-- What `_thread_get_mutex_priority` returns. -/
theorem le_threadGetMutexPriority : p ≤ s.threadGetMutexPriority t ↔
    p ≤ s.initPriority t ∧
      ∀ m ∈ s.takenObjectList t, p ≤ s.priority m ∧ p ≤ s.ceilingPriority m := by
  rw [threadGetMutexPriority_eq, le_lowest]
  simp only [Nat.le_min]

theorem threadGetMutexPriority_le_init : s.threadGetMutexPriority t ≤ s.initPriority t :=
  (le_threadGetMutexPriority.mp le_rfl).1

/-- It reads these fields only. -/
theorem threadGetMutexPriority_congr (hinit : s'.initPriority t = s.initPriority t)
    (htaken : s'.takenObjectList t = s.takenObjectList t)
    (hprio : ∀ m ∈ s.takenObjectList t, s'.priority m = s.priority m)
    (hceiling : ∀ m ∈ s.takenObjectList t, s'.ceilingPriority m = s.ceilingPriority m) :
    s'.threadGetMutexPriority t = s.threadGetMutexPriority t := by
  rw [threadGetMutexPriority_eq, threadGetMutexPriority_eq, hinit, htaken]
  exact lowest_congr fun m hm => by rw [hprio m hm, hceiling m hm]

/-- The priority that a thread should have as the owner of these mutexes. -/
def entitled (s : MutexState τ μ κ) (t : τ) (mutexes : List μ) : Nat :=
  lowest (fun m => min (s.headPriority m) (s.ceilingPriority m)) mutexes (s.initPriority t)

/-- The thread has been taken off the wait list and has not looked at the mutex since. -/
def Returning (s : MutexState τ μ κ) (t : τ) (m : μ) : Prop :=
  s.call t = some (.taking m) ∧ s.suspended t = false ∧ s.owner m ≠ some t

/-- The priority of a mutex is that of its first waiter, unless a waiter is returning. -/
structure InOrder (s : MutexState τ μ κ) (m : μ) : Prop where
  le : s.priority m ≤ s.headPriority m
  exact : s.priority m = s.headPriority m ∨ ∃ t, s.Returning t m

/-- What every step keeps of the priorities. -/
structure Ordered (s : MutexState τ μ κ) : Prop where
  valid : ∀ t, s.currentPriority t ≤ s.initPriority t ∧ s.initPriority t < noPriority
  mutex : ∀ m, s.InOrder m

theorem Ordered.current_lt (h : s.Ordered) (t : τ) : s.currentPriority t < noPriority :=
  lt_of_le_of_lt (h.valid t).1 (h.valid t).2

theorem headPriority_nil (hlist : s.suspendThread (.mutex m) = []) :
    s.headPriority m = noPriority := by
  unfold headPriority
  rw [hlist]

theorem headPriority_cons {rest : List τ} (hlist : s.suspendThread (.mutex m) = t :: rest) :
    s.headPriority m = s.currentPriority t := by
  unfold headPriority
  rw [hlist]

theorem headPriority_congr
    (hlist : s'.suspendThread (.mutex m) = s.suspendThread (.mutex m))
    (hprio : ∀ t ∈ s.suspendThread (.mutex m), s'.currentPriority t = s.currentPriority t) :
    s'.headPriority m = s.headPriority m := by
  cases hl : s.suspendThread (.mutex m) with
  | nil => rw [headPriority_nil hl, headPriority_nil (hlist.trans hl)]
  | cons t rest =>
    rw [headPriority_cons hl, headPriority_cons (hlist.trans hl)]
    refine hprio t ?_
    rw [hl]
    exact List.mem_cons_self

/-- Of a sorted list the first waiter has the lowest number. -/
theorem Sorted.headPriority_le (h : s.Sorted (.mutex m)) (ht : t ∈ s.suspendThread (.mutex m)) :
    s.headPriority m ≤ s.currentPriority t := by
  unfold Sorted at h
  cases hl : s.suspendThread (.mutex m) with
  | nil =>
    rw [hl] at ht
    exact absurd ht List.not_mem_nil
  | cons first rest =>
    rw [hl] at ht h
    rw [headPriority_cons hl]
    rcases List.mem_cons.mp ht with rfl | hmem
    · exact le_rfl
    · exact ((List.pairwise_cons.mp h).1 t hmem).le

/-- A bound for all waiters is one for the first. -/
theorem le_headPriority (hp : p ≤ noPriority)
    (hall : ∀ t ∈ s.suspendThread (.mutex m), p ≤ s.currentPriority t) :
    p ≤ s.headPriority m := by
  cases hl : s.suspendThread (.mutex m) with
  | nil =>
    rw [headPriority_nil hl]
    exact hp
  | cons first rest =>
    rw [headPriority_cons hl]
    refine hall first ?_
    rw [hl]
    exact List.mem_cons_self

theorem Ordered.headPriority_le_noPriority (h : s.Ordered) (m : μ) :
    s.headPriority m ≤ noPriority := by
  cases hl : s.suspendThread (.mutex m) with
  | nil => exact (headPriority_nil hl).le
  | cons first rest =>
    rw [headPriority_cons hl]
    exact (h.current_lt first).le

/-- After a waiter has left, the first waiter has a lower priority or the same. -/
theorem Sorted.headPriority_mono (h : s.Sorted (.mutex m)) (ho : s.Ordered)
    (hsub : (s'.suspendThread (.mutex m)).Sublist (s.suspendThread (.mutex m)))
    (hcur : ∀ a ∈ s'.suspendThread (.mutex m), s'.currentPriority a = s.currentPriority a) :
    s.headPriority m ≤ s'.headPriority m := by
  refine le_headPriority (ho.headPriority_le_noPriority m) fun a ha => ?_
  rw [hcur a ha]
  exact h.headPriority_le (hsub.subset ha)

theorem InOrder.congr (h : s.InOrder m)
    (hlist : s'.suspendThread (.mutex m) = s.suspendThread (.mutex m))
    (hcur : ∀ t ∈ s.suspendThread (.mutex m), s'.currentPriority t = s.currentPriority t)
    (hprio : s'.priority m = s.priority m)
    (hreturning : ∀ t, s.Returning t m → s'.Returning t m) : s'.InOrder m := by
  have hhead := headPriority_congr hlist hcur
  refine ⟨by rw [hprio, hhead]; exact h.le, ?_⟩
  rw [hprio, hhead]
  exact h.exact.imp id fun ⟨t, ht⟩ => ⟨t, hreturning t ht⟩

/-- The priority has just been taken from the first waiter. -/
theorem inOrder_of_eq (h : s.priority m = s.headPriority m) : s.InOrder m := ⟨h.le, .inl h⟩

theorem inOrder_nil (hlist : s.suspendThread (.mutex m) = []) (h : s.priority m = noPriority) :
    s.InOrder m := inOrder_of_eq (h.trans (headPriority_nil hlist).symm)

theorem Reprioritised.returning (h : s.Reprioritised s') :
    s'.Returning t m ↔ s.Returning t m := by
  obtain ⟨_, _, _, _, _, rfl, -⟩ := h
  exact Iff.rfl

theorem Reprioritised.taken_eq (h : s.Reprioritised s') :
    s'.takenObjectList = s.takenObjectList := by
  obtain ⟨_, _, _, _, _, rfl, -⟩ := h
  rfl

theorem Reprioritised.init_eq (h : s.Reprioritised s') : s'.initPriority = s.initPriority := by
  obtain ⟨_, _, _, _, _, rfl, -⟩ := h
  rfl

theorem Reprioritised.ceiling_eq (h : s.Reprioritised s') :
    s'.ceilingPriority = s.ceilingPriority := by
  obtain ⟨_, _, _, _, _, rfl, -⟩ := h
  rfl

/-! ## Owners -/

/-- Some waiter of one of its mutexes is returning, and will look at the thread. -/
def Awaited (s : MutexState τ μ κ) (t : τ) : Prop :=
  ∃ m ∈ s.takenObjectList t, ∃ u, s.Returning u m

/-- The thread is not below what its mutexes ask for, and not above unless that is about
to be looked at. -/
structure Fit (s : MutexState τ μ κ) (t : τ) : Prop where
  le : s.currentPriority t ≤ s.threadGetMutexPriority t
  exact : s.currentPriority t = s.threadGetMutexPriority t ∨ s.Awaited t

theorem fit_of_eq (h : s.currentPriority t = s.threadGetMutexPriority t) : s.Fit t :=
  ⟨h.le, .inl h⟩

theorem Fit.congr (h : s.Fit t) (hcur : s'.currentPriority t = s.currentPriority t)
    (hprio : s'.threadGetMutexPriority t = s.threadGetMutexPriority t)
    (hawaited : s.Awaited t → s'.Awaited t) : s'.Fit t := by
  refine ⟨by rw [hcur, hprio]; exact h.le, ?_⟩
  rw [hcur, hprio]
  exact h.exact.imp id hawaited

/-- The thread, its mutexes and their waiters are left alone. -/
theorem Fit.frame (h : s.Fit t) (hcur : s'.currentPriority t = s.currentPriority t)
    (hinit : s'.initPriority t = s.initPriority t)
    (htaken : s'.takenObjectList t = s.takenObjectList t)
    (hprio : ∀ m ∈ s.takenObjectList t, s'.priority m = s.priority m)
    (hceiling : ∀ m ∈ s.takenObjectList t, s'.ceilingPriority m = s.ceilingPriority m)
    (hreturning : ∀ m ∈ s.takenObjectList t, ∀ u, s.Returning u m → s'.Returning u m) :
    s'.Fit t := by
  refine h.congr hcur (threadGetMutexPriority_congr hinit htaken hprio hceiling) ?_
  rintro ⟨m, hm, u, hu⟩
  exact ⟨m, by rw [htaken]; exact hm, u, hreturning m hm u hu⟩

theorem Reprioritised.awaited (h : s.Reprioritised s') (ha : s.Awaited t) : s'.Awaited t := by
  obtain ⟨m, hm, u, hu⟩ := ha
  exact ⟨m, by rw [h.taken_eq]; exact hm, u, h.returning.mpr hu⟩

end Entitled

/-! ## Priorities that are passed on -/

section Pass

variable {τ μ κ : Type*} [DecidableEq τ] [DecidableEq μ] [DecidableEq κ]
  {s s' : MutexState τ μ κ} {t u owner : τ} {m : μ} {p depth : Nat}

omit [DecidableEq μ] [DecidableEq κ] in
theorem Ordered.changePriority (h : s.Ordered) (hout : ∀ m, t ∉ s.suspendThread (.mutex m))
    (hp : p ≤ s.initPriority t) : (s.changePriority t p).Ordered where
  valid u := by
    refine ⟨?_, (h.valid u).2⟩
    by_cases hu : u = t
    · subst hu
      rw [changePriority_self]
      exact hp
    · rw [changePriority_of_ne hu]
      exact (h.valid u).1
  mutex m := by
    refine (h.mutex m).congr rfl (fun a ha => changePriority_of_ne ?_ p) rfl fun _ => id
    rintro rfl
    exact hout m ha

omit [DecidableEq κ] in
theorem Ordered.requeued (h : s.Ordered) (hs : s.Owned) (ht : t ∈ s.suspendThread (.mutex m))
    (hr : s.Requeued s' t m p) (hp : p ≤ s.initPriority t) : s'.Ordered where
  valid u := by
    rw [hr.reprioritised.init_eq, hr.current]
    refine ⟨?_, (h.valid u).2⟩
    by_cases hu : u = t
    · subst hu
      rw [Function.update_self]
      exact hp
    · rw [Function.update_of_ne hu]
      exact (h.valid u).1
  mutex m' := by
    by_cases hm : m' = m
    · subst hm
      refine inOrder_of_eq ?_
      rw [hr.priority, Function.update_self]
    · have hl : WaitList.mutex m' ≠ (.mutex m : WaitList μ κ) := by simpa using hm
      refine (h.mutex m').congr (hr.lists _ hl) (fun a ha => ?_) ?_
        fun t => hr.reprioritised.returning.mpr
      · have hne : a ≠ t := by
          rintro rfl
          exact hl (hs.sound.single _ _ a ha ht)
        rw [hr.current, Function.update_of_ne hne]
      · rw [hr.priority, Function.update_of_ne hm]

theorem Ordered.threadUpdatePriority (h : s.Ordered) (hs : s.Owned) (hp : p ≤ s.initPriority t)
    (hupdate : threadUpdatePriority depth s t p = some s') : s'.Ordered := by
  induction depth generalizing s t p with
  | zero => cases hupdate
  | succ depth ih =>
    rcases threadUpdatePriority_cases hupdate with
      ⟨hstop, rfl⟩ | ⟨d, m, owner, hd, hsusp, hpending, -, hnext⟩
    · exact h.changePriority (hs.not_waiting hstop) hp
    · obtain rfl := Nat.succ.inj hd
      have hmem := hs.pending_mem hsusp hpending
      have hr := hs.requeued hmem p
      have hmid := h.requeued hs hmem hr hp
      rcases updateOwner_cases hnext with ⟨-, rfl⟩ | hnext
      · exact hmid
      · exact ih hmid (hs.reprioritised hr.reprioritised) threadGetMutexPriority_le_init hnext

theorem Ordered.updateOwner (h : s.Ordered) (hs : s.Owned)
    (hupdate : s.updateOwner depth owner = some s') : s'.Ordered := by
  rcases updateOwner_cases hupdate with ⟨-, rfl⟩ | hnext
  · exact h
  · exact h.threadUpdatePriority hs threadGetMutexPriority_le_init hnext

omit [DecidableEq κ] in
/-- Only the owner looks at the priority of a mutex. -/
theorem Owned.requeued_of_ne (hs : s.Owned) (hr : s.Requeued s' t m p)
    (hu : s.owner m ≠ some u) :
    s'.threadGetMutexPriority u = s.threadGetMutexPriority u := by
  refine threadGetMutexPriority_congr (congrFun hr.reprioritised.init_eq u)
    (congrFun hr.reprioritised.taken_eq u) (fun m' hm' => ?_)
    fun m' _ => congrFun hr.reprioritised.ceiling_eq m'
  have hne : m' ≠ m := by
    rintro rfl
    exact hu ((hs.holding.mem u m').mp hm')
  rw [hr.priority, Function.update_of_ne hne]

/-- One thread is given the priority its mutexes ask for, and all are fit. -/
theorem fit_threadUpdatePriority (hs : s.Owned) (hfit : ∀ u, u ≠ t → s.Fit u)
    (hp : p = s.threadGetMutexPriority t)
    (hupdate : threadUpdatePriority depth s t p = some s') : ∀ u, s'.Fit u := by
  induction depth generalizing s t p with
  | zero => cases hupdate
  | succ depth ih =>
    rcases threadUpdatePriority_cases hupdate with
      ⟨hstop, rfl⟩ | ⟨d, m, owner, hd, hsusp, hpending, howner, hnext⟩
    · intro u
      by_cases hu : u = t
      · rw [hu]
        exact fit_of_eq ((changePriority_self s t p).trans hp)
      · exact (hfit u hu).congr (changePriority_of_ne hu p) rfl id
    · obtain rfl := Nat.succ.inj hd
      have hmem := hs.pending_mem hsusp hpending
      have hr := hs.requeued hmem p
      have hothers : ∀ u, u ≠ owner → (((s.changePriority t p).requeue t m).mutexUpdatePriority
          m).Fit u := by
        intro u hu
        have hne : s.owner m ≠ some u := fun heq => hu (Option.some.inj (howner.symm.trans heq)).symm
        have hsame := hs.requeued_of_ne hr hne
        by_cases hut : u = t
        · refine fit_of_eq ?_
          rw [hsame, hr.current, hut, Function.update_self, hp]
        · refine (hfit u hut).congr ?_ hsame hr.reprioritised.awaited
          rw [hr.current, Function.update_of_ne hut]
      rcases updateOwner_cases hnext with ⟨heq, rfl⟩ | hnext
      · intro u
        by_cases hu : u = owner
        · rw [hu]
          exact fit_of_eq heq.symm
        · exact hothers u hu
      · exact ih (hs.reprioritised hr.reprioritised) hothers rfl hnext

theorem fit_updateOwner (hs : s.Owned) (hfit : ∀ u, u ≠ owner → s.Fit u)
    (hupdate : s.updateOwner depth owner = some s') : ∀ u, s'.Fit u := by
  rcases updateOwner_cases hupdate with ⟨heq, rfl⟩ | hnext
  · intro u
    by_cases hu : u = owner
    · rw [hu]
      exact fit_of_eq heq.symm
    · exact hfit u hu
  · exact fit_threadUpdatePriority hs hfit rfl hnext

end Pass

/-! ## The steps -/

section Steps

variable {τ μ κ : Type*} {s s' : MutexState τ μ κ} {t u owner : τ} {m : μ} {p depth : Nat}

/-- The wait lists of mutexes, the priorities and the owners are left alone. -/
structure Still (s s' : MutexState τ μ κ) : Prop where
  lists : ∀ m, s'.suspendThread (.mutex m) = s.suspendThread (.mutex m)
  current : s'.currentPriority = s.currentPriority
  init : s'.initPriority = s.initPriority
  taken : s'.takenObjectList = s.takenObjectList
  priority : s'.priority = s.priority
  ceiling : s'.ceilingPriority = s.ceilingPriority
  returning : ∀ t m, s.Returning t m → s'.Returning t m

theorem Ordered.still (h : s.Ordered) (hstill : s.Still s') : s'.Ordered where
  valid t := by
    rw [hstill.current, hstill.init]
    exact h.valid t
  mutex m := (h.mutex m).congr (hstill.lists m) (fun a _ => congrFun hstill.current a)
    (congrFun hstill.priority m) fun t => hstill.returning t m

theorem Fit.still (h : s.Fit t) (hstill : s.Still s') : s'.Fit t :=
  h.frame (congrFun hstill.current t) (congrFun hstill.init t) (congrFun hstill.taken t)
    (fun m _ => congrFun hstill.priority m) (fun m _ => congrFun hstill.ceiling m)
    fun m _ u => hstill.returning u m

theorem not_returning_of_call (hcall : s.call t ≠ some (.taking m)) : ¬ s.Returning t m :=
  fun h => hcall h.1

variable [DecidableEq τ]

/-- A thread that is not returning may go on. -/
theorem returning_setCall {point : Option (MutexCall μ κ)} (hnot : ¬ s.Returning t m)
    (h : s.Returning u m) : (s.setCall t point).Returning u m := by
  have hne : u ≠ t := by
    rintro rfl
    exact hnot h
  exact ⟨(Function.update_of_ne hne _ _).trans h.1, h.2⟩

/-- A waiter that is made ready is returning. -/
theorem Ordered.wake (h : s.Ordered) (hs : s.Owned) (ha : s.Arranged)
    {susp : SuspState τ (WaitList μ κ)} (hresumed : s.toSuspState.Resumed susp t) :
    Ordered { s with toSuspState := susp } where
  valid u := by
    show susp.currentPriority u ≤ _ ∧ _
    rw [hresumed.priority]
    exact h.valid u
  mutex m := by
    have hreturning : ∀ u, s.Returning u m →
        Returning { s with toSuspState := susp } u m := by
      intro u hu
      refine ⟨hu.1, ?_, hu.2.2⟩
      show susp.suspended u = false
      by_cases hut : u = t
      · rw [hut]
        exact hresumed.suspended_self
      · rw [hresumed.suspended_of_ne hut]
        exact hu.2.1
    by_cases hmem : t ∈ s.suspendThread (.mutex m)
    · refine ⟨(h.mutex m).le.trans ((ha.sorted m).headPriority_mono h ?_ fun a _ =>
        congrFun hresumed.priority a), .inr ⟨t, hs.place _ t hmem, hresumed.suspended_self,
        hs.not_owner hmem⟩⟩
      show (susp.suspendThread (.mutex m)).Sublist _
      rw [hresumed.lists]
      exact List.erase_sublist
    · exact (h.mutex m).congr (hresumed.list_of_not_mem hmem)
        (fun a _ => congrFun hresumed.priority a) rfl hreturning

theorem Fit.wake (h : s.Fit u) {susp : SuspState τ (WaitList μ κ)}
    (hresumed : s.toSuspState.Resumed susp t) : Fit { s with toSuspState := susp } u := by
  refine h.frame (congrFun hresumed.priority u) rfl rfl (fun _ _ => rfl) (fun _ _ => rfl)
    fun m _ v hv => ⟨hv.1, ?_, hv.2.2⟩
  show susp.suspended v = false
  by_cases hvt : v = t
  · rw [hvt]
    exact hresumed.suspended_self
  · rw [hresumed.suspended_of_ne hvt]
    exact hv.2.1

/-! ### Taking a mutex without owner -/

theorem raised_of_ne (hu : u ≠ t) : s.raised t m u = s.currentPriority u := by
  unfold raised
  split
  · exact Function.update_of_ne hu _ _
  · rfl

/-- The thread is raised to the ceiling. -/
theorem raised_self (hlt : s.currentPriority t < noPriority) :
    s.raised t m t = min (s.currentPriority t) (s.ceilingPriority m) := by
  unfold raised
  split
  · rename_i hceiling
    rw [Function.update_self, min_eq_right hceiling.2.le]
  · rename_i hceiling
    refine (min_eq_left ?_).symm
    by_contra hlow
    exact hceiling ⟨by omega, by omega⟩

variable [DecidableEq μ]

theorem Ordered.takeFree (h : s.Ordered) (hs : s.Owned) (hrun : s.Running t)
    (howner : s.owner m = none) (hlists : s'.suspendThread = s.suspendThread)
    (hcur : s'.currentPriority = s.raised t m) (hinit : s'.initPriority = s.initPriority)
    (hprio : s'.priority = Function.update s.priority m noPriority)
    (hreturning : ∀ u m', m' ≠ m → s.Returning u m' → s'.Returning u m') : s'.Ordered where
  valid u := by
    rw [hcur, hinit]
    refine ⟨?_, (h.valid u).2⟩
    by_cases hu : u = t
    · rw [hu, raised_self (h.current_lt t)]
      exact (min_le_left _ _).trans (h.valid t).1
    · rw [raised_of_ne hu]
      exact (h.valid u).1
  mutex m' := by
    by_cases hm : m' = m
    · rw [hm]
      have hempty : s.suspendThread (.mutex m) = [] := by
        by_contra hne
        exact hs.held m hne howner
      refine inOrder_nil ((congrFun hlists _).trans hempty) ?_
      rw [hprio, Function.update_self]
    · refine (h.mutex m').congr (congrFun hlists _) (fun a ha => ?_) ?_
        fun u => hreturning u m' hm
      · have hne : a ≠ t := by
          rintro rfl
          exact hs.not_mem hrun.2 _ ha
        rw [hcur, raised_of_ne hne]
      · rw [hprio, Function.update_of_ne hm]

theorem fit_takeFree (h : ∀ u, s.Fit u) (ho : s.Ordered) (hs : s.Owned)
    (howner : s.owner m = none) (hcur : s'.currentPriority = s.raised t m)
    (hinit : s'.initPriority = s.initPriority)
    (htaken : s'.takenObjectList =
      Function.update s.takenObjectList t (m :: s.takenObjectList t))
    (hprio : s'.priority = Function.update s.priority m noPriority)
    (hceiling : s'.ceilingPriority = s.ceilingPriority)
    (hreturning : ∀ u m', m' ≠ m → s.Returning u m' → s'.Returning u m') : ∀ u, s'.Fit u := by
  have hne : ∀ u, ∀ m' ∈ s.takenObjectList u, m' ≠ m := by
    rintro u m' hm' rfl
    exact Option.some_ne_none u (((hs.holding.mem u m').mp hm').symm.trans howner)
  have hsame : ∀ u, ∀ m' ∈ s.takenObjectList u, s'.priority m' = s.priority m' := by
    intro u m' hm'
    rw [hprio, Function.update_of_ne (hne u m' hm')]
  intro u
  by_cases hu : u = t
  · subst hu
    have htaken' : s'.takenObjectList u = m :: s.takenObjectList u := by
      rw [htaken, Function.update_self]
    have hcur' : s'.currentPriority u = min (s.currentPriority u) (s.ceilingPriority m) := by
      rw [hcur, raised_self (ho.current_lt u)]
    have hlt := ho.current_lt u
    obtain ⟨hinit', hall⟩ := le_threadGetMutexPriority.mp (h u).le
    have hle : s'.currentPriority u ≤ s'.threadGetMutexPriority u := by
      refine le_threadGetMutexPriority.mpr ⟨by rw [hinit]; omega, fun m' hm' => ?_⟩
      rw [htaken'] at hm'
      rw [hceiling]
      rcases List.mem_cons.mp hm' with rfl | hmem
      · rw [hprio, Function.update_self]
        omega
      · have hboth := hall m' hmem
        rw [hsame u m' hmem]
        omega
    refine ⟨hle, ?_⟩
    rcases (h u).exact with heq | ⟨m', hm', v, hv⟩
    · left
      refine Nat.le_antisymm hle ?_
      obtain ⟨hfirst, hlower⟩ := le_threadGetMutexPriority.mp
        (le_refl (s'.threadGetMutexPriority u))
      rw [hinit] at hfirst
      rw [htaken'] at hlower
      have hself := hlower m List.mem_cons_self
      have hbefore : s'.threadGetMutexPriority u ≤ s.threadGetMutexPriority u := by
        refine le_threadGetMutexPriority.mpr ⟨hfirst, fun m' hm' => ?_⟩
        have hboth := hlower m' (List.mem_cons_of_mem m hm')
        rw [hsame u m' hm', hceiling] at hboth
        exact hboth
      rw [hceiling] at hself
      omega
    · right
      refine ⟨m', ?_, v, hreturning v m' (hne u m' hm') hv⟩
      rw [htaken']
      exact List.mem_cons_of_mem m hm'
  · refine (h u).frame (by rw [hcur, raised_of_ne hu]) (congrFun hinit u)
      (by rw [htaken, Function.update_of_ne hu]) (hsame u) (fun m' _ => congrFun hceiling m')
      fun m' hm' v => hreturning v m' (hne u m' hm')

/-! ### Waiting -/

omit [DecidableEq τ] [DecidableEq μ] in
/-- A new waiter is the first if it has a higher priority than the first so far. -/
theorem headPriority_enqueue (hlist : s'.suspendThread (.mutex m) =
      rtSuspListEnqueue s.currentPriority .prio t (s.suspendThread (.mutex m)))
    (hcur : s'.currentPriority = s.currentPriority) (hlt : s.currentPriority t < noPriority) :
    s'.headPriority m = min (s.currentPriority t) (s.headPriority m) := by
  cases hl : s.suspendThread (.mutex m) with
  | nil =>
    rw [hl] at hlist
    rw [headPriority_nil hl, headPriority_cons hlist, hcur, min_eq_left hlt.le]
  | cons first rest =>
    rw [hl] at hlist
    rw [headPriority_cons hl]
    unfold rtSuspListEnqueue at hlist
    dsimp only at hlist
    rw [List.orderedInsert_cons] at hlist
    by_cases hfirst : s.currentPriority t < s.currentPriority first
    · rw [if_pos hfirst] at hlist
      rw [headPriority_cons hlist, hcur, min_eq_left hfirst.le]
    · rw [if_neg hfirst] at hlist
      rw [headPriority_cons hlist, hcur, min_eq_right (Nat.le_of_not_lt hfirst)]

variable [DecidableEq κ]

/-- The waiter has been put into the list, before it lends its priority. -/
theorem ordered_lend {first : Nat} (hs : s.Owned)
    (hvalid : ∀ u, s.currentPriority u ≤ s.initPriority u ∧ s.initPriority u < noPriority)
    (hothers : ∀ m', m' ≠ m → s.InOrder m')
    (hhead : s.headPriority m = min (s.currentPriority t) first) (hle : s.priority m ≤ first)
    (hexact : s.priority m = first ∨ ∃ u, s.Returning u m)
    (hlend : s.lend depth t m owner = some s') : s'.Ordered := by
  unfold MutexState.lend at hlend
  dsimp only at hlend
  by_cases hlow : s.currentPriority t < s.priority m
  · rw [if_pos hlow] at hlend
    have hset : Ordered { s with
        priority := Function.update s.priority m (s.currentPriority t) } := by
      refine ⟨hvalid, fun m' => ?_⟩
      by_cases hm : m' = m
      · subst hm
        refine inOrder_of_eq ?_
        show Function.update s.priority m' _ m' = s.headPriority m'
        rw [Function.update_self, hhead]
        omega
      · exact (hothers m' hm).congr rfl (fun _ _ => rfl) (Function.update_of_ne hm _ _)
          fun _ => id
    split at hlend
    · rename_i hbelow
      refine hset.threadUpdatePriority (hs.others _ _ _ _ _ _ _) ?_ hlend
      exact hbelow.le.trans (hvalid owner).1
    · obtain rfl := Option.some.inj hlend
      exact hset
  · rw [if_neg hlow] at hlend
    obtain rfl := Option.some.inj hlend
    refine ⟨hvalid, fun m' => ?_⟩
    by_cases hm : m' = m
    · subst hm
      refine ⟨?_, hexact.imp (fun heq => ?_) id⟩
      · rw [hhead]
        omega
      · rw [hhead]
        omega
    · exact hothers m' hm

theorem fit_lend (hs : s.Owned) (hfit : ∀ u, s.Fit u)
    (howner : s.owner m = some owner) (hlend : s.lend depth t m owner = some s') :
    ∀ u, s'.Fit u := by
  unfold MutexState.lend at hlend
  dsimp only at hlend
  by_cases hlow : s.currentPriority t < s.priority m
  · rw [if_pos hlow] at hlend
    have hmem : m ∈ s.takenObjectList owner := (hs.holding.mem owner m).mpr howner
    obtain ⟨-, hall⟩ := le_threadGetMutexPriority.mp (hfit owner).le
    have hothers : ∀ u, u ≠ owner → Fit { s with
        priority := Function.update s.priority m (s.currentPriority t) } u := by
      intro u hu
      refine (hfit u).frame rfl rfl rfl (fun m' hm' => Function.update_of_ne ?_ _ _)
        (fun _ _ => rfl) fun _ _ _ => id
      rintro rfl
      exact hu (Option.some.inj (((hs.holding.mem u m').mp hm').symm.trans howner))
    -- The owner is asked for the new priority, and for nothing else that is lower.
    have hasked : threadGetMutexPriority { s with
        priority := Function.update s.priority m (s.currentPriority t) } owner =
        min (s.threadGetMutexPriority owner) (s.currentPriority t) := by
      refine Nat.le_antisymm ?_ ?_
      · obtain ⟨hfirst, hlower⟩ := le_threadGetMutexPriority.mp (le_refl (threadGetMutexPriority
          { s with priority := Function.update s.priority m (s.currentPriority t) } owner))
        dsimp only at hfirst hlower
        refine Nat.le_min.mpr ⟨le_threadGetMutexPriority.mpr ⟨hfirst, fun m' hm' => ?_⟩, ?_⟩
        · have hboth := hlower m' hm'
          by_cases hm : m' = m
          · subst hm
            rw [Function.update_self] at hboth
            omega
          · rw [Function.update_of_ne hm] at hboth
            exact hboth
        · have hself := (hlower m hmem).1
          rw [Function.update_self] at hself
          exact hself
      · refine le_threadGetMutexPriority.mpr ⟨(min_le_left _ _).trans
          threadGetMutexPriority_le_init, fun m' hm' => ?_⟩
        have hboth := (le_threadGetMutexPriority.mp (le_refl (s.threadGetMutexPriority owner))).2
          m' hm'
        dsimp only
        by_cases hm : m' = m
        · subst hm
          rw [Function.update_self]
          omega
        · rw [Function.update_of_ne hm]
          omega
    have hle := (hfit owner).le
    split at hlend
    · rename_i hbelow
      refine fit_threadUpdatePriority (hs.others _ _ _ _ _ _ _) hothers ?_ hlend
      rw [hasked]
      omega
    · rename_i habove
      obtain rfl := Option.some.inj hlend
      intro u
      by_cases hu : u = owner
      · subst hu
        refine ⟨?_, (hfit u).exact.imp (fun heq => ?_) id⟩
        · rw [hasked]
          dsimp only
          omega
        · rw [hasked]
          dsimp only
          omega
      · exact hothers u hu
  · rw [if_neg hlow] at hlend
    obtain rfl := Option.some.inj hlend
    exact hfit

/-! ### Giving up -/

omit [DecidableEq τ] [DecidableEq μ] [DecidableEq κ] in
/-- With nobody returning, the mutexes ask for what the thread is entitled to. -/
theorem threadGetMutexPriority_eq_entitled {mutexes : List μ}
    (hinit : s'.initPriority t = s.initPriority t) (htaken : s'.takenObjectList t = mutexes)
    (hprio : ∀ m ∈ mutexes, s'.priority m = s.headPriority m)
    (hceiling : ∀ m ∈ mutexes, s'.ceilingPriority m = s.ceilingPriority m) :
    s'.threadGetMutexPriority t = s.entitled t mutexes := by
  rw [threadGetMutexPriority_eq, entitled, hinit, htaken]
  exact lowest_congr fun m hm => by rw [hprio m hm, hceiling m hm]

theorem ordered_waiterLeft (hs : s.Owned)
    (hvalid : ∀ u, s.currentPriority u ≤ s.initPriority u ∧ s.initPriority u < noPriority)
    (hothers : ∀ m', m' ≠ m → s.InOrder m') (hleft : s.waiterLeft depth t m = some s') :
    s'.Ordered := by
  have hmid : (s.mutexUpdatePriority m).Ordered := by
    refine ⟨hvalid, fun m' => ?_⟩
    by_cases hm : m' = m
    · subst hm
      exact inOrder_of_eq (mutexUpdatePriority_self s m')
    · exact (hothers m' hm).congr rfl (fun _ _ => rfl) (mutexUpdatePriority_of_ne hm) fun _ => id
  unfold MutexState.waiterLeft at hleft
  cases howner : s.owner m with
  | none =>
    rw [howner] at hleft
    obtain rfl := Option.some.inj hleft
    exact hmid
  | some owner =>
    rw [howner] at hleft
    dsimp only at hleft
    split at hleft
    · exact hmid.updateOwner (hs.reprioritised (mutexUpdatePriority_reprioritised s m)) hleft
    · obtain rfl := Option.some.inj hleft
      exact hmid

theorem fit_waiterLeft (hs : s.Owned) (hfit : ∀ u, s.owner m ≠ some u → s.Fit u)
    (hle : ∀ o, s.owner m = some o → s.currentPriority o ≤ s.threadGetMutexPriority o)
    (hm : s.priority m ≤ s.headPriority m) (hothers : ∀ m', m' ≠ m → s.InOrder m')
    (hcond : ∀ o, s.owner m = some o → s.currentPriority o = s.currentPriority t ∨
      s.currentPriority o = s.entitled o (s.takenObjectList o) ∨ s.Awaited o)
    (hleft : s.waiterLeft depth t m = some s') : ∀ u, s'.Fit u := by
  have hmid : ∀ u, s.owner m ≠ some u → (s.mutexUpdatePriority m).Fit u := by
    intro u hu
    refine (hfit u hu).frame rfl rfl rfl (fun m' hm' => Function.update_of_ne ?_ _ _)
      (fun _ _ => rfl) fun _ _ _ => id
    rintro rfl
    exact hu ((hs.holding.mem u m').mp hm')
  unfold MutexState.waiterLeft at hleft
  cases howner : s.owner m with
  | none =>
    rw [howner] at hleft
    obtain rfl := Option.some.inj hleft
    exact fun u => hmid u fun heq => Option.some_ne_none u (heq.symm.trans howner)
  | some owner =>
    rw [howner] at hleft
    dsimp only at hleft
    have hrest : ∀ u, u ≠ owner → (s.mutexUpdatePriority m).Fit u := fun u hu =>
      hmid u fun heq => hu (Option.some.inj (heq.symm.trans howner))
    split at hleft
    · exact fit_updateOwner (hs.reprioritised (mutexUpdatePriority_reprioritised s m)) hrest hleft
    · rename_i hother
      obtain rfl := Option.some.inj hleft
      intro u
      by_cases hu : u = owner
      · subst hu
        obtain ⟨hfirst, hall⟩ := le_threadGetMutexPriority.mp (hle u howner)
        constructor
        · refine le_threadGetMutexPriority.mpr ⟨hfirst, fun m' hm' => ?_⟩
          refine ⟨?_, (hall m' hm').2⟩
          by_cases hne : m' = m
          · subst hne
            rw [mutexUpdatePriority_self]
            exact (hall m' hm').1.trans hm
          · rw [mutexUpdatePriority_of_ne hne]
            exact (hall m' hm').1
        · by_cases hawaited : s.Awaited u
          · exact .inr hawaited
          · left
            have heq := ((hcond u howner).resolve_left hother).resolve_right hawaited
            have hentitled : (s.mutexUpdatePriority m).threadGetMutexPriority u =
                s.entitled u (s.takenObjectList u) := by
              refine threadGetMutexPriority_eq_entitled rfl rfl (fun m' hm' => ?_) fun _ _ => rfl
              by_cases hne : m' = m
              · rw [hne, mutexUpdatePriority_self]
              · rw [mutexUpdatePriority_of_ne hne]
                exact (hothers m' hne).exact.resolve_right fun hret => hawaited ⟨m', hm', hret⟩
            exact heq.trans hentitled.symm
      · exact hrest u hu

/-! ### Releasing -/

omit [DecidableEq μ] [DecidableEq κ] in
/-- `_check_and_update_prio`, with the priority that the thread has afterwards. -/
theorem checkAndUpdatePrio_cases (s : MutexState τ μ κ) (t : τ) (m : μ) :
    ∃ p, s.checkAndUpdatePrio t m = s.changePriority t p ∧
      (p = s.threadGetMutexPriority t ∨
        p = s.currentPriority t ∧ s.ceilingPriority m = noPriority ∧
          s.currentPriority t ≠ s.priority m) := by
  unfold checkAndUpdatePrio
  split
  · exact ⟨_, rfl, .inl rfl⟩
  · rename_i hskip
    obtain ⟨hceiling, hprio⟩ := not_or.mp hskip
    refine ⟨s.currentPriority t, ?_, .inr ⟨rfl, not_not.mp hceiling, hprio⟩⟩
    unfold changePriority
    rw [Function.update_eq_self]

omit [DecidableEq τ] [DecidableEq μ] [DecidableEq κ] in
/-- A thread that keeps its mutexes is not touched by what happens to another one. -/
theorem Fit.other (h : s.Fit u) (hs : s.Owned) (hm : s.owner m ≠ some u)
    (hcur : s'.currentPriority u = s.currentPriority u)
    (hinit : s'.initPriority = s.initPriority)
    (htaken : s'.takenObjectList u = s.takenObjectList u)
    (hprio : ∀ m', m' ≠ m → s'.priority m' = s.priority m')
    (hceiling : s'.ceilingPriority = s.ceilingPriority)
    (hreturning : ∀ v m', m' ≠ m → s.Returning v m' → s'.Returning v m') : s'.Fit u := by
  have hne : ∀ m' ∈ s.takenObjectList u, m' ≠ m := by
    rintro m' hm' rfl
    exact hm ((hs.holding.mem u m').mp hm')
  exact h.frame hcur (congrFun hinit u) htaken (fun m' hm' => hprio m' (hne m' hm'))
    (fun m' _ => congrFun hceiling m') fun m' hm' v => hreturning v m' (hne m' hm')

omit [DecidableEq τ] [DecidableEq κ] in
/-- The thread that has given the mutex back. -/
theorem Fit.released (h : s.Fit t) (ho : s.Ordered) (hs : s.Owned)
    (hinit : s'.initPriority = s.initPriority)
    (htaken : s'.takenObjectList t = (s.takenObjectList t).erase m)
    (hprio : ∀ m', m' ≠ m → s'.priority m' = s.priority m')
    (hceiling : s'.ceilingPriority = s.ceilingPriority)
    (hreturning : ∀ v m', m' ≠ m → s.Returning v m' → s'.Returning v m')
    (hcur : s'.currentPriority t = lowest (fun m' => min (s.priority m') (s.ceilingPriority m'))
        ((s.takenObjectList t).erase m) (s.initPriority t) ∨
      s'.currentPriority t = s.currentPriority t ∧
        (s.currentPriority t = s.entitled t ((s.takenObjectList t).erase m) ∨
          ∃ v m', m' ≠ m ∧ s.owner m' = some t ∧ s.Returning v m')) : s'.Fit t := by
  have hrest : ∀ m' ∈ (s.takenObjectList t).erase m, m' ≠ m ∧ m' ∈ s.takenObjectList t :=
    fun m' hm' => (hs.holding.nodup t).mem_erase_iff.mp hm'
  rcases hcur with heq | ⟨hsame, hcond⟩
  · refine fit_of_eq (heq.trans ?_)
    rw [threadGetMutexPriority_eq, htaken, hinit, hceiling]
    exact lowest_congr fun m' hm' => by rw [hprio m' (hrest m' hm').1]
  have hawaited : ∀ v m', m' ≠ m → s.owner m' = some t → s.Returning v m' → s'.Awaited t := by
    intro v m' hne howner hv
    refine ⟨m', ?_, v, hreturning v m' hne hv⟩
    rw [htaken]
    exact (List.mem_erase_of_ne hne).mpr ((hs.holding.mem t m').mpr howner)
  obtain ⟨hfirst, hall⟩ := le_threadGetMutexPriority.mp h.le
  constructor
  · rw [hsame]
    refine le_threadGetMutexPriority.mpr ⟨by rw [hinit]; exact hfirst, fun m' hm' => ?_⟩
    rw [htaken] at hm'
    obtain ⟨hne, hmem⟩ := hrest m' hm'
    rw [hprio m' hne, hceiling]
    exact hall m' hmem
  · by_cases hnow : s'.Awaited t
    · exact .inr hnow
    · left
      rcases hcond with heq | ⟨v, m', hne, howner, hv⟩
      · rw [hsame, heq]
        refine (threadGetMutexPriority_eq_entitled (congrFun hinit t) htaken (fun m' hm' => ?_)
          fun m' _ => congrFun hceiling m').symm
        obtain ⟨hne, hmem⟩ := hrest m' hm'
        rw [hprio m' hne]
        refine (ho.mutex m').exact.resolve_right fun ⟨v, hv⟩ => hnow ?_
        exact hawaited v m' hne ((hs.holding.mem t m').mp hmem) hv
      · exact absurd (hawaited v m' hne howner hv) hnow

omit [DecidableEq τ] [DecidableEq μ] [DecidableEq κ] in
/-- The thread that has been given the mutex. -/
theorem Fit.given (h : s.Fit t) (hs : s.Owned) (hm : s.owner m ≠ some t)
    (hcur : s'.currentPriority t = s.currentPriority t)
    (hinit : s'.initPriority = s.initPriority)
    (htaken : s'.takenObjectList t = m :: s.takenObjectList t)
    (hprio : ∀ m', m' ≠ m → s'.priority m' = s.priority m')
    (hceiling : s'.ceilingPriority = s.ceilingPriority)
    (hreturning : ∀ v m', m' ≠ m → s.Returning v m' → s'.Returning v m')
    (hwaiters : s.currentPriority t ≤ s'.priority m)
    (hbound : s.currentPriority t ≤ s.ceilingPriority m) : s'.Fit t := by
  have hne : ∀ m' ∈ s.takenObjectList t, m' ≠ m := by
    rintro m' hm' rfl
    exact hm ((hs.holding.mem t m').mp hm')
  obtain ⟨hfirst, hall⟩ := le_threadGetMutexPriority.mp h.le
  have hle : s'.currentPriority t ≤ s'.threadGetMutexPriority t := by
    rw [hcur]
    refine le_threadGetMutexPriority.mpr ⟨by rw [hinit]; exact hfirst, fun m' hm' => ?_⟩
    rw [htaken] at hm'
    rw [hceiling]
    rcases List.mem_cons.mp hm' with rfl | hmem
    · exact ⟨hwaiters, hbound⟩
    · rw [hprio m' (hne m' hmem)]
      exact hall m' hmem
  refine ⟨hle, h.exact.imp (fun heq => Nat.le_antisymm hle ?_) ?_⟩
  · obtain ⟨hfirst', hall'⟩ := le_threadGetMutexPriority.mp
      (le_refl (s'.threadGetMutexPriority t))
    rw [hcur, heq]
    refine le_threadGetMutexPriority.mpr ⟨by rw [← hinit]; exact hfirst', fun m' hm' => ?_⟩
    have hboth := hall' m' (by rw [htaken]; exact List.mem_cons_of_mem m hm')
    rw [hprio m' (hne m' hm'), hceiling] at hboth
    exact hboth
  · rintro ⟨m', hm', v, hv⟩
    refine ⟨m', ?_, v, hreturning v m' (hne m' hm') hv⟩
    rw [htaken]
    exact List.mem_cons_of_mem m hm'

/-! ### What every step keeps -/

/-- Others go on returning while a thread begins to wait. -/
theorem suspendOn_returning (hrun : s.Running t) (error : τ → Int) (m : μ) {m' : μ}
    (hu : s.Returning u m') :
    (MutexState.suspendOn { s with error := error } t m).Returning u m' := by
  have hne : u ≠ t := by
    rintro rfl
    exact Option.some_ne_none _ (hu.1.symm.trans hrun.1)
  have hsusp := SuspState.rtThreadSuspendToList_suspended
    { s.toSuspState with error := error } t (.mutex m) .prio
  exact ⟨(Function.update_of_ne hne _ _).trans hu.1,
    (hsusp.suspended_of_ne hne).trans hu.2.1, hu.2.2⟩

omit [DecidableEq μ] [DecidableEq κ] in
theorem startTimer_still (s : MutexState τ μ κ) (t : τ) (timeout : Int) :
    s.Still { s with toSuspState := s.startTimer t timeout } := by
  obtain ⟨set, active, heq, -⟩ := s.toSuspState.startTimer_eq t timeout
  rw [heq]
  exact ⟨fun _ => rfl, rfl, rfl, rfl, rfl, rfl, fun _ _ => id⟩

theorem Ordered.wait (h : s.Ordered) (hs : s.Owned) (hrun : s.Running t) (error : τ → Int)
    (hs' : (MutexState.suspendOn { s with error := error } t m).Owned)
    (hlend : (MutexState.suspendOn { s with error := error } t m).lend depth t m owner =
      some s') : s'.Ordered := by
  have hjoined := hs.suspendOn_joined hrun error m
  have hcur : ∀ u, (MutexState.suspendOn { s with error := error } t m).currentPriority u =
      s.currentPriority u := congrFun hjoined.current
  have hhead := headPriority_enqueue hjoined.list hjoined.current (h.current_lt t)
  rw [← hcur t] at hhead
  refine ordered_lend hs' (fun u => ?_) (fun m' hm => ?_) hhead (h.mutex m).le
    ((h.mutex m).exact.imp id fun ⟨u, hu⟩ => ⟨u, suspendOn_returning hrun error m hu⟩) hlend
  · rw [hcur u]
    exact h.valid u
  · exact (h.mutex m').congr (hjoined.lists _ (by simpa using hm)) (fun a _ => hcur a) rfl
      fun u => suspendOn_returning hrun error m

omit [DecidableEq κ] in
theorem Ordered.releaseLast (h : s.Ordered) (hs : s.Owned) (hsusp : s.suspended t = false)
    (howner : s.owner m = some t) :
    Ordered ((MutexState.checkAndUpdatePrio { s with
      hold := Function.update s.hold m (s.hold m - 1)
      takenObjectList :=
        Function.update s.takenObjectList t ((s.takenObjectList t).erase m) } t m).handOver m) := by
  obtain ⟨p, heq, hp⟩ := checkAndUpdatePrio_cases { s with
    hold := Function.update s.hold m (s.hold m - 1)
    takenObjectList := Function.update s.takenObjectList t ((s.takenObjectList t).erase m) } t m
  have hinit : p ≤ s.initPriority t := by
    rcases hp with rfl | ⟨rfl, -⟩
    · exact threadGetMutexPriority_le_init
    · exact (h.valid t).1
  have hvalid : ∀ u, Function.update s.currentPriority t p u ≤ s.initPriority u ∧
      s.initPriority u < noPriority := by
    intro u
    refine ⟨?_, (h.valid u).2⟩
    by_cases hu : u = t
    · rw [hu, Function.update_self]
      exact hinit
    · rw [Function.update_of_ne hu]
      exact (h.valid u).1
  rcases hs.releaseLast_cases howner rfl with
    ⟨hlist, hover⟩ | ⟨next, rest, susp, hlist, hne, hresumed, -, hover⟩
  · rw [hover, heq]
    refine ⟨hvalid, fun m' => ?_⟩
    by_cases hm : m' = m
    · subst hm
      have hprio : Function.update s.priority m' noPriority m' = noPriority :=
        Function.update_self m' noPriority s.priority
      exact inOrder_nil hlist hprio
    · refine (h.mutex m').congr rfl (fun a ha => hs.raised_of_mem hsusp ha p)
        (Function.update_of_ne hm _ _) fun u hu => ⟨hu.1, hu.2.1, ?_⟩
      show Function.update s.owner m none m' ≠ some u
      rw [Function.update_of_ne hm]
      exact hu.2.2
  · rw [hover, heq]
    rw [heq] at hresumed
    have hmem : next ∈ s.suspendThread (.mutex m) := by
      rw [hlist]
      exact List.mem_cons_self
    refine ⟨fun u => ?_, fun m' => ?_⟩
    · have hcur : susp.currentPriority u = _ := congrFun hresumed.priority u
      show susp.currentPriority u ≤ _ ∧ _
      rw [hcur]
      exact hvalid u
    · by_cases hm : m' = m
      · subst hm
        exact inOrder_of_eq (mutexUpdatePriority_self _ _)
      · have hout : next ∉ s.suspendThread (.mutex m') := fun hmem' =>
          hm (by simpa using hs.sound.single _ _ next hmem' hmem)
        refine (h.mutex m').congr (hresumed.list_of_not_mem hout) (fun a ha => ?_)
          (mutexUpdatePriority_of_ne hm) fun u hu => ⟨hu.1, ?_, ?_⟩
        · exact (congrFun hresumed.priority a).trans (hs.raised_of_mem hsusp ha p)
        · have hun : u ≠ next := by
            rintro rfl
            exact Bool.false_ne_true (hu.2.1.symm.trans (hs.sound.suspended _ u hmem))
          exact (hresumed.suspended_of_ne hun).trans hu.2.1
        · show Function.update s.owner m (some next) m' ≠ some u
          rw [Function.update_of_ne hm]
          exact hu.2.2

/-- Every step keeps the mutexes in order. -/
theorem Ordered.effect {a : MutexStep τ μ κ} (h : s.Ordered) (hs : s.Owned) (ha : s.Arranged)
    (heffect : MutexEffect depth s a s') : s'.Ordered := by
  cases heffect with
  | @takeFree t m _ hrun howner =>
    refine h.takeFree hs hrun howner rfl rfl rfl rfl fun u m' hm hu => ⟨hu.1, hu.2.1, ?_⟩
    show Function.update s.owner m (some t) m' ≠ some u
    rw [Function.update_of_ne hm]
    exact hu.2.2
  | @wait t m timeout owner lent hrun howner hne hlend =>
    have hsusp := hs.suspendOn_error hrun howner hne
    exact (h.wait hs hrun _ hsusp hlend).still (startTimer_still lent t timeout)
  | @handed t m hcall hsusp howner =>
    refine h.still ⟨fun _ => rfl, rfl, rfl, rfl, rfl, rfl, fun u m' hu => ?_⟩
    refine returning_setCall (fun hret => ?_) hu
    obtain rfl := MutexCall.taking.inj (Option.some.inj (hcall.symm.trans hret.1))
    exact hret.2.2 howner
  | @failed t m result mid hcall hsusp howner _ hleft =>
    have hmove := hs.leaving hsusp
    refine (ordered_waiterLeft hmove h.valid (fun m' hm => ?_) hleft).still
      ⟨fun _ => rfl, rfl, rfl, rfl, rfl, rfl, fun _ _ => id⟩
    refine (h.mutex m').congr rfl (fun _ _ => rfl) rfl fun u hu => returning_setCall ?_ hu
    exact fun hret => hm (MutexCall.taking.inj (Option.some.inj (hret.1.symm.trans hcall)))
  | @leave t hcall =>
    refine h.still ⟨fun _ => rfl, rfl, rfl, rfl, rfl, rfl, fun u m' hu => ?_⟩
    exact returning_setCall (not_returning_of_call (by rw [hcall]; simp)) hu
  | @releaseLast t m hrun howner _ =>
    exact (h.releaseLast hs hrun.2 howner).still
      ⟨fun _ => rfl, rfl, rfl, rfl, rfl, rfl, fun _ _ => id⟩
  | @ceiling m p s' hceiling =>
    rcases setprioceiling_cases hceiling with rfl | ⟨-, hset⟩
    · exact h
    · have hmid : Ordered { s with ceilingPriority := Function.update s.ceilingPriority m p } :=
        ⟨h.valid, fun m' => (h.mutex m').congr rfl (fun _ _ => rfl) rfl fun _ => id⟩
      rcases hset with ⟨-, rfl⟩ | ⟨owner, -, hupdate⟩
      · exact hmid
      · exact hmid.updateOwner (hs.others _ _ _ _ _ _ _) hupdate
  | @block t k _ susp hrun hsusp =>
    refine h.still ⟨fun m => hsusp.list_of_ne (by simp), hsusp.priority, rfl, rfl, rfl, rfl,
      fun u m hu => ?_⟩
    have hne : u ≠ t := by
      rintro rfl
      exact Option.some_ne_none _ (hu.1.symm.trans hrun.1)
    exact ⟨(Function.update_of_ne hne _ _).trans hu.1,
      (hsusp.suspended_of_ne hne).trans hu.2.1, hu.2.2⟩
  | @unblock t k hcall _ =>
    refine h.still ⟨fun _ => rfl, rfl, rfl, rfl, rfl, rfl, fun u m' hu => ?_⟩
    exact returning_setCall (not_returning_of_call (by rw [hcall]; simp)) hu
  | wake _ hresumed => exact h.wake hs ha hresumed
  | takeAgain | takeFailed | releaseOne | releaseFailed | same =>
    exact h.still ⟨fun _ => rfl, rfl, rfl, rfl, rfl, rfl, fun _ _ => id⟩

/-! ## Prompt steps -/

/-- A waiter that gives up comes in time for the owner if they have the same priority, or the
owner has its priority without that waiter, or another one is still to come.  A last release
comes in time for the thread in the same way, or if there is a ceiling; and the next owner
must not be below the ceiling. -/
def Prompt (s : MutexState τ μ κ) : MutexStep τ μ κ → Prop
  | .resumed t => ∀ m o, s.call t = some (.taking m) → s.owner m = some o → o ≠ t →
      s.currentPriority o = s.currentPriority t ∨
        s.currentPriority o = s.entitled o (s.takenObjectList o) ∨
        ∃ u m', u ≠ t ∧ s.owner m' = some o ∧ s.Returning u m'
  | .release t m => s.owner m = some t → s.hold m = 1 →
      (s.ceilingPriority m ≠ noPriority ∨ s.currentPriority t = s.priority m ∨
        s.currentPriority t = s.entitled t ((s.takenObjectList t).erase m) ∨
        ∃ u m', m' ≠ m ∧ s.owner m' = some t ∧ s.Returning u m') ∧
      ∀ next ∈ (s.suspendThread (.mutex m)).head?,
        s.currentPriority next ≤ s.ceilingPriority m
  | _ => True

/-- What prompt steps keep. -/
structure Inheriting (s : MutexState τ μ κ) : Prop where
  owned : s.Owned
  arranged : s.Arranged
  ordered : s.Ordered
  fit : ∀ t, s.Fit t

omit [DecidableEq κ] in
theorem Inheriting.releaseLast (h : s.Inheriting) (howner : s.owner m = some t)
    (hhold : s.hold m - 1 = 0) (hprompt : s.Prompt (.release t m)) :
    ∀ u, Fit ((MutexState.checkAndUpdatePrio { s with
      hold := Function.update s.hold m (s.hold m - 1)
      takenObjectList :=
        Function.update s.takenObjectList t ((s.takenObjectList t).erase m) } t m).handOver m)
      u := by
  have hs := h.owned
  have hone := hs.holding.hold_eq howner hhold
  obtain ⟨hcond, hbound⟩ := hprompt howner hone
  obtain ⟨p, heq, hp⟩ := checkAndUpdatePrio_cases { s with
    hold := Function.update s.hold m (s.hold m - 1)
    takenObjectList := Function.update s.takenObjectList t ((s.takenObjectList t).erase m) } t m
  have hself : Function.update s.takenObjectList t ((s.takenObjectList t).erase m) t =
    (s.takenObjectList t).erase m := Function.update_self _ _ _
  have hnow : p = lowest (fun m' => min (s.priority m') (s.ceilingPriority m'))
        ((s.takenObjectList t).erase m) (s.initPriority t) ∨
      p = s.currentPriority t ∧
        (s.currentPriority t = s.entitled t ((s.takenObjectList t).erase m) ∨
          ∃ v m', m' ≠ m ∧ s.owner m' = some t ∧ s.Returning v m') := by
    rcases hp with hasked | ⟨hkept, hceiling, hprio⟩
    · left
      rw [hasked, threadGetMutexPriority_eq]
      dsimp only
      rw [hself]
    · exact .inr ⟨hkept, (hcond.resolve_left fun hne => hne hceiling).resolve_left hprio⟩
  have hcur : ∀ u, u ≠ t → Function.update s.currentPriority t p u = s.currentPriority u :=
    fun u hu => Function.update_of_ne hu _ _
  have hcurSelf : Function.update s.currentPriority t p t = p := Function.update_self _ _ _
  have hm : ∀ u, u ≠ t → s.owner m ≠ some u := fun u hu heq' =>
    hu (Option.some.inj (heq'.symm.trans howner))
  rcases hs.releaseLast_cases howner rfl with
    ⟨hlist, hover⟩ | ⟨next, rest, susp, hlist, hne, hresumed, -, hover⟩
  · rw [hover, heq]
    have hprio : ∀ m', m' ≠ m → Function.update s.priority m noPriority m' = s.priority m' :=
      fun m' hm => Function.update_of_ne hm _ _
    have hreturning : ∀ v m', m' ≠ m → s.Returning v m' →
        Function.update s.owner m none m' ≠ some v := fun v m' hm hv => by
      rw [Function.update_of_ne hm]
      exact hv.2.2
    intro u
    by_cases hu : u = t
    · subst hu
      refine (h.fit u).released h.ordered hs rfl hself hprio rfl
        (fun v m' hm hv => ⟨hv.1, hv.2.1, hreturning v m' hm hv⟩) ?_
      exact hnow.imp hcurSelf.trans fun hkept => ⟨hcurSelf.trans hkept.1, hkept.2⟩
    · exact (h.fit u).other hs (hm u hu) (hcur u hu) rfl (Function.update_of_ne hu _ _) hprio rfl
        fun v m' hm' hv => ⟨hv.1, hv.2.1, hreturning v m' hm' hv⟩
  · rw [hover, heq]
    rw [heq] at hresumed
    have hmem : next ∈ s.suspendThread (.mutex m) := by
      rw [hlist]
      exact List.mem_cons_self
    have hreturning : ∀ v m', m' ≠ m → s.Returning v m' → susp.suspended v = false ∧
        Function.update s.owner m (some next) m' ≠ some v := by
      intro v m' hm' hv
      have hvn : v ≠ next := by
        rintro rfl
        exact Bool.false_ne_true (hv.2.1.symm.trans (hs.sound.suspended _ v hmem))
      refine ⟨(hresumed.suspended_of_ne hvn).trans hv.2.1, ?_⟩
      rw [Function.update_of_ne hm']
      exact hv.2.2
    have hcur' : ∀ u, susp.currentPriority u = Function.update s.currentPriority t p u :=
      congrFun hresumed.priority
    intro u
    by_cases hu : u = t
    · subst hu
      refine (h.fit u).released h.ordered hs rfl ?_ (fun m' hm' => mutexUpdatePriority_of_ne hm')
        rfl (fun v m' hm' hv => ⟨hv.1, hreturning v m' hm' hv⟩) ?_
      · exact (Function.update_of_ne hne.symm _ _).trans hself
      · exact hnow.imp (((hcur' u).trans hcurSelf).trans ·)
          fun hkept => ⟨((hcur' u).trans hcurSelf).trans hkept.1, hkept.2⟩
    · by_cases hun : u = next
      · subst hun
        have htaken : Function.update s.takenObjectList t ((s.takenObjectList t).erase m) u =
            s.takenObjectList u := Function.update_of_ne hu _ _
        refine (h.fit u).given (m := m) hs (hm u hu) ((hcur' u).trans (hcur u hu)) rfl ?_
          (fun m' hm' => mutexUpdatePriority_of_ne hm') rfl
          (fun v m' hm' hv => ⟨hv.1, hreturning v m' hm' hv⟩) ?_ ?_
        · refine (Function.update_self u _ _).trans ?_
          show m :: Function.update s.takenObjectList t _ u = _
          rw [htaken]
        · rw [mutexUpdatePriority_self]
          refine le_headPriority (h.ordered.current_lt u).le fun a ha => ?_
          have ha' : a ∈ (s.suspendThread (.mutex m)).erase u := by
            have hlists := congrFun hresumed.lists (.mutex m)
            exact hlists ▸ ha
          have hat : a ≠ t := by
            rintro rfl
            exact hs.not_owner (List.mem_of_mem_erase ha') howner
          show _ ≤ susp.currentPriority a
          rw [hcur' a, hcur a hat, ← headPriority_cons hlist]
          exact (h.arranged.sorted m).headPriority_le (List.mem_of_mem_erase ha')
        · exact hbound u (by rw [hlist]; rfl)
      · refine (h.fit u).other hs (hm u hu) ((hcur' u).trans (hcur u hu)) rfl ?_
          (fun m' hm' => mutexUpdatePriority_of_ne hm') rfl
          fun v m' hm' hv => ⟨hv.1, hreturning v m' hm' hv⟩
        exact (Function.update_of_ne hun _ _).trans (Function.update_of_ne hu _ _)

theorem Inheriting.failed {mid : MutexState τ μ κ} (h : s.Inheriting)
    (hcall : s.call t = some (.taking m)) (hsusp : s.suspended t = false)
    (howner : s.owner m ≠ some t) (hprompt : s.Prompt (.resumed t))
    (hleft : (s.setCall t (some .leaving)).waiterLeft depth t m = some mid) : ∀ u, mid.Fit u := by
  have hs := h.owned
  have hmove := hs.leaving hsusp
  have hreturning : ∀ u m', m' ≠ m → s.Returning u m' →
      (s.setCall t (some .leaving)).Returning u m' := fun u m' hm hu =>
    returning_setCall (fun hret => hm (MutexCall.taking.inj
      (Option.some.inj (hret.1.symm.trans hcall)))) hu
  refine fit_waiterLeft hmove (fun u hu => ?_) (fun o _ => (h.fit o).le) (h.ordered.mutex m).le
    (fun m' hm => ?_) (fun o ho => ?_) hleft
  · exact (h.fit u).other hs hu rfl rfl rfl (fun _ _ => rfl) rfl fun v m' hm => hreturning v m' hm
  · exact (h.ordered.mutex m').congr rfl (fun _ _ => rfl) rfl fun u => hreturning u m' hm
  · have hne : o ≠ t := by
      rintro rfl
      exact howner ho
    refine (hprompt m o hcall ho hne).imp id (Or.imp id ?_)
    rintro ⟨u, m', hut, ho', hu⟩
    refine ⟨m', (hs.holding.mem o m').mpr ho', u, ?_⟩
    exact ⟨(Function.update_of_ne hut _ _).trans hu.1, hu.2⟩

theorem Inheriting.ceiling (h : s.Inheriting) (hceiling : s.rtMutexSetprioceiling depth m p =
    some s') : ∀ u, s'.Fit u := by
  have hs := h.owned
  have hother : ∀ u, s.owner m ≠ some u →
      Fit { s with ceilingPriority := Function.update s.ceilingPriority m p } u := by
    intro u hu
    refine (h.fit u).frame rfl rfl rfl (fun _ _ => rfl)
      (fun m' hm' => Function.update_of_ne ?_ _ _) fun _ _ _ => id
    rintro rfl
    exact hu ((hs.holding.mem u m').mp hm')
  rcases setprioceiling_cases hceiling with rfl | ⟨-, ⟨howner, rfl⟩ | ⟨owner, howner, hupdate⟩⟩
  · exact h.fit
  · exact fun u => hother u fun heq => Option.some_ne_none u (heq.symm.trans howner)
  · exact fit_updateOwner (hs.others _ _ _ _ _ _ _)
      (fun u hu => hother u fun heq => hu (Option.some.inj (heq.symm.trans howner))) hupdate

/-- Prompt steps keep all threads fit. -/
theorem Inheriting.effect {a : MutexStep τ μ κ} (h : s.Inheriting)
    (heffect : MutexEffect depth s a s') (hprompt : s.Prompt a) : s'.Inheriting := by
  have hs := h.owned
  refine ⟨hs.effect heffect, h.arranged.effect hs heffect, h.ordered.effect hs h.arranged heffect,
    ?_⟩
  cases heffect with
  | @takeFree t m _ hrun howner =>
    refine fit_takeFree h.fit h.ordered hs howner rfl rfl rfl rfl rfl
      fun u m' hm hu => ⟨hu.1, hu.2.1, ?_⟩
    show Function.update s.owner m (some t) m' ≠ some u
    rw [Function.update_of_ne hm]
    exact hu.2.2
  | @wait t m timeout owner lent hrun howner hne hlend =>
    have hsusp := hs.suspendOn_error hrun howner hne
    have hjoined := hs.suspendOn_joined hrun (Function.update s.error t 0) m
    have hfit := fit_lend hsusp (fun u => (h.fit u).frame (congrFun hjoined.current u) rfl rfl
      (fun _ _ => rfl) (fun _ _ => rfl) fun m' _ v => suspendOn_returning hrun _ m)
      howner hlend
    exact fun u => (hfit u).still (startTimer_still lent t timeout)
  | @handed t m hcall hsusp howner =>
    refine fun u => (h.fit u).still ⟨fun _ => rfl, rfl, rfl, rfl, rfl, rfl, fun v m' hv => ?_⟩
    refine returning_setCall (fun hret => ?_) hv
    obtain rfl := MutexCall.taking.inj (Option.some.inj (hcall.symm.trans hret.1))
    exact hret.2.2 howner
  | @failed t m result mid hcall hsusp howner _ hleft =>
    exact fun u => (h.failed hcall hsusp howner hprompt hleft u).still
      ⟨fun _ => rfl, rfl, rfl, rfl, rfl, rfl, fun _ _ => id⟩
  | @leave t hcall =>
    refine fun u => (h.fit u).still ⟨fun _ => rfl, rfl, rfl, rfl, rfl, rfl, fun v m' hv => ?_⟩
    exact returning_setCall (not_returning_of_call (by rw [hcall]; simp)) hv
  | @releaseLast t m hrun howner hhold =>
    exact fun u => (h.releaseLast howner hhold hprompt u).still
      ⟨fun _ => rfl, rfl, rfl, rfl, rfl, rfl, fun _ _ => id⟩
  | ceiling hceiling => exact h.ceiling hceiling
  | @block t k _ susp hrun hsusp =>
    refine fun u => (h.fit u).still ⟨fun m => hsusp.list_of_ne (by simp), hsusp.priority, rfl, rfl,
      rfl, rfl, fun v m hv => ?_⟩
    have hne : v ≠ t := by
      rintro rfl
      exact Option.some_ne_none _ (hv.1.symm.trans hrun.1)
    exact ⟨(Function.update_of_ne hne _ _).trans hv.1,
      (hsusp.suspended_of_ne hne).trans hv.2.1, hv.2.2⟩
  | @unblock t k hcall _ =>
    refine fun u => (h.fit u).still ⟨fun _ => rfl, rfl, rfl, rfl, rfl, rfl, fun v m' hv => ?_⟩
    exact returning_setCall (not_returning_of_call (by rw [hcall]; simp)) hv
  | wake _ hresumed => exact fun u => (h.fit u).wake hresumed
  | takeAgain | takeFailed | releaseOne | releaseFailed | same =>
    exact fun u => (h.fit u).still ⟨fun _ => rfl, rfl, rfl, rfl, rfl, rfl, fun _ _ => id⟩

/-! ## The priorities between the calls -/

/-- No thread is between the wait list of a mutex and the end of `_rt_mutex_take`. -/
def Settled (s : MutexState τ μ κ) : Prop :=
  ∀ t, s.call t ≠ some .leaving ∧
    ∀ m, s.call t = some (.taking m) → t ∈ s.suspendThread (.mutex m)

/-- A mutex has the priority of its first waiter, and a thread the lowest of its own number
and those of its mutexes. -/
structure Inherited (s : MutexState τ μ κ) : Prop where
  mutex : ∀ m, s.priority m = s.headPriority m
  thread : ∀ t, IsLeast {p | p = s.initPriority t ∨
    ∃ m, s.owner m = some t ∧ (p = s.priority m ∨ p = s.ceilingPriority m)}
    (s.currentPriority t)

omit [DecidableEq τ] [DecidableEq μ] [DecidableEq κ] in
theorem settled_of_idle (h : ∀ t, s.call t = none) : s.Settled := fun t =>
  ⟨fun heq => Option.some_ne_none _ (heq.symm.trans (h t)),
    fun _ heq => absurd (heq.symm.trans (h t)) (Option.some_ne_none _)⟩

omit [DecidableEq τ] [DecidableEq μ] [DecidableEq κ] in
theorem threadGetMutexPriority_isLeast (hs : s.Owned) (t : τ) :
    IsLeast {p | p = s.initPriority t ∨
      ∃ m, s.owner m = some t ∧ (p = s.priority m ∨ p = s.ceilingPriority m)}
      (s.threadGetMutexPriority t) := by
  constructor
  · rw [threadGetMutexPriority_eq]
    rcases @lowest_mem _ (fun m => min (s.priority m) (s.ceilingPriority m))
      (s.takenObjectList t) (s.initPriority t) with heq | ⟨m, hm, heq⟩
    · exact .inl heq
    · refine .inr ⟨m, (hs.holding.mem t m).mp hm, ?_⟩
      rw [heq]
      omega
  · rintro p (rfl | ⟨m, howner, rfl | rfl⟩)
    · exact threadGetMutexPriority_le_init
    · exact ((le_threadGetMutexPriority.mp le_rfl).2 m ((hs.holding.mem t m).mpr howner)).1
    · exact ((le_threadGetMutexPriority.mp le_rfl).2 m ((hs.holding.mem t m).mpr howner)).2

omit [DecidableEq τ] [DecidableEq μ] [DecidableEq κ] in
theorem Inheriting.inherited (h : s.Inheriting) (hsettled : s.Settled) : s.Inherited := by
  have hnone : ∀ t m, ¬ s.Returning t m := by
    intro t m hret
    have hmem := (hsettled t).2 m hret.1
    exact Bool.false_ne_true (hret.2.1.symm.trans (h.owned.sound.suspended _ t hmem))
  refine ⟨fun m => (h.ordered.mutex m).exact.resolve_right fun ⟨t, ht⟩ => hnone t m ht,
    fun t => ?_⟩
  rw [(h.fit t).exact.resolve_right fun ⟨m, _, u, hu⟩ => hnone u m hu]
  exact threadGetMutexPriority_isLeast h.owned t

/-- In every run of prompt steps, the priorities are inherited as they should whenever no
thread is inside `_rt_mutex_take` outside the wait list. -/
theorem priority_inheritance (depth : Nat) (priority : τ → Nat)
    (hpriority : ∀ t, priority t < rtThreadPriorityMax) {actions : List (MutexStep τ μ κ)}
    (run : (mutexMachine depth).Run (fun s a => s.Prompt a) (start priority) actions s)
    (hsettled : s.Settled) :
    s.Inherited ∧ ∀ t, (∀ m, s.owner m ≠ some t) → s.currentPriority t = s.initPriority t := by
  have hstart : (start priority : MutexState τ μ κ).Inheriting := by
    refine ⟨owned_start priority, arranged_start priority,
      ⟨fun t => ⟨le_rfl, (hpriority t).trans (by decide)⟩, fun m => inOrder_of_eq rfl⟩,
      fun t => fit_of_eq rfl⟩
  have hinv := run.invariant (I := Inheriting)
    (fun s a s' hok hstep h => h.effect (effect_of_step h.owned hstep) hok) hstart
  have hinherited := hinv.inherited hsettled
  refine ⟨hinherited, fun t hnone => ?_⟩
  rcases (hinherited.thread t).1 with heq | ⟨m, howner, -⟩
  · exact heq
  · exact absurd howner (hnone m)

end Steps

/-- A waiter lends its priority to the owner, which gives the mutex and the priority back. -/
theorem priority_inheritance_lent :
    ∃ s, (mutexMachine 3).Run (fun s a => s.Prompt a)
        (start (fun t => if t = 0 then 10 else 5) : MutexState (Fin 2) Unit Unit)
        [.take 0 () 0, .take 1 () (-1), .release 0 (), .resumed 1] s ∧
      s.Settled ∧ s.owner () = some 1 ∧ s.Inherited ∧
      ∀ t, (∀ m, s.owner m ≠ some t) → s.currentPriority t = s.initPriority t := by
  have hexec : ((mutexMachine 3).exec
      (start (fun t => if t = 0 then 10 else 5) : MutexState (Fin 2) Unit Unit)
      [.take 0 () 0, .take 1 () (-1)]).map
      (fun s => decide (s.currentPriority 0 = 5 ∧ s.priority () = 5 ∧ s.currentPriority 1 = 5 ∧
        s.ceilingPriority () = noPriority ∧ s.suspendThread (.mutex ()) = [1] ∧
        ((mutexMachine 3).exec s [.release 0 ()]).map (fun s => decide (s.owner () = some 1 ∧
          ((mutexMachine 3).exec s [.resumed 1]).map (fun s => decide (s.owner () = some 1 ∧
            ∀ t, s.call t = none)) = some true)) = some true)) = some true := by decide
  obtain ⟨first, hfirst, hvalues⟩ := Option.map_eq_some_iff.mp hexec
  obtain ⟨hcur, hprio, hcur', hceiling, hlist, hlater⟩ := of_decide_eq_true hvalues
  obtain ⟨second, hsecond, hvalues⟩ := Option.map_eq_some_iff.mp hlater
  obtain ⟨howner, hlast⟩ := of_decide_eq_true hvalues
  obtain ⟨final, hfinal, hvalues⟩ := Option.map_eq_some_iff.mp hlast
  obtain ⟨howner', hidle⟩ := of_decide_eq_true hvalues
  have hrelease : first.Prompt (.release 0 ()) := by
    refine fun _ _ => ⟨.inr (.inl (hcur.trans hprio.symm)), fun next hnext => ?_⟩
    rw [hlist] at hnext
    obtain rfl := Option.some.inj hnext
    rw [hcur', hceiling]
    decide
  have hresumed : second.Prompt (.resumed 1) := by
    intro m o _ ho hne
    exact absurd (Option.some.inj (howner.symm.trans ho)).symm hne
  have hrun : (mutexMachine 3).Run (fun s a => s.Prompt a)
      (start (fun t => if t = 0 then 10 else 5) : MutexState (Fin 2) Unit Unit)
      ([.take 0 () 0, .take 1 () (-1)] ++ ([.release 0 ()] ++ [.resumed 1])) final :=
    (Machine.Run.of_exec hfirst ⟨trivial, fun _ _ => ⟨trivial, fun _ _ => trivial⟩⟩).append
      ((Machine.Run.of_exec hsecond ⟨hrelease, fun _ _ => trivial⟩).append
        (Machine.Run.of_exec hfinal ⟨hresumed, fun _ _ => trivial⟩))
  have hsettled := settled_of_idle hidle
  exact ⟨final, hrun, hsettled, howner',
    priority_inheritance 3 (fun t => if t = 0 then 10 else 5) (by decide) hrun hsettled⟩

/-- A mutex with a ceiling is handed over, and its new owner stays below the ceiling.  Two
waiters of a chain give up, and the first owner keeps the priority of the second. -/
theorem priority_inheritance_lost :
    (∃ s, (mutexMachine 3).Run Machine.anyStep
        (start (fun t => if t = 0 then 10 else 5) : MutexState (Fin 2) Unit Unit)
        [.take 0 () 0, .setprioceiling () 2, .take 1 () (-1), .release 0 (), .resumed 1] s ∧
      s.Settled ∧ s.owner () = some 1 ∧ s.ceilingPriority () = 2 ∧ ¬ s.Inherited) ∧
    ∃ s, (mutexMachine 3).Run Machine.anyStep
        (start (fun t => if t = 0 then 10 else if t = 1 then 3 else 1) :
          MutexState (Fin 3) Bool Unit)
        [.take 0 true 0, .take 1 false 0, .take 1 true 5, .take 2 false 5, .expire 1, .expire 2,
          .resumed 2, .leave 2, .resumed 1, .leave 1] s ∧
      s.Settled ∧ s.suspendThread (.mutex true) = [] ∧ s.suspendThread (.mutex false) = [] ∧
      s.initPriority 0 = 10 ∧ s.currentPriority 0 = 1 ∧ ¬ s.Inherited := by
  have hfirst : ((mutexMachine 3).exec
      (start (fun t => if t = 0 then 10 else 5) : MutexState (Fin 2) Unit Unit)
      [.take 0 () 0, .setprioceiling () 2, .take 1 () (-1), .release 0 (), .resumed 1]).map
      (fun s => decide ((∀ t, s.call t = none) ∧ s.owner () = some 1 ∧ s.ceilingPriority () = 2 ∧
        s.currentPriority 1 = 5)) = some true := by decide
  have hsecond : ((mutexMachine 3).exec
      (start (fun t => if t = 0 then 10 else if t = 1 then 3 else 1) :
        MutexState (Fin 3) Bool Unit)
      [.take 0 true 0, .take 1 false 0, .take 1 true 5, .take 2 false 5, .expire 1, .expire 2,
        .resumed 2, .leave 2, .resumed 1, .leave 1]).map
      (fun s => decide ((∀ t, s.call t = none) ∧ s.suspendThread (.mutex true) = [] ∧
        s.suspendThread (.mutex false) = [] ∧ s.initPriority 0 = 10 ∧ s.currentPriority 0 = 1 ∧
        ∀ m, s.priority m = noPriority ∧ s.ceilingPriority m = noPriority)) = some true := by decide
  obtain ⟨s, hs, hvalues⟩ := Option.map_eq_some_iff.mp hfirst
  obtain ⟨s', hs', hvalues'⟩ := Option.map_eq_some_iff.mp hsecond
  obtain ⟨hidle, howner, hceiling, hcur⟩ := of_decide_eq_true hvalues
  obtain ⟨hidle', htrue, hfalse, hinit', hcur', hmutexes⟩ := of_decide_eq_true hvalues'
  refine ⟨⟨s, Machine.Run.of_exec hs (Machine.admitted_anyStep _ _),
    settled_of_idle hidle, howner, hceiling, fun h => ?_⟩,
    s', Machine.Run.of_exec hs' (Machine.admitted_anyStep _ _),
    settled_of_idle hidle', htrue, hfalse, hinit', hcur', fun h => ?_⟩
  · have hle := (h.thread 1).2 (.inr ⟨(), howner, .inr hceiling.symm⟩)
    rw [hcur] at hle
    exact absurd hle (by decide)
  · have hmem := (h.thread 0).1
    rw [hcur'] at hmem
    rcases hmem with heq | ⟨m, -, heq⟩
    · rw [hinit'] at heq
      exact absurd heq (by decide)
    · rw [(hmutexes m).1, (hmutexes m).2] at heq
      exact absurd heq (by decide)

end MutexState

end Gd32Vw553h.Ipc
