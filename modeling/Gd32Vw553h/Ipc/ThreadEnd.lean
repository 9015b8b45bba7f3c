/-
  Ipc/ThreadEnd.lean --- a thread ends that waits for mutexes or owns some (`src/thread.c`,
  `src/ipc.c`).

  `_thread_exit` and `_thread_detach` close the thread and then clean up its mutexes, in
  one critical section.  The mutex that it waits for loses the waiter, as at the end of a
  take that fails.  Each mutex that it owns is released by `rt_mutex_release`, which looks
  at the thread that calls: this is the thread that ends only if it ends itself.  When
  another thread deletes it, its mutexes keep it as their owner.
-/
import Gd32Vw553h.Ipc.Inheritance

set_option autoImplicit false

namespace Gd32Vw553h.Ipc

open Gd32Vw553h.Foundation Gd32Vw553h.Klibc

namespace MutexState

/-! ## The end of a thread -/

section Detach

variable {τ μ κ : Type*} [DecidableEq τ] [DecidableEq μ] [DecidableEq κ]

omit [DecidableEq μ] [DecidableEq κ] in
/-- `rt_thread_close` -/
def rtThreadClose (s : MutexState τ μ κ) (thread : τ) : MutexState τ μ κ :=
  setCall { s with
    toSuspState := { s.removeNode thread with
      suspended := Function.update s.suspended thread false
      timerActivated := Function.update s.timerActivated thread false } }
    thread (some .closed)

/-- `rt_mutex_drop_thread` -/
def rtMutexDropThread (depth : Nat) (s : MutexState τ μ κ) (m : μ) (thread : τ) :
    Option (MutexState τ μ κ) :=
  waiterLeft depth { s with toSuspState := s.removeNode thread } thread m

/-- The loop of `_thread_detach_from_mutex` over the taken mutexes. -/
def releaseTaken (self : τ) : List μ → MutexState τ μ κ → MutexState τ μ κ
  | [], s => s
  | m :: rest, s =>
    releaseTaken self rest
      (rtMutexRelease { s with hold := Function.update s.hold m 1 } self m).2

/-- `_thread_detach_from_mutex` takes the thread off the mutex that it waits for. -/
def dropPending (depth : Nat) (s : MutexState τ μ κ) (thread : τ) :
    Option (MutexState τ μ κ) :=
  match s.pendingObject thread with
  | some m =>
    (s.rtMutexDropThread depth m thread).map fun dropped =>
      { dropped with pendingObject := Function.update dropped.pendingObject thread none }
  | none => some s

/-- `_thread_detach_from_mutex`, called by `self`. -/
def threadDetachFromMutex (depth : Nat) (s : MutexState τ μ κ) (self thread : τ) :
    Option (MutexState τ μ κ) :=
  (s.dropPending depth thread).map fun dropped =>
    releaseTaken self (dropped.takenObjectList thread) dropped

/-- `_thread_detach` and, when `self` is the thread, `_thread_exit`. -/
def threadDetach (depth : Nat) (s : MutexState τ μ κ) (self thread : τ) :
    Option (MutexState τ μ κ) :=
  (s.rtThreadClose thread).threadDetachFromMutex depth self thread

end Detach

end MutexState

inductive EndStep (τ μ κ : Type*) where
  | call (a : MutexStep τ μ κ)
  /-- `self` ends this thread: itself, or another one by `rt_thread_delete` -/
  | ended (self thread : τ)

section Machine

variable {τ μ κ : Type*} [DecidableEq τ] [DecidableEq μ] [DecidableEq κ]

/-- All interleavings, with threads that end. -/
def endMachine (depth : Nat) : Machine (MutexState τ μ κ) (EndStep τ μ κ) where
  step s
    | .call a => (mutexMachine depth).step s a
    | .ended self thread =>
        if s.Running self ∧ s.call thread ≠ some .closed then s.threadDetach depth self thread
        else none

end Machine

namespace MutexState

/-! ## Closing -/

section Close

variable {τ μ κ : Type*} [DecidableEq τ] {s s' : MutexState τ μ κ} {t u : τ} {m : μ}

theorem rtThreadClose_resumed (s : MutexState τ μ κ) (t : τ) :
    s.toSuspState.Resumed (s.rtThreadClose t).toSuspState t := by
  refine ⟨rfl, rfl, rfl, fun hlive u hu hset => ?_⟩
  obtain ⟨hne, hu⟩ := update_false_eq_true.mp (show
    Function.update s.suspended t false u = true from hu)
  exact update_false_eq_true.mpr ⟨hne, hlive u hu hset⟩

theorem Owned.close (h : s.Owned) (t : τ) : (s.rtThreadClose t).Owned := by
  have hwake := h.wake (rtThreadClose_resumed s t)
  exact hwake.setCall (hwake.not_mem (rtThreadClose_resumed s t).suspended_self)
    (fun m hm => ⟨.inr rfl, (h.pending t m hm).2⟩) (by simp)

theorem rtThreadClose_out (h : s.Owned) (t : τ) (l : WaitList μ κ) :
    t ∉ (s.rtThreadClose t).suspendThread l :=
  (h.close t).not_mem (rtThreadClose_resumed s t).suspended_self l

theorem rtThreadClose_call (s : MutexState τ μ κ) (t : τ) :
    (s.rtThreadClose t).call t = some .closed := Function.update_self _ _ _

theorem rtThreadClose_shrunk (s : MutexState τ μ κ) (t : τ) : s.Shrunk (s.rtThreadClose t) :=
  ⟨fun _ => List.erase_sublist, fun _ _ _ => rfl, rfl, rfl⟩

/-- Other threads go on returning. -/
theorem rtThreadClose_returning (hne : u ≠ t) (hu : s.Returning u m) :
    (s.rtThreadClose t).Returning u m :=
  ⟨(Function.update_of_ne hne _ _).trans hu.1,
    ((rtThreadClose_resumed s t).suspended_of_ne hne).trans hu.2.1, hu.2.2⟩

omit [DecidableEq τ] in
/-- A thread returns only from its pending mutex. -/
theorem Owned.returning_pending (h : s.Owned) (ht : s.Returning t m) :
    s.pendingObject t = some m := (h.taking t m ht.1).resolve_right ht.2.2

/-- Only the pending mutex loses a waiter. -/
theorem InOrder.close (h : s.InOrder m) (hs : s.Owned) (hm : s.pendingObject t ≠ some m) :
    (s.rtThreadClose t).InOrder m := by
  have hout : t ∉ s.suspendThread (.mutex m) := fun hmem => hm (hs.waiter t m hmem)
  refine h.congr ((rtThreadClose_resumed s t).list_of_not_mem hout) (fun _ _ => rfl) rfl
    fun u hu => rtThreadClose_returning ?_ hu
  rintro rfl
  exact hm (hs.returning_pending hu)

theorem Fit.close (h : s.Fit u) (hs : s.Owned)
    (hm : ∀ m, s.pendingObject t = some m → s.owner m ≠ some u) : (s.rtThreadClose t).Fit u := by
  refine h.frame rfl rfl rfl (fun _ _ => rfl) (fun _ _ => rfl)
    fun m hmem v hv => rtThreadClose_returning ?_ hv
  rintro rfl
  exact hm m (hs.returning_pending hv) ((hs.holding.mem u m).mp hmem)

theorem removeNode_of_out (hout : ∀ l, t ∉ s.suspendThread l) :
    s.toSuspState.removeNode t = s.toSuspState := by
  have hlists : (fun l => (s.suspendThread l).erase t) = s.suspendThread := by
    funext l
    exact List.erase_of_not_mem (hout l)
  unfold SuspState.removeNode
  rw [hlists]

end Close

/-! ## Leaving the wait list -/

section Drop

variable {τ μ κ : Type*} [DecidableEq τ] [DecidableEq μ] [DecidableEq κ]
  {s s' : MutexState τ μ κ} {t u o : τ} {m : μ} {depth : Nat}

/-- Ending the wait comes in time for the owner: a thread that is returning may come too late,
as in `Prompt`. -/
def DropsInTime (s : MutexState τ μ κ) (t : τ) : Prop :=
  ∀ m o, s.Returning t m → s.owner m = some o →
    s.currentPriority o = s.currentPriority t ∨
      s.currentPriority o = s.entitled o (s.takenObjectList o) ∨
      ∃ u m', u ≠ t ∧ s.owner m' = some o ∧ s.Returning u m'

omit [DecidableEq μ] [DecidableEq κ] in
/-- The first waiter of a mutex stays, unless it was the thread. -/
theorem headPriority_close (ha : s.Arranged) (ho : s.Ordered) (t : τ) (m : μ) :
    s.headPriority m ≤ (s.rtThreadClose t).headPriority m ∧
      ((s.rtThreadClose t).headPriority m = s.headPriority m ∨
        s.headPriority m = s.currentPriority t) := by
  refine ⟨(ha.sorted m).headPriority_mono ho List.erase_sublist fun _ _ => rfl, ?_⟩
  cases hl : s.suspendThread (.mutex m) with
  | nil =>
    have hl' : (s.rtThreadClose t).suspendThread (.mutex m) = [] := by
      show (s.suspendThread (.mutex m)).erase t = []
      rw [hl, List.erase_nil]
    exact .inl ((headPriority_nil hl').trans (headPriority_nil hl).symm)
  | cons first rest =>
    by_cases hfirst : first = t
    · right
      rw [headPriority_cons hl, hfirst]
    · have hl' : (s.rtThreadClose t).suspendThread (.mutex m) = first :: rest.erase t := by
        show (s.suspendThread (.mutex m)).erase t = _
        rw [hl, List.erase_cons_tail (by simpa using hfirst)]
      exact .inl ((headPriority_cons hl').trans (headPriority_cons hl).symm)

omit [DecidableEq μ] [DecidableEq κ] in
/-- A thread of another priority is entitled to the same without the thread. -/
theorem entitled_close (ha : s.Arranged) (ho : s.Ordered)
    (heq : s.currentPriority o = s.entitled o (s.takenObjectList o))
    (hne : s.currentPriority o ≠ s.currentPriority t) :
    s.currentPriority o = (s.rtThreadClose t).entitled o (s.takenObjectList o) := by
  have hbelow := le_lowest.mp heq.le
  refine Nat.le_antisymm (le_lowest.mpr ⟨hbelow.1, fun m hm => ?_⟩) ?_
  · have hlow := hbelow.2 m hm
    have hmono := (headPriority_close ha ho t m).1
    have hceiling : (s.rtThreadClose t).ceilingPriority m = s.ceilingPriority m := rfl
    omega
  · obtain ⟨hinit, hall⟩ := le_lowest.mp (le_refl ((s.rtThreadClose t).entitled o
      (s.takenObjectList o)))
    rcases @lowest_mem _ (fun m => min (s.headPriority m) (s.ceilingPriority m))
      (s.takenObjectList o) (s.initPriority o) with hfirst | ⟨m, hm, hfirst⟩
    · exact hinit.trans (hfirst.symm.trans heq.symm).le
    · have hlow := hall m hm
      have hvalue := heq.trans hfirst
      have hceiling : (s.rtThreadClose t).ceilingPriority m = s.ceilingPriority m := rfl
      rcases (headPriority_close ha ho t m).2 with hhead | hhead
      · omega
      · omega

omit [DecidableEq μ] [DecidableEq κ] in
/-- After the thread has been closed, an owner that was fit has the priority of the thread, or
what it is entitled to, or another waiter is returning to it. -/
theorem close_inTime (hs : s.Owned) (ha : s.Arranged) (ho : s.Ordered) (hfit : s.Fit o)
    (htime : s.DropsInTime t) (hpending : s.pendingObject t = some m)
    (howner : s.owner m = some o) :
    (s.rtThreadClose t).currentPriority o = (s.rtThreadClose t).currentPriority t ∨
      (s.rtThreadClose t).currentPriority o =
        (s.rtThreadClose t).entitled o ((s.rtThreadClose t).takenObjectList o) ∨
      (s.rtThreadClose t).Awaited o := by
  by_cases hsame : s.currentPriority o = s.currentPriority t
  · exact .inl hsame
  refine .inr ?_
  by_cases hawaited : (s.rtThreadClose t).Awaited o
  · exact .inr hawaited
  left
  refine entitled_close ha ho ?_ hsame
  -- Nobody but the thread is returning to the owner.
  have hnone : ∀ v m', s.owner m' = some o → s.Returning v m' → v = t := by
    intro v m' ho' hv
    by_contra hne
    exact hawaited ⟨m', (hs.holding.mem o m').mpr ho', v, rtThreadClose_returning hne hv⟩
  by_cases hret : s.Returning t m
  · rcases htime m o hret howner with heq | heq | ⟨v, m', hne, ho', hv⟩
    · exact absurd heq hsame
    · exact heq
    · exact absurd (hnone v m' ho' hv) hne
  · have hout : ∀ v m', m' ∈ s.takenObjectList o → ¬ s.Returning v m' := by
      intro v m' hm' hv
      obtain rfl := hnone v m' ((hs.holding.mem o m').mp hm') hv
      obtain rfl := Option.some.inj (hpending.symm.trans (hs.returning_pending hv))
      exact hret hv
    have hexact := hfit.exact.resolve_right fun ⟨m', hm', v, hv⟩ => hout v m' hm' hv
    refine hexact.trans (threadGetMutexPriority_eq_entitled rfl rfl (fun m' hm' => ?_)
      fun _ _ => rfl)
    exact (ho.mutex m').exact.resolve_right fun ⟨v, hv⟩ => hout v m' hm' hv

/-- What is left when the thread has been closed and has left the wait list. -/
structure Dropped (s s' : MutexState τ μ κ) (t : τ) : Prop where
  owned : s'.Owned
  arranged : s'.Arranged
  ordered : s'.Ordered
  pending : s'.pendingObject t = none
  call : s'.call = Function.update s.call t (some .closed)
  owner : s'.owner = s.owner
  taken : s'.takenObjectList = s.takenObjectList
  ceiling : s'.ceilingPriority = s.ceilingPriority
  lists : ∀ l, (s'.suspendThread l).Perm ((s.suspendThread l).erase t)
  suspended : s'.suspended = Function.update s.suspended t false

omit [DecidableEq τ] [DecidableEq μ] [DecidableEq κ] in
/-- Pending objects are looked at only when the thread is suspended. -/
theorem pendingObject_still (s : MutexState τ μ κ) (pending : τ → Option μ) :
    s.Still { s with pendingObject := pending } :=
  ⟨fun _ => rfl, rfl, rfl, rfl, rfl, rfl, fun _ _ => id⟩

omit [DecidableEq μ] [DecidableEq κ] in
/-- A thread that has ended waits for no mutex any more. -/
theorem Owned.clearPending (h : s.Owned) (hout : ∀ l, t ∉ s.suspendThread l)
    (hcall : s.call t = some .closed) :
    Owned { s with pendingObject := Function.update s.pendingObject t none } := by
  have hmove := h.move hout (o := none) (c := some .closed)
    (fun m' heq => absurd heq.symm (Option.some_ne_none m')) (by simp)
  rw [← hcall, Function.update_eq_self] at hmove
  exact hmove

theorem dropPending_spec (hs : s.Owned) (ha : s.Arranged) (ho : s.Ordered)
    (hdrop : (s.rtThreadClose t).dropPending depth t = some s') :
    s.Dropped s' t ∧ ((∀ u, s.Fit u) → s.DropsInTime t → ∀ u, s'.Fit u) := by
  have hclosed := hs.close t
  have harranged := ha.shrunk (rtThreadClose_shrunk s t)
  unfold dropPending at hdrop
  cases hpending : s.pendingObject t with
  | none =>
    rw [show (s.rtThreadClose t).pendingObject t = none from hpending] at hdrop
    obtain rfl := Option.some.inj hdrop
    have hnone : ∀ m, s.pendingObject t ≠ some m := fun m heq =>
      Option.some_ne_none m (heq.symm.trans hpending)
    refine ⟨⟨hclosed, harranged, ⟨ho.valid, fun m => (ho.mutex m).close hs (hnone m)⟩, hpending,
      rfl, rfl, rfl, rfl, fun _ => .refl _, rfl⟩, fun hfit _ u => ?_⟩
    exact (hfit u).close hs fun m heq => absurd heq (hnone m)
  | some m =>
    rw [show (s.rtThreadClose t).pendingObject t = some m from hpending] at hdrop
    obtain ⟨dropped, hleft, rfl⟩ := Option.map_eq_some_iff.mp hdrop
    unfold rtMutexDropThread at hleft
    rw [removeNode_of_out (rtThreadClose_out hs t)] at hleft
    have hrepri := hclosed.waiterLeft hleft
    have howned := hclosed.reprioritised hrepri
    have hothers : ∀ m', m' ≠ m → (s.rtThreadClose t).InOrder m' := fun m' hm =>
      (ho.mutex m').close hs fun heq => hm (Option.some.inj (heq.symm.trans hpending))
    have hordered := ordered_waiterLeft hclosed ho.valid hothers hleft
    have hrearranged := (hclosed.waiterLeft_rearranged hleft).2 harranged
    have hstill := pendingObject_still dropped (Function.update dropped.pendingObject t none)
    have hfit : (∀ u, s.Fit u) → s.DropsInTime t → ∀ u, dropped.Fit u := by
      intro hfit htime
      refine fit_waiterLeft hclosed (fun u hu => (hfit u).close hs fun m' heq => ?_)
        (fun o _ => (hfit o).le) ?_ hothers
        (fun o howner => close_inTime hs ha ho (hfit o) htime hpending howner) hleft
      · obtain rfl := Option.some.inj (hpending.symm.trans heq)
        exact hu
      · exact (ho.mutex m).le.trans (headPriority_close ha ho t m).1
    obtain ⟨lists, current, priority, arrivals, arrival, rfl, hperm⟩ := hrepri
    have hout : ∀ l, t ∉ lists l := fun l hmem =>
      rtThreadClose_out hs t l ((hperm l).mem_iff.mp hmem)
    refine ⟨⟨howned.clearPending hout (rtThreadClose_call s t),
      hrearranged.congr (fun _ => rfl) (fun _ _ _ => rfl) rfl rfl, hordered.still hstill,
      Function.update_self _ _ _, rfl, rfl, rfl, rfl, hperm, rfl⟩, fun h htime u => ?_⟩
    exact (hfit h htime u).still hstill

end Drop

/-! ## Giving the mutexes back -/

section Release

variable {τ μ κ : Type*} [DecidableEq τ] [DecidableEq μ] [DecidableEq κ]
  {s s' s'' : MutexState τ μ κ} {t u : τ} {m m' : μ} {mutexes : List μ}

/-- The mutex has gone to its first waiter, or is free. -/
structure PassedOn (s s' : MutexState τ μ κ) (m : μ) : Prop where
  owner : s'.owner m = (s.suspendThread (.mutex m)).head?
  hold : s'.hold m = if s.suspendThread (.mutex m) = [] then 0 else 1
  list : s'.suspendThread (.mutex m) = (s.suspendThread (.mutex m)).tail
  priority : s'.priority m = s'.headPriority m
  taken : ∀ next ∈ (s.suspendThread (.mutex m)).head?, m ∈ s'.takenObjectList next
  awake : ∀ next ∈ (s.suspendThread (.mutex m)).head?,
    s'.suspended next = false ∧ s'.pendingObject next = none

/-- Nothing else has happened to other mutexes than these, and to other threads than `t`. -/
structure Beside (s s' : MutexState τ μ κ) (t : τ) (mutexes : List μ) : Prop where
  owner : ∀ m, m ∉ mutexes → s'.owner m = s.owner m
  hold : ∀ m, m ∉ mutexes → s'.hold m = s.hold m
  lists : ∀ l, (∀ m ∈ mutexes, l ≠ .mutex m) → s'.suspendThread l = s.suspendThread l
  priority : ∀ m, m ∉ mutexes → s'.priority m = s.priority m
  current : ∀ u, u ≠ t → s'.currentPriority u = s.currentPriority u
  awake : ∀ u, s.suspended u = false → s'.suspended u = false
  pending : ∀ u, s.pendingObject u = none → s'.pendingObject u = none
  taken : ∀ u, u ≠ t → ∀ m ∈ s.takenObjectList u, m ∈ s'.takenObjectList u
  call : s'.call = s.call

omit [DecidableEq τ] [DecidableEq μ] [DecidableEq κ] in
theorem Beside.refl (s : MutexState τ μ κ) (t : τ) : s.Beside s t [] :=
  ⟨fun _ _ => rfl, fun _ _ => rfl, fun _ _ => rfl, fun _ _ => rfl, fun _ _ => rfl, fun _ => id,
    fun _ => id, fun _ _ _ => id, rfl⟩

omit [DecidableEq τ] [DecidableEq μ] [DecidableEq κ] in
theorem Beside.trans (h : s.Beside s' t [m]) (h' : s'.Beside s'' t mutexes) :
    s.Beside s'' t (m :: mutexes) := by
  have hout : ∀ {m'}, m' ∉ m :: mutexes → m' ∉ mutexes ∧ m' ∉ [m] := fun hm' =>
    ⟨fun hmem => hm' (List.mem_cons_of_mem m hmem),
      fun hmem => hm' (by rw [List.mem_singleton.mp hmem]; exact List.mem_cons_self)⟩
  refine ⟨fun m' hm' => ?_, fun m' hm' => ?_, fun l hl => ?_, fun m' hm' => ?_,
    fun u hu => (h'.current u hu).trans (h.current u hu), fun u hu => h'.awake u (h.awake u hu),
    fun u hu => h'.pending u (h.pending u hu),
    fun u hu m' hm' => h'.taken u hu m' (h.taken u hu m' hm'), h'.call.trans h.call⟩
  · exact (h'.owner m' (hout hm').1).trans (h.owner m' (hout hm').2)
  · exact (h'.hold m' (hout hm').1).trans (h.hold m' (hout hm').2)
  · refine (h'.lists l fun m' hm' => hl m' (List.mem_cons_of_mem m hm')).trans
      (h.lists l fun m' hm' => ?_)
    rw [List.mem_singleton.mp hm']
    exact hl m List.mem_cons_self
  · exact (h'.priority m' (hout hm').1).trans (h.priority m' (hout hm').2)

omit [DecidableEq κ] in
/-- The last release by the owner. -/
theorem Owned.releaseLast_spec (hs : s.Owned) (howner : s.owner m = some t)
    (hhold : s.hold m = 1) :
    s.PassedOn (s.rtMutexRelease t m).2 m ∧ s.Beside (s.rtMutexRelease t m).2 t [m] ∧
      (s.rtMutexRelease t m).2.takenObjectList t = (s.takenObjectList t).erase m ∧
      (s.rtMutexRelease t m).2 = (MutexState.checkAndUpdatePrio { s with
        hold := Function.update s.hold m (s.hold m - 1)
        takenObjectList :=
          Function.update s.takenObjectList t ((s.takenObjectList t).erase m) } t m).handOver m := by
  have hrelease : (s.rtMutexRelease t m).2 = (MutexState.checkAndUpdatePrio { s with
      hold := Function.update s.hold m (s.hold m - 1)
      takenObjectList :=
        Function.update s.takenObjectList t ((s.takenObjectList t).erase m) } t m).handOver m := by
    unfold rtMutexRelease
    rw [if_pos howner, if_pos (show Function.update s.hold m (s.hold m - 1) m = 0 by
      rw [Function.update_self, hhold])]
  obtain ⟨p, heq⟩ := checkAndUpdatePrio_eq { s with
    hold := Function.update s.hold m (s.hold m - 1)
    takenObjectList := Function.update s.takenObjectList t ((s.takenObjectList t).erase m) } t m
  have hself : Function.update s.takenObjectList t ((s.takenObjectList t).erase m) t =
    (s.takenObjectList t).erase m := Function.update_self _ _ _
  have htaken : ∀ u, u ≠ t →
      Function.update s.takenObjectList t ((s.takenObjectList t).erase m) u =
        s.takenObjectList u := fun u hu => Function.update_of_ne hu _ _
  have hne : ∀ {m'}, m' ∉ [m] → m' ≠ m := fun hm' heq => hm' (List.mem_singleton.mpr heq)
  rcases hs.releaseLast_cases howner rfl with
    ⟨hlist, hover⟩ | ⟨next, rest, susp, hlist, hnext, hresumed, -, hover⟩
  · rw [hrelease, hover, heq]
    refine ⟨⟨?_, ?_, ?_, ?_, ?_, ?_⟩, ⟨fun m' hm' => Function.update_of_ne (hne hm') _ _,
      fun m' hm' => Function.update_of_ne (hne hm') _ _, fun _ _ => rfl,
      fun m' hm' => Function.update_of_ne (hne hm') _ _,
      fun u hu => Function.update_of_ne hu _ _, fun _ => id, fun _ => id, ?_, rfl⟩, hself, rfl⟩
    · rw [hlist]
      exact Function.update_self _ _ _
    · rw [if_pos hlist]
      refine (Function.update_self _ _ _).trans ?_
      rw [hhold]
    · rw [hlist]
      exact hlist
    · refine (Function.update_self _ _ _).trans ?_
      symm
      exact headPriority_nil hlist
    · rw [hlist]
      exact fun next hmem => absurd hmem (by simp)
    · rw [hlist]
      exact fun next hmem => absurd hmem (by simp)
    · intro u hu m' hm'
      have hnow : m' ∈ Function.update s.takenObjectList t ((s.takenObjectList t).erase m) u := by
        rw [htaken u hu]
        exact hm'
      exact hnow
  · rw [hrelease, hover, heq]
    rw [heq] at hresumed
    have hmem : next ∈ s.suspendThread (.mutex m) := by
      rw [hlist]
      exact List.mem_cons_self
    have hhead : ∀ u, u ∈ (s.suspendThread (.mutex m)).head? → u = next := by
      rw [hlist]
      exact fun u hu => (Option.some.inj hu).symm
    refine ⟨⟨?_, ?_, ?_, mutexUpdatePriority_self _ m, ?_, ?_⟩,
      ⟨fun m' hm' => Function.update_of_ne (hne hm') _ _,
      fun m' hm' => Function.update_of_ne (hne hm') _ _, fun l hl => ?_,
      fun m' hm' => mutexUpdatePriority_of_ne (hne hm'), fun u hu => ?_, fun u hu => ?_,
      fun u hu => ?_, fun u hu m' hm' => ?_, rfl⟩, ?_, rfl⟩
    · rw [hlist]
      exact Function.update_self _ _ _
    · rw [if_neg (by rw [hlist]; simp)]
      exact Function.update_self _ _ _
    · rw [hlist]
      refine (congrFun hresumed.lists (.mutex m)).trans ?_
      show (s.suspendThread (.mutex m)).erase next = rest
      rw [hlist, List.erase_cons_head]
    · intro u hu
      rw [hhead u hu]
      have hnow : m ∈ Function.update (Function.update s.takenObjectList t
          ((s.takenObjectList t).erase m)) next
          (m :: Function.update s.takenObjectList t ((s.takenObjectList t).erase m) next) next := by
        rw [Function.update_self]
        exact List.mem_cons_self
      exact hnow
    · intro u hu
      rw [hhead u hu]
      exact ⟨hresumed.suspended_self, Function.update_self _ _ _⟩
    · refine hresumed.list_of_not_mem fun hmem' => hl m List.mem_cons_self ?_
      exact hs.sound.single _ _ next hmem' hmem
    · exact (congrFun hresumed.priority u).trans (Function.update_of_ne hu _ _)
    · by_cases hun : u = next
      · rw [hun]
        exact hresumed.suspended_self
      · exact (hresumed.suspended_of_ne hun).trans hu
    · by_cases hun : u = next
      · rw [hun]
        exact Function.update_self _ _ _
      · exact (Function.update_of_ne hun _ _).trans hu
    · have hnow : m' ∈ Function.update (Function.update s.takenObjectList t
          ((s.takenObjectList t).erase m)) next
          (m :: Function.update s.takenObjectList t ((s.takenObjectList t).erase m) next) u := by
        by_cases hun : u = next
        · subst hun
          rw [Function.update_self, htaken u hu]
          exact List.mem_cons_of_mem m hm'
        · rw [Function.update_of_ne hun, htaken u hu]
          exact hm'
      exact hnow
    · exact (Function.update_of_ne hnext.symm _ _).trans hself

/-- What holds while a thread that has ended gives its mutexes back. -/
structure Giving (s : MutexState τ μ κ) (t : τ) : Prop where
  owned : s.Owned
  arranged : s.Arranged
  ordered : s.Ordered
  awake : s.suspended t = false
  call : s.call t = some .closed

omit [DecidableEq τ] [DecidableEq κ] in
theorem Owned.holdOnce (h : s.Owned) (howner : s.owner m = some t) :
    Owned { s with hold := Function.update s.hold m 1 } :=
  h.rehold (h.holding.recount
    (fun hnone => Option.some_ne_none t (howner.symm.trans hnone)) Nat.one_ne_zero)
    (fun u m' hm' => (h.pending u m' hm').2) (fun _ _ _ => id) h.held

omit [DecidableEq κ] in
/-- One round of the loop over the taken mutexes. -/
theorem Giving.release (h : s.Giving t) (howner : s.owner m = some t) :
    s.PassedOn (rtMutexRelease { s with hold := Function.update s.hold m 1 } t m).2 m ∧
      s.Beside (rtMutexRelease { s with hold := Function.update s.hold m 1 } t m).2 t [m] ∧
      (rtMutexRelease { s with hold := Function.update s.hold m 1 } t m).2.takenObjectList t =
        (s.takenObjectList t).erase m ∧
      (rtMutexRelease { s with hold := Function.update s.hold m 1 } t m).2.Giving t := by
  have hs := h.owned.holdOnce howner
  have hone : Function.update s.hold m 1 m = 1 := Function.update_self _ _ _
  have ho : Ordered { s with hold := Function.update s.hold m 1 } :=
    h.ordered.still ⟨fun _ => rfl, rfl, rfl, rfl, rfl, rfl, fun _ _ => id⟩
  have ha : Arranged { s with hold := Function.update s.hold m 1 } :=
    h.arranged.congr (fun _ => rfl) (fun _ _ _ => rfl) rfl rfl
  have hcall : s.call t ≠ some (.taking m) := by
    rw [h.call]
    simp
  obtain ⟨hpassed, hbeside, htaken, hrelease⟩ := hs.releaseLast_spec howner hone
  refine ⟨⟨hpassed.owner, hpassed.hold, hpassed.list, hpassed.priority, hpassed.taken,
    hpassed.awake⟩, ⟨hbeside.owner, fun m' hm' => (hbeside.hold m' hm').trans
      (Function.update_of_ne (fun heq => hm' (List.mem_singleton.mpr heq)) _ _), hbeside.lists,
    hbeside.priority, hbeside.current, hbeside.awake, hbeside.pending, hbeside.taken,
    hbeside.call⟩, htaken, ?_⟩
  have hzero : Function.update s.hold m 1 m - 1 = 0 := by rw [hone]
  refine ⟨?_, ?_, ?_, hbeside.awake t h.awake, (congrFun hbeside.call t).trans h.call⟩
  · rw [hrelease]
    exact hs.releaseLast howner hcall hzero
  · rw [hrelease]
    exact ha.shrunk (hs.releaseLast_shrunk howner h.awake)
  · rw [hrelease]
    exact ho.releaseLast hs h.awake howner

omit [DecidableEq τ] [DecidableEq μ] [DecidableEq κ] in
/-- Later rounds leave the mutex alone. -/
theorem PassedOn.later (h : s.PassedOn s' m) (hs : s.Owned) (hs' : s'.Giving t)
    (hawake : s.suspended t = false) (hbeside : s'.Beside s'' t mutexes) (hm : m ∉ mutexes) :
    s.PassedOn s'' m := by
  have hlist : s''.suspendThread (.mutex m) = s'.suspendThread (.mutex m) := by
    refine hbeside.lists _ fun m' hm' heq => hm ?_
    rw [WaitList.mutex.inj heq]
    exact hm'
  refine ⟨(hbeside.owner m hm).trans h.owner, (hbeside.hold m hm).trans h.hold,
    hlist.trans h.list, ?_, fun next hnext => ?_, fun next hnext => ?_⟩
  · rw [hbeside.priority m hm, h.priority]
    refine (headPriority_congr hlist fun u hu => hbeside.current u ?_).symm
    rintro rfl
    exact hs'.owned.not_mem hs'.awake _ hu
  · refine hbeside.taken next ?_ m (h.taken next hnext)
    rintro rfl
    exact hs.not_mem hawake _ (List.mem_of_mem_head? hnext)
  · exact ⟨hbeside.awake next (h.awake next hnext).1, hbeside.pending next (h.awake next hnext).2⟩

omit [DecidableEq τ] [DecidableEq μ] [DecidableEq κ] in
/-- Earlier rounds too. -/
theorem PassedOn.earlier (h : s'.PassedOn s'' m)
    (hlist : s'.suspendThread (.mutex m) = s.suspendThread (.mutex m)) : s.PassedOn s'' m := by
  obtain ⟨howner, hhold, hnow, hprio, htaken, hawake⟩ := h
  rw [hlist] at howner hhold hnow htaken hawake
  exact ⟨howner, hhold, hnow, hprio, htaken, hawake⟩

omit [DecidableEq κ] in
/-- The loop of a thread that ends itself. -/
theorem Giving.releaseTaken (h : s.Giving t) (htaken : s.takenObjectList t = mutexes) :
    (∀ m ∈ mutexes, s.PassedOn (releaseTaken t mutexes s) m) ∧
      s.Beside (releaseTaken t mutexes s) t mutexes ∧
      (releaseTaken t mutexes s).takenObjectList t = [] ∧
      (releaseTaken t mutexes s).Giving t := by
  induction mutexes generalizing s with
  | nil => exact ⟨fun m hm => absurd hm List.not_mem_nil, .refl s t, htaken, h⟩
  | cons m rest ih =>
    have hnodup := h.owned.holding.nodup t
    rw [htaken, List.nodup_cons] at hnodup
    have howner : s.owner m = some t := by
      refine (h.owned.holding.mem t m).mp ?_
      rw [htaken]
      exact List.mem_cons_self
    obtain ⟨hpassed, hbeside, herase, hgiving⟩ := h.release howner
    rw [htaken, List.erase_cons_head] at herase
    obtain ⟨hothers, hrest, hdone, hfinal⟩ := ih hgiving herase
    refine ⟨fun m' hm' => ?_, hbeside.trans hrest, hdone, hfinal⟩
    rcases List.mem_cons.mp hm' with rfl | hmem
    · exact hpassed.later h.owned hgiving h.awake hrest hnodup.1
    · refine (hothers m' hmem).earlier (hbeside.lists _ fun m'' hm'' heq => hnodup.1 ?_)
      rw [← List.mem_singleton.mp hm'', ← WaitList.mutex.inj heq]
      exact hmem

end Release

/-! ## Threads that have ended -/

section Ended

variable {τ μ κ : Type*} [DecidableEq τ] [DecidableEq μ] [DecidableEq κ]
  {s s' : MutexState τ μ κ} {self t u : τ} {m : μ} {depth : Nat}

/-- These mutexes have the same owner, hold count, waiters and priority. -/
def SameMutex (s s' : MutexState τ μ κ) (m : μ) : Prop :=
  s.owner m = s'.owner m ∧ s.hold m = s'.hold m ∧
    s.suspendThread (.mutex m) = s'.suspendThread (.mutex m) ∧ s.priority m = s'.priority m

/-- What the end of a thread should come to. -/
structure Ended (s s' : MutexState τ μ κ) (t : τ) : Prop where
  gone : ∀ m, s'.owner m ≠ some t ∧ t ∉ s'.suspendThread (.mutex m) ∧ ¬ s'.Returning t m
  passed : ∀ m, s.owner m = some t → s.PassedOn s' m ∧
    s'.SameMutex (rtMutexRelease { s with hold := Function.update s.hold m 1 } t m).2 m
  withdrawn : (∀ m, s'.InOrder m) ∧
    ∀ m, s.pendingObject t = some m → (∀ u, s.Fit u) → ∀ u, s'.Fit u

/-- A thread that owns mutexes ends itself; and one that is taken out of a wait comes in time
for the owner. -/
def Clean (s : MutexState τ μ κ) : EndStep τ μ κ → Prop
  | .call _ => True
  | .ended self t => (self = t ∨ s.takenObjectList t = []) ∧ s.DropsInTime t

/-- What clean steps keep. -/
structure Tidy (s : MutexState τ μ κ) : Prop where
  owned : s.Owned
  arranged : s.Arranged
  ordered : s.Ordered
  buried : ∀ t, s.call t = some .closed → ∀ m, s.owner m ≠ some t

omit [DecidableEq τ] [DecidableEq μ] [DecidableEq κ] in
theorem PassedOn.same {r : MutexState τ μ κ} (h : s.PassedOn s' m) (h' : s.PassedOn r m)
    (hcur : ∀ u ∈ s.suspendThread (.mutex m), s'.currentPriority u = r.currentPriority u) :
    s'.SameMutex r m := by
  refine ⟨h.owner.trans h'.owner.symm, h.hold.trans h'.hold.symm, h.list.trans h'.list.symm, ?_⟩
  rw [h.priority, h'.priority]
  refine headPriority_congr (h.list.trans h'.list.symm) fun u hu => hcur u ?_
  rw [h'.list] at hu
  exact List.mem_of_mem_tail hu

omit [DecidableEq τ] [DecidableEq μ] [DecidableEq κ] in
/-- A thread that has ended and owns nothing has left all mutexes. -/
theorem Owned.gone (h : s.Owned) (hcall : s.call t = some .closed)
    (hnone : s.owner m ≠ some t) :
    s.owner m ≠ some t ∧ t ∉ s.suspendThread (.mutex m) ∧ ¬ s.Returning t m := by
  refine ⟨hnone, fun hmem => ?_, fun hret => ?_⟩
  · cases hcall.symm.trans (h.place _ t hmem)
  · cases hcall.symm.trans hret.1

/-- A thread that ends itself gives its mutexes back. -/
theorem Tidy.endsItself (h : s.Tidy) (hrun : s.Running t)
    (hend : s.threadDetach depth t t = some s') :
    s.Ended s' t ∧ s'.Giving t ∧ s'.call = Function.update s.call t (some .closed) ∧
      ∀ m, s.owner m ≠ some t → s'.owner m = s.owner m := by
  have hs := h.owned
  obtain ⟨hpending, hout⟩ := hs.running hrun
  obtain ⟨dropped, hdrop, rfl⟩ := Option.map_eq_some_iff.mp hend
  obtain ⟨hspec, -⟩ := dropPending_spec hs h.arranged h.ordered hdrop
  have hclose : dropped = s.rtThreadClose t := by
    unfold dropPending at hdrop
    rw [show (s.rtThreadClose t).pendingObject t = none from hpending] at hdrop
    exact (Option.some.inj hdrop).symm
  have hgiving : dropped.Giving t := by
    refine ⟨hspec.owned, hspec.arranged, hspec.ordered, ?_, ?_⟩
    · rw [hspec.suspended]
      exact Function.update_self _ _ _
    · rw [hspec.call]
      exact Function.update_self _ _ _
  have hlists : ∀ l, dropped.suspendThread l = s.suspendThread l := by
    rw [hclose]
    exact fun l => (rtThreadClose_resumed s t).list_of_not_mem (hout l)
  have hcur : dropped.currentPriority = s.currentPriority := by rw [hclose]; rfl
  have hmem : ∀ m, m ∈ dropped.takenObjectList t ↔ s.owner m = some t := fun m => by
    rw [hspec.taken]
    exact hs.holding.mem t m
  obtain ⟨hpassed, hbeside, htaken, hfinal⟩ := hgiving.releaseTaken rfl
  refine ⟨⟨fun m => ?_, fun m howner => ?_, hfinal.ordered.mutex, fun m heq => ?_⟩, hfinal,
    hbeside.call.trans hspec.call, fun m hm => ?_⟩
  · refine hfinal.owned.gone hfinal.call fun heq => ?_
    have hin := (hfinal.owned.holding.mem t m).mpr heq
    rw [htaken] at hin
    exact absurd hin List.not_mem_nil
  · have hnow := (hpassed m ((hmem m).mpr howner)).earlier (hlists _)
    obtain ⟨hlast, hothers, -⟩ := (hs.holdOnce howner).releaseLast_spec howner
      (Function.update_self _ _ _)
    refine ⟨hnow, hnow.same (hlast.earlier rfl) fun u hu => ?_⟩
    have hne : u ≠ t := by
      rintro rfl
      exact hout _ hu
    rw [hbeside.current u hne, hcur]
    exact (hothers.current u hne).symm
  · exact absurd (heq.symm.trans hpending) (Option.some_ne_none m)
  · rw [hbeside.owner m fun hin => hm ((hmem m).mp hin), hspec.owner]

/-- A thread without mutexes leaves its wait. -/
theorem Tidy.endsFree (h : s.Tidy) (hfree : s.takenObjectList t = []) (htime : s.DropsInTime t)
    (hend : s.threadDetach depth self t = some s') : s.Ended s' t ∧ s.Dropped s' t := by
  have hs := h.owned
  obtain ⟨dropped, hdrop, rfl⟩ := Option.map_eq_some_iff.mp hend
  obtain ⟨hspec, hfit⟩ := dropPending_spec hs h.arranged h.ordered hdrop
  have hnone : dropped.takenObjectList t = [] := (congrFun hspec.taken t).trans hfree
  rw [hnone]
  have hcall : dropped.call t = some .closed := by
    rw [hspec.call]
    exact Function.update_self _ _ _
  have howner : ∀ m, s.owner m ≠ some t := by
    intro m heq
    have hin := (hs.holding.mem t m).mpr heq
    rw [hfree] at hin
    exact absurd hin List.not_mem_nil
  refine ⟨⟨fun m => hspec.owned.gone hcall ?_, fun m heq => absurd heq (howner m),
    hspec.ordered.mutex, fun m _ hall => hfit hall htime⟩, hspec⟩
  rw [hspec.owner]
  exact howner m

omit [DecidableEq μ] [DecidableEq κ] in
theorem call_of_update {call : τ → Option (MutexCall μ κ)} {point : Option (MutexCall μ κ)}
    (hpoint : point ≠ some .closed) (hcall : Function.update call u point t = some .closed) :
    call t = some .closed := by
  by_cases hu : t = u
  · rw [hu, Function.update_self] at hcall
    exact absurd hcall hpoint
  · rwa [Function.update_of_ne hu] at hcall

/-- No call ends a thread. -/
theorem Owned.call_of_closed (hs : s.Owned) {a : MutexStep τ μ κ}
    (heffect : MutexEffect depth s a s') (hcall : s'.call t = some .closed) :
    s.call t = some .closed := by
  cases heffect with
  | @wait u m timeout owner lent hrun howner hne hlend =>
    have hsusp := hs.suspendOn_error hrun howner hne
    obtain ⟨_, _, _, _, _, rfl, -⟩ := hsusp.lend hlend
    exact call_of_update (by simp) hcall
  | @failed u m result mid _ hsusp _ _ hleft =>
    have hmove := hs.leaving hsusp
    obtain ⟨_, _, _, _, _, rfl, -⟩ := hmove.waiterLeft hleft
    exact call_of_update (by simp) hcall
  | @releaseLast u m _ howner hhold =>
    obtain ⟨-, hbeside, -, heq⟩ := hs.releaseLast_spec howner (hs.holding.hold_eq howner hhold)
    rw [← heq] at hcall
    exact (congrFun hbeside.call t).symm.trans hcall
  | ceiling hceiling =>
    obtain ⟨ceiling, -, hrepri⟩ := hs.setprioceiling hceiling
    obtain ⟨_, _, _, _, _, rfl, -⟩ := hrepri
    exact hcall
  | handed | leave | unblock | block => exact call_of_update (by simp) hcall
  | takeFree | takeAgain | takeFailed | releaseOne | releaseFailed | wake | same => exact hcall

/-- No thread that has ended is given a mutex. -/
theorem Owned.owner_of_closed (hs : s.Owned) {a : MutexStep τ μ κ}
    (heffect : MutexEffect depth s a s') (hcall : s.call t = some .closed)
    (howner : s'.owner m = some t) : s.owner m = some t := by
  cases heffect with
  | @takeFree u m' _ hrun _ =>
    have hnow : Function.update s.owner m' (some u) m = some t := howner
    by_cases hm : m = m'
    · rw [hm, Function.update_self] at hnow
      obtain rfl := Option.some.inj hnow
      cases hcall.symm.trans hrun.1
    · rwa [Function.update_of_ne hm] at hnow
  | @wait u m' timeout owner lent hrun howner' hne hlend =>
    have hsusp := hs.suspendOn_error hrun howner' hne
    obtain ⟨_, _, _, _, _, rfl, -⟩ := hsusp.lend hlend
    exact howner
  | @failed u m' result mid _ hsusp _ _ hleft =>
    have hmove := hs.leaving hsusp
    obtain ⟨_, _, _, _, _, rfl, -⟩ := hmove.waiterLeft hleft
    exact howner
  | @releaseLast u m' _ howner' hhold =>
    obtain ⟨hpassed, hbeside, -, heq⟩ := hs.releaseLast_spec howner'
      (hs.holding.hold_eq howner' hhold)
    rw [← heq] at howner
    by_cases hm : m = m'
    · subst hm
      have hmem := List.mem_of_mem_head? (hpassed.owner.symm.trans howner)
      cases hcall.symm.trans (hs.place _ t hmem)
    · exact (hbeside.owner m fun hmem => hm (List.mem_singleton.mp hmem)).symm.trans howner
  | ceiling hceiling =>
    obtain ⟨ceiling, -, hrepri⟩ := hs.setprioceiling hceiling
    obtain ⟨_, _, _, _, _, rfl, -⟩ := hrepri
    exact howner
  | handed | leave | unblock | block | takeAgain | takeFailed | releaseOne | releaseFailed | wake
    | same => exact howner

theorem Tidy.effect (h : s.Tidy) {a : MutexStep τ μ κ} (heffect : MutexEffect depth s a s') :
    s'.Tidy := by
  have hs := h.owned
  refine ⟨hs.effect heffect, h.arranged.effect hs heffect, h.ordered.effect hs h.arranged heffect,
    fun t hcall m howner => ?_⟩
  have hbefore := hs.call_of_closed heffect hcall
  exact h.buried t hbefore m (hs.owner_of_closed heffect hbefore howner)

/-- Both ways to end a thread. -/
theorem Tidy.ended (h : s.Tidy) (hclean : s.Clean (.ended self t))
    (hstep : (endMachine depth).step s (.ended self t) = some s') : s.Ended s' t ∧ s'.Tidy := by
  have hs := h.owned
  simp only [endMachine] at hstep
  split at hstep
  case isFalse => cases hstep
  case isTrue hguard =>
    rcases hclean.1 with rfl | hfree
    · obtain ⟨hended, hgiving, hcall, howner⟩ := h.endsItself hguard.1 hstep
      refine ⟨hended, hgiving.owned, hgiving.arranged, hgiving.ordered, fun u hu m heq => ?_⟩
      by_cases hut : u = self
      · rw [hut] at heq
        exact (hended.gone m).1 heq
      · rw [hcall, Function.update_of_ne hut] at hu
        by_cases hm : s.owner m = some self
        · have hmem := List.mem_of_mem_head? ((hended.passed m hm).1.owner.symm.trans heq)
          cases hu.symm.trans (hs.place _ u hmem)
        · exact h.buried u hu m ((howner m hm).symm.trans heq)
    · obtain ⟨hended, hdropped⟩ := h.endsFree hfree hclean.2 hstep
      refine ⟨hended, hdropped.owned, hdropped.arranged, hdropped.ordered, fun u hu m heq => ?_⟩
      by_cases hut : u = t
      · rw [hut] at heq
        exact (hended.gone m).1 heq
      · rw [hdropped.call, Function.update_of_ne hut] at hu
        rw [hdropped.owner] at heq
        exact h.buried u hu m heq

/-- In every run in which threads that own mutexes end themselves, and a wait that is ended
comes in time, each thread that ends leaves its mutexes as it should. -/
theorem thread_end (depth : Nat) (priority : τ → Nat)
    (hpriority : ∀ t, priority t < rtThreadPriorityMax) {actions : List (EndStep τ μ κ)}
    (run : (endMachine depth).Run (fun s a => s.Clean a) (start priority) actions s) :
    (∀ t m, s.call t = some .closed → s.owner m ≠ some t ∧ t ∉ s.suspendThread (.mutex m)) ∧
    ∀ self t s', s.Clean (.ended self t) →
      (endMachine depth).step s (.ended self t) = some s' → s.Ended s' t := by
  have hstart : (start priority : MutexState τ μ κ).Tidy := by
    refine ⟨owned_start priority, arranged_start priority,
      ⟨fun t => ⟨le_rfl, (hpriority t).trans (by decide)⟩, fun m => inOrder_of_eq rfl⟩,
      fun t hcall => ?_⟩
    exact absurd hcall.symm (Option.some_ne_none _)
  have htidy : s.Tidy := by
    refine run.invariant (I := Tidy) (fun s a s' hok hstep h => ?_) hstart
    cases a with
    | call a => exact h.effect (effect_of_step h.owned hstep)
    | ended self t => exact (h.ended hok hstep).2
  refine ⟨fun t m hcall => ?_, fun self t s' hclean hstep => (htidy.ended hclean hstep).1⟩
  obtain ⟨hnone, hout, -⟩ := htidy.owned.gone hcall (htidy.buried t hcall m)
  exact ⟨hnone, hout⟩

end Ended

/-- The owner of a mutex ends itself, and the waiter has it. -/
theorem thread_end_handed :
    ∃ s s', (endMachine 3).Run (fun s a => s.Clean a)
        (start (fun _ => 5) : MutexState (Fin 2) Unit Unit)
        [.call (.take 0 () 0), .call (.take 0 () 0), .call (.take 1 () (-1))] s ∧
      s.hold () = 2 ∧ (endMachine 3).step s (.ended 0 0) = some s' ∧ s'.owner () = some 1 ∧
      (∀ t m, s.call t = some .closed → s.owner m ≠ some t ∧ t ∉ s.suspendThread (.mutex m)) ∧
      s.Ended s' 0 := by
  have hexec : ((endMachine 3).exec (start (fun _ => 5) : MutexState (Fin 2) Unit Unit)
      [.call (.take 0 () 0), .call (.take 0 () 0), .call (.take 1 () (-1))]).map
      (fun s => decide (s.hold () = 2 ∧ s.call 0 = none ∧
        ((endMachine 3).exec s [.ended 0 0]).map (fun s => decide (s.owner () = some 1)) =
          some true)) = some true := by decide
  obtain ⟨s, hs, hvalues⟩ := Option.map_eq_some_iff.mp hexec
  obtain ⟨hhold, hcall, hlater⟩ := of_decide_eq_true hvalues
  obtain ⟨s', hs', howner⟩ := Option.map_eq_some_iff.mp hlater
  have hrun : (endMachine 3).Run (fun s a => s.Clean a)
      (start (fun _ => 5) : MutexState (Fin 2) Unit Unit)
      [.call (.take 0 () 0), .call (.take 0 () 0), .call (.take 1 () (-1))] s :=
    Machine.Run.of_exec hs ⟨trivial, fun _ _ => ⟨trivial, fun _ _ => ⟨trivial, fun _ _ => trivial⟩⟩⟩
  have hstep : (endMachine 3).step s (.ended 0 0) = some s' := by
    obtain ⟨mid, hmid, hlast⟩ := Option.bind_eq_some_iff.mp hs'
    rw [hmid]
    exact hlast
  have hclean : s.Clean (.ended 0 0) :=
    ⟨.inl rfl, fun m o hret => by cases hcall.symm.trans hret.1⟩
  obtain ⟨hall, hended⟩ := thread_end 3 (fun _ => 5) (by decide) hrun
  exact ⟨s, s', hrun, hhold, hstep, of_decide_eq_true howner, hall, hended 0 0 s' hclean hstep⟩

/-- A third thread deletes the owner of a mutex: it stays the owner, and the waiter waits. -/
theorem thread_end_deleted :
    ∃ s s', (endMachine 3).Run Machine.anyStep
        (start (fun _ => 5) : MutexState (Fin 3) Unit Unit)
        [.call (.take 0 () 0), .call (.take 1 () (-1))] s ∧
      (endMachine 3).step s (.ended 2 0) = some s' ∧ s'.call 0 = some .closed ∧
      s'.owner () = some 0 ∧ s'.hold () = 1 ∧ 1 ∈ s'.suspendThread (.mutex ()) ∧
      ¬ s.Ended s' 0 := by
  have hexec : ((endMachine 3).exec (start (fun _ => 5) : MutexState (Fin 3) Unit Unit)
      [.call (.take 0 () 0), .call (.take 1 () (-1))]).map
      (fun s => decide (((endMachine 3).exec s [.ended 2 0]).map (fun s => decide (
        s.call 0 = some .closed ∧ s.owner () = some 0 ∧ s.hold () = 1 ∧
        1 ∈ s.suspendThread (.mutex ()))) = some true)) = some true := by decide
  obtain ⟨s, hs, hlater⟩ := Option.map_eq_some_iff.mp hexec
  obtain ⟨s', hs', hvalues⟩ := Option.map_eq_some_iff.mp (of_decide_eq_true hlater)
  obtain ⟨hcall, howner, hhold, hmem⟩ := of_decide_eq_true hvalues
  have hstep : (endMachine 3).step s (.ended 2 0) = some s' := by
    obtain ⟨mid, hmid, hlast⟩ := Option.bind_eq_some_iff.mp hs'
    rw [hmid]
    exact hlast
  exact ⟨s, s', Machine.Run.of_exec hs (Machine.admitted_anyStep _ _), hstep, hcall, howner,
    hhold, hmem, fun h => (h.gone ()).1 howner⟩

end MutexState

end Gd32Vw553h.Ipc
