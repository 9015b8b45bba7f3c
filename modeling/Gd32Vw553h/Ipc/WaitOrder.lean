/-
  Ipc/WaitOrder.lean --- the order of wait lists (`src/ipc.c`, `src/thread.c`).

  `rt_susp_list_enqueue` puts a thread before the first waiter of lower priority.  The
  priority of a waiter can change while it waits, when it owns a mutex that another thread
  asks for.  `_thread_update_priority` then puts it into the wait list of a mutex again,
  behind the waiters of its new priority, so that these lists are always sorted; in the
  list of another object it stays where it is.  Such a list is sorted as long as its
  waiters keep the priorities they came with.
-/
import Gd32Vw553h.Ipc.Ownership

set_option autoImplicit false

namespace Gd32Vw553h.Ipc

open Gd32Vw553h.Foundation Gd32Vw553h.Klibc

namespace MutexState

/-! ## Sorted lists -/

section Sorted

variable {τ μ κ : Type*} {s s' s'' : MutexState τ μ κ} {t u : τ} {m : μ} {k : κ}
  {l : WaitList μ κ} {p depth : Nat}

/-- A higher priority, or the same one and put into the list earlier. -/
def Before (s : MutexState τ μ κ) (a b : τ) : Prop :=
  s.currentPriority a < s.currentPriority b ∨
    s.currentPriority a = s.currentPriority b ∧ s.arrival a < s.arrival b

def Sorted (s : MutexState τ μ κ) (l : WaitList μ κ) : Prop :=
  (s.suspendThread l).Pairwise s.Before

theorem Before.le (h : s.Before t u) : s.currentPriority t ≤ s.currentPriority u :=
  h.elim Nat.le_of_lt fun heq => heq.1.le

/-- Waiters may leave. -/
theorem pairwise_sublist {r : List τ} (h : s.Sorted l) (hsub : r.Sublist (s.suspendThread l))
    (hcur : ∀ a ∈ r, s'.currentPriority a = s.currentPriority a)
    (harrival : ∀ a ∈ r, s'.arrival a = s.arrival a) : r.Pairwise s'.Before := by
  refine (h.sublist hsub).imp_of_mem fun {a b} ha hb hbefore => ?_
  unfold Before
  rw [hcur a ha, hcur b hb, harrival a ha, harrival b hb]
  exact hbefore

theorem Sorted.sublist (h : s.Sorted l)
    (hsub : (s'.suspendThread l).Sublist (s.suspendThread l))
    (hcur : ∀ a ∈ s'.suspendThread l, s'.currentPriority a = s.currentPriority a)
    (harrival : ∀ a ∈ s'.suspendThread l, s'.arrival a = s.arrival a) : s'.Sorted l :=
  pairwise_sublist h hsub hcur harrival

/-- The list and what it is sorted by stay the same. -/
theorem Sorted.congr (h : s.Sorted l) (hlist : s'.suspendThread l = s.suspendThread l)
    (hcur : ∀ a ∈ s.suspendThread l, s'.currentPriority a = s.currentPriority a)
    (harrival : ∀ a ∈ s.suspendThread l, s'.arrival a = s.arrival a) : s'.Sorted l := by
  refine h.sublist (by rw [hlist]) (fun a ha => hcur a ?_) fun a ha => harrival a ?_
  · rw [← hlist]
    exact ha
  · rw [← hlist]
    exact ha

/-- A thread is put into a sorted list, later than all others. -/
theorem sorted_enqueue [DecidableEq τ] {r : List τ} (hr : r.Pairwise s.Before)
    (hlast : ∀ a ∈ r, s.arrival a < s.arrival t)
    (hlist : s.suspendThread l = rtSuspListEnqueue s.currentPriority .prio t r) :
    s.Sorted l := by
  unfold Sorted
  rw [hlist]
  refine pairwise_rtSuspListEnqueue hr (fun a _ b _ hbefore => hbefore.le)
    (fun b _ hlt => .inl hlt) fun b hb hle => ?_
  rcases Nat.lt_or_eq_of_le (Nat.le_of_not_lt hle) with hlt | heq
  · exact .inl hlt
  · exact .inr ⟨heq, hlast b hb⟩

/-- What every step keeps: the lists of the mutexes are sorted. -/
structure Arranged (s : MutexState τ μ κ) : Prop where
  past : ∀ l t, t ∈ s.suspendThread l → s.arrival t < s.arrivals
  sorted : ∀ m, s.Sorted (.mutex m)

/-- The lists of other objects stay the same, and the places in them. -/
structure Aside (s s' : MutexState τ μ κ) : Prop where
  lists : ∀ k, s'.suspendThread (.other k) = s.suspendThread (.other k)
  arrival : ∀ k, ∀ t ∈ s.suspendThread (.other k), s'.arrival t = s.arrival t

theorem Aside.trans (h : s.Aside s') (h' : s'.Aside s'') : s.Aside s'' where
  lists k := (h'.lists k).trans (h.lists k)
  arrival k t ht := by
    refine (h'.arrival k t ?_).trans (h.arrival k t ht)
    rw [h.lists k]
    exact ht

theorem Arranged.congr (h : s.Arranged)
    (hlists : ∀ l, s'.suspendThread l = s.suspendThread l)
    (hcur : ∀ m, ∀ a ∈ s.suspendThread (.mutex m),
      s'.currentPriority a = s.currentPriority a)
    (harrival : s'.arrival = s.arrival) (harrivals : s'.arrivals = s.arrivals) :
    s'.Arranged where
  past l t ht := by
    rw [hlists l] at ht
    rw [harrival, harrivals]
    exact h.past l t ht
  sorted m := (h.sorted m).congr (hlists _) (hcur m) fun a _ => by rw [harrival]

end Sorted

/-! ## Priorities that change -/

section Update

variable {τ μ κ : Type*} [DecidableEq τ] [DecidableEq μ] [DecidableEq κ]
  {s s' : MutexState τ μ κ} {t u owner : τ} {m : μ} {p depth : Nat}

omit [DecidableEq τ] [DecidableEq μ] [DecidableEq κ] in
/-- A thread that does not wait for a mutex stands in no list of one. -/
theorem Owned.not_waiting (h : s.Owned)
    (ht : s.suspended t = false ∨ s.pendingObject t = none) (m : μ) :
    t ∉ s.suspendThread (.mutex m) := by
  intro hmem
  rcases ht with hsusp | hpending
  · exact h.not_mem hsusp _ hmem
  · exact Option.some_ne_none m ((h.waiter t m hmem).symm.trans hpending)

omit [DecidableEq μ] [DecidableEq κ] in
/-- A thread that waits for no mutex may change its priority. -/
theorem Arranged.changePriority (h : s.Arranged) (hout : ∀ m, t ∉ s.suspendThread (.mutex m)) :
    (s.changePriority t p).Arranged := by
  refine h.congr (fun _ => rfl) (fun m a ha => ?_) rfl rfl
  have hne : a ≠ t := by
    rintro rfl
    exact hout m ha
  exact Function.update_of_ne hne p s.currentPriority

omit [DecidableEq κ] in
/-- A waiter with a new priority is put into its list again. -/
theorem Arranged.requeued (h : s.Arranged) (hs : s.Owned) (ht : t ∈ s.suspendThread (.mutex m))
    (hr : s.Requeued s' t m p) : s'.Arranged := by
  have hcur : ∀ a, a ≠ t → s'.currentPriority a = s.currentPriority a := fun a ha => by
    rw [hr.current, Function.update_of_ne ha]
  have harrival : ∀ a, a ≠ t → s'.arrival a = s.arrival a := fun a ha => by
    rw [hr.arrival, Function.update_of_ne ha]
  have hlast : s'.arrival t = s.arrivals := by
    rw [hr.arrival, Function.update_self]
  have hrest : ∀ a ∈ (s.suspendThread (.mutex m)).erase t,
      a ≠ t ∧ a ∈ s.suspendThread (.mutex m) :=
    fun a ha => (hs.sound.nodup _).mem_erase_iff.mp ha
  constructor
  · intro l a ha
    rw [hr.arrivals]
    by_cases hat : a = t
    · rw [hat, hlast]
      exact Nat.lt_succ_self _
    · rw [harrival a hat]
      refine Nat.lt_succ_of_lt (h.past l a ?_)
      by_cases hl : l = .mutex m
      · subst hl
        rw [hr.list] at ha
        exact (hrest a ((mem_rtSuspListEnqueue.mp ha).resolve_left hat)).2
      · rw [hr.lists l hl] at ha
        exact ha
  · intro m'
    by_cases hl : WaitList.mutex m' = (.mutex m : WaitList μ κ)
    · rw [hl]
      refine sorted_enqueue (pairwise_sublist (h.sorted m) List.erase_sublist
        (fun a ha => hcur a (hrest a ha).1) fun a ha => harrival a (hrest a ha).1)
        (fun a ha => ?_) hr.list
      rw [hlast, harrival a (hrest a ha).1]
      exact h.past _ a (hrest a ha).2
    · have hother : ∀ a ∈ s.suspendThread (.mutex m'), a ≠ t := by
        rintro a ha rfl
        exact hl (hs.sound.single _ _ a ha ht)
      exact (h.sorted m').congr (hr.lists _ hl) (fun a ha => hcur a (hother a ha))
        fun a ha => harrival a (hother a ha)

theorem Arranged.threadUpdatePriority (h : s.Arranged) (hs : s.Owned)
    (hupdate : threadUpdatePriority depth s t p = some s') : s'.Arranged := by
  induction depth generalizing s t p with
  | zero => cases hupdate
  | succ depth ih =>
    rcases threadUpdatePriority_cases hupdate with
      ⟨hstop, rfl⟩ | ⟨d, m, owner, hd, hsusp, hpending, -, hnext⟩
    · exact h.changePriority (hs.not_waiting hstop)
    · obtain rfl := Nat.succ.inj hd
      have hmem := hs.pending_mem hsusp hpending
      have hr := hs.requeued hmem p
      have hmid := h.requeued hs hmem hr
      rcases updateOwner_cases hnext with ⟨-, rfl⟩ | hnext
      · exact hmid
      · exact ih hmid (hs.reprioritised hr.reprioritised) hnext

omit [DecidableEq κ] in
theorem Requeued.aside (hr : s.Requeued s' t m p) (hs : s.Owned)
    (ht : t ∈ s.suspendThread (.mutex m)) : s.Aside s' := by
  refine ⟨fun k => hr.lists _ (by simp), fun k a ha => ?_⟩
  have hne : a ≠ t := by
    rintro rfl
    cases hs.sound.single _ _ a ha ht
  rw [hr.arrival, Function.update_of_ne hne]

/-- The lists of other objects are left alone. -/
theorem Owned.aside (h : s.Owned)
    (hupdate : MutexState.threadUpdatePriority depth s t p = some s') : s.Aside s' := by
  induction depth generalizing s t p with
  | zero => cases hupdate
  | succ depth ih =>
    rcases threadUpdatePriority_cases hupdate with
      ⟨-, rfl⟩ | ⟨d, m, owner, hd, hsusp, hpending, -, hnext⟩
    · exact ⟨fun _ => rfl, fun _ _ _ => rfl⟩
    · obtain rfl := Nat.succ.inj hd
      have hmem := h.pending_mem hsusp hpending
      have hr := h.requeued hmem p
      have hmid := hr.aside h hmem
      rcases updateOwner_cases hnext with ⟨-, rfl⟩ | hnext
      · exact hmid
      · exact hmid.trans (ih (h.reprioritised hr.reprioritised) hnext)

/-- A change of priorities that keeps the lists in order. -/
def Rearranged (s s' : MutexState τ μ κ) : Prop :=
  s.Aside s' ∧ (s.Arranged → s'.Arranged)

omit [DecidableEq τ] [DecidableEq μ] [DecidableEq κ] in
theorem Rearranged.trans {s'' : MutexState τ μ κ} (h : s.Rearranged s')
    (h' : s'.Rearranged s'') : s.Rearranged s'' :=
  ⟨h.1.trans h'.1, fun ha => h'.2 (h.2 ha)⟩

omit [DecidableEq τ] [DecidableEq μ] [DecidableEq κ] in
/-- The lists, and what they are sorted by, stay. -/
theorem rearranged_of_eq (hlists : s'.suspendThread = s.suspendThread)
    (hcur : s'.currentPriority = s.currentPriority) (harrival : s'.arrival = s.arrival)
    (harrivals : s'.arrivals = s.arrivals) : s.Rearranged s' :=
  ⟨⟨fun _ => congrFun hlists _, fun _ t _ => congrFun harrival t⟩,
    fun h => h.congr (fun l => congrFun hlists l) (fun _ a _ => congrFun hcur a) harrival harrivals⟩

theorem Owned.rearranged (h : s.Owned)
    (hupdate : MutexState.threadUpdatePriority depth s t p = some s') : s.Rearranged s' :=
  ⟨h.aside hupdate, fun ha => ha.threadUpdatePriority h hupdate⟩

theorem Owned.updateOwner_rearranged (h : s.Owned)
    (hupdate : s.updateOwner depth owner = some s') : s.Rearranged s' := by
  rcases updateOwner_cases hupdate with ⟨-, rfl⟩ | hnext
  · exact rearranged_of_eq rfl rfl rfl rfl
  · exact h.rearranged hnext

theorem Owned.waiterLeft_rearranged (h : s.Owned) (hleft : s.waiterLeft depth t m = some s') :
    s.Rearranged s' := by
  have hmid : s.Rearranged (s.mutexUpdatePriority m) := rearranged_of_eq rfl rfl rfl rfl
  unfold MutexState.waiterLeft at hleft
  cases howner : s.owner m with
  | none =>
    rw [howner] at hleft
    obtain rfl := Option.some.inj hleft
    exact hmid
  | some owner =>
    rw [howner] at hleft
    dsimp only at hleft
    split at hleft
    · exact hmid.trans ((h.reprioritised
        (mutexUpdatePriority_reprioritised s m)).updateOwner_rearranged hleft)
    · obtain rfl := Option.some.inj hleft
      exact hmid

theorem Owned.lend_rearranged (h : s.Owned) (hlend : s.lend depth t m owner = some s') :
    s.Rearranged s' := by
  unfold MutexState.lend at hlend
  dsimp only at hlend
  split at hlend
  · have hmid : s.Rearranged
        { s with priority := Function.update s.priority m (s.currentPriority t) } :=
      rearranged_of_eq rfl rfl rfl rfl
    have hs := h.others s.currentPriority s.error
      (Function.update s.priority m (s.currentPriority t)) s.ceilingPriority s.history s.arrivals
      s.arrival
    split at hlend
    · exact hmid.trans (hs.rearranged hlend)
    · obtain rfl := Option.some.inj hlend
      exact hmid
  · obtain rfl := Option.some.inj hlend
    exact rearranged_of_eq rfl rfl rfl rfl

/-! ## The steps -/

/-- Waiters may have left; no other thread has changed its place. -/
structure Shrunk (s s' : MutexState τ μ κ) : Prop where
  lists : ∀ l, (s'.suspendThread l).Sublist (s.suspendThread l)
  current : ∀ m, ∀ a ∈ s'.suspendThread (.mutex m), s'.currentPriority a = s.currentPriority a
  arrival : s'.arrival = s.arrival
  arrivals : s'.arrivals = s.arrivals

/-- A thread has been put into a list. -/
structure Joined (s s' : MutexState τ μ κ) (t : τ) (l : WaitList μ κ) : Prop where
  list : s'.suspendThread l = rtSuspListEnqueue s.currentPriority .prio t (s.suspendThread l)
  lists : ∀ l', l' ≠ l → s'.suspendThread l' = s.suspendThread l'
  out : ∀ l', t ∉ s.suspendThread l'
  current : s'.currentPriority = s.currentPriority
  arrival : s'.arrival = Function.update s.arrival t s.arrivals
  arrivals : s'.arrivals = s.arrivals + 1

omit [DecidableEq τ] [DecidableEq μ] [DecidableEq κ] in
theorem Arranged.shrunk (h : s.Arranged) (hshrunk : s.Shrunk s') : s'.Arranged where
  past l t ht := by
    rw [hshrunk.arrival, hshrunk.arrivals]
    exact h.past l t ((hshrunk.lists l).subset ht)
  sorted m := (h.sorted m).sublist (hshrunk.lists _) (hshrunk.current m) fun a _ => by
    rw [hshrunk.arrival]

variable {l l' : WaitList μ κ}

omit [DecidableEq μ] [DecidableEq κ] in
/-- Whoever stands in a list already keeps its place. -/
theorem Joined.arrival_of_mem (h : s.Joined s' t l) (hu : u ∈ s.suspendThread l') :
    s'.arrival u = s.arrival u := by
  have hne : u ≠ t := by
    rintro rfl
    exact h.out l' hu
  rw [h.arrival, Function.update_of_ne hne]

theorem Joined.sorted (h : s.Joined s' t l)
    (hpast : ∀ l t, t ∈ s.suspendThread l → s.arrival t < s.arrivals) (hsorted : s.Sorted l') :
    s'.Sorted l' := by
  by_cases hl : l' = l
  · subst hl
    refine sorted_enqueue (pairwise_sublist hsorted (List.Sublist.refl _)
      (fun a _ => congrFun h.current a) fun a ha => h.arrival_of_mem ha) (fun a ha => ?_)
      (h.list.trans (by rw [h.current]))
    rw [h.arrival_of_mem ha, h.arrival, Function.update_self]
    exact hpast l' a ha
  · exact hsorted.congr (h.lists l' hl) (fun a _ => congrFun h.current a)
      fun a ha => h.arrival_of_mem ha

theorem Arranged.joined (h : s.Arranged) (hjoined : s.Joined s' t l) : s'.Arranged where
  past l' u hu := by
    rw [hjoined.arrivals]
    by_cases hut : u = t
    · rw [hut, hjoined.arrival, Function.update_self]
      exact Nat.lt_succ_self _
    · rw [hjoined.arrival, Function.update_of_ne hut]
      refine Nat.lt_succ_of_lt (h.past l' u ?_)
      by_cases hl : l' = l
      · subst hl
        rw [hjoined.list] at hu
        exact (mem_rtSuspListEnqueue.mp hu).resolve_left hut
      · rw [hjoined.lists l' hl] at hu
        exact hu
  sorted m := hjoined.sorted h.past (h.sorted m)

omit [DecidableEq μ] [DecidableEq κ] in
/-- A thread that runs may change its own priority. -/
theorem Owned.raised_of_mem (h : s.Owned) (hrun : s.suspended t = false)
    (hu : u ∈ s.suspendThread l) (q : Nat) :
    Function.update s.currentPriority t q u = s.currentPriority u := by
  refine Function.update_of_ne ?_ _ _
  rintro rfl
  exact h.not_mem hrun l hu

/-- A thread that waits for a mutex joins its list. -/
theorem Owned.suspendOn_joined (h : s.Owned) (hrun : s.Running t) (error : τ → Int) (m : μ) :
    s.Joined (MutexState.suspendOn { s with error := error } t m) t (.mutex m) := by
  have hjoin := SuspState.rtThreadSuspendToList_suspended
    { s.toSuspState with error := error } t (.mutex m) .prio
  have hprio := hjoin.priority
  exact ⟨hjoin.list_self, fun l hl => hjoin.list_of_ne hl, fun l => h.not_mem hrun.2 l, hprio,
    rfl, rfl⟩

omit [DecidableEq κ] in
theorem Owned.releaseLast_shrunk (h : s.Owned) (howner : s.owner m = some t)
    (hrun : s.suspended t = false) :
    s.Shrunk ((MutexState.checkAndUpdatePrio { s with
      hold := Function.update s.hold m (s.hold m - 1)
      takenObjectList :=
        Function.update s.takenObjectList t ((s.takenObjectList t).erase m) } t m).handOver m) := by
  obtain ⟨p, heq⟩ := checkAndUpdatePrio_eq { s with
    hold := Function.update s.hold m (s.hold m - 1)
    takenObjectList := Function.update s.takenObjectList t ((s.takenObjectList t).erase m) } t m
  rcases h.releaseLast_cases howner rfl with
    ⟨-, hover⟩ | ⟨next, _, susp, -, -, hresumed, -, hover⟩
  · rw [hover, heq]
    exact ⟨fun _ => .refl _, fun m' a ha => h.raised_of_mem hrun ha p, rfl, rfl⟩
  · rw [hover, heq]
    rw [heq] at hresumed
    have hsub : ∀ l, (susp.suspendThread l).Sublist (s.suspendThread l) := by
      intro l
      rw [hresumed.lists]
      exact List.erase_sublist
    refine ⟨hsub, fun m' a ha => ?_, rfl, rfl⟩
    exact (congrFun hresumed.priority a).trans (h.raised_of_mem hrun ((hsub _).subset ha) p)

/-- What a step does to the wait lists. -/
theorem Owned.shape (h : s.Owned) {a : MutexStep τ μ κ} (heffect : MutexEffect depth s a s') :
    s.Shrunk s' ∨ s.Rearranged s' ∨ (∃ t k, s.Joined s' t (.other k)) ∨
      ∃ t m mid, s.Joined mid t (.mutex m) ∧ mid.Rearranged s' := by
  cases heffect with
  | @takeFree t m _ hrun howner =>
    refine .inl ⟨fun _ => .refl _, fun m' a ha => ?_, rfl, rfl⟩
    show s.raised t m a = s.currentPriority a
    unfold raised
    split
    · exact h.raised_of_mem hrun.2 ha _
    · rfl
  | @wait t m timeout owner lent hrun howner hne hlend =>
    have hs := h.others s.currentPriority (Function.update s.error t 0) s.priority
      s.ceilingPriority s.history s.arrivals s.arrival
    have hsusp := hs.suspendOn (t := t) (m := m) hrun
      (fun hnone => Option.some_ne_none owner (howner.symm.trans hnone))
      (fun heq => hne (Option.some.inj (howner.symm.trans heq)))
    refine .inr (.inr (.inr ⟨t, m, _, h.suspendOn_joined hrun _ m,
      (hsusp.lend_rearranged hlend).trans ?_⟩))
    obtain ⟨set, active, heq, -⟩ := lent.toSuspState.startTimer_eq t timeout
    rw [heq]
    exact rearranged_of_eq rfl rfl rfl rfl
  | @failed t m result mid hcall hsusp _ _ hleft =>
    have hmove := h.leaving hsusp
    have hmid : s.Rearranged (s.setCall t (some .leaving)) := rearranged_of_eq rfl rfl rfl rfl
    exact .inr (.inl ((hmid.trans (hmove.waiterLeft_rearranged hleft)).trans
      (rearranged_of_eq rfl rfl rfl rfl)))
  | @releaseLast t m hrun howner _ =>
    have hshrunk := h.releaseLast_shrunk howner hrun.2
    exact .inl ⟨hshrunk.lists, hshrunk.current, hshrunk.arrival, hshrunk.arrivals⟩
  | @ceiling m p s' hceiling =>
    rcases setprioceiling_cases hceiling with rfl | ⟨-, ⟨-, rfl⟩ | ⟨owner, -, hupdate⟩⟩
    · exact .inl ⟨fun _ => .refl _, fun _ _ _ => rfl, rfl, rfl⟩
    · exact .inl ⟨fun _ => .refl _, fun _ _ _ => rfl, rfl, rfl⟩
    · have hset := h.others s.currentPriority s.error s.priority
        (Function.update s.ceilingPriority m p) s.history s.arrivals s.arrival
      have hmid : s.Rearranged
          { s with ceilingPriority := Function.update s.ceilingPriority m p } :=
        rearranged_of_eq rfl rfl rfl rfl
      exact .inr (.inl (hmid.trans (hset.updateOwner_rearranged hupdate)))
  | @block t k timeout susp hrun hsusp =>
    exact .inr (.inr (.inl ⟨t, k, hsusp.list_self, fun l hl => hsusp.list_of_ne hl,
      fun l => h.not_mem hrun.2 l, hsusp.priority, rfl, rfl⟩))
  | wake _ hresumed =>
    refine .inl ⟨fun l => ?_, fun _ a _ => congrFun hresumed.priority a, rfl, rfl⟩
    have hlists := hresumed.lists
    show (SuspState.suspendThread _ l).Sublist _
    rw [hlists]
    exact List.erase_sublist
  | takeAgain | takeFailed | handed | leave | releaseOne | releaseFailed | unblock | same =>
    exact .inl ⟨fun _ => .refl _, fun _ _ _ => rfl, rfl, rfl⟩

theorem Arranged.effect {a : MutexStep τ μ κ} (h : s.Arranged) (hs : s.Owned)
    (heffect : MutexEffect depth s a s') : s'.Arranged := by
  rcases hs.shape heffect with
    hshrunk | hre | ⟨t, k, hjoined⟩ | ⟨t, m, mid, hjoined, hre⟩
  · exact h.shrunk hshrunk
  · exact hre.2 h
  · exact h.joined hjoined
  · exact hre.2 (h.joined hjoined)

/-- The list of another object stays sorted if its waiters keep their priorities. -/
theorem Sorted.effect {a : MutexStep τ μ κ} {k : κ} (h : s.Sorted (.other k)) (ha : s.Arranged)
    (hs : s.Owned) (heffect : MutexEffect depth s a s')
    (hkeep : ∀ u ∈ s.suspendThread (.other k), u ∈ s'.suspendThread (.other k) →
      s'.currentPriority u = s.currentPriority u) : s'.Sorted (.other k) := by
  rcases hs.shape heffect with
    hshrunk | ⟨haside, -⟩ | ⟨t, k', hjoined⟩ | ⟨t, m, mid, hjoined, haside, -⟩
  · exact h.sublist (hshrunk.lists _) (fun u hu => hkeep u ((hshrunk.lists _).subset hu) hu)
      fun u _ => congrFun hshrunk.arrival u
  · refine h.congr (haside.lists k) (fun u hu => hkeep u hu ?_) (haside.arrival k)
    rw [haside.lists k]
    exact hu
  · exact hjoined.sorted ha.past h
  · have hlist : mid.suspendThread (.other k) = s.suspendThread (.other k) :=
      hjoined.lists _ (by simp)
    have hmid := hjoined.sorted ha.past h
    refine hmid.congr (haside.lists k) (fun u hu => ?_) (haside.arrival k)
    rw [congrFun hjoined.current u]
    refine hkeep u ?_ ?_
    · rw [← hlist]
      exact hu
    · rw [haside.lists k]
      exact hu

omit [DecidableEq τ] [DecidableEq μ] [DecidableEq κ] in
theorem arranged_start (priority : τ → Nat) : (start priority : MutexState τ μ κ).Arranged :=
  ⟨fun _ _ h => absurd h List.not_mem_nil, fun _ => List.Pairwise.nil⟩

/-! ## The waiters that are woken -/

/-- Whoever leaves the list had the highest priority in it. -/
def WakesHighest (s s' : MutexState τ μ κ) (l : WaitList μ κ) : Prop :=
  ∀ next ∈ s.suspendThread l, next ∉ s'.suspendThread l →
    ∀ u ∈ s.suspendThread l, s.currentPriority next ≤ s.currentPriority u

omit [DecidableEq μ] [DecidableEq κ] in
/-- The first of a sorted list leaves it. -/
theorem Sorted.wakesHighest {first : τ} {rest : List τ} (h : s.Sorted l)
    (hlist : s.suspendThread l = first :: rest)
    (herase : s'.suspendThread l = (s.suspendThread l).erase first) : s.WakesHighest s' l := by
  intro next hnext hleft u hu
  have hfirst : next = first := by
    by_contra hne
    rw [herase] at hleft
    exact hleft ((List.mem_erase_of_ne hne).mpr hnext)
  unfold Sorted at h
  rw [hlist] at h hu
  rw [hfirst]
  rcases List.mem_cons.mp hu with rfl | hmem
  · exact le_rfl
  · exact ((List.pairwise_cons.mp h).1 u hmem).le

omit [DecidableEq τ] [DecidableEq μ] [DecidableEq κ] in
/-- Nobody leaves the list. -/
theorem wakesHighest_of_eq (hlist : s'.suspendThread l = s.suspendThread l) :
    s.WakesHighest s' l := by
  intro next hnext hleft
  rw [hlist] at hleft
  exact absurd hnext hleft

/-- `rt_mutex_release` wakes a waiter of the highest priority. -/
theorem Arranged.release (h : s.Arranged) (hs : s.Owned)
    (hstep : (mutexMachine depth).step s (.release t m) = some s') :
    s.WakesHighest s' (.mutex m) := by
  obtain ⟨-, ⟨-, rfl⟩ | ⟨-, -, rfl⟩ | ⟨howner, -, rfl⟩⟩ := release_cases hstep
  · exact wakesHighest_of_eq rfl
  · exact wakesHighest_of_eq rfl
  · obtain ⟨p, heq⟩ := checkAndUpdatePrio_eq { s with
      hold := Function.update s.hold m (s.hold m - 1)
      takenObjectList := Function.update s.takenObjectList t ((s.takenObjectList t).erase m) } t m
    rcases hs.releaseLast_cases howner rfl with
      ⟨-, hover⟩ | ⟨next, rest, susp, hlist, -, hresumed, -, hover⟩
    · rw [hover, heq]
      exact wakesHighest_of_eq rfl
    · rw [hover, heq]
      rw [heq] at hresumed
      exact (h.sorted m).wakesHighest hlist (congrFun hresumed.lists _)

/-- `rt_susp_list_dequeue` wakes one if the list is sorted. -/
theorem Sorted.dequeue {k : κ} {threadError : Int} (h : s.Sorted (.other k)) (hs : s.Owned)
    (hstep : (mutexMachine depth).step s (.dequeue k threadError) = some s') :
    s.WakesHighest s' (.other k) := by
  obtain rfl := Option.some.inj hstep
  cases hlist : s.suspendThread (.other k) with
  | nil =>
    rw [SuspState.rtSuspListDequeue_nil hlist]
    exact wakesHighest_of_eq rfl
  | cons first rest =>
    have hsusp : s.suspended first = true := hs.sound.suspended (.other k) first (by
      rw [hlist]
      exact List.mem_cons_self)
    obtain ⟨susp, hready, hresumed, -⟩ := SuspState.rtSchedThreadReady_live hs.live hsusp
    refine h.wakesHighest hlist ?_
    simp only [SuspState.rtSuspListDequeue, hlist, hready]
    rw [← hlist]
    split
    · exact congrFun hresumed.lists _
    · exact congrFun hresumed.lists _

/-! ## All runs -/

/-- The step leaves the priorities of the threads that wait in the list. -/
def Undisturbed (depth : Nat) (k : κ) (s : MutexState τ μ κ) (a : MutexStep τ μ κ) : Prop :=
  ∀ s', (mutexMachine depth).step s a = some s' →
    ∀ u ∈ s.suspendThread (.other k), u ∈ s'.suspendThread (.other k) →
      s'.currentPriority u = s.currentPriority u

theorem undisturbed_block {k k' : κ} {timeout : Int} :
    Undisturbed depth k s (.block t k' timeout) := by
  intro s' hstep u _ _
  simp only [mutexMachine] at hstep
  split at hstep
  case isFalse => cases hstep
  case isTrue =>
    obtain rfl := Option.some.inj hstep
    have hsusp := SuspState.rtThreadSuspendToList_suspended s.toSuspState t (.other k') .prio
    exact congrFun (hsusp.startTimer timeout).priority u

/-- The wait list of a mutex is always sorted: by priority, and by the last time that the
waiters were put into the list.  The list of another object is sorted, once it has been
empty, as long as its waiters keep their priorities.  A sorted list is woken in its order. -/
theorem wait_order (depth : Nat) (priority : τ → Nat) {before : List (MutexStep τ μ κ)}
    (run : (mutexMachine depth).Run Machine.anyStep (start priority) before s) :
    (∀ m, s.Sorted (.mutex m) ∧ ∀ t s', (mutexMachine depth).step s (.release t m) = some s' →
      s.WakesHighest s' (.mutex m)) ∧
    ∀ k actions s', s.suspendThread (.other k) = [] →
      (mutexMachine depth).Run (Undisturbed depth k) s actions s' →
      s'.Sorted (.other k) ∧
        ∀ threadError s'', (mutexMachine depth).step s' (.dequeue k threadError) = some s'' →
          s'.WakesHighest s'' (.other k) := by
  have hboth := run.invariant (I := fun s => s.Owned ∧ s.Arranged)
    (fun s a s' _ hstep h => ⟨h.1.effect (effect_of_step h.1 hstep),
      h.2.effect h.1 (effect_of_step h.1 hstep)⟩) ⟨owned_start priority, arranged_start priority⟩
  obtain ⟨hs, ha⟩ := hboth
  refine ⟨fun m => ⟨ha.sorted m, fun t s' => ha.release hs⟩, fun k actions s' hempty hrun => ?_⟩
  have hsorted : s.Sorted (.other k) := by
    unfold Sorted
    rw [hempty]
    exact List.Pairwise.nil
  have hlater := hrun.invariant (I := fun s => s.Owned ∧ s.Arranged ∧ s.Sorted (.other k))
    (fun s a s' hok hstep h => ⟨h.1.effect (effect_of_step h.1 hstep),
      h.2.1.effect h.1 (effect_of_step h.1 hstep),
      h.2.2.effect h.2.1 h.1 (effect_of_step h.1 hstep) (hok s' hstep)⟩) ⟨hs, ha, hsorted⟩
  exact ⟨hlater.2.2, fun threadError s'' => hlater.2.2.dequeue hlater.1⟩

end Update

/-- A thread waits for a mutex and another one for a semaphore. -/
theorem wait_order_two :
    ∃ s s', (mutexMachine 3).Run Machine.anyStep
        (start (fun t => if t = 0 then 10 else if t = 1 then 12 else 1) :
          MutexState (Fin 3) Unit Unit) [.take 1 () 0, .take 2 () (-1)] s ∧
      s.suspendThread (.mutex ()) = [2] ∧ s.Sorted (.mutex ()) ∧
      (mutexMachine 3).Run (Undisturbed 3 ()) s [.block 0 () (-1), .block 1 () (-1)] s' ∧
      s'.suspendThread (.other ()) = [1, 0] ∧ s'.Sorted (.other ()) := by
  have hexec : ((mutexMachine 3).exec
      (start (fun t => if t = 0 then 10 else if t = 1 then 12 else 1) :
        MutexState (Fin 3) Unit Unit) [.take 1 () 0, .take 2 () (-1)]).map
        (fun s => (s.suspendThread (.mutex ()), s.suspendThread (.other ()),
          ((mutexMachine 3).exec s [.block 0 () (-1), .block 1 () (-1)]).map
            fun s => s.suspendThread (.other ()))) =
      some ([2], [], some [1, 0]) := by decide
  obtain ⟨s, hs, hlists⟩ := Option.map_eq_some_iff.mp hexec
  obtain ⟨hmutex, hrest⟩ := Prod.mk.inj hlists
  obtain ⟨hempty, hlater⟩ := Prod.mk.inj hrest
  obtain ⟨s', hs', hother⟩ := Option.map_eq_some_iff.mp hlater
  have hrun := Machine.Run.of_exec hs (Machine.admitted_anyStep _ _)
  have hrun' : (mutexMachine 3).Run (Undisturbed 3 ()) s
      [.block 0 () (-1), .block 1 () (-1)] s' :=
    Machine.Run.of_exec hs' ⟨undisturbed_block, fun _ _ => ⟨undisturbed_block, fun _ _ => trivial⟩⟩
  obtain ⟨hsorted, hsorted'⟩ := wait_order 3 _ hrun
  exact ⟨s, s', hrun, hmutex, (hsorted ()).1, hrun', hother, (hsorted' () _ s' hempty hrun').1⟩

/-- A thread that waits for a semaphore is lent a priority, and stays behind another waiter;
a waiter for a mutex gets to the priority of one that came later, and behind it. -/
theorem wait_order_lent :
    (∃ s, (mutexMachine 3).Run Machine.anyStep
        (start (fun t => if t = 0 then 10 else if t = 1 then 12 else 1) :
          MutexState (Fin 3) Unit Unit)
        [.take 1 () 0, .block 0 () (-1), .block 1 () (-1), .take 2 () (-1)] s ∧
      s.suspendThread (.other ()) = [0, 1] ∧ s.currentPriority 0 = 10 ∧
      s.currentPriority 1 = 1) ∧
    ∃ s, (mutexMachine 3).Run Machine.anyStep
        (start (fun t => if t = 3 then 20 else if t = 1 then 12 else 10) :
          MutexState (Fin 4) Bool Unit)
        [.take 3 true 0, .take 1 false 0, .take 1 true (-1), .take 0 true (-1),
          .take 2 false (-1)] s ∧
      s.suspendThread (.mutex true) = [0, 1] ∧ s.currentPriority 0 = 10 ∧
      s.currentPriority 1 = 10 := by
  have hfirst : ((mutexMachine 3).exec
      (start (fun t => if t = 0 then 10 else if t = 1 then 12 else 1) :
        MutexState (Fin 3) Unit Unit)
      [.take 1 () 0, .block 0 () (-1), .block 1 () (-1), .take 2 () (-1)]).map
      (fun s => (s.suspendThread (.other ()), s.currentPriority 0, s.currentPriority 1)) =
      some ([0, 1], 10, 1) := by decide
  have hsecond : ((mutexMachine 3).exec
      (start (fun t => if t = 3 then 20 else if t = 1 then 12 else 10) :
        MutexState (Fin 4) Bool Unit)
      [.take 3 true 0, .take 1 false 0, .take 1 true (-1), .take 0 true (-1),
        .take 2 false (-1)]).map
      (fun s => (s.suspendThread (.mutex true), s.currentPriority 0, s.currentPriority 1)) =
      some ([0, 1], 10, 10) := by decide
  obtain ⟨s, hs, hvalues⟩ := Option.map_eq_some_iff.mp hfirst
  obtain ⟨s', hs', hvalues'⟩ := Option.map_eq_some_iff.mp hsecond
  simp only [Prod.mk.injEq] at hvalues hvalues'
  exact ⟨⟨s, Machine.Run.of_exec hs (Machine.admitted_anyStep _ _), hvalues⟩,
    ⟨s', Machine.Run.of_exec hs' (Machine.admitted_anyStep _ _), hvalues'⟩⟩

end MutexState

end Gd32Vw553h.Ipc
