/-
  Ipc/Ownership.lean --- who owns a mutex, over all interleavings (`src/ipc.c`).

  Every step keeps `Owned`, and with it the count: a thread's successful takes of a mutex
  less its successful releases are the holds it has.  A mutex that has just been handed
  over is held once although the take has not returned yet.
-/
import Gd32Vw553h.Ipc.Mutex

set_option autoImplicit false

namespace Gd32Vw553h.Ipc

open Gd32Vw553h.Foundation Gd32Vw553h.Klibc

/-! ## Owners, hold counts and taken lists -/

section Holding

variable {τ μ : Type*} [DecidableEq τ] [DecidableEq μ] {owner : μ → Option τ} {hold : μ → Nat}
  {taken : τ → List μ} {t : τ} {m : μ}

/-- A mutex without owner is taken. -/
theorem Holding.acquire (h : Holding owner hold taken) (howner : owner m = none) :
    Holding (Function.update owner m (some t)) (Function.update hold m 1)
      (Function.update taken t (m :: taken t)) where
  free m' := by
    by_cases hm : m' = m
    · subst hm
      rw [Function.update_self, Function.update_self]
      exact iff_of_false (Option.some_ne_none t) Nat.one_ne_zero
    · rw [Function.update_of_ne hm, Function.update_of_ne hm]
      exact h.free m'
  mem u m' := by
    have hold' := h.mem u m'
    by_cases hu : u = t
    · subst hu
      rw [Function.update_self, List.mem_cons]
      by_cases hm : m' = m
      · subst hm
        rw [Function.update_self]
        exact iff_of_true (.inl rfl) rfl
      · rw [Function.update_of_ne hm, or_iff_right hm]
        exact hold'
    · rw [Function.update_of_ne hu]
      by_cases hm : m' = m
      · subst hm
        rw [Function.update_self]
        refine iff_of_false (fun hmem => ?_) fun heq => hu (Option.some.inj heq).symm
        exact Option.some_ne_none u ((hold'.mp hmem).symm.trans howner)
      · rw [Function.update_of_ne hm]
        exact hold'
  nodup u := by
    by_cases hu : u = t
    · subst hu
      rw [Function.update_self]
      refine List.nodup_cons.mpr ⟨fun hmem => ?_, h.nodup u⟩
      exact Option.some_ne_none u (((h.mem u m).mp hmem).symm.trans howner)
    · rw [Function.update_of_ne hu]
      exact h.nodup u

/-- The owner gives a mutex back. -/
theorem Holding.drop (h : Holding owner hold taken) (howner : owner m = some t) :
    Holding (Function.update owner m none) (Function.update hold m 0)
      (Function.update taken t ((taken t).erase m)) where
  free m' := by
    by_cases hm : m' = m
    · subst hm
      rw [Function.update_self, Function.update_self]
      exact iff_of_true rfl rfl
    · rw [Function.update_of_ne hm, Function.update_of_ne hm]
      exact h.free m'
  mem u m' := by
    have hold' := h.mem u m'
    by_cases hm : m' = m
    · subst hm
      rw [Function.update_self]
      refine iff_of_false (fun hmem => ?_) (Option.some_ne_none u).symm
      by_cases hu : u = t
      · subst hu
        rw [Function.update_self] at hmem
        exact (h.nodup u).not_mem_erase hmem
      · rw [Function.update_of_ne hu] at hmem
        exact hu (Option.some.inj ((hold'.mp hmem).symm.trans howner))
    · rw [Function.update_of_ne hm]
      by_cases hu : u = t
      · subst hu
        rw [Function.update_self]
        exact (List.mem_erase_of_ne hm).trans hold'
      · rw [Function.update_of_ne hu]
        exact hold'
  nodup u := by
    by_cases hu : u = t
    · subst hu
      rw [Function.update_self]
      exact (h.nodup u).erase m
    · rw [Function.update_of_ne hu]
      exact h.nodup u

omit [DecidableEq τ] in
/-- The owner counts its holds. -/
theorem Holding.recount (h : Holding owner hold taken) (howner : owner m ≠ none) {n : Nat}
    (hn : n ≠ 0) : Holding owner (Function.update hold m n) taken where
  free m' := by
    by_cases hm : m' = m
    · subst hm
      rw [Function.update_self]
      exact iff_of_false howner hn
    · rw [Function.update_of_ne hm]
      exact h.free m'
  mem := h.mem
  nodup := h.nodup

omit [DecidableEq τ] [DecidableEq μ] in
/-- The hold that is released last. -/
theorem Holding.hold_eq (h : Holding owner hold taken) (howner : owner m = some t)
    (hhold : hold m - 1 = 0) : hold m = 1 := by
  have hne := mt (h.free m).mpr fun hnone => Option.some_ne_none t (howner.symm.trans hnone)
  omega

/-- The owner gives a mutex to another thread. -/
theorem Holding.pass (h : Holding owner hold taken) (howner : owner m = some t) {next : τ} :
    Holding (Function.update owner m (some next)) (Function.update hold m 1)
      (Function.update (Function.update taken t ((taken t).erase m)) next
        (m :: Function.update taken t ((taken t).erase m) next)) := by
  have hpassed := (h.drop howner).acquire (t := next) (Function.update_self m none owner)
  rw [Function.update_idem, Function.update_idem] at hpassed
  exact hpassed

end Holding

/-! ## Every step keeps `Owned` -/

section Keep

variable {τ μ κ : Type*} {s s' : MutexState τ μ κ} {t u : τ} {m : μ}

namespace MutexState

/-- The other fields may change. -/
theorem Owned.others (h : s.Owned) (current : τ → Nat) (error : τ → Int)
    (priority ceiling : μ → Nat) (history : List (MutexEvent τ μ)) (arrivals : Nat)
    (arrival : τ → Nat) :
    Owned { s with
      currentPriority := current
      error := error
      priority := priority
      ceilingPriority := ceiling
      history := history
      arrivals := arrivals
      arrival := arrival } :=
  ⟨⟨h.sound.nodup, h.sound.single, h.sound.suspended⟩, h.live, h.holding, h.waits, h.place,
    h.pending, h.taking, h.waiter, h.held⟩

/-- Mutexes change hands. -/
theorem Owned.rehold (h : s.Owned) {owner : μ → Option τ} {hold : μ → Nat} {taken : τ → List μ}
    (hholding : Holding owner hold taken)
    (hpending : ∀ u m, s.pendingObject u = some m → owner m ≠ some u)
    (htaking : ∀ u m, s.call u = some (.taking m) → s.owner m = some u → owner m = some u)
    (hheld : ∀ m, s.suspendThread (.mutex m) ≠ [] → owner m ≠ none) :
    Owned { s with owner := owner, hold := hold, takenObjectList := taken } :=
  ⟨h.sound, h.live, hholding, h.waits, h.place,
    fun u m hm => ⟨(h.pending u m hm).1, hpending u m hm⟩,
    fun u m hm => (h.taking u m hm).imp id (htaking u m hm), h.waiter, hheld⟩

/-- A running thread is not in `_rt_mutex_take`. -/
theorem Running.call_ne (hrun : s.Running t) : s.call t ≠ some (.taking m) := fun heq =>
  Option.some_ne_none _ (heq.symm.trans hrun.1)

/-- A thread that has just been given the mutex has no pending object. -/
theorem Owned.pending_of_owner (h : s.Owned) (hcall : s.call t = some (.taking m))
    (howner : s.owner m = some t) (m' : μ) : s.pendingObject t ≠ some m' := by
  intro hpending
  obtain ⟨hpoint, hne⟩ := h.pending t m' hpending
  rcases hpoint with hpoint | hpoint | hpoint
  · obtain rfl : m = m' := MutexCall.taking.inj (Option.some.inj (hcall.symm.trans hpoint))
    exact hne howner
  · cases hcall.symm.trans hpoint
  · cases hcall.symm.trans hpoint

theorem owned_start (priority : τ → Nat) : (start priority : MutexState τ μ κ).Owned where
  sound := ⟨fun _ => List.nodup_nil, fun _ _ _ h => absurd h List.not_mem_nil,
    fun _ _ h => absurd h List.not_mem_nil⟩
  live _ h := absurd h Bool.false_ne_true
  holding := ⟨fun _ => iff_of_true rfl rfl,
    fun _ _ => iff_of_false List.not_mem_nil (Option.some_ne_none _).symm,
    fun _ => List.nodup_nil⟩
  waits _ h := absurd h Bool.false_ne_true
  place _ _ h := absurd h List.not_mem_nil
  pending _ m h := absurd h.symm (Option.some_ne_none m)
  taking _ _ h := absurd h.symm (Option.some_ne_none _)
  waiter _ _ h := absurd h List.not_mem_nil
  held _ h := absurd rfl h

variable [DecidableEq τ]

/-- A thread is made ready. -/
theorem Owned.wake (h : s.Owned) {susp : SuspState τ (WaitList μ κ)}
    (hresumed : s.toSuspState.Resumed susp t) : Owned { s with toSuspState := susp } where
  sound := hresumed.sound h.sound
  live := hresumed.live h.live
  holding := h.holding
  waits u hu := by
    obtain ⟨hne, hsusp⟩ := hresumed.suspended_of_true hu
    obtain ⟨l, hl⟩ := h.waits u hsusp
    exact ⟨l, (hresumed.mem h.sound).mpr ⟨hne, hl⟩⟩
  place l u hu := h.place l u ((hresumed.mem h.sound).mp hu).2
  pending := h.pending
  taking := h.taking
  waiter u m hu := h.waiter u m ((hresumed.mem h.sound).mp hu).2
  held m hne := h.held m fun hnil => hne (by
    rw [show susp.suspendThread = fun l => (s.suspendThread l).erase t from hresumed.lists]
    dsimp only
    rw [hnil, List.erase_nil])

/-- A thread that waits nowhere goes on to another point. -/
theorem Owned.move (h : s.Owned) (hout : ∀ l, t ∉ s.suspendThread l)
    {c : Option (MutexCall μ κ)} {o : Option μ}
    (hpending : ∀ m, o = some m →
      (c = some .leaving ∨ c = some .closed) ∧ s.owner m ≠ some t)
    (hpoint : ∀ m, c ≠ some (.taking m)) :
    Owned { s with
      pendingObject := Function.update s.pendingObject t o
      call := Function.update s.call t c } where
  sound := h.sound
  live := h.live
  holding := h.holding
  waits := h.waits
  place l u hu := by
    have hne : u ≠ t := by
      rintro rfl
      exact hout l hu
    exact (Function.update_of_ne hne c s.call).trans (h.place l u hu)
  pending u m hm := by
    dsimp only at hm ⊢
    by_cases hu : u = t
    · subst hu
      rw [Function.update_self] at hm ⊢
      exact ⟨.inr (hpending m hm).1, (hpending m hm).2⟩
    · rw [Function.update_of_ne hu] at hm ⊢
      exact h.pending u m hm
  taking u m hm := by
    dsimp only at hm ⊢
    by_cases hu : u = t
    · subst hu
      rw [Function.update_self] at hm
      exact absurd hm (hpoint m)
    · rw [Function.update_of_ne hu] at hm ⊢
      exact h.taking u m hm
  waiter u m hu := by
    have hne : u ≠ t := by
      rintro rfl
      exact hout _ hu
    exact (Function.update_of_ne hne o s.pendingObject).trans (h.waiter u m hu)
  held := h.held

/-- The pending object stays. -/
theorem Owned.setCall (h : s.Owned) (hout : ∀ l, t ∉ s.suspendThread l)
    {c : Option (MutexCall μ κ)}
    (hpending : ∀ m, s.pendingObject t = some m →
      (c = some .leaving ∨ c = some .closed) ∧ s.owner m ≠ some t)
    (hpoint : ∀ m, c ≠ some (.taking m)) : Owned (s.setCall t c) := by
  have hmove := h.move hout hpending hpoint
  rw [Function.update_eq_self] at hmove
  exact hmove

omit [DecidableEq τ] in
/-- A running thread waits nowhere. -/
theorem Owned.not_mem (h : s.Owned) (hrun : s.suspended t = false) (l : WaitList μ κ) :
    t ∉ s.suspendThread l := fun hmem =>
  Bool.false_ne_true (hrun.symm.trans (h.sound.suspended l t hmem))

/-- A take that fails leaves. -/
theorem Owned.leaving (h : s.Owned) (hrun : s.suspended t = false) :
    Owned (s.setCall t (some .leaving)) :=
  h.setCall (h.not_mem hrun) (fun m' hm' => ⟨.inl rfl, (h.pending t m' hm').2⟩) (by simp)

variable [DecidableEq μ] [DecidableEq κ]

/-- A running thread suspends itself, on a mutex only if another thread owns it. -/
theorem Owned.suspend (h : s.Owned) (hrun : s.Running t) {l : WaitList μ κ}
    {susp : SuspState τ (WaitList μ κ)} (hsusp : s.toSuspState.Suspended susp t l .prio)
    (howned : ∀ m, l.object = some m → s.owner m ≠ none ∧ s.owner m ≠ some t) :
    Owned { s with
      toSuspState := susp
      pendingObject := Function.update s.pendingObject t l.object
      call := Function.update s.call t (some l.point) } where
  sound := hsusp.sound h.sound hrun.2
  live := hsusp.live h.live
  holding := h.holding
  waits u hu := by
    by_cases heq : u = t
    · exact ⟨l, hsusp.mem.mpr (.inr ⟨heq, rfl⟩)⟩
    · obtain ⟨l', hl'⟩ := h.waits u ((hsusp.suspended_of_ne heq).symm.trans hu)
      exact ⟨l', hsusp.mem.mpr (.inl hl')⟩
  place l' u hu := by
    dsimp only
    rcases hsusp.mem.mp hu with hmem | ⟨rfl, rfl⟩
    · have hne : u ≠ t := by
        rintro rfl
        exact h.not_mem hrun.2 l' hmem
      rw [Function.update_of_ne hne]
      exact h.place l' u hmem
    · exact Function.update_self _ _ _
  pending u m hm := by
    dsimp only at hm ⊢
    by_cases hu : u = t
    · subst hu
      rw [Function.update_self] at hm ⊢
      cases l with
      | mutex m' =>
        obtain rfl := Option.some.inj hm
        exact ⟨.inl rfl, (howned m' rfl).2⟩
      | other k => exact absurd hm.symm (Option.some_ne_none m)
    · rw [Function.update_of_ne hu] at hm ⊢
      exact h.pending u m hm
  taking u m hm := by
    dsimp only at hm ⊢
    by_cases hu : u = t
    · subst hu
      rw [Function.update_self] at hm ⊢
      cases l with
      | mutex m' =>
        obtain rfl := MutexCall.taking.inj (Option.some.inj hm)
        exact .inl rfl
      | other k => cases hm
    · rw [Function.update_of_ne hu] at hm ⊢
      exact h.taking u m hm
  waiter u m hu := by
    dsimp only
    rcases hsusp.mem.mp hu with hmem | ⟨rfl, rfl⟩
    · have hne : u ≠ t := by
        rintro rfl
        exact h.not_mem hrun.2 _ hmem
      rw [Function.update_of_ne hne]
      exact h.waiter u m hmem
    · exact Function.update_self _ _ _
  held m hne := by
    by_cases hl : WaitList.mutex m = l
    · subst hl
      exact (howned m rfl).1
    · exact h.held m fun hnil => hne ((hsusp.list_of_ne hl).trans hnil)

/-! ### The steps -/

variable {depth : Nat}

omit [DecidableEq μ] [DecidableEq κ] in
/-- `_check_and_update_prio` can change the priority of the thread. -/
theorem checkAndUpdatePrio_eq (s : MutexState τ μ κ) (t : τ) (m : μ) :
    ∃ p, s.checkAndUpdatePrio t m = s.changePriority t p := by
  unfold checkAndUpdatePrio
  split
  · exact ⟨_, rfl⟩
  · refine ⟨s.currentPriority t, ?_⟩
    unfold changePriority
    rw [Function.update_eq_self]

/-- `suspendOn` is a suspension. -/
theorem Owned.suspendOn (h : s.Owned) (hrun : s.Running t) (howner : s.owner m ≠ none)
    (hself : s.owner m ≠ some t) : Owned (s.suspendOn t m) := by
  have hsusp := h.suspend hrun
    (SuspState.rtThreadSuspendToList_suspended s.toSuspState t (.mutex m) .prio) fun m' hm' => by
      obtain rfl := Option.some.inj hm'
      exact ⟨howner, hself⟩
  exact hsusp.others _ _ _ _ _ _ _

/-- The thread clears its error number first. -/
theorem Owned.suspendOn_error (h : s.Owned) {o : τ} (hrun : s.Running t)
    (howner : s.owner m = some o) (hne : o ≠ t) :
    Owned (MutexState.suspendOn { s with error := Function.update s.error t 0 } t m) := by
  have herror := h.others s.currentPriority (Function.update s.error t 0) s.priority
    s.ceilingPriority s.history s.arrivals s.arrival
  refine herror.suspendOn (t := t) (m := m) hrun (fun hnone => ?_) fun heq => hne ?_
  · exact Option.some_ne_none o (howner.symm.trans hnone)
  · exact Option.some.inj (howner.symm.trans heq)

omit [DecidableEq κ] in
/-- What the last release of a mutex leaves: the first waiter has it, or it is free. -/
theorem Owned.releaseLast_cases (h : s.Owned) (howner : s.owner m = some t) {mid : MutexState τ μ κ}
    (hmid : mid = MutexState.checkAndUpdatePrio { s with
      hold := Function.update s.hold m (s.hold m - 1)
      takenObjectList :=
        Function.update s.takenObjectList t ((s.takenObjectList t).erase m) } t m) :
    (s.suspendThread (.mutex m) = [] ∧ mid.handOver m = { mid with
      owner := Function.update s.owner m none
      priority := Function.update s.priority m noPriority }) ∨
    ∃ next rest susp, s.suspendThread (.mutex m) = next :: rest ∧ next ≠ t ∧
      mid.toSuspState.Resumed susp next ∧ susp.error = s.error ∧
      mid.handOver m = mutexUpdatePriority { mid with
        toSuspState := susp
        owner := Function.update s.owner m (some next)
        hold := Function.update s.hold m 1
        takenObjectList := Function.update mid.takenObjectList next
          (m :: mid.takenObjectList next)
        pendingObject := Function.update s.pendingObject next none } m := by
  obtain ⟨p, heq⟩ := checkAndUpdatePrio_eq { s with
    hold := Function.update s.hold m (s.hold m - 1)
    takenObjectList := Function.update s.takenObjectList t ((s.takenObjectList t).erase m) } t m
  rw [heq] at hmid
  subst hmid
  cases hlist : s.suspendThread (.mutex m) with
  | nil => exact .inl ⟨rfl, handOver_nil hlist⟩
  | cons next rest =>
    have hmem : next ∈ s.suspendThread (.mutex m) := by
      rw [hlist]
      exact List.mem_cons_self
    have hne : next ≠ t := by
      rintro rfl
      exact h.not_owner hmem howner
    refine .inr ⟨next, rest, ?_⟩
    obtain ⟨susp, hresumed, herror, hover⟩ := handOver_cons
      (s := { s with
        currentPriority := Function.update s.currentPriority t p
        hold := Function.update s.hold m (s.hold m - 1)
        takenObjectList :=
          Function.update s.takenObjectList t ((s.takenObjectList t).erase m) })
      ⟨h.sound.nodup, h.sound.single, h.sound.suspended⟩ h.live hlist
    dsimp only at hover
    rw [Function.update_idem] at hover
    exact ⟨susp, rfl, hne, hresumed, herror, hover⟩

omit [DecidableEq κ] in
/-- The owner gives the mutex to a waiter that has been made ready. -/
theorem Owned.give (h : s.Owned) {next : τ} (howner : s.owner m = some t)
    (hcall : s.call t ≠ some (.taking m)) (hnext : s.call next = some (.taking m))
    (hout : ∀ l, next ∉ s.suspendThread l) :
    Owned { s with
      owner := Function.update s.owner m (some next)
      hold := Function.update s.hold m 1
      takenObjectList := Function.update
        (Function.update s.takenObjectList t ((s.takenObjectList t).erase m)) next
        (m :: Function.update s.takenObjectList t ((s.takenObjectList t).erase m) next)
      pendingObject := Function.update s.pendingObject next none } where
  sound := h.sound
  live := h.live
  holding := h.holding.pass howner
  waits := h.waits
  place := h.place
  pending u m' hm' := by
    dsimp only at hm' ⊢
    have hne : u ≠ next := by
      rintro rfl
      rw [Function.update_self] at hm'
      exact Option.some_ne_none m' hm'.symm
    rw [Function.update_of_ne hne] at hm'
    refine ⟨(h.pending u m' hm').1, ?_⟩
    by_cases hm : m' = m
    · rw [hm, Function.update_self]
      exact fun heq => hne (Option.some.inj heq).symm
    · rw [Function.update_of_ne hm]
      exact (h.pending u m' hm').2
  taking u m' hm' := by
    dsimp only
    by_cases hm : m' = m
    · subst hm
      rw [Function.update_self]
      by_cases hu : u = next
      · exact .inr (by rw [hu])
      · left
        rw [Function.update_of_ne hu]
        refine (h.taking u m' hm').resolve_right fun heq => hcall ?_
        obtain rfl := Option.some.inj (howner.symm.trans heq)
        exact hm'
    · have hu : u ≠ next := by
        rintro rfl
        exact hm (MutexCall.taking.inj (Option.some.inj (hm'.symm.trans hnext)))
      rw [Function.update_of_ne hm, Function.update_of_ne hu]
      exact h.taking u m' hm'
  waiter u m' hu := by
    have hne : u ≠ next := by
      rintro rfl
      exact hout _ hu
    exact (Function.update_of_ne hne none s.pendingObject).trans (h.waiter u m' hu)
  held m' hne := by
    dsimp only
    by_cases hm : m' = m
    · rw [hm, Function.update_self]
      exact Option.some_ne_none next
    · rw [Function.update_of_ne hm]
      exact h.held m' hne

omit [DecidableEq κ] in
theorem Owned.releaseLast (h : s.Owned) (howner : s.owner m = some t)
    (hcall : s.call t ≠ some (.taking m)) (hhold : s.hold m - 1 = 0) :
    Owned ((MutexState.checkAndUpdatePrio { s with
      hold := Function.update s.hold m (s.hold m - 1)
      takenObjectList :=
        Function.update s.takenObjectList t ((s.takenObjectList t).erase m) } t m).handOver m) := by
  obtain ⟨p, heq⟩ := checkAndUpdatePrio_eq { s with
    hold := Function.update s.hold m (s.hold m - 1)
    takenObjectList := Function.update s.takenObjectList t ((s.takenObjectList t).erase m) } t m
  rcases h.releaseLast_cases howner rfl with
    ⟨hlist, hover⟩ | ⟨next, rest, susp, hlist, hne, hresumed, -, hover⟩
  · rw [hover, heq, hhold]
    have hdrop := h.rehold (h.holding.drop howner) (fun u m' hm' heq' => ?_)
      (fun u m' hu hown => ?_) fun m' hne => ?_
    · exact hdrop.others _ _ _ _ _ _ _
    · by_cases hm : m' = m
      · subst hm
        rw [Function.update_self] at heq'
        exact Option.some_ne_none u heq'.symm
      · rw [Function.update_of_ne hm] at heq'
        exact (h.pending u m' hm').2 heq'
    · have hm : m' ≠ m := by
        rintro rfl
        obtain rfl := Option.some.inj (howner.symm.trans hown)
        exact hcall hu
      rw [Function.update_of_ne hm]
      exact hown
    · have hm : m' ≠ m := by
        rintro rfl
        exact hne hlist
      rw [Function.update_of_ne hm]
      exact h.held m' hne
  · rw [hover, heq]
    rw [heq] at hresumed
    have hsame : s.toSuspState.Resumed { susp with currentPriority := s.currentPriority } next :=
      ⟨hresumed.lists, hresumed.suspended, rfl, hresumed.live⟩
    have hwake := h.wake hsame
    have hnext : s.call next = some (.taking m) := h.place (.mutex m) next (by
      rw [hlist]
      exact List.mem_cons_self)
    exact (hwake.give howner hcall hnext (hwake.not_mem hresumed.suspended_self)).others
      _ _ _ _ _ _ _

/-- A ceiling changes, and then priorities. -/
theorem Owned.setprioceiling (h : s.Owned) {p : Nat}
    (hceiling : s.rtMutexSetprioceiling depth m p = some s') :
    ∃ ceiling, Owned { s with ceilingPriority := ceiling } ∧
      MutexState.Reprioritised { s with ceilingPriority := ceiling } s' := by
  rcases setprioceiling_cases hceiling with rfl | ⟨-, ⟨-, rfl⟩ | ⟨owner, -, hupdate⟩⟩
  · exact ⟨_, h, .refl _⟩
  · exact ⟨_, h.others _ _ _ _ _ _ _, .refl _⟩
  · have hset := h.others s.currentPriority s.error s.priority
      (Function.update s.ceilingPriority m p) s.history s.arrivals s.arrival
    exact ⟨_, hset, hset.updateOwner hupdate⟩

/-- Every step keeps `Owned`. -/
theorem Owned.effect {a : MutexStep τ μ κ} (h : s.Owned) (heffect : MutexEffect depth s a s') :
    s'.Owned := by
  cases heffect with
  | @takeFree t m _ hrun howner =>
    have htake := h.rehold (h.holding.acquire (t := t) howner) (fun u m' hm' heq => ?_)
      (fun u m' _ hown => ?_) fun m' hne => ?_
    · exact htake.others _ _ _ _ _ _ _
    · by_cases hm : m' = m
      · subst hm
        rw [Function.update_self] at heq
        obtain rfl := Option.some.inj heq
        exact Option.some_ne_none m' (hm'.symm.trans (h.running hrun).1)
      · rw [Function.update_of_ne hm] at heq
        exact (h.pending u m' hm').2 heq
    · have hm : m' ≠ m := by
        rintro rfl
        exact Option.some_ne_none u (hown.symm.trans howner)
      rw [Function.update_of_ne hm]
      exact hown
    · by_cases hm : m' = m
      · subst hm
        rw [Function.update_self]
        exact Option.some_ne_none t
      · rw [Function.update_of_ne hm]
        exact h.held m' hne
  | @takeAgain t m _ _ howner _ =>
    have hagain := h.rehold (h.holding.recount (m := m)
      (fun hnone => Option.some_ne_none t (howner.symm.trans hnone)) (Nat.succ_ne_zero (s.hold m)))
      (fun u m' hm' => (h.pending u m' hm').2) (fun _ _ _ => id) h.held
    exact hagain.others _ _ _ _ _ _ _
  | takeFailed => exact h.others _ _ _ _ _ _ _
  | @wait t m timeout owner lent hrun howner hne hlend =>
    have hsusp := h.suspendOn_error hrun howner hne
    have hlent := hsusp.reprioritised (hsusp.lend hlend)
    obtain ⟨set, active, heq, hlive⟩ := lent.toSuspState.startTimer_eq t timeout
    have hlive := hlive hlent.live
    rw [heq] at hlive ⊢
    exact ⟨⟨hlent.sound.nodup, hlent.sound.single, hlent.sound.suspended⟩, hlive,
      hlent.holding, hlent.waits, hlent.place, hlent.pending, hlent.taking, hlent.waiter, hlent.held⟩
  | handed hcall hsusp howner =>
    have hmove := h.setCall (c := none) (h.not_mem hsusp)
      (fun m' hm' => absurd hm' (h.pending_of_owner hcall howner m')) (by simp)
    exact hmove.others _ _ _ _ _ _ _
  | failed hcall hsusp howner _ hleft =>
    have hmove := h.leaving hsusp
    exact (hmove.reprioritised (hmove.waiterLeft hleft)).others _ _ _ _ _ _ _
  | leave hcall =>
    refine h.move (fun l hl => ?_) (fun m' hm' => absurd hm'.symm (Option.some_ne_none m'))
      (by simp)
    have hpoint := hcall.symm.trans (h.place l _ hl)
    cases l with
    | mutex m => cases hpoint
    | other k => cases hpoint
  | @releaseOne t m _ howner hhold =>
    have hone := h.rehold (h.holding.recount
      (fun hnone => Option.some_ne_none t (howner.symm.trans hnone)) hhold)
      (fun u m' hm' => (h.pending u m' hm').2) (fun _ _ _ => id) h.held
    exact hone.others _ _ _ _ _ _ _
  | releaseLast hrun howner hhold =>
    exact (h.releaseLast howner hrun.call_ne hhold).others _ _ _ _ _ _ _
  | releaseFailed => exact h.others _ _ _ _ _ _ _
  | ceiling hceiling =>
    obtain ⟨ceiling, hset, hrepri⟩ := h.setprioceiling hceiling
    exact hset.reprioritised hrepri
  | @block t k _ _ hrun hsusp =>
    have hblock := h.suspend hrun hsusp fun m' hm' => absurd hm'.symm (Option.some_ne_none m')
    have hpending : Function.update s.pendingObject t (WaitList.other k : WaitList μ κ).object =
        s.pendingObject := by
      rw [show (WaitList.other k : WaitList μ κ).object = s.pendingObject t from
        (h.running hrun).1.symm, Function.update_eq_self]
    rw [hpending] at hblock
    exact hblock.others _ _ _ _ _ _ _
  | unblock hcall hsusp =>
    refine h.setCall (h.not_mem hsusp) (fun m' hm' => ?_) (by simp)
    rcases (h.pending _ m' hm').1 with hpoint | hpoint | hpoint
    · cases hcall.symm.trans hpoint
    · cases hcall.symm.trans hpoint
    · cases hcall.symm.trans hpoint
  | wake _ hresumed => exact h.wake hresumed
  | same => exact h

theorem owned_of_run {priority : τ → Nat} {actions : List (MutexStep τ μ κ)}
    (run : (mutexMachine depth).Run Machine.anyStep (start priority) actions s) : s.Owned :=
  run.invariant (fun _ _ _ _ hstep h => h.effect (effect_of_step h hstep)) (owned_start priority)

/-! ## Takes and releases -/

/-- The mutex has been handed to a thread whose take has not returned yet. -/
def handed (s : MutexState τ μ κ) (t : τ) (m : μ) : Nat :=
  if s.owner m = some t ∧ s.call t = some (.taking m) then 1 else 0

/-- The holds of a thread. -/
def holds (s : MutexState τ μ κ) (t : τ) (m : μ) : Nat :=
  if s.owner m = some t then s.hold m else 0

/-- A thread's takes are its releases and the holds it has. -/
def Counted (s : MutexState τ μ κ) : Prop :=
  ∀ t m, s.history.count (.taken t m) + s.handed t m =
    s.history.count (.released t m) + s.holds t m

theorem handed_of_owner (howner : s.owner m ≠ some t) : s.handed t m = 0 :=
  if_neg fun h => howner h.1

theorem handed_of_call (hcall : s.call t ≠ some (.taking m)) : s.handed t m = 0 :=
  if_neg fun h => hcall h.2

omit [DecidableEq μ] [DecidableEq κ] in
theorem holds_self (howner : s.owner m = some t) : s.holds t m = s.hold m :=
  if_pos howner

omit [DecidableEq μ] [DecidableEq κ] in
theorem holds_of_owner (howner : s.owner m ≠ some t) : s.holds t m = 0 :=
  if_neg howner

/-- Nothing is taken or released, and owners stay in their calls. -/
theorem Counted.keep (h : s.Counted) (howner : s'.owner = s.owner) (hhold : s'.hold = s.hold)
    (htaken : ∀ u m, s'.history.count (.taken u m) = s.history.count (.taken u m))
    (hreleased : ∀ u m, s'.history.count (.released u m) = s.history.count (.released u m))
    (hcall : ∀ u m, s.owner m = some u →
      (s'.call u = some (.taking m) ↔ s.call u = some (.taking m))) : s'.Counted := by
  intro u m
  have hhanded : s'.handed u m = s.handed u m := by
    unfold handed
    rw [howner]
    exact if_congr (and_congr_right (hcall u m)) rfl rfl
  have hholds : s'.holds u m = s.holds u m := by
    unfold holds
    rw [howner, hhold]
  rw [htaken, hreleased, hhanded, hholds]
  exact h u m

omit [DecidableEq κ] in
theorem count_append (history : List (MutexEvent τ μ)) (event e : MutexEvent τ μ) :
    (history ++ [event]).count e = history.count e + if event = e then 1 else 0 := by
  rw [List.count_append, List.count_singleton]
  simp only [beq_iff_eq]

theorem Counted.reprioritised (h : s.Counted) (hrepri : s.Reprioritised s') : s'.Counted := by
  obtain ⟨_, _, _, _, _, rfl, -⟩ := hrepri
  exact h.keep rfl rfl (fun _ _ => rfl) (fun _ _ => rfl) fun _ _ _ => Iff.rfl

/-- A failure is recorded. -/
theorem Counted.failure (h : s.Counted) {event : MutexEvent τ μ} (error : τ → Int)
    (hevent : ∀ u m, event ≠ .taken u m ∧ event ≠ .released u m) :
    Counted (MutexState.record { s with error := error } event) := by
  refine h.keep rfl rfl (fun u m => ?_) (fun u m => ?_) fun u m _ => Iff.rfl
  · simp only [record, count_append, if_neg (hevent u m).1, Nat.add_zero]
  · simp only [record, count_append, if_neg (hevent u m).2, Nat.add_zero]

/-- A thread goes on, but not to or from the take of a mutex that it owns. -/
theorem Counted.move (h : s.Counted) {c : Option (MutexCall μ κ)}
    (hpoint : ∀ m, s.owner m = some t →
      c ≠ some (.taking m) ∧ s.call t ≠ some (.taking m)) : (s.setCall t c).Counted := by
  refine h.keep rfl rfl (fun _ _ => rfl) (fun _ _ => rfl) fun u m hu => ?_
  show Function.update s.call t c u = _ ↔ _
  by_cases hut : u = t
  · subst hut
    rw [Function.update_self]
    exact iff_of_false (hpoint m hu).1 (hpoint m hu).2
  · rw [Function.update_of_ne hut]

/-- One mutex is taken or released; the balances of the others stay. -/
theorem Counted.change (h : s.Counted) {event : MutexEvent τ μ}
    (hevent : event = .taken t m ∨ event = .released t m)
    (hhistory : s'.history = s.history ++ [event])
    (howner : ∀ m', m' ≠ m → s'.owner m' = s.owner m')
    (hhold : ∀ m', m' ≠ m → s'.hold m' = s.hold m')
    (hcall : ∀ u m', m' ≠ m →
      (s'.call u = some (.taking m') ↔ s.call u = some (.taking m')))
    (hself : ∀ u, s'.history.count (.taken u m) + s'.handed u m =
      s'.history.count (.released u m) + s'.holds u m) : s'.Counted := by
  intro u m'
  by_cases hm : m' = m
  · rw [hm]
    exact hself u
  · have hhanded : s'.handed u m' = s.handed u m' := by
      unfold handed
      rw [howner m' hm]
      exact if_congr (and_congr_right fun _ => hcall u m' hm) rfl rfl
    have hholds : s'.holds u m' = s.holds u m' := by
      unfold holds
      rw [howner m' hm, hhold m' hm]
    have hother : event ≠ .taken u m' ∧ event ≠ .released u m' := by
      rcases hevent with rfl | rfl
      · exact ⟨fun heq => hm (MutexEvent.taken.inj heq).2.symm, by simp⟩
      · exact ⟨by simp, fun heq => hm (MutexEvent.released.inj heq).2.symm⟩
    rw [hhistory, count_append, count_append, if_neg hother.1, if_neg hother.2, hhanded, hholds]
    exact h u m'

theorem balance_of_owner (howner : s.owner m = some t) (hcall : s.call t ≠ some (.taking m))
    (hcount : s.history.count (.taken t m) = s.history.count (.released t m) + s.hold m) :
    s.history.count (.taken t m) + s.handed t m =
      s.history.count (.released t m) + s.holds t m := by
  rw [handed_of_call hcall, holds_self howner]
  exact hcount

theorem balance_of_handed (howner : s.owner m = some t) (hcall : s.call t = some (.taking m))
    (hcount : s.history.count (.taken t m) + 1 = s.history.count (.released t m) + s.hold m) :
    s.history.count (.taken t m) + s.handed t m =
      s.history.count (.released t m) + s.holds t m := by
  rw [show s.handed t m = 1 from if_pos ⟨howner, hcall⟩, holds_self howner]
  exact hcount

theorem balance_of_not_owner (howner : s.owner m ≠ some t)
    (hcount : s.history.count (.taken t m) = s.history.count (.released t m)) :
    s.history.count (.taken t m) + s.handed t m =
      s.history.count (.released t m) + s.holds t m := by
  rw [handed_of_owner howner, holds_of_owner howner]
  exact hcount

/-- A thread that neither owns the mutex nor takes part has as many takes as releases. -/
theorem Counted.balanced (h : s.Counted) (howner : s.owner m ≠ some t) :
    s.history.count (.taken t m) = s.history.count (.released t m) := by
  have hbalance := h t m
  rw [handed_of_owner howner, holds_of_owner howner] at hbalance
  exact hbalance

/-- The owner outside `_rt_mutex_take` has taken the mutex once more for each hold. -/
theorem Counted.owner (h : s.Counted) (howner : s.owner m = some t)
    (hcall : s.call t ≠ some (.taking m)) :
    s.history.count (.taken t m) = s.history.count (.released t m) + s.hold m := by
  have hbalance := h t m
  rw [handed_of_call hcall, holds_self howner] at hbalance
  exact hbalance

/-- A thread that neither owns the mutex nor takes part, after a step. -/
theorem Counted.other (h : s.Counted) {event : MutexEvent τ μ}
    (hevent : event = .taken t m ∨ event = .released t m) (hu : u ≠ t)
    (hhistory : s'.history = s.history ++ [event]) (hbefore : s.owner m ≠ some u)
    (hafter : s'.owner m ≠ some u) :
    s'.history.count (.taken u m) + s'.handed u m =
      s'.history.count (.released u m) + s'.holds u m := by
  have hother : event ≠ .taken u m ∧ event ≠ .released u m := by
    rcases hevent with rfl | rfl
    · exact ⟨fun heq => hu (MutexEvent.taken.inj heq).1.symm, by simp⟩
    · exact ⟨by simp, fun heq => hu (MutexEvent.released.inj heq).1.symm⟩
  refine balance_of_not_owner hafter ?_
  rw [hhistory, count_append, count_append, if_neg hother.1, if_neg hother.2,
    h.balanced hbefore]

theorem Counted.takeFree (h : s.Counted) (hrun : s.Running t) (howner : s.owner m = none) :
    Counted (MutexState.record { s with
      error := Function.update s.error t 0
      owner := Function.update s.owner m (some t)
      priority := Function.update s.priority m noPriority
      hold := Function.update s.hold m 1
      currentPriority := s.raised t m
      takenObjectList := Function.update s.takenObjectList t (m :: s.takenObjectList t) }
      (.taken t m)) := by
  have hnone : ∀ u, s.owner m ≠ some u := fun u heq =>
    Option.some_ne_none u (heq.symm.trans howner)
  refine h.change (.inl rfl) rfl (fun m' hm => Function.update_of_ne hm _ _)
    (fun m' hm => Function.update_of_ne hm _ _) (fun u m' _ => Iff.rfl) fun u => ?_
  by_cases hu : u = t
  · subst hu
    have hnow : Function.update s.owner m (some u) m = some u :=
      Function.update_self m (some u) s.owner
    refine balance_of_owner hnow hrun.call_ne ?_
    simp only [record, count_append, Function.update_self, if_true, reduceCtorEq, if_false,
      h.balanced (hnone u), Nat.add_zero]
  · refine h.other (.inl rfl) hu rfl (hnone u) ?_
    show Function.update s.owner m (some t) m ≠ some u
    rw [Function.update_self]
    exact fun heq => hu (Option.some.inj heq).symm

theorem Counted.takeAgain (h : s.Counted) (hrun : s.Running t) (howner : s.owner m = some t) :
    Counted (MutexState.record { s with
      error := Function.update s.error t 0
      hold := Function.update s.hold m (s.hold m + 1) } (.taken t m)) := by
  refine h.change (.inl rfl) rfl (fun m' _ => rfl) (fun m' hm => Function.update_of_ne hm _ _)
    (fun u m' _ => Iff.rfl) fun u => ?_
  by_cases hu : u = t
  · subst hu
    refine balance_of_owner howner hrun.call_ne ?_
    simp only [record, count_append, Function.update_self, if_true, reduceCtorEq, if_false,
      h.owner howner hrun.call_ne, Nat.add_zero, Nat.add_assoc]
  · have hne : s.owner m ≠ some u := fun heq =>
      hu (Option.some.inj (howner.symm.trans heq)).symm
    exact h.other (.inl rfl) hu rfl hne hne

theorem Counted.handed (h : s.Counted) (hcall : s.call t = some (.taking m))
    (howner : s.owner m = some t) : Counted ((s.setCall t none).record (.taken t m)) := by
  refine h.change (.inl rfl) rfl (fun m' _ => rfl) (fun m' _ => rfl) (fun u m' hm => ?_) fun u => ?_
  · show Function.update s.call t none u = _ ↔ _
    by_cases hu : u = t
    · subst hu
      rw [Function.update_self, hcall]
      refine iff_of_false (Option.some_ne_none _).symm fun heq => hm ?_
      exact (MutexCall.taking.inj (Option.some.inj heq)).symm
    · rw [Function.update_of_ne hu]
  · by_cases hu : u = t
    · subst hu
      have hbalance := h u m
      rw [show s.handed u m = 1 from if_pos ⟨howner, hcall⟩, holds_self howner] at hbalance
      have hnow : Function.update s.call u none u = none := Function.update_self u none s.call
      refine balance_of_owner howner (fun heq => Option.some_ne_none _ (heq.symm.trans hnow)) ?_
      simp only [record, setCall, count_append, if_true, reduceCtorEq, if_false, Nat.add_zero]
      exact hbalance
    · have hne : s.owner m ≠ some u := fun heq =>
        hu (Option.some.inj (howner.symm.trans heq)).symm
      exact h.other (.inl rfl) hu rfl hne hne

theorem Counted.releaseOne (h : s.Counted) (hrun : s.Running t) (howner : s.owner m = some t)
    (hhold : s.hold m - 1 ≠ 0) :
    Counted (MutexState.record
      { s with hold := Function.update s.hold m (s.hold m - 1) } (.released t m)) := by
  refine h.change (.inr rfl) rfl (fun m' _ => rfl) (fun m' hm => Function.update_of_ne hm _ _)
    (fun u m' _ => Iff.rfl) fun u => ?_
  by_cases hu : u = t
  · subst hu
    refine balance_of_owner howner hrun.call_ne ?_
    simp only [record, count_append, Function.update_self, if_true, reduceCtorEq, if_false,
      h.owner howner hrun.call_ne, Nat.add_zero]
    omega
  · have hne : s.owner m ≠ some u := fun heq =>
      hu (Option.some.inj (howner.symm.trans heq)).symm
    exact h.other (.inr rfl) hu rfl hne hne

theorem Counted.releaseLast (h : s.Counted) (hs : s.Owned) (hrun : s.Running t)
    (howner : s.owner m = some t) (hhold : s.hold m - 1 = 0) :
    Counted (((MutexState.checkAndUpdatePrio { s with
      hold := Function.update s.hold m (s.hold m - 1)
      takenObjectList :=
        Function.update s.takenObjectList t ((s.takenObjectList t).erase m) } t m).handOver
      m).record (.released t m)) := by
  obtain ⟨p, heq⟩ := checkAndUpdatePrio_eq { s with
    hold := Function.update s.hold m (s.hold m - 1)
    takenObjectList := Function.update s.takenObjectList t ((s.takenObjectList t).erase m) } t m
  have hone : s.hold m = 1 := by
    have hne := mt (hs.holding.free m).mpr fun hnone =>
      Option.some_ne_none t (howner.symm.trans hnone)
    omega
  have hbalance := h.owner howner hrun.call_ne
  rcases hs.releaseLast_cases howner rfl with
    ⟨hlist, hover⟩ | ⟨next, rest, susp, hlist, hne, -, -, hover⟩
  · rw [hover, heq]
    refine h.change (.inr rfl) rfl (fun m' hm => Function.update_of_ne hm _ _)
      (fun m' hm => Function.update_of_ne hm _ _) (fun u m' _ => Iff.rfl) fun u => ?_
    have hafter : ∀ u, Function.update s.owner m none m ≠ some u := fun u => by
      rw [Function.update_self]
      exact (Option.some_ne_none u).symm
    by_cases hu : u = t
    · subst hu
      refine balance_of_not_owner (hafter u) ?_
      simp only [record, changePriority, count_append, if_true, reduceCtorEq, if_false, hbalance,
        hone,
        Nat.add_zero]
    · exact h.other (.inr rfl) hu rfl (fun heq => hu (Option.some.inj (howner.symm.trans heq)).symm)
        (hafter u)
  · rw [hover, heq]
    refine h.change (.inr rfl) rfl (fun m' hm => Function.update_of_ne hm _ _)
      (fun m' hm => ?_) (fun u m' _ => Iff.rfl) fun u => ?_
    · exact Function.update_of_ne hm _ _
    · have hnow : Function.update s.owner m (some next) m = some next :=
        Function.update_self m (some next) s.owner
      by_cases hu : u = t
      · subst hu
        have hafter : Function.update s.owner m (some next) m ≠ some u := by
          rw [hnow]
          exact fun heq => hne (Option.some.inj heq)
        refine balance_of_not_owner hafter ?_
        simp only [record, changePriority, mutexUpdatePriority, count_append, if_true, reduceCtorEq, if_false,
          hbalance, hone, Nat.add_zero]
      · have hbefore : s.owner m ≠ some u := fun heq =>
          hu (Option.some.inj (howner.symm.trans heq)).symm
        by_cases hnext : u = next
        · subst hnext
          have hcall : s.call u = some (.taking m) := hs.place (.mutex m) u (by
            rw [hlist]
            exact List.mem_cons_self)
          refine balance_of_handed hnow hcall ?_
          simp only [record, changePriority, mutexUpdatePriority, count_append, reduceCtorEq, if_false,
            MutexEvent.released.injEq, Ne.symm hu, false_and, Function.update_self, Nat.add_zero,
            h.balanced hbefore]
        · refine h.other (.inr rfl) hu rfl hbefore ?_
          show Function.update s.owner m (some next) m ≠ some u
          rw [hnow]
          exact fun heq => hnext (Option.some.inj heq).symm

/-- Every step keeps the count. -/
theorem Counted.effect {a : MutexStep τ μ κ} (h : s.Counted) (hs : s.Owned)
    (heffect : MutexEffect depth s a s') : s'.Counted := by
  cases heffect with
  | takeFree hrun howner => exact h.takeFree hrun howner
  | takeAgain hrun howner _ => exact h.takeAgain hrun howner
  | takeFailed => exact h.failure _ fun u m => by simp
  | @wait t m timeout owner lent hrun howner hne hlend =>
    have hsusp := hs.suspendOn_error hrun howner hne
    have hmove := h.move (t := t) (c := some (.taking m)) fun m' hm' =>
      ⟨fun heq => ?_, hrun.call_ne⟩
    · have hsuspended : (MutexState.suspendOn
          { s with error := Function.update s.error t 0 } t m).Counted :=
        hmove.keep rfl rfl (fun _ _ => rfl) (fun _ _ => rfl) fun _ _ _ => Iff.rfl
      have hlent := hsuspended.reprioritised (hsusp.lend hlend)
      exact hlent.keep rfl rfl (fun _ _ => rfl) (fun _ _ => rfl) fun _ _ _ => Iff.rfl
    · obtain rfl := MutexCall.taking.inj (Option.some.inj heq)
      exact hne (Option.some.inj (howner.symm.trans hm'))
  | handed hcall _ howner => exact h.handed hcall howner
  | @failed t m result mid hcall hsusp howner _ hleft =>
    have hs' := hs.leaving hsusp
    have hmove := h.move (t := t) (c := some .leaving) fun m' hm' =>
      ⟨by simp, fun heq => ?_⟩
    · exact (hmove.reprioritised (hs'.waiterLeft hleft)).failure _ fun u m => by simp
    · obtain rfl := MutexCall.taking.inj (Option.some.inj (hcall.symm.trans heq))
      exact howner hm'
  | @leave t hcall =>
    have hmove := h.move (t := t) (c := none) fun m _ => ⟨by simp, by simp [hcall]⟩
    exact hmove.keep rfl rfl (fun _ _ => rfl) (fun _ _ => rfl) fun _ _ _ => Iff.rfl
  | releaseOne hrun howner hhold => exact h.releaseOne hrun howner hhold
  | releaseLast hrun howner hhold => exact h.releaseLast hs hrun howner hhold
  | releaseFailed => exact h.failure _ fun u m => by simp
  | ceiling hceiling =>
    obtain ⟨ceiling, -, hrepri⟩ := hs.setprioceiling hceiling
    have hset : Counted { s with ceilingPriority := ceiling } :=
      h.keep rfl rfl (fun _ _ => rfl) (fun _ _ => rfl) fun _ _ _ => Iff.rfl
    exact hset.reprioritised hrepri
  | @block t k _ susp hrun hsusp =>
    have hmove := h.move (t := t) (c := some (.blocked k)) fun m _ =>
      ⟨by simp, hrun.call_ne⟩
    exact hmove.keep rfl rfl (fun _ _ => rfl) (fun _ _ => rfl) fun _ _ _ => Iff.rfl
  | @unblock t k hcall _ => exact h.move fun m _ => ⟨by simp, by simp [hcall]⟩
  | wake => exact h.keep rfl rfl (fun _ _ => rfl) (fun _ _ => rfl) fun _ _ _ => Iff.rfl
  | same => exact h

/-! ## The ownership of mutexes -/

/-- What holds between any two steps. -/
structure Ownership (s : MutexState τ μ κ) : Prop where
  free : ∀ m, s.owner m = none ↔ s.hold m = 0
  taken : ∀ t m, m ∈ s.takenObjectList t ↔ s.owner m = some t
  once : ∀ t, (s.takenObjectList t).Nodup
  counted : s.Counted
  held : ∀ m, s.suspendThread (.mutex m) ≠ [] → s.owner m ≠ none

/-- What a step comes to. -/
structure Outcome (s : MutexState τ μ κ) (a : MutexStep τ μ κ) (s' : MutexState τ μ κ) :
    Prop where
  /-- a take that returns `RT_EOK` returns to the owner -/
  taken : ∀ t m, s'.history = s.history ++ [.taken t m] → s'.owner m = some t
  /-- one that returns an error leaves the owners as they are, and its caller owns the mutex
  only if it has all the holds it can have; it does not wait any more -/
  takeFailed : ∀ t m error, s'.history = s.history ++ [.takeFailed t m error] →
    s'.owner = s.owner ∧ s'.hold = s.hold ∧ s'.takenObjectList = s.takenObjectList ∧
      (s.owner m = some t → error = -rtEFull ∧ ¬ s.hold m < rtMutexHoldMax) ∧
      t ∉ s'.suspendThread (.mutex m)
  /-- a release by another thread fails, and changes only what the call returns -/
  notOwner : ∀ t m, a = .release t m → s.owner m ≠ some t →
    s' = MutexState.record { s with error := Function.update s.error t (-rtError) }
      (.releaseFailed t m)
  /-- the last release hands the mutex to the first waiter, which is made ready -/
  handedOn : ∀ t m, a = .release t m → s.owner m = some t → s.hold m = 1 →
    s'.owner m = (s.suspendThread (.mutex m)).head? ∧
      ∀ next, s'.owner m = some next → s'.hold m = 1 ∧ s'.suspended next = false

/-- What the events say about the owners. -/
def Truthful (s s' : MutexState τ μ κ) : MutexEvent τ μ → Prop
  | .taken t m => s'.owner m = some t
  | .takeFailed t m error =>
    s'.owner = s.owner ∧ s'.hold = s.hold ∧ s'.takenObjectList = s.takenObjectList ∧
      (s.owner m = some t → error = -rtEFull ∧ ¬ s.hold m < rtMutexHoldMax) ∧
      t ∉ s'.suspendThread (.mutex m)
  | .released _ _ => True
  | .releaseFailed _ _ => True

/-- A step records one truthful event, or none. -/
theorem Owned.event (h : s.Owned) {a : MutexStep τ μ κ} (heffect : MutexEffect depth s a s') :
    s'.history = s.history ∨ ∃ event, s'.history = s.history ++ [event] ∧ s.Truthful s' event := by
  cases heffect with
  | @takeFree t m _ _ _ =>
    have hnow : Function.update s.owner m (some t) m = some t :=
      Function.update_self m (some t) s.owner
    exact .inr ⟨_, rfl, hnow⟩
  | takeAgain _ howner _ => exact .inr ⟨_, rfl, howner⟩
  | takeFailed hrun _ hfull => exact .inr ⟨_, rfl, rfl, rfl, rfl, hfull, h.not_mem hrun.2 _⟩
  | @wait t m timeout owner lent hrun howner hne hlend =>
    have hsusp := h.suspendOn_error hrun howner hne
    obtain ⟨_, _, _, _, _, rfl, -⟩ := hsusp.lend hlend
    exact .inl rfl
  | handed _ _ howner => exact .inr ⟨_, rfl, howner⟩
  | @failed t m result mid hcall hsusp howner _ hleft =>
    have hmove := h.leaving hsusp
    have hrepri := hmove.waiterLeft hleft
    have hout := (hmove.reprioritised hrepri).not_mem (t := t) (l := .mutex m)
    obtain ⟨_, _, _, _, _, rfl, -⟩ := hrepri
    exact .inr ⟨_, rfl, rfl, rfl, rfl, fun heq => absurd heq howner, hout hsusp⟩
  | releaseOne => exact .inr ⟨_, rfl, trivial⟩
  | @releaseLast t m _ howner _ =>
    obtain ⟨p, heq⟩ := checkAndUpdatePrio_eq { s with
      hold := Function.update s.hold m (s.hold m - 1)
      takenObjectList := Function.update s.takenObjectList t ((s.takenObjectList t).erase m) } t m
    rcases h.releaseLast_cases howner rfl with ⟨-, hover⟩ | ⟨_, _, _, -, -, -, -, hover⟩
    · rw [hover, heq]
      exact .inr ⟨.released t m, rfl, trivial⟩
    · rw [hover, heq]
      exact .inr ⟨.released t m, rfl, trivial⟩
  | releaseFailed => exact .inr ⟨_, rfl, trivial⟩
  | ceiling hceiling =>
    obtain ⟨ceiling, -, _, _, _, _, _, rfl, -⟩ := h.setprioceiling hceiling
    exact .inl rfl
  | leave | block | unblock | wake | same => exact .inl rfl

omit [DecidableEq κ] in
/-- The last release of a mutex hands it to the first waiter. -/
theorem Owned.handedOn (h : s.Owned) {t : τ} (howner : s.owner m = some t)
    (hdone : s' = (MutexState.checkAndUpdatePrio { s with
      hold := Function.update s.hold m (s.hold m - 1)
      takenObjectList :=
        Function.update s.takenObjectList t ((s.takenObjectList t).erase m) } t m).handOver m) :
    s'.owner m = (s.suspendThread (.mutex m)).head? ∧
      ∀ next, s'.owner m = some next → s'.hold m = 1 ∧ s'.suspended next = false := by
  rcases h.releaseLast_cases howner rfl with
    ⟨hlist, hover⟩ | ⟨next, rest, susp, hlist, -, hresumed, -, hover⟩
  · rw [hdone, hover, hlist]
    have hnone : Function.update s.owner m none m = none := Function.update_self m none s.owner
    exact ⟨hnone, fun next hnext => absurd (hnext.symm.trans hnone) (Option.some_ne_none next)⟩
  · rw [hdone, hover, hlist]
    have hnow : Function.update s.owner m (some next) m = some next :=
      Function.update_self m (some next) s.owner
    refine ⟨hnow, fun u hu => ?_⟩
    obtain rfl := Option.some.inj (hnow.symm.trans hu)
    exact ⟨Function.update_self m 1 s.hold, hresumed.suspended_self⟩

theorem Owned.outcome {a : MutexStep τ μ κ} (h : s.Owned)
    (hstep : (mutexMachine depth).step s a = some s') : s.Outcome a s' := by
  have hevent : ∀ event, s'.history = s.history ++ [event] → s.Truthful s' event := by
    intro event hhistory
    rcases h.event (effect_of_step h hstep) with hnone | ⟨event', hhistory', htrue⟩
    · have hlength := congrArg List.length (hnone.symm.trans hhistory)
      rw [List.length_append, List.length_singleton] at hlength
      omega
    · have hsame := List.append_cancel_left (hhistory.symm.trans hhistory')
      rw [List.singleton_inj.mp hsame]
      exact htrue
  refine ⟨fun t m => hevent _, fun t m error => hevent _, fun t m ha howner => ?_,
    fun t m ha howner hhold => ?_⟩
  · subst ha
    obtain ⟨-, ⟨-, rfl⟩ | ⟨hself, -⟩ | ⟨hself, -⟩⟩ := release_cases hstep
    · rfl
    · exact absurd hself howner
    · exact absurd hself howner
  · subst ha
    obtain ⟨-, ⟨hother, -⟩ | ⟨-, hmore, -⟩ | ⟨-, -, rfl⟩⟩ := release_cases hstep
    · exact absurd howner hother
    · exact absurd (by rw [hhold]) hmore
    · have hover := h.handedOn howner rfl
      exact hover

/-- In every run, whatever the order of takes, releases and timers, the fields of the mutexes
agree, and every call comes to what it returns. -/
theorem mutex_ownership (depth : Nat) (priority : τ → Nat) {actions : List (MutexStep τ μ κ)}
    (run : (mutexMachine depth).Run Machine.anyStep (start priority) actions s) :
    s.Ownership ∧
      ∀ a s', (mutexMachine depth).step s a = some s' → s.Outcome a s' := by
  have hboth := run.invariant (I := fun s => s.Owned ∧ s.Counted)
    (fun s a s' _ hstep h => ⟨h.1.effect (effect_of_step h.1 hstep),
      h.2.effect h.1 (effect_of_step h.1 hstep)⟩)
    ⟨owned_start priority, fun t m => by simp [start, handed, holds]⟩
  obtain ⟨h, hcounted⟩ := hboth
  exact ⟨⟨h.holding.free, h.holding.mem, h.holding.nodup, hcounted, h.held⟩,
    fun a s' hstep => h.outcome hstep⟩

/-- A thread takes a mutex twice; another waits for it, and gets it with the last release. -/
theorem mutex_ownership_handed :
    ∃ s, (mutexMachine 3).Run Machine.anyStep
        (start (fun _ => 10) : MutexState Bool Unit Unit)
        [.take false () 0, .take false () 0, .take true () (-1), .release false (),
          .release false (), .resumed true] s ∧
      s.history = [.taken false (), .taken false (), .released false (), .released false (),
        .taken true ()] ∧
      s.Ownership ∧
      ∀ a s', (mutexMachine 3).step s a = some s' → s.Outcome a s' := by
  have hexec : ((mutexMachine 3).exec (start (fun _ => 10) : MutexState Bool Unit Unit)
      [.take false () 0, .take false () 0, .take true () (-1), .release false (),
        .release false (), .resumed true]).map (·.history) =
      some [.taken false (), .taken false (), .released false (), .released false (),
        .taken true ()] := by decide
  obtain ⟨s, hs, hhistory⟩ := Option.map_eq_some_iff.mp hexec
  have hrun := Machine.Run.of_exec hs (Machine.admitted_anyStep _ _)
  exact ⟨s, hrun, hhistory, mutex_ownership 3 (fun _ => 10) hrun⟩

end MutexState

end Keep

end Gd32Vw553h.Ipc
