/-
  Wlan/CompletionWait.lean --- what a wait on a completion receives.

  A waiter is `Answered` for an event when its wait is bound to return `RT_EOK` with
  it.  Sending an event to a waiter that has not been released answers it
  (`answered_send`), nothing that other threads do takes the answer back
  (`answered_frame`), and the waiter's own statements lead to its return
  (`answered_own`, `answered_enabled`).  `completion_kept` puts this together with
  the state of the table; `not_receivesAll_late_second` shows what a waiter does not
  receive: an event that comes after it has been released and before it has run.
-/
import Gd32Vw553h.Wlan.Completion

set_option autoImplicit false

namespace Gd32Vw553h.Wlan.Complete

open Gd32Vw553h.Foundation Gd32Vw553h.Klibc

variable {ι : Type*} [DecidableEq ι]

/-! ## What a waiter receives -/

/-- The waiter has not been released, neither by an event nor by its timer. -/
def Unreleased (s : Shared ι) (t : ι) (set : UInt32) : Option Point → Prop
  | some (.operation set') | some (.waitTest set') | some (.waitRead set')
  | some (.waitRecv set') => set' = set
  | some (.asleep set') => set' = set ∧ ∃ d, s.des t = some d ∧ d.suspended = true
  | _ => False

/-- The wait is bound to return `RT_EOK` with this event. -/
def Answered (event : RtWlanDevEvent) (s : Shared ι) (t : ι) : Option Point → Prop
  | some (.operation set) | some (.waitTest set) | some (.waitRead set)
  | some (.waitRecv set) => Marked set event ∧ ∃ d, s.des t = some d ∧ Marked d.set event
  | some (.asleep _) =>
    ∃ d, s.des t = some d ∧ d.suspended = false ∧ (s.thread t).error = 0 ∧
      Marked (s.thread t).eventSet event
  | some (.returned _ err recved) => err = 0 ∧ Marked recved event
  | _ => False

/-- How many statements a wait has left at most. -/
def Point.left : Point → Nat
  | operation _ => 4
  | waitTest _ => 3
  | waitRead _ => 2
  | waitRecv _ => 2
  | asleep _ => 1
  | _ => 0

section Answers

variable {s s' : Shared ι} {t u : ι} {k : Point} {k' : Option Point} {event : RtWlanDevEvent}

/-- What a statement of one thread does to the descriptor of another. -/
theorem step_other {p : ι → Option Point} (h : ∀ v, Fits v (p v) s) (hpoint : p u = some k)
    (hstep : Step u s k s' k') (htu : t ≠ u) :
    (s'.des t = s.des t ∧ s'.thread t = s.thread t) ∨ ∃ d d', Signals s s' t d d' := by
  have hsignal : ∀ {v d d'}, Signals s s' v d d' →
      (s'.des t = s.des t ∧ s'.thread t = s.thread t) ∨ ∃ d d', Signals s s' t d d' := by
    intro v d d' hsignals
    by_cases htv : t = v
    · subst htv
      exact .inr ⟨d, d', hsignals⟩
    · exact .inl (hsignals.others t htv)
  cases hstep with
  | mallocs set => exact .inl ⟨setDes_of_ne s _ htu, rfl⟩
  | claims set d i hmutex hd hfree => exact .inl ⟨setDes_of_ne s _ htu, rfl⟩
  | receives set d hd hset => exact .inl ⟨rfl, setThread_of_ne s _ htu⟩
  | sleeps set d hd hset => exact .inl ⟨setDes_of_ne s _ htu, setThread_of_ne _ _ htu⟩
  | expires set d hd hasleep => exact .inl ⟨setDes_of_ne s _ htu, setThread_of_ne _ _ htu⟩
  | frees => exact .inl ⟨setDes_of_ne s _ htu, rfl⟩
  | flags event i todo v d hentry hd =>
    exact hsignal (signals_flagEvent hd ((h v).own.words d hd))
  | sends event i todo v d hentry hd =>
    have hu : Fits u (some (.send event i todo)) s := hpoint ▸ h u
    obtain ⟨v', d', hentry', hd', hflag⟩ := hu.sends.flagged event i todo rfl
    obtain rfl := Option.some.inj (hentry.symm.trans hentry')
    obtain rfl := Option.some.inj (hd.symm.trans hd')
    obtain ⟨e, hsignals, -⟩ := signals_eventSend hd ((h v).own.words d hd) hflag
    exact hsignal hsignals
  | _ => exact .inl ⟨rfl, rfl⟩

omit [DecidableEq ι] in
theorem answered_frame {k : Option Point} (h : Answered event s t k)
    (hchange : (s'.des t = s.des t ∧ s'.thread t = s.thread t) ∨ ∃ d d', Signals s s' t d d') :
    Answered event s' t k := by
  have hmarked : (∃ d, s.des t = some d ∧ Marked d.set event) →
      ∃ d, s'.des t = some d ∧ Marked d.set event := by
    rintro ⟨d, hd, hset⟩
    rcases hchange with ⟨hdes, -⟩ | ⟨e, e', hsignals⟩
    · exact ⟨d, hdes.trans hd, hset⟩
    · obtain ⟨d', hd', hle⟩ := hsignals.des_le hd
      exact ⟨d', hd', (hle event).1 hset⟩
  unfold Answered at h ⊢
  split at h
  · exact ⟨h.1, hmarked h.2⟩
  · exact ⟨h.1, hmarked h.2⟩
  · exact ⟨h.1, hmarked h.2⟩
  · exact ⟨h.1, hmarked h.2⟩
  · obtain ⟨d, hd, hrunning, herror, hset⟩ := h
    rcases hchange with ⟨hdes, hthread⟩ | ⟨e, e', hsignals⟩
    · exact ⟨d, hdes.trans hd, hrunning, hthread ▸ herror, hthread ▸ hset⟩
    · obtain rfl := Option.some.inj (hsignals.des.symm.trans hd)
      obtain ⟨hrunning', hthread⟩ := hsignals.running hrunning
      exact ⟨e', hsignals.des', hrunning', hthread ▸ herror, hthread ▸ hset⟩
  · exact h
  · exact h

/-- The waiter goes on, one statement nearer to its return. -/
theorem answered_own (hfits : Fits t (some k) s) (h : Answered event s t (some k))
    (hstep : Step t s k s' k') (hstays : k.left ≠ 0) (hstarts : k' ≠ some .clear) :
    Answered event s' t k' ∧ k'.elim 0 Point.left < k.left := by
  cases hstep with
  | starts set => exact ⟨h, Nat.lt_add_one 3⟩
  | startFails set => exact absurd rfl hstarts
  | tests set d hd hflag => exact ⟨h, Nat.lt_add_one 2⟩
  | testFails set d hd hflag => exact ⟨h, Nat.lt_add_one 2⟩
  | reads set d hd =>
    refine ⟨⟨rfl, ?_⟩, Nat.succ_pos 1⟩
    obtain ⟨-, e, he, hset⟩ := h
    obtain rfl := Option.some.inj (hd.symm.trans he)
    exact (hfits.own.words d hd).flagged event hset
  | noSet => exact absurd UInt32.zero_and h.1
  | receives set d hd hset =>
    refine ⟨⟨rfl, ?_⟩, Nat.succ_pos 1⟩
    obtain ⟨hwaited, e, he, hsent⟩ := h
    obtain rfl := Option.some.inj (hd.symm.trans he)
    exact (marked_and _ _ _).mpr ⟨hsent, hwaited⟩
  | sleeps set d hd hset =>
    obtain ⟨hwaited, e, he, hsent⟩ := h
    obtain rfl := Option.some.inj (hd.symm.trans he)
    exact absurd hset (hsent.and_ne_zero hwaited)
  | wakesFailed set d hd hresumed herror =>
    obtain ⟨e, -, -, hok, -⟩ := h
    exact absurd hok herror
  | wakes set d hd hresumed herror =>
    obtain ⟨e, -, -, -, hset⟩ := h
    exact ⟨⟨rfl, hset⟩, Nat.one_pos⟩
  | expires set d hd hasleep =>
    obtain ⟨e, he, hrunning, -⟩ := h
    obtain rfl := Option.some.inj (hd.symm.trans he)
    exact Bool.noConfusion (hrunning.symm.trans hasleep)
  | _ => exact absurd rfl hstays

/-- `rt_event_send` answers a waiter that has not been released. -/
theorem answered_send {k : Option Point} {set : UInt32} {d : CompleteDes} (hfits : Fits t k s)
    (h : Unreleased s t set k) (hwaited : Marked set event) (hd : s.des t = some d) :
    Answered event (eventSend s t d event) t k := by
  have hsent : Marked (d.set ||| event.bit) event :=
    (marked_or _ _ _).mpr (.inr ((marked_bit _ _).mpr rfl))
  have hmarked : ∃ e, (eventSend s t d event).des t = some e ∧ Marked e.set event := by
    unfold eventSend
    by_cases hwake : d.suspended = true ∧ (s.thread t).eventSet &&& (d.set ||| event.bit) ≠ 0
    · rw [if_pos hwake]
      exact ⟨_, setDes_self s t _, hsent⟩
    · rw [if_neg hwake]
      exact ⟨_, setDes_self s t _, hsent⟩
  unfold Unreleased at h
  split at h
  · exact ⟨h ▸ hwaited, hmarked⟩
  · exact ⟨h ▸ hwaited, hmarked⟩
  · exact ⟨h ▸ hwaited, hmarked⟩
  · exact ⟨h ▸ hwaited, hmarked⟩
  · obtain ⟨rfl, e, he, hsuspended⟩ := h
    obtain rfl := Option.some.inj (hd.symm.trans he)
    obtain ⟨set', hk, heq, -⟩ := (hfits.own.waits d hd).suspended hsuspended
    obtain rfl := Point.asleep.inj (Option.some.inj hk)
    have hwake : d.suspended = true ∧ (s.thread t).eventSet &&& (d.set ||| event.bit) ≠ 0 :=
      ⟨hsuspended, by rw [heq]; exact hwaited.and_ne_zero hsent⟩
    unfold eventSend Answered
    rw [if_pos hwake]
    refine ⟨_, setDes_self s t _, rfl, ?_⟩
    rw [setThread_self, heq]
    exact ⟨rfl, (marked_and _ _ _).mpr ⟨hwaited, hsent⟩⟩
  · exact h.elim

omit [DecidableEq ι] in
theorem Point.hasDes_of_live {k : Option Point} (h : live k = true) : hasDes k = true := by
  unfold live at h
  split at h
  · rfl
  · rfl
  · rfl
  · rfl
  · rfl
  · rfl
  · rfl
  · exact nomatch h

/-- An answered waiter is never blocked. -/
theorem answered_enabled (hfits : Fits t (some k) s) (h : Answered event s t (some k))
    (hleft : k.left ≠ 0) :
    ∃ choice r, choice ≠ .operation false ∧ stmt t s k choice = some r := by
  have hdes : Point.hasDes (some k) = true → ∃ d, s.des t = some d := fun hhas =>
    Option.isSome_iff_exists.mp (hfits.own.des.trans hhas)
  cases k with
  | operation set => exact ⟨.operation true, _, nofun, rfl⟩
  | waitTest set =>
    obtain ⟨d, hd⟩ := hdes rfl
    exact ⟨.go, _, nofun, congrArg (Option.map _) hd⟩
  | waitRead set =>
    obtain ⟨d, hd⟩ := hdes rfl
    exact ⟨.go, _, nofun, congrArg (Option.map _) hd⟩
  | waitRecv set =>
    obtain ⟨d, hd⟩ := hdes rfl
    exact ⟨.go, _, nofun, congrArg (Option.map _) hd⟩
  | asleep set =>
    obtain ⟨d, hd, hrunning, herror, -⟩ := h
    refine ⟨.go, (s, some (.returned set 0 (s.thread t).eventSet)), nofun, ?_⟩
    simp only [stmt, hd, Option.bind_some, hrunning, Bool.false_eq_true, herror, ne_eq,
      not_true_eq_false, if_false]
  | _ => exact absurd rfl hleft

end Answers

/-! ## Whole runs -/

section Runs

variable {s s' : Threads ι (Shared ι) Point} {t : ι} {event : RtWlanDevEvent}
  {actions later : List (ThreadAction ι Call Choice)}

/-- The table and the descriptors in it. -/
structure TableInv (s : Threads ι (Shared ι) Point) : Prop where
  /-- a live descriptor has exactly one entry -/
  oneEntry : ∀ t, Point.live (s.point t) = true → ∃! i, s.shared.tab i = some t
  /-- what a dispatch finds in the table is live and has not been freed -/
  entryLive : ∀ i t, s.shared.tab i = some t →
    Point.live (s.point t) = true ∧ (s.shared.des t).isSome = true
  /-- a dispatch that has been through the table has sent its event to every live descriptor -/
  reached : ∀ u event, s.point u = some (.unlock event) → ∀ t, Point.live (s.point t) = true →
    ∃ d, s.shared.des t = some d ∧ Marked d.set event

omit [DecidableEq ι] in
theorem tableInv_of_fits (h : ∀ t, Fits t (s.point t) s.shared) : TableInv s where
  oneEntry t hlive := by
    obtain ⟨d, hd⟩ := Option.isSome_iff_exists.mp
      ((h t).own.des.trans (Point.hasDes_of_live hlive))
    refine ⟨d.index, ((h t).own.tab d.index).mpr ⟨hlive, d, hd, rfl⟩, fun i hi => ?_⟩
    obtain ⟨-, e, he, hindex⟩ := ((h t).own.tab i).mp hi
    obtain rfl := Option.some.inj (hd.symm.trans he)
    exact hindex.symm
  entryLive i t hentry := by
    obtain ⟨hlive, d, hd, -⟩ := ((h t).own.tab i).mp hentry
    exact ⟨hlive, by rw [hd]; rfl⟩
  reached u event hunlock t hlive := by
    obtain ⟨d, hd⟩ := Option.isSome_iff_exists.mp
      ((h t).own.des.trans (Point.hasDes_of_live hlive))
    have hentry := ((h t).own.tab d.index).mpr ⟨hlive, d, hd, rfl⟩
    have hsends := (h u).sends
    rw [hunlock] at hsends
    exact hsends.sent event d.index t rfl hentry

/-- The set of events that a call is going to wait for, waits for or has waited for. -/
def Point.waitSet : Option Point → Option UInt32
  | some (operation set) | some (waitTest set) | some (waitRead set) | some (waitRecv set)
  | some (asleep set) | some (returned set _ _) => some set
  | _ => none

/-- The timer has ended the wait. -/
def TimedOut (s : Shared ι) (t : ι) : Option Point → Prop
  | some (.asleep _) => ∃ d, s.des t = some d ∧ d.suspended = false ∧ (s.thread t).error ≠ 0
  | some (.returned _ err _) => err = -rtETimeout
  | _ => False

/-- What waits and dispatches do to each other. -/
structure WaitInv (s : Threads ι (Shared ι) Point) : Prop where
  /-- `RT_EOK` comes with an event that was waited for and has been dispatched -/
  returned : ∀ t set err recved, s.point t = some (.returned set err recved) →
    (∃ d, s.shared.des t = some d ∧ err = 0 ∧ Receives d set recved) ∨ err = -rtETimeout ∨
      set = 0 ∧ err = -rtError
  /-- the timer ends a wait only while none of its events has been sent -/
  expires : ∀ t set s', s.point t = some (.asleep set) →
    program.threads.step s (.next t .timeout) = some s' →
      ∃ d, s.shared.des t = some d ∧ ∀ event, Marked set event → ¬ Marked d.set event
  /-- an event sent before the waiter has been released is received -/
  sent : ∀ u event i todo t set s', s.point u = some (.send event i todo) →
    s.shared.tab i = some t → Unreleased s.shared t set (s.point t) → Marked set event →
      program.threads.step s (.next u .go) = some s' → Answered event s'.shared t (s'.point t)
  /-- once one of the events has been sent before the timer ended the wait, some event is
  received -/
  inTime : ∀ t set d event, Point.waitSet (s.point t) = some set → s.shared.des t = some d →
    Marked set event → Marked d.set event → ¬ TimedOut s.shared t (s.point t) →
      ∃ other, Marked set other ∧ Answered other s.shared t (s.point t)

omit [DecidableEq ι] in
theorem inTime_of_fits {k : Option Point} {shared : Shared ι} {set : UInt32} {d : CompleteDes}
    (h : Fits t k shared) (hset : Point.waitSet k = some set) (hd : shared.des t = some d)
    (hwaited : Marked set event) (hsent : Marked d.set event) (hlate : ¬ TimedOut shared t k) :
    ∃ other, Marked set other ∧ Answered other shared t k := by
  have hwaits := h.own.waits d hd
  unfold Point.waitSet at hset
  split at hset
  · obtain rfl := Option.some.inj hset
    exact ⟨event, hwaited, hwaited, d, hd, hsent⟩
  · obtain rfl := Option.some.inj hset
    exact ⟨event, hwaited, hwaited, d, hd, hsent⟩
  · obtain rfl := Option.some.inj hset
    exact ⟨event, hwaited, hwaited, d, hd, hsent⟩
  · obtain rfl := Option.some.inj hset
    exact ⟨event, hwaited, hwaited, d, hd, hsent⟩
  · obtain rfl := Option.some.inj hset
    cases hsuspended : d.suspended with
    | true =>
      obtain ⟨set', hk, -, hzero⟩ := hwaits.suspended hsuspended
      obtain rfl := Point.asleep.inj (Option.some.inj hk)
      exact absurd hzero (hsent.and_ne_zero hwaited)
    | false =>
      rcases hwaits.woken _ rfl hsuspended with ⟨herror, other, hother, hmarked, -⟩ | herror
      · exact ⟨other, hother, d, hd, hsuspended, herror, hmarked⟩
      · exact absurd ⟨d, hd, hsuspended, by rw [herror]; decide⟩ hlate
  · obtain rfl := Option.some.inj hset
    rcases hwaits.returned _ _ _ rfl with ⟨herr, other, hother, hmarked, -⟩ | herr | ⟨hzero, -⟩
    · exact ⟨other, hother, herr, hmarked⟩
    · exact absurd herr hlate
    · rw [hzero] at hwaited
      exact absurd UInt32.zero_and hwaited
  · exact nomatch hset

theorem waitInv_of_fits (h : ∀ t, Fits t (s.point t) s.shared) : WaitInv s where
  returned t set err recved hpoint := by
    have ht := h t
    rw [hpoint] at ht
    obtain ⟨d, hd⟩ := Option.isSome_iff_exists.mp (ht.own.des.trans rfl)
    exact ((ht.own.waits d hd).returned set err recved rfl).imp_left fun hok => ⟨d, hd, hok⟩
  expires t set s' hpoint hstep := by
    have ht := h t
    rw [hpoint] at ht
    obtain ⟨k, shared, next, hk, hstmt, -⟩ := Program.step_next hstep
    obtain rfl := Option.some.inj (hpoint.symm.trans hk)
    obtain ⟨d, hd, hexpire⟩ := Option.bind_eq_some_iff.mp hstmt
    refine ⟨d, hd, fun event hwaited hsent => ?_⟩
    cases hsuspended : d.suspended with
    | false => exact nomatch (if_neg (Bool.eq_false_iff.mp hsuspended)).symm.trans hexpire
    | true =>
      obtain ⟨set', heq, -, hzero⟩ := (ht.own.waits d hd).suspended hsuspended
      obtain rfl := Point.asleep.inj (Option.some.inj heq)
      exact hsent.and_ne_zero hwaited hzero
  sent u event i todo t set s' hpoint hentry hunreleased hwaited hstep := by
    obtain ⟨k, shared, next, hk, hstmt, rfl⟩ := Program.step_next hstep
    obtain rfl := Option.some.inj (hpoint.symm.trans hk)
    have htu : t ≠ u := by
      rintro rfl
      rw [hpoint] at hunreleased
      exact hunreleased
    rw [Threads.goTo_point_of_ne s _ _ htu]
    obtain ⟨v, hv, hbind⟩ := Option.bind_eq_some_iff.mp hstmt
    obtain rfl := Option.some.inj (hentry.symm.trans hv)
    obtain ⟨d, hd, hsend⟩ := Option.map_eq_some_iff.mp hbind
    obtain ⟨rfl, -⟩ := Prod.mk.inj hsend
    exact answered_send (h t) hunreleased hwaited hd
  inTime t set d event hset hd hwaited hsent hlate :=
    inTime_of_fits (h t) hset hd hwaited hsent hlate

/-- The run does not go beyond the wait of `t`. -/
def Stays (t : ι) (s : Threads ι (Shared ι) Point) (a : ThreadAction ι Call Choice) : Prop :=
  ∀ choice, a = .next t choice →
    choice ≠ .operation false ∧ ∀ k, s.point t = some k → k.left ≠ 0

/-- `t` is bound to receive the event, and until its wait has returned it can go on and gets
nearer to that. -/
structure Receiving (event : RtWlanDevEvent) (t : ι) (s : Threads ι (Shared ι) Point) : Prop where
  answered : Answered event s.shared t (s.point t)
  goesOn : ∀ k, s.point t = some k → k.left ≠ 0 → ∃ choice s', choice ≠ .operation false ∧
    program.threads.step s (.next t choice) = some s' ∧
      (s'.point t).elim 0 Point.left < k.left

/-- The operation's failure is the only way from it to the deletion. -/
theorem not_clear_of_stays {shared : Shared ι} {k : Point} {choice : Choice}
    {r : Shared ι × Option Point} (h : stmt t shared k choice = some r) (hleft : k.left ≠ 0)
    (hstarts : choice ≠ .operation false) : r.2 ≠ some .clear := by
  intro hclear
  obtain ⟨shared', next⟩ := r
  obtain rfl : next = some .clear := hclear
  cases step_of_stmt h with
  | leaves set err recved => exact hleft rfl
  | startFails set =>
    cases choice with
    | operation ok =>
      cases ok with
      | false => exact hstarts rfl
      | true => exact nomatch (Prod.mk.inj (Option.some.inj h)).2
    | go => exact nomatch h
    | malloc ok => exact nomatch h
    | timeout => exact nomatch h

theorem receiving_of_answered (h : ∀ t, Fits t (s.point t) s.shared)
    (hanswered : Answered event s.shared t (s.point t)) : Receiving event t s where
  answered := hanswered
  goesOn k hpoint hleft := by
    have ht := h t
    rw [hpoint] at ht hanswered
    obtain ⟨choice, r, hstarts, hstmt⟩ := answered_enabled ht hanswered hleft
    have hown := answered_own ht hanswered (step_of_stmt hstmt) hleft
      (not_clear_of_stays hstmt hleft hstarts)
    refine ⟨choice, s.goTo t r.1 r.2, hstarts, ?_, ?_⟩
    · simp only [Program.threads, hpoint]
      show (stmt t s.shared k choice).map (fun r => s.goTo t r.1 r.2) = _
      rw [hstmt]
      rfl
    · rw [Threads.goTo_point_self]
      exact hown.2

/-- A waiter that is bound to receive an event stays so until its wait has returned. -/
theorem answered_run (run : program.threads.Run Machine.anyStep (.start .init) actions s)
    (hanswered : Answered event s.shared t (s.point t))
    (hlater : program.threads.Run (Stays t) s later s') : Receiving event t s' := by
  have hkeep : (∀ u, Fits u (s'.point u) s'.shared) ∧
      Answered event s'.shared t (s'.point t) := by
    refine Program.invariant (I := fun s => (∀ u, Fits u (s.point u) s.shared) ∧
      Answered event s.shared t (s.point t)) ?_ ?_ hlater ⟨fits_run run, hanswered⟩
    · rintro s u c hidle ⟨hfits, h⟩
      have htu : t ≠ u := by
        rintro rfl
        rw [hidle] at h
        exact h
      refine ⟨fun v => ?_, by rwa [Threads.goTo_point_of_ne s _ _ htu]⟩
      by_cases hvu : v = u
      · subst hvu
        have hv := hfits v
        rw [hidle] at hv
        rw [Threads.goTo_point_self]
        cases c with
        | operate set => exact ⟨hv.own.still_absent rfl rfl rfl, .of_not_dispatching rfl⟩
        | dispatch event => exact ⟨hv.own.still_absent rfl rfl rfl, .of_not_dispatching rfl⟩
      · rw [Threads.goTo_point_of_ne s _ _ hvu]
        exact hfits v
    · rintro s u choice k shared next hok hpoint hstmt ⟨hfits, h⟩
      have hstep := step_of_stmt hstmt
      refine ⟨fun v => ?_, ?_⟩
      · by_cases hvu : v = u
        · subst hvu
          rw [Threads.goTo_point_self]
          exact fits_own hfits hpoint hstep
        · rw [Threads.goTo_point_of_ne s _ _ hvu]
          exact fits_other hfits hpoint hstep hvu
      · by_cases htu : t = u
        · subst htu
          rw [Threads.goTo_point_self]
          have ht := hfits t
          rw [hpoint] at h ht
          obtain ⟨hstarts, hleft⟩ := hok choice rfl
          exact (answered_own ht h hstep (hleft k hpoint)
            (not_clear_of_stays hstmt (hleft k hpoint) hstarts)).1
        · rw [Threads.goTo_point_of_ne s _ _ htu]
          exact answered_frame h (step_other hfits hpoint hstep htu)
  exact receiving_of_answered hkeep.1 hkeep.2

/-- In every reachable state of every interleaving the table is in order, waits and
dispatches do not miss each other, and a waiter that is bound to receive an event does. -/
theorem completion_kept (run : program.threads.Run Machine.anyStep (.start .init) actions s) :
    TableInv s ∧ WaitInv s ∧
      ∀ t event, Answered event s.shared t (s.point t) → ∀ later s',
        program.threads.Run (Stays t) s later s' → Receiving event t s' :=
  ⟨tableInv_of_fits (fits_run run), waitInv_of_fits (fits_run run),
    fun _ _ hanswered _ _ hlater => answered_run run hanswered hlater⟩

end Runs

/-! ## Two events, one wait -/

/-- The nine statements of a dispatch that finds one descriptor. -/
def dispatched (event : RtWlanDevEvent) : List (ThreadAction Bool Call Choice) :=
  .call true (.dispatch event) :: List.replicate 9 (.next true .go)

/-- A call sleeps for `CONNECT` and `CONNECT_FAIL`, and `CONNECT` is dispatched. -/
def firstEvent : List (ThreadAction Bool Call Choice) :=
  [.call false (.operate (RtWlanDevEvent.connect.bit ||| RtWlanDevEvent.connectFail.bit)),
    .next false (.malloc true), .next false .go, .next false (.operation true),
    .next false .go, .next false .go] ++ dispatched .connect

/-- The waiter is bound to receive it and has one statement left. -/
theorem completion_kept_first_event :
    ∃ s, program.threads.exec (.start .init) firstEvent = some s ∧ TableInv s ∧ WaitInv s ∧
      Receiving .connect false s := by
  have hexec : (program.threads.exec (.start .init) firstEvent).map
      (fun s => (s.point false, (s.shared.des false).map (·.suspended),
        (s.shared.thread false).eventSet, (s.shared.thread false).error)) =
      some (some (.asleep 0x6), some false, 0x2, 0) := rfl
  obtain ⟨s, hs, hfinal⟩ := Option.map_eq_some_iff.mp hexec
  obtain ⟨hpoint, hrest⟩ := Prod.mk.inj hfinal
  obtain ⟨hdes, hthread⟩ := Prod.mk.inj hrest
  obtain ⟨hset, herror⟩ := Prod.mk.inj hthread
  obtain ⟨d, hd, hsuspended⟩ := Option.map_eq_some_iff.mp hdes
  have hanswered : Answered .connect s.shared false (s.point false) := by
    rw [hpoint]
    exact ⟨d, hd, hsuspended, herror, by rw [hset]; decide⟩
  have hkept := completion_kept (Machine.Run.of_exec hs (Machine.admitted_anyStep _ _))
  exact ⟨s, hs, hkept.1, hkept.2.1, hkept.2.2 false .connect hanswered [] s (.nil s)⟩

/-- All the events that have been sent by then are received. -/
def ReceivesAll (s : Threads ι (Shared ι) Point) : Prop :=
  ∀ t set err recved d, s.point t = some (.returned set err recved) → s.shared.des t = some d →
    ∀ event, Marked set event → Marked d.set event → err = 0 ∧ Marked recved event

/-- `CONNECT_FAIL` is dispatched as well before the call runs. -/
def lateSecond : List (ThreadAction Bool Call Choice) :=
  firstEvent ++ dispatched .connectFail ++ [.next false .go]

/-- The wait returns with `CONNECT` alone. -/
theorem not_receivesAll_late_second :
    ¬ ∀ s, program.threads.Run Machine.anyStep (.start .init) lateSecond s → ReceivesAll s := by
  intro h
  have hexec : (program.threads.exec (.start .init) lateSecond).map
      (fun s => (s.point false, (s.shared.des false).map (·.set))) =
      some (some (.returned 0x6 0 0x2), some 0x6) := rfl
  obtain ⟨s, hs, hfinal⟩ := Option.map_eq_some_iff.mp hexec
  obtain ⟨hpoint, hset⟩ := Prod.mk.inj hfinal
  obtain ⟨d, hd, hsent⟩ := Option.map_eq_some_iff.mp hset
  have hall := h s (Machine.Run.of_exec hs (Machine.admitted_anyStep _ _)) false 0x6 0 0x2 d
    hpoint hd .connectFail (by decide)
  rw [hsent] at hall
  exact absurd (hall (by decide)).2 (by decide)

end Gd32Vw553h.Wlan.Complete
