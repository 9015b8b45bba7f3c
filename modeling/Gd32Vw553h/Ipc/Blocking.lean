/-
  Ipc/Blocking.lean --- calls that wait in one of two lists (mailboxes and message queues of
  `rt-thread/src/ipc.c`).

  A receiver waits while there is nothing to receive, a sender while there is no room.  A thread
  that is woken competes with all others again, and waits for the rest of its timeout.  This is
  the part of `_rt_mb_send_wait`, `_rt_mb_recv`, `_rt_mq_send_wait` and `_rt_mq_recv` that does
  not depend on what is sent.

  `Counted` says that a thread is woken for whatever it could have, and `Timely` what the ticks
  of a call add up to.  `expire` is a timer that runs out in one step with its thread being made
  ready, `fire` and `timeout` are the two halves of it.
-/
import Gd32Vw553h.Ipc.SuspList
import Mathlib.Data.Finset.Card

set_option autoImplicit false

namespace Gd32Vw553h.Ipc

open Gd32Vw553h.Klibc

/-! ## The code -/

/-- `parent.suspend_thread` and `suspend_sender_thread` -/
inductive WaitSide where
  | receivers
  | senders
  deriving DecidableEq

/-- A call that is suspended, or has just been woken. -/
structure BlockedCall (γ : Type*) where
  request : γ
  side : WaitSide
  /-- what is left of the timeout -/
  timeout : BitVec 32
  tickDelta : BitVec 32
  /-- the timeout of the caller -/
  given : BitVec 32
  /-- the tick of the call -/
  since : Nat

/-- The threads that use an object, and their timers. -/
structure BlockState (τ γ : Type*) where
  susp : SuspState τ WaitSide
  flag : IpcFlag
  call : τ → Option (BlockedCall γ)
  /-- `timeout_tick` of `thread_timer` -/
  timeoutTick : τ → BitVec 32
  /-- the ticks so far; `rt_tick` holds the low bits -/
  now : Nat

/-- `RT_TICK_MAX` -/
abbrev rtTickMax : Nat := 0xffffffff

namespace BlockState

variable {τ γ : Type*}

def init (flag : IpcFlag) (currentPriority : τ → Nat) (now : Nat) : BlockState τ γ where
  susp := {
    suspendThread := fun _ => []
    currentPriority := currentPriority
    suspended := fun _ => false
    error := fun _ => 0
    ttmrSet := fun _ => false
    timerActivated := fun _ => false }
  flag := flag
  call _ := none
  timeoutTick _ := 0
  now := now

/-- `rt_tick_get` -/
def rtTickGet (s : BlockState τ γ) : BitVec 32 := BitVec.ofNat 32 s.now

/-- `_timer_check` finds that the timer of the thread has run out. -/
def Due (s : BlockState τ γ) (thread : τ) : Prop :=
  s.susp.timerActivated thread = true ∧
    (s.rtTickGet - s.timeoutTick thread).toNat < rtTickMax / 2

instance (s : BlockState τ γ) (thread : τ) : Decidable (s.Due thread) :=
  inferInstanceAs (Decidable (_ ∧ _))

/-- The timeout after a wake-up. -/
def timeLeft (s : BlockState τ γ) (call : BlockedCall γ) : BitVec 32 :=
  if call.timeout.toInt > 0 then
    let timeout := call.timeout - (s.rtTickGet - call.tickDelta)
    if timeout.toInt < 0 then 0 else timeout
  else call.timeout

def tick (s : BlockState τ γ) : BlockState τ γ := { s with now := s.now + 1 }

section Code

variable [DecidableEq τ]

/-- `thread->error = error` -/
def setError (s : BlockState τ γ) (thread : τ) (error : Int) : BlockState τ γ :=
  { s with susp := { s.susp with error := Function.update s.susp.error thread error } }

/-- The loops from `rt_thread_suspend_to_list` to `rt_timer_start`. -/
def suspend (s : BlockState τ γ) (thread : τ) (call : BlockedCall γ) : BlockState τ γ :=
  let susp := (s.susp.rtThreadSuspendToList thread call.side s.flag).startTimer thread
    call.timeout.toInt
  if call.timeout.toInt > 0 then
    { s with
      susp := susp
      timeoutTick := Function.update s.timeoutTick thread (s.rtTickGet + call.timeout)
      call := Function.update s.call thread (some { call with tickDelta := s.rtTickGet }) }
  else { s with susp := susp, call := Function.update s.call thread (some call) }

/-- A thread that runs again is no longer suspended in its call. -/
def leave (s : BlockState τ γ) (thread : τ) : BlockState τ γ :=
  { s with call := Function.update s.call thread none }

/-- `rt_susp_list_dequeue(..., RT_EOK)` -/
def wakeOne (s : BlockState τ γ) (k : WaitSide) : BlockState τ γ :=
  { s with susp := (s.susp.rtSuspListDequeue k 0).2 }

/-- `rt_susp_list_resume_all(..., RT_ERROR)` -/
def resumeAll (s : BlockState τ γ) (k : WaitSide) : BlockState τ γ :=
  { s with susp := s.susp.rtSuspListResumeAll k rtError }

/-- `_timer_check` takes the timer of the thread. -/
def fire (s : BlockState τ γ) (thread : τ) : BlockState τ γ :=
  { s with susp := s.susp.takeTimer thread }

/-- It calls `_thread_timeout`. -/
def timeout (s : BlockState τ γ) (thread : τ) : BlockState τ γ :=
  { s with susp := s.susp.threadTimeout thread }

/-- The timer of the thread runs out. -/
def expire (s : BlockState τ γ) (thread : τ) : BlockState τ γ :=
  { s with susp := s.susp.expire thread }

end Code

/-! ## Ticks -/

/-- A positive timeout is the number of its ticks. -/
theorem toInt_eq_toNat_of_pos (timeout : BitVec 32) (hpos : 0 < timeout.toInt) :
    timeout.toInt = timeout.toNat ∧ timeout.toNat < 0x80000000 := by
  rw [BitVec.toInt_eq_toNat_cond] at hpos ⊢
  have hlt := timeout.isLt
  split at hpos <;> split <;> omega

/-- A timer is not found to have run out before its time. -/
theorem elapsed_of_due {timeout : BitVec 32} {start now : Nat} (hle : start ≤ now)
    (hpos : 0 < timeout.toInt)
    (hdue : (BitVec.ofNat 32 now - (BitVec.ofNat 32 start + timeout)).toNat < rtTickMax / 2) :
    timeout.toInt ≤ (now : Int) - start := by
  obtain ⟨hvalue, hhalf⟩ := toInt_eq_toNat_of_pos timeout hpos
  have hmax : rtTickMax / 2 = 2147483647 := rfl
  rw [hvalue]
  rw [hmax, BitVec.toNat_sub, BitVec.toNat_add, BitVec.toNat_ofNat, BitVec.toNat_ofNat] at hdue
  omega

/-- What is left of a timeout. -/
theorem toInt_sub_ticks {timeout : BitVec 32} {start now : Nat} (hle : start ≤ now)
    (hleft : (now : Int) - start < timeout.toInt) :
    (timeout - (BitVec.ofNat 32 now - BitVec.ofNat 32 start)).toInt =
      timeout.toInt - ((now : Int) - start) := by
  obtain ⟨hvalue, hhalf⟩ := toInt_eq_toNat_of_pos timeout (by omega)
  rw [hvalue] at hleft ⊢
  have hnat : (timeout - (BitVec.ofNat 32 now - BitVec.ofNat 32 start)).toNat =
      timeout.toNat - (now - start) := by
    rw [BitVec.toNat_sub, BitVec.toNat_sub, BitVec.toNat_ofNat, BitVec.toNat_ofNat]
    omega
  rw [BitVec.toInt_eq_toNat_cond, hnat, if_pos (by omega)]
  omega

/-! ## The invariant -/

section Invariant

variable {s : BlockState τ γ} {t thread : τ} {c : BlockedCall γ} {k side : WaitSide}
  {room room' : Nat} {fired : τ → Bool}

/-- The timeout of a call is what is left of the given one since `start`. -/
structure Timely (s : BlockState τ γ) (t : τ) (c : BlockedCall γ) (start : Nat) : Prop where
  since : c.since ≤ start
  past : start ≤ s.now
  left : 0 < c.timeout.toInt
  delta : c.tickDelta = BitVec.ofNat 32 start
  due : s.timeoutTick t = BitVec.ofNat 32 start + c.timeout
  enough : c.given.toInt ≤ (start : Int) - c.since + c.timeout.toInt

/-- The given timeout is over. -/
def Late (s : BlockState τ γ) (c : BlockedCall γ) : Prop :=
  0 < c.given.toInt → c.given.toInt ≤ (s.now : Int) - c.since

/-- A call may go on with what is left of its timeout. -/
structure GoesOn (s : BlockState τ γ) (c : BlockedCall γ) : Prop where
  since : c.since ≤ s.now
  left : 0 < c.given.toInt → 0 ≤ c.timeout.toInt ∧
    c.given.toInt ≤ (s.now : Int) - c.since + c.timeout.toInt

/-- What every step keeps, while `_thread_timeout` is still to be called for the threads in
`fired`. -/
structure Kept (s : BlockState τ γ) (fired : τ → Bool) : Prop where
  sound : s.susp.Sound
  timed : s.susp.Timed fired
  late : ∀ t c, fired t = true → s.call t = some c → s.Late c
  waits : ∀ t, s.susp.suspended t = true →
    ∃ c, s.call t = some c ∧ t ∈ s.susp.suspendThread c.side
  timely : ∀ t c, s.call t = some c → 0 < c.given.toInt → ∃ start, s.Timely t c start
  since : ∀ t c, s.call t = some c → c.since ≤ s.now
  expired : ∀ t c, s.call t = some c → s.susp.suspended t = false → s.susp.error t < 0 → s.Late c

/-- A thread has been woken and has not run yet. -/
def Woken (s : BlockState τ γ) (k : WaitSide) (t : τ) : Prop :=
  (∃ c, s.call t = some c ∧ c.side = k) ∧ s.susp.suspended t = false ∧ s.susp.error t = 0

/-- While a thread waits on a side, as many threads have been woken there as there is `room`
for. -/
def Counted (s : BlockState τ γ) (k : WaitSide) (room : Nat) : Prop :=
  ∃ woken : Finset τ, (∀ t, t ∈ woken ↔ s.Woken k t) ∧
    (s.susp.suspendThread k ≠ [] → room ≤ woken.card)

/-- Nothing else of the state counts. -/
theorem Timely.congr {next : BlockState τ γ} {start : Nat} (h : s.Timely t c start)
    (hnow : next.now = s.now) (htick : next.timeoutTick t = s.timeoutTick t) :
    next.Timely t c start where
  since := h.since
  past := hnow ▸ h.past
  left := h.left
  delta := h.delta
  due := htick.trans h.due
  enough := h.enough

theorem kept_init (flag : IpcFlag) (currentPriority : τ → Nat) (now : Nat) :
    (init flag currentPriority now : BlockState τ γ).Kept (fun _ => false) where
  sound := ⟨fun _ => List.nodup_nil, fun _ _ _ ht => absurd ht List.not_mem_nil,
    fun _ _ ht => absurd ht List.not_mem_nil⟩
  timed := ⟨fun _ ht => absurd ht Bool.false_ne_true, fun _ ht => absurd ht Bool.false_ne_true,
    fun _ ht => absurd ht Bool.false_ne_true⟩
  late _ _ ht := absurd ht Bool.false_ne_true
  waits _ ht := absurd ht Bool.false_ne_true
  timely _ _ hc := by cases hc
  since _ _ hc := by cases hc
  expired _ _ hc := by cases hc

theorem counted_init (flag : IpcFlag) (currentPriority : τ → Nat) (now : Nat) (k : WaitSide)
    (room : Nat) : (init flag currentPriority now : BlockState τ γ).Counted k room := by
  refine ⟨∅, fun t => iff_of_false (Finset.notMem_empty t) ?_, fun hne => absurd rfl hne⟩
  rintro ⟨⟨c, hc, -⟩, -⟩
  cases hc

theorem Counted.mono (h : s.Counted k room) (hle : room' ≤ room) : s.Counted k room' := by
  obtain ⟨woken, hwoken, hroom⟩ := h
  exact ⟨woken, hwoken, fun hne => hle.trans (hroom hne)⟩

/-- Nobody waits on a side. -/
theorem Counted.of_empty (h : s.Counted k room) (hempty : s.susp.suspendThread k = []) :
    s.Counted k room' := by
  obtain ⟨woken, hwoken, -⟩ := h
  exact ⟨woken, hwoken, fun hne => absurd hempty hne⟩

theorem Late.tick (h : s.Late c) : s.tick.Late c := fun hpos => by
  have hlate := h hpos
  show c.given.toInt ≤ ((s.now + 1 : Nat) : Int) - c.since
  omega

/-- Ticks that pass. -/
theorem Kept.tick (h : s.Kept fired) : s.tick.Kept fired where
  sound := h.sound
  timed := h.timed
  late t c ht hc := (h.late t c ht hc).tick
  waits := h.waits
  timely t c hc hpos := by
    obtain ⟨start, htimely⟩ := h.timely t c hc hpos
    exact ⟨start, { htimely with past := Nat.le_succ_of_le htimely.past }⟩
  since t c hc := Nat.le_succ_of_le (h.since t c hc)
  expired t c hc hrun herror := (h.expired t c hc hrun herror).tick

/-- What is left of a timeout after a wake-up. -/
theorem Kept.timeLeft (h : s.Kept fired) (hc : s.call t = some c) :
    s.GoesOn { c with timeout := s.timeLeft c } where
  since := h.since t c hc
  left hpos := by
    obtain ⟨start, htimely⟩ := h.timely t c hc hpos
    have hpast := htimely.past
    have henough := htimely.enough
    have hleft := htimely.left
    show 0 ≤ (s.timeLeft c).toInt ∧
      c.given.toInt ≤ (s.now : Int) - c.since + (s.timeLeft c).toInt
    have hvalue : s.timeLeft c =
        if (c.timeout - (s.rtTickGet - c.tickDelta)).toInt < 0 then 0
        else c.timeout - (s.rtTickGet - c.tickDelta) := if_pos hleft
    rw [hvalue, htimely.delta, rtTickGet]
    by_cases hover : c.timeout.toInt ≤ (s.now : Int) - start
    · split
      · have hzero : (0 : BitVec 32).toInt = 0 := rfl
        rw [hzero]
        omega
      · rename_i hneg
        omega
    · rw [toInt_sub_ticks hpast (by omega), if_neg (by omega),
        toInt_sub_ticks hpast (by omega)]
      omega

/-- A call whose timeout is over gives up in time. -/
theorem GoesOn.late (h : s.GoesOn c) (hover : c.timeout = 0) : s.Late c := fun hpos => by
  have hleft := (h.left hpos).2
  have hzero : c.timeout.toInt = 0 := by
    rw [hover]
    rfl
  omega

end Invariant

/-! ## Making threads ready -/

section Resume

variable [DecidableEq τ] {s : BlockState τ γ} {susp : SuspState τ WaitSide} {t thread : τ}
  {c : BlockedCall γ} {k side : WaitSide} {room : Nat} {error : Int} {fired fired' : τ → Bool}

/-- A suspended thread is made ready with this `error`. -/
theorem Kept.resumed (h : s.Kept fired) (hresumed : s.susp.Resumed susp thread)
    (herror : susp.error = Function.update s.susp.error thread error)
    (htimed : susp.Timed fired') (hfired : ∀ t, fired' t = true → fired t = true)
    (hlate : error < 0 → ∀ c, s.call thread = some c → s.Late c) :
    { s with susp := susp }.Kept fired' where
  sound := hresumed.sound h.sound
  timed := htimed
  late t c ht hc := h.late t c (hfired t ht) hc
  waits t ht := by
    obtain ⟨hne, ht⟩ := hresumed.suspended_of_true ht
    obtain ⟨c, hc, hmem⟩ := h.waits t ht
    exact ⟨c, hc, (hresumed.mem h.sound).mpr ⟨hne, hmem⟩⟩
  timely t c hc hpos := by
    obtain ⟨start, htimely⟩ := h.timely t c hc hpos
    exact ⟨start, htimely.congr rfl rfl⟩
  since := h.since
  expired t c hc hrun hthis := by
    show s.Late c
    by_cases hne : t = thread
    · subst hne
      have hself : susp.error t = error := by
        rw [herror, Function.update_self]
      exact hlate (hself ▸ hthis) c hc
    · have hother : susp.error t = s.susp.error t := by
        rw [herror, Function.update_of_ne hne]
      exact h.expired t c hc ((hresumed.suspended_of_ne hne).symm.trans hrun) (hother ▸ hthis)

/-- The other threads are woken or not as before. -/
theorem woken_resumed (hresumed : s.susp.Resumed susp thread)
    (herror : susp.error = Function.update s.susp.error thread error) (hne : t ≠ thread) :
    Woken { s with susp := susp } k t ↔ s.Woken k t :=
  and_congr_right fun _ => and_congr (Eq.congr_left (hresumed.suspended_of_ne hne))
    (Eq.congr_left ((congrFun herror t).trans (Function.update_of_ne hne _ _)))

omit [DecidableEq τ] in
theorem not_woken (ht : s.susp.suspended t = true) : ¬ s.Woken k t := fun h =>
  Bool.false_ne_true (h.2.1.symm.trans ht)

/-- A thread that is made ready without being woken for its side. -/
theorem Counted.resumed (error : Int) (h : s.Counted k room) (hsound : s.susp.Sound)
    (hwait : s.susp.suspended thread = true) (hresumed : s.susp.Resumed susp thread)
    (herror : susp.error = Function.update s.susp.error thread error)
    (hnot : ¬ Woken { s with susp := susp } k thread) :
    Counted { s with susp := susp } k room := by
  obtain ⟨woken, hwoken, hroom⟩ := h
  refine ⟨woken, fun t => (hwoken t).trans ?_, fun hne => hroom fun hempty => ?_⟩
  · by_cases hthis : t = thread
    · rw [hthis]
      exact iff_of_false (not_woken hwait) hnot
    · exact (woken_resumed hresumed herror hthis).symm
  · obtain ⟨u, hu⟩ := List.exists_mem_of_ne_nil _ hne
    have hmem := ((hresumed.mem hsound).mp hu).2
    rw [hempty] at hmem
    exact List.not_mem_nil hmem

/-- The timer of a thread is taken when the timeout of its call is over. -/
theorem Kept.fire (h : s.Kept fired) (hdue : s.Due thread) :
    (s.fire thread).Kept (Function.update fired thread true) where
  sound := ⟨h.sound.nodup, h.sound.single, h.sound.suspended⟩
  timed := h.timed.takeTimer hdue.1
  late t c ht hc := by
    by_cases hthis : t = thread
    · subst hthis
      intro hpos
      obtain ⟨start, htimely⟩ := h.timely t c hc hpos
      have hover := hdue.2
      rw [htimely.due, rtTickGet] at hover
      have helapsed := elapsed_of_due htimely.past htimely.left hover
      have henough := htimely.enough
      show c.given.toInt ≤ (s.now : Int) - c.since
      omega
    · rw [Function.update_of_ne hthis] at ht
      exact h.late t c ht hc
  waits := h.waits
  timely t c hc hpos := by
    obtain ⟨start, htimely⟩ := h.timely t c hc hpos
    exact ⟨start, htimely.congr rfl rfl⟩
  since := h.since
  expired := h.expired

theorem timeout_resumed (s : BlockState τ γ) (thread : τ) :
    s.susp.Resumed (s.susp.threadTimeout thread) thread :=
  ⟨rfl, rfl, rfl, fun hlive t ht hflag => hlive t (update_false_eq_true.mp ht).2 hflag⟩

theorem Kept.timeout (h : s.Kept fired) (hfired : fired thread = true) :
    (s.timeout thread).Kept (Function.update fired thread false) :=
  h.resumed (s.timeout_resumed thread) rfl (h.timed.threadTimeout hfired)
    (fun _ ht => (update_false_eq_true.mp ht).2) fun _ c hc => h.late thread c hfired hc

theorem Counted.timeout (h : s.Counted k room) (hs : s.Kept fired) (hfired : fired thread = true) :
    (s.timeout thread).Counted k room := by
  refine Counted.resumed (-rtETimeout) h hs.sound (hs.timed.fired thread hfired).1
    (s.timeout_resumed thread) rfl fun hwoken => ?_
  have hlate : (s.susp.threadTimeout thread).error thread = -rtETimeout :=
    Function.update_self _ _ _
  cases hlate.symm.trans hwoken.2.2

theorem Kept.expire (h : s.Kept fired) (hdue : s.Due thread) : (s.expire thread).Kept fired := by
  have hout : fired thread = false := Bool.eq_false_iff.mpr fun hfired =>
    Bool.false_ne_true ((h.timed.fired thread hfired).2.symm.trans hdue.1)
  have hkept := (h.fire hdue).timeout (Function.update_self thread true fired)
  rw [Function.update_idem, Function.update_eq_self_iff.mpr hout.symm] at hkept
  exact hkept

theorem Counted.expire (h : s.Counted k room) (hs : s.Kept fired) (hdue : s.Due thread) :
    (s.expire thread).Counted k room :=
  Counted.timeout (s := s.fire thread) h (hs.fire hdue) (Function.update_self thread true fired)

/-- What `rt_susp_list_dequeue` does. -/
theorem Kept.wakeOne_cases (h : s.Kept fired)
    (hout : ∀ t rest, s.susp.suspendThread k = t :: rest → fired t = false) :
    (s.susp.suspendThread k = [] ∧ s.wakeOne k = s) ∨
      ∃ thread susp c, thread ∈ s.susp.suspendThread k ∧ s.call thread = some c ∧ c.side = k ∧
        s.wakeOne k = { s with susp := susp } ∧ s.susp.Resumed susp thread ∧
          susp.error = Function.update s.susp.error thread 0 ∧ susp.Timed fired := by
  cases hlist : s.susp.suspendThread k with
  | nil =>
    refine .inl ⟨rfl, ?_⟩
    rw [wakeOne, SuspState.rtSuspListDequeue_nil hlist]
  | cons thread rest =>
    have hmem : thread ∈ s.susp.suspendThread k := by
      rw [hlist]
      exact List.mem_cons_self
    obtain ⟨c, hc, hside⟩ := h.waits thread (h.sound.suspended k thread hmem)
    obtain ⟨susp, hdequeue, hresumed, herror, htimed⟩ :=
      h.timed.dequeue h.sound hlist (hout thread rest hlist) (le_refl 0)
    refine .inr ⟨thread, susp, c, List.mem_cons_self, hc, h.sound.single _ _ thread hside hmem,
      ?_, hresumed, herror, htimed⟩
    rw [wakeOne, hdequeue]

theorem Kept.wakeOne (h : s.Kept fired)
    (hout : ∀ t rest, s.susp.suspendThread k = t :: rest → fired t = false) :
    (s.wakeOne k).Kept fired := by
  rcases h.wakeOne_cases hout with
    ⟨-, heq⟩ | ⟨thread, susp, c, -, -, -, heq, hresumed, herror, htimed⟩
  · rw [heq]
    exact h
  · rw [heq]
    exact h.resumed hresumed herror htimed (fun _ => id) fun hneg => absurd hneg (lt_irrefl 0)

/-- A wake-up makes up for one more that could be had. -/
theorem Counted.wakeOne (h : s.Counted k room) (hs : s.Kept fired)
    (hout : ∀ t rest, s.susp.suspendThread k = t :: rest → fired t = false) :
    (s.wakeOne k).Counted k (room + 1) := by
  rcases hs.wakeOne_cases hout with
    ⟨hempty, heq⟩ | ⟨thread, susp, c, hmem, hc, hside, heq, hresumed, herror, -⟩
  · rw [heq]
    exact h.of_empty hempty
  · obtain ⟨woken, hwoken, hroom⟩ := h
    have hwait := hs.sound.suspended k thread hmem
    have hnew : thread ∉ woken := fun hin => not_woken hwait ((hwoken thread).mp hin)
    rw [heq]
    refine ⟨insert thread woken, fun t => ?_, fun _ => ?_⟩
    · rw [Finset.mem_insert, hwoken]
      by_cases hthis : t = thread
      · subst hthis
        refine iff_of_true (.inl rfl) ⟨⟨c, hc, hside⟩, hresumed.suspended_self, ?_⟩
        exact (congrFun herror t).trans (Function.update_self _ _ _)
      · rw [or_iff_right hthis]
        exact (woken_resumed hresumed herror hthis).symm
    · rw [Finset.card_insert_of_notMem hnew]
      exact Nat.succ_le_succ (hroom (List.ne_nil_of_mem hmem))

/-- A wake-up on one side leaves the other side as it is. -/
theorem Counted.wakeOne_of_ne (h : s.Counted k room) (hs : s.Kept fired)
    (hout : ∀ t rest, s.susp.suspendThread side = t :: rest → fired t = false) (hne : side ≠ k) :
    (s.wakeOne side).Counted k room := by
  rcases hs.wakeOne_cases hout with
    ⟨-, heq⟩ | ⟨thread, susp, c, hmem, hc, hside, heq, hresumed, herror, -⟩
  · rw [heq]
    exact h
  · rw [heq]
    refine h.resumed 0 hs.sound (hs.sound.suspended side thread hmem) hresumed herror ?_
    rintro ⟨⟨c', hc', hk⟩, -⟩
    obtain rfl := Option.some.inj (hc.symm.trans hc')
    exact hne (hside.symm.trans hk)

/-- What `rt_susp_list_resume_all` does, when no timer has been taken. -/
theorem Kept.resumeAll_eq (h : s.Kept fired) (hout : ∀ t, fired t = false) (k : WaitSide) :
    ∃ susp, s.resumeAll k = { s with susp := susp } ∧ susp.Sound ∧ susp.Timed fired ∧
      susp.suspendThread k = [] ∧
      (∀ k', k' ≠ k → susp.suspendThread k' = s.susp.suspendThread k') ∧
      (∀ t, t ∉ s.susp.suspendThread k →
        susp.suspended t = s.susp.suspended t ∧ susp.error t = s.susp.error t) ∧
      ∀ t, t ∈ s.susp.suspendThread k → susp.suspended t = false ∧ susp.error t = rtError := by
  have hpos : (0 : Int) ≤ rtError := by decide
  have htimed : (s.susp.rtSuspListResumeAll k rtError).Timed fired :=
    h.timed.resumeLoop h.sound (fun t _ => hout t) hpos
  obtain ⟨susp, hsusp, hsound, -, hempty, hothers, -, hkept, hwoken⟩ :=
    SuspState.resumeLoop_spec hpos h.sound (fun t ht hset => h.timed.live t ht hset (hout t))
      (Nat.lt_succ_self (s.susp.suspendThread k).length)
  have heq : s.susp.rtSuspListResumeAll k rtError = susp := hsusp
  rw [heq] at htimed
  exact ⟨susp, congrArg (fun susp => { s with susp := susp }) heq, hsound, htimed, hempty, hothers,
    hkept, hwoken⟩

theorem Kept.resumeAll (h : s.Kept fired) (hout : ∀ t, fired t = false) (k : WaitSide) :
    (s.resumeAll k).Kept fired := by
  obtain ⟨susp, heq, hsound, htimed, hempty, hothers, hkept, hwoken⟩ := h.resumeAll_eq hout k
  rw [heq]
  refine ⟨hsound, htimed, h.late, fun t ht => ?_, fun t c hc hpos => ?_, h.since,
    fun t c hc hrun herror => ?_⟩
  · have hstays : t ∉ s.susp.suspendThread k := fun hmem =>
      Bool.false_ne_true ((hwoken t hmem).1.symm.trans ht)
    obtain ⟨c, hc, hmem⟩ := h.waits t ((hkept t hstays).1.symm.trans ht)
    have hne : c.side ≠ k := fun hk => hstays (hk ▸ hmem)
    exact ⟨c, hc, (hothers c.side hne).symm ▸ hmem⟩
  · obtain ⟨start, htimely⟩ := h.timely t c hc hpos
    exact ⟨start, htimely.congr rfl rfl⟩
  · by_cases hmem : t ∈ s.susp.suspendThread k
    · have hthis : susp.error t < 0 := herror
      rw [(hwoken t hmem).2] at hthis
      exact absurd hthis (by decide)
    · obtain ⟨hsame, hsame'⟩ := hkept t hmem
      exact h.expired t c hc (hsame.symm.trans hrun) (hsame' ▸ herror)

/-- Nobody is woken for its side, and nobody waits on the side that is emptied. -/
theorem Counted.resumeAll (h : s.Counted k room) (hs : s.Kept fired)
    (hout : ∀ t, fired t = false) (side : WaitSide) :
    (s.resumeAll side).Counted k room ∧ (s.resumeAll side).susp.suspendThread side = [] ∧
      (s.susp.suspendThread k = [] → (s.resumeAll side).susp.suspendThread k = []) := by
  obtain ⟨susp, heq, -, -, hempty, hothers, hkept, hwoken⟩ := hs.resumeAll_eq hout side
  obtain ⟨woken, hmem, hroom⟩ := h
  rw [heq]
  have hlist : ∀ k, s.susp.suspendThread k = [] → susp.suspendThread k = [] := fun k hnone => by
    by_cases hk : k = side
    · rw [hk]
      exact hempty
    · exact (hothers k hk).trans hnone
  refine ⟨⟨woken, fun t => (hmem t).trans ?_, fun hne => hroom (mt (hlist k) hne)⟩, hempty,
    hlist k⟩
  by_cases hin : t ∈ s.susp.suspendThread side
  · refine iff_of_false (not_woken (hs.sound.suspended side t hin)) fun hnow => ?_
    cases (hwoken t hin).2.symm.trans hnow.2.2
  · obtain ⟨hsame, hsame'⟩ := hkept t hin
    exact and_congr_right fun _ =>
      and_congr (Eq.congr_left hsame.symm) (Eq.congr_left hsame'.symm)

end Resume

/-! ## The running thread -/

section Run

variable [DecidableEq τ] {s : BlockState τ γ} {t : τ} {c : BlockedCall γ} {k : WaitSide}
  {room : Nat} {fired : τ → Bool}

theorem Kept.setError (h : s.Kept fired) (hout : s.call t = none) (error : Int) :
    (s.setError t error).Kept fired where
  sound := ⟨h.sound.nodup, h.sound.single, h.sound.suspended⟩
  timed := ⟨h.timed.live, h.timed.armed, h.timed.fired⟩
  late := h.late
  waits := h.waits
  timely u c hc hpos := by
    obtain ⟨start, htimely⟩ := h.timely u c hc hpos
    exact ⟨start, htimely.congr rfl rfl⟩
  since := h.since
  expired u c hc hrun herror := by
    have hne : u ≠ t := by
      rintro rfl
      cases hout.symm.trans hc
    have hsame : (s.setError t error).susp.error u = s.susp.error u :=
      Function.update_of_ne hne _ _
    exact h.expired u c hc hrun (hsame ▸ herror)

theorem Counted.setError (h : s.Counted k room) (hout : s.call t = none) (error : Int) :
    (s.setError t error).Counted k room := by
  obtain ⟨woken, hwoken, hroom⟩ := h
  refine ⟨woken, fun u => (hwoken u).trans (and_congr_right ?_), hroom⟩
  rintro ⟨c, hc, -⟩
  have hne : u ≠ t := by
    rintro rfl
    cases hout.symm.trans hc
  exact and_congr_right fun _ => Eq.congr_left (Function.update_of_ne hne _ _).symm

theorem leave_call (s : BlockState τ γ) (t : τ) : (s.leave t).call t = none :=
  Function.update_self _ _ _

theorem call_of_leave {u : τ} (hc : (s.leave t).call u = some c) : s.call u = some c := by
  have hne : u ≠ t := by
    rintro rfl
    cases (s.leave_call u).symm.trans hc
  exact (Function.update_of_ne hne _ _).symm.trans hc

/-- A thread that runs again leaves its call. -/
theorem Kept.leave (h : s.Kept fired) (hrun : s.susp.suspended t = false) :
    (s.leave t).Kept fired where
  sound := h.sound
  timed := h.timed
  late u c hu hc := h.late u c hu (call_of_leave hc)
  waits u hu := by
    have hne : u ≠ t := by
      rintro rfl
      exact Bool.false_ne_true (hrun.symm.trans hu)
    obtain ⟨c, hc, hmem⟩ := h.waits u hu
    exact ⟨c, (Function.update_of_ne hne _ _).trans hc, hmem⟩
  timely u c hc hpos := by
    obtain ⟨start, htimely⟩ := h.timely u c (call_of_leave hc) hpos
    exact ⟨start, htimely.congr rfl rfl⟩
  since u c hc := h.since u c (call_of_leave hc)
  expired u c hc := h.expired u c (call_of_leave hc)

theorem woken_leave {u : τ} : (s.leave t).Woken k u ↔ u ≠ t ∧ s.Woken k u := by
  by_cases hne : u = t
  · subst hne
    refine iff_of_false (fun h => ?_) fun h => h.1 rfl
    obtain ⟨⟨c, hc, -⟩, -⟩ := h
    cases (s.leave_call u).symm.trans hc
  · rw [and_iff_right hne]
    refine and_congr_left fun _ => exists_congr fun c => and_congr_left fun _ => ?_
    exact Eq.congr_left (Function.update_of_ne hne _ _)

/-- It is one woken thread less. -/
theorem Counted.leave (h : s.Counted k room) (t : τ) : (s.leave t).Counted k (room - 1) := by
  obtain ⟨woken, hwoken, hroom⟩ := h
  refine ⟨woken.erase t, fun u => ?_, fun hne => ?_⟩
  · rw [Finset.mem_erase, hwoken, woken_leave]
  · have hcard := Finset.pred_card_le_card_erase (s := woken) (a := t)
    have hle := hroom hne
    omega

/-- It has not been woken for this side. -/
theorem Counted.leave_of_not (h : s.Counted k room) (hnot : ¬ s.Woken k t) :
    (s.leave t).Counted k room := by
  obtain ⟨woken, hwoken, hroom⟩ := h
  refine ⟨woken, fun u => (hwoken u).trans ?_, hroom⟩
  rw [woken_leave]
  refine (and_iff_right_of_imp ?_).symm
  rintro hu rfl
  exact hnot hu

/-- What suspending leaves. -/
theorem suspend_eq (s : BlockState τ γ) (t : τ) (c : BlockedCall γ) :
    ∃ susp timeoutTick delta, s.suspend t c = { s with
        susp := susp
        timeoutTick := timeoutTick
        call := Function.update s.call t (some { c with tickDelta := delta }) } ∧
      s.susp.Suspended susp t c.side s.flag ∧ (∀ u, u ≠ t → timeoutTick u = s.timeoutTick u) ∧
      susp = (s.susp.rtThreadSuspendToList t c.side s.flag).startTimer t c.timeout.toInt ∧
      (0 < c.timeout.toInt → delta = s.rtTickGet ∧ timeoutTick t = s.rtTickGet + c.timeout) := by
  have hsusp := (s.susp.rtThreadSuspendToList_suspended t c.side s.flag).startTimer
    c.timeout.toInt
  unfold BlockState.suspend
  by_cases hpos : c.timeout.toInt > 0
  · refine ⟨_, _, s.rtTickGet, if_pos hpos, hsusp, fun u hne => Function.update_of_ne hne _ _, rfl,
      fun _ => ⟨rfl, Function.update_self _ _ _⟩⟩
  · exact ⟨_, s.timeoutTick, c.tickDelta, if_neg hpos, hsusp, fun _ _ => rfl, rfl,
      fun hnow => absurd hnow hpos⟩

/-- The calls after suspending: this one, and the others as they were. -/
theorem call_of_suspend {u : τ} {c' : BlockedCall γ} (hc : (s.suspend t c).call u = some c') :
    (c'.request = c.request ∧ c'.side = c.side) ∨ s.call u = some c' := by
  obtain ⟨susp, timeoutTick, delta, heq, -⟩ := s.suspend_eq t c
  rw [heq] at hc
  by_cases hut : u = t
  · subst hut
    obtain rfl := Option.some.inj ((Function.update_self u _ s.call).symm.trans hc)
    exact .inl ⟨rfl, rfl⟩
  · exact .inr ((Function.update_of_ne hut _ s.call).symm.trans hc)

theorem Kept.suspend (h : s.Kept fired) (hrun : s.susp.suspended t = false)
    (hgoes : s.GoesOn c) (hwaits : c.timeout ≠ 0) : (s.suspend t c).Kept fired := by
  obtain ⟨susp, timeoutTick, delta, heq, hsusp, hothers, hstart, hdue⟩ := s.suspend_eq t c
  have htimed : susp.Timed fired := by
    rw [hstart]
    exact h.timed.suspend hrun c.side s.flag c.timeout.toInt
  rw [heq]
  refine ⟨hsusp.sound h.sound hrun, htimed, fun u c' hu hc => ?_, fun u hu => ?_,
    fun u c' hc hpos => ?_, fun u c' hc => ?_, fun u c' hc hready herror => ?_⟩
  · have hut : u ≠ t := by
      rintro rfl
      exact Bool.false_ne_true (hrun.symm.trans (h.timed.fired u hu).1)
    exact h.late u c' hu ((Function.update_of_ne hut _ _).symm.trans hc)
  · by_cases hut : u = t
    · subst hut
      exact ⟨_, Function.update_self _ _ _, hsusp.mem.mpr (.inr ⟨rfl, rfl⟩)⟩
    · obtain ⟨c', hc, hmem⟩ := h.waits u ((hsusp.suspended_of_ne hut).symm.trans hu)
      exact ⟨c', (Function.update_of_ne hut _ _).trans hc, hsusp.mem.mpr (.inl hmem)⟩
  · by_cases hut : u = t
    · subst hut
      obtain rfl := Option.some.inj ((Function.update_self u _ s.call).symm.trans hc)
      obtain ⟨hleft, henough⟩ := hgoes.left hpos
      have hne : c.timeout.toInt ≠ 0 := fun hzero => hwaits (BitVec.eq_of_toInt_eq hzero)
      have hgo : 0 < c.timeout.toInt := by omega
      obtain ⟨hdelta, htick⟩ := hdue hgo
      exact ⟨s.now, hgoes.since, le_refl _, hgo, hdelta, htick, henough⟩
    · obtain ⟨start, htimely⟩ := h.timely u c' ((Function.update_of_ne hut _ _).symm.trans hc) hpos
      exact ⟨start, htimely.congr rfl (hothers u hut)⟩
  · by_cases hut : u = t
    · subst hut
      obtain rfl := Option.some.inj ((Function.update_self u _ s.call).symm.trans hc)
      exact hgoes.since
    · exact h.since u c' ((Function.update_of_ne hut _ _).symm.trans hc)
  · have hut : u ≠ t := by
      rintro rfl
      exact Bool.false_ne_true (hready.symm.trans hsusp.suspended_self)
    exact h.expired u c' ((Function.update_of_ne hut _ _).symm.trans hc)
      ((hsusp.suspended_of_ne hut).symm.trans hready) (hsusp.error ▸ herror)

/-- A thread that suspends itself has not been woken, and there is no room on its side. -/
theorem Counted.suspend (h : s.Counted k room) (hout : s.call t = none)
    (hroom : k = c.side → room = 0) : (s.suspend t c).Counted k room := by
  obtain ⟨susp, timeoutTick, delta, heq, hsusp, -, -, -⟩ := s.suspend_eq t c
  obtain ⟨woken, hwoken, hle⟩ := h
  rw [heq]
  refine ⟨woken, fun u => (hwoken u).trans ?_, fun hne => ?_⟩
  · by_cases hut : u = t
    · subst hut
      refine iff_of_false (fun hold => ?_) (not_woken hsusp.suspended_self)
      obtain ⟨⟨c', hc, -⟩, -⟩ := hold
      cases hout.symm.trans hc
    · refine and_congr (exists_congr fun c' => and_congr_left fun _ => ?_) (and_congr ?_ ?_)
      · exact Eq.congr_left (Function.update_of_ne hut _ _).symm
      · exact Eq.congr_left (hsusp.suspended_of_ne hut).symm
      · exact Eq.congr_left (congrFun hsusp.error u).symm
  · by_cases hk : k = c.side
    · rw [hroom hk]
      exact Nat.zero_le _
    · exact hle fun hempty => hne ((hsusp.list_of_ne hk).trans hempty)

end Run

end BlockState

end Gd32Vw553h.Ipc
