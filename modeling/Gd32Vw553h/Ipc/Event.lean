/-
  Ipc/Event.lean --- events (`rt_event_send` and `_rt_event_recv` of `rt-thread/src/ipc.c`).

  A thread waits for all or for one of the flags in a mask.  `rt_event_send` sets flags and
  goes once through the list of waiters: each one whose condition is met gets the flags it
  asked for and is made ready.  What the waiters with `RT_EVENT_FLAG_CLEAR` have got is
  cleared after that, so that one send can satisfy several of them.

  There may be any number of events, and the events, masks and options of the calls are
  arbitrary.  Timers run out in one step with the thread being made ready.
-/
import Gd32Vw553h.Foundation.Runs
import Gd32Vw553h.Ipc.SuspList

set_option autoImplicit false

namespace Gd32Vw553h.Ipc

open Gd32Vw553h.Foundation Gd32Vw553h.Klibc

/-! ## Conditions -/

/-- The bits of an option. -/
structure EventOption where
  /-- `RT_EVENT_FLAG_AND` -/
  and : Bool
  /-- `RT_EVENT_FLAG_OR` -/
  or : Bool
  /-- `RT_EVENT_FLAG_CLEAR` -/
  clear : Bool
  deriving DecidableEq

namespace EventOption

variable {option : EventOption} {set flags : BitVec 32}

/-- The test of `_rt_event_recv` and of `rt_event_send`. -/
def met (option : EventOption) (set flags : BitVec 32) : Bool :=
  if option.and then set &&& flags == set
  else if option.or then set &&& flags != 0
  else false

/-- The flags outside of the mask do not matter. -/
theorem met_and_set (option : EventOption) (set flags : BitVec 32) :
    option.met set (set &&& flags) = option.met set flags := by
  unfold met
  rw [← BitVec.and_assoc, BitVec.and_self]

/-- More flags meet a condition that fewer flags meet. -/
theorem met_of_and {kept : BitVec 32} (h : option.met set (flags &&& kept) = true) :
    option.met set flags = true := by
  unfold met at h ⊢
  split at h
  · rename_i hand
    rw [if_pos hand]
    have hall : set &&& (flags &&& kept) = set := beq_iff_eq.mp h
    refine beq_iff_eq.mpr ?_
    calc set &&& flags = set &&& (flags &&& kept) &&& flags := by rw [hall]
      _ = set &&& (flags &&& kept) := by
        rw [BitVec.and_assoc, BitVec.and_comm (flags &&& kept), ← BitVec.and_assoc flags,
          BitVec.and_self]
      _ = set := hall
  · rename_i hand
    rw [if_neg hand]
    split at h
    · rename_i hor
      rw [if_pos hor]
      refine bne_iff_ne.mpr fun hnone => bne_iff_ne.mp h ?_
      rw [← BitVec.and_assoc, hnone]
      exact BitVec.zero_and
    · cases h

/-- All flags of the mask are there, if the condition asks for all. -/
theorem and_eq_of_met (hand : option.and = true) (h : option.met set flags = true) :
    set &&& flags = set := by
  rw [met, if_pos hand] at h
  exact beq_iff_eq.mp h

end EventOption

/-! ## The code -/

/-- The arguments of an `rt_event_recv`. -/
structure EventCall (κ : Type*) where
  event : κ
  set : BitVec 32
  option : EventOption

/-- What an `rt_event_recv` has returned. -/
structure EventReturn (τ κ : Type*) where
  thread : τ
  call : EventCall κ
  error : Int
  /-- `*recved`, where it has been written -/
  recved : Option (BitVec 32)
  /-- the flags of the event when they met the condition -/
  metBy : BitVec 32

/-- Events and threads. -/
structure EventState (τ κ : Type*) where
  susp : SuspState τ κ
  flag : κ → IpcFlag
  /-- `set` of the events -/
  set : κ → BitVec 32
  eventSet : τ → BitVec 32
  eventInfo : τ → EventOption
  /-- the call that a thread has been suspended in -/
  call : τ → Option (EventCall κ)
  /-- the flags of the event when they last met the condition of a thread -/
  metBy : τ → BitVec 32
  returns : List (EventReturn τ κ)

/-- What threads, interrupt handlers and timers do. -/
inductive EventStep (τ κ : Type*) where
  /-- `rt_event_recv`, up to its return or its `rt_schedule` -/
  | recv (thread : τ) (call : EventCall κ) (timeout : Int)
  /-- the end of an `rt_event_recv` after its `rt_schedule` -/
  | wake (thread : τ)
  /-- `rt_event_send` -/
  | send (event : κ) (set : BitVec 32)
  /-- the timer of a thread runs out -/
  | expire (thread : τ)

namespace EventState

variable {τ κ : Type*}

/-- The event holds no flags, and no thread waits. -/
def init (flag : κ → IpcFlag) (currentPriority : τ → Nat) : EventState τ κ where
  susp := {
    suspendThread := fun _ => []
    currentPriority := currentPriority
    suspended := fun _ => false
    error := fun _ => 0
    ttmrSet := fun _ => false
    timerActivated := fun _ => false }
  flag := flag
  set _ := 0
  eventSet _ := 0
  eventInfo _ := ⟨false, false, false⟩
  call _ := none
  metBy _ := 0
  returns := []

/-- A call returns. -/
def finish (s : EventState τ κ) (thread : τ) (call : EventCall κ) (error : Int)
    (recved : Option (BitVec 32)) (metBy : BitVec 32) : EventState τ κ :=
  { s with returns := s.returns ++ [⟨thread, call, error, recved, metBy⟩] }

section Code

variable [DecidableEq τ]

/-- `thread->error = error` -/
def setError (s : EventState τ κ) (thread : τ) (error : Int) : EventState τ κ :=
  { s with susp := { s.susp with error := Function.update s.susp.error thread error } }

/-- What `rt_event_send` does with a thread whose condition is met. -/
def resume (s : EventState τ κ) (k : κ) (thread : τ) : EventState τ κ :=
  let s := { s with metBy := Function.update s.metBy thread (s.set k) }
  let s := if (s.eventInfo thread).and then s
    else { s with
      eventSet := Function.update s.eventSet thread (s.eventSet thread &&& s.set k) }
  { s with susp := (s.susp.rtSchedThreadReady thread).2 }.setError thread 0

/-- The loop of `rt_event_send`; it stops at a thread with neither option. -/
def sendLoop (k : κ) : List τ → BitVec 32 → EventState τ κ → Bool × BitVec 32 × EventState τ κ
  | [], needClearSet, s => (true, needClearSet, s)
  | thread :: rest, needClearSet, s =>
    let info := s.eventInfo thread
    if info.and ∨ info.or then
      if info.met (s.eventSet thread) (s.set k) then
        let s := s.resume k thread
        sendLoop k rest (if info.clear then needClearSet ||| s.eventSet thread else needClearSet) s
      else sendLoop k rest needClearSet s
    else (false, needClearSet, s)

variable [DecidableEq κ]

/-- `event->set |= set` -/
def raise (s : EventState τ κ) (k : κ) (set : BitVec 32) : EventState τ κ :=
  { s with set := Function.update s.set k (s.set k ||| set) }

/-- `rt_event_send` -/
def rtEventSend (s : EventState τ κ) (k : κ) (set : BitVec 32) : EventState τ κ :=
  if set = 0 then s
  else
    match sendLoop k (s.susp.suspendThread k) 0 (s.raise k set) with
    | (false, _, s) => s
    | (true, needClearSet, s) =>
      { s with set := Function.update s.set k (s.set k &&& ~~~needClearSet) }

/-- `rt_event_recv` of a thread, up to its return or its `rt_schedule`. -/
def rtEventRecv (s : EventState τ κ) (thread : τ) (call : EventCall κ) (timeout : Int) :
    EventState τ κ :=
  let flags := s.set call.event
  if call.set = 0 then s.finish thread call (-rtError) none flags
  else if call.option.met call.set flags then
    { s.setError thread 0 with
      set := if call.option.clear then Function.update s.set call.event (flags &&& ~~~call.set)
        else s.set
      eventSet := Function.update s.eventSet thread (flags &&& call.set)
      eventInfo := Function.update s.eventInfo thread call.option
    }.finish thread call 0 (some (flags &&& call.set)) flags
  else if timeout = 0 then
    (s.setError thread (-rtETimeout)).finish thread call (-rtETimeout) none flags
  else
    let s := s.setError thread (-rtEIntr)
    { s with
      eventSet := Function.update s.eventSet thread call.set
      eventInfo := Function.update s.eventInfo thread call.option
      susp := (s.susp.rtThreadSuspendToList thread call.event (s.flag call.event)).startTimer
        thread timeout
      call := Function.update s.call thread (some call) }

/-- The end of `rt_event_recv` of a thread that has been made ready. -/
def rtEventRecvEnd (s : EventState τ κ) (thread : τ) (call : EventCall κ) : EventState τ κ :=
  let s := { s with call := Function.update s.call thread none }
  if s.susp.error thread ≠ 0 then
    s.finish thread call (s.susp.error thread) none (s.metBy thread)
  else s.finish thread call 0 (some (s.eventSet thread)) (s.metBy thread)

def machine : Machine (EventState τ κ) (EventStep τ κ) where
  step s
    | .recv thread call timeout =>
        if s.susp.suspended thread = false ∧ (s.call thread).isNone then
          some (s.rtEventRecv thread call timeout)
        else none
    | .wake thread =>
        if s.susp.suspended thread then none
        else (s.call thread).map (s.rtEventRecvEnd thread)
    | .send k set => some (s.rtEventSend k set)
    | .expire thread =>
        if s.susp.timerActivated thread then some { s with susp := s.susp.expire thread } else none

/-- The masks are not empty, and the options contain AND or OR. -/
def Proper : EventState τ κ → EventStep τ κ → Prop
  | _, .recv _ call _ => call.set ≠ 0 ∧ (call.option.and = true ∨ call.option.or = true)
  | _, _ => True

end Code

/-! ## The loop of `rt_event_send` -/

section Loop

variable {s next : EventState τ κ} {k : κ} {t : τ} {l : List τ}

/-- No timer has been taken whose callback is still to come. -/
abbrev Timed (s : EventState τ κ) : Prop := s.susp.Timed fun _ => false

/-- The flags of the event meet the condition of the thread. -/
def satisfied (s : EventState τ κ) (k : κ) (t : τ) : Bool :=
  (s.eventInfo t).met (s.eventSet t) (s.set k)

/-- The threads of `l` that the loop has made ready. -/
def Woken (s : EventState τ κ) (k : κ) (l : List τ) (t : τ) : Prop :=
  t ∈ l ∧ s.satisfied k t = true

/-- A thread whose condition is not met is not among those. -/
theorem woken_skip (hmet : s.satisfied k t = false) (u : τ) :
    s.Woken k (t :: l) u ↔ s.Woken k l u := by
  refine and_congr_left fun hsat => ⟨fun hmem => ?_, List.mem_cons_of_mem t⟩
  refine (List.mem_cons.mp hmem).resolve_left ?_
  rintro rfl
  exact Bool.false_ne_true (hmet.symm.trans hsat)

variable [DecidableEq τ]

/-- The state after a thread has been made ready. -/
def made (s : EventState τ κ) (k : κ) (t : τ) (susp : SuspState τ κ) : EventState τ κ :=
  { s with
    susp := susp
    eventSet := Function.update s.eventSet t (s.eventSet t &&& s.set k)
    metBy := Function.update s.metBy t (s.set k) }

/-- What it means that a thread has been made ready. -/
theorem resume_eq (htimed : s.Timed) (hwaits : s.susp.suspended t = true)
    (hmet : s.satisfied k t = true) :
    ∃ susp, s.resume k t = s.made k t susp ∧ s.susp.Resumed susp t ∧
      susp.error = Function.update s.susp.error t 0 ∧ susp.Timed fun _ => false := by
  obtain ⟨ready, hready, hresumed, herror, hlive⟩ := htimed.ready hwaits rfl
  refine ⟨{ ready with error := Function.update ready.error t 0 }, ?_,
    ⟨hresumed.lists, hresumed.suspended, hresumed.priority, hresumed.live⟩, by rw [herror],
    ⟨hlive.live, hlive.armed, hlive.fired⟩⟩
  by_cases hand : (s.eventInfo t).and = true
  · have hall : Function.update s.eventSet t (s.eventSet t &&& s.set k) = s.eventSet := by
      rw [EventOption.and_eq_of_met hand hmet, Function.update_eq_self]
    simp only [resume, setError, made, hand, if_true, hready, hall]
  · simp only [resume, setError, made, hand, Bool.false_eq_true, if_false, hready]

instance (s : EventState τ κ) (k : κ) (l : List τ) (t : τ) : Decidable (s.Woken k l t) :=
  inferInstanceAs (Decidable (_ ∧ _))

/-- What the loop does with the threads of `l`. -/
structure Swept (s next : EventState τ κ) (k : κ) (l : List τ) : Prop where
  sound : next.susp.Sound
  timed : next.Timed
  lists : ∀ k', next.susp.suspendThread k' =
    (s.susp.suspendThread k').filter fun t => ¬ s.Woken k l t
  /-- the threads that it has made ready -/
  woken : ∀ t, s.Woken k l t → next.susp.suspended t = false ∧ next.susp.error t = 0 ∧
    next.eventSet t = s.eventSet t &&& s.set k ∧ next.metBy t = s.set k
  others : ∀ t, ¬ s.Woken k l t → next.susp.suspended t = s.susp.suspended t ∧
    next.susp.error t = s.susp.error t ∧ next.eventSet t = s.eventSet t ∧
    next.metBy t = s.metBy t
  set : next.set = s.set
  info : next.eventInfo = s.eventInfo
  call : next.call = s.call
  returns : next.returns = s.returns

theorem swept_nil (hsound : s.susp.Sound) (htimed : s.Timed) : s.Swept s k [] where
  sound := hsound
  timed := htimed
  lists k' := by simp [Woken]
  woken t ht := absurd ht.1 List.not_mem_nil
  others t _ := ⟨rfl, rfl, rfl, rfl⟩
  set := rfl
  info := rfl
  call := rfl
  returns := rfl

theorem woken_cons (susp : SuspState τ κ) (hmet : s.satisfied k t = true) (u : τ) :
    s.Woken k (t :: l) u ↔ u = t ∨ (s.made k t susp).Woken k l u := by
  by_cases hut : u = t
  · subst hut
    exact iff_of_true ⟨List.mem_cons_self, hmet⟩ (.inl rfl)
  · have hset : (s.made k t susp).eventSet u = s.eventSet u := Function.update_of_ne hut _ _
    have hsat : (s.made k t susp).satisfied k u = s.satisfied k u := by
      unfold satisfied
      rw [hset]
      rfl
    rw [or_iff_right hut, Woken, Woken, hsat, List.mem_cons, or_iff_right hut]

theorem Swept.skip (h : s.Swept next k l) (hmet : s.satisfied k t = false) :
    s.Swept next k (t :: l) :=
  { h with
    lists := fun k' => by simp only [h.lists k', woken_skip hmet]
    woken := fun u hu => h.woken u ((woken_skip hmet u).mp hu)
    others := fun u hu => h.others u (mt (woken_skip hmet u).mpr hu) }

/-- A thread is made ready, and the loop goes on behind it. -/
theorem Swept.cons {susp : SuspState τ κ} (hsound : s.susp.Sound) (hout : t ∉ l)
    (hmet : s.satisfied k t = true) (hresumed : s.susp.Resumed susp t)
    (herror : susp.error = Function.update s.susp.error t 0)
    (h : (s.made k t susp).Swept next k l) : s.Swept next k (t :: l) where
  sound := h.sound
  timed := h.timed
  lists k' := by
    have hlist : (s.made k t susp).susp.suspendThread k' = (s.susp.suspendThread k').erase t := by
      show susp.suspendThread k' = _
      rw [hresumed.lists]
    rw [h.lists k', hlist, (hsound.nodup k').erase_eq_filter, List.filter_filter]
    refine List.filter_congr fun u _ => ?_
    simp only [woken_cons susp hmet u]
    by_cases hut : u = t <;> simp [hut]
  woken u hu := by
    by_cases hut : u = t
    · subst hut
      obtain ⟨hrun, herr, hset, hmetBy⟩ := h.others u fun hwoken => hout hwoken.1
      refine ⟨hrun.trans hresumed.suspended_self, herr.trans ?_,
        hset.trans (Function.update_self _ _ _), hmetBy.trans (Function.update_self _ _ _)⟩
      show susp.error u = 0
      rw [herror, Function.update_self]
    · obtain ⟨hrun, herr, hset, hmetBy⟩ :=
        h.woken u (((woken_cons susp hmet u).mp hu).resolve_left hut)
      refine ⟨hrun, herr, hset.trans ?_, hmetBy⟩
      exact congrArg (· &&& s.set k) (Function.update_of_ne hut _ _)
  others u hu := by
    have hut : u ≠ t := fun heq => hu ((woken_cons susp hmet u).mpr (.inl heq))
    obtain ⟨hrun, herr, hset, hmetBy⟩ := h.others u fun hwoken =>
      hu ((woken_cons susp hmet u).mpr (.inr hwoken))
    refine ⟨hrun.trans (hresumed.suspended_of_ne hut), herr.trans ?_,
      hset.trans (Function.update_of_ne hut _ _), hmetBy.trans (Function.update_of_ne hut _ _)⟩
    show susp.error u = s.susp.error u
    rw [herror, Function.update_of_ne hut]
  set := h.set
  info := h.info
  call := h.call
  returns := h.returns

/-- The loop makes every thread ready whose condition is met, and collects the flags of those
with `RT_EVENT_FLAG_CLEAR`. -/
theorem sendLoop_spec (need : BitVec 32) (hnodup : l.Nodup) (hsound : s.susp.Sound)
    (htimed : s.Timed) (hwaits : ∀ t ∈ l, s.susp.suspended t = true)
    (hproper : ∀ t ∈ l, (s.eventInfo t).and = true ∨ (s.eventInfo t).or = true) :
    ∃ need' next, sendLoop k l need s = (true, need', next) ∧ s.Swept next k l ∧
      ∀ i, need'.getLsbD i = true ↔ need.getLsbD i = true ∨
        ∃ t, s.Woken k l t ∧ (s.eventInfo t).clear = true ∧
          (next.eventSet t).getLsbD i = true := by
  induction l generalizing s need with
  | nil =>
    refine ⟨need, s, rfl, swept_nil hsound htimed, fun i => ⟨.inl, fun h => ?_⟩⟩
    rcases h with h | ⟨t, ht, -⟩
    · exact h
    · exact absurd ht.1 List.not_mem_nil
  | cons t rest ih =>
    obtain ⟨hout, hrest⟩ := List.nodup_cons.mp hnodup
    have hgo : sendLoop k (t :: rest) need s =
        if s.satisfied k t then
          sendLoop k rest (if (s.eventInfo t).clear then
            need ||| (s.resume k t).eventSet t else need) (s.resume k t)
        else sendLoop k rest need s := by
      rw [sendLoop, if_pos (hproper t List.mem_cons_self)]
      rfl
    have hinfo : ∀ u ∈ rest, (s.eventInfo u).and = true ∨ (s.eventInfo u).or = true :=
      fun u hu => hproper u (List.mem_cons_of_mem t hu)
    by_cases hmet : s.satisfied k t = true
    · obtain ⟨susp, heq, hresumed, herror, hlive⟩ :=
        resume_eq htimed (hwaits t List.mem_cons_self) hmet
      have hwaits' : ∀ u ∈ rest, susp.suspended u = true := fun u hu => by
        have hne : u ≠ t := by
          rintro rfl
          exact hout hu
        rw [hresumed.suspended_of_ne hne]
        exact hwaits u (List.mem_cons_of_mem t hu)
      obtain ⟨need', next, hloop, hswept, hneed⟩ := ih (s := s.made k t susp)
        (if (s.eventInfo t).clear then need ||| (s.made k t susp).eventSet t else need) hrest
        (hresumed.sound hsound) hlive hwaits' hinfo
      refine ⟨need', next, ?_, hswept.cons hsound hout hmet hresumed herror, fun i => ?_⟩
      · rw [hgo, if_pos hmet, heq]
        exact hloop
      · have hgot : next.eventSet t = (s.made k t susp).eventSet t :=
          (hswept.others t fun hwoken => hout hwoken.1).2.2.1
        have hfirst : (if (s.eventInfo t).clear then need ||| (s.made k t susp).eventSet t
            else need).getLsbD i = true ↔ need.getLsbD i = true ∨
              (s.eventInfo t).clear = true ∧ (next.eventSet t).getLsbD i = true := by
          rw [hgot]
          cases (s.eventInfo t).clear with
          | true => simp
          | false => simp
        rw [hneed, hfirst, or_assoc]
        refine or_congr_right ⟨fun h => ?_, ?_⟩
        · rcases h with h | ⟨u, hu, h⟩
          · exact ⟨t, (woken_cons susp hmet t).mpr (.inl rfl), h⟩
          · exact ⟨u, (woken_cons susp hmet u).mpr (.inr hu), h⟩
        · rintro ⟨u, hu, h⟩
          rcases (woken_cons susp hmet u).mp hu with rfl | hu
          · exact .inl h
          · exact .inr ⟨u, hu, h⟩
    · have hmiss := Bool.eq_false_iff.mpr hmet
      obtain ⟨need', next, hloop, hswept, hneed⟩ := ih need hrest hsound htimed
        (fun u hu => hwaits u (List.mem_cons_of_mem t hu)) hinfo
      refine ⟨need', next, ?_, hswept.skip hmiss, fun i => (hneed i).trans ?_⟩
      · rw [hgo, if_neg hmet]
        exact hloop
      · simp only [woken_skip hmiss]

end Loop

/-! ## The invariant -/

section Invariant

variable {s next : EventState τ κ} {k : κ} {t : τ} {call : EventCall κ} {set : BitVec 32}

/-- What is known of a thread that is suspended in a call. -/
structure Waits (s : EventState τ κ) (t : τ) (c : EventCall κ) : Prop where
  call : s.call t = some c
  mem : t ∈ s.susp.suspendThread c.event
  set : s.eventSet t = c.set
  info : s.eventInfo t = c.option
  proper : c.option.and = true ∨ c.option.or = true
  unmet : c.option.met c.set (s.set c.event) = false

/-- The flags that a call has returned were there, and meet its condition. -/
def ReturnRight (r : EventReturn τ κ) : Prop :=
  ∃ recved, r.recved = some recved ∧ recved &&& r.metBy = recved ∧
    r.call.option.met r.call.set recved = true

theorem returnRight_got {thread : τ} {error : Int} {flags : BitVec 32}
    (hmet : call.option.met call.set flags = true) :
    ReturnRight (⟨thread, call, error, some (call.set &&& flags), flags⟩ : EventReturn τ κ) := by
  refine ⟨_, rfl, ?_, ?_⟩
  · show call.set &&& flags &&& flags = call.set &&& flags
    rw [BitVec.and_assoc, BitVec.and_self]
  · show call.option.met call.set (call.set &&& flags) = true
    rw [EventOption.met_and_set]
    exact hmet

/-- A return is appended that is right if it has no error. -/
theorem reported_append {r : EventReturn τ κ}
    (h : ∀ r ∈ s.returns, r.error = 0 → ReturnRight r) (hr : r.error = 0 → ReturnRight r) :
    ∀ r' ∈ s.returns ++ [r], r'.error = 0 → ReturnRight r' := by
  intro r' hmem
  rcases List.mem_append.mp hmem with hmem | hmem
  · exact h r' hmem
  · rw [List.mem_singleton.mp hmem]
    exact hr

structure Kept (s : EventState τ κ) : Prop where
  sound : s.susp.Sound
  timed : s.Timed
  waits : ∀ t, s.susp.suspended t = true → ∃ call, s.Waits t call
  /-- a thread that is ready again without an error has got what it asked for -/
  woken : ∀ t call, s.call t = some call → s.susp.suspended t = false → s.susp.error t = 0 →
    s.eventSet t = call.set &&& s.metBy t ∧ call.option.met call.set (s.metBy t) = true
  reported : ∀ r ∈ s.returns, r.error = 0 → ReturnRight r

theorem kept_init (flag : κ → IpcFlag) (currentPriority : τ → Nat) :
    (init flag currentPriority).Kept where
  sound := ⟨fun _ => List.nodup_nil, fun _ _ _ ht => absurd ht List.not_mem_nil,
    fun _ _ ht => absurd ht List.not_mem_nil⟩
  timed := ⟨fun _ ht => absurd ht Bool.false_ne_true, fun _ ht => absurd ht Bool.false_ne_true,
    fun _ ht => absurd ht Bool.false_ne_true⟩
  waits t ht := by cases ht
  woken t call ht := by cases ht
  reported r hr := absurd hr List.not_mem_nil

/-- A waiter in the list of an event. -/
theorem Kept.listed (h : s.Kept) (hmem : t ∈ s.susp.suspendThread k) :
    ∃ call, s.Waits t call ∧ call.event = k := by
  obtain ⟨call, hwaits⟩ := h.waits t (h.sound.suspended k t hmem)
  exact ⟨call, hwaits, h.sound.single _ _ t hwaits.mem hmem⟩

/-- Fewer flags leave a waiter as it is. -/
theorem Waits.of_and {u : τ} {c : EventCall κ} (h : s.Waits u c) (kept : BitVec 32)
    (hmem : u ∈ next.susp.suspendThread c.event) (hcall : next.call u = s.call u)
    (hset : next.eventSet u = s.eventSet u) (hinfo : next.eventInfo u = s.eventInfo u)
    (hflags : next.set c.event = s.set c.event ∨ next.set c.event = s.set c.event &&& kept) :
    next.Waits u c where
  call := hcall.trans h.call
  mem := hmem
  set := hset.trans h.set
  info := hinfo.trans h.info
  proper := h.proper
  unmet := by
    rcases hflags with hsame | hless
    · rw [hsame]
      exact h.unmet
    · rw [hless]
      exact Bool.eq_false_iff.mpr fun hmet =>
        Bool.eq_false_iff.mp h.unmet (EventOption.met_of_and hmet)

variable [DecidableEq τ]

theorem Kept.expire (h : s.Kept) (hactive : s.susp.timerActivated t = true) :
    { s with susp := s.susp.expire t }.Kept := by
  have hresumed := s.susp.expire_resumed t
  have htaken := (h.timed.takeTimer hactive).threadTimeout
    (Function.update_self t true fun _ => false)
  exact {
    sound := hresumed.sound h.sound
    timed := by
      rwa [Function.update_idem, Function.update_eq_self_iff.mpr rfl] at htaken
    waits := fun u hu => by
      obtain ⟨hut, hu⟩ := hresumed.suspended_of_true hu
      obtain ⟨call, hwaits⟩ := h.waits u hu
      exact ⟨call, { hwaits with mem := (hresumed.mem h.sound).mpr ⟨hut, hwaits.mem⟩ }⟩
    woken := fun u call hcall hrun herror => by
      by_cases hut : u = t
      · subst hut
        have hlate : (s.susp.expire u).error u = -rtETimeout := Function.update_self _ _ _
        cases hlate.symm.trans herror
      · rw [hresumed.suspended_of_ne hut] at hrun
        exact h.woken u call hcall hrun ((Function.update_of_ne hut _ _).symm.trans herror)
    reported := h.reported }

theorem Kept.rtEventRecvEnd (h : s.Kept) (hrun : s.susp.suspended t = false)
    (hcall : s.call t = some call) : (s.rtEventRecvEnd t call).Kept := by
  have hwaits : ∀ u, s.susp.suspended u = true → ∃ call',
      { s with call := Function.update s.call t none }.Waits u call' := fun u hu => by
    have hut : u ≠ t := by
      rintro rfl
      exact Bool.false_ne_true (hrun.symm.trans hu)
    obtain ⟨call', hthis⟩ := h.waits u hu
    exact ⟨call', { hthis with call := (Function.update_of_ne hut _ _).trans hthis.call }⟩
  have hwoken : ∀ u call', Function.update s.call t none u = some call' →
      s.susp.suspended u = false → s.susp.error u = 0 →
        s.eventSet u = call'.set &&& s.metBy u ∧
          call'.option.met call'.set (s.metBy u) = true := fun u call' hthis => by
    have hut : u ≠ t := by
      rintro rfl
      rw [Function.update_self] at hthis
      cases hthis
    rw [Function.update_of_ne hut] at hthis
    exact h.woken u call' hthis
  unfold EventState.rtEventRecvEnd
  by_cases herror : s.susp.error t = 0
  · obtain ⟨hset, hmet⟩ := h.woken t call hcall hrun herror
    rw [if_neg (not_not.mpr herror)]
    refine ⟨h.sound, h.timed, fun u hu => ?_, hwoken, reported_append h.reported fun _ => ?_⟩
    · obtain ⟨call', hthis⟩ := hwaits u hu
      exact ⟨call', ⟨hthis.call, hthis.mem, hthis.set, hthis.info, hthis.proper, hthis.unmet⟩⟩
    · show ReturnRight ⟨t, call, 0, some (s.eventSet t), s.metBy t⟩
      rw [hset]
      exact returnRight_got hmet
  · rw [if_pos herror]
    refine ⟨h.sound, h.timed, fun u hu => ?_, hwoken, reported_append h.reported
      fun hok => absurd hok herror⟩
    obtain ⟨call', hthis⟩ := hwaits u hu
    exact ⟨call', ⟨hthis.call, hthis.mem, hthis.set, hthis.info, hthis.proper, hthis.unmet⟩⟩

/-- A call returns at once to the running thread. -/
theorem Kept.returned {error : Int} {r : EventReturn τ κ} (h : s.Kept) (kept : BitVec 32)
    (hrun : s.susp.suspended t = false) (hcall : s.call t = none)
    (hsusp : next.susp = { s.susp with error := Function.update s.susp.error t error })
    (hcalls : next.call = s.call) (hmetBy : next.metBy = s.metBy)
    (hothers : ∀ u, u ≠ t → next.eventSet u = s.eventSet u ∧ next.eventInfo u = s.eventInfo u)
    (hflags : ∀ k, next.set k = s.set k ∨ next.set k = s.set k &&& kept)
    (hreturns : next.returns = s.returns ++ [r]) (hr : r.error = 0 → ReturnRight r) :
    next.Kept where
  sound := by
    rw [hsusp]
    exact ⟨h.sound.nodup, h.sound.single, h.sound.suspended⟩
  timed := by
    rw [Timed, hsusp]
    exact ⟨h.timed.live, h.timed.armed, h.timed.fired⟩
  waits u hu := by
    rw [hsusp] at hu
    obtain ⟨c, hwaits⟩ := h.waits u hu
    have hut : u ≠ t := by
      rintro rfl
      exact Bool.false_ne_true (hrun.symm.trans hu)
    obtain ⟨hset, hinfo⟩ := hothers u hut
    refine ⟨c, hwaits.of_and kept ?_ (congrFun hcalls u) hset hinfo (hflags c.event)⟩
    rw [hsusp]
    exact hwaits.mem
  woken u c hthis hready herror := by
    rw [hcalls] at hthis
    have hut : u ≠ t := by
      rintro rfl
      cases hcall.symm.trans hthis
    rw [hsusp] at hready herror
    rw [(hothers u hut).1, hmetBy]
    exact h.woken u c hthis hready ((Function.update_of_ne hut _ _).symm.trans herror)
  reported := by
    rw [hreturns]
    exact reported_append h.reported hr

variable [DecidableEq κ]

theorem Kept.rtEventRecv (h : s.Kept) (hrun : s.susp.suspended t = false)
    (hcall : s.call t = none) (hset : call.set ≠ 0)
    (hproper : call.option.and = true ∨ call.option.or = true) (timeout : Int) :
    (s.rtEventRecv t call timeout).Kept := by
  unfold EventState.rtEventRecv
  rw [if_neg hset]
  by_cases hmet : call.option.met call.set (s.set call.event) = true
  · rw [if_pos hmet]
    let cleared : κ → BitVec 32 := if call.option.clear then
      Function.update s.set call.event (s.set call.event &&& ~~~call.set) else s.set
    have hcleared : ∀ k, cleared k = s.set k ∨ cleared k = s.set k &&& ~~~call.set := fun k => by
      by_cases hclear : call.option.clear = true
      · rw [show cleared = _ from if_pos hclear]
        by_cases hk : k = call.event
        · rw [hk, Function.update_self]
          exact .inr rfl
        · rw [Function.update_of_ne hk]
          exact .inl rfl
      · exact .inl (congrFun (if_neg hclear) k)
    refine h.returned (~~~call.set) hrun hcall rfl rfl rfl
      (fun u hut => ⟨Function.update_of_ne hut _ _, Function.update_of_ne hut _ _⟩) hcleared rfl
      fun _ => ?_
    rw [BitVec.and_comm]
    exact returnRight_got hmet
  · rw [if_neg hmet]
    have hunmet := Bool.eq_false_iff.mpr hmet
    by_cases hnow : timeout = 0
    · rw [if_pos hnow]
      exact h.returned 0 hrun hcall rfl rfl rfl (fun _ _ => ⟨rfl, rfl⟩)
        (fun _ => .inl rfl) rfl nofun
    · rw [if_neg hnow]
      have hsound : (s.setError t (-rtEIntr)).susp.Sound :=
        ⟨h.sound.nodup, h.sound.single, h.sound.suspended⟩
      have htimed : (s.setError t (-rtEIntr)).Timed :=
        ⟨h.timed.live, h.timed.armed, h.timed.fired⟩
      have hsusp := ((s.setError t (-rtEIntr)).susp.rtThreadSuspendToList_suspended t call.event
        (s.flag call.event)).startTimer timeout
      exact {
        sound := hsusp.sound hsound hrun
        timed := htimed.suspend hrun call.event (s.flag call.event) timeout
        waits := fun u hu => by
          by_cases hut : u = t
          · subst hut
            exact ⟨call, Function.update_self _ _ _, hsusp.mem.mpr (.inr ⟨rfl, rfl⟩),
              Function.update_self _ _ _, Function.update_self _ _ _, hproper, hunmet⟩
          · obtain ⟨c, hwaits⟩ := h.waits u ((hsusp.suspended_of_ne hut).symm.trans hu)
            exact ⟨c, hwaits.of_and 0 (hsusp.mem.mpr (.inl hwaits.mem))
              (Function.update_of_ne hut _ _) (Function.update_of_ne hut _ _)
              (Function.update_of_ne hut _ _) (.inl rfl)⟩
        woken := fun u c hthis hready herror => by
          have hut : u ≠ t := by
            rintro rfl
            exact Bool.false_ne_true (hready.symm.trans hsusp.suspended_self)
          have hcall' := (Function.update_of_ne hut _ _).symm.trans hthis
          have hset' : Function.update s.eventSet t call.set u = s.eventSet u :=
            Function.update_of_ne hut _ _
          show Function.update s.eventSet t call.set u = _ ∧ _
          rw [hset']
          refine h.woken u c hcall' ((hsusp.suspended_of_ne hut).symm.trans hready) ?_
          have hsame : (s.setError t (-rtEIntr)).susp.error u = s.susp.error u :=
            Function.update_of_ne hut _ _
          rw [← hsame, ← hsusp.error]
          exact herror
        reported := h.reported }

/-! ## What a send does -/

/-- A waiter of the event whose condition these flags meet. -/
def Meets (s : EventState τ κ) (k : κ) (flags : BitVec 32) (t : τ) : Prop :=
  ∃ c, s.Waits t c ∧ c.event = k ∧ c.option.met c.set flags = true

/-- Afterwards the waiters that the flags satisfy are ready, with the flags they asked for. -/
structure SendRight (s next : EventState τ κ) (k : κ) (set : BitVec 32) : Prop where
  woken : ∀ t c, s.Waits t c → c.event = k → c.option.met c.set (s.set k ||| set) = true →
    next.susp.suspended t = false ∧ next.susp.error t = 0 ∧
      next.eventSet t = c.set &&& (s.set k ||| set)
  /-- the others wait on, in their order -/
  rest : ∀ k', (next.susp.suspendThread k').Sublist (s.susp.suspendThread k') ∧
    ∀ t ∈ s.susp.suspendThread k',
      t ∈ next.susp.suspendThread k' ↔ ¬ s.Meets k (s.set k ||| set) t
  /-- what the waiters with `RT_EVENT_FLAG_CLEAR` have got is cleared, and nothing else -/
  cleared : ∀ i, (next.set k).getLsbD i = true ↔ (s.set k ||| set).getLsbD i = true ∧
    ¬ ∃ t c, s.Waits t c ∧ c.event = k ∧ c.option.met c.set (s.set k ||| set) = true ∧
      c.option.clear = true ∧ (next.eventSet t).getLsbD i = true
  others : ∀ k', k' ≠ k → next.set k' = s.set k'

omit [DecidableEq τ] in
/-- The waiters that the loop has made ready. -/
theorem Kept.woken_iff (h : s.Kept) (k : κ) (set : BitVec 32) (t : τ) :
    (s.raise k set).Woken k (s.susp.suspendThread k) t ↔ s.Meets k (s.set k ||| set) t := by
  have hsat : ∀ c, s.Waits t c →
      (s.raise k set).satisfied k t = c.option.met c.set (s.set k ||| set) := fun c hwaits => by
    show (s.eventInfo t).met (s.eventSet t) (Function.update s.set k (s.set k ||| set) k) = _
    rw [hwaits.info, hwaits.set, Function.update_self]
  constructor
  · rintro ⟨hmem, hmet⟩
    obtain ⟨c, hwaits, hevent⟩ := h.listed hmem
    exact ⟨c, hwaits, hevent, (hsat c hwaits).symm.trans hmet⟩
  · rintro ⟨c, hwaits, rfl, hmet⟩
    exact ⟨hwaits.mem, (hsat c hwaits).trans hmet⟩

/-- What `rt_event_send` leaves. -/
theorem Kept.rtEventSend_eq (h : s.Kept) (k : κ) (hset : set ≠ 0) :
    ∃ need next, s.rtEventSend k set =
        { next with set := Function.update next.set k (next.set k &&& ~~~need) } ∧
      (s.raise k set).Swept next k (s.susp.suspendThread k) ∧
      ∀ i, need.getLsbD i = true ↔ ∃ t, s.Meets k (s.set k ||| set) t ∧
        (s.eventInfo t).clear = true ∧ (next.eventSet t).getLsbD i = true := by
  have hproper : ∀ t ∈ s.susp.suspendThread k,
      (s.eventInfo t).and = true ∨ (s.eventInfo t).or = true := fun t ht => by
    obtain ⟨c, hwaits, -⟩ := h.listed ht
    rw [hwaits.info]
    exact hwaits.proper
  obtain ⟨need, next, hloop, hswept, hneed⟩ := sendLoop_spec (s := s.raise k set) (k := k) 0
    (h.sound.nodup k) h.sound h.timed (h.sound.suspended k) hproper
  refine ⟨need, next, ?_, hswept, fun i => (hneed i).trans ?_⟩
  · rw [EventState.rtEventSend, if_neg hset, hloop]
  · have hzero : ¬ (0 : BitVec 32).getLsbD i = true := by simp
    rw [or_iff_right hzero]
    exact exists_congr fun t => and_congr_left' (h.woken_iff k set t)

theorem Kept.rtEventSend (h : s.Kept) (k : κ) (hset : set ≠ 0) :
    (s.rtEventSend k set).Kept ∧ s.SendRight (s.rtEventSend k set) k set := by
  obtain ⟨need, next, heq, hswept, hneed⟩ := h.rtEventSend_eq k hset
  have hflags : next.set k = s.set k ||| set := by
    rw [hswept.set]
    exact Function.update_self _ _ _
  have hwoken : ∀ t c, s.Waits t c → c.event = k →
      c.option.met c.set (s.set k ||| set) = true →
        next.susp.suspended t = false ∧ next.susp.error t = 0 ∧
          next.eventSet t = c.set &&& (s.set k ||| set) ∧
            next.metBy t = s.set k ||| set := fun t c hwaits hevent hmet => by
    obtain ⟨hrun, herror, hgot, hby⟩ :=
      hswept.woken t ((h.woken_iff k set t).mpr ⟨c, hwaits, hevent, hmet⟩)
    have hraised : (s.raise k set).set k = s.set k ||| set := Function.update_self _ _ _
    rw [hraised] at hgot hby
    exact ⟨hrun, herror, hgot.trans (congrArg (· &&& _) hwaits.set), hby⟩
  have hothers : ∀ t, ¬ s.Meets k (s.set k ||| set) t →
      next.susp.suspended t = s.susp.suspended t ∧ next.susp.error t = s.susp.error t ∧
        next.eventSet t = s.eventSet t ∧ next.metBy t = s.metBy t := fun t ht =>
    hswept.others t (mt (h.woken_iff k set t).mp ht)
  have hlists : ∀ k', (next.susp.suspendThread k').Sublist (s.susp.suspendThread k') ∧
      ∀ t ∈ s.susp.suspendThread k',
        t ∈ next.susp.suspendThread k' ↔ ¬ s.Meets k (s.set k ||| set) t := fun k' => by
    rw [hswept.lists k']
    refine ⟨List.filter_sublist, fun t ht => ?_⟩
    rw [List.mem_filter, decide_eq_true_eq, h.woken_iff k set t]
    exact and_iff_right ht
  have hset' : ∀ k', Function.update next.set k (next.set k &&& ~~~need) k' =
      if k' = k then (s.set k ||| set) &&& ~~~need else s.set k' := fun k' => by
    by_cases hk : k' = k
    · rw [hk, Function.update_self, if_pos rfl, hflags]
    · rw [Function.update_of_ne hk, if_neg hk, hswept.set]
      exact Function.update_of_ne hk _ _
  rw [heq]
  constructor
  · exact {
      sound := hswept.sound
      timed := hswept.timed
      waits := fun t ht => by
        have hnot : ¬ s.Meets k (s.set k ||| set) t := by
          rintro ⟨c, hwaits, hevent, hmet⟩
          exact Bool.false_ne_true ((hwoken t c hwaits hevent hmet).1.symm.trans ht)
        obtain ⟨hrun, -, hgot, -⟩ := hothers t hnot
        obtain ⟨c, hwaits⟩ := h.waits t (hrun.symm.trans ht)
        refine ⟨c, (congrFun hswept.call t).trans hwaits.call,
          ((hlists c.event).2 t hwaits.mem).mpr hnot, hgot.trans hwaits.set,
          (congrFun hswept.info t).trans hwaits.info, hwaits.proper, ?_⟩
        show c.option.met c.set (Function.update next.set k (next.set k &&& ~~~need) c.event) = _
        rw [hset']
        by_cases hk : c.event = k
        · rw [if_pos hk]
          exact Bool.eq_false_iff.mpr fun hmet =>
            hnot ⟨c, hwaits, hk, EventOption.met_of_and hmet⟩
        · rw [if_neg hk]
          exact hwaits.unmet
      woken := fun t c hcall hrun herror => by
        have hcall' : s.call t = some c := (congrFun hswept.call t).symm.trans hcall
        by_cases hmeets : s.Meets k (s.set k ||| set) t
        · obtain ⟨c', hwaits, hevent, hmet⟩ := hmeets
          obtain rfl := Option.some.inj (hcall'.symm.trans hwaits.call)
          obtain ⟨-, -, hgot, hby⟩ := hwoken t c hwaits hevent hmet
          show next.eventSet t = c.set &&& next.metBy t ∧ c.option.met c.set (next.metBy t) = true
          rw [hby]
          exact ⟨hgot, hmet⟩
        · obtain ⟨hrun', herror', hgot, hby⟩ := hothers t hmeets
          show next.eventSet t = c.set &&& next.metBy t ∧ c.option.met c.set (next.metBy t) = true
          rw [hgot, hby]
          exact h.woken t c hcall' (hrun'.symm.trans hrun) (herror'.symm.trans herror)
      reported := hswept.returns ▸ h.reported }
  · exact {
      woken := fun t c hwaits hevent hmet => by
        obtain ⟨hrun, herror, hgot, -⟩ := hwoken t c hwaits hevent hmet
        exact ⟨hrun, herror, hgot⟩
      rest := hlists
      cleared := fun i => by
        show (Function.update next.set k (next.set k &&& ~~~need) k).getLsbD i = true ↔ _
        rw [hset', if_pos rfl, BitVec.getLsbD_and, BitVec.getLsbD_not, Bool.and_eq_true,
          Bool.and_eq_true, decide_eq_true_eq, Bool.not_eq_true', ← Bool.not_eq_true, hneed]
        refine and_congr_right fun hbit => (and_iff_right (BitVec.lt_of_getLsbD hbit)).trans ?_
        refine not_congr (exists_congr fun t => ⟨?_, ?_⟩)
        · rintro ⟨⟨c, hwaits, hevent, hmet⟩, hclear, hgot⟩
          exact ⟨c, hwaits, hevent, hmet, hwaits.info ▸ hclear, hgot⟩
        · rintro ⟨c, hwaits, hevent, hmet, hclear, hgot⟩
          exact ⟨⟨c, hwaits, hevent, hmet⟩, hwaits.info.symm ▸ hclear, hgot⟩
      others := fun k' hk => (hset' k').trans (if_neg hk) }

theorem Kept.step {a : EventStep τ κ} (h : s.Kept) (hproper : s.Proper a)
    (hstep : machine.step s a = some next) : next.Kept := by
  cases a with
  | recv t call timeout =>
    by_cases hruns : s.susp.suspended t = false ∧ (s.call t).isNone
    · simp only [machine, if_pos hruns] at hstep
      obtain rfl := Option.some.inj hstep
      exact h.rtEventRecv hruns.1 (Option.isNone_iff_eq_none.mp hruns.2) hproper.1 hproper.2 timeout
    · simp only [machine, if_neg hruns] at hstep
      cases hstep
  | wake t =>
    cases hrun : s.susp.suspended t with
    | true =>
      simp only [machine, hrun, if_true] at hstep
      cases hstep
    | false =>
      simp only [machine, hrun, Bool.false_eq_true, if_false] at hstep
      obtain ⟨call, hcall, rfl⟩ := Option.map_eq_some_iff.mp hstep
      exact h.rtEventRecvEnd hrun hcall
  | send k set =>
    obtain rfl := Option.some.inj hstep
    by_cases hset : set = 0
    · rw [EventState.rtEventSend, if_pos hset]
      exact h
    · exact (h.rtEventSend k hset).1
  | expire t =>
    by_cases hactive : s.susp.timerActivated t = true
    · obtain rfl : _ = next := by simpa [machine, hactive] using hstep
      exact h.expire hactive
    · simp only [machine, if_neg hactive] at hstep
      cases hstep

/-- What events promise to the threads that use them. -/
structure EventRight (s : EventState τ κ) : Prop where
  /-- a suspended thread is in the list of its event, whose flags do not meet its condition -/
  waiting : ∀ t, s.susp.suspended t = true → ∃ c, s.Waits t c
  reported : ∀ r ∈ s.returns, r.error = 0 → ReturnRight r
  send : ∀ k set, set ≠ 0 → s.SendRight (s.rtEventSend k set) k set

/-- In every run of threads, interrupt handlers and timers, no thread waits for flags that are
there, a call returns flags that were there, and a send satisfies every waiter it can. -/
theorem event_right (flag : κ → IpcFlag) (currentPriority : τ → Nat)
    {steps : List (EventStep τ κ)} {final : EventState τ κ}
    (run : machine.Run Proper (init flag currentPriority) steps final) : final.EventRight := by
  have hkept : final.Kept :=
    run.invariant (fun _ _ _ hproper hstep h => Kept.step h hproper hstep)
      (kept_init flag currentPriority)
  exact ⟨hkept.waits, hkept.reported, fun k _ hset => (hkept.rtEventSend k hset).2⟩

/-- Two threads wait for the same flag, and both clear it. -/
def sharedFlag : List (EventStep Bool Unit) :=
  [.recv false ⟨(), 1, ⟨false, true, true⟩⟩ (-1), .recv true ⟨(), 3, ⟨false, true, true⟩⟩ 10,
    .send () 5, .wake true, .wake false]

theorem event_right_sharedFlag :
    ∃ final, machine.exec (init (fun _ => .prio) fun _ => 8) sharedFlag = some final ∧
      final.returns.map (·.recved) = [some 1, some 1] ∧ final.set () = 4 ∧ final.EventRight := by
  obtain ⟨final, hexec⟩ :
      ∃ final, machine.exec (init (fun _ => .prio) fun _ => 8) sharedFlag = some final := ⟨_, rfl⟩
  have hends : (machine.exec (init (fun _ => .prio) fun _ => 8) sharedFlag).map (fun s =>
      (s.returns.map (·.recved), s.set ())) = some ([some 1, some 1], 4) := rfl
  rw [hexec] at hends
  obtain ⟨hreturns, hset⟩ := Prod.mk.inj (Option.some.inj hends)
  have hproper : machine.Admitted Proper (init (fun _ => .prio) fun _ => 8) sharedFlag :=
    ⟨⟨by decide, .inr rfl⟩, fun _ _ => ⟨⟨by decide, .inr rfl⟩, fun _ _ =>
      ⟨trivial, fun _ _ => ⟨trivial, fun _ _ => ⟨trivial, fun _ _ => trivial⟩⟩⟩⟩⟩
  exact ⟨final, hexec, hreturns, hset, event_right (fun _ => .prio) (fun _ => 8)
    (Machine.Run.of_exec hexec hproper)⟩

end Invariant

end EventState

end Gd32Vw553h.Ipc
