/-
  Wlan/Completion.lean --- `complete_tab`: waiting for a device event
  (`components/drivers/wlan/dev_wlan_mgnt.c`, `src/ipc.c`).

  A call that waits creates a descriptor, starts its operation, waits and deletes the
  descriptor; a dispatch marks the event at every descriptor of the table, first in
  `event_flag` and then through `rt_event_send`.  All of this runs in any number of
  threads, one statement at a time.  Only a dispatch is seen halfway through its
  section under `complete_mutex`, so the sections that claim and release an entry
  are one step each.  A call made from inside an operation, as by a driver that
  indicates its event synchronously, counts as a thread of its own.

  `Fits` says what each point of a call knows about the table, its descriptor and its
  thread.  `fits_own` and `fits_other` say that every statement keeps it, and
  `fits_run` that it holds throughout.
-/
import Gd32Vw553h.Foundation.Threads
import Gd32Vw553h.Wlan.Scan

set_option autoImplicit false

namespace Gd32Vw553h.Wlan.Complete

open Gd32Vw553h.Foundation Gd32Vw553h.Klibc

/-! ## Event words -/

/-- `word & (0x1 << event)` -/
def Marked (word : UInt32) (event : RtWlanDevEvent) : Prop := word &&& event.bit ≠ 0

instance (word : UInt32) (event : RtWlanDevEvent) : Decidable (Marked word event) :=
  inferInstanceAs (Decidable (_ ≠ _))

theorem bit_toBitVec (event : RtWlanDevEvent) :
    event.bit.toBitVec = BitVec.twoPow 32 event.value.toNat := by
  cases event <;> rfl

/-- A word has the whole of an event's bit or nothing of it. -/
theorem and_bit (word : UInt32) (event : RtWlanDevEvent) :
    word &&& event.bit = 0 ∨ word &&& event.bit = event.bit := by
  have hword : (word &&& event.bit).toBitVec =
      if word.toBitVec.getLsbD event.value.toNat then event.bit.toBitVec else 0 := by
    rw [UInt32.toBitVec_and, bit_toBitVec, BitVec.and_twoPow]
    rfl
  split at hword
  · exact .inr (UInt32.eq_of_toBitVec_eq hword)
  · exact .inl (UInt32.eq_of_toBitVec_eq hword)

theorem marked_bit (event other : RtWlanDevEvent) : Marked event.bit other ↔ event = other := by
  cases event <;> cases other <;> decide

theorem marked_or (left right : UInt32) (event : RtWlanDevEvent) :
    Marked (left ||| right) event ↔ Marked left event ∨ Marked right event := by
  have hdistrib : (left ||| right) &&& event.bit = left &&& event.bit ||| right &&& event.bit := by
    apply UInt32.eq_of_toBitVec_eq
    simp only [UInt32.toBitVec_and, UInt32.toBitVec_or, BitVec.and_or_distrib_right]
  unfold Marked
  rw [hdistrib, ne_eq, UInt32.or_eq_zero_iff, not_and_or]

theorem marked_and (left right : UInt32) (event : RtWlanDevEvent) :
    Marked (left &&& right) event ↔ Marked left event ∧ Marked right event := by
  unfold Marked
  rw [UInt32.and_assoc]
  rcases and_bit right event with hright | hright
  · rw [hright, UInt32.and_zero]
    exact iff_of_false (fun h => h rfl) fun h => h.2 rfl
  · rw [hright]
    have hbit : event.bit ≠ 0 := by
      cases event <;> decide
    exact (and_iff_left hbit).symm

/-- An event of both words makes them meet. -/
theorem Marked.and_ne_zero {left right : UInt32} {event : RtWlanDevEvent}
    (hleft : Marked left event) (hright : Marked right event) : left &&& right ≠ 0 := by
  intro hzero
  have hmarked := (marked_and left right event).mpr ⟨hleft, hright⟩
  rw [hzero] at hmarked
  exact hmarked UInt32.zero_and

/-- A word that consists of event bits. -/
def EventWord (word : UInt32) : Prop :=
  ∀ set, word &&& set ≠ 0 → ∃ event, Marked word event ∧ Marked set event

theorem eventWord_zero : EventWord 0 := fun _ h => absurd UInt32.zero_and h

theorem EventWord.or_bit {word : UInt32} (h : EventWord word) (event : RtWlanDevEvent) :
    EventWord (word ||| event.bit) := by
  intro set hset
  have hdistrib : (word ||| event.bit) &&& set = word &&& set ||| event.bit &&& set := by
    apply UInt32.eq_of_toBitVec_eq
    simp only [UInt32.toBitVec_and, UInt32.toBitVec_or, BitVec.and_or_distrib_right]
  rw [hdistrib, ne_eq, UInt32.or_eq_zero_iff, not_and_or] at hset
  rcases hset with hold | hnew
  · obtain ⟨other, hword, hother⟩ := h set hold
    exact ⟨other, (marked_or _ _ _).mpr (.inl hword), hother⟩
  · refine ⟨event, (marked_or _ _ _).mpr (.inr ((marked_bit _ _).mpr rfl)), ?_⟩
    rwa [UInt32.and_comm] at hnew

/-! ## State -/

/-- `struct rt_wlan_complete_des`: the words of `RtWlanCompleteDes`, whether the waiter
is on `complete.parent.suspend_thread`, and `index`. -/
structure CompleteDes extends RtWlanCompleteDes where
  suspended : Bool
  index : Fin 5

/-- What `rt_wlan_complete_create` writes before the descriptor has its entry. -/
def CompleteDes.fresh : CompleteDes := ⟨.create, false, 0⟩

/-- `event_set` and `error` of `struct rt_thread` -/
structure RtThread where
  eventSet : UInt32
  error : Int

/-- The shared state; a descriptor goes by the call that has allocated it. -/
structure Shared (ι : Type*) where
  /-- the dispatch that holds `complete_mutex` -/
  mutex : Option ι
  /-- `complete_tab` -/
  tab : Fin 5 → Option ι
  des : ι → Option CompleteDes
  thread : ι → RtThread

/-- The calls. -/
inductive Call where
  /-- create a descriptor, start an operation, wait for the events of `set` and delete -/
  | operate (set : UInt32)
  /-- `rt_wlan_event_dispatch` -/
  | dispatch (event : RtWlanDevEvent)

/-- Where a call stands. -/
inductive Point where
  | malloc (set : UInt32)
  | claim (set : UInt32)
  | operation (set : UInt32)
  | waitTest (set : UInt32)
  | waitRead (set : UInt32)
  | waitRecv (set : UInt32)
  | asleep (set : UInt32)
  /-- `rt_wlan_complete_wait` has returned `err` and stored `recved` -/
  | returned (set : UInt32) (err : Int) (recved : UInt32)
  | clear
  | free
  | lock (event : RtWlanDevEvent)
  /-- the loop of the dispatch, with these entries still to come -/
  | flag (event : RtWlanDevEvent) (todo : List (Fin 5))
  | send (event : RtWlanDevEvent) (i : Fin 5) (todo : List (Fin 5))
  | unlock (event : RtWlanDevEvent)

/-- What a statement gets from outside. -/
inductive Choice where
  | go
  /-- whether `rt_malloc` succeeds -/
  | malloc (ok : Bool)
  /-- whether the operation starts -/
  | operation (ok : Bool)
  /-- the thread timer expires -/
  | timeout

variable {ι : Type*} [DecidableEq ι]

namespace Shared

def setDes (s : Shared ι) (t : ι) (d : Option CompleteDes) : Shared ι :=
  { s with des := Function.update s.des t d }

def setThread (s : Shared ι) (t : ι) (thread : RtThread) : Shared ι :=
  { s with thread := Function.update s.thread t thread }

def setTab (s : Shared ι) (i : Fin 5) (entry : Option ι) : Shared ι :=
  { s with tab := Function.update s.tab i entry }

end Shared

/-! ## The statements -/

/-- The order in which the loops go through `complete_tab`. -/
def entries : List (Fin 5) := [0, 1, 2, 3, 4]

theorem mem_entries (i : Fin 5) : i ∈ entries := by
  revert i
  decide

/-- The first free entry of `complete_tab`. -/
def freeEntry (s : Shared ι) : Option (Fin 5) := entries.find? fun i => (s.tab i).isNone

/-- `complete_tab[i] = complete`, `complete->index = i` -/
def claimEntry (s : Shared ι) (t : ι) (d : CompleteDes) (i : Fin 5) : Shared ι :=
  (s.setDes t (some { d with index := i })).setTab i (some t)

/-- `rt_event_recv` up to the point where it returns or the thread sleeps. -/
def eventRecv (s : Shared ι) (t : ι) (d : CompleteDes) (set : UInt32) : Shared ι × Point :=
  if set = 0 then (s, .returned set (-rtError) 0)
  else if d.set &&& set ≠ 0 then
    (s.setThread t ⟨d.set &&& set, 0⟩, .returned set 0 (d.set &&& set))
  else
    ((s.setDes t (some { d with suspended := true })).setThread t ⟨set, -rtEIntr⟩, .asleep set)

/-- `complete_tab[i]->event_flag |= 0x1 << event` -/
def flagEvent (s : Shared ι) (t : ι) (d : CompleteDes) (event : RtWlanDevEvent) : Shared ι :=
  s.setDes t (some { d with eventFlag := d.eventFlag ||| event.bit })

/-- `rt_event_send(&complete_tab[i]->complete, 0x1 << event)` -/
def eventSend (s : Shared ι) (t : ι) (d : CompleteDes) (event : RtWlanDevEvent) : Shared ι :=
  let set := d.set ||| event.bit
  if d.suspended = true ∧ (s.thread t).eventSet &&& set ≠ 0 then
    (s.setDes t (some { d with set := set, suspended := false })).setThread t
      ⟨(s.thread t).eventSet &&& set, 0⟩
  else s.setDes t (some { d with set := set })

/-- One statement.  A statement on a descriptor that is not there has no step. -/
def stmt (t : ι) (s : Shared ι) : Point → Choice → Option (Shared ι × Option Point)
  | .malloc set, .malloc ok =>
    if ok then some (s.setDes t (some .fresh), some (.claim set)) else some (s, none)
  | .claim set, .go =>
    if s.mutex.isSome then none
    else
      (s.des t).map fun d =>
        match freeEntry s with
        | some i => (claimEntry s t d i, some (.operation set))
        | none => (s, some .free)
  | .operation set, .operation ok => some (s, some (if ok then .waitTest set else .clear))
  | .waitTest set, .go =>
    (s.des t).map fun d =>
      (s, some (if d.eventFlag &&& set ≠ 0 then .waitRead set else .waitRecv set))
  | .waitRead set, .go => (s.des t).map fun d => (s, some (.returned set 0 d.eventFlag))
  | .waitRecv set, .go =>
    (s.des t).map fun d => ((eventRecv s t d set).1, some (eventRecv s t d set).2)
  | .asleep set, .go =>
    (s.des t).bind fun d =>
      if d.suspended then none
      else if (s.thread t).error ≠ 0 then some (s, some (.returned set (s.thread t).error 0))
      else some (s, some (.returned set 0 (s.thread t).eventSet))
  | .asleep set, .timeout =>
    (s.des t).bind fun d =>
      if d.suspended then
        some ((s.setDes t (some { d with suspended := false })).setThread t
          ⟨(s.thread t).eventSet, -rtETimeout⟩, some (.asleep set))
      else none
  | .returned _ _ _, .go => some (s, some .clear)
  | .clear, .go =>
    if s.mutex.isSome then none
    else (s.des t).map fun d => (s.setTab d.index none, some .free)
  | .free, .go => some (s.setDes t none, none)
  | .lock event, .go =>
    if s.mutex.isSome then none
    else some ({ s with mutex := some t }, some (.flag event entries))
  | .flag event [], .go => some (s, some (.unlock event))
  | .flag event (i :: todo), .go =>
    match s.tab i with
    | none => some (s, some (.flag event todo))
    | some u => (s.des u).map fun d => (flagEvent s u d event, some (.send event i todo))
  | .send event i todo, .go =>
    (s.tab i).bind fun u =>
      (s.des u).map fun d => (eventSend s u d event, some (.flag event todo))
  | .unlock _, .go => some ({ s with mutex := none }, none)
  | _, _ => none

/-- All calls, by any threads. -/
def program : Program ι (Shared ι) Point Call Choice where
  entry
    | .operate set => .malloc set
    | .dispatch event => .lock event
  stmt := stmt

/-- No descriptor, no dispatch. -/
def Shared.init : Shared ι where
  mutex := none
  tab _ := none
  des _ := none
  thread _ := ⟨0, 0⟩

/-! ## What a statement can do -/

/-- The steps of a call of thread `t`. -/
inductive Step (t : ι) (s : Shared ι) : Point → Shared ι → Option Point → Prop
  | mallocFails (set : UInt32) : Step t s (.malloc set) s none
  | mallocs (set : UInt32) :
      Step t s (.malloc set) (s.setDes t (some .fresh)) (some (.claim set))
  | claims (set : UInt32) (d : CompleteDes) (i : Fin 5) (hmutex : s.mutex = none)
      (hd : s.des t = some d) (hfree : s.tab i = none) :
      Step t s (.claim set) (claimEntry s t d i) (some (.operation set))
  | tableFull (set : UInt32) : Step t s (.claim set) s (some .free)
  | starts (set : UInt32) : Step t s (.operation set) s (some (.waitTest set))
  | startFails (set : UInt32) : Step t s (.operation set) s (some .clear)
  | tests (set : UInt32) (d : CompleteDes) (hd : s.des t = some d)
      (hflag : d.eventFlag &&& set ≠ 0) : Step t s (.waitTest set) s (some (.waitRead set))
  | testFails (set : UInt32) (d : CompleteDes) (hd : s.des t = some d)
      (hflag : d.eventFlag &&& set = 0) : Step t s (.waitTest set) s (some (.waitRecv set))
  | reads (set : UInt32) (d : CompleteDes) (hd : s.des t = some d) :
      Step t s (.waitRead set) s (some (.returned set 0 d.eventFlag))
  | noSet : Step t s (.waitRecv 0) s (some (.returned 0 (-rtError) 0))
  | receives (set : UInt32) (d : CompleteDes) (hd : s.des t = some d) (hset : d.set &&& set ≠ 0) :
      Step t s (.waitRecv set) (s.setThread t ⟨d.set &&& set, 0⟩)
        (some (.returned set 0 (d.set &&& set)))
  | sleeps (set : UInt32) (d : CompleteDes) (hd : s.des t = some d) (hset : d.set &&& set = 0) :
      Step t s (.waitRecv set)
        ((s.setDes t (some { d with suspended := true })).setThread t ⟨set, -rtEIntr⟩)
        (some (.asleep set))
  | wakesFailed (set : UInt32) (d : CompleteDes) (hd : s.des t = some d)
      (hresumed : d.suspended = false) (herror : (s.thread t).error ≠ 0) :
      Step t s (.asleep set) s (some (.returned set (s.thread t).error 0))
  | wakes (set : UInt32) (d : CompleteDes) (hd : s.des t = some d)
      (hresumed : d.suspended = false) (herror : (s.thread t).error = 0) :
      Step t s (.asleep set) s (some (.returned set 0 (s.thread t).eventSet))
  | expires (set : UInt32) (d : CompleteDes) (hd : s.des t = some d) (hasleep : d.suspended = true) :
      Step t s (.asleep set)
        ((s.setDes t (some { d with suspended := false })).setThread t
          ⟨(s.thread t).eventSet, -rtETimeout⟩) (some (.asleep set))
  | leaves (set : UInt32) (err : Int) (recved : UInt32) :
      Step t s (.returned set err recved) s (some .clear)
  | clears (d : CompleteDes) (hmutex : s.mutex = none) (hd : s.des t = some d) :
      Step t s .clear (s.setTab d.index none) (some .free)
  | frees : Step t s .free (s.setDes t none) none
  | locks (event : RtWlanDevEvent) (hmutex : s.mutex = none) :
      Step t s (.lock event) { s with mutex := some t } (some (.flag event entries))
  | loopEnds (event : RtWlanDevEvent) : Step t s (.flag event []) s (some (.unlock event))
  | skips (event : RtWlanDevEvent) (i : Fin 5) (todo : List (Fin 5)) (hentry : s.tab i = none) :
      Step t s (.flag event (i :: todo)) s (some (.flag event todo))
  | flags (event : RtWlanDevEvent) (i : Fin 5) (todo : List (Fin 5)) (u : ι) (d : CompleteDes)
      (hentry : s.tab i = some u) (hd : s.des u = some d) :
      Step t s (.flag event (i :: todo)) (flagEvent s u d event) (some (.send event i todo))
  | sends (event : RtWlanDevEvent) (i : Fin 5) (todo : List (Fin 5)) (u : ι) (d : CompleteDes)
      (hentry : s.tab i = some u) (hd : s.des u = some d) :
      Step t s (.send event i todo) (eventSend s u d event) (some (.flag event todo))
  | unlocks (event : RtWlanDevEvent) : Step t s (.unlock event) { s with mutex := none } none

omit [DecidableEq ι] in
theorem freeEntry_spec {s : Shared ι} {i : Fin 5} (h : freeEntry s = some i) : s.tab i = none :=
  Option.isNone_iff_eq_none.mp
    (List.find?_some (p := fun i => (s.tab i).isNone) h)

theorem eventRecv_step {t : ι} {s : Shared ι} {set : UInt32} {d : CompleteDes}
    (hd : s.des t = some d) :
    Step t s (.waitRecv set) (eventRecv s t d set).1 (some (eventRecv s t d set).2) := by
  unfold eventRecv
  by_cases hzero : set = 0
  · rw [if_pos hzero, hzero]
    exact .noSet
  · rw [if_neg hzero]
    by_cases hset : d.set &&& set = 0
    · rw [if_neg (not_not_intro hset)]
      exact .sleeps set d hd hset
    · rw [if_pos hset]
      exact .receives set d hd hset

/-- Every statement is one of the steps. -/
theorem step_of_stmt {t : ι} {s s' : Shared ι} {k : Point} {choice : Choice} {k' : Option Point}
    (h : stmt t s k choice = some (s', k')) : Step t s k s' k' := by
  unfold stmt at h
  split at h
  · split at h
    · obtain ⟨rfl, rfl⟩ := Prod.mk.inj (Option.some.inj h)
      exact .mallocs _
    · obtain ⟨rfl, rfl⟩ := Prod.mk.inj (Option.some.inj h)
      exact .mallocFails _
  · split at h
    · exact nomatch h
    · rename_i hmutex
      obtain ⟨d, hd, hclaim⟩ := Option.map_eq_some_iff.mp h
      have hnone := Option.not_isSome_iff_eq_none.mp hmutex
      split at hclaim
      · rename_i i hfree
        obtain ⟨rfl, rfl⟩ := Prod.mk.inj hclaim
        exact .claims _ d i hnone hd (freeEntry_spec hfree)
      · obtain ⟨rfl, rfl⟩ := Prod.mk.inj hclaim
        exact .tableFull _
  · obtain ⟨rfl, rfl⟩ := Prod.mk.inj (Option.some.inj h)
    split
    · exact .starts _
    · exact .startFails _
  · obtain ⟨d, hd, htest⟩ := Option.map_eq_some_iff.mp h
    obtain ⟨rfl, rfl⟩ := Prod.mk.inj htest
    split
    · rename_i hflag
      exact .tests _ d hd hflag
    · rename_i hflag
      exact .testFails _ d hd (not_not.mp hflag)
  · obtain ⟨d, hd, hread⟩ := Option.map_eq_some_iff.mp h
    obtain ⟨rfl, rfl⟩ := Prod.mk.inj hread
    exact .reads _ d hd
  · obtain ⟨d, hd, hrecv⟩ := Option.map_eq_some_iff.mp h
    obtain ⟨rfl, rfl⟩ := Prod.mk.inj hrecv
    exact eventRecv_step hd
  · obtain ⟨d, hd, hwake⟩ := Option.bind_eq_some_iff.mp h
    split at hwake
    · exact nomatch hwake
    · rename_i hresumed
      have hfalse := Bool.eq_false_iff.mpr hresumed
      split at hwake
      · rename_i herror
        obtain ⟨rfl, rfl⟩ := Prod.mk.inj (Option.some.inj hwake)
        exact .wakesFailed _ d hd hfalse herror
      · rename_i herror
        obtain ⟨rfl, rfl⟩ := Prod.mk.inj (Option.some.inj hwake)
        exact .wakes _ d hd hfalse (not_not.mp herror)
  · obtain ⟨d, hd, hexpire⟩ := Option.bind_eq_some_iff.mp h
    split at hexpire
    · rename_i hasleep
      obtain ⟨rfl, rfl⟩ := Prod.mk.inj (Option.some.inj hexpire)
      exact .expires _ d hd hasleep
    · exact nomatch hexpire
  · obtain ⟨rfl, rfl⟩ := Prod.mk.inj (Option.some.inj h)
    exact .leaves _ _ _
  · split at h
    · exact nomatch h
    · rename_i hmutex
      obtain ⟨d, hd, hclear⟩ := Option.map_eq_some_iff.mp h
      obtain ⟨rfl, rfl⟩ := Prod.mk.inj hclear
      exact .clears d (Option.not_isSome_iff_eq_none.mp hmutex) hd
  · obtain ⟨rfl, rfl⟩ := Prod.mk.inj (Option.some.inj h)
    exact .frees
  · split at h
    · exact nomatch h
    · rename_i hmutex
      obtain ⟨rfl, rfl⟩ := Prod.mk.inj (Option.some.inj h)
      exact .locks _ (Option.not_isSome_iff_eq_none.mp hmutex)
  · obtain ⟨rfl, rfl⟩ := Prod.mk.inj (Option.some.inj h)
    exact .loopEnds _
  · split at h
    · rename_i hentry
      obtain ⟨rfl, rfl⟩ := Prod.mk.inj (Option.some.inj h)
      exact .skips _ _ _ hentry
    · rename_i u hentry
      obtain ⟨d, hd, hflag⟩ := Option.map_eq_some_iff.mp h
      obtain ⟨rfl, rfl⟩ := Prod.mk.inj hflag
      exact .flags _ _ _ u d hentry hd
  · obtain ⟨u, hentry, hbind⟩ := Option.bind_eq_some_iff.mp h
    obtain ⟨d, hd, hsend⟩ := Option.map_eq_some_iff.mp hbind
    obtain ⟨rfl, rfl⟩ := Prod.mk.inj hsend
    exact .sends _ _ _ u d hentry hd
  · obtain ⟨rfl, rfl⟩ := Prod.mk.inj (Option.some.inj h)
    exact .unlocks _
  · exact nomatch h

/-! ## What a point knows -/

namespace Point

/-- The call has a descriptor. -/
def hasDes : Option Point → Bool
  | some (claim _) | some (operation _) | some (waitTest _) | some (waitRead _)
  | some (waitRecv _) | some (asleep _) | some (returned _ _ _) | some clear | some free => true
  | _ => false

/-- The call's descriptor has been returned by `rt_wlan_complete_create` and has not been
deleted. -/
def live : Option Point → Bool
  | some (operation _) | some (waitTest _) | some (waitRead _) | some (waitRecv _)
  | some (asleep _) | some (returned _ _ _) | some clear => true
  | _ => false

/-- The call is inside the dispatch's section. -/
def dispatching : Option Point → Bool
  | some (flag _ _) | some (send _ _ _) | some (unlock _) => true
  | _ => false

/-- The dispatch of `event` is through with entry `i`. -/
def SentAt (event : RtWlanDevEvent) (i : Fin 5) : Option Point → Prop
  | some (flag e todo) => e = event ∧ i ∉ todo
  | some (send e j todo) => e = event ∧ i ∉ j :: todo
  | some (unlock e) => e = event
  | _ => False

end Point

/-- The words of a descriptor: an event is marked in `event_flag` first. -/
structure Words (d : CompleteDes) : Prop where
  flagged : ∀ event, Marked d.set event → Marked d.eventFlag event
  flagEvents : EventWord d.eventFlag
  setEvents : EventWord d.set

/-- `recved` has an event that is waited for and has been dispatched. -/
def Receives (d : CompleteDes) (set recved : UInt32) : Prop :=
  ∃ event, Marked set event ∧ Marked recved event ∧ Marked d.eventFlag event

/-- What the waiter knows about its descriptor and its thread. -/
structure Waits (d : CompleteDes) (thread : RtThread) (k : Option Point) : Prop where
  suspended : d.suspended = true →
    ∃ set, k = some (.asleep set) ∧ thread.eventSet = set ∧ d.set &&& set = 0
  read : ∀ set, k = some (.waitRead set) → Receives d set d.eventFlag
  woken : ∀ set, k = some (.asleep set) → d.suspended = false →
    thread.error = 0 ∧ Receives d set thread.eventSet ∨ thread.error = -rtETimeout
  returned : ∀ set err recved, k = some (.returned set err recved) →
    err = 0 ∧ Receives d set recved ∨ err = -rtETimeout ∨ set = 0 ∧ err = -rtError

/-- What a call knows about its own descriptor. -/
structure Own (s : Shared ι) (t : ι) (k : Option Point) : Prop where
  des : (s.des t).isSome = Point.hasDes k
  tab : ∀ i, s.tab i = some t ↔ Point.live k = true ∧ ∃ d, s.des t = some d ∧ d.index = i
  words : ∀ d, s.des t = some d → Words d
  waits : ∀ d, s.des t = some d → Waits d (s.thread t) k

/-- What a dispatch knows about the table. -/
structure Sends (s : Shared ι) (u : ι) (k : Option Point) : Prop where
  mutex : Point.dispatching k = true → s.mutex = some u
  flagged : ∀ event i todo, k = some (.send event i todo) →
    ∃ t d, s.tab i = some t ∧ s.des t = some d ∧ Marked d.eventFlag event
  sent : ∀ event i t, Point.SentAt event i k → s.tab i = some t →
    ∃ d, s.des t = some d ∧ Marked d.set event

structure Fits (t : ι) (k : Option Point) (s : Shared ι) : Prop where
  own : Own s t k
  sends : Sends s t k

/-- The events of one descriptor are events of the other. -/
def CompleteDes.Le (d d' : CompleteDes) : Prop :=
  ∀ event, (Marked d.set event → Marked d'.set event) ∧
    (Marked d.eventFlag event → Marked d'.eventFlag event)

/-! ## Frames -/

section Frames

variable {s s' : Shared ι} {t u : ι} {k k' : Option Point}

omit [DecidableEq ι] in
/-- Calls without a descriptor. -/
theorem Own.absent (hk : Point.hasDes k = false) (hdes : s.des t = none)
    (htab : ∀ i, s.tab i ≠ some t) : Own s t k where
  des := by rw [hdes, hk]; rfl
  tab i := iff_of_false (htab i) fun ⟨_, d, hd, _⟩ => nomatch hdes.symm.trans hd
  words d hd := nomatch hdes.symm.trans hd
  waits d hd := nomatch hdes.symm.trans hd

omit [DecidableEq ι] in
theorem Own.des_none (h : Own s t k) (hk : Point.hasDes k = false) : s.des t = none := by
  have hdes := h.des
  rw [hk] at hdes
  exact Option.not_isSome_iff_eq_none.mp (Bool.eq_false_iff.mp hdes)

omit [DecidableEq ι] in
theorem Own.not_listed (h : Own s t k) (hk : Point.live k = false) (i : Fin 5) :
    s.tab i ≠ some t := by
  intro htab
  have hlive := ((h.tab i).mp htab).1
  rw [hk] at hlive
  exact nomatch hlive

omit [DecidableEq ι] in
theorem Own.still_absent (h : Own s t k) (hhas : Point.hasDes k = false)
    (hlive : Point.live k = false) (hhas' : Point.hasDes k' = false) : Own s t k' :=
  .absent hhas' (h.des_none hhas) (h.not_listed hlive)

omit [DecidableEq ι] in
/-- A step that changes nothing of the call's own but its point. -/
theorem Own.move (h : Own s t k) (hdes : s'.des t = s.des t) (hthread : s'.thread t = s.thread t)
    (htab : ∀ i, s'.tab i = some t ↔ s.tab i = some t) (hhas : Point.hasDes k' = Point.hasDes k)
    (hlive : Point.live k' = Point.live k)
    (hwaits : ∀ d, s.des t = some d → Waits d (s.thread t) k → Waits d (s.thread t) k') :
    Own s' t k' where
  des := by rw [hdes, h.des, hhas]
  tab i := by rw [htab, h.tab, hlive, hdes]
  words d hd := h.words d (hdes ▸ hd)
  waits d hd := by
    rw [hdes] at hd
    rw [hthread]
    exact hwaits d hd (h.waits d hd)

omit [DecidableEq ι] in
theorem Own.frame (h : Own s t k) (hdes : s'.des t = s.des t) (hthread : s'.thread t = s.thread t)
    (htab : ∀ i, s'.tab i = some t ↔ s.tab i = some t) : Own s' t k :=
  h.move hdes hthread htab rfl rfl fun _ _ hwaits => hwaits

omit [DecidableEq ι] in
/-- Calls that are not in a dispatch know nothing about the table. -/
theorem Sends.of_not_dispatching (hk : Point.dispatching k = false) : Sends s u k where
  mutex h := by rw [hk] at h; exact nomatch h
  flagged event i todo h := by rw [h] at hk; exact nomatch hk
  sent event i t h := by
    unfold Point.SentAt at h
    split at h
    · exact nomatch hk
    · exact nomatch hk
    · exact nomatch hk
    · exact h.elim

omit [DecidableEq ι] in
/-- While a dispatch holds the mutex the table stays, and descriptors in it gain events. -/
theorem Sends.frame (h : Sends s u k)
    (hkeep : s.mutex = some u → s'.mutex = some u ∧ s'.tab = s.tab ∧
      ∀ i t d, s.tab i = some t → s.des t = some d → ∃ d', s'.des t = some d' ∧ d.Le d') :
    Sends s' u k := by
  by_cases hk : Point.dispatching k = true
  · obtain ⟨hmutex, htab, hdes⟩ := hkeep (h.mutex hk)
    refine ⟨fun _ => hmutex, fun event i todo hpoint => ?_, fun event i t hsent hentry => ?_⟩
    · obtain ⟨t, d, hentry, hd, hmarked⟩ := h.flagged event i todo hpoint
      obtain ⟨d', hd', hle⟩ := hdes i t d hentry hd
      exact ⟨t, d', (congrFun htab i).trans hentry, hd', (hle event).2 hmarked⟩
    · rw [htab] at hentry
      obtain ⟨d, hd, hmarked⟩ := h.sent event i t hsent hentry
      obtain ⟨d', hd', hle⟩ := hdes i t d hentry hd
      exact ⟨d', hd', (hle event).1 hmarked⟩
  · exact Sends.of_not_dispatching (Bool.eq_false_iff.mpr hk)

omit [DecidableEq ι] in
theorem CompleteDes.Le.refl (d : CompleteDes) : d.Le d := fun _ => ⟨id, id⟩

omit [DecidableEq ι] in
/-- What a statement that is only about call `t` leaves to the others. -/
theorem Fits.frame (h : Fits u k s) (hut : u ≠ t) (hdes : ∀ v ≠ t, s'.des v = s.des v)
    (hthread : ∀ v ≠ t, s'.thread v = s.thread v)
    (htab : ∀ v ≠ t, ∀ i, s'.tab i = some v ↔ s.tab i = some v)
    (hkeep : s.mutex = some u → s'.mutex = some u ∧ s'.tab = s.tab ∧
      ∀ i d, s.tab i = some t → s.des t = some d → ∃ d', s'.des t = some d' ∧ d.Le d') :
    Fits u k s' := by
  refine ⟨h.own.frame (hdes u hut) (hthread u hut) (htab u hut), h.sends.frame fun hmutex => ?_⟩
  obtain ⟨hmutex', htab', hself⟩ := hkeep hmutex
  refine ⟨hmutex', htab', fun i v d hentry hd => ?_⟩
  by_cases hvt : v = t
  · subst hvt
    exact hself i d hentry hd
  · exact ⟨d, (hdes v hvt).trans hd, .refl d⟩

end Frames

/-! ## What the steps keep -/

section Keep

variable {s s' : Shared ι} {t u v : ι} {k : Point} {k' : Option Point}

@[simp] theorem setDes_self (s : Shared ι) (t : ι) (d : Option CompleteDes) :
    (s.setDes t d).des t = d := by
  show Function.update s.des t d t = d
  exact Function.update_self t d s.des

theorem setDes_of_ne (s : Shared ι) (d : Option CompleteDes) (h : v ≠ t) :
    (s.setDes t d).des v = s.des v := by
  show Function.update s.des t d v = s.des v
  exact Function.update_of_ne h d s.des

@[simp] theorem setThread_self (s : Shared ι) (t : ι) (thread : RtThread) :
    (s.setThread t thread).thread t = thread := by
  show Function.update s.thread t thread t = thread
  exact Function.update_self t thread s.thread

theorem setThread_of_ne (s : Shared ι) (thread : RtThread) (h : v ≠ t) :
    (s.setThread t thread).thread v = s.thread v := by
  show Function.update s.thread t thread v = s.thread v
  exact Function.update_of_ne h thread s.thread

omit [DecidableEq ι] in
@[simp] theorem setTab_self (s : Shared ι) (i : Fin 5) (entry : Option ι) :
    (s.setTab i entry).tab i = entry := by
  show Function.update s.tab i entry i = entry
  exact Function.update_self i entry s.tab

omit [DecidableEq ι] in
theorem setTab_of_ne (s : Shared ι) (entry : Option ι) {i j : Fin 5} (h : j ≠ i) :
    (s.setTab i entry).tab j = s.tab j := by
  show Function.update s.tab i entry j = s.tab j
  exact Function.update_of_ne h entry s.tab

omit [DecidableEq ι] in
theorem not_mutex_of_ne {k : Option Point} (h : Sends s t k) (hk : Point.dispatching k = true)
    (hut : u ≠ t) : s.mutex ≠ some u := by
  intro hmutex
  exact hut (Option.some.inj (hmutex.symm.trans (h.mutex hk)))

/-- A change of `event_flag` and `set` that only adds events, and what it does to the waiter. -/
structure Signals (s s' : Shared ι) (v : ι) (d d' : CompleteDes) : Prop where
  des : s.des v = some d
  des' : s'.des v = some d'
  index : d'.index = d.index
  tab : s'.tab = s.tab
  mutex : s'.mutex = s.mutex
  others : ∀ w ≠ v, s'.des w = s.des w ∧ s'.thread w = s.thread w
  le : d.Le d'
  words : Words d'
  running : d.suspended = false → d'.suspended = false ∧ s'.thread v = s.thread v
  waits : ∀ k, Waits d (s.thread v) k → Waits d' (s'.thread v) k

omit [DecidableEq ι] in
/-- A call keeps what it knows when a dispatch signals a descriptor. -/
theorem Signals.own {d d' : CompleteDes} (h : Signals s s' v d d') {w : ι} {k : Option Point}
    (hown : Own s w k) : Own s' w k := by
  by_cases hwv : w = v
  · subst hwv
    refine ⟨?_, fun i => ?_, fun e he => ?_, fun e he => ?_⟩
    · rw [h.des', ← hown.des, h.des]
      rfl
    · rw [h.tab, hown.tab, h.des, h.des']
      constructor
      · rintro ⟨hlive, e, he, hindex⟩
        obtain rfl := Option.some.inj he
        exact ⟨hlive, d', rfl, h.index.trans hindex⟩
      · rintro ⟨hlive, e, he, hindex⟩
        obtain rfl := Option.some.inj he
        exact ⟨hlive, d, rfl, h.index.symm.trans hindex⟩
    · obtain rfl := Option.some.inj (h.des'.symm.trans he)
      exact h.words
    · obtain rfl := Option.some.inj (h.des'.symm.trans he)
      exact h.waits k (hown.waits d h.des)
  · obtain ⟨hdes, hthread⟩ := h.others w hwv
    exact hown.frame hdes hthread fun i => by rw [h.tab]

omit [DecidableEq ι] in
/-- Every descriptor has at least the events it had. -/
theorem Signals.des_le {d d' : CompleteDes} (h : Signals s s' v d d') {w : ι} {e : CompleteDes}
    (he : s.des w = some e) : ∃ e', s'.des w = some e' ∧ e.Le e' := by
  by_cases hwv : w = v
  · subst hwv
    obtain rfl := Option.some.inj (h.des.symm.trans he)
    exact ⟨d', h.des', h.le⟩
  · exact ⟨e, (h.others w hwv).1.trans he, .refl e⟩

omit [DecidableEq ι] in
theorem Signals.marked {d d' : CompleteDes} {event : RtWlanDevEvent} (h : Signals s s' v d d')
    {w : ι} (hw : ∃ c, s.des w = some c ∧ Marked c.set event) :
    ∃ c, s'.des w = some c ∧ Marked c.set event := by
  obtain ⟨c, hc, hmarked⟩ := hw
  obtain ⟨c', hc', hle⟩ := h.des_le hc
  exact ⟨c', hc', (hle event).1 hmarked⟩

omit [DecidableEq ι] in
theorem Receives.mono {d d' : CompleteDes} {set recved recved' : UInt32} (h : Receives d set recved)
    (hle : d.Le d') (hrecved : ∀ event, Marked recved event → Marked recved' event) :
    Receives d' set recved' := by
  obtain ⟨event, hset, hmarked, hflag⟩ := h
  exact ⟨event, hset, hrecved event hmarked, (hle event).2 hflag⟩

theorem signals_flagEvent {event : RtWlanDevEvent} {d : CompleteDes} (hd : s.des v = some d)
    (hwords : Words d) :
    Signals s (flagEvent s v d event) v d
      { d with eventFlag := d.eventFlag ||| event.bit } := by
  have hle : d.Le { d with eventFlag := d.eventFlag ||| event.bit } := fun e =>
    ⟨id, fun h => (marked_or _ _ e).mpr (.inl h)⟩
  refine ⟨hd, setDes_self s v _, rfl, rfl, rfl, fun w hwv => ⟨setDes_of_ne s _ hwv, rfl⟩, hle,
    ⟨fun e h => (hle e).2 (hwords.flagged e h), hwords.flagEvents.or_bit event, hwords.setEvents⟩,
    fun hrunning => ⟨hrunning, rfl⟩, fun k h => ⟨h.suspended, fun set hk => ?_, fun set hk hresumed => ?_,
      fun set err recved hk => ?_⟩⟩
  · exact (h.read set hk).mono hle fun e => (hle e).2
  · exact (h.woken set hk hresumed).imp_left fun hok => ⟨hok.1, hok.2.mono hle fun _ => id⟩
  · exact (h.returned set err recved hk).imp_left fun hok => ⟨hok.1, hok.2.mono hle fun _ => id⟩

theorem signals_eventSend {event : RtWlanDevEvent} {d : CompleteDes} (hd : s.des v = some d)
    (hwords : Words d) (hflag : Marked d.eventFlag event) :
    ∃ d', Signals s (eventSend s v d event) v d d' ∧ d'.set = d.set ||| event.bit := by
  have hflagged : ∀ e, Marked (d.set ||| event.bit) e → Marked d.eventFlag e := by
    intro e he
    rcases (marked_or _ _ e).mp he with hold | hnew
    · exact hwords.flagged e hold
    · obtain rfl := (marked_bit event e).mp hnew
      exact hflag
  have hset := hwords.setEvents.or_bit event
  have hle : ∀ e, Marked d.set e → Marked (d.set ||| event.bit) e := fun e he =>
    (marked_or _ _ e).mpr (.inl he)
  unfold eventSend
  by_cases hwake : d.suspended = true ∧ (s.thread v).eventSet &&& (d.set ||| event.bit) ≠ 0
  · rw [if_pos hwake]
    refine ⟨{ d with set := d.set ||| event.bit, suspended := false },
      ⟨hd, setDes_self s v _, rfl, rfl, rfl, fun w hwv => ?_, fun e => ⟨hle e, id⟩,
        ⟨hflagged, hwords.flagEvents, hset⟩, fun hrunning => ?_, fun k h => ?_⟩, rfl⟩
    · exact ⟨setDes_of_ne s _ hwv, setThread_of_ne _ _ hwv⟩
    · exact Bool.noConfusion (hrunning.symm.trans hwake.1)
    · obtain ⟨set, rfl, heq, -⟩ := h.suspended hwake.1
      refine ⟨nofun, nofun, fun set' hk _ => .inl ?_, nofun⟩
      obtain rfl := Point.asleep.inj (Option.some.inj hk)
      rw [setThread_self]
      have hmeets := hwake.2
      rw [heq, UInt32.and_comm] at hmeets
      obtain ⟨e, hsent, hwaited⟩ := hset set hmeets
      refine ⟨rfl, e, hwaited, ?_, hflagged e hsent⟩
      rw [heq]
      exact (marked_and _ _ e).mpr ⟨hwaited, hsent⟩
  · rw [if_neg hwake]
    refine ⟨{ d with set := d.set ||| event.bit },
      ⟨hd, setDes_self s v _, rfl, rfl, rfl, fun w hwv => ⟨setDes_of_ne s _ hwv, rfl⟩,
        fun e => ⟨hle e, id⟩, ⟨hflagged, hwords.flagEvents, hset⟩,
        fun hrunning => ⟨hrunning, rfl⟩,
        fun k h => ⟨fun hsuspended => ?_, h.read, h.woken, h.returned⟩⟩, rfl⟩
    obtain ⟨set, hk, heq, -⟩ := h.suspended hsuspended
    refine ⟨set, hk, heq, ?_⟩
    have hzero := not_not.mp (not_and.mp hwake hsuspended)
    rwa [heq, UInt32.and_comm] at hzero

omit [DecidableEq ι] in
theorem Waits.awake {d : CompleteDes} {thread : RtThread} {k : Option Point}
    (h : Waits d thread k) (hk : ∀ set, k ≠ some (.asleep set)) : d.suspended = false := by
  refine Bool.eq_false_iff.mpr fun hsuspended => ?_
  obtain ⟨set, hasleep, -⟩ := h.suspended hsuspended
  exact hk set hasleep

omit [DecidableEq ι] in
theorem Waits.of_awake {d : CompleteDes} {thread : RtThread} {k : Option Point}
    (hawake : d.suspended = false) (hread : ∀ set, k ≠ some (.waitRead set))
    (hasleep : ∀ set, k ≠ some (.asleep set))
    (hreturned : ∀ set err recved, k ≠ some (.returned set err recved)) : Waits d thread k where
  suspended h := Bool.noConfusion (hawake.symm.trans h)
  read set h := absurd h (hread set)
  woken set h := absurd h (hasleep set)
  returned set err recved h := absurd h (hreturned set err recved)

omit [DecidableEq ι] in
theorem Waits.of_returned {d : CompleteDes} {thread : RtThread} {set : UInt32} {err : Int}
    {recved : UInt32} (hawake : d.suspended = false)
    (h : err = 0 ∧ Receives d set recved ∨ err = -rtETimeout ∨ set = 0 ∧ err = -rtError) :
    Waits d thread (some (.returned set err recved)) where
  suspended hsuspended := Bool.noConfusion (hawake.symm.trans hsuspended)
  read := nofun
  woken := nofun
  returned _ _ _ hk := by
    obtain ⟨rfl, rfl, rfl⟩ := Point.returned.inj (Option.some.inj hk)
    exact h

/-- Statements of one thread leave to the others what they know. -/
theorem fits_other {p : ι → Option Point} (h : ∀ v, Fits v (p v) s) (hpoint : p t = some k)
    (hstep : Step t s k s' k') (hut : u ≠ t) : Fits u (p u) s' := by
  have hu := h u
  have ht : Fits t (some k) s := hpoint ▸ h t
  have hsignal : ∀ {event i todo v d d'}, k = .flag event (i :: todo) ∨ k = .send event i todo →
      Signals s s' v d d' → Fits u (p u) s' := by
    intro event i todo v d d' hk hsignals
    have hdispatching : Point.dispatching (some k) = true := by
      rcases hk with rfl | rfl <;> rfl
    exact ⟨hsignals.own hu.own, hu.sends.frame fun hmutex =>
      absurd hmutex (not_mutex_of_ne ht.sends hdispatching hut)⟩
  cases hstep with
  | mallocFails set => exact hu
  | tableFull set => exact hu
  | starts set => exact hu
  | startFails set => exact hu
  | tests set d hd hflag => exact hu
  | testFails set d hd hflag => exact hu
  | reads set d hd => exact hu
  | noSet => exact hu
  | wakesFailed set d hd hresumed herror => exact hu
  | wakes set d hd hresumed herror => exact hu
  | leaves set err recved => exact hu
  | loopEnds event => exact hu
  | skips event i todo hentry => exact hu
  | mallocs set =>
    have hnone := ht.own.des_none rfl
    refine hu.frame hut (fun v hv => setDes_of_ne s _ hv) (fun _ _ => rfl) (fun _ _ _ => Iff.rfl)
      fun hmutex => ⟨hmutex, rfl, fun i d _ hd => nomatch hnone.symm.trans hd⟩
  | claims set d i hmutex hd hfree =>
    refine hu.frame hut (fun v hv => setDes_of_ne s _ hv) (fun _ _ => rfl) (fun v hv j => ?_)
      fun hheld => nomatch hmutex.symm.trans hheld
    by_cases hji : j = i
    · subst hji
      refine iff_of_false (fun hentry => hv ?_) fun hentry => nomatch hfree.symm.trans hentry
      exact (Option.some.inj ((setTab_self _ j (some t)).symm.trans hentry)).symm
    · exact Eq.congr_left (setTab_of_ne (s.setDes t _) (some t) hji)
  | receives set d hd hset =>
    exact hu.frame hut (fun _ _ => rfl) (fun v hv => setThread_of_ne s _ hv)
      (fun _ _ _ => Iff.rfl) fun hmutex => ⟨hmutex, rfl, fun i e _ he => ⟨e, he, .refl e⟩⟩
  | sleeps set d hd hset =>
    refine hu.frame hut (fun v hv => setDes_of_ne s _ hv) (fun v hv => setThread_of_ne _ _ hv)
      (fun _ _ _ => Iff.rfl) fun hmutex => ⟨hmutex, rfl, fun i e _ he => ?_⟩
    obtain rfl := Option.some.inj (hd.symm.trans he)
    exact ⟨{ d with suspended := true }, setDes_self s t _, fun _ => ⟨id, id⟩⟩
  | expires set d hd hasleep =>
    refine hu.frame hut (fun v hv => setDes_of_ne s _ hv) (fun v hv => setThread_of_ne _ _ hv)
      (fun _ _ _ => Iff.rfl) fun hmutex => ⟨hmutex, rfl, fun i e _ he => ?_⟩
    obtain rfl := Option.some.inj (hd.symm.trans he)
    exact ⟨{ d with suspended := false }, setDes_self s t _, fun _ => ⟨id, id⟩⟩
  | clears d hmutex hd =>
    refine hu.frame hut (fun _ _ => rfl) (fun _ _ => rfl) (fun v hv j => ?_)
      fun hheld => nomatch hmutex.symm.trans hheld
    by_cases hjd : j = d.index
    · subst hjd
      have hentry := (ht.own.tab d.index).mpr ⟨rfl, d, hd, rfl⟩
      rw [setTab_self, hentry]
      exact iff_of_false nofun fun heq => hv (Option.some.inj heq).symm
    · rw [setTab_of_ne s none hjd]
  | frees =>
    refine hu.frame hut (fun v hv => setDes_of_ne s _ hv) (fun _ _ => rfl) (fun _ _ _ => Iff.rfl)
      fun hmutex => ⟨hmutex, rfl, fun i d hentry _ => absurd hentry (ht.own.not_listed rfl i)⟩
  | locks event hmutex =>
    exact hu.frame hut (fun _ _ => rfl) (fun _ _ => rfl) (fun _ _ _ => Iff.rfl)
      fun hheld => nomatch hmutex.symm.trans hheld
  | unlocks event =>
    exact hu.frame hut (fun _ _ => rfl) (fun _ _ => rfl) (fun _ _ _ => Iff.rfl)
      fun hheld => absurd hheld (not_mutex_of_ne ht.sends rfl hut)
  | flags event i todo v d hentry hd =>
    exact hsignal (.inl rfl) (signals_flagEvent hd ((h v).own.words d hd))
  | sends event i todo v d hentry hd =>
    obtain ⟨v', d', hentry', hd', hflag⟩ := ht.sends.flagged event i todo rfl
    obtain rfl := Option.some.inj (hentry.symm.trans hentry')
    obtain rfl := Option.some.inj (hd.symm.trans hd')
    obtain ⟨e, hsignals, -⟩ := signals_eventSend hd ((h v).own.words d hd) hflag
    exact hsignal (.inr rfl) hsignals

omit [DecidableEq ι] in
/-- A statement that only moves the call on. -/
theorem Fits.move (h : Fits t (some k) s) (hk : Point.dispatching k' = false)
    (hhas : Point.hasDes k' = Point.hasDes (some k)) (hlive : Point.live k' = Point.live (some k))
    (hwaits : ∀ d, s.des t = some d → Waits d (s.thread t) (some k) → Waits d (s.thread t) k') :
    Fits t k' s :=
  ⟨h.own.move rfl rfl (fun _ => Iff.rfl) hhas hlive hwaits, .of_not_dispatching hk⟩

omit [DecidableEq ι] in
/-- The same between points at which the waiter is awake. -/
theorem Fits.move_awake (h : Fits t (some k) s) (hk : Point.dispatching k' = false)
    (hhas : Point.hasDes k' = Point.hasDes (some k)) (hlive : Point.live k' = Point.live (some k))
    (hasleep : ∀ set, k ≠ .asleep set) (hread : ∀ set, k' ≠ some (.waitRead set))
    (hasleep' : ∀ set, k' ≠ some (.asleep set))
    (hreturned : ∀ set err recved, k' ≠ some (.returned set err recved)) : Fits t k' s :=
  h.move hk hhas hlive fun _ _ hwaits =>
    .of_awake (hwaits.awake fun set heq => hasleep set (Option.some.inj heq)) hread hasleep'
      hreturned

/-- The descriptor is entered in the table. -/
theorem Own.claim {d : CompleteDes} {i : Fin 5} {set : UInt32}
    (h : Own s t (some (.claim set))) (hd : s.des t = some d) :
    Own (claimEntry s t d i) t (some (.operation set)) := by
  have hdes : (claimEntry s t d i).des t = some { d with index := i } := setDes_self s t _
  have hwords := h.words d hd
  refine ⟨by rw [hdes]; rfl, fun j => ?_, fun e he => ?_, fun e he => ?_⟩
  · by_cases hji : j = i
    · subst hji
      exact iff_of_true (setTab_self _ j _) ⟨rfl, _, hdes, rfl⟩
    · refine iff_of_false (fun hentry => ?_) ?_
      · exact h.not_listed rfl j ((setTab_of_ne (s.setDes t _) _ hji).symm.trans hentry)
      · rintro ⟨-, e, he, rfl⟩
        obtain rfl := Option.some.inj (hdes.symm.trans he)
        exact hji rfl
  · obtain rfl := Option.some.inj (hdes.symm.trans he)
    exact ⟨hwords.flagged, hwords.flagEvents, hwords.setEvents⟩
  · obtain rfl := Option.some.inj (hdes.symm.trans he)
    exact .of_awake ((h.waits d hd).awake nofun) nofun nofun nofun

omit [DecidableEq ι] in
/-- The descriptor is taken off the table. -/
theorem Own.clear {d : CompleteDes} (h : Own s t (some .clear)) (hd : s.des t = some d) :
    Own (s.setTab d.index none) t (some .free) := by
  refine ⟨h.des, fun j => iff_of_false (fun hentry => ?_) nofun, h.words, fun e he => ?_⟩
  · by_cases hjd : j = d.index
    · subst hjd
      exact nomatch (setTab_self s d.index none).symm.trans hentry
    · rw [setTab_of_ne s none hjd, h.tab] at hentry
      obtain ⟨-, e, he, hindex⟩ := hentry
      obtain rfl := Option.some.inj (hd.symm.trans he)
      exact hjd hindex.symm
  · exact .of_awake ((h.waits e he).awake nofun) nofun nofun nofun

/-- The waiter is suspended or resumed, between two points of its wait. -/
theorem Own.setSuspended {d : CompleteDes} (h : Own s t (some k)) (hd : s.des t = some d)
    (suspended : Bool) (thread : RtThread) (hhas : Point.hasDes k' = Point.hasDes (some k))
    (hlive : Point.live k' = Point.live (some k))
    (hwaits : Waits { d with suspended := suspended } thread k') :
    Own ((s.setDes t (some { d with suspended := suspended })).setThread t thread) t k' := by
  have hdes : ((s.setDes t (some { d with suspended := suspended })).setThread t thread).des t =
      some { d with suspended := suspended } := setDes_self s t _
  have hwords := h.words d hd
  refine ⟨?_, fun j => ?_, fun e he => ?_, fun e he => ?_⟩
  · rw [hdes, hhas, ← h.des, hd]
    rfl
  · refine (h.tab j).trans ?_
    rw [hlive, hd, hdes]
    refine and_congr_right fun _ => ⟨?_, ?_⟩
    · rintro ⟨e, he, hindex⟩
      obtain rfl := Option.some.inj he
      exact ⟨_, rfl, hindex⟩
    · rintro ⟨e, he, hindex⟩
      obtain rfl := Option.some.inj he
      exact ⟨d, rfl, hindex⟩
  · obtain rfl := Option.some.inj (hdes.symm.trans he)
    exact ⟨hwords.flagged, hwords.flagEvents, hwords.setEvents⟩
  · obtain rfl := Option.some.inj (hdes.symm.trans he)
    rw [setThread_self]
    exact hwaits

/-- A statement of a thread establishes what its next point knows. -/
theorem fits_own {p : ι → Option Point} (h : ∀ v, Fits v (p v) s) (hpoint : p t = some k)
    (hstep : Step t s k s' k') : Fits t k' s' := by
  have ht : Fits t (some k) s := hpoint ▸ h t
  cases hstep with
  | mallocFails set => exact ht.move_awake rfl rfl rfl nofun nofun nofun nofun
  | tableFull set => exact ht.move_awake rfl rfl rfl nofun nofun nofun nofun
  | starts set => exact ht.move_awake rfl rfl rfl nofun nofun nofun nofun
  | startFails set => exact ht.move_awake rfl rfl rfl nofun nofun nofun nofun
  | testFails set d hd hflag => exact ht.move_awake rfl rfl rfl nofun nofun nofun nofun
  | leaves set err recved => exact ht.move_awake rfl rfl rfl nofun nofun nofun nofun
  | tests set d hd hflag =>
    refine ht.move rfl rfl rfl fun e he hwaits => ?_
    obtain rfl := Option.some.inj (hd.symm.trans he)
    have hawake := hwaits.awake nofun
    refine ⟨fun hsuspended => Bool.noConfusion (hawake.symm.trans hsuspended), ?_, nofun, nofun⟩
    intro set' hk
    obtain rfl := Point.waitRead.inj (Option.some.inj hk)
    obtain ⟨event, hmarked, hset⟩ := (ht.own.words d hd).flagEvents set hflag
    exact ⟨event, hset, hmarked, hmarked⟩
  | reads set d hd =>
    refine ht.move rfl rfl rfl fun e he hwaits => ?_
    obtain rfl := Option.some.inj (hd.symm.trans he)
    exact .of_returned (hwaits.awake nofun) (.inl ⟨rfl, hwaits.read set rfl⟩)
  | noSet =>
    exact ht.move rfl rfl rfl fun e he hwaits =>
      .of_returned (hwaits.awake nofun) (.inr (.inr ⟨rfl, rfl⟩))
  | wakesFailed set d hd hresumed herror =>
    refine ht.move rfl rfl rfl fun e he hwaits => ?_
    obtain rfl := Option.some.inj (hd.symm.trans he)
    refine .of_returned hresumed (.inr (.inl ?_))
    exact (hwaits.woken set rfl hresumed).resolve_left fun hok => herror hok.1
  | wakes set d hd hresumed herror =>
    refine ht.move rfl rfl rfl fun e he hwaits => ?_
    obtain rfl := Option.some.inj (hd.symm.trans he)
    refine .of_returned hresumed (.inl ⟨rfl, ?_⟩)
    rcases hwaits.woken set rfl hresumed with hok | hlate
    · exact hok.2
    · rw [herror] at hlate
      exact absurd hlate (by decide)
  | mallocs set =>
    refine ⟨⟨?_, fun i => iff_of_false (ht.own.not_listed rfl i) nofun, ?_, ?_⟩,
      .of_not_dispatching rfl⟩
    · rw [setDes_self]
      rfl
    · intro d hd
      rw [setDes_self] at hd
      obtain rfl := Option.some.inj hd
      exact ⟨fun _ h => h, eventWord_zero, eventWord_zero⟩
    · intro d hd
      rw [setDes_self] at hd
      obtain rfl := Option.some.inj hd
      exact .of_awake rfl nofun nofun nofun
  | claims set d i hmutex hd hfree => exact ⟨ht.own.claim hd, .of_not_dispatching rfl⟩
  | receives set d hd hset =>
    refine ⟨⟨ht.own.des, ht.own.tab, ht.own.words, fun e he => ?_⟩, .of_not_dispatching rfl⟩
    obtain rfl := Option.some.inj (hd.symm.trans he)
    obtain ⟨event, hsent, hwaited⟩ := (ht.own.words d hd).setEvents set hset
    exact .of_returned ((ht.own.waits d hd).awake nofun) (.inl ⟨rfl, event, hwaited,
      (marked_and _ _ _).mpr ⟨hsent, hwaited⟩, (ht.own.words d hd).flagged event hsent⟩)
  | sleeps set d hd hset =>
    exact ⟨ht.own.setSuspended hd true _ rfl rfl
      ⟨fun _ => ⟨set, rfl, rfl, hset⟩, nofun, fun _ _ hresumed => (nomatch hresumed), nofun⟩,
      .of_not_dispatching rfl⟩
  | expires set d hd hasleep =>
    exact ⟨ht.own.setSuspended hd false _ rfl rfl ⟨nofun, nofun, fun _ _ _ => .inr rfl, nofun⟩,
      .of_not_dispatching rfl⟩
  | clears d hmutex hd => exact ⟨ht.own.clear hd, .of_not_dispatching rfl⟩
  | frees =>
    exact ⟨.absent rfl (setDes_self s t none) (ht.own.not_listed rfl), .of_not_dispatching rfl⟩
  | locks event hmutex =>
    refine ⟨.absent rfl (ht.own.des_none rfl) (ht.own.not_listed rfl),
      ⟨fun _ => rfl, nofun, ?_⟩⟩
    rintro e i v ⟨-, hi⟩ -
    exact absurd (mem_entries i) hi
  | loopEnds event =>
    refine ⟨ht.own.still_absent rfl rfl rfl, ⟨fun _ => ht.sends.mutex rfl, nofun, ?_⟩⟩
    rintro e i v rfl hentry
    exact ht.sends.sent event i v ⟨rfl, List.not_mem_nil⟩ hentry
  | skips event i todo hentry =>
    refine ⟨ht.own.still_absent rfl rfl rfl, ⟨fun _ => ht.sends.mutex rfl, nofun, ?_⟩⟩
    rintro e j v ⟨rfl, hj⟩ hv
    refine ht.sends.sent event j v ⟨rfl, fun hmem => ?_⟩ hv
    rcases List.mem_cons.mp hmem with rfl | htodo
    · exact nomatch hentry.symm.trans hv
    · exact hj htodo
  | flags event i todo v d hentry hd =>
    have hsignals : Signals s (flagEvent s v d event) v d _ :=
      signals_flagEvent hd ((h v).own.words d hd)
    have hown := hsignals.own ht.own
    refine ⟨hown.still_absent rfl rfl rfl, ⟨fun _ => ht.sends.mutex rfl, ?_, ?_⟩⟩
    · intro e j todo' hk
      obtain ⟨rfl, rfl, rfl⟩ := Point.send.inj (Option.some.inj hk)
      exact ⟨v, _, hentry, hsignals.des', (marked_or _ _ _).mpr (.inr ((marked_bit _ _).mpr rfl))⟩
    · rintro e j w ⟨rfl, hj⟩ hw
      exact hsignals.marked (ht.sends.sent event j w ⟨rfl, hj⟩ hw)
  | sends event i todo v d hentry hd =>
    obtain ⟨v', d', hentry', hd', hflag⟩ := ht.sends.flagged event i todo rfl
    obtain rfl := Option.some.inj (hentry.symm.trans hentry')
    obtain rfl := Option.some.inj (hd.symm.trans hd')
    obtain ⟨e, hsignals, hset⟩ := signals_eventSend hd ((h v).own.words d hd) hflag
    have hown := hsignals.own ht.own
    refine ⟨hown.still_absent rfl rfl rfl, ⟨fun _ => hsignals.mutex.trans (ht.sends.mutex rfl), nofun, ?_⟩⟩
    rintro e' j w ⟨rfl, hj⟩ hw
    rw [hsignals.tab] at hw
    by_cases hji : j = i
    · subst hji
      obtain rfl := Option.some.inj (hentry.symm.trans hw)
      refine ⟨e, hsignals.des', ?_⟩
      rw [hset]
      exact (marked_or _ _ _).mpr (.inr ((marked_bit _ _).mpr rfl))
    · exact hsignals.marked (ht.sends.sent event j w
        ⟨rfl, fun hmem => (List.mem_cons.mp hmem).elim hji hj⟩ hw)
  | unlocks event =>
    exact ⟨.absent rfl (ht.own.des_none rfl) (ht.own.not_listed rfl), .of_not_dispatching rfl⟩

end Keep

/-! ## Whole runs -/

/-- Every call knows at every point what its point says. -/
theorem fits_run {s : Threads ι (Shared ι) Point} {actions : List (ThreadAction ι Call Choice)}
    (run : program.threads.Run Machine.anyStep (.start .init) actions s) :
    ∀ t, Fits t (s.point t) s.shared := by
  refine Program.outline (A := Fits) (fun t c shared h => ?_)
    (fun t choice k s shared next h hpoint hstmt => fits_own h hpoint (step_of_stmt hstmt))
    (fun t choice k s shared next u h hpoint hstmt hut =>
      fits_other h hpoint (step_of_stmt hstmt) hut) run fun t => ?_
  · cases c with
    | operate set => exact ⟨h.own.still_absent rfl rfl rfl, .of_not_dispatching rfl⟩
    | dispatch event => exact ⟨h.own.still_absent rfl rfl rfl, .of_not_dispatching rfl⟩
  · exact ⟨.absent rfl rfl fun _ => nofun, .of_not_dispatching rfl⟩

end Gd32Vw553h.Wlan.Complete
