/-
  Kernel/Timer.lean --- the timer lists (`src/timer.c`).

  A timer list is a skip list: the last row links all active timers, each row above it
  some of them.  `TimerState.Rows` is what every operation keeps of the links, the
  deadlines and `RT_TIMER_FLAG_ACTIVATED`; it needs the deadlines to lie within less than
  half the range of the tick (`Windowed`), since they are compared modulo that range.
  `timerLists_ordered` is the result for all runs of calls and ticks.

  The number of rows and which timers are soft ones are parameters.  `startNr` numbers
  the starts of timers and is not part of the program.  Scheduler and hooks are left out,
  and `RT_ASSERT` is empty in this configuration.
-/
import Gd32Vw553h.Foundation.LinkedRings
import Gd32Vw553h.Foundation.Runs
import Gd32Vw553h.Kernel.RtDef
import Mathlib.Data.Fintype.Card
import Mathlib.Data.List.TakeWhile

set_option autoImplicit false

namespace Gd32Vw553h.Kernel

open Gd32Vw553h.Foundation

/-! ## The code -/

/-- A list head. -/
inductive TimerHead where
  /-- `_timer_list[row]` or `_soft_timer_list[row]` -/
  | timerList (soft : Bool) (row : Nat)
  /-- `list` in `_timer_check`, for either of the two -/
  | expired (soft : Bool)
  deriving DecidableEq

/-- A list node: a head, or `row[row]` of a timer. -/
inductive TimerNode (τ : Type*) where
  | head (list : TimerHead)
  | row (timer : τ) (row : Nat)
  deriving DecidableEq

/-- The next element of the array that the node is in. -/
def TimerNode.succ {τ : Type*} : TimerNode τ → TimerNode τ
  | .head (.timerList soft i) => .head (.timerList soft (i + 1))
  | .head (.expired soft) => .head (.expired soft)
  | .row timer i => .row timer (i + 1)

/-- `RT_TIMER_SKIP_LIST_MASK` -/
abbrev rtTimerSkipListMask : Nat := 3

/-- The timers, the two timer lists and the tick. -/
structure TimerState (τ : Type*) where
  links : Links (TimerNode τ)
  tick : Nat
  /-- the static variable of `_timer_start` -/
  randomNr : Nat
  initTick : τ → Nat
  timeoutTick : τ → Nat
  /-- `RT_TIMER_FLAG_ACTIVATED` -/
  activated : τ → Bool
  /-- `RT_TIMER_FLAG_PERIODIC` -/
  periodic : τ → Bool
  /-- how many times a timer has been started -/
  starts : Nat
  /-- which of these is the last start of the timer -/
  startNr : τ → Nat

namespace TimerState

variable {τ : Type*}

/-- After `rt_system_timer_init`, `rt_system_timer_thread_init`, and `rt_timer_init` of every
timer. -/
def start (tick randomNr : Nat) (initTick : τ → Nat) (periodic : τ → Bool) : TimerState τ where
  links := { next := id, prev := id }
  tick := tick % wordSize
  randomNr := randomNr
  initTick := initTick
  timeoutTick _ := 0
  activated _ := false
  periodic := periodic
  starts := 0
  startNr _ := 0

/-- Another timer goes in front of this one: the test that breaks the inner loop of
`_timer_start`. -/
def isLater (s : TimerState τ) (timeoutTick : Nat) (t : τ) : Bool :=
  if wordSub (s.timeoutTick t) timeoutTick = 0 then false
  else decide (wordSub (s.timeoutTick t) timeoutTick < rtTickHalf)

variable [DecidableEq τ]

/-- `_timer_remove` -/
def timerRemove (level : Nat) (s : TimerState τ) (timer : τ) : TimerState τ :=
  { s with links := (List.range level).foldl (fun L i => L.remove (.row timer i)) s.links }

/-- `flag |= RT_TIMER_FLAG_ACTIVATED`, or `&= ~` -/
def setActivated (s : TimerState τ) (timer : τ) (set : Bool) : TimerState τ :=
  { s with activated := Function.update s.activated timer set }

/-- The inner loop of `_timer_start` in one row, from `rowHead` over at most `fuel` nodes. -/
def walk (s : TimerState τ) (list : TimerHead) (timeoutTick : Nat) :
    Nat → TimerNode τ → TimerNode τ
  | 0, rowHead => rowHead
  | fuel + 1, rowHead =>
    if rowHead = s.links.prev (.head list) then rowHead
    else
      match s.links.next rowHead with
      | .row t row =>
        if s.isLater timeoutTick t then rowHead else walk s list timeoutTick fuel (.row t row)
      | .head _ => rowHead

/-- `rt_list_insert_after` of the rows above the last one, from the bottom upwards. -/
def insertRows (rowHead : Nat → TimerNode τ) (timer : τ) :
    Nat → Nat → Links (TimerNode τ) → Links (TimerNode τ)
  | 0, _, L => L
  | row + 1, tstNr, L =>
    if tstNr &&& rtTimerSkipListMask = 0 then
      insertRows rowHead timer row (tstNr >>> ((rtTimerSkipListMask + 1) / 2))
        (L.insertAfter (rowHead row) (.row timer row))
    else L

variable [Fintype τ]

/-- `row_head` when the loops of `_timer_start` are over. -/
def rowHead (s : TimerState τ) (soft : Bool) (timeoutTick : Nat) : Nat → TimerNode τ
  | 0 =>
    s.walk (.timerList soft 0) timeoutTick (Fintype.card τ) (.head (.timerList soft 0))
  | row + 1 =>
    s.walk (.timerList soft (row + 1)) timeoutTick (Fintype.card τ)
      (rowHead s soft timeoutTick row).succ

/-- `_timer_start`, on the hard or the soft timer list. -/
def timerStart (level : Nat) (s : TimerState τ) (soft : Bool) (timer : τ) : TimerState τ :=
  let s := (s.timerRemove level timer).setActivated timer false
  let timeoutTick := (s.tick + s.initTick timer) % wordSize
  let s := { s with timeoutTick := Function.update s.timeoutTick timer timeoutTick }
  let rowHead := s.rowHead soft timeoutTick
  let randomNr := (s.randomNr + 1) % wordSize
  let links := s.links.insertAfter (rowHead (level - 1)) (.row timer (level - 1))
  let s := { s with
    randomNr := randomNr
    links := insertRows rowHead timer (level - 1) randomNr links
    starts := s.starts + 1
    startNr := Function.update s.startNr timer s.starts }
  s.setActivated timer true

/-- `rt_timer_stop`: whether it returns `RT_EOK`, and the state. -/
def rtTimerStop (level : Nat) (s : TimerState τ) (timer : τ) : Bool × TimerState τ :=
  if s.activated timer = true then
    (true, (s.timerRemove level timer).setActivated timer false)
  else (false, s)

/-- `rt_timer_detach` -/
def rtTimerDetach (level : Nat) (s : TimerState τ) (timer : τ) : TimerState τ :=
  (s.timerRemove level timer).setActivated timer false

/-- `rt_timer_control` with `RT_TIMER_CTRL_SET_TIME` -/
def setTime (level : Nat) (s : TimerState τ) (timer : τ) (tick : Nat) : TimerState τ :=
  let s :=
    if s.activated timer = true then (s.timerRemove level timer).setActivated timer false else s
  { s with initTick := Function.update s.initTick timer tick }

/-- `rt_timer_control` with `RT_TIMER_CTRL_SET_PERIODIC`, or `RT_TIMER_CTRL_SET_ONESHOT` -/
def setPeriodic (s : TimerState τ) (timer : τ) (set : Bool) : TimerState τ :=
  { s with periodic := Function.update s.periodic timer set }

end TimerState

/-! ## Calls -/

/-- A call that changes a timer. -/
inductive TimerCall (τ : Type*) where
  | start (timer : τ)
  | stop (timer : τ)
  | detach (timer : τ)
  | setTime (timer : τ) (tick : Nat)
  | setOneshot (timer : τ)
  | setPeriodic (timer : τ)

/-- What has happened to a timer. -/
inductive TimerEvent (τ : Type*) where
  /-- it has been started and has this deadline -/
  | started (timer : τ) (timeoutTick : Nat)
  /-- it has been deactivated by a call -/
  | stopped (timer : τ)
  /-- its callback has been called at this tick for this deadline -/
  | invoked (timer : τ) (periodic : Bool) (timeoutTick tick : Nat)
  deriving DecidableEq

namespace TimerEvent

variable {τ : Type*}

/-- The timer of an event. -/
def timer : TimerEvent τ → τ
  | started timer _ | stopped timer | invoked timer _ _ _ => timer

/-- A callback has been called. -/
def isInvoked : TimerEvent τ → Bool
  | invoked _ _ _ _ => true
  | _ => false

end TimerEvent

inductive TimerStep (τ : Type*) where
  | call (call : TimerCall τ)
  /-- `rt_tick_increase_tick` -/
  | tick (n : Nat)

section Calls

variable {τ : Type*}

/-- All active deadlines, and the tick, lie within less than half the range of the tick. -/
def TimerState.Windowed (s : TimerState τ) : Prop :=
  ∃ base < wordSize, wordSub s.tick base < rtTickHalf ∧
    ∀ t, s.activated t = true → wordSub (s.timeoutTick t) base < rtTickHalf

/-- The deadline of `t` is before that of `u`, or the same and `t` has been started first. -/
def TimerState.Before (s : TimerState τ) (t u : τ) : Prop :=
  s.timeoutTick t ≠ s.timeoutTick u ∧ wordSub (s.timeoutTick u) (s.timeoutTick t) < rtTickHalf ∨
    s.timeoutTick t = s.timeoutTick u ∧ s.startNr t < s.startNr u

instance (s : TimerState τ) : DecidableRel s.Before := fun _ _ =>
  inferInstanceAs (Decidable (_ ∨ _))

/-- The timers of each row. -/
structure TimerState.Ordered (level : Nat) (soft : τ → Bool) (s : TimerState τ)
    (rows : Bool → Nat → List τ) : Prop where
  linked : ∀ list row, row < level →
    s.links.Ring (.head (.timerList list row)) ((rows list row).map (.row · row))
  sorted : ∀ list row, row < level → (rows list row).Pairwise s.Before
  sublist : ∀ list row, row + 1 < level → (rows list row).Sublist (rows list (row + 1))
  activated : ∀ list t,
    t ∈ rows list (level - 1) ↔ s.activated t = true ∧ soft t = list

/-- What happens to the timer when a call is made. -/
def TimerState.callEvent (s : TimerState τ) : TimerCall τ → Option (TimerEvent τ)
  | .start t => some (.started t ((s.tick + s.initTick t) % wordSize))
  | .stop t | .setTime t _ => if s.activated t = true then some (.stopped t) else none
  | .detach t => some (.stopped t)
  | .setOneshot _ | .setPeriodic _ => none

variable [DecidableEq τ] [Fintype τ]

/-- What a call does. -/
def TimerState.call (level : Nat) (soft : τ → Bool) (s : TimerState τ) :
    TimerCall τ → TimerState τ
  | .start timer => s.timerStart level (soft timer) timer
  | .stop timer => (s.rtTimerStop level timer).2
  | .detach timer => s.rtTimerDetach level timer
  | .setTime timer tick => s.setTime level timer tick
  | .setOneshot timer => s.setPeriodic timer false
  | .setPeriodic timer => s.setPeriodic timer true

/-- Any sequence of calls and ticks. -/
def timerMachine (level : Nat) (soft : τ → Bool) : Machine (TimerState τ) (TimerStep τ) where
  step s
    | .call call => some (s.call level soft call)
    | .tick n => some { s with tick := (s.tick + n) % wordSize }

end Calls

/-! ## The rows -/

section Rows

variable {τ : Type*} {L : Links (TimerNode τ)} {rows : TimerHead → List τ} {level : Nat}
  {soft : τ → Bool} {t : τ}

/-- The row in whose nodes the timers of a list are linked. -/
def TimerHead.rowOf (level : Nat) : TimerHead → Nat
  | .timerList _ row => row
  | .expired _ => level - 1

/-- Which timers a list is for. -/
def TimerHead.isSoft : TimerHead → Bool
  | .timerList soft _ | .expired soft => soft

/-- The nodes of the timers of a list. -/
def nodes (level : Nat) (rows : TimerHead → List τ) (list : TimerHead) : List (TimerNode τ) :=
  (rows list).map (.row · (list.rowOf level))

theorem row_injective (i : Nat) : Function.Injective fun t : τ => TimerNode.row t i :=
  fun _ _ h => (TimerNode.row.inj h).1

theorem row_mem_nodes {list : TimerHead} {i : Nat} :
    TimerNode.row t i ∈ TimerNode.head list :: nodes level rows list ↔
      list.rowOf level = i ∧ t ∈ rows list := by
  rw [List.mem_cons, or_iff_right (by simp)]
  constructor
  · intro h
    obtain ⟨u, hu, heq⟩ := List.mem_map.mp h
    obtain ⟨rfl, hrow⟩ := TimerNode.row.inj heq
    exact ⟨hrow, hu⟩
  · rintro ⟨rfl, ht⟩
    exact List.mem_map_of_mem ht

/-- Each list has these timers; a row has all timers of the row above. -/
structure Linked (level : Nat) (soft : τ → Bool) (L : Links (TimerNode τ))
    (rows : TimerHead → List τ) : Prop where
  rings : L.Rings .head (nodes level rows)
  short : ∀ b i, level ≤ i → rows (.timerList b i) = []
  sublist : ∀ b i, i + 1 < level →
    (rows (.timerList b i)).Sublist (rows (.timerList b (i + 1)))
  side : ∀ list, ∀ t ∈ rows list, soft t = list.isSoft

theorem nodup_rows (h : L.Rings .head (nodes level rows)) (list : TimerHead) :
    (rows list).Nodup := ((List.nodup_cons.mp (h.ring list).nodup).2).of_map _

theorem Linked.nodup (h : Linked level soft L rows) (list : TimerHead) : (rows list).Nodup :=
  nodup_rows h.rings list

theorem Linked.below (h : Linked level soft L rows) (b : Bool) {i n : Nat} (hi : i + n < level) :
    (rows (.timerList b i)).Sublist (rows (.timerList b (i + n))) := by
  induction n with
  | zero => exact List.Sublist.refl _
  | succ n ih => exact (ih (by omega)).trans (h.sublist b (i + n) hi)

/-- The timers of a row are in the last row. -/
theorem Linked.last (h : Linked level soft L rows) (b : Bool) {i : Nat} (hi : i < level) :
    (rows (.timerList b i)).Sublist (rows (.timerList b (level - 1))) := by
  have hbelow := h.below b (i := i) (n := level - 1 - i) (by omega)
  rwa [Nat.add_sub_cancel' (by omega)] at hbelow

theorem linked_empty (level : Nat) (soft : τ → Bool) :
    Linked level soft { next := id, prev := id } fun _ => [] where
  rings := Links.rings_empty TimerNode.head fun _ _ h => TimerNode.head.inj h
  short _ _ _ := rfl
  sublist _ _ _ := List.Sublist.refl _
  side _ _ ht := absurd ht List.not_mem_nil

/-! ### Inserting a timer -/

/-- A timer in front of the first one that is to be behind it. -/
def placed (isLater : τ → Bool) (t : τ) (us : List τ) : List τ :=
  us.takeWhile (fun u => !isLater u) ++ t :: us.dropWhile fun u => !isLater u

/-- The node of the last of these timers, or the head. -/
def lastNode (list : TimerHead) (i : Nat) (us : List τ) : TimerNode τ :=
  (us.map (.row · i)).getLastD (.head list)

theorem lastNode_concat (list : TimerHead) (i : Nat) (us : List τ) (u : τ) :
    lastNode list i (us ++ [u]) = .row u i := by
  rw [lastNode, List.map_append, List.map_singleton, List.getLastD_concat]

/-- The node behind which the timer is to be linked. -/
def place (isLater : τ → Bool) (rows : TimerHead → List τ) (b : Bool) (i : Nat) : TimerNode τ :=
  lastNode (.timerList b i) i ((rows (.timerList b i)).takeWhile fun u => !isLater u)

/-- The rows with the timer put into those from `k` on. -/
def insertedFrom (level : Nat) (isLater : τ → Bool) (t : τ) (b : Bool)
    (rows : TimerHead → List τ) (k : Nat) (list : TimerHead) : List τ :=
  match list with
  | .timerList c i =>
    if c = b ∧ k ≤ i ∧ i < level then placed isLater t (rows list) else rows list
  | .expired _ => rows list

/-- When no later timer is in front of another one, those in front are all the others. -/
theorem takeWhile_eq_filter {p : τ → Bool} {us : List τ}
    (h : us.Pairwise fun u v => p v = true → p u = true) :
    us.takeWhile p = us.filter p ∧ us.dropWhile p = us.filter fun u => !p u := by
  induction us with
  | nil => exact ⟨rfl, rfl⟩
  | cons u us ih =>
    obtain ⟨hfirst, hrest⟩ := List.pairwise_cons.mp h
    obtain ⟨htake, hdrop⟩ := ih hrest
    by_cases hu : p u = true
    · rw [List.takeWhile_cons_of_pos hu, List.dropWhile_cons_of_pos hu,
        List.filter_cons_of_pos hu, List.filter_cons_of_neg (by simp [hu]), htake]
      exact ⟨rfl, hdrop⟩
    · have hnone : ∀ v ∈ us, ¬ p v = true := fun v hv hpv => hu (hfirst v hv hpv)
      rw [List.takeWhile_cons_of_neg hu, List.dropWhile_cons_of_neg hu,
        List.filter_cons_of_neg hu, List.filter_cons_of_pos (by simpa using hu),
        List.filter_eq_nil_iff.mpr hnone, List.filter_eq_self.mpr fun v hv => by
          simpa using hnone v hv]
      exact ⟨rfl, rfl⟩

theorem mem_placed {isLater : τ → Bool} {us : List τ} {u : τ} :
    u ∈ placed isLater t us ↔ u = t ∨ u ∈ us := by
  have hsplit : us.takeWhile (fun u => !isLater u) ++ us.dropWhile (fun u => !isLater u) = us :=
    List.takeWhile_append_dropWhile
  have hmem := congrArg (u ∈ ·) hsplit
  simp only [List.mem_append, eq_iff_iff] at hmem
  rw [placed, List.mem_append, List.mem_cons, ← hmem]
  tauto

theorem sublist_placed (isLater : τ → Bool) (t : τ) (us : List τ) :
    us.Sublist (placed isLater t us) := by
  have hsplit : us.takeWhile (fun u => !isLater u) ++ us.dropWhile (fun u => !isLater u) = us :=
    List.takeWhile_append_dropWhile
  have hinsert : (us.takeWhile (fun u => !isLater u) ++ us.dropWhile (fun u => !isLater u)).Sublist
      (placed isLater t us) := (List.Sublist.refl _).append (List.sublist_cons_self t _)
  rwa [hsplit] at hinsert

/-- The later timers come last. -/
def LaterLast (isLater : τ → Bool) (us : List τ) : Prop :=
  us.Pairwise fun u v => isLater u = true → isLater v = true

theorem LaterLast.filter {isLater : τ → Bool} {us : List τ} (h : LaterLast isLater us) :
    us.takeWhile (fun u => !isLater u) = us.filter (fun u => !isLater u) ∧
      us.dropWhile (fun u => !isLater u) = us.filter fun u => !!isLater u := by
  refine takeWhile_eq_filter (h.imp fun {u v} himp hv => ?_)
  rw [Bool.not_eq_true'] at hv ⊢
  exact Bool.eq_false_iff.mpr fun hu => Bool.eq_false_iff.mp hv (himp hu)

theorem placed_sublist {isLater : τ → Bool} {us vs : List τ} (h : us.Sublist vs)
    (hvs : LaterLast isLater vs) : (placed isLater t us).Sublist (placed isLater t vs) := by
  have hus : LaterLast isLater us := List.Pairwise.sublist h hvs
  obtain ⟨htake, hdrop⟩ := hus.filter
  obtain ⟨htake', hdrop'⟩ := hvs.filter
  rw [placed, placed, htake, hdrop, htake', hdrop']
  exact (h.filter _).append ((h.filter _).cons_cons t)

theorem insertedFrom_row {isLater : τ → Bool} {b : Bool} {k i : Nat} (hk : k ≤ i) (hi : i < level) :
    insertedFrom level isLater t b rows k (.timerList b i) =
      placed isLater t (rows (.timerList b i)) := if_pos ⟨rfl, hk, hi⟩

theorem insertedFrom_other {isLater : τ → Bool} {b c : Bool} {k i : Nat} (hc : c ≠ b) :
    insertedFrom level isLater t b rows k (.timerList c i) = rows (.timerList c i) :=
  if_neg fun h => hc h.1

theorem mem_insertedFrom {isLater : τ → Bool} {b : Bool} {k : Nat} {list : TimerHead} {u : τ}
    (h : u ∈ insertedFrom level isLater t b rows k list) :
    u = t ∧ list.isSoft = b ∨ u ∈ rows list := by
  cases list with
  | timerList c i =>
    by_cases hc : c = b ∧ k ≤ i ∧ i < level
    · rw [insertedFrom, if_pos hc] at h
      exact (mem_placed.mp h).imp (fun hu => ⟨hu, hc.1⟩) id
    · rw [insertedFrom, if_neg hc] at h
      exact .inr h
  | expired c => exact .inr h

/-- The timers in the last row. -/
theorem mem_insertedFrom_last (hlevel : 0 < level) {isLater : τ → Bool} {k : Nat}
    (hk : k ≤ level - 1) {b c : Bool} {u : τ} :
    u ∈ insertedFrom level isLater t b rows k (.timerList c (level - 1)) ↔
      u = t ∧ c = b ∨ u ∈ rows (.timerList c (level - 1)) := by
  by_cases hc : c = b
  · rw [hc, insertedFrom_row hk (Nat.sub_lt hlevel Nat.one_pos), mem_placed, and_iff_left rfl]
  · rw [insertedFrom_other hc, or_iff_right fun hu => hc hu.2]

theorem Linked.insert {L' : Links (TimerNode τ)} {isLater : τ → Bool} {k : Nat}
    (h : Linked level soft L rows)
    (hlater : LaterLast isLater (rows (.timerList (soft t) (level - 1))))
    (hrings : L'.Rings .head (nodes level (insertedFrom level isLater t (soft t) rows k))) :
    Linked level soft L' (insertedFrom level isLater t (soft t) rows k) := by
  refine ⟨hrings, fun c i hi => ?_, fun c i hi => ?_, fun list u hu => ?_⟩
  · rw [insertedFrom, if_neg fun hc => absurd hc.2.2 (Nat.not_lt_of_le hi), h.short c i hi]
  · by_cases hc : c = soft t
    · rw [hc]
      have hrow : LaterLast isLater (rows (.timerList (soft t) (i + 1))) :=
        List.Pairwise.sublist (h.last (soft t) hi) hlater
      have hsublist := h.sublist (soft t) i hi
      rcases Nat.lt_trichotomy k (i + 1) with hlt | heq | hgt
      · rw [insertedFrom_row (by omega) (by omega), insertedFrom_row (by omega) hi]
        exact placed_sublist hsublist hrow
      · rw [insertedFrom_row (by omega) hi, insertedFrom, if_neg fun hc => by omega]
        exact hsublist.trans (sublist_placed isLater t _)
      · rw [insertedFrom, insertedFrom, if_neg fun hc => by omega, if_neg fun hc => by omega]
        exact hsublist
    · rw [insertedFrom_other hc, insertedFrom_other hc]
      exact h.sublist c i hi
  · rcases mem_insertedFrom hu with ⟨rfl, hside⟩ | hold
    · exact hside.symm
    · exact h.side list u hold

/-! ### Removing a timer -/

variable [DecidableEq τ]

theorem rings_removeRow (h : L.Rings .head (nodes level rows)) (t : τ) (i : Nat) :
    (L.remove (.row t i)).Rings .head (nodes level fun list =>
      if list.rowOf level = i then (rows list).erase t else rows list) := by
  have hremoved := h.remove (x := .row t i) fun list => by simp
  have hlists : (fun list => (nodes level rows list).erase (.row t i)) = nodes level fun list =>
      if list.rowOf level = i then (rows list).erase t else rows list := by
    funext list
    by_cases hrow : list.rowOf level = i
    · rw [nodes, nodes, if_pos hrow, ← hrow]
      exact (List.map_erase (row_injective _) _).symm
    · rw [nodes, nodes, if_neg hrow]
      refine List.erase_of_not_mem fun hmem => hrow ?_
      exact (row_mem_nodes.mp (List.mem_cons_of_mem _ hmem)).1
  rwa [hlists] at hremoved

/-- `_timer_remove`, in all rows. -/
theorem rings_removeRows (h : L.Rings .head (nodes level rows)) (hlevel : 0 < level)
    (hshort : ∀ b i, level ≤ i → rows (.timerList b i) = []) (t : τ) :
    ((List.range level).foldl (fun L i => L.remove (.row t i)) L).Rings .head
      (nodes level fun list => (rows list).erase t) := by
  -- after `n` rounds, the first `n` rows are done
  have hrounds : ∀ n, ((List.range n).foldl (fun L i => L.remove (.row t i)) L).Rings .head
      (nodes level fun list =>
        if list.rowOf level < n then (rows list).erase t else rows list) := by
    intro n
    induction n with
    | zero => simpa using h
    | succ n ih =>
      have hround := rings_removeRow ih t n
      rw [List.range_succ, List.foldl_append]
      have hsame : (fun list : TimerHead => if list.rowOf level = n then
            (if list.rowOf level < n then (rows list).erase t else rows list).erase t
          else if list.rowOf level < n then (rows list).erase t else rows list) =
          fun list => if list.rowOf level < n + 1 then (rows list).erase t else rows list := by
        funext list
        rcases Nat.lt_trichotomy (list.rowOf level) n with hlt | heq | hgt
        · rw [if_neg hlt.ne, if_pos hlt, if_pos (Nat.lt_succ_of_lt hlt)]
        · rw [if_pos heq, if_neg (by omega), if_pos (by omega)]
        · rw [if_neg hgt.ne', if_neg (by omega), if_neg (by omega)]
      rwa [hsame] at hround
  have hall : (fun list : TimerHead =>
      if list.rowOf level < level then (rows list).erase t else rows list) =
      fun list => (rows list).erase t := by
    funext list
    by_cases hrow : list.rowOf level < level
    · exact if_pos hrow
    · rw [if_neg hrow]
      cases list with
      | timerList b i => rw [hshort b i (Nat.le_of_not_lt hrow), List.erase_nil]
      | expired b => exact absurd (Nat.sub_lt hlevel Nat.one_pos) hrow
  exact hall ▸ hrounds level

theorem Linked.remove (h : Linked level soft L rows) (hlevel : 0 < level) (t : τ) :
    Linked level soft ((List.range level).foldl (fun L i => L.remove (.row t i)) L)
      fun list => (rows list).erase t := by
  refine ⟨rings_removeRows h.rings hlevel h.short t, fun b i hi => ?_,
    fun b i hi => (h.sublist b i hi).erase t, fun list u hu =>
      h.side list u (List.mem_of_mem_erase hu)⟩
  rw [h.short b i hi, List.erase_nil]

/-! ### Linking a timer -/

theorem rings_insertRow (h : L.Rings .head (nodes level rows)) (list : TimerHead) {xs ys : List τ}
    (hsplit : rows list = xs ++ ys)
    (hnew : ∀ other : TimerHead, other.rowOf level = list.rowOf level → t ∉ rows other)
    {rows' : TimerHead → List τ} (hlist : rows' list = xs ++ t :: ys)
    (hother : ∀ other, other ≠ list → rows' other = rows other) :
    (L.insertAfter (lastNode list (list.rowOf level) xs)
      (.row t (list.rowOf level))).Rings .head (nodes level rows') := by
  have hnodes : nodes level rows list =
      xs.map (.row · (list.rowOf level)) ++ ys.map (.row · (list.rowOf level)) := by
    rw [nodes, hsplit, List.map_append]
  refine h.insertAfter list hnodes ?_ ?_ ?_
  · intro other hmem
    obtain ⟨hrow, ht⟩ := row_mem_nodes.mp hmem
    exact hnew other hrow ht
  · rw [nodes, hlist, List.map_append, List.map_cons]
  · intro other hne
    rw [nodes, nodes, hother other hne]

/-- The timer is put into the row `i`, when those below have it. -/
theorem rings_place {isLater : τ → Bool} {b : Bool} {i : Nat} (hi : i < level)
    (hnew : ∀ list, t ∉ rows list)
    (h : L.Rings .head (nodes level (insertedFrom level isLater t b rows (i + 1)))) :
    (L.insertAfter (place isLater rows b i) (.row t i)).Rings .head
      (nodes level (insertedFrom level isLater t b rows i)) := by
  have hold : ∀ list : TimerHead, list.rowOf level = i → list ≠ .timerList b i →
      insertedFrom level isLater t b rows i list = rows list ∧
        insertedFrom level isLater t b rows (i + 1) list = rows list := by
    intro list hrow hne
    cases list with
    | timerList c j =>
      have hcb : c ≠ b := fun hcb => hne (by rw [hcb, ← hrow]; rfl)
      exact ⟨if_neg fun hc => hcb hc.1, if_neg fun hc => hcb hc.1⟩
    | expired c => exact ⟨rfl, rfl⟩
  have hbefore : insertedFrom level isLater t b rows (i + 1) (.timerList b i) =
      rows (.timerList b i) := if_neg fun hc => absurd hc.2.1 (Nat.not_succ_le_self i)
  refine rings_insertRow h (.timerList b i) (hbefore.trans List.takeWhile_append_dropWhile.symm)
    (fun other hrow => ?_) (if_pos ⟨rfl, le_rfl, hi⟩) fun other hne => ?_
  · by_cases hsame : other = .timerList b i
    · rw [hsame, hbefore]
      exact hnew _
    · rw [(hold other hrow hsame).2]
      exact hnew other
  · by_cases hrow : other.rowOf level = i
    · obtain ⟨hleft, hright⟩ := hold other hrow hne
      rw [hleft, hright]
    · cases other with
      | timerList c j =>
        have hj : j ≠ i := hrow
        have hiff : (c = b ∧ i ≤ j ∧ j < level) ↔ (c = b ∧ i + 1 ≤ j ∧ j < level) := by
          constructor <;> rintro ⟨hc, hle, hlt⟩ <;> exact ⟨hc, by omega, hlt⟩
        simp only [insertedFrom, hiff]
      | expired c => rfl

/-- The rows above are filled as far as the counter says. -/
theorem rings_insertRows {isLater : τ → Bool} {b : Bool} (rowHead : Nat → TimerNode τ)
    (hplace : ∀ i < level, rowHead i = place isLater rows b i) (hnew : ∀ list, t ∉ rows list)
    {i : Nat} (hi : i ≤ level) (tstNr : Nat)
    (h : L.Rings .head (nodes level (insertedFrom level isLater t b rows i))) :
    ∃ k ≤ i, (TimerState.insertRows rowHead t i tstNr L).Rings .head
      (nodes level (insertedFrom level isLater t b rows k)) := by
  induction i generalizing tstNr L with
  | zero => exact ⟨0, le_rfl, h⟩
  | succ i ih =>
    unfold TimerState.insertRows
    split
    · have hrow := rings_place hi hnew h
      rw [← hplace i hi] at hrow
      obtain ⟨k, hk, hrings⟩ := ih (Nat.le_of_succ_le hi) _ hrow
      exact ⟨k, Nat.le_succ_of_le hk, hrings⟩
    · exact ⟨i + 1, le_rfl, h⟩

/-! ### The search -/

/-- From behind some first timers on, the search passes those that are not later. -/
theorem walk_eq {s : TimerState τ} {list : TimerHead} (timeoutTick : Nat) {i : Nat}
    {xs ys : List τ} (r : s.links.Ring (.head list) ((xs ++ ys).map (.row · i))) {fuel : Nat}
    (hfuel : ys.length ≤ fuel) :
    s.walk list timeoutTick fuel (lastNode list i xs) =
      lastNode list i (xs ++ ys.takeWhile fun u => !s.isLater timeoutTick u) := by
  induction ys generalizing xs fuel with
  | nil =>
    rw [List.takeWhile_nil, List.append_nil]
    rw [List.append_nil, ← List.append_nil (xs.map _)] at r
    cases fuel with
    | zero => rfl
    | succ fuel => exact if_pos (r.getLastD_eq_prev_iff.mpr rfl)
  | cons y ys ih =>
    cases fuel with
    | zero => exact absurd hfuel (Nat.not_succ_le_zero _)
    | succ fuel =>
      have hring := r
      rw [List.map_append, List.map_cons] at hring
      have hlast : lastNode list i xs ≠ s.links.prev (.head list) :=
        mt hring.getLastD_eq_prev_iff.mp (List.cons_ne_nil _ _)
      have hnext : s.links.next (lastNode list i xs) = .row y i := hring.next_getLastD
      rw [TimerState.walk, if_neg hlast, hnext]
      cases hy : s.isLater timeoutTick y with
      | true =>
        rw [List.takeWhile_cons_of_neg (by simp [hy]), List.append_nil]
        exact if_pos hy
      | false =>
        have hassoc : ∀ us : List τ, xs ++ y :: us = (xs ++ [y]) ++ us := fun us => by simp
        rw [hassoc] at r
        rw [List.takeWhile_cons_of_pos (by simp [hy]), hassoc, ← ih r
          (Nat.le_of_succ_le_succ hfuel), lastNode_concat]
        exact if_neg (Bool.eq_false_iff.mp hy)

variable [Fintype τ]

/-- In each row the search stops behind the last timer that is not later. -/
theorem rowHead_eq {s : TimerState τ} {b : Bool} {timeoutTick : Nat}
    (h : Linked level soft s.links rows)
    (hlater : LaterLast (s.isLater timeoutTick) (rows (.timerList b (level - 1)))) {i : Nat}
    (hi : i < level) :
    s.rowHead b timeoutTick i = place (s.isLater timeoutTick) rows b i := by
  have hring : ∀ i, s.links.Ring (.head (.timerList b i)) (([] ++ rows (.timerList b i)).map
      (.row · i)) := fun i => h.rings.ring (.timerList b i)
  have hcard : ∀ i, (rows (.timerList b i)).length ≤ Fintype.card τ := fun i =>
    (h.nodup _).length_le_card
  induction i with
  | zero => exact walk_eq timeoutTick (hring 0) (hcard 0)
  | succ i ih =>
    have hrow : LaterLast (s.isLater timeoutTick) (rows (.timerList b (i + 1))) :=
      List.Pairwise.sublist (h.last b hi) hlater
    rw [TimerState.rowHead, ih (Nat.lt_of_succ_lt hi), place, place]
    rcases List.eq_nil_or_concat ((rows (.timerList b i)).takeWhile fun u =>
      !s.isLater timeoutTick u) with hnil | ⟨front, a, hfront⟩
    · rw [hnil]
      exact walk_eq timeoutTick (hring (i + 1)) (hcard (i + 1))
    · rw [List.concat_eq_append] at hfront
      have ha : a ∈ (rows (.timerList b i)).takeWhile fun u => !s.isLater timeoutTick u := by
        rw [hfront]
        exact List.mem_append_right front (List.mem_singleton_self a)
      have hearly : s.isLater timeoutTick a = false := by
        simpa using List.mem_takeWhile_imp ha
      have hbelow : a ∈ rows (.timerList b (i + 1)) :=
        (h.sublist b i hi).subset ((List.takeWhile_prefix _).subset ha)
      obtain ⟨xs, ys, hsplit⟩ := List.append_of_mem hbelow
      -- whatever is in front of `a` is not later either
      have hxs : ∀ u ∈ xs ++ [a], (!s.isLater timeoutTick u) = true := by
        intro u hu
        rw [Bool.not_eq_true']
        rcases List.mem_append.mp hu with hu | hu
        · rw [hsplit] at hrow
          have himp := (List.pairwise_append.mp hrow).2.2 u hu a List.mem_cons_self
          exact Bool.eq_false_iff.mpr fun hlate => Bool.eq_false_iff.mp hearly (himp hlate)
        · rw [List.mem_singleton.mp hu, hearly]
      have hassoc : rows (.timerList b (i + 1)) = (xs ++ [a]) ++ ys := by simp [hsplit]
      have hnodes := hring (i + 1)
      have hlength := hcard (i + 1)
      rw [List.nil_append, hassoc] at hnodes
      rw [hassoc, List.length_append] at hlength
      have hwalk := walk_eq timeoutTick hnodes (Nat.le_of_add_left_le hlength)
      rw [lastNode_concat] at hwalk
      rw [hfront, lastNode_concat, hassoc, List.takeWhile_append_of_pos hxs]
      exact hwalk

/-- Linking a timer behind those that are not later, in some rows up from the last one. -/
theorem Linked.insertion {s : TimerState τ} (h : Linked level soft s.links rows)
    (hlevel : 0 < level)
    (hout : ∀ list, t ∉ rows list) {timeoutTick : Nat}
    (hlater : LaterLast (s.isLater timeoutTick) (rows (.timerList (soft t) (level - 1))))
    (randomNr : Nat) :
    ∃ k ≤ level - 1, Linked level soft
      (TimerState.insertRows (s.rowHead (soft t) timeoutTick) t (level - 1) randomNr
        (s.links.insertAfter (s.rowHead (soft t) timeoutTick (level - 1)) (.row t (level - 1))))
      (insertedFrom level (s.isLater timeoutTick) t (soft t) rows k) := by
  have hlast : level - 1 < level := Nat.sub_lt hlevel Nat.one_pos
  have hplace : ∀ i < level, s.rowHead (soft t) timeoutTick i =
      place (s.isLater timeoutTick) rows (soft t) i := fun i hi => rowHead_eq h hlater hi
  have hnone : insertedFrom level (s.isLater timeoutTick) t (soft t) rows level = rows := by
    funext list
    cases list with
    | timerList c i => exact if_neg fun hc => absurd hc.2.1 (Nat.not_le_of_lt hc.2.2)
    | expired c => rfl
  have hbelow : s.links.Rings .head (nodes level
      (insertedFrom level (s.isLater timeoutTick) t (soft t) rows (level - 1 + 1))) := by
    rw [Nat.sub_add_cancel hlevel, hnone]
    exact h.rings
  have hfirst := rings_place hlast hout hbelow
  rw [← hplace _ hlast] at hfirst
  obtain ⟨k, hk, hrings⟩ := rings_insertRows _ hplace hout hlast.le randomNr hfirst
  exact ⟨k, hk, h.insert hlater hrings⟩

end Rows

/-! ## Deadlines -/

section Deadlines

variable {τ : Type*} {s : TimerState τ} {base : Nat}

/-- Seen from a base less than half the range behind, a timer is later when its deadline is. -/
theorem isLater_iff {timeoutTick : Nat} {u : τ} (hu : s.timeoutTick u < wordSize)
    (htimeout : timeoutTick < wordSize) (hbase : base < wordSize)
    (hoffset : wordSub (s.timeoutTick u) base < rtTickHalf)
    (hnew : wordSub timeoutTick base < rtTickHalf) :
    s.isLater timeoutTick u = true ↔
      wordSub timeoutTick base < wordSub (s.timeoutTick u) base := by
  have hzero := wordSub_eq_zero_iff htimeout hu
  have hsame := wordSub_inj htimeout hu hbase
  have hhalf := wordSub_lt_half_iff htimeout hu hbase hnew hoffset
  unfold TimerState.isLater
  split
  · next h =>
    have heq := hsame.mpr (hzero.mp h)
    exact iff_of_false Bool.false_ne_true (by omega)
  · next h =>
    have hne := mt hsame.mp (mt hzero.mpr h)
    rw [decide_eq_true_iff, hhalf]
    omega

theorem before_iff {u v : τ} (hu : s.timeoutTick u < wordSize) (hv : s.timeoutTick v < wordSize)
    (hbase : base < wordSize) (hwu : wordSub (s.timeoutTick u) base < rtTickHalf)
    (hwv : wordSub (s.timeoutTick v) base < rtTickHalf) :
    s.Before u v ↔ wordSub (s.timeoutTick u) base < wordSub (s.timeoutTick v) base ∨
      wordSub (s.timeoutTick u) base = wordSub (s.timeoutTick v) base ∧
        s.startNr u < s.startNr v := by
  have hsame := wordSub_inj hu hv hbase
  have hhalf := wordSub_lt_half_iff hu hv hbase hwu hwv
  rw [TimerState.Before, hhalf, ← hsame]
  omega

/-- A list stays sorted when a timer is put between those before it and those behind it. -/
theorem placed_sorted {R : τ → τ → Prop} {isLater : τ → Bool} {t : τ} {us : List τ}
    (hus : us.Pairwise R) (hlater : LaterLast isLater us)
    (hfirst : ∀ u ∈ us, isLater u = false → R u t) (hlast : ∀ v ∈ us, isLater v = true → R t v)
    (hacross : ∀ u ∈ us, ∀ v ∈ us, isLater u = false → isLater v = true → R u v) :
    (placed isLater t us).Pairwise R := by
  obtain ⟨htake, hdrop⟩ := hlater.filter
  rw [placed, htake, hdrop]
  have hleft : ∀ u ∈ us.filter fun u => !isLater u, u ∈ us ∧ isLater u = false := by
    intro u hu
    simpa using List.mem_filter.mp hu
  have hright : ∀ v ∈ us.filter fun v => !!isLater v, v ∈ us ∧ isLater v = true := by
    intro v hv
    simpa using List.mem_filter.mp hv
  refine List.pairwise_append.mpr ⟨hus.filter _, List.pairwise_cons.mpr ⟨?_, hus.filter _⟩, ?_⟩
  · exact fun v hv => hlast v (hright v hv).1 (hright v hv).2
  · intro u hu v hv
    rcases List.mem_cons.mp hv with rfl | hv
    · exact hfirst u (hleft u hu).1 (hleft u hu).2
    · exact hacross u (hleft u hu).1 v (hright v hv).1 (hleft u hu).2 (hright v hv).2

end Deadlines

/-! ## The operations -/

section Operations

variable {τ : Type*} {s : TimerState τ} {rows : TimerHead → List τ} {level : Nat} {soft : τ → Bool}

/-- What every operation keeps of the timers, with what each list contains. -/
structure TimerState.Rows (level : Nat) (soft : τ → Bool) (s : TimerState τ)
    (rows : TimerHead → List τ) : Prop where
  linked : Linked level soft s.links rows
  tick : s.tick < wordSize
  timeoutTick : ∀ t, s.timeoutTick t < wordSize
  sorted : ∀ b, (rows (.timerList b (level - 1))).Pairwise s.Before
  activated : ∀ b, ∀ t ∈ rows (.timerList b (level - 1)), s.activated t = true
  numbered : ∀ b, ∀ t ∈ rows (.timerList b (level - 1)), s.startNr t < s.starts

theorem TimerState.Rows.congr {s' : TimerState τ} (h : s.Rows level soft rows)
    (hlinks : s'.links = s.links) (htimeout : s'.timeoutTick = s.timeoutTick)
    (hactivated : s'.activated = s.activated) (hstarts : s'.starts = s.starts)
    (hnr : s'.startNr = s.startNr) (htick : s'.tick < wordSize) : s'.Rows level soft rows := by
  obtain ⟨links, tick, random, init, timeout, activated, periodic, starts, nr⟩ := s'
  subst hlinks htimeout hactivated hstarts hnr
  exact ⟨h.linked, htick, h.timeoutTick, h.sorted, h.activated, h.numbered⟩

theorem TimerState.rows_start (level : Nat) (soft : τ → Bool) (tick randomNr : Nat)
    (initTick : τ → Nat) (periodic : τ → Bool) :
    (TimerState.start tick randomNr initTick periodic).Rows level soft fun _ => [] where
  linked := linked_empty level soft
  tick := Nat.mod_lt _ (by decide)
  timeoutTick _ := Nat.two_pow_pos 32
  sorted _ := List.Pairwise.nil
  activated _ _ ht := absurd ht List.not_mem_nil
  numbered _ _ ht := absurd ht List.not_mem_nil

variable [DecidableEq τ]

/-- A timer is taken out of all lists and deactivated. -/
theorem TimerState.Rows.drop (h : s.Rows level soft rows) (hlevel : 0 < level) (t : τ) :
    ((s.timerRemove level t).setActivated t false).Rows level soft fun list =>
      (rows list).erase t where
  linked := h.linked.remove hlevel t
  tick := h.tick
  timeoutTick := h.timeoutTick
  sorted b := (h.sorted b).sublist List.erase_sublist
  activated b u hu := by
    obtain ⟨hne, hmem⟩ := (h.linked.nodup _).mem_erase_iff.mp hu
    exact (Function.update_of_ne hne _ _).trans (h.activated b u hmem)
  numbered b u hu := h.numbered b u (List.mem_of_mem_erase hu)

/-- Another deadline for a timer that is in no list. -/
theorem TimerState.Rows.setTimeout (h : s.Rows level soft rows) {t : τ}
    (hout : ∀ list, t ∉ rows list) {timeoutTick : Nat} (htimeout : timeoutTick < wordSize) :
    TimerState.Rows level soft
      { s with timeoutTick := Function.update s.timeoutTick t timeoutTick } rows where
  linked := h.linked
  tick := h.tick
  timeoutTick u := by
    by_cases hu : u = t
    · rw [hu]
      exact (Function.update_self t timeoutTick s.timeoutTick).trans_lt htimeout
    · exact (Function.update_of_ne hu timeoutTick s.timeoutTick).trans_lt (h.timeoutTick u)
  sorted b := by
    refine (h.sorted b).imp_of_mem fun {u v} hu hv hbefore => ?_
    have hne : ∀ w ∈ rows (.timerList b (level - 1)), w ≠ t := fun w hw heq => hout _ (heq ▸ hw)
    unfold TimerState.Before at hbefore ⊢
    dsimp only
    rwa [Function.update_of_ne (hne u hu), Function.update_of_ne (hne v hv)]
  activated := h.activated
  numbered := h.numbered

variable [Fintype τ]

/-- A timer is linked into its list, which stays sorted when the deadlines are close. -/
theorem TimerState.Rows.insert {mid final : TimerState τ} (h : mid.Rows level soft rows)
    (hlevel : 0 < level) {t : τ} (hout : ∀ list, t ∉ rows list) (randomNr : Nat)
    (hlinks : final.links = insertRows (mid.rowHead (soft t) (mid.timeoutTick t)) t (level - 1)
      randomNr (mid.links.insertAfter (mid.rowHead (soft t) (mid.timeoutTick t) (level - 1))
        (.row t (level - 1))))
    (htimeout : final.timeoutTick = mid.timeoutTick)
    (hactivated : final.activated = Function.update mid.activated t true)
    (hstarts : final.starts = mid.starts + 1)
    (hnr : final.startNr = Function.update mid.startNr t mid.starts)
    (htick : final.tick = mid.tick) (hwindow : final.Windowed) :
    ∃ rows', final.Rows level soft rows' ∧
      (∀ b u, u ∈ rows' (.timerList b (level - 1)) ↔
        u = t ∧ b = soft t ∨ u ∈ rows (.timerList b (level - 1))) ∧
      ∀ b, rows' (.expired b) = rows (.expired b) := by
  obtain ⟨base, hbase, -, hactive⟩ := hwindow
  have hne : ∀ b, ∀ u ∈ rows (.timerList b (level - 1)), u ≠ t := fun b u hu heq =>
    hout _ (heq ▸ hu)
  have hnrSelf : final.startNr t = mid.starts := by rw [hnr, Function.update_self]
  have hnrOther : ∀ u, u ≠ t → final.startNr u = mid.startNr u := fun u hu => by
    rw [hnr, Function.update_of_ne hu]
  -- all deadlines concerned are in the window
  have hnew : wordSub (mid.timeoutTick t) base < rtTickHalf := by
    rw [← htimeout]
    exact hactive t (by rw [hactivated, Function.update_self])
  have hoffset : ∀ b, ∀ u ∈ rows (.timerList b (level - 1)),
      wordSub (mid.timeoutTick u) base < rtTickHalf := by
    intro b u hu
    rw [← htimeout]
    refine hactive u ?_
    rw [hactivated, Function.update_of_ne (hne b u hu)]
    exact h.activated b u hu
  have hlaterIff : ∀ u ∈ rows (.timerList (soft t) (level - 1)),
      (mid.isLater (mid.timeoutTick t) u = true ↔
        wordSub (mid.timeoutTick t) base < wordSub (mid.timeoutTick u) base) := fun u hu =>
    isLater_iff (h.timeoutTick u) (h.timeoutTick t) hbase (hoffset _ u hu) hnew
  have hbefore : ∀ {u v}, wordSub (mid.timeoutTick u) base < rtTickHalf →
      wordSub (mid.timeoutTick v) base < rtTickHalf →
      (wordSub (mid.timeoutTick u) base < wordSub (mid.timeoutTick v) base ∨
        wordSub (mid.timeoutTick u) base = wordSub (mid.timeoutTick v) base ∧
          final.startNr u < final.startNr v) → final.Before u v := by
    intro u v hu hv horder
    rw [← htimeout] at hu hv horder
    exact (before_iff (htimeout ▸ h.timeoutTick u) (htimeout ▸ h.timeoutTick v) hbase hu hv).mpr
      horder
  have hsorted : ∀ b, (rows (.timerList b (level - 1))).Pairwise final.Before := by
    intro b
    refine (h.sorted b).imp_of_mem fun {u v} hu hv hbefore => ?_
    unfold TimerState.Before at hbefore ⊢
    rwa [htimeout, hnrOther u (hne b u hu), hnrOther v (hne b v hv)]
  have hlater : LaterLast (mid.isLater (mid.timeoutTick t))
      (rows (.timerList (soft t) (level - 1))) := by
    refine (h.sorted (soft t)).imp_of_mem fun {u v} hu hv hbefore hlate => ?_
    have hmore := (hlaterIff u hu).mp hlate
    have horder := (before_iff (h.timeoutTick u) (h.timeoutTick v) hbase (hoffset _ u hu)
      (hoffset _ v hv)).mp hbefore
    exact (hlaterIff v hv).mpr (by omega)
  obtain ⟨k, hk, hlinked⟩ := h.linked.insertion hlevel hout hlater randomNr
  have hmem : ∀ b u, u ∈ insertedFrom level (mid.isLater (mid.timeoutTick t)) t (soft t) rows k
      (.timerList b (level - 1)) ↔ u = t ∧ b = soft t ∨ u ∈ rows (.timerList b (level - 1)) :=
    fun b u => mem_insertedFrom_last hlevel hk
  rw [← hlinks] at hlinked
  refine ⟨_, ⟨hlinked, htick ▸ h.tick, htimeout ▸ h.timeoutTick, fun b => ?_, fun b u hu => ?_,
    fun b u hu => ?_⟩, hmem, fun b => rfl⟩
  · by_cases hb : b = soft t
    · rw [hb, insertedFrom_row hk (Nat.sub_lt hlevel Nat.one_pos)]
      refine placed_sorted (hsorted (soft t)) hlater (fun u hu hearly => ?_) (fun v hv hlate => ?_)
        fun u hu v hv hearly hlate => ?_
      · have hle := mt (hlaterIff u hu).mpr (Bool.eq_false_iff.mp hearly)
        have hnumber := h.numbered _ u hu
        rw [← hnrOther u (hne _ u hu), ← hnrSelf] at hnumber
        exact hbefore (hoffset _ u hu) hnew (by omega)
      · exact hbefore hnew (hoffset _ v hv) (.inl ((hlaterIff v hv).mp hlate))
      · have hle := mt (hlaterIff u hu).mpr (Bool.eq_false_iff.mp hearly)
        have hlt := (hlaterIff v hv).mp hlate
        exact hbefore (hoffset _ u hu) (hoffset _ v hv) (.inl (by omega))
    · rw [insertedFrom_other hb]
      exact hsorted b
  · rw [hactivated]
    rcases (hmem b u).mp hu with ⟨rfl, -⟩ | hold
    · exact Function.update_self _ _ _
    · rw [Function.update_of_ne (hne b u hold)]
      exact h.activated b u hold
  · rw [hstarts]
    rcases (hmem b u).mp hu with ⟨rfl, -⟩ | hold
    · rw [hnrSelf]
      exact Nat.lt_succ_self _
    · rw [hnrOther u (hne b u hold)]
      exact Nat.lt_succ_of_lt (h.numbered b u hold)

theorem timerStart_activated (level : Nat) (s : TimerState τ) (b : Bool) (t : τ) :
    (s.timerStart level b t).activated = Function.update s.activated t true := by
  have htwice : (s.timerStart level b t).activated =
      Function.update (Function.update s.activated t false) t true := rfl
  rw [htwice, Function.update_idem]

theorem TimerState.Rows.timerStart (h : s.Rows level soft rows) (hlevel : 0 < level) (t : τ)
    (hwindow : (s.timerStart level (soft t) t).Windowed) :
    ∃ rows', (s.timerStart level (soft t) t).Rows level soft rows' ∧
      (∀ b u, u ∈ rows' (.timerList b (level - 1)) ↔
        u = t ∧ b = soft t ∨ u ∈ (rows (.timerList b (level - 1))).erase t) ∧
      ∀ b, rows' (.expired b) = (rows (.expired b)).erase t := by
  have hout : ∀ list, t ∉ (rows list).erase t := fun list hmem =>
    ((h.linked.nodup list).mem_erase_iff.mp hmem).1 rfl
  have hmid := (h.drop hlevel t).setTimeout hout (Nat.mod_lt (s.tick + s.initTick t)
    (show 0 < wordSize by decide))
  refine hmid.insert hlevel hout ((s.randomNr + 1) % wordSize) ?_ rfl ?_ rfl rfl rfl
    hwindow
  · have hdeadline : Function.update s.timeoutTick t ((s.tick + s.initTick t) % wordSize) t =
        (s.tick + s.initTick t) % wordSize := Function.update_self _ _ _
    dsimp only [setActivated, timerRemove]
    rw [hdeadline]
    rfl
  · exact (timerStart_activated level s (soft t) t).trans (Function.update_idem _ _ _).symm

/-- A call starts a timer, deactivates one or touches none. -/
theorem call_cases (level : Nat) (soft : τ → Bool) (s : TimerState τ) (call : TimerCall τ) :
    (∃ t, s.call level soft call = s.timerStart level (soft t) t ∧
        s.callEvent call = some (.started t ((s.tick + s.initTick t) % wordSize))) ∨
      (∃ t init, s.call level soft call =
          { (s.timerRemove level t).setActivated t false with initTick := init } ∧
        s.callEvent call = some (.stopped t)) ∨
      ∃ init periodic, s.call level soft call = { s with initTick := init, periodic := periodic } ∧
        s.callEvent call = none := by
  cases call with
  | start t => exact .inl ⟨t, rfl, rfl⟩
  | stop t =>
    dsimp only [TimerState.call, TimerState.rtTimerStop, TimerState.callEvent]
    split
    · exact .inr (.inl ⟨t, s.initTick, rfl, rfl⟩)
    · exact .inr (.inr ⟨s.initTick, s.periodic, rfl, rfl⟩)
  | detach t => exact .inr (.inl ⟨t, s.initTick, rfl, rfl⟩)
  | setTime t tick =>
    dsimp only [TimerState.call, TimerState.setTime, TimerState.callEvent]
    split
    · exact .inr (.inl ⟨t, _, rfl, rfl⟩)
    · exact .inr (.inr ⟨_, s.periodic, rfl, rfl⟩)
  | setOneshot t => exact .inr (.inr ⟨s.initTick, _, rfl, rfl⟩)
  | setPeriodic t => exact .inr (.inr ⟨s.initTick, _, rfl, rfl⟩)

end Operations

/-! ## Runs -/

section Runs

variable {τ : Type*} {s : TimerState τ} {rows : TimerHead → List τ} {level : Nat} {soft : τ → Bool}

/-- No timer is on a temporary list, and every active timer is in the last row. -/
structure TimerState.Settled (level : Nat) (soft : τ → Bool) (s : TimerState τ)
    (rows : TimerHead → List τ) : Prop where
  kept : s.Rows level soft rows
  expired : ∀ b, rows (.expired b) = []
  active : ∀ t, s.activated t = true → t ∈ rows (.timerList (soft t) (level - 1))

theorem TimerState.Settled.ordered (h : s.Settled level soft rows) :
    s.Ordered level soft fun b i => rows (.timerList b i) where
  linked b i _ := h.kept.linked.rings.ring (.timerList b i)
  sorted b i hi := (h.kept.sorted b).sublist (h.kept.linked.last b hi)
  sublist b i hi := h.kept.linked.sublist b i hi
  activated b t := by
    constructor
    · exact fun ht => ⟨h.kept.activated b t ht, h.kept.linked.side _ t ht⟩
    · rintro ⟨hactive, rfl⟩
      exact h.active t hactive

variable [DecidableEq τ] [Fintype τ]

/-- Every state that is reached is `Windowed`. -/
def StaysWindowed (level : Nat) (soft : τ → Bool) (s : TimerState τ) (a : TimerStep τ) : Prop :=
  ∀ s', (timerMachine level soft).step s a = some s' → s'.Windowed

theorem TimerState.Settled.call (h : s.Settled level soft rows) (hlevel : 0 < level)
    (call : TimerCall τ) (hwindow : (s.call level soft call).Windowed) :
    ∃ rows', (s.call level soft call).Settled level soft rows' := by
  rcases call_cases level soft s call with
    ⟨t, heq, -⟩ | ⟨t, init, heq, -⟩ | ⟨init, periodic, heq, -⟩ <;>
    rw [heq] at hwindow ⊢
  · obtain ⟨rows', hrows, hmem, hexpired⟩ := h.kept.timerStart hlevel t hwindow
    refine ⟨rows', hrows, fun b => ?_, fun u hu => ?_⟩
    · rw [hexpired, h.expired, List.erase_nil]
    · rw [timerStart_activated] at hu
      rw [hmem]
      by_cases hut : u = t
      · exact .inl ⟨hut, by rw [hut]⟩
      · rw [Function.update_of_ne hut] at hu
        exact .inr ((List.mem_erase_of_ne hut).mpr (h.active u hu))
  · have hdrop := h.kept.drop hlevel t
    refine ⟨_, hdrop.congr rfl rfl rfl rfl rfl h.kept.tick, fun b => ?_, fun u hu => ?_⟩
    · rw [h.expired, List.erase_nil]
    · have hactive : Function.update s.activated t false u = true := hu
      have hut : u ≠ t := fun hut => by
        rw [hut, Function.update_self] at hactive
        exact Bool.false_ne_true hactive
      rw [Function.update_of_ne hut] at hactive
      exact (List.mem_erase_of_ne hut).mpr (h.active u hactive)
  · exact ⟨rows, h.kept.congr rfl rfl rfl rfl rfl h.kept.tick, h.expired, h.active⟩

/-- In every run in which the deadlines stay close, the rows are sorted and nested, and the
flag says what the last row does. -/
theorem timerLists_ordered (hlevel : 0 < level) {tick randomNr : Nat} {initTick : τ → Nat}
    {periodic : τ → Bool} {schedule : List (TimerStep τ)} {final : TimerState τ}
    (run : (timerMachine level soft).Run (StaysWindowed level soft)
      (.start tick randomNr initTick periodic) schedule final) :
    ∃ rows, final.Ordered level soft rows := by
  have hsettled : ∃ rows, final.Settled level soft rows := by
    refine run.invariant (I := fun s => ∃ rows, s.Settled level soft rows) ?_ ?_
    · rintro s a s' hok hstep ⟨rows, h⟩
      have hwindow := hok s' hstep
      cases a with
      | call call =>
        obtain rfl := Option.some.inj hstep
        exact h.call hlevel call hwindow
      | tick n =>
        obtain rfl := Option.some.inj hstep
        exact ⟨rows, h.kept.congr rfl rfl rfl rfl rfl (Nat.mod_lt _ (by decide)), h.expired,
          h.active⟩
    · exact ⟨_, TimerState.rows_start level soft tick randomNr initTick periodic, fun b => rfl,
        fun t ht => absurd ht Bool.false_ne_true⟩
  obtain ⟨rows, h⟩ := hsettled
  exact ⟨_, h.ordered⟩

end Runs

/-- Two rows; the tick wraps, a timer is restarted and another one stopped. -/
theorem timerLists_ordered_run :
    ∃ final : TimerState (Fin 3),
      (timerMachine 2 fun t => t = 2).Run (StaysWindowed 2 fun t => t = 2)
        (.start 4294967290 2 (fun t => t.val + 7) fun _ => false)
        [.call (.start 0), .call (.start 1), .call (.start 2), .tick 4, .call (.start 0),
          .call (.stop 2)] final ∧
      ∃ rows, final.Ordered 2 (fun t => t = 2) rows := by
  have hrun : ∃ final : TimerState (Fin 3),
      (timerMachine 2 fun t => t = 2).Run (StaysWindowed 2 fun t => t = 2)
        (.start 4294967290 2 (fun t => t.val + 7) fun _ => false)
        [.call (.start 0), .call (.start 1), .call (.start 2), .tick 4, .call (.start 0),
          .call (.stop 2)] final := by
    refine ⟨_, .cons ?_ rfl (.cons ?_ rfl (.cons ?_ rfl (.cons ?_ rfl (.cons ?_ rfl
      (.cons ?_ rfl (.nil _))))))⟩
    all_goals
      intro s' hstep
      obtain rfl := Option.some.inj hstep
      exact ⟨4294967290, by decide, by decide, by decide⟩
  obtain ⟨final, run⟩ := hrun
  exact ⟨final, run, timerLists_ordered (by decide) run⟩

/-! ## Distances on both sides of the tick -/

/-- Each active deadline is less than half the range away from the tick, on either side. -/
def StaysNear {τ : Type*} [DecidableEq τ] [Fintype τ] (level : Nat) (soft : τ → Bool)
    (s : TimerState τ) (a : TimerStep τ) : Prop :=
  ∀ s', (timerMachine level soft).step s a = some s' → ∀ t, s'.activated t = true →
    wordSub (s'.timeoutTick t) s'.tick < rtTickHalf ∨
      wordSub s'.tick (s'.timeoutTick t) < rtTickHalf

/-- That is not enough: behind an overdue timer, one that is due is put behind a later one. -/
theorem not_timerLists_ordered_near :
    ∃ final : TimerState (Fin 3),
      (timerMachine 1 fun _ => false).Run (StaysNear 1 fun _ => false)
        (.start 0 0 (fun t => if t = 2 then 1431655765 else 0) fun _ => false)
        [.call (.start 0), .tick 1431655765, .call (.start 1), .call (.start 2),
          .call (.stop 0)] final ∧
      ¬ ∃ rows, final.Ordered 1 (fun _ => false) rows := by
  refine ⟨_, .cons ?_ rfl (.cons ?_ rfl (.cons ?_ rfl (.cons ?_ rfl (.cons ?_ rfl (.nil _))))), ?_⟩
  any_goals
    intro s' hstep
    obtain rfl := Option.some.inj hstep
    decide
  rintro ⟨rows, h⟩
  have hring := h.linked false 0 Nat.one_pos
  have hnodup : (rows false 0).Nodup := ((List.nodup_cons.mp hring.nodup).2).of_map _
  have hlength : ((rows false 0).map (TimerNode.row · 0)).length ≤ 3 := by
    rw [List.length_map]
    exact hnodup.length_le_card
  have hmembers := hring.members_eq hlength
  have hrow : (rows false 0).map (TimerNode.row · 0) = [2, 1].map (TimerNode.row · 0) := by
    rw [← hmembers]
    decide
  have hsorted := h.sorted false 0 Nat.one_pos
  rw [List.map_injective_iff.mpr (row_injective 0) hrow, List.pairwise_pair] at hsorted
  exact absurd hsorted (by decide)

end Gd32Vw553h.Kernel
