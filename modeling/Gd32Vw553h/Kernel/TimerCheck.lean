/-
  Kernel/TimerCheck.lean --- expiry of timers (`_timer_check` in `src/timer.c`).

  `_timer_check` takes the first timer of the last row while that one is due, puts it on a
  temporary list and calls its callback without the lock.  In the meantime anything may be
  called for any timer.  Whether the timer has been touched is read off the temporary list.

  `checkMachine` runs the checks of both timer lists, and calls and ticks at any point.
  Every state is described by what has happened last to each timer (`Recorded`);
  `timerCheck_serves` says which callbacks a check calls, in which order, and what it leaves.
  The temporary list is a variable of `_timer_check`, here one node for each timer list
  that is alone between checks.
-/
import Gd32Vw553h.Foundation.History
import Gd32Vw553h.Kernel.Timer

set_option autoImplicit false

namespace Gd32Vw553h.Kernel

open Gd32Vw553h.Foundation

/-! ## The code -/

/-- Where `_timer_check` stands for one of the timer lists. -/
inductive CheckPoint (τ : Type*) where
  /-- it does not run -/
  | idle
  /-- before the condition of the loop -/
  | looking
  /-- in `t->timeout_func` -/
  | calling (timer : τ)
  deriving DecidableEq

/-- The timers, the checks of the hard and of the soft list, and what has happened. -/
structure CheckState (τ : Type*) where
  timers : TimerState τ
  points : Bool → CheckPoint τ
  history : List (TimerEvent τ)

inductive CheckStep (τ : Type*) where
  | call (call : TimerCall τ)
  /-- `rt_tick_increase` -/
  | tick
  /-- `_timer_check` is called -/
  | enter (soft : Bool)
  /-- it looks at the first timer, up to the call of its callback or the return -/
  | look (soft : Bool)
  /-- the callback returns, up to the end of the loop body -/
  | leave (soft : Bool)

section Check

variable {τ : Type*} [DecidableEq τ]

/-- The timer goes onto the temporary list. -/
def TimerState.expire (level : Nat) (s : TimerState τ) (soft : Bool) (t : τ) : TimerState τ :=
  let s := s.timerRemove level t
  let s := if s.periodic t = true then s else s.setActivated t false
  { s with links := s.links.insertAfter (.head (.expired soft)) (.row t (level - 1)) }

/-- `rt_list_isempty(&list)` -/
def TimerState.expiredIsEmpty (s : TimerState τ) (soft : Bool) : Bool :=
  decide (s.links.next (.head (.expired soft)) = .head (.expired soft))

variable [Fintype τ]

/-- The loop body behind the callback, when the temporary list is not empty: the deadline of
the timer if it is started again, and the timers. -/
def TimerState.rearm (level : Nat) (s : TimerState τ) (soft : Bool) (t : τ) :
    Option Nat × TimerState τ :=
  let links := s.links.remove (.row t (level - 1))
  if s.periodic t = true ∧ s.activated t = true then
    (some ((s.tick + s.initTick t) % wordSize),
      ({ s with links := links }.setActivated t false).timerStart level soft t)
  else (none, { s with links := links })

/-- `_timer_check` of both lists, with calls and ticks in between. -/
def checkMachine (level : Nat) (soft : τ → Bool) : Machine (CheckState τ) (CheckStep τ) where
  step s
    | .call call =>
        some { s with
          timers := s.timers.call level soft call
          history := s.history ++ (s.timers.callEvent call).toList }
    | .tick => some { s with timers := { s.timers with tick := (s.timers.tick + 1) % wordSize } }
    | .enter b =>
        match s.points b with
        | .idle => some { s with points := Function.update s.points b .looking }
        | _ => none
    | .look b =>
        match s.points b with
        | .looking =>
          match s.timers.links.next (.head (.timerList b (level - 1))) with
          | .row t _ =>
            if wordSub s.timers.tick (s.timers.timeoutTick t) < rtTickHalf then
              some {
                timers := s.timers.expire level b t
                points := Function.update s.points b (.calling t)
                history := s.history ++
                  [.invoked t (s.timers.periodic t) (s.timers.timeoutTick t) s.timers.tick] }
            else some { s with points := Function.update s.points b .idle }
          | .head _ => some { s with points := Function.update s.points b .idle }
        | _ => none
    | .leave b =>
        match s.points b with
        | .calling t =>
          if s.timers.expiredIsEmpty b = true then
            some { s with points := Function.update s.points b .looking }
          else
            let (deadline, timers) := s.timers.rearm level b t
            some {
              timers := timers
              points := Function.update s.points b .looking
              history := s.history ++ (deadline.map (TimerEvent.started t)).toList }
        | _ => none

/-- No check runs and nothing has happened. -/
def CheckState.start (tick randomNr : Nat) (initTick : τ → Nat) (periodic : τ → Bool) :
    CheckState τ where
  timers := .start tick randomNr initTick periodic
  points _ := .idle
  history := []

/-- The deadlines and the tick are close together, and the timeouts are as short as
`rt_timer_init` and `rt_timer_control` assert. -/
def CheckState.Timely (s : CheckState τ) : Prop :=
  s.timers.Windowed ∧ ∀ t, s.timers.initTick t < rtTickHalf

/-- The states before and after the step are `Timely`. -/
def StaysTimely (level : Nat) (soft : τ → Bool) (s : CheckState τ) (a : CheckStep τ) : Prop :=
  s.Timely ∧ ∀ s', (checkMachine level soft).step s a = some s' → s'.Timely

/-- The timers in the last row. -/
def TimerState.lastRow (level : Nat) (s : TimerState τ) (b : Bool) : List τ :=
  (s.links.members (.head (.timerList b (level - 1))) (Fintype.card τ)).filterMap fun node =>
    match node with
    | .row t _ => some t
    | .head _ => none

/-- The timers of a list that are due. -/
def TimerState.dueTimers (level : Nat) (s : TimerState τ) (b : Bool) : List τ :=
  (s.lastRow level b).filter fun t => wordSub s.tick (s.timeoutTick t) < rtTickHalf

end Check

/-! ## The temporary list -/

section Expired

variable {τ : Type*} {s : TimerState τ} {rows : TimerHead → List τ} {level : Nat}
  {soft : τ → Bool} {t : τ} {b : Bool}

/-- The first node of the last row. -/
theorem next_timerList (h : s.links.Rings .head (nodes level rows)) :
    s.links.next (.head (.timerList b (level - 1))) =
      match rows (.timerList b (level - 1)) with
      | [] => .head (.timerList b (level - 1))
      | t :: _ => .row t (level - 1) := by
  rw [(h.ring (.timerList b (level - 1))).next_head, nodes]
  cases rows (.timerList b (level - 1)) <;> rfl

theorem update_expired_last (rows : TimerHead → List τ) (b c : Bool) (us : List τ) (level : Nat) :
    Function.update rows (.expired b) us (.timerList c (level - 1)) =
      rows (.timerList c (level - 1)) :=
  Function.update_of_ne (by simp) _ _

/-- The lists with other timers on the temporary one. -/
theorem Linked.update_expired {L : Links (TimerNode τ)} {us : List τ}
    (h : ∀ c i, level ≤ i → rows (.timerList c i) = [])
    (hsublist : ∀ c i, i + 1 < level →
      (rows (.timerList c i)).Sublist (rows (.timerList c (i + 1))))
    (hside : ∀ list, ∀ t ∈ rows list, soft t = list.isSoft) (hus : ∀ t ∈ us, soft t = b)
    (hrings : L.Rings .head (nodes level (Function.update rows (.expired b) us))) :
    Linked level soft L (Function.update rows (.expired b) us) := by
  have hsame : ∀ c i, Function.update rows (.expired b) us (.timerList c i) =
      rows (.timerList c i) := fun c i => Function.update_of_ne (by simp) _ _
  refine ⟨hrings, fun c i hi => ?_, fun c i hi => ?_, fun list t ht => ?_⟩
  · rw [hsame, h c i hi]
  · rw [hsame, hsame]
    exact hsublist c i hi
  · by_cases hlist : list = .expired b
    · rw [hlist, Function.update_self] at ht
      rw [hlist]
      exact hus t ht
    · rw [Function.update_of_ne hlist] at ht
      exact hside list t ht

variable [DecidableEq τ]

theorem expiredIsEmpty_iff (h : s.links.Rings .head (nodes level rows)) :
    s.expiredIsEmpty b = true ↔ rows (.expired b) = [] := by
  rw [TimerState.expiredIsEmpty, decide_eq_true_iff, (h.ring (.expired b)).next_head_iff,
    nodes, List.map_eq_nil_iff]

/-- The timer leaves its rows for the temporary list. -/
theorem TimerState.Rows.expire (h : s.Rows level soft rows) (hlevel : 0 < level)
    (ht : t ∈ rows (.timerList b (level - 1))) (hexpired : rows (.expired b) = []) :
    (s.expire level b t).Rows level soft
      (Function.update (fun list => (rows list).erase t) (.expired b) [t]) := by
  have hdrop := h.drop hlevel t
  have hout : ∀ list, t ∉ (rows list).erase t := fun list hmem =>
    ((h.linked.nodup list).mem_erase_iff.mp hmem).1 rfl
  have hnil : (rows (.expired b)).erase t = [] := by rw [hexpired, List.erase_nil]
  have hnew : Function.update (fun list => (rows list).erase t) (.expired b) [t] (.expired b) =
    [] ++ t :: [] := Function.update_self _ _ _
  have hrings := rings_insertRow hdrop.linked.rings (.expired b)
    (show (rows (.expired b)).erase t = [] ++ [] from hnil) (fun other _ => hout other) hnew
    fun other hother => Function.update_of_ne hother _ _
  have hlinks : (s.expire level b t).links =
      ((s.timerRemove level t).setActivated t false).links.insertAfter
        (lastNode (.expired b) ((TimerHead.expired b).rowOf level) [])
        (.row t ((TimerHead.expired b).rowOf level)) := by
    dsimp only [TimerState.expire]
    split <;> rfl
  have hrows := Linked.update_expired hdrop.linked.short hdrop.linked.sublist hdrop.linked.side
    (fun u hu => List.mem_singleton.mp hu ▸ h.linked.side _ t ht) hrings
  have hactivated : ∀ u, u ≠ t → (s.expire level b t).activated u = s.activated u := by
    intro u hu
    dsimp only [TimerState.expire]
    split
    · rfl
    · exact Function.update_of_ne hu _ _
  have htick : (s.expire level b t).tick = s.tick := by
    dsimp only [TimerState.expire]
    split <;> rfl
  have htimeout : (s.expire level b t).timeoutTick = s.timeoutTick := by
    dsimp only [TimerState.expire]
    split <;> rfl
  have hnr : (s.expire level b t).startNr = s.startNr := by
    dsimp only [TimerState.expire]
    split <;> rfl
  have hstarts : (s.expire level b t).starts = s.starts := by
    dsimp only [TimerState.expire]
    split <;> rfl
  rw [← hlinks] at hrows
  refine ⟨hrows, htick ▸ h.tick, htimeout ▸ h.timeoutTick, fun c => ?_, fun c u hu => ?_,
    fun c u hu => ?_⟩
  · rw [update_expired_last]
    refine (hdrop.sorted c).imp fun {u v} hbefore => ?_
    unfold TimerState.Before at hbefore ⊢
    rwa [htimeout, hnr]
  · rw [update_expired_last] at hu
    obtain ⟨hne, hmem⟩ := (h.linked.nodup _).mem_erase_iff.mp hu
    rw [hactivated u hne]
    exact h.activated c u hmem
  · rw [update_expired_last] at hu
    rw [hnr, hstarts]
    exact hdrop.numbered c u hu

/-- The temporary list is emptied. -/
theorem TimerState.Rows.unexpire (h : s.Rows level soft rows) (hexpired : rows (.expired b) = [t]) :
    TimerState.Rows level soft { s with links := s.links.remove (.row t (level - 1)) }
      (Function.update rows (.expired b) []) := by
  have hrings := rings_removeRow h.linked.rings t (level - 1)
  have hmem : TimerNode.row t (level - 1) ∈
      TimerNode.head (.expired b) :: nodes level rows (.expired b) :=
    row_mem_nodes.mpr ⟨rfl, by rw [hexpired]; exact List.mem_singleton_self t⟩
  have hlists : (fun list : TimerHead => if list.rowOf level = level - 1 then (rows list).erase t
      else rows list) = Function.update rows (.expired b) [] := by
    funext list
    by_cases hlist : list = .expired b
    · have hrow : (TimerHead.expired b).rowOf level = level - 1 := rfl
      rw [hlist, Function.update_self, hexpired, if_pos hrow, List.erase_cons_head]
    · rw [Function.update_of_ne hlist]
      by_cases hrow : list.rowOf level = level - 1
      · rw [if_pos hrow]
        refine List.erase_of_not_mem fun ht => ?_
        exact h.linked.rings.apart _ list (Ne.symm hlist) _ hmem (row_mem_nodes.mpr ⟨hrow, ht⟩)
      · exact if_neg hrow
  rw [hlists] at hrings
  refine ⟨Linked.update_expired h.linked.short h.linked.sublist h.linked.side
    (fun u hu => absurd hu List.not_mem_nil) hrings, h.tick, h.timeoutTick, fun c => ?_,
    fun c u hu => ?_, fun c u hu => ?_⟩
  · rw [update_expired_last]
    exact h.sorted c
  · rw [update_expired_last] at hu
    exact h.activated c u hu
  · rw [update_expired_last] at hu
    exact h.numbered c u hu

end Expired

/-! ## What a step does to the timers -/

section Steps

variable {τ : Type*} {s s' : TimerState τ} {rows rows' : TimerHead → List τ}
  {level : Nat} {soft : τ → Bool} {t : τ} {b : Bool} {event : Option (TimerEvent τ)}

/-- Something happens to one timer at most; the others stay as they are. -/
structure Touched (level : Nat) (soft : τ → Bool) (s s' : TimerState τ)
    (rows rows' : TimerHead → List τ) (event : Option (TimerEvent τ)) : Prop where
  kept : s'.Rows level soft rows'
  others : ∀ u, (∀ e, event = some e → e.timer ≠ u) →
    (∀ b, u ∈ rows' (.timerList b (level - 1)) ↔ u ∈ rows (.timerList b (level - 1))) ∧
      s'.timeoutTick u = s.timeoutTick u ∧ s'.startNr u = s.startNr u ∧
      s'.activated u = s.activated u
  started : ∀ t d, event = some (.started t d) →
    t ∈ rows' (.timerList (soft t) (level - 1)) ∧ s'.timeoutTick t = d ∧ s'.startNr t = s.starts ∧
      d = (s'.tick + s'.initTick t) % wordSize
  stopped : ∀ t, event = some (.stopped t) →
    (∀ b, t ∉ rows' (.timerList b (level - 1))) ∧ s'.activated t = false
  invoked : ∀ t p d k, event = some (.invoked t p d k) →
    (∀ b, t ∉ rows' (.timerList b (level - 1))) ∧ s'.activated t = p

/-- Nothing happens to any timer. -/
theorem Touched.none (kept : s'.Rows level soft rows')
    (hrows : ∀ b, rows' (.timerList b (level - 1)) = rows (.timerList b (level - 1)))
    (htimeout : s'.timeoutTick = s.timeoutTick) (hnr : s'.startNr = s.startNr)
    (hactivated : s'.activated = s.activated) : Touched level soft s s' rows rows' none where
  kept := kept
  others u _ := by
    rw [htimeout, hnr, hactivated]
    exact ⟨fun b => by rw [hrows], rfl, rfl, rfl⟩
  started t d h := absurd h.symm (Option.some_ne_none _)
  stopped t h := absurd h.symm (Option.some_ne_none _)
  invoked t p d k h := absurd h.symm (Option.some_ne_none _)

variable [DecidableEq τ]

/-- A timer has been deactivated. -/
theorem Touched.drop (h : s.Rows level soft rows) (hlevel : 0 < level) (t : τ) (init : τ → Nat) :
    Touched level soft s { (s.timerRemove level t).setActivated t false with initTick := init } rows
      (fun list => (rows list).erase t) (some (.stopped t)) where
  kept := (h.drop hlevel t).congr rfl rfl rfl rfl rfl h.tick
  others u hu := by
    have hne : u ≠ t := Ne.symm (hu _ rfl)
    exact ⟨fun b => List.mem_erase_of_ne hne, rfl, rfl, Function.update_of_ne hne _ _⟩
  started t d h := by cases h
  stopped u hu := by
    obtain rfl := TimerEvent.stopped.inj (Option.some.inj hu)
    exact ⟨fun b hmem => ((h.linked.nodup _).mem_erase_iff.mp hmem).1 rfl,
      Function.update_self _ _ _⟩
  invoked t p d k h := by cases h

/-- A timer has been put onto the temporary list. -/
theorem Touched.expire (h : s.Rows level soft rows) (hlevel : 0 < level)
    (ht : t ∈ rows (.timerList b (level - 1))) (hexpired : rows (.expired b) = []) (d k : Nat) :
    Touched level soft s (s.expire level b t) rows
      (Function.update (fun list => (rows list).erase t) (.expired b) [t])
      (some (.invoked t (s.periodic t) d k)) where
  kept := h.expire hlevel ht hexpired
  others u hu := by
    have hne : u ≠ t := Ne.symm (hu _ rfl)
    refine ⟨fun c => ?_, ?_⟩
    · rw [update_expired_last]
      exact List.mem_erase_of_ne hne
    · dsimp only [TimerState.expire]
      split
      · exact ⟨rfl, rfl, rfl⟩
      · exact ⟨rfl, rfl, Function.update_of_ne hne _ _⟩
  started u d h := by cases h
  stopped u h := by cases h
  invoked u p d' k' hu := by
    obtain ⟨rfl, rfl, -⟩ := TimerEvent.invoked.inj (Option.some.inj hu)
    refine ⟨fun c hmem => ?_, ?_⟩
    · rw [update_expired_last] at hmem
      exact ((h.linked.nodup _).mem_erase_iff.mp hmem).1 rfl
    · dsimp only [TimerState.expire]
      split
      · next hp => exact (h.activated b t ht).trans (Eq.symm hp)
      · next hp => exact (Function.update_self _ _ _).trans (Bool.eq_false_iff.mpr hp).symm

variable [Fintype τ]

theorem timerStart_setActivated (level : Nat) (s : TimerState τ) (b : Bool) (t : τ) :
    (s.setActivated t false).timerStart level b t = s.timerStart level b t := by
  have htwice : ((s.setActivated t false).timerRemove level t).setActivated t false =
      (s.timerRemove level t).setActivated t false := by
    simp only [TimerState.setActivated, TimerState.timerRemove, Function.update_idem]
  unfold TimerState.timerStart
  rw [htwice]

/-- A timer has been started. -/
theorem Touched.start (h : s.Rows level soft rows) (hlevel : 0 < level) (t : τ)
    (hwindow : (s.timerStart level (soft t) t).Windowed) :
    ∃ rows', Touched level soft s (s.timerStart level (soft t) t) rows rows'
        (some (.started t ((s.tick + s.initTick t) % wordSize))) ∧
      ∀ b, rows' (.expired b) = (rows (.expired b)).erase t := by
  obtain ⟨rows', hkept, hmem, hexpired⟩ := h.timerStart hlevel t hwindow
  refine ⟨rows', ⟨hkept, fun u hu => ?_, fun u d hu => ?_, fun u hu => ?_,
    fun u p d k hu => ?_⟩, hexpired⟩
  · have hne : u ≠ t := Ne.symm (hu _ rfl)
    refine ⟨fun b => ?_, Function.update_of_ne hne _ _, Function.update_of_ne hne _ _, ?_⟩
    · rw [hmem, or_iff_right fun hu => hne hu.1]
      exact List.mem_erase_of_ne hne
    · rw [timerStart_activated]
      exact Function.update_of_ne hne _ _
  · obtain ⟨rfl, rfl⟩ := TimerEvent.started.inj (Option.some.inj hu)
    exact ⟨(hmem _ _).mpr (.inl ⟨rfl, rfl⟩), Function.update_self _ _ _,
      Function.update_self _ _ _, rfl⟩
  · cases hu
  · cases hu

end Steps

/-! ## What holds in every state -/

section States

variable {τ : Type*} [DecidableEq τ] {s s' : CheckState τ} {rows rows' : TimerHead → List τ}
  {level : Nat} {soft : τ → Bool} {b : Bool} {event : Option (TimerEvent τ)}

/-- What is on the temporary list: the timer whose callback runs, unless it has been touched. -/
def CheckState.temporary (s : CheckState τ) (b : Bool) : List τ :=
  match s.points b with
  | .calling t =>
    if (lastOf TimerEvent.timer t s.history).any TimerEvent.isInvoked = true then [t] else []
  | _ => []

/-- Where a timer is, by what has happened to it last. -/
def CheckState.Recorded (level : Nat) (s : CheckState τ) (rows : TimerHead → List τ)
    (soft : τ → Bool) (t : τ) : Prop :=
  match lastOf TimerEvent.timer t s.history with
  | some (.started _ d) =>
    t ∈ rows (.timerList (soft t) (level - 1)) ∧ s.timers.timeoutTick t = d
  | some (.invoked _ p _ _) =>
    (∀ b, t ∉ rows (.timerList b (level - 1))) ∧ s.timers.activated t = p
  | some (.stopped _) | none =>
    (∀ b, t ∉ rows (.timerList b (level - 1))) ∧ s.timers.activated t = false

/-- A callback is called for the deadline of the last start, and when that is due. -/
def Expiry (before : List (TimerEvent τ)) (event : TimerEvent τ) : Prop :=
  ∀ t p d k, event = .invoked t p d k →
    lastOf TimerEvent.timer t before = some (.started t d) ∧ wordSub k d < rtTickHalf

structure CheckState.Kept (level : Nat) (soft : τ → Bool) (s : CheckState τ)
    (rows : TimerHead → List τ) : Prop where
  timers : s.timers.Rows level soft rows
  calling : ∀ b t, s.points b = .calling t → soft t = b
  temporary : ∀ b, rows (.expired b) = s.temporary b
  recorded : ∀ t, s.Recorded level rows soft t
  expiries : Explained Expiry s.history

theorem lastOf_toList (history : List (TimerEvent τ)) (t : τ)
    (hevent : ∀ e, event = some e → e.timer ≠ t) :
    lastOf TimerEvent.timer t (history ++ event.toList) = lastOf TimerEvent.timer t history := by
  cases event with
  | none => rw [Option.toList_none, List.append_nil]
  | some e => exact lastOf_append_other history e (hevent e rfl)

/-- Where the timers are after a step. -/
theorem Touched.recorded (htouched : Touched level soft s.timers s'.timers rows rows' event)
    (h : ∀ t, s.Recorded level rows soft t) (hhistory : s'.history = s.history ++ event.toList)
    (t : τ) : s'.Recorded level rows' soft t := by
  unfold CheckState.Recorded
  rw [hhistory]
  by_cases hother : ∀ e, event = some e → e.timer ≠ t
  · obtain ⟨hmem, htimeout, -, hactivated⟩ := htouched.others t hother
    rw [lastOf_toList s.history t hother]
    simp only [hmem, htimeout, hactivated]
    exact h t
  · obtain ⟨e, he, ht⟩ : ∃ e, event = some e ∧ e.timer = t := by
      simpa only [ne_eq, not_forall, not_not, exists_prop] using hother
    rw [he, Option.toList_some, lastOf_append_self s.history e ht]
    cases e with
    | started u d =>
      obtain rfl : u = t := ht
      obtain ⟨hmem, htimeout, -⟩ := htouched.started u d he
      exact ⟨hmem, htimeout⟩
    | stopped u =>
      obtain rfl : u = t := ht
      exact htouched.stopped u he
    | invoked u p d k =>
      obtain rfl : u = t := ht
      exact htouched.invoked u p d k he

/-- A timer in the last row has been started last, and with this deadline. -/
theorem CheckState.Kept.lastOf_started (h : s.Kept level soft rows) {t : τ}
    (ht : t ∈ rows (.timerList b (level - 1))) :
    lastOf TimerEvent.timer t s.history = some (.started t (s.timers.timeoutTick t)) := by
  have hrecorded := h.recorded t
  unfold CheckState.Recorded at hrecorded
  cases hlast : lastOf TimerEvent.timer t s.history with
  | none =>
    rw [hlast] at hrecorded
    exact absurd ht (hrecorded.1 b)
  | some e =>
    have htimer := lastOf_key hlast
    rw [hlast] at hrecorded
    cases e with
    | started u d =>
      obtain rfl : u = t := htimer
      rw [hrecorded.2]
    | stopped u => exact absurd ht (hrecorded.1 b)
    | invoked u p d k => exact absurd ht (hrecorded.1 b)

theorem CheckState.temporary_nil (hpoint : ∀ t, s.points b ≠ .calling t) : s.temporary b = [] := by
  unfold CheckState.temporary
  split
  · next t hp => exact absurd hp (hpoint t)
  · rfl

theorem CheckState.temporary_congr (hpoint : s'.points b = s.points b)
    (hhistory : s'.history = s.history) : s'.temporary b = s.temporary b := by
  unfold CheckState.temporary
  rw [hpoint, hhistory]

/-- A touched timer leaves the temporary list. -/
theorem CheckState.temporary_touched {e : TimerEvent τ} (hpoints : s'.points = s.points)
    (hhistory : s'.history = s.history ++ [e]) (he : e.isInvoked = false) (b : Bool) :
    s'.temporary b = (s.temporary b).erase e.timer := by
  unfold CheckState.temporary
  rw [hpoints]
  cases s.points b with
  | idle => rfl
  | looking => rfl
  | calling t =>
    dsimp only
    rw [hhistory]
    by_cases ht : e.timer = t
    · rw [lastOf_append_self s.history e ht, Option.any_some, he, if_neg Bool.false_ne_true, ht]
      split <;> simp
    · rw [lastOf_append_other s.history e ht]
      split
      · exact (List.erase_of_not_mem fun hmem => ht (List.mem_singleton.mp hmem)).symm
      · rfl

/-- A timer of the other list changes nothing. -/
theorem CheckState.temporary_other {e : TimerEvent τ} (hpoint : s'.points b = s.points b)
    (hhistory : s'.history = s.history ++ [e]) (hne : ∀ t, s.points b = .calling t → e.timer ≠ t) :
    s'.temporary b = s.temporary b ∧ (s.temporary b).erase e.timer = s.temporary b := by
  unfold CheckState.temporary
  rw [hpoint]
  cases hp : s.points b with
  | idle => exact ⟨rfl, rfl⟩
  | looking => exact ⟨rfl, rfl⟩
  | calling t =>
    dsimp only
    rw [hhistory, lastOf_append_other s.history e (hne t hp)]
    refine ⟨rfl, ?_⟩
    split
    · exact List.erase_of_not_mem fun hmem => hne t hp (List.mem_singleton.mp hmem)
    · rfl

/-- The step keeps what holds in every state; an invoked timer was the first one, and a
check ends when the first timer is not due. -/
structure CheckState.Advances (level : Nat) (soft : τ → Bool) (s s' : CheckState τ)
    (rows rows' : TimerHead → List τ) (event : Option (TimerEvent τ)) : Prop where
  kept : s'.Kept level soft rows'
  touched : Touched level soft s.timers s'.timers rows rows' event
  history : s'.history = s.history ++ event.toList
  clock : s'.timers.tick = s.timers.tick ∨
    event = none ∧ s'.timers.tick = (s.timers.tick + 1) % wordSize
  first : ∀ t p d k, event = some (.invoked t p d k) →
    ∃ rest, rows (.timerList (soft t) (level - 1)) = t :: rest
  returned : ∀ b, s.points b ≠ .idle → s'.points b = .idle → event = none ∧
    ∀ t rest, rows (.timerList b (level - 1)) = t :: rest →
      ¬ wordSub s.timers.tick (s.timers.timeoutTick t) < rtTickHalf

/-- A step that touches no timer. -/
theorem CheckState.Kept.untouched (h : s.Kept level soft rows)
    (hkept : s'.timers.Rows level soft rows')
    (hrows : ∀ b, rows' (.timerList b (level - 1)) = rows (.timerList b (level - 1)))
    (htimeout : s'.timers.timeoutTick = s.timers.timeoutTick)
    (hnr : s'.timers.startNr = s.timers.startNr)
    (hactivated : s'.timers.activated = s.timers.activated) (hhistory : s'.history = s.history)
    (hclock : s'.timers.tick = s.timers.tick ∨
      s'.timers.tick = (s.timers.tick + 1) % wordSize)
    (hcalling : ∀ b t, s'.points b = .calling t → s.points b = .calling t)
    (htemporary : ∀ b, rows' (.expired b) = s'.temporary b)
    (hover : ∀ b, s.points b ≠ .idle → s'.points b = .idle →
      ∀ t rest, rows (.timerList b (level - 1)) = t :: rest →
        ¬ wordSub s.timers.tick (s.timers.timeoutTick t) < rtTickHalf) :
    s.Advances level soft s' rows rows' none := by
  have htouched : Touched level soft s.timers s'.timers rows rows' none :=
    Touched.none hkept hrows htimeout hnr hactivated
  have happend : s'.history = s.history ++ (none : Option (TimerEvent τ)).toList := by
    rw [hhistory, Option.toList_none, List.append_nil]
  exact ⟨⟨hkept, fun b t ht => h.calling b t (hcalling b t ht), htemporary,
    htouched.recorded h.recorded happend, hhistory ▸ h.expiries⟩, htouched, happend,
    hclock.imp id fun htick => ⟨rfl, htick⟩,
    fun t p d k hevent => absurd hevent.symm (Option.some_ne_none _),
    fun b hrunning hidle => ⟨rfl, hover b hrunning hidle⟩⟩

/-- A step that touches a timer and calls no callback. -/
theorem CheckState.Kept.touch {e : TimerEvent τ} (h : s.Kept level soft rows)
    (htouched : Touched level soft s.timers s'.timers rows rows' (some e))
    (he : e.isInvoked = false) (hhistory : s'.history = s.history ++ [e])
    (hclock : s'.timers.tick = s.timers.tick)
    (hcalling : ∀ b t, s'.points b = .calling t → s.points b = .calling t)
    (htemporary : ∀ b, rows' (.expired b) = s'.temporary b)
    (hover : ∀ b, s.points b ≠ .idle → s'.points b ≠ .idle) :
    s.Advances level soft s' rows rows' (some e) where
  kept := by
    refine ⟨htouched.kept, fun b t ht => h.calling b t (hcalling b t ht), htemporary,
      htouched.recorded h.recorded hhistory, ?_⟩
    rw [hhistory]
    refine h.expiries.append fun t p d k hinvoked => ?_
    rw [hinvoked] at he
    cases he
  touched := htouched
  history := hhistory
  clock := .inl hclock
  first t p d k hinvoked := by
    obtain rfl := Option.some.inj hinvoked
    cases he
  returned b hrunning hidle := absurd hidle (hover b hrunning)

/-- The check goes on, or begins or ends, with the temporary list empty. -/
theorem CheckState.Kept.goTo (h : s.Kept level soft rows) {p : CheckPoint τ}
    (hp : ∀ t, p ≠ .calling t) (hempty : rows (.expired b) = [])
    (hover : p = .idle → ∀ t rest, rows (.timerList b (level - 1)) = t :: rest →
      ¬ wordSub s.timers.tick (s.timers.timeoutTick t) < rtTickHalf) :
    s.Advances level soft { s with points := Function.update s.points b p } rows rows none := by
  refine h.untouched h.timers (fun c => rfl) rfl rfl rfl rfl (.inl rfl) (fun c t ht => ?_)
    (fun c => ?_) fun c hc hidle => ?_
  · have hpoint : Function.update s.points b p c = .calling t := ht
    by_cases hcb : c = b
    · rw [hcb, Function.update_self] at hpoint
      exact absurd hpoint (hp t)
    · rwa [Function.update_of_ne hcb] at hpoint
  · by_cases hcb : c = b
    · rw [hcb, hempty]
      refine (CheckState.temporary_nil fun t ht => hp t ?_).symm
      exact (Function.update_self b p s.points).symm.trans ht
    · have hsame : Function.update s.points b p c = s.points c := Function.update_of_ne hcb _ _
      rw [h.temporary]
      refine Eq.symm (CheckState.temporary_congr ?_ rfl)
      exact hsame
  · have hpoint : Function.update s.points b p c = .idle := hidle
    by_cases hcb : c = b
    · rw [hcb, Function.update_self] at hpoint
      rw [hcb]
      exact hover hpoint
    · rw [Function.update_of_ne hcb] at hpoint
      exact absurd hpoint hc

/-- The first timer is due and its callback is called. -/
theorem CheckState.Kept.invoke (h : s.Kept level soft rows) (hlevel : 0 < level) {t : τ}
    {rest : List τ} (hrow : rows (.timerList b (level - 1)) = t :: rest)
    (hempty : rows (.expired b) = [])
    (hdue : wordSub s.timers.tick (s.timers.timeoutTick t) < rtTickHalf)
    (hs' : s' = {
      timers := s.timers.expire level b t
      points := Function.update s.points b (.calling t)
      history := s.history ++
        [.invoked t (s.timers.periodic t) (s.timers.timeoutTick t) s.timers.tick] }) :
    ∃ rows' event, s.Advances level soft s' rows rows' event := by
  have ht : t ∈ rows (.timerList b (level - 1)) := hrow ▸ List.mem_cons_self
  have hside : soft t = b := h.timers.linked.side _ t ht
  have htouched := Touched.expire h.timers hlevel ht hempty (s.timers.timeoutTick t) s.timers.tick
  have htimers : s'.timers = s.timers.expire level b t := by rw [hs']
  have hself : s'.points b = .calling t := by rw [hs']; exact Function.update_self _ _ _
  have hother : ∀ c, c ≠ b → s'.points c = s.points c := fun c hc => by
    rw [hs']
    exact Function.update_of_ne hc _ _
  have hhistory : s'.history = s.history ++
      [.invoked t (s.timers.periodic t) (s.timers.timeoutTick t) s.timers.tick] := by rw [hs']
  have htick : s'.timers.tick = s.timers.tick := by
    rw [htimers]
    dsimp only [TimerState.expire]
    split <;> rfl
  rw [← htimers] at htouched
  refine ⟨_, _, ⟨⟨htouched.kept, fun c u hu => ?_, fun c => ?_,
    htouched.recorded h.recorded hhistory, ?_⟩, htouched, hhistory, .inl htick,
    fun u p d k hu => ?_, fun c hc hidle => ?_⟩⟩
  · by_cases hcb : c = b
    · rw [hcb, hself] at hu
      rw [hcb, ← CheckPoint.calling.inj hu, hside]
    · rw [hother c hcb] at hu
      exact h.calling c u hu
  · by_cases hcb : c = b
    · rw [hcb, Function.update_self, CheckState.temporary, hself, hhistory]
      dsimp only
      rw [lastOf_append_self]
      · rfl
      · rfl
    · have hne : ∀ u, s.points c = .calling u → t ≠ u := fun u hu htu =>
        hcb ((h.calling c u hu).symm.trans (htu ▸ hside))
      obtain ⟨hsame, herase⟩ := CheckState.temporary_other (hother c hcb) hhistory hne
      rw [Function.update_of_ne (fun heq => hcb (TimerHead.expired.inj heq)), h.temporary]
      exact herase.trans hsame.symm
  · rw [hhistory]
    refine h.expiries.append fun u p d k hu => ?_
    obtain ⟨rfl, -, rfl, rfl⟩ := TimerEvent.invoked.inj hu
    exact ⟨h.lastOf_started ht, hdue⟩
  · obtain ⟨rfl, -⟩ := TimerEvent.invoked.inj (Option.some.inj hu)
    exact ⟨rest, by rw [hside, hrow]⟩
  · by_cases hcb : c = b
    · rw [hcb, hself] at hidle
      cases hidle
    · rw [hother c hcb] at hidle
      exact absurd hidle hc

theorem kept_checkStart (level : Nat) (soft : τ → Bool) (tick randomNr : Nat)
    (initTick : τ → Nat) (periodic : τ → Bool) :
    (CheckState.start tick randomNr initTick periodic).Kept level soft fun _ => [] where
  timers := TimerState.rows_start level soft tick randomNr initTick periodic
  calling b t ht := by cases ht
  temporary b := rfl
  recorded t := ⟨fun b => List.not_mem_nil, rfl⟩
  expiries := explained_nil

section

variable [Fintype τ]

theorem CheckState.Kept.call (h : s.Kept level soft rows) (hlevel : 0 < level)
    (call : TimerCall τ) (hwindow : (s.timers.call level soft call).Windowed)
    (hs' : s' = { s with
      timers := s.timers.call level soft call
      history := s.history ++ (s.timers.callEvent call).toList }) :
    ∃ rows' event, s.Advances level soft s' rows rows' event := by
  have hpoints : s'.points = s.points := by rw [hs']
  have hcalling : ∀ b t, s'.points b = .calling t → s.points b = .calling t := fun b t ht => by
    rwa [hpoints] at ht
  rcases call_cases level soft s.timers call with
    ⟨t, heq, hevent⟩ | ⟨t, init, heq, hevent⟩ | ⟨init, periodic, heq, hevent⟩ <;>
    rw [heq] at hwindow hs' <;> rw [hevent] at hs'
  · obtain ⟨rows', htouched, hexpired⟩ := Touched.start h.timers hlevel t hwindow
    refine ⟨rows', _, h.touch (by rw [hs']; exact htouched) rfl (by rw [hs']; rfl)
      (by rw [hs']; rfl) hcalling (fun b => ?_) fun b hb => by rwa [hpoints]⟩
    rw [hexpired, h.temporary]
    exact (CheckState.temporary_touched hpoints (by rw [hs']; rfl) rfl b).symm
  · have htouched := Touched.drop h.timers hlevel t init
    refine ⟨_, _, h.touch (by rw [hs']; exact htouched) rfl (by rw [hs']; rfl)
      (by rw [hs']; rfl) hcalling (fun b => ?_) fun b hb => by rwa [hpoints]⟩
    rw [h.temporary]
    exact (CheckState.temporary_touched hpoints (by rw [hs']; rfl) rfl b).symm
  · have hhistory : s'.history = s.history := by
      rw [hs', Option.toList_none, List.append_nil]
    refine ⟨rows, none, h.untouched ?_ (fun b => rfl) (by rw [hs']) (by rw [hs']) (by rw [hs'])
      hhistory (.inl (by rw [hs'])) hcalling (fun b => ?_) fun b hb hidle => ?_⟩
    · rw [hs']
      exact h.timers.congr rfl rfl rfl rfl rfl h.timers.tick
    · rw [h.temporary]
      exact (CheckState.temporary_congr (congrFun hpoints b) hhistory).symm
    · rw [hpoints] at hidle
      exact absurd hidle hb

/-- The check looks at the first timer. -/
theorem CheckState.Kept.look (h : s.Kept level soft rows) (hlevel : 0 < level)
    (hstep : (checkMachine level soft).step s (.look b) = some s') :
    ∃ rows' event, s.Advances level soft s' rows rows' event := by
  have hnext := next_timerList (b := b) h.timers.linked.rings
  cases hpoint : s.points b with
  | idle => simp [checkMachine, hpoint] at hstep
  | calling t => simp [checkMachine, hpoint] at hstep
  | looking =>
    have hempty : rows (.expired b) = [] := by
      rw [h.temporary]
      exact CheckState.temporary_nil fun t => by simp [hpoint]
    cases hrow : rows (.timerList b (level - 1)) with
    | nil =>
      rw [hrow] at hnext
      obtain rfl : _ = s' := by simpa [checkMachine, hpoint, hnext] using hstep
      refine ⟨rows, none, h.goTo (fun t => by simp) hempty fun _ t rest hcons => ?_⟩
      exact absurd (hrow.symm.trans hcons) (List.cons_ne_nil t rest).symm
    | cons t rest =>
      rw [hrow] at hnext
      by_cases hdue : wordSub s.timers.tick (s.timers.timeoutTick t) < rtTickHalf
      · refine h.invoke hlevel hrow hempty hdue ?_
        simpa [checkMachine, hpoint, hnext, hdue] using hstep.symm
      · obtain rfl : _ = s' := by simpa [checkMachine, hpoint, hnext, hdue] using hstep
        refine ⟨rows, none, h.goTo (fun t => by simp) hempty fun _ u rest' hcons => ?_⟩
        obtain ⟨rfl, -⟩ := List.cons.inj (hrow.symm.trans hcons)
        exact hdue

/-- A callback returns to a check whose timer has not been touched. -/
theorem CheckState.Kept.rearm (h : s.Kept level soft rows) (hlevel : 0 < level) {t : τ}
    (hpoint : s.points b = .calling t) (hexpired : rows (.expired b) = [t])
    (hwindow : s'.timers.Windowed)
    (hs' : s' = {
      timers := (s.timers.rearm level b t).2
      points := Function.update s.points b .looking
      history := s.history ++
        ((s.timers.rearm level b t).1.map (TimerEvent.started t)).toList }) :
    ∃ rows' event, s.Advances level soft s' rows rows' event ∧
      event = (s.timers.rearm level b t).1.map (TimerEvent.started t) := by
  have hside : soft t = b := h.calling b t hpoint
  have hmid := h.timers.unexpire hexpired
  have hself : s'.points b = .looking := by rw [hs']; exact Function.update_self _ _ _
  have hother : ∀ c, c ≠ b → s'.points c = s.points c := fun c hc => by
    rw [hs']
    exact Function.update_of_ne hc _ _
  have hcalling : ∀ c u, s'.points c = .calling u → s.points c = .calling u := by
    intro c u hu
    by_cases hcb : c = b
    · rw [hcb, hself] at hu
      cases hu
    · rwa [hother c hcb] at hu
  have hrunning : ∀ c, s.points c ≠ .idle → s'.points c ≠ .idle := by
    intro c hc
    by_cases hcb : c = b
    · rw [hcb, hself]
      simp
    · rwa [hother c hcb]
  have hlooking : s'.temporary b = [] := CheckState.temporary_nil fun t => by simp [hself]
  have htimers : s'.timers = (s.timers.rearm level b t).2 := by rw [hs']
  have hhistory : s'.history = s.history ++
    ((s.timers.rearm level b t).1.map (TimerEvent.started t)).toList := by rw [hs']
  unfold TimerState.rearm at htimers hhistory ⊢
  dsimp only at htimers hhistory ⊢
  split at htimers
  · next hagain =>
    rw [if_pos hagain] at hhistory ⊢
    dsimp only [Option.map_some, Option.toList_some] at htimers hhistory ⊢
    rw [timerStart_setActivated, ← hside] at htimers
    obtain ⟨rows', htouched, hexpired'⟩ := Touched.start hmid hlevel t (htimers ▸ hwindow)
    have hlast : ∀ c, Function.update rows (.expired b) [] (.timerList c (level - 1)) =
      rows (.timerList c (level - 1)) := fun c => update_expired_last rows b c [] level
    have hstarted : Touched level soft s.timers s'.timers rows rows'
        (some (.started t ((s.timers.tick + s.timers.initTick t) % wordSize))) := by
      rw [htimers]
      refine ⟨htouched.kept, fun u hu => ?_, htouched.started, htouched.stopped, htouched.invoked⟩
      have hothers := htouched.others u hu
      simp only [hlast] at hothers
      exact hothers
    refine ⟨rows', _, h.touch hstarted rfl hhistory (by rw [htimers]; rfl) hcalling (fun c => ?_)
      hrunning, rfl⟩
    rw [hexpired']
    by_cases hcb : c = b
    · rw [hcb, Function.update_self, hlooking, List.erase_nil]
    · have hne : ∀ u, s.points c = .calling u → t ≠ u := fun u hu htu =>
        hcb ((h.calling c u hu).symm.trans (htu ▸ hside))
      obtain ⟨hsame, herase⟩ := CheckState.temporary_other (hother c hcb) hhistory hne
      rw [Function.update_of_ne (fun heq => hcb (TimerHead.expired.inj heq)), h.temporary]
      exact herase.trans hsame.symm
  · next hagain =>
    rw [if_neg hagain] at hhistory ⊢
    dsimp only [Option.map_none, Option.toList_none] at htimers hhistory ⊢
    rw [List.append_nil] at hhistory
    refine ⟨_, none, h.untouched (htimers ▸ hmid) (fun c => update_expired_last rows b c [] level)
      (by rw [htimers]) (by rw [htimers]) (by rw [htimers]) hhistory (.inl (by rw [htimers]))
      hcalling (fun c => ?_) fun c hc hidle => absurd hidle (hrunning c hc), rfl⟩
    by_cases hcb : c = b
    · rw [hcb, Function.update_self, hlooking]
    · rw [Function.update_of_ne (fun heq => hcb (TimerHead.expired.inj heq)), h.temporary]
      exact (CheckState.temporary_congr (hother c hcb) hhistory).symm

/-- A callback returns. -/
theorem CheckState.Kept.leave (h : s.Kept level soft rows) (hlevel : 0 < level)
    (hwindow : s'.timers.Windowed)
    (hstep : (checkMachine level soft).step s (.leave b) = some s') :
    ∃ rows' event, s.Advances level soft s' rows rows' event := by
  cases hpoint : s.points b with
  | idle => simp [checkMachine, hpoint] at hstep
  | looking => simp [checkMachine, hpoint] at hstep
  | calling t =>
    have hiff := expiredIsEmpty_iff (b := b) h.timers.linked.rings
    by_cases hempty : s.timers.expiredIsEmpty b = true
    · obtain rfl : _ = s' := by simpa [checkMachine, hpoint, hempty] using hstep
      exact ⟨rows, none, h.goTo (fun t => by simp) (hiff.mp hempty) fun hp => by cases hp⟩
    · have hexpired : rows (.expired b) = [t] := by
        have htemporary := h.temporary b
        rw [CheckState.temporary, hpoint] at htemporary
        dsimp only at htemporary
        split at htemporary
        · exact htemporary
        · exact absurd (hiff.mpr htemporary) hempty
      obtain ⟨rows', event, hadvances, -⟩ := h.rearm hlevel hpoint hexpired hwindow (by
        simpa [checkMachine, hpoint, hempty] using hstep.symm)
      exact ⟨rows', event, hadvances⟩

theorem check_step (hlevel : 0 < level) (h : s.Kept level soft rows) {a : CheckStep τ}
    (hok : StaysTimely level soft s a) (hstep : (checkMachine level soft).step s a = some s') :
    ∃ rows' event, s.Advances level soft s' rows rows' event := by
  have hwindow : s'.timers.Windowed := (hok.2 s' hstep).1
  cases a with
  | call call =>
    have hs' := (Option.some.inj hstep).symm
    exact h.call hlevel call (by rw [hs'] at hwindow; exact hwindow) hs'
  | tick =>
    obtain rfl := Option.some.inj hstep
    exact ⟨rows, none, h.untouched (h.timers.congr rfl rfl rfl rfl rfl (Nat.mod_lt _ (by decide)))
      (fun b => rfl) rfl rfl rfl rfl (.inr rfl) (fun b t ht => ht)
      (fun b => (h.temporary b).trans rfl) fun b hb hidle => absurd hidle hb⟩
  | enter b =>
    cases hpoint : s.points b with
    | looking => simp [checkMachine, hpoint] at hstep
    | calling t => simp [checkMachine, hpoint] at hstep
    | idle =>
      obtain rfl : _ = s' := by simpa [checkMachine, hpoint] using hstep
      refine ⟨rows, none, h.goTo (fun t => by simp) ?_ fun hp => by cases hp⟩
      rw [h.temporary]
      exact CheckState.temporary_nil fun t => by simp [hpoint]
  | look b => exact h.look hlevel hstep
  | leave b => exact h.leave hlevel hwindow hstep

end

end States

/-! ## The due timers -/

section Due

variable {τ : Type*} {s : TimerState τ} {rows : TimerHead → List τ} {level : Nat} {soft : τ → Bool}
  {b : Bool} {t u : τ}

theorem before_asymm (ht : s.timeoutTick t < wordSize) (hu : s.timeoutTick u < wordSize)
    (hbefore : s.Before t u) : ¬ s.Before u t := by
  unfold TimerState.Before wordSub wordSize rtTickHalf at *
  omega

/-- What is before a due timer is due. -/
theorem due_of_before (h : s.Rows level soft rows) (hwindow : s.Windowed)
    (hu : u ∈ rows (.timerList b (level - 1))) (ht : t ∈ rows (.timerList b (level - 1)))
    (hbefore : s.Before u t) (hdue : wordSub s.tick (s.timeoutTick t) < rtTickHalf) :
    wordSub s.tick (s.timeoutTick u) < rtTickHalf := by
  obtain ⟨base, hbase, htick, hactive⟩ := hwindow
  have hwu := hactive u (h.activated b u hu)
  have hwt := hactive t (h.activated b t ht)
  have horder := (before_iff (h.timeoutTick u) (h.timeoutTick t) hbase hwu hwt).mp hbefore
  have hlate := (wordSub_lt_half_iff (h.timeoutTick t) h.tick hbase hwt htick).mp hdue
  exact (wordSub_lt_half_iff (h.timeoutTick u) h.tick hbase hwu htick).mpr (by omega)

/-- A due timer is before one that is not. -/
theorem before_of_not_due (h : s.Rows level soft rows) (hwindow : s.Windowed)
    (hu : u ∈ rows (.timerList b (level - 1))) (ht : t ∈ rows (.timerList b (level - 1)))
    (hdue : wordSub s.tick (s.timeoutTick u) < rtTickHalf)
    (hnot : ¬ wordSub s.tick (s.timeoutTick t) < rtTickHalf) : s.Before u t := by
  obtain ⟨base, hbase, htick, hactive⟩ := hwindow
  have hwu := hactive u (h.activated b u hu)
  have hwt := hactive t (h.activated b t ht)
  have hearly := (wordSub_lt_half_iff (h.timeoutTick u) h.tick hbase hwu htick).mp hdue
  have hlate := mt (wordSub_lt_half_iff (h.timeoutTick t) h.tick hbase hwt htick).mpr hnot
  exact (before_iff (h.timeoutTick u) (h.timeoutTick t) hbase hwu hwt).mpr (.inl (by omega))

/-- A due timer is before one that is started now. -/
theorem before_of_started (h : s.Rows level soft rows) (hwindow : s.Windowed)
    (hu : u ∈ rows (.timerList b (level - 1))) (ht : t ∈ rows (.timerList b (level - 1)))
    (hdue : wordSub s.tick (s.timeoutTick u) < rtTickHalf)
    (htimeout : s.timeoutTick t = (s.tick + s.initTick t) % wordSize)
    (hinit : s.initTick t < rtTickHalf) (hnr : s.startNr u < s.startNr t) : s.Before u t := by
  obtain ⟨base, hbase, htick, hactive⟩ := hwindow
  have hwu := hactive u (h.activated b u hu)
  have hwt := hactive t (h.activated b t ht)
  have hclock := h.tick
  have hahead : wordSub (s.timeoutTick t) s.tick < rtTickHalf := by
    rw [htimeout]
    unfold wordSub wordSize rtTickHalf at *
    omega
  have hearly := (wordSub_lt_half_iff (h.timeoutTick u) h.tick hbase hwu htick).mp hdue
  have hlate := (wordSub_lt_half_iff h.tick (h.timeoutTick t) hbase htick hwt).mp hahead
  exact (before_iff (h.timeoutTick u) (h.timeoutTick t) hbase hwu hwt).mpr (by omega)

/-- A due timer stays due when a tick goes by. -/
theorem due_of_tick (h : s.Rows level soft rows) (hwindow : s.Windowed) {now : Nat}
    (hnow : now < wordSize) (ht : t ∈ rows (.timerList b (level - 1)))
    (hdue : wordSub now (s.timeoutTick t) < rtTickHalf) (htick : s.tick = (now + 1) % wordSize) :
    wordSub s.tick (s.timeoutTick t) < rtTickHalf := by
  obtain ⟨base, hbase, hclock, hactive⟩ := hwindow
  have hwt := hactive t (h.activated b t ht)
  have hword := h.timeoutTick t
  rw [htick] at hclock ⊢
  unfold wordSub wordSize rtTickHalf at *
  omega

end Due

/-! ## A check -/

section Serving

theorem mem_toList {τ : Type*} {events : List (TimerEvent τ)}
    {event : Option (TimerEvent τ)} {t : τ} :
    t ∈ (events ++ event.toList).map TimerEvent.timer ↔
      t ∈ events.map TimerEvent.timer ∨ ∃ e, event = some e ∧ e.timer = t := by
  cases event with
  | none => simp
  | some e => simp [eq_comm]

variable {τ : Type*} [DecidableEq τ] {s s' : CheckState τ} {rows rows' : TimerHead → List τ}
  {level : Nat} {soft : τ → Bool} {b : Bool} {event : Option (TimerEvent τ)}
  {begin : TimerState τ} {due : List τ} {events : List (TimerEvent τ)}

/-- A timer that nothing has happened to is called only after something has happened to each
due timer in front of it. -/
def InTurn (due : List τ) (before : List (TimerEvent τ)) (event : TimerEvent τ) : Prop :=
  ∀ u p d k, event = .invoked u p d k → u ∉ before.map TimerEvent.timer →
    ∀ t, [t, u].Sublist due → t ∈ before.map TimerEvent.timer

/-- A callback of a timer of this list. -/
def isCallback (soft : τ → Bool) (b : Bool) (event : TimerEvent τ) : Bool :=
  event.isInvoked && soft event.timer == b

/-- How far the check has come with the timers that were due at its beginning. -/
structure CheckState.Serving (level : Nat) (soft : τ → Bool) (b : Bool) (begin : TimerState τ)
    (due : List τ) (s : CheckState τ) (rows : TimerHead → List τ)
    (events : List (TimerEvent τ)) : Prop where
  waiting : ∀ t ∈ due, t ∉ events.map TimerEvent.timer →
    t ∈ rows (.timerList b (level - 1)) ∧ s.timers.timeoutTick t = begin.timeoutTick t ∧
      s.timers.startNr t = begin.startNr t ∧
      wordSub s.timers.tick (s.timers.timeoutTick t) < rtTickHalf
  ahead : ∀ r ∈ due, r ∉ events.map TimerEvent.timer →
    ∀ t ∈ rows (.timerList b (level - 1)), (t ∉ due ∨ t ∈ events.map TimerEvent.timer) →
      s.timers.Before r t
  turns : Explained (InTurn due) events
  pace : ∀ r ∈ due, r ∉ events.map TimerEvent.timer →
    events.countP (isCallback soft b) +
      (due.filter fun t => t ∉ events.map TimerEvent.timer).length ≤ due.length
  served : s.points b = .idle → ∀ t ∈ due, t ∈ events.map TimerEvent.timer

/-- The first timer of the list is in front of a due one. -/
theorem CheckState.Serving.first_before (h : s.Serving level soft b begin due rows events)
    (hkept : s.Kept level soft rows) {u r : τ} {rest : List τ}
    (hrow : rows (.timerList b (level - 1)) = u :: rest) (hr : r ∈ due)
    (hwaits : r ∉ events.map TimerEvent.timer) : r = u ∨ s.timers.Before u r := by
  have hsorted := hkept.timers.sorted b
  have hmem := (h.waiting r hr hwaits).1
  rw [hrow] at hsorted hmem
  exact (List.mem_cons.mp hmem).imp id fun hrest => (List.pairwise_cons.mp hsorted).1 r hrest

theorem CheckState.Serving.waiting_step (h : s.Serving level soft b begin due rows events)
    (hkept : s.Kept level soft rows) (hstep : s.Advances level soft s' rows rows' event)
    (htimely : s'.Timely) {t : τ} (ht : t ∈ due)
    (hwaits : t ∉ (events ++ event.toList).map TimerEvent.timer) :
    t ∈ rows' (.timerList b (level - 1)) ∧ s'.timers.timeoutTick t = begin.timeoutTick t ∧
      s'.timers.startNr t = begin.startNr t ∧
      wordSub s'.timers.tick (s'.timers.timeoutTick t) < rtTickHalf := by
  obtain ⟨hnone, hevent⟩ := not_or.mp (mt mem_toList.mpr hwaits)
  obtain ⟨hmem, htimeout, hnr, hdue⟩ := h.waiting t ht hnone
  obtain ⟨hsame, htimeout', hnr', -⟩ := hstep.touched.others t fun e he heq => hevent ⟨e, he, heq⟩
  have hmem' := (hsame b).mpr hmem
  refine ⟨hmem', htimeout'.trans htimeout, hnr'.trans hnr, ?_⟩
  rcases hstep.clock with htick | ⟨-, htick⟩
  · rwa [htick, htimeout']
  · rw [← htimeout'] at hdue
    exact due_of_tick hstep.kept.timers htimely.1 hkept.timers.tick hmem' hdue htick

theorem CheckState.Serving.ahead_step (h : s.Serving level soft b begin due rows events)
    (hkept : s.Kept level soft rows) (hstep : s.Advances level soft s' rows rows' event)
    (htimely : s'.Timely) {r t : τ} (hr : r ∈ due)
    (hwaits : r ∉ (events ++ event.toList).map TimerEvent.timer)
    (ht : t ∈ rows' (.timerList b (level - 1)))
    (hout : t ∉ due ∨ t ∈ (events ++ event.toList).map TimerEvent.timer) :
    s'.timers.Before r t := by
  obtain ⟨hnone, hevent⟩ := not_or.mp (mt mem_toList.mpr hwaits)
  obtain ⟨hsame, htimeout, hnr, -⟩ := hstep.touched.others r fun e he heq => hevent ⟨e, he, heq⟩
  obtain ⟨hmem, -, -, hdue⟩ := h.waiting_step hkept hstep htimely hr hwaits
  by_cases htouched : ∃ e, event = some e ∧ e.timer = t
  · obtain ⟨e, he, rfl⟩ := htouched
    cases e with
    | started u d =>
      obtain ⟨-, htime, hself, hd⟩ := hstep.touched.started u d he
      have hnumber := hkept.timers.numbered b r (h.waiting r hr hnone).1
      refine before_of_started hstep.kept.timers htimely.1 hmem ht hdue (htime.trans hd)
        (htimely.2 u) ?_
      rw [hnr]
      exact hnumber.trans_eq hself.symm
    | stopped u => exact absurd ht ((hstep.touched.stopped u he).1 b)
    | invoked u p d k => exact absurd ht ((hstep.touched.invoked u p d k he).1 b)
  · obtain ⟨hsame', htimeout', hnr', -⟩ := hstep.touched.others t fun e he heq =>
      htouched ⟨e, he, heq⟩
    have hold := h.ahead r hr hnone t ((hsame' b).mp ht)
      (hout.imp id fun hin => (mem_toList.mp hin).resolve_right htouched)
    unfold TimerState.Before at hold ⊢
    rwa [htimeout, htimeout', hnr, hnr']

/-- While a due timer waits, the timer whose callback is called is one of them. -/
theorem CheckState.Serving.invoked_due (h : s.Serving level soft b begin due rows events)
    (hkept : s.Kept level soft rows) {u r : τ} {rest : List τ}
    (hrow : rows (.timerList b (level - 1)) = u :: rest) (hr : r ∈ due)
    (hwaits : r ∉ events.map TimerEvent.timer) :
    u ∈ due ∧ u ∉ events.map TimerEvent.timer := by
  by_contra hnot
  have hout : u ∉ due ∨ u ∈ events.map TimerEvent.timer := by tauto
  have hbefore := h.ahead r hr hwaits u (hrow ▸ List.mem_cons_self) hout
  rcases h.first_before hkept hrow hr hwaits with rfl | hafter
  · exact hnot ⟨hr, hwaits⟩
  · exact before_asymm (hkept.timers.timeoutTick r) (hkept.timers.timeoutTick u) hbefore hafter

theorem CheckState.Serving.turns_step (h : s.Serving level soft b begin due rows events)
    (hkept : s.Kept level soft rows) (hside : ∀ t ∈ due, soft t = b)
    (hsorted : due.Pairwise begin.Before) (hstep : s.Advances level soft s' rows rows' event) :
    Explained (InTurn due) (events ++ event.toList) := by
  refine h.turns.append_toList fun e he u p d k hinvoked hwaits t hsublist => ?_
  by_contra hnone
  have ht : t ∈ due := hsublist.subset List.mem_cons_self
  have hu : u ∈ due := hsublist.subset (List.mem_cons_of_mem t (List.mem_singleton_self u))
  obtain ⟨rest, hrow⟩ := hstep.first u p d k (hinvoked ▸ he)
  rw [hside u hu] at hrow
  obtain ⟨-, htimeout, hnr, -⟩ := h.waiting t ht hnone
  obtain ⟨-, htimeout', hnr', -⟩ := h.waiting u hu hwaits
  have hbefore : s.timers.Before t u := by
    have hfirst := List.pairwise_iff_forall_sublist.mp hsorted hsublist
    unfold TimerState.Before at hfirst ⊢
    rwa [htimeout, htimeout', hnr, hnr']
  have hasymm := before_asymm (hkept.timers.timeoutTick t) (hkept.timers.timeoutTick u) hbefore
  rcases h.first_before hkept hrow ht hnone with rfl | hafter
  · exact hasymm hbefore
  · exact hasymm hafter

theorem CheckState.Serving.pace_step (h : s.Serving level soft b begin due rows events)
    (hkept : s.Kept level soft rows) (hstep : s.Advances level soft s' rows rows' event) {r : τ}
    (hr : r ∈ due) (hwaits : r ∉ (events ++ event.toList).map TimerEvent.timer) :
    (events ++ event.toList).countP (isCallback soft b) +
      (due.filter fun t => t ∉ (events ++ event.toList).map TimerEvent.timer).length ≤
        due.length := by
  obtain ⟨hnone, hevent⟩ := not_or.mp (mt mem_toList.mpr hwaits)
  have hold := h.pace r hr hnone
  cases event with
  | none => rwa [Option.toList_none, List.append_nil]
  | some e =>
    have hfilter : (due.filter fun t => t ∉ (events ++ [e]).map TimerEvent.timer) =
        (due.filter fun t => t ∉ events.map TimerEvent.timer).filter fun t => t ≠ e.timer := by
      rw [List.filter_filter]
      refine List.filter_congr fun t _ => ?_
      simp [and_comm]
    rw [Option.toList_some, List.countP_append, List.countP_singleton, hfilter]
    cases hcallback : isCallback soft b e with
    | false =>
      have hle := List.length_filter_le (fun t => decide (t ≠ e.timer))
        (due.filter fun t => t ∉ events.map TimerEvent.timer)
      simp only [Bool.false_eq_true, if_false]
      omega
    | true =>
      obtain ⟨hinvoked, hlist⟩ := Bool.and_eq_true_iff.mp hcallback
      obtain ⟨rest, hrow⟩ : ∃ rest, rows (.timerList b (level - 1)) = e.timer :: rest := by
        cases e with
        | started u d => cases hinvoked
        | stopped u => cases hinvoked
        | invoked u p d k =>
          obtain ⟨rest, hrow⟩ := hstep.first u p d k rfl
          rw [show soft u = b from beq_iff_eq.mp hlist] at hrow
          exact ⟨rest, hrow⟩
      obtain ⟨hdue, hfree⟩ := h.invoked_due hkept hrow hr hnone
      have hlt : ((due.filter fun t => t ∉ events.map TimerEvent.timer).filter
          fun t => t ≠ e.timer).length <
          (due.filter fun t => t ∉ events.map TimerEvent.timer).length := by
        refine List.length_filter_lt_length_iff_exists.mpr ⟨e.timer, ?_, by simp⟩
        exact List.mem_filter.mpr ⟨hdue, by simpa using hfree⟩
      simp only [if_true]
      omega

theorem CheckState.Serving.step (h : s.Serving level soft b begin due rows events)
    (hkept : s.Kept level soft rows) (hside : ∀ t ∈ due, soft t = b)
    (hsorted : due.Pairwise begin.Before) (hstep : s.Advances level soft s' rows rows' event)
    (hbefore : s.Timely) (hafter : s'.Timely) :
    s'.Serving level soft b begin due rows' (events ++ event.toList) where
  waiting t ht hwaits := h.waiting_step hkept hstep hafter ht hwaits
  ahead r hr hwaits t ht hout := h.ahead_step hkept hstep hafter hr hwaits ht hout
  turns := h.turns_step hkept hside hsorted hstep
  pace r hr hwaits := h.pace_step hkept hstep hr hwaits
  served hidle t ht := by
    by_cases hold : s.points b = .idle
    · exact mem_toList.mpr (.inl (h.served hold t ht))
    · by_contra hwaits
      obtain ⟨hnone, -⟩ := not_or.mp (mt mem_toList.mpr hwaits)
      obtain ⟨hmem, -, -, hdue⟩ := h.waiting t ht hnone
      obtain ⟨-, hnot⟩ := hstep.returned b hold hidle
      cases hrow : rows (.timerList b (level - 1)) with
      | nil => exact List.not_mem_nil (hrow ▸ hmem)
      | cons u rest =>
        refine hnot u rest hrow ?_
        rcases h.first_before hkept hrow ht hnone with rfl | hfirst
        · exact hdue
        · exact due_of_before hkept.timers hbefore.1 (hrow ▸ List.mem_cons_self) hmem hfirst hdue

end Serving

/-! ## Runs -/

section Runs

variable {τ : Type*} [DecidableEq τ] [Fintype τ] {level : Nat} {soft : τ → Bool} {b : Bool}

theorem lastRow_eq {s : TimerState τ} {rows : TimerHead → List τ}
    (h : s.links.Rings .head (nodes level rows)) (b : Bool) :
    s.lastRow level b = rows (.timerList b (level - 1)) := by
  have hlength : (nodes level rows (.timerList b (level - 1))).length ≤ Fintype.card τ := by
    rw [nodes, List.length_map]
    exact (nodup_rows h _).length_le_card
  rw [TimerState.lastRow, (h.ring (.timerList b (level - 1))).members_eq hlength, nodes,
    List.filterMap_map]
  exact List.filterMap_some

/-- Where a timer is, by what has happened to it last. -/
def CheckState.Told (level : Nat) (soft : τ → Bool) (s : CheckState τ) (t : τ) : Prop :=
  match lastOf TimerEvent.timer t s.history with
  | some (.started _ d) =>
    t ∈ s.timers.lastRow level (soft t) ∧ s.timers.activated t = true ∧ s.timers.timeoutTick t = d
  | some (.invoked _ true _ _) => ∀ b, t ∉ s.timers.lastRow level b
  | some (.invoked _ false _ _) | some (.stopped _) | none =>
    (∀ b, t ∉ s.timers.lastRow level b) ∧ s.timers.activated t = false

theorem CheckState.Kept.told {s : CheckState τ} {rows : TimerHead → List τ}
    (h : s.Kept level soft rows) (t : τ) : s.Told level soft t := by
  have hrecorded := h.recorded t
  unfold CheckState.Recorded at hrecorded
  unfold CheckState.Told
  simp only [lastRow_eq h.timers.linked.rings]
  cases hlast : lastOf TimerEvent.timer t s.history with
  | none =>
    rw [hlast] at hrecorded
    exact hrecorded
  | some e =>
    rw [hlast] at hrecorded
    cases e with
    | started u d => exact ⟨hrecorded.1, h.timers.activated _ t hrecorded.1, hrecorded.2⟩
    | stopped u => exact hrecorded
    | invoked u p d k =>
      cases p with
      | false => exact hrecorded
      | true => exact hrecorded.1

/-- A check begins. -/
theorem serving_enter {s : CheckState τ} {rows : TimerHead → List τ} (h : s.Kept level soft rows)
    (htimely : s.Timely) (b : Bool) (p : CheckPoint τ) (hp : p ≠ .idle) :
    CheckState.Serving level soft b s.timers (s.timers.dueTimers level b)
      { s with points := Function.update s.points b p } rows [] := by
  have hdue : ∀ t, t ∈ s.timers.dueTimers level b ↔ t ∈ rows (.timerList b (level - 1)) ∧
      wordSub s.timers.tick (s.timers.timeoutTick t) < rtTickHalf := by
    intro t
    rw [TimerState.dueTimers, lastRow_eq h.timers.linked.rings, List.mem_filter, decide_eq_true_iff]
  refine ⟨fun t ht _ => ?_, fun r hr _ t ht hout => ?_, explained_nil, fun r hr _ => ?_,
    fun hidle => ?_⟩
  · obtain ⟨hmem, hlate⟩ := (hdue t).mp ht
    exact ⟨hmem, rfl, rfl, hlate⟩
  · obtain ⟨hmem, hlate⟩ := (hdue r).mp hr
    have hnot := hout.resolve_right List.not_mem_nil
    exact before_of_not_due h.timers htimely.1 hmem ht hlate fun hlate' => hnot ((hdue t).mpr
      ⟨ht, hlate'⟩)
  · rw [List.countP_nil, Nat.zero_add]
    exact List.length_filter_le _ _
  · exact absurd ((Function.update_self b p s.points).symm.trans hidle) hp

/-- The callback of a periodic timer returns, and nothing else has happened to the timer. -/
theorem CheckState.Kept.restarted {s s' : CheckState τ} {rows : TimerHead → List τ}
    (h : s.Kept level soft rows) {t : τ} {d k : Nat} (hpoint : s.points b = .calling t)
    (hlast : lastOf TimerEvent.timer t s.history = some (.invoked t true d k))
    (hperiodic : s.timers.periodic t = true)
    (hstep : (checkMachine level soft).step s (.leave b) = some s') :
    s'.timers.activated t = true ∧
      s'.timers.timeoutTick t = (s.timers.tick + s.timers.initTick t) % wordSize ∧
      s'.history = s.history ++
        [.started t ((s.timers.tick + s.timers.initTick t) % wordSize)] := by
  have hactivated : s.timers.activated t = true := by
    have hrecorded := h.recorded t
    rw [CheckState.Recorded, hlast] at hrecorded
    exact hrecorded.2
  have hexpired : rows (.expired b) = [t] := by
    rw [h.temporary, CheckState.temporary, hpoint]
    dsimp only
    rw [hlast]
    rfl
  have hnot : s.timers.expiredIsEmpty b = false := by
    refine Bool.eq_false_iff.mpr fun hempty => ?_
    rw [expiredIsEmpty_iff h.timers.linked.rings, hexpired] at hempty
    cases hempty
  have hs' : s' = {
      timers := (s.timers.rearm level b t).2
      points := Function.update s.points b .looking
      history := s.history ++
        ((s.timers.rearm level b t).1.map (TimerEvent.started t)).toList } := by
    simpa [checkMachine, hpoint, hnot] using hstep.symm
  have hboth : s.timers.periodic t = true ∧ s.timers.activated t = true := ⟨hperiodic, hactivated⟩
  rw [hs', TimerState.rearm, if_pos hboth]
  refine ⟨?_, Function.update_self _ _ _, rfl⟩
  dsimp only
  rw [timerStart_activated]
  exact Function.update_self _ _ _

theorem checkState_kept (hlevel : 0 < level) {tick randomNr : Nat} {initTick : τ → Nat}
    {periodic : τ → Bool} {schedule : List (CheckStep τ)} {s : CheckState τ}
    (run : (checkMachine level soft).Run (StaysTimely level soft)
      (.start tick randomNr initTick periodic) schedule s) : ∃ rows, s.Kept level soft rows := by
  refine run.invariant (I := fun s => ∃ rows, s.Kept level soft rows) ?_
    ⟨_, kept_checkStart level soft tick randomNr initTick periodic⟩
  rintro s a s' hok hstep ⟨rows, h⟩
  obtain ⟨rows', event, hadvances⟩ := check_step hlevel h hok hstep
  exact ⟨rows', hadvances.kept⟩

/-- A check, whatever is done while it does not hold the lock: the timers that were due when it
began get their turn in the order of their deadlines unless they are stopped or restarted
before, none is left when it returns or after as many callbacks, and each callback uses up a
start.  What has happened last to a timer says where it is then. -/
theorem timerCheck_serves (hlevel : 0 < level) {tick randomNr : Nat} {initTick : τ → Nat}
    {periodic : τ → Bool} {schedule labels : List (CheckStep τ)} {s₀ s : CheckState τ}
    (run : (checkMachine level soft).Run (StaysTimely level soft)
      (.start tick randomNr initTick periodic) schedule s₀)
    (check : (checkMachine level soft).Run (StaysTimely level soft) s₀ (.enter b :: labels) s) :
    (s₀.timers.dueTimers level b).Pairwise s₀.timers.Before ∧
      (∃ events, s.history = s₀.history ++ events ∧
        Explained (InTurn (s₀.timers.dueTimers level b)) events ∧
        (s.points b = .idle ∨
            (s₀.timers.dueTimers level b).length ≤ events.countP (isCallback soft b) →
          ∀ t ∈ s₀.timers.dueTimers level b, t ∈ events.map TimerEvent.timer)) ∧
      Explained Expiry s.history ∧ (∀ t, s.Told level soft t) ∧
      ∀ t d k s', s.points b = .calling t →
        lastOf TimerEvent.timer t s.history = some (.invoked t true d k) →
        s.timers.periodic t = true → (checkMachine level soft).step s (.leave b) = some s' →
        s'.timers.activated t = true ∧
          s'.timers.timeoutTick t = (s.timers.tick + s.timers.initTick t) % wordSize ∧
          s'.history = s.history ++
            [.started t ((s.timers.tick + s.timers.initTick t) % wordSize)] := by
  obtain ⟨rows₀, hkept₀⟩ := checkState_kept hlevel run
  have hsorted : (s₀.timers.dueTimers level b).Pairwise s₀.timers.Before := by
    rw [TimerState.dueTimers, lastRow_eq hkept₀.timers.linked.rings]
    exact (hkept₀.timers.sorted b).filter _
  have hside : ∀ t ∈ s₀.timers.dueTimers level b, soft t = b := by
    intro t ht
    rw [TimerState.dueTimers, lastRow_eq hkept₀.timers.linked.rings] at ht
    exact hkept₀.timers.linked.side _ t (List.mem_filter.mp ht).1
  obtain ⟨rows, events, hkept, hhistory, hserving⟩ : ∃ rows events, s.Kept level soft rows ∧
      s.history = s₀.history ++ events ∧
      s.Serving level soft b s₀.timers (s₀.timers.dueTimers level b) rows events := by
    cases check with
    | cons hok henter hrest =>
      have hfirst := check_step hlevel hkept₀ hok henter
      refine hrest.invariant (I := fun s => ∃ rows events, s.Kept level soft rows ∧
        s.history = s₀.history ++ events ∧
        s.Serving level soft b s₀.timers (s₀.timers.dueTimers level b) rows events) ?_ ?_
      · rintro s a s' hok hstep ⟨rows, events, hkept, hhistory, hserving⟩
        obtain ⟨rows', event, hadvances⟩ := check_step hlevel hkept hok hstep
        refine ⟨rows', events ++ event.toList, hadvances.kept, ?_,
          hserving.step hkept hside hsorted hadvances hok.1 (hok.2 s' hstep)⟩
        rw [hadvances.history, hhistory, List.append_assoc]
      · cases hpoint : s₀.points b with
        | looking => simp [checkMachine, hpoint] at henter
        | calling t => simp [checkMachine, hpoint] at henter
        | idle =>
          have hempty : rows₀ (.expired b) = [] := by
            rw [hkept₀.temporary]
            exact CheckState.temporary_nil fun t => by simp [hpoint]
          obtain rfl : _ = _ := by simpa [checkMachine, hpoint] using henter
          exact ⟨rows₀, [], (hkept₀.goTo (fun t => by simp) hempty fun hp => by cases hp).kept,
            (List.append_nil _).symm, serving_enter hkept₀ hok.1 b .looking (by simp)⟩
  refine ⟨hsorted, ⟨events, hhistory, hserving.turns, fun hdone t ht => ?_⟩, hkept.expiries,
    hkept.told, fun t d k s' hpoint hlast hperiodic hstep =>
      hkept.restarted hpoint hlast hperiodic hstep⟩
  by_contra hwaits
  rcases hdone with hidle | hcount
  · exact hwaits (hserving.served hidle t ht)
  · have hpace := hserving.pace t ht hwaits
    have hpos : 0 < ((s₀.timers.dueTimers level b).filter fun u =>
        u ∉ events.map TimerEvent.timer).length :=
      List.length_pos_of_mem (List.mem_filter.mpr ⟨ht, by simpa using hwaits⟩)
    omega

end Runs

/-- Two timers are due, and the callback of the first one starts the other one again. -/
theorem run_restarting :
    ∃ s₀ s : CheckState Bool,
      (checkMachine 1 fun _ => false).Run (StaysTimely 1 fun _ => false)
        (.start 0 0 (fun _ => 1) fun _ => false)
        [.call (.start false), .call (.start true), .tick] s₀ ∧
      (checkMachine 1 fun _ => false).Run (StaysTimely 1 fun _ => false) s₀
        [.enter false, .look false, .call (.start true), .leave false, .look false] s ∧
      s₀.timers.dueTimers 1 false = [false, true] ∧ s.points false = .idle ∧
      s₀.history = [.started false 1, .started true 1] ∧
      s.history = [.started false 1, .started true 1, .invoked false false 1 1,
        .started true 2] := by
  refine ⟨_, _, .cons ?_ rfl (.cons ?_ rfl (.cons ?_ rfl (.nil _))),
    .cons ?_ rfl (.cons ?_ rfl (.cons ?_ rfl (.cons ?_ rfl (.cons ?_ rfl (.nil _))))),
    ?_, ?_, ?_, ?_⟩
  case refine_9 => decide
  case refine_10 => rfl
  case refine_11 => rfl
  case refine_12 => rfl
  all_goals
    refine ⟨⟨⟨0, by decide, by decide, by decide⟩, by decide⟩, fun s' hstep => ?_⟩
    obtain rfl := Option.some.inj hstep
    exact ⟨⟨0, by decide, by decide, by decide⟩, by decide⟩

theorem timerCheck_serves_run :
    ∃ s₀ s : CheckState Bool,
      (checkMachine 1 fun _ => false).Run (StaysTimely 1 fun _ => false)
        (.start 0 0 (fun _ => 1) fun _ => false)
        [.call (.start false), .call (.start true), .tick] s₀ ∧
      (checkMachine 1 fun _ => false).Run (StaysTimely 1 fun _ => false) s₀
        [.enter false, .look false, .call (.start true), .leave false, .look false] s ∧
      s.points false = .idle ∧
      (∃ events, s.history = s₀.history ++ events ∧
        Explained (InTurn (s₀.timers.dueTimers 1 false)) events ∧
        ∀ t ∈ s₀.timers.dueTimers 1 false, t ∈ events.map TimerEvent.timer) ∧
      Explained Expiry s.history ∧ ∀ t, s.Told 1 (fun _ => false) t := by
  obtain ⟨s₀, s, run, check, -, hidle, -⟩ := run_restarting
  obtain ⟨-, ⟨events, hhistory, hturns, hserved⟩, hexpiry, htold, -⟩ :=
    timerCheck_serves (by decide) run check
  exact ⟨s₀, s, run, check, hidle, ⟨events, hhistory, hturns, hserved (.inl hidle)⟩, hexpiry,
    htold⟩

/-- A timer that was due and that nobody has stopped is not called, because it has been
restarted before its turn. -/
theorem not_timerCheck_calls_all :
    ∃ s₀ s : CheckState Bool, ∃ events,
      (checkMachine 1 fun _ => false).Run (StaysTimely 1 fun _ => false)
        (.start 0 0 (fun _ => 1) fun _ => false)
        [.call (.start false), .call (.start true), .tick] s₀ ∧
      (checkMachine 1 fun _ => false).Run (StaysTimely 1 fun _ => false) s₀
        [.enter false, .look false, .call (.start true), .leave false, .look false] s ∧
      s.points false = .idle ∧ s.history = s₀.history ++ events ∧
      ¬ ∀ t ∈ s₀.timers.dueTimers 1 false,
        .stopped t ∈ events ∨ ∃ p d k, .invoked t p d k ∈ events := by
  obtain ⟨s₀, s, run, check, hdue, hidle, hhistory₀, hhistory⟩ := run_restarting
  refine ⟨s₀, s, [.invoked false false 1 1, .started true 2], run, check, hidle, ?_, fun hall => ?_⟩
  · rw [hhistory, hhistory₀]
    rfl
  · rcases hall true (by rw [hdue]; decide) with hstopped | ⟨p, d, k, hinvoked⟩
    · exact absurd hstopped (by decide)
    · simp at hinvoked

end Gd32Vw553h.Kernel
