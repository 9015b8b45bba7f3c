/-
  Ipc/DelayedWork.lean --- the order of delayed work (`components/drivers/ipc/workqueue.c`).

  `_workqueue_submit_work` puts an item into `delayed_list` in front of the first item
  whose deadline, counted modulo the tick, is not behind its own: also in front of one
  with the same deadline.  `delayedWork_iff` says when the items of one deadline still
  keep the order of their submissions.

  The ticks that a caller has in mind do not wrap, so `DelayedState` counts them beside
  the queue.  It also remembers each delayed submission with its number until the item is
  taken, cancelled or submitted again.
-/
import Gd32Vw553h.Ipc.Workqueue

set_option autoImplicit false

namespace Gd32Vw553h.Ipc

open Gd32Vw553h.Foundation Gd32Vw553h.Kernel

/-! ## The delay of the worker -/

/-- `RT_WAITING_FOREVER` -/
abbrev rtWaitingForever : Int := -1

/-- `delay_tick = work->timeout_tick - current_tick`: an `rt_int32_t` takes the difference of
two `rt_tick_t`. -/
def tickDelay (timeoutTick currentTick : Nat) : Int :=
  Int.bmod (wordSub timeoutTick currentTick) wordSize

/-- `delay_tick` after the timer check of `_workqueue_thread_entry` at this tick. -/
def RtWorkqueue.delayTick {τ : Type*} [DecidableEq τ] [Fintype τ] (queue : RtWorkqueue τ)
    (currentTick : Nat) : Int :=
  let queue := RtWorkqueue.timerCheck currentTick (Fintype.card τ) queue
  match queue.links.next .delayedList with
  | .item work => tickDelay (queue.timeoutTick work) currentTick
  | _ => rtWaitingForever

/-! ## Deadlines and submissions -/

/-- A delayed submission: its number, and the tick, not wrapped, at which it is due. -/
structure Delayed where
  serial : Nat
  deadline : Nat

/-- A work queue with the delayed submissions of the items that are on it. -/
structure DelayedState (τ : Type*) where
  work : WorkState τ
  /-- the ticks so far, not wrapped -/
  now : Nat
  /-- the delayed submissions so far -/
  count : Nat
  delayed : τ → Option Delayed

namespace DelayedState

variable {τ : Type*}

/-- A new queue after `now` ticks. -/
def start (now : Nat) : DelayedState τ where
  work := .start (now % wordSize)
  now := now
  count := 0
  delayed _ := none

section Runs

variable [DecidableEq τ]

/-- The item waits for no deadline of its own any more. -/
def forget (s : DelayedState τ) (work : τ) (next : WorkState τ) : DelayedState τ :=
  { s with work := next, delayed := Function.update s.delayed work none }

/-- The item waits for a new deadline. -/
def submit (s : DelayedState τ) (work : τ) (ticks : Nat) (next : WorkState τ) :
    DelayedState τ where
  work := next
  now := s.now
  count := s.count + 1
  delayed := Function.update s.delayed work (some ⟨s.count, s.now + ticks⟩)

variable [Fintype τ]

/-- What a step of the queue to `next` means for the delayed submissions. -/
def observe (s : DelayedState τ) (next : WorkState τ) : WorkStep τ → DelayedState τ
  | .submitWork work ticks =>
      if ticks = 0 then s.forget work next else s.submit work ticks next
  | .dowork work | .urgentWork work | .cancelWork work => s.forget work next
  | .cancelAllWork => { s with work := next, delayed := fun _ => none }
  | .workerLook =>
      match (s.work.queue.takeWork s.work.tick).1 with
      | some work => s.forget work next
      | none => { s with work := next }
  | .workerDone => { s with work := next }
  | .tick n => { s with work := next, now := s.now + n }

/-- Calls, the worker and the tick, with the delayed submissions. -/
def machine : Machine (DelayedState τ) (WorkStep τ) where
  step s a := (workqueueMachine.step s.work a).map fun next => s.observe next a

/-- With the same deadline, the first item was submitted before the second. -/
def InTurn (s : DelayedState τ) (a b : τ) : Prop :=
  ∀ d ∈ s.delayed a, ∀ e ∈ s.delayed b, d.deadline = e.deadline → d.serial < e.serial

/-- `delayed_list` is sorted by deadline, and items with the same deadline are in the lists
in the order in which they were submitted. -/
structure Ordered (s : DelayedState τ) : Prop where
  sorted : s.work.queue.delayedItems.Pairwise fun a b =>
    wordSub (s.work.queue.timeoutTick b) (s.work.queue.timeoutTick a) ≤ rtTickHalf
  inTurn : (s.work.queue.workItems ++ s.work.queue.delayedItems).Pairwise s.InTurn

/-- When the worker looks at the lists, it takes no item before one with the same deadline
that was submitted earlier; and `delay_tick` is what remains to the first deadline. -/
structure LookRight (s mid : DelayedState τ) : Prop where
  taken : ∀ work ∈ (s.work.queue.takeWork s.work.tick).1,
    ∀ other ∈ s.work.queue.workItems ++ s.work.queue.delayedItems, other ≠ work →
      s.InTurn work other
  forever : mid.work.queue.delayedItems = [] →
    s.work.queue.delayTick s.work.tick = rtWaitingForever
  remaining : ∀ work ∈ mid.work.queue.delayedItems.head?, ∃ d ∈ s.delayed work,
    s.now < d.deadline ∧ s.work.queue.delayTick s.work.tick = d.deadline - s.now

/-- The order is kept by the step, and followed if it is one of the worker. -/
def OrderRight (s : DelayedState τ) (a : WorkStep τ) (mid : DelayedState τ) : Prop :=
  mid.Ordered ∧ (a = .workerLook → s.LookRight mid)

/-- A delayed submission has its deadline within `RT_TICK_MAX / 2` of those that wait. -/
def InWindow (s : DelayedState τ) : WorkStep τ → Prop
  | .submitWork work ticks =>
      ticks ≠ 0 → ∀ other ∈ s.work.queue.delayedItems, other ≠ work → ∀ d ∈ s.delayed other,
        d.deadline ≤ s.now + ticks + rtTickHalf ∧ s.now + ticks ≤ d.deadline + rtTickHalf
  | _ => True

/-- A delayed submission has a deadline that no other item in `delayed_list` has, and the
worker does not find an item there that has been due for `RT_TICK_MAX / 2` ticks or more, up
to full turns of the tick. -/
def Untied (s : DelayedState τ) : WorkStep τ → Prop
  | .submitWork work ticks =>
      ticks ≠ 0 → ticks < rtTickHalf → ∀ other ∈ s.work.queue.delayedItems, other ≠ work →
        ∀ d ∈ s.delayed other, d.deadline ≠ s.now + ticks
  | .workerLook =>
      s.work.queue.workCurrent = none → ∀ other ∈ s.work.queue.delayedItems,
        ∀ d ∈ s.delayed other, d.deadline ≤ s.now →
          (s.now - d.deadline) % wordSize < rtTickHalf
  | _ => True

end Runs

/-! ## The order as an invariant -/

section Invariant

/-- The lists, with deadlines that agree with `timeout_tick` and lie within
`RT_TICK_MAX / 2` of each other. -/
structure Timed (s : DelayedState τ) (ws ds : List τ) : Prop where
  lists : Lists s.work.queue.links ws ds
  tick : s.work.tick = s.now % wordSize
  due : ∀ w ∈ ds, ∃ d ∈ s.delayed w,
    s.work.queue.timeoutTick w = d.deadline % wordSize ∧ d.deadline < s.now + rtTickHalf
  serial : ∀ w, ∀ d ∈ s.delayed w, d.serial < s.count
  sorted : ds.Pairwise fun a b => ∀ d ∈ s.delayed a, ∀ e ∈ s.delayed b,
    d.deadline ≤ e.deadline ∧ e.deadline ≤ d.deadline + rtTickHalf
  inTurn : (ws ++ ds).Pairwise s.InTurn

variable {s : DelayedState τ} {ws ds ws' ds' : List τ} {work : τ}

/-- Later ticks of a window are those not behind, also when they have wrapped. -/
theorem wordSub_mod_lt_half_iff {a b : Nat} (hab : a < b + rtTickHalf)
    (hba : b ≤ a + rtTickHalf) :
    wordSub (a % wordSize) (b % wordSize) < rtTickHalf ↔ b ≤ a := by
  unfold wordSub wordSize rtTickHalf at *
  omega

/-- A step that at most takes items away. -/
theorem Timed.shrink {next : WorkState τ} (h : s.Timed ws ds)
    (hlists : Lists next.queue.links ws' ds') (htick : next.tick = s.work.tick)
    (htimeout : next.queue.timeoutTick = s.work.queue.timeoutTick) (hds : ds'.Sublist ds)
    (hwhole : (ws' ++ ds').Sublist (ws ++ ds)) : { s with work := next }.Timed ws' ds' where
  lists := hlists
  tick := htick.trans h.tick
  due w hw := by
    rw [htimeout]
    exact h.due w (hds.subset hw)
  serial := h.serial
  sorted := h.sorted.sublist hds
  inTurn := h.inTurn.sublist hwhole

variable [DecidableEq τ]

@[simp] theorem forget_delayed_self {next : WorkState τ} :
    (s.forget work next).delayed work = none := Function.update_self _ _ _

theorem forget_delayed_of_ne {next : WorkState τ} {w : τ} (h : w ≠ work) :
    (s.forget work next).delayed w = s.delayed w := Function.update_of_ne h _ _

@[simp] theorem submit_delayed_self {ticks : Nat} {next : WorkState τ} :
    (s.submit work ticks next).delayed work = some ⟨s.count, s.now + ticks⟩ :=
  Function.update_self _ _ _

theorem submit_delayed_of_ne {ticks : Nat} {next : WorkState τ} {w : τ} (h : w ≠ work) :
    (s.submit work ticks next).delayed w = s.delayed w := Function.update_of_ne h _ _

theorem timed_start (now : Nat) : (start (τ := τ) now).Timed [] [] where
  lists := (kept_start _).1.lists
  tick := rfl
  due w hw := absurd hw List.not_mem_nil
  serial w d hd := by cases hd
  sorted := .nil
  inTurn := .nil

/-- A step after which one item waits for no deadline. -/
theorem Timed.forget {next : WorkState τ} (h : s.Timed ws ds)
    (hlists : Lists next.queue.links ws' ds') (htick : next.tick = s.work.tick)
    (htimeout : next.queue.timeoutTick = s.work.queue.timeoutTick) (hwork : work ∉ ds')
    (hds : ds'.Sublist ds)
    (hwhole : ((ws' ++ ds').filter (· ≠ work)).Sublist (ws ++ ds)) :
    (s.forget work next).Timed ws' ds' := by
  have hne : ∀ w, ∀ d ∈ (s.forget work next).delayed w, w ≠ work := by
    intro w d hd heq
    rw [heq, forget_delayed_self] at hd
    cases hd
  constructor
  · exact hlists
  · exact htick.trans h.tick
  · intro w hw
    have hw' : w ≠ work := fun heq => hwork (heq ▸ hw)
    rw [forget_delayed_of_ne hw',
      show (s.forget work next).work.queue.timeoutTick = _ from htimeout]
    exact h.due w (hds.subset hw)
  · intro w d hd
    rw [forget_delayed_of_ne (hne w d hd)] at hd
    exact h.serial w d hd
  · refine (h.sorted.sublist hds).imp fun {a b} hab d hd e he => ?_
    rw [forget_delayed_of_ne (hne a d hd)] at hd
    rw [forget_delayed_of_ne (hne b e he)] at he
    exact hab d hd e he
  · have hold := h.inTurn.sublist hwhole
    rw [List.pairwise_filter] at hold
    refine hold.imp fun {a b} hab d hd e he => ?_
    have ha := hne a d hd
    have hb := hne b e he
    rw [forget_delayed_of_ne ha] at hd
    rw [forget_delayed_of_ne hb] at he
    exact hab (decide_eq_true ha) (decide_eq_true hb) d hd e he

/-- The other items when one is moved to the front or to the back of `work_list`. -/
theorem others_sublist (work : τ) (ws ds : List τ) :
    ((work :: ws.erase work ++ ds.erase work).filter (· ≠ work)).Sublist (ws ++ ds) ∧
      ((ws.erase work ++ [work] ++ ds.erase work).filter (· ≠ work)).Sublist (ws ++ ds) := by
  have hold : ((ws.erase work ++ ds.erase work).filter (· ≠ work)).Sublist (ws ++ ds) :=
    List.filter_sublist.trans (List.erase_sublist.append List.erase_sublist)
  constructor
  · rwa [List.cons_append, List.filter_cons_of_neg (by simp)]
  · rw [List.filter_append, List.filter_append, List.filter_cons_of_neg (by simp),
      List.filter_nil, List.append_nil, ← List.filter_append]
    exact hold

/-- The items in front of the new one have earlier deadlines, those behind it have not. -/
theorem Timed.split {xs ys : List τ} {ticks : Nat} (h : s.Timed ws ds)
    (hsplit : ds.erase work = xs ++ ys)
    (hxs : ∀ w ∈ xs, ¬ wordSub (s.work.queue.timeoutTick w)
      ((s.work.tick + ticks) % wordSize) < rtTickHalf)
    (hys : ∀ w ∈ ys.head?, wordSub (s.work.queue.timeoutTick w)
      ((s.work.tick + ticks) % wordSize) < rtTickHalf)
    (hwindow : ∀ w ∈ ds, w ≠ work → ∀ d ∈ s.delayed w,
      d.deadline ≤ s.now + ticks + rtTickHalf ∧ s.now + ticks ≤ d.deadline + rtTickHalf) :
    (∀ w ∈ xs, ∀ d ∈ s.delayed w, d.deadline < s.now + ticks) ∧
      ∀ w ∈ ys, ∀ d ∈ s.delayed w, s.now + ticks ≤ d.deadline := by
  have hmod : (s.work.tick + ticks) % wordSize = (s.now + ticks) % wordSize := by
    rw [h.tick, Nat.mod_add_mod]
  rw [hmod] at hxs hys
  have hmem : ∀ w ∈ xs ++ ys, w ∈ ds ∧ w ≠ work := by
    intro w hw
    rw [← hsplit] at hw
    have hnodup := (ring_nodup h.lists.delayed).mem_erase_iff.mp hw
    exact ⟨hnodup.2, hnodup.1⟩
  have hafter : ∀ w ∈ xs ++ ys, ∀ d ∈ s.delayed w,
      wordSub (s.work.queue.timeoutTick w) ((s.now + ticks) % wordSize) < rtTickHalf ↔
        s.now + ticks ≤ d.deadline := by
    intro w hw d hd
    obtain ⟨hds, hne⟩ := hmem w hw
    obtain ⟨d', hd', htimeout, hsoon⟩ := h.due w hds
    obtain rfl : d = d' := Option.some.inj (hd.symm.trans hd')
    rw [htimeout]
    exact wordSub_mod_lt_half_iff (by omega) (hwindow w hds hne d hd).2
  refine ⟨fun w hw d hd => ?_, fun w hw d hd => ?_⟩
  · have hback := mt (hafter w (List.mem_append_left ys hw) d hd).mpr (hxs w hw)
    omega
  · cases ys with
    | nil => cases hw
    | cons first rest =>
      have hin : first ∈ xs ++ first :: rest :=
        List.mem_append_right xs List.mem_cons_self
      obtain ⟨e, he, -⟩ := h.due first (hmem first hin).1
      have hfirst := (hafter first hin e he).mp (hys first rfl)
      rcases List.mem_cons.mp hw with rfl | hrest
      · obtain rfl : d = e := Option.some.inj (hd.symm.trans he)
        exact hfirst
      · have hsorted : (xs ++ first :: rest).Pairwise _ :=
          hsplit ▸ h.sorted.sublist List.erase_sublist
        have htail := (List.pairwise_append.mp hsorted).2.1
        have hle := ((List.pairwise_cons.mp htail).1 w hrest e he d hd).1
        exact hfirst.trans hle

/-- In its place, a new item keeps the order if no other item has its deadline. -/
theorem Timed.submit {next : WorkState τ} {xs ys : List τ} {ticks : Nat} (h : s.Timed ws ds)
    (hlists : Lists next.queue.links (ws.erase work) (xs ++ work :: ys))
    (htick : next.tick = s.work.tick)
    (htimeout : next.queue.timeoutTick =
      Function.update s.work.queue.timeoutTick work ((s.work.tick + ticks) % wordSize))
    (hticks : ticks < rtTickHalf) (hsplit : ds.erase work = xs ++ ys)
    (hxs : ∀ w ∈ xs, ∀ d ∈ s.delayed w, d.deadline < s.now + ticks)
    (hys : ∀ w ∈ ys, ∀ d ∈ s.delayed w, s.now + ticks < d.deadline)
    (hwindow : ∀ w ∈ ds, w ≠ work → ∀ d ∈ s.delayed w,
      d.deadline ≤ s.now + ticks + rtTickHalf ∧ s.now + ticks ≤ d.deadline + rtTickHalf) :
    (s.submit work ticks next).Timed (ws.erase work) (xs ++ work :: ys) := by
  have hmem : ∀ w ∈ xs ++ ys, w ∈ ds ∧ w ≠ work := by
    intro w hw
    rw [← hsplit] at hw
    have hnodup := (ring_nodup h.lists.delayed).mem_erase_iff.mp hw
    exact ⟨hnodup.2, hnodup.1⟩
  have hws : ∀ w ∈ ws.erase work, w ≠ work := fun w hw =>
    ((ring_nodup h.lists.work).mem_erase_iff.mp hw).1
  have hmid : ∀ w ∈ xs ++ work :: ys, w = work ∨ w ∈ xs ++ ys := by
    intro w hw
    simp only [List.mem_append, List.mem_cons] at hw ⊢
    tauto
  -- the new item against those that were there
  have hpairs : ∀ {R R' : τ → τ → Prop} {zs : List τ}, (zs ++ (xs ++ ys)).Pairwise R →
      (∀ a ∈ zs ++ (xs ++ ys), ∀ b ∈ zs ++ (xs ++ ys), R a b → R' a b) →
      (∀ a ∈ zs ++ xs, R' a work) → (∀ b ∈ ys, R' work b) →
      (zs ++ (xs ++ work :: ys)).Pairwise R' := by
    intro R R' zs hR himp hbefore hbehind
    have hR' := hR.imp_of_mem fun {a b} ha hb hab => himp a ha b hb hab
    rw [← List.append_assoc] at hR' ⊢
    rw [List.pairwise_append] at hR' ⊢
    refine ⟨hR'.1, List.pairwise_cons.mpr ⟨hbehind, hR'.2.1⟩, fun a ha b hb => ?_⟩
    rcases List.mem_cons.mp hb with rfl | hb
    · exact hbefore a ha
    · exact hR'.2.2 a ha b hb
  constructor
  · exact hlists
  · exact htick.trans h.tick
  · intro w hw
    rw [show (s.submit work ticks next).work.queue.timeoutTick = _ from htimeout]
    rcases hmid w hw with rfl | hold
    · refine ⟨_, submit_delayed_self, ?_, Nat.add_lt_add_left hticks s.now⟩
      rw [Function.update_self, h.tick, Nat.mod_add_mod]
    · obtain ⟨hds, hne⟩ := hmem w hold
      rw [submit_delayed_of_ne hne, Function.update_of_ne hne]
      exact h.due w hds
  · intro w d hd
    by_cases hw : w = work
    · rw [hw, submit_delayed_self] at hd
      obtain rfl := Option.some.inj hd
      exact Nat.lt_succ_self _
    · rw [submit_delayed_of_ne hw] at hd
      exact Nat.lt_succ_of_lt (h.serial w d hd)
  · have hold := h.sorted.sublist (List.erase_sublist (a := work))
    rw [hsplit] at hold
    refine @hpairs _ _ [] hold (fun a ha b hb hab => ?_) (fun a ha d hd e he => ?_)
      fun b hb d hd e he => ?_
    · rwa [submit_delayed_of_ne (hmem a ha).2, submit_delayed_of_ne (hmem b hb).2]
    · have hin := hmem a (List.mem_append_left ys ha)
      rw [submit_delayed_of_ne hin.2] at hd
      rw [submit_delayed_self] at he
      obtain rfl := Option.some.inj he
      exact ⟨(hxs a ha d hd).le, (hwindow a hin.1 hin.2 d hd).2⟩
    · have hin := hmem b (List.mem_append_right xs hb)
      rw [submit_delayed_of_ne hin.2] at he
      rw [submit_delayed_self] at hd
      obtain rfl := Option.some.inj hd
      exact ⟨(hys b hb e he).le, (hwindow b hin.1 hin.2 e he).1⟩
  · have hold := h.inTurn.sublist
      ((List.erase_sublist (a := work) (l := ws)).append (List.erase_sublist (a := work) (l := ds)))
    rw [hsplit] at hold
    have hne : ∀ w ∈ ws.erase work ++ (xs ++ ys), w ≠ work := fun w hw =>
      (List.mem_append.mp hw).elim (hws w) fun hin => (hmem w hin).2
    refine hpairs hold (fun a ha b hb hab => ?_) (fun a ha d hd e he hsame => ?_)
      fun b hb d hd e he hsame => ?_
    · intro d hd e he
      rw [submit_delayed_of_ne (hne a ha)] at hd
      rw [submit_delayed_of_ne (hne b hb)] at he
      exact hab d hd e he
    · rw [← List.append_assoc] at hne
      rw [submit_delayed_of_ne (hne a (List.mem_append_left ys ha))] at hd
      rw [submit_delayed_self] at he
      obtain rfl := Option.some.inj he
      exact h.serial a d hd
    · have hin := hmem b (List.mem_append_right xs hb)
      rw [submit_delayed_of_ne hin.2] at he
      rw [submit_delayed_self] at hd
      obtain rfl := Option.some.inj hd
      exact absurd hsame (hys b hb e he).ne

/-- Behind the new item there is none with its deadline when the order is kept. -/
theorem Timed.untied {next : WorkState τ} {zs xs ys : List τ} {ticks : Nat} (h : s.Timed ws ds)
    (hturn : (zs ++ (xs ++ work :: ys)).Pairwise (s.submit work ticks next).InTurn)
    {w : τ} (hw : w ∈ ys) (hne : w ≠ work) {d : Delayed} (hd : d ∈ s.delayed w) :
    d.deadline ≠ s.now + ticks := by
  intro hsame
  have hafter := (List.pairwise_append.mp (List.pairwise_append.mp hturn).2.1).2.1
  have hpair := (List.pairwise_cons.mp hafter).1 w hw
  have hlater := hpair _ submit_delayed_self d (by rwa [submit_delayed_of_ne hne]) hsame.symm
  exact absurd (h.serial w d hd) (Nat.not_lt.mpr hlater.le)

end Invariant

end DelayedState

/-! ## The worker -/

section Worker

variable {τ : Type*}

theorem Lists.nodup_append {L : Links (ListNode τ)} {ws ds : List τ} (h : Lists L ws ds) :
    (ws ++ ds).Nodup :=
  List.nodup_append.mpr ⟨ring_nodup h.work, ring_nodup h.delayed, fun a ha _ hb heq =>
    h.apart a ha (heq ▸ hb)⟩

variable [DecidableEq τ] [Fintype τ]

/-- What the locked part of `_workqueue_thread_entry` makes of the lists `ws` and
`moved ++ rest`. -/
structure RtWorkqueue.Looked (queue : RtWorkqueue τ) (now : Nat) (ws moved rest : List τ) :
    Prop where
  first : (queue.takeWork now).1 = (ws ++ moved).head?
  lists : Lists (queue.takeWork now).2.links (ws ++ moved).tail rest
  timeout : (queue.takeWork now).2.timeoutTick = queue.timeoutTick
  due : ∀ w ∈ moved, wordSub now (queue.timeoutTick w) < rtTickHalf
  notDue : ∀ w ∈ rest.head?, ¬ wordSub now (queue.timeoutTick w) < rtTickHalf
  delay : queue.delayTick now =
    (rest.head?.map fun w => tickDelay (queue.timeoutTick w) now).getD rtWaitingForever

theorem RtWorkqueue.looked {queue : RtWorkqueue τ} {ws ds : List τ} (now : Nat)
    (h : Lists queue.links ws ds) :
    ∃ moved rest, ds = moved ++ rest ∧ queue.Looked now ws moved rest := by
  obtain ⟨moved, rest, rfl, hmoves, hdue, hnot⟩ := moves_timerCheck now (Fintype.card τ) h
  refine ⟨moved, rest, rfl, ?_⟩
  have hwork := hmoves.lists.work.next_head
  have hdelayed := hmoves.lists.delayed.next_head
  have hsame : (timerCheck now (Fintype.card τ) queue).timeoutTick = queue.timeoutTick :=
    timeoutTick_timerCheck now _ queue
  have hdelay : queue.delayTick now =
      (rest.head?.map fun w => tickDelay (queue.timeoutTick w) now).getD rtWaitingForever := by
    unfold delayTick
    dsimp only
    generalize timerCheck now (Fintype.card τ) queue = checked at hdelayed hsame ⊢
    rw [hsame]
    cases rest with
    | nil =>
      have hempty : checked.links.next .delayedList = .delayedList := hdelayed
      rw [hempty, List.head?_nil, Option.map_none, Option.getD_none]
    | cons w rest =>
      have hfirst : checked.links.next .delayedList = .item w := hdelayed
      rw [hfirst, List.head?_cons, Option.map_some, Option.getD_some]
  have hnot := hnot (ring_nodup h.delayed).length_le_card
  generalize htaken : ws ++ moved = ready at hmoves hwork
  cases ready with
  | nil =>
    have hempty : (timerCheck now (Fintype.card τ) queue).links.next .workList = .workList :=
      hwork
    have htake : queue.takeWork now = (none, timerCheck now (Fintype.card τ) queue) := by
      simp only [takeWork, hempty]
    constructor
    · rw [htake, htaken, List.head?_nil]
    · rw [htake, htaken]
      exact hmoves.lists
    · rw [htake]
      exact hsame
    · exact hdue
    · exact hnot
    · exact hdelay
  | cons work tail =>
    have hfirst : (timerCheck now (Fintype.card τ) queue).links.next .workList = .item work :=
      hwork
    have hapart : work ∉ rest := hmoves.lists.apart work List.mem_cons_self
    have hlists := hmoves.lists.remove work
    rw [List.erase_cons_head, List.erase_of_not_mem hapart] at hlists
    have htake : (queue.takeWork now).1 = some work ∧
        (queue.takeWork now).2.links =
          (timerCheck now (Fintype.card τ) queue).links.remove (.item work) ∧
        (queue.takeWork now).2.timeoutTick =
          (timerCheck now (Fintype.card τ) queue).timeoutTick := by
      simp only [takeWork, hfirst]
      exact ⟨trivial, rfl, rfl⟩
    obtain ⟨hsome, hlinks, htimeout⟩ := htake
    constructor
    · rw [hsome, htaken, List.head?_cons]
    · rw [hlinks, htaken]
      exact hlists
    · exact htimeout.trans hsame
    · exact hdue
    · exact hnot
    · exact hdelay

end Worker

/-! ## The order in every run -/

namespace DelayedState

section Steps

variable {τ : Type*} [DecidableEq τ] [Fintype τ] {s mid : DelayedState τ} {ws ds : List τ}

theorem wordSub_mod_mod {now deadline : Nat} (h : deadline ≤ now) :
    wordSub (now % wordSize) (deadline % wordSize) = (now - deadline) % wordSize := by
  unfold wordSub wordSize
  omega

theorem bmod_of_lt_half {x size : Nat} (h : 2 * x < size) : Int.bmod x size = x :=
  Int.bmod_eq_of_le (by omega) (by omega)

theorem tickDelay_mod_mod {now deadline : Nat} (h : now < deadline)
    (hsoon : deadline < now + rtTickHalf) :
    tickDelay (deadline % wordSize) (now % wordSize) = deadline - now := by
  have hlt : 2 * (deadline - now) < wordSize := by
    unfold wordSize rtTickHalf at *
    omega
  have hsub : wordSub (deadline % wordSize) (now % wordSize) = deadline - now := by
    rw [wordSub_mod_mod h.le]
    exact Nat.mod_eq_of_lt (by omega)
  unfold tickDelay
  rw [hsub]
  exact (bmod_of_lt_half hlt).trans (Int.ofNat_sub h.le)

theorem Timed.ordered (h : s.Timed ws ds) : s.Ordered where
  sorted := by
    rw [RtWorkqueue.delayedItems_eq h.lists]
    refine h.sorted.imp_of_mem fun {a b} ha hb hab => ?_
    obtain ⟨d, hd, hda, -⟩ := h.due a ha
    obtain ⟨e, he, heb, -⟩ := h.due b hb
    obtain ⟨hle, hwindow⟩ := hab d hd e he
    rw [hda, heb]
    unfold wordSub wordSize rtTickHalf at *
    omega
  inTurn := by
    rw [RtWorkqueue.workItems_eq h.lists, RtWorkqueue.delayedItems_eq h.lists]
    exact h.inTurn

/-- The worker takes the first item, and leaves the others as they are. -/
theorem Timed.look {next : WorkState τ} {moved rest : List τ} (h : s.Timed ws (moved ++ rest))
    (hlook : s.work.queue.Looked s.work.tick ws moved rest)
    (hnext : next.queue = (s.work.queue.takeWork s.work.tick).2)
    (htick : next.tick = s.work.tick) :
    (s.observe next .workerLook).Timed (ws ++ moved).tail rest := by
  have hnodup := h.lists.nodup_append
  have hwhole := (List.append_assoc ws moved rest).symm
  have hrest : rest.Sublist (moved ++ rest) := List.sublist_append_right moved rest
  have hlists := hlook.lists
  have htimeout := hlook.timeout
  rw [← hnext] at hlists htimeout
  rw [hwhole] at hnodup
  simp only [observe, hlook.first]
  cases hready : ws ++ moved with
  | nil =>
    rw [hready] at hlists hwhole
    exact h.shrink hlists htick htimeout hrest (hwhole ▸ List.Sublist.refl _)
  | cons work tail =>
    rw [hready] at hlists hwhole hnodup
    have hnot : work ∉ tail ++ rest := (List.nodup_cons.mp hnodup).1
    refine h.forget hlists htick htimeout (fun hmem => hnot (List.mem_append_right tail hmem))
      hrest ?_
    rw [hwhole, List.tail_cons]
    exact List.filter_sublist.trans (List.sublist_cons_self work _)

/-- What has been due is gone after the timer check, unless for too long. -/
theorem Timed.remaining {moved rest : List τ} (h : s.Timed ws (moved ++ rest))
    (hlook : s.work.queue.Looked s.work.tick ws moved rest)
    (hfresh : ∀ w ∈ moved ++ rest, ∀ d ∈ s.delayed w, d.deadline ≤ s.now →
      (s.now - d.deadline) % wordSize < rtTickHalf) :
    ∀ w ∈ rest.head?, ∃ d ∈ s.delayed w,
      s.now < d.deadline ∧ s.work.queue.delayTick s.work.tick = d.deadline - s.now := by
  intro w hw
  have hin : w ∈ moved ++ rest := List.mem_append_right moved (List.mem_of_mem_head? hw)
  obtain ⟨d, hd, htimeout, hsoon⟩ := h.due w hin
  have hnot := hlook.notDue w hw
  have hlate := hfresh w hin d hd
  rw [h.tick, htimeout] at hnot
  have hbefore : s.now < d.deadline := by
    by_contra hdue
    have hle : d.deadline ≤ s.now := Nat.le_of_not_lt hdue
    rw [wordSub_mod_mod hle] at hnot
    exact hnot (hlate hle)
  refine ⟨d, hd, hbefore, ?_⟩
  rw [hlook.delay, Option.mem_def.mp hw, Option.map_some, Option.getD_some, h.tick, htimeout]
  exact tickDelay_mod_mod hbefore hsoon

/-- The look of the worker in order, when no item has been due for too long. -/
theorem Timed.lookRight {moved rest : List τ} (h : s.Timed ws (moved ++ rest))
    (hlook : s.work.queue.Looked s.work.tick ws moved rest)
    (hmid : mid.work.queue.delayedItems = rest)
    (hremaining : ∀ w ∈ rest.head?, ∃ d ∈ s.delayed w,
      s.now < d.deadline ∧ s.work.queue.delayTick s.work.tick = d.deadline - s.now) :
    s.LookRight mid where
  taken work hwork other hother hne := by
    rw [RtWorkqueue.workItems_eq h.lists, RtWorkqueue.delayedItems_eq h.lists,
      ← List.append_assoc] at hother
    have hturn := h.inTurn
    rw [← List.append_assoc] at hturn
    rw [hlook.first] at hwork
    cases hready : ws ++ moved with
    | nil =>
      rw [hready] at hwork
      cases hwork
    | cons first tail =>
      rw [hready] at hwork hturn hother
      obtain rfl : first = work := by simpa using hwork
      have hafter : other ∈ tail ++ rest := (List.mem_cons.mp hother).resolve_left hne
      exact (List.pairwise_cons.mp hturn).1 other hafter
  forever hempty := by
    rw [hlook.delay, ← hmid, hempty]
    rfl
  remaining := by
    rw [hmid]
    exact hremaining

/-- Every step but the submissions and the looks of the worker. -/
theorem Timed.step_other {a : WorkStep τ} {next : WorkState τ} (h : s.Timed ws ds)
    (hstep : workqueueMachine.step s.work a = some next)
    (hsubmit : ∀ work ticks, ticks ≠ 0 → a ≠ .submitWork work ticks) (hlook : a ≠ .workerLook) :
    ∃ ws' ds', (s.observe next a).Timed ws' ds' := by
  have hlists := h.lists
  have hws : ∀ work, work ∉ ds.erase work := fun work =>
    not_mem_erase_self (ring_nodup hlists.delayed)
  cases a with
  | dowork work =>
    obtain rfl := Option.some.inj hstep
    have hmoves := RtWorkqueue.moves_dowork hlists s.work.tick work
    exact ⟨_, _, h.forget hmoves.lists rfl rfl (hws work) List.erase_sublist
      (others_sublist work ws ds).2⟩
  | submitWork work ticks =>
    obtain rfl : ticks = 0 := by
      by_contra hzero
      exact hsubmit work ticks hzero rfl
    obtain rfl : _ = next := by simpa [workqueueMachine, rtTickHalf] using hstep
    have hmoves := RtWorkqueue.moves_dowork hlists s.work.tick work
    exact ⟨_, _, h.forget hmoves.lists rfl rfl (hws work) List.erase_sublist
      (others_sublist work ws ds).2⟩
  | urgentWork work =>
    obtain rfl := Option.some.inj hstep
    exact ⟨_, _, h.forget (RtWorkqueue.lists_urgentWork hlists work) rfl rfl (hws work)
      List.erase_sublist (others_sublist work ws ds).1⟩
  | cancelWork work =>
    obtain rfl := Option.some.inj hstep
    have hmoves := RtWorkqueue.moves_cancelWork hlists work
    exact ⟨_, _, h.forget hmoves.lists rfl rfl (hws work) List.erase_sublist
      (List.filter_sublist.trans (List.erase_sublist.append List.erase_sublist))⟩
  | cancelAllWork =>
    obtain rfl := Option.some.inj hstep
    have hmoves := RtWorkqueue.moves_cancelAllWork hlists
    exact ⟨[], [], hmoves.lists, h.tick, by simp, by simp [observe], .nil, .nil⟩
  | workerLook => exact absurd rfl hlook
  | workerDone =>
    cases hcurrent : s.work.queue.workCurrent with
    | none => simp [workqueueMachine, hcurrent] at hstep
    | some work =>
      obtain rfl : _ = next := by simpa [workqueueMachine, hcurrent] using hstep
      exact ⟨ws, ds, h.shrink hlists rfl rfl (.refl _) (.refl _)⟩
  | tick n =>
    obtain rfl := Option.some.inj hstep
    refine ⟨ws, ds, hlists, ?_, fun w hw => ?_, h.serial, h.sorted, h.inTurn⟩
    · change (s.work.tick + n) % wordSize = (s.now + n) % wordSize
      rw [h.tick, Nat.mod_add_mod]
    · obtain ⟨d, hd, htimeout, hsoon⟩ := h.due w hw
      exact ⟨d, hd, htimeout, lt_of_lt_of_le hsoon (by simp [observe])⟩

/-- A delayed submission keeps the order exactly when no other item has its deadline. -/
theorem Timed.step_submit {work : τ} {ticks : Nat} {next : WorkState τ} (h : s.Timed ws ds)
    (hzero : ticks ≠ 0) (hstep : workqueueMachine.step s.work (.submitWork work ticks) = some next)
    (hwindow : s.InWindow (.submitWork work ticks)) :
    (s.Untied (.submitWork work ticks) →
      ∃ ws' ds', (s.observe next (.submitWork work ticks)).Timed ws' ds') ∧
    ((s.observe next (.submitWork work ticks)).Ordered → s.Untied (.submitWork work ticks)) := by
  have hticks : ticks < rtTickHalf := by
    by_contra hlarge
    simp [workqueueMachine, hlarge] at hstep
  obtain rfl : _ = next := by simpa [workqueueMachine, hticks] using hstep
  obtain ⟨xs, ys, hsplit, hmoves, hxs, hys⟩ :=
    RtWorkqueue.moves_submitWork h.lists s.work.tick work hzero hticks
  have hdelayed := RtWorkqueue.delayedItems_eq h.lists
  have hnear : ∀ w ∈ ds, w ≠ work → ∀ d ∈ s.delayed w,
      d.deadline ≤ s.now + ticks + rtTickHalf ∧ s.now + ticks ≤ d.deadline + rtTickHalf := by
    rw [← hdelayed]
    exact hwindow hzero
  obtain ⟨hbefore, hbehind⟩ := h.split hsplit hxs hys hnear
  have hmem : ∀ w, w ∈ xs ++ ys ↔ w ≠ work ∧ w ∈ ds := by
    rw [← hsplit]
    exact fun w => (ring_nodup h.lists.delayed).mem_erase_iff
  simp only [observe, if_neg hzero]
  constructor
  · intro huntied
    have hfresh := huntied hzero hticks
    rw [hdelayed] at hfresh
    refine ⟨_, _, h.submit hmoves.lists rfl ?_ hticks hsplit hbefore (fun w hw d hd => ?_) hnear⟩
    · simp only [RtWorkqueue.submitWork, if_neg hzero, if_pos hticks]
      rfl
    · obtain ⟨hne, hin⟩ := (hmem w).mp (List.mem_append_right xs hw)
      exact lt_of_le_of_ne (hbehind w hw d hd) (hfresh w hin hne d hd).symm
  · intro hordered _ _ w hw hne d hd
    have hturn := hordered.inTurn
    simp only [DelayedState.submit] at hturn
    rw [RtWorkqueue.workItems_eq hmoves.lists, RtWorkqueue.delayedItems_eq hmoves.lists] at hturn
    rw [hdelayed] at hw
    rcases List.mem_append.mp ((hmem w).mpr ⟨hne, hw⟩) with hfront | hback
    · exact (hbefore w hfront d hd).ne
    · exact h.untied hturn hback hne hd

/-- A look of the worker is in order exactly when no item has been due for too long. -/
theorem Timed.step_look {next : WorkState τ} (h : s.Timed ws ds)
    (hstep : workqueueMachine.step s.work .workerLook = some next) :
    (∃ ws' ds', (s.observe next .workerLook).Timed ws' ds') ∧
      (s.LookRight (s.observe next .workerLook) ↔ s.Untied .workerLook) := by
  obtain ⟨moved, rest, rfl, hlook⟩ := RtWorkqueue.looked s.work.tick h.lists
  have hdelayed := RtWorkqueue.delayedItems_eq h.lists
  cases hcurrent : s.work.queue.workCurrent with
  | some work => simp [workqueueMachine, hcurrent] at hstep
  | none =>
    have hnext : next.queue = (s.work.queue.takeWork s.work.tick).2 ∧
        next.tick = s.work.tick := by
      simp only [workqueueMachine, hcurrent] at hstep
      obtain rfl := Option.some.inj hstep
      exact ⟨rfl, rfl⟩
    have hmid := h.look hlook hnext.1 hnext.2
    have hrest := RtWorkqueue.delayedItems_eq hmid.lists
    refine ⟨⟨_, _, hmid⟩, fun hright _ => ?_, fun huntied => ?_⟩
    · have hremaining := hright.remaining
      rw [hrest] at hremaining
      rw [hdelayed]
      intro w hw d hd hdue
      obtain ⟨d', hd', htimeout, -⟩ := h.due w hw
      obtain rfl : d = d' := Option.some.inj (hd.symm.trans hd')
      rcases List.mem_append.mp hw with hmoved | hkept
      · have hpassed := hlook.due w hmoved
        rwa [h.tick, htimeout, wordSub_mod_mod hdue] at hpassed
      · -- an item that stays is not due, as the first that stays is not
        cases rest with
        | nil => cases hkept
        | cons first rest =>
          obtain ⟨e, he, hlater, -⟩ := hremaining first rfl
          have hsorted := (List.pairwise_append.mp h.sorted).2.1
          rcases List.mem_cons.mp hkept with rfl | htail
          · obtain rfl : d = e := Option.some.inj (hd.symm.trans he)
            omega
          · have hle := ((List.pairwise_cons.mp hsorted).1 w htail e he d hd).1
            omega
    · have hfresh := huntied hcurrent
      rw [hdelayed] at hfresh
      exact h.lookRight hlook hrest (h.remaining hlook hfresh)

end Steps

section Order

variable {τ : Type*} [DecidableEq τ] [Fintype τ] {s mid : DelayedState τ} {ws ds : List τ}

theorem step_eq_some {a : WorkStep τ} (hstep : machine.step s a = some mid) :
    ∃ next, workqueueMachine.step s.work a = some next ∧ mid = s.observe next a := by
  obtain ⟨next, hnext, rfl⟩ := Option.map_eq_some_iff.mp hstep
  exact ⟨next, hnext, rfl⟩

/-- An untied step keeps the order. -/
theorem Timed.step {a : WorkStep τ} (h : s.Timed ws ds) (hwindow : s.InWindow a)
    (huntied : s.Untied a) (hstep : machine.step s a = some mid) :
    (∃ ws' ds', mid.Timed ws' ds') ∧ (a = .workerLook → s.LookRight mid) := by
  obtain ⟨next, hnext, rfl⟩ := step_eq_some hstep
  cases a with
  | submitWork work ticks =>
    refine ⟨?_, fun hlook => by cases hlook⟩
    by_cases hzero : ticks = 0
    · subst hzero
      refine h.step_other hnext (fun w n hn heq => ?_) (by simp)
      exact hn (WorkStep.submitWork.inj heq).2.symm
    · exact (h.step_submit hzero hnext hwindow).1 huntied
  | workerLook =>
    obtain ⟨hmid, hright⟩ := h.step_look hnext
    exact ⟨hmid, fun _ => hright.mpr huntied⟩
  | dowork | urgentWork | cancelWork | cancelAllWork | workerDone | tick =>
    exact ⟨h.step_other hnext (by simp) (by simp), fun hlook => by cases hlook⟩

/-- In every run whose delayed submissions keep their deadlines within `RT_TICK_MAX / 2` of
each other, `delayed_list` is sorted, items of one deadline are moved and executed in the
order of their submissions, and the worker waits for the first deadline, exactly when no
delayed submission has a deadline that is in `delayed_list` already and the worker looks
before an item there has been due for `RT_TICK_MAX / 2` ticks. -/
theorem delayedWork_iff (now : Nat) (schedule : List (WorkStep τ))
    (hwindow : machine.Admitted InWindow (start now) schedule) :
    machine.AllSteps OrderRight (start now) schedule ↔
      machine.Admitted Untied (start now) schedule := by
  refine Machine.allSteps_iff_admitted_within (I := fun s => ∃ ws ds, s.Timed ws ds)
    ?_ ?_ schedule ⟨[], [], timed_start now⟩ hwindow
  · rintro s a ⟨ws, ds, h⟩ hnear
    refine ⟨fun hall => ?_, fun huntied mid hstep => ?_⟩
    · cases a with
      | submitWork work ticks =>
        intro hzero hticks
        have hnext : workqueueMachine.step s.work (.submitWork work ticks) = some _ :=
          if_pos hticks
        have hright := hall _ (Option.map_eq_some_iff.mpr ⟨_, hnext, rfl⟩)
        exact (h.step_submit hzero hnext hnear).2 hright.1 hzero hticks
      | workerLook =>
        intro hcurrent
        have hnext : ∃ next, workqueueMachine.step s.work .workerLook = some next := by
          simp [workqueueMachine, hcurrent]
        obtain ⟨next, hnext⟩ := hnext
        have hright := hall _ (Option.map_eq_some_iff.mpr ⟨_, hnext, rfl⟩)
        exact (h.step_look hnext).2.mp (hright.2 rfl) hcurrent
      | dowork | urgentWork | cancelWork | cancelAllWork | workerDone | tick => trivial
    · obtain ⟨⟨ws', ds', hmid⟩, hlook⟩ := h.step hnear huntied hstep
      exact ⟨hmid.ordered, hlook⟩
  · rintro s a mid hnear huntied hstep ⟨ws, ds, h⟩
    exact (h.step hnear huntied hstep).1

end Order

/-! ## Two items with one deadline -/

/-- Two items submitted for the same tick. -/
def twins : List (WorkStep Bool) := [.submitWork false 5, .submitWork true 5]

theorem twins_inWindow : machine.Admitted InWindow (start 0) twins := by
  refine ⟨fun _ other hother => ?_, fun mid hmid => ⟨fun _ other _ _ d hd => ?_, ?_⟩⟩
  · have hempty : (start (τ := Bool) 0).work.queue.delayedItems = [] := by decide
    rw [hempty] at hother
    cases hother
  · obtain rfl := Option.some.inj hmid
    cases other with
    | true => contradiction
    | false =>
      obtain rfl : Delayed.mk 0 5 = d := Option.some.inj hd
      change 5 ≤ 0 + 5 + rtTickHalf ∧ 0 + 5 ≤ 5 + rtTickHalf
      decide
  · exact fun _ _ => trivial

/-- The condition fails at the second submission, and so does the order. -/
theorem delayedWork_iff_twins :
    machine.AllSteps OrderRight (start 0) twins ↔ machine.Admitted Untied (start 0) twins :=
  delayedWork_iff 0 twins twins_inWindow

/-- The item submitted last stands, and is executed, first. -/
theorem not_delayedWork :
    machine.Admitted InWindow (start 0) twins ∧
      ¬ machine.AllSteps OrderRight (start 0) twins ∧
      (machine.exec (start 0) (twins ++ [.tick 5])).map
        (fun s => (s.work.queue.takeWork s.work.tick).1) = some (some true) := by
  refine ⟨twins_inWindow, fun hall => ?_, by decide⟩
  have hturn := ((hall _ rfl).2 _ rfl).1.1.inTurn
  have hlists : ∀ mid, machine.exec (start 0) twins = some mid →
      mid.work.queue.workItems ++ mid.work.queue.delayedItems = [true, false] := by
    intro mid hmid
    obtain rfl := Option.some.inj hmid
    decide
  rw [hlists _ rfl] at hturn
  have hpair := (List.pairwise_cons.mp hturn).1 false List.mem_cons_self
  exact absurd (hpair ⟨1, 5⟩ rfl ⟨0, 5⟩ rfl rfl) (by decide)

end DelayedState

end Gd32Vw553h.Ipc
