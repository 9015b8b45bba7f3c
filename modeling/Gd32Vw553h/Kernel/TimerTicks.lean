/-
  Kernel/TimerTicks.lean --- the earliest deadline (`rt_timer_check` and
  `rt_timer_next_timeout_tick` in `src/timer.c`).

  Both functions take the first timer of a list and compare its deadline with the tick, or
  with another deadline, as plain numbers; `_timer_check` and `_timer_start` compare them
  modulo the range of the tick.  `timerTicks_iff` says when the two agree, in every state
  that calls, ticks and checks lead to, provided that the deadlines lie within half the
  range of the tick.  The lists need not be sorted there, so only what is linked
  (`Threaded`) is an invariant; `timerTicks_ordered` is the result for lists in order.
-/
import Gd32Vw553h.Kernel.TimerCheck
import Mathlib.Data.List.MinMax

set_option autoImplicit false

namespace Gd32Vw553h.Kernel

open Gd32Vw553h.Foundation

/-! ## The code -/

section Code

variable {τ : Type*}

/-- `_timer_list_next_timeout`: the deadline, or `none` when the list is empty. -/
def TimerState.timerListNextTimeout (level : Nat) (s : TimerState τ) (soft : Bool) :
    Option Nat :=
  match s.links.next (.head (.timerList soft (level - 1))) with
  | .row t _ => some (s.timeoutTick t)
  | .head _ => none

/-- `rt_timer_next_timeout_tick` -/
def TimerState.rtTimerNextTimeoutTick (level : Nat) (s : TimerState τ) : Nat :=
  let htimerNextTimeout := (s.timerListNextTimeout level false).getD rtTickMax
  let stimerNextTimeout := (s.timerListNextTimeout level true).getD rtTickMax
  if htimerNextTimeout < stimerNextTimeout then htimerNextTimeout else stimerNextTimeout

variable [DecidableEq τ] [Fintype τ]

/-- `rt_timer_check`: whether it releases `_soft_timer_sem`, and the call of `_timer_check`
for the hard list. -/
def rtTimerCheck (level : Nat) (soft : τ → Bool) (s : CheckState τ) :
    Bool × Option (CheckState τ) :=
  let release :=
    match s.timers.timerListNextTimeout level true with
    | some nextTimeout => decide (nextTimeout ≤ s.timers.tick)
    | none => false
  (release, (checkMachine level soft).step s (.enter false))

end Code

/-! ## Deadlines around the tick -/

section Order

variable {τ : Type*} (s : TimerState τ)

/-- The deadline is less than half the range of the tick away from now, on either side. -/
def TimerState.Near (t : τ) : Prop :=
  wordSub (s.timeoutTick t) s.tick < rtTickHalf ∨ wordSub s.tick (s.timeoutTick t) < rtTickHalf

/-- The test of `_timer_check`. -/
def TimerState.Due (t : τ) : Prop := wordSub s.tick (s.timeoutTick t) < rtTickHalf

/-- Where a tick is in the range that begins `RT_TICK_MAX / 2` before now. -/
def TimerState.offset (tick : Nat) : Nat := wordSub tick (wordSub s.tick rtTickHalf)

/-- A timer of the list whose deadline no other one's is before. -/
def TimerState.First (ts : List τ) (t : τ) : Prop :=
  t ∈ ts ∧ ∀ u ∈ ts, s.offset (s.timeoutTick t) ≤ s.offset (s.timeoutTick u)

/-- In that range, the tick becomes zero between the two. -/
def TimerState.Straddles (a b : Nat) : Prop :=
  ¬ (a < wordSub s.tick rtTickHalf ↔ b < wordSub s.tick rtTickHalf)

instance TimerState.decidableNear (t : τ) : Decidable (s.Near t) := inferInstanceAs (Decidable (_ ∨ _))

instance TimerState.decidableDue (t : τ) : Decidable (s.Due t) := inferInstanceAs (Decidable (_ < _))

instance TimerState.decidableFirst [DecidableEq τ] (ts : List τ) (t : τ) :
    Decidable (s.First ts t) :=
  inferInstanceAs (Decidable (_ ∧ _))

instance TimerState.decidableStraddles (a b : Nat) : Decidable (s.Straddles a b) :=
  inferInstanceAs (Decidable (¬ _))

end Order

section Right

variable {τ : Type*} [DecidableEq τ] [Fintype τ] (level : Nat) (s : CheckState τ)

/-- The semaphore is released if the earliest soft timer is due, and only then. -/
def CheckState.CheckRight (soft : τ → Bool) : Prop :=
  (rtTimerCheck level soft s).1 = true ↔
    ∃ t, s.timers.First (s.timers.lastRow level true) t ∧ s.timers.Due t

/-- The timers of both lists. -/
def TimerState.active (s : TimerState τ) : List τ := s.lastRow level false ++ s.lastRow level true

/-- `rt_timer_next_timeout_tick` returns the earliest deadline of all. -/
def CheckState.NextRight : Prop :=
  ∀ t, s.timers.First (s.timers.active level) t →
    s.timers.rtTimerNextTimeoutTick level = s.timers.timeoutTick t

/-- The tick does not become zero between now and the deadline of the first soft timer, unless
that timer stands before one that is due without being due itself. -/
def CheckState.CheckInRange : Prop :=
  ∀ t, (s.timers.lastRow level true).head? = some t →
    (s.timers.Straddles (s.timers.timeoutTick t) s.timers.tick ↔
      ¬ s.timers.Due t ∧ ∃ u ∈ s.timers.lastRow level true, s.timers.Due u)

/-- The earliest timer is at the head of a list, and the tick does not become zero between its
deadline and that at the head of the other list. -/
def CheckState.NextInRange : Prop :=
  s.timers.active level ≠ [] → ∃ b t, (s.timers.lastRow level b).head? = some t ∧
    s.timers.First (s.timers.active level) t ∧
    ∀ u, (s.timers.lastRow level !b).head? = some u →
      ¬ s.timers.Straddles (s.timers.timeoutTick t) (s.timers.timeoutTick u)

end Right

/-! ## Ticks on a circle -/

/-- Two ticks compare like their distances from a third one, unless the tick becomes zero
between them. -/
theorem le_iff_wordSub_le {a b base : Nat} (ha : a < wordSize) (hb : b < wordSize)
    (hbase : base < wordSize) :
    a ≤ b ↔ ((a < base ↔ b < base) ↔ wordSub a base ≤ wordSub b base) := by
  unfold wordSub wordSize at *
  omega

theorem wordSub_half_self {tick : Nat} (h : tick < wordSize) :
    wordSub tick (wordSub tick rtTickHalf) = rtTickHalf := by
  unfold wordSub wordSize rtTickHalf at *
  omega

theorem due_iff_offset_le {tick d : Nat} (h : tick < wordSize) (hd : d < wordSize)
    (hnear : wordSub d tick < rtTickHalf ∨ wordSub tick d < rtTickHalf) :
    wordSub tick d < rtTickHalf ↔ wordSub d (wordSub tick rtTickHalf) ≤ rtTickHalf := by
  unfold wordSub wordSize rtTickHalf at *
  omega

section Circle

variable {τ : Type*} {s : TimerState τ}

/-- Two ticks compare as numbers like in the range around now, unless they straddle zero. -/
theorem le_iff_straddles {a b : Nat} (ha : a < wordSize) (hb : b < wordSize) :
    a ≤ b ↔ (¬ s.Straddles a b ↔ s.offset a ≤ s.offset b) := by
  have hbase : wordSub s.tick rtTickHalf < wordSize := Nat.mod_lt _ (by decide)
  rw [le_iff_wordSub_le ha hb hbase, TimerState.Straddles, not_not]
  exact Iff.rfl

theorem TimerState.Straddles.symm {a b : Nat} (h : s.Straddles a b) :
    s.Straddles b a := fun hiff => h hiff.symm

theorem TimerState.due_iff {t : τ} (htick : s.tick < wordSize) (ht : s.timeoutTick t < wordSize)
    (hnear : s.Near t) : s.Due t ↔ s.offset (s.timeoutTick t) ≤ s.offset s.tick := by
  rw [TimerState.Due, due_iff_offset_le htick ht hnear]
  unfold TimerState.offset
  rw [wordSub_half_self htick]

theorem TimerState.exists_first (s : TimerState τ) {ts : List τ} (h : ts ≠ []) :
    ∃ t, s.First ts t := by
  have hsome := mt (List.argmin_eq_none (f := fun t => s.offset (s.timeoutTick t))).mp h
  obtain ⟨t, ht⟩ := Option.ne_none_iff_exists'.mp hsome
  exact ⟨t, List.argmin_mem ht, fun u hu =>
    List.le_of_mem_argmin (f := fun t => s.offset (s.timeoutTick t)) hu ht⟩

/-- Two earliest timers have the same deadline. -/
theorem TimerState.First.timeoutTick_eq {ts : List τ} {t u : τ} (ht : s.First ts t)
    (hu : s.First ts u) (htimeout : ∀ t, s.timeoutTick t < wordSize) :
    s.timeoutTick t = s.timeoutTick u := by
  have hbase : wordSub s.tick rtTickHalf < wordSize := Nat.mod_lt _ (by decide)
  refine (wordSub_inj (htimeout t) (htimeout u) hbase).mp ?_
  exact Nat.le_antisymm (ht.2 u hu.1) (hu.2 t ht.1)

/-- The earliest timer is due when some timer is. -/
theorem first_due_iff {ts : List τ} (htick : s.tick < wordSize)
    (htimeout : ∀ t, s.timeoutTick t < wordSize) (hnear : ∀ t ∈ ts, s.Near t) :
    (∃ t, s.First ts t ∧ s.Due t) ↔ ∃ u ∈ ts, s.Due u := by
  constructor
  · rintro ⟨t, hfirst, hdue⟩
    exact ⟨t, hfirst.1, hdue⟩
  · rintro ⟨u, hu, hdue⟩
    obtain ⟨t, hfirst⟩ := s.exists_first (List.ne_nil_of_mem hu)
    refine ⟨t, hfirst, (TimerState.due_iff htick (htimeout t) (hnear t hfirst.1)).mpr ?_⟩
    exact (hfirst.2 u hu).trans ((TimerState.due_iff htick (htimeout u) (hnear u hu)).mp hdue)

/-- Seen from a base less than half the range behind, the order is that around now. -/
theorem offset_le_of_window {a b base : Nat} (htick : s.tick < wordSize)
    (ha : a < wordSize) (hb : b < wordSize) (hbase : base < wordSize)
    (hnow : wordSub s.tick base < rtTickHalf) (hwa : wordSub a base < rtTickHalf)
    (hwb : wordSub b base < rtTickHalf) (hle : wordSub a base ≤ wordSub b base) :
    s.offset a ≤ s.offset b := by
  unfold TimerState.offset
  unfold wordSub wordSize rtTickHalf at *
  omega

theorem near_of_window {t : τ} {base : Nat} (htick : s.tick < wordSize)
    (ht : s.timeoutTick t < wordSize) (hbase : base < wordSize)
    (hnow : wordSub s.tick base < rtTickHalf)
    (hwt : wordSub (s.timeoutTick t) base < rtTickHalf) : s.Near t := by
  unfold TimerState.Near
  unfold wordSub wordSize rtTickHalf at *
  omega

end Circle

/-! ## What is linked -/

section Threaded

variable {τ : Type*} {L : Links (TimerNode τ)} {rows rows' : TimerHead → List τ} {level : Nat}
  {t : τ} {b : Bool}

/-- Each list has these timers, in any order; a row has all timers of the row above. -/
structure Threaded (level : Nat) (L : Links (TimerNode τ)) (rows : TimerHead → List τ) : Prop where
  rings : L.Rings .head (nodes level rows)
  short : ∀ b i, level ≤ i → rows (.timerList b i) = []
  nested : ∀ b i, i + 1 < level → rows (.timerList b i) ⊆ rows (.timerList b (i + 1))

theorem Threaded.below (h : Threaded level L rows) (b : Bool) {i n : Nat} (hi : i + n < level) :
    rows (.timerList b i) ⊆ rows (.timerList b (i + n)) := by
  induction n with
  | zero => exact List.Subset.refl _
  | succ n ih => exact List.Subset.trans (ih (by omega)) (h.nested b (i + n) hi)

/-- The timers of a row are in the last row. -/
theorem Threaded.last (h : Threaded level L rows) (b : Bool) (i : Nat) :
    rows (.timerList b i) ⊆ rows (.timerList b (level - 1)) := by
  rcases Nat.lt_or_ge i level with hi | hi
  · have hbelow := h.below b (i := i) (n := level - 1 - i) (by omega)
    rwa [Nat.add_sub_cancel' (by omega)] at hbelow
  · rw [h.short b i hi]
    exact List.nil_subset _

/-- A timer has been put into the rows of a list from `k` on. -/
structure InsertedFrom (level : Nat) (t : τ) (b : Bool) (rows : TimerHead → List τ) (k : Nat)
    (rows' : TimerHead → List τ) : Prop where
  inserted : ∀ i, k ≤ i → i < level → ∃ xs ys,
    rows (.timerList b i) = xs ++ ys ∧ rows' (.timerList b i) = xs ++ t :: ys
  same : ∀ list, (∀ i, k ≤ i → i < level → list ≠ .timerList b i) → rows' list = rows list

namespace InsertedFrom

variable {k i : Nat} {u : τ}

theorem mem_iff (h : InsertedFrom level t b rows k rows') (hk : k ≤ i) (hi : i < level) :
    u ∈ rows' (.timerList b i) ↔ u = t ∨ u ∈ rows (.timerList b i) := by
  obtain ⟨xs, ys, hold, hnew⟩ := h.inserted i hk hi
  rw [hold, hnew, List.mem_append, List.mem_cons, List.mem_append]
  exact or_left_comm

theorem above (h : InsertedFrom level t b rows k rows') (hi : i < k) :
    rows' (.timerList b i) = rows (.timerList b i) := by
  refine h.same _ fun j hj _ heq => ?_
  obtain ⟨-, rfl⟩ := TimerHead.timerList.inj heq
  exact absurd hi (Nat.not_lt_of_le hj)

theorem other (h : InsertedFrom level t b rows k rows') {c : Bool} (hc : c ≠ b) :
    rows' (.timerList c i) = rows (.timerList c i) :=
  h.same _ fun _ _ _ heq => hc (TimerHead.timerList.inj heq).1

theorem subset (h : InsertedFrom level t b rows k rows') (hi : i < level) :
    rows (.timerList b i) ⊆ rows' (.timerList b i) := by
  intro u hu
  rcases Nat.lt_or_ge i k with hk | hk
  · rwa [h.above hk]
  · exact (h.mem_iff hk hi).mpr (.inr hu)

end InsertedFrom

theorem Threaded.insert {L' : Links (TimerNode τ)} {k : Nat} (h : Threaded level L rows)
    (hinsert : InsertedFrom level t b rows k rows')
    (hrings : L'.Rings .head (nodes level rows')) : Threaded level L' rows' := by
  refine ⟨hrings, fun c i hi => ?_, fun c i hi => ?_⟩
  · rw [hinsert.same _ fun j _ hj heq => ?_, h.short c i hi]
    obtain ⟨-, rfl⟩ := TimerHead.timerList.inj heq
    exact Nat.not_lt_of_le hi hj
  · by_cases hc : c = b
    · rw [hc]
      intro u hu
      have hnested := List.Subset.trans (h.nested b i hi) (hinsert.subset hi)
      rcases Nat.lt_or_ge i k with hk | hk
      · rw [hinsert.above hk] at hu
        exact hnested hu
      · rcases (hinsert.mem_iff hk (Nat.lt_of_succ_lt hi)).mp hu with rfl | hu
        · exact (hinsert.mem_iff (Nat.le_succ_of_le hk) hi).mpr (.inl rfl)
        · exact hnested hu
    · rw [hinsert.other hc, hinsert.other hc]
      exact h.nested c i hi

variable [DecidableEq τ]

theorem Threaded.remove (h : Threaded level L rows) (hlevel : 0 < level) (t : τ) :
    Threaded level ((List.range level).foldl (fun L i => L.remove (.row t i)) L)
      fun list => (rows list).erase t := by
  refine ⟨rings_removeRows h.rings hlevel h.short t, fun b i hi => ?_, fun b i hi u hu => ?_⟩
  · rw [h.short b i hi, List.erase_nil]
  · obtain ⟨hne, hmem⟩ := (nodup_rows h.rings _).mem_erase_iff.mp hu
    exact (nodup_rows h.rings _).mem_erase_iff.mpr ⟨hne, h.nested b i hi hmem⟩

/-- The timer is put into the row `k`, when those below have it. -/
theorem InsertedFrom.above_row {k : Nat} (hk : k < level) (hout : ∀ list, t ∉ rows list)
    (hinsert : InsertedFrom level t b rows (k + 1) rows') (h : L.Rings .head (nodes level rows'))
    {xs ys : List τ} (hrow : rows (.timerList b k) = xs ++ ys) :
    ∃ rows'', InsertedFrom level t b rows k rows'' ∧
      (L.insertAfter (lastNode (.timerList b k) k xs) (.row t k)).Rings .head
        (nodes level rows'') := by
  have hold : rows' (.timerList b k) = xs ++ ys := (hinsert.above (Nat.lt_succ_self k)).trans hrow
  have hsame : ∀ other : TimerHead, other.rowOf level = k → rows' other = rows other := by
    intro other hother
    refine hinsert.same other fun i hi _ heq => ?_
    rw [heq] at hother
    exact Nat.not_succ_le_self k (hother ▸ hi)
  refine ⟨Function.update rows' (.timerList b k) (xs ++ t :: ys), ⟨fun i hi hlt => ?_,
    fun list hlist => ?_⟩, ?_⟩
  · rcases Nat.eq_or_lt_of_le hi with rfl | hi
    · exact ⟨xs, ys, hrow, Function.update_self _ _ _⟩
    · rw [Function.update_of_ne fun heq => (Nat.ne_of_gt hi) (TimerHead.timerList.inj heq).2]
      exact hinsert.inserted i hi hlt
  · rw [Function.update_of_ne (hlist k le_rfl hk)]
    exact hinsert.same list fun i hi => hlist i (Nat.le_of_succ_le hi)
  · refine rings_insertRow h (.timerList b k) hold (fun other hother => ?_)
      (Function.update_self _ _ _) fun other hne => Function.update_of_ne hne _ _
    rw [hsame other hother]
    exact hout other

/-- The rows are filled as far as the counter says, wherever the search has stopped in them. -/
theorem Threaded.insertRows (rowHead : Nat → TimerNode τ)
    (hplace : ∀ i < level, ∃ xs ys, rows (.timerList b i) = xs ++ ys ∧
      rowHead i = lastNode (.timerList b i) i xs)
    (hout : ∀ list, t ∉ rows list) {k : Nat} (hk : k ≤ level) (tstNr : Nat)
    (hinsert : InsertedFrom level t b rows k rows') (h : L.Rings .head (nodes level rows')) :
    ∃ k' rows'', InsertedFrom level t b rows k' rows'' ∧
      (TimerState.insertRows rowHead t k tstNr L).Rings .head (nodes level rows'') := by
  induction k generalizing tstNr L rows' with
  | zero => exact ⟨0, rows', hinsert, h⟩
  | succ k ih =>
    unfold TimerState.insertRows
    split
    · obtain ⟨xs, ys, hrow, hhead⟩ := hplace k hk
      obtain ⟨rows₁, hinsert₁, hrings₁⟩ := hinsert.above_row hk hout h hrow
      rw [← hhead] at hrings₁
      exact ih (Nat.le_of_succ_le hk) _ hinsert₁ hrings₁
    · exact ⟨k + 1, rows', hinsert, h⟩

/-- A timer that is due goes onto the temporary list. -/
theorem Threaded.expire {s : TimerState τ} (h : Threaded level s.links rows) (hlevel : 0 < level)
    (hexpired : rows (.expired b) = []) (t : τ) :
    Threaded level (s.expire level b t).links
      (Function.update (fun list => (rows list).erase t) (.expired b) [t]) := by
  have hremove := h.remove hlevel t
  have hout : ∀ list, t ∉ (rows list).erase t := fun list hmem =>
    ((nodup_rows h.rings list).mem_erase_iff.mp hmem).1 rfl
  have hlinks : (s.expire level b t).links =
      (s.timerRemove level t).links.insertAfter (lastNode (.expired b) (level - 1) [])
        (.row t (level - 1)) := by
    dsimp only [TimerState.expire]
    split <;> rfl
  have hnil : (rows (.expired b)).erase t = [] ++ [] := by rw [hexpired]; rfl
  have hnew : Function.update (fun list => (rows list).erase t) (.expired b) [t] (.expired b) =
    [] ++ t :: [] := Function.update_self _ _ _
  have hrings := rings_insertRow hremove.rings (.expired b) hnil (fun other _ => hout other) hnew
    fun other hother => Function.update_of_ne hother _ _
  rw [hlinks]
  refine ⟨hrings, fun c i hi => ?_, fun c i hi => ?_⟩
  · exact hremove.short c i hi
  · exact hremove.nested c i hi

/-- The timer leaves the temporary list, and nothing else is changed. -/
theorem Threaded.unexpire (h : Threaded level L rows) (ht : t ∈ rows (.expired b)) :
    Threaded level (L.remove (.row t (level - 1))) fun list => (rows list).erase t := by
  have hnot : ∀ c i, t ∉ rows (.timerList c i) := by
    intro c i hmem
    refine h.rings.apart (.expired b) (.timerList c (level - 1)) ?_ (.row t (level - 1)) ?_ ?_
    · intro heq
      cases heq
    · exact row_mem_nodes.mpr ⟨rfl, ht⟩
    · exact row_mem_nodes.mpr ⟨rfl, h.last c i hmem⟩
  have hrings := rings_removeRow h.rings t (level - 1)
  have hlists : (fun list : TimerHead => if list.rowOf level = level - 1 then (rows list).erase t
      else rows list) = fun list => (rows list).erase t := by
    funext list
    split
    · rfl
    · next hrow =>
      cases list with
      | timerList c i => exact (List.erase_of_not_mem (hnot c i)).symm
      | expired c => exact absurd rfl hrow
  rw [hlists] at hrings
  refine ⟨hrings, fun c i hi => ?_, fun c i hi => ?_⟩
  · rw [h.short c i hi, List.erase_nil]
  · rw [List.erase_of_not_mem (hnot c i), List.erase_of_not_mem (hnot c (i + 1))]
    exact h.nested c i hi

variable [Fintype τ]

/-- In each row the search stops at the head or at a timer of the row. -/
theorem rowHead_place {s : TimerState τ} (h : Threaded level s.links rows) (timeoutTick : Nat)
    {i : Nat} (hi : i < level) :
    ∃ xs ys, rows (.timerList b i) = xs ++ ys ∧
      s.rowHead b timeoutTick i = lastNode (.timerList b i) i xs := by
  have hwalk : ∀ i xs ys, rows (.timerList b i) = xs ++ ys →
      ∃ xs' ys', rows (.timerList b i) = xs' ++ ys' ∧
        s.walk (.timerList b i) timeoutTick (Fintype.card τ) (lastNode (.timerList b i) i xs) =
          lastNode (.timerList b i) i xs' := by
    intro i xs ys hsplit
    have hring := h.rings.ring (.timerList b i)
    have hcard : (rows (.timerList b i)).length ≤ Fintype.card τ :=
      (nodup_rows h.rings _).length_le_card
    rw [nodes, hsplit] at hring
    rw [hsplit, List.length_append] at hcard
    refine ⟨_, ys.dropWhile fun u => !s.isLater timeoutTick u, ?_,
      walk_eq timeoutTick hring (Nat.le_of_add_left_le hcard)⟩
    rw [List.append_assoc, List.takeWhile_append_dropWhile, hsplit]
  induction i with
  | zero => exact hwalk 0 [] _ rfl
  | succ i ih =>
    obtain ⟨xs, ys, hsplit, hhead⟩ := ih (Nat.lt_of_succ_lt hi)
    rw [TimerState.rowHead, hhead]
    rcases List.eq_nil_or_concat xs with rfl | ⟨front, a, rfl⟩
    · exact hwalk (i + 1) [] _ rfl
    · rw [List.concat_eq_append] at hsplit ⊢
      have ha : a ∈ rows (.timerList b i) := by
        rw [hsplit]
        exact List.mem_append_left ys (List.mem_append_right front (List.mem_singleton_self a))
      obtain ⟨us, vs, hbelow⟩ := List.append_of_mem (h.nested b i hi ha)
      have hnext := hwalk (i + 1) (us ++ [a]) vs (by rw [hbelow, List.append_cons])
      rw [lastNode_concat] at hnext ⊢
      exact hnext

/-- `_timer_start` of a timer, whatever the deadlines are. -/
theorem Threaded.timerStart {s : TimerState τ} (h : Threaded level s.links rows)
    (hlevel : 0 < level) (b : Bool) (t : τ) :
    ∃ rows', Threaded level (s.timerStart level b t).links rows' ∧
      ∀ c, rows' (.expired c) = (rows (.expired c)).erase t := by
  have hlast : level - 1 < level := Nat.sub_lt hlevel Nat.one_pos
  have hout : ∀ list, t ∉ (rows list).erase t := fun list hmem =>
    ((nodup_rows h.rings list).mem_erase_iff.mp hmem).1 rfl
  obtain ⟨mid, hmid, hlinks⟩ : ∃ mid : TimerState τ,
      Threaded level mid.links (fun list => (rows list).erase t) ∧
      (s.timerStart level b t).links =
        TimerState.insertRows (mid.rowHead b (mid.timeoutTick t)) t (level - 1)
          ((s.randomNr + 1) % wordSize)
          (mid.links.insertAfter (mid.rowHead b (mid.timeoutTick t) (level - 1))
            (.row t (level - 1))) := by
    refine ⟨{ (s.timerRemove level t).setActivated t false with
      timeoutTick := Function.update s.timeoutTick t ((s.tick + s.initTick t) % wordSize) },
      h.remove hlevel t, ?_⟩
    dsimp only
    rw [Function.update_self]
    rfl
  have hplace := fun i (hi : i < level) => rowHead_place (b := b) hmid (mid.timeoutTick t) hi
  have hnone : InsertedFrom level t b (fun list => (rows list).erase t) (level - 1 + 1)
      fun list => (rows list).erase t :=
    ⟨fun i hi hlt => absurd hi (by omega), fun _ _ => rfl⟩
  obtain ⟨xs, ys, hrow, hhead⟩ := hplace (level - 1) hlast
  obtain ⟨rows₁, hinsert₁, hrings₁⟩ := hnone.above_row hlast hout hmid.rings hrow
  rw [← hhead] at hrings₁
  obtain ⟨k, rows', hinsert, hrings⟩ := Threaded.insertRows _ hplace hout hlast.le
    ((s.randomNr + 1) % wordSize) hinsert₁ hrings₁
  rw [← hlinks] at hrings
  exact ⟨rows', hmid.insert hinsert hrings, fun c => hinsert.same _ fun _ _ _ heq => by cases heq⟩

end Threaded

/-! ## Every run -/

section Runs

variable {τ : Type*} {s s' : CheckState τ} {rows : TimerHead → List τ} {level : Nat}
  {soft : τ → Bool}

/-- What every step keeps, however far apart the deadlines are. -/
structure CheckState.Laid (level : Nat) (s : CheckState τ) (rows : TimerHead → List τ) : Prop where
  threaded : Threaded level s.timers.links rows
  tick : s.timers.tick < wordSize
  timeoutTick : ∀ t, s.timers.timeoutTick t < wordSize
  calling : ∀ b, ∀ t ∈ rows (.expired b), s.points b = .calling t

theorem CheckState.laid_start (level : Nat) (tick randomNr : Nat) (initTick : τ → Nat)
    (periodic : τ → Bool) :
    (CheckState.start tick randomNr initTick periodic).Laid level fun _ => [] where
  threaded := ⟨(linked_empty level fun _ => false).rings, fun _ _ _ => rfl,
    fun _ _ _ => List.Subset.refl _⟩
  tick := Nat.mod_lt _ (by decide)
  timeoutTick _ := Nat.two_pow_pos 32
  calling _ _ ht := absurd ht List.not_mem_nil

/-- A step that starts or removes a timer. -/
theorem CheckState.Laid.change {timers : TimerState τ} {points : Bool → CheckPoint τ}
    {history : List (TimerEvent τ)} {rows' : TimerHead → List τ} (h : s.Laid level rows)
    (hthreaded : Threaded level timers.links rows') (htick : timers.tick = s.timers.tick)
    (htimeout : ∀ t, timers.timeoutTick t < wordSize)
    (hcalling : ∀ b, ∀ t ∈ rows' (.expired b), points b = .calling t) :
    CheckState.Laid level ⟨timers, points, history⟩ rows' :=
  ⟨hthreaded, htick.trans_lt h.tick, htimeout, hcalling⟩

/-- A check goes on or ends, and no timer of it is on the temporary list. -/
theorem CheckState.Laid.goTo (h : s.Laid level rows) {b : Bool}
    (hpoint : ∀ t, s.points b ≠ .calling t) (p : CheckPoint τ) :
    CheckState.Laid level ⟨s.timers, Function.update s.points b p, s.history⟩ rows := by
  refine h.change h.threaded rfl h.timeoutTick fun c u hu => ?_
  have hpointing := h.calling c u hu
  have hc : c ≠ b := fun hc => hpoint u (hc ▸ hpointing)
  rw [Function.update_of_ne hc]
  exact hpointing

variable [DecidableEq τ] [Fintype τ]

theorem timerStart_timeoutTick_lt {s : TimerState τ} (h : ∀ t, s.timeoutTick t < wordSize)
    (b : Bool) (t u : τ) : (s.timerStart level b t).timeoutTick u < wordSize := by
  have hset : (s.timerStart level b t).timeoutTick =
      Function.update s.timeoutTick t ((s.tick + s.initTick t) % wordSize) := rfl
  rw [hset]
  by_cases hu : u = t
  · rw [hu, Function.update_self]
    exact Nat.mod_lt _ (by decide)
  · rw [Function.update_of_ne hu]
    exact h u

theorem CheckState.Laid.call (h : s.Laid level rows) (hlevel : 0 < level) (call : TimerCall τ)
    (history : List (TimerEvent τ)) :
    ∃ rows', CheckState.Laid level ⟨s.timers.call level soft call, s.points, history⟩ rows' := by
  have herase : ∀ t b, ∀ u ∈ (rows (.expired b)).erase t, s.points b = .calling u :=
    fun t b u hu => h.calling b u (List.mem_of_mem_erase hu)
  rcases call_cases level soft s.timers call with
    ⟨t, heq, -⟩ | ⟨t, init, heq, -⟩ | ⟨init, periodic, heq, -⟩ <;> rw [heq]
  · obtain ⟨rows', hthreaded, hexpired⟩ := h.threaded.timerStart hlevel (soft t) t
    refine ⟨rows', h.change hthreaded rfl (timerStart_timeoutTick_lt h.timeoutTick _ _) ?_⟩
    intro b u hu
    rw [hexpired] at hu
    exact herase t b u hu
  · exact ⟨_, h.change (h.threaded.remove hlevel t) rfl h.timeoutTick (herase t)⟩
  · exact ⟨rows, h.change h.threaded rfl h.timeoutTick h.calling⟩

theorem CheckState.Laid.look (h : s.Laid level rows) (hlevel : 0 < level) {b : Bool}
    (hstep : (checkMachine level soft).step s (.look b) = some s') :
    ∃ rows', s'.Laid level rows' := by
  cases hpoint : s.points b with
  | idle => simp [checkMachine, hpoint] at hstep
  | calling t => simp [checkMachine, hpoint] at hstep
  | looking =>
    have hnot : ∀ t, s.points b ≠ .calling t := fun t => by simp [hpoint]
    have hexpired : rows (.expired b) = [] := by
      refine List.eq_nil_iff_forall_not_mem.mpr fun u hu => hnot u (h.calling b u hu)
    cases hnext : s.timers.links.next (.head (.timerList b (level - 1))) with
    | head list =>
      obtain rfl : _ = s' := by simpa [checkMachine, hpoint, hnext] using hstep
      exact ⟨rows, h.goTo hnot .idle⟩
    | row t row =>
      by_cases hdue : wordSub s.timers.tick (s.timers.timeoutTick t) < rtTickHalf
      · obtain rfl : _ = s' := by simpa [checkMachine, hpoint, hnext, hdue] using hstep
        have hsame : (s.timers.expire level b t).tick = s.timers.tick ∧
            (s.timers.expire level b t).timeoutTick = s.timers.timeoutTick := by
          dsimp only [TimerState.expire]
          split <;> exact ⟨rfl, rfl⟩
        refine ⟨_, h.change (h.threaded.expire hlevel hexpired t) hsame.1
          (fun u => hsame.2 ▸ h.timeoutTick u) fun c u hu => ?_⟩
        by_cases hc : c = b
        · rw [hc, Function.update_self] at hu
          rw [hc, Function.update_self, List.mem_singleton.mp hu]
        · rw [Function.update_of_ne (fun heq => hc (TimerHead.expired.inj heq))] at hu
          rw [Function.update_of_ne hc]
          exact h.calling c u (List.mem_of_mem_erase hu)
      · obtain rfl : _ = s' := by simpa [checkMachine, hpoint, hnext, hdue] using hstep
        exact ⟨rows, h.goTo hnot .idle⟩

theorem CheckState.Laid.leave (h : s.Laid level rows) (hlevel : 0 < level) {b : Bool}
    (hstep : (checkMachine level soft).step s (.leave b) = some s') :
    ∃ rows', s'.Laid level rows' := by
  cases hpoint : s.points b with
  | idle => simp [checkMachine, hpoint] at hstep
  | looking => simp [checkMachine, hpoint] at hstep
  | calling t =>
    by_cases hempty : s.timers.expiredIsEmpty b = true
    · obtain rfl : _ = s' := by simpa [checkMachine, hpoint, hempty] using hstep
      have hexpired := (expiredIsEmpty_iff h.threaded.rings).mp hempty
      refine ⟨rows, h.change h.threaded rfl h.timeoutTick fun c u hu => ?_⟩
      have hc : c ≠ b := fun hc => by simp [hc, hexpired] at hu
      rw [Function.update_of_ne hc]
      exact h.calling c u hu
    · have hexpired := mt (expiredIsEmpty_iff h.threaded.rings).mpr hempty
      obtain ⟨u, hu⟩ := List.exists_mem_of_ne_nil _ hexpired
      obtain rfl : t = u := CheckPoint.calling.inj (hpoint.symm.trans (h.calling b u hu))
      have hthreaded := h.threaded.unexpire hu
      have hcalling : ∀ c, ∀ u ∈ (rows (.expired c)).erase t,
          Function.update s.points b .looking c = .calling u := by
        intro c u hmem
        obtain ⟨hne, hmem⟩ := (nodup_rows h.threaded.rings _).mem_erase_iff.mp hmem
        have hpointing := h.calling c u hmem
        have hc : c ≠ b := by
          rintro rfl
          exact hne (CheckPoint.calling.inj (hpointing.symm.trans hpoint))
        rw [Function.update_of_ne hc]
        exact hpointing
      have hs' : s' = {
          timers := (s.timers.rearm level b t).2
          points := Function.update s.points b .looking
          history := s.history ++
            ((s.timers.rearm level b t).1.map (TimerEvent.started t)).toList } := by
        simpa [checkMachine, hpoint, hempty] using hstep.symm
      rw [hs', TimerState.rearm]
      split
      · let mid : TimerState τ :=
          { s.timers with links := s.timers.links.remove (.row t (level - 1)) }.setActivated t false
        have htimeout : ∀ u, (mid.timerStart level b t).timeoutTick u < wordSize :=
          timerStart_timeoutTick_lt (s := mid) h.timeoutTick b t
        obtain ⟨rows', hstarted, hexpired'⟩ := Threaded.timerStart (s := mid) hthreaded hlevel b t
        refine ⟨rows', h.change hstarted rfl htimeout ?_⟩
        intro c u hmem
        rw [hexpired'] at hmem
        exact hcalling c u (List.mem_of_mem_erase hmem)
      · exact ⟨_, h.change hthreaded rfl h.timeoutTick hcalling⟩

theorem CheckState.Laid.step (h : s.Laid level rows) (hlevel : 0 < level) {a : CheckStep τ}
    (hstep : (checkMachine level soft).step s a = some s') : ∃ rows', s'.Laid level rows' := by
  cases a with
  | call call =>
    obtain rfl := Option.some.inj hstep
    exact h.call hlevel call _
  | tick =>
    obtain rfl := Option.some.inj hstep
    exact ⟨rows, h.threaded, Nat.mod_lt _ (by decide), h.timeoutTick, h.calling⟩
  | enter b =>
    cases hpoint : s.points b with
    | looking => simp [checkMachine, hpoint] at hstep
    | calling t => simp [checkMachine, hpoint] at hstep
    | idle =>
      obtain rfl : _ = s' := by simpa [checkMachine, hpoint] using hstep
      exact ⟨rows, h.goTo (fun t => by simp [hpoint]) .looking⟩
  | look b => exact h.look hlevel hstep
  | leave b => exact h.leave hlevel hstep

theorem checkState_laid (hlevel : 0 < level) {tick randomNr : Nat} {initTick : τ → Nat}
    {periodic : τ → Bool} {schedule : List (CheckStep τ)} {ok : CheckState τ → CheckStep τ → Prop}
    (run : (checkMachine level soft).Run ok (.start tick randomNr initTick periodic) schedule s) :
    ∃ rows, s.Laid level rows :=
  run.invariant (I := fun s => ∃ rows, s.Laid level rows)
    (fun _ _ _ _ hstep ⟨_, h⟩ => h.step hlevel hstep)
    ⟨_, CheckState.laid_start level tick randomNr initTick periodic⟩

/-! ## Results -/

theorem CheckState.Laid.nextTimeout_eq (h : s.Laid level rows) (b : Bool) :
    s.timers.timerListNextTimeout level b =
      (s.timers.lastRow level b).head?.map s.timers.timeoutTick := by
  rw [TimerState.timerListNextTimeout, next_timerList h.threaded.rings,
    lastRow_eq h.threaded.rings]
  cases rows (.timerList b (level - 1)) <;> rfl

theorem CheckState.Laid.released_iff (h : s.Laid level rows) :
    (rtTimerCheck level soft s).1 = true ↔ ∃ t, (s.timers.lastRow level true).head? = some t ∧
      s.timers.timeoutTick t ≤ s.timers.tick := by
  dsimp only [rtTimerCheck]
  rw [h.nextTimeout_eq]
  cases (s.timers.lastRow level true).head? with
  | none => simp
  | some t => simp

theorem CheckState.Laid.checkRight_iff (h : s.Laid level rows)
    (hnear : ∀ t ∈ s.timers.lastRow level true, s.timers.Near t) :
    s.CheckRight level soft ↔ s.CheckInRange level := by
  rw [CheckState.CheckRight, h.released_iff, first_due_iff h.tick h.timeoutTick hnear,
    CheckState.CheckInRange]
  cases hhead : (s.timers.lastRow level true).head? with
  | none =>
    rw [List.head?_eq_none_iff.mp hhead]
    simp
  | some t =>
    have ht : t ∈ s.timers.lastRow level true := List.mem_of_mem_head? hhead
    have hle := le_iff_straddles (s := s.timers) (h.timeoutTick t) h.tick
    rw [← TimerState.due_iff h.tick (h.timeoutTick t) (hnear t ht)] at hle
    have hdue : s.timers.Due t → ∃ u ∈ s.timers.lastRow level true, s.timers.Due u :=
      fun hdue => ⟨t, ht, hdue⟩
    simp only [Option.some.injEq, exists_eq_left', forall_eq']
    rw [hle]
    generalize (∃ u ∈ s.timers.lastRow level true, s.timers.Due u) = anyDue at *
    generalize s.timers.Straddles (s.timers.timeoutTick t) s.timers.tick = straddles at *
    tauto

theorem mem_active {s : TimerState τ} {b : Bool} {t : τ}
    (h : (s.lastRow level b).head? = some t) : t ∈ s.active level := by
  have ht : t ∈ s.lastRow level b := List.mem_of_mem_head? h
  cases b with
  | false => exact List.mem_append_left _ ht
  | true => exact List.mem_append_right _ ht

/-- The smaller of the two deadlines is returned. -/
theorem CheckState.Laid.nextTimeoutTick_eq (h : s.Laid level rows) {b : Bool} {t : τ}
    (hhead : (s.timers.lastRow level b).head? = some t)
    (hle : ∀ u, (s.timers.lastRow level !b).head? = some u →
      s.timers.timeoutTick t ≤ s.timers.timeoutTick u) :
    s.timers.rtTimerNextTimeoutTick level = s.timers.timeoutTick t := by
  have hmax : s.timers.timeoutTick t ≤ rtTickMax := Nat.le_of_lt_succ (h.timeoutTick t)
  have hdefault : s.timers.timeoutTick t ≤
      ((s.timers.lastRow level !b).head?.map s.timers.timeoutTick).getD rtTickMax := by
    cases hother : (s.timers.lastRow level !b).head? with
    | none => exact hmax
    | some u => exact hle u hother
  dsimp only [TimerState.rtTimerNextTimeoutTick]
  rw [h.nextTimeout_eq, h.nextTimeout_eq]
  cases b with
  | false =>
    rw [Bool.not_false] at hdefault
    rw [hhead, Option.map_some, Option.getD_some]
    split
    · rfl
    · next hnot => exact Nat.le_antisymm (Nat.le_of_not_lt hnot) hdefault
  | true =>
    rw [Bool.not_true] at hdefault
    rw [hhead, Option.map_some, Option.getD_some]
    exact if_neg (Nat.not_lt_of_le hdefault)

theorem exists_smaller_head {s : TimerState τ} (h : s.active level ≠ []) :
    ∃ b t, (s.lastRow level b).head? = some t ∧
      ∀ u, (s.lastRow level !b).head? = some u → s.timeoutTick t ≤ s.timeoutTick u := by
  cases hhard : (s.lastRow level false).head? with
  | none =>
    cases hsoft : (s.lastRow level true).head? with
    | none =>
      refine absurd ?_ h
      rw [TimerState.active, List.head?_eq_none_iff.mp hhard, List.head?_eq_none_iff.mp hsoft]
      rfl
    | some u =>
      refine ⟨true, u, hsoft, fun t ht => ?_⟩
      rw [Bool.not_true, hhard] at ht
      cases ht
  | some t =>
    cases hsoft : (s.lastRow level true).head? with
    | none =>
      refine ⟨false, t, hhard, fun u hu => ?_⟩
      rw [Bool.not_false, hsoft] at hu
      cases hu
    | some u =>
      rcases Nat.le_total (s.timeoutTick t) (s.timeoutTick u) with hle | hle
      · refine ⟨false, t, hhard, fun u' hu' => ?_⟩
        rw [Bool.not_false, hsoft] at hu'
        exact Option.some.inj hu' ▸ hle
      · refine ⟨true, u, hsoft, fun t' ht' => ?_⟩
        rw [Bool.not_true, hhard] at ht'
        exact Option.some.inj ht' ▸ hle

theorem CheckState.Laid.nextRight_iff (h : s.Laid level rows) :
    s.NextRight level ↔ s.NextInRange level := by
  constructor
  · intro hright hactive
    obtain ⟨b, t, hhead, hle⟩ := exists_smaller_head hactive
    obtain ⟨u, hu⟩ := s.timers.exists_first hactive
    have hsame : s.timers.timeoutTick t = s.timers.timeoutTick u :=
      (h.nextTimeoutTick_eq hhead hle).symm.trans (hright u hu)
    have hfirst : s.timers.First (s.timers.active level) t :=
      ⟨mem_active hhead, hsame ▸ hu.2⟩
    refine ⟨b, t, hhead, hfirst, fun v hv => ?_⟩
    exact ((le_iff_straddles (h.timeoutTick t) (h.timeoutTick v)).mp (hle v hv)).mpr
      (hfirst.2 v (mem_active hv))
  · intro hrange t ht
    obtain ⟨b, u, hhead, hfirst, hnot⟩ := hrange (List.ne_nil_of_mem ht.1)
    refine (h.nextTimeoutTick_eq hhead fun v hv => ?_).trans
      (hfirst.timeoutTick_eq ht h.timeoutTick)
    refine (le_iff_straddles (h.timeoutTick u) (h.timeoutTick v)).mpr (iff_of_true (hnot v hv) ?_)
    exact hfirst.2 v (mem_active hv)

/-- When the two functions tell the earliest deadline, in every state of every run. -/
theorem timerTicks_iff (hlevel : 0 < level) {tick randomNr : Nat} {initTick : τ → Nat}
    {periodic : τ → Bool} {schedule : List (CheckStep τ)}
    (run : (checkMachine level soft).Run Machine.anyStep
      (.start tick randomNr initTick periodic) schedule s)
    (hnear : ∀ t ∈ s.timers.active level, s.timers.Near t) :
    (s.CheckRight level soft ↔ s.CheckInRange level) ∧
      (s.NextRight level ↔ s.NextInRange level) := by
  obtain ⟨rows, h⟩ := checkState_laid hlevel run
  exact ⟨h.checkRight_iff fun t ht => hnear t (List.mem_append_right _ ht), h.nextRight_iff⟩

/-! ### Lists in order -/

/-- While the deadlines stay close, the first timer of a list is the earliest one of it. -/
theorem first_of_head {s : TimerState τ} {b : Bool} {t : τ} (h : s.Rows level soft rows)
    (hwindow : s.Windowed) (hhead : (s.lastRow level b).head? = some t) :
    s.First (s.lastRow level b) t := by
  obtain ⟨base, hbase, hnow, hactive⟩ := hwindow
  have hlist := lastRow_eq h.linked.rings b
  have hmem := List.mem_of_mem_head? hhead
  refine ⟨hmem, fun u hu => ?_⟩
  rw [hlist] at hmem hhead hu
  have hwt := hactive t (h.activated b t hmem)
  have hwu := hactive u (h.activated b u hu)
  refine offset_le_of_window h.tick (h.timeoutTick t) (h.timeoutTick u) hbase hnow hwt hwu ?_
  obtain ⟨us, hus⟩ := List.head?_eq_some_iff.mp hhead
  have hsorted := h.sorted b
  rw [hus] at hsorted hu
  rcases List.mem_cons.mp hu with rfl | hrest
  · exact le_rfl
  · have hbefore := (List.pairwise_cons.mp hsorted).1 u hrest
    rw [before_iff (h.timeoutTick t) (h.timeoutTick u) hbase hwt hwu] at hbefore
    omega

/-- While the deadlines stay close, only the wrap between two deadlines, or between a deadline
and now, makes a difference. -/
theorem timerTicks_ordered (hlevel : 0 < level) {tick randomNr : Nat} {initTick : τ → Nat}
    {periodic : τ → Bool} {schedule : List (CheckStep τ)}
    (run : (checkMachine level soft).Run (StaysTimely level soft)
      (.start tick randomNr initTick periodic) schedule s) (hwindow : s.timers.Windowed) :
    (s.CheckRight level soft ↔ ∀ t, (s.timers.lastRow level true).head? = some t →
      ¬ s.timers.Straddles (s.timers.timeoutTick t) s.timers.tick) ∧
    (s.NextRight level ↔ ∀ t u, (s.timers.lastRow level false).head? = some t →
      (s.timers.lastRow level true).head? = some u →
        ¬ s.timers.Straddles (s.timers.timeoutTick t) (s.timers.timeoutTick u)) := by
  obtain ⟨rows, hlaid⟩ := checkState_laid hlevel run
  obtain ⟨rows', hkept⟩ := checkState_kept hlevel run
  have hhead := fun b t => first_of_head (b := b) (t := t) hkept.timers hwindow
  have hnear : ∀ b, ∀ t ∈ s.timers.lastRow level b, s.timers.Near t := by
    intro b t ht
    obtain ⟨base, hbase, hnow, hactive⟩ := hwindow
    rw [lastRow_eq hkept.timers.linked.rings] at ht
    exact near_of_window hlaid.tick (hlaid.timeoutTick t) hbase hnow
      (hactive t (hkept.timers.activated b t ht))
  constructor
  · rw [hlaid.checkRight_iff (hnear true)]
    refine forall₂_congr fun t ht => ?_
    have hnone : ¬ (¬ s.timers.Due t ∧ ∃ u ∈ s.timers.lastRow level true, s.timers.Due u) := by
      rintro ⟨hnot, u, hu, hdue⟩
      have hfirst := hhead true t ht
      have hoffset := (TimerState.due_iff hlaid.tick (hlaid.timeoutTick u) (hnear true u hu)).mp hdue
      refine hnot ((TimerState.due_iff hlaid.tick (hlaid.timeoutTick t)
        (hnear true t hfirst.1)).mpr ?_)
      exact (hfirst.2 u hu).trans hoffset
    exact iff_false_right hnone
  · rw [hlaid.nextRight_iff]
    constructor
    · intro hrange t u ht hu
      obtain ⟨b, v, hv, -, hnot⟩ := hrange (List.ne_nil_of_mem (mem_active ht))
      cases b with
      | false =>
        obtain rfl := Option.some.inj (ht.symm.trans hv)
        exact hnot u hu
      | true =>
        obtain rfl := Option.some.inj (hu.symm.trans hv)
        exact mt TimerState.Straddles.symm (hnot t ht)
    · intro hnot hactive
      obtain ⟨v, hv⟩ := s.timers.exists_first hactive
      obtain ⟨b, hb⟩ : ∃ b, v ∈ s.timers.lastRow level b :=
        (List.mem_append.mp hv.1).elim (fun h => ⟨false, h⟩) fun h => ⟨true, h⟩
      obtain ⟨t, ht⟩ : ∃ t, (s.timers.lastRow level b).head? = some t :=
        Option.isSome_iff_exists.mp (List.isSome_head?.mpr (List.ne_nil_of_mem hb))
      have hle := (hhead b t ht).2 v hb
      refine ⟨b, t, ht, ⟨mem_active ht, fun u hu => hle.trans (hv.2 u hu)⟩, fun u hu => ?_⟩
      cases b with
      | false => exact hnot t u ht hu
      | true => exact mt TimerState.Straddles.symm (hnot u t hu ht)

end Runs

/-- Beyond the wrap of the tick a hard and a soft timer are found in time. -/
theorem timerTicks_iff_wrapped :
    ∃ s : CheckState Bool,
      (checkMachine 1 id).Run Machine.anyStep
        (.start 4294967295 0 (fun t => if t then 2 else 3) fun _ => false)
        [.call (.start false), .call (.start true), .tick, .tick] s ∧
      s.timers.tick = 1 ∧ s.timers.active 1 = [false, true] ∧
      s.CheckRight 1 id ∧ s.NextRight 1 := by
  obtain ⟨s, run, htick, hactive, hnear, hcheck, hnext⟩ : ∃ s : CheckState Bool,
      (checkMachine 1 id).Run Machine.anyStep
        (.start 4294967295 0 (fun t => if t then 2 else 3) fun _ => false)
        [.call (.start false), .call (.start true), .tick, .tick] s ∧
      s.timers.tick = 1 ∧ s.timers.active 1 = [false, true] ∧
      (∀ t ∈ s.timers.active 1, s.timers.Near t) ∧ s.CheckInRange 1 ∧ s.NextInRange 1 := by
    refine ⟨_, .cons trivial rfl (.cons trivial rfl (.cons trivial rfl (.cons trivial rfl
      (.nil _)))), by decide, by decide, by decide, ?_, ?_⟩
    · unfold CheckState.CheckInRange
      decide
    · unfold CheckState.NextInRange
      decide
  obtain ⟨hcheckIff, hnextIff⟩ := timerTicks_iff Nat.one_pos run hnear
  exact ⟨s, run, htick, hactive, hcheckIff.mpr hcheck, hnextIff.mpr hnext⟩

/-- Just before the tick wraps, the semaphore is released for a soft timer that is not due, and
the later of two deadlines is returned; when several ticks are added, a soft timer is missed. -/
theorem not_timerTicks :
    (∃ s : CheckState Bool,
      (checkMachine 1 id).Run Machine.anyStep
        (.start 4294967294 0 (fun t => if t then 2 else 1) fun _ => false)
        [.call (.start false), .call (.start true)] s ∧
      (∀ t ∈ s.timers.active 1, s.timers.Near t) ∧
      (rtTimerCheck 1 id s).1 = true ∧ s.timers.rtTimerNextTimeoutTick 1 = 0 ∧
      ¬ s.CheckRight 1 id ∧ ¬ s.NextRight 1) ∧
    ∃ s : CheckState Bool,
      (checkMachine 1 id).Run Machine.anyStep
        (.start 4294967294 0 (fun _ => 1) fun _ => false)
        [.call (.start true), .tick, .tick] s ∧
      (∀ t ∈ s.timers.active 1, s.timers.Near t) ∧ s.timers.Due true ∧
      (rtTimerCheck 1 id s).1 = false ∧ ¬ s.CheckRight 1 id := by
  constructor
  · refine ⟨_, .cons trivial rfl (.cons trivial rfl (.nil _)), by decide, by decide, by decide,
      ?_, ?_⟩
    · unfold CheckState.CheckRight
      decide
    · unfold CheckState.NextRight
      decide
  · refine ⟨_, .cons trivial rfl (.cons trivial rfl (.cons trivial rfl (.nil _))), by decide,
      by decide, by decide, ?_⟩
    unfold CheckState.CheckRight
    decide

end Gd32Vw553h.Kernel
