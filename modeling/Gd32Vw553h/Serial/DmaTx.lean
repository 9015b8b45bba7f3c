/-
  Serial/DmaTx.lean --- transmission by DMA (`_serial_dma_tx` and the `TX_DMADONE` branch of
  `rt_hw_serial_isr` in `rt-thread/components/drivers/serial/dev_serial.c`).

  A writer pushes its buffer into a data queue, and looks in a second section whether a transfer
  is under way.  If not, it starts one with its own buffer, after the section.  The end of a
  transfer takes the first buffer off the queue and starts the next one.

  Between the push and the test other writers and interrupts may run.  `dmaTx_right_iff` says for
  which tests the buffers go out in the order of their pushes, each once: those that find a
  transfer under way, or the buffer of the writer in front.
-/
import Gd32Vw553h.Ipc.DataQueue
import Mathlib.Tactic.SplitIfs

set_option autoImplicit false

namespace Gd32Vw553h.Serial

open Gd32Vw553h.Foundation Gd32Vw553h.Ipc

/-! ## The code -/

/-- How far a writer has come in `_serial_dma_tx`. -/
inductive WriterPhase where
  | idle
  /-- its buffer is in the queue -/
  | pushed (item : RtDataItem)
  /-- it has set `activated`, and is still to call `dma_transmit` -/
  | starting (item : RtDataItem)
  deriving DecidableEq

/-- `struct rt_serial_tx_dma`, its writers and the DMA. -/
structure DmaTx (τ : Type*) where
  dataQueue : RtDataQueue
  activated : Bool
  phase : τ → WriterPhase
  /-- the transfer that the DMA is in -/
  dma : Option RtDataItem
  /-- the buffers of all pushes -/
  written : List RtDataItem
  /-- the buffers of all calls of `dma_transmit` -/
  transmitted : List RtDataItem
  /-- the buffers of all calls of `tx_complete`; nothing where the queue was empty -/
  completed : List (Option RtDataItem)

inductive DmaTxStep (τ : Type*) where
  /-- `rt_data_queue_push`, once there is room -/
  | push (writer : τ) (item : RtDataItem)
  /-- the section that tests `activated` -/
  | test (writer : τ)
  /-- the call of `dma_transmit` behind it -/
  | start (writer : τ)
  /-- the transfer ends: `RT_SERIAL_EVENT_TX_DMADONE` -/
  | done

namespace DmaTx

variable {τ : Type*}

/-- The part of `rt_serial_open` for `RT_DEVICE_FLAG_DMA_TX`. -/
def rtSerialOpen (queue : Nat → RtDataItem) : DmaTx τ where
  dataQueue := .init queue 8 4
  activated := false
  phase _ := .idle
  dma := none
  written := []
  transmitted := []
  completed := []

/-- `serial->ops->dma_transmit` -/
def dmaTransmit (s : DmaTx τ) (item : RtDataItem) : DmaTx τ :=
  { s with dma := some item, transmitted := s.transmitted ++ [item] }

/-- `rt_data_queue_pop` without waiting, and `last_data_ptr`. -/
def popLast (s : DmaTx τ) : Option RtDataItem × DmaTx τ :=
  if s.dataQueue.isEmpty then (none, s)
  else (some s.dataQueue.fetch.1, { s with dataQueue := s.dataQueue.fetch.2 })

/-- The `TX_DMADONE` branch of `rt_hw_serial_isr`. -/
def txDmaDone (s : DmaTx τ) : DmaTx τ :=
  let (last, s) := { s with dma := none }.popLast
  let s :=
    if s.dataQueue.isEmpty then { s with activated := false }
    else { s with activated := true }.dmaTransmit (s.dataQueue.queue s.dataQueue.getIndex)
  { s with completed := s.completed ++ [last] }

section Code

variable [DecidableEq τ]

/-- `rt_data_queue_push` -/
def push (s : DmaTx τ) (writer : τ) (item : RtDataItem) : DmaTx τ :=
  { s with
    dataQueue := s.dataQueue.store item
    phase := Function.update s.phase writer (.pushed item)
    written := s.written ++ [item] }

/-- The section that tests `activated`. -/
def test (s : DmaTx τ) (writer : τ) (item : RtDataItem) : DmaTx τ :=
  if s.activated then { s with phase := Function.update s.phase writer .idle }
  else { s with
    activated := true
    phase := Function.update s.phase writer (.starting item) }

/-- The call of `dma_transmit` behind it. -/
def start (s : DmaTx τ) (writer : τ) (item : RtDataItem) : DmaTx τ :=
  { s with phase := Function.update s.phase writer .idle }.dmaTransmit item

def machine : Machine (DmaTx τ) (DmaTxStep τ) where
  step s
    | .push writer item =>
        if s.phase writer = .idle ∧ s.dataQueue.isFull = false then some (s.push writer item)
        else none
    | .test writer =>
        match s.phase writer with
        | .pushed item => some (s.test writer item)
        | .idle | .starting _ => none
    | .start writer =>
        match s.phase writer with
        | .starting item => some (s.start writer item)
        | .idle | .pushed _ => none
    | .done => s.dma.map fun _ => s.txDmaDone

end Code

/-! ## What the writers rely on -/

/-- The buffers go out in the order of their pushes, each once, and no buffer is left behind. -/
structure Right (s : DmaTx τ) : Prop where
  /-- `tx_complete` is called for the buffers in their order -/
  completed : s.completed ++ s.dataQueue.items.map some = s.written.map some
  /-- all of them have been transmitted, and the one that the DMA is in -/
  transmitted : s.transmitted.map some = s.completed ++ s.dma.toList.map some
  /-- a transfer is one of the first buffer -/
  running : ∀ item, s.dma = some item → s.dataQueue.items.head? = some item
  /-- and so is one that is about to be started, which nobody else does then -/
  starting : ∀ writer item, s.phase writer = .starting item →
    s.dma = none ∧ s.dataQueue.items.head? = some item ∧
      ∀ other item', s.phase other = .starting item' → other = writer
  /-- buffers wait only while a transfer is under way or a writer is on its way to start one -/
  served : s.dataQueue.items ≠ [] → s.dma.isSome ∨ ∃ writer, s.phase writer ≠ .idle

/-- The test finds a transfer under way, or the buffer of the writer in front. -/
def InFront (s : DmaTx τ) : DmaTxStep τ → Prop
  | .test writer => ∀ item, s.phase writer = .pushed item →
      s.activated = true ∨ s.dataQueue.items.head? = some item
  | .push _ _ | .start _ | .done => True

/-- Nothing comes between a push and its test. -/
def Paired : List (DmaTxStep τ) → Prop
  | [] => True
  | .push writer _ :: .test other :: rest => other = writer ∧ Paired rest
  | .push _ _ :: _ => False
  | .test _ :: _ => False
  | .start _ :: rest => Paired rest
  | .done :: rest => Paired rest

/-! ## The invariant -/

section Invariant

variable {s next : DmaTx τ} {writer : τ} {item : RtDataItem}

structure Kept (s : DmaTx τ) : Prop extends Right s where
  queue : s.dataQueue.WellFormed
  activated : s.activated = true ↔ s.dma.isSome ∨ ∃ writer item, s.phase writer = .starting item

theorem kept_open (queue : Nat → RtDataItem) : (rtSerialOpen queue : DmaTx τ).Kept where
  completed := rfl
  transmitted := rfl
  running _ h := nomatch h
  starting _ _ h := nomatch h
  served h := absurd rfl h
  queue := RtDataQueue.wellFormed_init queue 4 (by decide)
  activated := iff_of_false Bool.false_ne_true (by
    rintro (h | ⟨_, _, h⟩)
    · cases h
    · cases h)

theorem items_eq_nil (h : s.Kept) (hempty : s.dataQueue.isEmpty = true) :
    s.dataQueue.items = [] := by
  refine List.eq_nil_of_length_eq_zero ?_
  rw [RtDataQueue.items_length]
  exact h.queue.isEmpty.mp hempty

/-- The end of a transfer: its buffer is taken, and the next one is transmitted. -/
theorem Kept.txDmaDone (h : s.Kept) (hdma : s.dma = some item) : s.txDmaDone.Kept := by
  have hfirst := h.running item hdma
  have hitem : s.dataQueue.isEmpty = false := Bool.eq_false_iff.mpr fun hempty => by
    rw [items_eq_nil h hempty] at hfirst
    cases hfirst
  obtain ⟨hring, -, hitems⟩ := h.queue.fetch hitem
  have hlast : s.dataQueue.fetch.1 = item := by
    rw [hitems] at hfirst
    exact Option.some.inj hfirst
  have hnobody : ∀ writer item', s.phase writer ≠ .starting item' := fun writer item' hstart => by
    have hnone := (h.starting writer item' hstart).1
    rw [hdma] at hnone
    cases hnone
  have hcompleted : (s.completed ++ [some item]) ++ s.dataQueue.fetch.2.items.map some =
      s.written.map some := by
    rw [← h.completed, hitems, hlast, List.append_assoc]
    rfl
  have htransmitted : s.transmitted.map some = s.completed ++ [some item] := by
    rw [h.transmitted, hdma]
    rfl
  have hpop : { s with dma := none }.popLast =
      (some item, { s with dma := none, dataQueue := s.dataQueue.fetch.2 }) := by
    rw [popLast, if_neg (Bool.eq_false_iff.mp hitem), ← hlast]
  unfold DmaTx.txDmaDone
  rw [hpop]
  dsimp only
  cases hmore : s.dataQueue.fetch.2.isEmpty with
  | true =>
    have hnil : s.dataQueue.fetch.2.items = [] := by
      refine List.eq_nil_of_length_eq_zero ?_
      rw [RtDataQueue.items_length]
      exact hring.isEmpty.mp hmore
    rw [if_pos rfl]
    exact {
      completed := hcompleted
      transmitted := htransmitted.trans (List.append_nil _).symm
      running := fun _ hnone => nomatch hnone
      starting := fun writer item' hstart => absurd hstart (hnobody writer item')
      served := fun hne => absurd hnil hne
      queue := hring
      activated := iff_of_false Bool.false_ne_true (by
        rintro (hsome | ⟨writer, item', hstart⟩)
        · cases hsome
        · exact hnobody writer item' hstart) }
  | false =>
    obtain ⟨-, -, hnext⟩ := hring.fetch hmore
    have hhead : s.dataQueue.fetch.2.items.head? =
        some (s.dataQueue.fetch.2.queue s.dataQueue.fetch.2.getIndex) := by
      rw [hnext]
      rfl
    rw [if_neg Bool.false_ne_true]
    exact {
      completed := hcompleted
      transmitted := by
        show (s.transmitted ++ [_]).map some = _
        rw [List.map_append, htransmitted]
        rfl
      running := fun item' hthis => by
        obtain rfl := Option.some.inj hthis
        exact hhead
      starting := fun writer item' hstart => absurd hstart (hnobody writer item')
      served := fun _ => .inl rfl
      queue := hring
      activated := iff_of_true rfl (.inl rfl) }

variable [DecidableEq τ]

/-- The phases of the other writers. -/
theorem phase_update {phase : τ → WriterPhase} {p q : WriterPhase} {other : τ}
    (h : Function.update phase writer p other = q) (hne : p ≠ q) :
    other ≠ writer ∧ phase other = q := by
  have hother : other ≠ writer := by
    rintro rfl
    exact hne ((Function.update_self other p phase).symm.trans h)
  exact ⟨hother, (Function.update_of_ne hother p phase).symm.trans h⟩

theorem Kept.push (h : s.Kept) (hidle : s.phase writer = .idle)
    (hroom : s.dataQueue.isFull = false) (item : RtDataItem) : (s.push writer item).Kept := by
  obtain ⟨hring, -, hitems⟩ := h.queue.store hroom item
  have hstarting : ∀ {other item'}, Function.update s.phase writer (.pushed item) other =
      .starting item' → s.phase other = .starting item' := fun hstart =>
    (phase_update hstart WriterPhase.noConfusion).2
  have hkeeps : ∀ {other item'}, s.phase other = .starting item' →
      Function.update s.phase writer (.pushed item) other = .starting item' := fun hstart => by
    refine (Function.update_of_ne ?_ _ _).trans hstart
    rintro rfl
    cases hidle.symm.trans hstart
  have hhead : ∀ {item'}, s.dataQueue.items.head? = some item' →
      (s.dataQueue.items ++ [item]).head? = some item' := fun hfirst => by
    rw [List.head?_append, hfirst]
    rfl
  exact {
    completed := by
      show s.completed ++ (s.dataQueue.store item).items.map some = (s.written ++ [item]).map some
      rw [hitems, List.map_append, List.map_append, ← List.append_assoc, h.completed]
    transmitted := h.transmitted
    running := fun item' hthis => by
      show (s.dataQueue.store item).items.head? = _
      rw [hitems]
      exact hhead (h.running item' hthis)
    starting := fun other item' hstart => by
      obtain ⟨hnone, hfirst, honly⟩ := h.starting other item' (hstarting hstart)
      refine ⟨hnone, ?_, fun third item'' hthis => honly third item'' (hstarting hthis)⟩
      show (s.dataQueue.store item).items.head? = _
      rw [hitems]
      exact hhead hfirst
    served := fun _ => .inr ⟨writer, fun hthis => by
      cases (Function.update_self writer _ s.phase).symm.trans hthis⟩
    queue := hring
    activated := h.activated.trans (or_congr_right
      ⟨fun ⟨other, item', hstart⟩ => ⟨other, item', hkeeps hstart⟩,
        fun ⟨other, item', hstart⟩ => ⟨other, item', hstarting hstart⟩⟩) }

/-- A writer that finds a transfer under way leaves. -/
theorem Kept.testActive (h : s.Kept) (hphase : s.phase writer = .pushed item)
    (hactive : s.activated = true) :
    Kept { s with phase := Function.update s.phase writer .idle } := by
  have hstarting : ∀ {other item'}, Function.update s.phase writer .idle other =
      .starting item' ↔ s.phase other = .starting item' := by
    refine fun {other item'} => ⟨fun hstart => (phase_update hstart WriterPhase.noConfusion).2,
      fun hstart => (Function.update_of_ne ?_ _ _).trans hstart⟩
    rintro rfl
    cases hphase.symm.trans hstart
  refine { h with
    starting := fun other item' hstart => ?_
    served := fun _ => ?_
    queue := h.queue
    activated := h.activated.trans (or_congr_right
      (exists_congr fun other => exists_congr fun item' => hstarting.symm)) }
  · obtain ⟨hnone, hfirst, honly⟩ := h.starting other item' (hstarting.mp hstart)
    exact ⟨hnone, hfirst, fun third item'' hthis => honly third item'' (hstarting.mp hthis)⟩
  · rcases h.activated.mp hactive with hsome | ⟨other, item', hstart⟩
    · exact .inl hsome
    · refine .inr ⟨other, fun hidle => ?_⟩
      cases (hstarting.mpr hstart).symm.trans hidle

/-- A writer that finds none is the one that starts it. -/
theorem Kept.testIdle (h : s.Kept) (hoff : s.activated = false)
    (hfront : s.dataQueue.items.head? = some item) :
    Kept { s with
      activated := true
      phase := Function.update s.phase writer (.starting item) } := by
  have hnot : ¬ (s.dma.isSome ∨ ∃ writer item, s.phase writer = .starting item) := fun hon =>
    Bool.false_ne_true (hoff.symm.trans (h.activated.mpr hon))
  have hdma : s.dma = none := Option.not_isSome_iff_eq_none.mp fun hsome => hnot (.inl hsome)
  have honly : ∀ {other item'}, Function.update s.phase writer (.starting item) other =
      .starting item' → other = writer ∧ item' = item := by
    intro other item' hstart
    by_cases hthis : other = writer
    · subst hthis
      rw [Function.update_self] at hstart
      exact ⟨rfl, (WriterPhase.starting.inj hstart).symm⟩
    · rw [Function.update_of_ne hthis] at hstart
      exact absurd (.inr ⟨other, item', hstart⟩) hnot
  exact { h with
    starting := fun other item' hstart => by
      obtain ⟨rfl, rfl⟩ := honly hstart
      exact ⟨hdma, hfront, fun third item'' hthis => (honly hthis).1⟩
    served := fun _ => .inr ⟨writer, fun hidle => by
      cases (Function.update_self writer _ s.phase).symm.trans hidle⟩
    queue := h.queue
    activated := iff_of_true rfl (.inr ⟨writer, item, Function.update_self _ _ _⟩) }

theorem Kept.start (h : s.Kept) (hphase : s.phase writer = .starting item) :
    (s.start writer item).Kept := by
  obtain ⟨hnone, hfirst, honly⟩ := h.starting writer item hphase
  have hnobody : ∀ {other item'}, Function.update s.phase writer .idle other ≠
      .starting item' := fun {other item'} hstart => by
    obtain ⟨hne, hthis⟩ := phase_update hstart WriterPhase.noConfusion
    exact hne (honly other item' hthis)
  exact {
    completed := h.completed
    transmitted := by
      show (s.transmitted ++ [item]).map some = s.completed ++ [some item]
      rw [List.map_append, h.transmitted, hnone]
      exact congrArg (· ++ [some item]) (List.append_nil _)
    running := fun item' hthis => by
      obtain rfl := Option.some.inj hthis
      exact hfirst
    starting := fun other item' hstart => absurd hstart hnobody
    served := fun _ => .inl rfl
    queue := h.queue
    activated := iff_of_true (h.activated.mpr (.inr ⟨writer, item, hphase⟩)) (.inl rfl) }

theorem Kept.step {a : DmaTxStep τ} (h : s.Kept) (hok : s.InFront a)
    (hstep : machine.step s a = some next) : next.Kept := by
  cases a with
  | push writer item =>
    obtain ⟨⟨hidle, hroom⟩, hnext⟩ := Option.ite_none_right_eq_some.mp hstep
    obtain rfl := Option.some.inj hnext
    exact h.push hidle hroom item
  | test writer =>
    cases hphase : s.phase writer with
    | idle | starting _ =>
      simp only [machine, hphase] at hstep
      cases hstep
    | pushed item =>
      simp only [machine, hphase] at hstep
      obtain rfl := Option.some.inj hstep
      unfold DmaTx.test
      by_cases hactive : s.activated = true
      · rw [if_pos hactive]
        exact h.testActive hphase hactive
      · rw [if_neg hactive]
        exact h.testIdle (Bool.eq_false_iff.mpr hactive) ((hok item hphase).resolve_left hactive)
  | start writer =>
    cases hphase : s.phase writer with
    | idle | pushed _ =>
      simp only [machine, hphase] at hstep
      cases hstep
    | starting item =>
      simp only [machine, hphase] at hstep
      obtain rfl := Option.some.inj hstep
      exact h.start hphase
  | done =>
    obtain ⟨item, hdma, rfl⟩ := Option.map_eq_some_iff.mp hstep
    exact h.txDmaDone hdma

/-- A test that keeps the order has found a transfer or its buffer in front. -/
theorem inFront_of_right {a : DmaTxStep τ} (hright : ∀ next, machine.step s a = some next →
    next.Right) : s.InFront a := by
  cases a with
  | push | start | done => trivial
  | test writer =>
    intro item hphase
    have hstep : machine.step s (.test writer) = some (s.test writer item) := by
      simp only [machine, hphase]
    have hnext := hright _ hstep
    cases hactive : s.activated with
    | true => exact .inl rfl
    | false =>
      have htest : s.test writer item = { s with
          activated := true
          phase := Function.update s.phase writer (.starting item) } :=
        if_neg (Bool.eq_false_iff.mp hactive)
      rw [htest] at hnext
      exact .inr (hnext.starting writer item (Function.update_self _ _ _)).2.1

omit [DecidableEq τ] in
/-- While nobody is between its push and its test, a queue without a transfer is empty. -/
theorem Kept.items_eq_nil_of_idle (h : s.Kept)
    (hquiet : ∀ writer item, s.phase writer ≠ .pushed item)
    (hoff : s.activated = false) : s.dataQueue.items = [] := by
  by_contra hne
  refine Bool.false_ne_true (hoff.symm.trans (h.activated.mpr ?_))
  refine (h.served hne).imp_right fun ⟨writer, hbusy⟩ => ?_
  cases hphase : s.phase writer with
  | idle => exact absurd hphase hbusy
  | pushed item => exact absurd hphase (hquiet writer item)
  | starting item => exact ⟨writer, item, hphase⟩

/-- For every schedule of writers and transfers, the buffers go out in the order of their pushes
and each once, if and only if all tests find a transfer under way or their buffer in front. -/
theorem dmaTx_right_iff (queue : Nat → RtDataItem) (steps : List (DmaTxStep τ)) :
    machine.AllSteps (fun _ _ next => next.Right) (rtSerialOpen queue) steps ↔
      machine.Admitted InFront (rtSerialOpen queue) steps :=
  Machine.allSteps_iff_admitted
    (fun _ _ h => ⟨inFront_of_right, fun hok _ hstep => (h.step hok hstep).toRight⟩)
    (fun _ _ _ hok hstep h => h.step hok hstep) steps (kept_open queue)

omit [DecidableEq τ] in
theorem txDmaDone_phase (s : DmaTx τ) : s.txDmaDone.phase = s.phase := by
  unfold DmaTx.txDmaDone popLast
  dsimp only
  split_ifs <;> rfl

theorem quiet_update {phase : τ → WriterPhase} {p : WriterPhase}
    (hquiet : ∀ other item, other ≠ writer → phase other ≠ .pushed item)
    (hp : ∀ item, p ≠ .pushed item) (other : τ) (item : RtDataItem) :
    Function.update phase writer p other ≠ .pushed item := fun hthis => by
  obtain ⟨hne, hother⟩ := phase_update hthis (hp item)
  exact hquiet other item hne hother

/-- A push and its test find a transfer or an empty queue. -/
theorem admitted_of_paired {steps : List (DmaTxStep τ)} (hpaired : Paired steps) (h : s.Kept)
    (hquiet : ∀ writer item, s.phase writer ≠ .pushed item) :
    machine.Admitted InFront s steps := by
  induction steps using Paired.induct generalizing s with
  | case1 => trivial
  | case2 writer item other rest ih =>
    obtain ⟨rfl, hrest⟩ := hpaired
    refine ⟨trivial, fun mid hmid => ?_⟩
    have hmidKept := h.step (a := .push other item) trivial hmid
    obtain ⟨⟨-, hroom⟩, hnext⟩ := Option.ite_none_right_eq_some.mp hmid
    obtain rfl := Option.some.inj hnext
    have hself : (s.push other item).phase other = .pushed item := Function.update_self _ _ _
    have hfront : (s.push other item).InFront (.test other) := by
      intro item' hphase
      obtain rfl := WriterPhase.pushed.inj (hself.symm.trans hphase)
      refine (Bool.eq_false_or_eq_true s.activated).imp_right fun hoff => ?_
      obtain ⟨-, -, hitems⟩ := h.queue.store hroom item
      show (s.dataQueue.store item).items.head? = some item
      rw [hitems, h.items_eq_nil_of_idle hquiet hoff]
      rfl
    refine ⟨hfront, fun last hlast => ih hrest (hmidKept.step hfront hlast) ?_⟩
    have hlast' : some ((s.push other item).test other item) = some last := by
      rw [← hlast]
      simp only [machine, hself]
    obtain rfl := Option.some.inj hlast'
    have hothers : ∀ u item', u ≠ other → (s.push other item).phase u ≠ .pushed item' :=
      fun u item' hne hthis => hquiet u item' ((Function.update_of_ne hne _ _).symm.trans hthis)
    unfold DmaTx.test
    split
    · exact quiet_update hothers fun _ => WriterPhase.noConfusion
    · exact quiet_update hothers fun _ => WriterPhase.noConfusion
  | case3 writer item rest hno =>
    rw [Paired.eq_3 writer item rest hno] at hpaired
    exact hpaired.elim
  | case4 writer rest => exact False.elim hpaired
  | case5 writer rest ih =>
    refine ⟨trivial, fun mid hmid => ih hpaired (h.step (a := .start writer) trivial hmid) ?_⟩
    cases hphase : s.phase writer with
    | idle | pushed _ =>
      simp only [machine, hphase] at hmid
      cases hmid
    | starting item =>
      simp only [machine, hphase] at hmid
      obtain rfl := Option.some.inj hmid
      exact quiet_update (fun u item' _ => hquiet u item') fun _ => WriterPhase.noConfusion
  | case6 rest ih =>
    refine ⟨trivial, fun mid hmid => ih hpaired (h.step (a := .done) trivial hmid) ?_⟩
    obtain ⟨item, -, rfl⟩ := Option.map_eq_some_iff.mp hmid
    rw [txDmaDone_phase]
    exact hquiet

/-- With the push and the test in one section, the buffers would always be right. -/
theorem right_of_paired (queue : Nat → RtDataItem) {steps : List (DmaTxStep τ)}
    (hpaired : Paired steps) :
    machine.AllSteps (fun _ _ next => next.Right) (rtSerialOpen queue) steps :=
  Machine.allSteps_of_admitted
    (fun _ _ _ hok hstep (h : Kept _) => ⟨h.step hok hstep, (h.step hok hstep).toRight⟩) steps
    (kept_open queue)
    (admitted_of_paired hpaired (kept_open queue) fun _ _ => WriterPhase.noConfusion)

/-- A second writer pushes and tests between the two sections of a first one: its buffer goes out
first and twice, and the first one never. -/
example : (machine.exec (rtSerialOpen fun _ => ⟨0, 0⟩ : DmaTx Bool) [.push false ⟨1, 4⟩,
    .push true ⟨2, 6⟩, .test true, .start true, .test false, .done, .done]).map
      (fun s => (s.transmitted, s.completed)) =
    some ([⟨2, 6⟩, ⟨2, 6⟩], [some ⟨1, 4⟩, some ⟨2, 6⟩]) := rfl

end Invariant

end DmaTx

end Gd32Vw553h.Serial
