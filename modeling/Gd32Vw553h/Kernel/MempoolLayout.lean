/-
  Kernel/MempoolLayout.lean --- where a memory pool lies (`rt_mp_init`, `rt_mp_alloc`).

  `rt_mp_init` writes a link word in front of each block and then one more at the last of
  them; without a block that one goes in front of the pool.  A step of a thread takes a
  block, puts one back or leaves the pool alone (`PoolEffect`), so that what `rt_mp_alloc`
  returns in any run is a block that `rt_mp_init` has made.  `mpLayout_iff` says for which
  sizes this is inside the area.
-/
import Gd32Vw553h.Foundation.Slots
import Gd32Vw553h.Kernel.Mempool

set_option autoImplicit false

namespace Gd32Vw553h.Kernel.Mempool

open Gd32Vw553h.Foundation Gd32Vw553h.Klibc

/-! ## Initialisation -/

/-- The offsets of the words that `rt_mp_init` writes, in order. -/
def initWrites (size blockSize : Nat) : List Nat :=
  let stride := rtAlign blockSize + sizeofPtr
  let total := rtAlignDown size / stride
  (List.range total).map (· * stride) ++ [lastLink stride total]

theorem linkBlocks_other (stride : Nat) (words : Nat → MpPtr) {n off : Nat}
    (h : ∀ i < n, off ≠ i * stride) : linkBlocks stride words n off = words off := by
  induction n with
  | zero => rfl
  | succ n ih =>
    rw [linkBlocks, List.range_succ, List.foldl_append, List.foldl_cons, List.foldl_nil,
      Function.update_of_ne (h n (Nat.lt_succ_self n))]
    exact ih fun i hi => h i (Nat.lt_succ_of_lt hi)

/-- Other words stay as they are. -/
theorem rtMpInit_words_other (words : Nat → MpPtr) {size blockSize off : Nat}
    (h : off ∉ initWrites size blockSize) : (rtMpInit words size blockSize).words off = words off := by
  unfold initWrites at h
  obtain ⟨hblocks, hlast⟩ := not_or.mp (mt List.mem_append.mpr h)
  have hne := mt List.mem_singleton.mpr hlast
  refine (Function.update_of_ne hne _ _).trans (linkBlocks_other _ _ fun i hi heq => hblocks ?_)
  exact List.mem_map.mpr ⟨i, List.mem_range.mpr hi, heq.symm⟩

/-! ## What a step does to the pool -/

section Effects

variable {κ : Type*} {s s' mid : MempoolState κ} {thread : κ}

/-- The blocks are as before, and none has been returned. -/
structure SamePool (s s' : MempoolState κ) : Prop where
  pool : s'.pool = s.pool
  live : s'.live = s.live
  events : ∀ t b, MpEvent.allocated t b ∈ s'.history → MpEvent.allocated t b ∈ s.history

theorem SamePool.trans (h : SamePool s mid) (h' : SamePool mid s') : SamePool s s' :=
  ⟨h'.pool.trans h.pool, h'.live.trans h.live, fun t b hmem => h.events t b (h'.events t b hmem)⟩

/-- Nothing but an event that is no allocation is added. -/
theorem samePool_of_eq (hpool : s'.pool = s.pool) (hlive : s'.live = s.live)
    {events : List (MpEvent κ)} (hhistory : s'.history = s.history ++ events)
    (hevents : ∀ t b, MpEvent.allocated t b ∉ events) : SamePool s s' := by
  refine ⟨hpool, hlive, fun t b hmem => ?_⟩
  rw [hhistory] at hmem
  exact (List.mem_append.mp hmem).resolve_right (hevents t b)

/-- What a step may do. -/
inductive PoolEffect (s s' : MempoolState κ) : Prop
  | kept (h : SamePool s s')
  | taken (b : Nat) (hfree : s.pool.blockFreeCount ≠ 0)
      (htake : s.pool.takeBlock = some (b, s'.pool)) (hlive : s'.live = b :: s.live)
      (hevents : ∀ t c, MpEvent.allocated t c ∈ s'.history →
        MpEvent.allocated t c ∈ s.history ∨ c = b)
  | freed (b : Nat) (hmem : b ∈ s.live) (hpool : s'.pool = s.pool.putBlock b)
      (hlive : s'.live = s.live.erase b)
      (hevents : ∀ t c, MpEvent.allocated t c ∈ s'.history → MpEvent.allocated t c ∈ s.history)

variable [DecidableEq κ]

theorem samePool_timerStop (s : MempoolState κ) (thread : κ) :
    SamePool s (s.timerStop thread).2 := by
  unfold MempoolState.timerStop
  split
  · exact ⟨rfl, rfl, fun _ _ h => h⟩
  · exact ⟨rfl, rfl, fun _ _ h => h⟩

theorem samePool_wake (s : MempoolState κ) (thread : κ) (error : Int) :
    SamePool s (s.wake thread error) :=
  samePool_of_eq rfl rfl rfl fun t b => by simp

theorem samePool_finish (s : MempoolState κ) (thread : κ) {event : MpEvent κ}
    (hevent : ∀ t b, MpEvent.allocated t b ≠ event) : SamePool s (s.finish thread event) :=
  samePool_of_eq rfl rfl rfl fun t b hmem => hevent t b (List.mem_singleton.mp hmem)

theorem samePool_suspend (s : MempoolState κ) (thread : κ) (time : Int) :
    SamePool s (s.suspend thread time) := by
  unfold MempoolState.suspend
  dsimp only
  have hlisted : SamePool s { s with
      error := Function.update s.error thread 0
      suspendThread := s.suspendThread ++ [thread]
      calls := Function.update s.calls thread (some (.asleep time s.tick))
      history := s.history ++ [MpEvent.empty thread] } :=
    samePool_of_eq rfl rfl rfl fun t b => by simp
  have hstopped := hlisted.trans (samePool_timerStop _ thread)
  split
  · exact ⟨hstopped.pool, hstopped.live, hstopped.events⟩
  · exact hstopped

theorem samePool_dequeue (s : MempoolState κ) : SamePool s s.dequeue := by
  unfold MempoolState.dequeue
  split
  · exact ⟨rfl, rfl, fun _ _ h => h⟩
  · next first _ _ =>
    have hstopped := samePool_timerStop s first
    dsimp only
    split
    · exact hstopped.trans (samePool_wake _ first 0)
    · exact hstopped

theorem poolEffect_allocStep (hstep : s.allocStep thread = some s') : PoolEffect s s' := by
  unfold MempoolState.allocStep at hstep
  cases hcall : s.calls thread with
  | none => simp [hcall] at hstep
  | some point =>
    rw [hcall] at hstep
    cases point with
    | lock time =>
      dsimp only at hstep
      by_cases hfree : s.pool.blockFreeCount = 0
      · rw [if_pos hfree] at hstep
        by_cases htime : time = 0
        · rw [if_pos htime] at hstep
          obtain rfl := Option.some.inj hstep
          have hempty : SamePool s { s with history := s.history ++ [MpEvent.empty thread] } :=
            samePool_of_eq rfl rfl rfl fun t b => by simp
          exact .kept (hempty.trans (samePool_finish _ thread fun t b => nofun))
        · rw [if_neg htime] at hstep
          obtain rfl := Option.some.inj hstep
          exact .kept (samePool_suspend s thread time)
      · rw [if_neg hfree] at hstep
        obtain ⟨⟨b, pool⟩, htake, rfl⟩ := Option.map_eq_some_iff.mp hstep
        refine .taken b hfree htake rfl fun t c hmem => ?_
        rcases List.mem_append.mp hmem with hold | hnew
        · exact .inl hold
        · exact .inr (MpEvent.allocated.inj (List.mem_singleton.mp hnew)).2
    | asleep time before =>
      dsimp only at hstep
      by_cases hmem : thread ∈ s.suspendThread
      · simp [hmem] at hstep
      · rw [if_neg hmem] at hstep
        by_cases herror : s.error thread ≠ 0
        · rw [if_pos herror] at hstep
          obtain rfl := Option.some.inj hstep
          exact .kept (samePool_finish s thread fun t b => nofun)
        · rw [if_neg herror] at hstep
          obtain rfl := Option.some.inj hstep
          exact .kept ⟨rfl, rfl, fun _ _ h => h⟩

/-- Every step has one of the effects. -/
theorem poolEffect {a : MempoolStep κ} (hstep : mempoolMachine.step s a = some s') :
    PoolEffect s s' := by
  cases a with
  | alloc thread time =>
    cases hcall : s.calls thread with
    | some point => simp [mempoolMachine, hcall] at hstep
    | none =>
      obtain rfl : _ = s' := by simpa [mempoolMachine, hcall] using hstep
      exact .kept ⟨rfl, rfl, fun _ _ h => h⟩
  | next thread => exact poolEffect_allocStep hstep
  | free ptr =>
    by_cases hlive : ptr ∈ s.live
    · cases hword : s.pool.words ptr with
      | null => simp [mempoolMachine, hlive, hword] at hstep
      | block offset => simp [mempoolMachine, hlive, hword] at hstep
      | mp =>
        obtain rfl : _ = s' := by simpa [mempoolMachine, hlive, hword] using hstep
        have hdequeued := samePool_dequeue
          { s with pool := s.pool.putBlock ptr, live := s.live.erase ptr }
        exact .freed ptr hlive hdequeued.pool hdequeued.live hdequeued.events
    · simp [mempoolMachine, hlive] at hstep
  | expire thread =>
    by_cases hrunning : s.timerRunning thread = true ∧ s.timeoutDue thread = false
    · obtain rfl : _ = s' := by simpa [mempoolMachine, hrunning] using hstep
      exact .kept ⟨rfl, rfl, fun _ _ h => h⟩
    · simp [mempoolMachine, hrunning] at hstep
  | timeout thread =>
    by_cases hdue : s.timeoutDue thread = true
    · obtain rfl : _ = s' := by simpa [mempoolMachine, hdue] using hstep
      have hwoken := samePool_wake
        { s with timeoutDue := Function.update s.timeoutDue thread false } thread (-rtETimeout)
      exact .kept ⟨hwoken.pool, hwoken.live, hwoken.events⟩
    · simp [mempoolMachine, hdue] at hstep
  | tick n =>
    obtain rfl := Option.some.inj hstep
    exact .kept ⟨rfl, rfl, fun _ _ h => h⟩

end Effects

/-! ## Blocks that have been returned -/

/-- `rt_mp_init` writes into the area alone, and each block returned later is a region of
`block_size` bytes in it. -/
structure LayoutRight (κ : Type*) [DecidableEq κ] (start size blockSize : Nat) : Prop where
  writes : ∀ off ∈ initWrites size blockSize,
    InArea wordSize start size ((start + off) % wordSize) sizeofPtr
  blocks : ∀ (words : Nat → MpPtr) (tick : Nat) (schedule : List (MempoolStep κ))
    (final : MempoolState κ),
    mempoolMachine.Run Machine.anyStep (.start (rtMpInit words size blockSize) tick) schedule final →
      ∀ t ptr, MpEvent.allocated t ptr ∈ final.history →
        InArea wordSize start size ((start + (ptr + sizeofPtr)) % wordSize) blockSize

/-- There is room for a block, and `RT_ALIGN` does not wrap; or there is none, and the last
link word wraps back into the area. -/
def LayoutFits (size blockSize : Nat) : Prop :=
  (blockSize ≤ alignMax ∧ rtAlign blockSize + sizeofPtr ≤ rtAlignDown size) ∨
    (rtAlignDown size < rtAlign blockSize + sizeofPtr ∧
      wordSize + sizeofPtr ≤ size + (rtAlign blockSize + sizeofPtr))

section Layout

variable {κ : Type*} [DecidableEq κ] {s s' : MempoolState κ} {thread : κ}

theorem takeBlock_sizes {mp mp' : RtMempool} {b : Nat} (h : mp.takeBlock = some (b, mp')) :
    mp'.size = mp.size ∧ mp'.blockSize = mp.blockSize := by
  unfold RtMempool.takeBlock at h
  cases hlist : mp.blockList with
  | null => simp [hlist] at h
  | mp => simp [hlist] at h
  | block ptr =>
    rw [hlist] at h
    obtain ⟨-, rfl⟩ := Prod.mk.inj (Option.some.inj h)
    exact ⟨rfl, rfl⟩

/-- The sizes are those of `rt_mp_init`, and what has been returned are blocks of the pool. -/
structure MempoolState.Returns (size blockSize : Nat) (s : MempoolState κ) : Prop where
  size_eq : s.pool.size = size
  blockSize_eq : s.pool.blockSize = blockSize
  inside : ∀ t b, MpEvent.allocated t b ∈ s.history → s.pool.InPool b

theorem inPool_congr {mp mp' : RtMempool} {b : Nat} (hsize : mp'.size = mp.size)
    (hblock : mp'.blockSize = mp.blockSize) (h : mp.InPool b) : mp'.InPool b := by
  have hstride : mp'.stride = mp.stride := by rw [RtMempool.stride, hblock, RtMempool.stride]
  unfold RtMempool.InPool at h ⊢
  rwa [hstride, hsize]

theorem returns_step {size blockSize : Nat} (hsound : s.Sound) (h : s.Returns size blockSize)
    {a : MempoolStep κ} (hstep : mempoolMachine.step s a = some s') :
    s'.Returns size blockSize := by
  rcases poolEffect hstep with hsame | ⟨b, hfree, htake, hlive, hevents⟩ |
    ⟨b, hmem, hpool, hlive, hevents⟩
  · exact ⟨hsame.pool ▸ h.size_eq, hsame.pool ▸ h.blockSize_eq,
      fun t b hmem => hsame.pool ▸ h.inside t b (hsame.events t b hmem)⟩
  · obtain ⟨hsize, hblock⟩ := takeBlock_sizes htake
    refine ⟨hsize.trans h.size_eq, hblock.trans h.blockSize_eq, fun t c hmem => ?_⟩
    rcases hevents t c hmem with hold | rfl
    · exact inPool_congr hsize hblock (h.inside t c hold)
    · obtain ⟨chain, hholds⟩ := (sound_step hsound hstep).blocks
      exact hholds.inside c (List.mem_append_right chain (hlive ▸ List.mem_cons_self))
  · refine ⟨?_, ?_, fun t c hmem => ?_⟩
    · rw [hpool]
      exact h.size_eq
    · rw [hpool]
      exact h.blockSize_eq
    · rw [hpool]
      exact inPool_congr rfl rfl (h.inside t c (hevents t c hmem))

/-- With blocks, every run returns blocks of the pool. -/
theorem allocated_inPool {words : Nat → MpPtr} {size blockSize tick : Nat}
    (hblocks : 0 < (rtMpInit words size blockSize).blockTotalCount)
    {schedule : List (MempoolStep κ)} {final : MempoolState κ}
    (run : mempoolMachine.Run Machine.anyStep (.start (rtMpInit words size blockSize) tick)
      schedule final) {t : κ} {b : Nat} (hmem : MpEvent.allocated t b ∈ final.history) :
    (rtMpInit words size blockSize).InPool b := by
  have hboth : final.Sound ∧ final.Returns (rtAlignDown size) (rtAlign blockSize) := by
    refine run.invariant
      (I := fun s => s.Sound ∧ s.Returns (rtAlignDown size) (rtAlign blockSize))
      (fun s a s' _ hstep h => ⟨sound_step h.1 hstep, returns_step h.1 h.2 hstep⟩) ?_
    exact ⟨sound_start words tick hblocks, rfl, rfl, fun t b hmem => absurd hmem List.not_mem_nil⟩
  exact inPool_congr hboth.2.size_eq.symm hboth.2.blockSize_eq.symm (hboth.2.inside t b hmem)

/-- Without a block, nothing is ever returned. -/
theorem not_allocated {words : Nat → MpPtr} {size blockSize tick : Nat}
    (hblocks : (rtMpInit words size blockSize).blockTotalCount = 0)
    {schedule : List (MempoolStep κ)} {final : MempoolState κ}
    (run : mempoolMachine.Run Machine.anyStep (.start (rtMpInit words size blockSize) tick)
      schedule final) (t : κ) (b : Nat) : MpEvent.allocated t b ∉ final.history := by
  have hnone : final.pool.blockFreeCount = 0 ∧ final.live = [] ∧
      ∀ t b, MpEvent.allocated t b ∉ final.history := by
    refine run.invariant (I := fun s => s.pool.blockFreeCount = 0 ∧ s.live = [] ∧
      ∀ t b, MpEvent.allocated t b ∉ s.history) (fun s a s' _ hstep h => ?_) ?_
    · obtain ⟨hfree, hlive, hevents⟩ := h
      rcases poolEffect hstep with hsame | ⟨b, hsome, -, -, -⟩ | ⟨b, hmem, -, -, -⟩
      · exact ⟨hsame.pool ▸ hfree, hsame.live.trans hlive,
          fun t b hmem => hevents t b (hsame.events t b hmem)⟩
      · exact absurd hfree hsome
      · exact absurd (hlive ▸ hmem) List.not_mem_nil
    · exact ⟨hblocks, rfl, fun t b => List.not_mem_nil⟩
  exact hnone.2.2 t b

/-- A call finds a free block and returns the first one. -/
theorem exists_run_alloc {chain : List Nat} {b : Nat} (h : s.pool.Holds (b :: chain) s.live)
    (hcall : s.calls thread = none) :
    ∃ s', mempoolMachine.Run Machine.anyStep s [.alloc thread 0, .next thread] s' ∧
      s'.pool.Holds chain s'.live ∧ s'.calls thread = none ∧
      s'.history = s.history ++ [.allocated thread b] := by
  have hfree : s.pool.blockFreeCount ≠ 0 := by
    rw [← h.free, List.length_cons]
    exact Nat.succ_ne_zero _
  obtain ⟨b', rest, mp', hchain, htake, hholds⟩ := h.takeBlock hfree
  obtain ⟨rfl, rfl⟩ := List.cons.inj hchain
  have hcalled : mempoolMachine.step s (.alloc thread 0) =
      some { s with calls := Function.update s.calls thread (some (.lock 0)) } := by
    simp [mempoolMachine, hcall]
  refine ⟨MempoolState.finish { s with
    calls := Function.update s.calls thread (some (.lock 0))
    pool := mp', live := b :: s.live } thread (.allocated thread b),
    .cons trivial hcalled (.cons trivial ?_ (.nil _)), hholds, Function.update_self _ _ _, rfl⟩
  simp [mempoolMachine, MempoolState.allocStep, hfree, htake]

/-- With blocks of less than a word, the second of them does not fit. -/
theorem not_layoutRight_wrapped (thread : κ) {start size blockSize : Nat} (hstart : start < wordSize)
    (hsize : size < wordSize) (hword : blockSize < wordSize) (hwrap : alignMax < blockSize)
    (hroom : sizeofPtr ≤ rtAlignDown size) : ¬LayoutRight κ start size blockSize := by
  intro h
  have halign : rtAlign blockSize = 0 := (le_rtAlign_iff hword).2 hwrap
  have htotal : (rtMpInit (fun _ => .null) size blockSize).blockTotalCount =
      rtAlignDown size / sizeofPtr := by
    show rtAlignDown size / (rtAlign blockSize + sizeofPtr) = _
    rw [halign, Nat.zero_add]
  have htwo : 2 ≤ rtAlignDown size / sizeofPtr := by
    have hdvd := rtAlignDown_dvd size
    unfold rtAlignSize sizeofPtr at *
    omega
  obtain ⟨chain, hholds⟩ := @holds_init (fun _ => .null) size blockSize
    (by rw [htotal]; omega)
  have hlength : chain.length = rtAlignDown size / sizeofPtr := hholds.free.trans htotal
  match chain, hholds, hlength with
  | [], _, hlength => simp at hlength; omega
  | [_], _, hlength => simp at hlength; omega
  | b :: c :: chain, hholds, _ =>
    obtain ⟨mid, hfirst, hmid, hcalls, hhistory⟩ := @exists_run_alloc κ _
      (.start (rtMpInit (fun _ => .null) size blockSize) 0) thread (c :: chain) b hholds rfl
    obtain ⟨final, hsecond, -, -, hfinal⟩ := exists_run_alloc hmid hcalls
    have hrun := hfirst.append hsecond
    have hone : MpEvent.allocated thread b ∈ final.history := by simp [hfinal, hhistory]
    have htwo' : MpEvent.allocated thread c ∈ final.history := by simp [hfinal]
    have hne : b ≠ c := fun heq => by
      have hnodup := hholds.nodup
      simp [heq] at hnodup
    have hout : ∀ ptr, MpEvent.allocated thread ptr ∈ final.history →
        sizeofPtr ∣ ptr ∧ ptr + sizeofPtr + blockSize ≤ size := by
      intro ptr hmem
      obtain ⟨hdvd, hle⟩ := allocated_inPool (by rw [htotal]; omega) hrun hmem
      have hstride : (rtMpInit (fun _ => .null) size blockSize).stride = sizeofPtr := by
        show rtAlign blockSize + sizeofPtr = _
        rw [halign, Nat.zero_add]
      rw [hstride] at hdvd hle
      have hbound : ptr + sizeofPtr ≤ size := hle.trans (rtAlignDown_le size)
      have harea := h.blocks _ 0 _ final hrun thread ptr hmem
      exact ⟨hdvd, (inArea_iff hstart hsize (by omega) (by omega)).mp harea⟩
    obtain ⟨hb, hbfit⟩ := hout b hone
    obtain ⟨hc, hcfit⟩ := hout c htwo'
    unfold alignMax wordSize rtAlignSize sizeofPtr at *
    omega

/-- `rt_mp_init` and `rt_mp_alloc` keep to the area exactly for these sizes. -/
theorem mpLayout_iff (thread : κ) {start size blockSize : Nat} (hstart : start < wordSize)
    (hsize : size < wordSize) (hblock : 0 < blockSize) (hword : blockSize < wordSize) :
    LayoutRight κ start size blockSize ↔ LayoutFits size blockSize := by
  have halign := le_rtAlign_iff hword
  have hdown := rtAlignDown_le size
  generalize hstride : rtAlign blockSize + sizeofPtr = stride
  have hpos : sizeofPtr ≤ stride := hstride ▸ Nat.le_add_left _ _
  have hless : stride < wordSize := by
    rw [← hstride]
    unfold rtAlign wordSize rtAlignSize sizeofPtr
    omega
  have hwrites : initWrites size blockSize = (List.range (rtAlignDown size / stride)).map
      (· * stride) ++ [lastLink stride (rtAlignDown size / stride)] := by
    rw [initWrites, hstride]
  rcases Nat.lt_or_ge (rtAlignDown size) stride with hsmall | hroom
  · have hzero : rtAlignDown size / stride = 0 := Nat.div_eq_of_lt hsmall
    have hlast : initWrites size blockSize = [wordSize - stride] := by
      rw [hwrites, hzero, lastLink, if_pos rfl]
      rfl
    have hoff : wordSize - stride < wordSize := by omega
    constructor
    · intro h
      have harea := h.writes (wordSize - stride) (hlast ▸ List.mem_singleton_self _)
      have hend := (inArea_iff hstart hsize hoff (by decide)).mp harea
      exact .inr ⟨by omega, by omega⟩
    · intro h
      have hend : wordSize - stride + sizeofPtr ≤ size := by
        rcases h with ⟨-, hfit⟩ | ⟨-, hfit⟩
        · omega
        · omega
      refine ⟨fun off hmem => ?_, fun words tick schedule final run t ptr hmem => ?_⟩
      · obtain rfl := List.mem_singleton.mp (hlast ▸ hmem)
        exact (inArea_iff hstart hsize hoff (by decide)).mpr hend
      · refine absurd hmem (not_allocated ?_ run t ptr)
        show rtAlignDown size / (rtAlign blockSize + sizeofPtr) = 0
        rw [hstride, hzero]
  · constructor
    · intro h
      rcases Nat.lt_or_ge alignMax blockSize with hwrap | hfit
      · refine absurd h (not_layoutRight_wrapped thread hstart hsize hword hwrap ?_)
        rw [← hstride] at hroom
        exact (Nat.le_add_left _ _).trans hroom
      · exact .inl ⟨hfit, hstride ▸ hroom⟩
    · intro h
      have hfit : blockSize ≤ alignMax := by
        rcases h with ⟨hfit, -⟩ | ⟨hsmall, -⟩
        · exact hfit
        · omega
      have hle := halign.1 hfit
      have hblocks : 0 < rtAlignDown size / stride := Nat.div_pos hroom (by omega)
      have hend : rtAlignDown size / stride * stride ≤ size :=
        (Nat.div_mul_le_self _ _).trans hdown
      refine ⟨fun off hmem => ?_, fun words tick schedule final run t ptr hmem => ?_⟩
      · obtain ⟨i, hi, rfl⟩ : ∃ i < rtAlignDown size / stride, off = i * stride := by
          rw [hwrites] at hmem
          rcases List.mem_append.mp hmem with hmem | hmem
          · obtain ⟨i, hi, rfl⟩ := List.mem_map.mp hmem
            exact ⟨i, List.mem_range.mp hi, rfl⟩
          · refine ⟨rtAlignDown size / stride - 1, by omega, ?_⟩
            rw [List.mem_singleton.mp hmem, lastLink, if_neg (by omega)]
        have hslot : i * stride + (sizeofPtr - 1) < rtAlignDown size / stride * stride :=
          slot_lt hi (by omega)
        exact (inArea_iff hstart hsize (by omega) (by decide)).mpr (by omega)
      · have hblocks : 0 < (rtMpInit words size blockSize).blockTotalCount := by
          show 0 < rtAlignDown size / (rtAlign blockSize + sizeofPtr)
          rwa [hstride]
        obtain ⟨-, hinside⟩ := allocated_inPool hblocks run hmem
        have hptr : ptr + stride ≤ rtAlignDown size := by
          rw [← hstride]
          exact hinside
        exact (inArea_iff hstart hsize (by omega) hblock).mpr (by omega)

end Layout

/-- An area with room for six blocks of ten bytes. -/
theorem mpLayout_iff_six : LayoutRight Bool 536870912 128 10 :=
  (mpLayout_iff true (by decide) (by decide) (by decide) (by decide)).mpr
    (.inl ⟨by decide, by decide⟩)

/-- An area of eight bytes has no room for a block of eight with its link word: the last
word is written twelve bytes in front of the area. -/
theorem not_layoutRight_small : ¬LayoutRight Bool 536870912 8 8 := by
  intro h
  have harea := h.writes (wordSize - 12) (by decide) 0 (by decide)
  revert harea
  decide

end Gd32Vw553h.Kernel.Mempool
