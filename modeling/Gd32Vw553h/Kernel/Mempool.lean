/-
  Kernel/Mempool.lean --- the memory pool (`src/mempool.c`).

  The blocks have one size and a link word in front.  In a free block the word points
  to the next free one, in a block that is handed out to the pool.  `Holds` says this,
  with the counts; taking the first free block and putting one back keep it
  (`Holds.takeBlock`, `Holds.putBlock`).  `mempool_invariant` follows for every
  interleaving of threads that allocate, wait, are woken by a free or by their timer,
  and try again, and says when `rt_mp_alloc` returns null.

  Pointers into the pool are offsets from `start_address`.  A thread timer may run out at
  any time; its callback comes later, so that a free can find the timer stopped and the
  thread still suspended.  `RT_ASSERT` is empty in this configuration.
-/
import Gd32Vw553h.Foundation.History
import Gd32Vw553h.Foundation.Runs
import Gd32Vw553h.Kernel.RtDef
import Gd32Vw553h.Klibc.KErrno
import Mathlib.Data.List.Nodup
import Mathlib.Data.List.Perm.Basic
import Mathlib.Logic.Function.Basic

set_option autoImplicit false

namespace Gd32Vw553h.Kernel.Mempool

open Gd32Vw553h.Foundation Gd32Vw553h.Klibc

/-! ## The pool -/

/-- What a link word holds: null, the pool, or a block. -/
inductive MpPtr where
  | null
  | mp
  | block (offset : Nat)
  deriving DecidableEq

/-- `sizeof(rt_uint8_t *)` -/
abbrev sizeofPtr : Nat := 4

/-- `struct rt_mempool`, and the link words in its memory. -/
structure RtMempool where
  size : Nat
  blockSize : Nat
  blockList : MpPtr
  blockTotalCount : Nat
  blockFreeCount : Nat
  words : Nat → MpPtr

/-- From one block to the next. -/
def RtMempool.stride (mp : RtMempool) : Nat := mp.blockSize + sizeofPtr

/-- The loop of `rt_mp_init` over the first `n` blocks. -/
def linkBlocks (stride : Nat) (words : Nat → MpPtr) (n : Nat) : Nat → MpPtr :=
  (List.range n).foldl (fun words offset =>
    Function.update words (offset * stride) (.block ((offset + 1) * stride))) words

/-- `(offset - 1) * (block_size + sizeof(rt_uint8_t *))` after the loop, which wraps when
there is no block. -/
def lastLink (stride total : Nat) : Nat :=
  if total = 0 then wordSize - stride else (total - 1) * stride

/-- `rt_mp_init`, over memory with these words. -/
def rtMpInit (words : Nat → MpPtr) (size blockSize : Nat) : RtMempool :=
  let size := rtAlignDown size
  let blockSize := rtAlign blockSize
  let stride := blockSize + sizeofPtr
  let total := size / stride
  { size := size
    blockSize := blockSize
    blockList := .block 0
    blockTotalCount := total
    blockFreeCount := total
    words := Function.update (linkBlocks stride words total) (lastLink stride total) .null }

/-- The end of `rt_mp_alloc`: the block taken off `block_list`. -/
def RtMempool.takeBlock (mp : RtMempool) : Option (Nat × RtMempool) :=
  match mp.blockList with
  | .block ptr =>
    some (ptr, { mp with
      blockFreeCount := mp.blockFreeCount - 1
      blockList := mp.words ptr
      words := Function.update mp.words ptr .mp })
  | _ => none

/-- What `rt_mp_free` does to the pool. -/
def RtMempool.putBlock (mp : RtMempool) (ptr : Nat) : RtMempool :=
  { mp with
    blockFreeCount := mp.blockFreeCount + 1
    words := Function.update mp.words ptr mp.blockList
    blockList := .block ptr }

/-! ## Threads -/

/-- `rt_int32_t` of a word. -/
def toInt32 (n : Nat) : Int := if n < 2147483648 then n else (n : Int) - 4294967296

/-- `time -= rt_tick_get() - before_sleep`, and not below zero. -/
def remaining (time : Int) (now beforeSleep : Nat) : Int :=
  max (toInt32 (wordSub time.toNat (wordSub now beforeSleep))) 0

/-- Where a call of `rt_mp_alloc` stands. -/
inductive AllocPoint where
  /-- before the lock is taken, first or again -/
  | lock (time : Int)
  /-- in `rt_schedule`, suspended or resumed -/
  | asleep (time : Int) (beforeSleep : Nat)
  deriving DecidableEq

/-- What has happened to a thread. -/
inductive MpEvent (κ : Type*) where
  /-- it has found `block_free_count` zero -/
  | empty (thread : κ)
  /-- it has been resumed with this `error` -/
  | woken (thread : κ) (error : Int)
  /-- `rt_mp_alloc` has returned null -/
  | failed (thread : κ)
  /-- `rt_mp_alloc` has returned a block -/
  | allocated (thread : κ) (ptr : Nat)
  deriving DecidableEq

/-- The thread of an event. -/
def MpEvent.thread {κ : Type*} : MpEvent κ → κ
  | .empty thread | .woken thread _ | .failed thread | .allocated thread _ => thread

/-- A pool and its threads. -/
structure MempoolState (κ : Type*) where
  pool : RtMempool
  tick : Nat
  suspendThread : List κ
  error : κ → Int
  /-- the thread timer is started -/
  timerRunning : κ → Bool
  /-- the thread timer has run out and `_thread_timeout` is about to be called -/
  timeoutDue : κ → Bool
  /-- `sched_flag_ttmr_set` -/
  ttmrSet : κ → Bool
  calls : κ → Option AllocPoint
  /-- the blocks handed out and not freed -/
  live : List Nat
  history : List (MpEvent κ)

inductive MempoolStep (κ : Type*) where
  /-- `rt_mp_alloc` is called -/
  | alloc (thread : κ) (time : Int)
  /-- the next statement of a call -/
  | next (thread : κ)
  /-- `rt_mp_free` of a live block -/
  | free (ptr : Nat)
  /-- the timer of a thread runs out -/
  | expire (thread : κ)
  /-- `_thread_timeout` is called -/
  | timeout (thread : κ)
  | tick (n : Nat)

section Steps

variable {κ : Type*} [DecidableEq κ]

/-- The thread is resumed with this `error`. -/
def MempoolState.wake (s : MempoolState κ) (thread : κ) (error : Int) : MempoolState κ :=
  { s with
    suspendThread := s.suspendThread.erase thread
    error := Function.update s.error thread error
    history := s.history ++ [.woken thread error] }

/-- `rt_sched_thread_timer_stop`: whether it returns `RT_EOK`, and the state. -/
def MempoolState.timerStop (s : MempoolState κ) (thread : κ) : Bool × MempoolState κ :=
  if s.ttmrSet thread then
    (s.timerRunning thread,
      { s with
        timerRunning := Function.update s.timerRunning thread false
        ttmrSet := Function.update s.ttmrSet thread false })
  else (true, s)

/-- `rt_susp_list_dequeue(&mp->suspend_thread, RT_EOK)` -/
def MempoolState.dequeue (s : MempoolState κ) : MempoolState κ :=
  match s.suspendThread with
  | [] => s
  | thread :: _ =>
    let (stopped, s) := s.timerStop thread
    if stopped then s.wake thread 0 else s

/-- The call is over. -/
def MempoolState.finish (s : MempoolState κ) (thread : κ) (event : MpEvent κ) : MempoolState κ :=
  { s with
    calls := Function.update s.calls thread none
    history := s.history ++ [event] }

/-- The thread suspends itself, for `time` ticks unless that is negative. -/
def MempoolState.suspend (s : MempoolState κ) (thread : κ) (time : Int) : MempoolState κ :=
  let s := { s with
    error := Function.update s.error thread 0
    suspendThread := s.suspendThread ++ [thread]
    calls := Function.update s.calls thread (some (.asleep time s.tick))
    history := s.history ++ [MpEvent.empty thread] }
  let (_, s) := s.timerStop thread
  if time > 0 then
    { s with
      timerRunning := Function.update s.timerRunning thread true
      ttmrSet := Function.update s.ttmrSet thread true }
  else s

/-- The next statement of `rt_mp_alloc`. -/
def MempoolState.allocStep (s : MempoolState κ) (thread : κ) :
    Option (MempoolState κ) :=
  match s.calls thread with
  | none => none
  | some (.lock time) =>
    if s.pool.blockFreeCount = 0 then
      if time = 0 then
        some (MempoolState.finish { s with history := s.history ++ [MpEvent.empty thread] } thread
          (.failed thread))
      else some (s.suspend thread time)
    else
      s.pool.takeBlock.map fun r =>
        MempoolState.finish { s with pool := r.2, live := r.1 :: s.live } thread
          (.allocated thread r.1)
  | some (.asleep time beforeSleep) =>
    if thread ∈ s.suspendThread then none
    else if s.error thread ≠ 0 then some (s.finish thread (.failed thread))
    else
      some { s with
        calls := Function.update s.calls thread
          (some (.lock (if time > 0 then remaining time s.tick beforeSleep else time))) }

/-- All interleavings. -/
def mempoolMachine : Machine (MempoolState κ) (MempoolStep κ) where
  step s
    | .alloc thread time =>
        match s.calls thread with
        | some _ => none
        | none => some { s with calls := Function.update s.calls thread (some (.lock time)) }
    | .next thread => s.allocStep thread
    | .free ptr =>
        if ptr ∈ s.live then
          match s.pool.words ptr with
          | .mp =>
            some (MempoolState.dequeue
              { s with pool := s.pool.putBlock ptr, live := s.live.erase ptr })
          | _ => none
        else none
    | .expire thread =>
        if s.timerRunning thread = true ∧ s.timeoutDue thread = false then
          some { s with
            timerRunning := Function.update s.timerRunning thread false
            timeoutDue := Function.update s.timeoutDue thread true }
        else none
    | .timeout thread =>
        if s.timeoutDue thread = true then
          some (MempoolState.wake
            { s with timeoutDue := Function.update s.timeoutDue thread false } thread (-rtETimeout))
        else none
    | .tick n => some { s with tick := (s.tick + n) % wordSize }

/-- An initialised pool at any tick; nothing is allocated and no thread waits. -/
def MempoolState.start (pool : RtMempool) (tick : Nat) : MempoolState κ where
  pool := pool
  tick := tick
  suspendThread := []
  error _ := 0
  timerRunning _ := false
  timeoutDue _ := false
  ttmrSet _ := false
  calls _ := none
  live := []
  history := []

/-- When the thread fails, it has just found no free block, or been woken with an error. -/
def Justified (before : List (MpEvent κ)) (event : MpEvent κ) : Prop :=
  ∀ thread, event = .failed thread →
    lastOf MpEvent.thread thread before = some (.empty thread) ∨
      ∃ error ≠ 0, lastOf MpEvent.thread thread before = some (.woken thread error)

end Steps

/-! ## Blocks -/

/-- Following the words from a pointer leads through these blocks to null. -/
def ChainFrom (words : Nat → MpPtr) : MpPtr → List Nat → Prop
  | ptr, [] => ptr = .null
  | ptr, b :: chain => ptr = .block b ∧ ChainFrom words (words b) chain

/-- The block is one of those that the pool is divided into. -/
def RtMempool.InPool (mp : RtMempool) (b : Nat) : Prop := mp.stride ∣ b ∧ b + mp.stride ≤ mp.size

/-- The free chain, the blocks handed out, and the counts. -/
structure RtMempool.Holds (mp : RtMempool) (chain live : List Nat) : Prop where
  linked : ChainFrom mp.words mp.blockList chain
  free : chain.length = mp.blockFreeCount
  nodup : (chain ++ live).Nodup
  inside : ∀ b ∈ chain ++ live, mp.InPool b
  owner : ∀ b ∈ live, mp.words b = .mp
  total : mp.blockFreeCount + live.length = mp.blockTotalCount

section Blocks

variable {mp : RtMempool} {words : Nat → MpPtr} {chain live : List Nat} {b : Nat}

theorem ChainFrom.update {ptr : MpPtr} (h : ChainFrom words ptr chain) (hb : b ∉ chain)
    (value : MpPtr) : ChainFrom (Function.update words b value) ptr chain := by
  induction chain generalizing ptr with
  | nil => exact h
  | cons c chain ih =>
    obtain ⟨hptr, hrest⟩ := h
    obtain ⟨hne, hnot⟩ := not_or.mp (mt List.mem_cons.mpr hb)
    refine ⟨hptr, ?_⟩
    rw [Function.update_of_ne (Ne.symm hne)]
    exact ih hrest hnot

/-- With a free block, `rt_mp_alloc` takes the first one. -/
theorem RtMempool.Holds.takeBlock (h : mp.Holds chain live) (hfree : mp.blockFreeCount ≠ 0) :
    ∃ b rest mp', chain = b :: rest ∧ mp.takeBlock = some (b, mp') ∧
      mp'.Holds rest (b :: live) := by
  obtain ⟨hlinked, hcount, hnodup, hinside, howner, htotal⟩ := h
  cases chain with
  | nil => exact absurd hcount.symm hfree
  | cons b rest =>
    obtain ⟨hptr, hrest⟩ := hlinked
    have hb := (List.nodup_cons.mp hnodup).1
    have hperm : (rest ++ b :: live).Perm (b :: rest ++ live) := List.perm_middle
    rw [List.length_cons] at hcount
    refine ⟨b, rest, { mp with
        blockFreeCount := mp.blockFreeCount - 1
        blockList := mp.words b
        words := Function.update mp.words b .mp }, rfl, by rw [RtMempool.takeBlock, hptr],
      hrest.update (fun hmem => hb (List.mem_append_left live hmem)) .mp, ?_,
      hperm.nodup_iff.mpr hnodup, fun c hc => hinside c (hperm.mem_iff.mp hc), fun c hc => ?_, ?_⟩
    · dsimp only
      omega
    · by_cases hcb : c = b
      · rw [hcb]
        exact Function.update_self _ _ _
      · have hlive := (List.mem_cons.mp hc).resolve_left hcb
        exact (Function.update_of_ne hcb _ _).trans (howner c hlive)
    · rw [List.length_cons]
      dsimp only
      omega

/-- A live block that is freed becomes the first free one. -/
theorem RtMempool.Holds.putBlock (h : mp.Holds chain live) (hb : b ∈ live) :
    (mp.putBlock b).Holds (b :: chain) (live.erase b) := by
  obtain ⟨hlinked, hcount, hnodup, hinside, howner, htotal⟩ := h
  have hout : b ∉ chain := fun hmem => (List.nodup_append.mp hnodup).2.2 b hmem b hb rfl
  have hmiddle : (chain ++ b :: live.erase b).Perm (b :: chain ++ live.erase b) :=
    List.perm_middle
  have hperm : (b :: chain ++ live.erase b).Perm (chain ++ live) :=
    hmiddle.symm.trans ((List.perm_cons_erase hb).symm.append_left chain)
  have hlive := (List.nodup_append.mp hnodup).2.1
  refine ⟨⟨rfl, ?_⟩, ?_, hperm.nodup_iff.mpr hnodup,
    fun c hc => hinside c (hperm.mem_iff.mp hc), fun c hc => ?_, ?_⟩
  · have hword : (mp.putBlock b).words b = mp.blockList := Function.update_self _ _ _
    rw [hword]
    exact hlinked.update hout mp.blockList
  · rw [List.length_cons, hcount]
    rfl
  · obtain ⟨hne, hmem⟩ := hlive.mem_erase_iff.mp hc
    exact (Function.update_of_ne hne _ _).trans (howner c hmem)
  · have hlength := List.length_erase_of_mem hb
    have hpos := List.length_pos_of_mem hb
    have hfree : (mp.putBlock b).blockFreeCount = mp.blockFreeCount + 1 := rfl
    have hsame : (mp.putBlock b).blockTotalCount = mp.blockTotalCount := rfl
    rw [hlength, hfree, hsame]
    omega

end Blocks

/-! ### Initialisation -/

/-- Each of the first `n` blocks points to the next one. -/
theorem linkBlocks_apply {stride : Nat} (hstride : 0 < stride) (words : Nat → MpPtr)
    {n i : Nat} (hi : i < n) :
    linkBlocks stride words n (i * stride) = .block ((i + 1) * stride) := by
  induction n with
  | zero => exact absurd hi (Nat.not_lt_zero i)
  | succ n ih =>
    have hfold : linkBlocks stride words (n + 1) =
        Function.update (linkBlocks stride words n) (n * stride) (.block ((n + 1) * stride)) := by
      rw [linkBlocks, List.range_succ, List.foldl_append]
      rfl
    rw [hfold]
    by_cases hlast : i = n
    · rw [hlast]
      exact Function.update_self _ _ _
    · have hne : i * stride ≠ n * stride := fun heq =>
        hlast (Nat.eq_of_mul_eq_mul_right hstride heq)
      rw [Function.update_of_ne hne]
      exact ih (by omega)

/-- From the block `k` on, the words of `m` blocks lead to the last of `n`. -/
theorem chainFrom_range' {stride : Nat} {words : Nat → MpPtr} {n : Nat}
    (hnext : ∀ i, i + 1 < n → words (i * stride) = .block ((i + 1) * stride))
    (hlast : words ((n - 1) * stride) = .null) (m k : Nat) (hm : k + m + 1 = n) :
    ChainFrom words (.block (k * stride)) ((List.range' k (m + 1)).map (· * stride)) := by
  induction m generalizing k with
  | zero =>
    refine ⟨rfl, ?_⟩
    have hk : k = n - 1 := by omega
    rw [hk]
    exact hlast
  | succ m ih =>
    rw [List.range'_succ, List.map_cons]
    refine ⟨rfl, ?_⟩
    rw [hnext k (by omega)]
    exact ih (k + 1) (by omega)

theorem holds_init (words : Nat → MpPtr) {size blockSize : Nat}
    (hblocks : 0 < (rtMpInit words size blockSize).blockTotalCount) :
    ∃ chain, (rtMpInit words size blockSize).Holds chain [] := by
  generalize hpool : rtMpInit words size blockSize = pool at hblocks ⊢
  have hstride : 0 < pool.stride := Nat.succ_pos _
  have htotal : pool.blockTotalCount = pool.size / pool.stride := by rw [← hpool]; rfl
  have hfree : pool.blockFreeCount = pool.blockTotalCount := by rw [← hpool]; rfl
  have hlink : lastLink pool.stride pool.blockTotalCount =
      (pool.blockTotalCount - 1) * pool.stride := if_neg (Nat.pos_iff_ne_zero.mp hblocks)
  have hwords : pool.words = Function.update (linkBlocks pool.stride words pool.blockTotalCount)
      ((pool.blockTotalCount - 1) * pool.stride) .null := by rw [← hlink, ← hpool]; rfl
  have hlist : pool.blockList = .block (0 * pool.stride) := by rw [← hpool, Nat.zero_mul]; rfl
  have hinj : Function.Injective (· * pool.stride) := fun i j heq =>
    Nat.eq_of_mul_eq_mul_right hstride heq
  obtain ⟨m, hm⟩ := Nat.exists_eq_succ_of_ne_zero (Nat.pos_iff_ne_zero.mp hblocks)
  refine ⟨(List.range' 0 (m + 1)).map (· * pool.stride), ?_, ?_, ?_, fun b hb => ?_,
    fun b hb => absurd hb List.not_mem_nil, hfree⟩
  · rw [hlist]
    refine chainFrom_range' (n := pool.blockTotalCount) (fun i hi => ?_) ?_ m 0 (by omega)
    · have hne : i * pool.stride ≠ (pool.blockTotalCount - 1) * pool.stride := fun heq => by
        have : i = pool.blockTotalCount - 1 := hinj heq
        omega
      rw [hwords, Function.update_of_ne hne]
      exact linkBlocks_apply hstride words (by omega)
    · rw [hwords]
      exact Function.update_self _ _ _
  · rw [List.length_map, List.length_range', hfree, hm]
  · rw [List.append_nil]
    exact (List.nodup_range' 1).map hinj
  · rw [List.append_nil] at hb
    obtain ⟨i, hi, rfl⟩ := List.mem_map.mp hb
    have hlt : i + 1 ≤ pool.size / pool.stride := by
      rw [← htotal, hm]
      have hbound := (List.mem_range'_1.mp hi).2
      omega
    refine ⟨Nat.dvd_mul_left _ _, ?_⟩
    calc i * pool.stride + pool.stride = (i + 1) * pool.stride := (Nat.succ_mul i _).symm
      _ ≤ pool.size := (Nat.le_div_iff_mul_le hstride).mp hlt

/-! ## Threads that wait -/

section Waiting

variable {κ : Type*} [DecidableEq κ] {s s' : MempoolState κ} {thread : κ}

/-- The blocks, the waiting threads, and those that are resumed and have not run. -/
structure MempoolState.Sound (s : MempoolState κ) : Prop where
  blocks : ∃ chain, s.pool.Holds chain s.live
  nodup : s.suspendThread.Nodup
  waiting : ∀ t ∈ s.suspendThread, ∃ time before, s.calls t = some (.asleep time before)
  resumed : ∀ t time before, s.calls t = some (.asleep time before) → t ∉ s.suspendThread →
    lastOf MpEvent.thread t s.history = some (.woken t (s.error t))
  justified : Explained Justified s.history

/-- The timers and the tick do not matter. -/
theorem MempoolState.Sound.of_eq (h : s.Sound) (hpool : s'.pool = s.pool) (hlive : s'.live = s.live)
    (hlist : s'.suspendThread = s.suspendThread) (herror : s'.error = s.error)
    (hcalls : s'.calls = s.calls) (hhistory : s'.history = s.history) : s'.Sound := by
  obtain ⟨pool, tick, list, error, running, due, ttmr, calls, live, history⟩ := s'
  subst hpool hlive hlist herror hcalls hhistory
  exact ⟨h.blocks, h.nodup, h.waiting, h.resumed, h.justified⟩

/-- A thread that is not suspended goes on to another statement, or returns. -/
theorem MempoolState.Sound.goOn (h : s.Sound) (hout : thread ∉ s.suspendThread)
    {point : Option AllocPoint} (hpoint : ∀ time before, point ≠ some (.asleep time before)) :
    MempoolState.Sound { s with calls := Function.update s.calls thread point } where
  blocks := h.blocks
  nodup := h.nodup
  waiting t ht := by
    have hne : t ≠ thread := fun heq => hout (heq ▸ ht)
    obtain ⟨time, before, hcall⟩ := h.waiting t ht
    exact ⟨time, before, (Function.update_of_ne hne _ _).trans hcall⟩
  resumed t time before hcall ht := by
    by_cases heq : t = thread
    · rw [heq] at hcall
      exact absurd ((Function.update_self _ _ _).symm.trans hcall) (hpoint time before)
    · exact h.resumed t time before ((Function.update_of_ne heq _ _).symm.trans hcall) ht
  justified := h.justified

/-- Something happens to a thread that is not asleep. -/
theorem MempoolState.Sound.record (h : s.Sound) {event : MpEvent κ}
    (hawake : ∀ time before, s.calls event.thread ≠ some (.asleep time before))
    (hevent : Justified s.history event) :
    MempoolState.Sound { s with history := s.history ++ [event] } where
  blocks := h.blocks
  nodup := h.nodup
  waiting := h.waiting
  resumed t time before hcall ht := by
    have hne : event.thread ≠ t := fun heq => hawake time before (heq ▸ hcall)
    exact (lastOf_append_other _ event hne).trans (h.resumed t time before hcall ht)
  justified := h.justified.append hevent

theorem MempoolState.Sound.finish (h : s.Sound) (hout : thread ∉ s.suspendThread)
    {event : MpEvent κ} (hthread : event.thread = thread) (hevent : Justified s.history event) :
    (s.finish thread event).Sound := by
  have hreturned : MempoolState.Sound { s with calls := Function.update s.calls thread none } :=
    h.goOn hout fun time before => by simp
  refine hreturned.record (fun time before => ?_) hevent
  simp [hthread]

/-- A thread is resumed, wherever it is. -/
theorem MempoolState.Sound.wake (h : s.Sound) (thread : κ) (error : Int) :
    (s.wake thread error).Sound where
  blocks := h.blocks
  nodup := h.nodup.erase thread
  waiting t ht := h.waiting t (List.mem_of_mem_erase ht)
  resumed t time before hcall ht := by
    have hhistory : (s.wake thread error).history = s.history ++ [.woken thread error] := rfl
    have herror : (s.wake thread error).error = Function.update s.error thread error := rfl
    rw [hhistory, herror]
    by_cases heq : thread = t
    · rw [← heq, Function.update_self]
      exact lastOf_append_self _ (MpEvent.woken thread error) rfl
    · have hmem : t ∉ s.suspendThread := fun hmem =>
        ht ((List.mem_erase_of_ne (Ne.symm heq)).mpr hmem)
      rw [Function.update_of_ne (Ne.symm heq)]
      exact (lastOf_append_other _ (MpEvent.woken thread error) heq).trans
        (h.resumed t time before hcall hmem)
  justified := h.justified.append fun t hfailed => by cases hfailed

theorem MempoolState.Sound.timerStop (h : s.Sound) (thread : κ) :
    (s.timerStop thread).2.Sound := by
  unfold MempoolState.timerStop
  split
  · exact h.of_eq rfl rfl rfl rfl rfl rfl
  · exact h

theorem MempoolState.Sound.dequeue (h : s.Sound) : s.dequeue.Sound := by
  unfold MempoolState.dequeue
  split
  · exact h
  · next first _ _ =>
    have hstopped := h.timerStop first
    dsimp only
    split
    · exact hstopped.wake first 0
    · exact hstopped

/-- A thread that has found no block suspends itself. -/
theorem MempoolState.Sound.suspend (h : s.Sound) (hout : thread ∉ s.suspendThread) (time : Int) :
    (s.suspend thread time).Sound := by
  have hlisted : MempoolState.Sound { s with
      error := Function.update s.error thread 0
      suspendThread := s.suspendThread ++ [thread]
      calls := Function.update s.calls thread (some (.asleep time s.tick))
      history := s.history ++ [MpEvent.empty thread] } := by
    refine ⟨h.blocks, ?_, fun t ht => ?_, fun t time' before hcall ht => ?_,
      h.justified.append fun t hfailed => by cases hfailed⟩
    · rw [← List.concat_eq_append]
      exact h.nodup.concat hout
    · by_cases heq : t = thread
      · rw [heq]
        exact ⟨time, s.tick, Function.update_self _ _ _⟩
      · have hmem : t ∈ s.suspendThread := by simpa [heq] using ht
        obtain ⟨time', before, hcall⟩ := h.waiting t hmem
        exact ⟨time', before, (Function.update_of_ne heq _ _).trans hcall⟩
    · obtain ⟨hmem, hne⟩ : t ∉ s.suspendThread ∧ t ≠ thread := by simpa using ht
      dsimp only at hcall ⊢
      rw [Function.update_of_ne hne] at hcall
      rw [Function.update_of_ne hne]
      exact (lastOf_append_other _ (MpEvent.empty thread) (Ne.symm hne)).trans
        (h.resumed t time' before hcall hmem)
  have hstopped := hlisted.timerStop thread
  unfold MempoolState.suspend
  dsimp only
  split
  · exact hstopped.of_eq rfl rfl rfl rfl rfl rfl
  · exact hstopped

/-- A call that stands anywhere but asleep belongs to a thread that is not suspended. -/
theorem MempoolState.Sound.not_suspended (h : s.Sound)
    (hawake : ∀ time before, s.calls thread ≠ some (.asleep time before)) :
    thread ∉ s.suspendThread := by
  intro hmem
  obtain ⟨time, before, hcall⟩ := h.waiting thread hmem
  exact hawake time before hcall

theorem MempoolState.Sound.allocStep (h : s.Sound) (hstep : s.allocStep thread = some s') :
    s'.Sound := by
  unfold MempoolState.allocStep at hstep
  cases hcall : s.calls thread with
  | none => simp [hcall] at hstep
  | some point =>
    rw [hcall] at hstep
    cases point with
    | lock time =>
      have hawake : ∀ time' before, s.calls thread ≠ some (.asleep time' before) := by
        simp [hcall]
      have hout := h.not_suspended hawake
      dsimp only at hstep
      by_cases hfree : s.pool.blockFreeCount = 0
      · rw [if_pos hfree] at hstep
        by_cases htime : time = 0
        · rw [if_pos htime] at hstep
          obtain rfl := Option.some.inj hstep
          have hempty : MempoolState.Sound { s with history := s.history ++ [.empty thread] } :=
            h.record hawake fun t hfailed => by cases hfailed
          refine hempty.finish hout rfl fun t hfailed => .inl ?_
          obtain rfl := MpEvent.failed.inj hfailed
          exact lastOf_append_self _ (MpEvent.empty thread) rfl
        · rw [if_neg htime] at hstep
          obtain rfl := Option.some.inj hstep
          exact h.suspend hout time
      · rw [if_neg hfree] at hstep
        obtain ⟨chain, hholds⟩ := h.blocks
        obtain ⟨b, rest, mp', -, htake, hholds'⟩ := hholds.takeBlock hfree
        rw [htake] at hstep
        obtain rfl := Option.some.inj hstep
        have htaken : MempoolState.Sound { s with pool := mp', live := b :: s.live } :=
          ⟨⟨rest, hholds'⟩, h.nodup, h.waiting, h.resumed, h.justified⟩
        exact htaken.finish hout rfl fun t hfailed => by cases hfailed
    | asleep time before =>
      dsimp only at hstep
      by_cases hmem : thread ∈ s.suspendThread
      · simp [hmem] at hstep
      · rw [if_neg hmem] at hstep
        by_cases herror : s.error thread ≠ 0
        · rw [if_pos herror] at hstep
          obtain rfl := Option.some.inj hstep
          refine h.finish hmem rfl fun t hfailed => .inr ?_
          obtain rfl := MpEvent.failed.inj hfailed
          exact ⟨s.error thread, herror, h.resumed thread time before hcall hmem⟩
        · rw [if_neg herror] at hstep
          obtain rfl := Option.some.inj hstep
          exact h.goOn hmem fun time' before' => by simp

theorem sound_step {a : MempoolStep κ} (h : s.Sound) (hstep : mempoolMachine.step s a = some s') :
    s'.Sound := by
  cases a with
  | alloc thread time =>
    cases hcall : s.calls thread with
    | some point => simp [mempoolMachine, hcall] at hstep
    | none =>
      obtain rfl : _ = s' := by simpa [mempoolMachine, hcall] using hstep
      exact h.goOn (h.not_suspended (by simp [hcall])) fun time' before => by simp
  | next thread => exact h.allocStep hstep
  | free ptr =>
    by_cases hlive : ptr ∈ s.live
    · obtain ⟨chain, hholds⟩ := h.blocks
      have hword := hholds.owner ptr hlive
      obtain rfl : _ = s' := by simpa [mempoolMachine, hlive, hword] using hstep
      have hfreed : MempoolState.Sound
          { s with pool := s.pool.putBlock ptr, live := s.live.erase ptr } :=
        ⟨⟨ptr :: chain, hholds.putBlock hlive⟩, h.nodup, h.waiting, h.resumed, h.justified⟩
      exact hfreed.dequeue
    · simp [mempoolMachine, hlive] at hstep
  | expire thread =>
    by_cases hrunning : s.timerRunning thread = true ∧ s.timeoutDue thread = false
    · obtain rfl : _ = s' := by simpa [mempoolMachine, hrunning] using hstep
      exact h.of_eq rfl rfl rfl rfl rfl rfl
    · simp [mempoolMachine, hrunning] at hstep
  | timeout thread =>
    by_cases hdue : s.timeoutDue thread = true
    · obtain rfl : _ = s' := by simpa [mempoolMachine, hdue] using hstep
      have hcalled : MempoolState.Sound
          { s with timeoutDue := Function.update s.timeoutDue thread false } :=
        h.of_eq rfl rfl rfl rfl rfl rfl
      exact hcalled.wake thread (-rtETimeout)
    · simp [mempoolMachine, hdue] at hstep
  | tick n =>
    obtain rfl := Option.some.inj hstep
    exact h.of_eq rfl rfl rfl rfl rfl rfl

theorem sound_start (words : Nat → MpPtr) {size blockSize : Nat} (tick : Nat)
    (hblocks : 0 < (rtMpInit words size blockSize).blockTotalCount) :
    (MempoolState.start (κ := κ) (rtMpInit words size blockSize) tick).Sound where
  blocks := holds_init words hblocks
  nodup := List.nodup_nil
  waiting _ ht := absurd ht List.not_mem_nil
  resumed _ _ _ hcall := absurd hcall.symm (Option.some_ne_none _)
  justified := explained_nil

/-- In every run from a new pool with blocks, each block is either on the free chain or
handed out, and `rt_mp_alloc` only fails when there is no block or the wait has failed. -/
theorem mempool_invariant (words : Nat → MpPtr) (size blockSize tick : Nat)
    (hblocks : 0 < (rtMpInit words size blockSize).blockTotalCount)
    {schedule : List (MempoolStep κ)} {final : MempoolState κ}
    (run : mempoolMachine.Run Machine.anyStep (.start (rtMpInit words size blockSize) tick)
      schedule final) :
    (∃ chain, final.pool.Holds chain final.live) ∧ Explained Justified final.history := by
  have hsound : final.Sound :=
    run.invariant (fun s a s' _ hstep h => sound_step h hstep) (sound_start words tick hblocks)
  exact ⟨hsound.blocks, hsound.justified⟩

end Waiting

/-- A pool of one block and two threads: the second one waits in vain, because its timer
has run out when the block is freed, and gets it at the next call. -/
theorem mempool_invariant_run :
    0 < (rtMpInit (fun _ => .null) 17 5).blockTotalCount ∧
      ∃ final : MempoolState Bool,
        mempoolMachine.Run Machine.anyStep (.start (rtMpInit (fun _ => .null) 17 5) 7)
          [.alloc true 0, .next true, .alloc false 3, .next false, .tick 3, .expire false,
            .free 0, .timeout false, .next false, .alloc false 0, .next false] final ∧
        final.history = [.allocated true 0, .empty false, .woken false (-rtETimeout),
          .failed false, .allocated false 0] ∧
        (∃ chain, final.pool.Holds chain final.live) ∧ Explained Justified final.history := by
  have hblocks : 0 < (rtMpInit (fun _ => .null) 17 5).blockTotalCount := by decide
  have hexec : (mempoolMachine.exec
      (MempoolState.start (rtMpInit (fun _ => .null) 17 5) 7 : MempoolState Bool)
      [.alloc true 0, .next true, .alloc false 3, .next false, .tick 3, .expire false,
        .free 0, .timeout false, .next false, .alloc false 0, .next false]).map (·.history) =
      some [.allocated true 0, .empty false, .woken false (-rtETimeout), .failed false,
        .allocated false 0] := by decide
  obtain ⟨final, hfinal, hhistory⟩ := Option.map_eq_some_iff.mp hexec
  have hrun := Machine.Run.of_exec hfinal (Machine.admitted_anyStep _ _)
  exact ⟨hblocks, final, hrun, hhistory, mempool_invariant _ 17 5 7 hblocks hrun⟩

end Gd32Vw553h.Kernel.Mempool
