/-
  Ipc/RingBlkMessages.lean --- the messages in a ring block buffer.

  Producers allocate blocks, write their bytes and put them; consumers get single blocks or queues
  of blocks and free them.  A state has the buffer's bytes with the object, and the queues that
  consumers hold, each by its blocks.

  To its users a ring block buffer is a list of messages of separate bytes (`messages`), and each
  call is one operation on that list (`RbbCall.On`): this is `ringBlk_messages`.  It needs blocks
  that are not empty; the example at the end shows two messages on the same bytes, after an
  allocation of size zero.
-/
import Gd32Vw553h.Ipc.RingBlk

set_option autoImplicit false

namespace Gd32Vw553h.Ipc

open Gd32Vw553h.Foundation

/-! ## Calls -/

/-- A ring block buffer with its bytes, and the block queues that were got and not freed. -/
structure RbbState where
  rbb : RtRbb
  mem : Nat → UInt8
  queues : List (List Nat)

/-- A call with what it returns.  The blocks of a queue stand for the queue. -/
inductive RbbCall where
  | blkAlloc (blkSize : Nat) (ret : Option Nat)
  | write (block offset : Nat) (byte : UInt8)
  | blkPut (block : Nat)
  | blkGet (ret : Option Nat)
  | blkFree (block : Nat)
  | queueGet (queueDataLen total : Nat) (blocks : List Nat)
  | queueFree (blocks : List Nat)

/-- The blocks of a queue, found through their links. -/
def RtRbb.walk (r : RtRbb) (queue : RtRbbBlkQueue) : List Nat :=
  (r.blkList.dropWhile (· != queue.blocks)).take queue.blkNum

namespace RbbState

/-- The state behind `rt_rbb_init`. -/
def start (bufSize : Nat) (blockSet : Nat → RtRbbBlk) (blkMaxNum : Nat) (mem : Nat → UInt8) :
    RbbState :=
  ⟨.init bufSize blockSet blkMaxNum, mem, []⟩

/-- One call. -/
def step (s : RbbState) : RbbCall → Option RbbState
  | .blkAlloc blkSize ret =>
    match s.rbb.blkAlloc blkSize with
    | none => none
    | some (ret', rbb) => if ret = ret' then some { s with rbb := rbb } else none
  | .write block offset byte =>
    some { s with mem := Function.update s.mem ((s.rbb.blkSet block).buf + offset) byte }
  | .blkPut block => some { s with rbb := s.rbb.blkPut block }
  | .blkGet ret => if ret = s.rbb.blkGet.1 then some { s with rbb := s.rbb.blkGet.2 } else none
  | .blkFree block => some { s with rbb := s.rbb.blkFree block }
  | .queueGet queueDataLen total blocks =>
    match s.rbb.blkQueueGet queueDataLen with
    | (total', none, rbb) =>
      if total = total' ∧ blocks = [] then some { s with rbb := rbb } else none
    | (total', some queue, rbb) =>
      if total = total' ∧ blocks = s.rbb.walk queue then
        some { s with rbb := rbb, queues := blocks :: s.queues }
      else none
  | .queueFree [] => none
  | .queueFree (block :: blocks) =>
    match s.rbb.blkQueueFree ⟨block, blocks.length + 1⟩ with
    | none => none
    | some rbb => some { s with rbb := rbb, queues := s.queues.erase (block :: blocks) }

/-- The calls on one ring block buffer. -/
def machine : Machine RbbState RbbCall := ⟨step⟩

/-- What the assertions of the calls ask for, and that a block that is allocated is not empty.  A
block is written between its allocation and its putting, and a block of a queue is freed with
it. -/
def Asserted (s : RbbState) : RbbCall → Prop
  | .blkAlloc blkSize _ => 0 < blkSize ∧ blkSize < blkSizeLimit
  | .write block offset _ => block < s.rbb.blkMaxNum ∧
      (s.rbb.blkSet block).status = .blkInited ∧ offset < (s.rbb.blkSet block).size
  | .blkPut block => block < s.rbb.blkMaxNum ∧ (s.rbb.blkSet block).status = .blkInited
  | .blkGet _ => True
  | .blkFree block => block < s.rbb.blkMaxNum ∧ (s.rbb.blkSet block).status ≠ .blkUnused ∧
      ∀ blocks ∈ s.queues, block ∉ blocks
  | .queueGet _ _ _ => True
  | .queueFree blocks => blocks ∈ s.queues

end RbbState

/-! ## Messages -/

/-- A block in use, with its bytes. -/
structure RbbMessage where
  block : Nat
  status : RtRbbStatus
  bytes : List UInt8

/-- The messages of these blocks get a status. -/
def RbbMessage.mark (blocks : List Nat) (status : RtRbbStatus) (m : RbbMessage) : RbbMessage :=
  if m.block ∈ blocks then { m with status := status } else m

/-- What a call does to a list of messages. -/
def RbbCall.On : RbbCall → List RbbMessage → List RbbMessage → Prop
  | .blkAlloc _ none, l, l' => l' = l
  | .blkAlloc blkSize (some block), l, l' => (∀ m ∈ l, m.block ≠ block) ∧
      ∃ bytes, bytes.length = blkSize ∧ l' = l ++ [⟨block, .blkInited, bytes⟩]
  | .write block offset byte, l, l' =>
    l' = l.map fun m => if m.block = block then { m with bytes := m.bytes.set offset byte } else m
  | .blkPut block, l, l' => l' = l.map (RbbMessage.mark [block] .blkPut)
  | .blkGet none, l, l' => (∀ m ∈ l, m.status ≠ .blkPut) ∧ l' = l
  | .blkGet (some block), l, l' =>
    (∃ before m after, l = before ++ m :: after ∧ m.block = block ∧ m.status = .blkPut ∧
      ∀ m' ∈ before, m'.status ≠ .blkPut) ∧ l' = l.map (RbbMessage.mark [block] .blkGet)
  | .blkFree block, l, l' => l' = l.filter (·.block != block)
  | .queueGet _ total [], l, l' => (∀ m ∈ l, m.status ≠ .blkPut) ∧ total = 0 ∧ l' = l
  | .queueGet queueDataLen total blocks, l, l' =>
    (∃ before taken after, l = before ++ taken ++ after ∧ taken.map RbbMessage.block = blocks ∧
      (∀ m ∈ before, m.status ≠ .blkPut) ∧ (∀ m ∈ taken, m.status = .blkPut) ∧
      total = (taken.map (·.bytes.length)).sum) ∧
      (blocks.length = 1 ∨ total ≤ queueDataLen) ∧ l' = l.map (RbbMessage.mark blocks .blkGet)
  | .queueFree blocks, l, l' => l' = l.filter (·.block ∉ blocks)

namespace RtRbb

variable {r : RtRbb} {mem : Nat → UInt8} {b c size buf : Nat} {blocks freeList : List Nat}
  {status : RtRbbStatus}

/-- The message of a block. -/
def message (r : RtRbb) (mem : Nat → UInt8) (block : Nat) : RbbMessage :=
  ⟨block, (r.blkSet block).status, slice mem (r.extent block)⟩

/-- The messages of the blocks in use. -/
def messages (r : RtRbb) (mem : Nat → UInt8) : List RbbMessage := r.blkList.map (r.message mem)

theorem Sound.mem_blkList (h : r.Sound) (hb : b < r.blkMaxNum)
    (hused : (r.blkSet b).status ≠ .blkUnused) : b ∈ r.blkList := by
  have hmem : b ∈ r.blkList ++ r.freeList := h.blocks.mem_iff.mpr (List.mem_range.mpr hb)
  exact (List.mem_append.mp hmem).resolve_right fun hfree => hused (h.unused b hfree)

theorem Sound.apart (h : r.Sound) (hb : b ∈ r.blkList) (hc : c ∈ r.blkList) (hne : b ≠ c) :
    (r.extent b).Apart (r.extent c) := by
  have hpair := List.pairwise_map.mp h.laid.pairwise
  have : Std.Symm fun b c => (r.extent b).Apart (r.extent c) := ⟨fun _ _ h => h.symm⟩
  exact hpair.forall hb hc hne

theorem message_setStatus :
    (r.setStatus b status).message mem c = (r.message mem c).mark [b] status := by
  unfold message RbbMessage.mark
  rw [extent_setStatus]
  by_cases hcb : c = b
  · subst hcb
    simp
  · rw [blkSet_setStatus_of_ne hcb]
    simp [hcb]

theorem messages_setStatus :
    (r.setStatus b status).messages mem = (r.messages mem).map (RbbMessage.mark [b] status) := by
  unfold messages
  rw [List.map_map]
  exact List.map_congr_left fun c _ => message_setStatus

/-! ### Several blocks -/

@[simp] theorem blkList_markGet : (r.markGet blocks).blkList = r.blkList := by
  induction blocks generalizing r with
  | nil => rfl
  | cons b blocks ih => exact ih

@[simp] theorem extent_markGet : (r.markGet blocks).extent = r.extent := by
  induction blocks generalizing r with
  | nil => rfl
  | cons b blocks ih => exact ih.trans extent_setStatus

theorem status_markGet :
    ((r.markGet blocks).blkSet c).status =
      if c ∈ blocks then .blkGet else (r.blkSet c).status := by
  induction blocks generalizing r with
  | nil => rfl
  | cons b blocks ih =>
    have hrest := @ih (r.setStatus b .blkGet)
    rw [markGet, List.foldl_cons, ← markGet, hrest]
    by_cases hc : c ∈ blocks
    · rw [if_pos hc, if_pos (List.mem_cons_of_mem b hc)]
    · rw [if_neg hc]
      by_cases hcb : c = b
      · rw [hcb, status_setStatus, if_pos List.mem_cons_self]
      · rw [blkSet_setStatus_of_ne hcb, if_neg (by simp [hcb, hc])]

theorem messages_markGet :
    (r.markGet blocks).messages mem = (r.messages mem).map (RbbMessage.mark blocks .blkGet) := by
  unfold messages
  rw [blkList_markGet, List.map_map]
  refine List.map_congr_left fun c _ => ?_
  show RbbMessage.mk _ _ _ = RbbMessage.mark _ _ _
  unfold RbbMessage.mark message
  rw [status_markGet, extent_markGet]
  by_cases hc : c ∈ blocks
  · simp [hc]
  · simp [hc]

theorem Sound.markGet (h : r.Sound) (hmem : ∀ b ∈ blocks, b ∈ r.blkList) :
    (r.markGet blocks).Sound := by
  induction blocks generalizing r with
  | nil => exact h
  | cons b blocks ih =>
    obtain ⟨hb, hmem⟩ := List.forall_mem_cons.mp hmem
    exact ih (h.setStatus hb nofun) hmem

/-! ### Freeing -/

theorem blkSet_blkFree : (r.blkFree b).blkSet = (r.setStatus b .blkUnused).blkSet := by
  unfold blkFree listRemove
  split <;> rfl

theorem blkList_blkFree (h : r.Sound) : (r.blkFree b).blkList = r.blkList.filter (· != b) := by
  rw [← h.nodup_blkList.erase_eq_filter]
  unfold blkFree listRemove
  by_cases hb : b ∈ r.blkList
  · rw [if_pos hb]
    rfl
  · rw [if_neg hb, List.erase_of_not_mem hb]
    rfl

theorem messages_blkFree (h : r.Sound) :
    (r.blkFree b).messages mem = (r.messages mem).filter (·.block != b) := by
  unfold messages
  rw [blkList_blkFree h, List.filter_map]
  refine List.map_congr_left fun c hc => ?_
  have hcb : c ≠ b := by simpa using (List.mem_filter.mp hc).2
  have hset : (r.blkFree b).blkSet c = r.blkSet c := by
    rw [blkSet_blkFree, blkSet_setStatus_of_ne hcb]
  unfold message extent
  rw [hset]

/-- Blocks in use, no two of them the same, are freed. -/
theorem Sound.freeAll (h : r.Sound) (hmem : ∀ b ∈ blocks, b ∈ r.blkList)
    (hnodup : blocks.Nodup) :
    (r.freeAll blocks).Sound ∧ (r.freeAll blocks).blkList = r.blkList.filter (· ∉ blocks) ∧
      (∀ c, c ∉ blocks → (r.freeAll blocks).blkSet c = r.blkSet c) ∧
      (r.freeAll blocks).messages mem = (r.messages mem).filter (·.block ∉ blocks) := by
  induction blocks generalizing r with
  | nil => exact ⟨h, by simp [RtRbb.freeAll], fun _ _ => rfl, by simp [RtRbb.freeAll]⟩
  | cons b blocks ih =>
    obtain ⟨hb, hmem⟩ := List.forall_mem_cons.mp hmem
    obtain ⟨hout, hnodup⟩ := List.nodup_cons.mp hnodup
    have hrest : ∀ c ∈ blocks, c ∈ (r.blkFree b).blkList := by
      intro c hc
      rw [blkList_blkFree h]
      exact List.mem_filter.mpr ⟨hmem c hc, bne_iff_ne.mpr (ne_of_mem_of_not_mem hc hout)⟩
    obtain ⟨hsound, hlist, hset, hmessages⟩ := ih (h.blkFree hb) hrest hnodup
    refine ⟨hsound, ?_, fun c hc => ?_, ?_⟩
    · show ((r.blkFree b).freeAll blocks).blkList = _
      rw [hlist, blkList_blkFree h, List.filter_filter]
      refine List.filter_congr fun c _ => ?_
      by_cases hcb : c = b <;> simp [hcb]
    · obtain ⟨hcb, hc⟩ := not_or.mp (mt List.mem_cons.mpr hc)
      show ((r.blkFree b).freeAll blocks).blkSet c = _
      rw [hset c hc, blkSet_blkFree, blkSet_setStatus_of_ne hcb]
    · show ((r.blkFree b).freeAll blocks).messages mem = _
      rw [hmessages, messages_blkFree h, List.filter_filter]
      refine List.filter_congr fun m _ => ?_
      by_cases hmb : m.block = b <;> simp [hmb]

/-! ### Allocating and writing -/

theorem messages_grow (h : r.Sound) (hfree : r.freeList = b :: freeList) :
    (r.grow b freeList size buf).messages mem =
      r.messages mem ++ [⟨b, .blkInited, slice mem ⟨buf, size⟩⟩] := by
  unfold messages
  show (r.blkList ++ [b]).map _ = _
  rw [List.map_append, List.map_singleton, message, extent, blkSet_grow]
  refine congrArg (· ++ _) (List.map_congr_left fun c hc => ?_)
  have hcb : c ≠ b := by
    rintro rfl
    exact h.used c hc (h.unused c (hfree ▸ List.mem_cons_self))
  rw [message, extent, blkSet_grow_of_ne hcb, message, extent]

theorem messages_write (h : r.Sound) (hb : b ∈ r.blkList) {offset : Nat} (byte : UInt8)
    (hoffset : offset < (r.blkSet b).size) :
    r.messages (Function.update mem ((r.blkSet b).buf + offset) byte) =
      (r.messages mem).map fun m =>
        if m.block = b then { m with bytes := m.bytes.set offset byte } else m := by
  unfold messages
  rw [List.map_map]
  refine List.map_congr_left fun c hc => ?_
  show RbbMessage.mk _ _ _ = if c = b then _ else _
  by_cases hcb : c = b
  · subst hcb
    rw [if_pos rfl]
    exact congrArg (RbbMessage.mk _ _) slice_update_inside
  · rw [if_neg hcb]
    refine congrArg (RbbMessage.mk _ _) (slice_update_outside ?_)
    have hapart := h.apart hc hb hcb
    unfold Extent.Apart Extent.stop extent at hapart
    show _ < (r.blkSet c).buf ∨ (r.blkSet c).buf + (r.blkSet c).size ≤ _
    dsimp only at hapart
    omega

end RtRbb

/-! ## Runs -/

namespace RbbState

variable {s s' : RbbState} {call : RbbCall} {b c size buf : Nat} {freeList : List Nat}

/-- What the users of the buffer see. -/
def messages (s : RbbState) : List RbbMessage := s.rbb.messages s.mem

/-- The queues are parts of the list that were got, with no block in two of them. -/
structure Sound (s : RbbState) : Prop where
  rbb : s.rbb.Sound
  queued : ∀ blocks ∈ s.queues, blocks ≠ [] ∧ blocks <:+: s.rbb.blkList ∧
    ∀ b ∈ blocks, (s.rbb.blkSet b).status = .blkGet
  apart : s.queues.flatten.Nodup

theorem sound_start {bufSize blkMaxNum : Nat} {blockSet : Nat → RtRbbBlk} {mem : Nat → UInt8}
    (hsize : bufSize < 0x100000000) : (start bufSize blockSet blkMaxNum mem).Sound :=
  ⟨RtRbb.sound_init hsize, nofun, List.nodup_nil⟩

theorem Sound.mem_of_queued (h : s.Sound) {blocks : List Nat} (hblocks : blocks ∈ s.queues)
    (hb : b ∈ blocks) : b ∈ s.rbb.blkList :=
  (h.queued blocks hblocks).2.1.subset hb

theorem Sound.grow (h : s.Sound) (hfree : s.rbb.freeList = b :: freeList)
    (hrbb : (s.rbb.grow b freeList size buf).Sound) :
    ({ s with rbb := s.rbb.grow b freeList size buf } : RbbState).Sound := by
  refine ⟨hrbb, fun blocks hblocks => ?_, h.apart⟩
  obtain ⟨hne, hpart, hstatus⟩ := h.queued blocks hblocks
  refine ⟨hne, hpart.trans (List.prefix_append _ _).isInfix, fun c hc => ?_⟩
  have hcb : c ≠ b := by
    rintro rfl
    exact h.rbb.used c (hpart.subset hc) (h.rbb.unused c (hfree ▸ List.mem_cons_self))
  show ((s.rbb.grow b freeList size buf).blkSet c).status = _
  rw [RtRbb.blkSet_grow_of_ne hcb]
  exact hstatus c hc

/-- A block that was not got changes its status. -/
theorem Sound.setStatus (h : s.Sound) {status : RtRbbStatus} (hb : b ∈ s.rbb.blkList)
    (hold : (s.rbb.blkSet b).status ≠ .blkGet) (hnew : status ≠ .blkUnused) :
    ({ s with rbb := s.rbb.setStatus b status } : RbbState).Sound := by
  refine ⟨h.rbb.setStatus hb hnew, fun blocks hblocks => ?_, h.apart⟩
  obtain ⟨hne, hpart, hstatus⟩ := h.queued blocks hblocks
  refine ⟨hne, hpart, fun c hc => ?_⟩
  have hcb : c ≠ b := fun heq => hold (heq ▸ hstatus c hc)
  show ((s.rbb.setStatus b status).blkSet c).status = _
  rw [RtRbb.blkSet_setStatus_of_ne hcb]
  exact hstatus c hc

theorem blkAlloc_right (h : s.Sound) {ret : Option Nat}
    (hok : Asserted s (.blkAlloc size ret)) (hstep : step s (.blkAlloc size ret) = some s') :
    s'.Sound ∧ (RbbCall.blkAlloc size ret).On s.messages s'.messages := by
  rcases h.rbb.blkAlloc hok.1 hok.2 with halloc | ⟨b, freeList, buf, hfree, halloc, hsound, -⟩ <;>
    simp only [step, halloc] at hstep
  · by_cases hret : ret = none
    · rw [if_pos hret] at hstep
      obtain rfl := Option.some.inj hstep
      subst hret
      exact ⟨h, rfl⟩
    · rw [if_neg hret] at hstep
      cases hstep
  · by_cases hret : ret = some b
    · rw [if_pos hret] at hstep
      obtain rfl := Option.some.inj hstep
      subst hret
      refine ⟨h.grow hfree hsound, fun m hm => ?_, _, length_slice,
        RtRbb.messages_grow h.rbb hfree⟩
      obtain ⟨c, hc, rfl⟩ := List.mem_map.mp hm
      rintro rfl
      exact h.rbb.used _ hc (h.rbb.unused _ (hfree ▸ List.mem_cons_self))
    · rw [if_neg hret] at hstep
      cases hstep

theorem blkGet_right (h : s.Sound) {ret : Option Nat}
    (hstep : step s (.blkGet ret) = some s') :
    s'.Sound ∧ (RbbCall.blkGet ret).On s.messages s'.messages := by
  rcases s.rbb.blkGet_cases with ⟨hnone, hget⟩ | ⟨pre, b, post, hlist, hpre, hput, hget⟩ <;>
    simp only [step, hget] at hstep
  · by_cases hret : ret = none
    · rw [if_pos hret] at hstep
      obtain rfl := Option.some.inj hstep
      subst hret
      refine ⟨h, fun m hm => ?_, rfl⟩
      obtain ⟨c, hc, rfl⟩ := List.mem_map.mp hm
      exact hnone c hc
    · rw [if_neg hret] at hstep
      cases hstep
  · by_cases hret : ret = some b
    · rw [if_pos hret] at hstep
      obtain rfl := Option.some.inj hstep
      subst hret
      have hb : b ∈ s.rbb.blkList := by simp [hlist]
      refine ⟨h.setStatus hb (by simp [hput]) nofun, ?_, RtRbb.messages_setStatus⟩
      refine ⟨pre.map (s.rbb.message s.mem), s.rbb.message s.mem b,
        post.map (s.rbb.message s.mem), ?_, rfl, hput, fun m hm => ?_⟩
      · rw [messages, RtRbb.messages, hlist, List.map_append, List.map_cons]
      · obtain ⟨c, hc, rfl⟩ := List.mem_map.mp hm
        exact hpre c hc
    · rw [if_neg hret] at hstep
      cases hstep

theorem blkFree_right (h : s.Sound) (hok : Asserted s (.blkFree b)) :
    ({ s with rbb := s.rbb.blkFree b } : RbbState).Sound ∧
      (RbbCall.blkFree b).On s.messages ((s.rbb.blkFree b).messages s.mem) := by
  obtain ⟨hlt, hused, hout⟩ := hok
  refine ⟨⟨h.rbb.blkFree (h.rbb.mem_blkList hlt hused), fun blocks hblocks => ?_, h.apart⟩,
    RtRbb.messages_blkFree h.rbb⟩
  obtain ⟨hne, hpart, hstatus⟩ := h.queued blocks hblocks
  have hkeep : ∀ c ∈ blocks, c ≠ b := fun c hc => ne_of_mem_of_not_mem hc (hout blocks hblocks)
  refine ⟨hne, ?_, fun c hc => ?_⟩
  · have hfilter := hpart.filter (· != b)
    rwa [List.filter_eq_self.mpr fun c hc => bne_iff_ne.mpr (hkeep c hc),
      ← RtRbb.blkList_blkFree h.rbb] at hfilter
  · show ((s.rbb.blkFree b).blkSet c).status = _
    rw [RtRbb.blkSet_blkFree, RtRbb.blkSet_setStatus_of_ne (hkeep c hc)]
    exact hstatus c hc

/-- A queue is found through its first block. -/
theorem walk_eq {r : RtRbb} {pre taken post : List Nat} (hnodup : r.blkList.Nodup)
    (hlist : r.blkList = pre ++ (b :: taken) ++ post) :
    r.walk ⟨b, taken.length + 1⟩ = b :: taken := by
  rw [hlist, List.append_assoc] at hnodup
  have hb : b ∉ pre := fun hmem =>
    (List.nodup_append.mp hnodup).2.2 b hmem b List.mem_cons_self rfl
  have hlist' : r.blkList = pre ++ b :: (taken ++ post) := by rw [hlist, List.append_assoc]; rfl
  rw [RtRbb.walk, hlist', RtRbb.dropWhile_ne hb, List.take_succ_cons, List.take_left]

theorem queueGet_right (h : s.Sound) {len total : Nat} {blocks : List Nat}
    (hstep : step s (.queueGet len total blocks) = some s') :
    s'.Sound ∧ (RbbCall.queueGet len total blocks).On s.messages s'.messages := by
  rcases RtRbb.blkQueueGet_cases h.rbb.nodup_blkList len with
    ⟨hnone, hget⟩ | ⟨pre, b, taken, post, hlist, hpre, hput, -, hlen, hget⟩ <;>
    simp only [step, hget] at hstep
  · by_cases hret : total = 0 ∧ blocks = []
    · rw [if_pos hret] at hstep
      obtain rfl := Option.some.inj hstep
      obtain ⟨rfl, rfl⟩ := hret
      refine ⟨h, fun m hm => ?_, rfl, rfl⟩
      obtain ⟨c, hc, rfl⟩ := List.mem_map.mp hm
      exact hnone c hc
    · rw [if_neg hret] at hstep
      cases hstep
  · rw [walk_eq h.rbb.nodup_blkList hlist] at hstep
    by_cases hret : total = s.rbb.sizes (b :: taken) ∧ blocks = b :: taken
    · rw [if_pos hret] at hstep
      obtain rfl := Option.some.inj hstep
      obtain ⟨rfl, rfl⟩ := hret
      have hpart : b :: taken <:+: s.rbb.blkList := ⟨pre, post, hlist.symm⟩
      have hkept : ∀ blocks ∈ s.queues, blocks.Disjoint (b :: taken) := by
        intro blocks hblocks c hc hc'
        have hstatus := (h.queued blocks hblocks).2.2 c hc
        rw [hput c hc'] at hstatus
        cases hstatus
      refine ⟨⟨h.rbb.markGet fun c hc => hpart.subset hc, ?_, ?_⟩, ?_⟩
      · refine List.forall_mem_cons.mpr ⟨⟨List.cons_ne_nil _ _, ?_, fun c hc => ?_⟩,
          fun blocks hblocks => ?_⟩
        · rwa [RtRbb.blkList_markGet]
        · rw [RtRbb.status_markGet, if_pos hc]
        · obtain ⟨hne, hpart', hstatus⟩ := h.queued blocks hblocks
          refine ⟨hne, by rwa [RtRbb.blkList_markGet], fun c hc => ?_⟩
          rw [RtRbb.status_markGet, if_neg (hkept blocks hblocks hc)]
          exact hstatus c hc
      · rw [List.flatten_cons]
        refine List.nodup_append.mpr
          ⟨h.rbb.nodup_blkList.sublist hpart.sublist, h.apart, fun c hc d hd heq => ?_⟩
        obtain ⟨blocks, hblocks, hd⟩ := List.mem_flatten.mp hd
        exact hkept blocks hblocks hd (heq ▸ hc)
      · refine ⟨⟨pre.map (s.rbb.message s.mem), (b :: taken).map (s.rbb.message s.mem),
          post.map (s.rbb.message s.mem), ?_, ?_, fun m hm => ?_, fun m hm => ?_, ?_⟩, ?_,
          RtRbb.messages_markGet⟩
        · rw [messages, RtRbb.messages, hlist, List.map_append, List.map_append]
        · rw [List.map_map]
          exact List.map_id _
        · obtain ⟨c, hc, rfl⟩ := List.mem_map.mp hm
          exact hpre c hc
        · obtain ⟨c, hc, rfl⟩ := List.mem_map.mp hm
          exact hput c hc
        · rw [List.map_map]
          refine congrArg List.sum (List.map_congr_left fun c _ => ?_)
          show (s.rbb.blkSet c).size = (slice s.mem (s.rbb.extent c)).length
          rw [length_slice]
          rfl
        · refine hlen.imp (fun htaken => ?_) id
          rw [htaken]
          rfl
    · rw [if_neg hret] at hstep
      cases hstep

/-- A queue that is held is freed as a whole. -/
theorem queueFree_eq (h : s.Sound) {blocks : List Nat} (hblocks : blocks ∈ s.queues) :
    step s (.queueFree blocks) =
      some { s with rbb := s.rbb.freeAll blocks, queues := s.queues.erase blocks } := by
  obtain ⟨hne, ⟨pre, post, hlist⟩, -⟩ := h.queued blocks hblocks
  cases blocks with
  | nil => exact absurd rfl hne
  | cons b rest =>
    have hfree := RtRbb.queueFreeLoop_eq h.rbb hlist.symm
    have hfree : s.rbb.blkQueueFree ⟨b, rest.length + 1⟩ = some (s.rbb.freeAll (b :: rest)) := hfree
    simp only [step, hfree]

theorem queueFree_right (h : s.Sound) {blocks : List Nat} (hblocks : blocks ∈ s.queues) :
    ({ s with rbb := s.rbb.freeAll blocks, queues := s.queues.erase blocks } : RbbState).Sound ∧
      (RbbCall.queueFree blocks).On s.messages ((s.rbb.freeAll blocks).messages s.mem) := by
  obtain ⟨-, hpart, -⟩ := h.queued blocks hblocks
  have hnodup := h.rbb.nodup_blkList.sublist hpart.sublist
  obtain ⟨hsound, hlist, hset, hmessages⟩ := @RtRbb.Sound.freeAll _ s.mem _ h.rbb
    (fun b hb => hpart.subset hb) hnodup
  have hperm := (List.perm_cons_erase hblocks).flatten
  have happart := hperm.nodup_iff.mp h.apart
  rw [List.flatten_cons] at happart
  obtain ⟨-, hrest, hdisjoint⟩ := List.nodup_append.mp happart
  refine ⟨⟨hsound, fun other hother => ?_, hrest⟩, hmessages⟩
  obtain ⟨hne, hpart', hstatus⟩ := h.queued other (List.mem_of_mem_erase hother)
  have hout : ∀ c ∈ other, c ∉ blocks := fun c hc hc' =>
    hdisjoint c hc' c (List.mem_flatten.mpr ⟨other, hother, hc⟩) rfl
  refine ⟨hne, ?_, fun c hc => ?_⟩
  · have hfilter := hpart'.filter (· ∉ blocks)
    rwa [List.filter_eq_self.mpr fun c hc => by simpa using hout c hc, ← hlist] at hfilter
  · show ((s.rbb.freeAll blocks).blkSet c).status = _
    rw [hset c (hout c hc)]
    exact hstatus c hc

/-- Each call keeps the invariant and is an operation on the list of messages. -/
theorem step_right (h : s.Sound) (hok : Asserted s call) (hstep : step s call = some s') :
    s'.Sound ∧ call.On s.messages s'.messages := by
  cases call with
  | blkAlloc blkSize ret => exact blkAlloc_right h hok hstep
  | write block offset byte =>
    obtain rfl := Option.some.inj hstep
    obtain ⟨hlt, hstatus, hoffset⟩ := hok
    have hb := h.rbb.mem_blkList hlt (by simp [hstatus])
    exact ⟨⟨h.rbb, h.queued, h.apart⟩, RtRbb.messages_write h.rbb hb byte hoffset⟩
  | blkPut block =>
    obtain rfl := Option.some.inj hstep
    obtain ⟨hlt, hstatus⟩ := hok
    have hb := h.rbb.mem_blkList hlt (by simp [hstatus])
    exact ⟨h.setStatus hb (by simp [hstatus]) nofun, RtRbb.messages_setStatus⟩
  | blkGet ret => exact blkGet_right h hstep
  | blkFree block =>
    obtain rfl := Option.some.inj hstep
    exact blkFree_right h hok
  | queueGet len total blocks => exact queueGet_right h hstep
  | queueFree blocks =>
    rw [queueFree_eq h hok] at hstep
    obtain rfl := Option.some.inj hstep
    exact queueFree_right h hok

/-- A buffer of eight bytes.  The third block is at its beginning, where the first one was. -/
def wrapped : List RbbCall :=
  [.blkAlloc 5 (some 2), .write 2 0 1, .blkPut 2, .blkAlloc 3 (some 1), .write 1 2 7,
    .blkGet (some 2), .blkFree 2, .blkAlloc 4 (some 2), .write 2 3 9, .blkPut 1,
    .queueGet 8 3 [1]]

-- behind two blocks of size zero the last block is placed on one in use
example :
    (machine.exec (start 10 (fun _ => ⟨.blkGet, 0, 0⟩) 5 fun _ => 0)
      [.blkAlloc 5 (some 4), .blkAlloc 0 (some 3), .blkAlloc 5 (some 2), .blkFree 4,
        .blkAlloc 5 (some 4), .blkAlloc 0 (some 1), .blkAlloc 5 (some 0)]).map
      (fun s => (s.rbb.extent 2, s.rbb.extent 0)) = some (⟨5, 5⟩, ⟨5, 5⟩) := rfl

end RbbState

end Gd32Vw553h.Ipc
