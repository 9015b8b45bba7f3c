/-
  Ipc/RingBlk.lean --- ring block buffers (`rt-thread/components/drivers/ipc/ringblk_buf.c`).

  A ring block buffer hands out blocks of different sizes from one buffer.  The blocks in use are
  linked in the order of their allocation, and a new one is placed behind the last of them, or at
  the beginning of the buffer when the end has no room for it.  A producer fills its block and puts
  it; a consumer gets the first block that was put, or a queue of several.

  Addresses in the buffer are offsets.  The two lists are `rt_slist_t`s of blocks, where `tail` is
  the node that the next block is linked to; `none` is the head of the list.

  `RtRbb.Sound` is what every call keeps.  Each call has one lemma that says what it does to a sound
  object: `blkFree_eq`, `Sound.blkAlloc`, `blkGet_cases`, `blkQueueGet_cases`, `queueFreeLoop_eq`.
-/
import Gd32Vw553h.Foundation.Extents
import Gd32Vw553h.Foundation.Runs

set_option autoImplicit false

namespace Gd32Vw553h.Ipc

open Gd32Vw553h.Foundation

/-! ## The object -/

/-- `enum rt_rbb_status` -/
inductive RtRbbStatus where
  | blkUnused | blkInited | blkPut | blkGet
  deriving DecidableEq

/-- `struct rt_rbb_blk`, without its link. -/
structure RtRbbBlk where
  status : RtRbbStatus
  size : Nat
  buf : Nat
  deriving DecidableEq

/-- `struct rt_rbb_blk_queue` -/
structure RtRbbBlkQueue where
  blocks : Nat
  blkNum : Nat
  deriving DecidableEq

/-- `struct rt_rbb`; blocks are given by their indices in `blk_set`. -/
structure RtRbb where
  bufSize : Nat
  blkSet : Nat → RtRbbBlk
  blkMaxNum : Nat
  blkList : List Nat
  tail : Option Nat
  freeList : List Nat

/-- The difference of two pointers as a `rt_size_t`. -/
def ptrDiff (p q : Nat) : Nat := (0x100000000 + p - q) % 0x100000000

/-- The field `size` of a block has 24 bits. -/
abbrev blkSizeLimit : Nat := 0x1000000

namespace RtRbb

/-- `rt_rbb_init` -/
def init (bufSize : Nat) (blockSet : Nat → RtRbbBlk) (blkMaxNum : Nat) : RtRbb where
  bufSize := bufSize
  blkSet i := if i < blkMaxNum then { blockSet i with status := .blkUnused } else blockSet i
  blkMaxNum := blkMaxNum
  blkList := []
  tail := none
  freeList := (List.range blkMaxNum).foldl (fun freeList i => i :: freeList) []

variable (r : RtRbb)

/-- `list_append`: what was linked behind the tail is lost. -/
def listAppend (n : Nat) : RtRbb :=
  match r.tail with
  | none => { r with blkList := [n], tail := some n }
  | some t =>
    { r with
      blkList := if t ∈ r.blkList then r.blkList.takeWhile (· != t) ++ [t, n] else r.blkList
      tail := some n }

/-- `list_remove` -/
def listRemove (n : Nat) : RtRbb :=
  if n ∈ r.blkList then
    { r with
      blkList := r.blkList.erase n
      tail := if r.tail = some n then (r.blkList.takeWhile (· != n)).getLast? else r.tail }
  else r

/-- The place `rt_rbb_blk_alloc` has for a block; `none` where it takes the head of the list for a
block. -/
def place (blkSize : Nat) : Option (Option Nat) :=
  match r.blkList with
  | [] => some (if blkSize ≤ r.bufSize then some 0 else none)
  | first :: _ =>
    match r.tail with
    | none => none
    | some last =>
      let head := r.blkSet first
      let tail := r.blkSet last
      if head.buf ≤ tail.buf then
        let empty1 := ptrDiff r.bufSize (tail.buf + tail.size)
        let empty2 := ptrDiff head.buf 0
        if empty1 ≥ blkSize then some (some (tail.buf + tail.size))
        else if empty2 ≥ blkSize then some (some 0)
        else some none
      else
        let empty1 := ptrDiff head.buf (tail.buf + tail.size)
        if empty1 ≥ blkSize then some (some (tail.buf + tail.size)) else some none

/-- `rt_rbb_blk_alloc` -/
def blkAlloc (blkSize : Nat) : Option (Option Nat × RtRbb) :=
  match r.freeList with
  | [] => some (none, r)
  | newRbb :: freeList =>
    match r.place blkSize with
    | none => none
    | some none => some (none, { r with freeList := newRbb :: freeList })
    | some (some buf) =>
      some (some newRbb, { r.listAppend newRbb with
        freeList := freeList
        blkSet := Function.update r.blkSet newRbb
          { status := .blkInited, size := blkSize % blkSizeLimit, buf := buf } })

/-- A block's status is written. -/
def setStatus (block : Nat) (status : RtRbbStatus) : RtRbb :=
  { r with blkSet := Function.update r.blkSet block { r.blkSet block with status := status } }

/-- `rt_rbb_blk_put` -/
def blkPut (block : Nat) : RtRbb := r.setStatus block .blkPut

/-- `rt_rbb_blk_get` -/
def blkGet : Option Nat × RtRbb :=
  match r.blkList.find? (fun block => (r.blkSet block).status = .blkPut) with
  | none => (none, r)
  | some block => (some block, r.setStatus block .blkGet)

/-- `rt_rbb_blk_free` -/
def blkFree (block : Nat) : RtRbb :=
  let r := (r.listRemove block).setStatus block .blkUnused
  { r with freeList := block :: r.freeList }

end RtRbb

/-! ## Block queues -/

/-- The variables of the loop of `rt_rbb_blk_queue_get`. -/
structure QueueScan where
  blkSet : Nat → RtRbbBlk
  lastBlock : Option Nat
  dataTotalSize : Nat
  blkQueue : Option RtRbbBlkQueue

namespace QueueScan

/-- The end of the loop's body. -/
def take (s : QueueScan) (block : Nat) : QueueScan where
  blkSet := Function.update s.blkSet block { s.blkSet block with status := .blkGet }
  lastBlock := some block
  dataTotalSize := s.dataTotalSize + (s.blkSet block).size
  blkQueue :=
    match s.blkQueue with
    | none => some ⟨block, 1⟩
    | some queue => some ⟨queue.blocks, queue.blkNum + 1⟩

/-- The loop of `rt_rbb_blk_queue_get`. -/
def queueLoop (queueDataLen : Nat) : List Nat → QueueScan → QueueScan
  | [], s => s
  | block :: nodes, s =>
    match s.lastBlock with
    | none =>
      if (s.blkSet block).status = .blkPut then queueLoop queueDataLen nodes (s.take block)
      else queueLoop queueDataLen nodes s
    | some last =>
      if (s.blkSet block).status ≠ .blkPut ∨ (s.blkSet last).buf > (s.blkSet block).buf ∨
          s.dataTotalSize + (s.blkSet block).size > queueDataLen then s
      else queueLoop queueDataLen nodes (s.take block)

/-- The loop of `rt_rbb_next_blk_queue_len`. -/
def nextLoop (blkSet : Nat → RtRbbBlk) : List Nat → Option Nat → Nat → Nat
  | [], _, dataLen => dataLen
  | block :: nodes, none, dataLen =>
    if (blkSet block).status ≠ .blkPut then nextLoop blkSet nodes none dataLen
    else nextLoop blkSet nodes (some block) (dataLen + (blkSet block).size)
  | block :: nodes, some last, dataLen =>
    if (blkSet block).status ≠ .blkPut ∨ (blkSet last).buf > (blkSet block).buf then dataLen
    else nextLoop blkSet nodes (some block) (dataLen + (blkSet block).size)

end QueueScan

namespace RtRbb

variable (r : RtRbb)

/-- The variables of `rt_rbb_blk_queue_get` at its end. -/
def queueScan (queueDataLen : Nat) : QueueScan :=
  QueueScan.queueLoop queueDataLen r.blkList ⟨r.blkSet, none, 0, none⟩

/-- `rt_rbb_blk_queue_get`: the size, and the queue when one was written. -/
def blkQueueGet (queueDataLen : Nat) : Nat × Option RtRbbBlkQueue × RtRbb :=
  let s := r.queueScan queueDataLen
  (s.dataTotalSize, s.blkQueue, { r with blkSet := s.blkSet })

/-- `rt_rbb_next_blk_queue_len` -/
def nextBlkQueueLen : Nat := QueueScan.nextLoop r.blkSet r.blkList none 0

/-- `blk->list.next` -/
def next (block : Nat) : Option Nat := (r.blkList.dropWhile (· != block)).tail.head?

/-- The loop of `rt_rbb_blk_queue_len`; `none` where it leaves the list. -/
def queueLenLoop : Nat → Option Nat → Nat → Option Nat
  | 0, _, dataTotalSize => some dataTotalSize
  | _ + 1, none, _ => none
  | rounds + 1, some blk, dataTotalSize =>
    queueLenLoop rounds (r.next blk) (dataTotalSize + (r.blkSet blk).size)

/-- `rt_rbb_blk_queue_len` -/
def blkQueueLen (queue : RtRbbBlkQueue) : Option Nat :=
  r.queueLenLoop queue.blkNum (some queue.blocks) 0

/-- `rt_rbb_blk_queue_buf` -/
def blkQueueBuf (queue : RtRbbBlkQueue) : Nat := (r.blkSet queue.blocks).buf

/-- The loop of `rt_rbb_blk_queue_free`; `none` where it leaves the list. -/
def queueFreeLoop : Nat → Option Nat → RtRbb → Option RtRbb
  | 0, _, r => some r
  | _ + 1, none, _ => none
  | rounds + 1, some blk, r => queueFreeLoop rounds (r.next blk) (r.blkFree blk)

/-- `rt_rbb_blk_queue_free` -/
def blkQueueFree (queue : RtRbbBlkQueue) : Option RtRbb :=
  queueFreeLoop queue.blkNum (some queue.blocks) r

end RtRbb

/-! ## The invariant -/

namespace RtRbb

variable {r : RtRbb} {b c first last : Nat} {pre seg post : List Nat} {status : RtRbbStatus}

/-- The part of the buffer a block has. -/
def extent (r : RtRbb) (block : Nat) : Extent := ⟨(r.blkSet block).buf, (r.blkSet block).size⟩

/-- Every block is in one of the lists, and those in use share the buffer. -/
structure Sound (r : RtRbb) : Prop where
  bufSize : r.bufSize < 0x100000000
  blocks : (r.blkList ++ r.freeList).Perm (List.range r.blkMaxNum)
  used : ∀ b ∈ r.blkList, (r.blkSet b).status ≠ .blkUnused
  unused : ∀ b ∈ r.freeList, (r.blkSet b).status = .blkUnused
  tail : r.tail = r.blkList.getLast?
  laid : RingLaid r.bufSize (r.blkList.map r.extent)
  pos : ∀ b ∈ r.blkList, 0 < (r.blkSet b).size

theorem ptrDiff_eq {p q : Nat} (hle : q ≤ p) (hp : p < 0x100000000) : ptrDiff p q = p - q := by
  have hsum : 0x100000000 + p - q = p - q + 0x100000000 := by omega
  rw [ptrDiff, hsum, Nat.add_mod_right]
  exact Nat.mod_eq_of_lt (by omega)

theorem takeWhile_ne (hb : b ∉ pre) : (pre ++ b :: post).takeWhile (· != b) = pre := by
  rw [List.takeWhile_append_of_pos fun a ha => bne_iff_ne.mpr (ne_of_mem_of_not_mem ha hb)]
  simp

theorem dropWhile_ne (hb : b ∉ pre) : (pre ++ b :: post).dropWhile (· != b) = b :: post := by
  rw [List.dropWhile_append_of_pos fun a ha => bne_iff_ne.mpr (ne_of_mem_of_not_mem ha hb)]
  simp

/-- The block behind another one. -/
theorem next_eq (hlist : r.blkList = pre ++ b :: post) (hb : b ∉ pre) :
    r.next b = post.head? := by
  rw [next, hlist, dropWhile_ne hb, List.tail_cons]

theorem Sound.nodup (h : r.Sound) : (r.blkList ++ r.freeList).Nodup :=
  h.blocks.nodup_iff.mpr List.nodup_range

theorem Sound.nodup_blkList (h : r.Sound) : r.blkList.Nodup :=
  (List.nodup_append.mp h.nodup).1

/-- A block of the list with what is in front of it and behind it. -/
theorem Sound.split (h : r.Sound) (hb : b ∈ r.blkList) :
    ∃ pre post, r.blkList = pre ++ b :: post ∧ b ∉ pre ∧ b ∉ post := by
  obtain ⟨pre, post, hlist⟩ := List.append_of_mem hb
  have hnodup := h.nodup_blkList
  rw [hlist] at hnodup
  obtain ⟨-, hpost, hdisjoint⟩ := List.nodup_append.mp hnodup
  exact ⟨pre, post, hlist, fun hpre => hdisjoint b hpre b List.mem_cons_self rfl,
    (List.nodup_cons.mp hpost).1⟩

theorem sound_init {bufSize blkMaxNum : Nat} {blockSet : Nat → RtRbbBlk}
    (hsize : bufSize < 0x100000000) : (init bufSize blockSet blkMaxNum).Sound := by
  have hfree : (init bufSize blockSet blkMaxNum).freeList = (List.range blkMaxNum).reverse := by
    show (List.range blkMaxNum).foldl (fun freeList i => i :: freeList) [] = _
    rw [List.foldl_flip_cons_eq_append, List.append_nil, List.map_id']
  refine ⟨hsize, ?_, nofun, fun b hb => ?_, rfl, .nil _, nofun⟩
  · rw [hfree]
    exact List.reverse_perm _
  · rw [hfree, List.mem_reverse, List.mem_range] at hb
    show (if b < blkMaxNum then _ else _ : RtRbbBlk).status = _
    rw [if_pos hb]

/-! ### A status -/

theorem blkSet_setStatus_of_ne (hne : c ≠ b) : (r.setStatus b status).blkSet c = r.blkSet c :=
  Function.update_of_ne hne _ _

@[simp] theorem status_setStatus : ((r.setStatus b status).blkSet b).status = status := by
  simp [setStatus]

@[simp] theorem buf_setStatus : ((r.setStatus b status).blkSet c).buf = (r.blkSet c).buf := by
  by_cases hcb : c = b
  · subst hcb
    simp [setStatus]
  · rw [blkSet_setStatus_of_ne hcb]

@[simp] theorem size_setStatus : ((r.setStatus b status).blkSet c).size = (r.blkSet c).size := by
  by_cases hcb : c = b
  · subst hcb
    simp [setStatus]
  · rw [blkSet_setStatus_of_ne hcb]

@[simp] theorem extent_setStatus : (r.setStatus b status).extent = r.extent := by
  funext c
  rw [extent, extent, buf_setStatus, size_setStatus]

/-- The status of a block in use is changed. -/
theorem Sound.setStatus (h : r.Sound) (hb : b ∈ r.blkList) (hstatus : status ≠ .blkUnused) :
    (r.setStatus b status).Sound := by
  refine ⟨h.bufSize, h.blocks, fun c hc => ?_, fun c hc => ?_, h.tail, ?_, fun c hc => ?_⟩
  · by_cases hcb : c = b
    · rw [hcb, status_setStatus]
      exact hstatus
    · rw [blkSet_setStatus_of_ne hcb]
      exact h.used c hc
  · have hcb : c ≠ b := fun heq => h.used b hb (heq ▸ h.unused c hc)
    rw [blkSet_setStatus_of_ne hcb]
    exact h.unused c hc
  · rw [extent_setStatus]
    exact h.laid
  · rw [size_setStatus]
    exact h.pos c hc

/-! ### Freeing -/

/-- What `rt_rbb_blk_free` does with a block in use. -/
theorem blkFree_eq (h : r.Sound) (hlist : r.blkList = pre ++ b :: post) (hb : b ∉ pre) :
    r.blkFree b = { r.setStatus b .blkUnused with
      blkList := pre ++ post
      tail := (pre ++ post).getLast?
      freeList := b :: r.freeList } := by
  have hmem : b ∈ r.blkList := by simp [hlist]
  have herase : r.blkList.erase b = pre ++ post := by
    rw [hlist, List.erase_append_right _ hb, List.erase_cons_head]
  have htail : (if r.tail = some b then (r.blkList.takeWhile (· != b)).getLast? else r.tail) =
      (pre ++ post).getLast? := by
    rw [h.tail, hlist, takeWhile_ne hb]
    cases hpost : post.getLast? with
    | none =>
      rw [List.getLast?_eq_none_iff.mp hpost]
      simp
    | some c =>
      have hnodup := h.nodup_blkList
      rw [hlist] at hnodup
      have hc : c ≠ b := by
        rintro rfl
        exact (List.nodup_cons.mp (List.nodup_append.mp hnodup).2.1).1
          (List.mem_of_getLast? hpost)
      simp [List.getLast?_append, List.getLast?_cons, hpost, hc]
  simp only [blkFree, listRemove, if_pos hmem, herase, htail, RtRbb.setStatus]

theorem Sound.blkFree (h : r.Sound) (hb : b ∈ r.blkList) : (r.blkFree b).Sound := by
  obtain ⟨pre, post, hlist, hpre, hpost⟩ := h.split hb
  rw [blkFree_eq h hlist hpre]
  have hperm : (pre ++ post ++ b :: r.freeList).Perm (r.blkList ++ r.freeList) := by
    rw [hlist, List.append_assoc, List.append_assoc]
    exact List.perm_middle.append_left pre
  have hsub : (pre ++ post).Sublist r.blkList := by
    rw [hlist]
    exact (List.sublist_cons_self b post).append_left pre
  refine ⟨h.bufSize, hperm.trans h.blocks, fun c hc => ?_, fun c hc => ?_, rfl, ?_,
    fun c hc => ?_⟩
  · have hcb : c ≠ b := fun heq => (List.mem_append.mp (heq ▸ hc)).elim hpre hpost
    show ((r.setStatus b .blkUnused).blkSet c).status ≠ _
    rw [blkSet_setStatus_of_ne hcb]
    exact h.used c (hsub.subset hc)
  · show ((r.setStatus b .blkUnused).blkSet c).status = _
    rcases List.mem_cons.mp hc with rfl | hc
    · exact status_setStatus
    · have hcb : c ≠ b := fun heq => h.used b hb (heq ▸ h.unused c hc)
      rw [blkSet_setStatus_of_ne hcb]
      exact h.unused c hc
  · show RingLaid r.bufSize ((pre ++ post).map (r.setStatus b .blkUnused).extent)
    rw [extent_setStatus]
    exact h.laid.sublist (hsub.map _)
  · show 0 < ((r.setStatus b .blkUnused).blkSet c).size
    rw [size_setStatus]
    exact h.pos c (hsub.subset hc)

/-! ### Allocating -/

/-- The place of a block keeps the ring, and the call finds out whether there is one. -/
theorem Sound.place (h : r.Sound) (blkSize : Nat) :
    ∃ place, r.place blkSize = some place ∧ ∀ buf, place = some buf →
      RingLaid r.bufSize (r.blkList.map r.extent ++ [⟨buf, blkSize⟩]) ∧
        (buf = 0 ∨ ∃ last, r.blkList.getLast? = some last ∧ buf = (r.extent last).stop) := by
  have hlaid := h.laid
  have hpos : ∀ e ∈ r.blkList.map r.extent, 0 < e.length := by
    intro e he
    obtain ⟨b, hb, rfl⟩ := List.mem_map.mp he
    exact h.pos b hb
  have hstop : ∀ b ∈ r.blkList, (r.extent b).stop ≤ r.bufSize := fun b hb =>
    hlaid.stop_le (List.mem_map_of_mem hb)
  have hbufSize := h.bufSize
  unfold RtRbb.place
  cases hlist : r.blkList with
  | nil =>
    refine ⟨_, rfl, fun buf hbuf => ?_⟩
    by_cases hfit : blkSize ≤ r.bufSize
    · rw [if_pos hfit] at hbuf
      obtain rfl := Option.some.inj hbuf
      exact ⟨.singleton (by simpa [Extent.stop] using hfit), .inl rfl⟩
    · rw [if_neg hfit] at hbuf
      cases hbuf
  | cons first rest =>
    obtain ⟨last, hlast⟩ : ∃ last, (first :: rest).getLast? = some last :=
      ⟨_, List.getLast?_cons⟩
    rw [h.tail, hlist, hlast]
    dsimp only
    rw [hlist] at hlaid hpos hstop
    have hheadE : ((first :: rest).map r.extent).head? = some (r.extent first) := rfl
    have htailE : ((first :: rest).map r.extent).getLast? = some (r.extent last) := by
      rw [List.getLast?_map, hlast]
      rfl
    have hheadStop := hstop first List.mem_cons_self
    have htailStop := hstop last (List.mem_of_getLast? hlast)
    have hheadStart : (r.blkSet first).buf ≤ (r.extent first).stop := Nat.le_add_right _ _
    have htailEq : (r.blkSet last).buf + (r.blkSet last).size = (r.extent last).stop := rfl
    rw [htailEq]
    by_cases hle : (r.blkSet first).buf ≤ (r.blkSet last).buf
    · rw [if_pos hle, ptrDiff_eq htailStop hbufSize, ptrDiff_eq (Nat.zero_le _) (by omega)]
      by_cases hhigh : r.bufSize - (r.extent last).stop ≥ blkSize
      · rw [if_pos hhigh]
        refine ⟨_, rfl, fun buf hbuf => ?_⟩
        obtain rfl := Option.some.inj hbuf
        refine ⟨?_, .inr ⟨last, rfl, rfl⟩⟩
        exact hlaid.concat_high hpos hheadE htailE hle rfl
          (by show (r.extent last).stop + blkSize ≤ r.bufSize; omega)
      · rw [if_neg hhigh]
        by_cases hlow : (r.blkSet first).buf - 0 ≥ blkSize
        · rw [if_pos hlow]
          refine ⟨_, rfl, fun buf hbuf => ?_⟩
          obtain rfl := Option.some.inj hbuf
          refine ⟨?_, .inl rfl⟩
          exact hlaid.concat_low hpos hheadE htailE hle
            (by show 0 + blkSize ≤ (r.blkSet first).buf; omega)
        · rw [if_neg hlow]
          exact ⟨none, rfl, nofun⟩
    · have hbelow : (r.extent last).stop ≤ (r.blkSet first).buf := by
        have hpair := hlaid.pairwise
        have hne : first ≠ last := fun heq => hle (heq ▸ Nat.le_refl _)
        have hmem : last ∈ rest :=
          (List.mem_cons.mp (List.mem_of_getLast? hlast)).resolve_left hne.symm
        have hapart := (List.pairwise_cons.mp hpair).1 _ (List.mem_map_of_mem hmem)
        rcases hapart with hup | hdown
        · have hstart : (r.extent last).start = (r.blkSet last).buf := rfl
          omega
        · exact hdown
      rw [if_neg hle, ptrDiff_eq hbelow (by omega)]
      by_cases hfit : (r.blkSet first).buf - (r.extent last).stop ≥ blkSize
      · rw [if_pos hfit]
        refine ⟨_, rfl, fun buf hbuf => ?_⟩
        obtain rfl := Option.some.inj hbuf
        refine ⟨?_, .inr ⟨last, rfl, rfl⟩⟩
        exact hlaid.concat_between hheadE htailE (Nat.lt_of_not_le hle) rfl
          (by show (r.extent last).stop + blkSize ≤ (r.blkSet first).buf; omega)
      · rw [if_neg hfit]
        exact ⟨none, rfl, nofun⟩

theorem listAppend_eq (htail : r.tail = r.blkList.getLast?) (hnodup : r.blkList.Nodup) (n : Nat) :
    r.listAppend n = { r with blkList := r.blkList ++ [n], tail := some n } := by
  unfold listAppend
  cases hlast : r.blkList.getLast? with
  | none =>
    rw [htail, hlast]
    simp [List.getLast?_eq_none_iff.mp hlast]
  | some t =>
    rw [htail, hlast]
    dsimp only
    obtain ⟨pre, hlist⟩ := List.getLast?_eq_some_iff.mp hlast
    rw [hlist] at hnodup
    have ht : t ∉ pre := fun hmem =>
      (List.nodup_append.mp hnodup).2.2 t hmem t List.mem_cons_self rfl
    rw [if_pos (List.mem_of_getLast? hlast), hlist, takeWhile_ne ht, List.append_assoc]
    rfl

/-- A block comes to the end of the list. -/
def grow (r : RtRbb) (b : Nat) (freeList : List Nat) (size buf : Nat) : RtRbb :=
  { r with
    blkList := r.blkList ++ [b]
    tail := some b
    freeList := freeList
    blkSet := Function.update r.blkSet b ⟨.blkInited, size, buf⟩ }

variable {freeList : List Nat} {size buf : Nat}

theorem blkSet_grow_of_ne (hne : c ≠ b) : (r.grow b freeList size buf).blkSet c = r.blkSet c :=
  Function.update_of_ne hne _ _

@[simp] theorem blkSet_grow :
    (r.grow b freeList size buf).blkSet b = ⟨.blkInited, size, buf⟩ :=
  Function.update_self _ _ _

theorem Sound.grow (h : r.Sound) (hfree : r.freeList = b :: freeList) (hpos : 0 < size)
    (hlaid : RingLaid r.bufSize (r.blkList.map r.extent ++ [⟨buf, size⟩])) :
    (r.grow b freeList size buf).Sound := by
  have hnodup := h.nodup
  rw [hfree] at hnodup
  obtain ⟨-, hfreeNodup, hdisjoint⟩ := List.nodup_append.mp hnodup
  have hout : ∀ c ∈ r.blkList, c ≠ b := fun c hc => hdisjoint c hc b List.mem_cons_self
  have hmap : (r.blkList ++ [b]).map (r.grow b freeList size buf).extent =
      r.blkList.map r.extent ++ [⟨buf, size⟩] := by
    rw [List.map_append, List.map_singleton, extent, blkSet_grow]
    refine congrArg (· ++ _) (List.map_congr_left fun c hc => ?_)
    rw [extent, blkSet_grow_of_ne (hout c hc), extent]
  refine ⟨h.bufSize, ?_, fun c hc => ?_, fun c hc => ?_, ?_, ?_, fun c hc => ?_⟩
  · have hblocks := h.blocks
    rw [hfree] at hblocks
    show (r.blkList ++ [b] ++ freeList).Perm _
    rw [List.append_assoc]
    exact hblocks
  · rcases List.mem_append.mp hc with hc | hc
    · rw [blkSet_grow_of_ne (hout c hc)]
      exact h.used c hc
    · rw [List.mem_singleton.mp hc, blkSet_grow]
      nofun
  · have hcb : c ≠ b := fun heq => (List.nodup_cons.mp hfreeNodup).1 (heq ▸ hc)
    rw [blkSet_grow_of_ne hcb]
    exact h.unused c (hfree ▸ List.mem_cons_of_mem b hc)
  · exact List.getLast?_concat.symm
  · show RingLaid r.bufSize ((r.blkList ++ [b]).map _)
    rw [hmap]
    exact hlaid
  · rcases List.mem_append.mp hc with hc | hc
    · rw [blkSet_grow_of_ne (hout c hc)]
      exact h.pos c hc
    · rw [List.mem_singleton.mp hc, blkSet_grow]
      exact hpos

/-- What `rt_rbb_blk_alloc` does: nothing, or the first free block comes to the end of the list. -/
theorem Sound.blkAlloc (h : r.Sound) (hpos : 0 < size) (hlimit : size < blkSizeLimit) :
    r.blkAlloc size = some (none, r) ∨
    ∃ b freeList buf, r.freeList = b :: freeList ∧
      r.blkAlloc size = some (some b, r.grow b freeList size buf) ∧
      (r.grow b freeList size buf).Sound ∧
      (buf = 0 ∨ ∃ last, r.blkList.getLast? = some last ∧ buf = (r.extent last).stop) := by
  unfold RtRbb.blkAlloc
  cases hfree : r.freeList with
  | nil => exact .inl rfl
  | cons b freeList =>
    obtain ⟨place, hplace, hright⟩ := h.place size
    dsimp only
    rw [hplace]
    cases place with
    | none =>
      left
      rw [← hfree]
    | some buf =>
      obtain ⟨hlaid, hbuf⟩ := hright buf rfl
      refine .inr ⟨b, freeList, buf, rfl, ?_, h.grow hfree hpos hlaid, hbuf⟩
      dsimp only
      rw [listAppend_eq h.tail h.nodup_blkList, Nat.mod_eq_of_lt hlimit]
      rfl

/-! ### Getting one block -/

/-- What `rt_rbb_blk_get` does: it gets the first block that was put. -/
theorem blkGet_cases (r : RtRbb) :
    (∀ b ∈ r.blkList, (r.blkSet b).status ≠ .blkPut) ∧ r.blkGet = (none, r) ∨
    ∃ pre b post, r.blkList = pre ++ b :: post ∧ (∀ c ∈ pre, (r.blkSet c).status ≠ .blkPut) ∧
      (r.blkSet b).status = .blkPut ∧ r.blkGet = (some b, r.setStatus b .blkGet) := by
  unfold blkGet
  cases hfind : r.blkList.find? (fun block => (r.blkSet block).status = .blkPut) with
  | none =>
    refine .inl ⟨fun b hb => ?_, rfl⟩
    simpa using List.find?_eq_none.mp hfind b hb
  | some b =>
    obtain ⟨hput, pre, post, hlist, hpre⟩ := List.find?_eq_some_iff_append.mp hfind
    exact .inr ⟨pre, b, post, hlist, fun c hc => by simpa using hpre c hc, by simpa using hput, rfl⟩

end RtRbb

/-! ## Getting and freeing a queue -/

namespace QueueScan

variable {s : QueueScan} {b c last : Nat} {nodes taken : List Nat}

theorem blkSet_take_of_ne (hne : c ≠ b) : (s.take b).blkSet c = s.blkSet c :=
  Function.update_of_ne hne _ _

@[simp] theorem buf_take : ((s.take b).blkSet c).buf = (s.blkSet c).buf := by
  by_cases hcb : c = b
  · subst hcb
    simp [take]
  · rw [blkSet_take_of_ne hcb]

@[simp] theorem size_take : ((s.take b).blkSet c).size = (s.blkSet c).size := by
  by_cases hcb : c = b
  · subst hcb
    simp [take]
  · rw [blkSet_take_of_ne hcb]

/-- The loop behind its first block: it takes blocks as long as they were put, come behind the
block before them and fit in. -/
theorem queueLoop_some (len : Nat) (hlast : s.lastBlock = some last) (hnodup : nodes.Nodup) :
    ∃ taken post, nodes = taken ++ post ∧ queueLoop len nodes s = taken.foldl take s ∧
      (∀ b ∈ taken, (s.blkSet b).status = .blkPut) ∧
      (last :: taken).IsChain (fun a b => (s.blkSet a).buf ≤ (s.blkSet b).buf) ∧
      (taken = [] ∨ s.dataTotalSize + (taken.map fun b => (s.blkSet b).size).sum ≤ len) := by
  induction nodes generalizing s last with
  | nil => exact ⟨[], [], rfl, rfl, nofun, .singleton _, .inl rfl⟩
  | cons b nodes ih =>
    obtain ⟨hb, hnodup⟩ := List.nodup_cons.mp hnodup
    rw [queueLoop, hlast]
    dsimp only
    by_cases hstop : (s.blkSet b).status ≠ .blkPut ∨ (s.blkSet last).buf > (s.blkSet b).buf ∨
        s.dataTotalSize + (s.blkSet b).size > len
    · rw [if_pos hstop]
      exact ⟨[], b :: nodes, rfl, rfl, nofun, .singleton _, .inl rfl⟩
    · rw [if_neg hstop]
      obtain ⟨hput, hstop⟩ := not_or.mp hstop
      obtain ⟨hbuf, hfit⟩ := not_or.mp hstop
      obtain ⟨taken, post, rfl, hloop, hstatus, hchain, hsum⟩ := @ih (s.take b) b rfl hnodup
      refine ⟨b :: taken, post, rfl, hloop, fun c hc => ?_, ?_, .inr ?_⟩
      · rcases List.mem_cons.mp hc with rfl | hc
        · exact not_not.mp hput
        · have hcb : c ≠ b := fun heq => hb (heq ▸ List.mem_append_left _ hc)
          rw [← hstatus c hc, blkSet_take_of_ne hcb]
      · refine List.isChain_cons_cons.mpr ⟨Nat.not_lt.mp hbuf, ?_⟩
        simpa only [buf_take] using hchain
      · rw [List.map_cons, List.sum_cons, ← Nat.add_assoc]
        rcases hsum with rfl | hsum
        · simpa using hfit
        · simp only [size_take] at hsum
          exact hsum

/-- The loop up to its first block. -/
theorem queueLoop_none (len : Nat) (nodes : List Nat) (hlast : s.lastBlock = none) :
    (∀ b ∈ nodes, (s.blkSet b).status ≠ .blkPut) ∧ queueLoop len nodes s = s ∨
    ∃ pre b post, nodes = pre ++ b :: post ∧ (∀ c ∈ pre, (s.blkSet c).status ≠ .blkPut) ∧
      (s.blkSet b).status = .blkPut ∧ queueLoop len nodes s = queueLoop len post (s.take b) := by
  induction nodes with
  | nil => exact .inl ⟨nofun, rfl⟩
  | cons b nodes ih =>
    rw [queueLoop, hlast]
    dsimp only
    by_cases hput : (s.blkSet b).status = .blkPut
    · rw [if_pos hput]
      exact .inr ⟨[], b, nodes, rfl, nofun, hput, rfl⟩
    · rw [if_neg hput]
      rcases ih with ⟨hnone, hloop⟩ | ⟨pre, c, post, rfl, hpre, hc, hloop⟩
      · exact .inl ⟨List.forall_mem_cons.mpr ⟨hput, hnone⟩, hloop⟩
      · exact .inr ⟨b :: pre, c, post, rfl, List.forall_mem_cons.mpr ⟨hput, hpre⟩, hc, hloop⟩

theorem foldl_take_total :
    (taken.foldl take s).dataTotalSize =
      s.dataTotalSize + (taken.map fun b => (s.blkSet b).size).sum := by
  induction taken generalizing s with
  | nil => rfl
  | cons b taken ih =>
    rw [List.foldl_cons, ih, List.map_cons, List.sum_cons, ← Nat.add_assoc]
    simp only [size_take]
    rfl

theorem foldl_take_queue {queue : RtRbbBlkQueue} (hqueue : s.blkQueue = some queue) :
    (taken.foldl take s).blkQueue = some ⟨queue.blocks, queue.blkNum + taken.length⟩ := by
  induction taken generalizing s queue with
  | nil => exact hqueue
  | cons b taken ih =>
    have hfirst : (s.take b).blkQueue = some ⟨queue.blocks, queue.blkNum + 1⟩ := by
      rw [take, hqueue]
    rw [List.foldl_cons, ih hfirst, List.length_cons, Nat.add_assoc, Nat.add_comm 1]

/-- `rt_rbb_next_blk_queue_len` goes over the list as `rt_rbb_blk_queue_get` does when there is
room for all. -/
theorem nextLoop_eq (blkSet : Nat → RtRbbBlk) {len : Nat} (hnodup : nodes.Nodup)
    (hsame : ∀ b ∈ nodes, s.blkSet b = blkSet b) (hbuf : ∀ b, (s.blkSet b).buf = (blkSet b).buf)
    (hlen : s.dataTotalSize + (nodes.map fun b => (blkSet b).size).sum ≤ len) :
    nextLoop blkSet nodes s.lastBlock s.dataTotalSize = (queueLoop len nodes s).dataTotalSize := by
  induction nodes generalizing s with
  | nil => rw [nextLoop, queueLoop]
  | cons b nodes ih =>
    obtain ⟨hb, hnodup⟩ := List.nodup_cons.mp hnodup
    obtain ⟨hsameb, hrest⟩ := List.forall_mem_cons.mp hsame
    rw [List.map_cons, List.sum_cons] at hlen
    have htake : nextLoop blkSet nodes (some b) (s.dataTotalSize + (blkSet b).size) =
        (queueLoop len nodes (s.take b)).dataTotalSize := by
      rw [← @ih (s.take b) hnodup]
      · rw [take, hsameb]
      · intro c hc
        rw [blkSet_take_of_ne (ne_of_mem_of_not_mem hc hb)]
        exact hrest c hc
      · intro c
        rw [buf_take, hbuf]
      · rw [take, hsameb]
        dsimp only
        omega
    rw [queueLoop, hsameb]
    cases hlast : s.lastBlock with
    | none =>
      rw [nextLoop]
      dsimp only
      by_cases hput : (blkSet b).status = .blkPut
      · rw [if_pos hput, if_neg (not_not.mpr hput), htake]
      · rw [if_neg hput, if_pos hput, ← hlast]
        exact ih hnodup hrest hbuf (by omega)
    | some last =>
      have hfit : ¬ s.dataTotalSize + (blkSet b).size > len := by omega
      rw [nextLoop]
      dsimp only
      rw [hbuf]
      simp only [hfit, or_false]
      by_cases hstop : (blkSet b).status ≠ .blkPut ∨ (blkSet last).buf > (blkSet b).buf
      · rw [if_pos hstop, if_pos hstop]
      · rw [if_neg hstop, if_neg hstop, htake]

end QueueScan

namespace RtRbb

variable {r : RtRbb} {b c len : Nat} {pre seg taken post : List Nat}

/-- The blocks were got. -/
def markGet (r : RtRbb) (blocks : List Nat) : RtRbb :=
  blocks.foldl (fun r b => r.setStatus b .blkGet) r

/-- The blocks are freed one after the other. -/
def freeAll (r : RtRbb) (blocks : List Nat) : RtRbb := blocks.foldl RtRbb.blkFree r

/-- The size of some blocks. -/
def sizes (r : RtRbb) (blocks : List Nat) : Nat := (blocks.map fun b => (r.blkSet b).size).sum

theorem foldl_take_blkSet (s : QueueScan) :
    { r with blkSet := (taken.foldl QueueScan.take s).blkSet } =
      markGet { r with blkSet := s.blkSet } taken := by
  induction taken generalizing s with
  | nil => rfl
  | cons b taken ih => exact ih (s.take b)

/-- What `rt_rbb_blk_queue_get` does: nothing, or it gets a part of the list that begins with the
first block that was put. -/
theorem blkQueueGet_cases (hnodup : r.blkList.Nodup) (len : Nat) :
    (∀ b ∈ r.blkList, (r.blkSet b).status ≠ .blkPut) ∧ r.blkQueueGet len = (0, none, r) ∨
    ∃ pre b taken post, r.blkList = pre ++ (b :: taken) ++ post ∧
      (∀ c ∈ pre, (r.blkSet c).status ≠ .blkPut) ∧
      (∀ c ∈ b :: taken, (r.blkSet c).status = .blkPut) ∧
      (b :: taken).IsChain (fun a b => (r.blkSet a).buf ≤ (r.blkSet b).buf) ∧
      (taken = [] ∨ r.sizes (b :: taken) ≤ len) ∧
      r.blkQueueGet len =
        (r.sizes (b :: taken), some ⟨b, taken.length + 1⟩, r.markGet (b :: taken)) := by
  have hstart : r.queueScan len = QueueScan.queueLoop len r.blkList ⟨r.blkSet, none, 0, none⟩ := rfl
  rcases QueueScan.queueLoop_none (s := ⟨r.blkSet, none, 0, none⟩) len r.blkList rfl with
    ⟨hnone, hloop⟩ | ⟨pre, b, post, hlist, hpre, hput, hloop⟩
  · refine .inl ⟨hnone, ?_⟩
    rw [blkQueueGet, hstart, hloop]
  · right
    rw [hlist] at hnodup
    obtain ⟨hb, hpost⟩ := List.nodup_cons.mp (List.nodup_append.mp hnodup).2.1
    obtain ⟨taken, post, rfl, hrest, hstatus, hchain, hsum⟩ :=
      QueueScan.queueLoop_some (s := QueueScan.take ⟨r.blkSet, none, 0, none⟩ b) len rfl hpost
    have hscan : r.queueScan len =
        (b :: taken).foldl QueueScan.take ⟨r.blkSet, none, 0, none⟩ := by
      rw [hstart, hloop, hrest]
      rfl
    refine ⟨pre, b, taken, post, by rw [hlist, List.append_assoc]; rfl, hpre, ?_, ?_, ?_, ?_⟩
    · refine List.forall_mem_cons.mpr ⟨hput, fun c hc => ?_⟩
      have hcb : c ≠ b := fun heq => hb (heq ▸ List.mem_append_left _ hc)
      have hc := hstatus c hc
      rwa [QueueScan.blkSet_take_of_ne hcb] at hc
    · simpa only [QueueScan.buf_take] using hchain
    · refine hsum.imp id fun hsum => ?_
      simp only [QueueScan.size_take] at hsum
      simpa [sizes, QueueScan.take] using hsum
    · have htotal : (r.queueScan len).dataTotalSize = r.sizes (b :: taken) := by
        rw [hscan, QueueScan.foldl_take_total, Nat.zero_add]
        rfl
      have hqueue : (r.queueScan len).blkQueue = some ⟨b, taken.length + 1⟩ := by
        have hfirst : (QueueScan.take ⟨r.blkSet, none, 0, none⟩ b).blkQueue = some ⟨b, 1⟩ := rfl
        rw [hscan, List.foldl_cons, QueueScan.foldl_take_queue hfirst, Nat.add_comm]
      have hset : { r with blkSet := (r.queueScan len).blkSet } = r.markGet (b :: taken) := by
        rw [hscan]
        exact foldl_take_blkSet _
      rw [blkQueueGet, htotal, hqueue, hset]

/-- `rt_rbb_next_blk_queue_len` tells what `rt_rbb_blk_queue_get` returns when it may take as much
as the buffer holds. -/
theorem nextBlkQueueLen_eq (h : r.Sound) (hlen : r.bufSize ≤ len) :
    r.nextBlkQueueLen = (r.blkQueueGet len).1 := by
  have hsum := h.laid.sum_le
  rw [List.map_map] at hsum
  refine QueueScan.nextLoop_eq (s := ⟨r.blkSet, none, 0, none⟩) r.blkSet h.nodup_blkList
    (fun _ _ => rfl) (fun _ => rfl) ?_
  show 0 + (r.blkList.map (Extent.length ∘ r.extent)).sum ≤ len
  omega

/-- `rt_rbb_blk_queue_len` adds up the blocks of the queue. -/
theorem queueLenLoop_eq (hnodup : r.blkList.Nodup) (total : Nat)
    (hlist : r.blkList = pre ++ seg ++ post) :
    r.queueLenLoop seg.length (seg ++ post).head? total = some (total + r.sizes seg) := by
  induction seg generalizing pre total with
  | nil => rfl
  | cons b seg ih =>
    have hmid : r.blkList = pre ++ b :: (seg ++ post) := by rw [hlist, List.append_assoc]; rfl
    have hb : b ∉ pre := by
      rw [hmid] at hnodup
      exact fun hmem => (List.nodup_append.mp hnodup).2.2 b hmem b List.mem_cons_self rfl
    have hlater : r.blkList = (pre ++ [b]) ++ seg ++ post := by
      rw [hmid, List.append_assoc, List.append_assoc]
      rfl
    show r.queueLenLoop seg.length (r.next b) (total + (r.blkSet b).size) = _
    rw [next_eq hmid hb, ih _ hlater, sizes, sizes, List.map_cons, List.sum_cons, Nat.add_assoc]

/-- `rt_rbb_blk_queue_free` frees the blocks of the queue. -/
theorem queueFreeLoop_eq (h : r.Sound) (hlist : r.blkList = pre ++ seg ++ post) :
    queueFreeLoop seg.length (seg ++ post).head? r = some (r.freeAll seg) := by
  induction seg generalizing r with
  | nil => rfl
  | cons b seg ih =>
    have hmid : r.blkList = pre ++ b :: (seg ++ post) := by rw [hlist, List.append_assoc]; rfl
    have hb : b ∉ pre := by
      have hnodup := h.nodup_blkList
      rw [hmid] at hnodup
      exact fun hmem => (List.nodup_append.mp hnodup).2.2 b hmem b List.mem_cons_self rfl
    have hfree : (r.blkFree b).blkList = pre ++ seg ++ post := by
      rw [blkFree_eq h hmid hb, List.append_assoc]
    show queueFreeLoop seg.length (r.next b) (r.blkFree b) = _
    rw [next_eq hmid hb]
    exact ih (h.blkFree (by simp [hmid])) hfree

end RtRbb

end Gd32Vw553h.Ipc
