/-
  Kernel/Memheap.lean --- the memory heap with a free list (`src/memheap.c`,
  `RT_MEMHEAP_FAST_MODE`).

  The blocks are linked in the order of their addresses, up to a used tailer that links
  back to the first one; the free ones are also members of a circular list whose head is
  in the heap object.  `rt_memheap_realloc` lets a block grow into a free one behind it
  when their sizes together exceed `newsize + RT_MEMHEAP_MINIALLOC`, and that sum wraps
  for the largest sizes.  `memheap_invariant` says that in every run without such a call
  the two lists, the byte count and the pointers handed out agree.

  Pointers into the pool are offsets from `start_addr`.  `pool_ptr` is left out: every header
  of the pool has this heap there.  The calls come one after the other, so the lock is
  always free.  Sizes that come from the caller wrap as in the code; sums that stay
  within the pool do not.
-/
import Gd32Vw553h.Foundation.HeapCalls
import Gd32Vw553h.Foundation.LinkedRing
import Gd32Vw553h.Kernel.RtDef

set_option autoImplicit false

namespace Gd32Vw553h.Kernel.Memheap

open Gd32Vw553h.Foundation

/-! ## Data -/

/-- `RT_MEMHEAP_SIZE` -/
abbrev rtMemheapSize : Nat := 24
/-- `RT_MEMHEAP_MINIALLOC` -/
abbrev rtMemheapMinialloc : Nat := 16
/-- `RT_MEMHEAP_MAGIC | RT_MEMHEAP_FREED` -/
abbrev magicFreed : Nat := 0x1ea01ea0
/-- `RT_MEMHEAP_MAGIC | RT_MEMHEAP_USED` -/
abbrev magicUsed : Nat := 0x1ea01ea1

/-- A pointer to a header: null, the one of the free list or one in the pool. -/
inductive ItemPtr where
  | null
  | freeHeader
  | block (offset : Nat)
  deriving DecidableEq

/-- `struct rt_memheap_item` without `next_free` and `prev_free`. -/
structure RtMemheapItem where
  magic : Nat
  next : Nat
  prev : Nat
  deriving DecidableEq

theorem RtMemheapItem.with_prev {item : RtMemheapItem} {q : Nat} (h : item.prev = q) :
    item = { item with prev := q } := by
  rw [← h]

/-- `RT_MEMHEAP_IS_USED` -/
def rtMemheapIsUsed (item : RtMemheapItem) : Prop := item.magic % 2 = 1

instance (item : RtMemheapItem) : Decidable (rtMemheapIsUsed item) :=
  inferInstanceAs (Decidable (item.magic % 2 = 1))

/-- `struct rt_memheap`, and the headers in its pool. -/
structure RtMemheap where
  startAddr : Nat
  poolSize : Nat
  availableSize : Nat
  maxUsedSize : Nat
  item : Nat → RtMemheapItem
  /-- `next_free` and `prev_free` of all headers -/
  free : Links ItemPtr

/-- Write to a header. -/
def RtMemheap.set (m : RtMemheap) (ptr : Nat) (item : RtMemheapItem) : RtMemheap :=
  { m with item := Function.update m.item ptr item }

section
variable (m : RtMemheap) (ptr : Nat) (item : RtMemheapItem)

theorem RtMemheap.set_item (o : Nat) :
    (m.set ptr item).item o = if o = ptr then item else m.item o :=
  Function.update_apply m.item ptr item o

@[simp] theorem RtMemheap.set_startAddr : (m.set ptr item).startAddr = m.startAddr := rfl
@[simp] theorem RtMemheap.set_poolSize : (m.set ptr item).poolSize = m.poolSize := rfl
@[simp] theorem RtMemheap.set_availableSize :
    (m.set ptr item).availableSize = m.availableSize := rfl
@[simp] theorem RtMemheap.set_maxUsedSize : (m.set ptr item).maxUsedSize = m.maxUsedSize := rfl
@[simp] theorem RtMemheap.set_free : (m.set ptr item).free = m.free := rfl

end

/-- `MEMITEM_SIZE` -/
def memitemSize (m : RtMemheap) (ptr : Nat) : Nat :=
  wordSub (wordSub (m.item ptr).next ptr) rtMemheapSize

/-! ## Code -/

/-- The assignments that put a new header at the head of the free list. -/
def linkFree (L : Links ItemPtr) (n : ItemPtr) : Links ItemPtr :=
  let L := L.setNext n (L.next .freeHeader)
  let L := L.setPrev n .freeHeader
  let L := L.setPrev (L.next .freeHeader) n
  L.setNext .freeHeader n

/-- The assignments of `rt_memheap_free` that put a header in front of the first free one. -/
def linkFreed (L : Links ItemPtr) (p : ItemPtr) : Links ItemPtr :=
  let n := L.next .freeHeader
  let L := L.setNext p n
  let L := L.setPrev p (L.prev n)
  let L := L.setNext (L.prev n) p
  L.setPrev n p

/-- The assignments that take the header of an allocated block out of the free list. -/
def unlinkUsed (L : Links ItemPtr) (p : ItemPtr) : Links ItemPtr :=
  ((L.unlink p).setNext p .null).setPrev p .null

/-- `max_used_size` after `available_size` has been lowered. -/
def noteUsed (m : RtMemheap) : RtMemheap :=
  if wordSub m.poolSize m.availableSize > m.maxUsedSize then
    { m with maxUsedSize := wordSub m.poolSize m.availableSize }
  else m

/-- A free block with its header at `new` in the block at `header`. -/
def splitItem (m : RtMemheap) (header new : Nat) : RtMemheap :=
  let m := m.set new ⟨magicFreed, (m.item header).next, header⟩
  let m := m.set (m.item header).next { m.item (m.item header).next with prev := new }
  m.set header { m.item header with next := new }

/-- The block at `header` and the one at `next` behind it become one. -/
def joinItem (m : RtMemheap) (header next : Nat) : RtMemheap :=
  let m := m.set (m.item next).next { m.item (m.item next).next with prev := header }
  m.set header { m.item header with next := (m.item next).next }

section
variable (m : RtMemheap) (header ptr : Nat)

@[simp] theorem splitItem_startAddr : (splitItem m header ptr).startAddr = m.startAddr := rfl
@[simp] theorem splitItem_poolSize : (splitItem m header ptr).poolSize = m.poolSize := rfl
@[simp] theorem splitItem_availableSize :
    (splitItem m header ptr).availableSize = m.availableSize := rfl
@[simp] theorem splitItem_free : (splitItem m header ptr).free = m.free := rfl
@[simp] theorem joinItem_startAddr : (joinItem m header ptr).startAddr = m.startAddr := rfl
@[simp] theorem joinItem_poolSize : (joinItem m header ptr).poolSize = m.poolSize := rfl
@[simp] theorem joinItem_availableSize :
    (joinItem m header ptr).availableSize = m.availableSize := rfl
@[simp] theorem joinItem_free : (joinItem m header ptr).free = m.free := rfl

end

/-- `next_free` and `prev_free` as `rt_memheap_init` sets them. -/
def initFree (free : Links ItemPtr) (tailer : Nat) : Links ItemPtr :=
  let free := (free.setNext .freeHeader .freeHeader).setPrev .freeHeader .freeHeader
  let free := (free.setNext (.block 0) (.block 0)).setPrev (.block 0) (.block 0)
  let free := linkFree free (.block 0)
  (free.setNext (.block tailer) .null).setPrev (.block tailer) .null

/-- `rt_memheap_init`; `item` and `free` are what the memory holds. -/
def rtMemheapInit (startAddr size : Nat) (item : Nat → RtMemheapItem) (free : Links ItemPtr) :
    RtMemheap :=
  let poolSize := rtAlignDown size
  let availableSize := wordSub poolSize (2 * rtMemheapSize)
  let tailer := availableSize + rtMemheapSize
  let m : RtMemheap :=
    { startAddr := startAddr
      poolSize := poolSize
      availableSize := availableSize
      maxUsedSize := wordSub poolSize availableSize
      item := item
      free := initFree free tailer }
  let m := m.set 0 ⟨magicFreed, tailer, tailer⟩
  m.set tailer ⟨magicUsed, 0, 0⟩

/-- The size that a block gets for `size` bytes. -/
def blockSize (size : Nat) : Nat :=
  if rtAlign size < rtMemheapMinialloc then rtMemheapMinialloc else rtAlign size

/-- The search of `rt_memheap_alloc` from a header on, over at most `fuel` blocks. -/
def findFree (m : RtMemheap) (size : Nat) : Nat → ItemPtr → Option Nat
  | fuel + 1, .block ptr =>
    if memitemSize m ptr < size then findFree m size fuel (m.free.next (.block ptr)) else some ptr
  | _, _ => none

/-- No pool has as many blocks as this. -/
def RtMemheap.fuel (m : RtMemheap) : Nat := m.poolSize + 1

/-- `rt_memheap_alloc` once the block is found. -/
def takeBlock (m : RtMemheap) (header size : Nat) : RtMemheap :=
  let freeSize := memitemSize m header
  let m :=
    if freeSize ≥ size + rtMemheapSize + rtMemheapMinialloc then
      let new := header + size + rtMemheapSize
      let m := splitItem m header new
      let m := { m with free := linkFree (unlinkUsed m.free (.block header)) (.block new) }
      noteUsed { m with
        availableSize := wordSub (wordSub m.availableSize size) rtMemheapSize }
    else
      let m := noteUsed { m with availableSize := wordSub m.availableSize freeSize }
      { m with free := unlinkUsed m.free (.block header) }
  m.set header { m.item header with magic := magicUsed }

/-- `rt_memheap_alloc` -/
def rtMemheapAlloc (m : RtMemheap) (size : Nat) : Option Nat × RtMemheap :=
  if blockSize size < m.availableSize then
    match findFree m (blockSize size) m.fuel (m.free.next .freeHeader) with
    | none => (none, m)
    | some header => (some (header + rtMemheapSize), takeBlock m header (blockSize size))
  else (none, m)

/-- The left merge of `rt_memheap_free`: the header of the freed block from then on, and
whether it has to be put into the free list. -/
def mergePrev (m : RtMemheap) (header : Nat) : Nat × Bool × RtMemheap :=
  let prev := (m.item header).prev
  if ¬ rtMemheapIsUsed (m.item prev) then
    (prev, false,
      joinItem { m with availableSize := m.availableSize + rtMemheapSize } prev header)
  else (header, true, m)

/-- The right merge of `rt_memheap_free`. -/
def mergeNext (m : RtMemheap) (header : Nat) : RtMemheap :=
  let next := (m.item header).next
  if ¬ rtMemheapIsUsed (m.item next) then
    let m := joinItem { m with availableSize := m.availableSize + rtMemheapSize } header next
    { m with free := m.free.unlink (.block next) }
  else m

/-- `rt_memheap_free`; a null pointer is let pass. -/
def rtMemheapFree (m : RtMemheap) (ptr : Option Nat) : RtMemheap :=
  match ptr with
  | none => m
  | some ptr =>
    let header := ptr - rtMemheapSize
    let m := m.set header { m.item header with magic := magicFreed }
    let m := { m with availableSize := m.availableSize + memitemSize m header }
    let (header, insertHeader, m) := mergePrev m header
    let m := mergeNext m header
    if insertHeader then { m with free := linkFreed m.free (.block header) } else m

/-- The branch of `rt_memheap_realloc` that lets the block at `header` grow into the free one
at `next`. -/
def growBlock (m : RtMemheap) (header next oldsize newsize : Nat) : RtMemheap :=
  let m := noteUsed { m with availableSize := wordSub m.availableSize (newsize - oldsize) }
  let m := { m with free := m.free.unlink (.block next) }
  let m := joinItem m (m.item next).prev next
  let new := (header + rtMemheapSize + newsize) % wordSize
  let m := splitItem m header new
  { m with free := linkFree m.free (.block new) }

/-- The end of `rt_memheap_realloc`, which gives back the rear of the block at `header`. -/
def shrinkBlock (m : RtMemheap) (header newsize : Nat) : RtMemheap :=
  let new := header + newsize + rtMemheapSize
  let m := splitItem m header new
  let next := (m.item new).next
  let m :=
    if ¬ rtMemheapIsUsed (m.item next) then
      let m := { m with availableSize := m.availableSize - memitemSize m next }
      let m := joinItem m new next
      { m with free := m.free.unlink (.block next) }
    else m
  let m := { m with free := linkFree m.free (.block new) }
  { m with availableSize := m.availableSize + memitemSize m new }

/-- The test of `rt_memheap_realloc` for growing into the block at `next`. -/
def growFits (m : RtMemheap) (next oldsize newsize : Nat) : Prop :=
  ¬ rtMemheapIsUsed (m.item next) ∧
    (memitemSize m next + oldsize) % wordSize > (newsize + rtMemheapMinialloc) % wordSize

instance (m : RtMemheap) (next oldsize newsize : Nat) :
    Decidable (growFits m next oldsize newsize) :=
  inferInstanceAs (Decidable (_ ∧ _))

/-- `rt_memheap_realloc` -/
def rtMemheapRealloc (m : RtMemheap) (ptr : Option Nat) (newsize : Nat) :
    Option Nat × RtMemheap :=
  if newsize = 0 then (none, rtMemheapFree m ptr)
  else
    let newsize := blockSize newsize
    match ptr with
    | none => rtMemheapAlloc m newsize
    | some ptr =>
      let header := ptr - rtMemheapSize
      let oldsize := memitemSize m header
      if newsize > oldsize then
        let next := (m.item header).next
        if growFits m next oldsize newsize then
          (some ptr, growBlock m header next oldsize newsize)
        else
          match rtMemheapAlloc m newsize with
          | (some q, m) => (some q, rtMemheapFree m (some ptr))
          | (none, m) => (none, m)
      else if newsize + rtMemheapSize + rtMemheapMinialloc ≥ oldsize then (some ptr, m)
      else (some ptr, shrinkBlock m header newsize)

/-! ## The free list -/

section
variable {L : Links ItemPtr} {qs xs ys : List ItemPtr} {p : ItemPtr}

theorem linkFree_ring (r : L.Ring .freeHeader qs) (hp : p ∉ .freeHeader :: qs) :
    (linkFree L p).Ring .freeHeader (p :: qs) := by
  have hhead : p ≠ .freeHeader := fun heq => hp (heq ▸ List.mem_cons_self)
  have hnext : L.next .freeHeader ≠ p := fun heq => hp (heq ▸ r.next_head_mem)
  refine (r.insertAfter hp).congr (fun z _ => ?_) fun z _ => ?_
  · simp [linkFree, Links.insertAfter, hhead.symm]
  · simp only [linkFree, Links.insertAfter, Links.setPrev_prev, Links.setNext_prev,
      Links.setNext_next, Links.setPrev_next, if_neg hhead.symm]
    by_cases hz : z = p
    · rw [if_neg (hz ▸ hnext.symm), if_pos hz, if_pos hz]
    · rw [if_neg hz, if_neg hz]

theorem linkFreed_ring (r : L.Ring .freeHeader qs) (hp : p ∉ .freeHeader :: qs) :
    (linkFreed L p).Ring .freeHeader (p :: qs) := by
  have hnext : L.next .freeHeader ≠ p := fun heq => hp (heq ▸ r.next_head_mem)
  have hprev : L.prev (L.next .freeHeader) = .freeHeader := r.prev_next_head
  refine (r.insertAfter hp).congr (fun z _ => ?_) fun z _ => ?_
  · simp [linkFreed, Links.insertAfter, hprev, hnext]
  · simp only [linkFreed, Links.insertAfter, Links.setPrev_prev, Links.setNext_prev, hprev]
    by_cases hz : z = p
    · rw [if_neg (hz ▸ hnext.symm), if_pos hz, if_pos hz]
    · rw [if_neg hz, if_neg hz]

theorem unlinkUsed_ring (r : L.Ring .freeHeader (xs ++ p :: ys)) :
    (unlinkUsed L p).Ring .freeHeader (xs ++ ys) := by
  have hp : p ∉ ItemPtr.freeHeader :: (xs ++ ys) := by
    obtain ⟨-, -, hxs, hys, -⟩ := r.parts
    intro hmem
    rw [← List.cons_append] at hmem
    rcases List.mem_append.mp hmem with hmem | hmem
    · exact hxs hmem
    · exact hys (List.mem_append_left _ hmem)
  exact (r.unlink.setNext hp _).setPrev hp _

end

/-! ## The blocks of the pool -/

/-- What the header at `o` says about its block when the one before stands at `q`. -/
structure Header (item : Nat → RtMemheapItem) (q o : Nat) (b : Block) : Prop where
  magic : (item o).magic = if b.used then magicUsed else magicFreed
  next : (item o).next = o + b.size
  prev : (item o).prev = q
  size : rtMemheapSize + rtMemheapMinialloc ≤ b.size
  aligned : rtAlignSize ∣ b.size

/-- The used tailer at `e`, behind a block at `q`. -/
structure Tailer (item : Nat → RtMemheapItem) (q e : Nat) : Prop where
  magic : (item e).magic = magicUsed
  next : (item e).next = 0
  prev : (item e).prev = q

/-- The headers in the pool are those of the blocks; the first one points back to the tailer. -/
structure RtMemheap.Blocks (m : RtMemheap) (bs : List Block) : Prop where
  laid : Laid (Header m.item) (Tailer m.item) (total bs) 0 bs
  total_eq : total bs + rtMemheapSize = m.poolSize
  inside : m.poolSize < wordSize
  room : rtMemheapSize < m.poolSize
  base : rtAlignSize ∣ m.startAddr

theorem Header.congr {q o : Nat} {item item' : Nat → RtMemheapItem} {b : Block}
    (h : Header item q o b) (heq : item' o = item o) : Header item' q o b where
  magic := by rw [heq, h.magic]
  next := by rw [heq, h.next]
  prev := by rw [heq, h.prev]
  size := h.size
  aligned := h.aligned

theorem Header.pos {q o : Nat} {item : Nat → RtMemheapItem} {b : Block}
    (h : Header item q o b) : 0 < b.size :=
  Nat.lt_of_lt_of_le (by decide) h.size

theorem rtMemheapIsUsed_iff {q o : Nat} {item : Nat → RtMemheapItem} {b : Block}
    (h : Header item q o b) : rtMemheapIsUsed (item o) ↔ b.used = true := by
  unfold rtMemheapIsUsed
  rw [h.magic]
  cases b.used <;> simp [magicUsed, magicFreed]

theorem Tailer.isUsed {q e : Nat} {item : Nat → RtMemheapItem} (h : Tailer item q e) :
    rtMemheapIsUsed (item e) := by
  unfold rtMemheapIsUsed
  simp only [h.magic, magicUsed]

theorem splitItem_item {m : RtMemheap} {header new next : Nat}
    (hnext : (m.item header).next = next) (hnew : header < new) (hlt : new < next) (o : Nat) :
    (splitItem m header new).item o =
      if o = header then { m.item header with next := new }
      else if o = next then { m.item next with prev := new }
      else if o = new then ⟨magicFreed, next, header⟩
      else m.item o := by
  have hne : header ≠ new := Nat.ne_of_lt hnew
  have hne' : next ≠ new := by omega
  have hne'' : header ≠ next := by omega
  simp [splitItem, RtMemheap.set_item, hnext, hne, hne', hne'']

theorem joinItem_item {m : RtMemheap} {header second next : Nat}
    (hnext : (m.item second).next = next) (hne : header ≠ next) (hne' : second ≠ next) (o : Nat) :
    (joinItem m header second).item o =
      if o = header then { m.item header with next := next }
      else if o = next then { m.item next with prev := header }
      else m.item o := by
  simp [joinItem, RtMemheap.set_item, hnext, hne, hne']

namespace RtMemheap.Blocks

variable {m m' : RtMemheap} {pre post : List Block}

theorem header {b : Block} (h : m.Blocks (pre ++ b :: post)) :
    Header m.item (lastAt (total (pre ++ b :: post)) 0 pre) (total pre) b := by
  have hb := h.laid.header
  rwa [Nat.zero_add] at hb

theorem pos {bs : List Block} (h : m.Blocks bs) : ∀ b ∈ bs, 0 < b.size :=
  h.laid.forall_mem fun _ _ _ hb => hb.pos

theorem congr {bs : List Block} (h : m.Blocks bs) (hitem : m'.item = m.item)
    (hpool : m'.poolSize = m.poolSize) (hstart : m'.startAddr = m.startAddr) :
    m'.Blocks bs where
  laid := by
    rw [hitem]
    exact h.laid
  total_eq := h.total_eq.trans hpool.symm
  inside := by
    rw [hpool]
    exact h.inside
  room := by
    rw [hpool]
    exact h.room
  base := by
    rw [hstart]
    exact h.base

/-- What stands behind the middle of the pool points back to the last block of it. -/
theorem prev_next {bs : List Block} (mid : List Block) (h : m.Blocks bs)
    (hbs : bs = pre ++ (mid ++ post)) :
    (m.item (total pre + total mid)).prev = lastAt (lastAt (total bs) 0 pre) (total pre) mid := by
  have hlaid := h.laid
  rw [hbs] at hlaid
  have hpost := (laid_append.mp (laid_append.mp hlaid).2).2
  rw [Nat.zero_add, ← hbs] at hpost
  cases post with
  | nil => exact hpost.prev
  | cons b post => exact hpost.1.prev

/-- The middle of the pool may be cut in another way when the headers there say so and what
stands behind it points back to the last of them. -/
theorem rewrite (mid mid' : List Block) (h : m.Blocks (pre ++ (mid ++ post)))
    (hpool : m'.poolSize = m.poolSize) (hstart : m'.startAddr = m.startAddr)
    (htotal : total mid' = total mid)
    (hmid : Laid (Header m'.item) (fun _ _ => True)
      (lastAt (total (pre ++ (mid ++ post))) 0 pre) (total pre) mid')
    (hbefore : ∀ o, o < total pre → m'.item o = m.item o)
    (hafter : ∀ o, total pre + total mid < o → m'.item o = m.item o)
    (hseam : m'.item (total pre + total mid) =
      { m.item (total pre + total mid) with
        prev := lastAt (lastAt (total (pre ++ (mid ++ post))) 0 pre) (total pre) mid' }) :
    m'.Blocks (pre ++ (mid' ++ post)) where
  laid := by
    have hsame : total (pre ++ (mid' ++ post)) = total (pre ++ (mid ++ post)) := by
      simp only [total_append, htotal]
    rw [← Nat.zero_add (total pre)] at hmid hbefore hafter hseam
    rw [hsame]
    refine h.laid.rewrite hmid htotal (fun _ _ _ hb => hb.pos)
      (fun q o b ho hb => hb.congr (hbefore o ho)) (fun q o b ho hb => hb.congr (hafter o ho))
      (fun q b _ hb => ?_) (fun q e he hend => ?_) (fun q _ hend => ?_)
    · exact ⟨(congrArg (·.magic) hseam).trans hb.magic, (congrArg (·.next) hseam).trans hb.next,
        congrArg (·.prev) hseam, hb.size, hb.aligned⟩
    · have heq := hafter e he
      exact ⟨by rw [heq, hend.magic], by rw [heq, hend.next], by rw [heq, hend.prev]⟩
    · exact ⟨(congrArg (·.magic) hseam).trans hend.magic,
        (congrArg (·.next) hseam).trans hend.next, congrArg (·.prev) hseam⟩
  total_eq := by
    rw [hpool, ← h.total_eq]
    simp only [total_append, htotal]
  inside := by
    rw [hpool]
    exact h.inside
  room := by
    rw [hpool]
    exact h.room
  base := by
    rw [hstart]
    exact h.base

/-- Marking a block as used or as free. -/
theorem retag {n : Nat} {u : Bool} (h : m.Blocks (pre ++ ⟨n, u⟩ :: post)) (u' : Bool) :
    (m.set (total pre)
      { m.item (total pre) with magic := if u' then magicUsed else magicFreed }).Blocks
      (pre ++ ⟨n, u'⟩ :: post) := by
  have hb := h.header
  have hpos : 0 < n := hb.pos
  have htotal : total [⟨n, u⟩] = n := rfl
  refine rewrite [⟨n, u⟩] [⟨n, u'⟩] h rfl rfl rfl ⟨⟨?_, ?_, ?_, hb.size, hb.aligned⟩, trivial⟩
    (fun o ho => ?_) (fun o ho => ?_) ?_
  · rw [set_item, if_pos rfl]
  · rw [set_item, if_pos rfl, hb.next]
  · rw [set_item, if_pos rfl, hb.prev]
    rfl
  · rw [set_item, if_neg (by omega)]
  · rw [set_item, if_neg (by omega)]
  · rw [set_item, if_neg (by omega)]
    exact RtMemheapItem.with_prev (h.prev_next [⟨n, u⟩] rfl)

/-- Cutting a block in two; the rear one is free. -/
theorem split {size rest : Nat} {u : Bool}
    (h : m.Blocks (pre ++ ⟨rtMemheapSize + size + rest, u⟩ :: post))
    (hsize : rtMemheapMinialloc ≤ size) (haligned : rtAlignSize ∣ size)
    (hrest : rtMemheapSize + rtMemheapMinialloc ≤ rest) :
    (splitItem m (total pre) (total pre + rtMemheapSize + size)).Blocks
      (pre ++ ⟨rtMemheapSize + size, u⟩ :: ⟨rest, false⟩ :: post) := by
  have hb := h.header
  have hpos : 0 < rest := Nat.lt_of_lt_of_le (by decide) hrest
  have hnext : (m.item (total pre)).next = total pre + rtMemheapSize + size + rest := by
    rw [hb.next]
    simp only [Nat.add_assoc]
  have hlt : 0 < rtMemheapSize := by decide
  have hitem := splitItem_item hnext (show total pre < total pre + rtMemheapSize + size by omega)
    (Nat.lt_add_of_pos_right hpos)
  have haligned' : rtAlignSize ∣ rtMemheapSize + size := Nat.dvd_add (by decide) haligned
  have htotal : total pre + total [⟨rtMemheapSize + size + rest, u⟩] =
      total pre + rtMemheapSize + size + rest := by
    simp only [total_cons, total_nil, Nat.add_assoc, Nat.add_zero]
  refine rewrite [⟨rtMemheapSize + size + rest, u⟩]
    [⟨rtMemheapSize + size, u⟩, ⟨rest, false⟩] h rfl rfl rfl
    ⟨⟨?_, ?_, ?_, Nat.add_le_add_left hsize _, haligned'⟩, ⟨?_, ?_, ?_, hrest, ?_⟩, trivial⟩
    (fun o ho => ?_) (fun o ho => ?_) ?_
  · rw [hitem, if_pos rfl]
    exact hb.magic
  · rw [hitem, if_pos rfl, Nat.add_assoc]
  · rw [hitem, if_pos rfl]
    exact hb.prev
  · rw [← Nat.add_assoc, hitem, if_neg (by omega), if_neg (by omega), if_pos rfl]
    rfl
  · rw [← Nat.add_assoc, hitem, if_neg (by omega), if_neg (by omega), if_pos rfl]
  · rw [← Nat.add_assoc, hitem, if_neg (by omega), if_neg (by omega), if_pos rfl]
  · exact (Nat.dvd_add_right haligned').mp hb.aligned
  · rw [hitem, if_neg (by omega), if_neg (by omega), if_neg (by omega)]
  · rw [htotal] at ho
    rw [hitem, if_neg (by omega), if_neg (by omega), if_neg (by omega)]
  · rw [htotal, hitem, if_neg (by omega), if_pos rfl]
    simp only [lastAt, Nat.add_assoc]

/-- Joining two neighbours. -/
theorem join {k n : Nat} {u v : Bool} (h : m.Blocks (pre ++ ⟨k, u⟩ :: ⟨n, v⟩ :: post)) :
    (joinItem m (total pre) (total pre + k)).Blocks (pre ++ ⟨k + n, u⟩ :: post) := by
  have hk := h.header
  have hn : Header m.item (total pre) (total pre + k) ⟨n, v⟩ := by
    have hlaid := (laid_split.mp h.laid).2.2.1
    rwa [Nat.zero_add] at hlaid
  have hkpos : 0 < k := hk.pos
  have hnpos : 0 < n := hn.pos
  have hnext : (m.item (total pre + k)).next = total pre + k + n := hn.next
  have hitem := joinItem_item hnext (show total pre ≠ total pre + k + n by omega)
    (show total pre + k ≠ total pre + k + n by omega)
  have htotal : total [⟨k, u⟩, ⟨n, v⟩] = k + n := rfl
  have hsize : rtMemheapSize + rtMemheapMinialloc ≤ k + n :=
    Nat.le_trans hk.size (Nat.le_add_right k n)
  refine rewrite [⟨k, u⟩, ⟨n, v⟩] [⟨k + n, u⟩] h rfl rfl rfl
    ⟨⟨?_, ?_, ?_, hsize, Nat.dvd_add hk.aligned hn.aligned⟩, trivial⟩
    (fun o ho => ?_) (fun o ho => ?_) ?_
  · rw [hitem, if_pos rfl]
    exact hk.magic
  · rw [hitem, if_pos rfl, Nat.add_assoc]
  · rw [hitem, if_pos rfl]
    exact hk.prev
  · rw [hitem, if_neg (by omega), if_neg (by omega)]
  · rw [hitem, if_neg (by omega), if_neg (by omega)]
  · rw [htotal, ← Nat.add_assoc, hitem, if_neg (by omega), if_pos rfl]
    rfl

theorem memitemSize_eq {b : Block} (h : m.Blocks (pre ++ b :: post)) :
    memitemSize m (total pre) = b.size - rtMemheapSize := by
  have htotal := h.total_eq
  have hinside := h.inside
  have hsize := h.header.size
  rw [total_append, total_cons] at htotal
  have hdistance : wordSub (total pre + b.size) (total pre) = b.size := by
    rw [wordSub_eq (Nat.le_add_right _ _) (by omega), Nat.add_sub_cancel_left]
  rw [memitemSize, h.header.next, hdistance, wordSub_eq (by omega) (by omega)]

/-- Behind a block stands a used one, the tailer or a free block. -/
theorem isUsed_next {b : Block} (h : m.Blocks (pre ++ b :: post)) (hpost : StartsUsed post) :
    rtMemheapIsUsed (m.item (m.item (total pre)).next) := by
  have hlaid := (laid_split.mp h.laid).2.2
  rw [Nat.zero_add] at hlaid
  rw [h.header.next]
  cases post with
  | nil => exact hlaid.isUsed
  | cons c post => exact (rtMemheapIsUsed_iff hlaid.1).mpr (startsUsed_cons.mp hpost)

theorem not_isUsed_next {b : Block} {k : Nat} (h : m.Blocks (pre ++ b :: ⟨k, false⟩ :: post)) :
    (m.item (total pre)).next = total pre + b.size ∧
      ¬ rtMemheapIsUsed (m.item (total pre + b.size)) := by
  have hlaid := (laid_split.mp h.laid).2.2.1
  rw [Nat.zero_add] at hlaid
  exact ⟨h.header.next, fun hu => Bool.false_ne_true ((rtMemheapIsUsed_iff hlaid).mp hu)⟩

theorem tailer_at {bs : List Block} (h : m.Blocks bs) : ∃ q, Tailer m.item q (total bs) := by
  have hlaid : Laid (Header m.item) (Tailer m.item) (total bs) 0 (bs ++ []) := by
    rw [List.append_nil]
    exact h.laid
  have hend := (laid_append.mp hlaid).2
  rw [Laid, Nat.zero_add] at hend
  exact ⟨_, hend⟩

theorem isUsed_tailer {bs : List Block} (h : m.Blocks bs) :
    rtMemheapIsUsed (m.item (total bs)) := by
  obtain ⟨q, htailer⟩ := h.tailer_at
  exact htailer.isUsed

theorem length_lt_fuel {bs : List Block} (h : m.Blocks bs) : bs.length < m.fuel := by
  have hlen := length_le_total h.pos
  have htotal := h.total_eq
  unfold fuel
  omega

end RtMemheap.Blocks

/-! ## The members of the free list -/

/-- The free list contains exactly the headers at `os`, each once. -/
def Lists (L : Links ItemPtr) (os : List Nat) : Prop :=
  ∃ qs : List Nat, L.Ring .freeHeader (qs.map .block) ∧ qs.Perm os

section
variable {L : Links ItemPtr} {os os' : List Nat} {a : Nat}

theorem Lists.perm (h : Lists L os) (hperm : os.Perm os') : Lists L os' := by
  obtain ⟨qs, hring, hqs⟩ := h
  exact ⟨qs, hring, hqs.trans hperm⟩

theorem block_not_mem {qs : List Nat} (h : a ∉ qs) :
    ItemPtr.block a ∉ ItemPtr.freeHeader :: qs.map .block := by
  intro hmem
  rcases List.mem_cons.mp hmem with hmem | hmem
  · cases hmem
  · obtain ⟨b, hb, heq⟩ := List.mem_map.mp hmem
    exact h (ItemPtr.block.inj heq ▸ hb)

theorem Lists.linkFree (h : Lists L os) (ha : a ∉ os) :
    Lists (linkFree L (.block a)) (a :: os) := by
  obtain ⟨qs, hring, hqs⟩ := h
  have hnot : a ∉ qs := fun hmem => ha (hqs.mem_iff.mp hmem)
  exact ⟨a :: qs, linkFree_ring hring (block_not_mem hnot), hqs.cons a⟩

theorem Lists.linkFreed (h : Lists L os) (ha : a ∉ os) :
    Lists (linkFreed L (.block a)) (a :: os) := by
  obtain ⟨qs, hring, hqs⟩ := h
  have hnot : a ∉ qs := fun hmem => ha (hqs.mem_iff.mp hmem)
  exact ⟨a :: qs, linkFreed_ring hring (block_not_mem hnot), hqs.cons a⟩

/-- A member of the free list, with those in front of it and those behind. -/
theorem Lists.split (h : Lists L (a :: os)) :
    ∃ xs ys : List Nat, L.Ring .freeHeader (xs.map .block ++ .block a :: ys.map .block) ∧
      (xs ++ ys).Perm os := by
  obtain ⟨qs, hring, hqs⟩ := h
  obtain ⟨xs, ys, rfl⟩ := List.append_of_mem (hqs.mem_iff.mpr List.mem_cons_self)
  refine ⟨xs, ys, by rwa [List.map_append] at hring, ?_⟩
  exact (List.perm_middle.symm.trans hqs).cons_inv

theorem Lists.unlink (h : Lists L (a :: os)) : Lists (L.unlink (.block a)) os := by
  obtain ⟨xs, ys, hring, hperm⟩ := h.split
  refine ⟨xs ++ ys, ?_, hperm⟩
  rw [List.map_append]
  exact hring.unlink

theorem Lists.unlinkUsed (h : Lists L (a :: os)) : Lists (unlinkUsed L (.block a)) os := by
  obtain ⟨xs, ys, hring, hperm⟩ := h.split
  refine ⟨xs ++ ys, ?_, hperm⟩
  rw [List.map_append]
  exact unlinkUsed_ring hring

end

/-! ### Searching -/

section
variable {m : RtMemheap} {size fuel : Nat} {front back : List Nat}

/-- The first of the headers at `os`, or that of the free list. -/
def firstOf : List Nat → ItemPtr
  | [] => .freeHeader
  | a :: _ => .block a

/-- Where `next_free` leads from a member of the free list. -/
theorem next_member {a : Nat}
    (h : m.free.Ring .freeHeader ((front ++ a :: back).map .block)) :
    m.free.next (.block a) = firstOf back := by
  rw [List.map_append, List.map_cons] at h
  rw [h.next_mem]
  cases back <;> rfl

/-- What the search of `rt_memheap_alloc` finds is a free block that is large enough. -/
theorem findFree_some {a : Nat} (h : m.free.Ring .freeHeader ((front ++ back).map .block))
    (hfind : findFree m size fuel (firstOf back) = some a) :
    a ∈ back ∧ size ≤ memitemSize m a := by
  induction fuel generalizing front back with
  | zero => cases hfind
  | succ fuel ih =>
    cases back with
    | nil => cases hfind
    | cons b back =>
      rw [firstOf, findFree] at hfind
      split at hfind
      · rw [next_member h] at hfind
        have happend : m.free.Ring .freeHeader (((front ++ [b]) ++ back).map .block) := by
          rwa [List.append_assoc]
        obtain ⟨hmem, hsize⟩ := ih happend hfind
        exact ⟨List.mem_cons_of_mem b hmem, hsize⟩
      · rename_i hfit
        obtain rfl := Option.some.inj hfind
        exact ⟨List.mem_cons_self, Nat.le_of_not_lt hfit⟩

/-- The search gives up only when no free block from there on is large enough. -/
theorem findFree_none (h : m.free.Ring .freeHeader ((front ++ back).map .block))
    (hfuel : back.length < fuel)
    (hfind : findFree m size fuel (firstOf back) = none) :
    ∀ a ∈ back, memitemSize m a < size := by
  induction fuel generalizing front back with
  | zero => exact absurd hfuel (Nat.not_lt_zero _)
  | succ fuel ih =>
    cases back with
    | nil => exact fun a ha => absurd ha List.not_mem_nil
    | cons b back =>
      rw [firstOf, findFree] at hfind
      split at hfind
      · rename_i hsmall
        rw [next_member h] at hfind
        have happend : m.free.Ring .freeHeader (((front ++ [b]) ++ back).map .block) := by
          rwa [List.append_assoc]
        intro a ha
        rcases List.mem_cons.mp ha with rfl | ha
        · exact hsmall
        · exact ih happend (Nat.lt_of_succ_lt_succ hfuel) hfind a ha
      · cases hfind

end

/-! ## What a call does to the blocks -/

/-- The bytes that the free blocks hold besides their headers. -/
def freeBytes : List Block → Nat
  | [] => 0
  | b :: bs => (if b.used then 0 else b.size - rtMemheapSize) + freeBytes bs

@[simp] theorem freeBytes_nil : freeBytes [] = 0 := rfl

@[simp] theorem freeBytes_cons (b : Block) (bs : List Block) :
    freeBytes (b :: bs) = (if b.used then 0 else b.size - rtMemheapSize) + freeBytes bs := rfl

@[simp] theorem freeBytes_append (l r : List Block) :
    freeBytes (l ++ r) = freeBytes l + freeBytes r := by
  induction l with
  | nil => rw [List.nil_append, freeBytes_nil, Nat.zero_add]
  | cons b l ih => rw [List.cons_append, freeBytes_cons, freeBytes_cons, ih, Nat.add_assoc]

theorem freeBytes_le (bs : List Block) : freeBytes bs ≤ total bs := by
  induction bs with
  | nil => exact Nat.le_refl 0
  | cons b bs ih =>
    rw [freeBytes_cons, total_cons]
    split <;> omega

/-- The heap agrees with the blocks. -/
structure MemheapRep (m : RtMemheap) (bs : List Block) : Prop where
  blocks : m.Blocks bs
  coalesced : Coalesced bs
  free : Lists m.free (offsetsOf false 0 bs)
  available : m.availableSize = freeBytes bs

/-- Joining two free blocks frees the header between them. -/
theorem freeBytes_join {m : RtMemheap} {pre post : List Block} {k n : Nat}
    (h : m.Blocks (pre ++ ⟨k, false⟩ :: ⟨n, false⟩ :: post)) :
    freeBytes (pre ++ ⟨k + n, false⟩ :: post) =
      freeBytes (pre ++ ⟨k, false⟩ :: ⟨n, false⟩ :: post) + rtMemheapSize := by
  have hsize : ∀ b ∈ pre ++ ⟨k, false⟩ :: ⟨n, false⟩ :: post, rtMemheapSize ≤ b.size :=
    h.laid.forall_mem fun _ _ _ hb => Nat.le_of_add_right_le hb.size
  have hk := hsize ⟨k, false⟩ (by simp)
  have hn := hsize ⟨n, false⟩ (by simp)
  simp only [freeBytes_append, freeBytes_cons, Bool.false_eq_true, if_false] at hk hn ⊢
  omega

theorem noteUsed_eq (m : RtMemheap) :
    (noteUsed m).item = m.item ∧ (noteUsed m).free = m.free ∧
      (noteUsed m).poolSize = m.poolSize ∧ (noteUsed m).availableSize = m.availableSize ∧
      (noteUsed m).startAddr = m.startAddr := by
  unfold noteUsed
  split <;> exact ⟨rfl, rfl, rfl, rfl, rfl⟩

theorem MemheapRep.available_lt {m : RtMemheap} {bs : List Block} (h : MemheapRep m bs) :
    m.availableSize < wordSize := by
  have hle := freeBytes_le bs
  have htotal := h.blocks.total_eq
  have hinside := h.blocks.inside
  rw [h.available]
  omega

/-! ### `rt_memheap_alloc` -/

/-- `takeBlock` uses the front of a free block that is large enough, or the whole of it. -/
theorem MemheapRep.take {m : RtMemheap} {pre post : List Block} {k size : Nat}
    (h : MemheapRep m (pre ++ ⟨k, false⟩ :: post)) (hk : rtMemheapSize + size ≤ k)
    (hsize : rtMemheapMinialloc ≤ size) (haligned : rtAlignSize ∣ size) :
    ∃ n rest, rtMemheapSize + size ≤ n ∧ (rest = [] ∨ ∃ r, rest = [⟨r, false⟩]) ∧
      n + total rest = k ∧
      MemheapRep (takeBlock m (total pre) size) (pre ++ ⟨n, true⟩ :: (rest ++ post)) := by
  obtain ⟨hpre, hpost, hedges⟩ := coalesced_split.mp h.coalesced
  obtain ⟨hends, hstarts⟩ := hedges.resolve_left Bool.false_ne_true
  have hfreeSize : memitemSize m (total pre) = k - rtMemheapSize := h.blocks.memitemSize_eq
  have hlisted : Lists m.free (total pre :: offsetsOf false 0 (pre ++ ⟨k, true⟩ :: post)) := by
    have hperm := offsetsOf_perm (Ne.symm Bool.false_ne_true) 0 k pre post
    rw [Nat.zero_add] at hperm
    exact h.free.perm hperm
  have hold := h.available
  have hlt := h.available_lt
  simp only [freeBytes_append, freeBytes_cons, Bool.false_eq_true, if_false] at hold
  by_cases hsplit : k - rtMemheapSize ≥ size + rtMemheapSize + rtMemheapMinialloc
  · obtain ⟨r, rfl⟩ : ∃ r, k = rtMemheapSize + size + r :=
      ⟨k - (rtMemheapSize + size), by omega⟩
    have hr : rtMemheapSize + rtMemheapMinialloc ≤ r := by omega
    have hnew : total pre + size + rtMemheapSize = total pre + rtMemheapSize + size :=
      Nat.add_right_comm _ _ _
    let cut : RtMemheap :=
      { splitItem m (total pre) (total pre + rtMemheapSize + size) with
        free := linkFree (unlinkUsed m.free (.block (total pre)))
          (.block (total pre + rtMemheapSize + size))
        availableSize := wordSub (wordSub m.availableSize size) rtMemheapSize }
    have htake : takeBlock m (total pre) size =
        (noteUsed cut).set (total pre)
          { (noteUsed cut).item (total pre) with magic := magicUsed } := by
      simp only [takeBlock, hfreeSize]
      rw [if_pos hsplit, hnew]
      rfl
    obtain ⟨hitem, hfree, hpool, havailable, hstart⟩ := noteUsed_eq cut
    have hblocks : (noteUsed cut).Blocks
        (pre ++ ⟨rtMemheapSize + size, false⟩ :: ⟨r, false⟩ :: post) :=
      (h.blocks.split hsize haligned hr).congr hitem hpool hstart
    have hcut := offsetsOf_cut false true 0 (rtMemheapSize + size) r pre post
    rw [Nat.zero_add, ← Nat.add_assoc] at hcut
    have hnodup : (offsetsOf false 0
        (pre ++ ⟨rtMemheapSize + size, true⟩ :: ⟨r, false⟩ :: post)).Nodup :=
      offsetsOf_nodup (hblocks.retag true).pos
    have hnot := (List.nodup_cons.mp (hcut.nodup_iff.mp hnodup)).1
    refine ⟨rtMemheapSize + size, [⟨r, false⟩], Nat.le_refl _, .inr ⟨r, rfl⟩, rfl, ?_⟩
    rw [htake]
    refine ⟨hblocks.retag true, ?_, ?_, ?_⟩
    · have hrest : Coalesced ([] ++ ⟨r, false⟩ :: post) :=
        coalesced_split.mpr ⟨coalesced_nil, hpost, .inr ⟨endsUsed_nil, hstarts⟩⟩
      exact coalesced_split.mpr ⟨hpre, hrest, .inl rfl⟩
    · rw [RtMemheap.set_free, hfree]
      exact (hlisted.unlinkUsed.linkFree hnot).perm hcut.symm
    · rw [RtMemheap.set_availableSize, havailable]
      simp only [cut, freeBytes_append, freeBytes_cons, freeBytes_nil, Bool.false_eq_true, if_false,
        if_true]
      rw [wordSub_eq (by omega) hlt, wordSub_eq (by omega) (by omega)]
      omega
  · let whole : RtMemheap := { m with availableSize := wordSub m.availableSize (k - rtMemheapSize) }
    let taken : RtMemheap :=
      { noteUsed whole with free := unlinkUsed (noteUsed whole).free (.block (total pre)) }
    have htake : takeBlock m (total pre) size =
        taken.set (total pre) { taken.item (total pre) with magic := magicUsed } := by
      simp only [takeBlock, hfreeSize]
      rw [if_neg hsplit]
    obtain ⟨hitem, hfree, hpool, havailable, hstart⟩ := noteUsed_eq whole
    have hblocks : taken.Blocks (pre ++ ⟨k, false⟩ :: post) := h.blocks.congr hitem hpool hstart
    refine ⟨k, [], hk, .inl rfl, rfl, ?_⟩
    rw [htake]
    refine ⟨hblocks.retag true, coalesced_split.mpr ⟨hpre, hpost, .inl rfl⟩, ?_, ?_⟩
    · rw [RtMemheap.set_free]
      simp only [taken, hfree]
      exact hlisted.unlinkUsed
    · rw [RtMemheap.set_availableSize]
      simp only [taken, havailable, whole, freeBytes_append, freeBytes_cons, List.nil_append,
        if_true]
      rw [wordSub_eq (by omega) hlt]
      omega

theorem blockSize_dvd (size : Nat) : rtAlignSize ∣ blockSize size := by
  unfold blockSize
  split
  · decide
  · exact rtAlign_dvd size

theorem minialloc_le_blockSize (size : Nat) : rtMemheapMinialloc ≤ blockSize size := by
  unfold blockSize
  split
  · exact Nat.le_refl _
  · omega

/-- `rt_memheap_alloc` finds no block, or it uses one that holds what was asked for. -/
theorem MemheapRep.alloc {m : RtMemheap} {bs : List Block} (h : MemheapRep m bs) (size : Nat) :
    rtMemheapAlloc m size = (none, m) ∨
      ∃ pre k post n rest, bs = pre ++ ⟨k, false⟩ :: post ∧
        rtMemheapSize + blockSize size ≤ n ∧ (rest = [] ∨ ∃ r, rest = [⟨r, false⟩]) ∧
        n + total rest = k ∧
        (rtMemheapAlloc m size).1 = some (total pre + rtMemheapSize) ∧
        MemheapRep (rtMemheapAlloc m size).2 (pre ++ ⟨n, true⟩ :: (rest ++ post)) := by
  obtain ⟨qs, hring, hqs⟩ := h.free
  unfold rtMemheapAlloc
  split
  · have hfirst : m.free.next .freeHeader = firstOf qs := by
      rw [hring.next_head]
      cases qs <;> rfl
    rw [hfirst]
    cases hfind : findFree m (blockSize size) m.fuel (firstOf qs) with
    | none => exact .inl rfl
    | some a =>
      have happend : m.free.Ring .freeHeader (([] ++ qs).map .block) := hring
      obtain ⟨hmem, hsize⟩ := findFree_some happend hfind
      obtain ⟨pre, ⟨k, u⟩, post, rfl, rfl, rfl⟩ := mem_offsetsOf.mp (hqs.mem_iff.mp hmem)
      rw [Nat.zero_add, h.blocks.memitemSize_eq] at hsize
      have hk := h.blocks.header.size
      obtain ⟨n, rest, hn, hrest, htotal, hrep⟩ := h.take
        (show rtMemheapSize + blockSize size ≤ k by simp only at hsize hk; omega)
        (minialloc_le_blockSize size) (blockSize_dvd size)
      rw [Nat.zero_add]
      exact .inr ⟨pre, k, post, n, rest, rfl, hn, hrest, htotal, rfl, hrep⟩
  · exact .inl rfl

/-- It fails exactly when no free block has the room or as many bytes are not left. -/
theorem rtMemheapAlloc_eq_none_iff {m : RtMemheap} {bs : List Block} (h : MemheapRep m bs)
    (size : Nat) :
    (rtMemheapAlloc m size).1 = none ↔
      m.availableSize ≤ blockSize size ∨
        ∀ b ∈ bs, b.used = false → b.size < rtMemheapSize + blockSize size := by
  obtain ⟨qs, hring, hqs⟩ := h.free
  have hfirst : m.free.next .freeHeader = firstOf qs := by
    rw [hring.next_head]
    cases qs <;> rfl
  have happend : m.free.Ring .freeHeader (([] ++ qs).map .block) := hring
  unfold rtMemheapAlloc
  by_cases hlt : blockSize size < m.availableSize
  · rw [if_pos hlt, hfirst]
    cases hfind : findFree m (blockSize size) m.fuel (firstOf qs) with
    | none =>
      refine iff_of_true rfl (.inr fun b hb hfree => ?_)
      have hlen : qs.length < m.fuel := by
        have hle := offsetsOf_length_le false 0 bs
        rw [← hqs.length_eq] at hle
        exact Nat.lt_of_le_of_lt hle h.blocks.length_lt_fuel
      obtain ⟨pre, post, rfl⟩ := List.append_of_mem hb
      have hmem : total pre ∈ qs :=
        hqs.mem_iff.mpr (mem_offsetsOf.mpr ⟨pre, b, post, rfl, hfree, (Nat.zero_add _).symm⟩)
      have hsmall := findFree_none happend hlen hfind (total pre) hmem
      have hsize := h.blocks.header.size
      rw [h.blocks.memitemSize_eq] at hsmall
      omega
    | some a =>
      obtain ⟨hmem, hsize⟩ := findFree_some happend hfind
      obtain ⟨pre, b, post, rfl, hfree, rfl⟩ := mem_offsetsOf.mp (hqs.mem_iff.mp hmem)
      rw [Nat.zero_add, h.blocks.memitemSize_eq] at hsize
      have hlarge := h.blocks.header.size
      refine iff_of_false (Option.some_ne_none _) ?_
      rintro (hle | hnone)
      · omega
      · have hb := hnone b (List.mem_append_right pre List.mem_cons_self) hfree
        omega
  · rw [if_neg hlt]
    exact iff_of_true rfl (.inl (Nat.le_of_not_lt hlt))

/-! ### `rt_memheap_free` -/

/-- The left merge.  The header it leaves is in the free list exactly if it need not be put
there, as that of a used block would not be. -/
theorem mergePrev_spec {m : RtMemheap} {pre post : List Block} {n : Nat}
    (h : m.Blocks (pre ++ ⟨n, false⟩ :: post))
    (hfree : Lists m.free (offsetsOf false 0 (pre ++ ⟨n, true⟩ :: post)))
    (havailable : m.availableSize = freeBytes (pre ++ ⟨n, false⟩ :: post)) :
    ∃ insert m', mergePrev m (total pre) = (total (mergeLeft pre n).1, insert, m') ∧
      m'.Blocks ((mergeLeft pre n).1 ++ ⟨(mergeLeft pre n).2, false⟩ :: post) ∧
      Lists m'.free
        (offsetsOf false 0 ((mergeLeft pre n).1 ++ ⟨(mergeLeft pre n).2, insert⟩ :: post)) ∧
      m'.availableSize =
        freeBytes ((mergeLeft pre n).1 ++ ⟨(mergeLeft pre n).2, false⟩ :: post) := by
  have hprev := h.header.prev
  rcases List.eq_nil_or_concat pre with rfl | ⟨rest, ⟨k, u⟩, rfl⟩
  · have hused := h.isUsed_tailer
    have hstop : mergePrev m (total []) = (total [], true, m) := by
      refine if_neg (not_not_intro ?_)
      rw [hprev]
      exact hused
    rw [mergeLeft_of_endsUsed endsUsed_nil]
    exact ⟨true, m, hstop, h, hfree, havailable⟩
  · rw [List.concat_eq_append] at h hfree havailable hprev ⊢
    rw [lastAt_append_singleton, Nat.zero_add] at hprev
    have hpair : m.Blocks (rest ++ ⟨k, u⟩ :: ⟨n, false⟩ :: post) := by
      rwa [List.append_assoc] at h
    have hused := rtMemheapIsUsed_iff hpair.header
    have htotal : total (rest ++ [⟨k, u⟩]) = total rest + k := by simp
    cases u with
    | true =>
      have hstop : mergePrev m (total (rest ++ [⟨k, true⟩])) =
          (total (rest ++ [⟨k, true⟩]), true, m) := by
        refine if_neg (not_not_intro ?_)
        rw [hprev]
        exact hused.mpr rfl
      rw [mergeLeft_of_endsUsed (endsUsed_append_singleton.mpr rfl)]
      exact ⟨true, m, hstop, h, hfree, havailable⟩
    | false =>
      have hgo : mergePrev m (total (rest ++ [⟨k, false⟩])) =
          (total rest, false,
            joinItem { m with availableSize := m.availableSize + rtMemheapSize } (total rest)
              (total rest + k)) := by
        rw [htotal] at hprev ⊢
        simp only [mergePrev, hprev]
        exact if_pos fun hu => Bool.false_ne_true (hused.mp hu)
      rw [mergeLeft_append_free]
      refine ⟨false, _, hgo, ?_, ?_, ?_⟩
      · exact RtMemheap.Blocks.join (hpair.congr rfl rfl rfl)
      · rw [List.append_assoc] at hfree
        rw [← offsetsOf_absorb (Ne.symm Bool.false_ne_true)]
        exact hfree
      · rw [freeBytes_join hpair]
        rw [List.append_assoc] at havailable
        exact congrArg (· + rtMemheapSize) havailable

/-- The right merge, whether or not the header is in the free list. -/
theorem mergeNext_spec {m : RtMemheap} {pre post : List Block} {n : Nat} {insert : Bool}
    (h : m.Blocks (pre ++ ⟨n, false⟩ :: post))
    (hfree : Lists m.free (offsetsOf false 0 (pre ++ ⟨n, insert⟩ :: post)))
    (havailable : m.availableSize = freeBytes (pre ++ ⟨n, false⟩ :: post)) :
    (mergeNext m (total pre)).Blocks
        (pre ++ ⟨(mergeRight n post).1, false⟩ :: (mergeRight n post).2) ∧
      Lists (mergeNext m (total pre)).free
        (offsetsOf false 0 (pre ++ ⟨(mergeRight n post).1, insert⟩ :: (mergeRight n post).2)) ∧
      (mergeNext m (total pre)).availableSize =
        freeBytes (pre ++ ⟨(mergeRight n post).1, false⟩ :: (mergeRight n post).2) := by
  rcases mergeRight_cases post with hused | ⟨k, rest, rfl⟩
  · have hstop : mergeNext m (total pre) = m := if_neg (not_not_intro (h.isUsed_next hused))
    rw [hstop, mergeRight_of_startsUsed hused]
    exact ⟨h, hfree, havailable⟩
  · obtain ⟨hnext, hnot⟩ := h.not_isUsed_next
    simp only at hnext hnot
    let joined : RtMemheap :=
      joinItem { m with availableSize := m.availableSize + rtMemheapSize }
        (total pre) (total pre + n)
    have hgo : mergeNext m (total pre) =
        { joined with free := joined.free.unlink (.block (total pre + n)) } := by
      simp only [mergeNext, hnext]
      exact if_pos hnot
    rw [hgo]
    refine ⟨(RtMemheap.Blocks.join (h.congr rfl rfl rfl) : joined.Blocks _).congr rfl rfl rfl,
      ?_, ?_⟩
    · have hcut := offsetsOf_cut false insert 0 n k pre rest
      rw [Nat.zero_add] at hcut
      exact (hfree.perm hcut).unlink
    · rw [mergeRight, freeBytes_join h, ← havailable]
      rfl

/-- `rt_memheap_free` on a used block frees it. -/
theorem MemheapRep.freed {m : RtMemheap} {pre post : List Block} {n : Nat}
    (h : MemheapRep m (pre ++ ⟨n, true⟩ :: post)) :
    MemheapRep (rtMemheapFree m (some (total pre + rtMemheapSize))) (freeAt pre n post) := by
  obtain ⟨hpre, hpost, -⟩ := coalesced_split.mp h.coalesced
  let marked := m.set (total pre) { m.item (total pre) with magic := magicFreed }
  have hmarked : marked.Blocks (pre ++ ⟨n, false⟩ :: post) := h.blocks.retag false
  let freed :=
    { marked with availableSize := marked.availableSize + memitemSize marked (total pre) }
  have havailable : freed.availableSize = freeBytes (pre ++ ⟨n, false⟩ :: post) := by
    have hold := h.available
    simp only [freeBytes_append, freeBytes_cons, Bool.false_eq_true, if_false, if_true] at hold ⊢
    have hsize := hmarked.memitemSize_eq
    simp only [freed, hsize, marked, RtMemheap.set_availableSize]
    omega
  obtain ⟨insert, m', hmerge, hblocks, hfree, hbytes⟩ :=
    mergePrev_spec (m := freed) (hmarked.congr rfl rfl rfl) h.free havailable
  obtain ⟨hblocks', hfree', hbytes'⟩ := mergeNext_spec hblocks hfree hbytes
  have hgo : rtMemheapFree m (some (total pre + rtMemheapSize)) =
      if insert then
        { mergeNext m' (total (mergeLeft pre n).1) with
          free := linkFreed (mergeNext m' (total (mergeLeft pre n).1)).free
            (.block (total (mergeLeft pre n).1)) }
      else mergeNext m' (total (mergeLeft pre n).1) := by
    simp only [rtMemheapFree, Nat.add_sub_cancel]
    rw [hmerge]
  have hcoalesced := coalesced_freeAt n hpre hpost
  rw [hgo, freeAt_eq] at *
  cases insert with
  | false => exact ⟨hblocks', hcoalesced, hfree', hbytes'⟩
  | true =>
    rw [if_pos rfl]
    have hperm := offsetsOf_perm (Ne.symm Bool.false_ne_true) 0
      (mergeRight (mergeLeft pre n).2 post).1 (mergeLeft pre n).1
      (mergeRight (mergeLeft pre n).2 post).2
    have hnodup := hperm.nodup_iff.mp (offsetsOf_nodup hblocks'.pos)
    rw [Nat.zero_add] at hperm hnodup
    have hnot := (List.nodup_cons.mp hnodup).1
    exact ⟨hblocks'.congr rfl rfl rfl, hcoalesced, (hfree'.linkFreed hnot).perm hperm.symm, hbytes'⟩

/-! ### `rt_memheap_realloc` -/

/-- A used block grows into the free one behind it when both together have the room. -/
theorem MemheapRep.grow {m : RtMemheap} {pre post : List Block} {k n newsize : Nat}
    (h : MemheapRep m (pre ++ ⟨k, true⟩ :: ⟨n, false⟩ :: post))
    (hsize : rtMemheapMinialloc ≤ newsize) (haligned : rtAlignSize ∣ newsize)
    (hgrow : k < rtMemheapSize + newsize)
    (hfits : newsize + rtMemheapMinialloc < (n - rtMemheapSize) + (k - rtMemheapSize)) :
    ∃ rest, rtMemheapSize + newsize + rest = k + n ∧
      MemheapRep (growBlock m (total pre) (total pre + k) (k - rtMemheapSize) newsize)
        (pre ++ ⟨rtMemheapSize + newsize, true⟩ :: ⟨rest, false⟩ :: post) := by
  obtain ⟨hpre, hrest, -⟩ := coalesced_split.mp h.coalesced
  have hsplit : Coalesced ([] ++ ⟨n, false⟩ :: post) := hrest
  obtain ⟨-, hpost, hedges⟩ := coalesced_split.mp hsplit
  obtain ⟨-, hstarts⟩ := hedges.resolve_left Bool.false_ne_true
  have hk : rtMemheapSize + rtMemheapMinialloc ≤ k := h.blocks.header.size
  have hrear : m.Blocks ((pre ++ [⟨k, true⟩]) ++ ⟨n, false⟩ :: post) := by
    rw [List.append_assoc]
    exact h.blocks
  have hn : rtMemheapSize + rtMemheapMinialloc ≤ n := hrear.header.size
  have hprev : (m.item (total pre + k)).prev = total pre := by
    have hheader := hrear.header.prev
    rwa [lastAt_append_singleton, total_append, total_cons, total_nil, Nat.add_zero,
      Nat.zero_add] at hheader
  have htotal := h.blocks.total_eq
  have hinside := h.blocks.inside
  rw [total_append, total_cons, total_cons] at htotal
  obtain ⟨rest, hsum⟩ : ∃ rest, rtMemheapSize + newsize + rest = k + n :=
    ⟨k + n - (rtMemheapSize + newsize), by omega⟩
  have hroom : rtMemheapSize + rtMemheapMinialloc ≤ rest := by omega
  have hnew : (total pre + rtMemheapSize + newsize) % wordSize =
      total pre + rtMemheapSize + newsize := by
    refine Nat.mod_eq_of_lt ?_
    simp only at htotal
    omega
  let less := noteUsed { m with
    availableSize := wordSub m.availableSize (newsize - (k - rtMemheapSize)) }
  obtain ⟨hitem, hfree, hpool, havailable, hstart⟩ :=
    noteUsed_eq { m with availableSize := wordSub m.availableSize (newsize - (k - rtMemheapSize)) }
  let joined := joinItem { less with free := less.free.unlink (.block (total pre + k)) }
    (total pre) (total pre + k)
  let cut := splitItem joined (total pre) (total pre + rtMemheapSize + newsize)
  have hgo : growBlock m (total pre) (total pre + k) (k - rtMemheapSize) newsize =
      { cut with free := linkFree cut.free (.block (total pre + rtMemheapSize + newsize)) } := by
    have hprev' : (less.item (total pre + k)).prev = total pre := by
      rw [hitem]
      exact hprev
    simp only [growBlock, hnew]
    rw [hprev']
  have hjoined : joined.Blocks (pre ++ ⟨rtMemheapSize + newsize + rest, true⟩ :: post) := by
    rw [hsum]
    exact RtMemheap.Blocks.join (h.blocks.congr hitem hpool hstart)
  have hcut : cut.Blocks (pre ++ ⟨rtMemheapSize + newsize, true⟩ :: ⟨rest, false⟩ :: post) :=
    hjoined.split hsize haligned hroom
  have hold := offsetsOf_cut false true 0 k n pre post
  have hlist := offsetsOf_cut false true 0 (rtMemheapSize + newsize) rest pre post
  have hnodup := hlist.nodup_iff.mp (offsetsOf_nodup hcut.pos)
  rw [hsum, Nat.zero_add, ← Nat.add_assoc] at hlist hnodup
  rw [Nat.zero_add] at hold
  refine ⟨rest, hsum, ?_⟩
  rw [hgo]
  refine ⟨hcut.congr rfl rfl rfl, ?_, ?_, ?_⟩
  · have hrest' : Coalesced ([] ++ ⟨rest, false⟩ :: post) :=
      coalesced_split.mpr ⟨coalesced_nil, hpost, .inr ⟨endsUsed_nil, hstarts⟩⟩
    exact coalesced_split.mpr ⟨hpre, hrest', .inl rfl⟩
  · have hunlinked : Lists cut.free (offsetsOf false 0 (pre ++ ⟨k + n, true⟩ :: post)) := by
      have hless : Lists less.free _ := hfree ▸ h.free.perm hold
      exact hless.unlink
    exact (hunlinked.linkFree (List.nodup_cons.mp hnodup).1).perm hlist.symm
  · have hbytes := h.available
    have hlt := h.available_lt
    simp only [freeBytes_append, freeBytes_cons, Bool.false_eq_true, if_false, if_true]
      at hbytes ⊢
    have hcutBytes : cut.availableSize =
        wordSub m.availableSize (newsize - (k - rtMemheapSize)) := by
      simp only [cut, joined, splitItem_availableSize, joinItem_availableSize]
      exact havailable
    rw [hcutBytes, wordSub_eq (by omega) hlt]
    omega

/-- A free block that is put into the free list and counted. -/
theorem memheapRep_linkFree {m : RtMemheap} {pre post : List Block} {n : Nat}
    (h : m.Blocks (pre ++ ⟨n, false⟩ :: post)) (hc : Coalesced (pre ++ ⟨n, false⟩ :: post))
    (hfree : Lists m.free (offsetsOf false 0 (pre ++ ⟨n, true⟩ :: post)))
    (havailable : m.availableSize = freeBytes pre + freeBytes post) :
    MemheapRep
      { m with
        free := linkFree m.free (.block (total pre))
        availableSize := m.availableSize + memitemSize m (total pre) }
      (pre ++ ⟨n, false⟩ :: post) := by
  have hperm := offsetsOf_perm (Ne.symm Bool.false_ne_true) 0 n pre post
  have hnodup := hperm.nodup_iff.mp (offsetsOf_nodup h.pos)
  rw [Nat.zero_add] at hperm hnodup
  refine ⟨h.congr rfl rfl rfl, hc, ?_, ?_⟩
  · exact (hfree.linkFree (List.nodup_cons.mp hnodup).1).perm hperm.symm
  · have hsize : memitemSize m (total pre) = n - rtMemheapSize := h.memitemSize_eq
    simp only [hsize, havailable, freeBytes_append, freeBytes_cons, Bool.false_eq_true, if_false]
    omega

/-- The rear of a used block is cut off and joined with the free block behind it. -/
theorem MemheapRep.shrink {m : RtMemheap} {pre post : List Block} {newsize rest : Nat}
    (h : MemheapRep m (pre ++ ⟨rtMemheapSize + newsize + rest, true⟩ :: post))
    (hsize : rtMemheapMinialloc ≤ newsize) (haligned : rtAlignSize ∣ newsize)
    (hrest : rtMemheapSize + rtMemheapMinialloc ≤ rest) :
    MemheapRep (shrinkBlock m (total pre) newsize)
      (freeAt (pre ++ [⟨rtMemheapSize + newsize, true⟩]) rest post) := by
  obtain ⟨hpre, hpost, -⟩ := coalesced_split.mp h.coalesced
  have hends : EndsUsed (pre ++ [⟨rtMemheapSize + newsize, true⟩]) :=
    endsUsed_append_singleton.mpr rfl
  have hcoalesced : Coalesced (freeAt (pre ++ [⟨rtMemheapSize + newsize, true⟩]) rest post) :=
    coalesced_freeAt rest (coalesced_split.mpr ⟨hpre, coalesced_nil, .inl rfl⟩) hpost
  have htotal : total (pre ++ [⟨rtMemheapSize + newsize, true⟩]) =
      total pre + newsize + rtMemheapSize := by
    simp only [total_append, total_cons, total_nil, Nat.add_zero]
    omega
  let cut := splitItem m (total pre) (total (pre ++ [⟨rtMemheapSize + newsize, true⟩]))
  have hcut : cut.Blocks ((pre ++ [⟨rtMemheapSize + newsize, true⟩]) ++ ⟨rest, false⟩ :: post) := by
    have hblocks := h.blocks.split hsize haligned hrest
    rw [List.append_assoc]
    simp only [cut, htotal]
    rwa [Nat.add_right_comm] at hblocks
  have hlisted : Lists cut.free
      (offsetsOf false 0 ((pre ++ [⟨rtMemheapSize + newsize, true⟩]) ++ ⟨rest, true⟩ :: post)) := by
    rw [List.append_assoc, List.singleton_append,
      offsetsOf_absorb (Ne.symm Bool.false_ne_true)]
    exact h.free
  have hold := h.available
  simp only [freeBytes_append, freeBytes_cons, if_true, Nat.zero_add] at hold
  rw [freeAt_eq, mergeLeft_of_endsUsed hends] at hcoalesced ⊢
  rcases mergeRight_cases post with hused | ⟨k, back, rfl⟩
  · have hgo : shrinkBlock m (total pre) newsize =
        { cut with
          free := linkFree cut.free (.block (total (pre ++ [⟨rtMemheapSize + newsize, true⟩])))
          availableSize := cut.availableSize +
            memitemSize cut (total (pre ++ [⟨rtMemheapSize + newsize, true⟩])) } := by
      simp only [shrinkBlock, ← htotal]
      rw [if_neg (not_not_intro (hcut.isUsed_next hused))]
      rfl
    rw [mergeRight_of_startsUsed hused] at hcoalesced ⊢
    rw [hgo]
    refine memheapRep_linkFree hcut hcoalesced hlisted ?_
    simp only [cut, splitItem_availableSize, freeBytes_append, freeBytes_cons, freeBytes_nil,
      if_true]
    omega
  · obtain ⟨hnext, hnot⟩ := hcut.not_isUsed_next
    simp only at hnext hnot
    have hnextSize : memitemSize cut (total (pre ++ [⟨rtMemheapSize + newsize, true⟩]) + rest) =
        k - rtMemheapSize := by
      have hrear : cut.Blocks (((pre ++ [⟨rtMemheapSize + newsize, true⟩]) ++ [⟨rest, false⟩]) ++
          ⟨k, false⟩ :: back) := by
        rw [List.append_assoc]
        exact hcut
      have hsize := hrear.memitemSize_eq
      rwa [total_append, total_cons, total_nil, Nat.add_zero] at hsize
    let joined :=
      joinItem { cut with availableSize := cut.availableSize - (k - rtMemheapSize) }
        (total (pre ++ [⟨rtMemheapSize + newsize, true⟩]))
        (total (pre ++ [⟨rtMemheapSize + newsize, true⟩]) + rest)
    let alone : RtMemheap :=
      { joined with
        free := joined.free.unlink
          (.block (total (pre ++ [⟨rtMemheapSize + newsize, true⟩]) + rest)) }
    have hgo : shrinkBlock m (total pre) newsize =
        { alone with
          free := linkFree alone.free (.block (total (pre ++ [⟨rtMemheapSize + newsize, true⟩])))
          availableSize := alone.availableSize +
            memitemSize alone (total (pre ++ [⟨rtMemheapSize + newsize, true⟩])) } := by
      simp only [shrinkBlock, ← htotal]
      rw [hnext, if_pos hnot, hnextSize]
      rfl
    have hjoined : alone.Blocks
        ((pre ++ [⟨rtMemheapSize + newsize, true⟩]) ++ ⟨rest + k, false⟩ :: back) :=
      (RtMemheap.Blocks.join (hcut.congr rfl rfl rfl) : joined.Blocks _).congr rfl rfl rfl
    rw [mergeRight] at hcoalesced ⊢
    rw [hgo]
    refine memheapRep_linkFree hjoined hcoalesced ?_ ?_
    · have hperm :=
        offsetsOf_cut false true 0 rest k (pre ++ [⟨rtMemheapSize + newsize, true⟩]) back
      rw [Nat.zero_add] at hperm
      exact (hlisted.perm hperm).unlink
    · simp only [alone, joined, joinItem_availableSize, cut, splitItem_availableSize,
        freeBytes_append, freeBytes_cons, freeBytes_nil, Bool.false_eq_true, if_true, if_false]
        at hold ⊢
      omega

/-! ## Runs -/

/-- The three calls; `rt_memheap_realloc` gives the block back for a size of 0. -/
def memheapOps : HeapOps RtMemheap where
  alloc := rtMemheapAlloc
  realloc := rtMemheapRealloc
  free := rtMemheapFree
  gives newsize := newsize = 0

/-- The heap under its callers. -/
abbrev memheap : Machine (HeapSys RtMemheap) HeapCall := memheapOps.machine

/-- A block that may grow into a free one is not asked to hold so much that the test of
`rt_memheap_realloc` wraps. -/
def GrowInRange (s : HeapSys RtMemheap) : HeapCall → Prop
  | .realloc (some p) newsize =>
    newsize ≠ 0 →
      ¬ rtMemheapIsUsed (s.heap.item (s.heap.item (p - rtMemheapSize)).next) →
        blockSize newsize + rtMemheapMinialloc < wordSize
  | _ => True

/-- The live pointers are those of the used blocks. -/
abbrev MemheapLive (m : RtMemheap) (live : List Nat) : Prop :=
  LiveBlocks MemheapRep rtMemheapSize m live

theorem memheapRep_pos (m : RtMemheap) (bs : List Block) (h : MemheapRep m bs) :
    ∀ b ∈ bs, 0 < b.size := h.blocks.pos

section
variable {m : RtMemheap} {live : List Nat} {p : Nat}

theorem memheapLive_alloc (h : MemheapLive m live) (size : Nat) :
    MemheapLive (rtMemheapAlloc m size).2 (handOut live (rtMemheapAlloc m size).1) := by
  obtain ⟨bs, hrep, hlive⟩ := h
  rcases hrep.alloc size with hnone | ⟨pre, k, post, n, rest, rfl, -, hrest, rfl, hptr, hrep'⟩
  · rw [hnone]
    exact ⟨bs, hrep, hlive⟩
  · rw [hptr, handOut]
    exact .take hlive hrest hrep'

theorem memheapLive_free (h : MemheapLive m live) (hp : p ∈ live) :
    MemheapLive (rtMemheapFree m (some p)) (live.erase p) := by
  obtain ⟨bs, hrep, hlive⟩ := h
  obtain ⟨pre, n, post, rfl, rfl⟩ := exists_block hlive hp
  exact .release hlive hrep.freed

/-- A block is grown where it stands. -/
theorem memheapLive_grow (h : MemheapLive m live) (hp : p ∈ live) {newsize : Nat}
    (hrange : ¬ rtMemheapIsUsed (m.item (m.item (p - rtMemheapSize)).next) →
      blockSize newsize + rtMemheapMinialloc < wordSize)
    (hgrow : memitemSize m (p - rtMemheapSize) < blockSize newsize)
    (hfits : growFits m (m.item (p - rtMemheapSize)).next (memitemSize m (p - rtMemheapSize))
      (blockSize newsize)) :
    MemheapLive (growBlock m (p - rtMemheapSize) (m.item (p - rtMemheapSize)).next
      (memitemSize m (p - rtMemheapSize)) (blockSize newsize)) live := by
  obtain ⟨bs, hrep, hlive⟩ := h
  obtain ⟨pre, k, post, rfl, rfl⟩ := exists_block hlive hp
  rw [Nat.add_sub_cancel] at *
  obtain ⟨hfree, hlt⟩ := hfits
  have hinRange := hrange hfree
  rcases mergeRight_cases post with hused | ⟨n, back, rfl⟩
  · exact absurd (hrep.blocks.isUsed_next hused) hfree
  · obtain ⟨hnext, -⟩ := hrep.blocks.not_isUsed_next
    have hk := hrep.blocks.memitemSize_eq
    have hrear : m.Blocks ((pre ++ [⟨k, true⟩]) ++ ⟨n, false⟩ :: back) := by
      rw [List.append_assoc]
      exact hrep.blocks
    have hn := hrear.memitemSize_eq
    rw [total_append, total_cons, total_nil, Nat.add_zero] at hn
    have htotal := hrear.total_eq
    have hinside := hrear.inside
    simp only [total_append, total_cons, total_nil] at hnext hk hn htotal
    rw [hnext, hk, hn, Nat.mod_eq_of_lt hinRange, Nat.mod_eq_of_lt (by omega)] at hlt
    rw [hk] at hgrow
    rw [hnext, hk]
    have hkSize := hrep.blocks.header.size
    have hnSize := hrear.header.size
    simp only at hkSize hnSize
    obtain ⟨rest, hsum, hrep'⟩ := hrep.grow (minialloc_le_blockSize newsize)
      (blockSize_dvd newsize) (by omega) hlt
    refine ⟨_, hrep', ?_⟩
    rwa [offsetsOf_absorb Bool.false_ne_true, hsum, ← offsetsOf_absorb Bool.false_ne_true]

/-- A block is shrunk where it stands. -/
theorem memheapLive_shrink (h : MemheapLive m live) (hp : p ∈ live) {newsize : Nat}
    (hlt : blockSize newsize + rtMemheapSize + rtMemheapMinialloc <
      memitemSize m (p - rtMemheapSize)) :
    MemheapLive (shrinkBlock m (p - rtMemheapSize) (blockSize newsize)) live := by
  obtain ⟨bs, hrep, hlive⟩ := h
  obtain ⟨pre, k, post, rfl, rfl⟩ := exists_block hlive hp
  rw [Nat.add_sub_cancel] at *
  have hk : memitemSize m (total pre) = k - rtMemheapSize := hrep.blocks.memitemSize_eq
  rw [hk] at hlt
  obtain ⟨rest, rfl⟩ : ∃ rest, k = rtMemheapSize + blockSize newsize + rest :=
    ⟨k - (rtMemheapSize + blockSize newsize), by omega⟩
  exact .cut hlive
    (hrep.shrink (minialloc_le_blockSize newsize) (blockSize_dvd newsize) (by omega))

theorem memheapLive_realloc (h : MemheapLive m live) {ptr : Option Nat} (hp : IsLive live ptr)
    {newsize : Nat} (hrange : GrowInRange ⟨m, live⟩ (.realloc ptr newsize)) :
    MemheapLive (rtMemheapRealloc m ptr newsize).2
      (afterRealloc live ptr (memheapOps.gives newsize) (rtMemheapRealloc m ptr newsize).1) := by
  have hgives : memheapOps.gives newsize = decide (newsize = 0) := rfl
  rw [hgives]
  unfold rtMemheapRealloc
  by_cases hzero : newsize = 0
  · rw [if_pos hzero, afterRealloc, decide_eq_true hzero]
    cases ptr with
    | none => exact h
    | some p => exact memheapLive_free h (hp p rfl)
  · rw [if_neg hzero, decide_eq_false hzero]
    have halloc := memheapLive_alloc h (blockSize newsize)
    cases ptr with
    | none =>
      simp only
      cases hresult : (rtMemheapAlloc m (blockSize newsize)).1 with
      | none =>
        rw [hresult] at halloc
        exact halloc
      | some p =>
        rw [hresult] at halloc
        exact halloc
    | some p =>
      have hmem := hp p rfl
      have hsame := List.perm_cons_erase hmem
      simp only
      split
      · rename_i hgrow
        split
        · rename_i hfits
          exact (memheapLive_grow h hmem (hrange hzero) hgrow hfits).perm hsame.symm
        · split
          · rename_i q m' hresult
            rw [hresult] at halloc
            exact halloc.move memheapRep_pos hmem fun h hp => memheapLive_free h hp
          · rename_i m' hresult
            rw [hresult] at halloc
            exact halloc
      · split
        · exact h.perm hsame.symm
        · rename_i hlt
          exact (memheapLive_shrink h hmem (Nat.lt_of_not_le hlt)).perm hsame.symm

end

theorem memheapLive_step {s s' : HeapSys RtMemheap} {call : HeapCall} (hok : GrowInRange s call)
    (hstep : memheap.step s call = some s') (h : MemheapLive s.heap s.live) :
    MemheapLive s'.heap s'.live :=
  HeapOps.step_invariant hstep h (fun size _ => memheapLive_alloc h size)
    (fun _ _ hcall hp => memheapLive_realloc h hp (hcall ▸ hok))
    (fun _ _ hp => memheapLive_free h hp) rfl

/-! ## The invariant -/

/-- The used tailer at the end of the pool. -/
def RtMemheap.tailer (m : RtMemheap) : Nat := m.poolSize - rtMemheapSize

/-- Where the region of a live pointer ends. -/
def regionEnd (m : RtMemheap) (p : Nat) : Nat := (m.item (p - rtMemheapSize)).next

/-- `walk` lists the blocks in front of the tailer as `next` visits them from `block_list` on,
and both lists, the byte count and the live pointers agree with it. -/
structure MemheapInvariant (m : RtMemheap) (live walk : List Nat) : Prop where
  start : walk.head? = some 0
  next : (walk ++ [m.tailer]).IsChain fun o o' => (m.item o).next = o' ∧ o < o'
  tailer : (m.item m.tailer).next = 0 ∧ rtMemheapIsUsed (m.item m.tailer) ∧
    m.tailer + rtMemheapSize = m.poolSize
  prev : (m.tailer :: (walk ++ [m.tailer])).IsChain fun o o' => (m.item o').prev = o
  free : ∃ qs : List Nat, m.free.Ring .freeHeader (qs.map .block) ∧
    qs.Perm (walk.filter fun o => ¬ rtMemheapIsUsed (m.item o))
  coalesced : walk.IsChain fun o o' => rtMemheapIsUsed (m.item o) ∨ rtMemheapIsUsed (m.item o')
  available : m.availableSize =
    ((walk.filter fun o => ¬ rtMemheapIsUsed (m.item o)).map (memitemSize m)).sum
  handedOut : live.Perm
    ((walk.filter fun o => rtMemheapIsUsed (m.item o)).map (· + rtMemheapSize))
  regions : LiveRegions rtMemheapSize rtAlignSize m.startAddr m.tailer (regionEnd m) live

theorem freeBytes_eq_sum (bs : List Block) :
    freeBytes bs = ((bs.filter (·.used == false)).map (·.size - rtMemheapSize)).sum := by
  induction bs with
  | nil => rfl
  | cons b bs ih =>
    rcases b with ⟨k, _ | _⟩
    · simp [ih]
    · simp [ih]

theorem memitemSize_sum {m : RtMemheap} {bs : List Block} (h : m.Blocks bs) :
    ((offsetsOf false 0 bs).map (memitemSize m)).sum = freeBytes bs := by
  have htotal := h.total_eq
  have hinside := h.inside
  -- with the end of its block, a header lies in the address space
  have hlaid : Laid (fun q o b => Header m.item q o b ∧ o + b.size ≤ total bs) (fun _ _ => True)
      (total bs) 0 bs := by
    refine h.laid.imp (fun q o b _ ho hb => ⟨hb, ?_⟩) fun _ _ => trivial
    rwa [Nat.zero_add] at ho
  rw [freeBytes_eq_sum]
  refine hlaid.sum_offsetsOf false fun q o b hb => ?_
  have hsize := hb.1.size
  have hdistance : wordSub (o + b.size) o = b.size := by
    rw [wordSub_eq (Nat.le_add_right _ _) (by omega), Nat.add_sub_cancel_left]
  rw [memitemSize, hb.1.next, hdistance, wordSub_eq (by omega) (by omega)]

theorem MemheapRep.invariant {m : RtMemheap} {bs : List Block} {live : List Nat}
    (h : MemheapRep m bs)
    (hlive : live.Perm ((offsetsOf true 0 bs).map (· + rtMemheapSize))) :
    MemheapInvariant m live (offsets 0 bs) := by
  have hlaid := h.blocks.laid
  have htotal := h.blocks.total_eq
  have htailer : 0 + total bs = m.tailer := by
    unfold RtMemheap.tailer
    omega
  have hfree : ((offsets 0 bs).filter fun o => ¬ rtMemheapIsUsed (m.item o)) =
      offsetsOf false 0 bs := by
    refine hlaid.filter_offsets fun q o b hb => ?_
    have hused := rtMemheapIsUsed_iff hb
    cases hb' : b.used <;> simp [hused, hb']
  have hused : ((offsets 0 bs).filter fun o => rtMemheapIsUsed (m.item o)) =
      offsetsOf true 0 bs := by
    refine hlaid.filter_offsets fun q o b hb => ?_
    have hused := rtMemheapIsUsed_iff hb
    cases hb' : b.used <;> simp [hused, hb']
  constructor
  case start =>
    cases bs with
    | nil =>
      have hroom := h.blocks.room
      rw [total_nil] at htotal
      omega
    | cons b bs => rfl
  case next =>
    rw [← htailer]
    refine hlaid.isChain_next fun q o b hb => ⟨hb.next, ?_⟩
    have hpos := hb.pos
    omega
  case tailer =>
    obtain ⟨q, hend⟩ := h.blocks.tailer_at
    rw [← htailer, Nat.zero_add]
    exact ⟨hend.next, hend.isUsed, htotal⟩
  case prev =>
    rw [← htailer, Nat.zero_add]
    have hchain := hlaid.isChain_prev_end (R := fun o o' => (m.item o').prev = o)
      (fun _ _ _ hb => hb.prev) fun _ _ he => he.prev
    rwa [Nat.zero_add] at hchain
  case free =>
    rw [hfree]
    exact h.free
  case coalesced =>
    exact hlaid.isChain_used (fun q o b hb hu => (rtMemheapIsUsed_iff hb).mpr hu) h.coalesced
  case available =>
    rw [hfree, h.available, memitemSize_sum h.blocks]
  case handedOut => rwa [hused]
  case regions =>
    rw [← htailer, Nat.zero_add]
    exact hlaid.liveRegions hlive (fun _ _ _ hb => hb.next)
      (fun _ _ _ hb => Nat.le_of_add_right_le hb.size) (fun _ _ _ hb => hb.aligned) h.blocks.base
      (by decide)

/-- An aligned region in the address space with room for two headers and one minimal block. -/
structure LargeEnough (startAddr size : Nat) : Prop where
  aligned : rtAlignSize ∣ startAddr
  inside : startAddr + size < wordSize
  room : 2 * rtMemheapSize + rtMemheapMinialloc ≤ size

theorem lists_initFree (L : Links ItemPtr) {tailer : Nat} (h : 0 < tailer) :
    Lists (initFree L tailer) [0] := by
  have hempty : Links.Ring (((((L.setNext .freeHeader .freeHeader).setPrev .freeHeader
      .freeHeader).setNext (.block 0) (.block 0)).setPrev (.block 0) (.block 0)))
      ItemPtr.freeHeader [] := by
    rw [Links.ring_nil_iff]
    constructor <;> simp
  have hring := linkFree_ring hempty (block_not_mem (a := 0) List.not_mem_nil)
  have htailer : ItemPtr.block tailer ∉ ItemPtr.freeHeader :: [0].map .block := by
    refine block_not_mem fun hmem => ?_
    rw [List.mem_singleton] at hmem
    omega
  exact ⟨[0], (hring.setNext htailer _).setPrev htailer _, List.Perm.refl _⟩

/-- `rt_memheap_init` leaves one free block. -/
theorem rtMemheapInit_rep {startAddr size : Nat} (h : LargeEnough startAddr size)
    (item : Nat → RtMemheapItem) (free : Links ItemPtr) :
    ∃ bs, MemheapRep (rtMemheapInit startAddr size item free) bs ∧ offsetsOf true 0 bs = [] := by
  have hroom := h.room
  have hinside := h.inside
  have hle := rtAlignDown_le size
  have hdvd := rtAlignDown_dvd size
  have hpool : 2 * rtMemheapSize + rtMemheapMinialloc ≤ rtAlignDown size := by
    unfold rtAlignDown
    simp only [rtMemheapSize, rtMemheapMinialloc, rtAlignSize] at *
    omega
  have hword : rtAlignDown size < wordSize := by omega
  have havailable : wordSub (rtAlignDown size) (2 * rtMemheapSize) =
      rtAlignDown size - 2 * rtMemheapSize :=
    wordSub_eq (Nat.le_of_add_right_le hpool) hword
  obtain ⟨tailer, htailer⟩ :
      ∃ tailer, rtAlignDown size - 2 * rtMemheapSize + rtMemheapSize = tailer := ⟨_, rfl⟩
  have hheader : 0 < rtMemheapSize := by decide
  have hpos : 0 < tailer := by omega
  have hitem : ∀ o, (rtMemheapInit startAddr size item free).item o =
      if o = tailer then ⟨magicUsed, 0, 0⟩ else if o = 0 then ⟨magicFreed, tailer, tailer⟩
      else item o := by
    intro o
    simp only [rtMemheapInit, havailable, htailer, RtMemheap.set_item]
  refine ⟨[⟨tailer, false⟩], ⟨⟨⟨⟨?_, ?_, ?_, ?_, ?_⟩, ?_, ?_, ?_⟩, ?_, ?_, ?_, h.aligned⟩,
    List.isChain_singleton _, ?_, ?_⟩, rfl⟩
  · rw [hitem, if_neg (by omega), if_pos rfl]
    rfl
  · rw [hitem, if_neg (by omega), if_pos rfl, Nat.zero_add]
  · rw [hitem, if_neg (by omega), if_pos rfl]
    rfl
  · simp only
    omega
  · simp only [← htailer]
    have hheaders : rtAlignSize ∣ 2 * rtMemheapSize := by decide
    have halone : rtAlignSize ∣ rtMemheapSize := by decide
    exact Nat.dvd_add (Nat.dvd_sub hdvd hheaders) halone
  · rw [Nat.zero_add, hitem, if_pos rfl]
  · rw [Nat.zero_add, hitem, if_pos rfl]
  · rw [Nat.zero_add, hitem, if_pos rfl]
  · change tailer + 0 + rtMemheapSize = rtAlignDown size
    omega
  · exact hword
  · change rtMemheapSize < rtAlignDown size
    omega
  · have hlists : Lists (initFree free tailer) [0] := lists_initFree free hpos
    simp only [rtMemheapInit, havailable, htailer, RtMemheap.set_free]
    exact hlists
  · simp only [rtMemheapInit, havailable, RtMemheap.set_availableSize, freeBytes_cons,
      freeBytes_nil, Bool.false_eq_true, if_false]
    omega

theorem memheapLive_run {startAddr size : Nat} (h : LargeEnough startAddr size)
    (item : Nat → RtMemheapItem) (free : Links ItemPtr) {calls : List HeapCall}
    {s : HeapSys RtMemheap}
    (run : memheap.Run GrowInRange ⟨rtMemheapInit startAddr size item free, []⟩ calls s) :
    MemheapLive s.heap s.live := by
  obtain ⟨bs, hrep, hnone⟩ := rtMemheapInit_rep h item free
  have hstart : MemheapLive (rtMemheapInit startAddr size item free) [] :=
    ⟨bs, hrep, by rw [hnone]; exact List.Perm.refl _⟩
  exact run.invariant (I := fun s => MemheapLive s.heap s.live)
    (fun _ _ _ hok hstep hs => memheapLive_step hok hstep hs) hstart

/-- In every run that lets no block grow out of range, the lists, the byte count and the live
pointers agree with the walk over the pool. -/
theorem memheap_invariant {startAddr size : Nat} (h : LargeEnough startAddr size)
    (item : Nat → RtMemheapItem) (free : Links ItemPtr) {calls : List HeapCall}
    {s : HeapSys RtMemheap}
    (run : memheap.Run GrowInRange ⟨rtMemheapInit startAddr size item free, []⟩ calls s) :
    ∃ walk, MemheapInvariant s.heap s.live walk := by
  obtain ⟨bs, hrep, hlive⟩ := memheapLive_run h item free run
  exact ⟨offsets 0 bs, hrep.invariant hlive⟩

/-- On 512 bytes: a block grows into the free one behind it, and another one is given back. -/
theorem memheap_invariant_run :
    ∃ s walk, memheap.Run GrowInRange
        ⟨rtMemheapInit 0x20000000 512 (fun _ => ⟨0, 0, 0⟩) ⟨fun _ => .null, fun _ => .null⟩, []⟩
        [.alloc 24, .alloc 40, .free (some 24), .realloc (some 72) 100] s ∧
      s.live = [72] ∧ MemheapInvariant s.heap s.live walk := by
  have hlarge : LargeEnough 0x20000000 512 := ⟨by decide, by decide, by decide⟩
  have hexec : (memheap.exec
      ⟨rtMemheapInit 0x20000000 512 (fun _ => ⟨0, 0, 0⟩) ⟨fun _ => .null, fun _ => .null⟩, []⟩
      [.alloc 24, .alloc 40, .free (some 24), .realloc (some 72) 100]).map (·.live) =
      some [72] := by
    decide
  obtain ⟨s, hs, hlive⟩ := Option.map_eq_some_iff.mp hexec
  have hadmitted : memheap.Admitted GrowInRange
      ⟨rtMemheapInit 0x20000000 512 (fun _ => ⟨0, 0, 0⟩) ⟨fun _ => .null, fun _ => .null⟩, []⟩
      [.alloc 24, .alloc 40, .free (some 24), .realloc (some 72) 100] :=
    .cons trivial rfl <| .cons trivial rfl <| .cons trivial rfl <|
      .cons (fun _ _ => by decide) rfl trivial
  have run := Machine.Run.of_exec hs hadmitted
  obtain ⟨walk, hwalk⟩ := memheap_invariant hlarge _ _ run
  exact ⟨s, walk, run, hlive, hwalk⟩

/-- A block of 16 bytes that is asked to grow to `0xfffffff8` bytes is cut off in the middle of
its own header. -/
theorem not_memheap_invariant_wrapped :
    ∃ s, memheap.Run Machine.anyStep
        ⟨rtMemheapInit 0x20000000 512 (fun _ => ⟨0, 0, 0⟩) ⟨fun _ => .null, fun _ => .null⟩, []⟩
        [.alloc 16, .realloc (some 24) 0xfffffff8] s ∧
      ¬ ∃ walk, MemheapInvariant s.heap s.live walk := by
  have hexec : (memheap.exec
      ⟨rtMemheapInit 0x20000000 512 (fun _ => ⟨0, 0, 0⟩) ⟨fun _ => .null, fun _ => .null⟩, []⟩
      [.alloc 16, .realloc (some 24) 0xfffffff8]).map
        (fun s => (s.live, regionEnd s.heap 24)) = some ([24], 16) := by
    decide
  obtain ⟨s, hs, hvalues⟩ := Option.map_eq_some_iff.mp hexec
  obtain ⟨hlive, hend⟩ := Prod.mk.inj hvalues
  refine ⟨s, Machine.Run.of_exec hs (Machine.admitted_anyStep _ _), ?_⟩
  rintro ⟨walk, h⟩
  have hinside := (h.regions.inside 24 (hlive ▸ List.mem_singleton_self 24)).2.1
  rw [hend] at hinside
  omega

end Gd32Vw553h.Kernel.Memheap
