/-
  Kernel/SmallMem.lean --- the small memory heap (`src/mem.c`).

  The heap is a list of blocks, each behind a header with the offsets of its neighbours.
  `rt_smem_alloc` splits a free block, `rt_smem_free` merges one with its neighbours, and
  `lfree` is kept at the lowest free block.  `smem_invariant` says that after every
  sequence of calls the headers form such a list and that the pointer, the counters and
  the pointers handed out agree with it.

  Pointers into the heap are offsets from `heap_ptr`.  The heap lies inside the address
  space, so sums of offsets and aligned sizes do not wrap; a requested size may wrap
  when it is aligned.  `RT_USING_MEMTRACE` is not set.
-/
import Gd32Vw553h.Foundation.HeapCalls
import Gd32Vw553h.Kernel.RtDef

set_option autoImplicit false

namespace Gd32Vw553h.Kernel

open Gd32Vw553h.Foundation

/-! ## Data -/

/-- `struct rt_small_mem_item` -/
structure RtSmallMemItem where
  poolPtr : Nat
  next : Nat
  prev : Nat
  deriving DecidableEq

/-- `SIZEOF_STRUCT_MEM` -/
abbrev sizeofStructMem : Nat := 16
/-- `sizeof(struct rt_small_mem)` -/
abbrev sizeofRtSmallMem : Nat := 72
/-- `MIN_SIZE` -/
abbrev minSize : Nat := 12
/-- `MIN_SIZE_ALIGNED` -/
abbrev minSizeAligned : Nat := 16

/-- `MEM_USED` -/
def memUsed (heap : Nat) : Nat := heap / 2 * 2 + 1

/-- `MEM_FREED` -/
def memFreed (heap : Nat) : Nat := heap / 2 * 2

/-- `MEM_ISUSED` -/
def memIsUsed (item : RtSmallMemItem) : Prop := item.poolPtr % 2 = 1

instance (item : RtSmallMemItem) : Decidable (memIsUsed item) :=
  inferInstanceAs (Decidable (item.poolPtr % 2 = 1))

/-- `MEM_POOL` -/
def memPool (item : RtSmallMemItem) : Nat := item.poolPtr / 2 * 2

/-- `struct rt_small_mem`, and the headers in the memory it manages. -/
structure RtSmallMem where
  /-- the address of the object -/
  addr : Nat
  /-- `parent.used` -/
  used : Nat
  /-- `parent.max` -/
  max : Nat
  heapPtr : Nat
  heapEnd : Nat
  lfree : Nat
  memSizeAligned : Nat
  item : Nat → RtSmallMemItem

/-- Write to a header. -/
def RtSmallMem.set (m : RtSmallMem) (ptr : Nat) (item : RtSmallMemItem) : RtSmallMem :=
  { m with item := Function.update m.item ptr item }

section
variable (m : RtSmallMem) (ptr : Nat) (item : RtSmallMemItem)

theorem RtSmallMem.set_item (o : Nat) :
    (m.set ptr item).item o = if o = ptr then item else m.item o :=
  Function.update_apply m.item ptr item o

@[simp] theorem RtSmallMem.set_addr : (m.set ptr item).addr = m.addr := rfl
@[simp] theorem RtSmallMem.set_used : (m.set ptr item).used = m.used := rfl
@[simp] theorem RtSmallMem.set_max : (m.set ptr item).max = m.max := rfl
@[simp] theorem RtSmallMem.set_heapPtr : (m.set ptr item).heapPtr = m.heapPtr := rfl
@[simp] theorem RtSmallMem.set_heapEnd : (m.set ptr item).heapEnd = m.heapEnd := rfl
@[simp] theorem RtSmallMem.set_lfree : (m.set ptr item).lfree = m.lfree := rfl
@[simp] theorem RtSmallMem.set_memSizeAligned :
    (m.set ptr item).memSizeAligned = m.memSizeAligned := rfl

end

/-! ## Code -/

/-- What both halves of `plug_holes` do to combine `mem` with the block `nmem` behind it. -/
def combine (m : RtSmallMem) (mem nmem : Nat) : RtSmallMem :=
  let m := if m.lfree = nmem then { m with lfree := mem } else m
  let m := m.set nmem { m.item nmem with poolPtr := 0 }
  let m := m.set mem { m.item mem with next := (m.item nmem).next }
  m.set (m.item nmem).next { m.item (m.item nmem).next with prev := mem }

/-- `plug_holes`, forward. -/
def plugForward (m : RtSmallMem) (mem : Nat) : RtSmallMem :=
  let nmem := (m.item mem).next
  if mem ≠ nmem ∧ ¬ memIsUsed (m.item nmem) ∧ nmem ≠ m.heapEnd then combine m mem nmem else m

/-- `plug_holes`, backward. -/
def plugBackward (m : RtSmallMem) (mem : Nat) : RtSmallMem :=
  let pmem := (m.item mem).prev
  if pmem ≠ mem ∧ ¬ memIsUsed (m.item pmem) then combine m pmem mem else m

/-- `plug_holes` -/
def plugHoles (m : RtSmallMem) (mem : Nat) : RtSmallMem := plugBackward (plugForward m mem) mem

/-- What `rt_smem_init` writes: the control structure, one free block and the header at the
end. -/
def smemLayout (smallMem beginAlign memSize : Nat) (item : Nat → RtSmallMemItem) :
    RtSmallMem :=
  let m : RtSmallMem :=
    { addr := smallMem
      used := 0
      max := 0
      heapPtr := beginAlign
      heapEnd := memSize + sizeofStructMem
      lfree := 0
      memSizeAligned := memSize
      item := item }
  let m := m.set 0 ⟨memFreed smallMem, memSize + sizeofStructMem, 0⟩
  m.set m.heapEnd ⟨memUsed smallMem, memSize + sizeofStructMem, memSize + sizeofStructMem⟩

/-- `rt_smem_init` on `size` bytes at `beginAddr`; `item` is what the memory holds. -/
def rtSmemInit (beginAddr size : Nat) (item : Nat → RtSmallMemItem) : Option RtSmallMem :=
  let smallMem := rtAlign beginAddr
  let startAddr := (smallMem + sizeofRtSmallMem) % wordSize
  let beginAlign := rtAlign startAddr
  let endAlign := rtAlignDown ((beginAddr + size) % wordSize)
  if endAlign > 2 * sizeofStructMem ∧ endAlign - 2 * sizeofStructMem ≥ startAddr then
    some (smemLayout smallMem beginAlign (endAlign - beginAlign - 2 * sizeofStructMem) item)
  else none

/-- The search of `rt_smem_alloc` from `ptr` on, over at most `fuel` blocks. -/
def findFit (m : RtSmallMem) (size : Nat) : Nat → Nat → Option Nat
  | 0, _ => none
  | fuel + 1, ptr =>
    if ptr ≤ m.memSizeAligned - size then
      if ¬ memIsUsed (m.item ptr) ∧ (m.item ptr).next - (ptr + sizeofStructMem) ≥ size then
        some ptr
      else findFit m size fuel (m.item ptr).next
    else none

/-- The loop that moves `lfree` on, over at most `fuel` blocks. -/
def nextFree (m : RtSmallMem) : Nat → Nat → Nat
  | 0, ptr => ptr
  | fuel + 1, ptr =>
    if memIsUsed (m.item ptr) ∧ ptr ≠ m.heapEnd then nextFree m fuel (m.item ptr).next else ptr

/-- No heap has as many blocks as this. -/
def RtSmallMem.fuel (m : RtSmallMem) : Nat := m.heapEnd + 1

/-- `parent.used += n`, and `parent.max`. -/
def addUsed (m : RtSmallMem) (n : Nat) : RtSmallMem :=
  { m with used := m.used + n, max := if m.max < m.used + n then m.used + n else m.max }

/-- A block behind `mem` for what is left of it when `size` bytes are used. -/
def splitBlock (m : RtSmallMem) (ptr size : Nat) : RtSmallMem :=
  let ptr2 := ptr + sizeofStructMem + size
  let m := m.set ptr2 ⟨memFreed m.addr, (m.item ptr).next, ptr⟩
  let m := m.set ptr { m.item ptr with next := ptr2 }
  if (m.item ptr2).next ≠ m.memSizeAligned + sizeofStructMem then
    m.set (m.item ptr2).next { m.item (m.item ptr2).next with prev := ptr2 }
  else m

/-- Mark a block as used, and move `lfree` on when it was the lowest free one. -/
def markUsed (m : RtSmallMem) (ptr : Nat) : RtSmallMem :=
  let m := m.set ptr { m.item ptr with poolPtr := memUsed m.addr }
  if ptr = m.lfree then { m with lfree := nextFree m m.fuel m.lfree } else m

/-- `rt_smem_alloc` once the block is found. -/
def takeBlock (m : RtSmallMem) (ptr size : Nat) : RtSmallMem :=
  if (m.item ptr).next - (ptr + sizeofStructMem) ≥ size + sizeofStructMem + minSizeAligned then
    markUsed (addUsed (splitBlock m ptr size) (size + sizeofStructMem)) ptr
  else markUsed (addUsed m ((m.item ptr).next - ptr)) ptr

/-- The size that `rt_smem_alloc` looks for. -/
def allocSize (size : Nat) : Nat :=
  if rtAlign size < minSizeAligned then minSizeAligned else rtAlign size

/-- `rt_smem_alloc` -/
def rtSmemAlloc (m : RtSmallMem) (size : Nat) : Option Nat × RtSmallMem :=
  if size = 0 then (none, m)
  else if allocSize size > m.memSizeAligned then (none, m)
  else
    match findFit m (allocSize size) m.fuel m.lfree with
    | none => (none, m)
    | some ptr => (some (ptr + sizeofStructMem), takeBlock m ptr (allocSize size))

/-- `rt_smem_free`; a null pointer is let pass. -/
def rtSmemFree (m : RtSmallMem) (rmem : Option Nat) : RtSmallMem :=
  match rmem with
  | none => m
  | some rmem =>
    let mem := rmem - sizeofStructMem
    let m := m.set mem { m.item mem with poolPtr := memFreed m.addr }
    let m := if mem < m.lfree then { m with lfree := mem } else m
    let m := { m with used := m.used - ((m.item mem).next - mem) }
    plugHoles m mem

/-- The branch of `rt_smem_realloc` that gives back the rear of the block at `ptr`. -/
def shrinkBlock (m : RtSmallMem) (ptr size newsize : Nat) : RtSmallMem :=
  let m := { m with used := m.used - (size - newsize) }
  let ptr2 := ptr + sizeofStructMem + newsize
  let m := splitBlock m ptr newsize
  let m := if ptr2 < m.lfree then { m with lfree := ptr2 } else m
  plugHoles m ptr2

/-- `rt_smem_realloc` -/
def rtSmemRealloc (m : RtSmallMem) (rmem : Option Nat) (newsize : Nat) :
    Option Nat × RtSmallMem :=
  let newsize := rtAlign newsize
  if newsize > m.memSizeAligned then (none, m)
  else if newsize = 0 then (none, rtSmemFree m rmem)
  else
    match rmem with
    | none => rtSmemAlloc m newsize
    | some rmem =>
      let ptr := rmem - sizeofStructMem
      let size := (m.item ptr).next - ptr - sizeofStructMem
      if size = newsize then (some rmem, m)
      else if newsize + sizeofStructMem + minSize < size then
        (some rmem, shrinkBlock m ptr size newsize)
      else
        match rtSmemAlloc m newsize with
        | (some nmem, m) => (some nmem, rtSmemFree m (some rmem))
        | (none, m) => (none, m)

/-! ## The blocks of the heap -/

/-- What the header at `o` says about its block when the one before stands at `q`. -/
structure Header (addr : Nat) (item : Nat → RtSmallMemItem) (q o : Nat) (b : Block) : Prop where
  pool : (item o).poolPtr = if b.used then memUsed addr else memFreed addr
  next : (item o).next = o + b.size
  prev : (item o).prev = q
  size : sizeofStructMem ≤ b.size
  aligned : rtAlignSize ∣ b.size

/-- The header at the end of the heap. -/
structure EndHeader (addr : Nat) (item : Nat → RtSmallMemItem) (e : Nat) : Prop where
  pool : (item e).poolPtr = memUsed addr
  next : (item e).next = e

/-- The headers in the memory are those of the blocks. -/
structure RtSmallMem.Blocks (m : RtSmallMem) (bs : List Block) : Prop where
  laid : Laid (Header m.addr m.item) (fun _ => EndHeader m.addr m.item) 0 0 bs
  total_eq : total bs = m.heapEnd
  heapEnd : m.heapEnd = m.memSizeAligned + sizeofStructMem

theorem memIsUsed_iff {addr q o : Nat} {item : Nat → RtSmallMemItem} {b : Block}
    (h : Header addr item q o b) : memIsUsed (item o) ↔ b.used = true := by
  unfold memIsUsed
  rw [h.pool]
  cases b.used
  · simp [memFreed]
  · simp [memUsed]

theorem EndHeader.memIsUsed {addr e : Nat} {item : Nat → RtSmallMemItem}
    (h : EndHeader addr item e) : memIsUsed (item e) := by
  unfold Kernel.memIsUsed
  rw [h.pool, memUsed]
  omega

theorem Header.congr {addr q o : Nat} {item item' : Nat → RtSmallMemItem} {b : Block}
    (h : Header addr item q o b) (heq : item' o = item o) : Header addr item' q o b where
  pool := by rw [heq, h.pool]
  next := by rw [heq, h.next]
  prev := by rw [heq, h.prev]
  size := h.size
  aligned := h.aligned

theorem Header.pos {addr q o : Nat} {item : Nat → RtSmallMemItem} {b : Block}
    (h : Header addr item q o b) : 0 < b.size :=
  Nat.lt_of_lt_of_le (by decide) h.size

/-- The middle of the heap may be cut in another way when the headers there say so and the
one behind it points back to the last of them. -/
theorem laid_rewrite {addr p s : Nat} {item item' : Nat → RtSmallMemItem}
    {pre mid mid' post : List Block}
    (h : Laid (Header addr item) (fun _ => EndHeader addr item) p s (pre ++ (mid ++ post)))
    (hmid : Laid (Header addr item') (fun _ _ => True) (lastAt p s pre) (s + total pre) mid')
    (htotal : total mid' = total mid)
    (hbefore : ∀ o, o < s + total pre → item' o = item o)
    (hafter : ∀ o, s + total pre + total mid < o → item' o = item o)
    (hpool : (item' (s + total pre + total mid)).poolPtr =
      (item (s + total pre + total mid)).poolPtr)
    (hnext : (item' (s + total pre + total mid)).next = (item (s + total pre + total mid)).next)
    (hprev : post ≠ [] → (item' (s + total pre + total mid)).prev =
      lastAt (lastAt p s pre) (s + total pre) mid') :
    Laid (Header addr item') (fun _ => EndHeader addr item') p s (pre ++ (mid' ++ post)) := by
  refine h.rewrite hmid htotal (fun _ _ _ hb => hb.pos) (fun q o b ho hb => hb.congr (hbefore o ho))
    (fun q o b ho hb => hb.congr (hafter o ho)) (fun q b hb hheader => ?_)
    (fun q e he hend => ?_) fun q _ hend => ⟨hpool.trans hend.pool, hnext.trans hend.next⟩
  · have hpost : post ≠ [] := fun heq => by simp [heq] at hb
    exact ⟨hpool.trans hheader.pool, hnext.trans hheader.next, hprev hpost, hheader.size,
      hheader.aligned⟩
  · have heq := hafter e he
    exact ⟨by rw [heq, hend.pool], by rw [heq, hend.next]⟩

/-- The parts of the control structure that no call writes. -/
structure SameHeap (m m' : RtSmallMem) : Prop where
  addr : m'.addr = m.addr
  heapPtr : m'.heapPtr = m.heapPtr
  heapEnd : m'.heapEnd = m.heapEnd
  memSizeAligned : m'.memSizeAligned = m.memSizeAligned

theorem SameHeap.refl (m : RtSmallMem) : SameHeap m m := ⟨rfl, rfl, rfl, rfl⟩

theorem SameHeap.trans {m m' m'' : RtSmallMem} (h : SameHeap m m') (h' : SameHeap m' m'') :
    SameHeap m m'' :=
  ⟨h'.addr.trans h.addr, h'.heapPtr.trans h.heapPtr, h'.heapEnd.trans h.heapEnd,
    h'.memSizeAligned.trans h.memSizeAligned⟩

/-! ### What the pieces of the code write -/

theorem combine_same (m : RtSmallMem) (mem nmem : Nat) : SameHeap m (combine m mem nmem) := by
  unfold combine
  split <;> exact ⟨rfl, rfl, rfl, rfl⟩

theorem combine_used (m : RtSmallMem) (mem nmem : Nat) :
    (combine m mem nmem).used = m.used ∧ (combine m mem nmem).max = m.max := by
  unfold combine
  split <;> exact ⟨rfl, rfl⟩

theorem combine_lfree {m : RtSmallMem} {mem nmem : Nat} (h : m.lfree ≠ nmem) :
    (combine m mem nmem).lfree = m.lfree := by
  unfold combine
  rw [if_neg h]
  rfl

theorem combine_item {m : RtSmallMem} {mem nmem next : Nat} (hnext : (m.item nmem).next = next)
    (hmem : mem < nmem) (hnmem : nmem < next) (o : Nat) :
    (combine m mem nmem).item o =
      if o = next then { m.item next with prev := mem }
      else if o = mem then { m.item mem with next := next }
      else if o = nmem then { m.item nmem with poolPtr := 0 }
      else m.item o := by
  have hne : mem ≠ nmem := Nat.ne_of_lt hmem
  have hne' : next ≠ mem := by omega
  have hne'' : next ≠ nmem := by omega
  unfold combine
  split <;> simp [RtSmallMem.set_item, hnext, hne, hne.symm, hne', hne'']

theorem splitBlock_same (m : RtSmallMem) (ptr size : Nat) :
    SameHeap m (splitBlock m ptr size) := by
  simp only [splitBlock]
  split <;> exact ⟨rfl, rfl, rfl, rfl⟩

theorem splitBlock_rest (m : RtSmallMem) (ptr size : Nat) :
    (splitBlock m ptr size).used = m.used ∧ (splitBlock m ptr size).max = m.max ∧
      (splitBlock m ptr size).lfree = m.lfree := by
  simp only [splitBlock]
  split <;> exact ⟨rfl, rfl, rfl⟩

theorem splitBlock_item {m : RtSmallMem} {ptr size next : Nat}
    (hnext : (m.item ptr).next = next) (hlt : ptr + sizeofStructMem + size < next) (o : Nat) :
    (splitBlock m ptr size).item o =
      if o = next ∧ next ≠ m.memSizeAligned + sizeofStructMem then
        { m.item next with prev := ptr + sizeofStructMem + size }
      else if o = ptr then { m.item ptr with next := ptr + sizeofStructMem + size }
      else if o = ptr + sizeofStructMem + size then ⟨memFreed m.addr, next, ptr⟩
      else m.item o := by
  have hne : ptr ≠ ptr + sizeofStructMem + size := by simp only [sizeofStructMem]; omega
  have hne' : next ≠ ptr := by simp only [sizeofStructMem] at hlt; omega
  have hne'' : next ≠ ptr + sizeofStructMem + size := by omega
  unfold splitBlock
  by_cases hend : next = m.memSizeAligned + sizeofStructMem
  · simp [RtSmallMem.set_item, hnext, hne, hne.symm, hend]
  · simp [RtSmallMem.set_item, hnext, hne, hne.symm, hne', hne'', hend]

namespace RtSmallMem.Blocks

variable {m m' : RtSmallMem} {pre post : List Block}

theorem header {b : Block} (h : m.Blocks (pre ++ b :: post)) :
    Header m.addr m.item (lastAt 0 0 pre) (total pre) b := by
  have hb := h.laid.header
  rwa [Nat.zero_add] at hb

theorem pos {bs : List Block} (h : m.Blocks bs) : ∀ b ∈ bs, 0 < b.size :=
  h.laid.forall_mem fun _ _ _ hb => hb.pos

/-- `laid_rewrite` for the heap. -/
theorem rewrite (mid mid' : List Block) (h : m.Blocks (pre ++ (mid ++ post)))
    (hsame : SameHeap m m')
    (hmid : Laid (Header m.addr m'.item) (fun _ _ => True) (lastAt 0 0 pre) (total pre) mid')
    (htotal : total mid' = total mid)
    (hbefore : ∀ o, o < total pre → m'.item o = m.item o)
    (hafter : ∀ o, total pre + total mid < o → m'.item o = m.item o)
    (hpool : (m'.item (total pre + total mid)).poolPtr = (m.item (total pre + total mid)).poolPtr)
    (hnext : (m'.item (total pre + total mid)).next = (m.item (total pre + total mid)).next)
    (hprev : post ≠ [] → (m'.item (total pre + total mid)).prev =
      lastAt (lastAt 0 0 pre) (total pre) mid') :
    m'.Blocks (pre ++ (mid' ++ post)) where
  laid := by
    rw [← Nat.zero_add (total pre)] at hmid hbefore hafter hpool hnext hprev
    rw [hsame.addr]
    exact laid_rewrite h.laid hmid htotal hbefore hafter hpool hnext hprev
  total_eq := by
    rw [hsame.heapEnd, ← h.total_eq]
    simp only [total_append, htotal]
  heapEnd := by rw [hsame.heapEnd, hsame.memSizeAligned, h.heapEnd]

/-- The next header points back to the block in front of it. -/
theorem prev_next {b : Block} (h : m.Blocks (pre ++ b :: post)) (hpost : post ≠ []) :
    (m.item (total pre + b.size)).prev = total pre := by
  obtain ⟨c, post, rfl⟩ := List.exists_cons_of_ne_nil hpost
  have hlaid := (laid_split.mp h.laid).2.2.1.prev
  rwa [Nat.zero_add] at hlaid

/-- Marking a block as used or as free. -/
theorem retag {n : Nat} {u : Bool} (h : m.Blocks (pre ++ ⟨n, u⟩ :: post)) (u' : Bool) :
    (m.set (total pre)
      { m.item (total pre) with poolPtr := if u' then memUsed m.addr else memFreed m.addr }).Blocks
      (pre ++ ⟨n, u'⟩ :: post) := by
  have hb := h.header
  have hpos : 0 < n := hb.pos
  refine rewrite [⟨n, u⟩] [⟨n, u'⟩] h ⟨rfl, rfl, rfl, rfl⟩
    ⟨⟨?_, ?_, ?_, hb.size, hb.aligned⟩, trivial⟩ rfl (fun o ho => ?_) (fun o ho => ?_) ?_ ?_
    (fun hpost => ?_)
  · rw [set_item, if_pos rfl]
  · rw [set_item, if_pos rfl, hb.next]
  · rw [set_item, if_pos rfl, hb.prev]
  · rw [set_item, if_neg (by omega)]
  · rw [set_item, if_neg (by omega)]
  · rw [set_item, if_neg (by simp; omega)]
  · rw [set_item, if_neg (by simp; omega)]
  · rw [set_item, if_neg (by simp; omega)]
    exact h.prev_next hpost

/-- Combining two neighbours. -/
theorem combine {k n : Nat} {u v : Bool} (h : m.Blocks (pre ++ ⟨k, u⟩ :: ⟨n, v⟩ :: post)) :
    (combine m (total pre) (total pre + k)).Blocks (pre ++ ⟨k + n, u⟩ :: post) := by
  have hk := h.header
  have hn : Header m.addr m.item (total pre) (total pre + k) ⟨n, v⟩ := by
    have hlaid := (laid_split.mp h.laid).2.2.1
    rwa [Nat.zero_add] at hlaid
  have hkpos : 0 < k := hk.pos
  have hnpos : 0 < n := hn.pos
  have hitem := combine_item hn.next (Nat.lt_add_of_pos_right hkpos) (Nat.lt_add_of_pos_right hnpos)
  have htotal : total [⟨k, u⟩, ⟨n, v⟩] = k + n := rfl
  have hsize : sizeofStructMem ≤ k + n := Nat.le_trans hk.size (Nat.le_add_right k n)
  simp only at hitem
  refine rewrite [⟨k, u⟩, ⟨n, v⟩] [⟨k + n, u⟩] h (combine_same m _ _)
    ⟨⟨?_, ?_, ?_, hsize, Nat.dvd_add hk.aligned hn.aligned⟩, trivial⟩ rfl (fun o ho => ?_)
    (fun o ho => ?_) ?_ ?_ (fun _ => ?_)
  · rw [hitem, if_neg (by omega), if_pos rfl]
    exact hk.pool
  · rw [hitem, if_neg (by omega), if_pos rfl, Nat.add_assoc]
  · rw [hitem, if_neg (by omega), if_pos rfl]
    exact hk.prev
  · rw [hitem, if_neg (by omega), if_neg (by omega), if_neg (by omega)]
  · rw [hitem, if_neg (by omega), if_neg (by omega), if_neg (by omega)]
  · rw [hitem, htotal, if_pos (by omega), Nat.add_assoc]
  · rw [hitem, htotal, if_pos (by omega), Nat.add_assoc]
  · rw [hitem, htotal, if_pos (by omega)]
    rfl

/-- Cutting a block in two; the rear one is free. -/
theorem split {size rest : Nat} {u : Bool}
    (h : m.Blocks (pre ++ ⟨sizeofStructMem + size + rest, u⟩ :: post))
    (hsize : rtAlignSize ∣ size) (hrest : sizeofStructMem ≤ rest) :
    (splitBlock m (total pre) size).Blocks
      (pre ++ ⟨sizeofStructMem + size, u⟩ :: ⟨rest, false⟩ :: post) := by
  have hb := h.header
  have hpos : 0 < rest := Nat.lt_of_lt_of_le (by decide) hrest
  have hnext : (m.item (total pre)).next = total pre + sizeofStructMem + size + rest := by
    rw [hb.next]
    simp only [Nat.add_assoc]
  have hitem := splitBlock_item hnext (Nat.lt_add_of_pos_right hpos)
  have haligned : rtAlignSize ∣ sizeofStructMem + size := Nat.dvd_add (by decide) hsize
  have htotal : total pre + total [⟨sizeofStructMem + size + rest, u⟩] =
      total pre + sizeofStructMem + size + rest := by
    simp only [total_cons, total_nil, Nat.add_assoc, Nat.add_zero]
  have hend : post ≠ [] →
      total pre + sizeofStructMem + size + rest ≠ m.memSizeAligned + sizeofStructMem := by
    intro hpost
    obtain ⟨c, post, rfl⟩ := List.exists_cons_of_ne_nil hpost
    have htotal := h.total_eq
    have hc := h.pos c (by simp)
    rw [h.heapEnd, total_append, total_cons, total_cons] at htotal
    simp only at htotal
    omega
  have hlt : 0 < sizeofStructMem := by decide
  -- the header behind is written unless it is that of the end of the heap
  have hseam : (splitBlock m (total pre) size).item (total pre + sizeofStructMem + size + rest) =
        { m.item (total pre + sizeofStructMem + size + rest) with
          prev := total pre + sizeofStructMem + size } ∨
      (splitBlock m (total pre) size).item (total pre + sizeofStructMem + size + rest) =
        m.item (total pre + sizeofStructMem + size + rest) := by
    rw [hitem]
    split
    · exact .inl rfl
    · exact .inr (by rw [if_neg (by omega), if_neg (by omega)])
  refine rewrite [⟨sizeofStructMem + size + rest, u⟩]
    [⟨sizeofStructMem + size, u⟩, ⟨rest, false⟩] h (splitBlock_same m _ _)
    ⟨⟨?_, ?_, ?_, Nat.le_add_right _ _, haligned⟩, ⟨?_, ?_, ?_, hrest, ?_⟩, trivial⟩ rfl
    (fun o ho => ?_) (fun o ho => ?_) ?_ ?_ (fun hpost => ?_)
  · rw [hitem, if_neg (by omega), if_pos rfl]
    exact hb.pool
  · rw [hitem, if_neg (by omega), if_pos rfl, Nat.add_assoc]
  · rw [hitem, if_neg (by omega), if_pos rfl]
    exact hb.prev
  · rw [← Nat.add_assoc, hitem, if_neg (by omega), if_neg (by omega), if_pos rfl]
    rfl
  · rw [← Nat.add_assoc, hitem, if_neg (by omega), if_neg (by omega), if_pos rfl]
  · rw [← Nat.add_assoc, hitem, if_neg (by omega), if_neg (by omega), if_pos rfl]
  · exact (Nat.dvd_add_right haligned).mp hb.aligned
  · rw [hitem, if_neg (by omega), if_neg (by omega), if_neg (by omega)]
  · rw [htotal] at ho
    rw [hitem, if_neg (by omega), if_neg (by omega), if_neg (by omega)]
  · rw [htotal]
    rcases hseam with heq | heq <;> rw [heq]
  · rw [htotal]
    rcases hseam with heq | heq <;> rw [heq]
  · rw [htotal, hitem, if_pos ⟨rfl, hend hpost⟩]
    exact Nat.add_assoc _ _ _

/-- Behind a block stands a used one, the end of the heap or a free block. -/
theorem memIsUsed_next {b : Block} (h : m.Blocks (pre ++ b :: post)) (hpost : StartsUsed post) :
    memIsUsed (m.item (m.item (total pre)).next) := by
  have hlaid := (laid_split.mp h.laid).2.2
  rw [Nat.zero_add] at hlaid
  rw [h.header.next]
  cases post with
  | nil => exact hlaid.memIsUsed
  | cons c post => exact (memIsUsed_iff hlaid.1).mpr (startsUsed_cons.mp hpost)

/-! ### Merging -/

theorem plugForward {n : Nat} (h : m.Blocks (pre ++ ⟨n, false⟩ :: post)) :
    (plugForward m (total pre)).Blocks
        (pre ++ ⟨(mergeRight n post).1, false⟩ :: (mergeRight n post).2) ∧
      (m.lfree ≤ total pre → (Kernel.plugForward m (total pre)).lfree = m.lfree) := by
  rcases mergeRight_cases post with hused | ⟨k, rest, rfl⟩
  · have hstop : Kernel.plugForward m (total pre) = m := by
      exact if_neg fun hcond => hcond.2.1 (h.memIsUsed_next hused)
    rw [hstop, mergeRight_of_startsUsed hused]
    exact ⟨h, fun _ => rfl⟩
  · have hnext := h.header.next
    have hpos : 0 < n := h.header.pos
    have hk : 0 < k := h.pos ⟨k, false⟩ (by simp)
    have hfree : ¬ memIsUsed (m.item (total pre + n)) := by
      have hlaid := (laid_split.mp h.laid).2.2.1
      rw [Nat.zero_add] at hlaid
      exact fun hu => Bool.false_ne_true ((memIsUsed_iff hlaid).mp hu)
    have hend : total pre + n ≠ m.heapEnd := by
      rw [← h.total_eq, total_append, total_cons, total_cons]
      simp only
      omega
    have hgo : Kernel.plugForward m (total pre) =
        Kernel.combine m (total pre) (total pre + n) := by
      simp only [Kernel.plugForward, hnext]
      exact if_pos ⟨by omega, hfree, hend⟩
    rw [hgo]
    exact ⟨h.combine, fun hle => combine_lfree (by omega)⟩

theorem plugBackward {n : Nat} (h : m.Blocks (pre ++ ⟨n, false⟩ :: post)) :
    (plugBackward m (total pre)).Blocks
        ((mergeLeft pre n).1 ++ ⟨(mergeLeft pre n).2, false⟩ :: post) ∧
      (m.lfree = firstFree 0 (pre ++ ⟨n, false⟩ :: post) →
        (Kernel.plugBackward m (total pre)).lfree = m.lfree) := by
  have hprev := h.header.prev
  rcases List.eq_nil_or_concat pre with rfl | ⟨rest, ⟨k, u⟩, rfl⟩
  · have hstop : Kernel.plugBackward m (total []) = m := if_neg fun hcond => hcond.1 hprev
    rw [hstop]
    exact ⟨h, fun _ => rfl⟩
  · rw [List.concat_eq_append] at h hprev ⊢
    rw [lastAt_append_singleton, Nat.zero_add] at hprev
    have hpair : m.Blocks (rest ++ ⟨k, u⟩ :: ⟨n, false⟩ :: post) := by
      rwa [List.append_assoc] at h
    have hpos : 0 < k := hpair.header.pos
    have htotal : total (rest ++ [⟨k, u⟩]) = total rest + k := by simp
    have hused := memIsUsed_iff hpair.header
    cases u with
    | true =>
      have hstop : Kernel.plugBackward m (total (rest ++ [⟨k, true⟩])) = m := by
        refine if_neg fun hcond => hcond.2 ?_
        rw [hprev]
        exact hused.mpr rfl
      rw [hstop, mergeLeft_of_endsUsed (endsUsed_append_singleton.mpr rfl)]
      exact ⟨h, fun _ => rfl⟩
    | false =>
      have hgo : Kernel.plugBackward m (total (rest ++ [⟨k, false⟩])) =
          Kernel.combine m (total rest) (total rest + k) := by
        rw [htotal] at hprev ⊢
        simp only [Kernel.plugBackward, hprev]
        exact if_pos ⟨by omega, fun hu => Bool.false_ne_true (hused.mp hu)⟩
      rw [hgo, mergeLeft_append_free]
      refine ⟨hpair.combine, fun hlfree => combine_lfree ?_⟩
      have hle := firstFree_le 0 k rest (⟨n, false⟩ :: post)
      rw [hlfree, List.append_assoc]
      simp only [List.singleton_append]
      omega

/-- `plug_holes` leaves the blocks as freeing one of them does, and `lfree` alone. -/
theorem plugHoles {n : Nat} (h : m.Blocks (pre ++ ⟨n, false⟩ :: post))
    (hlfree : m.lfree = firstFree 0 (pre ++ ⟨n, false⟩ :: post)) :
    (plugHoles m (total pre)).Blocks (freeAt pre n post) ∧
      (Kernel.plugHoles m (total pre)).lfree = m.lfree := by
  obtain ⟨hforward, hkeep⟩ := h.plugForward
  obtain ⟨hblocks, hkeep'⟩ := hforward.plugBackward
  have hle := firstFree_le 0 n pre post
  rw [Nat.zero_add, ← hlfree] at hle
  refine ⟨hblocks, (hkeep' ?_).trans (hkeep hle)⟩
  rw [hkeep hle, hlfree]
  exact (firstFree_mergeRight 0 pre post n).symm

/-! ### Searching -/

theorem length_lt_fuel (h : m.Blocks (pre ++ post)) : post.length < m.fuel := by
  have hlen := length_le_total h.pos
  rw [h.total_eq, List.length_append] at hlen
  unfold fuel
  omega

/-- The loop of `rt_smem_alloc` that moves `lfree` on finds the first free block. -/
theorem nextFree_eq {fuel : Nat} (h : m.Blocks (pre ++ post)) (hfuel : post.length < fuel) :
    nextFree m fuel (total pre) = firstFree (total pre) post := by
  induction fuel generalizing pre post with
  | zero => exact absurd hfuel (Nat.not_lt_zero _)
  | succ fuel ih =>
    cases post with
    | nil =>
      rw [List.append_nil] at h
      exact if_neg fun hcond => hcond.2 h.total_eq
    | cons b post =>
      have hpos := h.header.pos
      have hused := memIsUsed_iff h.header
      have hend : total pre ≠ m.heapEnd := by
        rw [← h.total_eq, total_append, total_cons]
        omega
      have happend : m.Blocks ((pre ++ [b]) ++ post) := by
        rwa [List.append_assoc]
      have hnext : (m.item (total pre)).next = total (pre ++ [b]) := by
        rw [h.header.next, total_append, total_cons, total_nil, Nat.add_zero]
      rcases b with ⟨k, _ | _⟩
      · exact if_neg fun hcond => Bool.false_ne_true (hused.mp hcond.1)
      · rw [nextFree, if_pos ⟨hused.mpr rfl, hend⟩, hnext,
          ih happend (Nat.lt_of_succ_lt_succ hfuel), firstFree_cons_used, total_append,
          total_cons, total_nil, Nat.add_zero]

/-- What the search of `rt_smem_alloc` finds is a free block that is large enough. -/
theorem findFit_some {size fuel ptr : Nat} (h : m.Blocks (pre ++ post))
    (hfind : findFit m size fuel (total pre) = some ptr) :
    ∃ front k back, pre ++ post = front ++ ⟨k, false⟩ :: back ∧ ptr = total front ∧
      sizeofStructMem + size ≤ k := by
  induction fuel generalizing pre post with
  | zero => cases hfind
  | succ fuel ih =>
    rw [findFit] at hfind
    split at hfind
    · rename_i hle
      cases post with
      | nil =>
        rw [List.append_nil] at h
        rw [h.total_eq, h.heapEnd] at hle
        simp only [sizeofStructMem] at hle
        omega
      | cons b post =>
        have happend : m.Blocks ((pre ++ [b]) ++ post) := by
          rwa [List.append_assoc]
        have hnext : (m.item (total pre)).next = total (pre ++ [b]) := by
          rw [h.header.next, total_append, total_cons, total_nil, Nat.add_zero]
        split at hfind
        · rename_i hfit
          obtain rfl := Option.some.inj hfind
          rcases b with ⟨k, _ | _⟩
          · refine ⟨pre, k, post, rfl, rfl, ?_⟩
            have hk : sizeofStructMem ≤ k := h.header.size
            have hsize := hfit.2
            rw [h.header.next] at hsize
            simp only at hsize
            omega
          · exact absurd ((memIsUsed_iff h.header).mpr rfl) hfit.1
        · rw [hnext] at hfind
          obtain ⟨front, k, back, heq, hptr, hk⟩ := ih happend hfind
          exact ⟨front, k, back, by rw [← heq, List.append_assoc]; rfl, hptr, hk⟩
    · cases hfind

/-- The search gives up only when no free block from there on is large enough. -/
theorem findFit_none {size fuel : Nat} (h : m.Blocks (pre ++ post)) (hfuel : post.length < fuel)
    (hfind : findFit m size fuel (total pre) = none) :
    ∀ b ∈ post, b.used = false → b.size < sizeofStructMem + size := by
  induction fuel generalizing pre post with
  | zero => exact absurd hfuel (Nat.not_lt_zero _)
  | succ fuel ih =>
    cases post with
    | nil => exact fun b hb => absurd hb List.not_mem_nil
    | cons b post =>
      have happend : m.Blocks ((pre ++ [b]) ++ post) := by
        rwa [List.append_assoc]
      have hnext : (m.item (total pre)).next = total (pre ++ [b]) := by
        rw [h.header.next, total_append, total_cons, total_nil, Nat.add_zero]
      have htotal := h.total_eq
      rw [h.heapEnd, total_append, total_cons] at htotal
      rw [findFit] at hfind
      split at hfind
      · rename_i hle
        split at hfind
        · cases hfind
        · rename_i hfit
          rw [hnext] at hfind
          intro c hc hfree
          rcases List.mem_cons.mp hc with rfl | hc
          · have hnot : ¬ memIsUsed (m.item (total pre)) := fun hu =>
              Bool.false_ne_true (hfree.symm.trans ((memIsUsed_iff h.header).mp hu))
            have hsmall : ¬ total pre + c.size - (total pre + sizeofStructMem) ≥ size := by
              rw [← h.header.next]
              exact fun hge => hfit ⟨hnot, hge⟩
            have hsize := h.header.size
            omega
          · exact ih happend (Nat.lt_of_succ_lt_succ hfuel) hfind c hc hfree
      · rename_i hgt
        have hle : ∀ c ∈ b :: post, c.size ≤ b.size + total post := by
          intro c hc
          obtain ⟨front, back, heq⟩ := List.append_of_mem hc
          have hsum := congrArg total heq
          rw [total_cons, total_append, total_cons] at hsum
          omega
        intro c hc _
        have hc := hle c hc
        omega

end RtSmallMem.Blocks

theorem plugHoles_same (m : RtSmallMem) (mem : Nat) : SameHeap m (plugHoles m mem) := by
  have hforward : SameHeap m (plugForward m mem) := by
    simp only [plugForward]
    split
    · exact combine_same m _ _
    · exact .refl m
  refine hforward.trans ?_
  simp only [plugHoles, plugBackward]
  split
  · exact combine_same _ _ _
  · exact .refl _

theorem plugHoles_used (m : RtSmallMem) (mem : Nat) :
    (plugHoles m mem).used = m.used ∧ (plugHoles m mem).max = m.max := by
  have hforward : (plugForward m mem).used = m.used ∧ (plugForward m mem).max = m.max := by
    simp only [plugForward]
    split
    · exact combine_used m _ _
    · exact ⟨rfl, rfl⟩
  rw [← hforward.1, ← hforward.2]
  simp only [plugHoles, plugBackward]
  split
  · exact combine_used _ _ _
  · exact ⟨rfl, rfl⟩

/-! ## What a call does to the blocks -/

/-- The control structure agrees with the blocks. -/
structure SmemRep (m : RtSmallMem) (bs : List Block) : Prop where
  blocks : m.Blocks bs
  coalesced : Coalesced bs
  lfree : m.lfree = firstFree 0 bs
  used : m.used = usedSize bs
  max : m.used ≤ m.max

theorem RtSmallMem.Blocks.congr {m m' : RtSmallMem} {bs : List Block} (h : m.Blocks bs)
    (hsame : SameHeap m m') (hitem : m'.item = m.item) : m'.Blocks bs where
  laid := by
    rw [hsame.addr, hitem]
    exact h.laid
  total_eq := h.total_eq.trans hsame.heapEnd.symm
  heapEnd := by rw [hsame.heapEnd, hsame.memSizeAligned, h.heapEnd]

/-! ### `rt_smem_alloc` -/

theorem addUsed_used_le (m : RtSmallMem) (n : Nat) : (addUsed m n).used ≤ (addUsed m n).max := by
  simp only [addUsed]
  split <;> omega

theorem markUsed_same (m : RtSmallMem) (ptr : Nat) : SameHeap m (markUsed m ptr) := by
  simp only [markUsed]
  split <;> exact ⟨rfl, rfl, rfl, rfl⟩

theorem markUsed_used (m : RtSmallMem) (ptr : Nat) :
    (markUsed m ptr).used = m.used ∧ (markUsed m ptr).max = m.max := by
  simp only [markUsed]
  split <;> exact ⟨rfl, rfl⟩

/-- The block at `ptr` is used now, and `lfree` is at the lowest free block again. -/
theorem markUsed_spec {m : RtSmallMem} {pre post : List Block} {n : Nat}
    (h : m.Blocks (pre ++ ⟨n, false⟩ :: post))
    (hlfree : m.lfree = firstFree 0 (pre ++ ⟨n, false⟩ :: post)) :
    (markUsed m (total pre)).Blocks (pre ++ ⟨n, true⟩ :: post) ∧
      (markUsed m (total pre)).lfree = firstFree 0 (pre ++ ⟨n, true⟩ :: post) := by
  let marked := m.set (total pre) { m.item (total pre) with poolPtr := memUsed m.addr }
  have hmarked : marked.Blocks (pre ++ ⟨n, true⟩ :: post) := h.retag true
  have hsize : ∀ b ∈ pre, 0 < b.size := fun b hb => h.pos b (List.mem_append_left _ hb)
  rcases firstFree_append (s := 0) hsize with hrest | ⟨o, ho, hfront⟩
  · have hhere : total pre = m.lfree := by
      rw [hlfree, hrest, firstFree_cons_free, Nat.zero_add]
    have heq : markUsed m (total pre) =
        { marked with lfree := nextFree marked marked.fuel m.lfree } := if_pos hhere
    rw [heq]
    refine ⟨hmarked.congr ⟨rfl, rfl, rfl, rfl⟩ rfl, ?_⟩
    rw [hrest, Nat.zero_add, ← hmarked.nextFree_eq hmarked.length_lt_fuel, hhere]
  · have hnot : ¬ total pre = m.lfree := by
      rw [hlfree, hfront]
      omega
    have heq : markUsed m (total pre) = marked := if_neg hnot
    rw [heq]
    refine ⟨hmarked, ?_⟩
    rw [hfront, ← hfront (⟨n, false⟩ :: post), ← hlfree]
    rfl

/-- `takeBlock` uses the front of a free block that is large enough, or the whole of it. -/
theorem SmemRep.take {m : RtSmallMem} {pre post : List Block} {k size : Nat}
    (h : SmemRep m (pre ++ ⟨k, false⟩ :: post)) (hk : sizeofStructMem + size ≤ k)
    (hsize : rtAlignSize ∣ size) :
    ∃ n rest, sizeofStructMem + size ≤ n ∧ (rest = [] ∨ ∃ r, rest = [⟨r, false⟩]) ∧
      n + total rest = k ∧
      SmemRep (takeBlock m (total pre) size) (pre ++ ⟨n, true⟩ :: (rest ++ post)) := by
  obtain ⟨hpre, hpost, hedges⟩ := coalesced_split.mp h.coalesced
  obtain ⟨hends, hstarts⟩ := hedges.resolve_left Bool.false_ne_true
  have hnext := h.blocks.header.next
  simp only at hnext
  by_cases hsplit : k - sizeofStructMem ≥ size + sizeofStructMem + minSizeAligned
  · obtain ⟨r, rfl⟩ : ∃ r, k = sizeofStructMem + size + r :=
      ⟨k - (sizeofStructMem + size), by omega⟩
    have hr : sizeofStructMem ≤ r := by
      simp only [sizeofStructMem, minSizeAligned] at hsplit ⊢
      omega
    have htake : takeBlock m (total pre) size =
        markUsed (addUsed (splitBlock m (total pre) size) (size + sizeofStructMem))
          (total pre) := by
      refine if_pos ?_
      rw [hnext]
      omega
    have hblocks : (addUsed (splitBlock m (total pre) size) (size + sizeofStructMem)).Blocks
        (pre ++ ⟨sizeofStructMem + size, false⟩ :: ⟨r, false⟩ :: post) :=
      (h.blocks.split hsize hr).congr ⟨rfl, rfl, rfl, rfl⟩ rfl
    obtain ⟨hused, -, hlfree⟩ := splitBlock_rest m (total pre) size
    obtain ⟨hmarked, hlfree'⟩ := markUsed_spec hblocks (by
      rw [← firstFree_merge, ← h.lfree]
      exact hlfree)
    obtain ⟨hused', hmax'⟩ := markUsed_used
      (addUsed (splitBlock m (total pre) size) (size + sizeofStructMem)) (total pre)
    refine ⟨sizeofStructMem + size, [⟨r, false⟩], Nat.le_refl _, .inr ⟨r, rfl⟩, rfl, ?_⟩
    rw [htake]
    refine ⟨hmarked, ?_, hlfree', ?_, ?_⟩
    · have hrest : Coalesced ([] ++ ⟨r, false⟩ :: post) :=
        coalesced_split.mpr ⟨coalesced_nil, hpost, .inr ⟨endsUsed_nil, hstarts⟩⟩
      exact coalesced_split.mpr ⟨hpre, hrest, .inl rfl⟩
    · have hold := h.used
      simp only [usedSize_append, usedSize_cons, usedSize_nil, Bool.false_eq_true, if_false,
        if_true] at hold ⊢
      rw [hused', addUsed, hused]
      simp only
      omega
    · rw [hused', hmax']
      exact addUsed_used_le _ _
  · have htake : takeBlock m (total pre) size =
        markUsed (addUsed m ((m.item (total pre)).next - total pre)) (total pre) := by
      refine if_neg ?_
      rw [hnext]
      omega
    have hblocks : (addUsed m ((m.item (total pre)).next - total pre)).Blocks
        (pre ++ ⟨k, false⟩ :: post) := h.blocks.congr ⟨rfl, rfl, rfl, rfl⟩ rfl
    obtain ⟨hmarked, hlfree⟩ := markUsed_spec hblocks h.lfree
    obtain ⟨hused, hmax⟩ :=
      markUsed_used (addUsed m ((m.item (total pre)).next - total pre)) (total pre)
    refine ⟨k, [], hk, .inl rfl, rfl, ?_⟩
    rw [htake]
    refine ⟨hmarked, coalesced_split.mpr ⟨hpre, hpost, .inl rfl⟩, hlfree, ?_, ?_⟩
    · have hold := h.used
      simp only [usedSize_append, usedSize_cons, List.nil_append, Bool.false_eq_true, if_false,
        if_true] at hold ⊢
      rw [hused, addUsed, hnext]
      simp only
      omega
    · rw [hused, hmax]
      exact addUsed_used_le _ _

theorem allocSize_dvd (size : Nat) : rtAlignSize ∣ allocSize size := by
  unfold allocSize
  split
  · decide
  · exact rtAlign_dvd size

/-- `rt_smem_alloc` finds no block, or it uses one that holds what was asked for. -/
theorem SmemRep.alloc {m : RtSmallMem} {bs : List Block} (h : SmemRep m bs) (size : Nat) :
    rtSmemAlloc m size = (none, m) ∨
      ∃ pre k post n rest, bs = pre ++ ⟨k, false⟩ :: post ∧
        sizeofStructMem + allocSize size ≤ n ∧ (rest = [] ∨ ∃ r, rest = [⟨r, false⟩]) ∧
        n + total rest = k ∧
        (rtSmemAlloc m size).1 = some (total pre + sizeofStructMem) ∧
        SmemRep (rtSmemAlloc m size).2 (pre ++ ⟨n, true⟩ :: (rest ++ post)) := by
  obtain ⟨front, back, rfl, hfirst, -⟩ := firstFree_split 0 bs
  have hlfree : m.lfree = total front := by rw [h.lfree, hfirst, Nat.zero_add]
  unfold rtSmemAlloc
  split
  · exact .inl rfl
  · split
    · exact .inl rfl
    · cases hfind : findFit m (allocSize size) m.fuel m.lfree with
      | none => exact .inl rfl
      | some ptr =>
        rw [hlfree] at hfind
        obtain ⟨pre, k, post, heq, rfl, hk⟩ := h.blocks.findFit_some hfind
        rw [heq] at h ⊢
        obtain ⟨n, rest, hn, hrest, htotal, hrep⟩ := h.take hk (allocSize_dvd size)
        exact .inr ⟨pre, k, post, n, rest, rfl, hn, hrest, htotal, rfl, hrep⟩

/-- It fails exactly when nothing is asked for or no free block has the room. -/
theorem rtSmemAlloc_eq_none_iff {m : RtSmallMem} {bs : List Block} (h : SmemRep m bs)
    (size : Nat) :
    (rtSmemAlloc m size).1 = none ↔
      size = 0 ∨ ∀ b ∈ bs, b.used = false → b.size < sizeofStructMem + allocSize size := by
  obtain ⟨front, back, rfl, hfirst, hfront⟩ := firstFree_split 0 bs
  have hlfree : m.lfree = total front := by rw [h.lfree, hfirst, Nat.zero_add]
  unfold rtSmemAlloc
  by_cases hzero : size = 0
  · simp [hzero]
  · rw [if_neg hzero]
    split
    · rename_i hlarge
      refine iff_of_true rfl (.inr fun b hb _ => ?_)
      have hle := size_le_total hb
      rw [h.blocks.total_eq, h.blocks.heapEnd] at hle
      omega
    · cases hfind : findFit m (allocSize size) m.fuel m.lfree with
      | none =>
        rw [hlfree] at hfind
        refine iff_of_true rfl (.inr fun b hb hfree => ?_)
        rcases List.mem_append.mp hb with hb | hb
        · exact absurd ((hfront b hb).symm.trans hfree) Bool.noConfusion
        · exact h.blocks.findFit_none h.blocks.length_lt_fuel hfind b hb hfree
      | some ptr =>
        rw [hlfree] at hfind
        obtain ⟨pre, k, post, heq, -, hk⟩ := h.blocks.findFit_some hfind
        refine iff_of_false (Option.some_ne_none _) ?_
        rintro (hsize | hnone)
        · exact hzero hsize
        · have hlt := hnone ⟨k, false⟩ (heq ▸ List.mem_append_right pre List.mem_cons_self) rfl
          exact absurd hk (Nat.not_le_of_lt hlt)

/-! ### `rt_smem_free` -/

theorem SmemRep.free {m : RtSmallMem} {pre post : List Block} {n : Nat}
    (h : SmemRep m (pre ++ ⟨n, true⟩ :: post)) :
    SmemRep (rtSmemFree m (some (total pre + sizeofStructMem))) (freeAt pre n post) := by
  obtain ⟨hpre, hpost, -⟩ := coalesced_split.mp h.coalesced
  have hnext := h.blocks.header.next
  have hpos : 0 < n := h.blocks.header.pos
  have hsize : ∀ b ∈ pre, 0 < b.size := fun b hb => h.blocks.pos b (List.mem_append_left _ hb)
  let freed : RtSmallMem :=
    { m with
      item := (m.set (total pre) { m.item (total pre) with poolPtr := memFreed m.addr }).item
      lfree := if total pre < m.lfree then total pre else m.lfree
      used := m.used - n }
  have hfreed : rtSmemFree m (some (total pre + sizeofStructMem)) =
      plugHoles freed (total pre) := by
    simp only [rtSmemFree, Nat.add_sub_cancel, freed]
    by_cases hlow : total pre < m.lfree <;> simp [RtSmallMem.set, hnext, hlow]
  have hblocks : freed.Blocks (pre ++ ⟨n, false⟩ :: post) :=
    (h.blocks.retag false).congr ⟨rfl, rfl, rfl, rfl⟩ rfl
  have hlfree : freed.lfree = firstFree 0 (pre ++ ⟨n, false⟩ :: post) := by
    have hlower := firstFree_lower 0 (x := total pre) (⟨n, true⟩ :: post) (⟨n, false⟩ :: post)
      hsize (by rw [firstFree_cons_free, Nat.zero_add]) (by
        have hle := le_firstFree (0 + total pre + n) post
        rw [firstFree_cons_used]
        omega)
    rw [← h.lfree] at hlower
    exact hlower
  obtain ⟨hplug, hkeep⟩ := hblocks.plugHoles hlfree
  obtain ⟨hused, hmax⟩ := plugHoles_used freed (total pre)
  have hold := h.used
  have hle := h.max
  simp only [usedSize_append, usedSize_cons, if_true] at hold
  rw [hfreed]
  refine ⟨hplug, coalesced_freeAt n hpre hpost, ?_, ?_, ?_⟩
  · rw [hkeep, hlfree, firstFree_freeAt]
  · rw [hused, usedSize_freeAt, usedSize_append, usedSize_cons]
    simp only [freed, Bool.false_eq_true, if_false]
    omega
  · rw [hused, hmax]
    simp only [freed]
    omega

/-! ### `rt_smem_realloc` -/

theorem SmemRep.shrink {m : RtSmallMem} {pre post : List Block} {newsize rest : Nat}
    (h : SmemRep m (pre ++ ⟨sizeofStructMem + newsize + rest, true⟩ :: post))
    (hnewsize : rtAlignSize ∣ newsize) (hrest : sizeofStructMem ≤ rest) :
    SmemRep (shrinkBlock m (total pre) (newsize + rest) newsize)
      (freeAt (pre ++ [⟨sizeofStructMem + newsize, true⟩]) rest post) := by
  obtain ⟨hpre, hpost, -⟩ := coalesced_split.mp h.coalesced
  have hpos : 0 < rest := Nat.lt_of_lt_of_le (by decide) hrest
  have hsize : ∀ b ∈ pre, 0 < b.size := fun b hb => h.blocks.pos b (List.mem_append_left _ hb)
  have hptr2 : total (pre ++ [⟨sizeofStructMem + newsize, true⟩]) =
      total pre + sizeofStructMem + newsize := by
    simp only [total_append, total_cons, total_nil, Nat.add_zero, Nat.add_assoc]
  let less : RtSmallMem := { m with used := m.used - (newsize + rest - newsize) }
  have hsplit : (splitBlock less (total pre) newsize).Blocks
      (pre ++ ⟨sizeofStructMem + newsize, true⟩ :: ⟨rest, false⟩ :: post) :=
    RtSmallMem.Blocks.split (h.blocks.congr ⟨rfl, rfl, rfl, rfl⟩ rfl) hnewsize hrest
  obtain ⟨hused, hmax, hkept⟩ := splitBlock_rest less (total pre) newsize
  let low : RtSmallMem :=
    { splitBlock less (total pre) newsize with
      lfree :=
        if total pre + sizeofStructMem + newsize < (splitBlock less (total pre) newsize).lfree
        then total pre + sizeofStructMem + newsize
        else (splitBlock less (total pre) newsize).lfree }
  have hlow : shrinkBlock m (total pre) (newsize + rest) newsize =
      plugHoles low (total (pre ++ [⟨sizeofStructMem + newsize, true⟩])) := by
    rw [hptr2]
    simp only [shrinkBlock, low, less]
    split <;> rfl
  have hblocks : low.Blocks
      ((pre ++ [⟨sizeofStructMem + newsize, true⟩]) ++ ⟨rest, false⟩ :: post) := by
    rw [List.append_assoc]
    exact hsplit.congr ⟨rfl, rfl, rfl, rfl⟩ rfl
  have hlfree : low.lfree =
      firstFree 0 ((pre ++ [⟨sizeofStructMem + newsize, true⟩]) ++ ⟨rest, false⟩ :: post) := by
    have hlower := firstFree_lower 0 (x := total pre + sizeofStructMem + newsize)
      (⟨sizeofStructMem + newsize + rest, true⟩ :: post)
      (⟨sizeofStructMem + newsize, true⟩ :: ⟨rest, false⟩ :: post) hsize (by
        rw [firstFree_cons_used, firstFree_cons_free, Nat.zero_add, Nat.add_assoc]) (by
        have hle := le_firstFree (0 + total pre + (sizeofStructMem + newsize + rest)) post
        rw [firstFree_cons_used]
        omega)
    rw [← h.lfree] at hlower
    rw [List.append_assoc]
    simp only [low, hkept]
    exact hlower
  obtain ⟨hplug, hkeep⟩ := hblocks.plugHoles hlfree
  obtain ⟨hplugUsed, hplugMax⟩ :=
    plugHoles_used low (total (pre ++ [⟨sizeofStructMem + newsize, true⟩]))
  have hold := h.used
  have hle := h.max
  simp only [usedSize_append, usedSize_cons, if_true] at hold
  rw [hlow]
  refine ⟨hplug, coalesced_freeAt rest ?_ hpost, ?_, ?_, ?_⟩
  · exact coalesced_split.mpr ⟨hpre, coalesced_nil, .inl rfl⟩
  · rw [hkeep, hlfree, firstFree_freeAt]
  · rw [hplugUsed, usedSize_freeAt]
    simp only [low, hused, less, usedSize_append, usedSize_cons, usedSize_nil, if_true,
      Bool.false_eq_true, if_false]
    omega
  · rw [hplugUsed, hplugMax]
    simp only [low, hused, hmax, less]
    omega

/-! ### What a call leaves alone -/

theorem takeBlock_same (m : RtSmallMem) (ptr size : Nat) : SameHeap m (takeBlock m ptr size) := by
  unfold takeBlock
  split
  · have hsplit := splitBlock_same m ptr size
    have hadd : SameHeap (splitBlock m ptr size)
        (addUsed (splitBlock m ptr size) (size + sizeofStructMem)) := ⟨rfl, rfl, rfl, rfl⟩
    exact (hsplit.trans hadd).trans (markUsed_same _ ptr)
  · have hadd : SameHeap m (addUsed m ((m.item ptr).next - ptr)) := ⟨rfl, rfl, rfl, rfl⟩
    exact hadd.trans (markUsed_same _ ptr)

theorem rtSmemAlloc_same (m : RtSmallMem) (size : Nat) : SameHeap m (rtSmemAlloc m size).2 := by
  unfold rtSmemAlloc
  split
  · exact .refl m
  · split
    · exact .refl m
    · split
      · exact .refl m
      · exact takeBlock_same m _ _

theorem rtSmemFree_same (m : RtSmallMem) (rmem : Option Nat) :
    SameHeap m (rtSmemFree m rmem) := by
  cases rmem with
  | none => exact .refl m
  | some p =>
    simp only [rtSmemFree]
    refine SameHeap.trans ?_ (plugHoles_same _ _)
    split <;> exact ⟨rfl, rfl, rfl, rfl⟩

theorem shrinkBlock_same (m : RtSmallMem) (ptr size newsize : Nat) :
    SameHeap m (shrinkBlock m ptr size newsize) := by
  have hsplit := splitBlock_same { m with used := m.used - (size - newsize) } ptr newsize
  have hless : SameHeap m { m with used := m.used - (size - newsize) } := ⟨rfl, rfl, rfl, rfl⟩
  simp only [shrinkBlock]
  refine SameHeap.trans ?_ (plugHoles_same _ _)
  refine (hless.trans hsplit).trans ?_
  split <;> exact ⟨rfl, rfl, rfl, rfl⟩

theorem rtSmemRealloc_same (m : RtSmallMem) (rmem : Option Nat) (newsize : Nat) :
    SameHeap m (rtSmemRealloc m rmem newsize).2 := by
  have halloc := rtSmemAlloc_same m (rtAlign newsize)
  simp only [rtSmemRealloc]
  split
  · exact .refl m
  · split
    · exact rtSmemFree_same m rmem
    · cases rmem with
      | none => exact halloc
      | some p =>
        simp only
        split
        · exact .refl m
        · split
          · exact shrinkBlock_same m _ _ _
          · split
            · rename_i q m' hresult
              rw [hresult] at halloc
              have hfree := rtSmemFree_same m' (some p)
              exact SameHeap.trans halloc hfree
            · rename_i m' hresult
              rw [hresult] at halloc
              exact halloc

/-! ## Runs -/

/-- The three calls; `rt_smem_realloc` gives the block back for an aligned size of 0. -/
def smemOps : HeapOps RtSmallMem where
  alloc := rtSmemAlloc
  realloc := rtSmemRealloc
  free := rtSmemFree
  gives newsize := rtAlign newsize = 0

/-- The heap under its callers. -/
abbrev smem : Machine (HeapSys RtSmallMem) HeapCall := smemOps.machine

/-- The live pointers are those of the used blocks. -/
abbrev SmemLive (m : RtSmallMem) (live : List Nat) : Prop :=
  LiveBlocks SmemRep sizeofStructMem m live

theorem smemRep_pos (m : RtSmallMem) (bs : List Block) (h : SmemRep m bs) :
    ∀ b ∈ bs, 0 < b.size := h.blocks.pos

theorem smemLive_alloc {m : RtSmallMem} {live : List Nat} (h : SmemLive m live) (size : Nat) :
    SmemLive (rtSmemAlloc m size).2 (handOut live (rtSmemAlloc m size).1) := by
  obtain ⟨bs, hrep, hlive⟩ := h
  rcases hrep.alloc size with hnone | ⟨pre, k, post, n, rest, rfl, -, hrest, rfl, hptr, hrep'⟩
  · rw [hnone]
    exact ⟨bs, hrep, hlive⟩
  · rw [hptr, handOut]
    exact .take hlive hrest hrep'

theorem smemLive_free {m : RtSmallMem} {live : List Nat} (h : SmemLive m live) {p : Nat}
    (hp : p ∈ live) : SmemLive (rtSmemFree m (some p)) (live.erase p) := by
  obtain ⟨bs, hrep, hlive⟩ := h
  obtain ⟨pre, n, post, rfl, rfl⟩ := exists_block hlive hp
  exact .release hlive hrep.free

/-- What is left of a block that is shrunk has room for a header and more. -/
theorem smemLive_shrink {m : RtSmallMem} {live : List Nat} (h : SmemLive m live) {p : Nat}
    (hp : p ∈ live) {size newsize : Nat}
    (hsize : (m.item (p - sizeofStructMem)).next - (p - sizeofStructMem) - sizeofStructMem = size)
    (hnewsize : rtAlignSize ∣ newsize) (hlt : newsize + sizeofStructMem + minSize < size) :
    SmemLive (shrinkBlock m (p - sizeofStructMem) size newsize) live := by
  obtain ⟨bs, hrep, hlive⟩ := h
  obtain ⟨pre, n, post, rfl, rfl⟩ := exists_block hlive hp
  have hnext : (m.item (total pre)).next = total pre + n := hrep.blocks.header.next
  have haligned : rtAlignSize ∣ n := hrep.blocks.header.aligned
  rw [Nat.add_sub_cancel, hnext] at hsize
  obtain ⟨rest, rfl, hrest⟩ : ∃ rest, n = sizeofStructMem + newsize + rest ∧
      sizeofStructMem ≤ rest := by
    refine ⟨n - (sizeofStructMem + newsize), by omega, ?_⟩
    simp only [sizeofStructMem, minSize, rtAlignSize] at *
    omega
  obtain rfl : newsize + rest = size := by omega
  rw [Nat.add_sub_cancel]
  exact .cut hlive (hrep.shrink hnewsize hrest)

theorem smemLive_realloc {m : RtSmallMem} {live : List Nat} (h : SmemLive m live)
    {rmem : Option Nat} (hp : IsLive live rmem) (newsize : Nat) :
    SmemLive (rtSmemRealloc m rmem newsize).2
      (afterRealloc live rmem (smemOps.gives newsize) (rtSmemRealloc m rmem newsize).1) := by
  have hgives : smemOps.gives newsize = decide (rtAlign newsize = 0) := rfl
  rw [hgives]
  unfold rtSmemRealloc
  by_cases hlarge : rtAlign newsize > m.memSizeAligned
  · have hne : rtAlign newsize ≠ 0 := by omega
    rw [if_pos hlarge, afterRealloc, decide_eq_false hne]
    exact h
  · rw [if_neg hlarge]
    by_cases hzero : rtAlign newsize = 0
    · rw [if_pos hzero, afterRealloc, decide_eq_true hzero]
      cases rmem with
      | none => exact h
      | some p => exact smemLive_free h (hp p rfl)
    · rw [if_neg hzero, decide_eq_false hzero]
      have halloc := smemLive_alloc h (rtAlign newsize)
      cases rmem with
      | none =>
        simp only
        cases hresult : (rtSmemAlloc m (rtAlign newsize)).1 with
        | none =>
          rw [hresult] at halloc
          exact halloc
        | some p =>
          rw [hresult] at halloc
          exact halloc
      | some p =>
        have hmem := hp p rfl
        simp only
        split
        · exact h.perm (List.perm_cons_erase hmem).symm
        · split
          · rename_i hlt
            have hshrink := smemLive_shrink h hmem rfl (rtAlign_dvd newsize) hlt
            exact hshrink.perm (List.perm_cons_erase hmem).symm
          · split
            · rename_i q m' hresult
              rw [hresult] at halloc
              exact halloc.move smemRep_pos hmem fun h hp => smemLive_free h hp
            · rename_i m' hresult
              rw [hresult] at halloc
              exact halloc

theorem smemLive_step {s s' : HeapSys RtSmallMem} {call : HeapCall}
    (hstep : smem.step s call = some s') (h : SmemLive s.heap s.live) :
    SmemLive s'.heap s'.live :=
  HeapOps.step_invariant hstep h (fun size _ => smemLive_alloc h size)
    (fun _ newsize _ hp => smemLive_realloc h hp newsize) (fun _ _ hp => smemLive_free h hp) rfl

theorem smem_step_same {s s' : HeapSys RtSmallMem} {call : HeapCall}
    (hstep : smem.step s call = some s') : SameHeap s.heap s'.heap :=
  HeapOps.step_invariant (I := fun m _ => SameHeap s.heap m) hstep (.refl s.heap)
    (fun size _ => rtSmemAlloc_same s.heap size)
    (fun rmem newsize _ _ => rtSmemRealloc_same s.heap rmem newsize)
    (fun p _ _ => rtSmemFree_same s.heap (some p)) rfl

/-- Runs keep the blocks and the live pointers together, and where the heap lies. -/
theorem smemLive_run {init : RtSmallMem} {calls : List HeapCall} {s : HeapSys RtSmallMem}
    (hstart : SmemLive init []) (run : smem.Run Machine.anyStep ⟨init, []⟩ calls s) :
    SmemLive s.heap s.live ∧ SameHeap init s.heap :=
  run.invariant (I := fun s => SmemLive s.heap s.live ∧ SameHeap init s.heap)
    (fun _ _ _ _ hstep h => ⟨smemLive_step hstep h.1, h.2.trans (smem_step_same hstep)⟩)
    ⟨hstart, .refl init⟩

/-! ## The invariant -/

/-- Where the region of a live pointer ends. -/
def regionEnd (m : RtSmallMem) (p : Nat) : Nat := (m.item (p - sizeofStructMem)).next

/-- `walk` lists the blocks in front of `heap_end` as `next` visits them from `heap_ptr` on,
and the control structure and the live pointers agree with it. -/
structure SmemInvariant (m : RtSmallMem) (live walk : List Nat) : Prop where
  start : (walk ++ [m.heapEnd]).head? = some 0
  next : (walk ++ [m.heapEnd]).IsChain fun o o' => (m.item o).next = o' ∧ o < o'
  prev : walk.IsChain fun o o' => (m.item o').prev = o
  coalesced : walk.IsChain fun o o' => memIsUsed (m.item o) ∨ memIsUsed (m.item o')
  lfree : m.lfree = (walk.filter fun o => ¬ memIsUsed (m.item o)).headD m.heapEnd
  handedOut : live.Perm ((walk.filter fun o => memIsUsed (m.item o)).map (· + sizeofStructMem))
  regions : LiveRegions sizeofStructMem rtAlignSize m.heapPtr m.heapEnd (regionEnd m) live
  used : m.used = ((walk.filter fun o => memIsUsed (m.item o)).map fun o => (m.item o).next - o).sum
  max : m.used ≤ m.max

theorem SmemRep.invariant {m : RtSmallMem} {bs : List Block} {live : List Nat}
    (h : SmemRep m bs)
    (hlive : live.Perm ((offsetsOf true 0 bs).map (· + sizeofStructMem)))
    (hptr : rtAlignSize ∣ m.heapPtr) : SmemInvariant m live (offsets 0 bs) := by
  have hlaid := h.blocks.laid
  have htotal : 0 + total bs = m.heapEnd := by rw [Nat.zero_add, h.blocks.total_eq]
  have hfree : ((offsets 0 bs).filter fun o => ¬ memIsUsed (m.item o)) = offsetsOf false 0 bs := by
    refine hlaid.filter_offsets fun q o b hb => ?_
    have hused := memIsUsed_iff hb
    cases hb' : b.used <;> simp [hused, hb']
  have hused : ((offsets 0 bs).filter fun o => memIsUsed (m.item o)) = offsetsOf true 0 bs := by
    refine hlaid.filter_offsets fun q o b hb => ?_
    have hused := memIsUsed_iff hb
    cases hb' : b.used <;> simp [hused, hb']
  constructor
  case start =>
    rw [← htotal]
    cases bs <;> rfl
  case next =>
    rw [← htotal]
    refine hlaid.isChain_next fun q o b hb => ⟨hb.next, ?_⟩
    have hpos := hb.pos
    omega
  case prev => exact (hlaid.isChain_prev fun q o b hb => hb.prev).tail
  case coalesced =>
    exact hlaid.isChain_used (fun q o b hb hu => (memIsUsed_iff hb).mpr hu) h.coalesced
  case lfree => rw [hfree, h.lfree, firstFree, htotal]
  case handedOut => rwa [hused]
  case regions =>
    rw [← h.blocks.total_eq]
    exact hlaid.liveRegions hlive (fun _ _ _ hb => hb.next) (fun _ _ _ hb => hb.size)
      (fun _ _ _ hb => hb.aligned) hptr (by decide)
  case used =>
    have hsum := hlaid.sum_offsetsOf (g := fun o => (m.item o).next - o) (k := Block.size)
      true fun q o b hb => by rw [hb.next, Nat.add_sub_cancel_left]
    rw [hused, hsum, h.used, usedSize, total]
    simp
  case max => exact h.max

/-- The region lies in the address space and has room for the control structure and two headers
between its first and its last aligned address. -/
structure LargeEnough (beginAddr size : Nat) : Prop where
  inside : beginAddr + size < wordSize
  room : (beginAddr + (rtAlignSize - 1)) / rtAlignSize * rtAlignSize + sizeofRtSmallMem +
    2 * sizeofStructMem ≤ rtAlignDown (beginAddr + size)

theorem smemLayout_rep {memSize : Nat} (h : rtAlignSize ∣ memSize) (smallMem beginAlign : Nat)
    (item : Nat → RtSmallMemItem) :
    SmemRep (smemLayout smallMem beginAlign memSize item) [⟨memSize + sizeofStructMem, false⟩] where
  blocks :=
    { laid := by
        have hne : 0 ≠ memSize + sizeofStructMem := by simp
        refine ⟨⟨?_, ?_, ?_, Nat.le_add_left _ _, Nat.dvd_add h (by decide)⟩, ?_, ?_⟩
        · simp [smemLayout, RtSmallMem.set_item]
        · simp [smemLayout, RtSmallMem.set_item]
        · simp [smemLayout, RtSmallMem.set_item]
        · simp [smemLayout, RtSmallMem.set_item]
        · simp [smemLayout, RtSmallMem.set_item]
      total_eq := rfl
      heapEnd := rfl }
  coalesced := List.isChain_singleton _
  lfree := rfl
  used := rfl
  max := Nat.le_refl 0

/-- `rt_smem_init` leaves one free block. -/
theorem rtSmemInit_rep {beginAddr size : Nat} (h : LargeEnough beginAddr size)
    (item : Nat → RtSmallMemItem) :
    ∃ m bs, rtSmemInit beginAddr size item = some m ∧ rtAlignSize ∣ m.heapPtr ∧ SmemRep m bs ∧
      offsetsOf true 0 bs = [] := by
  have hroom := h.room
  have hend : (beginAddr + size) % wordSize = beginAddr + size := Nat.mod_eq_of_lt h.inside
  have hle := rtAlignDown_le (beginAddr + size)
  have hstart : rtAlign beginAddr =
      (beginAddr + (rtAlignSize - 1)) / rtAlignSize * rtAlignSize := by
    have hinside := h.inside
    unfold rtAlign
    simp only [wordSize, rtAlignSize, sizeofStructMem, sizeofRtSmallMem] at *
    omega
  have hheap : (rtAlign beginAddr + sizeofRtSmallMem) % wordSize =
      rtAlign beginAddr + sizeofRtSmallMem := by
    refine Nat.mod_eq_of_lt ?_
    have hinside := h.inside
    rw [hstart]
    simp only [wordSize, rtAlignSize, sizeofStructMem, sizeofRtSmallMem] at *
    omega
  have hcond : rtAlignDown (beginAddr + size) > 2 * sizeofStructMem ∧
      rtAlignDown (beginAddr + size) - 2 * sizeofStructMem ≥
        rtAlign beginAddr + sizeofRtSmallMem := by
    rw [hstart]
    simp only [sizeofStructMem, sizeofRtSmallMem] at *
    omega
  have haligned : rtAlignSize ∣ rtAlignDown (beginAddr + size) -
      rtAlign (rtAlign beginAddr + sizeofRtSmallMem) - 2 * sizeofStructMem :=
    Nat.dvd_sub (Nat.dvd_sub (rtAlignDown_dvd _) (rtAlign_dvd _)) (by decide)
  refine ⟨smemLayout (rtAlign beginAddr) (rtAlign (rtAlign beginAddr + sizeofRtSmallMem)) _ item,
    _, ?_, rtAlign_dvd _, smemLayout_rep haligned _ _ item, rfl⟩
  simp only [rtSmemInit, hend, hheap]
  exact if_pos hcond

/-- After every sequence of calls on live pointers the headers, `lfree` and the counters agree
with the walk over the heap. -/
theorem smem_invariant {beginAddr size : Nat} (h : LargeEnough beginAddr size)
    (item : Nat → RtSmallMemItem) :
    ∃ init, rtSmemInit beginAddr size item = some init ∧
      ∀ calls s, smem.Run Machine.anyStep ⟨init, []⟩ calls s →
        ∃ walk, SmemInvariant s.heap s.live walk := by
  obtain ⟨init, bs, hinit, hptr, hrep, hnone⟩ := rtSmemInit_rep h item
  refine ⟨init, hinit, fun calls s run => ?_⟩
  have hstart : SmemLive init [] := ⟨bs, hrep, by rw [hnone]; exact List.Perm.refl _⟩
  obtain ⟨⟨bs, hrep, hlive⟩, hsame⟩ := smemLive_run hstart run
  rw [← hsame.heapPtr] at hptr
  exact ⟨offsets 0 bs, hrep.invariant hlive hptr⟩

/-- On 256 bytes: two blocks, the second one shrunk, the first one given back. -/
theorem smem_invariant_run :
    ∃ init s walk, rtSmemInit 0x20000000 256 (fun _ => ⟨0, 0, 0⟩) = some init ∧
      smem.Run Machine.anyStep ⟨init, []⟩
        [.alloc 24, .alloc 64, .realloc (some 56) 16, .free (some 16)] s ∧
      s.live = [56] ∧ SmemInvariant s.heap s.live walk := by
  have hlarge : LargeEnough 0x20000000 256 := ⟨by decide, by decide⟩
  obtain ⟨init, hinit, hruns⟩ := smem_invariant hlarge fun _ => ⟨0, 0, 0⟩
  have hexec : ((rtSmemInit 0x20000000 256 fun _ => ⟨0, 0, 0⟩).bind fun m =>
      (smem.exec ⟨m, []⟩ [.alloc 24, .alloc 64, .realloc (some 56) 16, .free (some 16)]).map
        (·.live)) = some [56] := by
    decide
  rw [hinit, Option.bind_some, Option.map_eq_some_iff] at hexec
  obtain ⟨s, hexec, hlive⟩ := hexec
  have run := Machine.Run.of_exec hexec (Machine.admitted_anyStep _ _)
  obtain ⟨walk, hwalk⟩ := hruns _ s run
  exact ⟨init, s, walk, hinit, run, hlive, hwalk⟩

end Gd32Vw553h.Kernel
