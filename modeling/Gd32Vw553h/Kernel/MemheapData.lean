/-
  Kernel/MemheapData.lean --- what the callers of the memory heap with a free list get
  (`src/memheap.c`).

  `rt_memheap_alloc` refuses a request for as many bytes as are available, also when the
  only free block fits exactly, and `RT_ALIGN` wraps for the largest sizes.
  `memheap_results_iff` says for which sizes the results are right in a heap that is in
  order, and that the data is kept as it should.

  The bytes of the pool are kept beside the headers, each of which takes 24 of them; how
  a header is laid out in its bytes is a parameter.
-/
import Gd32Vw553h.Foundation.BlockData
import Gd32Vw553h.Kernel.Memheap

set_option autoImplicit false

namespace Gd32Vw553h.Kernel.Memheap

open Gd32Vw553h.Foundation

/-! ## Blocks as a caller sees them -/

/-- The offsets of the headers from `ptr` up to the tailer, over at most `fuel` blocks. -/
def walk (m : RtMemheap) : Nat → Nat → List Nat
  | 0, _ => []
  | fuel + 1, ptr => if ptr = m.tailer then [] else ptr :: walk m fuel (m.item ptr).next

/-- The pointers behind the headers of the used blocks. -/
def livePointers (m : RtMemheap) : List Nat :=
  ((walk m m.fuel 0).filter fun o => rtMemheapIsUsed (m.item o)).map (· + rtMemheapSize)

/-- The headers of the free blocks. -/
def freeItems (m : RtMemheap) : List Nat :=
  (walk m m.fuel 0).filter fun o => ¬ rtMemheapIsUsed (m.item o)

/-- The bytes behind a header, up to the next one. -/
def userSize (m : RtMemheap) (ptr : Nat) : Nat := (m.item ptr).next - (ptr + rtMemheapSize)

/-- `p` designates a live block of at least `size` bytes. -/
def Designates (m : RtMemheap) (p size : Nat) : Prop :=
  p ∈ livePointers m ∧ size ≤ userSize m (p - rtMemheapSize)

/-- The size aligned and raised to the minimum, without wrapping. -/
def wantedSize (size : Nat) : Nat :=
  max rtMemheapMinialloc ((size + (rtAlignSize - 1)) / rtAlignSize * rtAlignSize)

/-- What `rt_memheap_alloc` returns has the size asked for, and it returns null only if no free
block has that size. -/
structure AllocRight (m : RtMemheap) (size : Nat) : Prop where
  result : ∀ p, (rtMemheapAlloc m size).1 = some p → Designates (rtMemheapAlloc m size).2 p size
  complete : (rtMemheapAlloc m size).1 = none → ∀ o ∈ freeItems m, userSize m o < wantedSize size

/-! ### Bytes -/

/-- The bytes of a header, made of its fields and the two links. -/
abbrev Layout := RtMemheapItem → ItemPtr → ItemPtr → Nat → UInt8

/-- A call leaves the header at `o` as it is. -/
structure SameHeader (m m' : RtMemheap) (o : Nat) : Prop where
  item : m'.item o = m.item o
  next : m'.free.next (.block o) = m.free.next (.block o)
  prev : m'.free.prev (.block o) = m.free.prev (.block o)

instance (m m' : RtMemheap) (o : Nat) : Decidable (SameHeader m m' o) :=
  decidable_of_iff (m'.item o = m.item o ∧ m'.free.next (.block o) = m.free.next (.block o) ∧
      m'.free.prev (.block o) = m.free.prev (.block o))
    ⟨fun h => ⟨h.1, h.2.1, h.2.2⟩, fun h => ⟨h.item, h.next, h.prev⟩⟩

/-- The bytes of the pool after the headers have come from those of `m` to those of `m'`. -/
def storeItems (layout : Layout) (m m' : RtMemheap) (bytes : Nat → UInt8) : Nat → UInt8 :=
  storeHeaders rtMemheapSize (fun o => ¬ SameHeader m m' o)
    (fun o => layout (m'.item o) (m'.free.next (.block o)) (m'.free.prev (.block o))) bytes

/-- What `rt_memheap_realloc` does to the bytes of the pool. -/
def rtMemheapReallocBytes (layout : Layout) (m : RtMemheap) (ptr : Option Nat) (newsize : Nat)
    (bytes : Nat → UInt8) : Nat → UInt8 :=
  if newsize = 0 then storeItems layout m (rtMemheapFree m ptr) bytes
  else
    let newsize := blockSize newsize
    match ptr with
    | none => storeItems layout m (rtMemheapAlloc m newsize).2 bytes
    | some ptr =>
      let header := ptr - rtMemheapSize
      let oldsize := memitemSize m header
      if newsize > oldsize then
        let next := (m.item header).next
        if growFits m next oldsize newsize then
          storeItems layout m (growBlock m header next oldsize newsize) bytes
        else
          match rtMemheapAlloc m newsize with
          | (some q, m') =>
            let bytes := storeItems layout m m' bytes
            let bytes := copyBytes q ptr (if oldsize < newsize then oldsize else newsize) bytes
            storeItems layout m' (rtMemheapFree m' (some ptr)) bytes
          | (none, _) => bytes
      else if newsize + rtMemheapSize + rtMemheapMinialloc ≥ oldsize then bytes
      else storeItems layout m (shrinkBlock m header newsize) bytes

/-- What `rt_memheap_realloc` returns has the size asked for and the data of the old block, the
data of the others stays, and a block that it could not change is still there. -/
structure ReallocRight (m : RtMemheap) (live : List Nat) (ptr : Option Nat) (newsize : Nat) :
    Prop where
  result : ∀ q, (rtMemheapRealloc m ptr newsize).1 = some q →
    Designates (rtMemheapRealloc m ptr newsize).2 q newsize
  data : ∀ p q, ptr = some p → (rtMemheapRealloc m ptr newsize).1 = some q →
    ∀ layout bytes, ∀ i < min (userSize m (p - rtMemheapSize)) newsize,
      rtMemheapReallocBytes layout m ptr newsize bytes (q + i) = bytes (p + i)
  others : ∀ q, (rtMemheapRealloc m ptr newsize).1 = some q → ∀ p ∈ live, ptr ≠ some p →
    ∀ layout bytes, ∀ i < userSize m (p - rtMemheapSize),
      rtMemheapReallocBytes layout m ptr newsize bytes (p + i) = bytes (p + i)
  null : (rtMemheapRealloc m ptr newsize).1 = none → 0 < newsize → ∀ p, ptr = some p →
    p ∈ livePointers (rtMemheapRealloc m ptr newsize).2 ∧
      (rtMemheapRealloc m ptr newsize).2 = m ∧
      ∀ layout bytes, rtMemheapReallocBytes layout m ptr newsize bytes = bytes

/-! ### The walk -/

theorem RtMemheap.Blocks.walk_eq {m : RtMemheap} {pre post : List Block} {fuel : Nat}
    (h : m.Blocks (pre ++ post)) (hfuel : post.length < fuel) :
    walk m fuel (total pre) = offsets (total pre) post := by
  have htailer : m.tailer = total (pre ++ post) := by
    have htotal := h.total_eq
    unfold RtMemheap.tailer
    omega
  induction fuel generalizing pre post with
  | zero => exact absurd hfuel (Nat.not_lt_zero _)
  | succ fuel ih =>
    cases post with
    | nil =>
      rw [List.append_nil] at htailer
      exact if_pos htailer.symm
    | cons b post =>
      have hpos := h.header.pos
      have hend : total pre ≠ m.tailer := by
        rw [htailer, total_append, total_cons]
        omega
      have happend : m.Blocks ((pre ++ [b]) ++ post) := by
        rwa [List.append_assoc]
      have hnext : total (pre ++ [b]) = total pre + b.size := by
        rw [total_append, total_cons, total_nil, Nat.add_zero]
      have hrest := ih happend (Nat.lt_of_succ_lt_succ hfuel) (by
        rw [htailer, List.append_assoc, List.singleton_append])
      rw [hnext] at hrest
      rw [walk, if_neg hend, h.header.next, hrest, offsets]

section Rep

variable {m : RtMemheap} {bs : List Block}

theorem MemheapRep.walk_eq (h : MemheapRep m bs) : walk m m.fuel 0 = offsets 0 bs := by
  have hblocks : m.Blocks ([] ++ bs) := h.blocks
  exact hblocks.walk_eq h.blocks.length_lt_fuel

theorem MemheapRep.livePointers_eq (h : MemheapRep m bs) :
    livePointers m = (offsetsOf true 0 bs).map (· + rtMemheapSize) := by
  rw [livePointers, h.walk_eq, h.blocks.laid.filter_offsets fun q o b hb => ?_]
  have hused := rtMemheapIsUsed_iff hb
  cases hb' : b.used <;> simp [hused, hb']

theorem MemheapRep.freeItems_eq (h : MemheapRep m bs) : freeItems m = offsetsOf false 0 bs := by
  rw [freeItems, h.walk_eq, h.blocks.laid.filter_offsets fun q o b hb => ?_]
  have hused := rtMemheapIsUsed_iff hb
  cases hb' : b.used <;> simp [hused, hb']

theorem MemheapRep.userSize_eq {pre post : List Block} {b : Block}
    (h : MemheapRep m (pre ++ b :: post)) : userSize m (total pre) = b.size - rtMemheapSize := by
  rw [userSize, h.blocks.header.next]
  omega

/-- The header at `x` belongs to a used block of `n` bytes. -/
theorem MemheapRep.used_block (h : MemheapRep m bs) {x n : Nat} (hx : (x, n) ∈ usedBlocks 0 bs) :
    (m.item x).next = x + n ∧ rtMemheapSize + rtMemheapMinialloc ≤ n ∧
      memitemSize m x = n - rtMemheapSize := by
  obtain ⟨pre, post, rfl, rfl⟩ := mem_usedBlocks.mp hx
  rw [Nat.zero_add]
  exact ⟨h.blocks.header.next, h.blocks.header.size, h.blocks.memitemSize_eq⟩

theorem MemheapRep.userSize_used (h : MemheapRep m bs) {x n : Nat}
    (hx : (x, n) ∈ usedBlocks 0 bs) :
    userSize m (x + rtMemheapSize - rtMemheapSize) = n - rtMemheapSize := by
  rw [Nat.add_sub_cancel, userSize, (h.used_block hx).1, Nat.add_sub_add_left]

theorem MemheapRep.designates_used (h : MemheapRep m bs) {x n size : Nat}
    (hx : (x, n) ∈ usedBlocks 0 bs) (hsize : rtMemheapSize + size ≤ n) :
    Designates m (x + rtMemheapSize) size := by
  refine ⟨?_, ?_⟩
  · rw [h.livePointers_eq, ← map_fst_usedBlocks]
    exact List.mem_map_of_mem (List.mem_map_of_mem hx)
  · rw [h.userSize_used hx]
    exact Nat.le_sub_of_add_le' hsize

theorem Designates.mono {p size size' : Nat} (h : Designates m p size') (hle : size ≤ size') :
    Designates m p size :=
  ⟨h.1, Nat.le_trans hle h.2⟩

/-- The pool has no block of more bytes than there are. -/
theorem MemheapRep.designates_le (h : MemheapRep m bs) {p size : Nat} (hp : Designates m p size) :
    size + 2 * rtMemheapSize ≤ m.poolSize := by
  obtain ⟨hmem, hsize⟩ := hp
  rw [h.livePointers_eq] at hmem
  obtain ⟨o, ho, rfl⟩ := List.mem_map.mp hmem
  obtain ⟨pre, b, post, rfl, -, rfl⟩ := mem_offsetsOf.mp ho
  have htotal := h.blocks.total_eq
  have hb := h.blocks.header.size
  rw [total_append, total_cons] at htotal
  rw [Nat.add_sub_cancel, Nat.zero_add, h.userSize_eq] at hsize
  omega

end Rep

/-! ## `rt_memheap_alloc` -/

/-- The only free block fits a request exactly. -/
def OnlyFits (m : RtMemheap) (size : Nat) : Prop :=
  ∃ o, freeItems m = [o] ∧ userSize m o = blockSize size

theorem blockSize_eq {size : Nat} (h : size ≤ alignMax) :
    blockSize size = wantedSize size ∧ size ≤ blockSize size := by
  have halign : rtAlign size = (size + (rtAlignSize - 1)) / rtAlignSize * rtAlignSize := by
    unfold rtAlign alignMax wordSize rtAlignSize at *
    omega
  have hle : size ≤ rtAlign size := by
    unfold rtAlign alignMax wordSize rtAlignSize at *
    omega
  unfold blockSize wantedSize
  rw [← halign]
  split <;> omega

theorem blockSize_wrapped {size : Nat} (h : alignMax < size) (hsize : size < wordSize) :
    blockSize size = rtMemheapMinialloc := by
  rw [blockSize, (le_rtAlign_iff hsize).2 h, if_pos (by decide)]

/-- What a list of positive sizes with no greater sum than one of them holds. -/
theorem eq_singleton_of_sum_le {l : List Nat} {f : Nat → Nat} {n o : Nat} (hmem : o ∈ l)
    (hsum : (l.map f).sum ≤ n) (ho : n ≤ f o) (hpos : ∀ x ∈ l, 0 < f x) :
    l = [o] ∧ f o = n := by
  obtain ⟨xs, ys, rfl⟩ := List.append_of_mem hmem
  rw [List.map_append, List.map_cons, List.sum_append, List.sum_cons] at hsum
  have hnil : ∀ zs : List Nat, (zs.map f).sum = 0 → (∀ x ∈ zs, 0 < f x) → zs = [] := by
    intro zs hzero hzs
    cases zs with
    | nil => rfl
    | cons z zs =>
      have hz := hzs z List.mem_cons_self
      rw [List.map_cons, List.sum_cons] at hzero
      omega
  have hxs : xs = [] := hnil xs (by omega) fun x hx => hpos x (List.mem_append_left _ hx)
  have hys : ys = [] :=
    hnil ys (by omega) fun x hx => hpos x (List.mem_append_right _ (List.mem_cons_of_mem o hx))
  subst hxs hys
  exact ⟨rfl, by omega⟩

theorem freeBytes_of_used {bs : List Block} (h : ∀ b ∈ bs, b.used = true) : freeBytes bs = 0 := by
  induction bs with
  | nil => rfl
  | cons b bs ih =>
    rw [freeBytes_cons, if_pos (h b List.mem_cons_self), Nat.zero_add]
    exact ih fun c hc => h c (List.mem_cons_of_mem b hc)

section Alloc

variable {m : RtMemheap} {bs : List Block} {size : Nat}

/-- The sizes of the free blocks, and what they come to. -/
theorem MemheapRep.free_sizes (h : MemheapRep m bs) :
    ((freeItems m).map (userSize m)).sum = m.availableSize ∧
      ∀ o ∈ freeItems m, rtMemheapMinialloc ≤ userSize m o := by
  have hsizes : ∀ o ∈ freeItems m,
      memitemSize m o = userSize m o ∧ rtMemheapMinialloc ≤ userSize m o := by
    intro o ho
    rw [h.freeItems_eq] at ho
    obtain ⟨pre, b, post, rfl, -, rfl⟩ := mem_offsetsOf.mp ho
    have hb := h.blocks.header.size
    rw [Nat.zero_add, h.userSize_eq]
    exact ⟨h.blocks.memitemSize_eq, by omega⟩
  have hsum := memitemSize_sum h.blocks
  rw [← h.freeItems_eq, ← h.available] at hsum
  rw [← hsum]
  exact ⟨congrArg List.sum (List.map_congr_left fun o ho => (hsizes o ho).1.symm),
    fun o ho => (hsizes o ho).2⟩

/-- No free block of the list has room for `k` bytes exactly if none on the walk has. -/
theorem MemheapRep.forall_free_iff (h : MemheapRep m bs) (k : Nat) :
    (∀ b ∈ bs, b.used = false → b.size < rtMemheapSize + k) ↔
      ∀ o ∈ freeItems m, userSize m o < k := by
  rw [h.freeItems_eq]
  constructor
  · intro hsmall o ho
    obtain ⟨pre, b, post, rfl, hfree, rfl⟩ := mem_offsetsOf.mp ho
    have hb := hsmall b (List.mem_append_right pre List.mem_cons_self) hfree
    have hsize := h.blocks.header.size
    rw [Nat.zero_add, h.userSize_eq]
    omega
  · intro hsmall b hb hfree
    obtain ⟨pre, post, rfl⟩ := List.append_of_mem hb
    have ho := hsmall (total pre)
      (mem_offsetsOf.mpr ⟨pre, b, post, rfl, hfree, (Nat.zero_add _).symm⟩)
    rw [h.userSize_eq] at ho
    omega

/-- A block that is returned has the aligned size. -/
theorem MemheapRep.alloc_designates (h : MemheapRep m bs) {p : Nat}
    (hp : (rtMemheapAlloc m size).1 = some p) :
    Designates (rtMemheapAlloc m size).2 p (blockSize size) := by
  rcases h.alloc size with hnone | ⟨pre, k, post, n, rest, -, hn, -, -, hptr, hrep⟩
  · rw [hnone] at hp
    cases hp
  · obtain rfl := Option.some.inj (hptr.symm.trans hp)
    exact hrep.designates_used (mem_usedBlocks.mpr ⟨pre, _, rfl, (Nat.zero_add _).symm⟩) hn

/-- The minimum is refused only when it is all there is. -/
theorem MemheapRep.alloc_minimum (h : MemheapRep m bs)
    (hsize : blockSize size = rtMemheapMinialloc) :
    (rtMemheapAlloc m size).1 = none ↔ m.availableSize ≤ rtMemheapMinialloc := by
  rw [rtMemheapAlloc_eq_none_iff h, hsize]
  constructor
  · rintro (hle | hsmall)
    · exact hle
    · have hused : ∀ b ∈ bs, b.used = true := by
        intro b hb
        obtain ⟨pre, post, rfl⟩ := List.append_of_mem hb
        have hheader := h.blocks.header.size
        by_contra hfree
        have hlt := hsmall b hb (Bool.eq_false_iff.mpr hfree)
        omega
      rw [h.available, freeBytes_of_used hused]
      exact Nat.zero_le _
  · exact .inl

theorem MemheapRep.allocRight_fits (h : MemheapRep m bs) (hmax : size ≤ alignMax) :
    AllocRight m size ↔ ¬ OnlyFits m size := by
  obtain ⟨hsum, hsizes⟩ := h.free_sizes
  obtain ⟨hwanted, hle⟩ := blockSize_eq hmax
  have hnone := rtMemheapAlloc_eq_none_iff h size
  rw [h.forall_free_iff] at hnone
  constructor
  · rintro hright ⟨o, hfree, ho⟩
    rw [hfree, List.map_cons, List.map_nil, List.sum_cons, List.sum_nil, Nat.add_zero] at hsum
    have hlt := hright.complete (hnone.mpr (.inl (by omega))) o
      (hfree ▸ List.mem_cons_self)
    omega
  · intro hnot
    refine ⟨fun p hp => (h.alloc_designates hp).mono hle, fun hresult o ho => ?_⟩
    rw [← hwanted]
    rcases hnone.mp hresult with havailable | hsmall
    · by_contra hfits
      have hpos : ∀ x ∈ freeItems m, 0 < userSize m x := fun x hx =>
        Nat.lt_of_lt_of_le (by decide) (hsizes x hx)
      obtain ⟨hfree, heq⟩ := eq_singleton_of_sum_le ho (hsum.trans_le havailable)
        (Nat.le_of_not_lt hfits) hpos
      exact hnot ⟨o, hfree, heq⟩
    · exact hsmall o ho

theorem MemheapRep.allocRight_wrapped (h : MemheapRep m bs) (hmax : alignMax < size)
    (hsize : size < wordSize) :
    AllocRight m size ↔ m.availableSize ≤ rtMemheapMinialloc := by
  have hblock := blockSize_wrapped hmax hsize
  have hinside := h.blocks.inside
  rw [← h.alloc_minimum hblock]
  constructor
  · intro hright
    by_contra hsome
    obtain ⟨p, hp⟩ := Option.ne_none_iff_exists'.mp hsome
    rcases h.alloc size with heq | ⟨pre, k, post, n, rest, -, -, -, -, -, hrep⟩
    · rw [heq] at hp
      cases hp
    · have hle := hrep.designates_le (hright.result p hp)
      have hinside' := hrep.blocks.inside
      simp only [alignMax, rtAlignSize, rtMemheapSize, wordSize] at *
      omega
  · intro hnone
    refine ⟨fun p hp => ?_, fun _ o ho => ?_⟩
    · rw [hnone] at hp
      cases hp
    · rw [h.freeItems_eq] at ho
      obtain ⟨pre, b, post, rfl, -, rfl⟩ := mem_offsetsOf.mp ho
      have htotal := h.blocks.total_eq
      rw [total_append, total_cons] at htotal
      rw [Nat.zero_add, h.userSize_eq]
      unfold wantedSize
      simp only [alignMax, rtAlignSize, rtMemheapSize, wordSize] at *
      omega

end Alloc

/-! ## What the calls write -/

/-- The links of the header at `o` are the same. -/
def SameLinks (L L' : Links ItemPtr) (o : Nat) : Prop :=
  L'.next (.block o) = L.next (.block o) ∧ L'.prev (.block o) = L.prev (.block o)

theorem SameLinks.trans {L L' L'' : Links ItemPtr} {o : Nat} (h : SameLinks L L' o)
    (h' : SameLinks L' L'' o) : SameLinks L L'' o :=
  ⟨h'.1.trans h.1, h'.2.trans h.2⟩

theorem SameHeader.refl (m : RtMemheap) (o : Nat) : SameHeader m m o := ⟨rfl, rfl, rfl⟩

theorem SameHeader.trans {m m' m'' : RtMemheap} {o : Nat} (h : SameHeader m m' o)
    (h' : SameHeader m' m'' o) : SameHeader m m'' o :=
  ⟨h'.item.trans h.item, h'.next.trans h.next, h'.prev.trans h.prev⟩

section Links

variable {L : Links ItemPtr} {os : List Nat} {o a : Nat}

/-- A header that is not in the free list is no neighbour there. -/
theorem Lists.ne_neighbour (h : Lists L os) (ho : o ∉ os) {p : ItemPtr}
    (hp : p = .freeHeader ∨ ∃ a ∈ os, p = .block a) :
    .block o ≠ L.next p ∧ .block o ≠ L.prev p := by
  obtain ⟨qs, hring, hqs⟩ := h
  have hnot : ItemPtr.block o ∉ ItemPtr.freeHeader :: qs.map .block :=
    block_not_mem fun hmem => ho (hqs.mem_iff.mp hmem)
  have hmem : p ∈ ItemPtr.freeHeader :: qs.map .block := by
    rcases hp with rfl | ⟨a, ha, rfl⟩
    · exact List.mem_cons_self
    · exact List.mem_cons_of_mem _ (List.mem_map_of_mem (hqs.mem_iff.mpr ha))
  obtain ⟨hnext, hprev⟩ := hring.neighbours hmem
  exact ⟨fun heq => hnot (heq ▸ hnext), fun heq => hnot (heq ▸ hprev)⟩

theorem Lists.linkFree_same (h : Lists L os) (ho : o ∉ os) (hne : o ≠ a) :
    SameLinks L (Memheap.linkFree L (.block a)) o := by
  have hblock : ItemPtr.block o ≠ .block a := fun heq => hne (ItemPtr.block.inj heq)
  have hfirst := (h.ne_neighbour ho (.inl rfl)).1
  simp [SameLinks, Memheap.linkFree, hblock, hfirst]

theorem Lists.linkFreed_same (h : Lists L os) (ho : o ∉ os) (hne : o ≠ a) :
    SameLinks L (Memheap.linkFreed L (.block a)) o := by
  have hblock : ItemPtr.block o ≠ .block a := fun heq => hne (ItemPtr.block.inj heq)
  have hfirst := (h.ne_neighbour ho (.inl rfl)).1
  have hhead : L.prev (L.next .freeHeader) = .freeHeader := by
    obtain ⟨qs, hring, -⟩ := h
    exact hring.prev_next_head
  by_cases hself : L.next .freeHeader = .block a
  · rw [hself] at hhead
    simp [SameLinks, Memheap.linkFreed, hblock, hself, hhead]
  · simp [SameLinks, Memheap.linkFreed, hblock, hfirst, hself, hhead]

theorem Lists.unlink_same (h : Lists L (a :: os)) (ho : o ∉ a :: os) :
    SameLinks L (L.unlink (.block a)) o := by
  obtain ⟨hnext, hprev⟩ := h.ne_neighbour ho (.inr ⟨a, List.mem_cons_self, rfl⟩)
  by_cases hself : L.next (.block a) = .block a
  · have hblock : ItemPtr.block o ≠ .block a := by
      rw [← hself]
      exact hnext
    simp [SameLinks, Links.unlink, hself, hblock, hprev]
  · simp [SameLinks, Links.unlink, hnext, hprev, Ne.symm hself]

theorem Lists.unlinkUsed_same (h : Lists L (a :: os)) (ho : o ∉ a :: os) :
    SameLinks L (Memheap.unlinkUsed L (.block a)) o := by
  have hblock : ItemPtr.block o ≠ .block a := fun heq =>
    ho (ItemPtr.block.inj heq ▸ List.mem_cons_self)
  refine (h.unlink_same ho).trans ?_
  simp [SameLinks, Memheap.unlinkUsed, hblock]

end Links

section Frame

variable {m : RtMemheap} {pre post : List Block} {o : Nat}

/-- `splitItem` writes the new header, the one in front of it and the one behind. -/
theorem splitItem_outside {header new next : Nat} (hnext : (m.item header).next = next)
    (hnew : header < new) (hlt : new < next) (ho : o ≠ header) (ho' : o ≠ new) (ho'' : o ≠ next) :
    (splitItem m header new).item o = m.item o := by
  rw [splitItem_item hnext hnew hlt, if_neg ho, if_neg ho'', if_neg ho']

/-- `joinItem` writes the header of the first block and the one behind the second. -/
theorem joinItem_outside {k n : Nat} {u v : Bool}
    (h : m.Blocks (pre ++ ⟨k, u⟩ :: ⟨n, v⟩ :: post))
    (ho : o ≠ total pre) (ho' : o ≠ total pre + k + n) :
    (joinItem m (total pre) (total pre + k)).item o = m.item o := by
  have hn : Header m.item (total pre) (total pre + k) ⟨n, v⟩ := by
    have hlaid := (laid_split.mp h.laid).2.2.1
    rwa [Nat.zero_add] at hlaid
  have hkpos : 0 < k := h.header.pos
  have hnpos : 0 < n := hn.pos
  have hnext : (m.item (total pre + k)).next = total pre + k + n := hn.next
  rw [joinItem_item hnext (by omega) (by omega), if_neg ho, if_neg ho']

/-- `rt_memheap_alloc` writes nothing inside a used block. -/
theorem MemheapRep.take_same {k size : Nat} (h : MemheapRep m (pre ++ ⟨k, false⟩ :: post))
    (hsize : rtMemheapSize + size ≤ k) (ho : Inside (pre ++ ⟨k, false⟩ :: post) o) :
    SameHeader m (takeBlock m (total pre) size) o := by
  have hout := ho.outside
  have hne : o ≠ total pre := ho.ne_boundary
  have hfree : memitemSize m (total pre) = k - rtMemheapSize := h.blocks.memitemSize_eq
  have hperm := offsetsOf_perm (Ne.symm Bool.false_ne_true) 0 k pre post
  rw [Nat.zero_add] at hperm
  have hlisted := h.free.perm hperm
  have hnot : o ∉ total pre :: offsetsOf false 0 (pre ++ ⟨k, true⟩ :: post) := fun hmem =>
    ho.not_mem_offsetsOf (hperm.mem_iff.mpr hmem)
  have hunlinked := hlisted.unlinkUsed_same hnot
  have hset : ∀ (m' : RtMemheap), m'.item o = m.item o → SameLinks m.free m'.free o →
      SameHeader m (m'.set (total pre) { m'.item (total pre) with magic := magicUsed }) o := by
    intro m' hitem hlinks
    exact ⟨by rw [RtMemheap.set_item, if_neg hne, hitem], hlinks.1, hlinks.2⟩
  simp only [takeBlock, hfree]
  split
  next hsplit =>
    have hpos : 0 < rtMemheapMinialloc := by decide
    have hheader : 0 < rtMemheapSize := by decide
    have hitem : (splitItem m (total pre) (total pre + size + rtMemheapSize)).item o = m.item o :=
      splitItem_outside h.blocks.header.next (by omega) (by dsimp only; omega) hne (by omega)
        (by dsimp only; omega)
    refine hset _ ?_ ?_
    · rw [(noteUsed_eq _).1]
      exact hitem
    · rw [(noteUsed_eq _).2.1]
      refine hunlinked.trans (hlisted.unlinkUsed.linkFree_same ?_ ?_)
      · exact fun hmem => hnot (List.mem_cons_of_mem _ hmem)
      · omega
  next =>
    refine hset _ ?_ ?_
    · rw [(noteUsed_eq _).1]
    · dsimp only
      rw [(noteUsed_eq _).2.1]
      exact hunlinked

theorem mergePrev_same {n : Nat} (h : m.Blocks (pre ++ ⟨n, false⟩ :: post))
    (ho : Inside (pre ++ ⟨n, false⟩ :: post) o) :
    SameHeader m (mergePrev m (total pre)).2.2 o := by
  have hprev := h.header.prev
  simp only [mergePrev, hprev]
  split
  next hfree =>
    rcases List.eq_nil_or_concat pre with rfl | ⟨rest, ⟨k, u⟩, rfl⟩
    · exact absurd h.isUsed_tailer hfree
    · rw [List.concat_eq_append] at h ho hfree ⊢
      rw [lastAt_append_singleton, Nat.zero_add] at hfree ⊢
      have hpair : m.Blocks (rest ++ ⟨k, u⟩ :: ⟨n, false⟩ :: post) := by
        rwa [List.append_assoc] at h
      have hu : u = false := Bool.eq_false_iff.mpr fun hu =>
        hfree ((rtMemheapIsUsed_iff hpair.header).mpr hu)
      subst hu
      rw [List.append_assoc] at ho
      have hout := (ho.congr (usedBlocks_merge 0 k n rest post).symm).outside
      have htotal : total (rest ++ [⟨k, false⟩]) = total rest + k := by simp
      rw [htotal]
      exact ⟨joinItem_outside (hpair.congr rfl rfl rfl) (by omega) (by omega), rfl, rfl⟩
  next => exact .refl m o

theorem mergeNext_same {n : Nat} {insert : Bool} (h : m.Blocks (pre ++ ⟨n, false⟩ :: post))
    (hfree : Lists m.free (offsetsOf false 0 (pre ++ ⟨n, insert⟩ :: post)))
    (ho : Inside (pre ++ ⟨n, false⟩ :: post) o) :
    SameHeader m (mergeNext m (total pre)) o := by
  rcases mergeRight_cases post with hused | ⟨k, rest, rfl⟩
  · have hstop : mergeNext m (total pre) = m := if_neg (not_not_intro (h.isUsed_next hused))
    rw [hstop]
    exact .refl m o
  · obtain ⟨hnext, hnot⟩ := h.not_isUsed_next
    have hout := (ho.congr (usedBlocks_merge 0 n k pre rest).symm).outside
    have hcut := offsetsOf_cut false insert 0 n k pre rest
    rw [Nat.zero_add] at hcut
    have hmem : o ∉ (total pre + n) :: offsetsOf false 0 (pre ++ ⟨n + k, insert⟩ :: rest) := by
      intro hmem
      rcases List.mem_cons.mp hmem with rfl | hmem
      · omega
      · exact (ho.congr (usedBlocks_merge 0 n k pre rest).symm).not_mem_retag hmem
    simp only at hnext hnot
    have hlinks := (hfree.perm hcut).unlink_same hmem
    simp only [mergeNext, hnext]
    rw [if_pos hnot]
    exact ⟨joinItem_outside (h.congr rfl rfl rfl) (by omega) (by omega), hlinks.1, hlinks.2⟩

/-- `rt_memheap_free` writes nothing inside another used block. -/
theorem MemheapRep.free_same {n : Nat} (h : MemheapRep m (pre ++ ⟨n, true⟩ :: post))
    (ho : Inside (pre ++ ⟨n, false⟩ :: post) o) :
    SameHeader m (rtMemheapFree m (some (total pre + rtMemheapSize))) o := by
  let marked := m.set (total pre) { m.item (total pre) with magic := magicFreed }
  have hmarked : marked.Blocks (pre ++ ⟨n, false⟩ :: post) := h.blocks.retag false
  let freed :=
    { marked with availableSize := marked.availableSize + memitemSize marked (total pre) }
  have hblocks : freed.Blocks (pre ++ ⟨n, false⟩ :: post) := hmarked.congr rfl rfl rfl
  have hstart : SameHeader m freed o :=
    ⟨(RtMemheap.set_item m (total pre) _ o).trans (if_neg ho.ne_boundary), rfl, rfl⟩
  have havailable : freed.availableSize = freeBytes (pre ++ ⟨n, false⟩ :: post) := by
    have hold := h.available
    simp only [freeBytes_append, freeBytes_cons, Bool.false_eq_true, if_false, if_true] at hold ⊢
    have hsize := hmarked.memitemSize_eq
    simp only [freed, hsize, marked, RtMemheap.set_availableSize]
    omega
  obtain ⟨insert, m', hmerge, hblocks', hfree', hbytes'⟩ :=
    mergePrev_spec hblocks h.free havailable
  have hprev := mergePrev_same hblocks ho
  rw [hmerge] at hprev
  have hleft := ho.congr (usedBlocks_mergeLeft 0 n pre post)
  have hnext := mergeNext_same hblocks' hfree' hleft
  have hmerged := (hstart.trans hprev).trans hnext
  have hgo : rtMemheapFree m (some (total pre + rtMemheapSize)) =
      if insert then
        { mergeNext m' (total (mergeLeft pre n).1) with
          free := linkFreed (mergeNext m' (total (mergeLeft pre n).1)).free
            (.block (total (mergeLeft pre n).1)) }
      else mergeNext m' (total (mergeLeft pre n).1) := by
    simp only [rtMemheapFree, Nat.add_sub_cancel]
    rw [hmerge]
  rw [hgo]
  cases insert with
  | false => exact hmerged
  | true =>
    have hboth := hleft.congr (usedBlocks_mergeRight 0 (mergeLeft pre n).2 (mergeLeft pre n).1 post)
    have hlists := (mergeNext_spec hblocks' hfree' hbytes').2.1
    have hlinks := hlists.linkFreed_same hboth.not_mem_retag hboth.ne_boundary
    exact ⟨hmerged.item, hlinks.1.trans hmerged.next, hlinks.2.trans hmerged.prev⟩

/-- What growing writes: it joins the two blocks, splits them again and links the rear one. -/
theorem growBlock_parts {header next oldsize newsize : Nat}
    (hprev : (m.item next).prev = header) :
    (growBlock m header next oldsize newsize).item =
        (splitItem (joinItem m header next) header
          ((header + rtMemheapSize + newsize) % wordSize)).item ∧
      (growBlock m header next oldsize newsize).free =
        linkFree (m.free.unlink (.block next))
          (.block ((header + rtMemheapSize + newsize) % wordSize)) := by
  obtain ⟨hitem, hfree, -⟩ :=
    noteUsed_eq { m with availableSize := wordSub m.availableSize (newsize - oldsize) }
  simp only [growBlock, splitItem_free, joinItem_free]
  generalize noteUsed { m with availableSize := wordSub m.availableSize (newsize - oldsize) } =
    less at hitem hfree ⊢
  rw [hfree]
  refine ⟨?_, rfl⟩
  simp only [joinItem, splitItem, RtMemheap.set, hitem, hprev]

/-- Growing into the free block behind writes nothing inside the used blocks there were. -/
theorem MemheapRep.grow_same {k n newsize : Nat}
    (h : MemheapRep m (pre ++ ⟨k, true⟩ :: ⟨n, false⟩ :: post))
    (hgrow : k < rtMemheapSize + newsize)
    (hfits : newsize + rtMemheapMinialloc < (n - rtMemheapSize) + (k - rtMemheapSize))
    (ho : Inside (pre ++ ⟨k, true⟩ :: ⟨n, false⟩ :: post) o) :
    SameHeader m (growBlock m (total pre) (total pre + k) (k - rtMemheapSize) newsize) o := by
  have hassoc : pre ++ ⟨k, true⟩ :: ⟨n, false⟩ :: post =
      (pre ++ [⟨k, true⟩]) ++ ⟨n, false⟩ :: post := by
    rw [List.append_assoc, List.singleton_append]
  have hrear : m.Blocks ((pre ++ [⟨k, true⟩]) ++ ⟨n, false⟩ :: post) := hassoc ▸ h.blocks
  have hk : rtMemheapSize + rtMemheapMinialloc ≤ k := h.blocks.header.size
  have hn : rtMemheapSize + rtMemheapMinialloc ≤ n := hrear.header.size
  have hprev : (m.item (total pre + k)).prev = total pre := by
    have hheader := hrear.header.prev
    rwa [lastAt_append_singleton, total_append, total_cons, total_nil, Nat.add_zero,
      Nat.zero_add] at hheader
  have hnew : (total pre + rtMemheapSize + newsize) % wordSize =
      total pre + rtMemheapSize + newsize := by
    have htotal := h.blocks.total_eq
    have hinside := h.blocks.inside
    rw [total_append, total_cons, total_cons] at htotal
    refine Nat.mod_eq_of_lt ?_
    simp only at htotal
    omega
  have hout : o < total pre + k ∨ total pre + k + n < o := by
    have hout := (hassoc ▸ ho : Inside _ o).outside
    rwa [total_append, total_cons, total_nil, Nat.add_zero] at hout
  have hne : o ≠ total pre := ho.ne_boundary
  have hcut := offsetsOf_cut false true 0 k n pre post
  rw [Nat.zero_add] at hcut
  have hlisted := h.free.perm hcut
  have hnot : o ∉ (total pre + k) :: offsetsOf false 0 (pre ++ ⟨k + n, true⟩ :: post) :=
    fun hmem => ho.not_mem_offsetsOf (hcut.mem_iff.mpr hmem)
  have hlinks := (hlisted.unlink_same hnot).trans (hlisted.unlink.linkFree_same
    (fun hmem => hnot (List.mem_cons_of_mem _ hmem))
    (show o ≠ total pre + rtMemheapSize + newsize by omega))
  have hjoined : (joinItem m (total pre) (total pre + k)).Blocks (pre ++ ⟨k + n, true⟩ :: post) :=
    h.blocks.join
  have hnext : ((joinItem m (total pre) (total pre + k)).item (total pre)).next =
      total pre + (k + n) := hjoined.header.next
  obtain ⟨hitem, hfree⟩ := @growBlock_parts m _ _ (k - rtMemheapSize) newsize hprev
  rw [hnew] at hitem hfree
  refine ⟨?_, ?_, ?_⟩
  · rw [hitem, splitItem_outside hnext (by omega) (by omega) hne (by omega) (by omega)]
    exact joinItem_outside h.blocks hne (by omega)
  · rw [hfree]
    exact hlinks.1
  · rw [hfree]
    exact hlinks.2

/-- Giving back the rear of a block writes nothing inside what is left of it. -/
theorem MemheapRep.shrink_same {newsize rest : Nat}
    (h : MemheapRep m (pre ++ ⟨rtMemheapSize + newsize + rest, true⟩ :: post))
    (hsize : rtMemheapMinialloc ≤ newsize) (haligned : rtAlignSize ∣ newsize)
    (hrest : rtMemheapSize + rtMemheapMinialloc ≤ rest)
    (ho : Inside ((pre ++ [⟨rtMemheapSize + newsize, true⟩]) ++ ⟨rest, false⟩ :: post) o) :
    SameHeader m (shrinkBlock m (total pre) newsize) o := by
  have htotal : total (pre ++ [⟨rtMemheapSize + newsize, true⟩]) =
      total pre + newsize + rtMemheapSize := by
    simp only [total_append, total_cons, total_nil, Nat.add_zero]
    omega
  let cut := splitItem m (total pre) (total (pre ++ [⟨rtMemheapSize + newsize, true⟩]))
  have hcut : cut.Blocks ((pre ++ [⟨rtMemheapSize + newsize, true⟩]) ++ ⟨rest, false⟩ :: post) := by
    have hblocks := h.blocks.split hsize haligned hrest
    rw [List.append_assoc]
    simp only [cut, htotal]
    rwa [Nat.add_right_comm] at hblocks
  have hlisted : Lists cut.free
      (offsetsOf false 0 ((pre ++ [⟨rtMemheapSize + newsize, true⟩]) ++ ⟨rest, true⟩ :: post)) := by
    rw [List.append_assoc, List.singleton_append,
      offsetsOf_absorb (Ne.symm Bool.false_ne_true)]
    exact h.free
  have hout := ho.outside
  have hne : o ≠ total pre := by
    rw [List.append_assoc] at ho
    exact ho.ne_boundary
  have hstart : SameHeader m cut o := by
    have hpos : 0 < rtMemheapSize := by decide
    refine ⟨splitItem_outside h.blocks.header.next ?_ ?_ hne ?_ ?_, rfl, rfl⟩ <;>
      (simp only [htotal] at *; omega)
  have hne' : o ≠ total (pre ++ [⟨rtMemheapSize + newsize, true⟩]) := ho.ne_boundary
  rcases mergeRight_cases post with hused | ⟨k, back, rfl⟩
  · have hgo : (shrinkBlock m (total pre) newsize).item = cut.item ∧
        (shrinkBlock m (total pre) newsize).free =
          linkFree cut.free (.block (total (pre ++ [⟨rtMemheapSize + newsize, true⟩]))) := by
      simp only [shrinkBlock, ← htotal]
      rw [if_neg (not_not_intro (hcut.isUsed_next hused))]
      exact ⟨rfl, rfl⟩
    have hlinks := hlisted.linkFree_same ho.not_mem_retag hne'
    refine hstart.trans ⟨?_, ?_, ?_⟩
    · rw [hgo.1]
    · rw [hgo.2]
      exact hlinks.1
    · rw [hgo.2]
      exact hlinks.2
  · obtain ⟨hnext, hnot⟩ := hcut.not_isUsed_next
    simp only at hnext hnot
    have hgo : (shrinkBlock m (total pre) newsize).item =
          (joinItem cut (total (pre ++ [⟨rtMemheapSize + newsize, true⟩]))
            (total (pre ++ [⟨rtMemheapSize + newsize, true⟩]) + rest)).item ∧
        (shrinkBlock m (total pre) newsize).free =
          linkFree (cut.free.unlink
            (.block (total (pre ++ [⟨rtMemheapSize + newsize, true⟩]) + rest)))
            (.block (total (pre ++ [⟨rtMemheapSize + newsize, true⟩]))) := by
      simp only [shrinkBlock, ← htotal]
      rw [hnext, if_pos hnot]
      exact ⟨rfl, rfl⟩
    have hperm :=
      offsetsOf_cut false true 0 rest k (pre ++ [⟨rtMemheapSize + newsize, true⟩]) back
    rw [Nat.zero_add] at hperm
    have hmem := fun hmem => ho.not_mem_retag (u := true) (hperm.mem_iff.mpr hmem)
    have hlinks := ((hlisted.perm hperm).unlink_same hmem).trans
      ((hlisted.perm hperm).unlink.linkFree_same
        (fun hrest => hmem (List.mem_cons_of_mem _ hrest)) hne')
    have hmerged := (ho.congr (usedBlocks_merge 0 rest k
      (pre ++ [⟨rtMemheapSize + newsize, true⟩]) back).symm).outside
    refine hstart.trans ⟨?_, ?_, ?_⟩
    · rw [hgo.1]
      exact joinItem_outside hcut hne' (by omega)
    · rw [hgo.2]
      exact hlinks.1
    · rw [hgo.2]
      exact hlinks.2

end Frame

/-! ## What the calls do to the used blocks -/

/-- What a successful `rt_memheap_alloc` does: there is one more used block. -/
structure Allocated (m m' : RtMemheap) (bs bs' : List Block) (x n : Nat) : Prop where
  rep : MemheapRep m' bs'
  used : (x, n) ∈ usedBlocks 0 bs'
  kept : ∀ b ∈ usedBlocks 0 bs, b ∈ usedBlocks 0 bs' ∧ b.1 ≠ x
  inside : ∀ o, Inside bs o → SameHeader m m' o

/-- What `rt_memheap_free` does: there is one used block less. -/
structure Freed (m m' : RtMemheap) (bs bs' : List Block) (x : Nat) : Prop where
  rep : MemheapRep m' bs'
  kept : ∀ b ∈ usedBlocks 0 bs, b.1 ≠ x → b ∈ usedBlocks 0 bs'
  inside : ∀ o, Inside bs' o → SameHeader m m' o

/-- What `rt_memheap_realloc` does to a block that it leaves in its place: the block has `n'`
bytes instead of `n`. -/
structure Resized (m m' : RtMemheap) (bs bs' : List Block) (x n n' : Nat) : Prop where
  rep : MemheapRep m' bs'
  used : (x, n') ∈ usedBlocks 0 bs'
  front : ∀ o, x < o → o < x + min n n' → SameHeader m m' o
  others : ∀ b ∈ usedBlocks 0 bs, b.1 ≠ x → ∀ o, b.1 < o → o < b.1 + b.2 → SameHeader m m' o

section Calls

variable {m : RtMemheap} {bs : List Block}

theorem MemheapRep.allocated (h : MemheapRep m bs) (size : Nat) :
    rtMemheapAlloc m size = (none, m) ∨ ∃ x n bs',
      (rtMemheapAlloc m size).1 = some (x + rtMemheapSize) ∧
        rtMemheapSize + blockSize size ≤ n ∧
        Allocated m (rtMemheapAlloc m size).2 bs bs' x n := by
  rcases h.alloc size with hnone | ⟨pre, k, post, n, rest, hbs, hn, hrest, hk, hptr, hrep⟩
  · exact .inl hnone
  · refine .inr ⟨total pre, n, _, hptr, hn, hrep, ?_, fun b hb => ⟨?_, ?_⟩, fun o ho => ?_⟩
    · exact mem_usedBlocks.mpr ⟨pre, rest ++ post, rfl, (Nat.zero_add _).symm⟩
    · subst hk hbs
      exact mem_usedBlocks_take hrest hb
    · exact ne_of_mem_usedBlocks h.blocks.pos hbs hb
    · subst hbs
      have htake : (rtMemheapAlloc m size).2 = takeBlock m (total pre) (blockSize size) := by
        revert hptr
        unfold rtMemheapAlloc
        split
        · split
          · exact fun hptr => absurd hptr.symm (Option.some_ne_none _)
          next header _ =>
            intro hptr
            obtain rfl : header = total pre := Nat.add_right_cancel (Option.some.inj hptr)
            rfl
        · exact fun hptr => absurd hptr.symm (Option.some_ne_none _)
      rw [htake]
      exact h.take_same (by omega) ho

theorem MemheapRep.freed_used (h : MemheapRep m bs) {x n : Nat} (hx : (x, n) ∈ usedBlocks 0 bs) :
    ∃ bs', Freed m (rtMemheapFree m (some (x + rtMemheapSize))) bs bs' x := by
  obtain ⟨pre, post, rfl, rfl⟩ := mem_usedBlocks.mp hx
  rw [Nat.zero_add]
  have hsame := usedBlocks_freeAt 0 n pre post
  refine ⟨freeAt pre n post, h.freed, fun b hb hne => ?_, fun o ho => ?_⟩
  · rw [hsame]
    exact mem_usedBlocks_free hb (by rwa [Nat.zero_add])
  · exact h.free_same (ho.congr hsame.symm)

theorem MemheapRep.shrunk {pre post : List Block} {newsize rest : Nat}
    (h : MemheapRep m (pre ++ ⟨rtMemheapSize + newsize + rest, true⟩ :: post))
    (hsize : rtMemheapMinialloc ≤ newsize) (haligned : rtAlignSize ∣ newsize)
    (hrest : rtMemheapSize + rtMemheapMinialloc ≤ rest) :
    ∃ bs', Resized m (shrinkBlock m (total pre) newsize)
      (pre ++ ⟨rtMemheapSize + newsize + rest, true⟩ :: post) bs' (total pre)
      (rtMemheapSize + newsize + rest) (rtMemheapSize + newsize) := by
  have hsame := usedBlocks_freeAt 0 rest (pre ++ [⟨rtMemheapSize + newsize, true⟩]) post
  have hused : (total pre, rtMemheapSize + newsize) ∈
      usedBlocks 0 ((pre ++ [⟨rtMemheapSize + newsize, true⟩]) ++ ⟨rest, false⟩ :: post) := by
    rw [List.append_assoc]
    exact mem_usedBlocks.mpr ⟨pre, ⟨rest, false⟩ :: post, rfl, (Nat.zero_add _).symm⟩
  refine ⟨freeAt (pre ++ [⟨rtMemheapSize + newsize, true⟩]) rest post,
    h.shrink hsize haligned hrest, ?_, fun o hlow hhigh => ?_, fun b hb hne o hlow hhigh => ?_⟩
  · rw [hsame]
    exact hused
  · refine h.shrink_same hsize haligned hrest ⟨_, hused, hlow, ?_⟩
    exact Nat.lt_of_lt_of_le hhigh (Nat.add_le_add_left (Nat.min_le_right _ _) _)
  · refine h.shrink_same hsize haligned hrest ⟨b, ?_, hlow, hhigh⟩
    have hfree := mem_usedBlocks_free hb (by rwa [Nat.zero_add])
    rw [usedBlocks_append, usedBlocks_cons_free] at hfree
    rw [List.append_assoc, List.singleton_append, usedBlocks_append, usedBlocks_cons_used,
      usedBlocks_cons_free, Nat.add_assoc (0 + total pre)]
    rcases List.mem_append.mp hfree with hpre | hpost
    · exact List.mem_append_left _ hpre
    · exact List.mem_append_right _ (List.mem_cons_of_mem _ hpost)

theorem MemheapRep.grown {pre post : List Block} {k n newsize : Nat}
    (h : MemheapRep m (pre ++ ⟨k, true⟩ :: ⟨n, false⟩ :: post))
    (hsize : rtMemheapMinialloc ≤ newsize) (haligned : rtAlignSize ∣ newsize)
    (hgrow : k < rtMemheapSize + newsize)
    (hfits : newsize + rtMemheapMinialloc < (n - rtMemheapSize) + (k - rtMemheapSize)) :
    ∃ bs', Resized m (growBlock m (total pre) (total pre + k) (k - rtMemheapSize) newsize)
      (pre ++ ⟨k, true⟩ :: ⟨n, false⟩ :: post) bs' (total pre) k (rtMemheapSize + newsize) := by
  obtain ⟨rest, -, hrep⟩ := h.grow hsize haligned hgrow hfits
  refine ⟨_, hrep, mem_usedBlocks.mpr ⟨pre, _, rfl, (Nat.zero_add _).symm⟩,
    fun o hlow hhigh => h.grow_same hgrow hfits ⟨(total pre, k), ?_, hlow, ?_⟩,
    fun b hb _ o hlow hhigh => h.grow_same hgrow hfits ⟨b, hb, hlow, hhigh⟩⟩
  · exact mem_usedBlocks.mpr ⟨pre, _, rfl, (Nat.zero_add _).symm⟩
  · exact Nat.lt_of_lt_of_le hhigh (Nat.add_le_add_left (Nat.min_le_left _ _) _)

end Calls

/-! ## `rt_memheap_realloc` -/

/-- How `rt_memheap_realloc` ends for a used block of `n` bytes at `x` and a raised size that
the test for growing does not wrap. -/
inductive ReallocCase (layout : Layout) (m : RtMemheap) (bs : List Block) (x n size : Nat)
    (bytes : Nat → UInt8) : Option Nat → RtMemheap → (Nat → UInt8) → Prop where
  | failed : ReallocCase layout m bs x n size bytes none m bytes
  | same (hn : rtMemheapSize + size ≤ n) :
      ReallocCase layout m bs x n size bytes (some (x + rtMemheapSize)) m bytes
  | resized {m' : RtMemheap} {bs' : List Block} {n' : Nat} (hn : rtMemheapSize + size = n')
      (h : Resized m m' bs bs' x n n') :
      ReallocCase layout m bs x n size bytes (some (x + rtMemheapSize)) m'
        (storeItems layout m m' bytes)
  | moved {m₁ m₂ : RtMemheap} {bs₁ bs₂ : List Block} {y k : Nat}
      (hn : n - rtMemheapSize < size) (hk : rtMemheapSize + size ≤ k)
      (halloc : Allocated m m₁ bs bs₁ y k) (hfree : Freed m₁ m₂ bs₁ bs₂ x) :
      ReallocCase layout m bs x n size bytes (some (y + rtMemheapSize)) m₂
        (storeItems layout m₁ m₂ (copyBytes (y + rtMemheapSize) (x + rtMemheapSize)
          (n - rtMemheapSize) (storeItems layout m m₁ bytes)))

theorem blockSize_blockSize (size : Nat) : blockSize (blockSize size) = blockSize size := by
  unfold blockSize rtAlign wordSize rtAlignSize rtMemheapMinialloc
  split <;> split <;> omega

section Realloc

variable {layout : Layout} {m : RtMemheap} {bs : List Block} {x n newsize : Nat}
  {bytes : Nat → UInt8}

/-- Growing, when the test has not wrapped. -/
theorem MemheapRep.grow_case (h : MemheapRep m bs) (hx : (x, n) ∈ usedBlocks 0 bs)
    (hrange : ¬ rtMemheapIsUsed (m.item (m.item x).next) →
      blockSize newsize + rtMemheapMinialloc < wordSize)
    (hgrow : n - rtMemheapSize < blockSize newsize)
    (hfits : growFits m (m.item x).next (n - rtMemheapSize) (blockSize newsize)) :
    ∃ bs', Resized m (growBlock m x (m.item x).next (n - rtMemheapSize) (blockSize newsize))
      bs bs' x n (rtMemheapSize + blockSize newsize) := by
  obtain ⟨pre, post, rfl, rfl⟩ := mem_usedBlocks.mp hx
  rw [Nat.zero_add] at *
  obtain ⟨hfree, hlt⟩ := hfits
  have hinRange := hrange hfree
  rcases mergeRight_cases post with hused | ⟨k, back, rfl⟩
  · exact absurd (h.blocks.isUsed_next hused) hfree
  · obtain ⟨hnext, -⟩ := h.blocks.not_isUsed_next
    have hrear : m.Blocks ((pre ++ [⟨n, true⟩]) ++ ⟨k, false⟩ :: back) := by
      rw [List.append_assoc]
      exact h.blocks
    have hk := hrear.memitemSize_eq
    rw [total_append, total_cons, total_nil, Nat.add_zero] at hk
    have htotal := hrear.total_eq
    have hinside := hrear.inside
    simp only [total_append, total_cons, total_nil] at hnext hk htotal
    rw [hnext, hk, Nat.mod_eq_of_lt hinRange, Nat.mod_eq_of_lt (by omega)] at hlt
    rw [hnext]
    have hnSize := h.blocks.header.size
    have hkSize := hrear.header.size
    simp only at hnSize hkSize
    exact h.grown (minialloc_le_blockSize newsize) (blockSize_dvd newsize) (by omega) hlt

theorem MemheapRep.realloc_cases (h : MemheapRep m bs) (hx : (x, n) ∈ usedBlocks 0 bs)
    (hzero : newsize ≠ 0)
    (hrange : ¬ rtMemheapIsUsed (m.item (m.item x).next) →
      blockSize newsize + rtMemheapMinialloc < wordSize)
    (layout : Layout) (bytes : Nat → UInt8) :
    ReallocCase layout m bs x n (blockSize newsize) bytes
      (rtMemheapRealloc m (some (x + rtMemheapSize)) newsize).1
      (rtMemheapRealloc m (some (x + rtMemheapSize)) newsize).2
      (rtMemheapReallocBytes layout m (some (x + rtMemheapSize)) newsize bytes) := by
  obtain ⟨hnext, hn, hold⟩ := h.used_block hx
  simp only [rtMemheapRealloc, rtMemheapReallocBytes, Nat.add_sub_cancel, hold, if_neg hzero]
  split
  next hgrow =>
    split
    next hfits =>
      obtain ⟨bs', hresized⟩ := h.grow_case hx hrange hgrow hfits
      exact .resized rfl hresized
    next =>
      rcases h.allocated (blockSize newsize) with hnone | ⟨y, k, bs₁, hptr, hk, halloc⟩
      · rw [hnone]
        exact .failed
      · obtain ⟨bs₂, hfree⟩ := halloc.rep.freed_used (halloc.kept _ hx).1
        have hpair : rtMemheapAlloc m (blockSize newsize) =
            (some (y + rtMemheapSize), (rtMemheapAlloc m (blockSize newsize)).2) :=
          Prod.ext hptr rfl
        rw [blockSize_blockSize] at hk
        rw [hpair]
        exact .moved hgrow hk halloc hfree
  next hle =>
    split
    next => exact .same (by omega)
    next hlt =>
      obtain ⟨pre, post, rfl, rfl⟩ := mem_usedBlocks.mp hx
      obtain ⟨rest, rfl⟩ : ∃ rest, n = rtMemheapSize + blockSize newsize + rest :=
        ⟨n - (rtMemheapSize + blockSize newsize), by omega⟩
      obtain ⟨bs', hshrunk⟩ := h.shrunk (minialloc_le_blockSize newsize) (blockSize_dvd newsize)
        (by omega)
      rw [Nat.zero_add]
      exact .resized rfl hshrunk

/-- Stored headers that are unchanged between two boundaries leave the data alone. -/
theorem storeItems_data {m' : RtMemheap} {lo hi i : Nat}
    (hsame : ∀ o, lo < o → o < hi → SameHeader m m' o) (hi' : i < hi - (lo + rtMemheapSize)) :
    storeItems layout m m' bytes (lo + rtMemheapSize + i) = bytes (lo + rtMemheapSize + i) := by
  have hchanged : ∀ o, lo < o → o < hi → decide (¬ SameHeader m m' o) = false :=
    fun o hlow hhigh => decide_eq_false (not_not_intro (hsame o hlow hhigh))
  exact storeHeaders_between (Nat.le_refl _) hchanged (Nat.le_add_right _ _) (by omega)

/-- The same for a used block whose inside is not written. -/
theorem storeItems_inside {m' : RtMemheap} {b : Nat × Nat} {i : Nat}
    (hinside : ∀ o, Inside bs o → SameHeader m m' o) (hb : b ∈ usedBlocks 0 bs)
    (hi : i < b.2 - rtMemheapSize) :
    storeItems layout m m' bytes (b.1 + rtMemheapSize + i) =
      bytes (b.1 + rtMemheapSize + i) := by
  have hsame : ∀ o, b.1 < o → o < b.1 + b.2 → SameHeader m m' o :=
    fun o hlow hhigh => hinside o ⟨b, hb, hlow, hhigh⟩
  exact storeItems_data hsame (by omega)

section Cases

variable {size : Nat} {result : Option Nat} {m' : RtMemheap} {bytes' : Nat → UInt8}

/-- The data of the block. -/
theorem ReallocCase.data (h : ReallocCase layout m bs x n size bytes result m' bytes')
    (hx : (x, n) ∈ usedBlocks 0 bs) {q : Nat} (hq : result = some q) {i : Nat}
    (hi : i < min (n - rtMemheapSize) size) :
    bytes' (q + i) = bytes (x + rtMemheapSize + i) := by
  cases h with
  | failed => cases hq
  | same hn =>
    obtain rfl := Option.some.inj hq
    rfl
  | resized hn hresized =>
    obtain rfl := Option.some.inj hq
    exact storeItems_data hresized.front (by omega)
  | @moved m₁ m₂ bs₁ bs₂ y k hn hk halloc hfree =>
    obtain rfl := Option.some.inj hq
    have hne : y ≠ x := (halloc.kept _ hx).2.symm
    have hnew : i < k - rtMemheapSize := by omega
    have hold : i < n - rtMemheapSize := by omega
    calc _ = copyBytes (y + rtMemheapSize) (x + rtMemheapSize) (n - rtMemheapSize)
            (storeItems layout m m₁ bytes) (y + rtMemheapSize + i) :=
          storeItems_inside hfree.inside (hfree.kept _ halloc.used hne) hnew
      _ = storeItems layout m m₁ bytes (x + rtMemheapSize + i) := copyBytes_copied _ hold
      _ = bytes (x + rtMemheapSize + i) := storeItems_inside halloc.inside hx hold

/-- The data of another block. -/
theorem ReallocCase.others (h : ReallocCase layout m bs x n size bytes result m' bytes')
    {b : Nat × Nat} (hb : b ∈ usedBlocks 0 bs) (hne : b.1 ≠ x) {i : Nat}
    (hi : i < b.2 - rtMemheapSize) :
    bytes' (b.1 + rtMemheapSize + i) = bytes (b.1 + rtMemheapSize + i) := by
  cases h with
  | failed => rfl
  | same hn => rfl
  | resized hn hresized => exact storeItems_data (hresized.others b hb hne) (by omega)
  | @moved m₁ m₂ bs₁ bs₂ y k hn hk halloc hfree =>
    obtain ⟨hkept, hother⟩ := halloc.kept b hb
    have hapart : b.1 + rtMemheapSize + i < y + rtMemheapSize ∨
        y + rtMemheapSize + (n - rtMemheapSize) ≤ b.1 + rtMemheapSize + i := by
      rcases usedBlocks_apart hkept halloc.used hother with hle | hle
      · exact .inl (by omega)
      · have hle' : y + k ≤ b.1 := hle
        exact .inr (by omega)
    calc _ = copyBytes (y + rtMemheapSize) (x + rtMemheapSize) (n - rtMemheapSize)
            (storeItems layout m m₁ bytes) (b.1 + rtMemheapSize + i) :=
          storeItems_inside hfree.inside (hfree.kept b hkept hne) hi
      _ = storeItems layout m m₁ bytes (b.1 + rtMemheapSize + i) := copyBytes_kept _ hapart
      _ = bytes (b.1 + rtMemheapSize + i) := storeItems_inside halloc.inside hb hi

/-- A result designates a block of the raised size. -/
theorem ReallocCase.designates (h : MemheapRep m bs)
    (hcase : ReallocCase layout m bs x n size bytes result m' bytes')
    (hx : (x, n) ∈ usedBlocks 0 bs) {q : Nat} (hq : result = some q) :
    Designates m' q size ∧ ∃ bs', MemheapRep m' bs' := by
  cases hcase with
  | failed => cases hq
  | same hn =>
    obtain rfl := Option.some.inj hq
    exact ⟨h.designates_used hx hn, bs, h⟩
  | resized hn hresized =>
    obtain rfl := Option.some.inj hq
    exact ⟨hresized.rep.designates_used hresized.used hn.le, _, hresized.rep⟩
  | @moved m₁ m₂ bs₁ bs₂ y k hn hk halloc hfree =>
    obtain rfl := Option.some.inj hq
    have hused := hfree.kept _ halloc.used (halloc.kept _ hx).2.symm
    exact ⟨hfree.rep.designates_used hused hk, _, hfree.rep⟩

theorem ReallocCase.null (hcase : ReallocCase layout m bs x n size bytes none m' bytes') :
    m' = m ∧ bytes' = bytes := by
  cases hcase
  exact ⟨rfl, rfl⟩

end Cases

end Realloc

/-! ## Every heap that is in order -/

section Results

variable {m : RtMemheap} {bs : List Block} {live : List Nat} {newsize : Nat}

/-- A live pointer stands behind the header of a used block. -/
theorem used_of_live (hlive : live.Perm ((offsetsOf true 0 bs).map (· + rtMemheapSize)))
    {p : Nat} (hp : p ∈ live) : ∃ x n, (x, n) ∈ usedBlocks 0 bs ∧ p = x + rtMemheapSize := by
  obtain ⟨pre, n, post, rfl, rfl⟩ := exists_block hlive hp
  exact ⟨total pre, n, mem_usedBlocks.mpr ⟨pre, post, rfl, (Nat.zero_add _).symm⟩, rfl⟩

/-- A size for which `rt_memheap_realloc` is right: it does not wrap when it is aligned, nor, if
the block behind is free, when the minimum is added. -/
def SizeInRange (m : RtMemheap) (ptr : Option Nat) (newsize : Nat) : Prop :=
  newsize ≤ alignMax ∧ ∀ p, ptr = some p →
    rtMemheapIsUsed (m.item (m.item (p - rtMemheapSize)).next) ∨
      newsize ≤ alignMax - rtMemheapMinialloc

theorem blockSize_add_lt_iff (h : newsize ≤ alignMax) :
    blockSize newsize + rtMemheapMinialloc < wordSize ↔
      newsize ≤ alignMax - rtMemheapMinialloc := by
  unfold blockSize rtAlign alignMax wordSize rtAlignSize rtMemheapMinialloc at *
  split <;> omega

theorem reallocRight_null (h : MemheapRep m bs)
    (hlive : live.Perm ((offsetsOf true 0 bs).map (· + rtMemheapSize))) (hmax : newsize ≤ alignMax)
    (hzero : newsize ≠ 0) : ReallocRight m live none newsize := by
  obtain ⟨-, hle⟩ := blockSize_eq hmax
  have hgo : rtMemheapRealloc m none newsize = rtMemheapAlloc m (blockSize newsize) := by
    simp only [rtMemheapRealloc, if_neg hzero]
  refine ⟨fun q hq => ?_, fun p q hp => absurd hp.symm (Option.some_ne_none p),
    fun q _ p hp _ layout bytes i hi => ?_,
    fun _ _ p hp => absurd hp.symm (Option.some_ne_none p)⟩
  · rw [hgo] at hq ⊢
    have hsize := h.alloc_designates hq
    rw [blockSize_blockSize] at hsize
    exact hsize.mono hle
  · obtain ⟨x, n, hx, rfl⟩ := used_of_live hlive hp
    rw [h.userSize_used hx] at hi
    simp only [rtMemheapReallocBytes, if_neg hzero]
    rcases h.allocated (blockSize newsize) with hnone | ⟨y, k, bs₁, -, -, halloc⟩
    · rw [hnone]
      have hsame : ∀ o, Inside bs o → SameHeader m m o := fun o _ => .refl m o
      exact storeItems_inside (b := (x, n)) hsame hx hi
    · exact storeItems_inside halloc.inside hx hi

theorem reallocRight_inRange (h : MemheapRep m bs)
    (hlive : live.Perm ((offsetsOf true 0 bs).map (· + rtMemheapSize))) {ptr : Option Nat}
    (hp : IsLive live ptr) (hrange : SizeInRange m ptr newsize) :
    ReallocRight m live ptr newsize := by
  obtain ⟨hmax, hgrows⟩ := hrange
  obtain ⟨-, hle⟩ := blockSize_eq hmax
  by_cases hzero : newsize = 0
  · subst hzero
    exact ⟨fun q hq => absurd hq.symm (Option.some_ne_none q),
      fun p q _ hq => absurd hq.symm (Option.some_ne_none q),
      fun q hq => absurd hq.symm (Option.some_ne_none q),
      fun _ hpos => absurd hpos (Nat.lt_irrefl 0)⟩
  · cases ptr with
    | none => exact reallocRight_null h hlive hmax hzero
    | some p =>
      obtain ⟨x, n, hx, rfl⟩ := used_of_live hlive (hp p rfl)
      have hin : ¬ rtMemheapIsUsed (m.item (m.item x).next) →
          blockSize newsize + rtMemheapMinialloc < wordSize := by
        intro hfree
        have hnext := hgrows _ rfl
        rw [Nat.add_sub_cancel] at hnext
        exact (blockSize_add_lt_iff hmax).mpr (hnext.resolve_left hfree)
      have hcase := h.realloc_cases hx hzero hin
      refine ⟨fun q hq => ?_, fun p' q hp' hq layout bytes i hi => ?_,
        fun q _ p' hp' hne layout bytes i hi => ?_, fun hnull _ p' hp' => ?_⟩
      · exact ((hcase (fun _ _ _ _ => 0) fun _ => 0).designates h hx hq).1.mono hle
      · obtain rfl : x + rtMemheapSize = p' := Option.some.inj hp'
        rw [h.userSize_used hx] at hi
        exact (hcase layout bytes).data hx hq (by omega)
      · obtain ⟨x', n', hx', rfl⟩ := used_of_live hlive hp'
        rw [h.userSize_used hx'] at hi
        exact (hcase layout bytes).others hx' (fun heq => hne (by rw [show x' = x from heq])) hi
      · rw [hnull] at hcase
        obtain rfl : x + rtMemheapSize = p' := Option.some.inj hp'
        have hsize := Nat.le_of_eq (Nat.add_sub_cancel' (Nat.le_of_add_right_le
          (h.used_block hx).2.1))
        rw [(hcase (fun _ _ _ _ => 0) fun _ => 0).null.1]
        exact ⟨(h.designates_used hx hsize).1, rfl, fun layout bytes => (hcase layout bytes).null.2⟩

/-- When the test for growing wraps it holds, and the block is cut off inside its own header. -/
theorem MemheapRep.grow_wrapped {pre post : List Block} {n k size : Nat}
    (h : MemheapRep m (pre ++ ⟨n, true⟩ :: ⟨k, false⟩ :: post))
    (hwraps : wordSize ≤ size + rtMemheapMinialloc) (hsize : size ≤ alignMax) :
    growFits m (total pre + n) (n - rtMemheapSize) size ∧
      userSize (growBlock m (total pre) (total pre + n) (n - rtMemheapSize) size) (total pre) =
        0 := by
  have hrear : m.Blocks ((pre ++ [⟨n, true⟩]) ++ ⟨k, false⟩ :: post) := by
    rw [List.append_assoc]
    exact h.blocks
  have hk := hrear.memitemSize_eq
  have hprev := hrear.header.prev
  have hn : rtMemheapSize + rtMemheapMinialloc ≤ n := h.blocks.header.size
  have hkSize : rtMemheapSize + rtMemheapMinialloc ≤ k := hrear.header.size
  obtain ⟨-, hfree⟩ := h.blocks.not_isUsed_next
  have htotal := hrear.total_eq
  have hinside := hrear.inside
  rw [lastAt_append_singleton, total_append, total_cons, total_nil, Nat.add_zero,
    Nat.zero_add] at hprev
  rw [total_append, total_cons, total_nil, Nat.add_zero] at hk
  simp only [total_append, total_cons, total_nil] at htotal hk
  refine ⟨⟨hfree, ?_⟩, ?_⟩
  · rw [hk, Nat.mod_eq_of_lt (by omega)]
    simp only [alignMax, rtAlignSize, rtMemheapSize, rtMemheapMinialloc, wordSize] at *
    omega
  · obtain ⟨hitem, -⟩ := @growBlock_parts m _ _ (n - rtMemheapSize) size hprev
    have hnext : ((growBlock m (total pre) (total pre + n) (n - rtMemheapSize) size).item
        (total pre)).next = (total pre + rtMemheapSize + size) % wordSize := by
      rw [hitem, splitItem, RtMemheap.set_item, if_pos rfl]
    rw [userSize, hnext]
    simp only [alignMax, rtAlignSize, rtMemheapSize, rtMemheapMinialloc, wordSize] at *
    omega

/-- For a size that wraps a block stays in its place, whatever it holds. -/
theorem MemheapRep.realloc_wrapped (h : MemheapRep m bs) {x n : Nat}
    (hx : (x, n) ∈ usedBlocks 0 bs) (hmax : alignMax < newsize) (hsize : newsize < wordSize) :
    ¬ ReallocRight m live (some (x + rtMemheapSize)) newsize := by
  intro hright
  obtain ⟨hnext, hn, hold⟩ := h.used_block hx
  have hblock := blockSize_wrapped hmax hsize
  have hzero : newsize ≠ 0 := fun heq => Nat.not_lt_zero _ (heq ▸ hmax)
  have hkept : (rtMemheapRealloc m (some (x + rtMemheapSize)) newsize).1 =
      some (x + rtMemheapSize) := by
    simp only [rtMemheapRealloc, if_neg hzero, Nat.add_sub_cancel, hold, hblock]
    rw [if_neg (by omega)]
    split <;> rfl
  have hcase := h.realloc_cases hx hzero (fun _ => by rw [hblock]; decide) (fun _ _ _ _ => 0)
    fun _ => 0
  obtain ⟨-, bs', hrep⟩ := hcase.designates h hx hkept
  have hle := hrep.designates_le (hright.result _ hkept)
  have hinside := hrep.blocks.inside
  simp only [alignMax, rtAlignSize, rtMemheapSize, wordSize] at *
  omega

theorem MemheapRep.realloc_overgrown (h : MemheapRep m bs) {x n : Nat}
    (hx : (x, n) ∈ usedBlocks 0 bs) (hmax : newsize ≤ alignMax)
    (hlarge : alignMax - rtMemheapMinialloc < newsize)
    (hfree : ¬ rtMemheapIsUsed (m.item (m.item x).next)) :
    ¬ ReallocRight m live (some (x + rtMemheapSize)) newsize := by
  intro hright
  obtain ⟨-, -, hold⟩ := h.used_block hx
  obtain ⟨-, hle⟩ := blockSize_eq hmax
  obtain ⟨pre, post, rfl, rfl⟩ := mem_usedBlocks.mp hx
  rw [Nat.zero_add] at *
  rcases mergeRight_cases post with hused | ⟨k, back, rfl⟩
  · exact hfree (h.blocks.isUsed_next hused)
  · have hzero : newsize ≠ 0 := fun heq => Nat.not_lt_zero _ (heq ▸ hlarge)
    have hwraps : wordSize ≤ blockSize newsize + rtMemheapMinialloc := by
      refine Nat.le_of_not_lt fun hlt => ?_
      exact absurd ((blockSize_add_lt_iff hmax).mp hlt) (Nat.not_le_of_lt hlarge)
    have hblock : blockSize newsize ≤ alignMax := by
      unfold blockSize rtAlign alignMax wordSize rtAlignSize rtMemheapMinialloc at *
      split <;> omega
    obtain ⟨hfits, hcut⟩ := h.grow_wrapped hwraps hblock
    have hnext : (m.item (total pre)).next = total pre + n := h.blocks.header.next
    have hgrow : n - rtMemheapSize < blockSize newsize := by
      have htotal := h.blocks.total_eq
      have hinside := h.blocks.inside
      rw [total_append, total_cons] at htotal
      simp only [alignMax, rtAlignSize, rtMemheapSize, rtMemheapMinialloc, wordSize] at *
      omega
    have hgo : rtMemheapRealloc m (some (total pre + rtMemheapSize)) newsize =
        (some (total pre + rtMemheapSize),
          growBlock m (total pre) (total pre + n) (n - rtMemheapSize) (blockSize newsize)) := by
      simp only [rtMemheapRealloc, if_neg hzero, Nat.add_sub_cancel, hold, hnext]
      rw [if_pos hgrow, if_pos hfits]
    have hresult := (hright.result (total pre + rtMemheapSize) (by rw [hgo])).2
    rw [hgo, Nat.add_sub_cancel, hcut] at hresult
    omega

theorem reallocRight_iff (h : MemheapRep m bs)
    (hlive : live.Perm ((offsetsOf true 0 bs).map (· + rtMemheapSize))) {ptr : Option Nat}
    (hp : IsLive live ptr) (hsize : newsize < wordSize) :
    ReallocRight m live ptr newsize ↔
      SizeInRange m ptr newsize ∨
        alignMax < newsize ∧ ptr = none ∧ m.availableSize ≤ rtMemheapMinialloc := by
  by_cases hrange : SizeInRange m ptr newsize
  · exact iff_of_true (reallocRight_inRange h hlive hp hrange) (.inl hrange)
  · rw [or_iff_right hrange]
    cases ptr with
    | none =>
      have hmax : alignMax < newsize := by
        refine Nat.lt_of_not_le fun hle => hrange ⟨hle, fun p hp => ?_⟩
        cases hp
      have hzero : newsize ≠ 0 := fun heq => Nat.not_lt_zero _ (heq ▸ hmax)
      have hblock := blockSize_wrapped hmax hsize
      have hnone := @MemheapRep.alloc_minimum _ _ (blockSize newsize) h
        ((blockSize_blockSize newsize).trans hblock)
      have hgo : rtMemheapRealloc m none newsize = rtMemheapAlloc m (blockSize newsize) := by
        simp only [rtMemheapRealloc, if_neg hzero]
      constructor
      · intro hright
        refine ⟨hmax, rfl, hnone.mp ?_⟩
        by_contra hsome
        obtain ⟨q, hq⟩ := Option.ne_none_iff_exists'.mp hsome
        rcases h.allocated (blockSize newsize) with heq | ⟨y, k, bs₁, -, -, halloc⟩
        · rw [heq] at hq
          cases hq
        · have hresult := hright.result q (by rw [hgo, hq])
          rw [hgo] at hresult
          have hle := halloc.rep.designates_le hresult
          have hinside := halloc.rep.blocks.inside
          simp only [alignMax, rtAlignSize, rtMemheapSize, wordSize] at *
          omega
      · rintro ⟨-, -, havailable⟩
        have hnull : (rtMemheapRealloc m none newsize).1 = none := by
          rw [hgo]
          exact hnone.mpr havailable
        refine ⟨fun q hq => ?_, fun p q _ hq => ?_, fun q hq => ?_,
          fun _ _ p hp => absurd hp.symm (Option.some_ne_none p)⟩ <;>
          exact absurd (hnull.symm.trans hq).symm (Option.some_ne_none q)
    | some p =>
      refine iff_of_false ?_ fun halt => absurd halt.2.1 (Option.some_ne_none p)
      obtain ⟨x, n, hx, rfl⟩ := used_of_live hlive (hp p rfl)
      by_cases hmax : newsize ≤ alignMax
      · have hover : ¬ (rtMemheapIsUsed (m.item (m.item x).next) ∨
            newsize ≤ alignMax - rtMemheapMinialloc) := by
          refine fun hin => hrange ⟨hmax, fun p' hp' => ?_⟩
          obtain rfl : x + rtMemheapSize = p' := Option.some.inj hp'
          rwa [Nat.add_sub_cancel]
        obtain ⟨hfree, hlarge⟩ := not_or.mp hover
        exact h.realloc_overgrown hx hmax (Nat.lt_of_not_le hlarge) hfree
      · exact h.realloc_wrapped hx (Nat.lt_of_not_le hmax) hsize

end Results

/-! ## Runs -/

/-- When `rt_memheap_alloc` and `rt_memheap_realloc` do what their callers expect. -/
theorem memheap_results_iff {startAddr size : Nat} (h : LargeEnough startAddr size)
    (item : Nat → RtMemheapItem) (free : Links ItemPtr) {calls : List HeapCall}
    {s : HeapSys RtMemheap}
    (run : memheap.Run GrowInRange ⟨rtMemheapInit startAddr size item free, []⟩ calls s) :
    (∀ size < wordSize, AllocRight s.heap size ↔
      size ≤ alignMax ∧ ¬ OnlyFits s.heap size ∨
        alignMax < size ∧ s.heap.availableSize ≤ rtMemheapMinialloc) ∧
    ∀ ptr newsize, IsLive s.live ptr → newsize < wordSize →
      (ReallocRight s.heap s.live ptr newsize ↔
        SizeInRange s.heap ptr newsize ∨
          alignMax < newsize ∧ ptr = none ∧ s.heap.availableSize ≤ rtMemheapMinialloc) := by
  obtain ⟨bs, hrep, hlive⟩ := memheapLive_run h item free run
  refine ⟨fun size hsize => ?_, fun ptr newsize hp hsize => reallocRight_iff hrep hlive hp hsize⟩
  rcases Nat.lt_or_ge alignMax size with hlarge | hmax
  · rw [hrep.allocRight_wrapped hlarge hsize]
    exact ⟨fun hfull => .inr ⟨hlarge, hfull⟩, fun hcase => hcase.elim
      (fun hin => absurd hlarge (Nat.not_lt_of_le hin.1)) And.right⟩
  · rw [hrep.allocRight_fits hmax]
    exact ⟨fun hfits => .inl ⟨hmax, hfits⟩, fun hcase => hcase.elim And.right
      fun hwrap => absurd hwrap.1 (Nat.not_lt_of_le hmax)⟩

/-- A pool of 512 bytes before its first block. -/
def pool512 : RtMemheap :=
  rtMemheapInit 0x20000000 512 (fun _ => ⟨0, 0, 0⟩) ⟨fun _ => .null, fun _ => .null⟩

/-- The second of two blocks can be asked to hold more, and a third one can be had. -/
theorem memheap_results_room :
    ∃ s, memheap.Run GrowInRange ⟨pool512, []⟩ [.alloc 24, .alloc 40] s ∧ s.live = [72, 24] ∧
      AllocRight s.heap 20 ∧ ReallocRight s.heap s.live (some 72) 200 := by
  have hlarge : LargeEnough 0x20000000 512 := ⟨by decide, by decide, by decide⟩
  have hexec : (memheap.exec ⟨pool512, []⟩ [.alloc 24, .alloc 40]).map
      (fun s => (s.live, freeItems s.heap, userSize s.heap 112)) =
        some ([72, 24], [112], 352) := by
    decide
  obtain ⟨s, hs, hvalues⟩ := Option.map_eq_some_iff.mp hexec
  obtain ⟨hlive, hvalues⟩ := Prod.mk.inj hvalues
  obtain ⟨hfree, hroom⟩ := Prod.mk.inj hvalues
  have run : memheap.Run GrowInRange ⟨pool512, []⟩ [.alloc 24, .alloc 40] s :=
    Machine.Run.of_exec hs (.cons trivial rfl <| .cons trivial rfl trivial)
  obtain ⟨halloc, hrealloc⟩ := memheap_results_iff hlarge _ _ run
  have hnot : ¬ OnlyFits s.heap 20 := by
    rintro ⟨o, ho, hsize⟩
    obtain rfl : 112 = o := List.head_eq_of_cons_eq (hfree.symm.trans ho)
    exact absurd (hroom.symm.trans hsize) (by decide)
  have hp : IsLive s.live (some 72) := by
    rw [hlive]
    decide
  refine ⟨s, run, hlive, (halloc 20 (by decide)).mpr (.inl ⟨by decide, hnot⟩), ?_⟩
  exact (hrealloc (some 72) 200 hp (by decide)).mpr
    (.inl ⟨by decide, fun _ _ => .inr (by decide)⟩)

/-- The 464 bytes of the only free block cannot be had, and for 4294967295 bytes
`rt_memheap_alloc` returns a block of 16 and `rt_memheap_realloc` the block as it is. -/
theorem not_memheap_results :
    (freeItems pool512 = [0] ∧ userSize pool512 0 = 464 ∧ (rtMemheapAlloc pool512 464).1 = none) ∧
    ((rtMemheapAlloc pool512 4294967295).1 = some 24 ∧
      userSize (rtMemheapAlloc pool512 4294967295).2 0 = 16) ∧
    (rtMemheapRealloc (rtMemheapAlloc pool512 24).2 (some 24) 4294967295).1 = some 24 ∧
    ¬ AllocRight pool512 464 ∧ ¬ AllocRight pool512 4294967295 := by
  refine ⟨by decide, by decide, by decide, fun hright => ?_, fun hright => ?_⟩
  · exact absurd (hright.complete (by decide) 0 (by decide)) (by decide)
  · have hle := (hright.result 24 (by decide)).2
    exact absurd hle (by decide)

end Gd32Vw553h.Kernel.Memheap
