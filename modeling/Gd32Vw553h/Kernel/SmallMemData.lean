/-
  Kernel/SmallMemData.lean --- what the callers of the small memory heap get
  (`src/mem.c`).

  A pointer that `rt_smem_alloc` or `rt_smem_realloc` returns designates a live block of
  the size asked for, unless `RT_ALIGN` has wrapped: `smem_results_iff`.  The search
  misses no block that is large enough, and what the calls write are headers outside the
  live data, so that `rt_smem_realloc` moves the data as it should:
  `smem_complete_preserves`.

  The bytes of the heap are kept beside the headers; a header that a call changes takes
  the first 12 of its 16 bytes.
-/
import Gd32Vw553h.Foundation.BlockData
import Gd32Vw553h.Kernel.SmallMem

set_option autoImplicit false

namespace Gd32Vw553h.Kernel

open Gd32Vw553h.Foundation

/-! ## Blocks as a caller sees them -/

/-- The offsets of the headers from `ptr` up to `heap_end`, over at most `fuel` blocks. -/
def walk (m : RtSmallMem) : Nat → Nat → List Nat
  | 0, _ => []
  | fuel + 1, ptr => if ptr = m.heapEnd then [] else ptr :: walk m fuel (m.item ptr).next

/-- The pointers behind the headers of the used blocks. -/
def livePointers (m : RtSmallMem) : List Nat :=
  ((walk m m.fuel 0).filter fun o => memIsUsed (m.item o)).map (· + sizeofStructMem)

/-- The headers of the free blocks. -/
def freeItems (m : RtSmallMem) : List Nat :=
  (walk m m.fuel 0).filter fun o => ¬ memIsUsed (m.item o)

/-- `next - (ptr + SIZEOF_STRUCT_MEM)`, the bytes behind a header. -/
def userSize (m : RtSmallMem) (ptr : Nat) : Nat := (m.item ptr).next - (ptr + sizeofStructMem)

/-- `p` designates a live block of at least `size` bytes. -/
def Designates (m : RtSmallMem) (p size : Nat) : Prop :=
  p ∈ livePointers m ∧ size ≤ userSize m (p - sizeofStructMem)

/-- What `rt_smem_alloc` returns has the size asked for. -/
def AllocRight (m : RtSmallMem) (size : Nat) : Prop :=
  ∀ p, (rtSmemAlloc m size).1 = some p → Designates (rtSmemAlloc m size).2 p size

/-! ### Bytes -/

/-- The bytes of a word, the lowest one first. -/
def wordByte (w k : Nat) : UInt8 := UInt8.ofNat (w >>> (8 * k))

/-- The bytes of a header. -/
def itemByte (item : RtSmallMemItem) (k : Nat) : UInt8 :=
  if k < 4 then wordByte item.poolPtr k
  else if k < 8 then wordByte item.next (k - 4)
  else wordByte item.prev (k - 8)

/-- The bytes of the heap after the headers have come from those of `m` to those of `m'`. -/
def storeItems (m m' : RtSmallMem) (bytes : Nat → UInt8) : Nat → UInt8 :=
  storeHeaders 12 (fun o => m'.item o ≠ m.item o) (fun o => itemByte (m'.item o)) bytes

/-- What `rt_smem_realloc` does to the bytes of the heap. -/
def rtSmemReallocBytes (m : RtSmallMem) (rmem : Option Nat) (newsize : Nat)
    (bytes : Nat → UInt8) : Nat → UInt8 :=
  let newsize := rtAlign newsize
  if newsize > m.memSizeAligned then bytes
  else if newsize = 0 then storeItems m (rtSmemFree m rmem) bytes
  else
    match rmem with
    | none => storeItems m (rtSmemAlloc m newsize).2 bytes
    | some rmem =>
      let ptr := rmem - sizeofStructMem
      let size := (m.item ptr).next - ptr - sizeofStructMem
      if size = newsize then bytes
      else if newsize + sizeofStructMem + minSize < size then
        storeItems m (shrinkBlock m ptr size newsize) bytes
      else
        match rtSmemAlloc m newsize with
        | (some nmem, m') =>
          let bytes := storeItems m m' bytes
          let bytes := copyBytes nmem rmem (if size < newsize then size else newsize) bytes
          storeItems m' (rtSmemFree m' (some rmem)) bytes
        | (none, _) => bytes

/-- What `rt_smem_realloc` returns has the size asked for, and a block that it could not
change is still there with its data. -/
structure ReallocRight (m : RtSmallMem) (rmem : Option Nat) (newsize : Nat) : Prop where
  result : ∀ q, (rtSmemRealloc m rmem newsize).1 = some q →
    Designates (rtSmemRealloc m rmem newsize).2 q newsize
  null : (rtSmemRealloc m rmem newsize).1 = none → 0 < newsize → ∀ p, rmem = some p →
    p ∈ livePointers (rtSmemRealloc m rmem newsize).2 ∧ (rtSmemRealloc m rmem newsize).2 = m ∧
      ∀ bytes, rtSmemReallocBytes m rmem newsize bytes = bytes

/-- A block that `rt_smem_realloc` returns has the data of the old one, and the data of the
others stay. -/
structure ReallocPreserves (m : RtSmallMem) (live : List Nat) (rmem : Option Nat) (newsize : Nat)
    (bytes : Nat → UInt8) : Prop where
  data : ∀ p q, rmem = some p → (rtSmemRealloc m rmem newsize).1 = some q →
    ∀ i < min (userSize m (p - sizeofStructMem)) newsize,
      rtSmemReallocBytes m rmem newsize bytes (q + i) = bytes (p + i)
  others : ∀ q, (rtSmemRealloc m rmem newsize).1 = some q → ∀ p ∈ live, rmem ≠ some p →
    ∀ i < userSize m (p - sizeofStructMem),
      rtSmemReallocBytes m rmem newsize bytes (p + i) = bytes (p + i)

/-! ### The walk -/

theorem RtSmallMem.Blocks.walk_eq {m : RtSmallMem} {pre post : List Block} {fuel : Nat}
    (h : m.Blocks (pre ++ post)) (hfuel : post.length < fuel) :
    walk m fuel (total pre) = offsets (total pre) post := by
  induction fuel generalizing pre post with
  | zero => exact absurd hfuel (Nat.not_lt_zero _)
  | succ fuel ih =>
    cases post with
    | nil =>
      rw [List.append_nil] at h
      exact if_pos h.total_eq
    | cons b post =>
      have hpos := h.header.pos
      have hend : total pre ≠ m.heapEnd := by
        rw [← h.total_eq, total_append, total_cons]
        omega
      have happend : m.Blocks ((pre ++ [b]) ++ post) := by
        rwa [List.append_assoc]
      have hnext : total (pre ++ [b]) = total pre + b.size := by
        rw [total_append, total_cons, total_nil, Nat.add_zero]
      have hrest := ih happend (Nat.lt_of_succ_lt_succ hfuel)
      rw [hnext] at hrest
      rw [walk, if_neg hend, h.header.next, hrest, offsets]

section Rep

variable {m : RtSmallMem} {bs : List Block}

theorem SmemRep.walk_eq (h : SmemRep m bs) : walk m m.fuel 0 = offsets 0 bs := by
  have hblocks : m.Blocks ([] ++ bs) := h.blocks
  exact hblocks.walk_eq hblocks.length_lt_fuel

theorem SmemRep.livePointers_eq (h : SmemRep m bs) :
    livePointers m = (offsetsOf true 0 bs).map (· + sizeofStructMem) := by
  rw [livePointers, h.walk_eq, h.blocks.laid.filter_offsets fun q o b hb => ?_]
  have hused := memIsUsed_iff hb
  cases hb' : b.used <;> simp [hused, hb']

theorem SmemRep.freeItems_eq (h : SmemRep m bs) : freeItems m = offsetsOf false 0 bs := by
  rw [freeItems, h.walk_eq, h.blocks.laid.filter_offsets fun q o b hb => ?_]
  have hused := memIsUsed_iff hb
  cases hb' : b.used <;> simp [hused, hb']

theorem SmemRep.userSize_eq {pre post : List Block} {b : Block} (h : SmemRep m (pre ++ b :: post)) :
    userSize m (total pre) = b.size - sizeofStructMem := by
  rw [userSize, h.blocks.header.next]
  omega

/-- The block in the middle is the one that its pointer designates. -/
theorem SmemRep.designates {pre post : List Block} {n size : Nat}
    (h : SmemRep m (pre ++ ⟨n, true⟩ :: post)) (hsize : sizeofStructMem + size ≤ n) :
    Designates m (total pre + sizeofStructMem) size := by
  refine ⟨?_, ?_⟩
  · rw [h.livePointers_eq]
    exact List.mem_map_of_mem (mem_offsetsOf.mpr ⟨pre, _, post, rfl, rfl, (Nat.zero_add _).symm⟩)
  · rw [Nat.add_sub_cancel, h.userSize_eq]
    exact Nat.le_sub_of_add_le' hsize

theorem SmemRep.designates_used {x n size : Nat} (h : SmemRep m bs)
    (hx : (x, n) ∈ usedBlocks 0 bs) (hsize : sizeofStructMem + size ≤ n) :
    Designates m (x + sizeofStructMem) size := by
  obtain ⟨pre, post, rfl, rfl⟩ := mem_usedBlocks.mp hx
  rw [Nat.zero_add]
  exact h.designates hsize

/-- No free block of the list has room for `k` bytes exactly if none on the walk has. -/
theorem SmemRep.forall_free_iff (h : SmemRep m bs) (k : Nat) :
    (∀ b ∈ bs, b.used = false → b.size < sizeofStructMem + k) ↔
      ∀ o ∈ freeItems m, userSize m o < k := by
  rw [h.freeItems_eq]
  constructor
  · intro hsmall o ho
    obtain ⟨pre, b, post, rfl, hfree, rfl⟩ := mem_offsetsOf.mp ho
    have hb := hsmall b (List.mem_append_right pre List.mem_cons_self) hfree
    have hsize := h.blocks.header.size
    rw [Nat.zero_add, h.userSize_eq]
    omega
  · intro hsmall b hb hfree
    obtain ⟨pre, post, rfl⟩ := List.append_of_mem hb
    have ho := hsmall (total pre)
      (mem_offsetsOf.mpr ⟨pre, b, post, rfl, hfree, (Nat.zero_add _).symm⟩)
    rw [h.userSize_eq] at ho
    omega

end Rep

/-! ## Sizes -/

theorem le_allocSize {size : Nat} (h : rtAlign size = size ∨ size ≤ rtAlign size) :
    size ≤ allocSize size := by
  unfold allocSize minSizeAligned
  split <;> omega

/-- The heap lies within the address space. -/
theorem rtSmemInit_inside {beginAddr size : Nat} {item : Nat → RtSmallMemItem} {m : RtSmallMem}
    (h : rtSmemInit beginAddr size item = some m) :
    m.memSizeAligned + 2 * sizeofStructMem ≤ wordSize := by
  unfold rtSmemInit at h
  dsimp only at h
  split at h
  · obtain rfl := Option.some.inj h
    have hle := rtAlignDown_le ((beginAddr + size) % wordSize)
    have hlt : (beginAddr + size) % wordSize < wordSize := Nat.mod_lt _ (by decide)
    show _ - _ - 2 * sizeofStructMem + 2 * sizeofStructMem ≤ wordSize
    simp only [sizeofStructMem, wordSize] at *
    omega
  · cases h

/-! ## What the calls write -/

section Frame

variable {m : RtSmallMem} {pre post : List Block} {o : Nat}

theorem markUsed_item {ptr : Nat} (h : o ≠ ptr) : (markUsed m ptr).item o = m.item o := by
  simp only [markUsed]
  split <;> exact (RtSmallMem.set_item m ptr _ o).trans (if_neg h)

theorem addUsed_item (n : Nat) : (addUsed m n).item = m.item := rfl

/-- `combine` writes the headers of the two blocks and the one behind them. -/
theorem combine_outside {k n : Nat} {u v : Bool}
    (h : m.Blocks (pre ++ ⟨k, u⟩ :: ⟨n, v⟩ :: post))
    (ho : o < total pre ∨ total pre + (k + n) < o) :
    (combine m (total pre) (total pre + k)).item o = m.item o := by
  have hn : Header m.addr m.item (total pre) (total pre + k) ⟨n, v⟩ := by
    have hlaid := (laid_split.mp h.laid).2.2.1
    rwa [Nat.zero_add] at hlaid
  have hkpos : 0 < k := h.header.pos
  have hnpos : 0 < n := hn.pos
  have hitem := combine_item hn.next (Nat.lt_add_of_pos_right hkpos)
    (Nat.lt_add_of_pos_right hnpos) o
  dsimp only at hitem
  rw [hitem, if_neg (by omega), if_neg (by omega), if_neg (by omega)]

theorem plugForward_inside {n : Nat} (h : m.Blocks (pre ++ ⟨n, false⟩ :: post))
    (ho : Inside (pre ++ ⟨n, false⟩ :: post) o) :
    (plugForward m (total pre)).item o = m.item o := by
  rcases mergeRight_cases post with hused | ⟨k, rest, rfl⟩
  · have hstop : plugForward m (total pre) = m :=
      if_neg fun hcond => hcond.2.1 (h.memIsUsed_next hused)
    rw [hstop]
  · have hnext : (m.item (total pre)).next = total pre + n := h.header.next
    have hmerged := ho.congr (usedBlocks_merge 0 n k pre rest).symm
    simp only [plugForward, hnext]
    split
    · exact combine_outside h hmerged.outside
    · rfl

theorem plugBackward_inside {n : Nat} (h : m.Blocks (pre ++ ⟨n, false⟩ :: post))
    (ho : Inside (pre ++ ⟨n, false⟩ :: post) o) :
    (plugBackward m (total pre)).item o = m.item o := by
  have hprev := h.header.prev
  rcases List.eq_nil_or_concat pre with rfl | ⟨rest, ⟨k, u⟩, rfl⟩
  · have hstop : plugBackward m (total []) = m := if_neg fun hcond => hcond.1 hprev
    rw [hstop]
  · rw [List.concat_eq_append] at h ho hprev ⊢
    rw [lastAt_append_singleton, Nat.zero_add] at hprev
    have hpair : m.Blocks (rest ++ ⟨k, u⟩ :: ⟨n, false⟩ :: post) := by
      rwa [List.append_assoc] at h
    have htotal : total (rest ++ [⟨k, u⟩]) = total rest + k := by simp
    rw [htotal] at hprev ⊢
    simp only [plugBackward, hprev]
    split
    next hfree =>
      have hu : u = false := Bool.eq_false_iff.mpr fun hu =>
        hfree.2 ((memIsUsed_iff hpair.header).mpr hu)
      subst hu
      rw [List.append_assoc] at ho
      exact combine_outside hpair (ho.congr (usedBlocks_merge 0 k n rest post).symm).outside
    next => rfl

/-- `plug_holes` writes nothing inside a used block. -/
theorem plugHoles_inside {n : Nat} (h : m.Blocks (pre ++ ⟨n, false⟩ :: post))
    (ho : Inside (pre ++ ⟨n, false⟩ :: post) o) :
    (plugHoles m (total pre)).item o = m.item o := by
  have hmerged := ho.congr (usedBlocks_mergeRight 0 n pre post)
  exact (plugBackward_inside h.plugForward.1 hmerged).trans (plugForward_inside h ho)

theorem splitBlock_outside {k size : Nat} {u : Bool} (h : m.Blocks (pre ++ ⟨k, u⟩ :: post))
    (hlt : sizeofStructMem + size < k) (hnew : o ≠ total pre + sizeofStructMem + size)
    (hptr : o ≠ total pre) (hnext : o ≠ total pre + k) :
    (splitBlock m (total pre) size).item o = m.item o := by
  have hitem := splitBlock_item h.header.next
    (show total pre + sizeofStructMem + size < total pre + k by omega) o
  dsimp only at hitem
  rw [hitem, if_neg fun hc => hnext hc.1, if_neg hptr, if_neg hnew]

/-- `rt_smem_alloc` writes nothing inside a used block. -/
theorem takeBlock_inside {k size : Nat} (h : m.Blocks (pre ++ ⟨k, false⟩ :: post))
    (ho : Inside (pre ++ ⟨k, false⟩ :: post) o) :
    (takeBlock m (total pre) size).item o = m.item o := by
  have hout := ho.outside
  have hne : o ≠ total pre := ho.ne_boundary
  have hnext : (m.item (total pre)).next = total pre + k := h.header.next
  unfold takeBlock
  split
  next hsplit =>
    have hmin : 0 < minSizeAligned := by decide
    rw [hnext] at hsplit
    rw [markUsed_item hne, addUsed_item]
    refine splitBlock_outside h ?_ ?_ hne ?_ <;> omega
  next => rw [markUsed_item hne, addUsed_item]

/-- `rt_smem_free` writes nothing inside another used block. -/
theorem rtSmemFree_inside {n : Nat} (h : m.Blocks (pre ++ ⟨n, true⟩ :: post))
    (ho : Inside (pre ++ ⟨n, false⟩ :: post) o) :
    (rtSmemFree m (some (total pre + sizeofStructMem))).item o = m.item o := by
  let marked := m.set (total pre) { m.item (total pre) with poolPtr := memFreed m.addr }
  have hmarked : marked.item o = m.item o :=
    (RtSmallMem.set_item m (total pre) _ o).trans (if_neg ho.ne_boundary)
  obtain ⟨freed, hgo, hsame, hitem⟩ : ∃ freed : RtSmallMem,
      rtSmemFree m (some (total pre + sizeofStructMem)) = plugHoles freed (total pre) ∧
        SameHeap marked freed ∧ freed.item = marked.item := by
    simp only [rtSmemFree, Nat.add_sub_cancel]
    split <;> exact ⟨_, rfl, ⟨rfl, rfl, rfl, rfl⟩, rfl⟩
  have hblocks : freed.Blocks (pre ++ ⟨n, false⟩ :: post) := (h.retag false).congr hsame hitem
  rw [hgo, plugHoles_inside hblocks ho, hitem, hmarked]

/-- Giving back the rear of a block writes nothing inside what is left of it. -/
theorem shrinkBlock_inside {newsize rest : Nat}
    (h : m.Blocks (pre ++ ⟨sizeofStructMem + newsize + rest, true⟩ :: post))
    (hnewsize : rtAlignSize ∣ newsize) (hrest : sizeofStructMem ≤ rest)
    (ho : Inside ((pre ++ [⟨sizeofStructMem + newsize, true⟩]) ++ ⟨rest, false⟩ :: post) o) :
    (shrinkBlock m (total pre) (newsize + rest) newsize).item o = m.item o := by
  have hptr2 : total (pre ++ [⟨sizeofStructMem + newsize, true⟩]) =
      total pre + sizeofStructMem + newsize := by
    simp only [total_append, total_cons, total_nil, Nat.add_zero, Nat.add_assoc]
  let less : RtSmallMem := { m with used := m.used - (newsize + rest - newsize) }
  have hless : less.Blocks (pre ++ ⟨sizeofStructMem + newsize + rest, true⟩ :: post) :=
    h.congr ⟨rfl, rfl, rfl, rfl⟩ rfl
  obtain ⟨low, hgo, hsame, hitem⟩ : ∃ low : RtSmallMem,
      shrinkBlock m (total pre) (newsize + rest) newsize =
          plugHoles low (total (pre ++ [⟨sizeofStructMem + newsize, true⟩])) ∧
        SameHeap (splitBlock less (total pre) newsize) low ∧
        low.item = (splitBlock less (total pre) newsize).item := by
    rw [hptr2]
    simp only [shrinkBlock]
    split <;> exact ⟨_, rfl, ⟨rfl, rfl, rfl, rfl⟩, rfl⟩
  have hblocks : low.Blocks
      ((pre ++ [⟨sizeofStructMem + newsize, true⟩]) ++ ⟨rest, false⟩ :: post) := by
    rw [List.append_assoc]
    exact (RtSmallMem.Blocks.split hless hnewsize hrest).congr hsame hitem
  have hout := ho.outside
  have hfront : o ≠ total pre := by
    rw [List.append_assoc] at ho
    exact ho.ne_boundary
  have hpos : 0 < sizeofStructMem := by decide
  rw [hptr2] at hout
  rw [hgo, plugHoles_inside hblocks ho, hitem]
  refine splitBlock_outside hless ?_ ?_ hfront ?_ <;> omega

end Frame

/-! ## What the calls do to the used blocks -/

/-- The header at `x` belongs to a used block of `n` bytes. -/
theorem SmemRep.used_block {m : RtSmallMem} {bs : List Block} (h : SmemRep m bs) {x n : Nat}
    (hx : (x, n) ∈ usedBlocks 0 bs) : (m.item x).next = x + n ∧ sizeofStructMem ≤ n := by
  obtain ⟨pre, post, rfl, rfl⟩ := mem_usedBlocks.mp hx
  rw [Nat.zero_add]
  exact ⟨h.blocks.header.next, h.blocks.header.size⟩

/-- What a successful `rt_smem_alloc` does: there is one more used block. -/
structure Allocated (m m' : RtSmallMem) (bs bs' : List Block) (x n : Nat) : Prop where
  rep : SmemRep m' bs'
  used : (x, n) ∈ usedBlocks 0 bs'
  kept : ∀ b ∈ usedBlocks 0 bs, b ∈ usedBlocks 0 bs' ∧ b.1 ≠ x
  inside : ∀ o, Inside bs o → m'.item o = m.item o

/-- What `rt_smem_free` does: there is one used block less. -/
structure Freed (m m' : RtSmallMem) (bs bs' : List Block) (x : Nat) : Prop where
  rep : SmemRep m' bs'
  kept : ∀ b ∈ usedBlocks 0 bs, b.1 ≠ x → b ∈ usedBlocks 0 bs'
  gone : ∀ b ∈ usedBlocks 0 bs', b.1 ≠ x
  inside : ∀ o, Inside bs' o → m'.item o = m.item o

/-- What the branch of `rt_smem_realloc` that cuts a block does: it is smaller. -/
structure Shrunk (m m' : RtSmallMem) (bs bs' : List Block) (x n : Nat) : Prop where
  rep : SmemRep m' bs'
  used : (x, n) ∈ usedBlocks 0 bs'
  kept : ∀ b ∈ usedBlocks 0 bs, b.1 ≠ x → b ∈ usedBlocks 0 bs'
  inside : ∀ o, Inside bs' o → m'.item o = m.item o

section Calls

variable {m : RtSmallMem} {bs : List Block}

theorem SmemRep.allocated (h : SmemRep m bs) (size : Nat) :
    rtSmemAlloc m size = (none, m) ∨ ∃ x n bs',
      (rtSmemAlloc m size).1 = some (x + sizeofStructMem) ∧
        sizeofStructMem + allocSize size ≤ n ∧
        Allocated m (rtSmemAlloc m size).2 bs bs' x n := by
  rcases h.alloc size with hnone | ⟨pre, k, post, n, rest, hbs, hn, hrest, hk, hptr, hrep⟩
  · exact .inl hnone
  · refine .inr ⟨total pre, n, _, hptr, hn, hrep, ?_, fun b hb => ⟨?_, ?_⟩, fun o ho => ?_⟩
    · exact mem_usedBlocks.mpr ⟨pre, rest ++ post, rfl, (Nat.zero_add _).symm⟩
    · subst hk hbs
      exact mem_usedBlocks_take hrest hb
    · exact ne_of_mem_usedBlocks h.blocks.pos hbs hb
    · subst hbs
      have htake : (rtSmemAlloc m size).2 = takeBlock m (total pre) (allocSize size) := by
        revert hptr
        unfold rtSmemAlloc
        split
        · exact fun hptr => absurd hptr.symm (Option.some_ne_none _)
        · split
          · exact fun hptr => absurd hptr.symm (Option.some_ne_none _)
          · split
            · exact fun hptr => absurd hptr.symm (Option.some_ne_none _)
            next ptr _ =>
              intro hptr
              obtain rfl : ptr = total pre := Nat.add_right_cancel (Option.some.inj hptr)
              rfl
      rw [htake]
      exact takeBlock_inside h.blocks ho

theorem SmemRep.freed (h : SmemRep m bs) {x n : Nat} (hx : (x, n) ∈ usedBlocks 0 bs) :
    ∃ bs', Freed m (rtSmemFree m (some (x + sizeofStructMem))) bs bs' x := by
  obtain ⟨pre, post, rfl, rfl⟩ := mem_usedBlocks.mp hx
  rw [Nat.zero_add]
  have hsame := usedBlocks_freeAt 0 n pre post
  have hpos : ∀ b ∈ pre ++ ⟨n, false⟩ :: post, 0 < b.size := (h.blocks.retag false).pos
  refine ⟨freeAt pre n post, h.free, fun b hb hne => ?_, fun b hb => ?_, fun o ho => ?_⟩
  · rw [hsame]
    exact mem_usedBlocks_free hb (by rwa [Nat.zero_add])
  · rw [hsame] at hb
    exact ne_of_mem_usedBlocks hpos rfl hb
  · exact rtSmemFree_inside h.blocks (ho.congr hsame.symm)

theorem SmemRep.shrunk {pre post : List Block} {newsize rest : Nat}
    (h : SmemRep m (pre ++ ⟨sizeofStructMem + newsize + rest, true⟩ :: post))
    (hnewsize : rtAlignSize ∣ newsize) (hrest : sizeofStructMem ≤ rest) :
    ∃ bs', Shrunk m (shrinkBlock m (total pre) (newsize + rest) newsize)
      (pre ++ ⟨sizeofStructMem + newsize + rest, true⟩ :: post) bs' (total pre)
      (sizeofStructMem + newsize) := by
  have hsame := usedBlocks_freeAt 0 rest (pre ++ [⟨sizeofStructMem + newsize, true⟩]) post
  refine ⟨freeAt (pre ++ [⟨sizeofStructMem + newsize, true⟩]) rest post,
    h.shrink hnewsize hrest, ?_, fun b hb hne => ?_, fun o ho => ?_⟩
  · rw [hsame, List.append_assoc]
    exact mem_usedBlocks.mpr ⟨pre, ⟨rest, false⟩ :: post, rfl, (Nat.zero_add _).symm⟩
  · have hfree := mem_usedBlocks_free hb (by rwa [Nat.zero_add])
    rw [usedBlocks_append, usedBlocks_cons_free] at hfree
    rw [hsame, List.append_assoc, List.singleton_append, usedBlocks_append,
      usedBlocks_cons_used, usedBlocks_cons_free, Nat.add_assoc (0 + total pre)]
    rcases List.mem_append.mp hfree with hpre | hpost
    · exact List.mem_append_left _ hpre
    · exact List.mem_append_right _ (List.mem_cons_of_mem _ hpost)
  · exact shrinkBlock_inside h.blocks hnewsize hrest (ho.congr hsame.symm)

end Calls

/-! ## Results -/

section Results

variable {m : RtSmallMem} {bs : List Block}

/-- A block that is returned has the aligned size. -/
theorem SmemRep.alloc_designates (h : SmemRep m bs) {size p : Nat}
    (hp : (rtSmemAlloc m size).1 = some p) :
    Designates (rtSmemAlloc m size).2 p (allocSize size) := by
  rcases h.alloc size with hnone | ⟨pre, k, post, n, rest, -, hn, -, -, hptr, hrep⟩
  · rw [hnone] at hp
    cases hp
  · obtain rfl := Option.some.inj (hptr.symm.trans hp)
    exact hrep.designates hn

theorem Designates.mono {p size size' : Nat} (h : Designates m p size') (hle : size ≤ size') :
    Designates m p size :=
  ⟨h.1, Nat.le_trans hle h.2⟩

/-- The heap has no block of more bytes than it manages. -/
theorem SmemRep.designates_le (h : SmemRep m bs) {p size : Nat} (hp : Designates m p size) :
    size ≤ m.memSizeAligned := by
  obtain ⟨hmem, hsize⟩ := hp
  rw [h.livePointers_eq] at hmem
  obtain ⟨o, ho, rfl⟩ := List.mem_map.mp hmem
  obtain ⟨pre, b, post, rfl, -, rfl⟩ := mem_offsetsOf.mp ho
  have htotal := h.blocks.total_eq
  rw [h.blocks.heapEnd, total_append, total_cons] at htotal
  rw [Nat.add_sub_cancel, Nat.zero_add, h.userSize_eq] at hsize
  omega

theorem allocRight_iff (h : SmemRep m bs) (hinside : m.memSizeAligned < alignMax) {size : Nat}
    (hsize : size < wordSize) :
    AllocRight m size ↔
      size ≤ alignMax ∨ ∀ o ∈ freeItems m, userSize m o < minSizeAligned := by
  obtain ⟨hfits, hwraps⟩ := le_rtAlign_iff hsize
  by_cases hmax : size ≤ alignMax
  · refine iff_of_true (fun p hp => ?_) (.inl hmax)
    exact (h.alloc_designates hp).mono (le_allocSize (.inr (hfits hmax)))
  · have halloc : allocSize size = minSizeAligned := by
      rw [allocSize, hwraps (Nat.lt_of_not_le hmax), if_pos (by decide)]
    have hzero : size ≠ 0 := fun heq => hmax (heq ▸ Nat.zero_le _)
    have hnone := rtSmemAlloc_eq_none_iff h size
    rw [halloc, h.forall_free_iff, or_iff_right hzero] at hnone
    rw [or_iff_right hmax, ← hnone]
    constructor
    · intro hright
      by_contra hsome
      obtain ⟨p, hp⟩ := Option.ne_none_iff_exists'.mp hsome
      have hsame := rtSmemAlloc_same m size
      rcases h.alloc size with heq | ⟨pre, k, post, n, rest, -, -, -, -, -, hrep⟩
      · rw [heq] at hp
        cases hp
      · have hle := hrep.designates_le (hright p hp)
        rw [hsame.memSizeAligned] at hle
        omega
    · intro hnone p hp
      rw [hnone] at hp
      cases hp

end Results

/-! ### `rt_smem_realloc` -/

/-- How `rt_smem_realloc` ends for a used block of `n` bytes at `x` and an aligned size that
is not 0. -/
inductive ReallocCase (m : RtSmallMem) (bs : List Block) (x n size : Nat) (bytes : Nat → UInt8) :
    Option Nat → RtSmallMem → (Nat → UInt8) → Prop where
  | failed : ReallocCase m bs x n size bytes none m bytes
  | same (hn : n = sizeofStructMem + size) :
      ReallocCase m bs x n size bytes (some (x + sizeofStructMem)) m bytes
  | shrunk {m' : RtSmallMem} {bs' : List Block} (hn : sizeofStructMem + size ≤ n)
      (h : Shrunk m m' bs bs' x (sizeofStructMem + size)) :
      ReallocCase m bs x n size bytes (some (x + sizeofStructMem)) m' (storeItems m m' bytes)
  | moved {m₁ m₂ : RtSmallMem} {bs₁ bs₂ : List Block} {y k : Nat}
      (hk : sizeofStructMem + size ≤ k) (halloc : Allocated m m₁ bs bs₁ y k)
      (hfree : Freed m₁ m₂ bs₁ bs₂ x) :
      ReallocCase m bs x n size bytes (some (y + sizeofStructMem)) m₂
        (storeItems m₁ m₂ (copyBytes (y + sizeofStructMem) (x + sizeofStructMem)
          (if n - sizeofStructMem < size then n - sizeofStructMem else size)
          (storeItems m m₁ bytes)))

section Realloc

variable {m : RtSmallMem} {bs : List Block} {x n newsize : Nat} {bytes : Nat → UInt8}

theorem rtSmemRealloc_zero (m : RtSmallMem) (rmem : Option Nat) (h : rtAlign newsize = 0) :
    rtSmemRealloc m rmem newsize = (none, rtSmemFree m rmem) := by
  simp only [rtSmemRealloc, h]
  rfl

theorem SmemRep.realloc_cases (h : SmemRep m bs) (hx : (x, n) ∈ usedBlocks 0 bs)
    (hzero : rtAlign newsize ≠ 0) (bytes : Nat → UInt8) :
    ReallocCase m bs x n (rtAlign newsize) bytes
      (rtSmemRealloc m (some (x + sizeofStructMem)) newsize).1
      (rtSmemRealloc m (some (x + sizeofStructMem)) newsize).2
      (rtSmemReallocBytes m (some (x + sizeofStructMem)) newsize bytes) := by
  obtain ⟨hnext, hn⟩ := h.used_block hx
  have hold : (m.item x).next - x - sizeofStructMem = n - sizeofStructMem := by
    rw [hnext, Nat.add_sub_cancel_left]
  simp only [rtSmemRealloc, rtSmemReallocBytes, Nat.add_sub_cancel, hold]
  split
  · exact .failed
  · split
    next hsame => exact .same (by omega)
    next =>
      split
      next hlt =>
        obtain ⟨pre, post, rfl, rfl⟩ := mem_usedBlocks.mp hx
        have haligned : rtAlignSize ∣ n := h.blocks.header.aligned
        have hdvd := rtAlign_dvd newsize
        obtain ⟨rest, rfl, hrest⟩ : ∃ rest, n = sizeofStructMem + rtAlign newsize + rest ∧
            sizeofStructMem ≤ rest := by
          refine ⟨n - (sizeofStructMem + rtAlign newsize), by omega, ?_⟩
          simp only [sizeofStructMem, minSize, rtAlignSize] at *
          omega
        have hsize : sizeofStructMem + rtAlign newsize + rest - sizeofStructMem =
            rtAlign newsize + rest := by
          omega
        obtain ⟨bs', hshrunk⟩ := h.shrunk hdvd hrest
        rw [hsize, Nat.zero_add]
        exact .shrunk (Nat.le_add_right _ _) hshrunk
      next =>
        rcases h.allocated (rtAlign newsize) with hnone | ⟨y, k, bs₁, hptr, hk, halloc⟩
        · rw [hnone]
          exact .failed
        · obtain ⟨bs₂, hfree⟩ := halloc.rep.freed (halloc.kept _ hx).1
          have hle : sizeofStructMem + rtAlign newsize ≤ k := by
            have hsize := le_allocSize (.inl (@rtAlign_rtAlign newsize))
            omega
          have hpair : rtSmemAlloc m (rtAlign newsize) =
              (some (y + sizeofStructMem), (rtSmemAlloc m (rtAlign newsize)).2) :=
            Prod.ext hptr rfl
          rw [hpair]
          exact .moved hle halloc hfree

/-- Stored headers that are unchanged inside the used blocks leave their data alone. -/
theorem storeItems_data {m' : RtSmallMem} {b : Nat × Nat} {i : Nat}
    (hinside : ∀ o, Inside bs o → m'.item o = m.item o) (hb : b ∈ usedBlocks 0 bs)
    (hi : i < b.2 - sizeofStructMem) :
    storeItems m m' bytes (b.1 + sizeofStructMem + i) = bytes (b.1 + sizeofStructMem + i) := by
  have hchanged : ∀ o, b.1 < o → o < b.1 + b.2 → decide (m'.item o ≠ m.item o) = false :=
    fun o hlow hhigh => decide_eq_false (not_not_intro (hinside o ⟨b, hb, hlow, hhigh⟩))
  have hlen : 12 ≤ sizeofStructMem := by decide
  exact storeHeaders_between hlen hchanged (Nat.le_add_right _ _) (by omega)

theorem Freed.kept_inside {m' : RtSmallMem} {bs' : List Block} (h : Freed m m' bs bs' x)
    {b : Nat × Nat} (hb : b ∈ usedBlocks 0 bs) (hne : b.1 ≠ x) {i : Nat}
    (hi : i < b.2 - sizeofStructMem) :
    storeItems m m' bytes (b.1 + sizeofStructMem + i) = bytes (b.1 + sizeofStructMem + i) :=
  storeItems_data h.inside (h.kept b hb hne) hi

section Cases

variable {size : Nat} {result : Option Nat} {m' : RtSmallMem} {bytes' : Nat → UInt8}

/-- The data of the block. -/
theorem ReallocCase.data (h : ReallocCase m bs x n size bytes result m' bytes')
    (hx : (x, n) ∈ usedBlocks 0 bs) {q : Nat} (hq : result = some q) {i : Nat}
    (hi : i < min (n - sizeofStructMem) size) :
    bytes' (q + i) = bytes (x + sizeofStructMem + i) := by
  cases h with
  | failed => cases hq
  | same hn =>
    obtain rfl := Option.some.inj hq
    rfl
  | shrunk hn hshrunk =>
    obtain rfl := Option.some.inj hq
    refine storeItems_data (b := (x, sizeofStructMem + size)) hshrunk.inside hshrunk.used ?_
    rw [Nat.add_sub_cancel_left]
    exact Nat.lt_of_lt_of_le hi (Nat.min_le_right _ _)
  | @moved m₁ m₂ bs₁ bs₂ y k hk halloc hfree =>
    obtain rfl := Option.some.inj hq
    have hne : y ≠ x := (halloc.kept _ hx).2.symm
    have hsize : i < size := Nat.lt_of_lt_of_le hi (Nat.min_le_right _ _)
    have hcount : i < if n - sizeofStructMem < size then n - sizeofStructMem else size := by
      split <;> omega
    have hnew : i < k - sizeofStructMem := by omega
    calc _ = copyBytes (y + sizeofStructMem) (x + sizeofStructMem)
            (if n - sizeofStructMem < size then n - sizeofStructMem else size)
            (storeItems m m₁ bytes) (y + sizeofStructMem + i) :=
          hfree.kept_inside halloc.used hne hnew
      _ = storeItems m m₁ bytes (x + sizeofStructMem + i) := copyBytes_copied _ hcount
      _ = bytes (x + sizeofStructMem + i) :=
          storeItems_data halloc.inside hx (Nat.lt_of_lt_of_le hi (Nat.min_le_left _ _))

/-- The data of another block. -/
theorem ReallocCase.others (h : ReallocCase m bs x n size bytes result m' bytes')
    {b : Nat × Nat} (hb : b ∈ usedBlocks 0 bs) (hne : b.1 ≠ x) {i : Nat}
    (hi : i < b.2 - sizeofStructMem) :
    bytes' (b.1 + sizeofStructMem + i) = bytes (b.1 + sizeofStructMem + i) := by
  cases h with
  | failed => rfl
  | same hn => rfl
  | shrunk hn hshrunk => exact storeItems_data hshrunk.inside (hshrunk.kept b hb hne) hi
  | @moved m₁ m₂ bs₁ bs₂ y k hk halloc hfree =>
    obtain ⟨hkept, hother⟩ := halloc.kept b hb
    have hcopy : (if n - sizeofStructMem < size then n - sizeofStructMem else size) ≤
        k - sizeofStructMem := by
      split <;> omega
    have hapart : b.1 + sizeofStructMem + i < y + sizeofStructMem ∨
        y + sizeofStructMem + (if n - sizeofStructMem < size then n - sizeofStructMem else size) ≤
          b.1 + sizeofStructMem + i := by
      rcases usedBlocks_apart hkept halloc.used hother with hle | hle
      · exact .inl (by omega)
      · have hle' : y + k ≤ b.1 := hle
        exact .inr (by omega)
    calc _ = copyBytes (y + sizeofStructMem) (x + sizeofStructMem)
            (if n - sizeofStructMem < size then n - sizeofStructMem else size)
            (storeItems m m₁ bytes) (b.1 + sizeofStructMem + i) :=
          hfree.kept_inside hkept hne hi
      _ = storeItems m m₁ bytes (b.1 + sizeofStructMem + i) := copyBytes_kept _ hapart
      _ = bytes (b.1 + sizeofStructMem + i) := storeItems_data halloc.inside hb hi

end Cases

/-- A result of the branches above designates a block of the aligned size. -/
theorem ReallocCase.designates {size : Nat} {result : Option Nat} {m' : RtSmallMem}
    {bytes' : Nat → UInt8} (h : SmemRep m bs)
    (hcase : ReallocCase m bs x n size bytes result m' bytes') (hx : (x, n) ∈ usedBlocks 0 bs)
    {q : Nat} (hq : result = some q) : Designates m' q size := by
  cases hcase with
  | failed => cases hq
  | same hn =>
    obtain rfl := Option.some.inj hq
    exact h.designates_used hx hn.ge
  | shrunk hn hshrunk =>
    obtain rfl := Option.some.inj hq
    exact hshrunk.rep.designates_used hshrunk.used (Nat.le_refl _)
  | @moved m₁ m₂ bs₁ bs₂ y k hk halloc hfree =>
    obtain rfl := Option.some.inj hq
    exact hfree.rep.designates_used
      (hfree.kept _ halloc.used (halloc.kept _ hx).2.symm) hk

theorem ReallocCase.null {size : Nat} {m' : RtSmallMem} {bytes' : Nat → UInt8}
    (hcase : ReallocCase m bs x n size bytes none m' bytes') : m' = m ∧ bytes' = bytes := by
  cases hcase
  exact ⟨rfl, rfl⟩

/-- What is freed is not live. -/
theorem Freed.not_live {m' : RtSmallMem} {bs' : List Block} (h : Freed m m' bs bs' x) :
    x + sizeofStructMem ∉ livePointers m' := by
  rw [h.rep.livePointers_eq, ← map_fst_usedBlocks]
  intro hmem
  obtain ⟨o, ho, heq⟩ := List.mem_map.mp hmem
  obtain ⟨b, hb, rfl⟩ := List.mem_map.mp ho
  exact h.gone b hb (Nat.add_right_cancel heq)

end Realloc

/-! ## Every reachable heap -/

section Reached

variable {m : RtSmallMem} {bs : List Block} {live : List Nat}

/-- A live pointer stands behind the header of a used block. -/
theorem used_of_live (hlive : live.Perm ((offsetsOf true 0 bs).map (· + sizeofStructMem)))
    {p : Nat} (hp : p ∈ live) : ∃ x n, (x, n) ∈ usedBlocks 0 bs ∧ p = x + sizeofStructMem := by
  obtain ⟨pre, n, post, rfl, rfl⟩ := exists_block hlive hp
  exact ⟨total pre, n, mem_usedBlocks.mpr ⟨pre, post, rfl, (Nat.zero_add _).symm⟩, rfl⟩

theorem SmemRep.userSize_used {x n : Nat} (h : SmemRep m bs) (hx : (x, n) ∈ usedBlocks 0 bs) :
    userSize m (x + sizeofStructMem - sizeofStructMem) = n - sizeofStructMem := by
  rw [Nat.add_sub_cancel, userSize, (h.used_block hx).1, Nat.add_sub_add_left]

theorem reallocRight_iff (h : SmemRep m bs)
    (hlive : live.Perm ((offsetsOf true 0 bs).map (· + sizeofStructMem))) {rmem : Option Nat}
    (hp : IsLive live rmem) {newsize : Nat} (hsize : newsize < wordSize) :
    ReallocRight m rmem newsize ↔ newsize ≤ alignMax ∨ rmem = none := by
  obtain ⟨hfits, hwraps⟩ := le_rtAlign_iff hsize
  by_cases hmax : newsize ≤ alignMax
  · refine iff_of_true ?_ (.inl hmax)
    have hle := hfits hmax
    by_cases hzero : rtAlign newsize = 0
    · refine ⟨fun q hq => ?_, fun _ hpos => absurd hle (by omega)⟩
      rw [rtSmemRealloc_zero m rmem hzero] at hq
      cases hq
    · cases rmem with
      | none =>
        refine ⟨fun q hq => ?_, fun _ _ p hp => absurd hp.symm (Option.some_ne_none p)⟩
        revert hq
        simp only [rtSmemRealloc]
        split
        · exact fun hq => absurd hq.symm (Option.some_ne_none q)
        · intro hq
          exact (h.alloc_designates hq).mono
            (Nat.le_trans hle (le_allocSize (.inl rtAlign_rtAlign)))
      | some p =>
        obtain ⟨x, n, hx, rfl⟩ := used_of_live hlive (hp p rfl)
        have hcase := h.realloc_cases hx hzero
        refine ⟨fun q hq => ((hcase fun _ => 0).designates h hx hq).mono hle,
          fun hnull _ p' hp' => ?_⟩
        rw [hnull] at hcase
        obtain rfl : x + sizeofStructMem = p' := Option.some.inj hp'
        have hsize := Nat.le_of_eq (Nat.add_sub_cancel' (h.used_block hx).2)
        rw [(hcase fun _ => 0).null.1]
        exact ⟨(h.designates_used hx hsize).1, rfl, fun bytes => (hcase bytes).null.2⟩
  · have hzero := hwraps (Nat.lt_of_not_le hmax)
    have hrealloc := rtSmemRealloc_zero m rmem hzero
    rw [or_iff_right hmax]
    constructor
    · intro hright
      cases rmem with
      | none => rfl
      | some p =>
        obtain ⟨x, n, hx, rfl⟩ := used_of_live hlive (hp p rfl)
        obtain ⟨bs', hfree⟩ := h.freed hx
        have hnull := (hright.null (by rw [hrealloc]) (by omega) _ rfl).1
        rw [hrealloc] at hnull
        exact absurd hnull hfree.not_live
    · rintro rfl
      refine ⟨fun q hq => ?_, fun _ _ p hp => absurd hp.symm (Option.some_ne_none p)⟩
      rw [hrealloc] at hq
      cases hq

theorem reallocPreserves (h : SmemRep m bs)
    (hlive : live.Perm ((offsetsOf true 0 bs).map (· + sizeofStructMem))) {rmem : Option Nat}
    (hp : IsLive live rmem) {newsize : Nat} (hsize : newsize < wordSize) (bytes : Nat → UInt8) :
    ReallocPreserves m live rmem newsize bytes := by
  obtain ⟨hfits, hwraps⟩ := le_rtAlign_iff hsize
  by_cases hzero : rtAlign newsize = 0
  · have hrealloc := rtSmemRealloc_zero m rmem hzero
    refine ⟨fun p q _ hq => ?_, fun q hq => ?_⟩ <;> (rw [hrealloc] at hq; cases hq)
  · have hle : newsize ≤ rtAlign newsize := by
      refine hfits (Nat.le_of_not_lt fun hmax => hzero (hwraps hmax))
    cases rmem with
    | none =>
      refine ⟨fun p q hp => absurd hp.symm (Option.some_ne_none p), fun q _ p hp _ i hi => ?_⟩
      obtain ⟨x, n, hx, rfl⟩ := used_of_live hlive hp
      rw [h.userSize_used hx] at hi
      simp only [rtSmemReallocBytes]
      split
      · rfl
      · rcases h.allocated (rtAlign newsize) with hnone | ⟨y, k, bs₁, -, -, halloc⟩
        · rw [hnone]
          have hsame : ∀ o, Inside bs o → m.item o = m.item o := fun _ _ => rfl
          exact storeItems_data (b := (x, n)) hsame hx hi
        · exact storeItems_data halloc.inside hx hi
    | some p =>
      obtain ⟨x, n, hx, rfl⟩ := used_of_live hlive (hp p rfl)
      have hcase := h.realloc_cases hx hzero bytes
      refine ⟨fun p' q hp' hq i hi => ?_, fun q _ p' hp' hne i hi => ?_⟩
      · obtain rfl : x + sizeofStructMem = p' := Option.some.inj hp'
        rw [h.userSize_used hx] at hi
        exact hcase.data hx hq (by omega)
      · obtain ⟨x', n', hx', rfl⟩ := used_of_live hlive hp'
        rw [h.userSize_used hx'] at hi
        exact hcase.others hx' (fun heq => hne (by rw [show x' = x from heq])) hi

end Reached

/-- What a run of calls leads to. -/
theorem smem_reached {beginAddr size : Nat} (h : LargeEnough beginAddr size)
    (item : Nat → RtSmallMemItem) :
    ∃ init, rtSmemInit beginAddr size item = some init ∧
      ∀ calls s, smem.Run Machine.anyStep ⟨init, []⟩ calls s →
        SmemLive s.heap s.live ∧ s.heap.memSizeAligned < alignMax := by
  obtain ⟨init, bs, hinit, -, hrep, hnone⟩ := rtSmemInit_rep h item
  refine ⟨init, hinit, fun calls s run => ?_⟩
  have hstart : SmemLive init [] := ⟨bs, hrep, by rw [hnone]; exact List.Perm.refl _⟩
  obtain ⟨hlive, hsame⟩ := smemLive_run hstart run
  have hinside := rtSmemInit_inside hinit
  refine ⟨hlive, ?_⟩
  rw [hsame.memSizeAligned]
  simp only [alignMax, wordSize, rtAlignSize, sizeofStructMem] at *
  omega

/-- The results are right exactly as long as `RT_ALIGN` does not wrap, there is no block to be
had, or no block to be given back. -/
theorem smem_results_iff {beginAddr size : Nat} (h : LargeEnough beginAddr size)
    (item : Nat → RtSmallMemItem) :
    ∃ init, rtSmemInit beginAddr size item = some init ∧
      ∀ calls s, smem.Run Machine.anyStep ⟨init, []⟩ calls s →
        (∀ size < wordSize, AllocRight s.heap size ↔
          size ≤ alignMax ∨ ∀ o ∈ freeItems s.heap, userSize s.heap o < minSizeAligned) ∧
        ∀ rmem newsize, IsLive s.live rmem → newsize < wordSize →
          (ReallocRight s.heap rmem newsize ↔ newsize ≤ alignMax ∨ rmem = none) := by
  obtain ⟨init, hinit, hreached⟩ := smem_reached h item
  refine ⟨init, hinit, fun calls s run => ?_⟩
  obtain ⟨⟨bs, hrep, hlive⟩, hinside⟩ := hreached calls s run
  exact ⟨fun size hsize => allocRight_iff hrep hinside hsize,
    fun rmem newsize hp hsize => reallocRight_iff hrep hlive hp hsize⟩

/-- Two blocks on 256 bytes. -/
theorem run_twoBlocks {init : RtSmallMem}
    (hinit : rtSmemInit 0x20000000 256 (fun _ => ⟨0, 0, 0⟩) = some init) :
    ∃ s, smem.Run Machine.anyStep ⟨init, []⟩ [.alloc 24, .alloc 64] s ∧ s.live = [56, 16] := by
  have hexec : ((rtSmemInit 0x20000000 256 fun _ => ⟨0, 0, 0⟩).bind fun m =>
      (smem.exec ⟨m, []⟩ [.alloc 24, .alloc 64]).map (·.live)) = some [56, 16] := by
    decide
  rw [hinit, Option.bind_some, Option.map_eq_some_iff] at hexec
  obtain ⟨s, hexec, hlive⟩ := hexec
  exact ⟨s, Machine.Run.of_exec hexec (Machine.admitted_anyStep _ _), hlive⟩

theorem smem_results_sized :
    ∃ init s, rtSmemInit 0x20000000 256 (fun _ => ⟨0, 0, 0⟩) = some init ∧
      smem.Run Machine.anyStep ⟨init, []⟩ [.alloc 24, .alloc 64] s ∧ s.live = [56, 16] ∧
      AllocRight s.heap 20 ∧ ReallocRight s.heap (some 16) 200 := by
  have hlarge : LargeEnough 0x20000000 256 := ⟨by decide, by decide⟩
  obtain ⟨init, hinit, hruns⟩ := smem_results_iff hlarge fun _ => ⟨0, 0, 0⟩
  obtain ⟨s, run, hlive⟩ := run_twoBlocks hinit
  obtain ⟨halloc, hrealloc⟩ := hruns _ s run
  have hp : IsLive s.live (some 16) := by
    rw [hlive]
    decide
  exact ⟨init, s, hinit, run, hlive, (halloc 20 (by decide)).mpr (.inl (by decide)),
    (hrealloc (some 16) 200 hp (by decide)).mpr (.inl (by decide))⟩

/-- For 4294967295 bytes `rt_smem_alloc` returns a block of 16, and `rt_smem_realloc` frees the
block that it was to change. -/
theorem not_smem_results :
    ((rtSmemInit 0x20000000 256 fun _ => ⟨0, 0, 0⟩).map fun m =>
      ((rtSmemAlloc m 4294967295).1, userSize (rtSmemAlloc m 4294967295).2 0)) =
        some (some 16, 16) ∧
    ((rtSmemInit 0x20000000 256 fun _ => ⟨0, 0, 0⟩).map fun m =>
      ((rtSmemRealloc (rtSmemAlloc m 24).2 (some 16) 4294967295).1,
        livePointers (rtSmemRealloc (rtSmemAlloc m 24).2 (some 16) 4294967295).2)) =
        some (none, []) ∧
    ¬ ∀ m, rtSmemInit 0x20000000 256 (fun _ => ⟨0, 0, 0⟩) = some m →
      AllocRight m 4294967295 ∧ ReallocRight (rtSmemAlloc m 24).2 (some 16) 4294967295 := by
  have halloc : ((rtSmemInit 0x20000000 256 fun _ => ⟨0, 0, 0⟩).map fun m =>
      ((rtSmemAlloc m 4294967295).1, userSize (rtSmemAlloc m 4294967295).2 0)) =
        some (some 16, 16) := by
    decide
  refine ⟨halloc, by decide, fun h => ?_⟩
  obtain ⟨m, hm, hresult⟩ := Option.map_eq_some_iff.mp halloc
  obtain ⟨hsome, hsize⟩ := Prod.mk.inj hresult
  have hle : 4294967295 ≤ userSize (rtSmemAlloc m 4294967295).2 0 := ((h m hm).1 16 hsome).2
  rw [hsize] at hle
  exact absurd hle (by decide)

/-- The search misses no free block, and `rt_smem_realloc` keeps the data. -/
theorem smem_complete_preserves {beginAddr size : Nat} (h : LargeEnough beginAddr size)
    (item : Nat → RtSmallMemItem) :
    ∃ init, rtSmemInit beginAddr size item = some init ∧
      ∀ calls s, smem.Run Machine.anyStep ⟨init, []⟩ calls s →
        (∀ size, 0 < size → size ≤ s.heap.memSizeAligned → (rtSmemAlloc s.heap size).1 = none →
          ∀ o ∈ freeItems s.heap, userSize s.heap o < allocSize size) ∧
        ∀ rmem newsize bytes, IsLive s.live rmem → newsize < wordSize →
          ReallocPreserves s.heap s.live rmem newsize bytes := by
  obtain ⟨init, hinit, hreached⟩ := smem_reached h item
  refine ⟨init, hinit, fun calls s run => ?_⟩
  obtain ⟨⟨bs, hrep, hlive⟩, -⟩ := hreached calls s run
  refine ⟨fun size hpos _ hnone => ?_,
    fun rmem newsize bytes hp hsize => reallocPreserves hrep hlive hp hsize bytes⟩
  have hsmall := ((rtSmemAlloc_eq_none_iff hrep size).mp hnone).resolve_left (Nat.ne_of_gt hpos)
  exact (hrep.forall_free_iff _).mp hsmall

/-- The first of two blocks is moved behind the second one. -/
theorem smem_complete_moved :
    ∃ init s, rtSmemInit 0x20000000 256 (fun _ => ⟨0, 0, 0⟩) = some init ∧
      smem.Run Machine.anyStep ⟨init, []⟩ [.alloc 24, .alloc 64] s ∧ s.live = [56, 16] ∧
      ∀ bytes, ReallocPreserves s.heap s.live (some 16) 40 bytes := by
  have hlarge : LargeEnough 0x20000000 256 := ⟨by decide, by decide⟩
  obtain ⟨init, hinit, hruns⟩ := smem_complete_preserves hlarge fun _ => ⟨0, 0, 0⟩
  obtain ⟨s, run, hlive⟩ := run_twoBlocks hinit
  have hp : IsLive s.live (some 16) := by
    rw [hlive]
    decide
  exact ⟨init, s, hinit, run, hlive,
    fun bytes => (hruns _ s run).2 (some 16) 40 bytes hp (by decide)⟩

end Gd32Vw553h.Kernel
