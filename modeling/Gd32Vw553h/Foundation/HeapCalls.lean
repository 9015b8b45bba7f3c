/-
  Foundation/HeapCalls.lean --- callers of a heap that is a list of blocks.

  A heap hands out the addresses behind the headers of used blocks.  Its callers give
  back only pointers that are live, that is, handed out and not given back.  What has to
  be shown of a heap is what each call does to its list of blocks; that the live pointers
  are those of the used blocks, and that their regions do not overlap, follows here.
-/
import Gd32Vw553h.Foundation.BlockList
import Gd32Vw553h.Foundation.Runs
import Mathlib.Data.List.Nodup

set_option autoImplicit false

namespace Gd32Vw553h.Foundation

/-! ## Calls -/

/-- The calls of a heap; `gives` is whether `realloc` with this size gives the block back. -/
structure HeapOps (σ : Type*) where
  alloc : σ → Nat → Option Nat × σ
  realloc : σ → Option Nat → Nat → Option Nat × σ
  free : σ → Option Nat → σ
  gives : Nat → Bool

/-- The heap, and the pointers that were handed out and not given back. -/
structure HeapSys (σ : Type*) where
  heap : σ
  live : List Nat

/-- A call. -/
inductive HeapCall where
  | alloc (size : Nat)
  | realloc (ptr : Option Nat) (newsize : Nat)
  | free (ptr : Option Nat)
  deriving DecidableEq

/-- The pointers that are live when `p` is handed out. -/
def handOut (live : List Nat) : Option Nat → List Nat
  | none => live
  | some p => p :: live

/-- The pointers that are live when `p` is given back. -/
def giveBack (live : List Nat) : Option Nat → List Nat
  | none => live
  | some p => live.erase p

/-- The pointer, unless it is null, is live. -/
def IsLive (live : List Nat) (ptr : Option Nat) : Prop := ∀ p, ptr = some p → p ∈ live

instance (live : List Nat) (ptr : Option Nat) : Decidable (IsLive live ptr) :=
  match ptr with
  | none => isTrue fun p h => absurd h.symm (Option.some_ne_none p)
  | some p => decidable_of_iff (p ∈ live) ⟨fun h _ hq => Option.some.inj hq ▸ h, fun h => h p rfl⟩

/-- What is live after `realloc` returned `result`; `gives` is whether it gave the block
back without another one. -/
def afterRealloc (live : List Nat) (ptr : Option Nat) (gives : Bool) : Option Nat → List Nat
  | some p => p :: giveBack live ptr
  | none => if gives then giveBack live ptr else live

/-- The heap under its callers, who pass live pointers only. -/
def HeapOps.machine {σ : Type*} (ops : HeapOps σ) : Machine (HeapSys σ) HeapCall where
  step s call :=
    match call with
    | .alloc size =>
      some ⟨(ops.alloc s.heap size).2, handOut s.live (ops.alloc s.heap size).1⟩
    | .realloc ptr newsize =>
      if IsLive s.live ptr then
        some ⟨(ops.realloc s.heap ptr newsize).2,
          afterRealloc s.live ptr (ops.gives newsize) (ops.realloc s.heap ptr newsize).1⟩
      else none
    | .free ptr =>
      if IsLive s.live ptr then some ⟨ops.free s.heap ptr, giveBack s.live ptr⟩ else none

/-- Each call carries the invariant over, so every step does. -/
theorem HeapOps.step_invariant {σ : Type*} {ops : HeapOps σ} {I : σ → List Nat → Prop}
    {s s' : HeapSys σ} {call : HeapCall} (hstep : ops.machine.step s call = some s')
    (h : I s.heap s.live)
    (halloc : ∀ size, call = .alloc size →
      I (ops.alloc s.heap size).2 (handOut s.live (ops.alloc s.heap size).1))
    (hrealloc : ∀ ptr newsize, call = .realloc ptr newsize → IsLive s.live ptr →
      I (ops.realloc s.heap ptr newsize).2
        (afterRealloc s.live ptr (ops.gives newsize) (ops.realloc s.heap ptr newsize).1))
    (hfree : ∀ p, call = .free (some p) → p ∈ s.live →
      I (ops.free s.heap (some p)) (s.live.erase p))
    (hnull : ops.free s.heap none = s.heap) : I s'.heap s'.live := by
  cases call with
  | alloc size =>
    obtain rfl := Option.some.inj hstep
    exact halloc size rfl
  | realloc ptr newsize =>
    simp only [HeapOps.machine] at hstep
    split at hstep
    · rename_i hlive
      obtain rfl := Option.some.inj hstep
      exact hrealloc ptr newsize rfl hlive
    · cases hstep
  | free ptr =>
    simp only [HeapOps.machine] at hstep
    split at hstep
    · rename_i hlive
      obtain rfl := Option.some.inj hstep
      cases ptr with
      | none =>
        rw [hnull]
        exact h
      | some p => exact hfree p rfl (hlive p rfl)
    · cases hstep

/-! ## Live pointers -/

section

variable {σ : Type*} (Rep : σ → List Block → Prop) (hdr : Nat)

/-- The live pointers are those behind the headers of the used blocks. -/
def LiveBlocks (m : σ) (live : List Nat) : Prop :=
  ∃ bs, Rep m bs ∧ live.Perm ((offsetsOf true 0 bs).map (· + hdr))

variable {Rep hdr} {m m' : σ} {live live' : List Nat} {p q : Nat}

theorem LiveBlocks.perm (h : LiveBlocks Rep hdr m live) (hperm : live'.Perm live) :
    LiveBlocks Rep hdr m live' := by
  obtain ⟨bs, hrep, hlive⟩ := h
  exact ⟨bs, hrep, hperm.trans hlive⟩

/-- A live pointer is that of a used block. -/
theorem exists_block {bs : List Block}
    (hlive : live.Perm ((offsetsOf true 0 bs).map (· + hdr))) (hp : p ∈ live) :
    ∃ pre n post, bs = pre ++ ⟨n, true⟩ :: post ∧ p = total pre + hdr := by
  obtain ⟨o, ho, rfl⟩ := List.mem_map.mp (hlive.mem_iff.mp hp)
  obtain ⟨pre, ⟨n, u⟩, post, rfl, rfl, rfl⟩ := mem_offsetsOf.mp ho
  exact ⟨pre, n, post, rfl, by rw [Nat.zero_add]⟩

theorem LiveBlocks.nodup (hpos : ∀ m bs, Rep m bs → ∀ b ∈ bs, 0 < b.size)
    (h : LiveBlocks Rep hdr m live) : live.Nodup := by
  obtain ⟨bs, hrep, hlive⟩ := h
  have hoffsets : (offsetsOf true 0 bs).Nodup := offsetsOf_nodup (hpos m bs hrep)
  exact hlive.nodup_iff.mpr (List.Nodup.map (fun o o' heq => Nat.add_right_cancel heq) hoffsets)

/-- A free block, or the front of one, is handed out. -/
theorem LiveBlocks.take {pre post rest : List Block} {n : Nat}
    (hlive : live.Perm
      ((offsetsOf true 0 (pre ++ ⟨n + total rest, false⟩ :: post)).map (· + hdr)))
    (hrest : rest = [] ∨ ∃ r, rest = [⟨r, false⟩])
    (hrep : Rep m (pre ++ ⟨n, true⟩ :: (rest ++ post))) :
    LiveBlocks Rep hdr m ((total pre + hdr) :: live) := by
  refine ⟨_, hrep, ?_⟩
  have hperm := (offsetsOf_perm Bool.false_ne_true 0 n pre (rest ++ post)).map (· + hdr)
  have hsame : offsetsOf true 0 (pre ++ ⟨n, false⟩ :: (rest ++ post)) =
      offsetsOf true 0 (pre ++ ⟨n + total rest, false⟩ :: post) := by
    rcases hrest with rfl | ⟨r, rfl⟩
    · rfl
    · exact offsetsOf_absorb Bool.false_ne_true false 0 n r pre post
  rw [hsame, Nat.zero_add] at hperm
  exact (hlive.cons _).trans hperm.symm

/-- A used block is given back. -/
theorem LiveBlocks.release {pre post : List Block} {n : Nat}
    (hlive : live.Perm ((offsetsOf true 0 (pre ++ ⟨n, true⟩ :: post)).map (· + hdr)))
    (hrep : Rep m (freeAt pre n post)) :
    LiveBlocks Rep hdr m (live.erase (total pre + hdr)) := by
  refine ⟨_, hrep, ?_⟩
  rw [offsetsOf_freeAt]
  have hperm := (offsetsOf_perm Bool.false_ne_true 0 n pre post).map (· + hdr)
  rw [Nat.zero_add, List.map_cons] at hperm
  exact (List.cons_perm_iff_perm_erase.mp (hlive.trans hperm).symm).2.symm

/-- The rear of a used block is given back. -/
theorem LiveBlocks.cut {pre post : List Block} {k r : Nat}
    (hlive : live.Perm ((offsetsOf true 0 (pre ++ ⟨k + r, true⟩ :: post)).map (· + hdr)))
    (hrep : Rep m (freeAt (pre ++ [⟨k, true⟩]) r post)) : LiveBlocks Rep hdr m live := by
  refine ⟨_, hrep, ?_⟩
  rwa [offsetsOf_freeAt, List.append_assoc, List.singleton_append,
    offsetsOf_absorb Bool.false_ne_true]

/-- After a block was handed out, another one is given back. -/
theorem LiveBlocks.move (hpos : ∀ m bs, Rep m bs → ∀ b ∈ bs, 0 < b.size)
    (h : LiveBlocks Rep hdr m (q :: live)) (hp : p ∈ live)
    (hfree : ∀ {live}, LiveBlocks Rep hdr m live → p ∈ live →
      LiveBlocks Rep hdr m' (live.erase p)) :
    LiveBlocks Rep hdr m' (q :: live.erase p) := by
  have hne : (q == p) = false :=
    beq_false_of_ne fun heq => (List.nodup_cons.mp (h.nodup hpos)).1 (heq ▸ hp)
  have hfreed := hfree h (List.mem_cons_of_mem q hp)
  rwa [List.erase_cons_tail (by rw [hne]; exact Bool.false_ne_true)] at hfreed

end

/-! ## Regions -/

/-- The regions from the live pointers on up to `regionEnd` lie within the range, which
begins at `base` and has the length `size`; there is a header in front of each, and none
overlaps another one or its header. -/
structure LiveRegions (hdr align base size : Nat) (regionEnd : Nat → Nat) (live : List Nat) :
    Prop where
  disjoint : live.Pairwise fun p p' => regionEnd p + hdr ≤ p' ∨ regionEnd p' + hdr ≤ p
  inside : ∀ p ∈ live, hdr ≤ p ∧ p ≤ regionEnd p ∧ regionEnd p ≤ size
  aligned : ∀ p ∈ live, align ∣ base + p

/-- When the headers tell where their blocks end, the live regions are what they should be. -/
theorem Laid.liveRegions {H : Nat → Nat → Block → Prop} {T : Nat → Nat → Prop} {N : Nat → Nat}
    {p hdr align base : Nat} {bs : List Block} {live : List Nat} (h : Laid H T p 0 bs)
    (hlive : live.Perm ((offsetsOf true 0 bs).map (· + hdr)))
    (hN : ∀ q o b, H q o b → N o = o + b.size)
    (hsize : ∀ q o b, H q o b → hdr ≤ b.size) (halign : ∀ q o b, H q o b → align ∣ b.size)
    (hbase : align ∣ base) (hhdr : align ∣ hdr) :
    LiveRegions hdr align base (total bs) (fun p => N (p - hdr)) live where
  disjoint := by
    refine (hlive.pairwise_iff fun hsymm => hsymm.symm).mpr (List.pairwise_map.mpr ?_)
    refine (h.pairwise_offsetsOf true hN).imp fun hle => .inl ?_
    rw [Nat.add_sub_cancel]
    exact Nat.add_le_add_right hle _
  inside := by
    intro p hp
    obtain ⟨pre, n, post, rfl, rfl⟩ := exists_block hlive hp
    have hheader := h.header
    have hle := hsize _ _ _ hheader
    rw [Nat.zero_add] at hheader
    rw [Nat.add_sub_cancel, hN _ _ _ hheader, total_append, total_cons]
    refine ⟨Nat.le_add_left _ _, Nat.add_le_add_left hle _, ?_⟩
    simp only
    omega
  aligned := by
    intro p hp
    obtain ⟨pre, n, post, rfl, rfl⟩ := exists_block hlive hp
    have hsizes : ∀ b ∈ pre, align ∣ b.size := fun b hb =>
      h.forall_mem halign b (List.mem_append_left _ hb)
    exact Nat.dvd_add hbase (Nat.dvd_add (dvd_total hsizes) hhdr)

end Gd32Vw553h.Foundation
