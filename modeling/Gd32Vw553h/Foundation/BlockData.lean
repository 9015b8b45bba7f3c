/-
  Foundation/BlockData.lean --- the bytes behind the headers of a heap.

  A heap writes headers into the memory it hands out.  `usedBlocks` lists the used blocks
  with their addresses; an address strictly inside one of them is no boundary between
  blocks, so a call that writes headers at boundaries only leaves the bytes there alone.
  `storeHeaders` puts the headers that a call has changed over the bytes they take, and
  `copyBytes` is `memcpy`.
-/
import Gd32Vw553h.Foundation.BlockList

set_option autoImplicit false

namespace Gd32Vw553h.Foundation

/-! ## Used blocks -/

/-- The used blocks: their addresses and sizes. -/
def usedBlocks : Nat → List Block → List (Nat × Nat)
  | _, [] => []
  | s, b :: bs =>
    if b.used then (s, b.size) :: usedBlocks (s + b.size) bs else usedBlocks (s + b.size) bs

section

variable {s : Nat} {bs l r pre post : List Block}

theorem usedBlocks_cons_used (s n : Nat) (bs : List Block) :
    usedBlocks s (⟨n, true⟩ :: bs) = (s, n) :: usedBlocks (s + n) bs := rfl

theorem usedBlocks_cons_free (s n : Nat) (bs : List Block) :
    usedBlocks s (⟨n, false⟩ :: bs) = usedBlocks (s + n) bs := rfl

theorem usedBlocks_append (s : Nat) (l r : List Block) :
    usedBlocks s (l ++ r) = usedBlocks s l ++ usedBlocks (s + total l) r := by
  induction l generalizing s with
  | nil => rfl
  | cons b l ih =>
    have hassoc : s + total (b :: l) = s + b.size + total l := by rw [total_cons]; omega
    rcases b with ⟨n, _ | _⟩
    · rw [List.cons_append, usedBlocks_cons_free, usedBlocks_cons_free, ih, hassoc]
    · rw [List.cons_append, usedBlocks_cons_used, usedBlocks_cons_used, ih, hassoc,
        List.cons_append]

/-- Their addresses are those of the used blocks. -/
theorem map_fst_usedBlocks (s : Nat) (bs : List Block) :
    (usedBlocks s bs).map Prod.fst = offsetsOf true s bs := by
  induction bs generalizing s with
  | nil => rfl
  | cons b bs ih =>
    rcases b with ⟨n, _ | _⟩
    · rw [usedBlocks_cons_free, offsetsOf_cons_neg Bool.false_ne_true, ih]
    · have hused : (⟨n, true⟩ : Block).used = true := rfl
      rw [usedBlocks_cons_used, offsetsOf_cons_pos hused, List.map_cons, ih]

/-- A used block stands between the blocks in front of it and those behind. -/
theorem mem_usedBlocks {x n : Nat} :
    (x, n) ∈ usedBlocks s bs ↔ ∃ pre post, bs = pre ++ ⟨n, true⟩ :: post ∧ x = s + total pre := by
  constructor
  · intro h
    induction bs generalizing s with
    | nil => exact absurd h List.not_mem_nil
    | cons b bs ih =>
      rcases b with ⟨k, _ | _⟩
      · obtain ⟨pre, post, rfl, rfl⟩ := ih h
        exact ⟨⟨k, false⟩ :: pre, post, rfl, by rw [total_cons, Nat.add_assoc]⟩
      · rcases List.mem_cons.mp h with heq | h
        · cases heq
          exact ⟨[], bs, rfl, rfl⟩
        · obtain ⟨pre, post, rfl, rfl⟩ := ih h
          exact ⟨⟨k, true⟩ :: pre, post, rfl, by rw [total_cons, Nat.add_assoc]⟩
  · rintro ⟨pre, post, rfl, rfl⟩
    rw [usedBlocks_append, usedBlocks_cons_used]
    exact List.mem_append_right _ List.mem_cons_self

theorem le_of_mem_usedBlocks {b : Nat × Nat} (h : b ∈ usedBlocks s bs) :
    s ≤ b.1 ∧ b.1 + b.2 ≤ s + total bs := by
  obtain ⟨pre, post, rfl, hx⟩ := mem_usedBlocks.mp h
  rw [total_append, total_cons, hx]
  simp only
  omega

/-- Two used blocks do not overlap. -/
theorem usedBlocks_apart {b c : Nat × Nat} (hb : b ∈ usedBlocks s bs) (hc : c ∈ usedBlocks s bs)
    (hne : b.1 ≠ c.1) : b.1 + b.2 ≤ c.1 ∨ c.1 + c.2 ≤ b.1 := by
  induction bs generalizing s with
  | nil => exact absurd hb List.not_mem_nil
  | cons a bs ih =>
    rcases a with ⟨n, _ | _⟩
    · exact ih hb hc
    · rcases List.mem_cons.mp hb with rfl | hb
      · rcases List.mem_cons.mp hc with rfl | hc
        · exact absurd rfl hne
        · exact .inl (le_of_mem_usedBlocks hc).1
      · rcases List.mem_cons.mp hc with rfl | hc
        · exact .inr (le_of_mem_usedBlocks hb).1
        · exact ih hb hc

/-- Blocks that are not used may be merged. -/
theorem usedBlocks_merge (s k n : Nat) (l r : List Block) :
    usedBlocks s (l ++ ⟨k, false⟩ :: ⟨n, false⟩ :: r) =
      usedBlocks s (l ++ ⟨k + n, false⟩ :: r) := by
  rw [usedBlocks_append, usedBlocks_append, usedBlocks_cons_free, usedBlocks_cons_free,
    usedBlocks_cons_free, Nat.add_assoc]

theorem usedBlocks_mergeRight (s n : Nat) (pre post : List Block) :
    usedBlocks s (pre ++ ⟨(mergeRight n post).1, false⟩ :: (mergeRight n post).2) =
      usedBlocks s (pre ++ ⟨n, false⟩ :: post) := by
  rcases mergeRight_cases post with hused | ⟨k, rest, rfl⟩
  · rw [mergeRight_of_startsUsed hused]
  · exact (usedBlocks_merge s n k pre rest).symm

theorem usedBlocks_mergeLeft (s n : Nat) (pre post : List Block) :
    usedBlocks s ((mergeLeft pre n).1 ++ ⟨(mergeLeft pre n).2, false⟩ :: post) =
      usedBlocks s (pre ++ ⟨n, false⟩ :: post) := by
  rcases mergeLeft_cases pre with hused | ⟨k, rest, rfl⟩
  · rw [mergeLeft_of_endsUsed hused]
  · rw [mergeLeft_append_free, List.append_assoc]
    exact (usedBlocks_merge s k n rest post).symm

theorem usedBlocks_freeAt (s n : Nat) (pre post : List Block) :
    usedBlocks s (freeAt pre n post) = usedBlocks s (pre ++ ⟨n, false⟩ :: post) := by
  refine freeAt_induction
    (P := fun bs => usedBlocks s bs = usedBlocks s (pre ++ ⟨n, false⟩ :: post))
    (fun l k m r h => ?_) rfl
  rw [← usedBlocks_merge, h]

/-- Marking another block as free leaves a used block in the list. -/
theorem mem_usedBlocks_free {x n k : Nat}
    (h : (x, n) ∈ usedBlocks s (pre ++ ⟨k, true⟩ :: post)) (hne : x ≠ s + total pre) :
    (x, n) ∈ usedBlocks s (pre ++ ⟨k, false⟩ :: post) := by
  rw [usedBlocks_append, usedBlocks_cons_used] at h
  rw [usedBlocks_append, usedBlocks_cons_free]
  rcases List.mem_append.mp h with hpre | hrest
  · exact List.mem_append_left _ hpre
  · rcases List.mem_cons.mp hrest with heq | hpost
    · cases heq
      exact absurd rfl hne
    · exact List.mem_append_right _ hpost

/-- No used block stands where another block does. -/
theorem ne_of_mem_usedBlocks {x n k : Nat} {bs : List Block} (hpos : ∀ b ∈ bs, 0 < b.size)
    (hbs : bs = pre ++ ⟨k, false⟩ :: post) (h : (x, n) ∈ usedBlocks 0 bs) : x ≠ total pre := by
  have hk : 0 < k := hpos ⟨k, false⟩ (hbs ▸ List.mem_append_right pre List.mem_cons_self)
  have hn : 0 < n := by
    obtain ⟨front, back, heq, -⟩ := mem_usedBlocks.mp h
    exact hpos ⟨n, true⟩ (heq ▸ List.mem_append_right front List.mem_cons_self)
  rw [hbs, usedBlocks_append, usedBlocks_cons_free] at h
  rcases List.mem_append.mp h with h | h
  · have hle : x + n ≤ 0 + total pre := (le_of_mem_usedBlocks h).2
    omega
  · have hle : 0 + total pre + k ≤ x := (le_of_mem_usedBlocks h).1
    omega

/-- Using the front of a free block leaves the used blocks in the list. -/
theorem mem_usedBlocks_take {b : Nat × Nat} {n : Nat} {rest : List Block}
    (hrest : rest = [] ∨ ∃ r, rest = [⟨r, false⟩])
    (h : b ∈ usedBlocks s (pre ++ ⟨n + total rest, false⟩ :: post)) :
    b ∈ usedBlocks s (pre ++ ⟨n, true⟩ :: (rest ++ post)) := by
  rw [usedBlocks_append, usedBlocks_cons_free] at h
  rw [usedBlocks_append, usedBlocks_cons_used]
  have hsame : usedBlocks (s + total pre + n) (rest ++ post) =
      usedBlocks (s + total pre + (n + total rest)) post := by
    rcases hrest with rfl | ⟨r, rfl⟩
    · rfl
    · exact congrArg (usedBlocks · post) (Nat.add_assoc _ _ _)
  rw [hsame]
  rcases List.mem_append.mp h with hpre | hpost
  · exact List.mem_append_left _ hpre
  · exact List.mem_append_right _ (List.mem_cons_of_mem _ hpost)

/-! ## Inside a used block -/

/-- `o` lies strictly inside a used block. -/
def Inside (bs : List Block) (o : Nat) : Prop :=
  ∃ b ∈ usedBlocks 0 bs, b.1 < o ∧ o < b.1 + b.2

theorem Inside.congr {o : Nat} (h : Inside l o) (heq : usedBlocks 0 r = usedBlocks 0 l) :
    Inside r o := by
  obtain ⟨b, hb, ho⟩ := h
  exact ⟨b, heq ▸ hb, ho⟩

/-- No boundary between blocks lies inside one of them. -/
theorem Inside.ne_boundary {o : Nat} (h : Inside (l ++ r) o) : o ≠ total l := by
  obtain ⟨b, hb, hlow, hhigh⟩ := h
  rw [usedBlocks_append] at hb
  rcases List.mem_append.mp hb with hb | hb
  · have hle := (le_of_mem_usedBlocks hb).2
    omega
  · have hle := (le_of_mem_usedBlocks hb).1
    omega

/-- Nor does a block stand there. -/
theorem Inside.not_mem_offsetsOf {o : Nat} {used : Bool} (h : Inside bs o) :
    o ∉ offsetsOf used 0 bs := by
  intro hmem
  obtain ⟨pre, b, post, rfl, -, rfl⟩ := mem_offsetsOf.mp hmem
  exact h.ne_boundary (Nat.zero_add _)

/-- Nor does a free block when a block in the middle counts as used. -/
theorem Inside.not_mem_retag {o n : Nat} {u : Bool} (h : Inside (pre ++ ⟨n, false⟩ :: post) o) :
    o ∉ offsetsOf false 0 (pre ++ ⟨n, u⟩ :: post) := by
  cases u with
  | false => exact h.not_mem_offsetsOf
  | true =>
    intro hmem
    have hperm := offsetsOf_perm (Ne.symm Bool.false_ne_true) 0 n pre post
    exact h.not_mem_offsetsOf (hperm.mem_iff.mpr (List.mem_cons_of_mem _ hmem))

/-- It lies outside of a block that is not used. -/
theorem Inside.outside {o n : Nat} (h : Inside (pre ++ ⟨n, false⟩ :: post) o) :
    o < total pre ∨ total pre + n < o := by
  obtain ⟨b, hb, hlow, hhigh⟩ := h
  rw [usedBlocks_append, usedBlocks_cons_free] at hb
  rcases List.mem_append.mp hb with hb | hb
  · have hle := (le_of_mem_usedBlocks hb).2
    exact .inl (by omega)
  · have hle := (le_of_mem_usedBlocks hb).1
    exact .inr (by omega)

end

/-! ## Bytes -/

/-- The changed headers, of `len` bytes each, stored over the bytes they take. -/
def storeHeaders (len : Nat) (changed : Nat → Bool) (content : Nat → Nat → UInt8)
    (bytes : Nat → UInt8) : Nat → UInt8 := fun i =>
  match (List.range len).find? fun k => k ≤ i && changed (i - k) with
  | some k => content (i - k) k
  | none => bytes i

theorem storeHeaders_eq {len i : Nat} {changed : Nat → Bool} {content : Nat → Nat → UInt8}
    {bytes : Nat → UInt8} (h : ∀ k < len, k ≤ i → changed (i - k) = false) :
    storeHeaders len changed content bytes i = bytes i := by
  have hnone : ((List.range len).find? fun k => k ≤ i && changed (i - k)) = none := by
    rw [List.find?_eq_none]
    intro k hk hchanged
    rw [Bool.and_eq_true] at hchanged
    have hfalse := h k (List.mem_range.mp hk) (of_decide_eq_true hchanged.1)
    exact Bool.false_ne_true (hfalse.symm.trans hchanged.2)
  simp only [storeHeaders, hnone]

/-- Headers that are changed at no place between two boundaries leave the bytes behind the
first header alone. -/
theorem storeHeaders_between {len hdr lo hi i : Nat} {changed : Nat → Bool}
    {content : Nat → Nat → UInt8} {bytes : Nat → UInt8} (hlen : len ≤ hdr)
    (hchanged : ∀ o, lo < o → o < hi → changed o = false) (hlow : lo + hdr ≤ i) (hhigh : i < hi) :
    storeHeaders len changed content bytes i = bytes i :=
  storeHeaders_eq fun k hk _ => hchanged _ (by omega) (by omega)

/-- `memcpy` -/
def copyBytes (dst src n : Nat) (bytes : Nat → UInt8) : Nat → UInt8 := fun i =>
  if dst ≤ i ∧ i < dst + n then bytes (src + (i - dst)) else bytes i

theorem copyBytes_copied {dst src n i : Nat} (bytes : Nat → UInt8) (hi : i < n) :
    copyBytes dst src n bytes (dst + i) = bytes (src + i) := by
  have hin : dst ≤ dst + i ∧ dst + i < dst + n := ⟨Nat.le_add_right _ _, by omega⟩
  rw [copyBytes, if_pos hin, Nat.add_sub_cancel_left]

theorem copyBytes_kept {dst src n i : Nat} (bytes : Nat → UInt8) (hi : i < dst ∨ dst + n ≤ i) :
    copyBytes dst src n bytes i = bytes i :=
  if_neg (by omega)

end Gd32Vw553h.Foundation
