/-
  Foundation/BlockList.lean --- an address range cut into used and free blocks.

  A heap that keeps its headers inside the memory it manages is a list of blocks that
  follow each other without gaps.  `Laid H T p s bs` says that the headers of `bs` stand
  at the addresses this gives from `s` on: `H q o b` is what the header of `b` at `o`
  says when the one before it stands at `q`, and `T` is what stands at the end.  Blocks
  are split, merged and marked by rewriting the middle of the list, so the lemmas
  speak about `pre ++ b :: post`.
-/
import Mathlib.Algebra.Ring.Nat
import Mathlib.Data.List.Chain

set_option autoImplicit false

namespace Gd32Vw553h.Foundation

/-- A block with its header. -/
structure Block where
  size : Nat
  used : Bool
  deriving DecidableEq

/-! ## Sizes and addresses -/

/-- The size of the range that the blocks cover. -/
def total (bs : List Block) : Nat := (bs.map Block.size).sum

@[simp] theorem total_nil : total [] = 0 := rfl

@[simp] theorem total_cons (b : Block) (bs : List Block) : total (b :: bs) = b.size + total bs :=
  List.sum_cons

@[simp] theorem total_append (l r : List Block) : total (l ++ r) = total l + total r := by
  rw [total, List.map_append, List.sum_append, total, total]

theorem length_le_total {bs : List Block} (hsize : ∀ b ∈ bs, 0 < b.size) :
    bs.length ≤ total bs := by
  induction bs with
  | nil => exact Nat.le_refl 0
  | cons b bs ih =>
    have hb := hsize b List.mem_cons_self
    have hrest := ih fun c hc => hsize c (List.mem_cons_of_mem b hc)
    rw [List.length_cons, total_cons]
    omega

theorem dvd_total {d : Nat} {bs : List Block} (h : ∀ b ∈ bs, d ∣ b.size) : d ∣ total bs := by
  induction bs with
  | nil => exact Nat.dvd_zero d
  | cons b bs ih =>
    rw [total_cons]
    exact Nat.dvd_add (h b List.mem_cons_self) (ih fun c hc => h c (List.mem_cons_of_mem b hc))

theorem size_le_total {b : Block} {bs : List Block} (h : b ∈ bs) : b.size ≤ total bs := by
  obtain ⟨pre, post, rfl⟩ := List.append_of_mem h
  rw [total_append, total_cons]
  omega

/-- What the used blocks cover. -/
def usedSize (bs : List Block) : Nat := total (bs.filter (·.used))

@[simp] theorem usedSize_nil : usedSize [] = 0 := rfl

@[simp] theorem usedSize_cons (b : Block) (bs : List Block) :
    usedSize (b :: bs) = (if b.used then b.size else 0) + usedSize bs := by
  unfold usedSize
  cases hused : b.used <;> simp [hused]

@[simp] theorem usedSize_append (l r : List Block) :
    usedSize (l ++ r) = usedSize l + usedSize r := by
  rw [usedSize, List.filter_append, total_append, usedSize, usedSize]

/-- The addresses of the blocks. -/
def offsets : Nat → List Block → List Nat
  | _, [] => []
  | s, b :: bs => s :: offsets (s + b.size) bs

/-- The addresses of the blocks that are used, or of those that are not. -/
def offsetsOf (used : Bool) : Nat → List Block → List Nat
  | _, [] => []
  | s, b :: bs =>
    if b.used = used then s :: offsetsOf used (s + b.size) bs else offsetsOf used (s + b.size) bs

@[simp] theorem offsetsOf_nil (used : Bool) (s : Nat) : offsetsOf used s [] = [] := rfl

theorem offsetsOf_cons_pos {used : Bool} {b : Block} (h : b.used = used) (s : Nat)
    (bs : List Block) : offsetsOf used s (b :: bs) = s :: offsetsOf used (s + b.size) bs :=
  if_pos h

theorem offsetsOf_cons_neg {used : Bool} {b : Block} (h : b.used ≠ used) (s : Nat)
    (bs : List Block) : offsetsOf used s (b :: bs) = offsetsOf used (s + b.size) bs :=
  if_neg h

theorem offsetsOf_append (used : Bool) (s : Nat) (l r : List Block) :
    offsetsOf used s (l ++ r) = offsetsOf used s l ++ offsetsOf used (s + total l) r := by
  induction l generalizing s with
  | nil => rfl
  | cons b l ih =>
    have hassoc : s + total (b :: l) = s + b.size + total l := by rw [total_cons]; omega
    rw [List.cons_append, hassoc]
    by_cases hused : b.used = used
    · rw [offsetsOf_cons_pos hused, offsetsOf_cons_pos hused, ih, List.cons_append]
    · rw [offsetsOf_cons_neg hused, offsetsOf_cons_neg hused, ih]

/-- An address is that of a block when the blocks before it end there. -/
theorem mem_offsetsOf {used : Bool} {s o : Nat} {bs : List Block} :
    o ∈ offsetsOf used s bs ↔
      ∃ pre b post, bs = pre ++ b :: post ∧ b.used = used ∧ o = s + total pre := by
  constructor
  · intro h
    induction bs generalizing s with
    | nil => exact absurd h List.not_mem_nil
    | cons c bs ih =>
      by_cases hused : c.used = used
      · rw [offsetsOf_cons_pos hused] at h
        rcases List.mem_cons.mp h with rfl | h
        · exact ⟨[], c, bs, rfl, hused, rfl⟩
        · obtain ⟨pre, b, post, rfl, hb, rfl⟩ := ih h
          exact ⟨c :: pre, b, post, rfl, hb, by rw [total_cons]; omega⟩
      · rw [offsetsOf_cons_neg hused] at h
        obtain ⟨pre, b, post, rfl, hb, rfl⟩ := ih h
        exact ⟨c :: pre, b, post, rfl, hb, by rw [total_cons]; omega⟩
  · rintro ⟨pre, b, post, rfl, hb, rfl⟩
    rw [offsetsOf_append, offsetsOf_cons_pos hb]
    exact List.mem_append_right _ List.mem_cons_self

/-- Two blocks do not overlap. -/
theorem offsetsOf_pairwise {used : Bool} {s n : Nat} {bs : List Block}
    (hsize : ∀ b ∈ bs, n ≤ b.size) :
    (offsetsOf used s bs).Pairwise (fun o o' => o + n ≤ o') := by
  induction bs generalizing s with
  | nil => exact List.Pairwise.nil
  | cons b bs ih =>
    have hrest := ih (s := s + b.size) fun c hc => hsize c (List.mem_cons_of_mem b hc)
    have hb := hsize b List.mem_cons_self
    by_cases hused : b.used = used
    · rw [offsetsOf_cons_pos hused]
      refine List.pairwise_cons.mpr ⟨fun o ho => ?_, hrest⟩
      obtain ⟨pre, c, post, -, -, rfl⟩ := mem_offsetsOf.mp ho
      omega
    · rwa [offsetsOf_cons_neg hused]

theorem offsetsOf_nodup {used : Bool} {s : Nat} {bs : List Block}
    (hsize : ∀ b ∈ bs, 0 < b.size) : (offsetsOf used s bs).Nodup :=
  (offsetsOf_pairwise (n := 1) hsize).imp fun h => by omega

theorem offsetsOf_skip {used other : Bool} (h : other ≠ used) (s k : Nat)
    (pre post : List Block) :
    offsetsOf used s (pre ++ ⟨k, other⟩ :: post) =
      offsetsOf used s pre ++ offsetsOf used (s + total pre + k) post := by
  rw [offsetsOf_append, offsetsOf_cons_neg h]

theorem offsetsOf_insert (used : Bool) (s k : Nat) (pre post : List Block) :
    (offsetsOf used s (pre ++ ⟨k, used⟩ :: post)).Perm
      ((s + total pre) :: (offsetsOf used s pre ++ offsetsOf used (s + total pre + k) post)) := by
  have hused : (⟨k, used⟩ : Block).used = used := rfl
  rw [offsetsOf_append, offsetsOf_cons_pos hused]
  exact List.perm_middle

/-- A block that becomes used joins the used ones, and one that becomes free leaves them. -/
theorem offsetsOf_perm {used other : Bool} (h : other ≠ used) (s k : Nat)
    (pre post : List Block) :
    (offsetsOf used s (pre ++ ⟨k, used⟩ :: post)).Perm
      ((s + total pre) :: offsetsOf used s (pre ++ ⟨k, other⟩ :: post)) := by
  rw [offsetsOf_skip h]
  exact offsetsOf_insert used s k pre post

theorem offsetsOf_length_le (used : Bool) (s : Nat) (bs : List Block) :
    (offsetsOf used s bs).length ≤ bs.length := by
  induction bs generalizing s with
  | nil => exact Nat.le_refl 0
  | cons b bs ih =>
    have hrest := ih (s + b.size)
    by_cases hused : b.used = used
    · rw [offsetsOf_cons_pos hused, List.length_cons, List.length_cons]
      omega
    · rw [offsetsOf_cons_neg hused, List.length_cons]
      omega

/-- A block that does not count may be taken into the one in front of it. -/
theorem offsetsOf_absorb {used other : Bool} (h : other ≠ used) (front : Bool) (s k n : Nat)
    (pre post : List Block) :
    offsetsOf used s (pre ++ ⟨k, front⟩ :: ⟨n, other⟩ :: post) =
      offsetsOf used s (pre ++ ⟨k + n, front⟩ :: post) := by
  have hrear : (⟨n, other⟩ : Block).used ≠ used := h
  rw [offsetsOf_append, offsetsOf_append]
  by_cases hfront : front = used
  · have hk : ∀ j, (⟨j, front⟩ : Block).used = used := fun _ => hfront
    rw [offsetsOf_cons_pos (hk k), offsetsOf_cons_neg hrear, offsetsOf_cons_pos (hk (k + n)),
      ← Nat.add_assoc]
  · have hk : ∀ j, (⟨j, front⟩ : Block).used ≠ used := fun _ => hfront
    rw [offsetsOf_cons_neg (hk k), offsetsOf_cons_neg hrear, offsetsOf_cons_neg (hk (k + n)),
      ← Nat.add_assoc]

/-- When the rear of a block is cut off, its address is a new one. -/
theorem offsetsOf_cut (used front : Bool) (s k n : Nat) (pre post : List Block) :
    (offsetsOf used s (pre ++ ⟨k, front⟩ :: ⟨n, used⟩ :: post)).Perm
      ((s + total pre + k) :: offsetsOf used s (pre ++ ⟨k + n, front⟩ :: post)) := by
  have hrear : (⟨n, used⟩ : Block).used = used := rfl
  rw [offsetsOf_append, offsetsOf_append]
  by_cases hfront : front = used
  · have hk : ∀ j, (⟨j, front⟩ : Block).used = used := fun _ => hfront
    rw [offsetsOf_cons_pos (hk k), offsetsOf_cons_pos hrear, offsetsOf_cons_pos (hk (k + n)),
      ← Nat.add_assoc]
    refine List.Perm.trans ?_ List.perm_middle
    exact (List.Perm.swap _ _ _).append_left _
  · have hk : ∀ j, (⟨j, front⟩ : Block).used ≠ used := fun _ => hfront
    rw [offsetsOf_cons_neg (hk k), offsetsOf_cons_pos hrear, offsetsOf_cons_neg (hk (k + n)),
      ← Nat.add_assoc]
    exact List.perm_middle

/-- The address of the first free block, or of the end. -/
def firstFree (s : Nat) (bs : List Block) : Nat := (offsetsOf false s bs).headD (s + total bs)

theorem firstFree_cons_free (s k : Nat) (bs : List Block) :
    firstFree s (⟨k, false⟩ :: bs) = s := rfl

theorem firstFree_cons_used (s k : Nat) (bs : List Block) :
    firstFree s (⟨k, true⟩ :: bs) = firstFree (s + k) bs := by
  have hassoc : s + total (⟨k, true⟩ :: bs) = s + k + total bs := by
    rw [total_cons, Nat.add_assoc]
  rw [firstFree, hassoc, offsetsOf_cons_neg Bool.noConfusion, firstFree]

theorem le_firstFree (s : Nat) (bs : List Block) : s ≤ firstFree s bs := by
  induction bs generalizing s with
  | nil => exact Nat.le_refl s
  | cons b bs ih =>
    rcases b with ⟨k, _ | _⟩
    · exact Nat.le_refl s
    · rw [firstFree_cons_used]
      exact Nat.le_trans (Nat.le_add_right s k) (ih (s + k))

theorem firstFree_le (s k : Nat) (pre post : List Block) :
    firstFree s (pre ++ ⟨k, false⟩ :: post) ≤ s + total pre := by
  induction pre generalizing s with
  | nil => exact Nat.le_refl s
  | cons b pre ih =>
    rcases b with ⟨n, _ | _⟩
    · exact Nat.le_add_right s _
    · rw [List.cons_append, firstFree_cons_used, total_cons, ← Nat.add_assoc]
      exact ih (s + n)

/-- The blocks in front of the first free one are used. -/
theorem firstFree_split (s : Nat) (bs : List Block) :
    ∃ pre post, bs = pre ++ post ∧ firstFree s bs = s + total pre ∧ ∀ b ∈ pre, b.used = true := by
  induction bs generalizing s with
  | nil => exact ⟨[], [], rfl, rfl, fun _ hb => absurd hb List.not_mem_nil⟩
  | cons b bs ih =>
    rcases b with ⟨k, _ | _⟩
    · exact ⟨[], ⟨k, false⟩ :: bs, rfl, rfl, fun _ hb => absurd hb List.not_mem_nil⟩
    · obtain ⟨pre, post, rfl, hfirst, hused⟩ := ih (s + k)
      refine ⟨⟨k, true⟩ :: pre, post, rfl, ?_, List.forall_mem_cons.mpr ⟨rfl, hused⟩⟩
      rw [firstFree_cons_used, hfirst, total_cons, Nat.add_assoc]

/-- Whether one of the blocks in front is free decides what the rest has to do with the first
free one. -/
theorem firstFree_append {s : Nat} {l : List Block} (hsize : ∀ b ∈ l, 0 < b.size) :
    (∀ r, firstFree s (l ++ r) = firstFree (s + total l) r) ∨
      ∃ o, o < s + total l ∧ ∀ r, firstFree s (l ++ r) = o := by
  induction l generalizing s with
  | nil => exact .inl fun r => rfl
  | cons b l ih =>
    have hb := hsize b List.mem_cons_self
    have hassoc : s + total (b :: l) = s + b.size + total l := by rw [total_cons]; omega
    rw [hassoc]
    rcases b with ⟨k, _ | _⟩
    · exact .inr ⟨s, Nat.lt_add_right _ (Nat.lt_add_of_pos_right hb), fun r => rfl⟩
    · simp only [List.cons_append, firstFree_cons_used]
      exact ih fun c hc => hsize c (List.mem_cons_of_mem _ hc)

/-- When the first free block behind `l` comes to stand lower, at `x`, the first free one of
all is the lower one of `x` and the old one. -/
theorem firstFree_lower (s : Nat) {x : Nat} {l : List Block} (r r' : List Block)
    (hsize : ∀ b ∈ l, 0 < b.size)
    (hx : firstFree (s + total l) r' = x) (hlt : x < firstFree (s + total l) r) :
    (if x < firstFree s (l ++ r) then x else firstFree s (l ++ r)) = firstFree s (l ++ r') := by
  rcases firstFree_append (s := s) hsize with hrest | ⟨o, ho, hfront⟩
  · rw [hrest, hrest, hx, if_pos hlt]
  · have hle := le_firstFree (s + total l) r'
    rw [hfront, hfront, if_neg (by omega)]

/-! ## No two free neighbours -/

/-- No two adjacent blocks are both free. -/
def Coalesced (bs : List Block) : Prop := bs.IsChain fun a b => a.used = true ∨ b.used = true

/-- The last of the blocks, if there is one, is used. -/
def EndsUsed (bs : List Block) : Prop := ∀ b ∈ bs.getLast?, b.used = true

/-- The first of the blocks, if there is one, is used. -/
def StartsUsed (bs : List Block) : Prop := ∀ b ∈ bs.head?, b.used = true

theorem coalesced_nil : Coalesced [] := List.isChain_nil

theorem endsUsed_nil : EndsUsed [] := by simp [EndsUsed]

theorem startsUsed_nil : StartsUsed [] := by simp [StartsUsed]

theorem endsUsed_append_singleton {l : List Block} {b : Block} :
    EndsUsed (l ++ [b]) ↔ b.used = true := by
  simp [EndsUsed]

theorem startsUsed_cons {b : Block} {l : List Block} : StartsUsed (b :: l) ↔ b.used = true := by
  simp [StartsUsed]

/-- A block in the middle is used, or both its neighbours are. -/
theorem coalesced_split {pre post : List Block} {b : Block} :
    Coalesced (pre ++ b :: post) ↔
      Coalesced pre ∧ Coalesced post ∧ (b.used = true ∨ EndsUsed pre ∧ StartsUsed post) := by
  unfold Coalesced
  rw [List.isChain_append, List.isChain_cons]
  simp only [List.head?_cons, Option.mem_some_iff, forall_eq', EndsUsed, StartsUsed]
  by_cases hb : b.used = true
  · simp [hb]
  · simp only [hb, or_false, false_or, Bool.false_eq_true]
    constructor
    · rintro ⟨hpre, ⟨hstart, hpost⟩, hend⟩
      exact ⟨hpre, hpost, hend, hstart⟩
    · rintro ⟨hpre, hpost, hend, hstart⟩
      exact ⟨hpre, ⟨hstart, hpost⟩, hend⟩

/-! ## Headers in place -/

section Laid

variable (H : Nat → Nat → Block → Prop) (T : Nat → Nat → Prop)

/-- The headers of the blocks stand one behind the other from `s` on; the block before them
stands at `p`. -/
def Laid : Nat → Nat → List Block → Prop
  | p, s, [] => T p s
  | p, s, b :: bs => H p s b ∧ Laid s (s + b.size) bs

/-- Where the last of the blocks stands, or `p` when there is none. -/
def lastAt : Nat → Nat → List Block → Nat
  | p, _, [] => p
  | _, s, b :: bs => lastAt s (s + b.size) bs

variable {H T}

theorem lastAt_append_singleton (p s : Nat) (l : List Block) (b : Block) :
    lastAt p s (l ++ [b]) = s + total l := by
  induction l generalizing p s with
  | nil => rfl
  | cons c l ih =>
    rw [List.cons_append, lastAt, ih, total_cons]
    omega

theorem laid_append {p s : Nat} {l r : List Block} :
    Laid H T p s (l ++ r) ↔
      Laid H (fun _ _ => True) p s l ∧ Laid H T (lastAt p s l) (s + total l) r := by
  induction l generalizing p s with
  | nil => exact (and_iff_right trivial).symm
  | cons b l ih =>
    have hassoc : s + total (b :: l) = s + b.size + total l := by rw [total_cons]; omega
    rw [List.cons_append, hassoc]
    exact (and_congr_right fun _ => ih).trans and_assoc.symm

theorem laid_split {p s : Nat} {pre post : List Block} {b : Block} :
    Laid H T p s (pre ++ b :: post) ↔
      Laid H (fun _ _ => True) p s pre ∧ H (lastAt p s pre) (s + total pre) b ∧
        Laid H T (s + total pre) (s + total pre + b.size) post :=
  laid_append

/-- Headers that say as much at the addresses of the range may be put in their place. -/
theorem Laid.imp {H' : Nat → Nat → Block → Prop} {T' : Nat → Nat → Prop} {p s : Nat}
    {bs : List Block} (h : Laid H T p s bs)
    (hH : ∀ q o b, s ≤ o → o + b.size ≤ s + total bs → H q o b → H' q o b)
    (hT : ∀ q, T q (s + total bs) → T' q (s + total bs)) : Laid H' T' p s bs := by
  induction bs generalizing p s with
  | nil => exact hT p h
  | cons b bs ih =>
    have hassoc : s + total (b :: bs) = s + b.size + total bs := by rw [total_cons]; omega
    rw [hassoc] at hH hT
    refine ⟨hH p s b (Nat.le_refl s) (by omega) h.1, ih h.2 (fun q o c ho hc => ?_) hT⟩
    exact hH q o c (by omega) hc

/-- The middle of the list may be replaced by blocks of the same total size when their headers
are in place, the header behind them points back to the last of them and the others stay. -/
theorem Laid.rewrite {H' : Nat → Nat → Block → Prop} {T' : Nat → Nat → Prop} {p s : Nat}
    {pre mid mid' post : List Block} (h : Laid H T p s (pre ++ (mid ++ post)))
    (hmid : Laid H' (fun _ _ => True) (lastAt p s pre) (s + total pre) mid')
    (htotal : total mid' = total mid) (hsize : ∀ q o b, H q o b → 0 < b.size)
    (hbefore : ∀ q o b, o < s + total pre → H q o b → H' q o b)
    (hafter : ∀ q o b, s + total pre + total mid < o → H q o b → H' q o b)
    (hseam : ∀ q b, b ∈ post.head? → H q (s + total pre + total mid) b →
      H' (lastAt (lastAt p s pre) (s + total pre) mid') (s + total pre + total mid) b)
    (hend : ∀ q e, s + total pre + total mid < e → T q e → T' q e)
    (hseamEnd : ∀ q, post = [] → T q (s + total pre + total mid) →
      T' (lastAt (lastAt p s pre) (s + total pre) mid') (s + total pre + total mid)) :
    Laid H' T' p s (pre ++ (mid' ++ post)) := by
  obtain ⟨hpre, hrest⟩ := laid_append.mp h
  obtain ⟨-, hpost⟩ := laid_append.mp hrest
  refine laid_append.mpr ⟨?_, laid_append.mpr ⟨hmid, ?_⟩⟩
  · refine hpre.imp (fun q o b _ ho hb => hbefore q o b ?_ hb) fun _ _ => trivial
    have hpos := hsize q o b hb
    omega
  · rw [htotal]
    cases post with
    | nil => exact hseamEnd _ rfl hpost
    | cons b post =>
      have hpos := hsize _ _ _ hpost.1
      refine ⟨hseam _ b rfl hpost.1,
        hpost.2.imp (fun q o c ho _ hc => hafter q o c (by omega) hc) fun q => hend q _ ?_⟩
      omega

/-- Every header of the list, with the place of the one before it. -/
theorem Laid.header {p s : Nat} {pre post : List Block} {b : Block}
    (h : Laid H T p s (pre ++ b :: post)) : H (lastAt p s pre) (s + total pre) b :=
  (laid_split.mp h).2.1

theorem Laid.forall_mem {P : Block → Prop} {p s : Nat} {bs : List Block} (h : Laid H T p s bs)
    (hP : ∀ q o b, H q o b → P b) : ∀ b ∈ bs, P b := by
  intro b hb
  obtain ⟨pre, post, rfl⟩ := List.append_of_mem hb
  exact hP _ _ b h.header

/-! ### Walking over the headers -/

/-- What each header says about the place behind its block holds along the whole walk. -/
theorem Laid.isChain_next {R : Nat → Nat → Prop} {p s : Nat} {bs : List Block}
    (h : Laid H T p s bs) (hR : ∀ q o b, H q o b → R o (o + b.size)) :
    (offsets s bs ++ [s + total bs]).IsChain R := by
  induction bs generalizing p s with
  | nil => exact List.isChain_singleton _
  | cons b bs ih =>
    have hassoc : s + total (b :: bs) = s + b.size + total bs := by rw [total_cons]; omega
    have hrest := ih h.2
    have hb := hR p s b h.1
    rw [hassoc, offsets, List.cons_append]
    cases bs with
    | nil => exact List.isChain_pair.mpr hb
    | cons c bs => exact List.isChain_cons_cons.mpr ⟨hb, hrest⟩

/-- What each header says about the place of the block before it holds along the walk. -/
theorem Laid.isChain_prev {R : Nat → Nat → Prop} {p s : Nat} {bs : List Block}
    (h : Laid H T p s bs) (hR : ∀ q o b, H q o b → R q o) : (p :: offsets s bs).IsChain R := by
  induction bs generalizing p s with
  | nil => exact List.isChain_singleton p
  | cons b bs ih => exact List.isChain_cons_cons.mpr ⟨hR p s b h.1, ih h.2⟩

theorem Laid.isChain_prev_end {R : Nat → Nat → Prop} {p s : Nat} {bs : List Block}
    (h : Laid H T p s bs) (hR : ∀ q o b, H q o b → R q o) (hT : ∀ q e, T q e → R q e) :
    (p :: (offsets s bs ++ [s + total bs])).IsChain R := by
  induction bs generalizing p s with
  | nil => exact List.isChain_pair.mpr (hT p s h)
  | cons b bs ih =>
    have hassoc : s + total (b :: bs) = s + b.size + total bs := by rw [total_cons]; omega
    rw [hassoc]
    exact List.isChain_cons_cons.mpr ⟨hR p s b h.1, ih h.2⟩

/-- When the headers tell which blocks are used, one of any two neighbours on the walk is. -/
theorem Laid.isChain_used {U : Nat → Prop} {p s : Nat} {bs : List Block} (h : Laid H T p s bs)
    (hU : ∀ q o b, H q o b → b.used = true → U o) (hc : Coalesced bs) :
    (offsets s bs).IsChain fun o o' => U o ∨ U o' := by
  induction bs generalizing p s with
  | nil => exact List.isChain_nil
  | cons b bs ih =>
    cases bs with
    | nil => exact List.isChain_singleton s
    | cons c bs =>
      obtain ⟨hbc, hrest⟩ := List.isChain_cons_cons.mp hc
      refine List.isChain_cons_cons.mpr ⟨?_, ih h.2 hrest⟩
      exact hbc.imp (hU p s b h.1) (hU s _ c h.2.1)

/-- Filtering the walk by what the headers tell gives the used or the free addresses. -/
theorem Laid.filter_offsets {f : Nat → Bool} {used : Bool} {p s : Nat} {bs : List Block}
    (h : Laid H T p s bs) (hf : ∀ q o b, H q o b → (f o = true ↔ b.used = used)) :
    (offsets s bs).filter f = offsetsOf used s bs := by
  induction bs generalizing p s with
  | nil => rfl
  | cons b bs ih =>
    have hb := hf p s b h.1
    rw [offsets]
    by_cases hused : b.used = used
    · rw [offsetsOf_cons_pos hused, List.filter_cons_of_pos (hb.mpr hused), ih h.2]
    · rw [offsetsOf_cons_neg hused, List.filter_cons_of_neg (mt hb.mp hused), ih h.2]

/-- When the headers tell where their blocks end, no two of the blocks overlap. -/
theorem Laid.pairwise_offsetsOf {N : Nat → Nat} {p s : Nat} {bs : List Block}
    (h : Laid H T p s bs) (used : Bool) (hN : ∀ q o b, H q o b → N o = o + b.size) :
    (offsetsOf used s bs).Pairwise fun o o' => N o ≤ o' := by
  induction bs generalizing p s with
  | nil => exact List.Pairwise.nil
  | cons b bs ih =>
    have hb := hN p s b h.1
    by_cases hused : b.used = used
    · rw [offsetsOf_cons_pos hused]
      refine List.pairwise_cons.mpr ⟨fun o ho => ?_, ih h.2⟩
      obtain ⟨pre, c, post, -, -, rfl⟩ := mem_offsetsOf.mp ho
      omega
    · rw [offsetsOf_cons_neg hused]
      exact ih h.2

/-- The sum over the used, or the free, headers of what they tell about their blocks. -/
theorem Laid.sum_offsetsOf {g : Nat → Nat} {k : Block → Nat} {p s : Nat} {bs : List Block}
    (h : Laid H T p s bs) (used : Bool) (hg : ∀ q o b, H q o b → g o = k b) :
    ((offsetsOf used s bs).map g).sum = ((bs.filter (·.used == used)).map k).sum := by
  induction bs generalizing p s with
  | nil => rfl
  | cons b bs ih =>
    by_cases hused : b.used = used
    · rw [offsetsOf_cons_pos hused, List.filter_cons_of_pos (by simpa using hused), List.map_cons,
        List.map_cons, List.sum_cons, List.sum_cons, ih h.2, hg p s b h.1]
    · rw [offsetsOf_cons_neg hused, List.filter_cons_of_neg (by simpa using hused), ih h.2]

end Laid

/-! ## Freeing a block -/

/-- A free block of size `n` in front of `post`, merged with the free block there. -/
def mergeRight (n : Nat) : List Block → Nat × List Block
  | ⟨k, false⟩ :: post => (n + k, post)
  | post => (n, post)

/-- A free block of size `n` behind `pre`, merged with the free block there. -/
def mergeLeft (pre : List Block) (n : Nat) : List Block × Nat :=
  match pre.getLast? with
  | some ⟨k, false⟩ => (pre.dropLast, k + n)
  | _ => (pre, n)

/-- The blocks when one of size `n` between `pre` and `post` has been freed. -/
def freeAt (pre : List Block) (n : Nat) (post : List Block) : List Block :=
  let right := mergeRight n post
  let left := mergeLeft pre right.1
  left.1 ++ ⟨left.2, false⟩ :: right.2

theorem mergeRight_of_startsUsed {post : List Block} (h : StartsUsed post) (n : Nat) :
    mergeRight n post = (n, post) := by
  rcases post with _ | ⟨⟨k, _ | _⟩, post⟩
  · rfl
  · exact absurd (startsUsed_cons.mp h) Bool.false_ne_true
  · rfl

theorem mergeLeft_of_endsUsed {pre : List Block} (h : EndsUsed pre) (n : Nat) :
    mergeLeft pre n = (pre, n) := by
  unfold mergeLeft
  split
  · rename_i k hlast
    exact absurd (h _ hlast) Bool.false_ne_true
  · rfl

theorem mergeLeft_append_free (pre : List Block) (k n : Nat) :
    mergeLeft (pre ++ [⟨k, false⟩]) n = (pre, k + n) := by
  simp [mergeLeft]

/-- What is behind the block: nothing, a used block, or a free one that is merged. -/
theorem mergeRight_cases (post : List Block) :
    StartsUsed post ∨ ∃ k rest, post = ⟨k, false⟩ :: rest := by
  rcases post with _ | ⟨⟨k, _ | _⟩, rest⟩
  · exact .inl startsUsed_nil
  · exact .inr ⟨k, rest, rfl⟩
  · exact .inl (startsUsed_cons.mpr rfl)

theorem mergeLeft_cases (pre : List Block) :
    EndsUsed pre ∨ ∃ k rest, pre = rest ++ [⟨k, false⟩] := by
  rcases List.eq_nil_or_concat pre with rfl | ⟨rest, ⟨k, _ | _⟩, rfl⟩
  · exact .inl endsUsed_nil
  · exact .inr ⟨k, rest, List.concat_eq_append⟩
  · rw [List.concat_eq_append]
    exact .inl (endsUsed_append_singleton.mpr rfl)

/-- A property of the list that merging two free neighbours keeps holds of the list with the
freed block. -/
theorem freeAt_induction {P : List Block → Prop} {pre post : List Block} {n : Nat}
    (hmerge : ∀ l k m r, P (l ++ ⟨k, false⟩ :: ⟨m, false⟩ :: r) → P (l ++ ⟨k + m, false⟩ :: r))
    (h : P (pre ++ ⟨n, false⟩ :: post)) : P (freeAt pre n post) := by
  have hright : P (pre ++ ⟨(mergeRight n post).1, false⟩ :: (mergeRight n post).2) := by
    rcases mergeRight_cases post with hused | ⟨k, rest, rfl⟩
    · rwa [mergeRight_of_startsUsed hused]
    · exact hmerge pre n k rest h
  simp only [freeAt]
  rcases mergeLeft_cases pre with hused | ⟨k, rest, rfl⟩
  · rwa [mergeLeft_of_endsUsed hused]
  · rw [mergeLeft_append_free]
    refine hmerge rest k _ _ ?_
    rwa [List.append_assoc] at hright

theorem usedSize_freeAt (pre post : List Block) (n : Nat) :
    usedSize (freeAt pre n post) = usedSize (pre ++ ⟨n, false⟩ :: post) := by
  refine freeAt_induction (P := fun bs => usedSize bs = usedSize (pre ++ ⟨n, false⟩ :: post))
    (fun l k m r h => ?_) rfl
  rw [← h]
  simp

theorem offsetsOf_freeAt (s : Nat) (pre post : List Block) (n : Nat) :
    offsetsOf true s (freeAt pre n post) = offsetsOf true s (pre ++ ⟨n, false⟩ :: post) := by
  refine freeAt_induction
    (P := fun bs => offsetsOf true s bs = offsetsOf true s (pre ++ ⟨n, false⟩ :: post))
    (fun l k m r h => ?_) rfl
  rw [← h]
  simp [offsetsOf_append, offsetsOf, Nat.add_assoc]

/-- A free block keeps the place of the first one when the free block behind it is merged. -/
theorem firstFree_merge (s k n : Nat) (l r : List Block) :
    firstFree s (l ++ ⟨k + n, false⟩ :: r) = firstFree s (l ++ ⟨k, false⟩ :: ⟨n, false⟩ :: r) := by
  induction l generalizing s with
  | nil => rfl
  | cons b l ih =>
    rcases b with ⟨j, _ | _⟩
    · rfl
    · simp only [List.cons_append, firstFree_cons_used]
      exact ih (s + j)

theorem firstFree_mergeRight (s : Nat) (pre post : List Block) (n : Nat) :
    firstFree s (pre ++ ⟨(mergeRight n post).1, false⟩ :: (mergeRight n post).2) =
      firstFree s (pre ++ ⟨n, false⟩ :: post) := by
  rcases mergeRight_cases post with hused | ⟨k, rest, rfl⟩
  · rw [mergeRight_of_startsUsed hused]
  · exact firstFree_merge s n k pre rest

theorem firstFree_freeAt (s : Nat) (pre post : List Block) (n : Nat) :
    firstFree s (freeAt pre n post) = firstFree s (pre ++ ⟨n, false⟩ :: post) := by
  refine freeAt_induction
    (P := fun bs => firstFree s bs = firstFree s (pre ++ ⟨n, false⟩ :: post))
    (fun l k m r h => ?_) rfl
  rw [← h, firstFree_merge]

/-- The merges may also be made in the other order. -/
theorem freeAt_eq (pre post : List Block) (n : Nat) :
    freeAt pre n post =
      (mergeLeft pre n).1 ++ ⟨(mergeRight (mergeLeft pre n).2 post).1, false⟩ ::
        (mergeRight (mergeLeft pre n).2 post).2 := by
  simp only [freeAt]
  rcases mergeLeft_cases pre with hleft | ⟨j, front, rfl⟩
  · rw [mergeLeft_of_endsUsed hleft, mergeLeft_of_endsUsed hleft]
  · rw [mergeLeft_append_free, mergeLeft_append_free]
    rcases mergeRight_cases post with hright | ⟨k, rest, rfl⟩
    · rw [mergeRight_of_startsUsed hright, mergeRight_of_startsUsed hright]
    · simp only [mergeRight, Nat.add_assoc]

/-- Freeing keeps the list without free neighbours. -/
theorem coalesced_freeAt {pre post : List Block} (n : Nat) (hpre : Coalesced pre)
    (hpost : Coalesced post) : Coalesced (freeAt pre n post) := by
  have hright : Coalesced (mergeRight n post).2 ∧ StartsUsed (mergeRight n post).2 := by
    rcases mergeRight_cases post with hused | ⟨k, rest, rfl⟩
    · rw [mergeRight_of_startsUsed hused]
      exact ⟨hpost, hused⟩
    · have hsplit : Coalesced ([] ++ ⟨k, false⟩ :: rest) := hpost
      obtain ⟨-, hrest, hk⟩ := coalesced_split.mp hsplit
      exact ⟨hrest, (hk.resolve_left Bool.false_ne_true).2⟩
  have hleft : ∀ m, Coalesced (mergeLeft pre m).1 ∧ EndsUsed (mergeLeft pre m).1 := by
    intro m
    rcases mergeLeft_cases pre with hused | ⟨k, rest, rfl⟩
    · rw [mergeLeft_of_endsUsed hused]
      exact ⟨hpre, hused⟩
    · rw [mergeLeft_append_free]
      obtain ⟨hrest, -, hk⟩ := coalesced_split.mp hpre
      exact ⟨hrest, (hk.resolve_left Bool.false_ne_true).1⟩
  exact coalesced_split.mpr ⟨(hleft _).1, hright.1, .inr ⟨(hleft _).2, hright.2⟩⟩

end Gd32Vw553h.Foundation
