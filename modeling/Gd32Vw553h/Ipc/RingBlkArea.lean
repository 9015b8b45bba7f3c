/-
  Ipc/RingBlkArea.lean --- the area of a block queue.

  `rt_rbb_blk_queue_get` gives several blocks as one area: a consumer reads as many bytes as the
  call returned from the buffer of the first block.  The area holds the messages of the queue one
  behind the other, and nothing else, when blocks are put in the order of their allocation and only
  blocks that were got are freed (`ringBlk_area`).  A queue that leaves out a block which is still
  in use, or one that was freed before its neighbours, has other bytes in its area; the example at
  the end shows this.
-/
import Gd32Vw553h.Ipc.RingBlkMessages

set_option autoImplicit false

namespace Gd32Vw553h.Ipc

open Gd32Vw553h.Foundation

/-! ## The order of the blocks -/

/-- Blocks that were got come first, then those that were put. -/
def RtRbbStatus.rank : RtRbbStatus → Nat
  | .blkGet => 0
  | .blkPut => 1
  | .blkInited => 2
  | .blkUnused => 3

/-- A block follows another one without a gap, or at the beginning of the buffer.  There may be
gaps behind blocks that were got. -/
def RtRbbBlk.Follows (a b : RtRbbBlk) : Prop :=
  a.status = .blkGet ∨ b.buf = a.buf + a.size ∨ b.buf = 0

/-- The blocks are put and got in the order of their allocation. -/
structure InOrder (l : List RtRbbBlk) : Prop where
  ranks : l.Pairwise fun a b => a.status.rank ≤ b.status.rank
  follows : l.IsChain RtRbbBlk.Follows

namespace InOrder

variable {l pre post : List RtRbbBlk} {x : RtRbbBlk} {status : RtRbbStatus}

theorem get_of_rank {a b : RtRbbStatus} (hle : a.rank ≤ b.rank) (hb : b = .blkGet) :
    a = .blkGet := by
  subst hb
  cases a <;> simp_all [RtRbbStatus.rank]

theorem concat (h : InOrder l) (hused : ∀ a ∈ l, a.status ≠ .blkUnused)
    (hnew : x.status = .blkInited) (hlast : ∀ a, l.getLast? = some a → a.Follows x) :
    InOrder (l ++ [x]) := by
  refine ⟨List.pairwise_append.mpr ⟨h.ranks, List.pairwise_singleton _ _, ?_⟩, ?_⟩
  · intro a ha b hb
    rw [List.mem_singleton.mp hb, hnew]
    have hstatus := hused a ha
    cases hrank : a.status <;> simp_all [RtRbbStatus.rank]
  · refine List.isChain_append.mpr ⟨h.follows, .singleton _, fun a ha b hb => ?_⟩
    obtain rfl := Option.some.inj hb
    exact hlast a ha

/-- A block moves on to the next status, not behind the blocks in front of it. -/
theorem set (h : InOrder (pre ++ x :: post)) (hrank : status.rank ≤ x.status.rank)
    (hpre : ∀ a ∈ pre, a.status.rank ≤ status.rank) :
    InOrder (pre ++ { x with status := status } :: post) := by
  obtain ⟨hranks, hfollows⟩ := h
  obtain ⟨hleft, hright, -⟩ := List.pairwise_append.mp hranks
  obtain ⟨hx, hpost⟩ := List.pairwise_cons.mp hright
  obtain ⟨cleft, cright, cmid⟩ := List.isChain_append.mp hfollows
  obtain ⟨cx, cpost⟩ := List.isChain_cons.mp cright
  constructor
  · refine List.pairwise_append.mpr ⟨hleft, List.pairwise_cons.mpr ⟨?_, hpost⟩, ?_⟩
    · exact fun b hb => hrank.trans (hx b hb)
    · intro a ha b hb
      rcases List.mem_cons.mp hb with rfl | hb
      · exact hpre a ha
      · exact ((hpre a ha).trans hrank).trans (hx b hb)
  · refine List.isChain_append.mpr ⟨cleft, List.isChain_cons.mpr ⟨fun b hb => ?_, cpost⟩, ?_⟩
    · exact (cx b hb).imp (get_of_rank hrank) id
    · intro a ha b hb
      obtain rfl := Option.some.inj hb
      exact cmid a ha x rfl

/-- A block that was got is freed. -/
theorem remove (h : InOrder (pre ++ x :: post)) (hget : x.status = .blkGet) :
    InOrder (pre ++ post) := by
  obtain ⟨hranks, hfollows⟩ := h
  obtain ⟨cleft, cright, -⟩ := List.isChain_append.mp hfollows
  refine ⟨hranks.sublist ((List.sublist_cons_self x post).append_left pre),
    List.isChain_append.mpr ⟨cleft, (List.isChain_cons.mp cright).2, fun a ha b _ => .inl ?_⟩⟩
  have ha := List.mem_of_getLast? ha
  exact get_of_rank ((List.pairwise_append.mp hranks).2.2 a ha x List.mem_cons_self) hget

end InOrder

namespace RtRbb

variable {r : RtRbb} {b size buf : Nat} {pre post seg freeList : List Nat} {status : RtRbbStatus}

/-- The blocks of the list. -/
def usedBlks (r : RtRbb) : List RtRbbBlk := r.blkList.map r.blkSet

/-- A list of blocks in which one was written. -/
theorem map_setStatus (hb : b ∉ pre) :
    pre.map (r.setStatus b status).blkSet = pre.map r.blkSet :=
  List.map_congr_left fun _ hc => blkSet_setStatus_of_ne (ne_of_mem_of_not_mem hc hb)

theorem usedBlks_setStatus (h : r.Sound) (hlist : r.blkList = pre ++ b :: post) :
    (r.setStatus b status).usedBlks =
      pre.map r.blkSet ++ { r.blkSet b with status := status } :: post.map r.blkSet := by
  have hnodup := h.nodup_blkList
  rw [hlist] at hnodup
  obtain ⟨-, hright, hdisjoint⟩ := List.nodup_append.mp hnodup
  have hpre : b ∉ pre := fun hmem => hdisjoint b hmem b List.mem_cons_self rfl
  show r.blkList.map _ = _
  rw [hlist, List.map_append, List.map_cons, map_setStatus hpre,
    map_setStatus (List.nodup_cons.mp hright).1]
  simp [setStatus]

theorem usedBlks_eq (hlist : r.blkList = pre ++ b :: post) :
    r.usedBlks = pre.map r.blkSet ++ r.blkSet b :: post.map r.blkSet := by
  rw [usedBlks, hlist, List.map_append, List.map_cons]

/-- What comes before a block has the ranks up to its own. -/
theorem rank_le_of_inOrder (horder : InOrder r.usedBlks) (hlist : r.blkList = pre ++ b :: post) :
    ∀ c ∈ pre, (r.blkSet c).status.rank ≤ (r.blkSet b).status.rank := by
  have hranks := horder.ranks
  rw [usedBlks_eq hlist] at hranks
  exact fun c hc => (List.pairwise_append.mp hranks).2.2 _ (List.mem_map_of_mem hc) _
    List.mem_cons_self

theorem inOrder_setStatus (h : r.Sound) (horder : InOrder r.usedBlks)
    (hlist : r.blkList = pre ++ b :: post) (hrank : status.rank ≤ (r.blkSet b).status.rank)
    (hpre : ∀ c ∈ pre, (r.blkSet c).status.rank ≤ status.rank) :
    InOrder (r.setStatus b status).usedBlks := by
  rw [usedBlks_eq hlist] at horder
  rw [usedBlks_setStatus h hlist]
  refine horder.set hrank fun a ha => ?_
  obtain ⟨c, hc, rfl⟩ := List.mem_map.mp ha
  exact hpre c hc

theorem inOrder_grow (h : r.Sound) (horder : InOrder r.usedBlks)
    (hfree : r.freeList = b :: freeList)
    (hbuf : buf = 0 ∨ ∃ last, r.blkList.getLast? = some last ∧ buf = (r.extent last).stop) :
    InOrder (r.grow b freeList size buf).usedBlks := by
  have hused : (r.grow b freeList size buf).usedBlks =
      r.usedBlks ++ [⟨.blkInited, size, buf⟩] := by
    show (r.blkList ++ [b]).map _ = _
    rw [List.map_append, List.map_singleton, blkSet_grow]
    refine congrArg (· ++ _) (List.map_congr_left fun c hc => blkSet_grow_of_ne ?_)
    rintro rfl
    exact h.used c hc (h.unused c (hfree ▸ List.mem_cons_self))
  rw [hused]
  refine horder.concat (fun a ha => ?_) rfl fun a ha => ?_
  · obtain ⟨c, hc, rfl⟩ := List.mem_map.mp ha
    exact h.used c hc
  · rcases hbuf with hbuf | ⟨last, hlast, hbuf⟩
    · exact .inr (.inr hbuf)
    · rw [usedBlks, List.getLast?_map, hlast] at ha
      obtain rfl := Option.some.inj ha
      exact .inr (.inl hbuf)

theorem inOrder_blkFree (h : r.Sound) (horder : InOrder r.usedBlks) (hb : b ∈ r.blkList)
    (hget : (r.blkSet b).status = .blkGet) : InOrder (r.blkFree b).usedBlks := by
  obtain ⟨pre, post, hlist, hpre, hpost⟩ := h.split hb
  rw [usedBlks_eq hlist] at horder
  have hused : (r.blkFree b).usedBlks = pre.map r.blkSet ++ post.map r.blkSet := by
    rw [blkFree_eq h hlist hpre, ← map_setStatus hpre, ← map_setStatus hpost]
    exact List.map_append
  rw [hused]
  exact horder.remove hget

theorem inOrder_freeAll (h : r.Sound) (horder : InOrder r.usedBlks) (hnodup : seg.Nodup)
    (hmem : ∀ b ∈ seg, b ∈ r.blkList ∧ (r.blkSet b).status = .blkGet) :
    InOrder (r.freeAll seg).usedBlks := by
  induction seg generalizing r with
  | nil => exact horder
  | cons b seg ih =>
    obtain ⟨⟨hb, hget⟩, hmem⟩ := List.forall_mem_cons.mp hmem
    obtain ⟨hout, hnodup⟩ := List.nodup_cons.mp hnodup
    refine ih (h.blkFree hb) (inOrder_blkFree h horder hb hget) hnodup fun c hc => ?_
    have hcb : c ≠ b := ne_of_mem_of_not_mem hc hout
    obtain ⟨hc, hstatus⟩ := hmem c hc
    rw [blkList_blkFree h, blkSet_blkFree, blkSet_setStatus_of_ne hcb]
    exact ⟨List.mem_filter.mpr ⟨hc, bne_iff_ne.mpr hcb⟩, hstatus⟩

theorem inOrder_markGet (h : r.Sound) (horder : InOrder r.usedBlks)
    (hlist : r.blkList = pre ++ seg ++ post)
    (hpre : ∀ c ∈ pre, (r.blkSet c).status = .blkGet) : InOrder (r.markGet seg).usedBlks := by
  induction seg generalizing r pre with
  | nil => exact horder
  | cons b seg ih =>
    have hmid : r.blkList = pre ++ b :: (seg ++ post) := by rw [hlist, List.append_assoc]; rfl
    have hb : b ∈ r.blkList := by simp [hmid]
    have hnodup := h.nodup_blkList
    rw [hmid] at hnodup
    have hout : b ∉ pre := fun hmem =>
      (List.nodup_append.mp hnodup).2.2 b hmem b List.mem_cons_self rfl
    refine @ih (r.setStatus b .blkGet) (pre ++ [b]) (h.setStatus hb nofun)
      (inOrder_setStatus h horder hmid (Nat.zero_le _) fun c hc => ?_) ?_ fun c hc => ?_
    · rw [hpre c hc]
    · show r.blkList = _
      rw [hmid]
      simp
    · rcases List.mem_append.mp hc with hc | hc
      · rw [blkSet_setStatus_of_ne (ne_of_mem_of_not_mem hc hout)]
        exact hpre c hc
      · rw [List.mem_singleton.mp hc, status_setStatus]

/-- A queue that was put and does not go back in the buffer has no gaps. -/
theorem abut_of_inOrder (h : r.Sound) (horder : InOrder r.usedBlks) (hpart : seg <:+: r.blkList)
    (hput : ∀ c ∈ seg, (r.blkSet c).status = .blkPut)
    (hup : seg.IsChain fun a b => (r.blkSet a).buf ≤ (r.blkSet b).buf) :
    seg.IsChain fun a b => (r.extent b).start = (r.extent a).stop := by
  have hfollows := List.IsChain.infix ((List.isChain_map _).mp horder.follows) hpart
  have happart := List.IsChain.infix (List.pairwise_map.mp h.laid.pairwise).isChain hpart
  refine List.isChain_iff_forall_rel_of_append_cons_cons.mpr fun a b before after hseg => ?_
  have hmem : a ∈ seg ∧ b ∈ seg := by simp [hseg]
  have hfollow := List.isChain_iff_forall_rel_of_append_cons_cons.mp hfollows hseg
  have hapart := List.isChain_iff_forall_rel_of_append_cons_cons.mp happart hseg
  have hup := List.isChain_iff_forall_rel_of_append_cons_cons.mp hup hseg
  have ha := h.pos a (hpart.subset hmem.1)
  have hb := h.pos b (hpart.subset hmem.2)
  have hstatus := hput a hmem.1
  rcases hfollow with hget | hbehind | hzero
  · rw [hstatus] at hget
    cases hget
  · exact hbehind
  · -- both would begin at the beginning of the buffer
    unfold Extent.Apart Extent.stop extent at hapart
    dsimp only at hapart
    omega

end RtRbb

/-! ## Runs in order -/

namespace RbbState

variable {s s' : RbbState} {call : RbbCall} {b : Nat} {blocks : List Nat}

/-- Blocks are put in the order of their allocation, and freed after they were got. -/
def Ordered (s : RbbState) (call : RbbCall) : Prop :=
  Asserted s call ∧
  match call with
  | .blkPut block =>
    ∀ c ∈ s.rbb.blkList.takeWhile (· != block), (s.rbb.blkSet c).status ≠ .blkInited
  | .blkFree block => (s.rbb.blkSet block).status = .blkGet
  | _ => True

/-- The invariant of these runs: the queues that are held have no gaps. -/
structure Whole (s : RbbState) : Prop where
  sound : s.Sound
  order : InOrder s.rbb.usedBlks
  abut : ∀ blocks ∈ s.queues,
    blocks.IsChain fun a b => (s.rbb.extent b).start = (s.rbb.extent a).stop

theorem whole_start {bufSize blkMaxNum : Nat} {blockSet : Nat → RtRbbBlk} {mem : Nat → UInt8}
    (hsize : bufSize < 0x100000000) : (start bufSize blockSet blkMaxNum mem).Whole :=
  ⟨sound_start hsize, ⟨.nil, .nil⟩, nofun⟩

/-- The extents of the blocks in use are the same as before. -/
theorem Whole.abut_congr (h : s.Whole) {r : RtRbb}
    (hsame : ∀ b ∈ s.rbb.blkList, r.extent b = s.rbb.extent b) :
    ∀ blocks ∈ s.queues, blocks.IsChain fun a b => (r.extent b).start = (r.extent a).stop := by
  refine fun blocks hblocks => (h.abut blocks hblocks).imp_of_mem_imp fun a b ha hb hab => ?_
  rw [hsame a (h.sound.mem_of_queued hblocks ha), hsame b (h.sound.mem_of_queued hblocks hb)]
  exact hab

theorem extent_blkFree {r : RtRbb} : (r.blkFree b).extent = r.extent := by
  have hset : (r.blkFree b).extent = (r.setStatus b .blkUnused).extent := by
    funext c
    rw [RtRbb.extent, RtRbb.extent, RtRbb.blkSet_blkFree]
  rw [hset, RtRbb.extent_setStatus]

theorem extent_freeAll {r : RtRbb} : (r.freeAll blocks).extent = r.extent := by
  induction blocks generalizing r with
  | nil => rfl
  | cons b blocks ih => exact ih.trans extent_blkFree

theorem whole_queueGet (h : s.Whole) {len total : Nat} (hsound : s'.Sound)
    (hstep : step s (.queueGet len total blocks) = some s') : s'.Whole := by
  rcases RtRbb.blkQueueGet_cases h.sound.rbb.nodup_blkList len with
    ⟨-, hget⟩ | ⟨pre, b, taken, post, hlist, hpre, hput, hup, -, hget⟩ <;>
    simp only [step, hget] at hstep
  · by_cases hret : total = 0 ∧ blocks = []
    · rw [if_pos hret] at hstep
      obtain rfl := Option.some.inj hstep
      exact h
    · rw [if_neg hret] at hstep
      cases hstep
  · rw [walk_eq h.sound.rbb.nodup_blkList hlist] at hstep
    by_cases hret : total = s.rbb.sizes (b :: taken) ∧ blocks = b :: taken
    · rw [if_pos hret] at hstep
      obtain rfl := Option.some.inj hstep
      obtain ⟨-, rfl⟩ := hret
      have hmid : s.rbb.blkList = pre ++ b :: (taken ++ post) := by
        rw [hlist, List.append_assoc]
        rfl
      have hgot : ∀ c ∈ pre, (s.rbb.blkSet c).status = .blkGet := by
        intro c hc
        have hrank := RtRbb.rank_le_of_inOrder h.order hmid c hc
        rw [hput b List.mem_cons_self] at hrank
        have hnot := hpre c hc
        cases hstatus : (s.rbb.blkSet c).status <;> simp_all [RtRbbStatus.rank]
      refine ⟨hsound, RtRbb.inOrder_markGet h.sound.rbb h.order hlist hgot, ?_⟩
      have habut := RtRbb.abut_of_inOrder h.sound.rbb h.order ⟨pre, post, hlist.symm⟩ hput hup
      refine List.forall_mem_cons.mpr ⟨?_, ?_⟩
      · rwa [RtRbb.extent_markGet]
      · rw [RtRbb.extent_markGet]
        exact h.abut
    · rw [if_neg hret] at hstep
      cases hstep

theorem whole_blkGet (h : s.Whole) {ret : Option Nat} (hsound : s'.Sound)
    (hstep : step s (.blkGet ret) = some s') : s'.Whole := by
  rcases s.rbb.blkGet_cases with ⟨-, hget⟩ | ⟨pre, b, post, hlist, hpre, hput, hget⟩ <;>
    simp only [step, hget] at hstep
  · by_cases hret : ret = none
    · rw [if_pos hret] at hstep
      obtain rfl := Option.some.inj hstep
      exact h
    · rw [if_neg hret] at hstep
      cases hstep
  · by_cases hret : ret = some b
    · rw [if_pos hret] at hstep
      obtain rfl := Option.some.inj hstep
      refine ⟨hsound, RtRbb.inOrder_setStatus h.sound.rbb h.order hlist (Nat.zero_le _)
        fun c hc => ?_, h.abut_congr fun _ _ => by rw [RtRbb.extent_setStatus]⟩
      have hrank := RtRbb.rank_le_of_inOrder h.order hlist c hc
      have hnot := hpre c hc
      rw [hput] at hrank
      cases hstatus : (s.rbb.blkSet c).status <;> simp_all [RtRbbStatus.rank]
    · rw [if_neg hret] at hstep
      cases hstep

/-- Each call that keeps the order keeps the invariant. -/
theorem whole_step (h : s.Whole) (hok : Ordered s call) (hstep : step s call = some s') :
    s'.Whole := by
  have hsound := (step_right h.sound hok.1 hstep).1
  cases call with
  | blkAlloc blkSize ret =>
    rcases h.sound.rbb.blkAlloc hok.1.1 hok.1.2 with
      halloc | ⟨b, freeList, buf, hfree, halloc, -, hbuf⟩ <;>
      simp only [step, halloc] at hstep
    · by_cases hret : ret = none
      · rw [if_pos hret] at hstep
        obtain rfl := Option.some.inj hstep
        exact h
      · rw [if_neg hret] at hstep
        cases hstep
    · by_cases hret : ret = some b
      · rw [if_pos hret] at hstep
        obtain rfl := Option.some.inj hstep
        refine ⟨hsound, RtRbb.inOrder_grow h.sound.rbb h.order hfree hbuf,
          h.abut_congr fun c hc => ?_⟩
        have hcb : c ≠ b := by
          rintro rfl
          exact h.sound.rbb.used c hc (h.sound.rbb.unused c (hfree ▸ List.mem_cons_self))
        rw [RtRbb.extent, RtRbb.blkSet_grow_of_ne hcb, RtRbb.extent]
      · rw [if_neg hret] at hstep
        cases hstep
  | write block offset byte =>
    obtain rfl := Option.some.inj hstep
    exact ⟨hsound, h.order, h.abut⟩
  | blkPut block =>
    obtain rfl := Option.some.inj hstep
    obtain ⟨⟨hlt, hstatus⟩, hfirst⟩ := hok
    have hb := h.sound.rbb.mem_blkList hlt (by simp [hstatus])
    obtain ⟨pre, post, hlist, hpre, -⟩ := h.sound.rbb.split hb
    have hfirst : ∀ c ∈ pre, (s.rbb.blkSet c).status ≠ .blkInited := by
      simpa only [hlist, RtRbb.takeWhile_ne hpre] using hfirst
    refine ⟨hsound, RtRbb.inOrder_setStatus h.sound.rbb h.order hlist ?_ fun c hc => ?_,
      h.abut_congr fun c _ => congrFun RtRbb.extent_setStatus c⟩
    · rw [hstatus]
      decide
    · have hused := h.sound.rbb.used c (by simp [hlist, hc])
      have hnot := hfirst c hc
      cases hc : (s.rbb.blkSet c).status <;> simp_all [RtRbbStatus.rank]
  | blkGet ret => exact whole_blkGet h hsound hstep
  | blkFree block =>
    obtain rfl := Option.some.inj hstep
    obtain ⟨⟨hlt, hused, -⟩, hget⟩ := hok
    have hb := h.sound.rbb.mem_blkList hlt hused
    refine ⟨hsound, RtRbb.inOrder_blkFree h.sound.rbb h.order hb hget,
      h.abut_congr fun _ _ => by rw [extent_blkFree]⟩
  | queueGet len total blocks => exact whole_queueGet h hsound hstep
  | queueFree blocks =>
    have hblocks : blocks ∈ s.queues := hok.1
    rw [queueFree_eq h.sound hblocks] at hstep
    obtain rfl := Option.some.inj hstep
    obtain ⟨-, hpart, hget⟩ := h.sound.queued blocks hblocks
    refine ⟨hsound, RtRbb.inOrder_freeAll h.sound.rbb h.order
      (h.sound.rbb.nodup_blkList.sublist hpart.sublist)
      fun b hb => ⟨hpart.subset hb, hget b hb⟩, fun other hother => ?_⟩
    show other.IsChain fun a b =>
      ((s.rbb.freeAll blocks).extent b).start = ((s.rbb.freeAll blocks).extent a).stop
    rw [extent_freeAll]
    exact h.abut other (List.mem_of_mem_erase hother)

/-- As long as a consumer holds a queue, the queue's area has the bytes of the queue's messages,
one behind the other. -/
theorem ringBlk_area {bufSize blkMaxNum : Nat} {blockSet : Nat → RtRbbBlk} {mem : Nat → UInt8}
    (hsize : bufSize < 0x100000000) {calls : List RbbCall}
    (run : machine.Run Ordered (start bufSize blockSet blkMaxNum mem) calls s)
    (hheld : b :: blocks ∈ s.queues) :
    ∃ total before taken after, s.rbb.blkQueueLen ⟨b, blocks.length + 1⟩ = some total ∧
      s.messages = before ++ taken ++ after ∧ taken.map RbbMessage.block = b :: blocks ∧
      slice s.mem ⟨s.rbb.blkQueueBuf ⟨b, blocks.length + 1⟩, total⟩ =
        (taken.map RbbMessage.bytes).flatten := by
  have h : s.Whole :=
    run.invariant (fun _ _ _ hok hstep h => whole_step h hok hstep) (whole_start hsize)
  obtain ⟨-, ⟨pre, post, hlist⟩, -⟩ := h.sound.queued _ hheld
  have hlen := RtRbb.queueLenLoop_eq h.sound.rbb.nodup_blkList 0 hlist.symm
  rw [Nat.zero_add] at hlen
  refine ⟨_, pre.map (s.rbb.message s.mem), (b :: blocks).map (s.rbb.message s.mem),
    post.map (s.rbb.message s.mem), hlen, ?_, ?_, ?_⟩
  · rw [messages, RtRbb.messages, ← hlist, List.map_append, List.map_append]
  · rw [List.map_map]
    exact List.map_id _
  · have habut : ((b :: blocks).map s.rbb.extent).IsChain fun e f => f.start = e.stop :=
      (List.isChain_map _).mpr (h.abut _ hheld)
    have hflat : (((b :: blocks).map s.rbb.extent).map (slice s.mem)).flatten =
        slice s.mem ⟨(s.rbb.extent b).start,
          (((b :: blocks).map s.rbb.extent).map Extent.length).sum⟩ := flatten_slices habut
    rw [List.map_map, List.map_map] at hflat
    rw [List.map_map]
    exact hflat.symm

/-- Two messages, got as one queue. -/
def joined : List RbbCall :=
  [.blkAlloc 2 (some 2), .blkAlloc 3 (some 1), .write 1 1 7, .write 2 0 5, .blkPut 2, .blkPut 1,
    .queueGet 8 5 [2, 1]]

theorem ringBlk_area_joined :
    ∃ s, machine.exec (start 8 (fun _ => ⟨.blkGet, 0, 0⟩) 3 fun _ => 0) joined = some s ∧
      ∃ total before taken after, s.rbb.blkQueueLen ⟨2, 2⟩ = some total ∧
        s.messages = before ++ taken ++ after ∧ taken.map RbbMessage.block = [2, 1] ∧
        slice s.mem ⟨s.rbb.blkQueueBuf ⟨2, 2⟩, total⟩ = (taken.map RbbMessage.bytes).flatten := by
  obtain ⟨s, hexec⟩ :
      ∃ s, machine.exec (start 8 (fun _ => ⟨.blkGet, 0, 0⟩) 3 fun _ => 0) joined = some s :=
    ⟨_, rfl⟩
  have hqueues : (machine.exec (start 8 (fun _ => ⟨.blkGet, 0, 0⟩) 3 fun _ => 0) joined).map
      queues = some [[2, 1]] := rfl
  rw [hexec] at hqueues
  have hheld : [2, 1] ∈ s.queues := by
    rw [Option.some.inj hqueues]
    exact List.mem_cons_self
  have hadmitted : machine.Admitted Ordered
      (start 8 (fun _ => ⟨.blkGet, 0, 0⟩) 3 fun _ => 0) joined :=
    .cons ⟨⟨by decide, by decide⟩, trivial⟩ rfl <| .cons ⟨⟨by decide, by decide⟩, trivial⟩ rfl <|
    .cons ⟨⟨by decide, rfl, by decide⟩, trivial⟩ rfl <|
    .cons ⟨⟨by decide, rfl, by decide⟩, trivial⟩ rfl <|
    .cons ⟨⟨by decide, rfl⟩, nofun⟩ rfl <|
    .cons ⟨⟨by decide, rfl⟩, by decide⟩ rfl <| .cons ⟨trivial, trivial⟩ rfl trivial
  exact ⟨s, hexec, ringBlk_area (by decide) (.of_exec hexec hadmitted) hheld⟩

-- the block in the middle was put, got and freed first: its bytes are in the area of the queue
example :
    (machine.exec (start 8 (fun _ => ⟨.blkGet, 0, 0⟩) 3 fun _ => 0)
      [.blkAlloc 1 (some 2), .write 2 0 1, .blkAlloc 2 (some 1), .write 1 0 2, .blkAlloc 1 (some 0),
        .write 0 0 3, .blkPut 1, .blkGet (some 1), .blkFree 1, .blkPut 2, .blkPut 0,
        .queueGet 8 2 [2, 0]]).map
      (fun s => slice s.mem ⟨s.rbb.blkQueueBuf ⟨2, 2⟩, 2⟩) = some [1, 2] := rfl

end RbbState

end Gd32Vw553h.Ipc
