/-
  Foundation/LinkedRing.lean --- circular doubly linked lists.

  `Links` is the store of the two links of every node.  `Ring L h qs` says that the list
  with head `h` has the members `qs`, in this order.  The operations are the usual
  assignments to links; each has one lemma that says what it does to a ring it works on,
  and `Ring.congr` carries every other ring over.
-/
import Mathlib.Data.List.Chain
import Mathlib.Data.List.Nodup

set_option autoImplicit false

namespace Gd32Vw553h.Foundation

/-- The links of all nodes. -/
structure Links (κ : Type*) where
  next : κ → κ
  prev : κ → κ

namespace Links

variable {κ : Type*}

/-- Consecutive nodes are linked both ways. -/
def Linked (L : Links κ) (x y : κ) : Prop := L.next x = y ∧ L.prev y = x

/-- The links of a chain read `next` of all nodes but the last and `prev` of all but the
first. -/
theorem isChain_congr {L L' : Links κ} {l : List κ} (h : l.IsChain L.Linked)
    (hnext : ∀ x ∈ l.dropLast, L'.next x = L.next x)
    (hprev : ∀ y ∈ l.tail, L'.prev y = L.prev y) : l.IsChain L'.Linked := by
  induction l with
  | nil => exact List.isChain_nil
  | cons x l ih =>
    cases l with
    | nil => exact List.isChain_singleton x
    | cons y l =>
      obtain ⟨⟨hxy, hyx⟩, hrest⟩ := List.isChain_cons_cons.mp h
      rw [List.dropLast_cons_cons] at hnext
      refine List.isChain_cons_cons.mpr ⟨⟨?_, ?_⟩, ih hrest ?_ ?_⟩
      · rw [hnext x List.mem_cons_self, hxy]
      · rw [hprev y List.mem_cons_self, hyx]
      · exact fun z hz => hnext z (List.mem_cons_of_mem x hz)
      · exact fun z hz => hprev z (List.mem_cons_of_mem y hz)

/-! ## Rings -/

/-- The circular list with head `h` and members `qs`. -/
structure Ring (L : Links κ) (h : κ) (qs : List κ) : Prop where
  nodup : (h :: qs).Nodup
  chain : (h :: (qs ++ [h])).IsChain L.Linked

variable {L L' : Links κ} {h x : κ} {qs xs ys : List κ}

/-- A ring is the same in another store that agrees on its nodes. -/
theorem Ring.congr (r : Ring L h qs) (hnext : ∀ x ∈ h :: qs, L'.next x = L.next x)
    (hprev : ∀ x ∈ h :: qs, L'.prev x = L.prev x) : Ring L' h qs where
  nodup := r.nodup
  chain := by
    refine isChain_congr r.chain (fun x hx => hnext x ?_) (fun x hx => hprev x ?_)
    · rwa [← List.cons_append, List.dropLast_concat] at hx
    · rcases List.mem_append.mp hx with hx | hx
      · exact List.mem_cons_of_mem h hx
      · exact List.mem_cons.mpr (.inl (List.mem_singleton.mp hx))

/-- The ring with nothing in it. -/
theorem ring_nil_iff : Ring L h [] ↔ L.next h = h ∧ L.prev h = h := by
  constructor
  · intro r
    exact (List.isChain_cons_cons.mp r.chain).1
  · intro hself
    exact ⟨List.nodup_singleton h, List.isChain_cons_cons.mpr ⟨hself, List.isChain_singleton h⟩⟩

/-- What `next` of the head is. -/
theorem Ring.next_head (r : Ring L h qs) : L.next h = (qs ++ [h]).headD h := by
  cases qs with
  | nil => exact (ring_nil_iff.mp r).1
  | cons x qs => exact (List.isChain_cons_cons.mp r.chain).1.1

theorem Ring.next_head_mem (r : Ring L h qs) : L.next h ∈ h :: qs := by
  rw [r.next_head]
  cases qs with
  | nil => exact List.mem_cons_self
  | cons x qs => exact List.mem_cons_of_mem h List.mem_cons_self

theorem Ring.prev_next_head (r : Ring L h qs) : L.prev (L.next h) = h := by
  have hchain := r.chain
  rw [r.next_head]
  cases qs with
  | nil => exact (List.isChain_cons_cons.mp hchain).1.2
  | cons x qs => exact (List.isChain_cons_cons.mp hchain).1.2

/-- A ring is empty exactly when its head is its own successor. -/
theorem Ring.next_head_iff (r : Ring L h qs) : L.next h = h ↔ qs = [] := by
  rw [r.next_head]
  cases qs with
  | nil => exact iff_of_true rfl rfl
  | cons x qs =>
    refine iff_of_false (fun heq => ?_) (List.cons_ne_nil x qs)
    exact (List.nodup_cons.mp r.nodup).1 (heq ▸ List.mem_cons_self)

theorem ring_split (h x : κ) (xs ys : List κ) :
    h :: ((xs ++ x :: ys) ++ [h]) = (h :: xs) ++ x :: (ys ++ [h]) := by
  simp

/-- The successor of a member. -/
theorem Ring.next_mem (r : Ring L h (xs ++ x :: ys)) : L.next x = (ys ++ [h]).headD h := by
  have hchain := r.chain
  rw [ring_split, List.isChain_split] at hchain
  have hrest := hchain.2
  cases ys with
  | nil => exact (List.isChain_cons_cons.mp hrest).1.1
  | cons y ys => exact (List.isChain_cons_cons.mp hrest).1.1

/-- The nodes of a nonempty list up to the last one. -/
theorem exists_last (h : κ) (xs : List κ) : ∃ front a, h :: xs = front ++ [a] :=
  ⟨(h :: xs).dropLast, (h :: xs).getLast (List.cons_ne_nil h xs),
    (List.dropLast_append_getLast (List.cons_ne_nil h xs)).symm⟩

theorem exists_first (h : κ) (ys : List κ) : ∃ b back, ys ++ [h] = b :: back := by
  cases ys with
  | nil => exact ⟨h, [], rfl⟩
  | cons y ys => exact ⟨y, ys ++ [h], rfl⟩

/-- The members in front of `x`, `x` and those behind it are different ones. -/
theorem Ring.parts (r : Ring L h (xs ++ x :: ys)) :
    (h :: xs).Nodup ∧ (ys ++ [h]).Nodup ∧ x ∉ h :: xs ∧ x ∉ ys ++ [h] ∧
      (∀ u ∈ h :: xs, u ∉ ys) ∧ ∀ v ∈ xs, v ∉ ys ++ [h] := by
  obtain ⟨hhead, hmembers⟩ := List.nodup_cons.mp r.nodup
  obtain ⟨hxs, hxys, hdisjoint⟩ := List.nodup_append.mp hmembers
  obtain ⟨hx, hys⟩ := List.nodup_cons.mp hxys
  simp only [List.mem_append, List.mem_cons, not_or] at hhead
  obtain ⟨hhxs, hhx, hhys⟩ := hhead
  have hxxs : x ∉ xs := fun hmem => hdisjoint x hmem x List.mem_cons_self rfl
  have hcross : ∀ v ∈ xs, v ∉ ys := fun v hv hvy =>
    hdisjoint v hv v (List.mem_cons_of_mem x hvy) rfl
  refine ⟨List.nodup_cons.mpr ⟨hhxs, hxs⟩, ?_, ?_, ?_, ?_, ?_⟩
  · refine List.nodup_append.mpr ⟨hys, List.nodup_singleton h, fun u hu v hv heq => ?_⟩
    exact hhys (List.mem_singleton.mp hv ▸ heq ▸ hu)
  · exact fun hmem => (List.mem_cons.mp hmem).elim (Ne.symm hhx) hxxs
  · intro hmem
    rcases List.mem_append.mp hmem with hmem | hmem
    · exact hx hmem
    · exact hhx (List.mem_singleton.mp hmem).symm
  · intro u hu
    rcases List.mem_cons.mp hu with rfl | hu
    · exact hhys
    · exact hcross u hu
  · intro v hv hmem
    rcases List.mem_append.mp hmem with hmem | hmem
    · exact hcross v hv hmem
    · exact hhxs (List.mem_singleton.mp hmem ▸ hv)

/-- A ring seen from one of its members. -/
theorem Ring.rotate (r : Ring L h (xs ++ x :: ys)) : Ring L x (ys ++ h :: xs) where
  nodup := by
    have hperm : (x :: (ys ++ h :: xs)).Perm (h :: (xs ++ x :: ys)) := by
      have hswap : ((x :: ys) ++ (h :: xs)).Perm ((h :: xs) ++ (x :: ys)) := List.perm_append_comm
      exact hswap
    exact hperm.nodup_iff.mpr r.nodup
  chain := by
    have hchain := r.chain
    rw [ring_split, List.isChain_split] at hchain
    rw [ring_split, List.isChain_split]
    exact ⟨hchain.2, hchain.1⟩

/-- The neighbours of a node of a ring are nodes of the ring. -/
theorem Ring.neighbours (r : Ring L h qs) (hx : x ∈ h :: qs) :
    L.next x ∈ h :: qs ∧ L.prev x ∈ h :: qs := by
  -- a node is the head of its ring, seen from there
  have hhead : ∀ y rs, Ring L y rs → L.next y ∈ y :: rs ∧ L.prev y ∈ y :: rs := by
    intro y rs hring
    refine ⟨hring.next_head_mem, ?_⟩
    rcases List.eq_nil_or_concat rs with rfl | ⟨front, a, rfl⟩
    · rw [(ring_nil_iff.mp hring).2]
      exact List.mem_cons_self
    · rw [List.concat_eq_append] at *
      have hlast := hring.rotate
      have hprev : L.prev y = a := by
        have hback := hlast.prev_next_head
        rwa [hlast.next_head] at hback
      rw [hprev]
      exact List.mem_cons_of_mem y (List.mem_append_right front (List.mem_singleton_self a))
  rcases List.mem_cons.mp hx with rfl | hmem
  · exact hhead x qs r
  · obtain ⟨xs, ys, rfl⟩ := List.append_of_mem hmem
    have hsame : ∀ z, z ∈ x :: (ys ++ h :: xs) ↔ z ∈ h :: (xs ++ x :: ys) := by
      intro z
      simp only [List.mem_cons, List.mem_append]
      tauto
    obtain ⟨hnext, hprev⟩ := hhead x _ r.rotate
    exact ⟨(hsame _).mp hnext, (hsame _).mp hprev⟩

variable [DecidableEq κ]

/-- The nodes from `x` up to `h`, at most `fuel` of them. -/
def membersFrom (L : Links κ) (h : κ) : Nat → κ → List κ
  | 0, _ => []
  | fuel + 1, x => if x = h then [] else x :: membersFrom L h fuel (L.next x)

/-- The members of the list with head `h`, read off the links. -/
def members (L : Links κ) (h : κ) (fuel : Nat) : List κ := L.membersFrom h fuel (L.next h)

theorem Ring.membersFrom_eq {fuel : Nat} (r : Ring L h (xs ++ ys)) (hfuel : ys.length ≤ fuel) :
    L.membersFrom h fuel ((ys ++ [h]).headD h) = ys := by
  induction ys generalizing xs fuel with
  | nil =>
    cases fuel with
    | zero => rfl
    | succ fuel => exact if_pos rfl
  | cons y ys ih =>
    cases fuel with
    | zero => exact absurd hfuel (Nat.not_succ_le_zero _)
    | succ fuel =>
      have hne : y ≠ h := fun heq =>
        (List.nodup_cons.mp r.nodup).1 (heq ▸ List.mem_append_right xs List.mem_cons_self)
      have hrest : Ring L h ((xs ++ [y]) ++ ys) := by
        rwa [List.append_assoc, List.singleton_append]
      rw [List.cons_append, List.headD_cons, membersFrom, if_neg hne, r.next_mem,
        ih hrest (Nat.le_of_succ_le_succ hfuel)]

/-- Enough fuel reads all members. -/
theorem Ring.members_eq {fuel : Nat} (r : Ring L h qs) (hfuel : qs.length ≤ fuel) :
    L.members h fuel = qs := by
  rw [members, r.next_head]
  exact Ring.membersFrom_eq (show Ring L h ([] ++ qs) from r) hfuel

/-! ## Assignments -/

/-- `x->next = y` -/
def setNext (L : Links κ) (x y : κ) : Links κ := { L with next := Function.update L.next x y }

/-- `x->prev = y` -/
def setPrev (L : Links κ) (x y : κ) : Links κ := { L with prev := Function.update L.prev x y }

section
variable (L : Links κ) (x y z : κ)

@[simp] theorem setNext_next : (L.setNext x y).next z = if z = x then y else L.next z :=
  Function.update_apply L.next x y z

@[simp] theorem setNext_prev : (L.setNext x y).prev z = L.prev z := rfl

@[simp] theorem setPrev_prev : (L.setPrev x y).prev z = if z = x then y else L.prev z :=
  Function.update_apply L.prev x y z

@[simp] theorem setPrev_next : (L.setPrev x y).next z = L.next z := rfl

end

/-! ### Taking a node out -/

/-- Link the neighbours of `x` with each other. -/
def unlink (L : Links κ) (x : κ) : Links κ :=
  let L := L.setPrev (L.next x) (L.prev x)
  L.setNext (L.prev x) (L.next x)

theorem unlink_next (L : Links κ) (h : L.next x ≠ x) (z : κ) :
    (L.unlink x).next z = if z = L.prev x then L.next x else L.next z := by
  simp [unlink, h.symm]

theorem unlink_prev (L : Links κ) (z : κ) :
    (L.unlink x).prev z = if z = L.next x then L.prev x else L.prev z := by
  simp [unlink]

/-- `unlink` takes a member out of its ring. -/
theorem Ring.unlink (r : Ring L h (xs ++ x :: ys)) : Ring (L.unlink x) h (xs ++ ys) := by
  obtain ⟨front, a, hfront⟩ := exists_last h xs
  obtain ⟨b, back, hback⟩ := exists_first h ys
  obtain ⟨hleft, hright, -, hx, hcross, hcross'⟩ := r.parts
  have hchain := r.chain
  rw [ring_split, hfront, hback, List.append_assoc, List.singleton_append,
    List.isChain_append_cons_cons] at hchain
  obtain ⟨hchainLeft, ⟨hax, hxa⟩, hrest⟩ := hchain
  obtain ⟨⟨hxb, hbx⟩, hchainRight⟩ := List.isChain_cons_cons.mp hrest
  have ha : a ∈ h :: xs := by
    rw [hfront]
    exact List.mem_append_right front (List.mem_singleton_self a)
  have hb : b ∈ ys ++ [h] := by rw [hback]; exact List.mem_cons_self
  have hne : L.next x ≠ x := by
    rw [hxb]
    exact fun heq => hx (heq ▸ hb)
  have hnext : ∀ z, z ≠ a → (L.unlink x).next z = L.next z := fun z hz => by
    rw [unlink_next L hne, hxa, if_neg hz]
  have hprev : ∀ z, z ≠ b → (L.unlink x).prev z = L.prev z := fun z hz => by
    rw [unlink_prev, hxb, if_neg hz]
  refine ⟨?_, ?_⟩
  · exact r.nodup.sublist (List.Sublist.cons_cons h
      ((List.append_sublist_append_left xs).mpr (List.sublist_cons_self x ys)))
  · have hsplit : h :: ((xs ++ ys) ++ [h]) = front ++ a :: b :: back := by
      rw [List.append_assoc, ← List.cons_append, hfront, hback, List.append_assoc,
        List.singleton_append]
    rw [hsplit, List.isChain_append_cons_cons]
    refine ⟨isChain_congr hchainLeft ?_ ?_, ⟨?_, ?_⟩, isChain_congr hchainRight ?_ ?_⟩
    · rw [List.dropLast_concat]
      intro u hu
      refine hnext u fun heq => ?_
      rw [hfront] at hleft
      exact (List.nodup_append.mp hleft).2.2 u hu a (List.mem_singleton_self a) heq
    · rw [← hfront]
      exact fun v hv => hprev v fun heq => hcross' v hv (heq ▸ hb)
    · rw [unlink_next L hne, hxa, if_pos rfl, hxb]
    · rw [unlink_prev, hxb, if_pos rfl, hxa]
    · rw [← hback, List.dropLast_concat]
      exact fun u hu => hnext u fun heq => hcross a ha (heq ▸ hu)
    · intro v hv
      refine hprev v fun heq => ?_
      rw [hback] at hright
      exact (List.nodup_cons.mp hright).1 (heq ▸ hv)

/-! ### Putting a node in -/

/-- `rt_list_insert_after` -/
def insertAfter (L : Links κ) (l n : κ) : Links κ :=
  let L := L.setPrev (L.next l) n
  let L := L.setNext n (L.next l)
  let L := L.setNext l n
  L.setPrev n l

/-- `rt_list_insert_before` -/
def insertBefore (L : Links κ) (l n : κ) : Links κ :=
  let L := L.setNext (L.prev l) n
  let L := L.setPrev n (L.prev l)
  let L := L.setPrev l n
  L.setNext n l

/-- A node that is not in the ring becomes its first member. -/
theorem Ring.insertAfter (r : Ring L h qs) (hx : x ∉ h :: qs) :
    Ring (L.insertAfter h x) h (x :: qs) := by
  obtain ⟨b, back, hback⟩ := exists_first h qs
  obtain ⟨hhead, hqs⟩ := List.nodup_cons.mp r.nodup
  obtain ⟨hxh, hxqs⟩ := not_or.mp (mt List.mem_cons.mpr hx)
  have hb : L.next h = b := by rw [r.next_head, hback, List.headD_cons]
  have hright : (b :: back).Nodup := by
    rw [← hback]
    exact List.nodup_append.mpr ⟨hqs, List.nodup_singleton h, fun u hu v hv heq =>
      hhead (List.mem_singleton.mp hv ▸ heq ▸ hu)⟩
  have hmem : ∀ v, v ∈ b :: back → v ≠ x := by
    rw [← hback]
    intro v hv heq
    rcases List.mem_append.mp hv with hv | hv
    · exact hxqs (heq ▸ hv)
    · exact hxh (heq ▸ List.mem_singleton.mp hv)
  have hbx : b ≠ x := hmem b List.mem_cons_self
  have hchain := r.chain
  rw [hback, List.isChain_cons_cons] at hchain
  constructor
  · simp only [List.nodup_cons, List.mem_cons, not_or]
    exact ⟨⟨Ne.symm hxh, hhead⟩, hxqs, hqs⟩
  · rw [List.cons_append, hback]
    refine List.isChain_cons_cons.mpr ⟨⟨?_, ?_⟩, List.isChain_cons_cons.mpr ⟨⟨?_, ?_⟩,
      isChain_congr hchain.2 ?_ ?_⟩⟩
    · simp [Links.insertAfter]
    · simp [Links.insertAfter]
    · simp [Links.insertAfter, hxh, hb]
    · simp [Links.insertAfter, hb, hbx]
    · rw [← hback, List.dropLast_concat]
      intro u hu
      have huh : u ≠ h := fun heq => hhead (heq ▸ hu)
      have hux : u ≠ x := fun heq => hxqs (heq ▸ hu)
      simp [Links.insertAfter, huh, hux]
    · intro v hv
      have hvb : v ≠ b := fun heq => (List.nodup_cons.mp hright).1 (heq ▸ hv)
      have hvx : v ≠ x := hmem v (List.mem_cons_of_mem b hv)
      simp [Links.insertAfter, hb, hvb, hvx]

/-- A node that is not in the ring becomes its last member. -/
theorem Ring.insertBefore (r : Ring L h qs) (hx : x ∉ h :: qs) :
    Ring (L.insertBefore h x) h (qs ++ [x]) := by
  obtain ⟨front, a, hfront⟩ := exists_last h qs
  obtain ⟨hhead, hqs⟩ := List.nodup_cons.mp r.nodup
  obtain ⟨hxh, hxqs⟩ := not_or.mp (mt List.mem_cons.mpr hx)
  have hleft := r.nodup
  have hchain := r.chain
  rw [← List.cons_append, hfront, List.append_assoc, List.singleton_append,
    List.isChain_append_cons_cons] at hchain
  obtain ⟨hchainLeft, ⟨hah, hha⟩, -⟩ := hchain
  have hmem : ∀ u, u ∈ front ++ [a] → u ≠ x := by
    rw [← hfront]
    exact fun u hu heq => hx (heq ▸ hu)
  have hax : a ≠ x := hmem a (List.mem_append_right front (List.mem_singleton_self a))
  constructor
  · rw [← List.cons_append]
    exact List.nodup_append.mpr ⟨r.nodup, List.nodup_singleton x, fun u hu v hv heq =>
      hx (List.mem_singleton.mp hv ▸ heq ▸ hu)⟩
  · have hsplit : h :: ((qs ++ [x]) ++ [h]) = front ++ a :: x :: [h] := by
      rw [List.append_assoc, ← List.cons_append, hfront, List.append_assoc]
      rfl
    rw [hsplit, List.isChain_append_cons_cons, List.isChain_pair]
    refine ⟨isChain_congr hchainLeft ?_ ?_, ⟨?_, ?_⟩, ⟨?_, ?_⟩⟩
    · rw [List.dropLast_concat]
      intro u hu
      have hua : u ≠ a := fun heq => by
        rw [hfront] at hleft
        exact (List.nodup_append.mp hleft).2.2 u hu a (List.mem_singleton_self a) heq
      have hux : u ≠ x := hmem u (List.mem_append_left [a] hu)
      simp [Links.insertBefore, hha, hua, hux]
    · rw [← hfront]
      intro v hv
      have hvh : v ≠ h := fun heq => hhead (heq ▸ hv)
      have hvx : v ≠ x := fun heq => hxqs (heq ▸ hv)
      simp [Links.insertBefore, hvh, hvx]
    · simp [Links.insertBefore, hha, hax]
    · simp [Links.insertBefore, hha, hxh]
    · simp [Links.insertBefore]
    · simp [Links.insertBefore]

/-- A node that is not in the ring comes to stand in front of a member. -/
theorem Ring.insertBefore_mem {y : κ} (r : Ring L h (xs ++ y :: ys))
    (hx : x ∉ h :: (xs ++ y :: ys)) : Ring (L.insertBefore y x) h (xs ++ x :: y :: ys) := by
  have hrotated : x ∉ y :: (ys ++ h :: xs) := by
    simp only [List.mem_cons, List.mem_append, not_or] at hx ⊢
    exact ⟨hx.2.2.1, hx.2.2.2, hx.1, hx.2.1⟩
  have hring := r.rotate.insertBefore hrotated
  rw [List.append_assoc, List.cons_append] at hring
  have hback := hring.rotate
  rwa [List.append_assoc] at hback

/-- A node that is not in the ring, put behind the last one. -/
theorem Ring.insertAfter_last (r : Ring L h qs) (hx : x ∉ h :: qs) :
    Ring (L.insertAfter (L.prev h) x) h (qs ++ [x]) := by
  rcases List.eq_nil_or_concat qs with rfl | ⟨front, a, rfl⟩
  · rw [(ring_nil_iff.mp r).2]
    exact r.insertAfter hx
  · rw [List.concat_eq_append] at *
    have hrotated := r.rotate
    have hnext : L.next a = h := hrotated.next_head
    have hprev : L.prev h = a := by
      rw [← hnext]
      exact hrotated.prev_next_head
    rw [hprev]
    have hring := hrotated.insertAfter (x := x) (by
      simp only [List.mem_cons, List.mem_append, List.nil_append, not_or] at hx ⊢
      exact ⟨hx.2.2.1, hx.1, hx.2.1⟩)
    rw [List.append_assoc]
    exact Ring.rotate (show Ring _ _ ([x] ++ _) from hring)

/-! ### Removing a node -/

/-- `rt_list_remove` -/
def remove (L : Links κ) (x : κ) : Links κ := ((L.unlink x).setNext x x).setPrev x x

/-! ### Other rings -/

theorem Ring.setNext (r : Ring L h qs) (hx : x ∉ h :: qs) (y : κ) :
    Ring (L.setNext x y) h qs := by
  refine r.congr (fun z hz => ?_) fun _ _ => rfl
  have hne : z ≠ x := fun heq => hx (heq ▸ hz)
  rw [setNext_next, if_neg hne]

theorem Ring.setPrev (r : Ring L h qs) (hx : x ∉ h :: qs) (y : κ) :
    Ring (L.setPrev x y) h qs := by
  refine r.congr (fun _ _ => rfl) fun z hz => ?_
  have hne : z ≠ x := fun heq => hx (heq ▸ hz)
  rw [setPrev_prev, if_neg hne]

section Apart

variable {h' : κ} {qs' : List κ}

/-- Removing a node of one ring changes no ring apart from it. -/
theorem Ring.remove_apart (r : Ring L h qs) (r' : Ring L h' qs')
    (hapart : ∀ z ∈ h :: qs, z ∉ h' :: qs') (hx : x ∈ h :: qs) : Ring (L.remove x) h' qs' := by
  obtain ⟨hnext, hprev⟩ := r.neighbours hx
  have hsame : (L.setPrev (L.next x) (L.prev x)).prev x = L.prev x := by simp
  have hunlinked : Ring (L.unlink x) h' qs' := by
    refine (r'.setPrev (hapart _ hnext) _).setNext ?_ _
    rw [hsame]
    exact hapart _ hprev
  exact (hunlinked.setNext (hapart x hx) x).setPrev (hapart x hx) x

/-- Inserting into one ring changes no ring apart from it. -/
theorem Ring.insertAfter_apart {l n : κ} (r : Ring L h qs) (r' : Ring L h' qs')
    (hapart : ∀ z ∈ h :: qs, z ∉ h' :: qs') (hl : l ∈ h :: qs) (hn : n ∉ h' :: qs') :
    Ring (L.insertAfter l n) h' qs' :=
  (((r'.setPrev (hapart _ (r.neighbours hl).1) n).setNext hn _).setNext (hapart l hl) n).setPrev
    hn l

theorem Ring.insertBefore_apart {l n : κ} (r : Ring L h qs) (r' : Ring L h' qs')
    (hapart : ∀ z ∈ h :: qs, z ∉ h' :: qs') (hl : l ∈ h :: qs) (hn : n ∉ h' :: qs') :
    Ring (L.insertBefore l n) h' qs' :=
  (((r'.setNext (hapart _ (r.neighbours hl).2) n).setPrev hn _).setPrev (hapart l hl) n).setNext
    hn l

end Apart

/-- A removed member is alone, and no longer in its ring. -/
theorem Ring.remove (r : Ring L h (xs ++ x :: ys)) :
    Ring (L.remove x) h (xs ++ ys) ∧ Ring (L.remove x) x [] := by
  have hx : x ∉ h :: (xs ++ ys) := by
    obtain ⟨-, -, hleft, hright, -⟩ := r.parts
    simp only [List.mem_cons, List.mem_append, not_or] at hleft hright ⊢
    exact ⟨hleft.1, hleft.2, hright.1⟩
  refine ⟨(r.unlink.setNext hx x).setPrev hx x, ring_nil_iff.mpr ⟨?_, ?_⟩⟩ <;>
    simp [Links.remove]

/-- A node that is alone stays so, and nothing else changes. -/
theorem remove_alone (r : Ring L x []) : L.remove x = L := by
  obtain ⟨hnext, hprev⟩ := ring_nil_iff.mp r
  have hnextSame : (L.remove x).next = L.next := by
    funext z
    by_cases hz : z = x <;> simp [Links.remove, Links.unlink, hz, hnext, hprev]
  have hprevSame : (L.remove x).prev = L.prev := by
    funext z
    by_cases hz : z = x <;> simp [Links.remove, Links.unlink, hz, hnext, hprev]
  cases hL : L.remove x with
  | mk next prev =>
    rw [hL] at hnextSame hprevSame
    subst hnextSame hprevSame
    rfl

end Links

end Gd32Vw553h.Foundation
