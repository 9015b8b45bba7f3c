/-
  Foundation/LinkedRings.lean --- several circular lists in one store of links.

  `Rings L heads lists` says that the lists with these heads have these members, that no
  node is in two of them, and that every other node is alone.  Taking a node out of
  whatever list it is in and putting a lone one behind a node of a list are the two edits;
  both leave the other lists as they are.
-/
import Gd32Vw553h.Foundation.LinkedRing

set_option autoImplicit false

namespace Gd32Vw553h.Foundation

namespace Links

variable {κ : Type*} {L : Links κ} {h x : κ} {xs ys : List κ}

/-! ## One list -/

/-- The node in front of the head is the last member. -/
theorem Ring.prev_head {qs : List κ} (r : Ring L h qs) : L.prev h = qs.getLastD h := by
  rcases List.eq_nil_or_concat qs with rfl | ⟨front, a, rfl⟩
  · exact (ring_nil_iff.mp r).2
  · rw [List.concat_eq_append] at *
    have hlast := r.rotate
    have hback := hlast.prev_next_head
    rw [hlast.next_head] at hback
    rw [List.getLastD_concat]
    exact hback

/-- The node behind the last of some first members. -/
theorem Ring.next_getLastD {y : κ} (r : Ring L h (xs ++ y :: ys)) : L.next (xs.getLastD h) = y := by
  rcases List.eq_nil_or_concat xs with rfl | ⟨front, a, rfl⟩
  · exact r.next_head
  · rw [List.concat_eq_append] at *
    rw [List.append_assoc, List.singleton_append] at r
    rw [List.getLastD_concat]
    exact r.next_mem

theorem getLastD_mem (h : κ) (xs : List κ) : xs.getLastD h ∈ h :: xs := by
  rcases List.eq_nil_or_concat xs with rfl | ⟨front, a, rfl⟩
  · exact List.mem_cons_self
  · rw [List.concat_eq_append, List.getLastD_concat]
    exact List.mem_cons_of_mem h (List.mem_append_right front (List.mem_singleton_self a))

/-- The last of some first members is the last member only when there are no others. -/
theorem Ring.getLastD_eq_prev_iff (r : Ring L h (xs ++ ys)) :
    xs.getLastD h = L.prev h ↔ ys = [] := by
  rw [r.prev_head]
  rcases List.eq_nil_or_concat ys with rfl | ⟨front, a, rfl⟩
  · rw [List.append_nil]
    exact iff_of_true rfl rfl
  · refine iff_of_false (fun heq => ?_) (by simp)
    rw [List.concat_eq_append, ← List.append_assoc, List.getLastD_concat] at heq
    have hnodup := r.nodup
    rw [List.concat_eq_append, ← List.append_assoc, ← List.cons_append] at hnodup
    have hmem : xs.getLastD h ∈ h :: (xs ++ front) := by
      rcases List.mem_cons.mp (getLastD_mem h xs) with hhead | hxs
      · rw [hhead]
        exact List.mem_cons_self
      · exact List.mem_cons_of_mem h (List.mem_append_left front hxs)
    exact (List.nodup_append.mp hnodup).2.2 _ hmem a (List.mem_singleton_self a) heq

/-! ## Several lists -/

/-- Disjoint circular lists; every node that is in none of them is alone. -/
structure Rings {ι : Type*} (L : Links κ) (heads : ι → κ) (lists : ι → List κ) : Prop where
  ring : ∀ i, Ring L (heads i) (lists i)
  apart : ∀ i j, i ≠ j → ∀ z ∈ heads i :: lists i, z ∉ heads j :: lists j
  alone : ∀ z, (∀ i, z ∉ heads i :: lists i) → Ring L z []

variable {ι : Type*} {heads : ι → κ} {lists : ι → List κ}

/-- Nothing is linked yet. -/
theorem rings_empty (heads : ι → κ) (hheads : Function.Injective heads) :
    Rings { next := id, prev := id } heads fun _ => [] where
  ring _ := ring_nil_iff.mpr ⟨rfl, rfl⟩
  apart i j hij z hz hz' := by
    have hi := List.mem_singleton.mp hz
    have hj := List.mem_singleton.mp hz'
    exact hij (hheads (hi.symm.trans hj))
  alone _ _ := ring_nil_iff.mpr ⟨rfl, rfl⟩

/-! ### Edits -/

variable [DecidableEq κ]

/-- A node that is not in the ring comes to stand behind the last of some first members. -/
theorem Ring.insertAfter_getLastD (r : Ring L h (xs ++ ys)) (hx : x ∉ h :: (xs ++ ys)) :
    Ring (L.insertAfter (xs.getLastD h) x) h (xs ++ x :: ys) := by
  rcases List.eq_nil_or_concat xs with rfl | ⟨front, a, rfl⟩
  · exact r.insertAfter hx
  · rw [List.concat_eq_append] at *
    rw [List.append_assoc, List.singleton_append] at r hx
    have hrotated : x ∉ a :: (ys ++ h :: front) := by
      simp only [List.mem_cons, List.mem_append, not_or] at hx ⊢
      exact ⟨hx.2.2.1, hx.2.2.2, hx.1, hx.2.1⟩
    have hring := r.rotate.insertAfter hrotated
    rw [← List.cons_append] at hring
    rw [List.getLastD_concat, List.append_assoc, List.singleton_append]
    exact hring.rotate

/-- Taking a node out of whatever list it is in. -/
theorem Rings.remove (h : Rings L heads lists) (hx : ∀ i, x ≠ heads i) :
    Rings (L.remove x) heads fun i => (lists i).erase x := by
  have hold : ∀ i, ∀ z ∈ heads i :: (lists i).erase x, z ∈ heads i :: lists i := by
    intro i z hz
    rcases List.mem_cons.mp hz with rfl | hz
    · exact List.mem_cons_self
    · exact List.mem_cons_of_mem _ (List.mem_of_mem_erase hz)
  have hapart : ∀ i j, i ≠ j → ∀ z ∈ heads i :: (lists i).erase x,
      z ∉ heads j :: (lists j).erase x := fun i j hij z hz hz' =>
    h.apart i j hij z (hold i z hz) (hold j z hz')
  by_cases hmem : ∃ i, x ∈ lists i
  · obtain ⟨i, hi⟩ := hmem
    have hnode : x ∈ heads i :: lists i := List.mem_cons_of_mem _ hi
    have hnodup := (List.nodup_cons.mp (h.ring i).nodup).2
    have hsplit : Ring (L.remove x) (heads i) ((lists i).erase x) ∧ Ring (L.remove x) x [] := by
      have hring := h.ring i
      obtain ⟨xs, ys, hlist⟩ := List.append_of_mem hi
      rw [hlist] at hnodup hring ⊢
      have hxs : x ∉ xs := fun hmem =>
        (List.nodup_append.mp hnodup).2.2 x hmem x List.mem_cons_self rfl
      rw [List.erase_append_right _ hxs, List.erase_cons_head]
      exact hring.remove
    refine ⟨fun j => ?_, hapart, fun z hz => ?_⟩
    · by_cases hij : i = j
      · rw [← hij]
        exact hsplit.1
      · have hout : x ∉ lists j := fun hxj =>
          h.apart i j hij x hnode (List.mem_cons_of_mem _ hxj)
        rw [List.erase_of_not_mem hout]
        exact (h.ring i).remove_apart (h.ring j) (h.apart i j hij) hnode
    · by_cases hzx : z = x
      · rw [hzx]
        exact hsplit.2
      · have hfree : ∀ j, z ∉ heads j :: lists j := by
          intro j hzj
          rcases List.mem_cons.mp hzj with hhead | hlist
          · exact hz j (hhead ▸ List.mem_cons_self)
          · exact hz j (List.mem_cons_of_mem _ ((List.mem_erase_of_ne hzx).mpr hlist))
        refine (h.ring i).remove_apart (h.alone z hfree) (fun w hw hwz => ?_) hnode
        exact hfree i (List.mem_singleton.mp hwz ▸ hw)
  · have hout : ∀ i, x ∉ lists i := fun i hi => hmem ⟨i, hi⟩
    have hsame : (fun i => (lists i).erase x) = lists :=
      funext fun i => List.erase_of_not_mem (hout i)
    have hfree : ∀ i, x ∉ heads i :: lists i := fun i hi =>
      (List.mem_cons.mp hi).elim (hx i) (hout i)
    rw [hsame, remove_alone (h.alone x hfree)]
    exact h

/-- Putting a node that is alone behind the last of some first members of a list. -/
theorem Rings.insertAfter (h : Rings L heads lists) (i : ι) (hsplit : lists i = xs ++ ys)
    (hx : ∀ j, x ∉ heads j :: lists j) {lists' : ι → List κ} (hlist : lists' i = xs ++ x :: ys)
    (hother : ∀ j, j ≠ i → lists' j = lists j) :
    Rings (L.insertAfter (xs.getLastD (heads i)) x) heads lists' := by
  have hring := h.ring i
  have hnew := hx i
  rw [hsplit] at hring hnew
  have hplace : xs.getLastD (heads i) ∈ heads i :: lists i := by
    rw [hsplit]
    rcases List.mem_cons.mp (getLastD_mem (heads i) xs) with hhead | hxs
    · rw [hhead]
      exact List.mem_cons_self
    · exact List.mem_cons_of_mem _ (List.mem_append_left ys hxs)
  have hmem : ∀ z, z ∈ heads i :: lists' i ↔ z = x ∨ z ∈ heads i :: lists i := by
    intro z
    rw [hlist, hsplit]
    simp only [List.mem_cons, List.mem_append]
    tauto
  have hcarried : ∀ z qs, Ring L z qs → (∀ w ∈ heads i :: lists i, w ∉ z :: qs) → x ∉ z :: qs →
      Ring (L.insertAfter (xs.getLastD (heads i)) x) z qs := fun z qs hz hapart hnot =>
    (h.ring i).insertAfter_apart hz hapart hplace hnot
  refine ⟨fun j => ?_, fun j k hjk z hz hz' => ?_, fun z hz => ?_⟩
  · by_cases hji : j = i
    · rw [hji, hlist]
      exact hring.insertAfter_getLastD hnew
    · rw [hother j hji]
      exact hcarried _ _ (h.ring j) (h.apart i j (Ne.symm hji)) (hx j)
  · by_cases hji : j = i
    · have hki : k ≠ i := fun hki => hjk (hji.trans hki.symm)
      rw [hji] at hz
      rw [hother k hki] at hz'
      rcases (hmem z).mp hz with rfl | hz
      · exact hx k hz'
      · exact h.apart i k (Ne.symm hki) z hz hz'
    · rw [hother j hji] at hz
      by_cases hki : k = i
      · rw [hki] at hz'
        rcases (hmem z).mp hz' with rfl | hz'
        · exact hx j hz
        · exact h.apart j i hji z hz hz'
      · rw [hother k hki] at hz'
        exact h.apart j k hjk z hz hz'
  · have hfree : z ≠ x ∧ ∀ j, z ∉ heads j :: lists j := by
      constructor
      · exact fun hzx => hz i ((hmem z).mpr (.inl hzx))
      · intro j hzj
        by_cases hji : j = i
        · rw [hji] at hzj
          exact hz i ((hmem z).mpr (.inr hzj))
        · rw [← hother j hji] at hzj
          exact hz j hzj
    refine hcarried z [] (h.alone z hfree.2) (fun w hw hwz => ?_) fun hxz => ?_
    · exact hfree.2 i (List.mem_singleton.mp hwz ▸ hw)
    · exact hfree.1 (List.mem_singleton.mp hxz).symm

end Links

end Gd32Vw553h.Foundation
