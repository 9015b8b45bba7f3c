/-
  Foundation/Placing.lean --- a new element placed before the first one it precedes.

  `placed` puts an element in front of the first element that a test accepts, or at the
  end.  What a table keeps under it is stated once: its elements in their order, a
  pairwise relation between any two elements, and a sorted order when the test agrees with
  it.  `copied` is the loop that fills a new table around the place, entry by entry.
-/
import Mathlib.Data.List.Basic

set_option autoImplicit false

namespace Gd32Vw553h.Foundation

universe u

variable {α : Type u}

/-- `x` in front of the first element that `before` accepts. -/
def placed (before : α → Bool) (x : α) (l : List α) : List α :=
  l.take (l.findIdx before) ++ x :: l.drop (l.findIdx before)

section Placed

variable {before : α → Bool} {x : α}

theorem placed_cons_before {a : α} (l : List α) (h : before a = true) :
    placed before x (a :: l) = x :: a :: l := by
  simp [placed, List.findIdx_cons, h]

theorem placed_cons_after {a : α} (l : List α) (h : before a = false) :
    placed before x (a :: l) = a :: placed before x l := by
  simp [placed, List.findIdx_cons, h]

theorem length_placed (l : List α) : (placed before x l).length = l.length + 1 := by
  have hplace : l.findIdx before ≤ l.length := List.findIdx_le_length
  rw [placed, List.length_append, List.length_cons, List.length_take, List.length_drop]
  omega

theorem mem_placed {b : α} {l : List α} : b ∈ placed before x l ↔ b = x ∨ b ∈ l := by
  have hsplit : b ∈ l.take (l.findIdx before) ++ l.drop (l.findIdx before) ↔ b ∈ l := by
    rw [List.take_append_drop]
  rw [List.mem_append] at hsplit
  rw [placed, List.mem_append, List.mem_cons, or_left_comm, hsplit]

theorem sublist_placed (l : List α) : l.Sublist (placed before x l) := by
  have hsub : (l.take (l.findIdx before) ++ l.drop (l.findIdx before)).Sublist
      (placed before x l) :=
    (List.Sublist.refl _).append (List.sublist_cons_self x _)
  rwa [List.take_append_drop] at hsub

/-- A relation that `x` has to every element in both directions. -/
theorem pairwise_placed_of_forall {R : α → α → Prop} {l : List α} (h : l.Pairwise R)
    (hleft : ∀ b ∈ l, R x b) (hright : ∀ b ∈ l, R b x) : (placed before x l).Pairwise R := by
  induction l with
  | nil => exact List.pairwise_singleton R x
  | cons a rest ih =>
    obtain ⟨ha, hrest⟩ := List.pairwise_cons.mp h
    cases hbefore : before a with
    | true =>
      rw [placed_cons_before rest hbefore]
      exact List.pairwise_cons.mpr ⟨hleft, h⟩
    | false =>
      rw [placed_cons_after rest hbefore]
      refine List.pairwise_cons.mpr ⟨fun b hb => ?_, ih hrest
        (fun b hb => hleft b (List.mem_cons_of_mem a hb))
        fun b hb => hright b (List.mem_cons_of_mem a hb)⟩
      rcases mem_placed.mp hb with rfl | hmem
      · exact hright a List.mem_cons_self
      · exact ha b hmem

/-- A sorted list stays sorted when the test tells which elements `x` may precede. -/
theorem pairwise_placed {R : α → α → Prop} (htrans : ∀ {a b c}, R a b → R b c → R a c)
    {l : List α} (h : l.Pairwise R) (hyes : ∀ b ∈ l, before b = true → R x b)
    (hno : ∀ b ∈ l, before b = false → R b x) : (placed before x l).Pairwise R := by
  induction l with
  | nil => exact List.pairwise_singleton R x
  | cons a rest ih =>
    obtain ⟨ha, hrest⟩ := List.pairwise_cons.mp h
    cases hbefore : before a with
    | true =>
      have hfirst : R x a := hyes a List.mem_cons_self hbefore
      rw [placed_cons_before rest hbefore]
      refine List.pairwise_cons.mpr ⟨fun b hb => ?_, h⟩
      rcases List.mem_cons.mp hb with rfl | hmem
      · exact hfirst
      · exact htrans hfirst (ha b hmem)
    | false =>
      rw [placed_cons_after rest hbefore]
      refine List.pairwise_cons.mpr ⟨fun b hb => ?_, ih hrest
        (fun b hb => hyes b (List.mem_cons_of_mem a hb))
        fun b hb => hno b (List.mem_cons_of_mem a hb)⟩
      rcases mem_placed.mp hb with rfl | hmem
      · exact hno a List.mem_cons_self hbefore
      · exact ha b hmem

end Placed

/-! ## The copy loop -/

/-- What a loop over the new table stores at `i`. -/
def copied (table : List α) (x : α) (insert i : Nat) : Option α :=
  if i < insert then table[i]?
  else if i > insert then table[i - 1]?
  else some x

theorem map_copied (table : List α) (x : α) {insert : Nat} (h : insert ≤ table.length) :
    (List.range (table.length + 1)).map (copied table x insert) =
      (table.take insert ++ x :: table.drop insert).map some := by
  apply List.ext_getElem
  · simp only [List.length_map, List.length_range, List.length_append, List.length_cons,
      List.length_take, List.length_drop]
    omega
  · intro i hi _
    rw [List.length_map, List.length_range] at hi
    have htake : (table.take insert).length = insert := List.length_take_of_le h
    simp only [List.getElem_map, List.getElem_range, copied]
    split_ifs with hbelow habove
    · rw [List.getElem_append_left (by omega), List.getElem_take, List.getElem?_eq_getElem]
    · rw [List.getElem_append_right (by omega), List.getElem?_eq_getElem (by omega)]
      simp only [htake, List.getElem_cons, List.getElem_drop]
      rw [dif_neg (by omega)]
      congr 2
      omega
    · have heq : i = insert := by omega
      rw [List.getElem_append_right (by omega)]
      simp only [htake, heq, Nat.sub_self, List.getElem_cons_zero]

end Gd32Vw553h.Foundation
