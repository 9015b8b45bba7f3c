/-
  Foundation/RingQueue.lean --- the part of a ring buffer between two indices.

  Indices run below `cap` and wrap to zero.  `ringSlice` reads `n` cells from a
  start index on; a write behind the slice extends it at the end
  (`ringSlice_update`, `ringSlice_ringWrite`), and cells can be taken off its front
  (`ringSlice_cons`, `ringSlice_add`).
-/
import Mathlib.Data.List.GetD
import Mathlib.Data.List.Range
import Mathlib.Logic.Function.Basic
import Mathlib.Tactic.SplitIfs

set_option autoImplicit false

namespace Gd32Vw553h.Foundation

variable {α : Type*} (cap : Nat)

/-- The index behind `i`. -/
def ringNext (i : Nat) : Nat := if i + 1 ≥ cap then 0 else i + 1

/-- The index `n` cells behind `start`. -/
def ringIndex (start n : Nat) : Nat := if start + n < cap then start + n else start + n - cap

/-- How many cells `put` is ahead of `get`; zero when they are equal. -/
def ringDistance (get put : Nat) : Nat := if put ≥ get then put - get else cap - (get - put)

/-- The `n` cells from `start` on. -/
def ringSlice (buf : Nat → α) (start n : Nat) : List α :=
  (List.range n).map fun i => buf (ringIndex cap start i)

/-- The cells from `start` on hold `data`. -/
def ringWrite (buf : Nat → α) (start : Nat) (data : List α) : Nat → α := fun i =>
  if i < cap then data.getD (ringDistance cap start i) (buf i) else buf i

variable {cap}

theorem ringNext_lt (hpos : 0 < cap) (i : Nat) : ringNext cap i < cap := by
  unfold ringNext
  split_ifs <;> omega

theorem ringDistance_lt {get put : Nat} (hput : put < cap) : ringDistance cap get put < cap := by
  unfold ringDistance
  split_ifs <;> omega

theorem ringDistance_eq_zero {get put : Nat} (hget : get < cap) :
    ringDistance cap get put = 0 ↔ put = get := by
  unfold ringDistance
  split_ifs <;> omega

/-- `put` stands behind the cells that it is ahead of `get`. -/
theorem ringIndex_distance {get put : Nat} (hget : get < cap) (hput : put < cap) :
    ringIndex cap get (ringDistance cap get put) = put := by
  unfold ringIndex ringDistance
  split_ifs <;> omega

/-- Moving `put` on adds one, unless it meets `get`. -/
theorem ringDistance_next_put {get put : Nat} (hget : get < cap) (hput : put < cap) :
    ringDistance cap get (ringNext cap put) =
      if ringNext cap put = get then 0 else ringDistance cap get put + 1 := by
  unfold ringDistance ringNext
  split_ifs <;> omega

/-- `put` meets `get` when all other cells are between them. -/
theorem ringNext_eq_get {get put : Nat} (hget : get < cap) (hput : put < cap) :
    ringNext cap put = get ↔ ringDistance cap get put + 1 = cap := by
  unfold ringDistance ringNext
  split_ifs <;> omega

/-- Moving `get` on takes one off. -/
theorem ringDistance_next_get {get put : Nat} (hget : get < cap) (hput : put < cap) :
    ringDistance cap (ringNext cap get) put =
      if put = get then cap - 1 else ringDistance cap get put - 1 := by
  unfold ringDistance ringNext
  split_ifs <;> omega

theorem ringSlice_length (buf : Nat → α) (start n : Nat) :
    (ringSlice cap buf start n).length = n := by
  rw [ringSlice, List.length_map, List.length_range]

theorem ringSlice_zero (buf : Nat → α) (start : Nat) : ringSlice cap buf start 0 = [] := rfl

/-- The first cell of a slice. -/
theorem ringSlice_cons (buf : Nat → α) {start n : Nat} (hstart : start < cap) (hn : n < cap) :
    ringSlice cap buf start (n + 1) = buf start :: ringSlice cap buf (ringNext cap start) n := by
  rw [ringSlice, List.range_succ_eq_map, List.map_cons, List.map_map, ringSlice]
  have hfirst : ringIndex cap start 0 = start := if_pos hstart
  have hrest : ∀ i ∈ List.range n, ((fun i => buf (ringIndex cap start i)) ∘ Nat.succ) i =
      buf (ringIndex cap (ringNext cap start) i) := by
    intro i hi
    have hlt : i < n := List.mem_range.mp hi
    have hindex : ringIndex cap start (i + 1) = ringIndex cap (ringNext cap start) i := by
      unfold ringIndex ringNext
      split_ifs <;> omega
    exact congrArg buf hindex
  rw [hfirst, List.map_congr_left hrest]

/-- Writing the cell behind a slice extends it. -/
theorem ringSlice_update (buf : Nat → α) {start n : Nat} (hn : n < cap) (a : α) :
    ringSlice cap (Function.update buf (ringIndex cap start n) a) start (n + 1) =
      ringSlice cap buf start n ++ [a] := by
  have hold : ∀ i ∈ List.range n,
      Function.update buf (ringIndex cap start n) a (ringIndex cap start i) =
        buf (ringIndex cap start i) := by
    intro i hi
    have hlt : i < n := List.mem_range.mp hi
    have hne : ringIndex cap start i ≠ ringIndex cap start n := by
      unfold ringIndex
      split_ifs <;> omega
    exact Function.update_of_ne hne a buf
  rw [ringSlice, List.range_succ, List.map_append, List.map_congr_left hold, List.map_singleton,
    Function.update_self, ringSlice]

/-! ## Several cells at once -/

theorem ringIndex_lt {start n : Nat} (hstart : start < cap) (hn : n ≤ cap) :
    ringIndex cap start n < cap := by
  unfold ringIndex
  split_ifs <;> omega

theorem ringIndex_add {start a b : Nat} (hstart : start < cap) (hab : a + b ≤ cap) :
    ringIndex cap (ringIndex cap start a) b = ringIndex cap start (a + b) := by
  unfold ringIndex
  split_ifs <;> omega

/-- A cell is as far ahead as its number says. -/
theorem ringDistance_ringIndex {start n : Nat} (hstart : start < cap) (hn : n < cap) :
    ringDistance cap start (ringIndex cap start n) = n := by
  unfold ringDistance ringIndex
  split_ifs <;> omega

/-- A slice in two parts. -/
theorem ringSlice_add (buf : Nat → α) {start a b : Nat} (hstart : start < cap)
    (hab : a + b ≤ cap) :
    ringSlice cap buf start (a + b) =
      ringSlice cap buf start a ++ ringSlice cap buf (ringIndex cap start a) b := by
  have hrest : ∀ i ∈ List.range b, ((fun i => buf (ringIndex cap start i)) ∘ (a + ·)) i =
      buf (ringIndex cap (ringIndex cap start a) i) := by
    intro i hi
    have hlt : i < b := List.mem_range.mp hi
    exact congrArg buf (ringIndex_add hstart (by omega)).symm
  rw [ringSlice, List.range_add, List.map_append, List.map_map, List.map_congr_left hrest]
  rfl

theorem ringSlice_take (buf : Nat → α) {start k n : Nat} (hstart : start < cap) (hn : n ≤ cap)
    (hk : k ≤ n) : (ringSlice cap buf start n).take k = ringSlice cap buf start k := by
  have hsplit := ringSlice_add buf hstart (show k + (n - k) ≤ cap by omega)
  rw [Nat.add_sub_cancel' hk] at hsplit
  rw [hsplit, List.take_left' (ringSlice_length buf start k)]

theorem ringSlice_drop (buf : Nat → α) {start k n : Nat} (hstart : start < cap) (hn : n ≤ cap)
    (hk : k ≤ n) :
    (ringSlice cap buf start n).drop k = ringSlice cap buf (ringIndex cap start k) (n - k) := by
  have hsplit := ringSlice_add buf hstart (show k + (n - k) ≤ cap by omega)
  rw [Nat.add_sub_cancel' hk] at hsplit
  rw [hsplit, List.drop_left' (ringSlice_length buf start k)]

/-- A slice that does not wrap. -/
theorem ringSlice_straight (buf : Nat → α) {start n : Nat} (h : start + n ≤ cap) :
    ringSlice cap buf start n = (List.range n).map fun i => buf (start + i) := by
  refine List.map_congr_left fun i hi => ?_
  have hlt : i < n := List.mem_range.mp hi
  exact congrArg buf (if_pos (by omega))

/-- The cells behind the slice are written: it grows by what they hold. -/
theorem ringSlice_ringWrite (buf : Nat → α) {start n : Nat} {data : List α}
    (hstart : start < cap) (hroom : n + data.length ≤ cap) :
    ringSlice cap (ringWrite cap buf (ringIndex cap start n) data) start (n + data.length) =
      ringSlice cap buf start n ++ data := by
  have hput : ringIndex cap start n < cap := ringIndex_lt hstart (by omega)
  have hold : ∀ i ∈ List.range n,
      ringWrite cap buf (ringIndex cap start n) data (ringIndex cap start i) =
        buf (ringIndex cap start i) := by
    intro i hi
    have hlt : i < n := List.mem_range.mp hi
    have hfar : data.length ≤ ringDistance cap (ringIndex cap start n) (ringIndex cap start i) := by
      unfold ringDistance ringIndex
      split_ifs <;> omega
    rw [ringWrite, if_pos (ringIndex_lt hstart (by omega)), List.getD_eq_default _ _ hfar]
  have hnew : ringSlice cap (ringWrite cap buf (ringIndex cap start n) data)
      (ringIndex cap start n) data.length = data := by
    refine List.ext_getElem (ringSlice_length _ _ _) fun i hi hdata => ?_
    have hdist := ringDistance_ringIndex hput (show i < cap by omega)
    have hin : ringIndex cap (ringIndex cap start n) i < cap := ringIndex_lt hput (by omega)
    simp only [ringSlice, List.getElem_map, List.getElem_range]
    rw [ringWrite, if_pos hin, hdist, List.getD_eq_getElem _ _ hdata]
  rw [ringSlice_add _ hstart hroom, hnew]
  exact congrArg (· ++ data) (List.map_congr_left hold)

end Gd32Vw553h.Foundation
