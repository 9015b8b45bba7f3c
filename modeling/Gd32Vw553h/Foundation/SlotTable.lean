/-
  Foundation/SlotTable.lean --- rows of a fixed number of slots.

  An entry is put into the first free slot of a row and taken out of the first slot
  that holds it.  `count_fillSlot` and `count_clearSlot` say how often an entry
  stands in the row afterwards; other entries are not touched.
-/
import Mathlib.Data.List.Count

set_option autoImplicit false

namespace Gd32Vw553h.Foundation

variable {α : Type*}

/-- Put `a` into the first free slot; a full row stays as it is. -/
def fillSlot (a : α) : List (Option α) → List (Option α)
  | [] => []
  | none :: rest => some a :: rest
  | some b :: rest => some b :: fillSlot a rest

variable [DecidableEq α]

/-- Free the first slot that holds `a`. -/
def clearSlot (a : α) : List (Option α) → List (Option α)
  | [] => []
  | slot :: rest => if slot = some a then none :: rest else slot :: clearSlot a rest

theorem count_fillSlot (a : α) (row : List (Option α)) :
    (fillSlot a row).count (some a) =
      row.count (some a) + if none ∈ row then 1 else 0 := by
  induction row with
  | nil => rfl
  | cons slot rest ih =>
    cases slot with
    | none =>
      have hnone : (none : Option α) ≠ some a := nofun
      rw [fillSlot, List.count_cons_self, List.count_cons_of_ne hnone, if_pos List.mem_cons_self]
    | some b =>
      have hmem : (none : Option α) ∈ some b :: rest ↔ none ∈ rest := by simp
      rw [fillSlot, List.count_cons, List.count_cons, ih, if_congr hmem rfl rfl,
        Nat.add_right_comm]

theorem count_fillSlot_of_ne {a b : α} (h : b ≠ a) (row : List (Option α)) :
    (fillSlot a row).count (some b) = row.count (some b) := by
  induction row with
  | nil => rfl
  | cons slot rest ih =>
    cases slot with
    | none =>
      have hnone : (none : Option α) ≠ some b := nofun
      have hsome : some a ≠ some b := fun heq => h (Option.some.inj heq).symm
      rw [fillSlot, List.count_cons_of_ne hsome, List.count_cons_of_ne hnone]
    | some c => rw [fillSlot, List.count_cons, List.count_cons, ih]

theorem count_clearSlot (a : α) (row : List (Option α)) :
    (clearSlot a row).count (some a) = row.count (some a) - 1 := by
  induction row with
  | nil => rfl
  | cons slot rest ih =>
    unfold clearSlot
    by_cases hslot : slot = some a
    · have hnone : (none : Option α) ≠ some a := nofun
      rw [if_pos hslot, hslot, List.count_cons_of_ne hnone, List.count_cons_self,
        Nat.add_sub_cancel]
    · rw [if_neg hslot, List.count_cons_of_ne hslot, List.count_cons_of_ne hslot, ih]

end Gd32Vw553h.Foundation
