/-
  Foundation/BlockReads.lean --- reading byte blocks without leaving them.

  A block is a list of bytes; a read behind its end has no result.  `readBytes` takes a range
  of a block, `foldBytes` folds over one, `compareBytes` compares two ranges up to the first
  difference.  `compareBytes_isSome_iff` says when a comparison stays inside.
-/
import Mathlib.Data.List.TakeDrop

set_option autoImplicit false

namespace Gd32Vw553h.Foundation

/-- The `n` cells from index `i` on. -/
def readBytes {α : Type*} (block : List α) (i n : Nat) : Option (List α) :=
  if i + n ≤ block.length then some ((block.drop i).take n) else none

section Fold

variable {α σ : Type*} {f : σ → α → σ} {block : List α} {i n : Nat} {s : σ}

/-- Fold over the `n` cells from index `i` on. -/
def foldBytes (f : σ → α → σ) (block : List α) (i : Nat) : Nat → σ → Option σ
  | 0, s => some s
  | n + 1, s =>
    match block[i]? with
    | some a => foldBytes f block (i + 1) n (f s a)
    | none => none

theorem foldBytes_inside (h : i + n ≤ block.length) :
    foldBytes f block i n s = some (((block.drop i).take n).foldl f s) := by
  induction n generalizing i s with
  | zero => rw [foldBytes, List.take_zero, List.foldl_nil]
  | succ n ih =>
    have hi : i < block.length := by omega
    have hget : block[i]? = some block[i] := List.getElem?_eq_getElem hi
    have hdrop : block.drop i = block[i] :: block.drop (i + 1) := List.drop_eq_getElem_cons hi
    simp only [foldBytes, hget]
    rw [ih (by omega), hdrop, List.take_succ_cons, List.foldl_cons]

end Fold

section Compare

variable {α : Type*} [DecidableEq α] {a b : List α} {i j n : Nat}

/-- Whether the `n` cells of `a` from `i` on are those of `b` from `j` on; the comparison
ends at the first difference. -/
def compareBytes (a : List α) (i : Nat) (b : List α) (j : Nat) : Nat → Option Bool
  | 0 => some true
  | n + 1 =>
    match a[i]?, b[j]? with
    | some x, some y => if x = y then compareBytes a (i + 1) b (j + 1) n else some false
    | _, _ => none

/-- Cell `k` behind `i` of `a` and behind `j` of `b` are both there, and different. -/
def DifferAt (a : List α) (i : Nat) (b : List α) (j k : Nat) : Prop :=
  ∃ x y, a[i + k]? = some x ∧ b[j + k]? = some y ∧ x ≠ y

/-- The two ranges are inside their blocks, or differ before one leaves its block. -/
def CompareInside (a : List α) (i : Nat) (b : List α) (j n : Nat) : Prop :=
  (i + n ≤ a.length ∧ j + n ≤ b.length) ∨ ∃ k < n, DifferAt a i b j k

omit [DecidableEq α] in
theorem DifferAt.succ_iff (k : Nat) : DifferAt a i b j (k + 1) ↔ DifferAt a (i + 1) b (j + 1) k := by
  unfold DifferAt
  rw [Nat.add_right_comm i 1 k, Nat.add_right_comm j 1 k]
  exact Iff.rfl

theorem compareBytes_isSome_iff (hi : i ≤ a.length) (hj : j ≤ b.length) :
    (compareBytes a i b j n).isSome = true ↔ CompareInside a i b j n := by
  induction n generalizing i j with
  | zero => exact iff_of_true rfl (.inl ⟨hi, hj⟩)
  | succ n ih =>
    by_cases hin : i < a.length ∧ j < b.length
    · obtain ⟨hia, hjb⟩ := hin
      have ha : a[i]? = some a[i] := List.getElem?_eq_getElem hia
      have hb : b[j]? = some b[j] := List.getElem?_eq_getElem hjb
      simp only [compareBytes, ha, hb]
      by_cases heq : a[i] = b[j]
      · rw [if_pos heq, ih hia hjb]
        constructor
        · rintro (⟨hfa, hfb⟩ | ⟨k, hk, hdiff⟩)
          · exact .inl ⟨by omega, by omega⟩
          · exact .inr ⟨k + 1, by omega, (DifferAt.succ_iff k).mpr hdiff⟩
        · rintro (⟨hfa, hfb⟩ | ⟨k, hk, hdiff⟩)
          · exact .inl ⟨by omega, by omega⟩
          · cases k with
            | zero =>
              obtain ⟨x, y, hx, hy, hne⟩ := hdiff
              obtain rfl : a[i] = x := Option.some.inj (ha.symm.trans hx)
              obtain rfl : b[j] = y := Option.some.inj (hb.symm.trans hy)
              exact absurd heq hne
            | succ k => exact .inr ⟨k, by omega, (DifferAt.succ_iff k).mp hdiff⟩
      · rw [if_neg heq]
        exact iff_of_true rfl (.inr ⟨0, Nat.succ_pos n, a[i], b[j], ha, hb, heq⟩)
    · -- The first cells are read, and one of them is not there.
      have hnone : compareBytes a i b j (n + 1) = none := by
        by_cases hia : i < a.length
        · have ha : a[i]? = some a[i] := List.getElem?_eq_getElem hia
          have hb : b[j]? = none := List.getElem?_eq_none (by omega)
          simp only [compareBytes, ha, hb]
        · have ha : a[i]? = none := List.getElem?_eq_none (by omega)
          simp only [compareBytes, ha]
      rw [hnone]
      refine iff_of_false Bool.noConfusion ?_
      rintro (⟨hfa, hfb⟩ | ⟨k, -, x, y, hx, hy, -⟩)
      · omega
      · obtain ⟨hxa, -⟩ := List.getElem?_eq_some_iff.mp hx
        obtain ⟨hyb, -⟩ := List.getElem?_eq_some_iff.mp hy
        omega

end Compare

end Gd32Vw553h.Foundation
