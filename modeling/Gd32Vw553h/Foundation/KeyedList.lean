/-
  Foundation/KeyedList.lean --- bounded lists of entries with a key.

  `place` puts an entry at the head, where it takes the place of the entry with
  its key or else of the last one of a full list: the most-recently-used order.
  `absorb` appends the entries of another list whose keys are new, as far as they
  fit.  Both keep the keys distinct and the length within the capacity.
-/
import Mathlib.Data.List.Basic

set_option autoImplicit false

namespace Gd32Vw553h.Foundation

variable {α κ : Type*} [DecidableEq κ] (key : α → κ) (cap : Nat)

/-- No two entries have the same key. -/
def DistinctKeys (l : List α) : Prop := l.Pairwise fun a b => key a ≠ key b

instance (l : List α) : Decidable (DistinctKeys key l) :=
  inferInstanceAs (Decidable (l.Pairwise fun a b => key a ≠ key b))

/-- The entries with another key than `k`, in order. -/
def without (k : κ) (l : List α) : List α := l.filter fun a => key a ≠ k

/-- Put `c` at the head of a list of at most `cap` entries. -/
def place (c : α) (l : List α) : List α := (c :: without key (key c) l).take cap

/-- Append the entries of `stored` whose keys are new, one by one until the list is
full. -/
def absorb (l : List α) : List α → List α
  | [] => l
  | e :: stored =>
      if cap ≤ l.length then l
      else if (∃ a ∈ l, key a = key e) then absorb l stored
      else absorb (l ++ [e]) stored

variable {key cap}

omit [DecidableEq κ] in
theorem DistinctKeys.sublist {l l' : List α} (h : DistinctKeys key l) (hsub : l'.Sublist l) :
    DistinctKeys key l' :=
  List.Pairwise.sublist hsub h

/-! ## The entry with a given key -/

theorem without_of_not_mem {k : κ} {l : List α} (h : ∀ a ∈ l, key a ≠ k) :
    without key k l = l :=
  List.filter_eq_self.mpr fun a ha => decide_eq_true (h a ha)

theorem without_append_of_mem {l r : List α} {e : α} (h : DistinctKeys key (l ++ e :: r)) :
    without key (key e) (l ++ e :: r) = l ++ r := by
  obtain ⟨-, hright, hcross⟩ := List.pairwise_append.mp h
  have hl : without key (key e) l = l :=
    without_of_not_mem fun a ha => hcross a ha e List.mem_cons_self
  have hr : without key (key e) r = r :=
    without_of_not_mem fun a ha => Ne.symm (List.rel_of_pairwise_cons hright ha)
  have hcons : without key (key e) (e :: r) = r := by
    rw [without, List.filter_cons_of_neg (by simp)]
    exact hr
  have happend : without key (key e) (l ++ e :: r) =
      without key (key e) l ++ without key (key e) (e :: r) := List.filter_append l (e :: r)
  rw [happend, hl, hcons]

/-! ## Placing at the head -/

theorem place_length (c : α) (l : List α) : (place key cap c l).length ≤ cap :=
  List.length_take_le cap _

theorem DistinctKeys.place {l : List α} (h : DistinctKeys key l) (c : α) :
    DistinctKeys key (place key cap c l) := by
  have hcons : DistinctKeys key (c :: without key (key c) l) := by
    refine List.pairwise_cons.mpr ⟨fun a ha => ?_, h.sublist List.filter_sublist⟩
    have hne : key a ≠ key c := of_decide_eq_true (List.mem_filter.mp ha).2
    exact hne.symm
  exact hcons.sublist (List.take_sublist cap _)

/-- An entry that is not the last of a full list leaves when its key is placed. -/
theorem place_of_mem {c : α} {l : List α} (hlen : l.length ≤ cap)
    (hmem : ∃ a ∈ l, key a = key c) : place key cap c l = c :: without key (key c) l := by
  obtain ⟨a, ha, hkey⟩ := hmem
  have hlt : (without key (key c) l).length < l.length :=
    List.length_filter_lt_length_iff_exists.mpr ⟨a, ha, by simp [hkey]⟩
  exact List.take_of_length_le (by rw [List.length_cons]; omega)

theorem place_of_room {c : α} {l : List α} (hlen : l.length < cap)
    (hnew : ∀ a ∈ l, key a ≠ key c) : place key cap c l = c :: l := by
  rw [place, without_of_not_mem hnew]
  exact List.take_of_length_le (by rw [List.length_cons]; omega)

/-- A new key in a full list costs the last entry. -/
theorem place_of_full {c : α} {l : List α} (hpos : 0 < cap) (hlen : l.length = cap)
    (hnew : ∀ a ∈ l, key a ≠ key c) : place key cap c l = c :: l.dropLast := by
  obtain ⟨n, rfl⟩ : ∃ n, cap = n + 1 := ⟨cap - 1, by omega⟩
  rw [place, without_of_not_mem hnew, List.take_succ_cons, List.dropLast_eq_take, hlen,
    Nat.add_sub_cancel]

/-! ## Appending the new entries -/

theorem absorb_length (l stored : List α) (hlen : l.length ≤ cap) :
    (absorb key cap l stored).length ≤ cap := by
  induction stored generalizing l with
  | nil => exact hlen
  | cons e stored ih =>
    unfold absorb
    split
    · exact hlen
    · split
      · exact ih l hlen
      · exact ih (l ++ [e]) (by rw [List.length_append, List.length_singleton]; omega)

theorem DistinctKeys.absorb {l : List α} (h : DistinctKeys key l) (stored : List α) :
    DistinctKeys key (absorb key cap l stored) := by
  induction stored generalizing l with
  | nil => exact h
  | cons e stored ih =>
    unfold Foundation.absorb
    split
    · exact h
    · split
      · exact ih h
      · rename_i hnew
        refine ih (List.pairwise_append.mpr ⟨h, List.pairwise_singleton _ e, ?_⟩)
        intro a ha b hb hkey
        rw [List.mem_singleton.mp hb] at hkey
        exact hnew ⟨a, ha, hkey⟩

end Gd32Vw553h.Foundation
