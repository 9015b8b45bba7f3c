/-
  Foundation/CommonPrefix.lean --- completing a word from a table of names.

  The names that continue a word agree on a longest common part (`completion`), which
  the word begins and which begins each of these names.  Where no name continues the
  word, the word stays as it is.
-/
import Mathlib.Data.List.Infix

set_option autoImplicit false

namespace Gd32Vw553h.Foundation

variable {α : Type*} [DecidableEq α]

/-- The longest common prefix of two words. -/
def commonPrefix : List α → List α → List α
  | a :: l, b :: m => if a = b then a :: commonPrefix l m else []
  | _, _ => []

theorem commonPrefix_left (l m : List α) : commonPrefix l m <+: l := by
  induction l generalizing m with
  | nil => exact List.prefix_rfl
  | cons a l ih =>
    cases m with
    | nil => exact List.nil_prefix
    | cons b m =>
      rw [commonPrefix]
      split
      · exact (List.prefix_cons_inj a).mpr (ih m)
      · exact List.nil_prefix

theorem commonPrefix_comm (l m : List α) : commonPrefix l m = commonPrefix m l := by
  induction l generalizing m with
  | nil => cases m <;> rfl
  | cons a l ih =>
    cases m with
    | nil => rfl
    | cons b m =>
      by_cases hab : a = b
      · subst hab
        rw [commonPrefix, commonPrefix, if_pos rfl, if_pos rfl, ih]
      · rw [commonPrefix, commonPrefix, if_neg hab, if_neg (Ne.symm hab)]

theorem commonPrefix_right (l m : List α) : commonPrefix l m <+: m := by
  rw [commonPrefix_comm]
  exact commonPrefix_left m l

/-- It is the longest one. -/
theorem prefix_commonPrefix {p l m : List α} (hl : p <+: l) (hm : p <+: m) :
    p <+: commonPrefix l m := by
  induction p generalizing l m with
  | nil => exact List.nil_prefix
  | cons a p ih =>
    obtain ⟨l, rfl⟩ := hl
    obtain ⟨m, rfl⟩ := hm
    rw [List.cons_append, List.cons_append, commonPrefix, if_pos rfl]
    exact (List.prefix_cons_inj a).mpr (ih (List.prefix_append p l) (List.prefix_append p m))

/-- How far two words agree. -/
theorem commonPrefix_take (l m : List α) (k : Nat) :
    commonPrefix (l.take k) m = l.take (min k (commonPrefix l m).length) := by
  induction l generalizing m k with
  | nil =>
    rw [List.take_nil, List.take_nil]
    rfl
  | cons a l ih =>
    cases k with
    | zero =>
      rw [Nat.zero_min]
      rfl
    | succ k =>
      cases m with
      | nil => rfl
      | cons b m =>
        rw [List.take_succ_cons, commonPrefix, commonPrefix]
        by_cases hab : a = b
        · rw [if_pos hab, if_pos hab, ih, List.length_cons, Nat.succ_min_succ, List.take_succ_cons]
        · rw [if_neg hab, if_neg hab]
          rfl

/-- The common part of the names that continue a word. -/
def completion (names : List (List α)) (word : List α) : List α :=
  match names.filter (word.isPrefixOf ·) with
  | [] => word
  | name :: others => others.foldl commonPrefix name

theorem foldl_commonPrefix_begins (others : List (List α)) (name : List α) :
    others.foldl commonPrefix name <+: name ∧
      ∀ other ∈ others, others.foldl commonPrefix name <+: other := by
  induction others generalizing name with
  | nil => exact ⟨List.prefix_rfl, fun other hother => absurd hother List.not_mem_nil⟩
  | cons first others ih =>
    obtain ⟨hname, hothers⟩ := ih (commonPrefix name first)
    refine ⟨hname.trans (commonPrefix_left name first), ?_⟩
    intro other hother
    rcases List.mem_cons.mp hother with rfl | hother
    · exact hname.trans (commonPrefix_right name other)
    · exact hothers other hother

theorem prefix_foldl_commonPrefix {word : List α} {others : List (List α)} {name : List α}
    (hname : word <+: name) (hothers : ∀ other ∈ others, word <+: other) :
    word <+: others.foldl commonPrefix name := by
  induction others generalizing name with
  | nil => exact hname
  | cons first others ih =>
    have hfirst := hothers first List.mem_cons_self
    exact ih (prefix_commonPrefix hname hfirst) fun other hother =>
      hothers other (List.mem_cons_of_mem first hother)

/-- A word is completed to something that it begins. -/
theorem prefix_completion (names : List (List α)) (word : List α) :
    word <+: completion names word := by
  have hall : ∀ name ∈ names.filter (word.isPrefixOf ·), word <+: name := by
    intro name hname
    exact List.isPrefixOf_iff_prefix.mp (List.mem_filter.mp hname).2
  unfold completion
  split
  · exact List.prefix_rfl
  · next name others hfilter =>
    rw [hfilter] at hall
    exact prefix_foldl_commonPrefix (hall name List.mem_cons_self) fun other hother =>
      hall other (List.mem_cons_of_mem name hother)

/-- A word is completed to the beginning of a name, or stays. -/
theorem completion_begins (names : List (List α)) (word : List α) :
    completion names word = word ∨ ∃ name ∈ names, completion names word <+: name := by
  unfold completion
  split
  · exact .inl rfl
  · next name others hfilter =>
    have hname : name ∈ names.filter (word.isPrefixOf ·) := by
      rw [hfilter]
      exact List.mem_cons_self
    exact .inr ⟨name, (List.mem_filter.mp hname).1, (foldl_commonPrefix_begins others name).1⟩

end Gd32Vw553h.Foundation
