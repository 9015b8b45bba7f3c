/-
  Foundation/LinkedFrom.lean --- lists that are linked one way.

  `LinkedFrom next p l` says that following `next` from `p` visits the nodes of `l` and ends.
  The nodes of a list keep their links when other nodes are written, which is what the
  `update` lemmas are for.
-/
import Mathlib.Data.List.Basic
import Mathlib.Data.List.Nodup
import Mathlib.Logic.Function.Basic

set_option autoImplicit false

namespace Gd32Vw553h.Foundation

variable {κ : Type*} {next : κ → Option κ} {p : Option κ} {l l' : List κ} {a b : κ}

/-- Following `next` from `p` leads through these nodes, and ends. -/
def LinkedFrom (next : κ → Option κ) : Option κ → List κ → Prop
  | p, [] => p = none
  | p, a :: rest => p = some a ∧ LinkedFrom next (next a) rest

namespace LinkedFrom

theorem head (h : LinkedFrom next p l) : p = l.head? := by
  cases l with
  | nil => exact h
  | cons a rest => exact h.1

/-- A list is determined by its first node. -/
theorem unique (h : LinkedFrom next p l) (h' : LinkedFrom next p l') : l = l' := by
  induction l generalizing p l' with
  | nil =>
    cases l' with
    | nil => rfl
    | cons b rest =>
      obtain ⟨hsome, -⟩ := h'
      cases (show p = none from h).symm.trans hsome
  | cons a rest ih =>
    obtain ⟨hfirst, hrest⟩ := h
    cases l' with
    | nil => cases hfirst.symm.trans (show p = none from h')
    | cons b rest' =>
      obtain ⟨hsome, hrest'⟩ := h'
      obtain rfl := Option.some.inj (hfirst.symm.trans hsome)
      rw [ih hrest hrest']

/-- The next nodes of the nodes in the list are all that counts. -/
theorem congr {next' : κ → Option κ} (h : LinkedFrom next p l)
    (hsame : ∀ a ∈ l, next' a = next a) : LinkedFrom next' p l := by
  induction l generalizing p with
  | nil => exact h
  | cons a rest ih =>
    obtain ⟨hfirst, hrest⟩ := h
    refine ⟨hfirst, ?_⟩
    rw [hsame a List.mem_cons_self]
    exact ih hrest fun b hb => hsame b (List.mem_cons_of_mem a hb)

/-- The first node is taken. -/
theorem tail (h : LinkedFrom next (some a) l) :
    ∃ rest, l = a :: rest ∧ LinkedFrom next (next a) rest := by
  cases l with
  | nil => cases (show some a = none from h)
  | cons b rest =>
    obtain ⟨hfirst, hrest⟩ := h
    obtain rfl := Option.some.inj hfirst
    exact ⟨rest, rfl, hrest⟩

variable [DecidableEq κ]

/-- Another node is written. -/
theorem update (h : LinkedFrom next p l) (hout : a ∉ l) (value : Option κ) :
    LinkedFrom (Function.update next a value) p l :=
  h.congr fun _ hb => Function.update_of_ne (ne_of_mem_of_not_mem hb hout) _ _

/-- A node is put in front. -/
theorem push (h : LinkedFrom next p l) (hout : a ∉ l) :
    LinkedFrom (Function.update next a p) (some a) (a :: l) := by
  refine ⟨rfl, ?_⟩
  rw [Function.update_self]
  exact h.update hout p

/-- A node without a next one is put behind the last node. -/
theorem concat (h : LinkedFrom next p l) (hnodup : l.Nodup) (hlast : l.getLast? = some b)
    (hout : a ∉ l) (hend : next a = none) :
    LinkedFrom (Function.update next b (some a)) p (l ++ [a]) := by
  induction l generalizing p with
  | nil => cases hlast
  | cons c rest ih =>
    obtain ⟨hfirst, hrest⟩ := h
    obtain ⟨hc, hnodup⟩ := List.nodup_cons.mp hnodup
    obtain ⟨hac, hout⟩ := not_or.mp (mt List.mem_cons.mpr hout)
    refine ⟨hfirst, ?_⟩
    cases rest with
    | nil =>
      obtain rfl : c = b := Option.some.inj hlast
      rw [Function.update_self]
      refine ⟨rfl, ?_⟩
      rw [Function.update_of_ne hac]
      exact hend
    | cons d rest =>
      have hb : (d :: rest).getLast? = some b := by
        rw [← hlast, List.getLast?_cons_cons]
      have hcb : c ≠ b := fun heq => hc (heq ▸ List.mem_of_getLast? hb)
      rw [Function.update_of_ne hcb]
      exact ih hrest hnodup hb hout

end LinkedFrom

end Gd32Vw553h.Foundation
