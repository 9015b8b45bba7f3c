/-
  Foundation/Extents.lean --- extents of a store, laid out as a ring.

  An extent is a range of addresses.  `Stacked low high l` says that the extents of `l` follow
  each other upwards between two addresses, with or without gaps.  In `RingLaid size l` they do so
  in two parts, of which the second lies below the first: the order in which a ring is filled when
  no extent goes over its end.  Taking extents away keeps both, and the three `concat` lemmas are
  the places where one more extent may be put.

  `slice` reads an extent.  Extents that abut are read as one (`flatten_slices`).
-/
import Mathlib.Algebra.BigOperators.Group.List.Basic
import Mathlib.Algebra.Ring.Nat
import Mathlib.Data.List.Chain
import Mathlib.Logic.Function.Basic
import Mathlib.Tactic.Common

set_option autoImplicit false

namespace Gd32Vw553h.Foundation

/-- A range of addresses. -/
structure Extent where
  start : Nat
  length : Nat
  deriving DecidableEq

namespace Extent

/-- The first address behind the extent. -/
def stop (e : Extent) : Nat := e.start + e.length

/-- No address belongs to both. -/
def Apart (e f : Extent) : Prop := e.stop ≤ f.start ∨ f.stop ≤ e.start

theorem Apart.symm {e f : Extent} (h : e.Apart f) : f.Apart e := Or.symm h

theorem start_le_stop (e : Extent) : e.start ≤ e.stop := Nat.le_add_right _ _

end Extent

variable {e f : Extent} {l l' : List Extent} {low low' high high' size : Nat}

/-! ## Stacks -/

/-- The extents lie between the two addresses, each above the one before it. -/
def Stacked (low high : Nat) : List Extent → Prop
  | [] => low ≤ high
  | e :: rest => low ≤ e.start ∧ Stacked e.stop high rest

namespace Stacked

theorem le (h : Stacked low high l) : low ≤ high := by
  induction l generalizing low with
  | nil => exact h
  | cons e rest ih => exact (h.1.trans e.start_le_stop).trans (ih h.2)

theorem weaken (h : Stacked low high l) (hlow : low' ≤ low) : Stacked low' high l := by
  cases l with
  | nil => exact hlow.trans h
  | cons e rest => exact ⟨hlow.trans h.1, h.2⟩

theorem raise (h : Stacked low high l) (hhigh : high ≤ high') : Stacked low high' l := by
  induction l generalizing low with
  | nil => exact Nat.le_trans h hhigh
  | cons e rest ih => exact ⟨h.1, ih h.2⟩

theorem mem (h : Stacked low high l) (he : e ∈ l) : low ≤ e.start ∧ e.stop ≤ high := by
  induction l generalizing low with
  | nil => cases he
  | cons f rest ih =>
    rcases List.mem_cons.mp he with rfl | he
    · exact ⟨h.1, h.2.le⟩
    · obtain ⟨hstart, hstop⟩ := ih h.2 he
      exact ⟨(h.1.trans f.start_le_stop).trans hstart, hstop⟩

/-- Extents are taken away. -/
theorem sublist (h : Stacked low high l) (hsub : l'.Sublist l) : Stacked low high l' := by
  induction hsub generalizing low with
  | slnil => exact h
  | cons e _ ih => exact ih (h.2.weaken (h.1.trans e.start_le_stop))
  | cons_cons e _ ih => exact ⟨h.1, ih h.2⟩

theorem pairwise (h : Stacked low high l) : l.Pairwise fun e f => e.stop ≤ f.start := by
  induction l generalizing low with
  | nil => exact .nil
  | cons e rest ih => exact .cons (fun f hf => (h.2.mem hf).1) (ih h.2)

theorem add_sum_le (h : Stacked low high l) : low + (l.map Extent.length).sum ≤ high := by
  induction l generalizing low with
  | nil => exact h
  | cons e rest ih =>
    have hrest := ih h.2
    have hstart := h.1
    rw [List.map_cons, List.sum_cons]
    unfold Extent.stop at hrest
    omega

/-- One more extent is put on top. -/
theorem concat (h : Stacked low high l) (hlow : low ≤ e.start) (hhigh : e.stop ≤ high')
    (hlast : ∀ f, l.getLast? = some f → f.stop ≤ e.start) : Stacked low high' (l ++ [e]) := by
  induction l generalizing low with
  | nil => exact ⟨hlow, hhigh⟩
  | cons f rest ih =>
    refine ⟨h.1, ih h.2 ?_ fun g hg => hlast g ?_⟩
    · cases hrest : rest.getLast? with
      | none => exact hlast f (by rw [List.getLast?_eq_none_iff.mp hrest]; rfl)
      | some g =>
        have hg := List.mem_of_getLast? hrest
        have hlast := hlast g (by rw [List.getLast?_cons, hrest]; rfl)
        exact ((h.2.mem hg).1.trans g.start_le_stop).trans hlast
    · rw [List.getLast?_cons, hg]
      rfl

end Stacked

/-! ## Rings -/

/-- The extents form two stacks, the second below the first. -/
def RingLaid (size : Nat) (l : List Extent) : Prop :=
  ∃ border first second, l = first ++ second ∧ Stacked border size first ∧ Stacked 0 border second

namespace RingLaid

theorem nil (size : Nat) : RingLaid size [] :=
  ⟨0, [], [], rfl, Nat.zero_le _, Nat.le_refl _⟩

theorem stop_le (h : RingLaid size l) (he : e ∈ l) : e.stop ≤ size := by
  obtain ⟨border, first, second, rfl, hfirst, hsecond⟩ := h
  rcases List.mem_append.mp he with he | he
  · exact (hfirst.mem he).2
  · exact (hsecond.mem he).2.trans hfirst.le

theorem sublist (h : RingLaid size l) (hsub : l'.Sublist l) : RingLaid size l' := by
  obtain ⟨border, first, second, rfl, hfirst, hsecond⟩ := h
  obtain ⟨first', second', rfl, hsub₁, hsub₂⟩ := List.sublist_append_iff.mp hsub
  exact ⟨border, first', second', rfl, hfirst.sublist hsub₁, hsecond.sublist hsub₂⟩

theorem pairwise (h : RingLaid size l) : l.Pairwise Extent.Apart := by
  obtain ⟨border, first, second, rfl, hfirst, hsecond⟩ := h
  refine List.pairwise_append.mpr ⟨hfirst.pairwise.imp .inl, hsecond.pairwise.imp .inl, ?_⟩
  exact fun e he f hf => .inr ((hsecond.mem hf).2.trans (hfirst.mem he).1)

theorem sum_le (h : RingLaid size l) : (l.map Extent.length).sum ≤ size := by
  obtain ⟨border, first, second, rfl, hfirst, hsecond⟩ := h
  have h₁ := hfirst.add_sum_le
  have h₂ := hsecond.add_sum_le
  rw [List.map_append, List.sum_append]
  omega

theorem singleton (h : e.stop ≤ size) : RingLaid size [e] :=
  ⟨0, [e], [], rfl, ⟨Nat.zero_le _, h⟩, Nat.le_refl _⟩

/-- The head of a ring is that of its first part, in which the second part ends below it. -/
theorem split (h : RingLaid size l) (hhead : l.head? = some e) :
    ∃ rest second, l = (e :: rest) ++ second ∧ Stacked e.start size (e :: rest) ∧
      Stacked 0 e.start second := by
  obtain ⟨border, first, second, rfl, hfirst, hsecond⟩ := h
  cases first with
  | cons g rest =>
    obtain rfl : g = e := Option.some.inj hhead
    exact ⟨rest, second, rfl, ⟨Nat.le_refl _, hfirst.2⟩, hsecond.raise hfirst.1⟩
  | nil =>
    cases second with
    | nil => cases hhead
    | cons g rest =>
      obtain rfl : g = e := Option.some.inj hhead
      have hrest := hsecond.2.raise hfirst
      exact ⟨rest, [], by simp, ⟨Nat.le_refl _, hrest⟩, Nat.zero_le _⟩

variable {head tail : Extent}

/-- A ring whose last extent is not below its head is one stack. -/
theorem stacked_of_le (h : RingLaid size l) (hpos : ∀ e ∈ l, 0 < e.length)
    (hhead : l.head? = some head) (htail : l.getLast? = some tail)
    (hle : head.start ≤ tail.start) : Stacked head.start size l := by
  obtain ⟨rest, second, rfl, hfirst, hsecond⟩ := h.split hhead
  cases hlast : second.getLast? with
  | none =>
    rw [List.getLast?_eq_none_iff.mp hlast, List.append_nil]
    exact hfirst
  | some last =>
    rw [List.getLast?_append, hlast] at htail
    obtain rfl : last = tail := Option.some.inj htail
    have hmem := List.mem_of_getLast? hlast
    have hlength := hpos last (List.mem_append_right _ hmem)
    have hstop := (hsecond.mem hmem).2
    unfold Extent.stop at hstop
    omega

/-- Room behind the last extent. -/
theorem concat_high (h : RingLaid size l) (hpos : ∀ e ∈ l, 0 < e.length)
    (hhead : l.head? = some head) (htail : l.getLast? = some tail)
    (hle : head.start ≤ tail.start) (hstart : e.start = tail.stop) (hstop : e.stop ≤ size) :
    RingLaid size (l ++ [e]) := by
  have hstacked := (h.stacked_of_le hpos hhead htail hle).weaken (Nat.zero_le _)
  refine ⟨0, l ++ [e], [], by rw [List.append_nil], ?_, Nat.le_refl _⟩
  refine hstacked.concat (Nat.zero_le _) hstop fun f hf => ?_
  obtain rfl : f = tail := Option.some.inj (hf.symm.trans htail)
  exact hstart.ge

/-- Room in front of the head. -/
theorem concat_low (h : RingLaid size l) (hpos : ∀ e ∈ l, 0 < e.length)
    (hhead : l.head? = some head) (htail : l.getLast? = some tail)
    (hle : head.start ≤ tail.start) (hstop : e.stop ≤ head.start) : RingLaid size (l ++ [e]) :=
  ⟨head.start, l, [e], rfl, h.stacked_of_le hpos hhead htail hle, Nat.zero_le _, hstop⟩

/-- Room between the last extent and the head above it. -/
theorem concat_between (h : RingLaid size l) (hhead : l.head? = some head)
    (htail : l.getLast? = some tail) (hlt : tail.start < head.start)
    (hstart : e.start = tail.stop) (hstop : e.stop ≤ head.start) : RingLaid size (l ++ [e]) := by
  obtain ⟨rest, second, rfl, hfirst, hsecond⟩ := h.split hhead
  refine ⟨head.start, head :: rest, second ++ [e], by rw [List.append_assoc], hfirst, ?_⟩
  refine hsecond.concat (Nat.zero_le _) hstop fun f hf => ?_
  rw [List.getLast?_append, hf] at htail
  obtain rfl : f = tail := Option.some.inj htail
  exact hstart.ge

end RingLaid

/-! ## Reading and writing -/

section Store

variable {β : Type*} {store : Nat → β} {value : β} {a : Nat}

/-- What stands in an extent. -/
def slice (store : Nat → β) (e : Extent) : List β :=
  (List.range e.length).map fun i => store (e.start + i)

@[simp] theorem length_slice : (slice store e).length = e.length := by
  rw [slice, List.length_map, List.length_range]

/-- A write outside an extent. -/
theorem slice_update_outside (h : a < e.start ∨ e.stop ≤ a) :
    slice (Function.update store a value) e = slice store e := by
  refine List.map_congr_left fun i hi => Function.update_of_ne ?_ _ _
  have hlt := List.mem_range.mp hi
  unfold Extent.stop at h
  omega

/-- A write inside an extent. -/
theorem slice_update_inside {i : Nat} :
    slice (Function.update store (e.start + i) value) e = (slice store e).set i value := by
  refine List.ext_getElem (by simp) fun j hj _ => ?_
  rw [length_slice] at hj
  simp only [slice, List.getElem_map, List.getElem_range, List.getElem_set]
  by_cases hij : i = j
  · rw [if_pos hij, hij, Function.update_self]
  · rw [if_neg hij, Function.update_of_ne (by omega)]

theorem slice_append (start m n : Nat) :
    slice store ⟨start, m + n⟩ = slice store ⟨start, m⟩ ++ slice store ⟨start + m, n⟩ := by
  simp only [slice, List.range_add, List.map_append, List.map_map]
  exact congrArg _ (List.map_congr_left fun i _ => congrArg store (Nat.add_assoc _ _ _).symm)

/-- Extents each of which begins where the one before it ends are read as one. -/
theorem flatten_slices (h : (e :: l).IsChain fun e f => f.start = e.stop) :
    ((e :: l).map (slice store)).flatten =
      slice store ⟨e.start, ((e :: l).map Extent.length).sum⟩ := by
  induction l generalizing e with
  | nil => simp
  | cons f rest ih =>
    obtain ⟨hef, hrest⟩ := List.isChain_cons_cons.mp h
    rw [List.map_cons, List.flatten_cons, ih hrest, hef]
    exact (slice_append e.start e.length _).symm

end Store

end Gd32Vw553h.Foundation
