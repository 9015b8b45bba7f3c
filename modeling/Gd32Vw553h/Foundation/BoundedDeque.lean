/-
  Foundation/BoundedDeque.lean --- a queue with two ends and room for so many values.

  A value that is taken is the first one, so that the operations of a run say which values
  went through the queue and in which order.
-/
import Gd32Vw553h.Foundation.Runs

set_option autoImplicit false

namespace Gd32Vw553h.Foundation

inductive DequeOp (α : Type*) where
  | append (a : α)
  | prepend (a : α)
  | take (a : α)
  | clear

/-- The value that is put into the queue. -/
def DequeOp.put {α : Type*} : DequeOp α → Option α
  | .append a | .prepend a => some a
  | .take _ | .clear => none

/-- The value that is taken from it. -/
def DequeOp.taken {α : Type*} : DequeOp α → Option α
  | .take a => some a
  | .append _ | .prepend _ | .clear => none

/-- The queue as a machine. -/
def boundedDeque {α : Type*} [DecidableEq α] (capacity : Nat) : Machine (List α) (DequeOp α) where
  step q
    | .append a => if q.length < capacity then some (q ++ [a]) else none
    | .prepend a => if q.length < capacity then some (a :: q) else none
    | .take a =>
        match q with
        | [] => none
        | first :: rest => if first = a then some rest else none
    | .clear => some []

/-- One more action. -/
theorem Machine.exec_concat {σ α : Type*} {M : Machine σ α} {s mid : σ} {actions : List α} {a : α}
    (h : M.exec s actions = some mid) : M.exec s (actions ++ [a]) = M.step mid a := by
  induction actions generalizing s with
  | nil =>
    obtain rfl := Option.some.inj h
    rw [List.nil_append, exec]
    exact Option.bind_fun_some _
  | cons b rest ih =>
    obtain ⟨next, hstep, hrest⟩ := Option.bind_eq_some_iff.mp h
    rw [List.cons_append, exec, hstep]
    exact ih hrest

end Gd32Vw553h.Foundation
