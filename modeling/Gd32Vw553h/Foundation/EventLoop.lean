/-
  Foundation/EventLoop.lean --- an event loop's registrations.

  Registering adds one entry, unregistering removes one matching entry, and a
  posted event runs the callbacks that are registered for it when it is posted,
  one after the other; callbacks may register and unregister.  A client that
  registers two entries together and removes them together keeps the registry a
  sequence of pairs (`Registry.paired`), whose length is all there is to know.
-/
import Mathlib.Data.List.Basic

set_option autoImplicit false

namespace Gd32Vw553h.Foundation

/-- The registered entries, oldest first. -/
abbrev Registry (ε κ : Type*) := List (ε × κ)

namespace Registry

section Entries

variable {ε κ : Type*}

def register (r : Registry ε κ) (event : ε) (callback : κ) : Registry ε κ :=
  r ++ [(event, callback)]

def unregister [DecidableEq ε] [DecidableEq κ] (r : Registry ε κ) (event : ε) (callback : κ) :
    Registry ε κ :=
  r.erase (event, callback)

/-- The callbacks that a posted event runs. -/
def handlers [DecidableEq ε] (r : Registry ε κ) (event : ε) : List κ :=
  (r.filter fun entry => entry.1 = event).map Prod.snd

end Entries

/-! ## Dispatch -/

section Dispatch

variable {κ σ : Type*}

/-- Run the callbacks in order; each is told how many ran before it. -/
def dispatchFrom (run : σ → Nat → κ → σ) : Nat → σ → List κ → σ
  | _, s, [] => s
  | i, s, callback :: rest => dispatchFrom run (i + 1) (run s i callback) rest

/-- A property of the state and the number of callbacks run that each callback
carries on holds when all of them have run. -/
theorem dispatchFrom_invariant (run : σ → Nat → κ → σ) (I : Nat → σ → Prop)
    (callbacks : List κ)
    (hkeep : ∀ i s callback, callback ∈ callbacks → I i s → I (i + 1) (run s i callback))
    {i : Nat} {s : σ} (hinit : I i s) :
    I (i + callbacks.length) (dispatchFrom run i s callbacks) := by
  induction callbacks generalizing i s with
  | nil => exact hinit
  | cons callback rest ih =>
    have hfirst := hkeep i s callback List.mem_cons_self hinit
    have hrest := ih (fun j t c hc => hkeep j t c (List.mem_cons_of_mem callback hc)) hfirst
    rw [List.length_cons]
    rwa [show i + (rest.length + 1) = i + 1 + rest.length by omega]

end Dispatch

/-! ## Paired registrations -/

section Paired

variable {ε κ : Type*}

/-- `n` registrations of the two entries. -/
def paired (a b : ε × κ) : Nat → Registry ε κ
  | 0 => []
  | n + 1 => a :: b :: paired a b n

variable (a b : ε × κ)

theorem paired_register (n : Nat) :
    ((paired a b n).register a.1 a.2).register b.1 b.2 = paired a b (n + 1) := by
  induction n with
  | zero => rfl
  | succ n ih =>
    simp only [register] at ih ⊢
    simp only [paired, List.cons_append, ih]

theorem paired_unregister [DecidableEq ε] [DecidableEq κ] (n : Nat) :
    ((paired a b n).unregister a.1 a.2).unregister b.1 b.2 = paired a b (n - 1) := by
  cases n with
  | zero => rfl
  | succ n =>
    simp only [unregister, paired]
    rw [List.erase_cons_head, List.erase_cons_head, Nat.add_sub_cancel]

theorem handlers_paired_left [DecidableEq ε] (hne : a.1 ≠ b.1) (n : Nat) :
    (paired a b n).handlers a.1 = List.replicate n a.2 := by
  induction n with
  | zero => rfl
  | succ n ih =>
    unfold handlers at ih ⊢
    simp [paired, hne.symm, List.replicate_succ, ih]

theorem handlers_paired_right [DecidableEq ε] (hne : a.1 ≠ b.1) (n : Nat) :
    (paired a b n).handlers b.1 = List.replicate n b.2 := by
  induction n with
  | zero => rfl
  | succ n ih =>
    unfold handlers at ih ⊢
    simp [paired, hne, List.replicate_succ, ih]

end Paired

end Registry

end Gd32Vw553h.Foundation
