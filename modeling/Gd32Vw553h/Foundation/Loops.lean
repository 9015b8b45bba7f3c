/-
  Foundation/Loops.lean --- loops with a bound on their rounds.

  A body goes on with another state or stops with a result.  `loop` runs it for at most
  so many rounds.  A loop whose body keeps an invariant and makes a measure smaller has a
  result, which is what the invariant promises when the body stops (`loop_total`).
-/
import Mathlib.Data.Nat.Basic

set_option autoImplicit false

namespace Gd32Vw553h.Foundation

variable {σ ρ : Type*} {body : σ → σ ⊕ ρ}

/-- Run a body for at most `fuel` rounds. -/
def loop (body : σ → σ ⊕ ρ) : Nat → σ → Option ρ
  | 0, _ => none
  | fuel + 1, s =>
    match body s with
    | .inl next => loop body fuel next
    | .inr result => some result

theorem loop_next {s next : σ} (h : body s = .inl next) (fuel : Nat) :
    loop body (fuel + 1) s = loop body fuel next := by
  rw [loop, h]

theorem loop_stop {s : σ} {result : ρ} (h : body s = .inr result) (fuel : Nat) :
    loop body (fuel + 1) s = some result := by
  rw [loop, h]

/-- An invariant that each round keeps, with a measure that each round makes smaller. -/
theorem loop_total {I : σ → Prop} {μ : σ → Nat} {Q : ρ → Prop}
    (hnext : ∀ s next, I s → body s = .inl next → I next ∧ μ next < μ s)
    (hstop : ∀ s result, I s → body s = .inr result → Q result) {s : σ} {fuel : Nat}
    (hinit : I s) (hfuel : μ s < fuel) : ∃ result, loop body fuel s = some result ∧ Q result := by
  induction fuel generalizing s with
  | zero => exact absurd hfuel (Nat.not_lt_zero _)
  | succ fuel ih =>
    cases hbody : body s with
    | inl next =>
      obtain ⟨hinv, hless⟩ := hnext s next hinit hbody
      rw [loop_next hbody]
      exact ih hinv (by omega)
    | inr last =>
      exact ⟨last, loop_stop hbody fuel, hstop s last hinit hbody⟩

end Gd32Vw553h.Foundation
