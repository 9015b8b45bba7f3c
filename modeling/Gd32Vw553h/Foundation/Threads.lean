/-
  Foundation/Threads.lean --- threads that run calls over a shared state.

  A program gives the point at which a call begins and, for every point, the
  statement there.  A statement is one step; what it gets from outside (the
  outcome of an allocation, the expiry of a timeout) is its choice, and it has no
  step while it blocks.  Any thread that is not in a call may begin one, so the
  runs of `Program.threads` are all interleavings.
-/
import Mathlib.Logic.Function.Basic
import Gd32Vw553h.Foundation.Runs

set_option autoImplicit false

namespace Gd32Vw553h.Foundation

/-- The calls that threads `ι` make over a shared state `σ`: `κ` are the program points,
`γ` the calls and `χ` the choices. -/
structure Program (ι σ κ γ χ : Type*) where
  /-- the point at which a call begins -/
  entry : γ → κ
  /-- the statement at a point; the call is over when there is no next point -/
  stmt : ι → σ → κ → χ → Option (σ × Option κ)

/-- A shared state and where every thread stands; `none` outside calls. -/
structure Threads (ι σ κ : Type*) where
  shared : σ
  point : ι → Option κ

/-- The steps: a thread begins a call, or takes the next statement of its call. -/
inductive ThreadAction (ι γ χ : Type*) where
  | call (t : ι) (c : γ)
  | next (t : ι) (choice : χ)

variable {ι σ κ γ χ : Type*}

/-- No call is in progress. -/
def Threads.Idle (s : Threads ι σ κ) : Prop := ∀ t, s.point t = none

/-- No thread is in a call. -/
def Threads.start (shared : σ) : Threads ι σ κ := ⟨shared, fun _ => none⟩

section Steps

variable [DecidableEq ι]

/-- Thread `t` goes on at `next`. -/
def Threads.goTo (s : Threads ι σ κ) (t : ι) (shared : σ) (next : Option κ) : Threads ι σ κ :=
  ⟨shared, Function.update s.point t next⟩

@[simp] theorem Threads.goTo_shared (s : Threads ι σ κ) (t : ι) (shared : σ) (next : Option κ) :
    (s.goTo t shared next).shared = shared := rfl

@[simp] theorem Threads.goTo_point_self (s : Threads ι σ κ) (t : ι) (shared : σ)
    (next : Option κ) : (s.goTo t shared next).point t = next := by
  show Function.update s.point t next t = next
  exact Function.update_self t next s.point

theorem Threads.goTo_point_of_ne (s : Threads ι σ κ) {t u : ι} (shared : σ) (next : Option κ)
    (h : u ≠ t) : (s.goTo t shared next).point u = s.point u := by
  show Function.update s.point t next u = s.point u
  exact Function.update_of_ne h next s.point

/-- What holds wherever a thread stands after a step: at the acting thread's new point, and
at the others where they were. -/
theorem Threads.forall_goTo {s : Threads ι σ κ} {t : ι} {shared : σ} {next : Option κ}
    {A : ι → κ → Prop} (hown : ∀ k, next = some k → A t k)
    (hother : ∀ u k, u ≠ t → s.point u = some k → A u k) :
    ∀ u k, (s.goTo t shared next).point u = some k → A u k := by
  intro u k hu
  by_cases hut : u = t
  · subst hut
    rw [Threads.goTo_point_self] at hu
    exact hown k hu
  · rw [Threads.goTo_point_of_ne s shared next hut] at hu
    exact hother u k hut hu

/-- All interleavings of a program. -/
def Program.threads (P : Program ι σ κ γ χ) :
    Machine (Threads ι σ κ) (ThreadAction ι γ χ) where
  step s
    | .call t c =>
      match s.point t with
      | none => some (s.goTo t s.shared (some (P.entry c)))
      | some _ => none
    | .next t choice =>
      match s.point t with
      | none => none
      | some k => (P.stmt t s.shared k choice).map fun r => s.goTo t r.1 r.2

variable {P : Program ι σ κ γ χ} {s s' : Threads ι σ κ}

theorem Program.step_call {t : ι} {c : γ} (h : P.threads.step s (.call t c) = some s') :
    s.point t = none ∧ s' = s.goTo t s.shared (some (P.entry c)) := by
  simp only [Program.threads] at h
  cases hpoint : s.point t with
  | some k => rw [hpoint] at h; exact nomatch h
  | none =>
    rw [hpoint] at h
    exact ⟨rfl, (Option.some.inj h).symm⟩

theorem Program.step_next {t : ι} {choice : χ}
    (h : P.threads.step s (.next t choice) = some s') :
    ∃ k shared next, s.point t = some k ∧
      P.stmt t s.shared k choice = some (shared, next) ∧ s' = s.goTo t shared next := by
  simp only [Program.threads] at h
  cases hpoint : s.point t with
  | none => rw [hpoint] at h; exact nomatch h
  | some k =>
    rw [hpoint] at h
    obtain ⟨⟨shared, next⟩, hstmt, hgo⟩ := Option.map_eq_some_iff.mp h
    exact ⟨k, shared, next, rfl, hstmt, hgo.symm⟩

/-- A state predicate holds throughout a run when beginning a call keeps it and every
statement admitted by the run's condition does. -/
theorem Program.invariant {ok : Threads ι σ κ → ThreadAction ι γ χ → Prop}
    {I : Threads ι σ κ → Prop}
    (hcall : ∀ s t c, s.point t = none → I s → I (s.goTo t s.shared (some (P.entry c))))
    (hnext : ∀ s t choice k shared next, ok s (.next t choice) → s.point t = some k →
      P.stmt t s.shared k choice = some (shared, next) → I s → I (s.goTo t shared next))
    {actions : List (ThreadAction ι γ χ)} (run : P.threads.Run ok s actions s') (hinit : I s) :
    I s' := by
  refine run.invariant (fun s a mid hok hstep h => ?_) hinit
  cases a with
  | call t c =>
    obtain ⟨hidle, rfl⟩ := Program.step_call hstep
    exact hcall s t c hidle h
  | next t choice =>
    obtain ⟨k, shared, next, hpoint, hstmt, rfl⟩ := Program.step_next hstep
    exact hnext s t choice k shared next hok hpoint hstmt h

/-- Assertions about the shared state, one for each thread at its point, hold throughout a
run when beginning a call and every statement establish the acting thread's own assertion
and leave those of the others true. -/
theorem Program.outline {ok : Threads ι σ κ → ThreadAction ι γ χ → Prop}
    {A : ι → Option κ → σ → Prop}
    (hcall : ∀ t c shared, A t none shared → A t (some (P.entry c)) shared)
    (hown : ∀ t choice k (s : Threads ι σ κ) shared next, (∀ u, A u (s.point u) s.shared) →
      s.point t = some k → P.stmt t s.shared k choice = some (shared, next) → A t next shared)
    (hother : ∀ t choice k (s : Threads ι σ κ) shared next u, (∀ u, A u (s.point u) s.shared) →
      s.point t = some k → P.stmt t s.shared k choice = some (shared, next) → u ≠ t →
        A u (s.point u) shared)
    {actions : List (ThreadAction ι γ χ)} (run : P.threads.Run ok s actions s')
    (hinit : ∀ u, A u (s.point u) s.shared) : ∀ u, A u (s'.point u) s'.shared := by
  refine Program.invariant (I := fun s => ∀ u, A u (s.point u) s.shared)
    (fun s t c hidle h u => ?_)
    (fun s t choice k shared next _ hpoint hstmt h u => ?_) run hinit
  · by_cases hut : u = t
    · subst hut
      rw [Threads.goTo_point_self]
      exact hcall u c s.shared (hidle ▸ h u)
    · rw [Threads.goTo_point_of_ne s _ _ hut]
      exact h u
  · by_cases hut : u = t
    · subst hut
      rw [Threads.goTo_point_self]
      exact hown u choice k s shared next h hpoint hstmt
    · rw [Threads.goTo_point_of_ne s _ _ hut]
      exact hother t choice k s shared next u h hpoint hstmt hut

end Steps

end Gd32Vw553h.Foundation
