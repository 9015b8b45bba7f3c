/-
  Foundation/Runs.lean --- runs of a labelled machine under a step condition.

  A machine is a partial step function: `none` says that the step is not enabled
  in that state.  `Run ok s actions s'` is a run from `s` to `s'` all of whose
  steps meet the condition `ok`, which may look at the state before the step and
  at the label.  `Run.invariant` is the induction every safety result uses, and
  `Run.of_exec` turns an evaluated schedule into a run.
-/
import Mathlib.Data.List.Basic

set_option autoImplicit false

namespace Gd32Vw553h.Foundation

/-- A machine with labelled, partial, deterministic steps. -/
structure Machine (σ : Type*) (α : Type*) where
  step : σ → α → Option σ

namespace Machine

variable {σ : Type*} {α : Type*} (M : Machine σ α)

/-- Runs all of whose steps meet `ok`. -/
inductive Run (ok : σ → α → Prop) : σ → List α → σ → Prop
  | nil (s : σ) : Run ok s [] s
  | cons {s mid final : σ} {a : α} {rest : List α}
      (hok : ok s a) (hstep : M.step s a = some mid) (htail : Run ok mid rest final) :
      Run ok s (a :: rest) final

/-- The step condition that excludes nothing. -/
def anyStep : σ → α → Prop := fun _ _ => True

variable {M} {ok : σ → α → Prop}

/-- A state predicate that each admitted step keeps holds at the end of a run. -/
theorem Run.invariant {I : σ → Prop}
    (hkeep : ∀ s a s', ok s a → M.step s a = some s' → I s → I s')
    {s final : σ} {actions : List α} (run : M.Run ok s actions final) (hinit : I s) :
    I final := by
  induction run with
  | nil s => exact hinit
  | cons hok hstep _ ih => exact ih (hkeep _ _ _ hok hstep hinit)

theorem Run.append {s mid final : σ} {left right : List α}
    (hleft : M.Run ok s left mid) (hright : M.Run ok mid right final) :
    M.Run ok s (left ++ right) final := by
  induction hleft with
  | nil s => exact hright
  | cons hok hstep _ ih => exact .cons hok hstep (ih hright)

/-- A run splits at every cut point of its schedule. -/
theorem Run.split {left right : List α} {s final : σ}
    (run : M.Run ok s (left ++ right) final) :
    ∃ mid, M.Run ok s left mid ∧ M.Run ok mid right final := by
  induction left generalizing s with
  | nil => exact ⟨s, .nil s, run⟩
  | cons a left ih =>
    cases run with
    | cons hok hstep htail =>
      obtain ⟨mid, hleft, hright⟩ := ih htail
      exact ⟨mid, .cons hok hstep hleft, hright⟩

/-- A relation that every admitted step carries along admitted runs of another
machine carries whole runs. -/
theorem Run.simulate {τ β : Type*} (N : Machine τ β) (ok' : τ → β → Prop) (R : σ → τ → Prop)
    (hstep : ∀ s a s' t, R s t → ok s a → M.step s a = some s' →
      ∃ actions t', N.Run ok' t actions t' ∧ R s' t')
    {s final : σ} {actions : List α} (run : M.Run ok s actions final) {t : τ} (hrel : R s t) :
    ∃ actions' t', N.Run ok' t actions' t' ∧ R final t' := by
  induction run generalizing t with
  | nil s => exact ⟨[], t, .nil t, hrel⟩
  | cons hok hfirst _ ih =>
    obtain ⟨first, tmid, hrun, hmid⟩ := hstep _ _ _ t hrel hok hfirst
    obtain ⟨later, tfinal, hruns, hfinal⟩ := ih hmid
    exact ⟨first ++ later, tfinal, hrun.append hruns, hfinal⟩

variable (M) in
/-- Execute a schedule; `none` when a step is not enabled. -/
def exec : σ → List α → Option σ
  | s, [] => some s
  | s, a :: rest => (M.step s a).bind fun mid => exec mid rest

variable (M) in
/-- Every step of the schedule meets `ok` where it is taken. -/
def Admitted (ok : σ → α → Prop) : σ → List α → Prop
  | _, [] => True
  | s, a :: rest => ok s a ∧ ∀ mid, M.step s a = some mid → Admitted ok mid rest

theorem admitted_anyStep (s : σ) (actions : List α) : M.Admitted anyStep s actions := by
  induction actions generalizing s with
  | nil => trivial
  | cons a rest ih => exact ⟨trivial, fun mid _ => ih mid⟩

theorem Admitted.cons {s mid : σ} {a : α} {rest : List α} (hok : ok s a)
    (hstep : M.step s a = some mid) (hrest : M.Admitted ok mid rest) :
    M.Admitted ok s (a :: rest) := by
  refine ⟨hok, fun mid' hstep' => ?_⟩
  obtain rfl : mid = mid' := Option.some.inj (hstep.symm.trans hstep')
  exact hrest

/-- What follows an executed part of an admitted schedule is admitted. -/
theorem Admitted.after {s mid : σ} {before rest : List α}
    (h : M.Admitted ok s (before ++ rest)) (hexec : M.exec s before = some mid) :
    M.Admitted ok mid rest := by
  induction before generalizing s with
  | nil =>
    obtain rfl : s = mid := Option.some.inj hexec
    exact h
  | cons a before ih =>
    simp only [exec] at hexec
    cases hstep : M.step s a with
    | none =>
      rw [hstep] at hexec
      cases hexec
    | some next =>
      rw [hstep] at hexec
      exact ih (h.2 next hstep) hexec

/-- An executed schedule whose steps are admitted is a run. -/
theorem Run.of_exec {s final : σ} {actions : List α} (h : M.exec s actions = some final)
    (hok : M.Admitted ok s actions) : M.Run ok s actions final := by
  induction actions generalizing s with
  | nil =>
    have hs : s = final := by simpa [exec] using h
    rw [hs]
    exact .nil final
  | cons a rest ih =>
    simp only [exec] at h
    cases hstep : M.step s a with
    | none => simp [hstep] at h
    | some mid =>
      rw [hstep] at h
      exact .cons hok.1 hstep (ih h (hok.2 mid hstep))

/-- A run executes to its own endpoint. -/
theorem Run.exec_eq {s final : σ} {actions : List α} (run : M.Run ok s actions final) :
    M.exec s actions = some final := by
  induction run with
  | nil s => rfl
  | cons _ hstep _ ih => simp [exec, hstep, ih]

variable (M) in
/-- Another machine follows every prefix of the schedule with the same labels. -/
def LockStep {τ : Type*} (N : Machine τ α) (R : σ → τ → Prop) (s : σ) (t : τ)
    (actions : List α) : Prop :=
  ∀ before after, actions = before ++ after → ∀ s', M.exec s before = some s' →
    ∃ t', N.exec t before = some t' ∧ R s' t'

/-- When a step can be followed exactly if it meets `ok`, a schedule can be followed
exactly if all its steps do. -/
theorem lockStep_iff_admitted {τ : Type*} {N : Machine τ α} {R : σ → τ → Prop}
    (hstep : ∀ s t a, R s t →
      ((∀ s', M.step s a = some s' → ∃ t', N.step t a = some t' ∧ R s' t') ↔ ok s a))
    (actions : List α) {s : σ} {t : τ} (h : R s t) :
    M.LockStep N R s t actions ↔ M.Admitted ok s actions := by
  induction actions generalizing s t with
  | nil =>
    refine ⟨fun _ => trivial, fun _ before after hsplit s' hexec => ?_⟩
    obtain ⟨rfl, rfl⟩ := List.append_eq_nil_iff.mp hsplit.symm
    obtain rfl : s = s' := by simpa [exec] using hexec
    exact ⟨t, rfl, h⟩
  | cons a rest ih =>
    have hone : ∀ s', M.step s a = some s' → M.exec s [a] = some s' := by
      intro s' hs'
      simp [exec, hs']
    constructor
    · intro hlock
      have hok : ok s a := by
        refine (hstep s t a h).mp fun s' hs' => ?_
        obtain ⟨t', hexec, hrel⟩ := hlock [a] rest rfl s' (hone s' hs')
        exact ⟨t', by simpa [exec] using hexec, hrel⟩
      refine ⟨hok, fun mid hmid => ?_⟩
      obtain ⟨tmid, htmid, hrel⟩ := (hstep s t a h).mpr hok mid hmid
      refine (ih hrel).mp fun before after hsplit s' hexec => ?_
      obtain ⟨t', ht', hfinal⟩ := hlock (a :: before) after (by rw [hsplit]; rfl) s'
        (by simpa [exec, hmid] using hexec)
      exact ⟨t', by simpa [exec, htmid] using ht', hfinal⟩
    · rintro ⟨hok, hrest⟩ before after hsplit s' hexec
      cases before with
      | nil =>
        obtain rfl : s = s' := by simpa [exec] using hexec
        exact ⟨t, rfl, h⟩
      | cons b before =>
        obtain ⟨rfl, hsplit'⟩ := List.cons.inj hsplit
        cases hmid : M.step s a with
        | none => simp [exec, hmid] at hexec
        | some mid =>
          obtain ⟨tmid, htmid, hrel⟩ := (hstep s t a h).mpr hok mid hmid
          obtain ⟨t', ht', hfinal⟩ := (ih hrel).mpr (hrest mid hmid) before after hsplit' s'
            (by simpa [exec, hmid] using hexec)
          exact ⟨t', by simpa [exec, htmid] using ht', hfinal⟩

variable (M) in
/-- Every step that the schedule takes satisfies `P`. -/
def AllSteps (P : σ → α → σ → Prop) : σ → List α → Prop
  | _, [] => True
  | s, a :: rest => ∀ mid, M.step s a = some mid → P s a mid ∧ AllSteps P mid rest

/-- When each admitted step keeps the invariant and satisfies `P`, all steps of an admitted
schedule satisfy `P`. -/
theorem allSteps_of_admitted {P : σ → α → σ → Prop} {I : σ → Prop}
    (hstep : ∀ s a mid, ok s a → M.step s a = some mid → I s → I mid ∧ P s a mid)
    (actions : List α) {s : σ} (h : I s) (hok : M.Admitted ok s actions) :
    M.AllSteps P s actions := by
  induction actions generalizing s with
  | nil => trivial
  | cons a rest ih =>
    intro mid hmid
    obtain ⟨hkept, hright⟩ := hstep s a mid hok.1 hmid h
    exact ⟨hright, ih hkept (hok.2 mid hmid)⟩

/-- When a step in the domain satisfies `P` exactly if it meets `ok`, and steps that do keep
the invariant, all steps of a schedule in the domain satisfy `P` exactly if they meet `ok`. -/
theorem allSteps_iff_admitted_within {P : σ → α → σ → Prop} {I : σ → Prop}
    {domain : σ → α → Prop}
    (hstep : ∀ s a, I s → domain s a →
      ((∀ mid, M.step s a = some mid → P s a mid) ↔ ok s a))
    (hkeep : ∀ s a mid, domain s a → ok s a → M.step s a = some mid → I s → I mid)
    (actions : List α) {s : σ} (h : I s) (hdomain : M.Admitted domain s actions) :
    M.AllSteps P s actions ↔ M.Admitted ok s actions := by
  induction actions generalizing s with
  | nil => exact Iff.rfl
  | cons a rest ih =>
    obtain ⟨hin, hlater⟩ := hdomain
    constructor
    · intro hall
      have hok : ok s a := (hstep s a h hin).mp fun mid hmid => (hall mid hmid).1
      exact ⟨hok, fun mid hmid =>
        (ih (hkeep s a mid hin hok hmid h) (hlater mid hmid)).mp (hall mid hmid).2⟩
    · rintro ⟨hok, hrest⟩ mid hmid
      exact ⟨(hstep s a h hin).mpr hok mid hmid,
        (ih (hkeep s a mid hin hok hmid h) (hlater mid hmid)).mpr (hrest mid hmid)⟩

/-- The same where every step is in the domain. -/
theorem allSteps_iff_admitted {P : σ → α → σ → Prop} {I : σ → Prop}
    (hstep : ∀ s a, I s → ((∀ mid, M.step s a = some mid → P s a mid) ↔ ok s a))
    (hkeep : ∀ s a mid, ok s a → M.step s a = some mid → I s → I mid)
    (actions : List α) {s : σ} (h : I s) : M.AllSteps P s actions ↔ M.Admitted ok s actions :=
  allSteps_iff_admitted_within (fun s a hI (_ : anyStep s a) => hstep s a hI)
    (fun s a mid _ => hkeep s a mid) actions h (admitted_anyStep s actions)

end Machine

end Gd32Vw553h.Foundation
