/-
  Foundation/History.lean --- recorded events, each explained by those before it.

  A machine that writes down what happens appends one event a step.  `Explained` says
  that every event meets a condition on the events before it; `Explained.append` is the
  only rule a step needs.  `lastOf` is the last event with a given key.
-/
import Mathlib.Data.List.Induction

set_option autoImplicit false

namespace Gd32Vw553h.Foundation

variable {ε : Type*}

/-- Every event meets `ok` of the events before it. -/
def Explained (ok : List ε → ε → Prop) (history : List ε) : Prop :=
  ∀ before event after, history = before ++ event :: after → ok before event

variable {ok : List ε → ε → Prop} {history : List ε}

theorem explained_nil : Explained ok [] := by
  intro before event after hsplit
  exact absurd (List.append_eq_nil_iff.mp hsplit.symm).2 (List.cons_ne_nil event after)

theorem Explained.append (h : Explained ok history) {event : ε} (hevent : ok history event) :
    Explained ok (history ++ [event]) := by
  intro before other after hsplit
  rcases List.eq_nil_or_concat after with rfl | ⟨front, last, rfl⟩
  · obtain ⟨hbefore, hlast⟩ := List.append_inj' hsplit rfl
    obtain rfl := List.singleton_inj.mp hlast
    rw [← hbefore]
    exact hevent
  · rw [List.concat_eq_append, ← List.cons_append, ← List.append_assoc] at hsplit
    exact h before other front (List.append_inj' hsplit rfl).1

/-- One event appended or none. -/
theorem Explained.append_toList (h : Explained ok history) {event : Option ε}
    (hevent : ∀ e, event = some e → ok history e) : Explained ok (history ++ event.toList) := by
  cases event with
  | none => rwa [Option.toList_none, List.append_nil]
  | some e => exact h.append (hevent e rfl)

/-! ## The last event with a key -/

section LastOf

variable {κ : Type*} [DecidableEq κ] {key : ε → κ} {k : κ}

def lastOf (key : ε → κ) (k : κ) : List ε → Option ε :=
  List.foldl (fun last event => if key event = k then some event else last) none

theorem lastOf_append_self (history : List ε) (event : ε) (h : key event = k) :
    lastOf key k (history ++ [event]) = some event := by
  rw [lastOf, List.foldl_append, List.foldl_cons, List.foldl_nil, if_pos h]

theorem lastOf_append_other (history : List ε) (event : ε) (h : key event ≠ k) :
    lastOf key k (history ++ [event]) = lastOf key k history := by
  rw [lastOf, List.foldl_append, List.foldl_cons, List.foldl_nil, if_neg h]

theorem lastOf_key {history : List ε} {event : ε} (h : lastOf key k history = some event) :
    key event = k := by
  induction history using List.reverseRecOn with
  | nil => cases h
  | append_singleton history e ih =>
    by_cases he : key e = k
    · rw [lastOf_append_self history e he] at h
      exact Option.some.inj h ▸ he
    · rw [lastOf_append_other history e he] at h
      exact ih h

end LastOf

end Gd32Vw553h.Foundation
