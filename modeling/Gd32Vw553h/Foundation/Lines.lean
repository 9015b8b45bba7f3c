/-
  Foundation/Lines.lean --- line framing of a stream, over an arbitrary alphabet.

  A stream is cut at every symbol the predicate `isTerm` accepts.  What lies
  between two terminators is a complete line, what follows the last one is the
  unfinished line.  A framer reads the stream piece by piece, so the laws that
  matter are the ones about concatenation: the unfinished line of the first
  piece is carried in front of the second (`completeLines_append`,
  `unfinishedLine_append`).
-/
import Mathlib.Data.List.Basic

set_option autoImplicit false

namespace Gd32Vw553h.Foundation

variable {α : Type*} (isTerm : α → Bool)

/-- The lines of `stream` that a terminator has closed, in order. -/
def completeLines (stream : List α) : List (List α) :=
  (stream.splitOnP isTerm).dropLast

/-- What follows the last terminator of `stream`. -/
def unfinishedLine (stream : List α) : List α :=
  (stream.splitOnP isTerm).getLast (List.splitOnP_ne_nil isTerm stream)

/-- Every line of `stream`, the unfinished one last. -/
def allLines (stream : List α) : List (List α) := stream.splitOnP isTerm

theorem allLines_eq (stream : List α) :
    allLines isTerm stream =
      completeLines isTerm stream ++ [unfinishedLine isTerm stream] :=
  (List.dropLast_append_getLast _).symm

theorem unfinishedLine_mem_allLines (stream : List α) :
    unfinishedLine isTerm stream ∈ allLines isTerm stream := by
  rw [allLines_eq]
  simp

/-! ## Streams without a terminator -/

theorem allLines_of_no_term {stream : List α}
    (h : ∀ a ∈ stream, isTerm a = false) : allLines isTerm stream = [stream] :=
  List.splitOnP_eq_singleton h

theorem completeLines_of_no_term {stream : List α}
    (h : ∀ a ∈ stream, isTerm a = false) : completeLines isTerm stream = [] := by
  simp [completeLines, List.splitOnP_eq_singleton h]

theorem unfinishedLine_of_no_term {stream : List α}
    (h : ∀ a ∈ stream, isTerm a = false) : unfinishedLine isTerm stream = stream := by
  simp [unfinishedLine, List.splitOnP_eq_singleton h]

@[simp] theorem completeLines_nil : completeLines isTerm ([] : List α) = [] := rfl

@[simp] theorem unfinishedLine_nil : unfinishedLine isTerm ([] : List α) = [] := rfl

/-- A terminator-free piece in front of a stream grows its first line. -/
theorem allLines_append_of_no_term {u : List α} (h : ∀ a ∈ u, isTerm a = false)
    (t : List α) : allLines isTerm (u ++ t) = (allLines isTerm t).modifyHead (u ++ ·) := by
  induction u with
  | nil => cases hs : allLines isTerm t <;> simp [hs]
  | cons a u ih =>
    have ha : isTerm a = false := h a List.mem_cons_self
    have hcons : allLines isTerm (a :: (u ++ t)) =
        (allLines isTerm (u ++ t)).modifyHead (List.cons a) := by
      simp [allLines, List.splitOnP_cons_eq_if_modifyHead, ha]
    rw [List.cons_append, hcons, ih fun b hb => h b (List.mem_cons_of_mem a hb)]
    cases hs : allLines isTerm t <;> simp

/-- A terminator-free piece at the start of a stream lies in one of its lines. -/
theorem exists_line_length_ge {u : List α} (h : ∀ a ∈ u, isTerm a = false) (t : List α) :
    ∃ line ∈ allLines isTerm (u ++ t), u.length ≤ line.length := by
  rw [allLines_append_of_no_term isTerm h]
  cases hs : allLines isTerm t with
  | nil => exact absurd hs (List.splitOnP_ne_nil isTerm t)
  | cons c C => exact ⟨u ++ c, by simp, by simp⟩

/-! ## Reading on after a terminator -/

theorem allLines_append_cons (xs ys : List α) {t : α} (ht : isTerm t = true) :
    allLines isTerm (xs ++ t :: ys) = allLines isTerm xs ++ allLines isTerm ys :=
  List.splitOnP_append_cons xs ys ht

theorem completeLines_append_cons (xs ys : List α) {t : α} (ht : isTerm t = true) :
    completeLines isTerm (xs ++ t :: ys) =
      completeLines isTerm xs ++ unfinishedLine isTerm xs :: completeLines isTerm ys := by
  have hsplit := allLines_append_cons isTerm xs ys ht
  rw [allLines_eq isTerm xs, allLines_eq isTerm ys, allLines_eq] at hsplit
  have hdrop := congrArg List.dropLast hsplit
  rw [List.dropLast_concat, ← List.append_assoc, List.dropLast_concat] at hdrop
  simpa using hdrop

theorem unfinishedLine_append_cons (xs ys : List α) {t : α} (ht : isTerm t = true) :
    unfinishedLine isTerm (xs ++ t :: ys) = unfinishedLine isTerm ys := by
  have hsplit := allLines_append_cons isTerm xs ys ht
  rw [allLines_eq isTerm ys, allLines_eq, ← List.append_assoc] at hsplit
  exact (List.append_inj' hsplit rfl).2 |> List.singleton_inj.mp

/-! ## Concatenation -/

/-- The second piece of a stream is framed behind the unfinished line of the
first. -/
theorem allLines_append (s t : List α) :
    allLines isTerm (s ++ t) =
      completeLines isTerm s ++ allLines isTerm (unfinishedLine isTerm s ++ t) := by
  induction s with
  | nil => simp
  | cons a s ih =>
    have hs := allLines_eq isTerm s
    by_cases ha : isTerm a = true
    · have hc := completeLines_append_cons isTerm [] s ha
      have hu := unfinishedLine_append_cons isTerm [] s ha
      have hst := allLines_append_cons isTerm [] (s ++ t) ha
      simp only [List.nil_append, completeLines_nil, unfinishedLine_nil] at hc hu hst
      rw [List.cons_append, hst, hc, hu, ih]
      rfl
    · have hcons : ∀ xs : List α, allLines isTerm (a :: xs) =
          (allLines isTerm xs).modifyHead (List.cons a) := by
        intro xs
        simp [allLines, List.splitOnP_cons_eq_if_modifyHead, ha]
      have has := hcons s
      rw [hs] at has
      rw [List.cons_append, hcons, ih]
      cases hC : completeLines isTerm s with
      | nil =>
        -- the first piece is one unfinished line and `a` becomes its head
        rw [hC] at has
        have hc : completeLines isTerm (a :: s) = [] := by
          change (allLines isTerm (a :: s)).dropLast = []
          rw [has]; rfl
        have hu : unfinishedLine isTerm (a :: s) = a :: unfinishedLine isTerm s := by
          rw [allLines_eq, hc] at has
          simpa using has
        rw [hc, hu, List.cons_append, hcons]
        rfl
      | cons c C =>
        rw [hC] at has
        have hc : completeLines isTerm (a :: s) = (a :: c) :: C := by
          change (allLines isTerm (a :: s)).dropLast = (a :: c) :: C
          rw [has]
          change (((a :: c) :: C) ++ [unfinishedLine isTerm s]).dropLast = _
          exact List.dropLast_concat
        have hu : unfinishedLine isTerm (a :: s) = unfinishedLine isTerm s := by
          rw [allLines_eq, hc] at has
          simpa using has
        rw [hc, hu]
        rfl

theorem completeLines_append (s t : List α) :
    completeLines isTerm (s ++ t) =
      completeLines isTerm s ++ completeLines isTerm (unfinishedLine isTerm s ++ t) := by
  have h := allLines_append isTerm s t
  rw [allLines_eq, allLines_eq isTerm (unfinishedLine isTerm s ++ t),
    ← List.append_assoc] at h
  exact (List.append_inj' h rfl).1

theorem unfinishedLine_append (s t : List α) :
    unfinishedLine isTerm (s ++ t) =
      unfinishedLine isTerm (unfinishedLine isTerm s ++ t) := by
  have h := allLines_append isTerm s t
  rw [allLines_eq, allLines_eq isTerm (unfinishedLine isTerm s ++ t),
    ← List.append_assoc] at h
  exact (List.append_inj' h rfl).2 |> List.singleton_inj.mp

/-! ## Lines hold no terminator -/

theorem allLines_no_term {stream line : List α} (h : line ∈ allLines isTerm stream) :
    ∀ a ∈ line, isTerm a = false := by
  induction stream generalizing line with
  | nil =>
    have hline : line = [] := by simpa [allLines] using h
    simp [hline]
  | cons a s ih =>
    by_cases ha : isTerm a = true
    · have hst := allLines_append_cons isTerm [] s ha
      rw [List.nil_append] at hst
      rw [hst] at h
      rcases List.mem_append.mp h with hnil | hrest
      · have hline : line = [] := by simpa [allLines] using hnil
        simp [hline]
      · exact ih hrest
    · have hcons : allLines isTerm (a :: s) = (allLines isTerm s).modifyHead (List.cons a) := by
        simp [allLines, List.splitOnP_cons_eq_if_modifyHead, ha]
      rw [hcons] at h
      cases hs : allLines isTerm s with
      | nil => exact absurd hs (List.splitOnP_ne_nil isTerm s)
      | cons c C =>
        rw [hs] at h ih
        rcases List.mem_cons.mp h with rfl | hrest
        · intro b hb
          rcases List.mem_cons.mp hb with rfl | hbc
          · simpa using ha
          · exact ih List.mem_cons_self b hbc
        · exact ih (List.mem_cons_of_mem _ hrest)

theorem unfinishedLine_no_term (stream : List α) :
    ∀ a ∈ unfinishedLine isTerm stream, isTerm a = false :=
  allLines_no_term isTerm (unfinishedLine_mem_allLines isTerm stream)

/-- No line is longer than the stream. -/
theorem length_le_of_mem_allLines {stream line : List α} (h : line ∈ allLines isTerm stream) :
    line.length ≤ stream.length := by
  induction stream generalizing line with
  | nil =>
    have hline : line = [] := by simpa [allLines] using h
    simp [hline]
  | cons a s ih =>
    by_cases ha : isTerm a = true
    · have hst := allLines_append_cons isTerm [] s ha
      rw [List.nil_append] at hst
      rw [hst] at h
      rcases List.mem_append.mp h with hnil | hrest
      · have hline : line = [] := by simpa [allLines] using hnil
        simp [hline]
      · exact Nat.le_succ_of_le (ih hrest)
    · have hone := allLines_append_of_no_term isTerm (u := [a]) (by simpa using ha) s
      rw [List.singleton_append] at hone
      rw [hone] at h
      cases hs : allLines isTerm s with
      | nil => exact absurd hs (List.splitOnP_ne_nil isTerm s)
      | cons c C =>
        rw [hs] at h ih
        rcases List.mem_cons.mp h with rfl | hrest
        · exact Nat.succ_le_succ (ih List.mem_cons_self)
        · exact Nat.le_succ_of_le (ih (List.mem_cons_of_mem _ hrest))

/-- A stream without an unfinished line is empty or ends with a terminator. -/
theorem ends_with_term_of_no_unfinished {stream : List α}
    (h : unfinishedLine isTerm stream = []) :
    stream = [] ∨ ∃ front t, isTerm t = true ∧ stream = front ++ [t] := by
  rcases stream.eq_nil_or_concat' with rfl | ⟨front, a, rfl⟩
  · exact Or.inl rfl
  · by_cases ha : isTerm a = true
    · exact Or.inr ⟨front, a, ha, rfl⟩
    · -- any other symbol would belong to the unfinished line
      have hopen : ∀ b ∈ unfinishedLine isTerm front ++ [a], isTerm b = false := by
        intro b hb
        rcases List.mem_append.mp hb with hfront | hlast
        · exact unfinishedLine_no_term isTerm front b hfront
        · rw [List.mem_singleton.mp hlast]
          simpa using ha
      rw [unfinishedLine_append, unfinishedLine_of_no_term isTerm hopen] at h
      exact absurd h (by simp)

end Gd32Vw553h.Foundation
