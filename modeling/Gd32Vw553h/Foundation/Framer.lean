/-
  Foundation/Framer.lean --- a line framer with bounded memory.

  The framer keeps at most `cap` symbols of the current line.  A terminator
  delivers the kept symbols, if there are any, and empties the memory; a symbol
  for which there is no room is dropped together with everything kept, and an
  overflow is reported.  On streams whose lines fit, the framer delivers exactly
  the non-empty lines (`frame_of_fits`).  On a longer line it starts over at every
  overflow, so it cuts the line into pieces of `cap + 1` symbols
  (`frame_no_term`, `frame_line`).
-/
import Gd32Vw553h.Foundation.Lines
import Mathlib.Data.List.Count

set_option autoImplicit false

namespace Gd32Vw553h.Foundation

/-- What a framer reports while it reads. -/
inductive FrameEvent (α : Type*) where
  | line (symbols : List α)
  | overflow
  deriving DecidableEq

namespace FrameEvent

variable {α : Type*}

/-- The line an event delivers. -/
def line? : FrameEvent α → Option (List α)
  | line symbols => some symbols
  | overflow => none

end FrameEvent

/-- The lines delivered by a sequence of events. -/
def deliveredLines {α : Type*} (events : List (FrameEvent α)) : List (List α) :=
  events.filterMap FrameEvent.line?

@[simp] theorem deliveredLines_append {α : Type*} (s t : List (FrameEvent α)) :
    deliveredLines (s ++ t) = deliveredLines s ++ deliveredLines t :=
  List.filterMap_append

@[simp] theorem deliveredLines_map_line {α : Type*} (lines : List (List α)) :
    deliveredLines (lines.map FrameEvent.line) = lines := by
  simp [deliveredLines, List.filterMap_map, Function.comp_def, FrameEvent.line?]

section Framer

variable {α : Type*} (cap : Nat) (isTerm : α → Bool)

/-- Read one symbol: the symbols kept afterwards and the events reported. -/
def frameStep (kept : List α) (a : α) : List α × List (FrameEvent α) :=
  if isTerm a then ([], if kept.isEmpty then [] else [.line kept])
  else if kept.length < cap then (kept ++ [a], [])
  else ([], [.overflow])

/-- Read a stream. -/
def frame : List α → List α → List α × List (FrameEvent α)
  | kept, [] => (kept, [])
  | kept, a :: rest =>
      let first := frameStep cap isTerm kept a
      let later := frame first.1 rest
      (later.1, first.2 ++ later.2)

@[simp] theorem frame_nil (kept : List α) : frame cap isTerm kept [] = (kept, []) := rfl

theorem frame_cons (kept : List α) (a : α) (rest : List α) :
    frame cap isTerm kept (a :: rest) =
      ((frame cap isTerm (frameStep cap isTerm kept a).1 rest).1,
        (frameStep cap isTerm kept a).2 ++
          (frame cap isTerm (frameStep cap isTerm kept a).1 rest).2) := rfl

/-- Reading two pieces is reading their concatenation. -/
theorem frame_append (kept s t : List α) :
    frame cap isTerm kept (s ++ t) =
      ((frame cap isTerm (frame cap isTerm kept s).1 t).1,
        (frame cap isTerm kept s).2 ++
          (frame cap isTerm (frame cap isTerm kept s).1 t).2) := by
  induction s generalizing kept with
  | nil => simp
  | cons a s ih => simp only [List.cons_append, frame_cons, ih, List.append_assoc]

variable {cap isTerm}

theorem frameStep_term {kept : List α} {a : α} (ha : isTerm a = true) :
    frameStep cap isTerm kept a = ([], if kept.isEmpty then [] else [.line kept]) := by
  simp [frameStep, ha]

theorem frameStep_room {kept : List α} {a : α} (ha : isTerm a = false)
    (hroom : kept.length < cap) : frameStep cap isTerm kept a = (kept ++ [a], []) := by
  simp [frameStep, ha, hroom]

theorem frameStep_overflow {kept : List α} {a : α} (ha : isTerm a = false)
    (hfull : ¬ kept.length < cap) : frameStep cap isTerm kept a = ([], [.overflow]) := by
  simp [frameStep, ha, hfull]

/-- What is kept after reading holds no terminator. -/
theorem frame_kept_no_term (cap : Nat) {kept : List α} (h : ∀ a ∈ kept, isTerm a = false)
    (s : List α) :
    ∀ a ∈ (frame cap isTerm kept s).1, isTerm a = false := by
  induction s generalizing kept with
  | nil => exact h
  | cons b s ih =>
    rw [frame_cons]
    apply ih
    by_cases hb : isTerm b = true
    · simp [frameStep_term hb]
    · have hb' : isTerm b = false := by simpa using hb
      by_cases hroom : kept.length < cap
      · rw [frameStep_room hb' hroom]
        intro a ha
        rcases List.mem_append.mp ha with hk | hs
        · exact h a hk
        · rw [List.mem_singleton.mp hs]
          exact hb'
      · simp [frameStep_overflow hb' hroom]

/-! ## Lines that fit -/

/-- On a stream whose lines fit, the framer delivers the non-empty lines in order
and keeps the unfinished one. -/
theorem frame_of_fits (cap : Nat) (kept : List α) (hkept : ∀ a ∈ kept, isTerm a = false)
    (s : List α) (hfits : ∀ line ∈ allLines isTerm (kept ++ s), line.length ≤ cap) :
    frame cap isTerm kept s =
      (unfinishedLine isTerm (kept ++ s),
        ((completeLines isTerm (kept ++ s)).filter fun line => !line.isEmpty).map
          FrameEvent.line) := by
  induction s generalizing kept with
  | nil =>
    simp only [List.append_nil, frame_nil]
    rw [unfinishedLine_of_no_term isTerm hkept, completeLines_of_no_term isTerm hkept]
    rfl
  | cons a s ih =>
    by_cases ha : isTerm a = true
    · -- the terminator closes `kept`, which is the first line of the stream
      rw [frame_cons, frameStep_term ha]
      rw [allLines_append_cons isTerm kept s ha] at hfits
      have hrest := ih [] (by simp) fun line hline =>
        hfits line (List.mem_append_right _ hline)
      rw [List.nil_append] at hrest
      rw [hrest, unfinishedLine_append_cons isTerm kept s ha,
        completeLines_append_cons isTerm kept s ha,
        completeLines_of_no_term isTerm hkept, unfinishedLine_of_no_term isTerm hkept]
      cases kept with
      | nil => rfl
      | cons b kept => rfl
    · have ha' : isTerm a = false := by simpa using ha
      have hgrown : ∀ b ∈ kept ++ [a], isTerm b = false := by
        intro b hb
        rcases List.mem_append.mp hb with hk | hs
        · exact hkept b hk
        · rw [List.mem_singleton.mp hs]
          exact ha'
      have hassoc : kept ++ a :: s = (kept ++ [a]) ++ s := by simp
      rw [hassoc] at hfits ⊢
      -- the line that starts with `kept ++ [a]` fits, so there is room for `a`
      obtain ⟨line, hmem, hlen⟩ := exists_line_length_ge isTerm hgrown s
      have hroom : kept.length < cap := by
        have := hfits line hmem
        simp only [List.length_append, List.length_singleton] at hlen
        omega
      rw [frame_cons, frameStep_room ha' hroom, ih (kept ++ [a]) hgrown hfits]
      rfl

/-! ## Lines of any length -/

/-- Reading a terminator-free piece: one overflow for every `cap + 1` symbols. -/
theorem frame_no_term (kept : List α) (hkept : kept.length ≤ cap) {s : List α}
    (hs : ∀ a ∈ s, isTerm a = false) :
    (frame cap isTerm kept s).1.length = (kept.length + s.length) % (cap + 1) ∧
      (frame cap isTerm kept s).2 =
        List.replicate ((kept.length + s.length) / (cap + 1)) .overflow := by
  induction s generalizing kept with
  | nil =>
    simp only [frame_nil, List.length_nil, Nat.add_zero]
    rw [Nat.mod_eq_of_lt (by omega), Nat.div_eq_of_lt (by omega)]
    exact ⟨rfl, rfl⟩
  | cons a s ih =>
    have ha : isTerm a = false := hs a List.mem_cons_self
    have hrest : ∀ b ∈ s, isTerm b = false := fun b hb => hs b (List.mem_cons_of_mem a hb)
    rw [frame_cons]
    by_cases hroom : kept.length < cap
    · have hgrown := ih (kept ++ [a]) (by simp; omega) hrest
      rw [frameStep_room ha hroom]
      have hsum : (kept ++ [a]).length + s.length = kept.length + (a :: s).length := by
        simp; omega
      rw [hsum] at hgrown
      simpa using hgrown
    · have hempty := ih [] (by simp) hrest
      rw [frameStep_overflow ha hroom]
      -- the memory was full, so this symbol completes a block of `cap + 1`
      have hsum :
          kept.length + (a :: s).length = (([] : List α).length + s.length) + (cap + 1) := by
        simp; omega
      rw [hsum, Nat.add_mod_right, Nat.add_div_right _ (by omega)]
      refine ⟨hempty.1, ?_⟩
      simp only [hempty.2, List.replicate_succ]
      rfl

/-- A whole line, read with empty memory: an overflow for every `cap + 1` symbols,
and the symbols behind the last overflow are delivered as if they were a line. -/
theorem frame_line (cap : Nat) {s : List α} (hs : ∀ a ∈ s, isTerm a = false) {t : α}
    (ht : isTerm t = true) :
    ∃ tail : List α, tail.length = s.length % (cap + 1) ∧
      frame cap isTerm [] (s ++ [t]) =
        ([], List.replicate (s.length / (cap + 1)) .overflow ++
          if tail.isEmpty then [] else [.line tail]) := by
  obtain ⟨hlen, hevents⟩ := frame_no_term [] (Nat.zero_le cap) hs
  refine ⟨(frame cap isTerm [] s).1, by simpa using hlen, ?_⟩
  rw [frame_append, frame_cons, frameStep_term ht, hevents]
  simp

/-- At a line start the memory is empty, whatever the lines before were. -/
theorem frame_at_line_start {s : List α} (h : unfinishedLine isTerm s = []) :
    (frame cap isTerm [] s).1 = [] := by
  rcases ends_with_term_of_no_unfinished isTerm h with rfl | ⟨front, t, ht, rfl⟩
  · rfl
  · simp [frame_append, frame_cons, frameStep_term ht]

end Framer

end Gd32Vw553h.Foundation
