/-
  Utilities/LineBuffer.lean --- a log line in its buffer
  (`components/utilities/ulog/ulog.c`, `ULOG_LINE_BUF_SIZE` 128).

  The parts of a line are appended with `ulog_strcpy`, which stops at 128 characters.
  `Shows` says that the buffer has as much of a text as that, and that nothing outside
  `log_buf[0..128]` has been written; every append keeps it.  A string is the list of its
  characters; where the list ends the source finds the NUL.
-/
import Gd32Vw553h.Foundation.CString
import Gd32Vw553h.Foundation.Sink

set_option autoImplicit false

namespace Gd32Vw553h.Utilities

open Gd32Vw553h.Foundation

/-- `ULOG_LINE_BUF_SIZE` -/
abbrev ulogLineBufSize : Nat := 128

abbrev Mem : Type := BitVec 32 → UInt8

/-- `ulog_strcpy`: how many characters it copies, and the memory. -/
def ulogStrcpy (curLen : Nat) (dst : BitVec 32) : List UInt8 → Mem → Nat × Mem
  | [], mem => (0, mem)
  | c :: src, mem =>
    if c = 0 then (0, mem)
    else if curLen < ulogLineBufSize then
      let (n, mem) := ulogStrcpy (curLen + 1) (dst + 1) src (Function.update mem dst c)
      (n + 1, mem)
    else (0, mem)

/-- `log_len`, and the memory in which `log_buf` lies. -/
structure Line where
  len : Nat
  mem : Mem

/-- `log_buf + offset` -/
abbrev place (buf : BitVec 32) (offset : Nat) : BitVec 32 := buf + BitVec.ofNat 32 offset

/-- `log_len += ulog_strcpy(log_len, log_buf + log_len, src)` -/
def Line.append (buf : BitVec 32) (line : Line) (src : List UInt8) : Line :=
  let (n, mem) := ulogStrcpy line.len (place buf line.len) src line.mem
  ⟨line.len + n, mem⟩

/-- `log_buf[offset] = c` -/
def Line.set (buf : BitVec 32) (line : Line) (offset : Nat) (c : UInt8) : Line :=
  { line with mem := Function.update line.mem (place buf offset) c }

/-- The address is not one of `log_buf[0..128]`. -/
def Outside (buf a : BitVec 32) : Prop := ∀ i ≤ ulogLineBufSize, a ≠ place buf i

/-- The line has the text, cut to the size of the buffer; its first `room` characters are in
memory, and nothing outside the buffer has changed. -/
structure Shows (room : Nat) (buf : BitVec 32) (before : Mem) (text : List UInt8) (line : Line) :
    Prop where
  len : line.len = min ulogLineBufSize text.length
  chars : ∀ i c, i < room → text[i]? = some c → line.mem (place buf i) = c
  kept : ∀ a, Outside buf a → line.mem a = before a

variable {room : Nat} {buf : BitVec 32} {before : Mem} {text src : List UInt8} {line : Line}

theorem shows_nil (room : Nat) (buf : BitVec 32) (mem : Mem) : Shows room buf mem [] ⟨0, mem⟩ where
  len := rfl
  chars := fun i c _ h => absurd h (by simp)
  kept := fun _ _ => rfl

/-- What `ulog_strcpy` copies is one piece. -/
theorem ulogStrcpy_eq (hsrc : NulFree src) (curLen : Nat) (dst : BitVec 32) (mem : Mem) :
    ulogStrcpy curLen dst src mem = ((src.take (ulogLineBufSize - curLen)).length,
      store mem dst (src.take (ulogLineBufSize - curLen))) := by
  induction src generalizing curLen dst mem with
  | nil => simp [ulogStrcpy, store]
  | cons c src ih =>
    have hc : c ≠ 0 := hsrc c List.mem_cons_self
    rw [ulogStrcpy, if_neg hc]
    by_cases hroom : curLen < ulogLineBufSize
    · have hleft : ulogLineBufSize - curLen = ulogLineBufSize - (curLen + 1) + 1 := by omega
      rw [if_pos hroom, ih (fun b hb => hsrc b (List.mem_cons_of_mem c hb)), hleft,
        List.take_succ_cons, List.length_cons]
      rfl
    · have hnone : ulogLineBufSize - curLen = 0 := by omega
      rw [if_neg hroom, hnone, List.take_zero]
      rfl

theorem append_eq (hsrc : NulFree src) : line.append buf src =
    ⟨line.len + (src.take (ulogLineBufSize - line.len)).length,
      store line.mem (place buf line.len) (src.take (ulogLineBufSize - line.len))⟩ := by
  rw [Line.append, ulogStrcpy_eq hsrc]

theorem place_add (buf : BitVec 32) (i j : Nat) :
    place buf i + BitVec.ofNat 32 j = place buf (i + j) := by
  rw [place, place, BitVec.ofNat_add, BitVec.add_assoc]

/-- Characters behind the text, and some that do not count, in one piece. -/
theorem Shows.store (h : Shows ulogLineBufSize buf before text line)
    (htext : text.length ≤ ulogLineBufSize) (cs extra : List UInt8)
    (hroom : text.length + cs.length ≤ ulogLineBufSize)
    (hextra : text.length + cs.length + extra.length ≤ ulogLineBufSize + 1) :
    Shows ulogLineBufSize buf before (text ++ cs)
      ⟨line.len + cs.length, store line.mem (place buf line.len) (cs ++ extra)⟩ := by
  have hlen : line.len = text.length := h.len.trans (Nat.min_eq_right htext)
  have hall : (cs ++ extra).length = cs.length + extra.length := List.length_append
  have hsize : ulogLineBufSize < 2 ^ 31 := by decide
  refine ⟨?_, fun i c hi hc => ?_, fun a ha => ?_⟩
  · rw [hlen, List.length_append, Nat.min_eq_right hroom]
  · rw [hlen]
    rcases Nat.lt_or_ge i text.length with hold | hnew
    · rw [List.getElem?_append_left hold] at hc
      refine (store_outside ?_).trans (h.chars i c hi hc)
      intro j hj heq
      rw [place_add] at heq
      have hsame := (offset_inj buf (by omega) (by omega)).mp heq
      omega
    · rw [List.getElem?_append_right hnew] at hc
      obtain ⟨hlt, hval⟩ := List.getElem?_eq_some_iff.mp hc
      have hplace : place buf i = place buf text.length + BitVec.ofNat 32 (i - text.length) := by
        rw [place_add, Nat.add_sub_cancel' hnew]
      rw [hplace]
      exact (store_inside (by omega) (by omega)).trans ((List.getElem_append_left hlt).trans hval)
  · refine (store_outside ?_).trans (h.kept a ha)
    intro j hj heq
    rw [place_add] at heq
    exact ha (line.len + j) (by omega) heq

/-- The text may be cut to the size of the buffer. -/
theorem shows_take : Shows ulogLineBufSize buf before (text.take ulogLineBufSize) line ↔
    Shows ulogLineBufSize buf before text line := by
  have hlen : min ulogLineBufSize (text.take ulogLineBufSize).length =
      min ulogLineBufSize text.length := by
    rw [List.length_take]
    omega
  have hchars : ∀ i < ulogLineBufSize, (text.take ulogLineBufSize)[i]? = text[i]? :=
    fun i hi => List.getElem?_take_of_lt hi
  constructor
  · intro h
    exact ⟨h.len.trans hlen, fun i c hi hc => h.chars i c hi ((hchars i hi).trans hc), h.kept⟩
  · intro h
    exact ⟨h.len.trans hlen.symm, fun i c hi hc => h.chars i c hi ((hchars i hi).symm.trans hc),
      h.kept⟩

/-- An append keeps what the line shows. -/
theorem Shows.append (h : Shows ulogLineBufSize buf before text line) (hsrc : NulFree src) :
    Shows ulogLineBufSize buf before (text ++ src) (line.append buf src) := by
  rw [append_eq hsrc]
  rcases Nat.le_or_le text.length ulogLineBufSize with hroom | hfull
  · have hlen : line.len = text.length := h.len.trans (Nat.min_eq_right hroom)
    have hcut : (text ++ src).take ulogLineBufSize =
        text ++ src.take (ulogLineBufSize - line.len) := by
      rw [List.take_append, List.take_of_length_le hroom, hlen]
    have hshort : (src.take (ulogLineBufSize - line.len)).length ≤ ulogLineBufSize - line.len :=
      List.length_take_le _ _
    have hstored := h.store hroom (src.take (ulogLineBufSize - line.len)) []
      (by omega) (by simp only [List.length_nil]; omega)
    rw [List.append_nil, ← hcut] at hstored
    exact shows_take.mp hstored
  · have hnone : ulogLineBufSize - line.len = 0 := by
      rw [h.len, Nat.min_eq_left hfull, Nat.sub_self]
    rw [hnone, List.take_zero]
    refine ⟨?_, fun i c hi hc => h.chars i c hi ?_, h.kept⟩
    · rw [List.length_nil, Nat.add_zero, h.len, List.length_append]
      omega
    · rwa [List.getElem?_append_left (by omega)] at hc

/-- Nothing behind the first 128 characters is written. -/
theorem append_kept (hsrc : NulFree src) {a : BitVec 32}
    (ha : ∀ i < ulogLineBufSize, a ≠ place buf i) : (line.append buf src).mem a = line.mem a := by
  rw [append_eq hsrc]
  refine store_outside fun j hj heq => ?_
  rw [List.length_take] at hj
  rw [place_add] at heq
  exact ha (line.len + j) (by omega) heq

/-! ## Several parts -/

/-- Strings that are appended one after the other. -/
def Line.appends (buf : BitVec 32) (line : Line) (srcs : List (List UInt8)) : Line :=
  srcs.foldl (Line.append buf) line

theorem Shows.appends (h : Shows ulogLineBufSize buf before text line) {srcs : List (List UInt8)}
    (hsrcs : ∀ src ∈ srcs, NulFree src) :
    Shows ulogLineBufSize buf before (text ++ srcs.flatten) (line.appends buf srcs) := by
  induction srcs generalizing text line with
  | nil =>
    rw [List.flatten_nil, List.append_nil]
    exact h
  | cons src srcs ih =>
    rw [List.flatten_cons, ← List.append_assoc]
    exact ih (h.append (hsrcs src List.mem_cons_self))
      fun s hs => hsrcs s (List.mem_cons_of_mem src hs)

theorem appends_kept {srcs : List (List UInt8)} (hsrcs : ∀ src ∈ srcs, NulFree src)
    {a : BitVec 32} (ha : ∀ i < ulogLineBufSize, a ≠ place buf i) (line : Line) :
    (line.appends buf srcs).mem a = line.mem a := by
  induction srcs generalizing line with
  | nil => rfl
  | cons src srcs ih =>
    exact (ih (fun s hs => hsrcs s (List.mem_cons_of_mem src hs)) (line.append buf src)).trans
      (append_kept (hsrcs src List.mem_cons_self) ha)

end Gd32Vw553h.Utilities
