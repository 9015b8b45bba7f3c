/-
  Foundation/CString.lean --- NUL-terminated strings in byte memory.

  A memory region is a list of bytes.  The C string that starts it is the run of
  bytes before the first NUL; the end of the list counts as a terminator, so a
  string literal is written without its NUL.  `zeroPad` is what a bounded,
  NUL-padding copy leaves in a buffer of fixed size.
-/
import Mathlib.Data.List.TakeWhile

set_option autoImplicit false

namespace Gd32Vw553h.Foundation

/-- The C string at the start of a region. -/
def cString (mem : List UInt8) : List UInt8 := mem.takeWhile (· ≠ 0)

/-- A byte sequence that is its own C string. -/
def NulFree (s : List UInt8) : Prop := ∀ b ∈ s, b ≠ 0

instance (s : List UInt8) : Decidable (NulFree s) := List.decidableBAll _ s

theorem cString_nulFree (mem : List UInt8) : NulFree (cString mem) := by
  intro b hb
  simpa using List.mem_takeWhile_imp hb

theorem cString_of_nulFree {s : List UInt8} (h : NulFree s) : cString s = s := by
  rw [cString, List.takeWhile_eq_self_iff]
  simpa [NulFree] using h

/-- A NUL behind a NUL-free string ends it, whatever bytes follow. -/
theorem cString_append_nul {s : List UInt8} (h : NulFree s) (rest : List UInt8) :
    cString (s ++ 0 :: rest) = s := by
  have hs : s.takeWhile (fun b => decide (b ≠ 0)) = s := cString_of_nulFree h
  rw [cString, List.takeWhile_append, hs]
  simp

/-- The first `n` bytes of `s`, filled up with NUL bytes to exactly `n`. -/
def zeroPad (n : Nat) (s : List UInt8) : List UInt8 :=
  s.take n ++ List.replicate (n - s.length) 0

@[simp] theorem zeroPad_length (n : Nat) (s : List UInt8) : (zeroPad n s).length = n := by
  simp [zeroPad]
  omega

/-- A string shorter than the buffer is copied whole. -/
theorem zeroPad_of_lt {n : Nat} {s : List UInt8} (h : s.length < n) :
    zeroPad n s = s ++ 0 :: List.replicate (n - s.length - 1) 0 := by
  obtain ⟨k, hk⟩ : ∃ k, n - s.length = k + 1 := ⟨n - s.length - 1, by omega⟩
  rw [zeroPad, List.take_of_length_le (by omega), hk, List.replicate_succ]
  rfl

/-- A buffer longer than the string holds it NUL-terminated. -/
theorem cString_zeroPad {n : Nat} {s : List UInt8} (hs : NulFree s) (h : s.length < n) :
    cString (zeroPad n s) = s := by
  rw [zeroPad_of_lt h, cString_append_nul hs]

/-- A string that leaves room ends its buffer with a NUL, so a NUL stored there
changes nothing. -/
theorem zeroPad_set_last {n : Nat} {s : List UInt8} (h : s.length ≤ n) :
    (zeroPad (n + 1) s).set n 0 = zeroPad (n + 1) s := by
  have hlast : zeroPad (n + 1) s = zeroPad n s ++ [0] := by
    have hroom : n + 1 - s.length = n - s.length + 1 := by omega
    rw [zeroPad, zeroPad, List.take_of_length_le h, List.take_of_length_le (Nat.le_succ_of_le h),
      hroom, List.replicate_succ', List.append_assoc]
  rw [hlast, List.set_append_right _ _ (by simp), zeroPad_length, Nat.sub_self]
  rfl

theorem zeroPad_nil (n : Nat) : zeroPad n [] = List.replicate n 0 := by
  rw [zeroPad, List.take_nil, List.nil_append, List.length_nil, Nat.sub_zero]

theorem zeroPad_of_le {n : Nat} {s : List UInt8} (h : s.length ≤ n) :
    zeroPad n s = s ++ List.replicate (n - s.length) 0 := by
  rw [zeroPad, List.take_of_length_le h]

/-- Behind the string a zero-padded buffer is all NUL. -/
theorem drop_zeroPad {n k : Nat} {s : List UInt8} (hk : s.length ≤ k) (h : s.length ≤ n) :
    (zeroPad n s).drop k = List.replicate (n - k) 0 := by
  rw [zeroPad_of_le h, List.drop_append, List.drop_of_length_le hk, List.drop_replicate,
    List.nil_append]
  congr 1
  omega

theorem take_zeroPad {n k : Nat} {s : List UInt8} (hk : k ≤ s.length) (h : s.length ≤ n) :
    (zeroPad n s).take k = s.take k := by
  rw [zeroPad_of_le h, List.take_append_of_le_length hk]

/-- The zero-padded bytes as an array of fixed size. -/
def zeroPadded (n : Nat) (s : List UInt8) : Vector UInt8 n :=
  ⟨(zeroPad n s).toArray, by simp⟩

@[simp] theorem zeroPadded_toList (n : Nat) (s : List UInt8) :
    (zeroPadded n s).toList = zeroPad n s := by
  simp [zeroPadded]

/-! ## Writing into a region -/

/-- Bytes stored in a region, which keeps its length if they fit. -/
def overwrite (mem : List UInt8) (start : Nat) (bytes : List UInt8) : List UInt8 :=
  mem.take start ++ bytes ++ mem.drop (start + bytes.length)

variable {mem bytes : List UInt8} {start : Nat}

/-- What lies behind the stored bytes is kept. -/
theorem drop_overwrite {k : Nat} (h : start ≤ mem.length) (hk : start + bytes.length ≤ k) :
    (overwrite mem start bytes).drop k = mem.drop k := by
  have hlen : (mem.take start ++ bytes).length = start + bytes.length := by
    rw [List.length_append, List.length_take, Nat.min_eq_left h]
  rw [overwrite, List.drop_append, List.drop_of_length_le (by omega), hlen, List.drop_drop,
    List.nil_append]
  congr 1
  omega

theorem take_overwrite_of_le {k : Nat} (h : start ≤ mem.length) (hk : k ≤ start) :
    (overwrite mem start bytes).take k = mem.take k := by
  have hlen : k ≤ (mem.take start).length := by
    rw [List.length_take, Nat.min_eq_left h]
    exact hk
  rw [overwrite, List.append_assoc, List.take_append_of_le_length hlen, List.take_take,
    Nat.min_eq_left hk]

theorem drop_overwrite_start (h : start ≤ mem.length) :
    (overwrite mem start bytes).drop start = bytes ++ mem.drop (start + bytes.length) := by
  have hlen : (mem.take start).length = start := by
    rw [List.length_take, Nat.min_eq_left h]
  rw [overwrite, List.append_assoc, List.drop_append_of_le_length hlen.ge,
    List.drop_of_length_le hlen.le, List.nil_append]

/-! ## Editing a zero-padded string -/

section Edit

variable {n : Nat} {front cut rest word more : List UInt8}

/-- The end of the string with some NULs behind it. -/
theorem slice_zeroPad {e : Nat} (hfit : (front ++ rest).length + e ≤ n) :
    ((zeroPad n (front ++ rest)).drop front.length).take (rest.length + e) =
      rest ++ List.replicate e 0 := by
  have hlen : (front ++ rest).length ≤ n := by omega
  rw [zeroPad_of_le hlen, List.append_assoc, List.drop_left, List.take_append,
    List.take_of_length_le (Nat.le_add_right _ e), Nat.add_sub_cancel_left, List.take_replicate,
    Nat.min_eq_left (by omega)]

theorem overwrite_nil (mem : List UInt8) (start : Nat) : overwrite mem start [] = mem := by
  rw [overwrite, List.append_nil, List.length_nil, Nat.add_zero, List.take_append_drop]

/-- Writing a longer string over the end of the string. -/
theorem overwrite_extend (hmore : word <+: more) (hfit : (front ++ more).length ≤ n) :
    overwrite (zeroPad n (front ++ word)) front.length more = zeroPad n (front ++ more) := by
  have hle := hmore.length_le
  rw [List.length_append] at hfit
  have hword : (front ++ word).length ≤ n := by
    rw [List.length_append]
    omega
  have hbehind : (front ++ word).length ≤ front.length + more.length := by
    rw [List.length_append]
    omega
  have hfront : front.length ≤ (front ++ word).length := by
    rw [List.length_append]
    omega
  rw [overwrite, take_zeroPad hfront hword, List.take_left, drop_zeroPad hbehind hword,
    zeroPad_of_le (by rw [List.length_append]; exact hfit), List.length_append]

/-- Moving the rest of the string up by one and writing a character into the gap. -/
theorem overwrite_insert (c : UInt8) (hfit : (front ++ rest).length + 2 ≤ n) :
    overwrite (overwrite (zeroPad n (front ++ rest)) (front.length + 1) (rest ++ [0]))
      front.length [c] = zeroPad n (front ++ c :: rest) := by
  rw [List.length_append] at hfit
  have htext : (front ++ rest).length ≤ n := by
    rw [List.length_append]
    omega
  have hfront : front.length ≤ (front ++ rest).length := by
    rw [List.length_append]
    omega
  have hbehind : (front ++ rest).length ≤ front.length + 1 + (rest ++ [0]).length := by
    rw [List.length_append, List.length_append]
    omega
  have hstart : front.length + 1 ≤ (zeroPad n (front ++ rest)).length := by
    rw [zeroPad_length]
    omega
  have hnew : (front ++ c :: rest).length ≤ n := by
    rw [List.length_append, List.length_cons]
    omega
  have hzeros : n - (front ++ c :: rest).length =
      n - (front.length + 1 + (rest ++ [0]).length) + 1 := by
    rw [List.length_append, List.length_append, List.length_cons, List.length_singleton]
    omega
  calc overwrite (overwrite (zeroPad n (front ++ rest)) (front.length + 1) (rest ++ [0]))
        front.length [c]
      = front ++ [c] ++ (rest ++ [0] ++
          List.replicate (n - (front.length + 1 + (rest ++ [0]).length)) 0) := by
        rw [overwrite, take_overwrite_of_le hstart (Nat.le_succ _), take_zeroPad hfront htext,
          List.take_left, List.length_singleton, drop_overwrite_start hstart,
          drop_zeroPad hbehind htext]
    _ = zeroPad n (front ++ c :: rest) := by
        rw [zeroPad_of_le hnew, hzeros, List.replicate_succ]
        simp only [List.append_assoc, List.cons_append, List.nil_append]

/-- Moving the rest of the string down over a part of it, with so many NULs behind it as come
along, and clearing what it leaves. -/
theorem overwrite_cut {e : Nat} (he : e ≤ cut.length) (hfit : (front ++ cut ++ rest).length ≤ n) :
    overwrite (overwrite (zeroPad n (front ++ cut ++ rest)) front.length
        (rest ++ List.replicate e 0)) (front.length + rest.length)
      (List.replicate cut.length 0) = zeroPad n (front ++ rest) := by
  have hlen : (front ++ cut ++ rest).length = front.length + cut.length + rest.length := by
    rw [List.length_append, List.length_append]
  have hstart : front.length ≤ (zeroPad n (front ++ cut ++ rest)).length := by
    rw [zeroPad_length]
    omega
  have hfront : (zeroPad n (front ++ cut ++ rest)).take front.length = front := by
    rw [take_zeroPad (by omega) hfit, List.append_assoc, List.take_left]
  have hkept : (overwrite (zeroPad n (front ++ cut ++ rest)) front.length
      (rest ++ List.replicate e 0)).take (front.length + rest.length) = front ++ rest := by
    rw [overwrite, hfront, ← List.length_append, ← List.append_assoc, List.append_assoc,
      List.take_left]
  have hbytes : (rest ++ List.replicate e (0 : UInt8)).length = rest.length + e := by
    rw [List.length_append, List.length_replicate]
  have hcleared : (overwrite (zeroPad n (front ++ cut ++ rest)) front.length
      (rest ++ List.replicate e 0)).drop (front.length + rest.length + cut.length) =
        List.replicate (n - (front.length + rest.length + cut.length)) 0 := by
    rw [drop_overwrite hstart (by omega), drop_zeroPad (by omega) hfit]
  have hnew : (front ++ rest).length ≤ n := by
    rw [List.length_append]
    omega
  rw [overwrite, hkept, List.length_replicate, hcleared, List.append_assoc,
    List.replicate_append_replicate, zeroPad_of_le hnew, List.length_append]
  congr 2
  omega

/-- Writing a zero-padded string over the beginning. -/
theorem overwrite_whole {m : Nat} (hword : word.length ≤ m) (hmore : more.length ≤ m) (h : m ≤ n) :
    overwrite (zeroPad n word) 0 (zeroPad m more) = zeroPad n more := by
  rw [overwrite, List.take_zero, List.nil_append, Nat.zero_add, zeroPad_length,
    drop_zeroPad hword (hword.trans h), zeroPad_of_le hmore, zeroPad_of_le (hmore.trans h),
    List.append_assoc, List.replicate_append_replicate]
  congr 2
  omega

/-- A buffer that the string leaves room in is the same with less room behind it. -/
theorem take_zeroPad_of_le {m : Nat} (hword : word.length ≤ m) (h : m ≤ n) :
    (zeroPad n word).take m = zeroPad m word := by
  rw [zeroPad_of_le hword, zeroPad_of_le (hword.trans h), List.take_append,
    List.take_of_length_le hword, List.take_replicate]
  congr 2
  omega

/-- Zero-padded buffers tell strings apart. -/
theorem zeroPad_inj (hword : NulFree word) (hmore : NulFree more) (hw : word.length < n)
    (hm : more.length < n) : zeroPad n word = zeroPad n more ↔ word = more := by
  constructor
  · intro heq
    rw [← cString_zeroPad hword hw, heq, cString_zeroPad hmore hm]
  · intro heq
    rw [heq]

end Edit

end Gd32Vw553h.Foundation
