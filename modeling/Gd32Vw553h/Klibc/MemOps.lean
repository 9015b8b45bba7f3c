/-
  Klibc/MemOps.lean --- filling and copying memory (`rt-thread/src/klibc/kstring.c`).

  Source configuration: none of the `RT_KLIBC_USING_LIBC_*`, `RT_KLIBC_USING_TINY_*` and
  `RT_KLIBC_USING_USER_*` switches is set, so `rt_memset` and `rt_memcpy` are the routines that
  go by words where they can.  `long`, `size_t` and pointers have four bytes.  A word is given
  by its bytes in memory.  Each routine returns its first argument, which is left out here.

  A `Cursor` is the pair of pointers of a copy with the memory.  `Ahead` says what has been
  copied from below, `Behind` what from above; a word is four bytes at once for both.
-/
import Gd32Vw553h.Foundation.Sink
import Mathlib.Data.Fin.Tuple.Basic
import Mathlib.Data.List.FinRange

set_option autoImplicit false

namespace Gd32Vw553h.Klibc

open Gd32Vw553h.Foundation

/-! ## The code -/

/-- Byte memory. -/
abbrev ByteMem : Type := BitVec 32 → UInt8

/-- The bytes of a `long`. -/
abbrev LongWord : Type := Fin 4 → UInt8

/-- `sizeof(long)` -/
abbrev sizeofLong : Nat := 4

/-- The value of a word at an address. -/
def loadWord (mem : ByteMem) (a : BitVec 32) : LongWord := fun i => mem (a + BitVec.ofNat 32 i.val)

def storeWord (mem : ByteMem) (a : BitVec 32) (word : LongWord) : ByteMem :=
  store mem a (List.ofFn word)

/-- `UNALIGNED` -/
def unaligned (a : BitVec 32) : BitVec 32 := a &&& (BitVec.ofNat 32 sizeofLong - 1)

/-- `*aligned_addr++ = buffer` -/
def putWord (buffer : LongWord) (p : BitVec 32 × ByteMem) : BitVec 32 × ByteMem :=
  (p.1 + BitVec.ofNat 32 sizeofLong, storeWord p.2 p.1 buffer)

/-- `while (count >= LBLOCKSIZE * 4)` of `rt_memset` -/
def fillBlocks (buffer : LongWord) (count : Nat) (p : BitVec 32 × ByteMem) :
    Nat × BitVec 32 × ByteMem :=
  if sizeofLong * 4 ≤ count then
    let p := putWord buffer p
    let p := putWord buffer p
    let p := putWord buffer p
    let p := putWord buffer p
    fillBlocks buffer (count - 4 * sizeofLong) p
  else (count, p)
termination_by count
decreasing_by
  have hsize : sizeofLong = 4 := rfl
  omega

/-- `while (count >= LBLOCKSIZE)` of `rt_memset` -/
def fillWords (buffer : LongWord) (count : Nat) (p : BitVec 32 × ByteMem) :
    Nat × BitVec 32 × ByteMem :=
  if sizeofLong ≤ count then fillWords buffer (count - sizeofLong) (putWord buffer p)
  else (count, p)
termination_by count
decreasing_by
  have hsize : sizeofLong = 4 := rfl
  omega

/-- `while (count--)` of `rt_memset` -/
def fillBytes (d : UInt8) : Nat → BitVec 32 × ByteMem → ByteMem
  | 0, p => p.2
  | count + 1, p => fillBytes d count (p.1 + 1, Function.update p.2 p.1 d)

/-- `rt_memset` -/
def rtMemset (s : BitVec 32) (c : UInt32) (count : UInt32) (mem : ByteMem) : ByteMem :=
  let d := (c &&& 0xff).toUInt8
  let (count, m) :=
    if ¬ count.toNat < sizeofLong ∧ unaligned s = 0 then
      -- the bytes of `buffer` are set one after the other
      let buffer : LongWord := (List.finRange 4).foldl (fun b i => Function.update b i d) fun _ => 0
      let (count, p) := fillBlocks buffer count.toNat (s, mem)
      fillWords buffer count p
    else (count.toNat, s, mem)
  fillBytes d count m

/-- The pointers of a copy, and the memory. -/
structure Cursor where
  dst : BitVec 32
  src : BitVec 32
  mem : ByteMem

/-- `*aligned_dst++ = *aligned_src++` -/
def Cursor.copyWord (c : Cursor) : Cursor :=
  ⟨c.dst + BitVec.ofNat 32 sizeofLong, c.src + BitVec.ofNat 32 sizeofLong,
    storeWord c.mem c.dst (loadWord c.mem c.src)⟩

/-- `*dst_ptr++ = *src_ptr++` -/
def Cursor.copyByte (c : Cursor) : Cursor :=
  ⟨c.dst + 1, c.src + 1, Function.update c.mem c.dst (c.mem c.src)⟩

/-- `*(--tmp) = *(--s)` -/
def Cursor.copyByteBack (c : Cursor) : Cursor :=
  ⟨c.dst - 1, c.src - 1, Function.update c.mem (c.dst - 1) (c.mem (c.src - 1))⟩

/-- `while (len >= BIGBLOCKSIZE)` of `rt_memcpy` -/
def copyBlocks (len : Nat) (c : Cursor) : Nat × Cursor :=
  if sizeofLong * 4 ≤ len then
    copyBlocks (len - sizeofLong * 4) c.copyWord.copyWord.copyWord.copyWord
  else (len, c)
termination_by len
decreasing_by
  have hsize : sizeofLong = 4 := rfl
  omega

/-- `while (len >= LITTLEBLOCKSIZE)` of `rt_memcpy` -/
def copyWords (len : Nat) (c : Cursor) : Nat × Cursor :=
  if sizeofLong ≤ len then copyWords (len - sizeofLong) c.copyWord else (len, c)
termination_by len
decreasing_by
  have hsize : sizeofLong = 4 := rfl
  omega

/-- `while (len--)` of `rt_memcpy`, and the second loop of `rt_memmove`. -/
def copyBytes : Nat → Cursor → Cursor
  | 0, c => c
  | len + 1, c => copyBytes len c.copyByte

/-- The first loop of `rt_memmove`. -/
def copyBytesBack : Nat → Cursor → Cursor
  | 0, c => c
  | n + 1, c => copyBytesBack n c.copyByteBack

/-- `rt_memcpy` -/
def rtMemcpy (dst src : BitVec 32) (count : UInt32) (mem : ByteMem) : ByteMem :=
  let c : Cursor := ⟨dst, src, mem⟩
  let (len, c) :=
    if ¬ count.toNat < sizeofLong * 4 ∧ unaligned src ||| unaligned dst = 0 then
      let (len, c) := copyBlocks count.toNat c
      copyWords len c
    else (count.toNat, c)
  (copyBytes len c).mem

/-- `rt_memmove` -/
def rtMemmove (dest src : BitVec 32) (n : UInt32) (mem : ByteMem) : ByteMem :=
  let offset := BitVec.ofNat 32 n.toNat
  if src < dest ∧ dest < src + offset then
    (copyBytesBack n.toNat ⟨dest + offset, src + offset, mem⟩).mem
  else (copyBytes n.toNat ⟨dest, src, mem⟩).mem

/-! ## Filling -/

variable {mem : ByteMem}

theorem foldl_fill (d : UInt8) :
    (List.finRange 4).foldl (fun (b : LongWord) i => Function.update b i d) (fun _ => 0) =
      fun _ => d := by
  funext i
  match i with
  | 0 => rfl
  | 1 => rfl
  | 2 => rfl
  | 3 => rfl

theorem storeWord_fill (mem : ByteMem) (a : BitVec 32) (d : UInt8) :
    storeWord mem a (fun _ => d) = store mem a (List.replicate sizeofLong d) :=
  congrArg (store mem a) (List.ofFn_const 4 d)

/-- So many equal bytes from a pointer on, and the pointer behind them. -/
def filled (d : UInt8) (n : Nat) (p : BitVec 32 × ByteMem) : BitVec 32 × ByteMem :=
  (p.1 + BitVec.ofNat 32 n, store p.2 p.1 (List.replicate n d))

theorem filled_filled (d : UInt8) (m n : Nat) (p : BitVec 32 × ByteMem) :
    filled d n (filled d m p) = filled d (m + n) p := by
  unfold filled
  rw [List.replicate_add, store_append, List.length_replicate, BitVec.ofNat_add, BitVec.add_assoc]

theorem putWord_fill (d : UInt8) (p : BitVec 32 × ByteMem) :
    putWord (fun _ => d) p = filled d sizeofLong p := by
  rw [putWord, storeWord_fill, filled]

/-- The loop over four words fills a part and leaves the rest. -/
theorem fillBlocks_filled (d : UInt8) (count : Nat) (p : BitVec 32 × ByteMem) :
    ∃ n rest, n + rest = count ∧ fillBlocks (fun _ => d) count p = (rest, filled d n p) := by
  have hsize : sizeofLong = 4 := rfl
  induction count using Nat.strong_induction_on generalizing p with
  | _ count ih =>
    rw [fillBlocks]
    by_cases hblock : sizeofLong * 4 ≤ count
    · obtain ⟨n, rest, hsum, hrest⟩ := ih (count - 4 * sizeofLong) (by omega)
        (putWord (fun _ => d) (putWord (fun _ => d) (putWord (fun _ => d)
          (putWord (fun _ => d) p))))
      refine ⟨sizeofLong + sizeofLong + sizeofLong + sizeofLong + n, rest, by omega, ?_⟩
      rw [if_pos hblock]
      refine hrest.trans ?_
      simp only [putWord_fill, filled_filled]
    · refine ⟨0, count, Nat.zero_add count, ?_⟩
      rw [if_neg hblock, filled, List.replicate_zero, BitVec.add_zero]
      rfl

theorem fillWords_filled (d : UInt8) (count : Nat) (p : BitVec 32 × ByteMem) :
    ∃ n rest, n + rest = count ∧ fillWords (fun _ => d) count p = (rest, filled d n p) := by
  have hsize : sizeofLong = 4 := rfl
  induction count using Nat.strong_induction_on generalizing p with
  | _ count ih =>
    rw [fillWords]
    by_cases hword : sizeofLong ≤ count
    · obtain ⟨n, rest, hsum, hrest⟩ := ih (count - sizeofLong) (by omega)
        (putWord (fun _ => d) p)
      refine ⟨sizeofLong + n, rest, by omega, ?_⟩
      rw [if_pos hword, hrest, putWord_fill, filled_filled]
    · refine ⟨0, count, Nat.zero_add count, ?_⟩
      rw [if_neg hword, filled, List.replicate_zero, BitVec.add_zero]
      rfl

theorem fillBytes_filled (d : UInt8) (count : Nat) (p : BitVec 32 × ByteMem) :
    fillBytes d count p = (filled d count p).2 := by
  induction count generalizing p with
  | zero => rfl
  | succ count ih => exact ih _

/-- `rt_memset` stores the byte so many times, however the pointer is aligned. -/
theorem rtMemset_eq (s : BitVec 32) (c count : UInt32) (mem : ByteMem) :
    rtMemset s c count mem = store mem s (List.replicate count.toNat c.toUInt8) := by
  have hbyte : (c &&& 0xff).toUInt8 = c.toUInt8 := by
    apply UInt8.toNat_inj.mp
    rw [UInt32.toNat_toUInt8, UInt32.toNat_toUInt8, UInt32.toNat_and]
    exact (congrArg (· % 256) (Nat.and_two_pow_sub_one_eq_mod c.toNat 8)).trans (Nat.mod_mod _ _)
  unfold rtMemset
  simp only [foldl_fill, hbyte]
  by_cases hfast : ¬ count.toNat < sizeofLong ∧ unaligned s = 0
  · obtain ⟨n, rest, hsum, hblocks⟩ := fillBlocks_filled c.toUInt8 count.toNat (s, mem)
    obtain ⟨n', rest', hsum', hwords⟩ :=
      fillWords_filled c.toUInt8 rest (filled c.toUInt8 n (s, mem))
    rw [if_pos hfast, hblocks]
    simp only [hwords, fillBytes_filled, filled_filled]
    rw [← hsum, ← hsum', ← Nat.add_assoc]
    rfl
  · rw [if_neg hfast]
    exact fillBytes_filled _ _ _

/-! ## Copying from below -/

/-- The memory has `n` bytes of the old memory at another place, and is as it was otherwise. -/
structure Moved (mem : ByteMem) (dst src : BitVec 32) (n : Nat) (after : ByteMem) : Prop where
  copied : ∀ i < n, after (dst + BitVec.ofNat 32 i) = mem (src + BitVec.ofNat 32 i)
  kept : ∀ a, (∀ i < n, a ≠ dst + BitVec.ofNat 32 i) → after a = mem a

/-- The first `k` bytes have been copied. -/
structure Ahead (mem : ByteMem) (dst src : BitVec 32) (k : Nat) (c : Cursor) : Prop where
  dstAt : c.dst = dst + BitVec.ofNat 32 k
  srcAt : c.src = src + BitVec.ofNat 32 k
  moved : Moved mem dst src k c.mem

/-- So many bytes are read, and then stored. -/
def Cursor.chunk (c : Cursor) (m : Nat) : Cursor :=
  ⟨c.dst + BitVec.ofNat 32 m, c.src + BitVec.ofNat 32 m,
    store c.mem c.dst ((List.range m).map fun i => c.mem (c.src + BitVec.ofNat 32 i))⟩

theorem Cursor.copyWord_eq (c : Cursor) : c.copyWord = c.chunk sizeofLong := rfl

theorem Cursor.copyByte_eq (c : Cursor) : c.copyByte = c.chunk 1 := by
  have hsrc : c.src + BitVec.ofNat 32 0 = c.src := BitVec.add_zero c.src
  have hbytes : ((List.range 1).map fun i => c.mem (c.src + BitVec.ofNat 32 i)) = [c.mem c.src] :=
    congrArg (fun a => [c.mem a]) hsrc
  unfold Cursor.chunk
  rw [hbytes]
  rfl

variable {dst src : BitVec 32} {k n : Nat} {c : Cursor}

/-- A byte that is read later is not at a place that is stored to before. -/
def ReadFirst (dst src : BitVec 32) (n : Nat) : Prop :=
  ∀ i j, i < j → j < n → src + BitVec.ofNat 32 j ≠ dst + BitVec.ofNat 32 i

theorem ahead_start (mem : ByteMem) (dst src : BitVec 32) :
    Ahead mem dst src 0 ⟨dst, src, mem⟩ where
  dstAt := (BitVec.add_zero dst).symm
  srcAt := (BitVec.add_zero src).symm
  moved := ⟨fun i hi => absurd hi (Nat.not_lt_zero i), fun _ _ => rfl⟩

/-- Several bytes at once: all of them are read before one is stored. -/
theorem Ahead.chunk (hfirst : ReadFirst dst src n) (hn : n ≤ 2 ^ 32) {m : Nat} (hm : k + m ≤ n)
    (h : Ahead mem dst src k c) : Ahead mem dst src (k + m) (c.chunk m) := by
  have hadd : ∀ (a : BitVec 32) (i : Nat),
      a + BitVec.ofNat 32 k + BitVec.ofNat 32 i = a + BitVec.ofNat 32 (k + i) := by
    intro a i
    rw [BitVec.ofNat_add, BitVec.add_assoc]
  have hlength : ((List.range m).map fun i => c.mem (c.src + BitVec.ofNat 32 i)).length = m := by
    rw [List.length_map, List.length_range]
  have hplace : ∀ i, c.dst + BitVec.ofNat 32 i = dst + BitVec.ofNat 32 (k + i) := by
    intro i
    rw [h.dstAt, hadd]
  have hread : ∀ i < m,
      c.mem (c.src + BitVec.ofNat 32 i) = mem (src + BitVec.ofNat 32 (k + i)) := by
    intro i hi
    rw [h.srcAt, hadd]
    exact h.moved.kept _ fun j hj => hfirst j (k + i) (by omega) (by omega)
  refine ⟨?_, ?_, fun i hi => ?_, fun a ha => ?_⟩
  · exact hplace m
  · rw [Cursor.chunk, h.srcAt, hadd]
  · rcases Nat.lt_or_ge i k with hold | hnew
    · refine (store_outside fun j hj heq => ?_).trans (h.moved.copied i hold)
      rw [hplace] at heq
      have hsame := (offset_inj dst (by omega) (by omega)).mp heq
      omega
    · obtain ⟨j, rfl⟩ : ∃ j, i = k + j := ⟨i - k, by omega⟩
      have hj : j < m := by omega
      rw [← hread j hj, ← hplace j]
      refine (store_inside (by omega) (by omega)).trans ?_
      rw [List.getElem_map, List.getElem_range]
  · refine (store_outside fun j hj heq => ?_).trans
      (h.moved.kept a fun i hi => ha i (by omega))
    rw [hplace] at heq
    exact ha (k + j) (by omega) heq

theorem Ahead.copyWord (hfirst : ReadFirst dst src n) (hn : n ≤ 2 ^ 32)
    (hk : k + sizeofLong ≤ n) (h : Ahead mem dst src k c) :
    Ahead mem dst src (k + sizeofLong) c.copyWord := by
  rw [Cursor.copyWord_eq]
  exact h.chunk hfirst hn hk

theorem Ahead.copyByte (hfirst : ReadFirst dst src n) (hn : n ≤ 2 ^ 32) (hk : k < n)
    (h : Ahead mem dst src k c) : Ahead mem dst src (k + 1) c.copyByte := by
  rw [Cursor.copyByte_eq]
  exact h.chunk hfirst hn hk

/-- The loop over four words copies a part and leaves the rest. -/
theorem copyBlocks_ahead (hfirst : ReadFirst dst src n) (hn : n ≤ 2 ^ 32) (len : Nat)
    (h : Ahead mem dst src k c) (hlen : k + len = n) :
    ∃ k' rest c', copyBlocks len c = (rest, c') ∧ k' + rest = n ∧ Ahead mem dst src k' c' := by
  have hsize : sizeofLong = 4 := rfl
  induction len using Nat.strong_induction_on generalizing k c with
  | _ len ih =>
    rw [copyBlocks]
    by_cases hblock : sizeofLong * 4 ≤ len
    · have hone := h.copyWord hfirst hn (by omega)
      have htwo := hone.copyWord hfirst hn (by omega)
      have hthree := htwo.copyWord hfirst hn (by omega)
      have hfour := hthree.copyWord hfirst hn (by omega)
      rw [if_pos hblock]
      exact ih (len - sizeofLong * 4) (by omega) hfour (by omega)
    · rw [if_neg hblock]
      exact ⟨k, len, c, rfl, hlen, h⟩

theorem copyWords_ahead (hfirst : ReadFirst dst src n) (hn : n ≤ 2 ^ 32) (len : Nat)
    (h : Ahead mem dst src k c) (hlen : k + len = n) :
    ∃ k' rest c', copyWords len c = (rest, c') ∧ k' + rest = n ∧ Ahead mem dst src k' c' := by
  have hsize : sizeofLong = 4 := rfl
  induction len using Nat.strong_induction_on generalizing k c with
  | _ len ih =>
    rw [copyWords]
    by_cases hword : sizeofLong ≤ len
    · rw [if_pos hword]
      exact ih (len - sizeofLong) (by omega) (h.copyWord hfirst hn (by omega)) (by omega)
    · rw [if_neg hword]
      exact ⟨k, len, c, rfl, hlen, h⟩

theorem copyBytes_ahead (hfirst : ReadFirst dst src n) (hn : n ≤ 2 ^ 32) (len : Nat)
    (h : Ahead mem dst src k c) (hlen : k + len = n) : Ahead mem dst src n (copyBytes len c) := by
  induction len generalizing k c with
  | zero =>
    rw [copyBytes]
    exact hlen ▸ h
  | succ len ih =>
    rw [copyBytes]
    exact ih (h.copyByte hfirst hn (by omega)) (by omega)

/-- `rt_memcpy` moves the bytes if none is read behind a place that has been stored to, however
the pointers are aligned. -/
theorem rtMemcpy_moved {count : UInt32} (hfirst : ReadFirst dst src count.toNat) (mem : ByteMem) :
    Moved mem dst src count.toNat (rtMemcpy dst src count mem) := by
  have hn : count.toNat ≤ 2 ^ 32 := count.toNat_lt.le
  have hstart := ahead_start mem dst src
  unfold rtMemcpy
  simp only
  by_cases hfast : ¬ count.toNat < sizeofLong * 4 ∧ unaligned src ||| unaligned dst = 0
  · obtain ⟨k, rest, c, hblocks, hlen, hc⟩ :=
      copyBlocks_ahead hfirst hn count.toNat hstart (Nat.zero_add _)
    obtain ⟨k', rest', c', hwords, hlen', hc'⟩ := copyWords_ahead hfirst hn rest hc hlen
    rw [if_pos hfast, hblocks]
    simp only [hwords]
    exact (copyBytes_ahead hfirst hn rest' hc' hlen').moved
  · rw [if_neg hfast]
    exact (copyBytes_ahead hfirst hn count.toNat hstart (Nat.zero_add _)).moved

/-! ## Copying from above -/

/-- The bytes from `k` on have been copied. -/
structure Behind (mem : ByteMem) (dst src : BitVec 32) (n k : Nat) (c : Cursor) : Prop where
  dstAt : c.dst = dst + BitVec.ofNat 32 k
  srcAt : c.src = src + BitVec.ofNat 32 k
  copied : ∀ i, k ≤ i → i < n → c.mem (dst + BitVec.ofNat 32 i) = mem (src + BitVec.ofNat 32 i)
  kept : ∀ a, (∀ i, k ≤ i → i < n → a ≠ dst + BitVec.ofNat 32 i) → c.mem a = mem a

/-- A byte that is read later is not at a place above that is stored to before. -/
def ReadLast (dst src : BitVec 32) (n : Nat) : Prop :=
  ∀ i j, j < i → i < n → src + BitVec.ofNat 32 j ≠ dst + BitVec.ofNat 32 i

theorem Behind.copyByteBack (hlast : ReadLast dst src n) (hn : n ≤ 2 ^ 32) (hk : k < n)
    (h : Behind mem dst src n (k + 1) c) : Behind mem dst src n k c.copyByteBack := by
  have hback : ∀ a : BitVec 32, a + BitVec.ofNat 32 (k + 1) - 1 = a + BitVec.ofNat 32 k := by
    intro a
    rw [← add_one_add_ofNat, BitVec.add_assoc, BitVec.add_comm 1, ← BitVec.add_assoc,
      BitVec.add_sub_cancel]
  have hdst : c.dst - 1 = dst + BitVec.ofNat 32 k := by rw [h.dstAt, hback]
  have hsrc : c.src - 1 = src + BitVec.ofNat 32 k := by rw [h.srcAt, hback]
  have hread : c.mem (c.src - 1) = mem (src + BitVec.ofNat 32 k) := by
    rw [hsrc]
    exact h.kept _ fun i hi hin => hlast i k (by omega) hin
  refine ⟨hdst, hsrc, fun i hi hin => ?_, fun a ha => ?_⟩
  · simp only [Cursor.copyByteBack, hread, hdst]
    by_cases hik : i = k
    · rw [hik, Function.update_self]
    · have hne : dst + BitVec.ofNat 32 i ≠ dst + BitVec.ofNat 32 k := fun heq =>
        hik ((offset_inj dst (by omega) (by omega)).mp heq)
      rw [Function.update_of_ne hne]
      exact h.copied i (by omega) hin
  · simp only [Cursor.copyByteBack, hdst]
    rw [Function.update_of_ne (ha k (Nat.le_refl k) hk)]
    exact h.kept a fun i hi hin => ha i (by omega) hin

theorem copyBytesBack_moved (hlast : ReadLast dst src n) (hn : n ≤ 2 ^ 32) (hk : k ≤ n)
    (h : Behind mem dst src n k c) : Moved mem dst src n (copyBytesBack k c).mem := by
  induction k generalizing c with
  | zero => exact ⟨fun i hi => h.copied i (Nat.zero_le i) hi,
      fun a ha => h.kept a fun i _ hi => ha i hi⟩
  | succ k ih => exact ih (by omega) (h.copyByteBack hlast hn hk)

/-! ## The routines -/

/-- A region of memory: its bytes are in the address space one after the other. -/
def IsRegion (a : BitVec 32) (n : Nat) : Prop := a.toNat + n ≤ 2 ^ 32

theorem region_toNat {a : BitVec 32} {i : Nat} (h : IsRegion a n) (hi : i < n) :
    (a + BitVec.ofNat 32 i).toNat = a.toNat + i := by
  unfold IsRegion at h
  rw [BitVec.toNat_add, BitVec.toNat_ofNat]
  omega

theorem rtMemmove_moved {count : UInt32} (hdst : IsRegion dst count.toNat)
    (hsrc : IsRegion src count.toNat) (mem : ByteMem) :
    Moved mem dst src count.toNat (rtMemmove dst src count mem) := by
  have hn : count.toNat ≤ 2 ^ 32 := count.toNat_lt.le
  have hplaces : ∀ i < count.toNat, ∀ j < count.toNat,
      src + BitVec.ofNat 32 j = dst + BitVec.ofNat 32 i → src.toNat + j = dst.toNat + i := by
    intro i hi j hj heq
    rw [← region_toNat hsrc hj, ← region_toNat hdst hi, heq]
  unfold rtMemmove
  simp only
  by_cases hback : src < dst ∧ dst < src + BitVec.ofNat 32 count.toNat
  · rw [if_pos hback]
    have hlow := BitVec.lt_def.mp hback.1
    have hlast : ReadLast dst src count.toNat := fun i j hij hi heq => by
      have hsum := hplaces i hi j (by omega) heq
      omega
    exact copyBytesBack_moved hlast hn (Nat.le_refl _)
      { dstAt := rfl
        srcAt := rfl
        copied := fun i hi hin => by omega
        kept := fun _ _ => rfl }
  · rw [if_neg hback]
    have hfirst : ReadFirst dst src count.toNat := fun i j hij hj heq => by
      have hsum := hplaces i (by omega) j hj heq
      -- The source is below, so that its end is in the address space.
      have hend : (src + BitVec.ofNat 32 count.toNat).toNat = src.toNat + count.toNat := by
        unfold IsRegion at hdst
        rw [BitVec.toNat_add, BitVec.toNat_ofNat]
        omega
      refine hback ⟨BitVec.lt_def.mpr (by omega), BitVec.lt_def.mpr ?_⟩
      rw [hend]
      omega
    exact (copyBytes_ahead hfirst hn count.toNat (ahead_start mem dst src) (Nat.zero_add _)).moved

/-- Wherever the pointers are and however they are aligned: `rt_memset` does what single stores
do, `rt_memcpy` copies between places that have no byte in common, `rt_memmove` between regions
that overlap in any way; nothing else changes. -/
theorem memRoutines_right (mem : ByteMem) (dst src : BitVec 32) (c count : UInt32) :
    (rtMemset dst c count mem = store mem dst (List.replicate count.toNat c.toUInt8) ∧
      ∀ a, (∀ i < count.toNat, a ≠ dst + BitVec.ofNat 32 i) → rtMemset dst c count mem a = mem a) ∧
    ((∀ i < count.toNat, ∀ j < count.toNat, src + BitVec.ofNat 32 j ≠ dst + BitVec.ofNat 32 i) →
      Moved mem dst src count.toNat (rtMemcpy dst src count mem)) ∧
    (IsRegion dst count.toNat → IsRegion src count.toNat →
      Moved mem dst src count.toNat (rtMemmove dst src count mem)) := by
  refine ⟨⟨rtMemset_eq dst c count mem, fun a ha => ?_⟩, fun hapart => ?_, fun hdst hsrc => ?_⟩
  · rw [rtMemset_eq]
    refine store_outside fun i hi => ha i ?_
    rwa [List.length_replicate] at hi
  · exact rtMemcpy_moved (fun i j hij hj => hapart i (by omega) j hj) mem
  · exact rtMemmove_moved hdst hsrc mem

/-- A copy that goes by words, and a move by four bytes of a region that is not aligned. -/
theorem memRoutines_right_twentyFour :
    Moved (fun a => a.toNat.toUInt8) 0x20000200 0x20000100 24
        (rtMemcpy 0x20000200 0x20000100 24 fun a => a.toNat.toUInt8) ∧
      Moved (fun a => a.toNat.toUInt8) 0x20000105 0x20000101 24
        (rtMemmove 0x20000105 0x20000101 24 fun a => a.toNat.toUInt8) := by
  have hregion : ∀ a : BitVec 32, a.toNat < 0x30000000 → IsRegion a 24 := fun a ha => by
    unfold IsRegion
    omega
  constructor
  · refine (memRoutines_right _ 0x20000200 0x20000100 0 24).2.1 fun i hi j hj heq => ?_
    have hsum := congrArg BitVec.toNat heq
    have hlow : (0x20000100 : BitVec 32).toNat = 0x20000100 := rfl
    have hhigh : (0x20000200 : BitVec 32).toNat = 0x20000200 := rfl
    have hcount : (24 : UInt32).toNat = 24 := rfl
    rw [hcount] at hi hj
    rw [region_toNat (hregion _ (by decide)) hj, region_toNat (hregion _ (by decide)) hi,
      hlow, hhigh] at hsum
    omega
  · exact (memRoutines_right _ 0x20000105 0x20000101 0 24).2.2 (hregion _ (by decide))
      (hregion _ (by decide))

end Gd32Vw553h.Klibc
