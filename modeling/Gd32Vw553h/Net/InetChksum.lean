/-
  Net/InetChksum.lean --- the Internet checksum (`lwip-2.1.2/src/core/inet_chksum.c`).

  `lwip_standard_chksum` adds up 16-bit words as they stand in memory.  When the data begin at an
  odd address it reads the words between the words and exchanges the bytes of the sum at its end.
  The checksum of a packet goes over a chain of pbufs, in which each odd length moves the bytes
  that follow into the other half of their words.

  The bytes of a packet, the low byte first, are one number; modulo 65535 its words count alike.
  `inetChksumPseudo_eq` says that the checksum is determined by this number, that is, by the bytes
  alone.  `inetChksumPseudo_accepts_iff` follows a packet from its sender to its receiver.
-/
import Gd32Vw553h.Foundation.Codec
import Gd32Vw553h.Foundation.Extents
import Gd32Vw553h.Foundation.OnesComplement

set_option autoImplicit false

namespace Gd32Vw553h.Net

open Gd32Vw553h.Foundation FixedCodec

/-! ## The sum of a region -/

/-- `FOLD_U32T` -/
def foldU32 (u : Nat) : Nat := u / 0x10000 + u % 0x10000

/-- `SWAP_BYTES_IN_WORD`, of 16 bits; also `PP_HTONS` -/
def swapBytesInWord (w : Nat) : Nat := w % 0x100 * 0x100 + w / 0x100

variable (mem : Nat → UInt8)

/-- A `u16_t` in memory. -/
def loadU16 (ps : Nat) : Nat := (mem ps).toNat + 0x100 * (mem (ps + 1)).toNat

/-- "Add the bulk of the data": `len`, `ps` and `sum` behind the loop. -/
def bulkLoop : Nat → Nat → Nat → Nat × Nat × Nat
  | len + 2, ps, sum => bulkLoop len (ps + 2) ((sum + loadU16 mem ps) % 0x100000000)
  | len, ps, sum => (len, ps, sum)

/-- `lwip_standard_chksum`, version 2, where `t0` and `t1` are the bytes of `t`. -/
def lwipStandardChksum (dataptr len : Nat) : Nat :=
  let odd := decide (dataptr % 2 = 1)
  let start := if odd && decide (len > 0) then ((mem dataptr).toNat, dataptr + 1, len - 1)
    else (0, dataptr, len)
  let t1 := start.1
  let bulk := bulkLoop mem start.2.2 start.2.1 0
  let t0 := if bulk.1 > 0 then (mem bulk.2.1).toNat else 0
  let sum := (bulk.2.2 + (t0 + 0x100 * t1)) % 0x100000000
  let sum := foldU32 (foldU32 sum)
  if odd then swapBytesInWord sum else sum

/-! ## The sum of a chain -/

/-- What the checksum reads of a `struct pbuf`. -/
structure Pbuf where
  payload : Nat
  len : UInt16

/-- The loop over the chain, with `acc` and `swapped`. -/
def pbufLoop : List Pbuf → Nat → Bool → Nat × Bool
  | [], acc, swapped => (acc, swapped)
  | q :: rest, acc, swapped =>
    let acc := foldU32 ((acc + lwipStandardChksum mem q.payload q.len.toNat) % 0x100000000)
    if q.len.toNat % 2 ≠ 0 then pbufLoop rest (swapBytesInWord acc) (!swapped)
    else pbufLoop rest acc swapped

/-- The loop with the exchange behind it. -/
def pbufSum (p : List Pbuf) (acc : Nat) : Nat :=
  let sum := pbufLoop mem p acc false
  if sum.2 then swapBytesInWord sum.1 else sum.1

/-- `inet_cksum_pseudo_base` -/
def inetCksumPseudoBase (p : List Pbuf) (proto : UInt8) (protoLen : UInt16) (acc : Nat) : Nat :=
  let acc := pbufSum mem p acc
  let acc := (acc + swapBytesInWord proto.toNat) % 0x100000000
  let acc := (acc + swapBytesInWord protoLen.toNat) % 0x100000000
  0xffff - foldU32 (foldU32 acc)

/-- `inet_chksum_pseudo`; the addresses are in network order. -/
def inetChksumPseudo (p : List Pbuf) (proto : UInt8) (protoLen : UInt16) (src dest : UInt32) :
    Nat :=
  let acc := src.toNat % 0x10000
  let acc := acc + src.toNat / 0x10000 % 0x10000
  let acc := acc + dest.toNat % 0x10000
  let acc := acc + dest.toNat / 0x10000 % 0x10000
  inetCksumPseudoBase mem p proto protoLen (foldU32 (foldU32 acc))

/-- `inet_chksum` -/
def inetChksum (dataptr len : Nat) : Nat := 0xffff - lwipStandardChksum mem dataptr len

/-- `inet_chksum_pbuf` -/
def inetChksumPbuf (p : List Pbuf) : Nat := 0xffff - pbufSum mem p 0

/-- The bytes of a chain. -/
def bytes (p : List Pbuf) : List UInt8 :=
  (p.map fun q => slice mem ⟨q.payload, q.len.toNat⟩).flatten

variable {mem}

/-! ## Words and bytes -/

/-- In the sums of this module. -/
abbrev Means (x n : Nat) : Prop := StandsFor 0xffff x n

theorem means_fold (u : Nat) : Means (foldU32 u) u := standsFor_fold 0xffff u

theorem means_swap (w : Nat) : Means (swapBytesInWord w) (0x100 * w) :=
  standsFor_swap (B := 0x100) (by decide) w

theorem means_square (n : Nat) : Means (0x100 * (0x100 * n)) n :=
  standsFor_square (B := 0x100) (by decide) n

theorem fold_fold_le {u : Nat} (h : u < 0x100000000) : foldU32 (foldU32 u) ≤ 0xffff := by
  have hfirst : foldU32 u ≤ 2 * 0xffff := fold_le (M := 0xffff) h
  unfold foldU32 at hfirst ⊢
  omega

theorem swap_le {w : Nat} (h : w ≤ 0xffff) : swapBytesInWord w ≤ 0xffff := by
  unfold swapBytesInWord
  omega

/-- Exchanging twice. -/
theorem means_swap_swap (w : Nat) {n : Nat} (h : Means w (0x100 * n)) :
    Means (swapBytesInWord w) n :=
  ((means_swap w).trans (h.mul_left 0x100)).trans (means_square n)

theorem littleEndian_append (a b : List UInt8) :
    littleEndian (a ++ b) = littleEndian a + 256 ^ a.length * littleEndian b := by
  induction a with
  | nil => simp [littleEndian]
  | cons c a ih =>
    rw [List.cons_append, littleEndian, littleEndian, ih, List.length_cons, Nat.pow_succ]
    rw [Nat.mul_add, ← Nat.add_assoc, ← Nat.mul_assoc, Nat.mul_comm 256 (256 ^ a.length)]

/-- Bytes behind an even number of bytes stand in the same places of their words. -/
theorem means_append {a : List UInt8} (heven : a.length % 2 = 0) (b : List UInt8) :
    Means (littleEndian a + littleEndian b) (littleEndian (a ++ b)) := by
  rw [littleEndian_append]
  have hpow := standsFor_pow (B := 256) (by decide) a.length (littleEndian b)
  rw [if_pos heven] at hpow
  exact (StandsFor.refl _ _).add hpow.symm

theorem slice_succ (start n : Nat) :
    slice mem ⟨start, n + 1⟩ = mem start :: slice mem ⟨start + 1, n⟩ := by
  rw [Nat.add_comm, slice_append]
  rfl

/-! ## The sum of a region -/

/-- The loop over the words, and what is left behind it. -/
theorem bulkLoop_spec {len ps sum : Nat} (hfit : sum + 0xffff * (len / 2) < 0x100000000) :
    (bulkLoop mem len ps sum).2.2 ≤ sum + 0xffff * (len / 2) ∧
    Means ((bulkLoop mem len ps sum).2.2 +
        if (bulkLoop mem len ps sum).1 > 0 then (mem (bulkLoop mem len ps sum).2.1).toNat else 0)
      (sum + littleEndian (slice mem ⟨ps, len⟩)) := by
  induction len, ps, sum using bulkLoop.induct mem with
  | case1 len ps sum ih =>
    have hlow := (mem ps).toNat_lt
    have hhigh := (mem (ps + 1)).toNat_lt
    have hload : loadU16 mem ps ≤ 0xffff := by
      unfold loadU16
      omega
    have hhalf : (len + 2) / 2 = len / 2 + 1 := by omega
    rw [hhalf] at hfit
    have hsum : (sum + loadU16 mem ps) % 0x100000000 = sum + loadU16 mem ps :=
      Nat.mod_eq_of_lt (by omega)
    rw [bulkLoop, hhalf]
    rw [hsum] at ih ⊢
    obtain ⟨hle, hmeans⟩ := ih (by omega)
    refine ⟨by omega, hmeans.trans ?_⟩
    rw [Nat.add_assoc]
    refine (StandsFor.refl _ sum).add ?_
    have hbytes : littleEndian (slice mem ⟨ps, len + 2⟩) =
        loadU16 mem ps + 0x100 * (0x100 * littleEndian (slice mem ⟨ps + 2, len⟩)) := by
      rw [slice_succ, slice_succ, littleEndian, littleEndian, Nat.mul_add, ← Nat.add_assoc]
      rfl
    rw [hbytes]
    exact (StandsFor.refl _ _).add (means_square _).symm
  | case2 len ps sum hlast =>
    have hloop : bulkLoop mem len ps sum = (len, ps, sum) := by
      rcases len with _ | _ | len
      · rfl
      · rfl
      · exact (hlast len rfl).elim
    rw [hloop]
    dsimp only
    refine ⟨Nat.le_add_right _ _, ?_⟩
    rcases len with _ | _ | len
    · exact .refl _ _
    · rw [slice_succ]
      exact .refl _ _
    · exact (hlast len rfl).elim

/-- Two bytes and the words between them. -/
theorem ends_spec {len ps t1 : Nat} (hfit : 0xffff * (len / 2) ≤ 0xffff0000) (ht1 : t1 < 0x100) :
    foldU32 (foldU32 (((bulkLoop mem len ps 0).2.2 +
        ((if (bulkLoop mem len ps 0).1 > 0 then (mem (bulkLoop mem len ps 0).2.1).toNat else 0) +
          0x100 * t1)) % 0x100000000)) ≤ 0xffff ∧
    Means (foldU32 (foldU32 (((bulkLoop mem len ps 0).2.2 +
        ((if (bulkLoop mem len ps 0).1 > 0 then (mem (bulkLoop mem len ps 0).2.1).toNat else 0) +
          0x100 * t1)) % 0x100000000)))
      (littleEndian (slice mem ⟨ps, len⟩) + 0x100 * t1) := by
  obtain ⟨hle, hmeans⟩ := @bulkLoop_spec mem len ps 0 (by omega)
  rw [Nat.zero_add] at hle hmeans
  revert hle hmeans
  generalize (bulkLoop mem len ps 0).2.2 = sum
  generalize hbyte : (if (bulkLoop mem len ps 0).1 > 0 then
    (mem (bulkLoop mem len ps 0).2.1).toNat else 0) = t0
  intro hle hmeans
  have ht0 : t0 < 0x100 := by
    rw [← hbyte]
    split
    · exact UInt8.toNat_lt _
    · decide
  have hsum : (sum + (t0 + 0x100 * t1)) % 0x100000000 = sum + (t0 + 0x100 * t1) :=
    Nat.mod_eq_of_lt (by omega)
  rw [hsum]
  refine ⟨fold_fold_le (by omega), ((means_fold _).trans (means_fold _)).trans ?_⟩
  rw [← Nat.add_assoc]
  exact hmeans.add (.refl _ _)

/-- The sum of a region stands for its bytes, whether its address is even or odd. -/
theorem lwipStandardChksum_spec {dataptr len : Nat} (hlen : len ≤ 0x20000) :
    lwipStandardChksum mem dataptr len ≤ 0xffff ∧
      Means (lwipStandardChksum mem dataptr len) (littleEndian (slice mem ⟨dataptr, len⟩)) := by
  unfold lwipStandardChksum
  dsimp only
  by_cases hodd : dataptr % 2 = 1
  · rw [decide_eq_true hodd, Bool.true_and, if_pos rfl]
    by_cases hpos : len > 0
    · obtain ⟨rest, rfl⟩ : ∃ rest, len = rest + 1 := ⟨len - 1, by omega⟩
      rw [decide_eq_true hpos, if_pos rfl]
      dsimp only
      obtain ⟨hle, hmeans⟩ := @ends_spec mem rest (dataptr + 1) (mem dataptr).toNat (by omega)
        (UInt8.toNat_lt _)
      refine ⟨swap_le hle, means_swap_swap _ (hmeans.trans ?_)⟩
      -- the words between the words are one byte further on
      rw [slice_succ, littleEndian, Nat.mul_add, Nat.add_comm]
      exact (StandsFor.refl _ _).add (means_square _).symm
    · obtain rfl : len = 0 := by omega
      rw [decide_eq_false hpos, if_neg Bool.false_ne_true]
      obtain ⟨hle, hmeans⟩ := @ends_spec mem 0 dataptr 0 (by omega) (by decide)
      exact ⟨swap_le hle, means_swap_swap _ hmeans⟩
  · rw [decide_eq_false hodd, Bool.false_and, if_neg Bool.false_ne_true,
      if_neg Bool.false_ne_true]
    exact @ends_spec mem len dataptr 0 (by omega) (by decide)

/-! ## The sum of a chain -/

/-- The loop adds the bytes of the chain; between odd lengths the sum has its bytes exchanged. -/
theorem pbufLoop_spec {p : List Pbuf} {acc : Nat} {swapped : Bool} {n : Nat}
    (hacc : acc ≤ 0xffff) (hmeans : Means acc (if swapped then 0x100 * n else n)) :
    (pbufLoop mem p acc swapped).1 ≤ 0xffff ∧
    Means (if (pbufLoop mem p acc swapped).2 then swapBytesInWord (pbufLoop mem p acc swapped).1
        else (pbufLoop mem p acc swapped).1)
      (n + (if swapped then 0x100 else 1) * littleEndian (bytes mem p)) := by
  induction p generalizing acc swapped n with
  | nil =>
    refine ⟨hacc, ?_⟩
    cases swapped with
    | false => exact hmeans
    | true => exact means_swap_swap _ hmeans
  | cons q rest ih =>
    have hq := q.len.toNat_lt
    obtain ⟨hsum, hpart⟩ := @lwipStandardChksum_spec mem q.payload q.len.toNat (by omega)
    have hmod : (acc + lwipStandardChksum mem q.payload q.len.toNat) % 0x100000000 =
        acc + lwipStandardChksum mem q.payload q.len.toNat := Nat.mod_eq_of_lt (by omega)
    have hnext : foldU32 (acc + lwipStandardChksum mem q.payload q.len.toNat) ≤ 0xffff := by
      unfold foldU32
      omega
    have hbytes : littleEndian (bytes mem (q :: rest)) =
        littleEndian (slice mem ⟨q.payload, q.len.toNat⟩) +
          256 ^ q.len.toNat * littleEndian (bytes mem rest) := by
      rw [bytes, List.map_cons, List.flatten_cons, littleEndian_append, length_slice]
      rfl
    have hpow := standsFor_pow (B := 256) (by decide) q.len.toNat (littleEndian (bytes mem rest))
    have hadded := (means_fold _).trans (hmeans.add hpart)
    rw [hbytes, pbufLoop, hmod]
    by_cases hodd : q.len.toNat % 2 ≠ 0
    · rw [if_pos hodd]
      rw [if_neg hodd] at hpow
      cases swapped with
      | false =>
        obtain ⟨hle, hright⟩ := @ih _ (!false)
          (n + littleEndian (slice mem ⟨q.payload, q.len.toNat⟩)) (swap_le hnext)
          ((means_swap _).trans (hadded.mul_left 0x100))
        refine ⟨hle, hright.trans ?_⟩
        simp only [Bool.not_false, if_true, Bool.false_eq_true, if_false, Nat.one_mul]
        rw [← Nat.add_assoc]
        exact (StandsFor.refl _ _).add hpow.symm
      | true =>
        obtain ⟨hle, hright⟩ := @ih _ (!true)
          (n + 0x100 * littleEndian (slice mem ⟨q.payload, q.len.toNat⟩)) (swap_le hnext) (by
            refine means_swap_swap _ (hadded.trans ?_)
            simp only [Bool.not_true, Bool.false_eq_true, if_false, if_true]
            rw [Nat.mul_add]
            exact (StandsFor.refl _ _).add (means_square _).symm)
        refine ⟨hle, hright.trans ?_⟩
        simp only [Bool.not_true, Bool.false_eq_true, if_false, if_true, Nat.one_mul]
        rw [Nat.mul_add, ← Nat.add_assoc]
        refine (StandsFor.refl _ _).add ?_
        exact (means_square _).symm.trans ((hpow.mul_left 0x100).symm)
    · rw [if_neg hodd]
      rw [if_pos (not_not.mp hodd)] at hpow
      obtain ⟨hle, hright⟩ := @ih _ swapped
        (n + (if swapped then 0x100 else 1) * littleEndian (slice mem ⟨q.payload, q.len.toNat⟩))
        hnext (by
          refine hadded.trans ?_
          cases swapped with
          | false =>
            simp only [Bool.false_eq_true, if_false, Nat.one_mul]
            exact .refl _ _
          | true =>
            simp only [if_true]
            rw [Nat.mul_add]
            exact (StandsFor.refl _ _).add (means_square _).symm)
      refine ⟨hle, hright.trans ?_⟩
      rw [Nat.mul_add, ← Nat.add_assoc]
      exact (StandsFor.refl _ _).add ((hpow.mul_left _).symm)

theorem pbufSum_spec {p : List Pbuf} {acc : Nat} (hacc : acc ≤ 0xffff) :
    pbufSum mem p acc ≤ 0xffff ∧
      Means (pbufSum mem p acc) (acc + littleEndian (bytes mem p)) := by
  have hstart : Means acc (if false then 0x100 * acc else acc) := .refl _ _
  obtain ⟨hle, hmeans⟩ := @pbufLoop_spec mem _ _ _ _ hacc hstart
  simp only [Bool.false_eq_true, if_false, Nat.one_mul] at hmeans
  refine ⟨?_, hmeans⟩
  unfold pbufSum
  dsimp only
  split
  · exact swap_le hle
  · exact hle

theorem inetChksumPbuf_eq (mem : Nat → UInt8) (p : List Pbuf) :
    inetChksumPbuf mem p = 0xffff - endAround 0xffff (littleEndian (bytes mem p)) := by
  obtain ⟨hle, hmeans⟩ := @pbufSum_spec mem p 0 (Nat.zero_le _)
  rw [Nat.zero_add] at hmeans
  rw [inetChksumPbuf, hmeans.eq_endAround (by decide) hle]

theorem inetChksum_eq (mem : Nat → UInt8) (dataptr : Nat) (len : UInt16) :
    inetChksum mem dataptr len.toNat =
      0xffff - endAround 0xffff (littleEndian (slice mem ⟨dataptr, len.toNat⟩)) := by
  have hlen := len.toNat_lt
  obtain ⟨hle, hmeans⟩ := @lwipStandardChksum_spec mem dataptr len.toNat (by omega)
  rw [inetChksum, hmeans.eq_endAround (by decide) hle]

/-! ## The checksum of a packet -/

/-- The bytes of the pseudo header. -/
def pseudoHeader (proto : UInt8) (protoLen : UInt16) (src dest : UInt32) : List UInt8 :=
  lowBytes 4 src.toNat ++ (lowBytes 4 dest.toNat ++
    [0, proto, UInt8.ofNat (protoLen.toNat / 0x100), UInt8.ofNat protoLen.toNat])

theorem means_pseudoHeader (proto : UInt8) (protoLen : UInt16) (src dest : UInt32) :
    Means (src.toNat + (dest.toNat +
        (swapBytesInWord proto.toNat + swapBytesInWord protoLen.toNat)))
      (littleEndian (pseudoHeader proto protoLen src dest)) := by
  have hsrc : littleEndian (lowBytes 4 src.toNat) = src.toNat := by
    rw [littleEndian_lowBytes]
    exact Nat.mod_eq_of_lt src.toNat_lt
  have hdest : littleEndian (lowBytes 4 dest.toNat) = dest.toNat := by
    rw [littleEndian_lowBytes]
    exact Nat.mod_eq_of_lt dest.toNat_lt
  have hproto := proto.toNat_lt
  have hlen := protoLen.toNat_lt
  have hwords : Means (swapBytesInWord proto.toNat + swapBytesInWord protoLen.toNat)
      (littleEndian
        [0, proto, UInt8.ofNat (protoLen.toNat / 0x100), UInt8.ofNat protoLen.toNat]) := by
    have hhigh : (UInt8.ofNat (protoLen.toNat / 0x100)).toNat = protoLen.toNat / 0x100 := by
      rw [UInt8.toNat_ofNat']
      exact Nat.mod_eq_of_lt (by omega)
    have hlow : (UInt8.ofNat protoLen.toNat).toNat = protoLen.toNat % 0x100 := UInt8.toNat_ofNat'
    have hvalue : littleEndian
        [0, proto, UInt8.ofNat (protoLen.toNat / 0x100), UInt8.ofNat protoLen.toNat] =
          0x100 * proto.toNat + 0x100 * (0x100 *
            (protoLen.toNat / 0x100 + 0x100 * (protoLen.toNat % 0x100))) := by
      simp only [littleEndian, hhigh, hlow, UInt8.toNat_zero]
      omega
    have hswap : swapBytesInWord protoLen.toNat =
        protoLen.toNat / 0x100 + 0x100 * (protoLen.toNat % 0x100) := by
      unfold swapBytesInWord
      omega
    have hfirst : swapBytesInWord proto.toNat = 0x100 * proto.toNat := by
      unfold swapBytesInWord
      omega
    rw [hvalue, hswap, hfirst]
    exact (StandsFor.refl _ _).add (means_square _).symm
  have hrest := means_append (a := lowBytes 4 dest.toNat) (by rw [lowBytes_length])
    [0, proto, UInt8.ofNat (protoLen.toNat / 0x100), UInt8.ofNat protoLen.toNat]
  rw [hdest] at hrest
  have hall := means_append (a := lowBytes 4 src.toNat) (by rw [lowBytes_length])
    (lowBytes 4 dest.toNat ++
      [0, proto, UInt8.ofNat (protoLen.toNat / 0x100), UInt8.ofNat protoLen.toNat])
  rw [hsrc] at hall
  exact ((StandsFor.refl _ _).add (((StandsFor.refl _ _).add hwords).trans hrest)).trans hall

theorem length_pseudoHeader (proto : UInt8) (protoLen : UInt16) (src dest : UInt32) :
    (pseudoHeader proto protoLen src dest).length = 12 := by
  simp [pseudoHeader, lowBytes_length]

/-- The checksum is determined by the bytes of the pseudo header and of the packet.  It depends
neither on where the pbufs of the packet are nor on where the packet is cut into them. -/
theorem inetChksumPseudo_eq (mem : Nat → UInt8) (p : List Pbuf) (proto : UInt8)
    (protoLen : UInt16) (src dest : UInt32) :
    inetChksumPseudo mem p proto protoLen src dest = 0xffff - endAround 0xffff
      (littleEndian (pseudoHeader proto protoLen src dest ++ bytes mem p)) := by
  have hsrc := src.toNat_lt
  have hdest := dest.toNat_lt
  have hproto := proto.toNat_lt
  have hlen := protoLen.toNat_lt
  -- the addresses
  have haddr : Means (src.toNat % 0x10000 + src.toNat / 0x10000 % 0x10000 +
      dest.toNat % 0x10000 + dest.toNat / 0x10000 % 0x10000) (src.toNat + dest.toNat) := by
    have hsplit := (means_fold src.toNat).add (means_fold dest.toNat)
    unfold foldU32 at hsplit
    have hsum : src.toNat % 0x10000 + src.toNat / 0x10000 % 0x10000 + dest.toNat % 0x10000 +
        dest.toNat / 0x10000 % 0x10000 = src.toNat / 0x10000 + src.toNat % 0x10000 +
          (dest.toNat / 0x10000 + dest.toNat % 0x10000) := by omega
    rwa [hsum]
  have hacc : src.toNat % 0x10000 + src.toNat / 0x10000 % 0x10000 + dest.toNat % 0x10000 +
      dest.toNat / 0x10000 % 0x10000 ≤ 4 * 0xffff := by omega
  unfold inetChksumPseudo inetCksumPseudoBase
  dsimp only
  generalize src.toNat % 0x10000 + src.toNat / 0x10000 % 0x10000 + dest.toNat % 0x10000 +
    dest.toNat / 0x10000 % 0x10000 = acc at haddr hacc
  obtain ⟨hle, hsum⟩ := @pbufSum_spec mem p (foldU32 (foldU32 acc)) (fold_fold_le (by omega))
  have hfirst : swapBytesInWord proto.toNat ≤ 0xffff := swap_le (by omega)
  have hsecond : swapBytesInWord protoLen.toNat ≤ 0xffff := swap_le (by omega)
  have hmod : (pbufSum mem p (foldU32 (foldU32 acc)) + swapBytesInWord proto.toNat) %
      0x100000000 = pbufSum mem p (foldU32 (foldU32 acc)) + swapBytesInWord proto.toNat :=
    Nat.mod_eq_of_lt (by omega)
  rw [hmod, Nat.mod_eq_of_lt (by omega)]
  refine congrArg (0xffff - ·) (StandsFor.eq_endAround ?_ (by decide) (fold_fold_le (by omega)))
  refine ((means_fold _).trans (means_fold _)).trans ?_
  have hall := ((hsum.trans ((((means_fold _).trans (means_fold _)).trans haddr).add
    (StandsFor.refl _ _))).add (StandsFor.refl _ (swapBytesInWord proto.toNat))).add
    (StandsFor.refl _ (swapBytesInWord protoLen.toNat))
  refine hall.trans ?_
  have horder : src.toNat + dest.toNat + littleEndian (bytes mem p) +
      swapBytesInWord proto.toNat + swapBytesInWord protoLen.toNat =
        src.toNat + (dest.toNat + (swapBytesInWord proto.toNat +
          swapBytesInWord protoLen.toNat)) + littleEndian (bytes mem p) := by omega
  rw [horder]
  refine ((means_pseudoHeader proto protoLen src dest).add (StandsFor.refl _ _)).trans ?_
  exact means_append (by rw [length_pseudoHeader]) _

/-! ## From a sender to a receiver -/

theorem littleEndian_pos {l : List UInt8} {b : UInt8} (hmem : b ∈ l) (hb : b ≠ 0) :
    littleEndian l ≠ 0 := by
  induction l with
  | nil => cases hmem
  | cons c rest ih =>
    rw [littleEndian]
    rcases List.mem_cons.mp hmem with rfl | hrest
    · have hpos : b.toNat ≠ 0 := fun hzero => hb (UInt8.toNat_inj.mp hzero)
      omega
    · have := ih hrest
      omega

/-- Two bytes of a packet are worth their word, moved up. -/
theorem littleEndian_word (pre post : List UInt8) (a b : UInt8) :
    littleEndian (pre ++ [a, b] ++ post) = littleEndian pre +
      256 ^ pre.length * (a.toNat + 256 * b.toNat) +
        256 ^ (pre.length + 2) * littleEndian post := by
  rw [littleEndian_append, littleEndian_append, List.length_append]
  simp [littleEndian]

/-- Of the words only the first and the last one are the same modulo `0xffff`. -/
theorem word_modEq_iff {v w : Nat} (hv : v ≤ 0xffff) (hw : w ≤ 0xffff) :
    v ≡ w [MOD 0xffff] ↔ v = w ∨ w = 0 ∧ v = 0xffff ∨ w = 0xffff ∧ v = 0 := by
  unfold Nat.ModEq
  omega

/-- A packet whose checksum has been filled in counts zero. -/
theorem dvd_filled {head tail : List UInt8} (heven : head.length % 2 = 0) {stored : Nat}
    (hstored : stored < 0x10000)
    (hsum : stored ≡ 0xffff - endAround 0xffff (littleEndian (head ++ [0, 0] ++ tail))
      [MOD 0xffff]) :
    0xffff ∣ littleEndian (head ++ lowBytes 2 stored ++ tail) := by
  have hword : lowBytes 2 stored = [UInt8.ofNat stored, UInt8.ofNat (stored / 256)] := rfl
  have hlow : (UInt8.ofNat stored).toNat = stored % 256 := UInt8.toNat_ofNat'
  have hhigh : (UInt8.ofNat (stored / 256)).toNat = stored / 256 := by
    rw [UInt8.toNat_ofNat']
    exact Nat.mod_eq_of_lt (by omega)
  have hvalue : (UInt8.ofNat stored).toNat + 256 * (UInt8.ofNat (stored / 256)).toNat = stored := by
    omega
  have hzero := littleEndian_word head tail 0 0
  have hfilled := littleEndian_word head tail (UInt8.ofNat stored) (UInt8.ofNat (stored / 256))
  rw [hvalue] at hfilled
  have hpow := standsFor_pow (B := 256) (by decide) head.length stored
  rw [if_pos heven] at hpow
  -- the packet with the checksum is the packet without it and the checksum
  have hsplit : littleEndian (head ++ lowBytes 2 stored ++ tail) =
      littleEndian (head ++ [0, 0] ++ tail) + 256 ^ head.length * stored := by
    rw [hword, hfilled, hzero, UInt8.toNat_zero]
    omega
  have hle := endAround_le (M := 0xffff) (by decide) (littleEndian (head ++ [0, 0] ++ tail))
  have hends := (standsFor_endAround 0xffff (littleEndian (head ++ [0, 0] ++ tail))).1
  refine Nat.modEq_zero_iff_dvd.mp ?_
  rw [hsplit]
  refine (hends.symm.add (hpow.1.trans hsum)).trans ?_
  rw [Nat.add_sub_cancel' hle]
  exact Nat.modEq_zero_iff_dvd.mpr dvd_rfl

/-- A packet whose checksum has been filled in is accepted however it is cut, and refused when two
bytes that follow each other have changed; only a word of zeros and a word of ones are the same.
UDP stores `0xffff` for a checksum of zero. -/
theorem inetChksumPseudo_accepts_iff {mem mem' : Nat → UInt8} {p p' : List Pbuf} {proto : UInt8}
    {protoLen : UInt16} {src dest : UInt32} {head tail pre post : List UInt8} {stored : Nat}
    {a b a' b' : UInt8} (hproto : proto ≠ 0) (heven : head.length % 2 = 0)
    (hsent : bytes mem p = head ++ [0, 0] ++ tail)
    (hstored : stored = inetChksumPseudo mem p proto protoLen src dest ∨
      inetChksumPseudo mem p proto protoLen src dest = 0 ∧ stored = 0xffff)
    (hframe : head ++ lowBytes 2 stored ++ tail = pre ++ [a, b] ++ post)
    (hreceived : bytes mem' p' = pre ++ [a', b'] ++ post) :
    inetChksumPseudo mem' p' proto protoLen src dest = 0 ↔
      a' = a ∧ b' = b ∨ [a, b] = [0, 0] ∧ [a', b'] = [0xff, 0xff] ∨
        [a, b] = [0xff, 0xff] ∧ [a', b'] = [0, 0] := by
  have hchk := inetChksumPseudo_eq mem p proto protoLen src dest
  rw [hsent] at hchk
  rw [inetChksumPseudo_eq, hreceived, sub_endAround_eq_zero_iff (by decide)]
  generalize hheader : pseudoHeader proto protoLen src dest = header at hchk ⊢
  have hlength : header.length = 12 := by rw [← hheader, length_pseudoHeader]
  have hmem : proto ∈ header := by simp [← hheader, pseudoHeader]
  have hdvd : 0xffff ∣ littleEndian (header ++ pre ++ [a, b] ++ post) := by
    have hsum : stored ≡ 0xffff - endAround 0xffff (littleEndian (header ++ head ++ [0, 0] ++ tail))
        [MOD 0xffff] := by
      have hassoc : header ++ head ++ [0, 0] ++ tail = header ++ (head ++ [0, 0] ++ tail) := by simp
      rw [hassoc, ← hchk]
      rcases hstored with rfl | ⟨hzero, rfl⟩
      · rfl
      · rw [hzero]
        rfl
    have hlt : stored < 0x10000 := by
      rcases hstored with rfl | ⟨-, rfl⟩
      · omega
      · decide
    have hfilled := dvd_filled (by rw [List.length_append]; omega) hlt hsum
    have hassoc : header ++ head ++ lowBytes 2 stored ++ tail =
        header ++ pre ++ [a, b] ++ post := by
      rw [List.append_assoc, List.append_assoc, ← List.append_assoc head, hframe]
      simp
    rwa [hassoc] at hfilled
  have hpos : littleEndian (header ++ (pre ++ [a', b'] ++ post)) ≠ 0 :=
    littleEndian_pos (List.mem_append_left _ hmem) hproto
  have hassoc : header ++ (pre ++ [a', b'] ++ post) = header ++ pre ++ [a', b'] ++ post := by simp
  rw [hassoc] at hpos ⊢
  have hold := littleEndian_word (header ++ pre) post a b
  have hnew := littleEndian_word (header ++ pre) post a' b'
  have hcoprime : Nat.gcd 0xffff (256 ^ (header ++ pre).length) = 1 :=
    Nat.Coprime.pow_right _ (by decide)
  have ha := a.toNat_lt
  have hb := b.toNat_lt
  have ha' := a'.toNat_lt
  have hb' := b'.toNat_lt
  have hwords : 0xffff ∣ littleEndian (header ++ pre ++ [a', b'] ++ post) ↔
      a'.toNat + 256 * b'.toNat ≡ a.toNat + 256 * b.toNat [MOD 0xffff] := by
    rw [hold] at hdvd
    rw [hnew]
    constructor
    · intro hdvd'
      have hsame := (Nat.modEq_zero_iff_dvd.mpr hdvd').trans (Nat.modEq_zero_iff_dvd.mpr hdvd).symm
      exact Nat.ModEq.cancel_left_of_coprime hcoprime
        ((hsame.add_right_cancel' _).add_left_cancel' _)
    · intro hsame
      refine Nat.modEq_zero_iff_dvd.mp (Nat.ModEq.trans ?_ (Nat.modEq_zero_iff_dvd.mpr hdvd))
      exact ((hsame.mul_left _).add_left _).add_right _
  have hzero : (0 : UInt8).toNat = 0 := rfl
  have hones : (0xff : UInt8).toNat = 0xff := rfl
  rw [hwords, word_modEq_iff (by omega) (by omega)]
  simp only [List.cons.injEq, and_true, ← UInt8.toNat_inj, hzero, hones]
  omega

/-- A packet of seven bytes, without its checksum. -/
def sample : List UInt8 := [0x13, 0x88, 0, 0, 0x41, 0x42, 0x43]

theorem inetChksumPseudo_accepts_sample :
    inetChksumPseudo (fun a => [0, 0x13, 0x88, 0xe4, 0xac, 0x41, 0x42, 0x43].getD a 0)
      [⟨1, 7⟩] 17 7 0x1e01a8c0 0x0101a8c0 = 0 := by
  have hsent : bytes (fun a => sample.getD a 0) [⟨0, 3⟩, ⟨3, 4⟩] =
      [0x13, 0x88] ++ [0, 0] ++ [0x41, 0x42, 0x43] := rfl
  have hframe : [0x13, 0x88] ++ lowBytes 2 (inetChksumPseudo (fun a => sample.getD a 0)
      [⟨0, 3⟩, ⟨3, 4⟩] 17 7 0x1e01a8c0 0x0101a8c0) ++ [0x41, 0x42, 0x43] =
        [0x13, 0x88, 0xe4, 0xac] ++ [0x41, 0x42] ++ [0x43] := by decide
  have hreceived : bytes (fun a => [0, 0x13, 0x88, 0xe4, 0xac, 0x41, 0x42, 0x43].getD a 0)
      [⟨1, 7⟩] = [0x13, 0x88, 0xe4, 0xac] ++ [0x41, 0x42] ++ [0x43] := rfl
  exact (inetChksumPseudo_accepts_iff (by decide) (by decide) hsent (.inl rfl) hframe
    hreceived).mpr (.inl ⟨rfl, rfl⟩)

end Gd32Vw553h.Net
