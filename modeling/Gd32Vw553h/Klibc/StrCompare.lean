/-
  Klibc/StrCompare.lean --- comparing strings (`rt-thread/src/klibc/kstring.c`).

  Source configuration: none of the `RT_KLIBC_USING_LIBC_*` and `RT_KLIBC_USING_USER_*` switches
  is set.  A plain `char` is unsigned.  A string is the memory that begins with it, where the end
  of the list counts as a terminator.

  `difference` is what the three comparisons have in common: the difference of the first two
  characters that differ.  `stringsAgree_iff` says for which strings they agree about its sign,
  and for which `rt_strnlen` stays inside its bound.
-/
import Gd32Vw553h.Klibc.KString
import Mathlib.Tactic.SplitIfs

set_option autoImplicit false

namespace Gd32Vw553h.Klibc

open Gd32Vw553h.Foundation

/-! ## The code -/

/-- `*cs - *ct` -/
def charDiff (cs ct : List UInt8) : Int := ((cs.headD 0).toNat : Int) - (ct.headD 0).toNat

/-- `rt_strcmp` -/
def rtStrcmp : List UInt8 → List UInt8 → Int
  | [], ct => charDiff [] ct
  | c :: cs, ct => if c ≠ 0 ∧ c = ct.headD 0 then rtStrcmp cs ct.tail else charDiff (c :: cs) ct

/-- `rt_memcmp` -/
def rtMemcmp : List UInt8 → List UInt8 → Nat → Int
  | _, _, 0 => 0
  | su1, su2, count + 1 =>
    if charDiff su1 su2 ≠ 0 then charDiff su1 su2 else rtMemcmp su1.tail su2.tail count

/-- The loop of `rt_strnlen` with `sc` at an offset and `left` characters left to `maxlen`: where
it ends, and the offsets that are read. -/
def strnlenFrom (s : List UInt8) (sc : Nat) : (left : Nat) → Nat × List Nat
  | 0 => (sc, [sc])
  | left + 1 =>
    if s.getD sc 0 ≠ 0 then
      let (len, reads) := strnlenFrom s (sc + 1) left
      (len, sc :: reads)
    else (sc, [sc])

/-- `rt_strnlen`: its value, and the offsets that are read. -/
def rtStrnlen (s : List UInt8) (maxlen : Nat) : Nat × List Nat := strnlenFrom s 0 maxlen

/-! ## The first difference -/

/-- The sign of a result. -/
def sign (r : Int) : Ordering := compare r 0

/-- The difference of the first of `n` characters that differ. -/
def difference (cs ct : List UInt8) : Nat → Int
  | 0 => 0
  | n + 1 =>
    if charDiff cs ct ≠ 0 ∨ cs.headD 0 = 0 then charDiff cs ct
    else difference cs.tail ct.tail n

theorem charDiff_eq_zero {cs ct : List UInt8} : charDiff cs ct = 0 ↔ cs.headD 0 = ct.headD 0 := by
  rw [charDiff, Int.sub_eq_zero, Int.ofNat_inj, UInt8.toNat_inj]

theorem charDiff_bounds (cs ct : List UInt8) : -255 ≤ charDiff cs ct ∧ charDiff cs ct ≤ 255 := by
  have hc := (cs.headD 0).toNat_lt
  have hd := (ct.headD 0).toNat_lt
  unfold charDiff
  omega

theorem difference_bounds (cs ct : List UInt8) (n : Nat) :
    -255 ≤ difference cs ct n ∧ difference cs ct n ≤ 255 := by
  induction n generalizing cs ct with
  | zero =>
    rw [difference]
    exact ⟨by decide, by decide⟩
  | succ n ih =>
    rw [difference]
    split
    · exact charDiff_bounds cs ct
    · exact ih cs.tail ct.tail

/-- A string without its first character. -/
theorem cString_head {s : List UInt8} :
    cString s = if s.headD 0 = 0 then [] else s.headD 0 :: cString s.tail := by
  cases s with
  | nil => rfl
  | cons c s =>
    rw [List.headD_cons, List.tail_cons]
    by_cases hc : c = 0
    · simp [cString, hc]
    · simp [cString, hc]

theorem cString_empty {s : List UInt8} (h : s.headD 0 = 0) : cString s = [] := by
  rw [cString_head, if_pos h]

theorem cString_cons {s : List UInt8} (h : s.headD 0 ≠ 0) :
    cString s = s.headD 0 :: cString s.tail := by
  rw [cString_head, if_neg h]

/-- `rt_strncmp` keeps the difference in a signed character. -/
theorem rtStrncmp_eq (cs ct : List UInt8) (n : Nat) :
    rtStrncmp cs ct n = Int8.ofInt (difference cs ct n) := by
  have hchar : ∀ cs ct : List UInt8,
      (cs.headD 0 - ct.headD 0).toInt8 = Int8.ofInt (charDiff cs ct) := by
    intro cs ct
    have hbyte : ∀ c : UInt8, Int8.ofInt c.toNat = c.toInt8 := fun c => by
      apply Int8.toBitVec_inj.mp
      rw [Int8.toBitVec_ofInt, BitVec.ofInt_natCast]
      exact BitVec.ofNat_toNat 8 c.toBitVec
    rw [charDiff, Int8.ofInt_sub, hbyte, hbyte]
    rfl
  induction n generalizing cs ct with
  | zero => rfl
  | succ n ih =>
    rw [rtStrncmp, difference]
    simp only [hchar]
    by_cases hdiff : charDiff cs ct = 0
    · by_cases hend : cs.headD 0 = 0
      · rw [if_pos (.inr hend), if_pos (.inr hend)]
      · rw [if_neg (not_or.mpr ⟨not_not.mpr (by rw [hdiff]; rfl), hend⟩),
          if_neg (not_or.mpr ⟨not_not.mpr hdiff, hend⟩)]
        exact ih cs.tail ct.tail
    · have hkept : Int8.ofInt (charDiff cs ct) ≠ 0 := fun hzero =>
        hdiff (charDiff_eq_zero.mpr (toInt8_sub_eq_zero.mp ((hchar cs ct).trans hzero)))
      rw [if_pos (.inl hkept), if_pos (.inl hdiff)]

/-- `rt_memcmp` up to the first terminator. -/
theorem rtMemcmp_eq (cs ct : List UInt8) (n : Nat) :
    rtMemcmp cs ct (min n (min (cString cs).length (cString ct).length + 1)) =
      difference cs ct n := by
  induction n generalizing cs ct with
  | zero => rw [Nat.zero_min, rtMemcmp, difference]
  | succ n ih =>
    rw [Nat.succ_min_succ, rtMemcmp, difference]
    by_cases hdiff : charDiff cs ct = 0
    · have hheads := charDiff_eq_zero.mp hdiff
      rw [if_neg (not_not.mpr hdiff)]
      by_cases hend : cs.headD 0 = 0
      · rw [if_pos (.inr hend), hdiff, cString_empty hend, List.length_nil, Nat.zero_min,
          Nat.min_zero, rtMemcmp]
      · have hmore : ct.headD 0 ≠ 0 := fun h => hend (hheads.trans h)
        rw [if_neg (not_or.mpr ⟨not_not.mpr hdiff, hend⟩), cString_cons hend,
          cString_cons hmore, List.length_cons, List.length_cons, Nat.succ_min_succ]
        exact ih cs.tail ct.tail
    · rw [if_pos hdiff, if_pos (.inl hdiff)]

theorem rtStrcmp_of_differ {cs ct : List UInt8} (h : charDiff cs ct ≠ 0) :
    rtStrcmp cs ct = charDiff cs ct := by
  cases cs with
  | nil => rfl
  | cons c cs => rw [rtStrcmp, if_neg fun hand => h (charDiff_eq_zero.mpr hand.2)]

/-- `rt_strcmp` on the first characters. -/
theorem rtStrcmp_take (cs ct : List UInt8) (n : Nat) :
    rtStrcmp ((cString cs).take n) ((cString ct).take n) = difference cs ct n := by
  have hhead : ∀ (s : List UInt8) (n : Nat), ((cString s).take (n + 1)).headD 0 = s.headD 0 := by
    intro s n
    by_cases hs : s.headD 0 = 0
    · rw [cString_empty hs, List.take_nil, hs]
      rfl
    · rw [cString_cons hs, List.take_succ_cons, List.headD_cons]
  induction n generalizing cs ct with
  | zero => rfl
  | succ n ih =>
    have hdiff : charDiff ((cString cs).take (n + 1)) ((cString ct).take (n + 1)) =
        charDiff cs ct := by
      rw [charDiff, hhead, hhead, charDiff]
    rw [difference]
    by_cases hend : cs.headD 0 = 0
    · rw [if_pos (.inr hend), ← hdiff, cString_empty hend, List.take_nil, rtStrcmp]
    · by_cases hsame : charDiff cs ct = 0
      · have hheads := charDiff_eq_zero.mp hsame
        have hmore : ct.headD 0 ≠ 0 := fun h => hend (hheads.trans h)
        have htail : ((cString ct).take (n + 1)).tail = (cString ct.tail).take n := by
          rw [cString_cons hmore, List.take_succ_cons, List.tail_cons]
        rw [if_neg (not_or.mpr ⟨not_not.mpr hsame, hend⟩), cString_cons hend,
          List.take_succ_cons, rtStrcmp, hhead, if_pos ⟨hend, hheads⟩, htail]
        exact ih cs.tail ct.tail
      · rw [if_pos (.inl hsame), ← hdiff]
        exact rtStrcmp_of_differ (hdiff ▸ hsame)

/-! ## The sign -/

theorem sign_neg {r : Int} : sign r = .lt ↔ r < 0 := Int.compare_eq_lt

theorem sign_pos {r : Int} : sign r = .gt ↔ 0 < r := Int.compare_eq_gt

/-- The sign of a difference is the order of the two characters. -/
theorem sign_charDiff (cs ct : List UInt8) :
    sign (charDiff cs ct) = compare (cs.headD 0) (ct.headD 0) := by
  rcases Nat.lt_trichotomy (cs.headD 0).toNat (ct.headD 0).toNat with hlt | heq | hgt
  · have hneg : charDiff cs ct < 0 := by unfold charDiff; omega
    rw [sign_neg.mpr hneg, Std.compare_eq_lt.mpr (UInt8.lt_iff_toNat_lt.mpr hlt)]
  · have hsame := UInt8.toNat_inj.mp heq
    rw [charDiff_eq_zero.mpr hsame, hsame, Std.ReflOrd.compare_self]
    rfl
  · have hpos : 0 < charDiff cs ct := by unfold charDiff; omega
    rw [sign_pos.mpr hpos, Std.compare_eq_gt.mpr (UInt8.lt_iff_toNat_lt.mpr hgt)]

/-- A string that is over. -/
theorem sign_charDiff_over {cs ct : List UInt8} (h : cs.headD 0 = 0) :
    sign (charDiff cs ct) = compare [] (cString ct) := by
  by_cases hct : ct.headD 0 = 0
  · rw [sign_charDiff, cString_empty hct, h, hct]
    rfl
  · rw [sign_charDiff, h, Std.compare_eq_lt.mpr (UInt8.pos_iff_ne_zero.mpr hct),
      cString_cons hct]
    rfl

/-- `rt_strcmp` orders the strings as lists of unsigned characters. -/
theorem sign_rtStrcmp (cs ct : List UInt8) :
    sign (rtStrcmp cs ct) = compare (cString cs) (cString ct) := by
  induction cs generalizing ct with
  | nil => exact sign_charDiff_over rfl
  | cons c cs ih =>
    by_cases hc : c = 0
    · rw [rtStrcmp, if_neg fun hand => hand.1 hc, cString_empty (s := c :: cs) hc]
      exact sign_charDiff_over hc
    · have hcString : cString (c :: cs) = c :: cString cs := cString_cons hc
      by_cases hsame : c = ct.headD 0
      · have hct : ct.headD 0 ≠ 0 := hsame ▸ hc
        rw [rtStrcmp, if_pos ⟨hc, hsame⟩, ih, hcString, cString_cons hct, ← hsame,
          List.compare_cons_cons, Std.ReflOrd.compare_self]
        rfl
      · rw [rtStrcmp, if_neg fun hand => hsame hand.2, sign_charDiff, hcString, List.headD_cons]
        have hne : compare c (ct.headD 0) ≠ .eq := fun h => hsame (Std.LawfulEqCmp.eq_of_compare h)
        by_cases hct : ct.headD 0 = 0
        · rw [cString_empty hct, hct, Std.compare_eq_gt.mpr (UInt8.pos_iff_ne_zero.mpr hc)]
          rfl
        · rw [cString_cons hct, List.compare_cons_cons]
          cases hcmp : compare c (ct.headD 0) with
          | lt => rfl
          | eq => exact absurd hcmp hne
          | gt => rfl

/-- The signed character that keeps a difference. -/
theorem kept_eq {d : Int} (hbounds : -255 ≤ d ∧ d ≤ 255) :
    (Int8.ofInt d).toInt = if d < -128 then d + 256 else if 127 < d then d - 256 else d := by
  have hsize : Int8.size = 256 := rfl
  rw [Int8.toInt_ofInt, hsize, Int.bmod_def]
  split_ifs <;> omega

/-- It has the sign of the difference when the difference fits. -/
theorem sign_kept {d : Int} (hbounds : -255 ≤ d ∧ d ≤ 255) :
    sign (Int8.ofInt d).toInt = sign d ↔ -128 ≤ d ∧ d ≤ 127 := by
  rw [kept_eq hbounds]
  by_cases hlow : d < -128
  · rw [if_pos hlow, sign_pos.mpr (by omega), sign_neg.mpr (by omega)]
    exact iff_of_false (fun h => by cases h) (by omega)
  · by_cases hhigh : 127 < d
    · rw [if_neg hlow, if_pos hhigh, sign_neg.mpr (by omega), sign_pos.mpr (by omega)]
      exact iff_of_false (fun h => by cases h) (by omega)
    · rw [if_neg hlow, if_neg hhigh]
      exact iff_of_true rfl (by omega)

/-! ## The strings on which they agree -/

/-- The character at an offset: behind the terminator there are only more of them. -/
def charAt (s : List UInt8) (i : Nat) : UInt8 := (cString s).getD i 0

/-- The first characters, among the first `n`, in which two strings differ are at most 127 apart
upwards and 128 downwards. -/
def Near (a b : List UInt8) (n : Nat) : Prop :=
  ∀ i < n, (∀ j < i, charAt a j = charAt b j) →
    -128 ≤ ((charAt a i).toNat : Int) - (charAt b i).toNat ∧
      ((charAt a i).toNat : Int) - (charAt b i).toNat ≤ 127

theorem charAt_zero (s : List UInt8) : charAt s 0 = s.headD 0 := by
  by_cases hs : s.headD 0 = 0
  · rw [charAt, cString_empty hs, hs]
    rfl
  · rw [charAt, cString_cons hs]
    rfl

theorem charAt_over {s : List UInt8} (h : s.headD 0 = 0) (i : Nat) : charAt s i = 0 := by
  rw [charAt, cString_empty h]
  rfl

theorem charAt_succ {s : List UInt8} (h : s.headD 0 ≠ 0) (i : Nat) :
    charAt s (i + 1) = charAt s.tail i := by
  rw [charAt, cString_cons h, List.getD_cons_succ, charAt]

/-- `Near` is a bound on the first difference. -/
theorem near_iff (a b : List UInt8) (n : Nat) :
    Near a b n ↔ -128 ≤ difference a b n ∧ difference a b n ≤ 127 := by
  induction n generalizing a b with
  | zero =>
    rw [difference]
    exact iff_of_true (fun i hi => absurd hi (Nat.not_lt_zero i)) ⟨by decide, by decide⟩
  | succ n ih =>
    have hfirst : Near a b (n + 1) → -128 ≤ charDiff a b ∧ charDiff a b ≤ 127 := by
      intro hnear
      have h := hnear 0 (Nat.succ_pos n) fun j hj => absurd hj (Nat.not_lt_zero j)
      rwa [charAt_zero, charAt_zero] at h
    rw [difference]
    by_cases hdiff : charDiff a b = 0
    · have hheads := charDiff_eq_zero.mp hdiff
      by_cases hend : a.headD 0 = 0
      · rw [if_pos (.inr hend), hdiff]
        refine iff_of_true (fun i _ _ => ?_) ⟨by decide, by decide⟩
        rw [charAt_over hend, charAt_over (hheads ▸ hend)]
        exact ⟨by decide, by decide⟩
      · have hmore : b.headD 0 ≠ 0 := fun h => hend (hheads.trans h)
        rw [if_neg (not_or.mpr ⟨not_not.mpr hdiff, hend⟩), ← ih]
        constructor
        · intro hnear i hi hbefore
          have h := hnear (i + 1) (Nat.succ_lt_succ hi) fun j hj => by
            cases j with
            | zero => rw [charAt_zero, charAt_zero, hheads]
            | succ j =>
              rw [charAt_succ hend, charAt_succ hmore]
              exact hbefore j (Nat.lt_of_succ_lt_succ hj)
          rwa [charAt_succ hend, charAt_succ hmore] at h
        · intro hnear i hi hbefore
          cases i with
          | zero =>
            rw [charAt_zero, charAt_zero, hheads, Int.sub_self]
            exact ⟨by decide, by decide⟩
          | succ i =>
            rw [charAt_succ hend, charAt_succ hmore]
            refine hnear i (Nat.lt_of_succ_lt_succ hi) fun j hj => ?_
            have h := hbefore (j + 1) (Nat.succ_lt_succ hj)
            rwa [charAt_succ hend, charAt_succ hmore] at h
    · rw [if_pos (.inl hdiff)]
      refine ⟨hfirst, fun hbounds i _ hbefore => ?_⟩
      cases i with
      | zero => rwa [charAt_zero, charAt_zero]
      | succ i =>
        have h := hbefore 0 (Nat.succ_pos i)
        rw [charAt_zero, charAt_zero] at h
        exact absurd (charDiff_eq_zero.mpr h) hdiff

/-! ## The bounded length -/

/-- The loop of `rt_strnlen` reads on until it has `maxlen` characters or the terminator, and
the character where it ends too. -/
theorem strnlenFrom_eq (s : List UInt8) (sc left : Nat) :
    strnlenFrom s sc left =
      (sc + min left (cString (s.drop sc)).length,
        List.range' sc (min left (cString (s.drop sc)).length + 1)) := by
  have hhead : ∀ sc : Nat, (s.drop sc).headD 0 = s.getD sc 0 := fun sc => by
    rw [List.headD_eq_head?_getD, List.head?_drop, List.getD_eq_getElem?_getD]
  induction left generalizing sc with
  | zero => rw [strnlenFrom, Nat.zero_min, Nat.zero_add]; rfl
  | succ left ih =>
    rw [strnlenFrom]
    by_cases hend : s.getD sc 0 = 0
    · rw [if_neg (not_not.mpr hend), cString_empty ((hhead sc).trans hend), List.length_nil,
        Nat.min_zero]
      rfl
    · have hlength : (cString (s.drop sc)).length = (cString (s.drop (sc + 1))).length + 1 := by
        rw [cString_cons (hhead sc ▸ hend), List.length_cons, List.tail_drop]
      rw [if_pos hend, ih (sc + 1), hlength, Nat.succ_min_succ]
      refine Prod.ext ?_ ?_
      · exact Nat.succ_add_eq_add_succ sc _
      · exact (List.range'_succ ..).symm

theorem rtStrnlen_eq (s : List UInt8) (maxlen : Nat) :
    rtStrnlen s maxlen =
      (min maxlen (cString s).length, List.range (min maxlen (cString s).length + 1)) := by
  rw [rtStrnlen, strnlenFrom_eq, List.drop_zero, Nat.zero_add, List.range_eq_range']

/-- It stays inside its bound on shorter strings. -/
theorem rtStrnlen_reads (s : List UInt8) (maxlen : Nat) :
    (∀ i ∈ (rtStrnlen s maxlen).2, i < maxlen) ↔ (cString s).length < maxlen := by
  rw [rtStrnlen_eq]
  constructor
  · intro hreads
    have hlast := hreads (min maxlen (cString s).length) (List.mem_range.mpr (Nat.lt_succ_self _))
    omega
  · intro hshort i hi
    have hread := List.mem_range.mp hi
    omega

/-! ## The routines agree -/

/-- The comparisons of `a` and `b` agree over `n` characters, and the length of `s` is found
within `maxlen`. -/
structure StringsAgree (a b s : List UInt8) (n maxlen : Nat) : Prop where
  /-- `rt_strcmp` has the order of the bytes as unsigned characters. -/
  strcmp : sign (rtStrcmp a b) = compare (cString a) (cString b)
  /-- `rt_strncmp` has the sign of `rt_strcmp` on the first `n` characters. -/
  strncmp : sign (rtStrncmp a b n).toInt =
    sign (rtStrcmp ((cString a).take n) ((cString b).take n))
  /-- `rt_memcmp` up to the first terminator agrees with `rt_strcmp`. -/
  memcmp_strcmp : sign (rtMemcmp a b (min n (min (cString a).length (cString b).length + 1))) =
    sign (rtStrcmp ((cString a).take n) ((cString b).take n))
  /-- It agrees with `rt_strncmp`. -/
  memcmp_strncmp : sign (rtMemcmp a b (min n (min (cString a).length (cString b).length + 1))) =
    sign (rtStrncmp a b n).toInt
  /-- `rt_strnlen` returns the smaller of its bound and the length. -/
  strnlen : (rtStrnlen s maxlen).1 = min maxlen (cString s).length
  /-- It reads inside its bound only. -/
  strnlen_reads : ∀ i ∈ (rtStrnlen s maxlen).2, i < maxlen

/-- They agree exactly when the first difference fits in a signed character and the string is
shorter than the bound. -/
theorem stringsAgree_iff (a b s : List UInt8) (n maxlen : Nat) :
    StringsAgree a b s n maxlen ↔ Near a b n ∧ (cString s).length < maxlen := by
  have hstrncmp : sign (rtStrncmp a b n).toInt = sign (difference a b n) ↔ Near a b n := by
    rw [rtStrncmp_eq, sign_kept (difference_bounds a b n), near_iff]
  constructor
  · intro hagree
    have hsign := hagree.strncmp
    rw [rtStrcmp_take] at hsign
    exact ⟨hstrncmp.mp hsign, (rtStrnlen_reads s maxlen).mp hagree.strnlen_reads⟩
  · rintro ⟨hnear, hshort⟩
    have hsign := hstrncmp.mpr hnear
    exact {
      strcmp := sign_rtStrcmp a b
      strncmp := by rw [rtStrcmp_take, hsign]
      memcmp_strcmp := by rw [rtMemcmp_eq, rtStrcmp_take]
      memcmp_strncmp := by rw [rtMemcmp_eq, hsign]
      strnlen := by rw [rtStrnlen_eq]
      strnlen_reads := (rtStrnlen_reads s maxlen).mpr hshort }

/-- `rt_strncmp` calls `"\xe4"` smaller than `"a"`, and `rt_strnlen` reads the third character
of `"ab"` for a bound of two. -/
theorem not_stringsAgree :
    sign (rtStrncmp [0xe4, 0] [0x61, 0] 1).toInt = .lt ∧
      sign (rtStrcmp ((cString [0xe4, 0]).take 1) ((cString [0x61, 0]).take 1)) = .gt ∧
      2 ∈ (rtStrnlen [0x61, 0x62, 0] 2).2 ∧
      ¬StringsAgree [0xe4, 0] [0x61, 0] [0x61, 0x62, 0] 1 2 := by
  have hstrncmp : sign (rtStrncmp [0xe4, 0] [0x61, 0] 1).toInt = .lt := by decide
  have hstrcmp : sign (rtStrcmp ((cString [0xe4, 0]).take 1) ((cString [0x61, 0]).take 1)) =
      .gt := by decide
  refine ⟨hstrncmp, hstrcmp, by decide, fun hagree => ?_⟩
  have hsame := hagree.strncmp
  rw [hstrncmp, hstrcmp] at hsame
  cases hsame

end Gd32Vw553h.Klibc
