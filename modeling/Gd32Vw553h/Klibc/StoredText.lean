/-
  Klibc/StoredText.lean --- where the text of a format is stored.

  `rtVsnprintf_stored` gives the memory that a call leaves: as much of the text as fits and a
  NUL, in one piece.  If the pointer that counts the characters runs past the end of the
  address space, the byte at address zero is overwritten (`rtVsnprintf_wraps`).
-/
import Gd32Vw553h.Klibc.FormatText

set_option autoImplicit false

namespace Gd32Vw553h.Klibc

open Gd32Vw553h.Foundation

variable {fmt : List UInt8} {args : List VaArg} {S : List UInt8} {buf size : BitVec 32}

/-- The value that `rt_vsnprintf` returns for a text of `n` characters. -/
def countedInt (n : Nat) : Int := (BitVec.ofNat 32 n).toInt

theorem rtVsnprintf_eq (h : Produces fmt args S) (buf size : BitVec 32) (mem : BitVec 32 → UInt8) :
    rtVsnprintf buf size fmt args mem = some (countedInt S.length,
      terminate (bufferEnd buf size).2 ((⟨buf, (bufferEnd buf size).1, mem⟩ : Out).puts S)) := by
  have hcount : ((⟨buf, (bufferEnd buf size).1, mem⟩ : Out).puts S).pos - buf =
      BitVec.ofNat 32 S.length := by
    rw [Sink.puts_pos_eq, BitVec.add_comm, BitVec.add_sub_cancel]
  unfold rtVsnprintf
  dsimp only
  rw [h, Option.map_some, hcount]
  rfl

/-- A buffer that does not reach the end of the address space. -/
theorem bufferEnd_inside (h : buf.toNat + size.toNat < 2 ^ 32) :
    bufferEnd buf size = (buf + size, size) ∧ (buf + size).toNat = buf.toNat + size.toNat := by
  have hsum : (buf + size).toNat = buf.toNat + size.toNat := by
    rw [BitVec.toNat_add, Nat.mod_eq_of_lt h]
  refine ⟨if_neg ?_, hsum⟩
  rw [BitVec.lt_def, hsum]
  omega

/-- A writer with too little room stores what fits. -/
theorem puts_cut {mem : BitVec 32 → UInt8} (h : buf.toNat + size.toNat < 2 ^ 32)
    (hS : buf.toNat + S.length < 2 ^ 32) (hlong : size.toNat ≤ S.length) :
    ((⟨buf, buf + size, mem⟩ : Out).puts S).mem = store mem buf (S.take size.toNat) := by
  have hsum := (bufferEnd_inside h).2
  have hlength : (S.take size.toNat).length = size.toNat := by
    rw [List.length_take, Nat.min_eq_left hlong]
  have hpos : ((⟨buf, buf + size, mem⟩ : Out).puts (S.take size.toNat)).pos.toNat =
      buf.toNat + size.toNat := by
    rw [Sink.puts_pos (by rw [hlength]; exact h), hlength]
  funext a
  calc ((⟨buf, buf + size, mem⟩ : Out).puts S).mem a
      = (((⟨buf, buf + size, mem⟩ : Out).puts (S.take size.toNat)).puts
          (S.drop size.toNat)).mem a := by
        rw [← Sink.puts_append, List.take_append_drop]
    _ = ((⟨buf, buf + size, mem⟩ : Out).puts (S.take size.toNat)).mem a := by
        refine Sink.puts_mem_outside ?_ ?_
        · rw [hpos, List.length_drop]
          omega
        · rw [hpos, Sink.puts_stop]
          simp only [hsum]
          omega
    _ = store mem buf (S.take size.toNat) a := by
        rw [Sink.puts_store (by simp only [hlength, hsum]; exact Nat.le_refl _)]

/-- The memory after a call with room for something. -/
theorem rtVsnprintf_stored (buf size : BitVec 32) (hfmt : Produces fmt args S)
    (hpos : 0 < size.toNat) (h : buf.toNat + size.toNat < 2 ^ 32) (hS : buf.toNat + S.length < 2 ^ 32)
    (mem : BitVec 32 → UInt8) :
    rtVsnprintf buf size fmt args mem =
      some (countedInt S.length, store mem buf (S.take (size.toNat - 1) ++ [0])) := by
  obtain ⟨hend, hsum⟩ := bufferEnd_inside h
  have hsize : (0 : BitVec 32) < size := BitVec.lt_def.mpr hpos
  have hat : ((⟨buf, buf + size, mem⟩ : Out).puts S).pos.toNat = buf.toNat + S.length :=
    Sink.puts_pos hS
  have hstop : ((⟨buf, buf + size, mem⟩ : Out).puts S).stop = buf + size := Sink.puts_stop _ _
  rw [rtVsnprintf_eq hfmt, hend]
  refine congrArg (fun m => some (countedInt S.length, m)) ?_
  rw [terminate, if_pos hsize]
  by_cases hfits : S.length < size.toNat
  · rw [if_pos (by rw [BitVec.lt_def, hat, hstop]; omega),
      Sink.puts_store (by simp only [hsum]; omega), Sink.puts_pos_eq,
      List.take_of_length_le (by omega), store_append]
    rfl
  · have hinside : size.toNat - 1 < S.length := by omega
    have hlast : S.take size.toNat = S.take (size.toNat - 1) ++ [S[size.toNat - 1]] := by
      rw [List.take_append_getElem, Nat.sub_add_cancel hpos]
    have hlength : (S.take (size.toNat - 1)).length = size.toNat - 1 := by
      rw [List.length_take]
      omega
    have hplace : buf + size - 1 = buf + BitVec.ofNat 32 (S.take (size.toNat - 1)).length := by
      apply BitVec.eq_of_toNat_eq
      have hone : (1 : BitVec 32).toNat = 1 := rfl
      rw [hlength, offset_toNat (by omega), BitVec.toNat_sub, hone, hsum]
      omega
    rw [if_neg (by rw [BitVec.lt_def, hat, hstop]; omega), hstop, puts_cut h hS (by omega), hlast,
      hplace, store_replace]

/-- The memory after a call with no room. -/
theorem rtVsnprintf_noRoom (buf : BitVec 32) (hfmt : Produces fmt args S)
    (hS : buf.toNat + S.length ≤ 2 ^ 32) (mem : BitVec 32 → UInt8) :
    rtVsnprintf buf 0 fmt args mem = some (countedInt S.length, mem) := by
  have hend : bufferEnd buf 0 = (buf, 0) := by
    have hzero : buf + 0 = buf := BitVec.add_zero buf
    rw [(@bufferEnd_inside buf 0 buf.isLt).1, hzero]
  have hnone : ∀ T : List UInt8, buf.toNat + T.length < 2 ^ 32 →
      ((⟨buf, buf, mem⟩ : Out).puts T).mem = mem := fun T hT =>
    funext fun a => Sink.puts_mem_outside hT (Nat.lt_or_ge a.toNat buf.toNat)
  rw [rtVsnprintf_eq hfmt, hend]
  refine congrArg (fun m => some (countedInt S.length, m)) ?_
  rw [terminate, if_neg (BitVec.lt_irrefl 0)]
  rcases List.eq_nil_or_concat S with rfl | ⟨T, c, rfl⟩
  · rfl
  · -- the last character may stand at the last address
    rw [List.concat_eq_append, List.length_append, List.length_singleton] at hS
    have hpos : ((⟨buf, buf, mem⟩ : Out).puts T).pos.toNat = buf.toNat + T.length :=
      Sink.puts_pos (by simp only; omega)
    have hlow : ¬ ((⟨buf, buf, mem⟩ : Out).puts T).pos < ((⟨buf, buf, mem⟩ : Out).puts T).stop := by
      rw [BitVec.lt_def, hpos, Sink.puts_stop]
      simp only
      omega
    rw [List.concat_eq_append, Sink.puts_append, Sink.puts_cons, Sink.puts_nil, Sink.put,
      if_neg hlow]
    exact hnone T (by omega)

/-- If the pointer runs past the end of the address space, what is at address zero afterwards
does not depend on what was there. -/
theorem rtVsnprintf_wraps (buf size : BitVec 32) (hfmt : Produces fmt args S) (hbuf : 0 < buf.toNat)
    (h : buf.toNat + size.toNat < 2 ^ 32)
    (hS : 2 ^ 32 ≤ buf.toNat + S.length ∧ (size.toNat = 0 → 2 ^ 32 < buf.toNat + S.length)) :
    ∃ c, ∀ mem, ∃ mem', rtVsnprintf buf size fmt args mem = some (countedInt S.length, mem') ∧
      mem' 0 = c := by
  obtain ⟨hend, hsum⟩ := bufferEnd_inside h
  have hstop : (0 : BitVec 32) < buf + size := by
    rw [BitVec.lt_def, hsum]
    exact Nat.lt_of_lt_of_le hbuf (Nat.le_add_right _ _)
  refine ⟨terminate size ((⟨buf, buf + size, fun _ => 0⟩ : Out).puts S) 0, fun mem =>
    ⟨terminate size ((⟨buf, buf + size, mem⟩ : Out).puts S), ?_, ?_⟩⟩
  · rw [rtVsnprintf_eq hfmt, hend]
  · have hpos : ∀ mem : BitVec 32 → UInt8, ((⟨buf, buf + size, mem⟩ : Out).puts S).pos =
        buf + BitVec.ofNat 32 S.length := fun mem => Sink.puts_pos_eq _ _
    have hend : ∀ mem : BitVec 32 → UInt8, ((⟨buf, buf + size, mem⟩ : Out).puts S).stop =
        buf + size := fun mem => Sink.puts_stop _ _
    simp only [terminate, hpos, hend]
    by_cases hexact : buf.toNat + S.length = 2 ^ 32
    · -- the NUL is stored at address zero
      have hzero : buf + BitVec.ofNat 32 S.length = 0 := by
        apply BitVec.eq_of_toNat_eq
        rw [BitVec.toNat_add, BitVec.toNat_ofNat, Nat.add_mod_mod, hexact]
        rfl
      have hsize : (0 : BitVec 32) < size := by
        rw [BitVec.lt_def]
        exact Nat.pos_of_ne_zero fun hnone => absurd (hS.2 hnone) (by omega)
      rw [hzero, if_pos hsize, if_pos hstop, if_pos hsize, if_pos hstop, Function.update_self,
        Function.update_self]
    · have hmem := Sink.puts_wraps buf S hstop (by omega) mem (fun _ => 0)
      have hupdate : ∀ p : BitVec 32,
          Function.update ((⟨buf, buf + size, mem⟩ : Out).puts S).mem p 0 0 =
            Function.update ((⟨buf, buf + size, fun _ => 0⟩ : Out).puts S).mem p 0 0 := by
        intro p
        by_cases hp : 0 = p
        · rw [← hp, Function.update_self, Function.update_self]
        · rw [Function.update_of_ne hp, Function.update_of_ne hp, hmem]
      split
      · split
        · exact hupdate _
        · exact hupdate _
      · exact hmem

end Gd32Vw553h.Klibc
