/-
  Foundation/Sink.lean --- bounded output through a pointer that keeps counting.

  A writer stores a character only while its pointer is below the stop address, and
  moves the pointer on in either case, so that at the end the pointer tells how long the
  whole output would have been.  `Emits f` says that `f` puts a character sequence which
  does not depend on where the writer stands; it composes.  As long as the pointer does
  not wrap around, a sequence lands at the place it starts from, cut at the stop address.
-/
import Mathlib.Algebra.Ring.Nat
import Mathlib.Data.List.Basic
import Mathlib.Logic.Function.Basic

set_option autoImplicit false

namespace Gd32Vw553h.Foundation

/-- The pointer of a writer with `w`-bit addresses, where it has to stop, and the memory. -/
structure Sink (w : Nat) (α : Type) where
  pos : BitVec w
  stop : BitVec w
  mem : BitVec w → α

namespace Sink

variable {w : Nat} {α : Type}

/-- Store a character if there is room, and move on. -/
def put (s : Sink w α) (c : α) : Sink w α :=
  { s with
    mem := if s.pos < s.stop then Function.update s.mem s.pos c else s.mem
    pos := s.pos + 1 }

/-- A sequence, one character after the other. -/
def puts (s : Sink w α) (cs : List α) : Sink w α := cs.foldl put s

@[simp] theorem puts_nil (s : Sink w α) : s.puts [] = s := rfl

theorem puts_cons (s : Sink w α) (c : α) (cs : List α) : s.puts (c :: cs) = (s.put c).puts cs :=
  rfl

theorem puts_append (s : Sink w α) (cs ds : List α) : s.puts (cs ++ ds) = (s.puts cs).puts ds := by
  simp [puts]

@[simp] theorem put_stop (s : Sink w α) (c : α) : (s.put c).stop = s.stop := rfl

@[simp] theorem puts_stop (s : Sink w α) (cs : List α) : (s.puts cs).stop = s.stop := by
  induction cs generalizing s with
  | nil => rfl
  | cons c cs ih => rw [puts_cons, ih, put_stop]

/-! ## Output that does not depend on the writer

The lemmas below gather the pieces of a writer into one sequence. -/

/-- A step that always puts the same sequence. -/
def Emits (f : Sink w α → Sink w α) : Prop := ∃ cs, ∀ s, f s = s.puts cs

theorem put_eq_puts (s : Sink w α) (c : α) : s.put c = s.puts [c] := rfl

theorem puts_puts (s : Sink w α) (cs ds : List α) : (s.puts cs).puts ds = s.puts (cs ++ ds) :=
  (puts_append s cs ds).symm

/-- Whether a piece is put may depend on anything but the writer. -/
theorem ite_puts {p : Prop} [Decidable p] (s : Sink w α) (cs : List α) :
    (if p then s.puts cs else s) = s.puts (if p then cs else []) := by
  split <;> rfl

theorem Emits.puts (cs : List α) : Emits (fun s : Sink w α => s.puts cs) := ⟨cs, fun _ => rfl⟩

/-! ## Where the sequence lands -/

theorem toNat_add_one {a : BitVec w} {n : Nat} (h : a.toNat + (n + 1) < 2 ^ w) :
    (a + 1).toNat = a.toNat + 1 := by
  have hone : 1 < 2 ^ w := by omega
  have hval : (1 : BitVec w).toNat = 1 := Nat.mod_eq_of_lt hone
  rw [BitVec.toNat_add, hval, Nat.mod_eq_of_lt (by omega)]

/-- The pointer counts every character, stored or not. -/
theorem puts_pos {s : Sink w α} {cs : List α} (h : s.pos.toNat + cs.length < 2 ^ w) :
    (s.puts cs).pos.toNat = s.pos.toNat + cs.length := by
  induction cs generalizing s with
  | nil => rfl
  | cons c cs ih =>
    have hstep : (s.put c).pos.toNat = s.pos.toNat + 1 := toNat_add_one h
    rw [List.length_cons] at h ⊢
    rw [puts_cons, ih (by omega), hstep]
    omega

/-- An address below the pointer, or at or behind the stop address, keeps what it holds. -/
theorem puts_mem_outside {s : Sink w α} {cs : List α} {a : BitVec w}
    (h : s.pos.toNat + cs.length < 2 ^ w) (ha : a.toNat < s.pos.toNat ∨ s.stop.toNat ≤ a.toNat) :
    (s.puts cs).mem a = s.mem a := by
  induction cs generalizing s with
  | nil => rfl
  | cons c cs ih =>
    have hstep : (s.put c).pos.toNat = s.pos.toNat + 1 := toNat_add_one h
    rw [List.length_cons] at h
    rw [puts_cons, ih (by omega) (by rw [put_stop]; omega)]
    by_cases hroom : s.pos < s.stop
    · have hne : a ≠ s.pos := by
        intro heq
        subst heq
        have := BitVec.lt_def.mp hroom
        omega
      simp [Sink.put, hroom, Function.update_of_ne hne]
    · simp [Sink.put, hroom]

/-- The character at an offset below the stop address is stored there. -/
theorem puts_mem_inside {s : Sink w α} {cs : List α} {a : BitVec w}
    (h : s.pos.toNat + cs.length < 2 ^ w) {i : Nat} (hi : i < cs.length)
    (ha : a.toNat = s.pos.toNat + i) (hroom : a.toNat < s.stop.toNat) :
    (s.puts cs).mem a = cs[i] := by
  induction cs generalizing s i with
  | nil => cases hi
  | cons c cs ih =>
    have hstep : (s.put c).pos.toNat = s.pos.toNat + 1 := toNat_add_one h
    rw [List.length_cons] at h hi
    rw [puts_cons]
    cases i with
    | zero =>
      have heq : a = s.pos := BitVec.eq_of_toNat_eq ha
      rw [puts_mem_outside (by omega) (.inl (by omega))]
      have hlt : s.pos < s.stop := by
        rw [BitVec.lt_def, ← heq]
        exact hroom
      rw [heq]
      simp [Sink.put, hlt]
    | succ i =>
      have hbelow : a.toNat = (s.put c).pos.toNat + i := by omega
      rw [ih (by omega) (Nat.lt_of_succ_lt_succ hi) hbelow hroom]
      rfl

/-! ## Telling sequences apart -/

theorem puts_pos_eq (s : Sink w α) (cs : List α) :
    (s.puts cs).pos = s.pos + BitVec.ofNat w cs.length := by
  induction cs generalizing s with
  | nil => exact (BitVec.add_zero s.pos).symm
  | cons c cs ih =>
    have hone : BitVec.ofNat w (cs.length + 1) = 1 + BitVec.ofNat w cs.length := by
      rw [Nat.add_comm, BitVec.ofNat_add]
      rfl
    rw [puts_cons, ih, List.length_cons, hone, ← BitVec.add_assoc]
    rfl

/-- Sequences that no writer tells apart behind the same beginning are the same. -/
theorem puts_cancel {P S T : List α} (mem : BitVec w → α)
    (h : ∀ s : Sink w α, s.puts (P ++ S) = s.puts (P ++ T)) (hS : S.length < 2 ^ w)
    (hT : T.length < 2 ^ w) : S = T := by
  -- a writer that stands at address zero after the beginning
  have hsame := h ⟨-(BitVec.ofNat w P.length), BitVec.allOnes w, mem⟩
  rw [puts_append, puts_append] at hsame
  have hpos : ((⟨-(BitVec.ofNat w P.length), BitVec.allOnes w, mem⟩ : Sink w α).puts P).pos = 0 := by
    rw [puts_pos_eq]
    exact BitVec.add_left_neg _
  have hstop : ((⟨-(BitVec.ofNat w P.length), BitVec.allOnes w, mem⟩ : Sink w α).puts P).stop =
      BitVec.allOnes w :=
    puts_stop _ _
  generalize (⟨-(BitVec.ofNat w P.length), BitVec.allOnes w, mem⟩ : Sink w α).puts P = s at *
  have hzero : s.pos.toNat = 0 := by
    rw [hpos]
    rfl
  have hlengths : S.length = T.length := by
    have hends := congrArg (fun s : Sink w α => s.pos.toNat) hsame
    rw [puts_pos (by omega), puts_pos (by omega)] at hends
    omega
  refine List.ext_getElem hlengths fun i hi hi' => ?_
  have haddress : (BitVec.ofNat w i).toNat = i := by
    rw [BitVec.toNat_ofNat, Nat.mod_eq_of_lt (by omega)]
  have hroom : (BitVec.ofNat w i).toNat < s.stop.toNat := by
    rw [hstop, BitVec.toNat_allOnes, haddress]
    omega
  have hstart : (BitVec.ofNat w i).toNat = s.pos.toNat + i := by omega
  have hleft : (s.puts S).mem (BitVec.ofNat w i) = S[i] :=
    puts_mem_inside (by omega) hi hstart hroom
  have hright : (s.puts T).mem (BitVec.ofNat w i) = T[i] :=
    puts_mem_inside (by omega) hi' hstart hroom
  rw [← hleft, ← hright, hsame]

end Sink

/-! ## A sequence in memory -/

section Store

variable {w : Nat} {α : Type}

/-- A sequence stored from an address on. -/
def store (mem : BitVec w → α) (dst : BitVec w) : List α → BitVec w → α
  | [] => mem
  | c :: cs => store (Function.update mem dst c) (dst + 1) cs

theorem add_one_add_ofNat (a : BitVec w) (n : Nat) :
    a + 1 + BitVec.ofNat w n = a + BitVec.ofNat w (n + 1) := by
  have hone : BitVec.ofNat w (n + 1) = 1 + BitVec.ofNat w n := by
    rw [Nat.add_comm, BitVec.ofNat_add]
    rfl
  rw [hone, BitVec.add_assoc]

/-- Offsets within the address space lead to different addresses. -/
theorem offset_inj (a : BitVec w) {i j : Nat} (hi : i < 2 ^ w) (hj : j < 2 ^ w) :
    a + BitVec.ofNat w i = a + BitVec.ofNat w j ↔ i = j := by
  constructor
  · intro h
    have hoffset := congrArg BitVec.toNat ((BitVec.add_right_inj a).mp h)
    rwa [BitVec.toNat_ofNat, BitVec.toNat_ofNat, Nat.mod_eq_of_lt hi, Nat.mod_eq_of_lt hj]
      at hoffset
  · rintro rfl
    rfl

theorem store_append (mem : BitVec w → α) (dst : BitVec w) (cs ds : List α) :
    store mem dst (cs ++ ds) = store (store mem dst cs) (dst + BitVec.ofNat w cs.length) ds := by
  induction cs generalizing mem dst with
  | nil =>
    rw [List.nil_append, List.length_nil, BitVec.add_zero]
    rfl
  | cons c cs ih =>
    rw [List.cons_append, store, ih, add_one_add_ofNat, List.length_cons]
    rfl

theorem store_singleton (mem : BitVec w → α) (dst : BitVec w) (c : α) :
    store mem dst [c] = Function.update mem dst c := rfl

/-- Storing one more character over the last one. -/
theorem store_replace (mem : BitVec w → α) (dst : BitVec w) (cs : List α) (c d : α) :
    Function.update (store mem dst (cs ++ [c])) (dst + BitVec.ofNat w cs.length) d =
      store mem dst (cs ++ [d]) := by
  rw [store_append, store_append, store_singleton, store_singleton, Function.update_idem]

/-- An address that the sequence does not reach keeps what it holds. -/
theorem store_outside {mem : BitVec w → α} {dst a : BitVec w} {cs : List α}
    (h : ∀ i < cs.length, a ≠ dst + BitVec.ofNat w i) : store mem dst cs a = mem a := by
  induction cs generalizing mem dst with
  | nil => rfl
  | cons c cs ih =>
    have hfirst : a ≠ dst := by
      have hzero := h 0 (Nat.succ_pos _)
      rwa [BitVec.add_zero] at hzero
    rw [store, ih, Function.update_of_ne hfirst]
    intro i hi
    rw [add_one_add_ofNat]
    exact h (i + 1) (Nat.succ_lt_succ hi)

theorem store_inside {mem : BitVec w → α} {dst : BitVec w} {cs : List α} (h : cs.length ≤ 2 ^ w)
    {i : Nat} (hi : i < cs.length) : store mem dst cs (dst + BitVec.ofNat w i) = cs[i] := by
  induction cs generalizing mem dst i with
  | nil => exact absurd hi (Nat.not_lt_zero i)
  | cons c cs ih =>
    rw [List.length_cons] at h hi
    cases i with
    | zero =>
      have hrest : ∀ j < cs.length, dst + BitVec.ofNat w 0 ≠ dst + 1 + BitVec.ofNat w j := by
        intro j hj
        rw [add_one_add_ofNat]
        intro heq
        exact absurd ((offset_inj dst (by omega) (by omega)).mp heq) (Nat.succ_ne_zero j).symm
      rw [store, store_outside hrest, BitVec.add_zero, Function.update_self]
      rfl
    | succ i =>
      rw [store, ← add_one_add_ofNat]
      exact ih (by omega) (Nat.lt_of_succ_lt_succ hi)

/-- A writer with enough room stores the sequence. -/
theorem Sink.puts_store {s : Sink w α} {cs : List α}
    (h : s.pos.toNat + cs.length ≤ s.stop.toNat) : (s.puts cs).mem = store s.mem s.pos cs := by
  have hstop := s.stop.isLt
  induction cs generalizing s with
  | nil => rfl
  | cons c cs ih =>
    rw [List.length_cons] at h
    have hnext : (s.put c).pos.toNat = s.pos.toNat + 1 :=
      toNat_add_one (n := cs.length) (by omega)
    have hroom : s.pos < s.stop := BitVec.lt_def.mpr (by omega)
    have hfits : (s.put c).pos.toNat + cs.length ≤ (s.put c).stop.toNat := by
      rw [hnext, Sink.put_stop]
      omega
    rw [Sink.puts_cons, ih hfits (s.put c).stop.isLt]
    simp only [Sink.put, if_pos hroom]
    rfl

/-- Writers that stand at the same place treat an address alike. -/
theorem Sink.puts_mem_congr {s s' : Sink w α} {cs : List α} {a : BitVec w} (hpos : s.pos = s'.pos)
    (hstop : s.stop = s'.stop) (hmem : s.mem a = s'.mem a) :
    (s.puts cs).mem a = (s'.puts cs).mem a := by
  induction cs generalizing s s' with
  | nil => exact hmem
  | cons c cs ih =>
    rw [Sink.puts_cons, Sink.puts_cons]
    refine ih (congrArg (· + 1) hpos) hstop ?_
    simp only [Sink.put, hpos, hstop]
    split
    · by_cases ha : a = s'.pos
      · rw [ha, Function.update_self, Function.update_self]
      · rw [Function.update_of_ne ha, Function.update_of_ne ha, hmem]
    · exact hmem

/-- A writer that runs past the end of the address space stores at address zero. -/
theorem Sink.puts_wraps (pos : BitVec w) {stop : BitVec w} (cs : List α) (hstop : 0 < stop)
    (h : 2 ^ w < pos.toNat + cs.length) (mem mem' : BitVec w → α) :
    ((⟨pos, stop, mem⟩ : Sink w α).puts cs).mem 0 =
      ((⟨pos, stop, mem'⟩ : Sink w α).puts cs).mem 0 := by
  have hpos := pos.isLt
  have hn : 2 ^ w - pos.toNat < cs.length := by omega
  have hsplit : cs = cs.take (2 ^ w - pos.toNat) ++
      cs[2 ^ w - pos.toNat] :: cs.drop (2 ^ w - pos.toNat + 1) := by
    rw [← List.drop_eq_getElem_cons hn, List.take_append_drop]
  have hzero : pos + BitVec.ofNat w (cs.take (2 ^ w - pos.toNat)).length = 0 := by
    apply BitVec.eq_of_toNat_eq
    rw [List.length_take, Nat.min_eq_left (Nat.le_of_lt hn), BitVec.toNat_add, BitVec.toNat_ofNat,
      Nat.add_mod_mod, Nat.add_sub_cancel' (Nat.le_of_lt hpos), Nat.mod_self]
    rfl
  rw [hsplit, Sink.puts_append, Sink.puts_append, Sink.puts_cons, Sink.puts_cons]
  have hat : ∀ mem : BitVec w → α, ((⟨pos, stop, mem⟩ : Sink w α).puts
      (cs.take (2 ^ w - pos.toNat))).pos = 0 := fun mem => (Sink.puts_pos_eq _ _).trans hzero
  have hend : ∀ mem : BitVec w → α, ((⟨pos, stop, mem⟩ : Sink w α).puts
      (cs.take (2 ^ w - pos.toNat))).stop = stop := fun mem => Sink.puts_stop _ _
  refine Sink.puts_mem_congr ?_ ?_ ?_
  · simp only [Sink.put, hat]
  · simp only [Sink.put, hend]
  · simp only [Sink.put, hat, hend, if_pos hstop, Function.update_self]

end Store

end Gd32Vw553h.Foundation
