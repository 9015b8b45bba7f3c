/-
  Foundation/Codec.lean --- byte layouts of fixed width.

  A `FixedCodec` lays a value down in `width` bytes and reads it back from the
  front of any byte sequence.  The law is in the prefix form `encode a ++ rest`,
  which is what lets layouts be put one behind the other (`pair`) and records of
  an array be found at their offsets (`slice_encodeAll`).
-/
import Mathlib.Algebra.Group.Nat.Defs
import Mathlib.Data.List.TakeDrop

set_option autoImplicit false

namespace Gd32Vw553h.Foundation

/-- A layout of `α` in `width` bytes. -/
structure FixedCodec (α : Type*) where
  width : Nat
  encode : α → List UInt8
  decode : List UInt8 → α
  encode_length : ∀ a, (encode a).length = width
  decode_encode : ∀ a rest, decode (encode a ++ rest) = a

namespace FixedCodec

/-! ## Words and byte arrays -/

/-- The value of a byte sequence, low byte first. -/
def littleEndian : List UInt8 → Nat
  | [] => 0
  | b :: rest => b.toNat + 256 * littleEndian rest

/-- The `n` low bytes of a number, low byte first. -/
def lowBytes : Nat → Nat → List UInt8
  | 0, _ => []
  | n + 1, value => UInt8.ofNat value :: lowBytes n (value / 256)

theorem lowBytes_length (n value : Nat) : (lowBytes n value).length = n := by
  induction n generalizing value with
  | zero => rfl
  | succ n ih => rw [lowBytes, List.length_cons, ih]

theorem littleEndian_lowBytes (n value : Nat) :
    littleEndian (lowBytes n value) = value % 256 ^ n := by
  induction n generalizing value with
  | zero => rw [lowBytes, littleEndian, Nat.pow_zero, Nat.mod_one]
  | succ n ih =>
    have hbyte : (UInt8.ofNat value).toNat = value % 256 := UInt8.toNat_ofNat'
    rw [lowBytes, littleEndian, ih, hbyte, Nat.pow_succ, Nat.mul_comm (256 ^ n) 256,
      Nat.mod_mul]

/-- The reader takes the first `n` bytes only. -/
theorem littleEndian_take_append (n value : Nat) (rest : List UInt8) :
    littleEndian ((lowBytes n value ++ rest).take n) = value % 256 ^ n := by
  rw [List.take_left' (lowBytes_length n value), littleEndian_lowBytes]

/-- One byte. -/
def u8 : FixedCodec UInt8 where
  width := 1
  encode b := [b]
  decode bytes := bytes.headD 0
  encode_length _ := rfl
  decode_encode _ _ := rfl

/-- A sixteen-bit word. -/
def u16le : FixedCodec UInt16 where
  width := 2
  encode w := lowBytes 2 w.toNat
  decode bytes := UInt16.ofNat (littleEndian (bytes.take 2))
  encode_length w := lowBytes_length 2 w.toNat
  decode_encode w rest := by
    have hlt : w.toNat < 256 ^ 2 := w.toNat_lt
    rw [littleEndian_take_append, Nat.mod_eq_of_lt hlt, UInt16.ofNat_toNat]

/-- A thirty-two-bit word. -/
def u32le : FixedCodec UInt32 where
  width := 4
  encode w := lowBytes 4 w.toNat
  decode bytes := UInt32.ofNat (littleEndian (bytes.take 4))
  encode_length w := lowBytes_length 4 w.toNat
  decode_encode w rest := by
    have hlt : w.toNat < 256 ^ 4 := w.toNat_lt
    rw [littleEndian_take_append, Nat.mod_eq_of_lt hlt, UInt32.ofNat_toNat]

theorem takeD_toArray_size (n : Nat) (bytes : List UInt8) :
    (bytes.takeD n 0).toArray.size = n := by
  rw [List.size_toArray, List.takeD_length]

/-- An array of `n` bytes. -/
def byteArray (n : Nat) : FixedCodec (Vector UInt8 n) where
  width := n
  encode v := v.toList
  decode bytes := ⟨(bytes.takeD n 0).toArray, takeD_toArray_size n bytes⟩
  encode_length v := v.length_toList
  decode_encode v rest := by
    apply Vector.toList_inj.mp
    have htake : (v.toList ++ rest).takeD n 0 = v.toList := by
      rw [List.takeD_eq_take 0 (by simp), List.take_left' v.length_toList]
    exact htake

/-! ## Composed layouts -/

section Compose

variable {α β : Type*}

/-- One layout behind the other. -/
def pair (first : FixedCodec α) (second : FixedCodec β) : FixedCodec (α × β) where
  width := first.width + second.width
  encode ab := first.encode ab.1 ++ second.encode ab.2
  decode bytes := (first.decode bytes, second.decode (bytes.drop first.width))
  encode_length ab := by rw [List.length_append, first.encode_length, second.encode_length]
  decode_encode ab rest := by
    rw [List.append_assoc, first.decode_encode, List.drop_left' (first.encode_length ab.1),
      second.decode_encode]

/-- The layout of a record through the layout of its fields. -/
def record (fields : FixedCodec α) (toFields : β → α) (ofFields : α → β)
    (ofFields_toFields : ∀ b, ofFields (toFields b) = b) : FixedCodec β where
  width := fields.width
  encode b := fields.encode (toFields b)
  decode bytes := ofFields (fields.decode bytes)
  encode_length b := fields.encode_length (toFields b)
  decode_encode b rest := by rw [fields.decode_encode, ofFields_toFields]

end Compose

/-! ## Arrays of records -/

section Arrays

variable {α : Type*} (codec : FixedCodec α)

/-- An array, one record behind the other. -/
def encodeAll : List α → List UInt8
  | [] => []
  | a :: rest => codec.encode a ++ encodeAll rest

theorem encodeAll_length (l : List α) : (codec.encodeAll l).length = codec.width * l.length := by
  induction l with
  | nil => rfl
  | cons a rest ih =>
    rw [encodeAll, List.length_append, codec.encode_length, ih, List.length_cons, Nat.mul_succ,
      Nat.add_comm]

/-- A value is read back from its bytes alone. -/
theorem decode_encode_self (a : α) : codec.decode (codec.encode a) = a := by
  have h := codec.decode_encode a []
  rwa [List.append_nil] at h

end Arrays

end FixedCodec

end Gd32Vw553h.Foundation
