/-
  Drivers/BitOps.lean --- the lines of a bit-banged I2C bus
  (`components/drivers/i2c/dev_i2c_bit_ops.c`).

  What the driver does to SDA and SCL is recorded in order, with the outcome of every wait
  for SCL and with every sample of SDA.  The bus answers as it likes, by all that has
  happened.  Delays are left out, and a wait in `SCL_H` is its outcome: SCL is high, or
  the timeout has passed.

  `outWave` and `inWave` say what a byte looks like on the lines; `i2cWriteb_wave` and
  `i2cReadb_wave` that the loops over its bits make this of it.
-/
import Mathlib.Data.List.Basic
import Gd32Vw553h.Klibc.KErrno

set_option autoImplicit false

namespace Gd32Vw553h.Drivers

open Gd32Vw553h.Klibc

/-! ## The lines -/

/-- What the driver does to the lines, and what it sees. -/
inductive LineEvent where
  /-- SDA is driven low or released -/
  | sda (level : Bool)
  | sclLow
  /-- SCL is released; whether it gets high before the timeout -/
  | sclHigh (up : Bool)
  /-- `GET_SDA` -/
  | sample (level : Bool)
  deriving DecidableEq

/-- All that has happened. -/
abbrev LineLog : Type := List LineEvent

/-- The bus: whether SCL gets high in time, and the level of SDA. -/
structure BitBus where
  rises : LineLog → Bool
  level : LineLog → Bool

namespace BitBus

variable (bus : BitBus) (log : LineLog)

/-- `SCL_H`: whether it is `RT_EOK` -/
def sclH : Bool × LineLog := (bus.rises log, log ++ [.sclHigh (bus.rises log)])

def getSda : Bool × LineLog := (bus.level log, log ++ [.sample (bus.level log)])

def i2cStart : LineLog := log ++ [.sda false, .sclLow]

def i2cRestart : LineLog := (bus.sclH (log ++ [.sda true])).2 ++ [.sda false, .sclLow]

def i2cStop : LineLog := (bus.sclH (log ++ [.sda false])).2 ++ [.sda true]

/-- `i2c_waitack` -/
def i2cWaitack : Int × LineLog :=
  let (up, log) := bus.sclH (log ++ [.sda true])
  if up then
    let (sda, log) := bus.getSda log
    (if !sda then 1 else 0, log ++ [.sclLow])
  else (-rtETimeout, log)

/-- `(data >> i) & 1` -/
def bitOf (data : UInt8) (i : Nat) : Bool := data.toNat.testBit i

/-- The loop of `i2c_writeb` over the bits below `i`: whether it ends without a timeout. -/
def writeBits (data : UInt8) : Nat → LineLog → Bool × LineLog
  | 0, log => (true, log)
  | i + 1, log =>
    let (up, log) := bus.sclH (log ++ [.sclLow, .sda (bitOf data i)])
    if up then writeBits data i log else (false, log)

/-- `i2c_writeb` -/
def i2cWriteb (data : UInt8) : Int × LineLog :=
  let (done, log) := bus.writeBits data 8 log
  if done then bus.i2cWaitack (log ++ [.sclLow]) else (-rtETimeout, log)

/-- The loop of `i2c_readb` over `n` more bits; nothing after a timeout. -/
def readBits : Nat → UInt8 → LineLog → Option UInt8 × LineLog
  | 0, data, log => (some data, log)
  | n + 1, data, log =>
    let data := data <<< 1
    let (up, log) := bus.sclH log
    if up then
      let (sda, log) := bus.getSda log
      readBits n (if sda then data ||| 1 else data) (log ++ [.sclLow])
    else (none, log)

/-- `i2c_readb`; nothing for `-RT_ETIMEOUT` -/
def i2cReadb : Option UInt8 × LineLog := bus.readBits 8 0 (log ++ [.sda true])

/-- `i2c_send_ack_or_nack`: whether it is `RT_EOK` -/
def i2cSendAckOrNack (ack : Nat) : Bool × LineLog :=
  let log := if ack ≠ 0 then log ++ [.sda false] else log
  let (up, log) := bus.sclH log
  if up then (true, log ++ [.sclLow]) else (false, log)

end BitBus

/-! ## Bytes on the lines -/

open BitBus

/-- The bits of a byte, the most significant first. -/
def msbFirst (byte : UInt8) : List Bool := (List.range 8).map fun k => bitOf byte (7 - k)

theorem msbFirst_length (byte : UInt8) : (msbFirst byte).length = 8 := by
  rw [msbFirst, List.length_map, List.length_range]

/-- What a byte that is sent meets with. -/
inductive Answer where
  | ack
  | nack
  /-- SCL stays low at bit `k`, the most significant being bit 0 and the acknowledge bit 8 -/
  | stuck (k : Nat)
  deriving DecidableEq

/-- What `i2c_writeb` makes of it. -/
def Answer.ret : Answer → Int
  | .ack => 1
  | .nack => 0
  | .stuck _ => -rtETimeout

def startWave : LineLog := [.sda false, .sclLow]

def restartWave (up : Bool) : LineLog := [.sda true, .sclHigh up, .sda false, .sclLow]

def stopWave (up : Bool) : LineLog := [.sda false, .sclHigh up, .sda true]

/-- Bits that are clocked out. -/
def bitsWave (bits : List Bool) : LineLog :=
  bits.flatMap fun b => [.sclLow, .sda b, .sclHigh true]

/-- A byte that is sent, with its acknowledge bit. -/
def outWave (byte : UInt8) : Answer → LineLog
  | .ack => bitsWave (msbFirst byte) ++
      [.sclLow, .sda true, .sclHigh true, .sample false, .sclLow]
  | .nack => bitsWave (msbFirst byte) ++
      [.sclLow, .sda true, .sclHigh true, .sample true, .sclLow]
  | .stuck k => bitsWave ((msbFirst byte).take k) ++
      [.sclLow, .sda ((msbFirst byte)[k]?.getD true), .sclHigh false]

/-- Bits that are sampled. -/
def samplesWave (bits : List Bool) : LineLog :=
  bits.flatMap fun b => [.sclHigh true, .sample b, .sclLow]

/-- A byte that is read. -/
def inWave (bits : List Bool) : LineLog := .sda true :: samplesWave bits

/-- The acknowledge bit that the driver sends. -/
def replyWave (ack up : Bool) : LineLog :=
  (if ack then [.sda false] else []) ++ .sclHigh up :: (if up then [.sclLow] else [])

namespace BitBus

variable (bus : BitBus) (log : LineLog)

theorem i2cRestart_wave : ∃ up, bus.i2cRestart log = log ++ restartWave up :=
  ⟨bus.rises (log ++ [.sda true]), by simp [i2cRestart, sclH, restartWave]⟩

theorem i2cStop_wave : ∃ up, bus.i2cStop log = log ++ stopWave up :=
  ⟨bus.rises (log ++ [.sda false]), by simp [i2cStop, sclH, stopWave]⟩

theorem i2cSendAckOrNack_wave (count : Nat) :
    ∃ up, bus.i2cSendAckOrNack log count = (up, log ++ replyWave (decide (count ≠ 0)) up) := by
  unfold i2cSendAckOrNack
  by_cases hcount : count = 0
  · refine ⟨bus.rises log, ?_⟩
    cases hup : bus.rises log <;> simp [sclH, replyWave, hcount, hup]
  · refine ⟨bus.rises (log ++ [.sda false]), ?_⟩
    cases hup : bus.rises (log ++ [.sda false]) <;> simp [sclH, replyWave, hcount, hup]

/-- The loop over the lower bits: all are clocked out, or SCL stays low at one. -/
theorem writeBits_wave (data : UInt8) (n : Nat) (log : LineLog) :
    let bits := ((List.range n).map fun k => bitOf data (n - 1 - k))
    bus.writeBits data n log = (true, log ++ bitsWave bits) ∨
      ∃ k, k < n ∧ bus.writeBits data n log = (false, log ++ bitsWave (bits.take k) ++
        [.sclLow, .sda (bits[k]?.getD true), .sclHigh false]) := by
  induction n generalizing log with
  | zero => exact .inl (by simp [writeBits, bitsWave])
  | succ n ih =>
    have hbits : (List.range (n + 1)).map (fun k => bitOf data (n + 1 - 1 - k)) =
        bitOf data n :: (List.range n).map fun k => bitOf data (n - 1 - k) := by
      rw [List.range_succ_eq_map, List.map_cons, List.map_map]
      refine congrArg₂ List.cons (by simp) (List.map_congr_left fun k _ => ?_)
      simp only [Function.comp_apply]
      congr 1
      omega
    simp only [hbits]
    cases hup : bus.rises (log ++ [.sclLow, .sda (bitOf data n)]) with
    | false =>
      refine .inr ⟨0, Nat.succ_pos n, ?_⟩
      simp [writeBits, sclH, hup, bitsWave]
    | true =>
      have hnext : bus.writeBits data (n + 1) log = bus.writeBits data n
          (log ++ [.sclLow, .sda (bitOf data n), .sclHigh true]) := by
        simp [writeBits, sclH, hup]
      rw [hnext]
      rcases ih (log ++ [.sclLow, .sda (bitOf data n), .sclHigh true]) with hall | ⟨k, hk, hcut⟩
      · refine .inl ?_
        rw [hall]
        simp [bitsWave]
      · refine .inr ⟨k + 1, Nat.succ_lt_succ hk, ?_⟩
        rw [hcut]
        simp [bitsWave]

/-- A byte is clocked out with the most significant bit first. -/
theorem i2cWriteb_wave (data : UInt8) :
    ∃ answer : Answer, bus.i2cWriteb log data = (answer.ret, log ++ outWave data answer) := by
  have hbits : (List.range 8).map (fun k => bitOf data (8 - 1 - k)) = msbFirst data := rfl
  rcases bus.writeBits_wave data 8 log with hall | ⟨k, -, hcut⟩
  · simp only [hbits] at hall
    simp only [i2cWriteb, hall, if_true, i2cWaitack]
    cases hup : bus.rises (log ++ bitsWave (msbFirst data) ++ [.sclLow] ++ [.sda true]) with
    | false =>
      refine ⟨.stuck 8, ?_⟩
      have hlength : (msbFirst data).length ≤ 8 := Nat.le_of_eq (msbFirst_length data)
      simp only [sclH, hup]
      simp [Answer.ret, outWave, List.take_of_length_le hlength, List.getElem?_eq_none hlength]
    | true =>
      simp only [sclH, hup, if_true, getSda]
      cases hsda : bus.level
          (log ++ bitsWave (msbFirst data) ++ [.sclLow] ++ [.sda true] ++ [.sclHigh true]) with
      | false => exact ⟨.ack, by simp [Answer.ret, outWave]⟩
      | true => exact ⟨.nack, by simp [Answer.ret, outWave]⟩
  · simp only [hbits] at hcut
    refine ⟨.stuck k, ?_⟩
    simp only [i2cWriteb, hcut, if_neg Bool.false_ne_true, Answer.ret, outWave,
      List.append_assoc]

/-- One more sampled bit. -/
def pushBit (data : UInt8) (b : Bool) : UInt8 := if b then data <<< 1 ||| 1 else data <<< 1

/-- The loop over `n` more bits samples them all, or SCL stays low before that. -/
theorem readBits_wave (n : Nat) (data : UInt8) (log : LineLog) :
    (∃ bits : List Bool, bits.length = n ∧ bus.readBits n data log =
        (some (bits.foldl pushBit data), log ++ samplesWave bits)) ∨
      ∃ bits : List Bool, bits.length < n ∧ bus.readBits n data log =
        (none, log ++ samplesWave bits ++ [.sclHigh false]) := by
  induction n generalizing data log with
  | zero => exact .inl ⟨[], rfl, by simp [readBits, samplesWave]⟩
  | succ n ih =>
    cases hup : bus.rises log with
    | false => exact .inr ⟨[], Nat.succ_pos n, by simp [readBits, sclH, hup, samplesWave]⟩
    | true =>
      let b := bus.level (log ++ [.sclHigh true])
      have hnext : bus.readBits (n + 1) data log = bus.readBits n (pushBit data b)
          (log ++ [.sclHigh true, .sample b, .sclLow]) := by
        simp [readBits, sclH, hup, getSda, pushBit, b]
      rw [hnext]
      rcases ih (pushBit data b) (log ++ [.sclHigh true, .sample b, .sclLow]) with
        ⟨bits, hlength, hall⟩ | ⟨bits, hlength, hcut⟩
      · refine .inl ⟨b :: bits, by rw [List.length_cons, hlength], ?_⟩
        rw [hall]
        simp [samplesWave]
      · refine .inr ⟨b :: bits, by rw [List.length_cons]; omega, ?_⟩
        rw [hcut]
        simp [samplesWave]

/-- Eight bits pushed into a byte are its bits. -/
theorem msbFirst_foldl_pushBit {bits : List Bool} (h : bits.length = 8) :
    msbFirst (bits.foldl pushBit 0) = bits := by
  have hall : ∀ a b c d e f g i : Bool,
      msbFirst ([a, b, c, d, e, f, g, i].foldl pushBit 0) = [a, b, c, d, e, f, g, i] := by
    decide
  match bits, h with
  | [a, b, c, d, e, f, g, i], _ => exact hall a b c d e f g i

/-- A byte that is read is the eight samples, the most significant bit first. -/
theorem i2cReadb_wave :
    (∃ byte, bus.i2cReadb log = (some byte, log ++ inWave (msbFirst byte))) ∨
      ∃ bits : List Bool, bits.length < 8 ∧
        bus.i2cReadb log = (none, log ++ inWave bits ++ [.sclHigh false]) := by
  rcases bus.readBits_wave 8 0 (log ++ [.sda true]) with
    ⟨bits, hlength, hall⟩ | ⟨bits, hlength, hcut⟩
  · refine .inl ⟨bits.foldl pushBit 0, ?_⟩
    rw [msbFirst_foldl_pushBit hlength, i2cReadb, hall]
    simp [inWave]
  · refine .inr ⟨bits, hlength, ?_⟩
    rw [i2cReadb, hcut]
    simp [inWave]

end BitBus

end Gd32Vw553h.Drivers
