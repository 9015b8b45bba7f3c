/-
  Drivers/BitXfer.lean --- transfers over a bit-banged I2C bus
  (`components/drivers/i2c/dev_i2c_bit_ops.c`).

  A `MsgTrace` is what becomes of a message: its START, the address bytes with their
  tries, and the bytes that are sent or read.  `bitXfer_right` says that the lines show the
  traces of the messages that are attempted, that the number of messages is returned
  exactly when all are completed, and which STOP ends the transfer.
-/
import Gd32Vw553h.Drivers.BitOps
import Gd32Vw553h.Drivers.I2c

set_option autoImplicit false

namespace Gd32Vw553h.Drivers

open Gd32Vw553h.Klibc

/-! ## The code -/

/-- `RT_I2C_IGNORE_NACK` -/
abbrev rtI2cIgnoreNack : UInt16 := 0x0020

/-- `RT_I2C_NO_READ_ACK` -/
abbrev rtI2cNoReadAck : UInt16 := 0x0040

namespace BitBus

variable (bus : BitBus)

/-- The loop of `i2c_send_bytes`, with `count` bytes to send after `bytes`. -/
def sendBytes (msg : I2cMsg) : (count bytes : Nat) → LineLog → Int × LineLog
  | 0, bytes, log => (bytes, log)
  | count + 1, bytes, log =>
    let (ret, log) := bus.i2cWriteb log (msg.buf bytes)
    if ret > 0 ∨ msg.has rtI2cIgnoreNack ∧ ret = 0 then sendBytes msg count (bytes + 1) log
    else if ret = 0 then (0, log)
    else (ret, log)

/-- The loop of `i2c_recv_bytes`: what it returns, and the buffer. -/
def recvBytes (msg : I2cMsg) : (count bytes : Nat) → (Nat → UInt8) → LineLog →
    Int × (Nat → UInt8) × LineLog
  | 0, bytes, buf, log => (bytes, buf, log)
  | count + 1, bytes, buf, log =>
    match bus.i2cReadb log with
    | (none, log) => (bytes, buf, log)
    | (some val, log) =>
      let buf := Function.update buf bytes val
      if msg.has rtI2cNoReadAck then recvBytes msg count (bytes + 1) buf log
      else
        let (sent, log) := bus.i2cSendAckOrNack log count
        if sent then recvBytes msg count (bytes + 1) buf log else (-rtETimeout, buf, log)

/-- The loop of `i2c_send_address`, with `left` retries. -/
def sendTries (addr : UInt8) : (left : Nat) → LineLog → Int × LineLog
  | 0, log => bus.i2cWriteb log addr
  | left + 1, log =>
    let (ret, log) := bus.i2cWriteb log addr
    if ret = 1 then (ret, log) else sendTries addr left (i2cStart (bus.i2cStop log))

/-- `i2c_send_address` -/
def sendAddress (log : LineLog) (addr : UInt8) (retries : Int) : Int × LineLog :=
  if retries < 0 then (0, log) else bus.sendTries addr retries.toNat log

/-- The first address byte of a 10-bit address. -/
def addr1 (msg : I2cMsg) : UInt8 := ((0xf0 : UInt16) ||| ((msg.addr >>> 7) &&& 0x06)).toUInt8

/-- The second address byte of a 10-bit address. -/
def addr2 (msg : I2cMsg) : UInt8 := (msg.addr &&& 0xff).toUInt8

/-- The address byte of a 7-bit address. -/
def addr7 (msg : I2cMsg) : UInt8 :=
  let addr1 := (msg.addr <<< 1).toUInt8
  if msg.has rtI2cRd then addr1 ||| 1 else addr1

/-- `i2c_bit_send_address`: whether it is `RT_EOK`; `retries` is that of the bus device. -/
def bitSendAddress (retries : UInt32) (msg : I2cMsg) (log : LineLog) : Bool × LineLog :=
  let ignoreNack := msg.has rtI2cIgnoreNack
  let retries : Int := if ignoreNack then 0 else retries.toInt32.toInt
  if msg.has rtI2cAddr10bit then
    let (ret, log) := bus.sendAddress log (addr1 msg) retries
    if ret ≠ 1 ∧ ¬ ignoreNack then (false, log)
    else
      let (ret, log) := bus.i2cWriteb log (addr2 msg)
      if ret ≠ 1 ∧ ¬ ignoreNack then (false, log)
      else if msg.has rtI2cRd then
        let (ret, log) := bus.sendAddress (bus.i2cRestart log) (addr1 msg ||| 1) retries
        if ret ≠ 1 ∧ ¬ ignoreNack then (false, log) else (true, log)
      else (true, log)
  else
    let (ret, log) := bus.sendAddress log (addr7 msg) retries
    if ret ≠ 1 ∧ ¬ ignoreNack then (false, log) else (true, log)

/-- The body of the loop of `i2c_bit_xfer` after the address: the error with which it goes to
`out`, if it does, and the buffer. -/
def moveBytes (msg : I2cMsg) (log : LineLog) : Option Int × (Nat → UInt8) × LineLog :=
  if msg.has rtI2cRd then
    let (ret, buf, log) := bus.recvBytes msg msg.len.toNat 0 msg.buf log
    if ret < msg.len.toNat then (some (if ret ≥ 0 then -rtEIo else ret), buf, log)
    else (none, buf, log)
  else
    let (ret, log) := bus.sendBytes msg msg.len.toNat 0 log
    if ret < msg.len.toNat then (some (if ret ≥ 0 then -rtError else ret), msg.buf, log)
    else (none, msg.buf, log)

/-- The body of the loop of `i2c_bit_xfer` for message `i`. -/
def xferMsg (retries : UInt32) (i : Nat) (msg : I2cMsg) (log : LineLog) :
    Option Int × (Nat → UInt8) × LineLog :=
  if msg.has rtI2cNoStart then bus.moveBytes msg log
  else
    let log := if i ≠ 0 then bus.i2cRestart log else i2cStart log
    let (ok, log) := bus.bitSendAddress retries msg log
    if !ok ∧ ¬ msg.has rtI2cIgnoreNack then (some (-rtEIo), msg.buf, log)
    else bus.moveBytes msg log

/-- The part of `i2c_bit_xfer` from `out` on. -/
def xferOut (msg : I2cMsg) (log : LineLog) : LineLog :=
  if msg.has rtI2cNoStop then log else bus.i2cStop log

end BitBus

/-- What `i2c_bit_xfer` returns, the buffers of the messages, and what has happened. -/
structure XferResult where
  ret : Int
  bufs : List (Nat → UInt8)
  log : LineLog

namespace BitBus

variable (bus : BitBus)

/-- The loop of `i2c_bit_xfer` from message `i` on. -/
def xferFrom (retries : UInt32) (i : Nat) (msg : I2cMsg) : List I2cMsg → LineLog → XferResult
  | rest, log =>
    match bus.xferMsg retries i msg log, rest with
    | (some ret, buf, log), rest => ⟨ret, buf :: rest.map I2cMsg.buf, bus.xferOut msg log⟩
    | (none, buf, log), [] => ⟨i + 1, [buf], bus.xferOut msg log⟩
    | (none, buf, log), next :: rest =>
      let r := xferFrom retries (i + 1) next rest log
      { r with bufs := buf :: r.bufs }

/-- `i2c_bit_xfer` -/
def i2cBitXfer (retries : UInt32) (msgs : List I2cMsg) (log : LineLog) : XferResult :=
  match msgs with
  | [] => ⟨0, [], log⟩
  | msg :: rest => bus.xferFrom retries 0 msg rest log

end BitBus

/-! ## Traces -/

open BitBus

/-- A byte of an address, with its tries. -/
structure Sent where
  byte : UInt8
  /-- the repeated START in front of it, if there is one, and whether SCL got high for it -/
  reopened : Option Bool
  /-- what the tries before the last met with; each was followed by a STOP, for which SCL got
  high or not, and a START -/
  early : List (Answer × Bool)
  last : Answer

def triesWave (byte : UInt8) (early : List (Answer × Bool)) : LineLog :=
  early.flatMap fun e => outWave byte e.1 ++ stopWave e.2 ++ startWave

def Sent.wave (a : Sent) : LineLog :=
  a.reopened.elim [] restartWave ++ triesWave a.byte a.early ++ outWave a.byte a.last

/-- A byte that is read. -/
structure Received where
  bits : List Bool
  /-- the acknowledge bit that follows, if one does, and whether SCL got high for it -/
  reply : Option (Bool × Bool)

def Received.wave (r : Received) : LineLog :=
  inWave r.bits ++ r.reply.elim [] fun e => replyWave e.1 e.2

/-- What becomes of a message. -/
structure MsgTrace where
  /-- the START or repeated START -/
  opening : LineLog
  address : List Sent
  /-- what the bytes of the buffer met with that were sent -/
  sent : List Answer
  received : List Received
  /-- the bits of a byte during which SCL stayed low -/
  cut : Option (List Bool)

/-- The bytes of a buffer from an offset on, as they are sent. -/
def sentWave (buf : Nat → UInt8) (offset : Nat) : List Answer → LineLog
  | [] => []
  | answer :: answers => outWave (buf offset) answer ++ sentWave buf (offset + 1) answers

/-- A byte during which SCL stayed low. -/
def cutWave (cut : Option (List Bool)) : LineLog :=
  cut.elim [] fun bits => inWave bits ++ [.sclHigh false]

def MsgTrace.moved (msg : I2cMsg) (t : MsgTrace) : LineLog :=
  sentWave msg.buf 0 t.sent ++ t.received.flatMap Received.wave ++ cutWave t.cut

/-- The message on the lines. -/
def MsgTrace.wave (msg : I2cMsg) (t : MsgTrace) : LineLog :=
  t.opening ++ t.address.flatMap Sent.wave ++ t.moved msg

/-- The bytes of the address, with the read bit. -/
def I2cMsg.addressBytes (msg : I2cMsg) : List UInt8 :=
  if msg.has rtI2cAddr10bit then
    addr1 msg :: addr2 msg :: if msg.has rtI2cRd then [addr1 msg ||| 1] else []
  else [addr7 msg]

/-- The bytes of the address have been sent in order, up to one that was not acknowledged. -/
structure AddressOf (msg : I2cMsg) (retries : UInt32) (address : List Sent) : Prop where
  bytes : address.map Sent.byte <+: msg.addressBytes
  reopened : (address.map fun a => a.reopened.isSome) <+: [false, false, true]
  tries : ∀ a ∈ address, (a.early.length ≤ if msg.has rtI2cIgnoreNack then 0 else retries.toNat) ∧
    ∀ e ∈ a.early, e.1 ≠ .ack

/-- All bytes of the address have been acknowledged, with the last try at the latest. -/
def AddressAcked (msg : I2cMsg) (address : List Sent) : Prop :=
  address.map Sent.byte = msg.addressBytes ∧ ∀ a ∈ address, a.last = .ack

/-- The byte has been acknowledged, unless that does not matter. -/
def I2cMsg.Accepts (msg : I2cMsg) (answer : Answer) : Prop :=
  answer = .ack ∨ msg.has rtI2cIgnoreNack = true ∧ answer = .nack

/-- SCL has got high for the acknowledge bit, if one was sent. -/
def Received.Replied (r : Received) : Prop := ∀ e ∈ r.reply, e.2 = true

/-- All bytes of the message have been sent and acknowledged, or read. -/
def AllMoved (msg : I2cMsg) (t : MsgTrace) : Prop :=
  if msg.has rtI2cRd then t.received.length = msg.len.toNat ∧ ∀ r ∈ t.received, r.Replied
  else t.sent.length = msg.len.toNat ∧ ∀ answer ∈ t.sent, msg.Accepts answer

/-- The message has been completed. -/
def Completed (msg : I2cMsg) (t : MsgTrace) : Prop :=
  (msg.has rtI2cNoStart = true ∨ msg.has rtI2cIgnoreNack = true ∨ AddressAcked msg t.address) ∧
    AllMoved msg t

/-- Bytes that are read have eight bits; each but the last byte of the message is acknowledged,
the last is not, unless the driver sends no acknowledge bits. -/
def ReadsOf (msg : I2cMsg) (offset : Nat) (received : List Received) : Prop :=
  ∀ j r, received[j]? = some r → r.bits.length = 8 ∧
    if msg.has rtI2cNoReadAck then r.reply = none
    else ∃ up, r.reply = some (decide (offset + j + 1 < msg.len.toNat), up)

/-- The trace is one of this message, as number `i` of a transfer. -/
structure MsgTrace.Of (msg : I2cMsg) (retries : UInt32) (i : Nat) (t : MsgTrace) : Prop where
  opening : if msg.has rtI2cNoStart then t.opening = [] ∧ t.address = []
    else if i = 0 then t.opening = startWave else ∃ up, t.opening = restartWave up
  address : AddressOf msg retries t.address
  sent : t.sent.length ≤ if msg.has rtI2cRd then 0 else msg.len.toNat
  received : t.received.length ≤ if msg.has rtI2cRd then msg.len.toNat else 0
  reads : ReadsOf msg 0 t.received
  cut : ∀ bits ∈ t.cut, msg.has rtI2cRd = true ∧ bits.length < 8

/-- The buffer has the bytes that were read, each made of its eight samples, and is as it was
otherwise. -/
def Stored (offset : Nat) (old buf : Nat → UInt8) (received : List Received) : Prop :=
  (∀ j r, received[j]? = some r → msbFirst (buf (offset + j)) = r.bits) ∧
    ∀ k, k < offset ∨ offset + received.length ≤ k → buf k = old k

/-! ## The address -/

theorem Answer.ret_eq_one (answer : Answer) : answer.ret = 1 ↔ answer = .ack := by
  cases answer with
  | ack => simp [Answer.ret]
  | nack => simp [Answer.ret]
  | stuck k => simp [Answer.ret, rtETimeout]

theorem Answer.ret_nonpos {answer : Answer} (h : answer ≠ .ack) : answer.ret ≤ 0 := by
  cases answer with
  | ack => exact absurd rfl h
  | nack => exact Int.le_refl 0
  | stuck k => simp [Answer.ret, rtETimeout]

theorem triesWave_cons (byte : UInt8) (e : Answer × Bool) (early : List (Answer × Bool)) :
    triesWave byte (e :: early) =
      outWave byte e.1 ++ stopWave e.2 ++ startWave ++ triesWave byte early :=
  List.flatMap_cons

namespace BitBus

variable (bus : BitBus) (retries : UInt32) (msg : I2cMsg) (log : LineLog)

/-- The retries that `i2c_bit_send_address` passes on. -/
def triesOf : Int := if msg.has rtI2cIgnoreNack then 0 else retries.toInt32.toInt

theorem sendTries_wave (addr : UInt8) (left : Nat) (log : LineLog) :
    ∃ early last, bus.sendTries addr left log =
        (Answer.ret last, log ++ triesWave addr early ++ outWave addr last) ∧
      early.length ≤ left ∧ ∀ e ∈ early, e.1 ≠ .ack := by
  induction left generalizing log with
  | zero =>
    obtain ⟨last, hlast⟩ := bus.i2cWriteb_wave log addr
    refine ⟨[], last, ?_, Nat.le_refl 0, fun e he => absurd he List.not_mem_nil⟩
    rw [sendTries, hlast, triesWave, List.flatMap_nil, List.append_nil]
  | succ left ih =>
    obtain ⟨answer, hanswer⟩ := bus.i2cWriteb_wave log addr
    by_cases hack : answer.ret = 1
    · refine ⟨[], answer, ?_, Nat.zero_le _, fun e he => absurd he List.not_mem_nil⟩
      simp only [sendTries, hanswer, if_pos hack, triesWave, List.flatMap_nil, List.append_nil]
    · obtain ⟨up, hup⟩ := bus.i2cStop_wave (log ++ outWave addr answer)
      obtain ⟨early, last, hlast, hlength, hearly⟩ :=
        ih (log ++ outWave addr answer ++ stopWave up ++ startWave)
      refine ⟨(answer, up) :: early, last, ?_, Nat.succ_le_succ hlength, ?_⟩
      · simp only [sendTries, hanswer, if_neg hack, hup]
        rw [show i2cStart (log ++ outWave addr answer ++ stopWave up) =
          log ++ outWave addr answer ++ stopWave up ++ startWave from rfl, hlast, triesWave_cons]
        simp only [List.append_assoc]
      · intro e he
        rcases List.mem_cons.mp he with rfl | he
        · exact fun h => hack ((Answer.ret_eq_one answer).mpr h)
        · exact hearly e he

theorem toInt32_toNat_le : retries.toInt32.toInt.toNat ≤ retries.toNat := by
  have h : retries.toInt32.toInt = retries.toBitVec.toInt := rfl
  rw [h, BitVec.toInt_eq_toNat_cond]
  have hnat : retries.toBitVec.toNat = retries.toNat := rfl
  split <;> omega

/-- A byte of the address is sent with all its tries. -/
theorem sendAddress_wave (addr : UInt8) (hretries : 0 ≤ triesOf retries msg) :
    ∃ early last, bus.sendAddress log addr (triesOf retries msg) =
        (Answer.ret last, log ++ triesWave addr early ++ outWave addr last) ∧
      (early.length ≤ if msg.has rtI2cIgnoreNack then 0 else retries.toNat) ∧
      ∀ e ∈ early, e.1 ≠ .ack := by
  obtain ⟨early, last, hlast, hlength, hearly⟩ :=
    bus.sendTries_wave addr (triesOf retries msg).toNat log
  refine ⟨early, last, ?_, ?_, hearly⟩
  · rw [sendAddress, if_neg (Int.not_lt.mpr hretries), hlast]
  · refine Nat.le_trans hlength ?_
    unfold triesOf
    split
    · exact Nat.le_refl 0
    · exact toInt32_toNat_le retries

/-- A byte of the address that stops the message. -/
abbrev Refuses (answer : Answer) : Prop := answer.ret ≠ 1 ∧ ¬ msg.has rtI2cIgnoreNack

/-- If a byte has not been acknowledged, the address is not. -/
theorem refuses_iff {address : List Sent} {a : Sent} (ha : a ∈ address)
    (h : Refuses msg a.last) :
    false = true ↔ msg.has rtI2cIgnoreNack = true ∨ AddressAcked msg address := by
  refine ⟨fun hfalse => absurd hfalse Bool.false_ne_true, ?_⟩
  rintro (hignore | hacked)
  · exact absurd hignore h.2
  · exact absurd ((Answer.ret_eq_one a.last).mpr (hacked.2 a ha)) h.1

/-- If no byte stops the message, the address is acknowledged, unless that does not matter. -/
theorem not_refuses_iff {address : List Sent} (hbytes : address.map Sent.byte = msg.addressBytes)
    (h : ∀ a ∈ address, ¬ Refuses msg a.last) :
    true = true ↔ msg.has rtI2cIgnoreNack = true ∨ AddressAcked msg address := by
  refine ⟨fun _ => ?_, fun _ => rfl⟩
  by_cases hignore : msg.has rtI2cIgnoreNack = true
  · exact .inl hignore
  · refine .inr ⟨hbytes, fun a ha => (Answer.ret_eq_one a.last).mp ?_⟩
    by_contra hret
    exact h a ha ⟨hret, hignore⟩

/-- A 7-bit address. -/
theorem bitSendAddress_addr7 (hbits : ¬ msg.has rtI2cAddr10bit)
    (hretries : 0 ≤ triesOf retries msg) :
    ∃ ok address, bus.bitSendAddress retries msg log = (ok, log ++ address.flatMap Sent.wave) ∧
      AddressOf msg retries address ∧
      (ok = true ↔ msg.has rtI2cIgnoreNack = true ∨ AddressAcked msg address) := by
  obtain ⟨early, last, hsend, htries⟩ :=
    bus.sendAddress_wave retries msg log (addr7 msg) hretries
  let a : Sent := ⟨addr7 msg, none, early, last⟩
  have hbytes : [a].map Sent.byte = msg.addressBytes := by
    rw [I2cMsg.addressBytes, if_neg hbits]
    rfl
  have hof : AddressOf msg retries [a] :=
    { bytes := hbytes ▸ List.prefix_rfl
      reopened := ⟨[false, true], rfl⟩
      tries := fun b hb => List.mem_singleton.mp hb ▸ htries }
  have hwave : log ++ [a].flatMap Sent.wave =
      log ++ triesWave (addr7 msg) early ++ outWave (addr7 msg) last := by
    simp [a, Sent.wave]
  by_cases hrefuses : Refuses msg last
  · refine ⟨false, [a], ?_, hof, refuses_iff msg List.mem_cons_self hrefuses⟩
    rw [hwave]
    unfold bitSendAddress
    simp only [if_neg hbits]
    rw [← triesOf, hsend]
    exact if_pos hrefuses
  · refine ⟨true, [a], ?_, hof,
      not_refuses_iff msg hbytes fun b hb => List.mem_singleton.mp hb ▸ hrefuses⟩
    rw [hwave]
    unfold bitSendAddress
    simp only [if_neg hbits]
    rw [← triesOf, hsend]
    exact if_neg hrefuses

/-- A 10-bit address in the code, by what becomes of its bytes. -/
theorem bitSendAddress_ten {last₁ last₂ last₃ : Answer} {log₁ log₂ log₃ : LineLog}
    (hbits : msg.has rtI2cAddr10bit)
    (hsend₁ : bus.sendAddress log (addr1 msg) (triesOf retries msg) = (Answer.ret last₁, log₁))
    (hsend₂ : bus.i2cWriteb log₁ (addr2 msg) = (Answer.ret last₂, log₂))
    (hsend₃ : bus.sendAddress (bus.i2cRestart log₂) (addr1 msg ||| 1) (triesOf retries msg) =
      (Answer.ret last₃, log₃)) :
    bus.bitSendAddress retries msg log =
      if Refuses msg last₁ then (false, log₁)
      else if Refuses msg last₂ then (false, log₂)
      else if msg.has rtI2cRd then if Refuses msg last₃ then (false, log₃) else (true, log₃)
      else (true, log₂) := by
  unfold bitSendAddress
  simp only [if_pos hbits]
  rw [← triesOf, hsend₁]
  dsimp only
  rw [hsend₂]
  dsimp only
  rw [hsend₃]

/-- A 10-bit address: two bytes, and for reading the first once more after a repeated START. -/
theorem bitSendAddress_addr10 (hbits : msg.has rtI2cAddr10bit)
    (hretries : 0 ≤ triesOf retries msg) :
    ∃ ok address, bus.bitSendAddress retries msg log = (ok, log ++ address.flatMap Sent.wave) ∧
      AddressOf msg retries address ∧
      (ok = true ↔ msg.has rtI2cIgnoreNack = true ∨ AddressAcked msg address) := by
  have haddress : msg.addressBytes =
      addr1 msg :: addr2 msg :: if msg.has rtI2cRd then [addr1 msg ||| 1] else [] := if_pos hbits
  obtain ⟨early₁, last₁, hsend₁, htries₁⟩ :=
    bus.sendAddress_wave retries msg log (addr1 msg) hretries
  let a₁ : Sent := ⟨addr1 msg, none, early₁, last₁⟩
  have hwave₁ : log ++ triesWave (addr1 msg) early₁ ++ outWave (addr1 msg) last₁ =
      log ++ [a₁].flatMap Sent.wave := by
    simp [a₁, Sent.wave]
  rw [hwave₁] at hsend₁
  obtain ⟨last₂, hsend₂⟩ := bus.i2cWriteb_wave (log ++ [a₁].flatMap Sent.wave) (addr2 msg)
  let a₂ : Sent := ⟨addr2 msg, none, [], last₂⟩
  have htries₂ : (a₂.early.length ≤ if msg.has rtI2cIgnoreNack then 0 else retries.toNat) ∧
      ∀ e ∈ a₂.early, e.1 ≠ .ack := ⟨Nat.zero_le _, fun e he => absurd he List.not_mem_nil⟩
  have hwave₂ : log ++ [a₁].flatMap Sent.wave ++ outWave (addr2 msg) last₂ =
      log ++ [a₁, a₂].flatMap Sent.wave := by
    simp [a₂, Sent.wave, triesWave]
  rw [hwave₂] at hsend₂
  obtain ⟨up, hup⟩ := bus.i2cRestart_wave (log ++ [a₁, a₂].flatMap Sent.wave)
  obtain ⟨early₃, last₃, hsend₃, htries₃⟩ := bus.sendAddress_wave retries msg
    (log ++ [a₁, a₂].flatMap Sent.wave ++ restartWave up) (addr1 msg ||| 1) hretries
  let a₃ : Sent := ⟨addr1 msg ||| 1, some up, early₃, last₃⟩
  have hwave₃ : log ++ [a₁, a₂].flatMap Sent.wave ++ restartWave up ++
      triesWave (addr1 msg ||| 1) early₃ ++ outWave (addr1 msg ||| 1) last₃ =
        log ++ [a₁, a₂, a₃].flatMap Sent.wave := by
    simp [a₃, Sent.wave]
  rw [hwave₃, ← hup] at hsend₃
  have hcode := bus.bitSendAddress_ten retries msg log hbits hsend₁ hsend₂ hsend₃
  by_cases hrefuses₁ : Refuses msg last₁
  · refine ⟨false, [a₁], hcode.trans (if_pos hrefuses₁), ⟨?_, ⟨[false, true], rfl⟩, ?_⟩,
      refuses_iff msg List.mem_cons_self hrefuses₁⟩
    · exact haddress ▸ ⟨_, rfl⟩
    · exact List.forall_mem_singleton.mpr htries₁
  rw [if_neg hrefuses₁] at hcode
  by_cases hrefuses₂ : Refuses msg last₂
  · refine ⟨false, [a₁, a₂], hcode.trans (if_pos hrefuses₂), ⟨?_, ⟨[true], rfl⟩, ?_⟩,
      refuses_iff msg (List.mem_cons_of_mem _ List.mem_cons_self) hrefuses₂⟩
    · exact haddress ▸ ⟨_, rfl⟩
    · exact List.forall_mem_cons.mpr ⟨htries₁, List.forall_mem_singleton.mpr htries₂⟩
  rw [if_neg hrefuses₂] at hcode
  by_cases hread : msg.has rtI2cRd
  · rw [if_pos hread] at hcode
    have hbytes : [a₁, a₂, a₃].map Sent.byte = msg.addressBytes := by
      rw [haddress, if_pos hread]
      rfl
    have hof : AddressOf msg retries [a₁, a₂, a₃] :=
      { bytes := hbytes ▸ List.prefix_rfl
        reopened := List.prefix_rfl
        tries := List.forall_mem_cons.mpr ⟨htries₁,
          List.forall_mem_cons.mpr ⟨htries₂, List.forall_mem_singleton.mpr htries₃⟩⟩ }
    by_cases hrefuses₃ : Refuses msg last₃
    · exact ⟨false, [a₁, a₂, a₃], hcode.trans (if_pos hrefuses₃), hof,
        refuses_iff msg (a := a₃) (by simp) hrefuses₃⟩
    · have hnone : ∀ a ∈ [a₁, a₂, a₃], ¬ Refuses msg a.last :=
        List.forall_mem_cons.mpr ⟨hrefuses₁,
          List.forall_mem_cons.mpr ⟨hrefuses₂, List.forall_mem_singleton.mpr hrefuses₃⟩⟩
      exact ⟨true, [a₁, a₂, a₃], hcode.trans (if_neg hrefuses₃), hof,
        not_refuses_iff msg hbytes hnone⟩
  · have hbytes : [a₁, a₂].map Sent.byte = msg.addressBytes := by
      rw [haddress, if_neg hread]
      rfl
    have hnone : ∀ a ∈ [a₁, a₂], ¬ Refuses msg a.last :=
      List.forall_mem_cons.mpr ⟨hrefuses₁, List.forall_mem_singleton.mpr hrefuses₂⟩
    refine ⟨true, [a₁, a₂], hcode.trans (if_neg hread),
      ⟨hbytes ▸ List.prefix_rfl, ⟨[true], rfl⟩, ?_⟩, not_refuses_iff msg hbytes hnone⟩
    exact List.forall_mem_cons.mpr ⟨htries₁, List.forall_mem_singleton.mpr htries₂⟩

/-- The address is sent up to a byte that is not acknowledged; `i2c_bit_send_address` says
whether there is one. -/
theorem bitSendAddress_wave :
    ∃ ok address, bus.bitSendAddress retries msg log = (ok, log ++ address.flatMap Sent.wave) ∧
      AddressOf msg retries address ∧
      (ok = true ↔ msg.has rtI2cIgnoreNack = true ∨ AddressAcked msg address) := by
  by_cases hretries : 0 ≤ triesOf retries msg
  · by_cases hbits : msg.has rtI2cAddr10bit
    · exact bus.bitSendAddress_addr10 retries msg log hbits hretries
    · exact bus.bitSendAddress_addr7 retries msg log hbits hretries
  -- with a negative number of retries nothing is sent
  have hnone : ∀ addr, bus.sendAddress log addr (triesOf retries msg) = (0, log) :=
    fun addr => if_pos (Int.not_le.mp hretries)
  have hignore : ¬ msg.has rtI2cIgnoreNack = true :=
    fun h => hretries (le_of_le_of_eq (Int.le_refl 0) (if_pos h).symm)
  have hrefuses : Refuses msg .nack := ⟨by decide, hignore⟩
  refine ⟨false, [], ?_, ⟨List.nil_prefix, List.nil_prefix, fun a ha =>
    absurd ha List.not_mem_nil⟩, fun h => absurd h Bool.false_ne_true, ?_⟩
  · rw [List.flatMap_nil, List.append_nil]
    unfold bitSendAddress
    by_cases hbits : msg.has rtI2cAddr10bit
    · simp only [if_pos hbits]
      rw [← triesOf, hnone]
      exact if_pos hrefuses
    · simp only [if_neg hbits]
      rw [← triesOf, hnone]
      exact if_pos hrefuses
  · rintro (h | ⟨hbytes, -⟩)
    · exact absurd h hignore
    · unfold I2cMsg.addressBytes at hbytes
      split at hbytes
      · exact absurd hbytes (List.cons_ne_nil _ _).symm
      · exact absurd hbytes (List.cons_ne_nil _ _).symm

/-! ## The bytes -/

/-- The bytes are sent up to one that is not accepted. -/
theorem sendBytes_wave (count bytes : Nat) (log : LineLog) :
    ∃ ret sent, bus.sendBytes msg count bytes log = (ret, log ++ sentWave msg.buf bytes sent) ∧
      sent.length ≤ count ∧
      ((ret = (bytes + count : Nat) ∧ sent.length = count ∧ ∀ answer ∈ sent, msg.Accepts answer) ∨
        (ret ≤ 0 ∧ 0 < count ∧ ∃ answer ∈ sent, ¬ msg.Accepts answer)) := by
  induction count generalizing bytes log with
  | zero =>
    refine ⟨bytes, [], ?_, Nat.le_refl 0, .inl ⟨rfl, rfl, fun a ha => absurd ha List.not_mem_nil⟩⟩
    rw [sendBytes, sentWave, List.append_nil]
  | succ count ih =>
    obtain ⟨answer, hanswer⟩ := bus.i2cWriteb_wave log (msg.buf bytes)
    have haccepts : (answer.ret > 0 ∨ msg.has rtI2cIgnoreNack ∧ answer.ret = 0) ↔
        msg.Accepts answer := by
      cases answer with
      | ack => simp [Answer.ret, I2cMsg.Accepts]
      | nack => simp [Answer.ret, I2cMsg.Accepts]
      | stuck k => simp [Answer.ret, I2cMsg.Accepts, rtETimeout]
    by_cases hok : msg.Accepts answer
    · obtain ⟨ret, sent, hsend, hlength, hsent⟩ :=
        ih (bytes + 1) (log ++ outWave (msg.buf bytes) answer)
      refine ⟨ret, answer :: sent, ?_, Nat.succ_le_succ hlength, ?_⟩
      · simp only [sendBytes, hanswer, if_pos (haccepts.mpr hok), hsend, sentWave,
          List.append_assoc]
      · rcases hsent with ⟨hret, hall, haccept⟩ | ⟨hret, -, b, hb, hrefused⟩
        · refine .inl ⟨by rw [hret, Nat.add_right_comm, Nat.add_assoc], ?_, ?_⟩
          · rw [List.length_cons, hall]
          · exact List.forall_mem_cons.mpr ⟨hok, haccept⟩
        · exact .inr ⟨hret, Nat.succ_pos count, b, List.mem_cons_of_mem _ hb, hrefused⟩
    · refine ⟨answer.ret, [answer], ?_, Nat.succ_le_succ (Nat.zero_le count),
        .inr ⟨Answer.ret_nonpos fun hack => hok (.inl hack), Nat.succ_pos count,
          answer, List.mem_cons_self, hok⟩⟩
      simp only [sendBytes, hanswer, if_neg (fun h => hok (haccepts.mp h)), sentWave,
        List.append_nil]
      split
      · next hzero => rw [hzero]
      · rfl

theorem stored_nil (offset : Nat) (buf : Nat → UInt8) : Stored offset buf buf [] :=
  ⟨fun j r h => absurd h (by simp), fun _ _ => rfl⟩

/-- One more byte in front. -/
theorem stored_cons {offset : Nat} {old buf : Nat → UInt8} {r : Received}
    {received : List Received} {byte : UInt8} (hr : r.bits = msbFirst byte)
    (h : Stored (offset + 1) (Function.update old offset byte) buf received) :
    Stored offset old buf (r :: received) := by
  refine ⟨fun j r' hr' => ?_, fun k hk => ?_⟩
  · cases j with
    | zero =>
      rw [List.getElem?_cons_zero, Option.some.injEq] at hr'
      rw [← hr', hr, Nat.add_zero, h.2 offset (.inl (Nat.lt_succ_self offset)),
        Function.update_self]
    | succ j =>
      rw [List.getElem?_cons_succ] at hr'
      rw [← h.1 j r' hr', Nat.add_right_comm, Nat.add_assoc]
  · rw [List.length_cons] at hk
    rw [h.2 k (by omega), Function.update_of_ne (by omega)]

theorem readsOf_nil (offset : Nat) : ReadsOf msg offset [] :=
  fun j r h => absurd h (by simp)

theorem readsOf_cons {offset : Nat} {r : Received} {received : List Received}
    (hr : r.bits.length = 8 ∧ if msg.has rtI2cNoReadAck then r.reply = none
      else ∃ up, r.reply = some (decide (offset + 1 < msg.len.toNat), up))
    (h : ReadsOf msg (offset + 1) received) : ReadsOf msg offset (r :: received) := by
  intro j r' hr'
  cases j with
  | zero =>
    rw [List.getElem?_cons_zero, Option.some.injEq] at hr'
    exact hr' ▸ hr
  | succ j =>
    rw [List.getElem?_cons_succ] at hr'
    have hj := h j r' hr'
    rwa [Nat.add_right_comm offset 1 j, Nat.add_assoc offset j 1] at hj

/-- The result of reading `count` more bytes at an offset. -/
structure RecvRight (count offset : Nat) (old : Nat → UInt8) (log : LineLog)
    (result : Int × (Nat → UInt8) × LineLog) (received : List Received)
    (cut : Option (List Bool)) : Prop where
  lines : result.2.2 = log ++ received.flatMap Received.wave ++ cutWave cut
  atMost : received.length ≤ count
  reads : ReadsOf msg offset received
  stored : Stored offset old result.2.1 received
  short : ∀ bits ∈ cut, bits.length < 8
  ret : (result.1 = (offset + count : Nat) ∧ received.length = count ∧
      ∀ r ∈ received, r.Replied) ∨
    (result.1 < (offset + count : Nat) ∧
      ¬ (received.length = count ∧ ∀ r ∈ received, r.Replied))

/-- One more byte in front, with its acknowledge bit. -/
theorem RecvRight.cons {count offset : Nat} {old : Nat → UInt8} {log : LineLog} {byte : UInt8}
    {reply : Option (Bool × Bool)} {result : Int × (Nat → UInt8) × LineLog}
    {received : List Received} {cut : Option (List Bool)}
    (hreply : if msg.has rtI2cNoReadAck then reply = none
      else reply = some (decide (offset + 1 < msg.len.toNat), true))
    (h : RecvRight msg count (offset + 1) (Function.update old offset byte)
      (log ++ Received.wave ⟨msbFirst byte, reply⟩) result received cut) :
    RecvRight msg (count + 1) offset old log result (⟨msbFirst byte, reply⟩ :: received) cut := by
  let r : Received := ⟨msbFirst byte, reply⟩
  have hr : r.Replied := by
    intro e he
    split at hreply
    · exact absurd he (by simp [r, hreply])
    · simp only [r, hreply, Option.mem_def, Option.some.injEq] at he
      rw [← he]
  refine ⟨?_, Nat.succ_le_succ h.atMost, readsOf_cons msg ⟨msbFirst_length byte, ?_⟩ h.reads,
    stored_cons rfl h.stored, h.short, ?_⟩
  · rw [h.lines, List.flatMap_cons]
    simp only [List.append_assoc]
  · split at hreply
    · next hack => rwa [if_pos hack]
    · next hack => exact (if_neg hack).symm ▸ ⟨true, hreply⟩
  · have hsum : offset + 1 + count = offset + (count + 1) := by omega
    have hret := h.ret
    rw [hsum] at hret
    rw [List.length_cons, Nat.add_right_cancel_iff, List.forall_mem_cons]
    rcases hret with ⟨hret, hall, hreplied⟩ | ⟨hret, hnot⟩
    · exact .inl ⟨hret, hall, hr, hreplied⟩
    · exact .inr ⟨hret, fun h => hnot ⟨h.1, h.2.2⟩⟩

/-- The bytes are read and stored up to one that SCL cuts short, or that is followed by an
acknowledge bit that SCL cuts short. -/
theorem recvBytes_right (count bytes : Nat) (buf : Nat → UInt8) (log : LineLog)
    (hlen : msg.len.toNat = bytes + count) :
    ∃ received cut, RecvRight msg count bytes buf log (bus.recvBytes msg count bytes buf log)
      received cut := by
  induction count generalizing bytes buf log with
  | zero =>
    exact ⟨[], none,
      { lines := (List.append_nil _).symm.trans (congrArg (· ++ []) (List.append_nil log).symm)
        atMost := Nat.le_refl 0
        reads := readsOf_nil msg bytes
        stored := stored_nil bytes buf
        short := fun bits h => absurd h (by simp)
        ret := .inl ⟨rfl, rfl, fun r hr => absurd hr List.not_mem_nil⟩ }⟩
  | succ count ih =>
    have hlen' : msg.len.toNat = bytes + 1 + count := by omega
    rcases bus.i2cReadb_wave log with ⟨byte, hbyte⟩ | ⟨bits, hbits, hcut⟩
    · by_cases hack : msg.has rtI2cNoReadAck
      · obtain ⟨received, cut, hrest⟩ := ih (bytes + 1) (Function.update buf bytes byte)
          (log ++ Received.wave ⟨msbFirst byte, none⟩) hlen'
        have hcode : bus.recvBytes msg (count + 1) bytes buf log =
            bus.recvBytes msg count (bytes + 1) (Function.update buf bytes byte)
              (log ++ Received.wave ⟨msbFirst byte, none⟩) := by
          simp only [recvBytes, hbyte, if_pos hack, Received.wave, Option.elim_none,
            List.append_nil]
        rw [hcode]
        exact ⟨_, cut, hrest.cons msg (if_pos hack |>.mpr rfl)⟩
      · obtain ⟨up, hup⟩ := bus.i2cSendAckOrNack_wave (log ++ inWave (msbFirst byte)) count
        have hmore : decide (count ≠ 0) = decide (bytes + 1 < msg.len.toNat) := by
          rw [decide_eq_decide]
          omega
        rw [hmore, List.append_assoc] at hup
        let reply := (decide (bytes + 1 < msg.len.toNat), up)
        cases up with
        | true =>
          obtain ⟨received, cut, hrest⟩ := ih (bytes + 1) (Function.update buf bytes byte)
            (log ++ Received.wave ⟨msbFirst byte, some reply⟩) hlen'
          have hcode : bus.recvBytes msg (count + 1) bytes buf log =
              bus.recvBytes msg count (bytes + 1) (Function.update buf bytes byte)
                (log ++ Received.wave ⟨msbFirst byte, some reply⟩) := by
            simp only [recvBytes, hbyte, if_neg hack, Received.wave, Option.elim_some]
            rw [hup]
            exact if_pos rfl
          rw [hcode]
          exact ⟨_, cut, hrest.cons msg (if_neg hack |>.mpr rfl)⟩
        | false =>
          let r : Received := ⟨msbFirst byte, some reply⟩
          have hcode : bus.recvBytes msg (count + 1) bytes buf log =
              (-rtETimeout, Function.update buf bytes byte, log ++ r.wave) := by
            simp only [recvBytes, hbyte, if_neg hack]
            rw [hup]
            rfl
          rw [hcode]
          exact ⟨[r], none,
            { lines := by simp [cutWave]
              atMost := Nat.succ_le_succ (Nat.zero_le count)
              reads := readsOf_cons msg ⟨msbFirst_length byte,
                (if_neg hack).symm ▸ ⟨false, rfl⟩⟩ (readsOf_nil msg _)
              stored := stored_cons rfl (stored_nil _ _)
              short := fun bits h => absurd h (by simp)
              ret := .inr ⟨by simp only [rtETimeout]; omega,
                fun h => absurd (h.2 r List.mem_cons_self _ rfl) Bool.false_ne_true⟩ }⟩
    · refine ⟨[], some bits,
        { lines := ?_
          atMost := Nat.zero_le _
          reads := readsOf_nil msg bytes
          stored := ?_
          short := fun b hb => Option.some.inj hb ▸ hbits
          ret := .inr ⟨?_, fun h => absurd h.1 (Nat.succ_ne_zero count).symm⟩ }⟩
      · simp [recvBytes, hcut, cutWave]
      · simpa only [recvBytes, hcut] using stored_nil bytes buf
      · simp only [recvBytes, hcut]
        omega

/-! ## A message -/

/-- The body of the loop moves the bytes of the message; it goes to `out` with an error exactly
if not all are moved. -/
theorem moveBytes_wave (opening : LineLog) (address : List Sent) :
    ∃ error buf sent received cut,
      let t : MsgTrace := ⟨opening, address, sent, received, cut⟩
      bus.moveBytes msg log = (error, buf, log ++ t.moved msg) ∧
      (sent.length ≤ if msg.has rtI2cRd then 0 else msg.len.toNat) ∧
      (received.length ≤ if msg.has rtI2cRd then msg.len.toNat else 0) ∧
      ReadsOf msg 0 received ∧ (∀ bits ∈ cut, msg.has rtI2cRd = true ∧ bits.length < 8) ∧
      Stored 0 msg.buf buf received ∧ (error = none ↔ AllMoved msg t) ∧ ∀ e ∈ error, e < 0 := by
  by_cases hread : msg.has rtI2cRd
  · obtain ⟨received, cut, h⟩ :=
      bus.recvBytes_right msg msg.len.toNat 0 msg.buf log (Nat.zero_add _).symm
    obtain ⟨ret, buf, log', hrecv⟩ :
        ∃ ret buf log', bus.recvBytes msg msg.len.toNat 0 msg.buf log = (ret, buf, log') :=
      ⟨_, _, _, rfl⟩
    rw [hrecv] at h
    have hret := h.ret
    rw [Nat.zero_add] at hret
    have hall : ∀ sent, AllMoved msg ⟨opening, address, sent, received, cut⟩ ↔
        received.length = msg.len.toNat ∧ ∀ r ∈ received, r.Replied := by
      intro sent
      unfold AllMoved
      rw [if_pos hread]
    refine ⟨if ret < msg.len.toNat then some (if ret ≥ 0 then -rtEIo else ret) else none, buf,
      [], received, cut, ?_, Nat.zero_le _, ?_, h.reads, fun bits hb => ⟨hread, h.short bits hb⟩,
      h.stored, ?_, ?_⟩
    · have hlines : log' = log ++ MsgTrace.moved msg ⟨opening, address, [], received, cut⟩ := by
        rw [show log' = _ from h.lines, MsgTrace.moved, sentWave, List.nil_append,
          List.append_assoc]
      rw [← hlines]
      simp only [moveBytes, if_pos hread, hrecv]
      split <;> rfl
    · rw [if_pos hread]
      exact h.atMost
    · rw [hall]
      rcases hret with ⟨hret, hdone⟩ | ⟨hret, hnot⟩
      · rw [if_neg (by omega)]
        exact ⟨fun _ => hdone, fun _ => rfl⟩
      · rw [if_pos hret]
        exact ⟨fun h => absurd h (by simp), fun h => absurd h hnot⟩
    · intro e he
      split at he
      · rw [← Option.some.inj he]
        split
        · decide
        · omega
      · exact absurd he (by simp)
  · obtain ⟨ret, sent, hsend, hatMost, hret⟩ := bus.sendBytes_wave msg msg.len.toNat 0 log
    rw [Nat.zero_add] at hret
    have hall : AllMoved msg ⟨opening, address, sent, [], none⟩ ↔
        sent.length = msg.len.toNat ∧ ∀ answer ∈ sent, msg.Accepts answer := by
      unfold AllMoved
      rw [if_neg hread]
    refine ⟨if ret < msg.len.toNat then some (if ret ≥ 0 then -rtError else ret) else none,
      msg.buf, sent, [], none, ?_, ?_, Nat.zero_le _, readsOf_nil msg 0,
      fun bits hb => absurd hb (by simp), stored_nil 0 msg.buf, ?_, ?_⟩
    · have hlines : log ++ MsgTrace.moved msg ⟨opening, address, sent, [], none⟩ =
          log ++ sentWave msg.buf 0 sent := by
        rw [MsgTrace.moved, List.flatMap_nil, cutWave, Option.elim_none, List.append_nil,
          List.append_nil]
      rw [hlines]
      simp only [moveBytes, if_neg hread, hsend]
      split <;> rfl
    · rw [if_neg hread]
      exact hatMost
    · rw [hall]
      rcases hret with ⟨hret, hdone⟩ | ⟨hret, hpos, answer, hmem, hnot⟩
      · rw [if_neg (by omega)]
        exact ⟨fun _ => hdone, fun _ => rfl⟩
      · rw [if_pos (by omega)]
        exact ⟨fun h => absurd h (by simp), fun h => absurd (h.2 answer hmem) hnot⟩
    · intro e he
      split at he
      · rw [← Option.some.inj he]
        split
        · decide
        · omega
      · exact absurd he (by simp)

/-- What becomes of one message. -/
structure MsgRight (retries : UInt32) (i : Nat) (msg : I2cMsg) (log : LineLog)
    (result : Option Int × (Nat → UInt8) × LineLog) (t : MsgTrace) : Prop where
  lines : result.2.2 = log ++ t.wave msg
  traced : t.Of msg retries i
  stored : Stored 0 msg.buf result.2.1 t.received
  done : result.1 = none ↔ Completed msg t
  error : ∀ e ∈ result.1, e < 0

theorem xferMsg_right (i : Nat) :
    ∃ t, MsgRight retries i msg log (bus.xferMsg retries i msg log) t := by
  by_cases hstart : msg.has rtI2cNoStart
  · obtain ⟨error, buf, sent, received, cut, hmove, hsent, hreceived, hreads, hcut, hstored,
      hdone, herror⟩ := bus.moveBytes_wave msg log [] []
    have hcode : bus.xferMsg retries i msg log = bus.moveBytes msg log := if_pos hstart
    rw [hcode, hmove]
    refine ⟨⟨[], [], sent, received, cut⟩,
      { lines := rfl
        traced := ⟨?_, ⟨List.nil_prefix, List.nil_prefix, fun a ha =>
          absurd ha List.not_mem_nil⟩, hsent, hreceived, hreads, hcut⟩
        stored := hstored
        done := hdone.trans ⟨fun h => ⟨.inl hstart, h⟩, fun h => h.2⟩
        error := herror }⟩
    exact if_pos hstart |>.mpr ⟨rfl, rfl⟩
  · obtain ⟨opening, hopening, hopened⟩ : ∃ opening,
        (if i ≠ 0 then bus.i2cRestart log else i2cStart log) = log ++ opening ∧
        if i = 0 then opening = startWave else ∃ up, opening = restartWave up := by
      by_cases hi : i = 0
      · exact ⟨startWave, if_neg (not_not.mpr hi), if_pos hi |>.mpr rfl⟩
      · obtain ⟨up, hup⟩ := bus.i2cRestart_wave log
        exact ⟨restartWave up, (if_pos hi).trans hup, if_neg hi |>.mpr ⟨up, rfl⟩⟩
    obtain ⟨ok, address, hsend, haddress, hok⟩ :=
      bus.bitSendAddress_wave retries msg (log ++ opening)
    by_cases hfails : (!ok) = true ∧ ¬ msg.has rtI2cIgnoreNack
    · have hcode : bus.xferMsg retries i msg log =
          (some (-rtEIo), msg.buf, log ++ opening ++ address.flatMap Sent.wave) := by
        simp only [xferMsg, if_neg hstart, hopening, hsend, if_pos hfails]
      rw [hcode]
      refine ⟨⟨opening, address, [], [], none⟩,
        { lines := ?_
          traced := ⟨?_, haddress, Nat.zero_le _, Nat.zero_le _, readsOf_nil msg 0,
            fun bits hb => absurd hb (by simp)⟩
          stored := stored_nil 0 msg.buf
          done := ⟨fun h => absurd h (by simp), ?_⟩
          error := fun e he => Option.some.inj he ▸ by decide }⟩
      · simp [MsgTrace.wave, MsgTrace.moved, sentWave, cutWave]
      · exact if_neg hstart |>.mpr hopened
      · rintro ⟨h | h | h, -⟩
        · exact absurd h hstart
        · exact absurd h hfails.2
        · exact absurd (hok.mpr (.inr h)) (by simpa using hfails.1)
    · obtain ⟨error, buf, sent, received, cut, hmove, hsent, hreceived, hreads, hcut, hstored,
        hdone, herror⟩ :=
        bus.moveBytes_wave msg (log ++ opening ++ address.flatMap Sent.wave) opening address
      have hcode : bus.xferMsg retries i msg log =
          bus.moveBytes msg (log ++ opening ++ address.flatMap Sent.wave) := by
        simp only [xferMsg, if_neg hstart, hopening, hsend, if_neg hfails]
      rw [hcode, hmove]
      refine ⟨⟨opening, address, sent, received, cut⟩,
        { lines := ?_
          traced := ⟨?_, haddress, hsent, hreceived, hreads, hcut⟩
          stored := hstored
          done := hdone.trans ⟨fun h => ⟨.inr ?_, h⟩, fun h => h.2⟩
          error := herror }⟩
      · simp only [MsgTrace.wave, List.append_assoc]
      · exact if_neg hstart |>.mpr hopened
      · by_cases hignore : msg.has rtI2cIgnoreNack = true
        · exact .inl hignore
        · have hyes : ok = true := by
            by_contra hno
            exact hfails ⟨by simpa using hno, hignore⟩
          exact hok.mp hyes

/-! ## A transfer -/

/-- What ends a transfer after the messages that are attempted: a STOP, unless the last of them
asks for none. -/
def endWave (attempted : List (I2cMsg × MsgTrace)) (up : Bool) : LineLog :=
  match attempted.getLast? with
  | some p => if p.1.has rtI2cNoStop then [] else stopWave up
  | none => []

/-- A transfer that begins with message `i`: the messages that are attempted, in order, with what
becomes of them. -/
structure XferRight (retries : UInt32) (i : Nat) (msgs : List I2cMsg) (log : LineLog)
    (r : XferResult) (attempted : List (I2cMsg × MsgTrace)) : Prop where
  /-- the messages are attempted in order -/
  inOrder : attempted.map Prod.fst <+: msgs
  /-- what becomes of each is as the message says -/
  traced : ∀ (k : Nat) (p : I2cMsg × MsgTrace), attempted[k]? = some p → p.2.Of p.1 retries (i + k)
  /-- all but the last are completed -/
  before : ∀ p ∈ attempted.dropLast, Completed p.1 p.2
  /-- the lines show what becomes of them, and the STOP -/
  lines : ∃ up, r.log = log ++ attempted.flatMap (fun p => p.2.wave p.1) ++ endWave attempted up
  /-- the number of messages is returned exactly if all are completed -/
  ret : r.ret = (i + msgs.length : Nat) ↔
    attempted.length = msgs.length ∧ ∀ p ∈ attempted, Completed p.1 p.2
  /-- otherwise the last that is attempted has failed -/
  failed : r.ret ≠ (i + msgs.length : Nat) → r.ret < 0 ∧
    ∃ p, attempted.getLast? = some p ∧ ¬ Completed p.1 p.2
  /-- the bytes that were read are stored -/
  stored : ∀ (k : Nat) (p : I2cMsg × MsgTrace), attempted[k]? = some p →
    ∃ buf, r.bufs[k]? = some buf ∧ Stored 0 p.1.buf buf p.2.received
  /-- the buffers of the other messages are as they were -/
  kept : r.bufs.drop attempted.length = (msgs.drop attempted.length).map I2cMsg.buf

/-- The loop goes on after a message that is completed. -/
theorem XferRight.cons {retries : UInt32} {i : Nat} {msg : I2cMsg} {msgs : List I2cMsg}
    {log log' : LineLog} {buf : Nat → UInt8} {t : MsgTrace} {r : XferResult}
    {attempted : List (I2cMsg × MsgTrace)} (hne : attempted ≠ [])
    (hmsg : MsgRight retries i msg log (none, buf, log') t)
    (h : XferRight retries (i + 1) msgs log' r attempted) :
    XferRight retries i (msg :: msgs) log { r with bufs := buf :: r.bufs }
      ((msg, t) :: attempted) := by
  have hdone : Completed msg t := hmsg.done.mp rfl
  have hsum : i + 1 + msgs.length = i + (msg :: msgs).length := by
    rw [List.length_cons]
    omega
  have hlast : ((msg, t) :: attempted).getLast? = attempted.getLast? := by
    rw [List.getLast?_cons]
    cases hlast : attempted.getLast? with
    | none => exact absurd (List.getLast?_eq_none_iff.mp hlast) hne
    | some p => rfl
  refine
    { inOrder := ?_, traced := ?_, before := ?_, lines := ?_, ret := ?_, failed := ?_, stored := ?_,
      kept := h.kept }
  · rw [List.map_cons, List.prefix_cons_inj]
    exact h.inOrder
  · intro k p hp
    cases k with
    | zero =>
      rw [List.getElem?_cons_zero, Option.some.injEq] at hp
      exact hp ▸ hmsg.traced
    | succ k =>
      rw [List.getElem?_cons_succ] at hp
      have hk := h.traced k p hp
      rwa [Nat.add_right_comm, Nat.add_assoc] at hk
  · rw [List.dropLast_cons_of_ne_nil hne]
    exact List.forall_mem_cons.mpr ⟨hdone, h.before⟩
  · obtain ⟨up, hup⟩ := h.lines
    refine ⟨up, ?_⟩
    have hend : endWave ((msg, t) :: attempted) up = endWave attempted up := by
      unfold endWave
      rw [hlast]
    rw [hup, show log' = log ++ t.wave msg from hmsg.lines, List.flatMap_cons, hend]
    simp only [List.append_assoc]
  · have hret := h.ret
    rw [hsum] at hret
    rw [hret, List.length_cons, List.length_cons, Nat.add_right_cancel_iff, List.forall_mem_cons]
    exact ⟨fun h => ⟨h.1, hdone, h.2⟩, fun h => ⟨h.1, h.2.2⟩⟩
  · have hfailed := h.failed
    rw [hsum] at hfailed
    rw [hlast]
    exact hfailed
  · intro k p hp
    cases k with
    | zero =>
      rw [List.getElem?_cons_zero, Option.some.injEq] at hp
      exact hp ▸ ⟨buf, rfl, hmsg.stored⟩
    | succ k =>
      rw [List.getElem?_cons_succ] at hp
      rw [List.getElem?_cons_succ]
      exact h.stored k p hp

/-- The STOP after a message. -/
theorem xferOut_wave : ∃ up, ∀ t, bus.xferOut msg log = log ++ endWave [(msg, t)] up := by
  obtain ⟨up, hup⟩ := bus.i2cStop_wave log
  refine ⟨up, fun t => ?_⟩
  unfold xferOut endWave
  rw [List.getLast?_singleton]
  by_cases hstop : msg.has rtI2cNoStop
  · simp only [if_pos hstop, List.append_nil]
  · simp only [if_neg hstop, hup]

/-- The loop ends with the message. -/
theorem xferRight_last {retries : UInt32} {i : Nat} {msg : I2cMsg} {rest : List I2cMsg}
    {log log' : LineLog} {error : Option Int} {buf : Nat → UInt8} {t : MsgTrace} {ret : Int}
    (hmsg : MsgRight retries i msg log (error, buf, log') t)
    (hret : error = none ∧ rest = [] ∧ ret = (i + 1 : Nat) ∨ error = some ret) :
    XferRight retries i (msg :: rest) log
      ⟨ret, buf :: rest.map I2cMsg.buf, bus.xferOut msg log'⟩ [(msg, t)] := by
  have hfails : error = some ret → ret < 0 ∧ ¬ Completed msg t := fun herror =>
    ⟨hmsg.error ret herror, fun hdone =>
      absurd (herror.symm.trans (hmsg.done.mpr hdone)) (by simp)⟩
  refine
    { inOrder := ⟨rest, rfl⟩, traced := ?_, before := fun p hp => absurd hp List.not_mem_nil
      lines := ?_, ret := ?_, failed := ?_, stored := ?_, kept := rfl }
  · intro k p hp
    obtain ⟨rfl, rfl⟩ : k = 0 ∧ (msg, t) = p := by
      cases k with
      | zero => exact ⟨rfl, Option.some.inj hp⟩
      | succ k => exact absurd hp (by simp)
    exact hmsg.traced
  · obtain ⟨up, hup⟩ := bus.xferOut_wave msg log'
    refine ⟨up, ?_⟩
    rw [hup t, show log' = log ++ t.wave msg from hmsg.lines, List.flatMap_cons, List.flatMap_nil,
      List.append_nil]
  · rcases hret with ⟨herror, rfl, rfl⟩ | herror
    · exact ⟨fun _ => ⟨rfl, fun p hp => List.mem_singleton.mp hp ▸ hmsg.done.mp herror⟩,
        fun _ => rfl⟩
    · refine ⟨fun h => ?_, fun h => ?_⟩
      · have hneg := (hfails herror).1
        simp only at h
        omega
      · exact absurd (h.2 _ List.mem_cons_self) (hfails herror).2
  · intro h
    rcases hret with ⟨-, rfl, rfl⟩ | herror
    · exact absurd rfl h
    · exact ⟨(hfails herror).1, (msg, t), rfl, (hfails herror).2⟩
  · intro k p hp
    obtain ⟨rfl, rfl⟩ : k = 0 ∧ (msg, t) = p := by
      cases k with
      | zero => exact ⟨rfl, Option.some.inj hp⟩
      | succ k => exact absurd hp (by simp)
    exact ⟨buf, rfl, hmsg.stored⟩

theorem xferFrom_right (rest : List I2cMsg) (i : Nat) (msg : I2cMsg) (log : LineLog) :
    ∃ attempted, attempted ≠ [] ∧
      XferRight retries i (msg :: rest) log (bus.xferFrom retries i msg rest log) attempted := by
  induction rest generalizing i msg log with
  | nil =>
    obtain ⟨t, hmsg⟩ := bus.xferMsg_right retries msg log i
    obtain ⟨error, buf, log', hxfer⟩ :
        ∃ error buf log', bus.xferMsg retries i msg log = (error, buf, log') := ⟨_, _, _, rfl⟩
    rw [hxfer] at hmsg
    refine ⟨[(msg, t)], List.cons_ne_nil _ _, ?_⟩
    cases error with
    | none =>
      unfold xferFrom
      rw [hxfer]
      exact bus.xferRight_last hmsg (.inl ⟨rfl, rfl, rfl⟩)
    | some ret =>
      unfold xferFrom
      rw [hxfer]
      exact bus.xferRight_last hmsg (.inr rfl)
  | cons next rest ih =>
    obtain ⟨t, hmsg⟩ := bus.xferMsg_right retries msg log i
    obtain ⟨error, buf, log', hxfer⟩ :
        ∃ error buf log', bus.xferMsg retries i msg log = (error, buf, log') := ⟨_, _, _, rfl⟩
    rw [hxfer] at hmsg
    cases error with
    | none =>
      obtain ⟨attempted, hne, hrest⟩ := ih (i + 1) next log'
      refine ⟨(msg, t) :: attempted, List.cons_ne_nil _ _, ?_⟩
      unfold xferFrom
      rw [hxfer]
      exact hrest.cons hne hmsg
    | some ret =>
      refine ⟨[(msg, t)], List.cons_ne_nil _ _, ?_⟩
      unfold xferFrom
      rw [hxfer]
      exact bus.xferRight_last hmsg (.inr rfl)

/-- Whatever the messages and the bus do, a transfer returns the number of messages exactly if
all are completed, the lines show them in order, and the transfer ends with a STOP unless the
last message that was attempted asks for none. -/
theorem bitXfer_right (msgs : List I2cMsg) :
    ∃ attempted, XferRight retries 0 msgs log (bus.i2cBitXfer retries msgs log) attempted := by
  cases msgs with
  | nil =>
    exact ⟨[],
      { inOrder := List.nil_prefix
        traced := fun k p hp => absurd hp (by simp)
        before := fun p hp => absurd hp List.not_mem_nil
        lines := ⟨true, (List.append_nil _).symm.trans (congrArg (· ++ [])
          (List.append_nil log).symm)⟩
        ret := ⟨fun _ => ⟨rfl, fun p hp => absurd hp List.not_mem_nil⟩, fun _ => rfl⟩
        failed := fun h => absurd rfl h
        stored := fun k p hp => absurd hp (by simp)
        kept := rfl }⟩
  | cons msg rest =>
    obtain ⟨attempted, -, h⟩ := bus.xferFrom_right retries rest 0 msg log
    exact ⟨attempted, h⟩

/-- A message for the device at address 0x50. -/
def probe (flags len : UInt16) : I2cMsg := ⟨0x50, flags, len, fun _ => 0⟩

/-- What becomes of a message if nothing on the bus answers. -/
def unanswered (flags len : UInt16) : XferResult :=
  i2cBitXfer ⟨fun _ => true, fun _ => true⟩ 0 [probe flags len] []

/-- What becomes of a message if SDA stays low. -/
def allLow (flags len : UInt16) : XferResult :=
  i2cBitXfer ⟨fun _ => true, fun _ => false⟩ 0 [probe flags len] []

/-- If nothing on the bus answers, a message with `RT_I2C_NO_STOP` fails without a STOP; with
`RT_I2C_NO_READ_ACK` the first of two bytes that are read is not acknowledged. -/
theorem not_released_or_acknowledged :
    ((unanswered rtI2cNoStop 1).ret ≠ 1 ∧
      (unanswered rtI2cNoStop 1).log = startWave ++ outWave 0xa0 .nack ∧
      ∀ up, ¬ stopWave up <:+: (unanswered rtI2cNoStop 1).log) ∧
    (allLow (rtI2cRd ||| rtI2cNoReadAck) 2).ret = 1 ∧
      (allLow (rtI2cRd ||| rtI2cNoReadAck) 2).log = startWave ++ outWave 0xa1 .ack ++
        inWave (msbFirst 0) ++ inWave (msbFirst 0) ++ stopWave true ∧
      ∀ up, ¬ replyWave true up <:+: inWave (msbFirst 0) ++ inWave (msbFirst 0) := by
  decide

end BitBus

end Gd32Vw553h.Drivers
