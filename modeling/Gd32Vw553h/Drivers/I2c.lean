/-
  Drivers/I2c.lean --- the I2C transfer engine (`src/libraries/gd32_drivers/drv_i2c.c`).

  `gd32_i2c_read` and `gd32_i2c_write` are loops over a state that `switch` looks at, with
  polling loops inside.  The peripheral is an arbitrary sequence of answers to
  `i2c_flag_get`, whichever flag is asked for, and of bytes from `i2c_data_receive`; what
  the other functions of the vendor library are called with is recorded.  RELOAD is the
  register bit that the driver sets itself, and `pending` the byte count that it has
  programmed, less the bytes that have been moved since.

  A message is cut into chunks of at most 255 bytes (`chunks`).  `Progress` says how far a
  transfer has come in each state of the `switch`; every round of the loop keeps it.
-/
import Gd32Vw553h.Foundation.Loops
import Gd32Vw553h.Klibc.KErrno
import Mathlib.Algebra.Ring.Nat
import Mathlib.Data.List.Basic
import Mathlib.Logic.Function.Basic

set_option autoImplicit false

namespace Gd32Vw553h.Drivers

open Gd32Vw553h.Foundation Gd32Vw553h.Klibc

/-! ## Messages and the peripheral -/

/-- `I2C_TIME_OUT` -/
abbrev i2cTimeOut : Nat := 20000

/-- `MAX_RELOAD_SIZE` -/
abbrev maxReloadSize : Nat := 255

/-- `RT_I2C_RD` -/
abbrev rtI2cRd : UInt16 := 0x0001

/-- `RT_I2C_ADDR_10BIT` -/
abbrev rtI2cAddr10bit : UInt16 := 0x0004

/-- `RT_I2C_NO_START` -/
abbrev rtI2cNoStart : UInt16 := 0x0010

/-- `RT_I2C_NO_STOP` -/
abbrev rtI2cNoStop : UInt16 := 0x0080

/-- `struct rt_i2c_msg` -/
structure I2cMsg where
  addr : UInt16
  flags : UInt16
  len : UInt16
  buf : Nat → UInt8

/-- `msg->flags & flag` -/
def I2cMsg.has (msg : I2cMsg) (flag : UInt16) : Bool := msg.flags &&& flag != 0

/-- The answers of the device: the flags that are asked for and the bytes that are received,
each in order. -/
structure I2cAnswers where
  flag : Nat → Bool
  data : Nat → UInt8

/-- Calls of the vendor library. -/
inductive I2cOp where
  | addressing (addr : Nat) (receive : Bool)
  | autoEndDisable
  | byteNumber (n : Nat)
  | reload (enabled : Bool)
  | start
  | stop
  /-- the byte at this offset of the buffer is sent -/
  | transmit (offset : Nat) (byte : UInt8)
  /-- a byte is stored at this offset of the buffer -/
  | receive (offset : Nat) (byte : UInt8)
  | clearStpdet
  deriving DecidableEq

/-- The peripheral. -/
structure I2cPeriph where
  /-- how often a flag has been asked for -/
  asked : Nat
  /-- how many bytes have been received -/
  received : Nat
  /-- `I2C_CTL1_RELOAD` -/
  reload : Bool
  /-- bytes of the programmed count that are still to be moved -/
  pending : Nat
  log : List I2cOp

namespace I2cPeriph

variable (p : I2cPeriph)

def note (op : I2cOp) : I2cPeriph := { p with log := p.log ++ [op] }

/-- `i2c_flag_get` -/
def flagGet (a : I2cAnswers) : Bool × I2cPeriph := (a.flag p.asked, { p with asked := p.asked + 1 })

/-- `i2c_transfer_byte_number_config` -/
def transferByteNumberConfig (n : Nat) : I2cPeriph :=
  { p.note (.byteNumber n) with pending := n }

/-- `i2c_reload_enable`, `i2c_reload_disable` -/
def setReload (enabled : Bool) : I2cPeriph := { p.note (.reload enabled) with reload := enabled }

/-- `i2c_data_transmit` -/
def dataTransmit (offset : Nat) (byte : UInt8) : I2cPeriph :=
  { p.note (.transmit offset byte) with pending := p.pending - 1 }

/-- `*p_buffer = i2c_data_receive(i2c_periph)` -/
def dataReceive (a : I2cAnswers) (offset : Nat) : UInt8 × I2cPeriph :=
  (a.data p.received,
    { p.note (.receive offset (a.data p.received)) with
      received := p.received + 1
      pending := p.pending - 1 })

end I2cPeriph

/-! ## Polling -/

/-- Wait for a flag with `left` counts of `timeout` left to `I2C_TIME_OUT`; afterwards none is
left if the wait has timed out.  The flag is asked for before the count is looked at. -/
def awaitFlag (a : I2cAnswers) : Nat → I2cPeriph → Nat × I2cPeriph
  | 0, p => (0, (p.flagGet a).2)
  | left + 1, p =>
    match p.flagGet a with
    | (true, p) => (left + 1, p)
    | (false, p) => awaitFlag a left p

/-- Wait for RBNE in the loop of `gd32_i2c_read`, which counts before it looks at the count. -/
def awaitRbne (a : I2cAnswers) : Nat → I2cPeriph → Bool × I2cPeriph
  | 0, p => (false, p)
  | left + 1, p =>
    match p.flagGet a with
    | (true, p) => (true, p)
    | (false, p) => awaitRbne a left p

/-- `while (nbytes_reload)` of `gd32_i2c_read`; `timeout` starts again after each byte. -/
def receiveBytes (a : I2cAnswers) : Nat → Nat → (Nat → UInt8) → I2cPeriph →
    Bool × (Nat → UInt8) × I2cPeriph
  | 0, _, buf, p => (true, buf, p)
  | n + 1, offset, buf, p =>
    match awaitRbne a i2cTimeOut p with
    | (false, p) => (false, buf, p)
    | (true, p) =>
      let (byte, p) := p.dataReceive a offset
      receiveBytes a n (offset + 1) (Function.update buf offset byte) p

/-- `while (nbytes_reload--)` of `gd32_i2c_write` -/
def transmitBytes (a : I2cAnswers) (buf : Nat → UInt8) : Nat → Nat → I2cPeriph → Bool × I2cPeriph
  | 0, _, p => (true, p)
  | n + 1, offset, p =>
    match awaitFlag a i2cTimeOut p with
    | (0, p) => (false, p)
    | (_ + 1, p) => transmitBytes a buf n (offset + 1) (p.dataTransmit offset (buf offset))

/-! ## The two engines -/

/-- `i2c_process_enum` -/
inductive I2cProc where
  | start | readInit | transmitData | reload | stop | ended
  deriving DecidableEq

/-- Where a transfer has ended. -/
inductive I2cExit where
  | complete
  /-- waiting to move a byte -/
  | data
  /-- waiting for TCR, between two chunks -/
  | tcr
  /-- waiting for TC, after the last chunk -/
  | tc
  /-- waiting for the end of the STOP -/
  | stop
  deriving DecidableEq

/-- The variables of `gd32_i2c_read` and `gd32_i2c_write`, and what they point to. -/
structure I2cTransfer where
  state : I2cProc
  /-- what `ret` has been set for -/
  exit : I2cExit
  /-- `I2C_TIME_OUT - timeout` -/
  left : Nat
  /-- `first_reload_flag`, `start_flag` -/
  startFlag : Bool
  reloadModeFlag : Bool
  nbytesReload : Nat
  numberOfByte : Nat
  pBuffer : Nat
  buf : Nat → UInt8
  periph : I2cPeriph

/-- What a transfer leaves. -/
structure I2cResult where
  exit : I2cExit
  buf : Nat → UInt8
  periph : I2cPeriph

/-- `ret` -/
def I2cResult.ret (r : I2cResult) : Int := if r.exit = .complete then 0 else -rtETimeout

/-- `case I2C_PROC_RELOAD` -/
def procReload (t : I2cTransfer) : I2cTransfer :=
  let more := decide (maxReloadSize < t.numberOfByte)
  let nbytes := if more then maxReloadSize else t.numberOfByte
  { t with
    numberOfByte := if more then t.numberOfByte - maxReloadSize else t.numberOfByte
    nbytesReload := nbytes
    reloadModeFlag := more
    periph := (t.periph.transferByteNumberConfig nbytes).setReload more
    startFlag := false
    state := if t.startFlag then .start else .transmitData }

/-- After the last chunk: STOP, or nothing more. -/
def procComplete (msg : I2cMsg) (t : I2cTransfer) : I2cTransfer :=
  if msg.has rtI2cNoStop then { t with state := .ended }
  else { t with periph := t.periph.note .stop, state := .stop }

/-- `case I2C_PROC_TRANSMIT_DATA` of `gd32_i2c_read` -/
def readTransmitData (a : I2cAnswers) (msg : I2cMsg) (t : I2cTransfer) : I2cTransfer ⊕ I2cResult :=
  match receiveBytes a t.nbytesReload t.pBuffer t.buf t.periph with
  | (false, buf, p) => .inr { exit := .data, buf := buf, periph := p }
  | (true, buf, p) =>
    let (left, p') := awaitFlag a i2cTimeOut p
    let t := { t with
      left := left, nbytesReload := 0, pBuffer := t.pBuffer + t.nbytesReload, buf := buf,
      periph := p' }
    if p.reload then
      if 0 < left then .inl { t with state := .reload }
      else .inl { t with exit := .tcr, state := .ended }
    else if 0 < left then .inl (procComplete msg t)
    else .inl { t with exit := .tc, state := .ended }

/-- `case I2C_PROC_STOP` -/
def procStop (a : I2cAnswers) (t : I2cTransfer) : I2cTransfer :=
  let (left, p) := awaitFlag a t.left t.periph
  if 0 < left then { t with left := i2cTimeOut, periph := p.note .clearStpdet, state := .ended }
  else { t with left := i2cTimeOut, exit := .stop, periph := p, state := .ended }

/-- A round of `while (!end_flag)` in `gd32_i2c_read`. -/
def readRound (a : I2cAnswers) (msg : I2cMsg) (t : I2cTransfer) : I2cTransfer ⊕ I2cResult :=
  match t.state with
  | .start => .inl { t with periph := t.periph.note .start, state := .transmitData }
  | .readInit =>
    .inl { t with
      periph := (t.periph.note (.addressing (msg.addr.toNat <<< 1) true)).note .autoEndDisable
      state := .reload }
  | .reload => .inl (procReload t)
  | .transmitData => readTransmitData a msg t
  | .stop => .inl (procStop a t)
  | .ended => .inr { exit := t.exit, buf := t.buf, periph := t.periph }

/-- `gd32_i2c_read`, for at most `rounds` rounds. -/
def gd32I2cRead (a : I2cAnswers) (rounds : Nat) (p : I2cPeriph) (msg : I2cMsg) :
    Option I2cResult :=
  loop (readRound a msg) rounds
    { state := .readInit, exit := .complete, left := i2cTimeOut, startFlag := true,
      reloadModeFlag := false, nbytesReload := 0, numberOfByte := msg.len.toNat, pBuffer := 0,
      buf := msg.buf, periph := p }

/-- `case I2C_PROC_TRANSMIT_DATA` of `gd32_i2c_write`; `timeout` is 0 after the bytes, so that
its test there never fails. -/
def writeTransmitData (a : I2cAnswers) (msg : I2cMsg) (t : I2cTransfer) :
    I2cTransfer ⊕ I2cResult :=
  match transmitBytes a t.buf t.nbytesReload t.pBuffer t.periph with
  | (false, p) => .inr { exit := .data, buf := t.buf, periph := p }
  | (true, p) =>
    let (left, p') := awaitFlag a i2cTimeOut p
    let t := { t with
      left := left, nbytesReload := 0, pBuffer := t.pBuffer + t.nbytesReload, periph := p' }
    if 0 < left then
      if t.reloadModeFlag then .inl { t with state := .reload }
      else .inl (procComplete msg t)
    else .inl { t with exit := if p.reload then .tcr else .tc, state := .ended }

/-- A round of `while (!end_flag)` in `gd32_i2c_write`. -/
def writeRound (a : I2cAnswers) (msg : I2cMsg) (t : I2cTransfer) : I2cTransfer ⊕ I2cResult :=
  match t.state with
  | .start =>
    .inl { t with left := i2cTimeOut, periph := t.periph.note .start, state := .transmitData }
  | .reload => .inl (procReload t)
  | .transmitData => writeTransmitData a msg t
  | .stop => .inl (procStop a { t with left := i2cTimeOut })
  | .ended => .inr { exit := t.exit, buf := t.buf, periph := t.periph }
  -- `default`, which is never reached
  | .readInit => .inr { exit := t.exit, buf := t.buf, periph := t.periph }

/-- `gd32_i2c_write`, for at most `rounds` rounds. -/
def gd32I2cWrite (a : I2cAnswers) (rounds : Nat) (p : I2cPeriph) (msg : I2cMsg) :
    Option I2cResult :=
  loop (writeRound a msg) rounds
    { state := .reload, exit := .complete, left := i2cTimeOut,
      startFlag := !msg.has rtI2cNoStart, reloadModeFlag := false, nbytesReload := 0,
      numberOfByte := msg.len.toNat, pBuffer := 0, buf := msg.buf,
      periph := (p.note (.addressing (msg.addr.toNat <<< 1) false)).note .autoEndDisable }

/-! ## What has been done -/

section Log

/-- The byte counts that have been programmed. -/
def byteNumbers (ops : List I2cOp) : List Nat :=
  ops.filterMap fun op => match op with
    | .byteNumber n => some n
    | _ => none

/-- RELOAD, as it has been programmed. -/
def reloadModes (ops : List I2cOp) : List Bool :=
  ops.filterMap fun op => match op with
    | .reload enabled => some enabled
    | _ => none

/-- The accesses to the buffer: bytes that have been received and stored, or read and sent. -/
def byteMoves (ops : List I2cOp) : List I2cOp :=
  ops.filter fun op => match op with
    | .receive _ _ | .transmit _ _ => true
    | _ => false

/-- How often a STOP has been generated. -/
def stopCount (ops : List I2cOp) : Nat := ops.count .stop

/-- A START has been generated and no STOP since, or neither and the bus was owned before. -/
def busOwned (owned : Bool) (ops : List I2cOp) : Bool :=
  ops.foldl (fun owned op => match op with
    | .start => true
    | .stop => false
    | _ => owned) owned

/-- A byte is moved. -/
def moveOp (receive : Bool) (offset : Nat) (byte : UInt8) : I2cOp :=
  if receive then .receive offset byte else .transmit offset byte

/-- The bytes `want` are moved, from an offset on. -/
def moves (receive : Bool) (want : Nat → UInt8) (offset n : Nat) : List I2cOp :=
  (List.range n).map fun i => moveOp receive (offset + i) (want (offset + i))

theorem moves_succ (receive : Bool) (want : Nat → UInt8) (offset n : Nat) :
    moves receive want offset (n + 1) =
      moveOp receive offset (want offset) :: moves receive want (offset + 1) n := by
  unfold moves
  rw [List.range_succ_eq_map, List.map_cons, List.map_map]
  congr 1
  refine List.map_congr_left fun i _ => ?_
  show moveOp receive (offset + (i + 1)) (want (offset + (i + 1))) = _
  rw [Nat.add_comm i 1, ← Nat.add_assoc]

theorem byteNumbers_append (ops more : List I2cOp) :
    byteNumbers (ops ++ more) = byteNumbers ops ++ byteNumbers more := List.filterMap_append

theorem reloadModes_append (ops more : List I2cOp) :
    reloadModes (ops ++ more) = reloadModes ops ++ reloadModes more := List.filterMap_append

theorem byteMoves_append (ops more : List I2cOp) :
    byteMoves (ops ++ more) = byteMoves ops ++ byteMoves more := List.filter_append ..

theorem stopCount_append (ops more : List I2cOp) :
    stopCount (ops ++ more) = stopCount ops + stopCount more :=
  List.count_append

theorem busOwned_append (owned : Bool) (ops more : List I2cOp) :
    busOwned owned (ops ++ more) = busOwned (busOwned owned ops) more := List.foldl_append

/-- Moving bytes programs nothing and leaves the bus as it is. -/
theorem moves_quiet (receive : Bool) (want : Nat → UInt8) (offset n : Nat) (owned : Bool) :
    byteNumbers (moves receive want offset n) = [] ∧ reloadModes (moves receive want offset n) = [] ∧
      stopCount (moves receive want offset n) = 0 ∧
      busOwned owned (moves receive want offset n) = owned := by
  induction n generalizing offset with
  | zero => exact ⟨rfl, rfl, rfl, rfl⟩
  | succ n ih =>
    obtain ⟨hnumbers, hreloads, hstops, howned⟩ := ih (offset + 1)
    rw [moves_succ]
    unfold moveOp
    cases receive with
    | true => exact ⟨hnumbers, hreloads, hstops, howned⟩
    | false => exact ⟨hnumbers, hreloads, hstops, howned⟩

theorem byteMoves_moves (receive : Bool) (want : Nat → UInt8) (offset n : Nat) :
    byteMoves (moves receive want offset n) = moves receive want offset n := by
  unfold byteMoves moves moveOp
  refine List.filter_eq_self.mpr fun op hop => ?_
  obtain ⟨i, -, rfl⟩ := List.mem_map.mp hop
  cases receive with
  | true => rfl
  | false => rfl

theorem moves_add (receive : Bool) (want : Nat → UInt8) (n m : Nat) :
    moves receive want 0 (n + m) = moves receive want 0 n ++ moves receive want n m := by
  unfold moves
  rw [List.range_add, List.map_append, List.map_map]
  congr 1
  refine List.map_congr_left fun i _ => ?_
  show moveOp receive (0 + (n + i)) (want (0 + (n + i))) = _
  rw [Nat.zero_add]

end Log

/-! ## Polling changes only the number of answers -/

section Poll

variable {a : I2cAnswers} {p : I2cPeriph}

theorem awaitFlag_asked (a : I2cAnswers) (left : Nat) (p : I2cPeriph) :
    ∃ asked, (awaitFlag a left p).2 = { p with asked := asked } := by
  induction left generalizing p with
  | zero => exact ⟨_, rfl⟩
  | succ left ih =>
    unfold awaitFlag I2cPeriph.flagGet
    cases a.flag p.asked with
    | true => exact ⟨_, rfl⟩
    | false => exact ih _

theorem awaitRbne_asked (a : I2cAnswers) (left : Nat) (p : I2cPeriph) :
    ∃ asked, (awaitRbne a left p).2 = { p with asked := asked } := by
  induction left generalizing p with
  | zero => exact ⟨p.asked, rfl⟩
  | succ left ih =>
    unfold awaitRbne I2cPeriph.flagGet
    cases a.flag p.asked with
    | true => exact ⟨_, rfl⟩
    | false => exact ih _

/-- What `m` of `n` bytes that are moved leave of the peripheral. -/
structure MovedTo (receive : Bool) (want : Nat → UInt8) (offset m : Nat) (p p' : I2cPeriph) :
    Prop where
  log : p'.log = p.log ++ moves receive want offset m
  pending : p'.pending = p.pending - m
  reload : p'.reload = p.reload
  received : p'.received = p.received + if receive then m else 0

theorem movedTo_refl (receive : Bool) (want : Nat → UInt8) (offset asked : Nat) :
    MovedTo receive want offset 0 p { p with asked := asked } :=
  ⟨(List.append_nil _).symm, rfl, rfl, by simp⟩

/-- One more byte, before the others. -/
theorem MovedTo.succ {receive : Bool} {want : Nat → UInt8} {offset m : Nat} {p mid p' : I2cPeriph}
    (h : MovedTo receive want (offset + 1) m mid p')
    (hlog : mid.log = p.log ++ [moveOp receive offset (want offset)])
    (hpending : mid.pending = p.pending - 1) (hreload : mid.reload = p.reload)
    (hreceived : mid.received = p.received + if receive then 1 else 0) :
    MovedTo receive want offset (m + 1) p p' where
  log := by
    rw [h.log, hlog, moves_succ, List.append_assoc, List.singleton_append]
  pending := by
    rw [h.pending, hpending]
    omega
  reload := h.reload.trans hreload
  received := by
    rw [h.received, hreceived]
    cases receive with
    | true => simp only [if_true]; omega
    | false => rfl

theorem receiveBytes_none {offset : Nat} {buf : Nat → UInt8} {n : Nat} {mid : I2cPeriph}
    (h : awaitRbne a i2cTimeOut p = (false, mid)) :
    receiveBytes a (n + 1) offset buf p = (false, buf, mid) := by
  rw [receiveBytes, h]

theorem receiveBytes_next {offset : Nat} {buf : Nat → UInt8} {n : Nat} {mid : I2cPeriph}
    (h : awaitRbne a i2cTimeOut p = (true, mid)) :
    receiveBytes a (n + 1) offset buf p =
      receiveBytes a n (offset + 1) (Function.update buf offset (a.data mid.received))
        (mid.dataReceive a offset).2 := by
  rw [receiveBytes, h]
  rfl

theorem transmitBytes_none {offset : Nat} {buf : Nat → UInt8} {n : Nat} {mid : I2cPeriph}
    (h : awaitFlag a i2cTimeOut p = (0, mid)) :
    transmitBytes a buf (n + 1) offset p = (false, mid) := by
  rw [transmitBytes, h]

theorem transmitBytes_next {offset : Nat} {buf : Nat → UInt8} {n left : Nat} {mid : I2cPeriph}
    (h : awaitFlag a i2cTimeOut p = (left + 1, mid)) :
    transmitBytes a buf (n + 1) offset p =
      transmitBytes a buf n (offset + 1) (mid.dataTransmit offset (buf offset)) := by
  rw [transmitBytes, h]

theorem receiveBytes_spec {want : Nat → UInt8} (n offset : Nat) (buf : Nat → UInt8)
    (hwant : ∀ i, want (offset + i) = a.data (p.received + i)) :
    ∃ m, m ≤ n ∧ MovedTo true want offset m p (receiveBytes a n offset buf p).2.2 ∧
      ((receiveBytes a n offset buf p).1 = true → m = n) ∧
      ((receiveBytes a n offset buf p).1 = false → m < n) ∧
      (receiveBytes a n offset buf p).2.1 =
        fun i => if offset ≤ i ∧ i < offset + m then want i else buf i := by
  induction n generalizing offset buf p with
  | zero =>
    refine ⟨0, Nat.le_refl 0, movedTo_refl true want offset p.asked, fun _ => rfl,
      fun h => absurd h Bool.noConfusion, ?_⟩
    funext i
    exact (if_neg (by omega)).symm
  | succ n ih =>
    obtain ⟨asked, hasked⟩ := awaitRbne_asked a i2cTimeOut p
    cases hpoll : awaitRbne a i2cTimeOut p with
    | mk found mid =>
      rw [hpoll] at hasked
      obtain rfl : mid = { p with asked := asked } := hasked
      cases found with
      | false =>
        rw [receiveBytes_none hpoll]
        refine ⟨0, Nat.zero_le _, movedTo_refl true want offset asked,
          fun h => absurd h Bool.noConfusion, fun _ => Nat.succ_pos n, ?_⟩
        funext i
        exact (if_neg (by omega)).symm
      | true =>
        rw [receiveBytes_next hpoll]
        have hfirst : a.data p.received = want offset := by simpa using (hwant 0).symm
        have hrest : ∀ i, want (offset + 1 + i) = a.data (p.received + 1 + i) := by
          intro i
          rw [Nat.add_assoc, Nat.add_assoc, hwant]
        obtain ⟨m, hm, hmoved, hall, hpart, hbuf⟩ :=
          ih (p := (I2cPeriph.dataReceive { p with asked := asked } a offset).2) (offset + 1)
            (Function.update buf offset (a.data p.received)) hrest
        refine ⟨m + 1, Nat.succ_le_succ hm, hmoved.succ ?_ rfl rfl ?_,
          fun h => congrArg Nat.succ (hall h), fun h => Nat.succ_lt_succ (hpart h), ?_⟩
        · show p.log ++ [I2cOp.receive offset (a.data p.received)] = _
          rw [hfirst]
          rfl
        · exact (congrArg (p.received + ·) (if_pos rfl)).symm
        · refine hbuf.trans ?_
          funext i
          rcases eq_or_ne i offset with rfl | hi
          · rw [if_neg (by omega), if_pos (by omega), Function.update_self, hfirst]
          · rw [Function.update_of_ne hi]
            exact if_congr (by omega) rfl rfl

theorem transmitBytes_spec (p : I2cPeriph) (buf : Nat → UInt8) (n offset : Nat) :
    ∃ m, m ≤ n ∧ MovedTo false buf offset m p (transmitBytes a buf n offset p).2 ∧
      ((transmitBytes a buf n offset p).1 = true → m = n) ∧
      ((transmitBytes a buf n offset p).1 = false → m < n) := by
  induction n generalizing offset p with
  | zero =>
    exact ⟨0, Nat.le_refl 0, movedTo_refl false buf offset p.asked, fun _ => rfl,
      fun h => absurd h Bool.noConfusion⟩
  | succ n ih =>
    obtain ⟨asked, hasked⟩ := awaitFlag_asked a i2cTimeOut p
    cases hpoll : awaitFlag a i2cTimeOut p with
    | mk left mid =>
      rw [hpoll] at hasked
      obtain rfl : mid = { p with asked := asked } := hasked
      cases left with
      | zero =>
        rw [transmitBytes_none hpoll]
        exact ⟨0, Nat.zero_le _, movedTo_refl false buf offset asked,
          fun h => absurd h Bool.noConfusion, fun _ => Nat.succ_pos n⟩
      | succ left =>
        rw [transmitBytes_next hpoll]
        obtain ⟨m, hm, hmoved, hall, hpart⟩ :=
          ih (I2cPeriph.dataTransmit { p with asked := asked } offset (buf offset)) (offset + 1)
        exact ⟨m + 1, Nat.succ_le_succ hm, hmoved.succ rfl rfl rfl rfl,
          fun h => congrArg Nat.succ (hall h), fun h => Nat.succ_lt_succ (hpart h)⟩

end Poll

/-! ## How far a transfer has come -/

/-- A message to be transferred, and what there is before. -/
structure I2cJob where
  receive : Bool
  /-- the transfer begins with a START -/
  starts : Bool
  noStop : Bool
  owned : Bool
  len : Nat
  /-- the bytes to be moved -/
  want : Nat → UInt8
  buf : Nat → UInt8
  periph : I2cPeriph

/-- The first `n` bytes have been moved. -/
structure Moved (j : I2cJob) (ops : List I2cOp) (n : Nat) (buf : Nat → UInt8) (p : I2cPeriph) :
    Prop where
  log : p.log = j.periph.log ++ ops
  bytes : byteMoves ops = moves j.receive j.want 0 n
  stored : buf = fun i => if j.receive = true ∧ i < n then j.want i else j.buf i
  received : j.receive = true → p.received = j.periph.received + n

/-- `k` full chunks and one of `n` bytes have been programmed; with RELOAD more are to come. -/
structure Chunks (len : Nat) (ops : List I2cOp) (k n : Nat) (more : Bool) : Prop where
  numbers : byteNumbers ops = List.replicate k maxReloadSize ++ [n]
  reloads : reloadModes ops = List.replicate k true ++ [more]
  le : n ≤ maxReloadSize
  last : more = false → maxReloadSize * k + n = len
  full : more = true → n = maxReloadSize ∧ maxReloadSize * k + n < len

/-- `k` full chunks have been moved, and the next one is to be programmed. -/
structure Unprogrammed (j : I2cJob) (ops : List I2cOp) (k : Nat) (t : I2cTransfer) : Prop where
  numbers : byteNumbers ops = List.replicate k maxReloadSize
  reloads : reloadModes ops = List.replicate k true
  offset : t.pBuffer = maxReloadSize * k
  rest : t.pBuffer + t.numberOfByte = j.len
  stops : stopCount ops = 0
  owned : busOwned j.owned ops = if t.startFlag then j.owned else j.owned || j.starts
  starts : t.startFlag = true → j.starts = true
  exit : t.exit = .complete

/-- The next chunk is programmed. -/
structure Programmed (j : I2cJob) (ops : List I2cOp) (k : Nat) (t : I2cTransfer) : Prop where
  chunks : Chunks j.len ops k t.nbytesReload t.reloadModeFlag
  offset : t.pBuffer = maxReloadSize * k
  rest : t.reloadModeFlag = true → t.pBuffer + t.nbytesReload + t.numberOfByte = j.len
  reload : t.periph.reload = t.reloadModeFlag
  pending : t.periph.pending = t.nbytesReload
  stops : stopCount ops = 0
  exit : t.exit = .complete
  startFlag : t.startFlag = false

/-- What is known after `n` bytes, at each exit. -/
def EndsIn (j : I2cJob) (ops : List I2cOp) (n : Nat) (p : I2cPeriph) : I2cExit → Prop
  | .complete =>
    n = j.len ∧ (∃ k m, Chunks j.len ops k m false) ∧ stopCount ops = (if j.noStop then 0 else 1) ∧
      busOwned j.owned ops = (j.noStop && (j.owned || j.starts)) ∧ p.reload = false ∧
      p.pending = 0
  | .data => 0 < p.pending
  | .tcr => p.reload = true
  | .tc => busOwned j.owned ops = (j.owned || j.starts) ∧ p.reload = false ∧ p.pending = 0
  | .stop => j.noStop = false ∧ busOwned j.owned ops = false ∧ p.reload = false ∧ p.pending = 0

/-- The end of a transfer. -/
structure Ended (j : I2cJob) (ops : List I2cOp) (n : Nat) (exit : I2cExit) (p : I2cPeriph) :
    Prop where
  le : n ≤ j.len
  chunks : ∃ k m more, Chunks j.len ops k m more
  ends : EndsIn j ops n p exit

/-- What holds in each state of the `switch`. -/
def Stage (j : I2cJob) (ops : List I2cOp) (t : I2cTransfer) : Prop :=
  match t.state with
  | .readInit => j.receive = true ∧ ∃ k, Unprogrammed j ops k t
  | .reload => ∃ k, Unprogrammed j ops k t
  | .start =>
    (∃ k, Programmed j ops k t) ∧ busOwned j.owned ops = j.owned ∧ j.starts = true
  | .transmitData =>
    (∃ k, Programmed j ops k t) ∧ busOwned j.owned ops = (j.owned || j.starts)
  | .stop =>
    t.exit = .complete ∧ Ended j ops t.pBuffer .stop t.periph ∧
      Ended j ops t.pBuffer .complete t.periph
  | .ended => Ended j ops t.pBuffer t.exit t.periph

/-- What every round keeps. -/
def Progress (j : I2cJob) (t : I2cTransfer) : Prop :=
  ∃ ops, Moved j ops t.pBuffer t.buf t.periph ∧ Stage j ops t

/-- Rounds that may be left. -/
def roundsLeft (t : I2cTransfer) : Nat :=
  match t.state with
  | .readInit => 3 * t.numberOfByte + 6
  | .reload => 3 * t.numberOfByte + 5
  | .start => if t.reloadModeFlag then 3 * t.numberOfByte + 7 else 4
  | .transmitData => if t.reloadModeFlag then 3 * t.numberOfByte + 6 else 3
  | .stop => 2
  | .ended => 1

/-- What a transfer comes to. -/
def Outcome (j : I2cJob) (r : I2cResult) : Prop :=
  ∃ ops n, Moved j ops n r.buf r.periph ∧ Ended j ops n r.exit r.periph

section Progress

variable {j : I2cJob} {ops more : List I2cOp} {n m : Nat} {buf : Nat → UInt8} {p p' : I2cPeriph}
  {t : I2cTransfer}

/-- Calls that move no byte. -/
theorem Moved.noted (h : Moved j ops n buf p) (hmore : byteMoves more = [])
    (hlog : p'.log = p.log ++ more) (hreceived : p'.received = p.received) :
    Moved j (ops ++ more) n buf p' where
  log := by rw [hlog, h.log, List.append_assoc]
  bytes := by rw [byteMoves_append, hmore, List.append_nil, h.bytes]
  stored := h.stored
  received hr := hreceived.trans (h.received hr)

/-- A poll changes nothing that matters. -/
theorem Moved.asked (h : Moved j ops n buf p) (asked : Nat) :
    Moved j ops n buf { p with asked := asked } := ⟨h.log, h.bytes, h.stored, h.received⟩

theorem Moved.next (h : Moved j ops n buf p) (hmoved : MovedTo j.receive j.want n m p p')
    {buf' : Nat → UInt8}
    (hbuf : buf' = fun i => if j.receive = true ∧ n ≤ i ∧ i < n + m then j.want i else buf i) :
    Moved j (ops ++ moves j.receive j.want n m) (n + m) buf' p' where
  log := by rw [hmoved.log, h.log, List.append_assoc]
  bytes := by rw [byteMoves_append, byteMoves_moves, moves_add, h.bytes]
  stored := by
    rw [hbuf]
    funext i
    have hi : buf i = if j.receive = true ∧ i < n then j.want i else j.buf i := congrFun h.stored i
    rw [hi]
    split
    · rw [if_pos ⟨(by tauto), by omega⟩]
    · split
      · rw [if_pos ⟨(by tauto), by omega⟩]
      · rw [if_neg (by rintro ⟨hr, hlt⟩; simp only [hr, true_and] at *; omega)]
  received hr := by
    rw [hmoved.received, if_pos hr, h.received hr, Nat.add_assoc]

/-- Calls that program nothing. -/
theorem Chunks.noted {len k : Nat} {mode : Bool} (h : Chunks len ops k n mode)
    (more : List I2cOp) (hnumbers : byteNumbers more = []) (hreloads : reloadModes more = []) :
    Chunks len (ops ++ more) k n mode where
  numbers := by rw [byteNumbers_append, hnumbers, List.append_nil, h.numbers]
  reloads := by rw [reloadModes_append, hreloads, List.append_nil, h.reloads]
  le := h.le
  last := h.last
  full := h.full

/-- The next chunk is the last one, or is full and more are to come. -/
theorem Unprogrammed.chunks {k : Nat} (h : Unprogrammed j ops k t) (nbytes : Nat) (mode : Bool)
    (hle : nbytes ≤ maxReloadSize) (hlast : mode = false → nbytes = t.numberOfByte)
    (hfull : mode = true → nbytes = maxReloadSize ∧ maxReloadSize < t.numberOfByte) :
    Chunks j.len (ops ++ [.byteNumber nbytes, .reload mode]) k nbytes mode where
  numbers := by
    rw [byteNumbers_append, h.numbers]
    rfl
  reloads := by
    rw [reloadModes_append, h.reloads]
    rfl
  le := hle
  last hmode := by
    rw [hlast hmode, ← h.offset, h.rest]
  full hmode := by
    obtain ⟨hnbytes, hmore⟩ := hfull hmode
    have hoffset := h.offset
    have hrest := h.rest
    exact ⟨hnbytes, by omega⟩

/-- `case I2C_PROC_RELOAD` leaves a chunk programmed. -/
theorem Unprogrammed.program {k : Nat} (h : Unprogrammed j ops k t) :
    ∃ nbytes mode,
      Programmed j (ops ++ [.byteNumber nbytes, .reload mode]) k (procReload t) ∧
      (procReload t).periph.log = t.periph.log ++ [.byteNumber nbytes, .reload mode] ∧
      roundsLeft (procReload t) < 3 * t.numberOfByte + 5 := by
  have hstops : ∀ nbytes mode, stopCount (ops ++ [.byteNumber nbytes, .reload mode]) = 0 := by
    intro nbytes mode
    rw [stopCount_append, h.stops]
    rfl
  have hlog : ∀ nbytes mode,
      ((t.periph.transferByteNumberConfig nbytes).setReload mode).log =
        t.periph.log ++ [.byteNumber nbytes, .reload mode] :=
    fun nbytes mode => List.append_assoc _ _ _
  have hrest := h.rest
  rcases Nat.lt_or_ge maxReloadSize t.numberOfByte with hmore | hlast
  · have hchunks := h.chunks maxReloadSize true (Nat.le_refl _)
      (fun hmode => absurd hmode Bool.noConfusion) fun _ => ⟨rfl, hmore⟩
    have heq : procReload t =
        { t with
          numberOfByte := t.numberOfByte - maxReloadSize, nbytesReload := maxReloadSize,
          reloadModeFlag := true, startFlag := false
          periph := (t.periph.transferByteNumberConfig maxReloadSize).setReload true
          state := if t.startFlag then .start else .transmitData } := by
      unfold procReload
      rw [decide_eq_true hmore]
      rfl
    rw [heq]
    refine ⟨maxReloadSize, true, ?_, hlog _ _, ?_⟩
    · exact
        { chunks := hchunks, offset := h.offset, rest := fun _ => by simp only; omega,
          reload := rfl, pending := rfl, stops := hstops _ _, exit := h.exit, startFlag := rfl }
    · simp only [maxReloadSize] at hmore
      cases t.startFlag with
      | true => simp only [roundsLeft, if_true, maxReloadSize]; omega
      | false => simp only [roundsLeft, if_true, Bool.false_eq_true, if_false, maxReloadSize]; omega
  · have hchunks := h.chunks t.numberOfByte false hlast (fun _ => rfl)
      fun hmode => absurd hmode Bool.noConfusion
    have heq : procReload t =
        { t with
          nbytesReload := t.numberOfByte, reloadModeFlag := false, startFlag := false
          periph := (t.periph.transferByteNumberConfig t.numberOfByte).setReload false
          state := if t.startFlag then .start else .transmitData } := by
      unfold procReload
      rw [decide_eq_false (Nat.not_lt_of_le hlast)]
      rfl
    rw [heq]
    refine ⟨t.numberOfByte, false, ?_, hlog _ _, ?_⟩
    · exact
        { chunks := hchunks, offset := h.offset, rest := fun hmode => absurd hmode Bool.noConfusion,
          reload := rfl, pending := rfl, stops := hstops _ _, exit := h.exit, startFlag := rfl }
    · cases t.startFlag with
      | true => exact Nat.lt_of_lt_of_le (Nat.lt_succ_self 4) (Nat.le_add_left _ _)
      | false => exact Nat.lt_of_lt_of_le (by decide : 3 < 5) (Nat.le_add_left _ _)

/-- `case I2C_PROC_RELOAD` goes on with START or with the bytes. -/
theorem procReload_progress (h : Progress j t) (hstate : t.state = .reload) :
    Progress j (procReload t) ∧ roundsLeft (procReload t) < roundsLeft t := by
  obtain ⟨ops, hmoved, hstage⟩ := h
  simp only [Stage, hstate] at hstage
  obtain ⟨k, hun⟩ := hstage
  obtain ⟨nbytes, mode, hprog, hlog, hrounds⟩ := hun.program
  have howned : busOwned j.owned (ops ++ [.byteNumber nbytes, .reload mode]) =
      if t.startFlag then j.owned else j.owned || j.starts :=
    (busOwned_append _ _ _).trans hun.owned
  refine ⟨⟨_, hmoved.noted rfl hlog rfl, ?_⟩, by simpa only [roundsLeft, hstate] using hrounds⟩
  cases hstart : t.startFlag with
  | true =>
    have hnext : (procReload t).state = .start := if_pos hstart
    rw [hstart] at howned
    simp only [Stage, hnext]
    exact ⟨⟨k, hprog⟩, howned, hun.starts hstart⟩
  | false =>
    have hnext : (procReload t).state = .transmitData := by
      show (if t.startFlag then _ else _) = _
      rw [hstart]
      rfl
    rw [hstart] at howned
    simp only [Stage, hnext]
    exact ⟨⟨k, hprog⟩, howned⟩

/-- All bytes of the chunk have been moved. -/
structure Delivered (j : I2cJob) (ops : List I2cOp) (t : I2cTransfer) : Prop where
  more : t.reloadModeFlag = true → ∃ k, Unprogrammed j ops k t
  last : t.reloadModeFlag = false → t.pBuffer = j.len
  le : t.pBuffer ≤ j.len
  chunks : ∃ k m, Chunks j.len ops k m t.reloadModeFlag
  owned : busOwned j.owned ops = (j.owned || j.starts)
  stops : stopCount ops = 0
  reload : t.periph.reload = t.reloadModeFlag
  pending : t.periph.pending = 0
  exit : t.exit = .complete

theorem Programmed.le {k : Nat} (h : Programmed j ops k t) : t.pBuffer + t.nbytesReload ≤ j.len := by
  have hoffset := h.offset
  cases hmode : t.reloadModeFlag with
  | true =>
    have hrest := h.rest hmode
    omega
  | false =>
    have hlast := h.chunks.last hmode
    omega

theorem Programmed.delivered {k : Nat} (h : Programmed j ops k t) (asked left : Nat)
    (buf : Nat → UInt8)
    (howned : busOwned j.owned ops = (j.owned || j.starts))
    (hmoved : MovedTo j.receive j.want t.pBuffer t.nbytesReload t.periph p) :
    Delivered j (ops ++ moves j.receive j.want t.pBuffer t.nbytesReload)
      { t with
        left := left, nbytesReload := 0, pBuffer := t.pBuffer + t.nbytesReload, buf := buf
        periph := { p with asked := asked } } := by
  obtain ⟨hnumbers, hmodes, hstops, hbus⟩ :=
    moves_quiet j.receive j.want t.pBuffer t.nbytesReload (busOwned j.owned ops)
  have hchunks := h.chunks.noted _ hnumbers hmodes
  have hoffset := h.offset
  have hbusOwned := (busOwned_append j.owned ops _).trans (hbus.trans howned)
  have hstopCount := (stopCount_append ops _).trans (congrArg₂ (· + ·) h.stops hstops)
  refine
    { more := fun hmode => ⟨k + 1, ?_⟩, last := fun hmode => ?_, le := h.le,
      chunks := ⟨k, t.nbytesReload, hchunks⟩, owned := hbusOwned, stops := hstopCount,
      reload := hmoved.reload.trans h.reload, pending := ?_, exit := h.exit }
  · obtain ⟨hfull, hlt⟩ := h.chunks.full hmode
    have hmode' : t.reloadModeFlag = true := hmode
    refine
      { numbers := ?_, reloads := ?_, offset := ?_, rest := h.rest hmode, stops := hstopCount,
        owned := ?_, starts := fun hstart => ?_, exit := h.exit }
    · rw [hchunks.numbers, hfull, List.replicate_succ']
    · rw [hchunks.reloads, hmode', List.replicate_succ']
    · show t.pBuffer + t.nbytesReload = _
      rw [hoffset, hfull]
      rfl
    · rw [hbusOwned]
      exact (if_neg (by rw [h.startFlag]; exact Bool.noConfusion)).symm
    · exact absurd (hstart.symm.trans h.startFlag) Bool.noConfusion
  · show t.pBuffer + t.nbytesReload = _
    rw [hoffset]
    exact h.chunks.last hmode
  · show p.pending = 0
    rw [hmoved.pending, h.pending, Nat.sub_self]

/-- Waiting for TCR has timed out. -/
theorem Delivered.tcr (h : Delivered j ops t) (hmode : t.reloadModeFlag = true) :
    Ended j ops t.pBuffer .tcr t.periph := by
  obtain ⟨k, m, hchunks⟩ := h.chunks
  exact ⟨h.le, ⟨k, m, _, hchunks⟩, h.reload.trans hmode⟩

/-- Waiting for TC has timed out. -/
theorem Delivered.tc (h : Delivered j ops t) (hmode : t.reloadModeFlag = false) :
    Ended j ops t.pBuffer .tc t.periph := by
  obtain ⟨k, m, hchunks⟩ := h.chunks
  exact ⟨h.le, ⟨k, m, _, hchunks⟩, h.owned, h.reload.trans hmode, h.pending⟩

theorem Delivered.reloadNext (h : Delivered j ops t) (hmoved : Moved j ops t.pBuffer t.buf t.periph)
    (hmode : t.reloadModeFlag = true) : Progress j { t with state := .reload } := by
  obtain ⟨k, hun⟩ := h.more hmode
  exact ⟨ops, hmoved, k, ⟨hun.numbers, hun.reloads, hun.offset, hun.rest, hun.stops, hun.owned,
    hun.starts, hun.exit⟩⟩

/-- After the last chunk the transfer ends with a STOP or without. -/
theorem Delivered.procComplete {msg : I2cMsg} (h : Delivered j ops t)
    (hmoved : Moved j ops t.pBuffer t.buf t.periph) (hmode : t.reloadModeFlag = false)
    (hnoStop : j.noStop = msg.has rtI2cNoStop) :
    Progress j (procComplete msg t) ∧ roundsLeft (procComplete msg t) < 3 := by
  obtain ⟨k, m, hchunks⟩ := h.chunks
  rw [hmode] at hchunks
  have hreload := h.reload.trans hmode
  unfold Drivers.procComplete
  cases hflag : msg.has rtI2cNoStop with
  | true =>
    rw [hflag] at hnoStop
    refine ⟨⟨ops, hmoved, h.le, ⟨k, m, _, hchunks⟩, ?_⟩, (by decide : 1 < 3)⟩
    show EndsIn j ops t.pBuffer t.periph t.exit
    rw [h.exit]
    refine ⟨h.last hmode, ⟨k, m, hchunks⟩, ?_, ?_, hreload, h.pending⟩
    · rw [hnoStop]
      exact h.stops
    · rw [hnoStop]
      exact h.owned
  | false =>
    rw [hflag] at hnoStop
    have hstopped := hchunks.noted [.stop] rfl rfl
    have hbus : busOwned j.owned (ops ++ [.stop]) = false := busOwned_append _ _ _
    refine ⟨⟨ops ++ [.stop], hmoved.noted rfl rfl rfl, h.exit, ?_, ?_⟩, (by decide : 2 < 3)⟩
    · exact ⟨h.le, ⟨k, m, _, hstopped⟩, hnoStop, hbus, hreload, h.pending⟩
    · refine ⟨h.le, ⟨k, m, _, hstopped⟩, h.last hmode, ⟨k, m, hstopped⟩, ?_, ?_, hreload, h.pending⟩
      · rw [hnoStop, stopCount_append, h.stops]
        rfl
      · rw [hnoStop, hbus]
        rfl

theorem procStop_none {a : I2cAnswers} (h : awaitFlag a t.left t.periph = (0, p)) :
    procStop a t = { t with left := i2cTimeOut, exit := .stop, periph := p, state := .ended } := by
  unfold procStop
  rw [h]
  rfl

theorem procStop_seen {a : I2cAnswers} {left : Nat}
    (h : awaitFlag a t.left t.periph = (left + 1, p)) :
    procStop a t =
      { t with left := i2cTimeOut, periph := p.note .clearStpdet, state := .ended } := by
  unfold procStop
  rw [h]
  exact if_pos (Nat.succ_pos left)

/-- Waiting for the end of the STOP. -/
theorem procStop_progress (a : I2cAnswers) (h : Progress j t) (hstate : t.state = .stop) :
    Progress j (procStop a t) ∧ roundsLeft (procStop a t) < roundsLeft t := by
  obtain ⟨ops, hmoved, hstage⟩ := h
  simp only [Stage, hstate] at hstage
  obtain ⟨hexit, hstop, hcomplete⟩ := hstage
  obtain ⟨asked, hasked⟩ := awaitFlag_asked a t.left t.periph
  have hrounds : roundsLeft t = 2 := by
    unfold roundsLeft
    rw [hstate]
  rw [hrounds]
  cases hpoll : awaitFlag a t.left t.periph with
  | mk left p =>
    rw [hpoll] at hasked
    obtain rfl : p = { t.periph with asked := asked } := hasked
    cases left with
    | zero =>
      rw [procStop_none hpoll]
      exact ⟨⟨ops, hmoved.asked asked, ⟨hstop.le, hstop.chunks, hstop.ends⟩⟩, Nat.lt_succ_self 1⟩
    | succ left =>
      rw [procStop_seen hpoll]
      refine ⟨⟨ops ++ [.clearStpdet], (hmoved.asked asked).noted rfl rfl rfl, ?_⟩,
        Nat.lt_succ_self 1⟩
      obtain ⟨hlen, ⟨k, m, hchunks⟩, hstops, howned, hreload, hpending⟩ := hcomplete.ends
      have hcleared := hchunks.noted [.clearStpdet] rfl rfl
      refine ⟨hcomplete.le, ⟨k, m, _, hcleared⟩, ?_⟩
      show EndsIn j _ t.pBuffer _ t.exit
      rw [hexit]
      refine ⟨hlen, ⟨k, m, hcleared⟩, ?_, ?_, hreload, hpending⟩
      · rw [stopCount_append]
        exact hstops
      · exact (busOwned_append _ _ _).trans howned

end Progress

/-! ## The rounds of the two loops -/

section Rounds

variable {a : I2cAnswers} {j : I2cJob} {msg : I2cMsg} {t : I2cTransfer} {buf : Nat → UInt8}
  {p p' : I2cPeriph} {left : Nat}

/-- What a round comes to. -/
def RoundKeeps (j : I2cJob) (t : I2cTransfer) : I2cTransfer ⊕ I2cResult → Prop
  | .inl next => Progress j next ∧ roundsLeft next < roundsLeft t
  | .inr result => Outcome j result

theorem roundsLeft_transmit (hstate : t.state = .transmitData) :
    roundsLeft t = if t.reloadModeFlag then 3 * t.numberOfByte + 6 else 3 := by
  unfold roundsLeft
  rw [hstate]

/-- The transfer after the bytes of a chunk and the wait for TCR or TC. -/
def afterBytes (t : I2cTransfer) (left : Nat) (buf : Nat → UInt8) (p : I2cPeriph) : I2cTransfer :=
  { t with
    left := left, nbytesReload := 0, pBuffer := t.pBuffer + t.nbytesReload, buf := buf, periph := p }

/-- Where the loop goes after the bytes of a chunk. -/
def afterWait (msg : I2cMsg) (t : I2cTransfer) (left : Nat) : I2cTransfer :=
  if 0 < left then
    if t.reloadModeFlag then { t with state := .reload } else procComplete msg t
  else { t with exit := if t.reloadModeFlag then .tcr else .tc, state := .ended }

theorem readTransmitData_none (h : receiveBytes a t.nbytesReload t.pBuffer t.buf t.periph =
    (false, buf, p)) :
    readTransmitData a msg t = .inr { exit := .data, buf := buf, periph := p } := by
  unfold readTransmitData
  rw [h]

theorem readTransmitData_all (h : receiveBytes a t.nbytesReload t.pBuffer t.buf t.periph =
    (true, buf, p)) (hpoll : awaitFlag a i2cTimeOut p = (left, p'))
    (hreload : p.reload = t.reloadModeFlag) :
    readTransmitData a msg t = .inl (afterWait msg (afterBytes t left buf p') left) := by
  unfold readTransmitData
  rw [h]
  simp only [hpoll, hreload]
  unfold afterWait afterBytes
  cases t.reloadModeFlag with
  | true => exact (apply_ite Sum.inl _ _ _).symm
  | false => exact (apply_ite Sum.inl _ _ _).symm

theorem writeTransmitData_none (h : transmitBytes a t.buf t.nbytesReload t.pBuffer t.periph =
    (false, p)) :
    writeTransmitData a msg t = .inr { exit := .data, buf := t.buf, periph := p } := by
  unfold writeTransmitData
  rw [h]

theorem writeTransmitData_all (h : transmitBytes a t.buf t.nbytesReload t.pBuffer t.periph =
    (true, p)) (hpoll : awaitFlag a i2cTimeOut p = (left, p'))
    (hreload : p.reload = t.reloadModeFlag) :
    writeTransmitData a msg t = .inl (afterWait msg (afterBytes t left t.buf p') left) := by
  unfold writeTransmitData
  rw [h]
  simp only [hpoll, hreload]
  unfold afterWait afterBytes
  cases t.reloadModeFlag with
  | true => exact (apply_ite Sum.inl _ _ _).symm
  | false => exact (apply_ite Sum.inl _ _ _).symm

theorem Delivered.afterWait {ops : List I2cOp} (h : Delivered j ops t)
    (hmoved : Moved j ops t.pBuffer t.buf t.periph) (hnoStop : j.noStop = msg.has rtI2cNoStop) :
    Progress j (afterWait msg t left) ∧
      roundsLeft (afterWait msg t left) <
        if t.reloadModeFlag then 3 * t.numberOfByte + 6 else 3 := by
  unfold Drivers.afterWait
  rcases Bool.eq_false_or_eq_true t.reloadModeFlag with hmode | hmode
  · simp only [if_pos hmode]
    rcases Nat.eq_zero_or_pos left with rfl | hleft
    · have hrounds : 1 < 3 * t.numberOfByte + 6 :=
        Nat.lt_of_lt_of_le (by decide : 1 < 6) (Nat.le_add_left _ _)
      exact ⟨⟨ops, hmoved, h.tcr hmode⟩, hrounds⟩
    · rw [if_pos hleft]
      exact ⟨h.reloadNext hmoved hmode, Nat.lt_succ_self _⟩
  · have hlast : ¬t.reloadModeFlag = true := by
      rw [hmode]
      exact Bool.noConfusion
    simp only [if_neg hlast]
    rcases Nat.eq_zero_or_pos left with rfl | hleft
    · exact ⟨⟨ops, hmoved, h.tc hmode⟩, (by decide : 1 < 3)⟩
    · rw [if_pos hleft]
      exact h.procComplete hmoved hmode hnoStop

/-- What remains once the bytes of a chunk have been moved, all of them or not. -/
theorem Programmed.stalled {ops : List I2cOp} {k m : Nat} (h : Programmed j ops k t)
    (hmoved : Moved j ops t.pBuffer t.buf t.periph) (hm : m < t.nbytesReload)
    (hto : MovedTo j.receive j.want t.pBuffer m t.periph p)
    (hbuf : buf = fun i => if j.receive = true ∧ t.pBuffer ≤ i ∧ i < t.pBuffer + m then j.want i
      else t.buf i) : Outcome j { exit := .data, buf := buf, periph := p } := by
  obtain ⟨hnumbers, hmodes, -, -⟩ := moves_quiet j.receive j.want t.pBuffer m j.owned
  have hle := h.le
  refine ⟨_, _, hmoved.next hto hbuf, by omega, ⟨k, _, _, h.chunks.noted _ hnumbers hmodes⟩, ?_⟩
  show 0 < p.pending
  rw [hto.pending, h.pending]
  omega

theorem Programmed.moved {ops : List I2cOp} {k asked : Nat} (h : Programmed j ops k t)
    (hmoved : Moved j ops t.pBuffer t.buf t.periph)
    (howned : busOwned j.owned ops = (j.owned || j.starts))
    (hto : MovedTo j.receive j.want t.pBuffer t.nbytesReload t.periph p)
    (hbuf : buf = fun i => if j.receive = true ∧ t.pBuffer ≤ i ∧ i < t.pBuffer + t.nbytesReload then
      j.want i else t.buf i) (hnoStop : j.noStop = msg.has rtI2cNoStop)
    (hstate : t.state = .transmitData) :
    RoundKeeps j t (.inl (afterWait msg (afterBytes t left buf { p with asked := asked }) left)) := by
  have hafter := (hmoved.next hto hbuf).asked asked
  have hdelivered := h.delivered asked left buf howned hto
  unfold RoundKeeps
  rw [roundsLeft_transmit hstate]
  exact hdelivered.afterWait hafter hnoStop

theorem readTransmitData_keeps (h : Progress j t) (hstate : t.state = .transmitData)
    (hreceive : j.receive = true) (hwant : ∀ i, j.want i = a.data (j.periph.received + i))
    (hnoStop : j.noStop = msg.has rtI2cNoStop) : RoundKeeps j t (readTransmitData a msg t) := by
  obtain ⟨ops, hmoved, hstage⟩ := h
  simp only [Stage, hstate] at hstage
  obtain ⟨⟨k, hprog⟩, howned⟩ := hstage
  have hnext : ∀ i, j.want (t.pBuffer + i) = a.data (t.periph.received + i) := by
    intro i
    rw [hwant, hmoved.received hreceive, Nat.add_assoc]
  obtain ⟨m, hm, hto, hall, hpart, hbuf⟩ :=
    receiveBytes_spec t.nbytesReload t.pBuffer t.buf hnext
  rw [← hreceive] at hto
  have hstored : (receiveBytes a t.nbytesReload t.pBuffer t.buf t.periph).2.1 = fun i =>
      if j.receive = true ∧ t.pBuffer ≤ i ∧ i < t.pBuffer + m then j.want i else t.buf i := by
    rw [hbuf]
    funext i
    exact if_congr ⟨fun hi => ⟨hreceive, hi⟩, fun hi => hi.2⟩ rfl rfl
  rcases hbytes : receiveBytes a t.nbytesReload t.pBuffer t.buf t.periph with ⟨done, buf, p⟩
  rw [hbytes] at hto hstored hall hpart
  cases done with
  | false =>
    rw [readTransmitData_none hbytes]
    exact hprog.stalled hmoved (hpart rfl) hto hstored
  | true =>
    obtain rfl := hall rfl
    obtain ⟨asked, hasked⟩ := awaitFlag_asked a i2cTimeOut p
    have hpoll : awaitFlag a i2cTimeOut p =
        ((awaitFlag a i2cTimeOut p).1, { p with asked := asked }) := Prod.ext rfl hasked
    rw [readTransmitData_all hbytes hpoll (hto.reload.trans hprog.reload)]
    exact hprog.moved hmoved howned hto hstored hnoStop hstate

theorem writeTransmitData_keeps (h : Progress j t) (hstate : t.state = .transmitData)
    (hreceive : j.receive = false) (hwant : j.want = j.buf)
    (hnoStop : j.noStop = msg.has rtI2cNoStop) : RoundKeeps j t (writeTransmitData a msg t) := by
  obtain ⟨ops, hmoved, hstage⟩ := h
  simp only [Stage, hstate] at hstage
  obtain ⟨⟨k, hprog⟩, howned⟩ := hstage
  have hnone : ∀ c : Prop, ¬(j.receive = true ∧ c) := by
    rintro c ⟨hreceive', -⟩
    rw [hreceive] at hreceive'
    cases hreceive'
  have hbuf : t.buf = j.want := by
    rw [hmoved.stored, hwant]
    funext i
    exact if_neg (hnone _)
  obtain ⟨m, hm, hto, hall, hpart⟩ :=
    transmitBytes_spec (a := a) t.periph t.buf t.nbytesReload t.pBuffer
  rw [← hreceive] at hto
  have hstored : t.buf = fun i =>
      if j.receive = true ∧ t.pBuffer ≤ i ∧ i < t.pBuffer + m then j.want i else t.buf i := by
    funext i
    exact (if_neg (hnone _)).symm
  rcases hbytes : transmitBytes a t.buf t.nbytesReload t.pBuffer t.periph with ⟨done, p⟩
  rw [hbytes, hbuf] at hto
  rw [hbytes] at hall hpart
  cases done with
  | false =>
    rw [writeTransmitData_none hbytes]
    exact hprog.stalled hmoved (hpart rfl) hto hstored
  | true =>
    obtain rfl := hall rfl
    obtain ⟨asked, hasked⟩ := awaitFlag_asked a i2cTimeOut p
    have hpoll : awaitFlag a i2cTimeOut p =
        ((awaitFlag a i2cTimeOut p).1, { p with asked := asked }) := Prod.ext rfl hasked
    rw [writeTransmitData_all hbytes hpoll (hto.reload.trans hprog.reload)]
    exact hprog.moved hmoved howned hto hstored hnoStop hstate

/-- START. -/
theorem start_progress (h : Progress j t) (hstate : t.state = .start) (left : Nat) :
    RoundKeeps j t
      (.inl { t with left := left, periph := t.periph.note .start, state := .transmitData }) := by
  obtain ⟨ops, hmoved, hstage⟩ := h
  simp only [Stage, hstate] at hstage
  obtain ⟨⟨k, hprog⟩, -, hstarts⟩ := hstage
  have hchunks := hprog.chunks.noted [.start] rfl rfl
  refine ⟨⟨ops ++ [.start], hmoved.noted rfl rfl rfl, ⟨k, ?_⟩, ?_⟩, ?_⟩
  · exact
      { chunks := hchunks, offset := hprog.offset, rest := hprog.rest, reload := hprog.reload,
        pending := hprog.pending, stops := (stopCount_append _ _).trans hprog.stops,
        exit := hprog.exit, startFlag := hprog.startFlag }
  · rw [hstarts, Bool.or_true]
    exact busOwned_append _ _ _
  · unfold roundsLeft
    rw [hstate]
    simp only
    split
    · exact Nat.lt_succ_self _
    · exact Nat.lt_succ_self _

/-- STPDET may be waited for with all of `timeout` or with what is left of it. -/
theorem procStop_keeps (h : Progress j t) (hstate : t.state = .stop) (left : Nat) :
    RoundKeeps j t (.inl (procStop a { t with left := left })) := by
  have hfrom : Progress j { t with left := left } := by
    obtain ⟨ops, hmoved, hstage⟩ := h
    refine ⟨ops, hmoved, ?_⟩
    simp only [Stage, hstate] at hstage ⊢
    exact hstage
  exact procStop_progress a hfrom hstate

theorem readRound_keeps (h : Progress j t) (hreceive : j.receive = true)
    (hwant : ∀ i, j.want i = a.data (j.periph.received + i))
    (hnoStop : j.noStop = msg.has rtI2cNoStop) : RoundKeeps j t (readRound a msg t) := by
  unfold readRound
  cases hstate : t.state with
  | start => exact start_progress h hstate t.left
  | readInit =>
    obtain ⟨ops, hmoved, hstage⟩ := h
    simp only [Stage, hstate] at hstage
    obtain ⟨-, k, hun⟩ := hstage
    have hlog := List.append_assoc t.periph.log [.addressing (msg.addr.toNat <<< 1) true]
      [.autoEndDisable]
    refine ⟨⟨_, hmoved.noted rfl hlog rfl, k, ?_⟩, ?_⟩
    · exact
        { numbers := (byteNumbers_append _ _).trans ((List.append_nil _).trans hun.numbers)
          reloads := (reloadModes_append _ _).trans ((List.append_nil _).trans hun.reloads)
          offset := hun.offset, rest := hun.rest
          stops := (stopCount_append _ _).trans hun.stops
          owned := (busOwned_append _ _ _).trans hun.owned, starts := hun.starts, exit := hun.exit }
    · unfold roundsLeft
      rw [hstate]
      exact Nat.lt_succ_self _
  | reload => exact procReload_progress h hstate
  | transmitData => exact readTransmitData_keeps h hstate hreceive hwant hnoStop
  | stop => exact procStop_keeps h hstate t.left
  | ended =>
    obtain ⟨ops, hmoved, hstage⟩ := h
    simp only [Stage, hstate] at hstage
    exact ⟨ops, _, hmoved, hstage⟩

theorem writeRound_keeps (h : Progress j t) (hreceive : j.receive = false) (hwant : j.want = j.buf)
    (hnoStop : j.noStop = msg.has rtI2cNoStop) : RoundKeeps j t (writeRound a msg t) := by
  unfold writeRound
  -- not `cases`, which would put the constructor into the states that follow as well
  split
  next hstate => exact start_progress h hstate i2cTimeOut
  next hstate => exact procReload_progress h hstate
  next hstate => exact writeTransmitData_keeps h hstate hreceive hwant hnoStop
  next hstate => exact procStop_keeps h hstate i2cTimeOut
  next hstate =>
    obtain ⟨ops, hmoved, hstage⟩ := h
    simp only [Stage, hstate] at hstage
    exact ⟨ops, _, hmoved, hstage⟩
  next hstate =>
    obtain ⟨ops, -, hstage⟩ := h
    simp only [Stage, hstate, hreceive] at hstage
    exact absurd hstage.1 Bool.noConfusion

end Rounds


/-! ## Whole transfers -/

section Transfers

variable (a : I2cAnswers) (p : I2cPeriph) (msg : I2cMsg) (owned : Bool)

/-- What `gd32_i2c_read` is to do. -/
def readJob : I2cJob where
  receive := true
  starts := true
  noStop := msg.has rtI2cNoStop
  owned := owned
  len := msg.len.toNat
  want := fun i => a.data (p.received + i)
  buf := msg.buf
  periph := p

/-- What `gd32_i2c_write` is to do. -/
def writeJob : I2cJob where
  receive := false
  starts := !msg.has rtI2cNoStart
  noStop := msg.has rtI2cNoStop
  owned := owned
  len := msg.len.toNat
  want := msg.buf
  buf := msg.buf
  periph := p

/-- As many rounds as a message may need. -/
def roundsFor (msg : I2cMsg) : Nat := 3 * msg.len.toNat + 7

theorem gd32I2cRead_outcome (extra : Nat) :
    ∃ r, gd32I2cRead a (roundsFor msg + extra) p msg = some r ∧
      Outcome (readJob a p msg owned) r := by
  unfold gd32I2cRead
  refine loop_total (I := Progress (readJob a p msg owned)) (μ := roundsLeft) ?_ ?_ ?_ ?_
  · intro t next h hround
    have hkeeps : RoundKeeps _ t (readRound a msg t) := readRound_keeps h rfl (fun _ => rfl) rfl
    rw [hround] at hkeeps
    exact hkeeps
  · intro t r h hround
    have hkeeps : RoundKeeps _ t (readRound a msg t) := readRound_keeps h rfl (fun _ => rfl) rfl
    rw [hround] at hkeeps
    exact hkeeps
  · refine ⟨[], ⟨(List.append_nil _).symm, rfl, ?_, fun _ => rfl⟩, rfl, 0, ?_⟩
    · funext i
      exact (if_neg (fun hi => Nat.not_lt_zero i hi.2)).symm
    · exact ⟨rfl, rfl, rfl, Nat.zero_add _, rfl, rfl, fun _ => rfl, rfl⟩
  · show 3 * msg.len.toNat + 6 < roundsFor msg + extra
    unfold roundsFor
    omega

theorem gd32I2cWrite_outcome (extra : Nat) :
    ∃ r, gd32I2cWrite a (roundsFor msg + extra) p msg = some r ∧
      Outcome (writeJob p msg owned) r := by
  unfold gd32I2cWrite
  refine loop_total (I := Progress (writeJob p msg owned)) (μ := roundsLeft) ?_ ?_ ?_ ?_
  · intro t next h hround
    have hkeeps : RoundKeeps _ t (writeRound a msg t) := writeRound_keeps h rfl rfl rfl
    rw [hround] at hkeeps
    exact hkeeps
  · intro t r h hround
    have hkeeps : RoundKeeps _ t (writeRound a msg t) := writeRound_keeps h rfl rfl rfl
    rw [hround] at hkeeps
    exact hkeeps
  · refine ⟨[.addressing (msg.addr.toNat <<< 1) false, .autoEndDisable],
      ⟨List.append_assoc _ _ _, rfl, ?_, fun hr => absurd hr Bool.noConfusion⟩, 0, ?_⟩
    · funext i
      exact (if_neg (fun hi => Nat.not_lt_zero i hi.2)).symm
    · refine ⟨rfl, rfl, rfl, Nat.zero_add _, rfl, ?_, fun hstart => hstart, rfl⟩
      show owned = if (!msg.has rtI2cNoStart) = true then owned else owned || !msg.has rtI2cNoStart
      cases msg.has rtI2cNoStart with
      | true => exact (Bool.or_false owned).symm
      | false => rfl
  · show 3 * msg.len.toNat + 5 < roundsFor msg + extra
    unfold roundsFor
    omega

/-- What a transfer has done when it returns: `moved` are the accesses that it is to make, and
`stored` is what they leave in the buffer. -/
structure Transferred (moved : Nat → I2cOp) (stored : Nat → UInt8) (r : I2cResult)
    (ops : List I2cOp) (n : Nat) : Prop where
  log : r.periph.log = p.log ++ ops
  sizes : ∀ size ∈ byteNumbers ops, size ≤ maxReloadSize
  /-- RELOAD is on for each chunk but the last one -/
  reloads : reloadModes ops = List.replicate ((byteNumbers ops).length - 1) true ++
    [decide ((byteNumbers ops).sum < msg.len.toNat)]
  paired : (reloadModes ops).length = (byteNumbers ops).length
  sum : r.ret = 0 → (byteNumbers ops).sum = msg.len.toNat
  /-- no access is past the buffer -/
  within : n ≤ msg.len.toNat
  moves : byteMoves ops = (List.range n).map moved
  buffer : r.buf = fun i => if i < n then stored i else msg.buf i
  all : r.ret = 0 → n = msg.len.toNat
  stops : r.ret = 0 → stopCount ops = if msg.has rtI2cNoStop then 0 else 1

variable {a p owned}

theorem Chunks.sum {len k m : Nat} {ops : List I2cOp} {more : Bool} (h : Chunks len ops k m more) :
    (byteNumbers ops).sum = maxReloadSize * k + m := by
  rw [h.numbers, List.sum_append, List.sum_replicate_nat, List.sum_singleton, Nat.mul_comm]

theorem I2cResult.ret_eq_zero {r : I2cResult} : r.ret = 0 ↔ r.exit = .complete := by
  unfold I2cResult.ret
  constructor
  · intro h
    by_contra hexit
    rw [if_neg hexit] at h
    exact absurd h (by decide)
  · intro h
    exact if_pos h

theorem Outcome.transferred {j : I2cJob} {r : I2cResult} {moved : Nat → I2cOp}
    {stored : Nat → UInt8} (h : Outcome j r) (hlog : j.periph.log = p.log)
    (hlen : j.len = msg.len.toNat) (hbuf : j.buf = msg.buf)
    (hnoStop : j.noStop = msg.has rtI2cNoStop)
    (hmoved : ∀ i, moveOp j.receive i (j.want i) = moved i)
    (hstored : ∀ i, (if j.receive = true then j.want i else j.buf i) = stored i) :
    ∃ ops n, Transferred p msg moved stored r ops n := by
  obtain ⟨ops, n, hbytes, hended⟩ := h
  obtain ⟨k, m, more, hchunks⟩ := hended.chunks
  have hcomplete : r.ret = 0 → EndsIn j ops n r.periph .complete := by
    intro hret
    rw [← I2cResult.ret_eq_zero.mp hret]
    exact hended.ends
  have hmore : decide ((byteNumbers ops).sum < msg.len.toNat) = more := by
    rw [hchunks.sum, ← hlen]
    cases more with
    | true => exact decide_eq_true (hchunks.full rfl).2
    | false => exact decide_eq_false (by rw [hchunks.last rfl]; exact Nat.lt_irrefl _)
  have hlength : (byteNumbers ops).length = k + 1 := by
    rw [hchunks.numbers, List.length_append, List.length_replicate, List.length_singleton]
  refine ⟨ops, n, ?_⟩
  refine
    { log := by rw [hbytes.log, hlog], sizes := ?_, reloads := ?_, paired := ?_, sum := ?_
      within := hlen ▸ hended.le, moves := ?_, buffer := ?_
      all := fun hret => (hcomplete hret).1.trans hlen, stops := fun hret => ?_ }
  · intro size hsize
    rw [hchunks.numbers, List.mem_append, List.mem_singleton] at hsize
    rcases hsize with hfull | rfl
    · exact Nat.le_of_eq (List.eq_of_mem_replicate hfull)
    · exact hchunks.le
  · rw [hmore, hlength, hchunks.reloads, Nat.add_sub_cancel]
  · rw [hlength, hchunks.reloads, List.length_append, List.length_replicate, List.length_singleton]
  · intro hret
    obtain ⟨-, ⟨k', m', hlast⟩, -⟩ := hcomplete hret
    rw [hlast.sum, hlast.last rfl, hlen]
  · rw [hbytes.bytes]
    unfold Drivers.moves
    refine List.map_congr_left fun i _ => ?_
    rw [Nat.zero_add]
    exact hmoved i
  · rw [hbytes.stored]
    funext i
    by_cases hi : i < n
    · rw [if_pos hi, ← hstored]
      exact if_congr ⟨fun hr => hr.1, fun hr => ⟨hr, hi⟩⟩ rfl rfl
    · rw [if_neg hi, if_neg (fun hr => hi hr.2), hbuf]
  · rw [(hcomplete hret).2.2.1, hnoStop]

variable (a p)

/-- Both engines end, cut the message into chunks with RELOAD on for each but the last one, and
move exactly the bytes of the buffer, or a part of them, from the first one on.  After success
they have moved all of them, and generated one STOP unless the message says RT_I2C_NO_STOP. -/
theorem gd32I2c_transfers (extra : Nat) :
    (∃ r ops n, gd32I2cRead a (roundsFor msg + extra) p msg = some r ∧
      Transferred p msg (fun i => .receive i (a.data (p.received + i)))
        (fun i => a.data (p.received + i)) r ops n) ∧
    ∃ r ops n, gd32I2cWrite a (roundsFor msg + extra) p msg = some r ∧
      Transferred p msg (fun i => .transmit i (msg.buf i)) msg.buf r ops n := by
  constructor
  · obtain ⟨r, hrun, houtcome⟩ := gd32I2cRead_outcome a p msg false extra
    obtain ⟨ops, n, htransferred⟩ :=
      houtcome.transferred msg rfl rfl rfl rfl (fun _ => rfl) fun _ => rfl
    exact ⟨r, ops, n, hrun, htransferred⟩
  · obtain ⟨r, hrun, houtcome⟩ := gd32I2cWrite_outcome a p msg false extra
    obtain ⟨ops, n, htransferred⟩ :=
      houtcome.transferred msg rfl rfl rfl rfl (fun _ => rfl) fun _ => rfl
    exact ⟨r, ops, n, hrun, htransferred⟩

end Transfers

end Gd32Vw553h.Drivers
