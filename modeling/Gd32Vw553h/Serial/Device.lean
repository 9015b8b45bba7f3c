/-
  Serial/Device.lean --- opening and closing a UART
  (`components/drivers/core/device.c`, `components/drivers/serial/dev_serial.c`,
  `libraries/gd32_drivers/drv_usart.c`).

  Every UART is registered with `RT_DEVICE_FLAG_RDWR | RT_DEVICE_FLAG_INT_RX`, so an
  open with any of the other receive or transmit flags ends at the flag check of
  `rt_serial_open` and the branches behind it for DMA and for transmit interrupts are
  not reached.  Allocations succeed; `RT_ASSERT` is compiled out.

  `gd32_uart_control` enables a UART's interrupt line by its number and disables it by
  the peripheral's address.  What that does to the state of the lines is
  `eclicIrqDisable_uartPeriph`.
-/
import Gd32Vw553h.Foundation.Runs
import Gd32Vw553h.Klibc.KErrno
import Mathlib.Logic.Function.Basic

set_option autoImplicit false

namespace Gd32Vw553h.Serial

open Gd32Vw553h.Foundation Gd32Vw553h.Klibc

/-! ## Flags -/

/-- `RT_DEVICE_FLAG_RDWR` -/
abbrev rtDeviceFlagRdwr : UInt16 := 0x003
/-- `RT_DEVICE_FLAG_STANDALONE` -/
abbrev rtDeviceFlagStandalone : UInt16 := 0x008
/-- `RT_DEVICE_FLAG_ACTIVATED` -/
abbrev rtDeviceFlagActivated : UInt16 := 0x010
/-- `RT_DEVICE_FLAG_STREAM` -/
abbrev rtDeviceFlagStream : UInt16 := 0x040
/-- `RT_DEVICE_FLAG_INT_RX` -/
abbrev rtDeviceFlagIntRx : UInt16 := 0x100
/-- `RT_DEVICE_FLAG_DMA_RX` -/
abbrev rtDeviceFlagDmaRx : UInt16 := 0x200
/-- `RT_DEVICE_FLAG_INT_TX` -/
abbrev rtDeviceFlagIntTx : UInt16 := 0x400
/-- `RT_DEVICE_FLAG_DMA_TX` -/
abbrev rtDeviceFlagDmaTx : UInt16 := 0x800
/-- `RT_DEVICE_OFLAG_OPEN` -/
abbrev rtDeviceOflagOpen : UInt16 := 0x008
/-- `RT_DEVICE_OFLAG_MASK` -/
abbrev rtDeviceOflagMask : UInt16 := 0xf0f

/-- `flags & flag` is not zero. -/
def hasFlag (flags flag : UInt16) : Bool := flags &&& flag != 0

theorem hasFlag_or (a b flag : UInt16) :
    hasFlag (a ||| b) flag = (hasFlag a flag || hasFlag b flag) := by
  have hdistrib : (a ||| b) &&& flag = a &&& flag ||| b &&& flag := by
    apply UInt16.eq_of_toBitVec_eq
    simp only [UInt16.toBitVec_and, UInt16.toBitVec_or, BitVec.and_or_distrib_right]
  rw [Bool.eq_iff_iff]
  simp only [hasFlag, hdistrib, bne_iff_ne, ne_eq, UInt16.or_eq_zero_iff, Bool.or_eq_true]
  exact Decidable.not_and_iff_or_not

theorem hasFlag_and_mask {mask flag : UInt16} (h : mask &&& flag = 0) (flags : UInt16) :
    hasFlag (flags &&& mask) flag = false := by
  rw [hasFlag, UInt16.and_assoc, h, UInt16.and_zero]
  rfl

/-! ## State -/

/-- The hardware numbers of `uart_obj`.  The interrupt lines of different UARTs differ, and
no peripheral address is the number of one of these lines. -/
structure UartObj (ι : Type*) where
  uartPeriph : ι → Nat
  irqn : ι → Nat
  irqn_injective : Function.Injective irqn
  uartPeriph_ne_irqn : ∀ u v, uartPeriph u ≠ irqn v

/-- The fields of `struct rt_serial_device` and its `parent` that opening and closing use;
a block of memory is a number. -/
structure RtSerialDevice where
  flag : UInt16
  openFlag : UInt16
  refCount : UInt8
  serialRx : Option Nat
  serialTx : Option Nat

/-- All UARTs, the interrupt enables and the heap. -/
structure UartState (ι : Type*) where
  dev : ι → RtSerialDevice
  /-- `USART_INT_RBNE` is enabled -/
  rbne : ι → Bool
  /-- the lines enabled in the ECLIC -/
  eclic : Nat → Bool
  nextBlock : Nat
  freed : List Nat

section Code

variable {ι : Type*} [DecidableEq ι] (uartObj : UartObj ι)

def UartState.setDev (s : UartState ι) (u : ι) (dev : RtSerialDevice) : UartState ι :=
  { s with dev := Function.update s.dev u dev }

/-- The commands of `gd32_uart_control` that do something. -/
inductive UartCtrl where
  | clrInt
  | setInt

/-- `gd32_uart_control` -/
def gd32UartControl (u : ι) (s : UartState ι) : UartCtrl → UartState ι
  | .clrInt =>
      { s with
        eclic := Function.update s.eclic (uartObj.uartPeriph u) false
        rbne := Function.update s.rbne u false }
  | .setInt =>
      { s with
        eclic := Function.update s.eclic (uartObj.irqn u) true
        rbne := Function.update s.rbne u true }

/-- `rt_serial_init`; `gd32_uart_configure` returns `RT_EOK`. -/
def rtSerialInit (dev : RtSerialDevice) : RtSerialDevice :=
  { dev with serialRx := none, serialTx := none }

/-- The check at the head of `rt_serial_open`: a flag the device is not registered with. -/
def unregisteredFlag (dev : RtSerialDevice) (oflag : UInt16) : Bool :=
  [rtDeviceFlagDmaRx, rtDeviceFlagDmaTx, rtDeviceFlagIntRx, rtDeviceFlagIntTx].any fun flag =>
    hasFlag oflag flag && !hasFlag dev.flag flag

/-- `rt_serial_open` -/
def rtSerialOpen (u : ι) (oflag : UInt16) (s : UartState ι) : Int × UartState ι :=
  let dev := s.dev u
  if unregisteredFlag dev oflag then (-rtEIo, s)
  else
    let streamFlag :=
      if hasFlag oflag rtDeviceFlagStream || hasFlag dev.openFlag rtDeviceFlagStream then
        rtDeviceFlagStream
      else 0
    let openFlag := oflag &&& 0xff
    match dev.serialRx with
    | none =>
      if hasFlag oflag rtDeviceFlagIntRx then
        let dev := { dev with
          openFlag := openFlag ||| rtDeviceFlagIntRx ||| streamFlag
          serialRx := some s.nextBlock }
        (0, gd32UartControl uartObj u { s.setDev u dev with nextBlock := s.nextBlock + 1 } .setInt)
      else (0, s.setDev u { dev with openFlag := openFlag ||| streamFlag })
    | some _ =>
      if hasFlag oflag rtDeviceFlagIntRx then
        (0, s.setDev u { dev with openFlag := openFlag ||| rtDeviceFlagIntRx ||| streamFlag })
      else (0, s.setDev u { dev with openFlag := openFlag ||| streamFlag })

/-- `rt_serial_close` -/
def rtSerialClose (u : ι) (s : UartState ι) : Int × UartState ι :=
  if (s.dev u).refCount > 1 then (0, s)
  else
    let s :=
      if hasFlag (s.dev u).openFlag rtDeviceFlagIntRx then
        let s := gd32UartControl uartObj u s .clrInt
        let dev := s.dev u
        { s.setDev u { dev with
            openFlag := dev.openFlag &&& ~~~rtDeviceFlagIntRx, serialRx := none } with
          freed := s.freed ++ dev.serialRx.toList }
      else s
    let dev := s.dev u
    (0, s.setDev u { dev with flag := dev.flag &&& ~~~rtDeviceFlagActivated })

/-- The first part of `rt_device_open`: a device that is not activated is initialised. -/
def activate (dev : RtSerialDevice) : RtSerialDevice :=
  if hasFlag dev.flag rtDeviceFlagActivated then dev
  else
    let dev := rtSerialInit dev
    { dev with flag := dev.flag ||| rtDeviceFlagActivated }

/-- `rt_device_open` goes on to `rt_serial_open`: the device is not open, or open with other
flags. -/
def opensSerial (dev : RtSerialDevice) (oflag : UInt16) : Bool :=
  !hasFlag dev.openFlag rtDeviceOflagOpen ||
    dev.openFlag &&& rtDeviceOflagMask != ((oflag &&& rtDeviceOflagMask) ||| rtDeviceOflagOpen)

/-- `rt_device_open`; `rt_serial_open` does not return `-RT_ENOSYS`. -/
def rtDeviceOpen (u : ι) (oflag : UInt16) (s : UartState ι) : Int × UartState ι :=
  let s := s.setDev u (activate (s.dev u))
  if hasFlag (s.dev u).flag rtDeviceFlagStandalone && hasFlag (s.dev u).openFlag rtDeviceOflagOpen
  then (-rtEBusy, s)
  else
    let opened := if opensSerial (s.dev u) oflag then rtSerialOpen uartObj u oflag s else (0, s)
    if opened.1 = 0 then
      let dev := opened.2.dev u
      (opened.1, opened.2.setDev u { dev with
        openFlag := dev.openFlag ||| rtDeviceOflagOpen, refCount := dev.refCount + 1 })
    else opened

/-- `rt_device_close` -/
def rtDeviceClose (u : ι) (s : UartState ι) : Int × UartState ι :=
  let dev := s.dev u
  if dev.refCount = 0 then (-rtError, s)
  else
    let s := s.setDev u { dev with refCount := dev.refCount - 1 }
    if (s.dev u).refCount ≠ 0 then (0, s)
    else
      let closed := rtSerialClose uartObj u s
      if closed.1 = 0 then
        let dev := closed.2.dev u
        (closed.1, closed.2.setDev u { dev with openFlag := 0 })
      else closed

/-- Where `rt_serial_read` takes its bytes from. -/
inductive RxPath where
  | fifo
  | dma
  | poll
  deriving DecidableEq

/-- `rt_serial_read` -/
def rtSerialReadPath (dev : RtSerialDevice) : RxPath :=
  if hasFlag dev.openFlag rtDeviceFlagIntRx then .fifo
  else if hasFlag dev.openFlag rtDeviceFlagDmaRx then .dma
  else .poll

/-- The calls of the device interface. -/
inductive UartCall (ι : Type*) where
  | deviceOpen (u : ι) (oflag : UInt16)
  | deviceClose (u : ι)

/-- The UART a call is about. -/
def UartCall.uart {ι : Type*} : UartCall ι → ι
  | .deviceOpen u _ => u
  | .deviceClose u => u

/-- The UARTs as a machine. -/
def uarts : Machine (UartState ι) (UartCall ι) where
  step s
    | .deviceOpen u oflag => some (rtDeviceOpen uartObj u oflag s).2
    | .deviceClose u => some (rtDeviceClose uartObj u s).2

/-- All UARTs registered, none open, no interrupt enabled. -/
def UartState.registered : UartState ι where
  dev := fun _ =>
    { flag := rtDeviceFlagRdwr ||| rtDeviceFlagIntRx, openFlag := 0, refCount := 0,
      serialRx := none, serialTx := none }
  rbne := fun _ => false
  eclic := fun _ => false
  nextBlock := 0
  freed := []

end Code

/-! ## What is to hold -/

section Property

variable {ι : Type*} [DecidableEq ι] (uartObj : UartObj ι)

/-- In every state: a FIFO stands for enabled interrupts, and an open device reads from it. -/
structure UartsOk (s : UartState ι) : Prop where
  enabled : ∀ u, (s.dev u).serialRx.isSome = true ↔
    s.rbne u = true ∧ s.eclic (uartObj.irqn u) = true
  reads : ∀ u, hasFlag (s.dev u).openFlag rtDeviceOflagOpen = true →
    (s.dev u).serialRx.isSome = true → rtSerialReadPath (s.dev u) = .fifo

/-- After the close that brings `ref_count` to 0: no buffers, each freed once, and no
interrupt. -/
structure Closed (u : ι) (s s' : UartState ι) : Prop where
  serialRx : (s'.dev u).serialRx = none
  serialTx : (s'.dev u).serialTx = none
  freed : ∀ b, (s.dev u).serialRx = some b ∨ (s.dev u).serialTx = some b → s'.freed.count b = 1
  rbne : s'.rbne u = false
  eclic : s'.eclic (uartObj.irqn u) = false

/-- What is to hold of a call and of the state behind it. -/
structure CallRight (s : UartState ι) (call : UartCall ι) (s' : UartState ι) : Prop where
  state : UartsOk uartObj s'
  others : ∀ v, v ≠ call.uart → s'.eclic (uartObj.irqn v) = s.eclic (uartObj.irqn v)
  closed : ∀ u, call = .deviceClose u → (s.dev u).refCount = 1 → Closed uartObj u s s'

/-- An open that reaches the end of `rt_serial_open` without the receive flag while there is
a FIFO. -/
def dropsFifo (dev : RtSerialDevice) (oflag : UInt16) : Bool :=
  opensSerial dev oflag && !unregisteredFlag dev oflag && !hasFlag oflag rtDeviceFlagIntRx &&
    dev.serialRx.isSome

/-- The calls that do what they should: opens that keep the receive flag of a FIFO, and
closes that do not take the last reference of a device with a FIFO. -/
def CallFits (s : UartState ι) : UartCall ι → Prop
  | .deviceOpen u oflag => dropsFifo (s.dev u) oflag = false
  | .deviceClose u => ¬ ((s.dev u).refCount = 1 ∧ (s.dev u).serialRx.isSome = true)

end Property

/-! ## What the calls do -/

section Flags

theorem openFlag_intRx (oflag stream : UInt16) :
    hasFlag ((oflag &&& 0xff) ||| rtDeviceFlagIntRx ||| stream) rtDeviceFlagIntRx = true := by
  rw [hasFlag_or, hasFlag_or, show hasFlag rtDeviceFlagIntRx rtDeviceFlagIntRx = true from rfl,
    Bool.or_true, Bool.true_or]

theorem openFlag_not_intRx (oflag : UInt16) {stream : UInt16}
    (hstream : hasFlag stream rtDeviceFlagIntRx = false) :
    hasFlag ((oflag &&& 0xff) ||| stream) rtDeviceFlagIntRx = false := by
  rw [hasFlag_or, hstream, hasFlag_and_mask rfl]
  rfl

theorem openFlag_open (flags : UInt16) :
    hasFlag (flags ||| rtDeviceOflagOpen) rtDeviceOflagOpen = true := by
  rw [hasFlag_or, show hasFlag rtDeviceOflagOpen rtDeviceOflagOpen = true from rfl, Bool.or_true]

theorem hasFlag_or_open (flags : UInt16) :
    hasFlag (flags ||| rtDeviceOflagOpen) rtDeviceFlagIntRx =
      hasFlag flags rtDeviceFlagIntRx := by
  rw [hasFlag_or, show hasFlag rtDeviceOflagOpen rtDeviceFlagIntRx = false from rfl, Bool.or_false]

theorem rtSerialReadPath_eq_fifo (dev : RtSerialDevice) :
    rtSerialReadPath dev = .fifo ↔ hasFlag dev.openFlag rtDeviceFlagIntRx = true := by
  unfold rtSerialReadPath
  cases hasFlag dev.openFlag rtDeviceFlagIntRx with
  | true => simp
  | false => cases hasFlag dev.openFlag rtDeviceFlagDmaRx <;> simp

end Flags

section Effects

variable {ι : Type*} (uartObj : UartObj ι) {s : UartState ι}

/-- Disabling a line by the address of a peripheral disables no UART's line. -/
theorem eclicIrqDisable_uartPeriph (eclic : Nat → Bool) (u v : ι) :
    Function.update eclic (uartObj.uartPeriph u) false (uartObj.irqn v) =
      eclic (uartObj.irqn v) :=
  Function.update_of_ne (uartObj.uartPeriph_ne_irqn u v).symm false eclic

/-- What holds of a device as long as the calls fit. -/
structure DevInv (dev : RtSerialDevice) : Prop where
  flag : dev.flag = 0x103 ∨ dev.flag = 0x113
  serialTx : dev.serialTx = none
  activated : dev.serialRx.isSome = true → dev.flag = 0x113
  intRx : dev.serialRx.isSome = true → hasFlag dev.openFlag rtDeviceFlagIntRx = true

/-- What holds of all UARTs as long as the calls fit: the interrupts are those of the
FIFOs. -/
structure UartInv (s : UartState ι) : Prop where
  dev : ∀ u, DevInv (s.dev u)
  rbne : ∀ u, s.rbne u = (s.dev u).serialRx.isSome
  eclic : ∀ u, s.eclic (uartObj.irqn u) = (s.dev u).serialRx.isSome

variable {uartObj}

theorem UartInv.uartsOk (h : UartInv uartObj s) : UartsOk uartObj s where
  enabled u := by rw [h.rbne u, h.eclic u, and_self]
  reads u _ hrx := (rtSerialReadPath_eq_fifo _).mpr ((h.dev u).intRx hrx)

/-- Initialising a device that is not active changes no buffer. -/
theorem activate_eq {dev : RtSerialDevice} (h : DevInv dev) :
    activate dev = { dev with flag := 0x113 } := by
  obtain ⟨hflag, htx, hactivated, -⟩ := h
  obtain ⟨flag, openFlag, refCount, rx, tx⟩ := dev
  dsimp only at hflag htx hactivated
  subst htx
  have hset : (0x103 : UInt16) ||| rtDeviceFlagActivated = 0x113 := by decide
  unfold activate
  rcases hflag with rfl | rfl
  · have hidle : ¬ hasFlag 0x103 rtDeviceFlagActivated = true := by decide
    cases rx with
    | none => simp only [hidle, if_false, rtSerialInit, hset, Bool.false_eq_true]
    | some b => exact absurd (hactivated rfl) (by decide)
  · have hactive : hasFlag 0x113 rtDeviceFlagActivated = true := by decide
    simp only [hactive, if_true]

variable [DecidableEq ι]

/-- The ways through `rt_serial_open`. -/
theorem rtSerialOpen_cases (uartObj : UartObj ι) (s : UartState ι) (u : ι) (oflag : UInt16) :
    (unregisteredFlag (s.dev u) oflag = true ∧
        rtSerialOpen uartObj u oflag s = (-rtEIo, s)) ∨
      ∃ stream, hasFlag stream rtDeviceFlagIntRx = false ∧
        unregisteredFlag (s.dev u) oflag = false ∧
        ((hasFlag oflag rtDeviceFlagIntRx = true ∧ (s.dev u).serialRx = none ∧
            rtSerialOpen uartObj u oflag s =
              (0, gd32UartControl uartObj u { s.setDev u { s.dev u with
                openFlag := (oflag &&& 0xff) ||| rtDeviceFlagIntRx ||| stream
                serialRx := some s.nextBlock } with nextBlock := s.nextBlock + 1 } .setInt)) ∨
          (hasFlag oflag rtDeviceFlagIntRx = true ∧ (s.dev u).serialRx.isSome = true ∧
            rtSerialOpen uartObj u oflag s = (0, s.setDev u { s.dev u with
              openFlag := (oflag &&& 0xff) ||| rtDeviceFlagIntRx ||| stream })) ∨
          (hasFlag oflag rtDeviceFlagIntRx = false ∧
            rtSerialOpen uartObj u oflag s = (0, s.setDev u { s.dev u with
              openFlag := (oflag &&& 0xff) ||| stream }))) := by
  cases hunregistered : unregisteredFlag (s.dev u) oflag with
  | true => exact .inl ⟨rfl, if_pos hunregistered⟩
  | false =>
    refine .inr ⟨if hasFlag oflag rtDeviceFlagStream ||
      hasFlag (s.dev u).openFlag rtDeviceFlagStream then rtDeviceFlagStream else 0, ?_, rfl, ?_⟩
    · split <;> rfl
    · simp only [rtSerialOpen, hunregistered, Bool.false_eq_true, if_false]
      cases hrx : (s.dev u).serialRx with
      | none =>
        cases hasFlag oflag rtDeviceFlagIntRx with
        | true => exact .inl ⟨rfl, rfl, rfl⟩
        | false => exact .inr (.inr ⟨rfl, rfl⟩)
      | some b =>
        cases hasFlag oflag rtDeviceFlagIntRx with
        | true => exact .inr (.inl ⟨rfl, rfl, rfl⟩)
        | false => exact .inr (.inr ⟨rfl, rfl⟩)

/-- What an open may do to a UART: its flags change and the FIFO stays, or a FIFO is created
and its interrupts are enabled. -/
inductive OpenEffect (uartObj : UartObj ι) (u : ι) (oflag : UInt16) (s s' : UartState ι) : Prop
  | kept (dev' : RtSerialDevice) (dev : s'.dev = Function.update s.dev u dev')
      (flag : dev'.flag = 0x113) (serialTx : dev'.serialTx = none)
      (serialRx : dev'.serialRx = (s.dev u).serialRx) (rbne : s'.rbne = s.rbne)
      (eclic : s'.eclic = s.eclic)
      (intRx : dev'.serialRx.isSome = true →
        hasFlag dev'.openFlag rtDeviceFlagIntRx = !dropsFifo (s.dev u) oflag)
      (isOpen : dropsFifo (s.dev u) oflag = true →
        hasFlag dev'.openFlag rtDeviceOflagOpen = true)
  | created (dev' : RtSerialDevice) (dev : s'.dev = Function.update s.dev u dev')
      (flag : dev'.flag = 0x113) (serialTx : dev'.serialTx = none)
      (serialRx : dev'.serialRx.isSome = true) (old : (s.dev u).serialRx = none)
      (intRx : hasFlag dev'.openFlag rtDeviceFlagIntRx = true)
      (rbne : s'.rbne = Function.update s.rbne u true)
      (eclic : s'.eclic = Function.update s.eclic (uartObj.irqn u) true)

theorem dropsFifo_eq {dev : RtSerialDevice} (h : DevInv dev) (oflag : UInt16) :
    dropsFifo { dev with flag := 0x113 } oflag = dropsFifo dev oflag := by
  cases hrx : dev.serialRx with
  | none => simp only [dropsFifo, hrx, Option.isSome_none, Bool.and_false]
  | some b =>
    have hflag : dev.flag = 0x113 := h.activated (by rw [hrx]; rfl)
    obtain ⟨flag, openFlag, refCount, rx, tx⟩ := dev
    dsimp only at hflag hrx
    rw [hflag, hrx]

theorem rtDeviceOpen_effect (h : UartInv uartObj s) (u : ι) (oflag : UInt16) :
    OpenEffect uartObj u oflag s (rtDeviceOpen uartObj u oflag s).2 := by
  have hdev := h.dev u
  have htx := hdev.serialTx
  let s1 : UartState ι := s.setDev u { s.dev u with flag := 0x113 }
  have hs1 : s.setDev u (activate (s.dev u)) = s1 := by rw [activate_eq hdev]
  have hdev1 : s1.dev u = { s.dev u with flag := 0x113 } := Function.update_self _ _ _
  have hstandalone : hasFlag 0x113 rtDeviceFlagStandalone = false := rfl
  have hidem : ∀ dev', (s1.setDev u dev').dev = Function.update s.dev u dev' :=
    fun dev' => Function.update_idem _ _ _
  have hdrops := dropsFifo_eq hdev oflag
  simp only [rtDeviceOpen, hs1, hdev1, hstandalone, Bool.false_and, Bool.false_eq_true, if_false]
  cases hopens : opensSerial { s.dev u with flag := 0x113 } oflag with
  | false =>
    have hkeeps : dropsFifo (s.dev u) oflag = false := by
      rw [← hdrops, dropsFifo, hopens, Bool.false_and, Bool.false_and, Bool.false_and]
    simp only [Bool.false_eq_true, if_false, if_true, hdev1]
    refine .kept _ (hidem _) rfl htx rfl rfl rfl (fun hrx => ?_) (fun hfalse => ?_)
    · rw [hasFlag_or_open, hdev.intRx hrx, hkeeps]
      rfl
    · rw [hkeeps] at hfalse
      exact absurd hfalse Bool.false_ne_true
  | true =>
    simp only [if_true]
    rcases rtSerialOpen_cases uartObj s1 u oflag with ⟨hunreg, hopen⟩ |
      ⟨stream, hstream, hreg, ⟨hint, hnone, hopen⟩ | ⟨hint, hsome, hopen⟩ | ⟨hint, hopen⟩⟩
    · have hkeeps : dropsFifo (s.dev u) oflag = false := by
        rw [hdev1] at hunreg
        rw [← hdrops, dropsFifo, hunreg, Bool.not_true, Bool.and_false, Bool.false_and,
          Bool.false_and]
      rw [hopen, if_neg (show ¬ (-rtEIo = 0) by decide)]
      refine .kept _ rfl rfl htx rfl rfl rfl (fun hrx => ?_) (fun hfalse => ?_)
      · rw [hkeeps]
        exact hdev.intRx hrx
      · rw [hkeeps] at hfalse
        exact absurd hfalse Bool.false_ne_true
    · have hold : (s.dev u).serialRx = none := by rwa [hdev1] at hnone
      rw [hopen, if_pos rfl]
      simp only [gd32UartControl, UartState.setDev, Function.update_self, hdev1]
      refine .created _ ((Function.update_idem _ _ _).trans (hidem _)) (by rfl) (by exact htx)
        (by rfl) hold ?_ rfl rfl
      rw [hasFlag_or_open, openFlag_intRx]
    · have hkeeps : dropsFifo (s.dev u) oflag = false := by
        rw [dropsFifo, hint, Bool.not_true, Bool.and_false, Bool.false_and]
      rw [hopen, if_pos rfl]
      simp only [UartState.setDev, Function.update_self, hdev1]
      refine .kept _ ((Function.update_idem _ _ _).trans (hidem _)) (by rfl) (by exact htx)
        (by rfl) rfl rfl (fun _ => ?_) (fun hfalse => ?_)
      · rw [hkeeps, hasFlag_or_open, openFlag_intRx]
        rfl
      · rw [hkeeps] at hfalse
        exact absurd hfalse Bool.false_ne_true
    · rw [hopen, if_pos rfl]
      simp only [UartState.setDev, Function.update_self, hdev1]
      refine .kept _ ((Function.update_idem _ _ _).trans (hidem _)) (by rfl) (by exact htx)
        (by rfl) rfl rfl (fun hrx => ?_) (fun _ => openFlag_open _)
      · have hsome : (s.dev u).serialRx.isSome = true := hrx
        have hdropped : dropsFifo (s.dev u) oflag = true := by
          rw [hdev1] at hreg
          rw [← hdrops, dropsFifo, hopens, hreg, hint, hsome]
          rfl
        rw [hdropped, hasFlag_or_open, openFlag_not_intRx oflag hstream]
        rfl

/-- What a close may do to a UART: nothing but count, or, with the last reference, take the
FIFO and `USART_INT_RBNE` away.  The interrupt lines stay as they are. -/
inductive CloseEffect (uartObj : UartObj ι) (u : ι) (s s' : UartState ι) : Prop
  | kept (dev' : RtSerialDevice) (dev : s'.dev = Function.update s.dev u dev')
      (shared : (s.dev u).refCount ≠ 1) (flag : dev'.flag = (s.dev u).flag)
      (openFlag : dev'.openFlag = (s.dev u).openFlag) (serialTx : dev'.serialTx = none)
      (serialRx : dev'.serialRx = (s.dev u).serialRx) (rbne : s'.rbne = s.rbne)
      (eclic : s'.eclic = s.eclic)
  | last (dev' : RtSerialDevice) (dev : s'.dev = Function.update s.dev u dev')
      (count : (s.dev u).refCount = 1) (flag : dev'.flag = 0x103)
      (serialTx : dev'.serialTx = none) (serialRx : dev'.serialRx = none)
      (rbne : s'.rbne u = false) (others : ∀ v, v ≠ u → s'.rbne v = s.rbne v)
      (eclic : ∀ v, s'.eclic (uartObj.irqn v) = s.eclic (uartObj.irqn v))

theorem refCount_sub_one {n : UInt8} : n - 1 = 0 ↔ n = 1 := by
  constructor
  · intro h
    have hsum := congrArg (fun m => m + 1) h
    simpa using hsum
  · rintro rfl
    rfl

theorem rtDeviceClose_effect (h : UartInv uartObj s) (u : ι) :
    CloseEffect uartObj u s (rtDeviceClose uartObj u s).2 := by
  have hdev := h.dev u
  have htx := hdev.serialTx
  have hflag : (s.dev u).flag &&& ~~~rtDeviceFlagActivated = 0x103 := by
    rcases hdev.flag with hflag | hflag <;> rw [hflag] <;> decide
  simp only [rtDeviceClose]
  by_cases hzero : (s.dev u).refCount = 0
  · rw [if_pos hzero]
    refine .kept (s.dev u) (Function.update_eq_self u s.dev).symm ?_ rfl rfl htx rfl rfl rfl
    rw [hzero]
    decide
  · rw [if_neg hzero]
    simp only [UartState.setDev, Function.update_self, ne_eq, refCount_sub_one]
    by_cases hlast : (s.dev u).refCount = 1
    · have hcount : ¬ ((s.dev u).refCount - 1 > 1) := by
        rw [hlast]
        decide
      rw [if_neg (not_not_intro hlast)]
      simp only [rtSerialClose, Function.update_self, hcount, if_false, if_true, UartState.setDev]
      cases hint : hasFlag (s.dev u).openFlag rtDeviceFlagIntRx with
      | true =>
        simp only [if_true, gd32UartControl, Function.update_self, Function.update_idem]
        refine .last _ rfl hlast (by exact hflag) (by exact htx) (by rfl) (Function.update_self _ _ _)
          (fun v hv => Function.update_of_ne hv _ _)
          (fun v => eclicIrqDisable_uartPeriph uartObj s.eclic u v)
      | false =>
        have hrx : (s.dev u).serialRx = none := by
          rw [← Option.not_isSome_iff_eq_none]
          intro hsome
          rw [hdev.intRx hsome] at hint
          exact absurd hint (by decide)
        simp only [Bool.false_eq_true, if_false, Function.update_self, Function.update_idem]
        refine .last _ rfl hlast (by exact hflag) (by exact htx) (by exact hrx) ?_ (fun _ _ => rfl)
          fun _ => rfl
        exact (h.rbne u).trans (by rw [hrx]; rfl)
    · rw [if_pos hlast]
      exact .kept _ rfl hlast (by rfl) (by rfl) (by exact htx) (by rfl) rfl rfl

theorem DevInv.update {u : ι} {dev' : RtSerialDevice} (hall : ∀ v, DevInv (s.dev v))
    (hnew : DevInv dev') (v : ι) : DevInv (Function.update s.dev u dev' v) := by
  by_cases hv : v = u
  · rw [hv, Function.update_self]
    exact hnew
  · rw [Function.update_of_ne hv]
    exact hall v

/-- Changing flags and counts of a device that keeps its FIFO. -/
theorem uartInv_kept (h : UartInv uartObj s) {u : ι} {dev' : RtSerialDevice} {s' : UartState ι}
    (hdev : s'.dev = Function.update s.dev u dev') (hnew : DevInv dev')
    (hrx : dev'.serialRx = (s.dev u).serialRx) (hrbne : s'.rbne = s.rbne)
    (heclic : s'.eclic = s.eclic) : UartInv uartObj s' := by
  have hsame : ∀ v, (s'.dev v).serialRx = (s.dev v).serialRx := by
    intro v
    rw [hdev]
    by_cases hv : v = u
    · rw [hv, Function.update_self, hrx]
    · rw [Function.update_of_ne hv]
  refine ⟨fun v => ?_, fun v => ?_, fun v => ?_⟩
  · rw [hdev]
    exact DevInv.update h.dev hnew v
  · rw [hrbne, hsame, h.rbne v]
  · rw [heclic, hsame, h.eclic v]

theorem uartInv_open (h : UartInv uartObj s) {u : ι} {oflag : UInt16} {s' : UartState ι}
    (heffect : OpenEffect uartObj u oflag s s') (hfits : dropsFifo (s.dev u) oflag = false) :
    UartInv uartObj s' := by
  cases heffect with
  | kept dev' hdev hflag htx hrx hrbne heclic hintRx _ =>
    have hnew : DevInv dev' :=
      ⟨.inr hflag, htx, fun _ => hflag, fun hsome => by rw [hintRx hsome, hfits]; rfl⟩
    exact uartInv_kept h hdev hnew hrx hrbne heclic
  | created dev' hdev hflag htx hrx _ hintRx hrbne heclic =>
    have hnew : DevInv dev' := ⟨.inr hflag, htx, fun _ => hflag, fun _ => hintRx⟩
    refine ⟨fun v => ?_, fun v => ?_, fun v => ?_⟩
    · rw [hdev]
      exact DevInv.update h.dev hnew v
    · rw [hrbne, hdev]
      by_cases hv : v = u
      · rw [hv, Function.update_self, Function.update_self, hrx]
      · rw [Function.update_of_ne hv, Function.update_of_ne hv, h.rbne v]
    · rw [heclic, hdev]
      by_cases hv : v = u
      · rw [hv, Function.update_self, Function.update_self, hrx]
      · have hirqn : uartObj.irqn v ≠ uartObj.irqn u := fun heq => hv (uartObj.irqn_injective heq)
        rw [Function.update_of_ne hirqn, Function.update_of_ne hv, h.eclic v]

theorem uartInv_close (h : UartInv uartObj s) {u : ι} {s' : UartState ι}
    (heffect : CloseEffect uartObj u s s')
    (hfits : ¬ ((s.dev u).refCount = 1 ∧ (s.dev u).serialRx.isSome = true)) :
    UartInv uartObj s' := by
  cases heffect with
  | kept dev' hdev _ hflag hopenFlag htx hrx hrbne heclic =>
    have hold := h.dev u
    have hnew : DevInv dev' := by
      refine ⟨?_, htx, ?_, ?_⟩
      · rw [hflag]
        exact hold.flag
      · rw [hrx, hflag]
        exact hold.activated
      · rw [hrx, hopenFlag]
        exact hold.intRx
    exact uartInv_kept h hdev hnew hrx hrbne heclic
  | last dev' hdev hcount hflag htx hrx hrbne hothers heclic =>
    have hnone : (s.dev u).serialRx.isSome = false :=
      Bool.eq_false_iff.mpr fun hsome => hfits ⟨hcount, hsome⟩
    have hnew : DevInv dev' :=
      ⟨.inl hflag, htx, fun hsome => by rw [hrx] at hsome; exact absurd hsome (by decide),
        fun hsome => by rw [hrx] at hsome; exact absurd hsome (by decide)⟩
    refine ⟨fun v => ?_, fun v => ?_, fun v => ?_⟩
    · rw [hdev]
      exact DevInv.update h.dev hnew v
    · rw [hdev]
      by_cases hv : v = u
      · rw [hv, Function.update_self, hrx, hrbne]
        rfl
      · rw [Function.update_of_ne hv, hothers v hv, h.rbne v]
    · rw [hdev, heclic, h.eclic v]
      by_cases hv : v = u
      · rw [hv, Function.update_self, hrx, hnone]
        rfl
      · rw [Function.update_of_ne hv]

end Effects

/-! ## Over all sequences of calls -/

section Runs

variable {ι : Type*} [DecidableEq ι] {uartObj : UartObj ι} {s : UartState ι}

omit [DecidableEq ι] in
theorem uartInv_registered : UartInv uartObj .registered where
  dev _ := ⟨.inl rfl, rfl, fun h => absurd h Bool.false_ne_true,
    fun h => absurd h Bool.false_ne_true⟩
  rbne _ := rfl
  eclic _ := rfl

theorem uartInv_step {call : UartCall ι} {s' : UartState ι} (hfits : CallFits s call)
    (hstep : (uarts uartObj).step s call = some s') (h : UartInv uartObj s) :
    UartInv uartObj s' := by
  cases call with
  | deviceOpen u oflag =>
    obtain rfl := Option.some.inj hstep
    exact uartInv_open h (rtDeviceOpen_effect h u oflag) hfits
  | deviceClose u =>
    obtain rfl := Option.some.inj hstep
    exact uartInv_close h (rtDeviceClose_effect h u) hfits

/-- An open is right exactly when it fits. -/
theorem callRight_open_iff (h : UartInv uartObj s) {u : ι} {oflag : UInt16} {s' : UartState ι}
    (heffect : OpenEffect uartObj u oflag s s') :
    CallRight uartObj s (.deviceOpen u oflag) s' ↔ dropsFifo (s.dev u) oflag = false := by
  constructor
  · intro hright
    rw [Bool.eq_false_iff]
    intro hdrops
    have hsome : (s.dev u).serialRx.isSome = true := by
      rw [dropsFifo, Bool.and_eq_true] at hdrops
      exact hdrops.2
    cases heffect with
    | kept dev' hdev _ _ hrx _ _ hintRx hopen =>
      have hdev' : s'.dev u = dev' := by rw [hdev, Function.update_self]
      have hrx' : dev'.serialRx.isSome = true := by rw [hrx, hsome]
      have hreads := hright.state.reads u (by rw [hdev']; exact hopen hdrops)
        (by rw [hdev']; exact hrx')
      rw [rtSerialReadPath_eq_fifo, hdev', hintRx hrx', hdrops] at hreads
      exact absurd hreads (by decide)
    | created _ _ _ _ _ hold _ _ _ =>
      rw [hold] at hsome
      exact absurd hsome (by decide)
  · intro hfits
    refine ⟨(uartInv_open h heffect hfits).uartsOk, fun v hv => ?_,
      fun _ hcall => nomatch hcall⟩
    have hirqn : uartObj.irqn v ≠ uartObj.irqn u := fun heq => hv (uartObj.irqn_injective heq)
    cases heffect with
    | kept _ _ _ _ _ _ heclic _ _ => rw [heclic]
    | created _ _ _ _ _ _ _ _ heclic => rw [heclic, Function.update_of_ne hirqn]

/-- A close is right exactly when it fits: the last one leaves the line as it was. -/
theorem callRight_close_iff (h : UartInv uartObj s) {u : ι} {s' : UartState ι}
    (heffect : CloseEffect uartObj u s s') :
    CallRight uartObj s (.deviceClose u) s' ↔
      ¬ ((s.dev u).refCount = 1 ∧ (s.dev u).serialRx.isSome = true) := by
  constructor
  · rintro hright ⟨hcount, hsome⟩
    have hclosed := hright.closed u rfl hcount
    cases heffect with
    | kept _ _ hshared _ _ _ _ _ _ => exact hshared hcount
    | last _ _ _ _ _ _ _ _ heclic =>
      have hline := hclosed.eclic
      rw [heclic, h.eclic u, hsome] at hline
      exact absurd hline (by decide)
  · intro hfits
    have hinv := uartInv_close h heffect hfits
    refine ⟨hinv.uartsOk, fun v _ => ?_, fun w hcall hcount => ?_⟩
    · cases heffect with
      | kept _ _ _ _ _ _ _ _ heclic => rw [heclic]
      | last _ _ _ _ _ _ _ _ heclic => exact heclic v
    · obtain rfl : u = w := UartCall.deviceClose.inj hcall
      have hnone : (s.dev u).serialRx = none := by
        rw [← Option.not_isSome_iff_eq_none]
        exact fun hsome => hfits ⟨hcount, hsome⟩
      cases heffect with
      | kept _ _ hshared _ _ _ _ _ _ => exact absurd hcount hshared
      | last dev' hdev _ _ htx hrx hrbne _ heclic =>
        have hdev' : s'.dev u = dev' := by rw [hdev, Function.update_self]
        refine ⟨by rw [hdev', hrx], by rw [hdev', htx], ?_, hrbne, ?_⟩
        · rintro b (hb | hb)
          · rw [hnone] at hb
            exact nomatch hb
          · rw [(h.dev u).serialTx] at hb
            exact nomatch hb
        · rw [heclic, h.eclic u, hnone]
          rfl

/-- Every call of a history is right exactly when every call of it fits: the receive flag is
never dropped from a device with a FIFO, and no such device is closed for good. -/
theorem allCallsRight_iff (calls : List (UartCall ι)) :
    (uarts uartObj).AllSteps (CallRight uartObj) .registered calls ↔
      (uarts uartObj).Admitted CallFits .registered calls := by
  refine Machine.allSteps_iff_admitted (I := UartInv uartObj) (fun s call h => ?_)
    (fun s call mid hfits hstep h => uartInv_step hfits hstep h) calls uartInv_registered
  cases call with
  | deviceOpen u oflag =>
    have hiff := callRight_open_iff h (rtDeviceOpen_effect h u oflag)
    exact ⟨fun hall => hiff.mp (hall _ rfl), fun hfits mid hstep => by
      obtain rfl := Option.some.inj hstep
      exact hiff.mpr hfits⟩
  | deviceClose u =>
    have hiff := callRight_close_iff h (rtDeviceClose_effect h u)
    exact ⟨fun hall => hiff.mp (hall _ rfl), fun hfits mid hstep => by
      obtain rfl := Option.some.inj hstep
      exact hiff.mpr hfits⟩

/-- Two UARTs with sample numbers. -/
def twoUarts : UartObj Bool where
  uartPeriph u := if u then 0x40013800 else 0x40004400
  irqn u := if u then 54 else 56
  irqn_injective u v := by revert u v; decide
  uartPeriph_ne_irqn := by decide

/-- Opening and closing one UART with a FIFO leaves its interrupt line enabled. -/
theorem not_allCallsRight_close :
    ¬ (uarts twoUarts).AllSteps (CallRight twoUarts) .registered
      [.deviceOpen true (rtDeviceFlagRdwr ||| rtDeviceFlagIntRx), .deviceClose true] := by
  intro h
  have hclose := ((h _ rfl).2 _ rfl).1.closed true rfl (by decide +kernel)
  have hline := hclose.eclic
  revert hline
  decide +kernel

end Runs

end Gd32Vw553h.Serial
