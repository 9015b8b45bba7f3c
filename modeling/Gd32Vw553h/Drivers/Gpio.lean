/-
  Drivers/Gpio.lean --- pin interrupts of `libraries/gd32_drivers/drv_gpio.c`.

  Pins with the same number on different ports share one EXTI line and one slot of
  `pin_irq_hdr_tab`.  Attaching respects an occupied slot; detaching and enabling
  look at the slot but not at the pin stored in it, and `get_pin` sees the low byte
  of a pin number only.  `pinOwnership_iff` says which histories of calls keep every
  attachment with its owner nevertheless.

  Which of the ports A to E exist is decided by the vendor's header and is the
  parameter `defined`.
-/
import Mathlib.Data.List.Induction
import Gd32Vw553h.Klibc.KErrno

set_option autoImplicit false

namespace Gd32Vw553h.Drivers

open Gd32Vw553h.Klibc

/-! ## The pin table -/

inductive GpioPort where
  | a | b | c | d | e
  deriving DecidableEq

/-- `GPIO_PIN_n` -/
def gpioPin (n : Nat) : UInt32 := 1 <<< UInt32.ofNat n

/-- The fields of `struct pin_index` that the interrupt functions read. -/
structure PinIndex where
  index : Int16
  pin : UInt32
  /-- `EXTI_SOURCE_GPIOx` -/
  portSrc : GpioPort
  /-- `EXTI_SOURCE_PINn` -/
  pinSrc : Nat
  deriving DecidableEq

/-- `GD32_PIN(index, port, pin)` -/
def gd32Pin (index : Int16) (port : GpioPort) (pin : Nat) : PinIndex where
  index := index
  pin := gpioPin pin
  portSrc := port
  pinSrc := pin

/-- The entries of one port, from index `base` on. -/
def portPins (base : Nat) (port : GpioPort) : List PinIndex :=
  (List.range 16).map fun n => gd32Pin (Int16.ofNat (base + n)) port n

/-- The entries of port B; pin 13 carries the index 39. -/
def portBPins : List PinIndex :=
  (List.range 16).map fun n => gd32Pin (if n = 13 then 39 else Int16.ofNat (16 + n)) .b n

section Table

variable (defined : GpioPort → Bool)

/-- `pins` -/
def pins : List PinIndex :=
  (if defined .a then portPins 0 .a else []) ++
    (if defined .b then portBPins else []) ++
    (if defined .c then portPins 32 .c else []) ++
    (if defined .d then portPins 48 .d else []) ++
    (if defined .e then portPins 64 .e else [])

/-- `get_pin` -/
def getPin (pin : UInt8) : Option PinIndex :=
  match (pins defined)[pin.toNat]? with
  | some index => if index.index = -1 then none else some index
  | none => none

/-- The pin number is one of the table. -/
def InTable (pin : Int32) : Prop :=
  0 ≤ pin.toInt ∧ pin.toInt < (pins defined).length

instance (pin : Int32) : Decidable (InTable defined pin) := inferInstanceAs (Decidable (_ ∧ _))

end Table

/-- The conversion of an `rt_base_t` to the `rt_uint8_t` parameter of `get_pin`. -/
def lowByte (pin : Int32) : UInt8 := pin.toUInt32.toUInt8

/-- `bit2bitno` -/
def bit2bitno (bit : UInt32) : Int :=
  match (List.range 32).find? fun i => 0x01 <<< UInt32.ofNat i = bit with
  | some i => i
  | none => -1

/-! ## Slots and registers -/

/-- `IRQn_Type`, as far as it is used. -/
inductive IrqnType where
  | exti0 | exti1 | exti2 | exti3 | exti4 | exti5To9 | exti10To15
  deriving DecidableEq

/-- The `irqno` of the entries of `pin_irq_map`. -/
def pinIrqMap : Vector IrqnType 16 :=
  #v[.exti0, .exti1, .exti2, .exti3, .exti4, .exti5To9, .exti5To9, .exti5To9, .exti5To9,
    .exti5To9, .exti10To15, .exti10To15, .exti10To15, .exti10To15, .exti10To15, .exti10To15]

/-- `struct rt_pin_irq_hdr`; `hdr` and `args` are addresses. -/
structure PinIrqHdr where
  pin : Int32
  mode : UInt8
  hdr : UInt32
  args : UInt32
  deriving DecidableEq

/-- `{-1, 0, RT_NULL, RT_NULL}` -/
def PinIrqHdr.empty : PinIrqHdr := ⟨-1, 0, 0, 0⟩

/-- `exti_trig_type_enum` -/
inductive ExtiTrigType where
  | rising | falling | both
  deriving DecidableEq

/-- The calls that write registers. -/
inductive RegisterCall where
  /-- `rcu_periph_clock_enable(RCU_SYSCFG)` -/
  | rcuPeriphClockEnable
  | eclicIrqEnable (irqno : IrqnType) (level priority : UInt8)
  | syscfgExtiLineConfig (portSrc : GpioPort) (pinSrc : Nat)
  /-- `exti_init(line, EXTI_INTERRUPT, triggerMode)` -/
  | extiInit (line : UInt32) (triggerMode : ExtiTrigType)
  | extiInterruptFlagClear (line : UInt32)
  | eclicIrqDisable (irqno : IrqnType)
  deriving DecidableEq

/-- `pin_irq_hdr_tab` and the register calls made. -/
structure PinState where
  pinIrqHdrTab : Vector PinIrqHdr 16
  registers : List RegisterCall
  deriving DecidableEq

namespace PinState

def initial : PinState := ⟨Vector.replicate 16 .empty, []⟩

variable (s : PinState)

def slot (i : Fin 16) : PinIrqHdr := s.pinIrqHdrTab[i]

def setSlot (i : Fin 16) (hdr : PinIrqHdr) : PinState :=
  { s with pinIrqHdrTab := s.pinIrqHdrTab.set i hdr }

def write (calls : List RegisterCall) : PinState :=
  { s with registers := s.registers ++ calls }

@[simp] theorem slot_setSlot_self (i : Fin 16) (hdr : PinIrqHdr) :
    (s.setSlot i hdr).slot i = hdr := by
  simp [slot, setSlot]

theorem slot_setSlot_of_ne {i j : Fin 16} (hdr : PinIrqHdr) (h : j ≠ i) :
    (s.setSlot i hdr).slot j = s.slot j := by
  have hne : i.val ≠ j.val := fun heq => h (Fin.ext heq.symm)
  simp [slot, setSlot, hne]

end PinState

/-! ## The operations -/

/-- `PIN_IRQ_DISABLE` -/
abbrev pinIrqDisable : UInt8 := 0
/-- `PIN_IRQ_ENABLE` -/
abbrev pinIrqEnable : UInt8 := 1

/-- The switch over the slot's mode: `PIN_IRQ_MODE_RISING`, `_FALLING` and
`_RISING_FALLING`. -/
def triggerMode (mode : UInt8) : Option ExtiTrigType :=
  if mode = 0 then some .rising
  else if mode = 1 then some .falling
  else if mode = 2 then some .both
  else none

/-- `bit2bitno(index->pin)`, when it is a slot number. -/
def hdrIndex (index : PinIndex) : Option (Fin 16) :=
  let hdrIndex := bit2bitno index.pin
  if h : ¬ (hdrIndex < 0 ∨ hdrIndex ≥ 16) then some ⟨hdrIndex.toNat, by omega⟩ else none

section Operations

variable (defined : GpioPort → Bool) (pin : Int32) (s : PinState)

/-- `gd32_pin_attach_irq` -/
def gd32PinAttachIrq (mode : UInt8) (hdr args : UInt32) : Int × PinState :=
  match getPin defined (lowByte pin) with
  | none => (-rtEInval, s)
  | some index =>
    match hdrIndex index with
    | none => (-rtEInval, s)
    | some i =>
      if (s.slot i).pin = pin ∧ (s.slot i).hdr = hdr ∧ (s.slot i).mode = mode ∧
          (s.slot i).args = args then (0, s)
      else if (s.slot i).pin ≠ -1 then (-rtEFull, s)
      else (0, s.setSlot i ⟨pin, mode, hdr, args⟩)

/-- `gd32_pin_detach_irq` -/
def gd32PinDetachIrq : Int × PinState :=
  match getPin defined (lowByte pin) with
  | none => (-rtEInval, s)
  | some index =>
    match hdrIndex index with
    | none => (-rtEInval, s)
    | some i =>
      if (s.slot i).pin = -1 then (0, s)
      else (0, s.setSlot i .empty)

/-- The register calls that enable the line of `index`. -/
def enableCalls (index : PinIndex) (i : Fin 16) (trigger : ExtiTrigType) : List RegisterCall :=
  [.rcuPeriphClockEnable, .eclicIrqEnable pinIrqMap[i] 5 0,
    .syscfgExtiLineConfig index.portSrc index.pinSrc, .extiInit index.pin trigger,
    .extiInterruptFlagClear index.pin]

/-- `gd32_pin_irq_enable` -/
def gd32PinIrqEnable (enabled : UInt8) : Int × PinState :=
  match getPin defined (lowByte pin) with
  | none => (-rtEInval, s)
  | some index =>
    if enabled = pinIrqEnable then
      match hdrIndex index with
      | none => (-rtEInval, s)
      | some i =>
        if (s.slot i).pin = -1 then (-rtEInval, s)
        else
          match triggerMode (s.slot i).mode with
          | none => (-rtEInval, s)
          | some trigger => (0, s.write (enableCalls index i trigger))
    else if enabled = pinIrqDisable then
      -- `get_pin_irq_map`
      match hdrIndex index with
      | none => (-rtEInval, s)
      | some i => (0, s.write [.eclicIrqDisable pinIrqMap[i]])
    else (-rtEInval, s)

end Operations

/-- A call of one of the three operations. -/
inductive PinCall where
  | attachIrq (pin : Int32) (mode : UInt8) (hdr args : UInt32)
  | detachIrq (pin : Int32)
  | irqEnable (pin : Int32) (enabled : UInt8)
  deriving DecidableEq

/-- The pin a call names. -/
def PinCall.pin : PinCall → Int32
  | attachIrq pin _ _ _ => pin
  | detachIrq pin => pin
  | irqEnable pin _ => pin

section Histories

variable (defined : GpioPort → Bool)

/-- One call: its return value and the state it leaves. -/
def runCall (s : PinState) : PinCall → Int × PinState
  | .attachIrq pin mode hdr args => gd32PinAttachIrq defined pin s mode hdr args
  | .detachIrq pin => gd32PinDetachIrq defined pin s
  | .irqEnable pin enabled => gd32PinIrqEnable defined pin s enabled

/-- One call after the other. -/
def runCalls (calls : List PinCall) : PinState :=
  calls.foldl (fun s call => (runCall defined s call).2) .initial

end Histories

/-! ## The table -/

section TableLemmas

variable (defined : GpioPort → Bool)

theorem bit2bitno_gpioPin : ∀ n < 16, bit2bitno (gpioPin n) = n := by decide

theorem hdrIndex_gd32Pin (index : Int16) (port : GpioPort) {n : Nat} (h : n < 16) :
    hdrIndex (gd32Pin index port n) = some ⟨n, h⟩ := by
  have hbit : bit2bitno (gd32Pin index port n).pin = n := bit2bitno_gpioPin n h
  have hbound : ¬ ((n : Int) < 0 ∨ (n : Int) ≥ 16) := by omega
  unfold hdrIndex
  simp only [hbit]
  rw [dif_pos hbound]
  rfl

/-- What `get_pin` and the interrupt functions check of an entry. -/
def PinIndex.Valid (index : PinIndex) : Prop :=
  index.index ≠ -1 ∧ ∃ i, hdrIndex index = some i

theorem portPins_valid {base : Nat} (hbase : ∀ n < 16, Int16.ofNat (base + n) ≠ -1)
    (port : GpioPort) : ∀ index ∈ portPins base port, index.Valid := by
  intro index hmem
  obtain ⟨n, hn, rfl⟩ := List.mem_map.mp hmem
  have hlt := List.mem_range.mp hn
  exact ⟨hbase n hlt, _, hdrIndex_gd32Pin _ port hlt⟩

theorem portBPins_valid : ∀ index ∈ portBPins, index.Valid := by
  intro index hmem
  obtain ⟨n, hn, rfl⟩ := List.mem_map.mp hmem
  have hlt := List.mem_range.mp hn
  have hindex : ∀ n < 16, (if n = 13 then 39 else Int16.ofNat (16 + n)) ≠ -1 := by decide
  exact ⟨hindex n hlt, _, hdrIndex_gd32Pin _ .b hlt⟩

/-- Whatever ports there are, every entry passes the checks. -/
theorem pins_valid : ∀ index ∈ pins defined, index.Valid := by
  intro index hmem
  simp only [pins, List.mem_append, List.mem_ite_nil_right] at hmem
  rcases hmem with (((⟨_, ha⟩ | ⟨_, hb⟩) | ⟨_, hc⟩) | ⟨_, hd⟩) | ⟨_, he⟩
  · exact portPins_valid (by decide) .a index ha
  · exact portBPins_valid index hb
  · exact portPins_valid (by decide) .c index hc
  · exact portPins_valid (by decide) .d index hd
  · exact portPins_valid (by decide) .e index he

theorem pins_length_le : (pins defined).length ≤ 80 := by
  have hport : ∀ (present : Bool) (entries : List PinIndex), entries.length = 16 →
      (if present then entries else []).length ≤ 16 := by
    intro present entries hlength
    cases present <;> simp [hlength]
  have ha := hport (defined .a) (portPins 0 .a) (by simp [portPins])
  have hb := hport (defined .b) portBPins (by simp [portBPins])
  have hc := hport (defined .c) (portPins 32 .c) (by simp [portPins])
  have hd := hport (defined .d) (portPins 48 .d) (by simp [portPins])
  have he := hport (defined .e) (portPins 64 .e) (by simp [portPins])
  simp only [pins, List.length_append]
  omega

/-- The check for `-1` never fires. -/
theorem getPin_eq (pin : UInt8) : getPin defined pin = (pins defined)[pin.toNat]? := by
  unfold getPin
  cases h : (pins defined)[pin.toNat]? with
  | none => rfl
  | some index =>
    have hvalid := pins_valid defined index (List.mem_of_getElem? h)
    simp [hvalid.1]

theorem hdrIndex_of_getPin {pin : UInt8} {index : PinIndex}
    (h : getPin defined pin = some index) : ∃ i, hdrIndex index = some i := by
  rw [getPin_eq] at h
  exact (pins_valid defined index (List.mem_of_getElem? h)).2

/-- No entry answers to `-1`, the mark of an empty slot. -/
theorem getPin_minusOne : getPin defined (lowByte (-1)) = none := by
  have hlow : (lowByte (-1)).toNat = 255 := by decide
  rw [getPin_eq, hlow]
  exact List.getElem?_eq_none (by have := pins_length_le defined; omega)

end TableLemmas

/-! ## What one call does -/

section Calls

variable (defined : GpioPort → Bool)

/-- The slot that a pin number leads to. -/
def line (pin : Int32) : Option (Fin 16) :=
  (getPin defined (lowByte pin)).bind hdrIndex

variable {defined} {pin : Int32} {s : PinState} {i : Fin 16}

theorem getPin_of_line_none (h : line defined pin = none) :
    getPin defined (lowByte pin) = none := by
  cases hpin : getPin defined (lowByte pin) with
  | none => rfl
  | some index =>
    obtain ⟨j, hj⟩ := hdrIndex_of_getPin defined hpin
    simp [line, hpin, hj] at h

theorem getPin_of_line (h : line defined pin = some i) :
    ∃ index, getPin defined (lowByte pin) = some index ∧ hdrIndex index = some i :=
  Option.bind_eq_some_iff.mp h

theorem line_minusOne : line defined (-1) = none := by
  rw [line, getPin_minusOne]
  rfl

/-- A number whose low byte lies outside the table is refused by every operation. -/
theorem runCall_of_line_none {call : PinCall} (h : line defined call.pin = none) :
    runCall defined s call = (-rtEInval, s) := by
  have hpin := getPin_of_line_none h
  cases call with
  | attachIrq pin mode hdr args =>
    have hpin' : getPin defined (lowByte pin) = none := hpin
    simp [runCall, gd32PinAttachIrq, hpin']
  | detachIrq pin =>
    have hpin' : getPin defined (lowByte pin) = none := hpin
    simp [runCall, gd32PinDetachIrq, hpin']
  | irqEnable pin enabled =>
    have hpin' : getPin defined (lowByte pin) = none := hpin
    simp [runCall, gd32PinIrqEnable, hpin']

theorem attachIrq_eq (h : line defined pin = some i) (mode : UInt8) (hdr args : UInt32) :
    gd32PinAttachIrq defined pin s mode hdr args =
      if (s.slot i).pin = pin ∧ (s.slot i).hdr = hdr ∧ (s.slot i).mode = mode ∧
          (s.slot i).args = args then (0, s)
      else if (s.slot i).pin ≠ -1 then (-rtEFull, s)
      else (0, s.setSlot i ⟨pin, mode, hdr, args⟩) := by
  obtain ⟨index, hpin, hindex⟩ := getPin_of_line h
  simp only [gd32PinAttachIrq, hpin, hindex]

theorem detachIrq_eq (h : line defined pin = some i) :
    gd32PinDetachIrq defined pin s =
      if (s.slot i).pin = -1 then (0, s) else (0, s.setSlot i .empty) := by
  obtain ⟨index, hpin, hindex⟩ := getPin_of_line h
  simp only [gd32PinDetachIrq, hpin, hindex]

/-- The slot holds an attachment that can be enabled. -/
def Enableable (hdr : PinIrqHdr) : Prop :=
  hdr.pin ≠ -1 ∧ triggerMode hdr.mode ≠ none

instance (hdr : PinIrqHdr) : Decidable (Enableable hdr) := inferInstanceAs (Decidable (_ ∧ _))

/-- Enabling looks at the slot, whoever is stored there. -/
theorem irqEnable_eq (h : line defined pin = some i) :
    ∃ calls, gd32PinIrqEnable defined pin s pinIrqEnable =
      if Enableable (s.slot i) then (0, s.write calls) else (-rtEInval, s) := by
  obtain ⟨index, hpin, hindex⟩ := getPin_of_line h
  unfold gd32PinIrqEnable Enableable
  simp only [hpin, hindex, if_true]
  by_cases hempty : (s.slot i).pin = -1
  · exact ⟨[], by simp [hempty]⟩
  · rcases Option.eq_none_or_eq_some (triggerMode (s.slot i).mode) with hmode | ⟨trigger, hmode⟩
    · exact ⟨[], by simp [hempty, hmode]⟩
    · exact ⟨enableCalls index i trigger, by simp [hempty, hmode]⟩

theorem irqDisable_eq (h : line defined pin = some i) :
    gd32PinIrqEnable defined pin s pinIrqDisable =
      (0, s.write [.eclicIrqDisable pinIrqMap[i]]) := by
  obtain ⟨index, hpin, hindex⟩ := getPin_of_line h
  have hne : ¬ (pinIrqDisable = pinIrqEnable) := by decide
  simp only [gd32PinIrqEnable, hpin, hindex, hne, if_false, if_true]

theorem irqEnable_other {enabled : UInt8} (h : line defined pin = some i)
    (henable : enabled ≠ pinIrqEnable) (hdisable : enabled ≠ pinIrqDisable) :
    gd32PinIrqEnable defined pin s enabled = (-rtEInval, s) := by
  obtain ⟨index, hpin, _⟩ := getPin_of_line h
  simp only [gd32PinIrqEnable, hpin, henable, hdisable, if_false]

/-- Attaching writes an empty slot only. -/
theorem attachIrq_slot (h : line defined pin = some i) (mode : UInt8) (hdr args : UInt32)
    (j : Fin 16) :
    (gd32PinAttachIrq defined pin s mode hdr args).2.slot j = s.slot j ∨
      j = i ∧ (s.slot j).pin = -1 ∧
        (gd32PinAttachIrq defined pin s mode hdr args).2.slot j = ⟨pin, mode, hdr, args⟩ := by
  rw [attachIrq_eq h]
  split
  · exact .inl rfl
  · split
    · exact .inl rfl
    · next hempty =>
      by_cases hj : j = i
      · subst hj
        exact .inr ⟨rfl, not_not.mp hempty, PinState.slot_setSlot_self s j _⟩
      · exact .inl (PinState.slot_setSlot_of_ne s _ hj)

theorem detachIrq_slot (h : line defined pin = some i) (j : Fin 16) :
    (gd32PinDetachIrq defined pin s).2.slot j = s.slot j ∨
      j = i ∧ (gd32PinDetachIrq defined pin s).2.slot j = .empty := by
  rw [detachIrq_eq h]
  split
  · exact .inl rfl
  · by_cases hj : j = i
    · subst hj
      exact .inr ⟨rfl, PinState.slot_setSlot_self s j _⟩
    · exact .inl (PinState.slot_setSlot_of_ne s _ hj)

/-- Enabling and disabling leave the slots alone. -/
theorem irqEnable_slot (h : line defined pin = some i) (enabled : UInt8) (j : Fin 16) :
    (gd32PinIrqEnable defined pin s enabled).2.slot j = s.slot j := by
  by_cases henable : enabled = pinIrqEnable
  · obtain ⟨calls, heq⟩ := irqEnable_eq (s := s) h
    rw [henable, heq]
    split <;> rfl
  · by_cases hdisable : enabled = pinIrqDisable
    · rw [hdisable, irqDisable_eq h]
      rfl
    · rw [irqEnable_other h henable hdisable]

/-- A call leaves a slot alone, empties it, or stores the pin it names in its slot. -/
theorem runCall_slot_cases (s : PinState) (call : PinCall) (j : Fin 16) :
    (runCall defined s call).2.slot j = s.slot j ∨
      ((runCall defined s call).2.slot j).pin = -1 ∨
      line defined call.pin = some j ∧ ((runCall defined s call).2.slot j).pin = call.pin := by
  cases hline : line defined call.pin with
  | none => exact .inl (by rw [runCall_of_line_none hline])
  | some i =>
    cases call with
    | attachIrq pin mode hdr args =>
      rcases attachIrq_slot (s := s) hline mode hdr args j with hsame | ⟨rfl, _, hset⟩
      · exact .inl hsame
      · exact .inr (.inr ⟨rfl, congrArg PinIrqHdr.pin hset⟩)
    | detachIrq pin =>
      rcases detachIrq_slot (s := s) hline j with hsame | ⟨rfl, hset⟩
      · exact .inl hsame
      · exact .inr (.inl (congrArg PinIrqHdr.pin hset))
    | irqEnable pin enabled => exact .inl (irqEnable_slot hline enabled j)

end Calls

/-! ## Reachable slots -/

section Reachable

variable (defined : GpioPort → Bool)

/-- Every stored pin is stored in the slot its number leads to. -/
def SlotsNamed (s : PinState) : Prop :=
  ∀ i, (s.slot i).pin ≠ -1 → line defined (s.slot i).pin = some i

theorem slotsNamed_initial : SlotsNamed defined .initial := by
  intro i hne
  exact absurd (by simp [PinState.initial, PinState.slot, PinIrqHdr.empty]) hne

theorem SlotsNamed.runCall {s : PinState} (h : SlotsNamed defined s) (call : PinCall) :
    SlotsNamed defined (runCall defined s call).2 := by
  intro i hne
  rcases runCall_slot_cases s call i with hsame | hempty | ⟨hline, hstored⟩
  · rw [hsame] at hne ⊢
    exact h i hne
  · exact absurd hempty hne
  · rw [hstored]
    exact hline

theorem runCalls_slotsNamed (calls : List PinCall) :
    SlotsNamed defined (runCalls defined calls) := by
  induction calls using List.reverseRecOn with
  | nil => exact slotsNamed_initial defined
  | append_singleton calls call ih =>
    rw [runCalls, List.foldl_append]
    exact SlotsNamed.runCall defined ih call

end Reachable

/-! ## Ownership -/

section Ownership

variable (defined : GpioPort → Bool)

/-- What a call is meant to respect: attachments of other pins stay as they are,
enabling takes an attachment of one's own, and a number outside the table is refused
with nothing touched. -/
structure CallOwned (s : PinState) (call : PinCall) : Prop where
  kept : ∀ i, (s.slot i).pin ≠ -1 → (s.slot i).pin ≠ call.pin →
    (runCall defined s call).2.slot i = s.slot i
  enables : ∀ pin, call = .irqEnable pin pinIrqEnable → (runCall defined s call).1 = 0 →
    ∃ i, (s.slot i).pin = pin
  refused : ¬ InTable defined call.pin → runCall defined s call = (-rtEInval, s)

/-- Every call of a history respects the attachments it meets. -/
def PinOwnership (calls : List PinCall) : Prop :=
  ∀ before call after, calls = before ++ call :: after →
    CallOwned defined (runCalls defined before) call

/-- What a call must look like for that, given the slot `hdr` that its number leads
to.  A number outside the table gets that far when its low byte lies inside. -/
def NamesOwnPin (hdr : PinIrqHdr) : PinCall → Prop
  | .attachIrq pin _ _ _ => InTable defined pin
  | .detachIrq pin => InTable defined pin ∧ (hdr.pin = pin ∨ hdr.pin = -1)
  | .irqEnable pin enabled =>
      if enabled = pinIrqEnable then
        ¬ Enableable hdr ∨ (InTable defined pin ∧ hdr.pin = pin)
      else if enabled = pinIrqDisable then InTable defined pin
      else True

variable {defined} {s : PinState} {pin : Int32} {i : Fin 16}

theorem ok_ne_rtEInval : (0 : Int) ≠ -rtEInval := by decide

theorem rtEFull_ne_rtEInval : -rtEFull ≠ -rtEInval := by decide

/-- A refused call respects everything. -/
theorem callOwned_of_refused {call : PinCall}
    (h : runCall defined s call = (-rtEInval, s)) : CallOwned defined s call where
  kept := fun _ _ _ => by rw [h]
  enables := by
    intro _ _ hret
    rw [h] at hret
    exact absurd hret.symm ok_ne_rtEInval
  refused := fun _ => h

/-- A call whose return value is not `-RT_EINVAL` must name a pin of the table. -/
theorem CallOwned.inTable {call : PinCall} (h : CallOwned defined s call)
    (hret : (runCall defined s call).1 ≠ -rtEInval) : InTable defined call.pin := by
  by_contra hout
  exact hret (congrArg Prod.fst (h.refused hout))

theorem attachOwned_iff (h : line defined pin = some i) (mode : UInt8) (hdr args : UInt32) :
    CallOwned defined s (.attachIrq pin mode hdr args) ↔ InTable defined pin := by
  constructor
  · intro howned
    refine howned.inTable ?_
    simp only [runCall, attachIrq_eq h]
    split
    · exact ok_ne_rtEInval
    · split
      · exact rtEFull_ne_rtEInval
      · exact ok_ne_rtEInval
  · intro hin
    refine ⟨?_, fun _ hcall => by simp at hcall, fun hout => absurd hin hout⟩
    intro j hne _
    rcases attachIrq_slot (s := s) h mode hdr args j with hsame | ⟨_, hempty, _⟩
    · exact hsame
    · exact absurd hempty hne

theorem detachOwned_iff (h : line defined pin = some i) :
    CallOwned defined s (.detachIrq pin) ↔
      InTable defined pin ∧ ((s.slot i).pin = pin ∨ (s.slot i).pin = -1) := by
  constructor
  · intro howned
    constructor
    · refine howned.inTable ?_
      simp only [runCall, detachIrq_eq h]
      split <;> exact ok_ne_rtEInval
    · by_contra hother
      obtain ⟨hpin, hempty⟩ := not_or.mp hother
      -- the slot of another pin is emptied
      have hkept := howned.kept i hempty hpin
      simp only [runCall, detachIrq_eq h, hempty, if_false, PinState.slot_setSlot_self] at hkept
      exact hempty (congrArg PinIrqHdr.pin hkept.symm)
  · rintro ⟨hin, hslot⟩
    refine ⟨?_, fun _ hcall => by simp at hcall, fun hout => absurd hin hout⟩
    intro j hne hother
    rcases detachIrq_slot (s := s) h j with hsame | ⟨rfl, _⟩
    · exact hsame
    · rcases hslot with hpin | hempty
      · exact absurd hpin hother
      · exact absurd hempty hne

theorem enableOwned_iff (hs : SlotsNamed defined s) (h : line defined pin = some i) :
    CallOwned defined s (.irqEnable pin pinIrqEnable) ↔
      ¬ Enableable (s.slot i) ∨ (InTable defined pin ∧ (s.slot i).pin = pin) := by
  obtain ⟨calls, heq⟩ := irqEnable_eq (s := s) h
  by_cases henableable : Enableable (s.slot i)
  · rw [if_pos henableable] at heq
    have hrun : runCall defined s (.irqEnable pin pinIrqEnable) = (0, s.write calls) := heq
    constructor
    · intro howned
      refine .inr ⟨howned.inTable (by rw [hrun]; exact ok_ne_rtEInval), ?_⟩
      obtain ⟨j, hj⟩ := howned.enables pin rfl (by rw [hrun])
      have hne : (s.slot j).pin ≠ -1 := by
        rw [hj]
        rintro rfl
        rw [line_minusOne] at h
        exact absurd h (by simp)
      -- the pin is stored in the slot its number leads to
      have hline := hs j hne
      rw [hj, h] at hline
      rw [Option.some.inj hline]
      exact hj
    · rintro (hnot | ⟨hin, hpin⟩)
      · exact absurd henableable hnot
      · refine ⟨fun j _ _ => irqEnable_slot h _ j, ?_, fun hout => absurd hin hout⟩
        rintro named hcall _
        obtain ⟨rfl, _⟩ := PinCall.irqEnable.inj hcall
        exact ⟨i, hpin⟩
  · rw [if_neg henableable] at heq
    exact iff_of_true (callOwned_of_refused heq) (.inl henableable)

theorem disableOwned_iff (h : line defined pin = some i) :
    CallOwned defined s (.irqEnable pin pinIrqDisable) ↔ InTable defined pin := by
  constructor
  · intro howned
    refine howned.inTable ?_
    simp only [runCall, irqDisable_eq h]
    exact ok_ne_rtEInval
  · intro hin
    refine ⟨fun j _ _ => irqEnable_slot h _ j, ?_, fun hout => absurd hin hout⟩
    intro named hcall
    exact absurd (PinCall.irqEnable.inj hcall).2 (by decide)

/-- One call, in a state where every pin is stored in its own slot. -/
theorem callOwned_iff (hs : SlotsNamed defined s) (call : PinCall) :
    CallOwned defined s call ↔
      ∀ i, line defined call.pin = some i → NamesOwnPin defined (s.slot i) call := by
  cases hline : line defined call.pin with
  | none => exact iff_of_true (callOwned_of_refused (runCall_of_line_none hline)) (by simp)
  | some i =>
    simp only [Option.some.injEq, forall_eq']
    cases call with
    | attachIrq pin mode hdr args => exact attachOwned_iff hline mode hdr args
    | detachIrq pin => exact detachOwned_iff hline
    | irqEnable pin enabled =>
      unfold NamesOwnPin
      by_cases henable : enabled = pinIrqEnable
      · subst henable
        exact (enableOwned_iff hs hline).trans (by simp [PinCall.pin])
      · by_cases hdisable : enabled = pinIrqDisable
        · subst hdisable
          exact (disableOwned_iff hline).trans (by simp [PinCall.pin, henable])
        · have hrefused := irqEnable_other (s := s) hline henable hdisable
          exact iff_of_true (callOwned_of_refused hrefused) (by simp [henable, hdisable])

/-- A history keeps every attachment with its owner exactly when each call names a
pin of the table, detaches only what is stored under its own number, and enables only
that. -/
theorem pinOwnership_iff (defined : GpioPort → Bool) (calls : List PinCall) :
    PinOwnership defined calls ↔
      ∀ before call after, calls = before ++ call :: after →
        ∀ i, line defined call.pin = some i →
          NamesOwnPin defined ((runCalls defined before).slot i) call := by
  unfold PinOwnership
  refine forall_congr' fun before => forall_congr' fun call => forall_congr' fun after =>
    imp_congr_right fun _ => ?_
  exact callOwned_iff (runCalls_slotsNamed defined before) call

/-- Ports A, B and C. -/
def portsAToC : GpioPort → Bool
  | .a | .b | .c => true
  | .d | .e => false

/-- PA3 is attached, and PB3 detached. -/
theorem not_pinOwnership_detach_other :
    ¬ PinOwnership portsAToC [.attachIrq 3 0 0x08001000 0, .detachIrq 19] := by
  intro h
  have hkept := (h [.attachIrq 3 0 0x08001000 0] (.detachIrq 19) [] rfl).kept 3
    (by decide) (by decide)
  exact absurd hkept (by decide)

end Ownership

end Gd32Vw553h.Drivers
