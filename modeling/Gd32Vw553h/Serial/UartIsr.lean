/-
  Serial/UartIsr.lean --- bytes that arrive while the receive interrupt runs
  (`libraries/gd32_drivers/drv_usart.c`, `components/drivers/serial/dev_serial.c`).

  The data register holds one byte.  RBNE is set when a byte arrives and cleared when
  the register is read, and by `usart_interrupt_flag_clear` and `usart_flag_clear`.  A byte
  may arrive between any two steps of `GD32_UART_IRQHandler` at which RBNE is clear.

  `WillObtain` says that the handler, left alone, brings every byte that has arrived into
  the FIFO, in this interrupt or in the next one.
-/
import Gd32Vw553h.Serial.Fifo

set_option autoImplicit false

namespace Gd32Vw553h.Serial

open Gd32Vw553h.Foundation

/-! ## The handler -/

/-- The next step of `GD32_UART_IRQHandler` and of what it calls. -/
inductive UartPc where
  /-- no interrupt is being handled -/
  | idle
  /-- `usart_interrupt_flag_get(uart->uart_periph, USART_INT_FLAG_RBNE)` -/
  | interruptFlag
  /-- `usart_flag_get(uart->uart_periph, USART_FLAG_RBNE)` -/
  | flag
  /-- `usart_flag_get` in `gd32_uart_getc` -/
  | getc
  /-- `usart_data_receive` in `gd32_uart_getc` -/
  | receive
  /-- the critical section of `rt_hw_serial_isr` -/
  | append (ch : UInt8)
  /-- `rx_indicate` -/
  | indicate
  /-- `usart_interrupt_flag_clear` -/
  | interruptFlagClear
  /-- `usart_flag_clear` -/
  | flagClear
  /-- the branch for CTS, LBD and TC -/
  | other
  deriving DecidableEq

structure UartIsrState where
  pc : UartPc
  /-- the data register -/
  data : UInt8
  rbne : Bool
  rxFifo : RtSerialRxFifo
  /-- the calls of `rx_indicate` -/
  indicated : List Nat
  /-- the bytes that have arrived -/
  arrived : List UInt8
  /-- the bytes that have been appended to the FIFO -/
  appended : List UInt8

section Code

variable (bufsz : Nat) (rxIndicate : Bool)

/-- One step of the handler; an interrupt may be taken for other reasons than RBNE. -/
def gd32UartIrqHandler (s : UartIsrState) : UartIsrState :=
  match s.pc with
  | .idle => { s with pc := .interruptFlag }
  | .interruptFlag => { s with pc := if s.rbne then .flag else .other }
  | .flag => { s with pc := if s.rbne then .getc else .other }
  | .getc => { s with pc := if s.rbne then .receive else .indicate }
  | .receive => { s with pc := .append s.data, rbne := false }
  | .append ch =>
    { s with
      pc := .getc, rxFifo := putChar bufsz s.rxFifo ch, appended := s.appended ++ [ch] }
  | .indicate =>
    { s with
      pc := .interruptFlagClear
      indicated :=
        if rxIndicate = true ∧ rxLength bufsz s.rxFifo ≠ 0 then
          s.indicated ++ [rxLength bufsz s.rxFifo]
        else s.indicated }
  | .interruptFlagClear => { s with pc := .flagClear, rbne := false }
  | .flagClear => { s with pc := .idle, rbne := false }
  | .other => { s with pc := .idle }

inductive UartIsrStep where
  /-- the next step of the handler -/
  | cpu
  /-- a byte arrives -/
  | arrive (byte : UInt8)
  /-- a reading call takes a byte off the FIFO -/
  | read
  deriving DecidableEq

/-- A UART, its interrupt handler and its readers; no byte arrives while RBNE is set. -/
def uartIsr : Machine UartIsrState UartIsrStep where
  step s
    | .cpu => some (gd32UartIrqHandler bufsz rxIndicate s)
    | .arrive byte =>
      if s.rbne then none
      else some { s with data := byte, rbne := true, arrived := s.arrived ++ [byte] }
    | .read =>
      if s.pc = .idle then
        match takeChar bufsz s.rxFifo with
        | none => some s
        | some (_, rxFifo) => some { s with rxFifo := rxFifo }
      else none

/-- The UART has been configured. -/
def UartIsrState.configured (rxFifo : RtSerialRxFifo) : UartIsrState where
  pc := .idle
  data := 0
  rbne := false
  rxFifo := rxFifo
  indicated := []
  arrived := []
  appended := []

/-- The handler alone brings all bytes that have arrived into the FIFO. -/
def WillObtain (s : UartIsrState) : Prop :=
  ∃ n s', (uartIsr bufsz rxIndicate).exec s (List.replicate n .cpu) = some s' ∧
    s'.appended = s'.arrived

end Code

/-- After the last poll of `gd32_uart_getc`, up to the end of `usart_flag_clear`. -/
def UartPc.clearing : UartPc → Bool
  | .indicate | .interruptFlagClear | .flagClear => true
  | _ => false

/-- No byte arrives between the last poll and the end of `usart_flag_clear`. -/
def ArrivesOutside (s : UartIsrState) : UartIsrStep → Prop
  | .arrive _ => s.rbne = false → s.pc.clearing = false
  | _ => True

/-! ## Bytes on their way -/

/-- The byte that the handler holds. -/
def UartPc.held : UartPc → List UInt8
  | .append ch => [ch]
  | _ => []

/-- Every byte is in the FIFO, in the hands of the handler or in the data register, and RBNE is
clear while the handler clears it. -/
structure Kept (s : UartIsrState) : Prop where
  arrived : s.arrived = s.appended ++ s.pc.held ++ if s.rbne then [s.data] else []
  receive : s.pc = .receive → s.rbne = true
  clearing : s.pc.clearing = true → s.rbne = false

section Kept

variable {bufsz : Nat} {rxIndicate : Bool} {s : UartIsrState}

theorem kept_configured (rxFifo : RtSerialRxFifo) : Kept (UartIsrState.configured rxFifo) :=
  ⟨rfl, fun h => absurd h UartPc.noConfusion, fun _ => rfl⟩

theorem WillObtain.next (h : WillObtain bufsz rxIndicate (gd32UartIrqHandler bufsz rxIndicate s)) :
    WillObtain bufsz rxIndicate s := by
  obtain ⟨n, s', hexec, hall⟩ := h
  exact ⟨n + 1, s', hexec, hall⟩

theorem willObtain_now (h : s.appended = s.arrived) : WillObtain bufsz rxIndicate s :=
  ⟨0, s, rfl, h⟩

/-- A step that only goes on to a place where nothing is held. -/
theorem Kept.goto {pc : UartPc} (h : Kept s) (hheld : s.pc.held = []) (hnext : pc.held = [])
    (hreceive : pc = .receive → s.rbne = true) (hclearing : pc.clearing = true → s.rbne = false) :
    Kept { s with pc := pc } where
  arrived := by
    have harrived := h.arrived
    rw [hheld.trans hnext.symm] at harrived
    exact harrived
  receive := hreceive
  clearing := hclearing

theorem Kept.test {yes no : UartPc} (h : Kept s) (hheld : s.pc.held = []) (hyes : yes.held = [])
    (hyesClearing : yes.clearing = false) (hno : no.held = []) (hnoReceive : no ≠ .receive) :
    Kept { s with pc := if s.rbne then yes else no } := by
  rcases Bool.eq_false_or_eq_true s.rbne with hrbne | hrbne
  · rw [if_pos hrbne]
    refine h.goto hheld hyes (fun _ => hrbne) fun hclearing => ?_
    exact absurd (hyesClearing.symm.trans hclearing) Bool.noConfusion
  · have hclear : ¬s.rbne = true := by
      rw [hrbne]
      exact Bool.noConfusion
    rw [if_neg hclear]
    exact h.goto hheld hno (fun hreceive => absurd hreceive hnoReceive) fun _ => hrbne

/-- Clearing RBNE loses nothing when it is clear. -/
theorem Kept.clear {pc : UartPc} (h : Kept s) (hpc : s.pc.clearing = true) (hheld : s.pc.held = [])
    (hnext : pc.held = []) (hreceive : pc ≠ .receive) :
    Kept { s with pc := pc, rbne := false } where
  arrived := by
    have harrived := h.arrived
    rw [h.clearing hpc, hheld] at harrived
    show s.arrived = s.appended ++ pc.held ++ []
    rw [hnext]
    exact harrived
  receive hnow := absurd hnow hreceive
  clearing _ := rfl

theorem Kept.handler (h : Kept s) : Kept (gd32UartIrqHandler bufsz rxIndicate s) := by
  obtain ⟨pc, data, rbne, rxFifo, indicated, arrived, appended⟩ := s
  cases pc with
  | idle => exact h.goto rfl rfl UartPc.noConfusion Bool.noConfusion
  | interruptFlag => exact h.test rfl rfl rfl rfl UartPc.noConfusion
  | flag => exact h.test rfl rfl rfl rfl UartPc.noConfusion
  | getc => exact h.test rfl rfl rfl rfl UartPc.noConfusion
  | receive =>
    obtain rfl : rbne = true := h.receive rfl
    refine ⟨?_, UartPc.noConfusion, Bool.noConfusion⟩
    show arrived = appended ++ [data] ++ []
    rw [List.append_nil]
    have harrived : arrived = appended ++ [] ++ [data] := h.arrived
    rw [harrived, List.append_nil]
  | append ch =>
    refine ⟨?_, UartPc.noConfusion, Bool.noConfusion⟩
    show arrived = appended ++ [ch] ++ [] ++ if rbne then [data] else []
    rw [List.append_nil]
    exact h.arrived
  | indicate => exact ⟨h.arrived, UartPc.noConfusion, fun _ => h.clearing rfl⟩
  | interruptFlagClear => exact h.clear rfl rfl rfl UartPc.noConfusion
  | flagClear => exact h.clear rfl rfl rfl UartPc.noConfusion
  | other => exact h.goto rfl rfl UartPc.noConfusion Bool.noConfusion

theorem Kept.step {a : UartIsrStep} {s' : UartIsrState} (h : Kept s) (hok : ArrivesOutside s a)
    (hstep : (uartIsr bufsz rxIndicate).step s a = some s') : Kept s' := by
  cases a with
  | cpu =>
    obtain rfl := Option.some.inj hstep
    exact h.handler
  | arrive byte =>
    cases hrbne : s.rbne with
    | true =>
      simp only [uartIsr, hrbne, if_true] at hstep
      cases hstep
    | false =>
      simp only [uartIsr, hrbne, Bool.false_eq_true, if_false] at hstep
      obtain rfl := Option.some.inj hstep
      refine ⟨?_, fun _ => rfl, fun hclearing => ?_⟩
      · have harrived := h.arrived
        rw [hrbne] at harrived
        show s.arrived ++ [byte] = s.appended ++ s.pc.held ++ [byte]
        rw [harrived]
        exact congrArg (· ++ [byte]) (List.append_nil _)
      · exact absurd ((hok hrbne).symm.trans hclearing) Bool.noConfusion
  | read =>
    simp only [uartIsr] at hstep
    split at hstep
    · split at hstep
      · obtain rfl := Option.some.inj hstep
        exact h
      · obtain rfl := Option.some.inj hstep
        exact ⟨h.arrived, h.receive, h.clearing⟩
    · cases hstep

/-! ## The handler left alone -/

/-- With an empty register and nothing held, all bytes are in the FIFO. -/
theorem Kept.empty (h : Kept s) (hheld : s.pc.held = []) (hrbne : s.rbne = false) :
    WillObtain bufsz rxIndicate s := by
  refine willObtain_now ?_
  have harrived := h.arrived
  rw [hheld, hrbne] at harrived
  simpa using harrived.symm

/-- A poll that finds RBNE set goes on to where the byte will be obtained. -/
theorem Kept.poll {yes no : UartPc} (h : Kept s) (hheld : s.pc.held = [])
    (hhandler : gd32UartIrqHandler bufsz rxIndicate s = { s with pc := if s.rbne then yes else no })
    (hyes : ∀ t : UartIsrState, Kept t → t.pc = yes → WillObtain bufsz rxIndicate t) :
    WillObtain bufsz rxIndicate s := by
  cases hrbne : s.rbne with
  | true =>
    refine WillObtain.next (hyes _ h.handler ?_)
    rw [hhandler]
    exact if_pos hrbne
  | false => exact h.empty hheld hrbne

/-- Every byte that is kept will be in the FIFO. -/
theorem Kept.willObtain (h : Kept s) : WillObtain bufsz rxIndicate s := by
  have hreceive : ∀ t : UartIsrState, Kept t → t.pc = .receive → WillObtain bufsz rxIndicate t := by
    rintro ⟨pc, data, rbne, rxFifo, indicated, arrived, appended⟩ h rfl
    have hgot := @Kept.handler bufsz rxIndicate _ h
    exact WillObtain.next (WillObtain.next (hgot.handler.empty rfl rfl))
  have hgetc : ∀ t : UartIsrState, Kept t → t.pc = .getc → WillObtain bufsz rxIndicate t := by
    rintro ⟨pc, data, rbne, rxFifo, indicated, arrived, appended⟩ h rfl
    exact h.poll rfl rfl hreceive
  have hflag : ∀ t : UartIsrState, Kept t → t.pc = .flag → WillObtain bufsz rxIndicate t := by
    rintro ⟨pc, data, rbne, rxFifo, indicated, arrived, appended⟩ h rfl
    exact h.poll rfl rfl hgetc
  have hinterruptFlag : ∀ t : UartIsrState, Kept t → t.pc = .interruptFlag →
      WillObtain bufsz rxIndicate t := by
    rintro ⟨pc, data, rbne, rxFifo, indicated, arrived, appended⟩ h rfl
    exact h.poll rfl rfl hflag
  have hidle : ∀ t : UartIsrState, Kept t → t.pc = .idle → WillObtain bufsz rxIndicate t := by
    rintro ⟨pc, data, rbne, rxFifo, indicated, arrived, appended⟩ h rfl
    exact WillObtain.next (hinterruptFlag _ h.handler rfl)
  cases hpc : s.pc with
  | idle => exact hidle s h hpc
  | interruptFlag => exact hinterruptFlag s h hpc
  | flag => exact hflag s h hpc
  | getc => exact hgetc s h hpc
  | receive => exact hreceive s h hpc
  | append ch =>
    refine WillObtain.next (hgetc _ h.handler ?_)
    unfold gd32UartIrqHandler
    rw [hpc]
  | indicate => exact h.empty (by rw [hpc]; rfl) (h.clearing (by rw [hpc]; rfl))
  | interruptFlagClear => exact h.empty (by rw [hpc]; rfl) (h.clearing (by rw [hpc]; rfl))
  | flagClear => exact h.empty (by rw [hpc]; rfl) (h.clearing (by rw [hpc]; rfl))
  | other =>
    refine WillObtain.next (hidle _ h.handler ?_)
    unfold gd32UartIrqHandler
    rw [hpc]

end Kept

/-! ## Bytes that are lost -/

/-- More bytes have arrived than the handler can still bring into the FIFO. -/
structure Lost (s : UartIsrState) : Prop where
  fewer : s.appended.length < s.arrived.length
  rbne : s.rbne = true → s.pc.clearing = true
  held : s.pc.held = []
  receive : s.pc ≠ .receive

section Lost

variable {bufsz : Nat} {rxIndicate : Bool} {s : UartIsrState}

theorem Lost.handler (h : Lost s) : Lost (gd32UartIrqHandler bufsz rxIndicate s) := by
  obtain ⟨pc, data, rbne, rxFifo, indicated, arrived, appended⟩ := s
  obtain ⟨hfewer, hrbne, hheld, hreceive⟩ := h
  have hclear : pc.clearing = false → rbne = false := by
    intro hpc
    cases rbne with
    | true => exact absurd (hpc.symm.trans (hrbne rfl)) Bool.noConfusion
    | false => rfl
  cases pc with
  | idle =>
    obtain rfl := hclear rfl
    exact ⟨hfewer, Bool.noConfusion, rfl, UartPc.noConfusion⟩
  | interruptFlag =>
    obtain rfl := hclear rfl
    exact ⟨hfewer, Bool.noConfusion, rfl, UartPc.noConfusion⟩
  | flag =>
    obtain rfl := hclear rfl
    exact ⟨hfewer, Bool.noConfusion, rfl, UartPc.noConfusion⟩
  | getc =>
    obtain rfl := hclear rfl
    exact ⟨hfewer, Bool.noConfusion, rfl, UartPc.noConfusion⟩
  | receive => exact absurd rfl hreceive
  | append ch => exact absurd hheld (List.cons_ne_nil _ _)
  | indicate => exact ⟨hfewer, fun _ => rfl, rfl, UartPc.noConfusion⟩
  | interruptFlagClear => exact ⟨hfewer, Bool.noConfusion, rfl, UartPc.noConfusion⟩
  | flagClear => exact ⟨hfewer, Bool.noConfusion, rfl, UartPc.noConfusion⟩
  | other =>
    obtain rfl := hclear rfl
    exact ⟨hfewer, Bool.noConfusion, rfl, UartPc.noConfusion⟩

theorem Lost.not_willObtain (h : Lost s) : ¬WillObtain bufsz rxIndicate s := by
  rintro ⟨n, s', hexec, hall⟩
  induction n generalizing s with
  | zero =>
    obtain rfl := Option.some.inj hexec
    exact absurd (congrArg List.length hall) (Nat.ne_of_lt h.fewer)
  | succ n ih => exact ih h.handler hexec

/-- A byte that arrives while the handler clears RBNE is lost. -/
theorem Kept.lost (h : Kept s) (hclearing : s.pc.clearing = true) (byte : UInt8) :
    Lost { s with data := byte, rbne := true, arrived := s.arrived ++ [byte] } := by
  have hheld : s.pc.held = [] := by
    cases hpc : s.pc with
    | append ch =>
      rw [hpc] at hclearing
      cases hclearing
    | _ => rfl
  have harrived := h.arrived
  rw [hheld, h.clearing hclearing] at harrived
  refine ⟨?_, fun _ => hclearing, hheld, fun hreceive => ?_⟩
  · show s.appended.length < (s.arrived ++ [byte]).length
    rw [harrived]
    simp
  · rw [hreceive] at hclearing
    cases hclearing

end Lost

/-! ## All schedules -/

section Schedules

variable (bufsz : Nat) (rxIndicate : Bool)

/-- Each step leaves a state from which the handler brings every byte into the FIFO if and only
if it is not the arrival of a byte between the last poll and the end of `usart_flag_clear`. -/
theorem willObtain_step_iff {s : UartIsrState} (h : Kept s) (a : UartIsrStep) :
    (∀ s', (uartIsr bufsz rxIndicate).step s a = some s' → WillObtain bufsz rxIndicate s') ↔
      ArrivesOutside s a := by
  constructor
  · intro hall
    cases a with
    | cpu => trivial
    | read => trivial
    | arrive byte =>
      intro hrbne
      cases hclearing : s.pc.clearing with
      | false => rfl
      | true =>
        have hstep : (uartIsr bufsz rxIndicate).step s (.arrive byte) =
            some { s with data := byte, rbne := true, arrived := s.arrived ++ [byte] } := by
          simp only [uartIsr, hrbne, Bool.false_eq_true, if_false]
        exact absurd (hall _ hstep) (h.lost hclearing byte).not_willObtain
  · intro hok s' hstep
    exact (h.step hok hstep).willObtain

/-- For every timing of arrivals, reads and steps of the handler: all bytes that have arrived are
obtained, at every moment, if and only if none arrives between the last poll of `gd32_uart_getc`
and the end of `usart_flag_clear`. -/
theorem gd32UartIrqHandler_obtains_iff (rxFifo : RtSerialRxFifo) (actions : List UartIsrStep) :
    (uartIsr bufsz rxIndicate).AllSteps (fun _ _ s' => WillObtain bufsz rxIndicate s')
        (UartIsrState.configured rxFifo) actions ↔
      (uartIsr bufsz rxIndicate).Admitted ArrivesOutside (UartIsrState.configured rxFifo) actions :=
  Machine.allSteps_iff_admitted (fun _ a h => willObtain_step_iff bufsz rxIndicate h a)
    (fun _ _ _ hok hstep h => h.step hok hstep) actions (kept_configured rxFifo)

/-- A byte that arrives after the last poll of the interrupt for the byte before it is lost. -/
theorem not_gd32UartIrqHandler_obtains :
    ¬∀ (bufsz : Nat) (rxIndicate : Bool) (rxFifo : RtSerialRxFifo) (actions : List UartIsrStep),
      (uartIsr bufsz rxIndicate).AllSteps (fun _ _ s' => WillObtain bufsz rxIndicate s')
        (UartIsrState.configured rxFifo) actions := by
  intro hclaim
  let rxFifo : RtSerialRxFifo :=
    { buffer := fun _ => 0, putIndex := 0, getIndex := 0, isFull := false }
  let before : List UartIsrStep := .arrive 1 :: List.replicate 7 .cpu
  have hadmitted := (Machine.allSteps_iff_admitted
    (fun _ a h => willObtain_step_iff 64 true h a) (fun _ _ _ hok hstep h => h.step hok hstep)
    (before ++ [.arrive 2]) (kept_configured rxFifo)).mp (hclaim 64 true rxFifo _)
  have houtside := hadmitted.after rfl
  exact absurd (houtside.1 rfl) Bool.noConfusion

end Schedules

end Gd32Vw553h.Serial
