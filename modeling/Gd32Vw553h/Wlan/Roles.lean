/-
  Wlan/Roles.lean --- `rt_wlan_set_mode` and the event handlers of the devices
  (`components/drivers/wlan/dev_wlan_mgnt.c`, `dev_wlan.c`, `dev_wlan_prot.c`).

  A device that becomes the station (or the access point) gets
  `rt_wlan_event_dispatch` registered for the events of that role; `RT_WLAN_NONE`
  takes all registrations back.  `setModeOk_iff` says when the registrations follow
  the roles through a history of calls: nothing takes them from a device whose role
  another device gets.

  Every handler is registered with a null parameter.  `_sta_mgnt.state` and
  `_ap_mgnt.state`, which the function resets, are not read here.
-/
import Gd32Vw553h.Foundation.Runs
import Gd32Vw553h.Foundation.SlotTable
import Gd32Vw553h.Wlan.Scan
import Mathlib.Logic.Basic

set_option autoImplicit false

namespace Gd32Vw553h.Wlan

open Gd32Vw553h.Foundation Gd32Vw553h.Klibc

/-! ## Data -/

/-- `rt_wlan_mode_t` -/
inductive RtWlanMode where
  | none
  | station
  | ap
  | modeMax
  deriving DecidableEq

/-- The handlers that the framework registers at a device. -/
inductive RtWlanDevEventHandler where
  /-- `rt_wlan_event_dispatch` -/
  | dispatch
  /-- `rt_wlan_prot_event_handle` -/
  | prot
  deriving DecidableEq

/-- A row of `handler_table`: `RT_WLAN_DEV_EVENT_NUM` slots. -/
abbrev HandlerRow : Type := List (Option RtWlanDevEventHandler)

/-- A `handler_table`. -/
abbrev HandlerTable : Type := RtWlanDevEvent → HandlerRow

/-- `struct rt_wlan_device`, the fields that setting the mode uses. -/
structure RtWlanDevice where
  mode : RtWlanMode
  /-- `RT_WLAN_FLAG_AP_ONLY` -/
  apOnly : Bool
  /-- `RT_WLAN_FLAG_STA_ONLY` -/
  staOnly : Bool
  /-- `prot` is set; the only protocol asked for is "lwip" -/
  prot : Bool
  handlerTable : HandlerTable

/-- The devices, `_sta_mgnt.device` and `_ap_mgnt.device`. -/
structure MgntDevices (δ : Type*) where
  dev : δ → RtWlanDevice
  sta : Option δ
  ap : Option δ

/-- The name that `rt_wlan_set_mode` is given. -/
inductive DevName (δ : Type*) where
  | null
  | unknown
  | device (d : δ)

/-- The answers of the driver and of the protocol during one call. -/
structure SetModeEnv where
  /-- `rt_device_init` and `RT_WLAN_CMD_MODE` both return `RT_EOK` -/
  initOk : RtWlanMode → Bool
  /-- "lwip" is registered -/
  protFound : Bool
  /-- its `dev_reg_callback` does not return null -/
  protAttached : Bool

/-! ## The code -/

/-- The events that a station device gets `rt_wlan_event_dispatch` for. -/
def stationEvents : List RtWlanDevEvent :=
  [.connect, .connectFail, .disconnect, .scanReport, .scanDone]

/-- The events that an access point gets `rt_wlan_event_dispatch` for. -/
def apEvents : List RtWlanDevEvent :=
  [.apStart, .apStop, .apAssociated, .apDisassociated, .apAssociateFailed]

/-- The events that `rt_wlan_prot_attach_dev` registers for. -/
def protEvents : List RtWlanDevEvent :=
  [.connect, .disconnect, .apStart, .apStop, .apAssociated, .apDisassociated]

/-- `rt_wlan_dev_register_event_handler` -/
def rtWlanDevRegisterEventHandler (handler : RtWlanDevEventHandler) (table : HandlerTable)
    (event : RtWlanDevEvent) : HandlerTable :=
  Function.update table event (fillSlot handler (table event))

/-- `rt_wlan_dev_unregister_event_handler` for every event. -/
def unregisterAll (handler : RtWlanDevEventHandler) (table : HandlerTable) : HandlerTable :=
  fun event => clearSlot handler (table event)

section Code

variable {δ : Type*} [DecidableEq δ] (env : SetModeEnv)

def MgntDevices.setDev (s : MgntDevices δ) (d : δ) (dev : RtWlanDevice) : MgntDevices δ :=
  { s with dev := Function.update s.dev d dev }

/-- `rt_wlan_dev_init` -/
def rtWlanDevInit (dev : RtWlanDevice) (mode : RtWlanMode) : Int × RtWlanDevice :=
  if mode = .modeMax then (-rtError, dev)
  else if mode = .ap ∧ dev.staOnly = true then (-rtError, dev)
  else if mode = .station ∧ dev.apOnly = true then (-rtError, dev)
  else if env.initOk mode = false then (-rtError, dev)
  else (0, { dev with mode := mode })

/-- `rt_wlan_prot_attach` with "lwip". -/
def rtWlanProtAttach (dev : RtWlanDevice) : RtWlanDevice :=
  if dev.prot = true then dev
  else if env.protFound = false then dev
  else
    { dev with
      prot := env.protAttached
      handlerTable := protEvents.foldl (rtWlanDevRegisterEventHandler .prot) dev.handlerTable }

/-- `rt_wlan_prot_attach` at a device of the table. -/
def attachProt (s : MgntDevices δ) (d : δ) : MgntDevices δ :=
  s.setDev d (rtWlanProtAttach env (s.dev d))

/-- The roles and registrations behind a successful `rt_wlan_dev_init`. -/
def takeRole (s : MgntDevices δ) (d : δ) : RtWlanMode → MgntDevices δ
  | .none =>
      let cleared :=
        s.setDev d { s.dev d with handlerTable := unregisterAll .dispatch (s.dev d).handlerTable }
      if s.sta = some d then { cleared with sta := none }
      else if s.ap = some d then { cleared with ap := none }
      else s
  | .station =>
      { s.setDev d { s.dev d with
          handlerTable := stationEvents.foldl (rtWlanDevRegisterEventHandler .dispatch)
            (s.dev d).handlerTable } with sta := some d }
  | .ap =>
      { s.setDev d { s.dev d with
          handlerTable := apEvents.foldl (rtWlanDevRegisterEventHandler .dispatch)
            (s.dev d).handlerTable } with ap := some d }
  | .modeMax => s

/-- The body of `rt_wlan_set_mode`; `setNone` is its call of itself with `RT_WLAN_NONE`. -/
def setModeBody (setNone : MgntDevices δ → Int × MgntDevices δ) (name : DevName δ)
    (mode : RtWlanMode) (s : MgntDevices δ) : Int × MgntDevices δ :=
  if mode = .modeMax then (-rtEInval, s)
  else
    match name with
    | .null => (-rtEInval, s)
    | .unknown => (-rtEIo, s)
    | .device d =>
      if (s.dev d).mode = mode then (0, s)
      else if mode = .station ∧ (s.dev d).apOnly = true then (-rtError, s)
      else if mode = .ap ∧ (s.dev d).staOnly = true then (-rtError, s)
      else
        -- a station that becomes an access point gives its role back first, and vice versa
        let changed :=
          if mode = .station ∧ s.ap = some d ∨ mode = .ap ∧ s.sta = some d then setNone s
          else (0, s)
        if changed.1 ≠ 0 then changed
        else
          let inited := rtWlanDevInit env (changed.2.dev d) mode
          if inited.1 ≠ 0 then (inited.1, changed.2)
          else
            (0, attachProt env (takeRole (changed.2.setDev d inited.2) d mode) d)

/-- `rt_wlan_set_mode(dev_name, mode)`; with `RT_WLAN_NONE` it does not call itself. -/
def rtWlanSetMode (name : DevName δ) (mode : RtWlanMode) (s : MgntDevices δ) :
    Int × MgntDevices δ :=
  setModeBody env (setModeBody env (fun s => (0, s)) name .none) name mode s

/-- A call of `rt_wlan_set_mode` with the answers it gets. -/
structure SetModeCall (δ : Type*) where
  name : DevName δ
  mode : RtWlanMode
  env : SetModeEnv

/-- Histories of `rt_wlan_set_mode`. -/
def modes : Machine (MgntDevices δ) (SetModeCall δ) where
  step s call := some (rtWlanSetMode call.env call.name call.mode s).2

end Code

/-- A device as `rt_wlan_dev_register` leaves it. -/
def RtWlanDevice.registered (apOnly staOnly : Bool) : RtWlanDevice where
  mode := .none
  apOnly := apOnly
  staOnly := staOnly
  prot := false
  handlerTable := fun _ => [none, none]

/-! ## What is to hold -/

section Property

variable {δ : Type*}

/-- How often `rt_wlan_event_dispatch` stands in the row of an event. -/
def RtWlanDevice.dispatches (dev : RtWlanDevice) (event : RtWlanDevEvent) : Nat :=
  (dev.handlerTable event).count (some .dispatch)

/-- No device holds `rt_wlan_event_dispatch` twice for an event, or for a role that it does
not have. -/
def DispatchOnce (s : MgntDevices δ) : Prop :=
  ∀ d event, (s.dev d).dispatches event ≤ 1 ∧
    (0 < (s.dev d).dispatches event →
      (event ∈ stationEvents → s.sta = some d) ∧ (event ∈ apEvents → s.ap = some d))

/-- The device that has a role. -/
def MgntDevices.role (s : MgntDevices δ) : RtWlanMode → Option δ
  | .station => s.sta
  | .ap => s.ap
  | _ => none

/-- The other role. -/
def RtWlanMode.opposite : RtWlanMode → RtWlanMode
  | .station => .ap
  | .ap => .station
  | mode => mode

/-- The device's flags exclude the mode. -/
def RtWlanDevice.excludes (dev : RtWlanDevice) : RtWlanMode → Bool
  | .station => dev.apOnly
  | .ap => dev.staOnly
  | _ => false

/-- The modes that are roles. -/
def RtWlanMode.IsRole (mode : RtWlanMode) : Prop := mode = .station ∨ mode = .ap

/-- Asked for the role `mode`, the device gets it: it has another mode, is not excluded from
this one, and the driver accepts it, after having given up the opposite role. -/
structure GetsRole (s : MgntDevices δ) (env : SetModeEnv) (mode : RtWlanMode) (d : δ) : Prop where
  change : (s.dev d).mode ≠ mode
  allowed : (s.dev d).excludes mode = false
  givenUp : s.role mode.opposite = some d → env.initOk .none = true
  accepted : env.initOk mode = true

/-- A call gives a role to a device only when no other device has it. -/
def CallKeepsRoles (s : MgntDevices δ) (call : SetModeCall δ) : Prop :=
  ∀ d, call.name = .device d → call.mode.IsRole → GetsRole s call.env call.mode d →
    ∀ d', s.role call.mode = some d' → d' = d

end Property

/-! ## What the calls do to a handler table -/

section Table

theorem foldl_register (handler : RtWlanDevEventHandler) {events : List RtWlanDevEvent}
    (hnodup : events.Nodup) (table : HandlerTable) (event : RtWlanDevEvent) :
    events.foldl (rtWlanDevRegisterEventHandler handler) table event =
      if event ∈ events then fillSlot handler (table event) else table event := by
  induction events generalizing table with
  | nil => rfl
  | cons first rest ih =>
    obtain ⟨hfirst, hrest⟩ := List.nodup_cons.mp hnodup
    rw [List.foldl_cons, ih hrest, rtWlanDevRegisterEventHandler]
    by_cases heq : event = first
    · rw [heq, if_neg hfirst, if_pos List.mem_cons_self, Function.update_self]
    · rw [Function.update_of_ne heq]
      exact if_congr (by rw [List.mem_cons, or_iff_right heq]) rfl rfl

/-- The state of one device that fits its roles. -/
structure RoleDevInv (dev : RtWlanDevice) (isSta isAp : Prop) [Decidable isSta] [Decidable isAp] :
    Prop where
  sta : dev.mode = .station ↔ isSta
  ap : dev.mode = .ap ↔ isAp
  valid : dev.mode ≠ .modeMax
  count : ∀ event, dev.dispatches event ≤
    if isSta ∧ event ∈ stationEvents ∨ isAp ∧ event ∈ apEvents then 1 else 0
  connectFail : dev.handlerTable .connectFail = [if isSta then some .dispatch else none, none]
  apAssociateFailed :
    dev.handlerTable .apAssociateFailed = [if isAp then some .dispatch else none, none]

variable {dev : RtWlanDevice} {isSta isAp : Prop} [Decidable isSta] [Decidable isAp]

/-- Attaching the protocol adds other handlers only, and none for the two failures. -/
theorem RoleDevInv.attach (h : RoleDevInv dev isSta isAp) (env : SetModeEnv) :
    RoleDevInv (rtWlanProtAttach env dev) isSta isAp := by
  unfold rtWlanProtAttach
  split
  · exact h
  · split
    · exact h
    · have hrow := foldl_register .prot (show protEvents.Nodup by decide) dev.handlerTable
      refine ⟨h.sta, h.ap, h.valid, fun event => ?_, ?_, ?_⟩
      · refine le_trans (le_of_eq ?_) (h.count event)
        rw [RtWlanDevice.dispatches, RtWlanDevice.dispatches]
        dsimp only
        rw [hrow]
        split
        · exact count_fillSlot_of_ne (by decide) _
        · rfl
      · exact (hrow .connectFail).trans h.connectFail
      · exact (hrow .apAssociateFailed).trans h.apAssociateFailed

/-- The device with a handler registered for the events of a role. -/
def RtWlanDevice.withRole (dev : RtWlanDevice) (mode : RtWlanMode) (events : List RtWlanDevEvent) :
    RtWlanDevice :=
  { dev with
    mode := mode
    handlerTable := events.foldl (rtWlanDevRegisterEventHandler .dispatch) dev.handlerTable }

/-- Registering at a device without a role gives one registration an event. -/
theorem withRole_count (h : RoleDevInv dev False False) (mode : RtWlanMode)
    {events : List RtWlanDevEvent} (hnodup : events.Nodup) (event : RtWlanDevEvent) :
    (dev.withRole mode events).dispatches event ≤ if event ∈ events then 1 else 0 := by
  have hzero := h.count event
  simp only [false_and, or_self, if_false, Nat.le_zero, RtWlanDevice.dispatches] at hzero
  rw [RtWlanDevice.dispatches, RtWlanDevice.withRole]
  dsimp only
  rw [foldl_register .dispatch hnodup]
  by_cases hmem : event ∈ events
  · rw [if_pos hmem, if_pos hmem, count_fillSlot, hzero]
    split <;> omega
  · rw [if_neg hmem, if_neg hmem, hzero]

theorem RoleDevInv.takeStation (h : RoleDevInv dev False False) :
    RoleDevInv (dev.withRole .station stationEvents) True False := by
  have hrow := foldl_register .dispatch (show stationEvents.Nodup by decide) dev.handlerTable
  refine ⟨iff_of_true rfl trivial, iff_of_false nofun id, nofun, fun event => ?_, ?_, ?_⟩
  · simp only [true_and, false_and, or_false]
    exact withRole_count h .station (by decide) event
  · rw [RtWlanDevice.withRole]
    dsimp only
    rw [hrow .connectFail, h.connectFail]
    rfl
  · exact (hrow .apAssociateFailed).trans h.apAssociateFailed

theorem RoleDevInv.takeAp (h : RoleDevInv dev False False) :
    RoleDevInv (dev.withRole .ap apEvents) False True := by
  have hrow := foldl_register .dispatch (show apEvents.Nodup by decide) dev.handlerTable
  refine ⟨iff_of_false nofun id, iff_of_true rfl trivial, nofun, fun event => ?_, ?_, ?_⟩
  · simp only [true_and, false_and, false_or]
    exact withRole_count h .ap (by decide) event
  · exact (hrow .connectFail).trans h.connectFail
  · rw [RtWlanDevice.withRole]
    dsimp only
    rw [hrow .apAssociateFailed, h.apAssociateFailed]
    rfl

/-- `RT_WLAN_NONE` leaves no registration. -/
theorem RoleDevInv.giveBack (h : RoleDevInv dev isSta isAp) :
    RoleDevInv { dev with mode := .none, handlerTable := unregisterAll .dispatch dev.handlerTable }
      False False := by
  refine ⟨iff_of_false nofun id, iff_of_false nofun id, nofun, fun event => ?_, ?_, ?_⟩
  · have hone := h.count event
    rw [RtWlanDevice.dispatches] at hone ⊢
    simp only [unregisterAll, count_clearSlot]
    split at hone <;> omega
  · simp only [unregisterAll, h.connectFail]
    by_cases hsta : isSta
    · simp only [hsta, if_true]
      rfl
    · simp only [hsta, if_false]
      rfl
  · simp only [unregisterAll, h.apAssociateFailed]
    by_cases hap : isAp
    · simp only [hap, if_true]
      rfl
    · simp only [hap, if_false]
      rfl

end Table

/-! ## What the calls do to the roles -/

section Roles

variable {δ : Type*} [DecidableEq δ] {s : MgntDevices δ} {d : δ} {mode : RtWlanMode}
  {env : SetModeEnv}

/-- Every device fits its roles. -/
def RoleInv (s : MgntDevices δ) : Prop :=
  ∀ d, RoleDevInv (s.dev d) (s.sta = some d) (s.ap = some d)

theorem RoleInv.dispatchOnce (h : RoleInv s) : DispatchOnce s := by
  intro d event
  have hcount := (h d).count event
  constructor
  · split at hcount <;> omega
  · intro hpos
    split at hcount
    · rename_i hrole
      rcases hrole with ⟨hsta, hmem⟩ | ⟨hap, hmem⟩
      · refine ⟨fun _ => hsta, fun hother => ?_⟩
        exfalso
        revert hmem hother
        cases event <;> decide
      · refine ⟨fun hother => ?_, fun _ => hap⟩
        exfalso
        revert hmem hother
        cases event <;> decide
    · omega

/-- Only device `d` changes, and no other device gets or loses a role. -/
theorem RoleInv.update (h : RoleInv s) (d : δ) {s' : MgntDevices δ} {dev' : RtWlanDevice}
    (hdev : s'.dev = Function.update s.dev d dev')
    (hsta : ∀ d', d' ≠ d → (s'.sta = some d' ↔ s.sta = some d'))
    (hap : ∀ d', d' ≠ d → (s'.ap = some d' ↔ s.ap = some d'))
    (hnew : RoleDevInv dev' (s'.sta = some d) (s'.ap = some d)) : RoleInv s' := by
  intro d'
  rw [hdev]
  by_cases hd : d' = d
  · rw [hd, Function.update_self]
    exact hnew
  · have hold := h d'
    rw [Function.update_of_ne hd]
    simp only [hsta d' hd, hap d' hd]
    exact hold

theorem RoleInv.attach (h : RoleInv s) (env : SetModeEnv) (d : δ) :
    RoleInv (attachProt env s d) :=
  h.update d rfl (fun _ _ => Iff.rfl) (fun _ _ => Iff.rfl) ((h d).attach env)

/-- The end of a successful call: mode, role and registrations of the device. -/
def setRole (env : SetModeEnv) (s : MgntDevices δ) (d : δ) (mode : RtWlanMode) : MgntDevices δ :=
  attachProt env (takeRole (s.setDev d { s.dev d with mode := mode }) d mode) d

theorem takeRole_station (s : MgntDevices δ) (d : δ) :
    takeRole (s.setDev d { s.dev d with mode := .station }) d .station =
      { s.setDev d ((s.dev d).withRole .station stationEvents) with sta := some d } := by
  simp only [takeRole, MgntDevices.setDev, Function.update_self, Function.update_idem,
    RtWlanDevice.withRole]

theorem takeRole_ap (s : MgntDevices δ) (d : δ) :
    takeRole (s.setDev d { s.dev d with mode := .ap }) d .ap =
      { s.setDev d ((s.dev d).withRole .ap apEvents) with ap := some d } := by
  simp only [takeRole, MgntDevices.setDev, Function.update_self, Function.update_idem,
    RtWlanDevice.withRole]

/-- The device without its role and registrations. -/
def RtWlanDevice.withoutRole (dev : RtWlanDevice) : RtWlanDevice :=
  { dev with mode := .none, handlerTable := unregisterAll .dispatch dev.handlerTable }

theorem takeRole_none (s : MgntDevices δ) (d : δ) (hrole : s.sta = some d ∨ s.ap = some d) :
    takeRole (s.setDev d { s.dev d with mode := .none }) d .none =
      if s.sta = some d then { s.setDev d (s.dev d).withoutRole with sta := none }
      else { s.setDev d (s.dev d).withoutRole with ap := none } := by
  simp only [takeRole, MgntDevices.setDev, Function.update_self, Function.update_idem,
    RtWlanDevice.withoutRole]
  by_cases hsta : s.sta = some d
  · rw [if_pos hsta, if_pos hsta]
  · rw [if_neg hsta, if_neg hsta, if_pos (hrole.resolve_left hsta)]

/-- A device with a mode has the role of that mode. -/
theorem RoleInv.role_of_mode (h : RoleInv s) (hmode : (s.dev d).mode ≠ .none) :
    s.sta = some d ∨ s.ap = some d := by
  have hdev := h d
  cases hm : (s.dev d).mode with
  | none => exact absurd hm hmode
  | station => exact .inl (hdev.sta.mp hm)
  | ap => exact .inr (hdev.ap.mp hm)
  | modeMax => exact absurd hm hdev.valid

theorem RoleInv.not_both (h : RoleInv s) (hsta : s.sta = some d) : s.ap ≠ some d := by
  intro hap
  have hmode := ((h d).sta.mpr hsta).symm.trans ((h d).ap.mpr hap)
  exact absurd hmode (by decide)

/-- Giving a role back. -/
theorem setRole_none (h : RoleInv s) (env : SetModeEnv) (hmode : (s.dev d).mode ≠ .none) :
    RoleInv (setRole env s d .none) ∧
      ∀ mode d', (setRole env s d .none).role mode = some d' ↔
        s.role mode = some d' ∧ d' ≠ d := by
  have hrole := h.role_of_mode hmode
  have hback : RoleDevInv (s.dev d).withoutRole False False := (h d).giveBack
  have hgone : ∀ {role : Option δ} {d' : δ}, role = some d →
      ((none : Option δ) = some d' ↔ role = some d' ∧ d' ≠ d) := by
    intro role d' heq
    refine ⟨nofun, fun ⟨hheld, hd⟩ => ?_⟩
    exact absurd (Option.some.inj (heq.symm.trans hheld)).symm hd
  have hstays : ∀ {role : Option δ} {d' : δ}, role ≠ some d →
      (role = some d' ↔ role = some d' ∧ d' ≠ d) := by
    intro role d' hne
    exact ⟨fun heq => ⟨heq, fun hd => hne (hd ▸ heq)⟩, And.left⟩
  unfold setRole
  rw [takeRole_none s d hrole]
  by_cases hsta : s.sta = some d
  · have hap := h.not_both hsta
    rw [if_pos hsta]
    refine ⟨RoleInv.attach ?_ env d, fun mode d' => ?_⟩
    · refine h.update d rfl (fun d' hd => ?_) (fun _ _ => Iff.rfl) ?_
      · exact (hgone hsta).trans (and_iff_left hd)
      · simp only [reduceCtorEq, hap, MgntDevices.setDev]
        exact hback
    · cases mode with
      | station => exact hgone hsta
      | ap => exact hstays hap
      | none => exact ⟨nofun, fun hheld => nomatch hheld.1⟩
      | modeMax => exact ⟨nofun, fun hheld => nomatch hheld.1⟩
  · have hap := hrole.resolve_left hsta
    rw [if_neg hsta]
    refine ⟨RoleInv.attach ?_ env d, fun mode d' => ?_⟩
    · refine h.update d rfl (fun _ _ => Iff.rfl) (fun d' hd => ?_) ?_
      · exact (hgone hap).trans (and_iff_left hd)
      · simp only [reduceCtorEq, hsta, MgntDevices.setDev]
        exact hback
    · cases mode with
      | station => exact hstays hsta
      | ap => exact hgone hap
      | none => exact ⟨nofun, fun hheld => nomatch hheld.1⟩
      | modeMax => exact ⟨nofun, fun hheld => nomatch hheld.1⟩

/-- Giving a free role to a device without one. -/
theorem setRole_role (h : RoleInv s) (env : SetModeEnv) (hmode : (s.dev d).mode = .none)
    (hrole : mode.IsRole) (hfree : s.role mode = none) : RoleInv (setRole env s d mode) := by
  have hsta : s.sta ≠ some d := by
    intro heq
    rw [(h d).sta.mpr heq] at hmode
    exact absurd hmode (by decide)
  have hap : s.ap ≠ some d := by
    intro heq
    rw [(h d).ap.mpr heq] at hmode
    exact absurd hmode (by decide)
  have hnone : RoleDevInv (s.dev d) False False := by
    have hdev := h d
    simp only [hsta, hap] at hdev
    exact hdev
  unfold setRole
  rcases hrole with rfl | rfl
  · have hnobody : s.sta = none := hfree
    rw [takeRole_station]
    refine RoleInv.attach ?_ env d
    refine h.update d rfl ?_ (fun _ _ => Iff.rfl) ?_
    · intro d' hd
      rw [hnobody]
      exact ⟨fun heq => absurd (Option.some.inj heq).symm hd, nofun⟩
    · have htake := hnone.takeStation
      simp only [hap, MgntDevices.setDev]
      exact htake
  · have hnobody : s.ap = none := hfree
    rw [takeRole_ap]
    refine RoleInv.attach ?_ env d
    refine h.update d rfl (fun _ _ => Iff.rfl) ?_ ?_
    · intro d' hd
      rw [hnobody]
      exact ⟨fun heq => absurd (Option.some.inj heq).symm hd, nofun⟩
    · have htake := hnone.takeAp
      simp only [hsta, MgntDevices.setDev]
      exact htake

/-- Giving a role to one device while another one has it leaves the other one's registrations
behind. -/
theorem not_dispatchOnce_setRole (h : RoleInv s) (env : SetModeEnv) {d' : δ} (hd : d' ≠ d)
    (hrole : mode.IsRole) (hheld : s.role mode = some d') :
    ¬ DispatchOnce (setRole env s d mode) := by
  have hsame : ((setRole env s d mode).dev d') = s.dev d' := by
    unfold setRole attachProt
    rcases hrole with rfl | rfl
    · rw [takeRole_station]
      exact (Function.update_of_ne hd _ _).trans (Function.update_of_ne hd _ _)
    · rw [takeRole_ap]
      exact (Function.update_of_ne hd _ _).trans (Function.update_of_ne hd _ _)
  intro honce
  rcases hrole with rfl | rfl
  · have hsta : s.sta = some d' := hheld
    obtain ⟨-, hholds⟩ := honce d' .connectFail
    have hrow := (h d').connectFail
    rw [hsame, RtWlanDevice.dispatches, hrow, if_pos hsta] at hholds
    have hnew : (setRole env s d .station).sta = some d := by
      rw [setRole, takeRole_station]
      rfl
    have hstation := (hholds (by decide)).1 (by decide)
    exact hd (Option.some.inj (hnew.symm.trans hstation)).symm
  · have hap : s.ap = some d' := hheld
    obtain ⟨-, hholds⟩ := honce d' .apAssociateFailed
    have hrow := (h d').apAssociateFailed
    rw [hsame, RtWlanDevice.dispatches, hrow, if_pos hap] at hholds
    have hnew : (setRole env s d .ap).ap = some d := by
      rw [setRole, takeRole_ap]
      rfl
    have hrole := (hholds (by decide)).2 (by decide)
    exact hd (Option.some.inj (hnew.symm.trans hrole)).symm

/-- `rt_wlan_dev_init` for a mode that the device's flags allow. -/
theorem rtWlanDevInit_eq {dev : RtWlanDevice} (hmode : mode ≠ .modeMax)
    (hallowed : dev.excludes mode = false) :
    rtWlanDevInit env dev mode =
      if env.initOk mode = true then (0, { dev with mode := mode }) else (-rtError, dev) := by
  have hap : ¬ (mode = .ap ∧ dev.staOnly = true) := by
    rintro ⟨rfl, hflag⟩
    exact Bool.false_ne_true (hallowed.symm.trans hflag)
  have hstation : ¬ (mode = .station ∧ dev.apOnly = true) := by
    rintro ⟨rfl, hflag⟩
    exact Bool.false_ne_true (hallowed.symm.trans hflag)
  rw [rtWlanDevInit, if_neg hmode, if_neg hap, if_neg hstation]
  cases env.initOk mode <;> rfl

/-- The call of itself with `RT_WLAN_NONE`, and any other call with that mode. -/
theorem setModeBody_none (setNone : MgntDevices δ → Int × MgntDevices δ) (s : MgntDevices δ)
    (d : δ) :
    setModeBody env setNone (.device d) .none s =
      if (s.dev d).mode = .none then (0, s)
      else if env.initOk .none = true then (0, setRole env s d .none) else (-rtError, s) := by
  unfold setModeBody
  simp only [reduceCtorEq, false_and, or_self, if_false, ne_eq, not_true_eq_false]
  by_cases hmode : (s.dev d).mode = .none
  · rw [if_pos hmode, if_pos hmode]
  · have hdev : rtWlanDevInit env (s.dev d) .none =
        if env.initOk .none = true then (0, { s.dev d with mode := .none })
        else (-rtError, s.dev d) := rtWlanDevInit_eq (by decide) rfl
    rw [if_neg hmode, if_neg hmode, hdev]
    by_cases hinit : env.initOk .none = true
    · simp only [if_pos hinit, not_true_eq_false, if_false]
      rfl
    · have hfail : ¬ (-rtError = 0) := by decide
      simp only [if_neg hinit, hfail, not_false_eq_true, if_true]

/-- A call for a role. -/
theorem setModeBody_role (setNone : MgntDevices δ → Int × MgntDevices δ) (s : MgntDevices δ)
    (d : δ) (hrole : mode.IsRole) :
    setModeBody env setNone (.device d) mode s =
      if (s.dev d).mode = mode then (0, s)
      else if (s.dev d).excludes mode = true then (-rtError, s)
      else
        let changed := if s.role mode.opposite = some d then setNone s else (0, s)
        if changed.1 ≠ 0 then changed
        else
          let inited := rtWlanDevInit env (changed.2.dev d) mode
          if inited.1 ≠ 0 then (inited.1, changed.2)
          else (0, attachProt env (takeRole (changed.2.setDev d inited.2) d mode) d) := by
  have hstation : (mode = .station ∧ (s.dev d).apOnly = true ∨
      mode = .ap ∧ (s.dev d).staOnly = true) ↔ (s.dev d).excludes mode = true := by
    rcases hrole with rfl | rfl <;> simp [RtWlanDevice.excludes]
  have hother : (mode = .station ∧ s.ap = some d ∨ mode = .ap ∧ s.sta = some d) ↔
      s.role mode.opposite = some d := by
    rcases hrole with rfl | rfl <;> simp [MgntDevices.role, RtWlanMode.opposite]
  have hmax : mode ≠ .modeMax := by
    rcases hrole with rfl | rfl <;> decide
  unfold setModeBody
  rw [if_neg hmax]
  dsimp only
  rw [if_congr hother rfl rfl, ← ite_or, if_congr hstation rfl rfl]

theorem attach_flags (env : SetModeEnv) (dev : RtWlanDevice) :
    (rtWlanProtAttach env dev).apOnly = dev.apOnly ∧
      (rtWlanProtAttach env dev).staOnly = dev.staOnly := by
  unfold rtWlanProtAttach
  split
  · exact ⟨rfl, rfl⟩
  · split <;> exact ⟨rfl, rfl⟩

theorem setRole_none_dev (h : RoleInv s) (hmode : (s.dev d).mode ≠ .none) :
    (setRole env s d .none).dev d = rtWlanProtAttach env (s.dev d).withoutRole := by
  rw [setRole, takeRole_none s d (h.role_of_mode hmode)]
  split <;> simp only [attachProt, MgntDevices.setDev, Function.update_self]

/-- Giving a role back does not change what the device's flags exclude. -/
theorem excludes_setRole_none (h : RoleInv s) (hmode : (s.dev d).mode ≠ .none) :
    ((setRole env s d .none).dev d).excludes mode = (s.dev d).excludes mode := by
  obtain ⟨hap, hsta⟩ := attach_flags env (s.dev d).withoutRole
  rw [setRole_none_dev h hmode]
  cases mode with
  | station => exact hap
  | ap => exact hsta
  | none => rfl
  | modeMax => rfl

/-- A device has a mode other than the role asked for exactly when it has the opposite one. -/
theorem RoleInv.opposite_iff (h : RoleInv s) (hrole : mode.IsRole)
    (hchange : (s.dev d).mode ≠ mode) :
    s.role mode.opposite = some d ↔ (s.dev d).mode ≠ .none := by
  have hsta := (h d).sta
  have hap := (h d).ap
  have hvalid := (h d).valid
  rcases hrole with rfl | rfl
  · refine hap.symm.trans ⟨fun heq => by rw [heq]; decide, fun hne => ?_⟩
    cases hmode : (s.dev d).mode with
    | none => exact absurd hmode hne
    | station => exact absurd hmode hchange
    | ap => rfl
    | modeMax => exact absurd hmode hvalid
  · refine hsta.symm.trans ⟨fun heq => by rw [heq]; decide, fun hne => ?_⟩
    cases hmode : (s.dev d).mode with
    | none => exact absurd hmode hne
    | station => rfl
    | ap => exact absurd hmode hchange
    | modeMax => exact absurd hmode hvalid

/-- A call for a role, from a state where the roles fit: refused, or the opposite role is
given up first if the device has it. -/
theorem rtWlanSetMode_role (h : RoleInv s) (env : SetModeEnv) (d : δ) (hrole : mode.IsRole) :
    (¬ GetsRole s env mode d ∧ (rtWlanSetMode env (.device d) mode s).2 = s) ∨
      (¬ GetsRole s env mode d ∧ (s.dev d).mode ≠ .none ∧
        (rtWlanSetMode env (.device d) mode s).2 = setRole env s d .none) ∨
      (GetsRole s env mode d ∧ (s.dev d).mode = .none ∧
        (rtWlanSetMode env (.device d) mode s).2 = setRole env s d mode) ∨
      (GetsRole s env mode d ∧ (s.dev d).mode ≠ .none ∧
        (rtWlanSetMode env (.device d) mode s).2 =
          setRole env (setRole env s d .none) d mode) := by
  have hmax : mode ≠ .modeMax := by
    rcases hrole with rfl | rfl <;> decide
  have hfail : ¬ (-rtError = 0) := by decide
  unfold rtWlanSetMode
  rw [setModeBody_role _ _ _ hrole]
  by_cases hchange : (s.dev d).mode = mode
  · exact .inl ⟨fun hgets => hgets.change hchange, by rw [if_pos hchange]⟩
  · rw [if_neg hchange]
    cases hallowed : (s.dev d).excludes mode with
    | true =>
      refine .inl ⟨fun hgets => ?_, rfl⟩
      exact Bool.false_ne_true (hgets.allowed.symm.trans hallowed)
    | false =>
      rw [if_neg Bool.false_ne_true]
      have hopposite := h.opposite_iff hrole hchange
      by_cases hother : s.role mode.opposite = some d
      · have hmode := hopposite.mp hother
        rw [if_pos hother, setModeBody_none, if_neg hmode]
        cases hnone : env.initOk .none with
        | false =>
          refine .inl ⟨fun hgets => ?_, rfl⟩
          exact Bool.false_ne_true (hnone.symm.trans (hgets.givenUp hother))
        | true =>
          have hinit : rtWlanDevInit env ((setRole env s d .none).dev d) mode = _ :=
            rtWlanDevInit_eq hmax ((excludes_setRole_none h hmode).trans hallowed)
          simp only [if_true, ne_eq, not_true_eq_false, if_false, hinit]
          cases haccepted : env.initOk mode with
          | false =>
            refine .inr (.inl ⟨fun hgets => ?_, hmode, rfl⟩)
            exact Bool.false_ne_true (haccepted.symm.trans hgets.accepted)
          | true => exact .inr (.inr (.inr ⟨⟨hchange, hallowed, fun _ => hnone, haccepted⟩, hmode, rfl⟩))
      · have hmode : (s.dev d).mode = .none := not_not.mp (mt hopposite.mpr hother)
        have hinit : rtWlanDevInit env (s.dev d) mode = _ := rtWlanDevInit_eq hmax hallowed
        rw [if_neg hother]
        simp only [ne_eq, not_true_eq_false, if_false, hinit]
        cases haccepted : env.initOk mode with
        | false =>
          refine .inl ⟨fun hgets => ?_, rfl⟩
          exact Bool.false_ne_true (haccepted.symm.trans hgets.accepted)
        | true =>
          exact .inr (.inr (.inl ⟨⟨hchange, hallowed, fun heq => absurd heq hother, haccepted⟩,
            hmode, rfl⟩))

/-- A role that no other device has is free for a device with another mode. -/
theorem RoleInv.role_free (h : RoleInv s) (hrole : mode.IsRole) (hchange : (s.dev d).mode ≠ mode)
    (hown : ∀ d', s.role mode = some d' → d' = d) : s.role mode = none := by
  rw [← Option.not_isSome_iff_eq_none, Option.isSome_iff_exists]
  rintro ⟨d', hheld⟩
  obtain rfl := hown d' hheld
  rcases hrole with rfl | rfl
  · exact hchange ((h d').sta.mpr hheld)
  · exact hchange ((h d').ap.mpr hheld)

/-- After a call for a role, everything fits exactly when the call takes the role from no
other device. -/
theorem dispatchOnce_role_iff (h : RoleInv s) (env : SetModeEnv) (d : δ) (hrole : mode.IsRole) :
    (DispatchOnce (rtWlanSetMode env (.device d) mode s).2 →
        GetsRole s env mode d → ∀ d', s.role mode = some d' → d' = d) ∧
      ((GetsRole s env mode d → ∀ d', s.role mode = some d' → d' = d) →
        RoleInv (rtWlanSetMode env (.device d) mode s).2) := by
  rcases rtWlanSetMode_role h env d hrole with ⟨hnot, heq⟩ | ⟨hnot, hmode, heq⟩ |
    ⟨hgets, hmode, heq⟩ | ⟨hgets, hmode, heq⟩
  · rw [heq]
    exact ⟨fun _ hgets => absurd hgets hnot, fun _ => h⟩
  · rw [heq]
    exact ⟨fun _ hgets => absurd hgets hnot, fun _ => (setRole_none h env hmode).1⟩
  · rw [heq]
    constructor
    · intro honce _ d' hheld
      by_contra hd
      exact not_dispatchOnce_setRole h env hd hrole hheld honce
    · intro hown
      exact setRole_role h env hmode hrole (h.role_free hrole hgets.change (hown hgets))
  · obtain ⟨hinv, hroles⟩ := setRole_none h env hmode
    rw [heq]
    constructor
    · intro honce _ d' hheld
      by_contra hd
      exact not_dispatchOnce_setRole hinv env hd hrole ((hroles mode d').mpr ⟨hheld, hd⟩) honce
    · intro hown
      have hfree := h.role_free hrole hgets.change (hown hgets)
      have hmode' : ((setRole env s d .none).dev d).mode = .none := by
        by_contra hne
        rcases hinv.role_of_mode hne with hsta | hap
        · exact ((hroles .station d).mp hsta).2 rfl
        · exact ((hroles .ap d).mp hap).2 rfl
      refine setRole_role hinv env hmode' hrole ?_
      rw [← Option.not_isSome_iff_eq_none, Option.isSome_iff_exists]
      rintro ⟨d', hheld⟩
      have hold := ((hroles mode d').mp hheld).1
      rw [hfree] at hold
      exact nomatch hold

/-- Calls without a device, or for no role, keep everything in place. -/
theorem roleInv_of_not_role (h : RoleInv s) (env : SetModeEnv) (name : DevName δ)
    (hrole : ¬ mode.IsRole) : RoleInv (rtWlanSetMode env name mode s).2 := by
  cases mode with
  | station => exact absurd (.inl rfl) hrole
  | ap => exact absurd (.inr rfl) hrole
  | modeMax => exact h
  | none =>
    cases name with
    | null => exact h
    | unknown => exact h
    | device d =>
      rw [rtWlanSetMode, setModeBody_none]
      by_cases hmode : (s.dev d).mode = .none
      · rw [if_pos hmode]
        exact h
      · rw [if_neg hmode]
        split
        · exact (setRole_none h env hmode).1
        · exact h

/-- Both branches leave the same state behind. -/
theorem apply_ite_right {α β : Type*} {P : Prop} [Decidable P] {p q : α × β} {b : β}
    (hp : p.2 = b) (hq : q.2 = b) : (if P then p else q).2 = b := by
  split
  · exact hp
  · exact hq

theorem roleInv_of_no_device (h : RoleInv s) (env : SetModeEnv) {name : DevName δ}
    (hname : ∀ d, name ≠ .device d) : RoleInv (rtWlanSetMode env name mode s).2 := by
  have hsame : (rtWlanSetMode env name mode s).2 = s := by
    cases name with
    | null => exact apply_ite_right rfl rfl
    | unknown => exact apply_ite_right rfl rfl
    | device d => exact absurd rfl (hname d)
  rw [hsame]
  exact h

/-- A call leaves everything fitting exactly when it takes no role from another device. -/
theorem setModeCall_iff (h : RoleInv s) (call : SetModeCall δ) :
    (DispatchOnce (rtWlanSetMode call.env call.name call.mode s).2 → CallKeepsRoles s call) ∧
      (CallKeepsRoles s call → RoleInv (rtWlanSetMode call.env call.name call.mode s).2) := by
  constructor
  · intro honce d hname hrole hgets
    rw [hname] at honce
    exact (dispatchOnce_role_iff h call.env d hrole).1 honce hgets
  · intro hkeeps
    by_cases hrole : call.mode.IsRole
    · cases hname : call.name with
      | device d => exact (dispatchOnce_role_iff h call.env d hrole).2 (hkeeps d hname hrole)
      | null => exact roleInv_of_no_device h call.env nofun
      | unknown => exact roleInv_of_no_device h call.env nofun
    · exact roleInv_of_not_role h call.env call.name hrole

end Roles

/-! ## Over all histories -/

section Histories

variable {δ : Type*} [DecidableEq δ]

/-- Devices that have just been registered. -/
def MgntDevices.registered (apOnly staOnly : δ → Bool) : MgntDevices δ where
  dev d := .registered (apOnly d) (staOnly d)
  sta := none
  ap := none

theorem roleInv_registered (apOnly staOnly : δ → Bool) :
    RoleInv (.registered apOnly staOnly : MgntDevices δ) := fun _ =>
  ⟨⟨nofun, nofun⟩, ⟨nofun, nofun⟩, nofun, fun _ => Nat.zero_le _, rfl, rfl⟩

/-- In every state of a history no event is dispatched twice or for a lost role, exactly when
no call of the history gives a role to one device while another one has it. -/
theorem allDispatchOnce_iff (apOnly staOnly : δ → Bool) (calls : List (SetModeCall δ)) :
    modes.AllSteps (fun _ _ s' => DispatchOnce s') (.registered apOnly staOnly) calls ↔
      modes.Admitted CallKeepsRoles (.registered apOnly staOnly) calls := by
  refine Machine.allSteps_iff_admitted (I := RoleInv) (fun s call h => ?_)
    (fun s call mid hkeeps hstep h => ?_) calls (roleInv_registered apOnly staOnly)
  · obtain ⟨hforward, hback⟩ := setModeCall_iff h call
    refine ⟨fun hall => hforward (hall _ rfl), fun hkeeps mid hstep => ?_⟩
    obtain rfl := Option.some.inj hstep
    exact (hback hkeeps).dispatchOnce
  · obtain rfl := Option.some.inj hstep
    exact (setModeCall_iff h call).2 hkeeps

/-- A driver that accepts everything. -/
def SetModeEnv.accepting : SetModeEnv where
  initOk _ := true
  protFound := true
  protAttached := true

/-- Two devices made the station one after the other: the first keeps its registrations. -/
theorem not_allDispatchOnce_two_stations :
    ¬ modes.AllSteps (fun _ _ s' => DispatchOnce s')
      (.registered (fun _ => false) (fun _ => false) : MgntDevices Bool)
      [⟨.device false, .station, .accepting⟩, ⟨.device true, .station, .accepting⟩] := by
  intro h
  have honce := ((h _ rfl).2 _ rfl).1 false .connectFail
  have hsta := (honce.2 (by decide +kernel)).1 (by decide)
  revert hsta
  decide +kernel

end Histories

end Gd32Vw553h.Wlan
