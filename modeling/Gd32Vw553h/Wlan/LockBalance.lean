/-
  Wlan/LockBalance.lean --- the caller's hold on `mgnt_mutex` across the management
  functions (`components/drivers/wlan/dev_wlan_mgnt.c`).

  Every function below returns its error code and the hold count it leaves behind.
  What the driver answers, which allocations succeed, which events arrive in time
  and what the shared state holds when a function looks at it are its environment.
  Two slips unbalance the count: `rt_wlan_complete_create` unlocks when it runs out
  of memory, although all its callers unlock as well, and `rt_wlan_connect` returns
  without unlocking when its scan fails.  `mgntCall_keeps_iff` says exactly when a
  call leaves the count as it found it.
-/
import Gd32Vw553h.Foundation.RecursiveMutex
import Gd32Vw553h.Wlan.Cfg
import Gd32Vw553h.Wlan.Roles

set_option autoImplicit false

namespace Gd32Vw553h.Wlan.Lock

open Gd32Vw553h.Foundation Gd32Vw553h.Klibc

/-! ## The mutex and the completion -/

/-- `RT_MUTEX_HOLD_MAX` -/
abbrev rtMutexHoldMax : Nat := 255

/-- `MGNT_LOCK()`: the thread waits until it owns the mutex. -/
def mgntLock (hold : Nat) : Nat := takeHold rtMutexHoldMax hold

/-- `MGNT_UNLOCK()` -/
def mgntUnlock (hold : Nat) : Nat := releaseHold hold

/-- `rt_mutex_take(&mgnt_mutex, 0)`; `owned` says that another thread owns the mutex. -/
def mgntTryLock (owned : Bool) (hold : Nat) : Bool × Nat :=
  if hold = 0 then
    if owned then (false, hold) else (true, mgntLock hold)
  else if hold < rtMutexHoldMax then (true, mgntLock hold)
  else (false, hold)

/-- What `rt_wlan_complete_create` meets. -/
structure CreateEnv where
  /-- `rt_malloc` succeeds -/
  memory : Bool
  /-- an entry of `complete_tab` is free -/
  slot : Bool

/-- `rt_wlan_complete_create` -/
def rtWlanCompleteCreate (env : CreateEnv) (hold : Nat) : Bool × Nat :=
  if !env.memory then (false, mgntUnlock hold)
  else if !env.slot then (false, hold)
  else (true, hold)

/-- An operation that is waited for, with the mutex held: the shape that `rt_wlan_connect`,
`rt_wlan_disconnect`, `rt_wlan_start_ap`, `rt_wlan_ap_stop` and `rt_wlan_scan_with_info`
share.  `noComplete`, `failed` and `missed` are the error codes of the function. -/
def waitedOperation (env : CreateEnv) (noComplete : Int) (operation : Nat → Int × Nat)
    (failed : Int → Int) (event : RtWlanDevEvent) (recved : UInt32) (missed : Int) (hold : Nat) :
    Int × Nat :=
  let complete := rtWlanCompleteCreate env hold
  if !complete.1 then (noComplete, mgntUnlock complete.2)
  else
    let started := operation complete.2
    if started.1 ≠ 0 then (failed started.1, mgntUnlock started.2)
    else if recved &&& event.bit = 0 then (missed, mgntUnlock started.2)
    else (started.1, mgntUnlock started.2)

/-! ## The station -/

/-- `rt_wlan_disconnect`; `driver` is what `rt_wlan_dev_disconnect` returns. -/
structure DisconnectEnv where
  device : Bool
  create : CreateEnv
  driver : Int
  recved : UInt32

def rtWlanDisconnect (env : DisconnectEnv) (hold : Nat) : Int × Nat :=
  if !env.device then (-rtEIo, hold)
  else
    waitedOperation env.create (-rtENoMem) (fun hold => (env.driver, hold)) id .disconnect
      env.recved (-rtError) (mgntLock hold)

/-- `rt_wlan_connect_adv`; `station` is `_sta_mgnt` as found under the mutex. -/
structure ConnectAdvEnv where
  device : Bool
  station : StaMgnt
  disconnect : DisconnectEnv
  fastConnect : Int
  connect : Int

/-- `rt_strlen` of the password, 0 without one -/
def passwordLen (password : Option (List UInt8)) : Nat := (password.map rtStrlen).getD 0

/-- `rt_wlan_is_connected` -/
def isConnected (station : StaMgnt) : Bool := station.device && station.connected

/-- The join at the end of `rt_wlan_connect_adv`, with the mutex held. -/
def joinStation (env : ConnectAdvEnv) (hold : Nat) : Int × Nat :=
  if env.fastConnect = 0 then (0, mgntUnlock hold)
  else if env.connect ≠ 0 then (env.connect, mgntUnlock hold)
  else (0, mgntUnlock hold)

def rtWlanConnectAdv (env : ConnectAdvEnv) (info : Option RtWlanInfo)
    (password : Option (List UInt8)) (hold : Nat) : Int × Nat :=
  if !env.device then (-rtEIo, hold)
  else
    match info with
    | none => (-rtEInval, hold)
    | some info =>
      if passwordLen password > rtWlanPasswordMaxLength then (-rtEInval, hold)
      else if info.ssid.len = 0 ∨ info.ssid.len.toNat > rtWlanSsidMaxLength then
        (-rtEInval, hold)
      else
        let hold := mgntLock hold
        if isConnected env.station then
          if alreadyConnected info ((password.getD []).take (passwordLen password)) env.station
          then (0, mgntUnlock hold)
          else
            let disconnected := rtWlanDisconnect env.disconnect hold
            if disconnected.1 ≠ 0 then (disconnected.1, mgntUnlock disconnected.2)
            else joinStation env disconnected.2
        else joinStation env hold

/-- `rt_wlan_scan` -/
def rtWlanScan (device : Bool) (driver : Int) (hold : Nat) : Int × Nat :=
  if !device then (-rtEIo, hold) else (driver, mgntUnlock (mgntLock hold))

/-- `rt_wlan_scan_with_info`; `driver` is what `rt_wlan_dev_scan` returns. -/
structure ScanEnv where
  device : Bool
  create : CreateEnv
  driver : Int
  recved : UInt32

def rtWlanScanWithInfo (env : ScanEnv) (info : Option RtWlanInfo) (hold : Nat) : Int × Nat :=
  if !env.device then (-rtEInval, hold)
  else if ¬ ScanSsidFits info then (-rtEInval, hold)
  else
    waitedOperation env.create (-rtEIo) (fun hold => (env.driver, hold)) (fun _ => -rtError)
      .scanDone env.recved (-rtETimeout) (mgntLock hold)

/-- `RT_WLAN_EVT_MAX` -/
abbrev rtWlanEvtMax : Nat := 10
/-- `RT_WLAN_EVT_SCAN_REPORT` -/
abbrev rtWlanEvtScanReport : Nat := 2

/-- `rt_wlan_register_event_handler` -/
def rtWlanRegisterEventHandler (event : Nat) (hold : Nat) : Int × Nat :=
  if event ≥ rtWlanEvtMax then (-rtEInval, hold) else (0, mgntUnlock (mgntLock hold))

/-- `INVALID_INFO` -/
def invalidInfo : RtWlanInfo :=
  { RtWlanInfo.zero with band := 0x7fffffff, security := securityUnknown, channel := -1 }

/-- `info` before the scan: the SSID has been copied. -/
def ssidInfo (ssid : List UInt8) : RtWlanInfo :=
  { invalidInfo with
    ssid := { len := UInt8.ofNat (rtStrlen ssid)
              val := rtMemcpy invalidInfo.ssid.val (ssid.take (rtStrlen ssid)) } }

/-- `rt_wlan_connect`; `entry` is `_sta_mgnt` as found without the mutex, and `found` is
`info` as the reports of the scan leave it. -/
structure ConnectEnv where
  entry : StaMgnt
  scan : ScanEnv
  found : RtWlanInfo
  create : CreateEnv
  adv : ConnectAdvEnv
  recved : UInt32

def rtWlanConnect (env : ConnectEnv) (ssid password : Option (List UInt8)) (hold : Nat) :
    Int × Nat :=
  if !env.entry.device then (-rtEIo, hold)
  else
    match ssid with
    | none => (-rtEInval, hold)
    | some ssid =>
      if rtStrlen ssid > rtWlanSsidMaxLength then (-rtEInval, hold)
      else if isConnected env.entry ∧ cString env.entry.info.ssid.val.toList = cString ssid then
        (0, hold)
      else
        let registered := rtWlanRegisterEventHandler rtWlanEvtScanReport (mgntLock hold)
        if registered.1 ≠ 0 then registered
        else
          let scanned := rtWlanScanWithInfo env.scan (some (ssidInfo ssid)) registered.2
          -- the mutex stays taken
          if scanned.1 ≠ 0 then scanned
          else if env.found.channel ≤ 0 then (-rtError, mgntUnlock scanned.2)
          else
            let info := { env.found with ssid := (ssidInfo ssid).ssid }
            waitedOperation env.create (-rtENoMem)
              (rtWlanConnectAdv env.adv (some info) password) id .connect env.recved (-rtError)
              scanned.2

/-- `rt_wlan_auto_connect_run` -/
structure AutoConnectEnv where
  /-- another thread owns the mutex -/
  owned : Bool
  /-- `_is_do_connect()` -/
  doConnect : Bool
  /-- `rt_wlan_cfg_read_index` -/
  readIndex : UInt32 → Option RtWlanCfgInfo
  /-- `rt_wlan_cfg_get_num()` -/
  num : UInt32
  connect : ConnectEnv

/-- The `password` of `rt_wlan_auto_connect_run`. -/
def savedPassword (cfgInfo : RtWlanCfgInfo) : Option (List UInt8) :=
  if cfgInfo.key.len > 0 ∧ cfgInfo.key.len.toNat ≤ rtWlanPasswordMaxLength then
    some (cfgInfo.key.val.setIfInBounds cfgInfo.key.len.toNat 0).toList
  else none

/-- `rt_wlan_auto_connect_run`; the result is `id` and the hold count. -/
def rtWlanAutoConnectRun (env : AutoConnectEnv) (id : UInt32) (hold : Nat) : UInt32 × Nat :=
  let taken := mgntTryLock env.owned hold
  if !taken.1 then (id, mgntUnlock taken.2)
  else if !env.doConnect then (0, mgntUnlock taken.2)
  else
    match env.readIndex id with
    | none => (0, mgntUnlock taken.2)
    | some cfgInfo =>
      let connected := rtWlanConnect env.connect (some cfgInfo.info.ssid.val.toList)
        (savedPassword cfgInfo) taken.2
      (if id + 1 ≥ env.num then 0 else id + 1, mgntUnlock connected.2)

/-! ## The access point -/

/-- `_ap_mgnt` as found under the mutex. -/
structure ApMgnt where
  /-- `rt_wlan_ap_is_active()` -/
  active : Bool
  info : RtWlanInfo
  key : RtWlanKey

/-- The test of `rt_wlan_start_ap_adv`; the last comparison is for keys that differ. -/
def alreadyStarted (info : RtWlanInfo) (password : List UInt8) (m : ApMgnt) : Bool :=
  m.info.ssid.len == info.ssid.len &&
    m.info.security == info.security &&
    m.info.channel == info.channel &&
    m.info.hidden == info.hidden &&
    m.key.len.toNat == password.length &&
    m.info.ssid.val.toList.take info.ssid.len.toNat ==
      info.ssid.val.toList.take info.ssid.len.toNat &&
    m.key.val.toList.take password.length != password

/-- `rt_wlan_start_ap_adv`; `driver` is what `rt_wlan_dev_ap_start` returns. -/
structure StartApAdvEnv where
  device : Bool
  ap : ApMgnt
  driver : Int

def rtWlanStartApAdv (env : StartApAdvEnv) (info : RtWlanInfo) (password : Option (List UInt8))
    (hold : Nat) : Int × Nat :=
  if !env.device then (-rtEIo, hold)
  else if passwordLen password > rtWlanPasswordMaxLength then (-rtEInval, hold)
  else
    let hold := mgntLock hold
    if env.ap.active ∧
        alreadyStarted info ((password.getD []).take (passwordLen password)) env.ap then
      (0, mgntUnlock hold)
    else if env.driver ≠ 0 then (env.driver, mgntUnlock hold)
    else (0, mgntUnlock hold)

/-- `info` of `rt_wlan_start_ap`.  An SSID that is too long is only logged; what is copied
beyond `info.ssid.val` lands in memory that has no place here. -/
def apInfo (ssid : List UInt8) (password : Option (List UInt8)) : RtWlanInfo :=
  { RtWlanInfo.zero with
    security := if password.isSome then 0x00400004 else 0
    channel := 6
    band := 1
    ssid := { len := UInt8.ofNat (rtStrlen ssid)
              val := rtMemcpy RtWlanSsid.zero.val (ssid.take (rtStrlen ssid)) } }

/-- `rt_wlan_start_ap` -/
structure StartApEnv where
  device : Bool
  create : CreateEnv
  adv : StartApAdvEnv
  recved : UInt32

def rtWlanStartAp (env : StartApEnv) (ssid password : Option (List UInt8)) (hold : Nat) :
    Int × Nat :=
  if !env.device then (-rtEIo, hold)
  else
    match ssid with
    | none => (-rtEInval, hold)
    | some ssid =>
      waitedOperation env.create (-rtENoMem)
        (rtWlanStartApAdv env.adv (apInfo ssid password) password) id .apStart env.recved
        (-rtError) (mgntLock hold)

/-- `rt_wlan_ap_stop`; `driver` is what `rt_wlan_dev_ap_stop` returns. -/
structure ApStopEnv where
  device : Bool
  create : CreateEnv
  driver : Int
  recved : UInt32

def rtWlanApStop (env : ApStopEnv) (hold : Nat) : Int × Nat :=
  if !env.device then (-rtEIo, hold)
  else
    waitedOperation env.create (-rtENoMem) (fun hold => (env.driver, hold)) id .apStop
      env.recved (-rtError) (mgntLock hold)

/-! ## The mode of a device -/

/-- `rt_wlan_set_mode`: the device as found under the mutex. -/
structure SetModeEnv where
  mode : RtWlanMode
  apOnly : Bool
  staOnly : Bool
  isStaDevice : Bool
  isApDevice : Bool
  /-- `rt_wlan_dev_init` -/
  init : Int

/-- `rt_wlan_set_mode`, `setNone` being the call of itself with `RT_WLAN_NONE`. -/
def setModeBody (setNone : Nat → Int × Nat) (env : SetModeEnv) (mode : RtWlanMode)
    (hold : Nat) : Int × Nat :=
  let hold := mgntLock hold
  if env.mode = mode then (0, mgntUnlock hold)
  else if mode = .station ∧ env.apOnly = true then (-rtError, mgntUnlock hold)
  else if mode = .ap ∧ env.staOnly = true then (-rtError, mgntUnlock hold)
  else
    let changed :=
      if mode = .station ∧ env.isApDevice = true ∨ mode = .ap ∧ env.isStaDevice = true then
        setNone hold
      else (0, hold)
    if changed.1 ≠ 0 then (changed.1, mgntUnlock changed.2)
    else if env.init ≠ 0 then (env.init, mgntUnlock changed.2)
    else (0, mgntUnlock changed.2)

def rtWlanSetMode {δ : Type*} (env noneEnv : SetModeEnv) (name : DevName δ) (mode : RtWlanMode)
    (hold : Nat) : Int × Nat :=
  if mode = .modeMax then (-rtEInval, hold)
  else
    match name with
    | .null => (-rtEInval, hold)
    | .unknown => (-rtEIo, hold)
    | .device _ => setModeBody (setModeBody (fun hold => (0, hold)) noneEnv .none) env mode hold

/-! ## The calls -/

/-- The public functions and the auto-connect work, with their arguments and what they
meet. -/
inductive MgntCall where
  | setMode (env noneEnv : SetModeEnv) (name : DevName String) (mode : RtWlanMode)
  | connect (env : ConnectEnv) (ssid password : Option (List UInt8))
  | connectAdv (env : ConnectAdvEnv) (info : Option RtWlanInfo) (password : Option (List UInt8))
  | disconnect (env : DisconnectEnv)
  | startAp (env : StartApEnv) (ssid password : Option (List UInt8))
  | startApAdv (env : StartApAdvEnv) (info : RtWlanInfo) (password : Option (List UInt8))
  | apStop (env : ApStopEnv)
  | scan (device : Bool) (driver : Int)
  | scanWithInfo (env : ScanEnv) (info : Option RtWlanInfo)
  | registerEventHandler (event : Nat)
  | autoConnectRun (env : AutoConnectEnv) (id : UInt32)

/-- The hold count on return. -/
def MgntCall.run : MgntCall → Nat → Nat
  | setMode env noneEnv name mode, hold => (rtWlanSetMode env noneEnv name mode hold).2
  | connect env ssid password, hold => (rtWlanConnect env ssid password hold).2
  | connectAdv env info password, hold => (rtWlanConnectAdv env info password hold).2
  | disconnect env, hold => (rtWlanDisconnect env hold).2
  | startAp env ssid password, hold => (rtWlanStartAp env ssid password hold).2
  | startApAdv env info password, hold => (rtWlanStartApAdv env info password hold).2
  | apStop env, hold => (rtWlanApStop env hold).2
  | scan device driver, hold => (rtWlanScan device driver hold).2
  | scanWithInfo env info, hold => (rtWlanScanWithInfo env info hold).2
  | registerEventHandler event, hold => (rtWlanRegisterEventHandler event hold).2
  | autoConnectRun env id, hold => (rtWlanAutoConnectRun env id hold).2

/-! ## What each call does to the count -/

/-- An operation between the creation of a completion and the unlock: without memory the
creation unlocks, and the operation does not run. -/
def CreateEnv.guard (env : CreateEnv) (e : HoldEffect) : HoldEffect :=
  if !env.memory then .released 0 else if !env.slot then .paired 0 else e

/-- A function that locks, creates its completion and has the effect `e` in between. -/
def lockedEffect (device : Bool) (env : CreateEnv) (e : HoldEffect) : HoldEffect :=
  if !device then .paired 0 else (env.guard e).within

def ConnectAdvEnv.effect (env : ConnectAdvEnv) (info : Option RtWlanInfo)
    (password : Option (List UInt8)) : HoldEffect :=
  if !env.device then .paired 0
  else
    match info with
    | none => .paired 0
    | some info =>
      if passwordLen password > rtWlanPasswordMaxLength then .paired 0
      else if info.ssid.len = 0 ∨ info.ssid.len.toNat > rtWlanSsidMaxLength then .paired 0
      else if isConnected env.station ∧
          ¬ alreadyConnected info ((password.getD []).take (passwordLen password)) env.station then
        (lockedEffect env.disconnect.device env.disconnect.create (.paired 0)).within
      else .paired 1

/-- The scan does not return `RT_EOK`. -/
def ScanEnv.Fails (env : ScanEnv) : Prop :=
  env.device = false ∨ env.create.memory = false ∨ env.create.slot = false ∨ env.driver ≠ 0 ∨
    env.recved &&& RtWlanDevEvent.scanDone.bit = 0

instance (env : ScanEnv) : Decidable env.Fails := inferInstanceAs (Decidable (_ ∨ _))

/-- `rt_wlan_connect` keeps the mutex when its scan fails, unless the scan has unlocked
once too often for want of memory. -/
def ConnectEnv.effect (env : ConnectEnv) (ssid password : Option (List UInt8)) : HoldEffect :=
  if !env.entry.device then .paired 0
  else
    match ssid with
    | none => .paired 0
    | some ssid =>
      if rtStrlen ssid > rtWlanSsidMaxLength then .paired 0
      else if isConnected env.entry ∧ cString env.entry.info.ssid.val.toList = cString ssid then
        .paired 0
      else if env.scan.Fails then
        if env.scan.device ∧ ¬ env.scan.create.memory then .paired 2 else .kept 1
      else if env.found.channel ≤ 0 then .paired 2
      else
        let info := { env.found with ssid := (ssidInfo ssid).ssid }
        ((env.create.guard (env.adv.effect (some info) password)).after 1).within

def AutoConnectEnv.effect (env : AutoConnectEnv) (id : UInt32) (hold : Nat) : HoldEffect :=
  if hold = 0 ∧ env.owned then .paired 0
  else if rtMutexHoldMax ≤ hold then .paired 1
  else if !env.doConnect then .paired 1
  else
    match env.readIndex id with
    | none => .paired 1
    | some cfgInfo =>
      (env.connect.effect (some cfgInfo.info.ssid.val.toList) (savedPassword cfgInfo)).within

def StartApAdvEnv.effect (env : StartApAdvEnv) (password : Option (List UInt8)) : HoldEffect :=
  if !env.device then .paired 0
  else if passwordLen password > rtWlanPasswordMaxLength then .paired 0
  else .paired 1

def SetModeEnv.effect (env : SetModeEnv) {δ : Type*} (name : DevName δ) (mode : RtWlanMode) :
    HoldEffect :=
  if mode = .modeMax then .paired 0
  else
    match name with
    | .null => .paired 0
    | .unknown => .paired 0
    | .device _ =>
      if env.mode = mode ∨ mode = .station ∧ env.apOnly = true ∨
          mode = .ap ∧ env.staOnly = true then .paired 1
      else if mode = .station ∧ env.isApDevice = true ∨ mode = .ap ∧ env.isStaDevice = true then
        .paired 2
      else .paired 1

/-- The effect of a call that begins with this hold count. -/
def MgntCall.effect : MgntCall → Nat → HoldEffect
  | setMode env _ name mode, _ => env.effect name mode
  | connect env ssid password, _ => env.effect ssid password
  | connectAdv env info password, _ => env.effect info password
  | disconnect env, _ => lockedEffect env.device env.create (.paired 0)
  | startAp env ssid password, _ =>
    lockedEffect (env.device && ssid.isSome) env.create (env.adv.effect password)
  | startApAdv env _ password, _ => env.effect password
  | apStop env, _ => lockedEffect env.device env.create (.paired 0)
  | scan device _, _ => if !device then .paired 0 else .paired 1
  | scanWithInfo env info, _ =>
    lockedEffect (env.device && ScanSsidFits info) env.create (.paired 0)
  | registerEventHandler event, _ => if event ≥ rtWlanEvtMax then .paired 0 else .paired 1
  | autoConnectRun env id, hold => env.effect id hold

/-! ## One lemma a function -/

section Specs

variable {hold : Nat}

theorem complete_hold (env : CreateEnv) {operation : Nat → Int × Nat} {e : HoldEffect}
    (noComplete : Int) (failed : Int → Int) (event : RtWlanDevEvent) (recved : UInt32)
    (missed : Int) (h : hold ≤ rtMutexHoldMax)
    (hoperation : (operation hold).2 = e.apply rtMutexHoldMax hold) :
    (waitedOperation env noComplete operation failed event recved missed hold).2 =
      mgntUnlock ((env.guard e).apply rtMutexHoldMax hold) := by
  have hsame := HoldEffect.apply_paired_zero h
  unfold waitedOperation rtWlanCompleteCreate CreateEnv.guard
  cases env.memory with
  | false =>
    show mgntUnlock (mgntUnlock hold) =
      mgntUnlock (releaseHold ((HoldEffect.paired 0).apply rtMutexHoldMax hold))
    rw [hsame]
    rfl
  | true =>
    cases env.slot with
    | false =>
      show mgntUnlock hold = mgntUnlock ((HoldEffect.paired 0).apply rtMutexHoldMax hold)
      rw [hsame]
    | true =>
      simp only [Bool.not_true, Bool.false_eq_true, if_false]
      rw [← hoperation]
      split
      · rfl
      · split
        · rfl
        · rfl

theorem guard_depth_le (env : CreateEnv) (e : HoldEffect) : (env.guard e).depth ≤ e.depth := by
  unfold CreateEnv.guard
  split
  · exact Nat.zero_le _
  · split
    · exact Nat.zero_le _
    · exact Nat.le_refl _

theorem lockedEffect_depth_le (device : Bool) (env : CreateEnv) (e : HoldEffect) :
    (lockedEffect device env e).depth ≤ e.depth + 1 := by
  unfold lockedEffect
  split
  · exact Nat.zero_le _
  · rw [HoldEffect.depth_within]
    exact Nat.succ_le_succ (guard_depth_le env e)

/-- A function that locks, creates its completion and runs an operation. -/
theorem lockedOperation_hold (env : CreateEnv) {operation : Nat → Int × Nat} {e : HoldEffect}
    (noComplete : Int) (failed : Int → Int) (event : RtWlanDevEvent) (recved : UInt32)
    (missed : Int) (h : hold ≤ rtMutexHoldMax) (hdepth : e.depth < rtMutexHoldMax)
    (hoperation : ∀ hold ≤ rtMutexHoldMax,
      (operation hold).2 = e.apply rtMutexHoldMax hold) :
    (waitedOperation env noComplete operation failed event recved missed (mgntLock hold)).2 =
      (lockedEffect true env e).apply rtMutexHoldMax hold := by
  have hlocked : mgntLock hold ≤ rtMutexHoldMax := HoldEffect.takeHold_le h
  rw [complete_hold env noComplete failed event recved missed hlocked (hoperation _ hlocked)]
  exact HoldEffect.apply_within (env.guard e) h ((guard_depth_le env e).trans_lt hdepth)

theorem apply_paired_one (h : hold ≤ rtMutexHoldMax) :
    (HoldEffect.paired 1).apply rtMutexHoldMax hold = mgntUnlock (mgntLock hold) := by
  have hlocked := HoldEffect.takeHold_le h
  have hwithin := HoldEffect.apply_within (.paired 0) h (by decide)
  rw [HoldEffect.apply_paired_zero hlocked] at hwithin
  exact hwithin.symm

theorem apply_paired_zero (h : hold ≤ rtMutexHoldMax) :
    (HoldEffect.paired 0).apply rtMutexHoldMax hold = hold := HoldEffect.apply_paired_zero h

theorem rtWlanDisconnect_hold (env : DisconnectEnv) (h : hold ≤ rtMutexHoldMax) :
    (rtWlanDisconnect env hold).2 =
      (lockedEffect env.device env.create (.paired 0)).apply rtMutexHoldMax hold := by
  unfold rtWlanDisconnect
  cases env.device with
  | false => exact (apply_paired_zero h).symm
  | true =>
    exact lockedOperation_hold env.create _ _ _ _ _ h (by decide) fun _ hle =>
      (apply_paired_zero hle).symm

theorem rtWlanApStop_hold (env : ApStopEnv) (h : hold ≤ rtMutexHoldMax) :
    (rtWlanApStop env hold).2 =
      (lockedEffect env.device env.create (.paired 0)).apply rtMutexHoldMax hold := by
  unfold rtWlanApStop
  cases env.device with
  | false => exact (apply_paired_zero h).symm
  | true =>
    exact lockedOperation_hold env.create _ _ _ _ _ h (by decide) fun _ hle =>
      (apply_paired_zero hle).symm

theorem rtWlanScanWithInfo_hold (env : ScanEnv) (info : Option RtWlanInfo)
    (h : hold ≤ rtMutexHoldMax) :
    (rtWlanScanWithInfo env info hold).2 =
      (lockedEffect (env.device && ScanSsidFits info) env.create (.paired 0)).apply
        rtMutexHoldMax hold := by
  unfold rtWlanScanWithInfo
  cases env.device with
  | false => exact (apply_paired_zero h).symm
  | true =>
    by_cases hfits : ScanSsidFits info
    · simp only [hfits, decide_true, Bool.and_self, Bool.not_true, Bool.false_eq_true,
        not_true_eq_false, if_false]
      exact lockedOperation_hold env.create _ _ _ _ _ h (by decide) fun _ hle =>
        (apply_paired_zero hle).symm
    · simp only [hfits, decide_false, Bool.and_false, Bool.not_true, Bool.false_eq_true,
        not_false_eq_true, if_false, if_true]
      exact (apply_paired_zero h).symm

/-- When the scan of an SSID within the limit does not return `RT_EOK`. -/
theorem rtWlanScanWithInfo_error (env : ScanEnv) {info : Option RtWlanInfo}
    (hfits : ScanSsidFits info) (hold : Nat) :
    (rtWlanScanWithInfo env info hold).1 ≠ 0 ↔ env.Fails := by
  have hinval : -rtEInval ≠ 0 := by decide
  have hio : -rtEIo ≠ 0 := by decide
  have herror : -rtError ≠ 0 := by decide
  have htimeout : -rtETimeout ≠ 0 := by decide
  unfold rtWlanScanWithInfo waitedOperation rtWlanCompleteCreate ScanEnv.Fails
  cases env.device with
  | false => exact iff_of_true hinval (.inl rfl)
  | true =>
    simp only [hfits, Bool.not_true, Bool.false_eq_true, not_true_eq_false, if_false,
      reduceCtorEq, false_or]
    cases env.create.memory with
    | false => exact iff_of_true hio (.inl rfl)
    | true =>
      cases env.create.slot with
      | false => exact iff_of_true hio (.inr (.inl rfl))
      | true =>
        simp only [Bool.not_true, Bool.false_eq_true, if_false, reduceCtorEq, false_or]
        by_cases hdriver : env.driver = 0
        · simp only [hdriver, ne_eq, not_true_eq_false, if_false, false_or]
          by_cases hrecved : env.recved &&& RtWlanDevEvent.scanDone.bit = 0
          · rw [if_pos hrecved]
            exact iff_of_true htimeout hrecved
          · rw [if_neg hrecved]
            exact iff_of_false (fun hne => hne rfl) hrecved
        · rw [if_pos hdriver]
          exact iff_of_true herror (.inl hdriver)

theorem joinStation_hold (env : ConnectAdvEnv) (hold : Nat) :
    (joinStation env hold).2 = mgntUnlock hold := by
  unfold joinStation
  split
  · rfl
  · split
    · rfl
    · rfl

theorem rtWlanConnectAdv_hold (env : ConnectAdvEnv) (info : Option RtWlanInfo)
    (password : Option (List UInt8)) (h : hold ≤ rtMutexHoldMax) :
    (rtWlanConnectAdv env info password hold).2 =
      (env.effect info password).apply rtMutexHoldMax hold := by
  have hzero := (apply_paired_zero h).symm
  have hone := (apply_paired_one h).symm
  unfold rtWlanConnectAdv ConnectAdvEnv.effect
  cases env.device with
  | false => exact hzero
  | true =>
    cases info with
    | none => exact hzero
    | some info =>
      simp only [Bool.not_true, Bool.false_eq_true, if_false]
      by_cases hpassword : passwordLen password > rtWlanPasswordMaxLength
      · rw [if_pos hpassword, if_pos hpassword]
        exact hzero
      · rw [if_neg hpassword, if_neg hpassword]
        by_cases hssid : info.ssid.len = 0 ∨ info.ssid.len.toNat > rtWlanSsidMaxLength
        · rw [if_pos hssid, if_pos hssid]
          exact hzero
        · rw [if_neg hssid, if_neg hssid]
          cases hconnected : isConnected env.station with
          | false =>
            simp only [Bool.false_eq_true, if_false, false_and]
            exact (joinStation_hold env _).trans hone
          | true =>
            by_cases halready : alreadyConnected info
                ((password.getD []).take (passwordLen password)) env.station
            · simp only [halready, if_true, not_true_eq_false, and_false, if_false]
              exact hone
            · simp only [halready, if_true, Bool.false_eq_true, not_false_eq_true, and_self,
                if_false]
              -- the disconnect leaves the same count whether it succeeds or not
              have hdisconnect := rtWlanDisconnect_hold env.disconnect
                (HoldEffect.takeHold_le h : mgntLock hold ≤ rtMutexHoldMax)
              have hwithin := HoldEffect.apply_within
                (lockedEffect env.disconnect.device env.disconnect.create (.paired 0)) h
                ((lockedEffect_depth_le _ _ _).trans_lt (by decide))
              rw [← hwithin]
              split
              · exact congrArg mgntUnlock hdisconnect
              · rw [joinStation_hold]
                exact congrArg mgntUnlock hdisconnect

theorem connectAdv_depth_le (env : ConnectAdvEnv) (info : Option RtWlanInfo)
    (password : Option (List UInt8)) : (env.effect info password).depth ≤ 2 := by
  have hdisconnect := lockedEffect_depth_le env.disconnect.device env.disconnect.create (.paired 0)
  unfold ConnectAdvEnv.effect
  split
  · exact Nat.zero_le _
  · split
    · exact Nat.zero_le _
    · split
      · exact Nat.zero_le _
      · split
        · exact Nat.zero_le _
        · split
          · rw [HoldEffect.depth_within]
            exact Nat.succ_le_succ hdisconnect
          · exact Nat.le_succ 1

/-- What `rt_wlan_connect` nests in its own lock after the scan. -/
theorem connectTail_depth_le (env : ConnectEnv) (password : Option (List UInt8))
    (info : RtWlanInfo) :
    ((env.create.guard (env.adv.effect (some info) password)).after 1).depth ≤ 2 := by
  have hafter := HoldEffect.depth_after_le 1
    (env.create.guard (env.adv.effect (some info) password))
  have hguard := guard_depth_le env.create (env.adv.effect (some info) password)
  have hadv := connectAdv_depth_le env.adv (some info) password
  omega

theorem ssidInfo_fits {ssid : List UInt8} (hlen : ¬ rtStrlen ssid > rtWlanSsidMaxLength) :
    ScanSsidFits (some (ssidInfo ssid)) := by
  intro info hinfo
  obtain rfl : ssidInfo ssid = info := Option.mem_some_iff.mp hinfo
  have hle : rtStrlen ssid ≤ 32 := Nat.not_lt.mp hlen
  show (UInt8.ofNat (rtStrlen ssid)).toNat ≤ 32
  rw [UInt8.toNat_ofNat']
  omega

/-- The first half of `rt_wlan_connect`, with the mutex taken. -/
theorem scanned_hold (env : ScanEnv) {info : Option RtWlanInfo} (hfits : ScanSsidFits info)
    (h : hold ≤ rtMutexHoldMax) :
    (rtWlanScanWithInfo env info (mgntUnlock (mgntLock (mgntLock hold)))).2 =
      (if env.device ∧ ¬ env.create.memory then HoldEffect.paired 2 else .kept 1).apply
        rtMutexHoldMax hold := by
  have hlocked : mgntLock hold ≤ rtMutexHoldMax := HoldEffect.takeHold_le h
  have hregistered : mgntUnlock (mgntLock (mgntLock hold)) ≤ rtMutexHoldMax := by
    rw [← apply_paired_one hlocked]
    exact (Nat.min_le_left _ _).trans hlocked
  have hkept : ∀ d ≤ 1, (HoldEffect.paired d).apply rtMutexHoldMax
      ((HoldEffect.paired 1).apply rtMutexHoldMax (mgntLock hold)) =
        (HoldEffect.kept 1).apply rtMutexHoldMax hold := by
    intro d hd
    rw [HoldEffect.apply_after _ 1 hlocked (by decide)]
    show (HoldEffect.paired (max 1 d)).apply rtMutexHoldMax (mgntLock hold) = _
    rw [Nat.max_eq_left hd]
    rfl
  rw [rtWlanScanWithInfo_hold env info hregistered, ← apply_paired_one hlocked]
  simp only [hfits, decide_true, Bool.and_true]
  unfold lockedEffect CreateEnv.guard
  cases hdevice : env.device with
  | false => exact hkept 0 (Nat.zero_le 1)
  | true =>
    cases hmemory : env.create.memory with
    | false =>
      have htwice := HoldEffect.apply_within (.paired 1) h (by decide)
      have hagain : (HoldEffect.paired 1).apply rtMutexHoldMax
          ((HoldEffect.paired 1).apply rtMutexHoldMax (mgntLock hold)) =
            (HoldEffect.paired 1).apply rtMutexHoldMax (mgntLock hold) :=
        HoldEffect.apply_after (.paired 1) 1 hlocked (by decide)
      exact (congrArg releaseHold hagain).trans htwice
    | true =>
      cases env.create.slot with
      | false => exact hkept 1 (Nat.le_refl 1)
      | true => exact hkept 1 (Nat.le_refl 1)

theorem rtWlanConnect_hold (env : ConnectEnv) (ssid password : Option (List UInt8))
    (h : hold ≤ rtMutexHoldMax) :
    (rtWlanConnect env ssid password hold).2 =
      (env.effect ssid password).apply rtMutexHoldMax hold := by
  have hzero := (apply_paired_zero h).symm
  have hlocked : mgntLock hold ≤ rtMutexHoldMax := HoldEffect.takeHold_le h
  unfold rtWlanConnect ConnectEnv.effect
  cases env.entry.device with
  | false => exact hzero
  | true =>
    cases ssid with
    | none => exact hzero
    | some ssid =>
      simp only [Bool.not_true, Bool.false_eq_true, if_false]
      by_cases hlen : rtStrlen ssid > rtWlanSsidMaxLength
      · rw [if_pos hlen, if_pos hlen]
        exact hzero
      · rw [if_neg hlen, if_neg hlen]
        by_cases hsame : isConnected env.entry ∧
            cString env.entry.info.ssid.val.toList = cString ssid
        · rw [if_pos hsame, if_pos hsame]
          exact hzero
        · rw [if_neg hsame, if_neg hsame]
          have hfits := ssidInfo_fits hlen
          have hregister : rtWlanRegisterEventHandler rtWlanEvtScanReport (mgntLock hold) =
              (0, mgntUnlock (mgntLock (mgntLock hold))) := rfl
          simp only [hregister, ne_eq, not_true_eq_false, if_false]
          have herror := rtWlanScanWithInfo_error env.scan hfits
            (mgntUnlock (mgntLock (mgntLock hold)))
          by_cases hfails : env.scan.Fails
          · rw [if_pos (herror.mpr hfails), if_pos hfails]
            exact scanned_hold env.scan hfits h
          · rw [if_neg (mt herror.mp hfails), if_neg hfails]
            have hscan := scanned_hold env.scan hfits h
            have hmemory : ¬ (env.scan.device ∧ ¬ env.scan.create.memory) := fun hand =>
              hfails (.inr (.inl (Bool.not_eq_true _ ▸ hand.2)))
            rw [if_neg hmemory] at hscan
            by_cases hchannel : env.found.channel ≤ 0
            · rw [if_pos hchannel, if_pos hchannel, hscan]
              exact HoldEffect.apply_within (.paired 1) h (by decide)
            · rw [if_neg hchannel, if_neg hchannel]
              have hle : (rtWlanScanWithInfo env.scan (some (ssidInfo ssid))
                  (mgntUnlock (mgntLock (mgntLock hold)))).2 ≤ rtMutexHoldMax := by
                rw [hscan]
                exact (Nat.min_le_left _ _).trans hlocked
              rw [complete_hold env.create _ _ _ _ _ hle (rtWlanConnectAdv_hold _ _ _ hle), hscan]
              exact (congrArg mgntUnlock (HoldEffect.apply_after _ 1 hlocked (by decide))).trans
                (HoldEffect.apply_within _ h ((connectTail_depth_le env password _).trans_lt (by decide)))

theorem connect_depth_le (env : ConnectEnv) (ssid password : Option (List UInt8)) :
    (env.effect ssid password).depth ≤ 3 := by
  unfold ConnectEnv.effect
  split
  · exact Nat.zero_le _
  · split
    · exact Nat.zero_le _
    · split
      · exact Nat.zero_le _
      · split
        · exact Nat.zero_le _
        · split
          · split
            · exact Nat.le_succ 2
            · exact Nat.le_of_ble_eq_true rfl
          · split
            · exact Nat.le_succ 2
            · exact (HoldEffect.depth_within _).trans_le
                (Nat.succ_le_succ (connectTail_depth_le env password _))

theorem rtWlanStartApAdv_hold (env : StartApAdvEnv) (info : RtWlanInfo)
    (password : Option (List UInt8)) (h : hold ≤ rtMutexHoldMax) :
    (rtWlanStartApAdv env info password hold).2 =
      (env.effect password).apply rtMutexHoldMax hold := by
  have hzero := (apply_paired_zero h).symm
  have hone := (apply_paired_one h).symm
  unfold rtWlanStartApAdv StartApAdvEnv.effect
  cases env.device with
  | false => exact hzero
  | true =>
    simp only [Bool.not_true, Bool.false_eq_true, if_false]
    by_cases hpassword : passwordLen password > rtWlanPasswordMaxLength
    · rw [if_pos hpassword, if_pos hpassword]
      exact hzero
    · rw [if_neg hpassword, if_neg hpassword]
      split
      · exact hone
      · split
        · exact hone
        · exact hone

theorem startApAdv_depth_le (env : StartApAdvEnv) (password : Option (List UInt8)) :
    (env.effect password).depth ≤ 1 := by
  unfold StartApAdvEnv.effect
  split
  · exact Nat.zero_le _
  · split
    · exact Nat.zero_le _
    · exact Nat.le_refl _

theorem rtWlanStartAp_hold (env : StartApEnv) (ssid password : Option (List UInt8))
    (h : hold ≤ rtMutexHoldMax) :
    (rtWlanStartAp env ssid password hold).2 =
      (lockedEffect (env.device && ssid.isSome) env.create (env.adv.effect password)).apply
        rtMutexHoldMax hold := by
  unfold rtWlanStartAp
  cases env.device with
  | false => exact (apply_paired_zero h).symm
  | true =>
    cases ssid with
    | none => exact (apply_paired_zero h).symm
    | some ssid =>
      exact lockedOperation_hold env.create _ _ _ _ _ h
        ((startApAdv_depth_le env.adv password).trans_lt (by decide))
        fun _ hle => rtWlanStartApAdv_hold env.adv _ password hle

/-- The body of `rt_wlan_set_mode`, whatever the call of itself does to the count. -/
theorem setModeBody_hold {setNone : Nat → Int × Nat} (env : SetModeEnv) (mode : RtWlanMode)
    (hold : Nat) :
    (setModeBody setNone env mode hold).2 =
      if env.mode = mode ∨ mode = .station ∧ env.apOnly = true ∨
          mode = .ap ∧ env.staOnly = true then mgntUnlock (mgntLock hold)
      else if mode = .station ∧ env.isApDevice = true ∨ mode = .ap ∧ env.isStaDevice = true then
        mgntUnlock (setNone (mgntLock hold)).2
      else mgntUnlock (mgntLock hold) := by
  unfold setModeBody
  by_cases hmode : env.mode = mode
  · simp only [hmode, true_or, if_true]
  · by_cases hap : mode = .station ∧ env.apOnly = true
    · rw [if_neg hmode, if_pos hap, if_pos (.inr (.inl hap))]
    · by_cases hsta : mode = .ap ∧ env.staOnly = true
      · rw [if_neg hmode, if_neg hap, if_pos hsta, if_pos (.inr (.inr hsta))]
      · have hnone : ¬ (env.mode = mode ∨ mode = .station ∧ env.apOnly = true ∨
            mode = .ap ∧ env.staOnly = true) := by
          rintro (h | h | h)
          · exact hmode h
          · exact hap h
          · exact hsta h
        rw [if_neg hmode, if_neg hap, if_neg hsta, if_neg hnone]
        by_cases hrole : mode = .station ∧ env.isApDevice = true ∨
            mode = .ap ∧ env.isStaDevice = true
        · simp only [if_pos hrole]
          split
          · rfl
          · split
            · rfl
            · rfl
        · simp only [if_neg hrole, ne_eq, not_true_eq_false, if_false]
          split
          · rfl
          · rfl

theorem rtWlanSetMode_hold {δ : Type*} (env noneEnv : SetModeEnv) (name : DevName δ)
    (mode : RtWlanMode) (h : hold ≤ rtMutexHoldMax) :
    (rtWlanSetMode env noneEnv name mode hold).2 =
      (env.effect name mode).apply rtMutexHoldMax hold := by
  have hzero := (apply_paired_zero h).symm
  have hone := (apply_paired_one h).symm
  have hlocked : mgntLock hold ≤ rtMutexHoldMax := HoldEffect.takeHold_le h
  unfold rtWlanSetMode SetModeEnv.effect
  by_cases hmax : mode = .modeMax
  · rw [if_pos hmax, if_pos hmax]
    exact hzero
  · rw [if_neg hmax, if_neg hmax]
    cases name with
    | null => exact hzero
    | unknown => exact hzero
    | device d =>
      rw [setModeBody_hold]
      by_cases hsame : env.mode = mode ∨ mode = .station ∧ env.apOnly = true ∨
          mode = .ap ∧ env.staOnly = true
      · simp only [if_pos hsame]
        exact hone
      · simp only [if_neg hsame]
        by_cases hrole : mode = .station ∧ env.isApDevice = true ∨
            mode = .ap ∧ env.isStaDevice = true
        · simp only [if_pos hrole]
          have hinner : (setModeBody (fun hold => (0, hold)) noneEnv .none (mgntLock hold)).2 =
              (HoldEffect.paired 1).apply rtMutexHoldMax (mgntLock hold) := by
            rw [setModeBody_hold, apply_paired_one hlocked]
            simp only [reduceCtorEq, false_and, or_false, ite_self]
          rw [hinner]
          exact HoldEffect.apply_within (.paired 1) h (by decide)
        · simp only [if_neg hrole]
          exact hone

theorem mgntTryLock_eq {owned : Bool} (hfree : ¬ (hold = 0 ∧ owned = true))
    (hroom : hold < rtMutexHoldMax) : mgntTryLock owned hold = (true, mgntLock hold) := by
  unfold mgntTryLock
  by_cases hzero : hold = 0
  · rw [if_pos hzero, if_neg fun howned => hfree ⟨hzero, howned⟩]
  · rw [if_neg hzero, if_pos hroom]

theorem rtWlanAutoConnectRun_hold (env : AutoConnectEnv) (id : UInt32)
    (h : hold ≤ rtMutexHoldMax) :
    (rtWlanAutoConnectRun env id hold).2 = (env.effect id hold).apply rtMutexHoldMax hold := by
  have hone := (apply_paired_one h).symm
  have hlocked : mgntLock hold ≤ rtMutexHoldMax := HoldEffect.takeHold_le h
  unfold rtWlanAutoConnectRun AutoConnectEnv.effect
  by_cases howned : hold = 0 ∧ env.owned = true
  · obtain ⟨rfl, hother⟩ := howned
    simp only [mgntTryLock, hother, if_true, Bool.not_false, and_self]
    rfl
  · rw [if_neg howned]
    by_cases hfull : rtMutexHoldMax ≤ hold
    · obtain rfl : hold = rtMutexHoldMax := Nat.le_antisymm h hfull
      rw [if_pos hfull]
      rfl
    · rw [if_neg hfull, mgntTryLock_eq howned (Nat.not_le.mp hfull)]
      cases env.doConnect with
      | false => exact hone
      | true =>
        simp only [Bool.not_true, Bool.false_eq_true, if_false]
        cases env.readIndex id with
        | none => exact hone
        | some cfgInfo =>
          have hconnect := rtWlanConnect_hold env.connect (some cfgInfo.info.ssid.val.toList)
            (savedPassword cfgInfo) hlocked
          have hdepth := connect_depth_le env.connect (some cfgInfo.info.ssid.val.toList)
            (savedPassword cfgInfo)
          exact (congrArg mgntUnlock hconnect).trans
            (HoldEffect.apply_within _ h (hdepth.trans_lt (by decide)))

end Specs

/-! ## Every call -/

theorem MgntCall.run_eq (call : MgntCall) {hold : Nat} (h : hold ≤ rtMutexHoldMax) :
    call.run hold = (call.effect hold).apply rtMutexHoldMax hold := by
  cases call with
  | setMode env noneEnv name mode => exact rtWlanSetMode_hold env noneEnv name mode h
  | connect env ssid password => exact rtWlanConnect_hold env ssid password h
  | connectAdv env info password => exact rtWlanConnectAdv_hold env info password h
  | disconnect env => exact rtWlanDisconnect_hold env h
  | startAp env ssid password => exact rtWlanStartAp_hold env ssid password h
  | startApAdv env info password => exact rtWlanStartApAdv_hold env info password h
  | apStop env => exact rtWlanApStop_hold env h
  | scanWithInfo env info => exact rtWlanScanWithInfo_hold env info h
  | autoConnectRun env id => exact rtWlanAutoConnectRun_hold env id h
  | scan device driver =>
    cases device with
    | false => exact (apply_paired_zero h).symm
    | true => exact (apply_paired_one h).symm
  | registerEventHandler event =>
    show (rtWlanRegisterEventHandler event hold).2 =
      (if event ≥ rtWlanEvtMax then HoldEffect.paired 0 else .paired 1).apply rtMutexHoldMax hold
    unfold rtWlanRegisterEventHandler
    by_cases hevent : event ≥ rtWlanEvtMax
    · rw [if_pos hevent, if_pos hevent]
      exact (apply_paired_zero h).symm
    · rw [if_neg hevent, if_neg hevent]
      exact (apply_paired_one h).symm

theorem MgntCall.depth_le (call : MgntCall) (hold : Nat) : (call.effect hold).depth ≤ 4 := by
  cases call with
  | connect env ssid password => exact (connect_depth_le env ssid password).trans (by decide)
  | connectAdv env info password => exact (connectAdv_depth_le env info password).trans (by decide)
  | disconnect env => exact (lockedEffect_depth_le _ _ _).trans (by decide)
  | startAp env ssid password =>
    exact (lockedEffect_depth_le _ _ _).trans
      ((Nat.succ_le_succ (startApAdv_depth_le env.adv password)).trans (by decide))
  | startApAdv env info password => exact (startApAdv_depth_le env password).trans (by decide)
  | apStop env => exact (lockedEffect_depth_le _ _ _).trans (by decide)
  | scanWithInfo env info => exact (lockedEffect_depth_le _ _ _).trans (by decide)
  | setMode env noneEnv name mode =>
    show (env.effect name mode).depth ≤ 4
    unfold SetModeEnv.effect
    split
    · exact Nat.zero_le _
    · split
      · exact Nat.zero_le _
      · exact Nat.zero_le _
      · split
        · exact Nat.le_of_ble_eq_true rfl
        · split
          · exact Nat.le_of_ble_eq_true rfl
          · exact Nat.le_of_ble_eq_true rfl
  | scan device driver =>
    cases device with
    | false => exact Nat.zero_le _
    | true => exact Nat.le_of_ble_eq_true rfl
  | registerEventHandler event =>
    show (if event ≥ rtWlanEvtMax then HoldEffect.paired 0 else .paired 1).depth ≤ 4
    split
    · exact Nat.zero_le _
    · exact Nat.le_of_ble_eq_true rfl
  | autoConnectRun env id =>
    show (env.effect id hold).depth ≤ 4
    unfold AutoConnectEnv.effect
    split
    · exact Nat.zero_le _
    · split
      · exact Nat.le_of_ble_eq_true rfl
      · split
        · exact Nat.le_of_ble_eq_true rfl
        · split
          · exact Nat.le_of_ble_eq_true rfl
          · rw [HoldEffect.depth_within]
            exact Nat.succ_le_succ (connect_depth_le _ _ _)

/-- A call leaves the hold count as it found it exactly when its effect preserves it. -/
theorem mgntCall_keeps_iff (call : MgntCall) (hold : UInt8) :
    call.run hold.toNat = hold.toNat ↔
      (call.effect hold.toNat).Preserves rtMutexHoldMax hold.toNat := by
  have hle : hold.toNat ≤ rtMutexHoldMax := Nat.le_of_lt_succ hold.toNat_lt
  rw [call.run_eq hle]
  exact HoldEffect.apply_eq_iff _ hle ((call.depth_le _).trans (by decide))

/-- A station that is not connected. -/
def StaMgnt.idle : StaMgnt where
  device := true
  info := RtWlanInfo.zero
  key := RtWlanKey.zero
  connected := false
  connecting := false
  trace := []

/-- `rt_wlan_connect` when the driver refuses the scan. -/
def ConnectEnv.scanRefused : ConnectEnv where
  entry := StaMgnt.idle
  scan := ⟨true, ⟨true, true⟩, -rtError, 0⟩
  found := invalidInfo
  create := ⟨true, true⟩
  adv := ⟨true, StaMgnt.idle, ⟨true, ⟨true, true⟩, 0, 0⟩, 0, 0⟩
  recved := 0

/-- It returns the error and still holds the mutex. -/
theorem not_mgntCall_keeps_scan_refused :
    ¬ (MgntCall.connect .scanRefused (some [0x6e, 0x65, 0x74]) none).run 0 = 0 := by
  decide

end Gd32Vw553h.Wlan.Lock
