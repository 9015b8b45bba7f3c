/-
  Wlan/SavedPair.lean --- the credentials that a connected station saves
  (`components/drivers/wlan/dev_wlan_mgnt.c`).

  `rt_wlan_connect_adv` overwrites `_sta_mgnt.info` and `_sta_mgnt.key` under the
  management mutex before it joins.  The dispatcher copies and saves the pair inside
  the join, the wlan work thread does so once more without the mutex: it tests that
  the station is connected and copies afterwards.  `saved_accepted` says that every
  saved pair belongs to a join the driver has accepted as long as that copy does not
  come while another join runs or after it has failed; `not_saved_accepted_second_join`
  is the run in which it does.
-/
import Gd32Vw553h.Foundation.Threads
import Gd32Vw553h.Wlan.JoinScan

set_option autoImplicit false

namespace Gd32Vw553h.Wlan.SavedPair

open Gd32Vw553h.Foundation Gd32Vw553h.Klibc

/-! ## Joins -/

/-- The arguments with which `rt_wlan_connect_adv` passes its checks. -/
structure JoinArgs where
  info : RtWlanInfo
  /-- the `password_len` bytes at `password` -/
  password : List UInt8
  ssid_set : info.ssid.len ≠ 0
  fits : password.length ≤ rtWlanPasswordMaxLength

/-- The parameter checks of `rt_wlan_connect_adv`. -/
def joinArgs (device : Bool) (info : Option RtWlanInfo) (password : Option (List UInt8)) :
    Option JoinArgs :=
  if !device then none
  else
    match info with
    | none => none
    | some info =>
      if hpassword : Lock.passwordLen password > rtWlanPasswordMaxLength then none
      else if hssid : info.ssid.len = 0 ∨ info.ssid.len.toNat > rtWlanSsidMaxLength then none
      else some {
        info := info
        password := (password.getD []).take (Lock.passwordLen password)
        ssid_set := fun hzero => hssid (.inl hzero)
        fits := Nat.le_trans (List.length_take_le _ _) (Nat.le_of_not_gt hpassword) }

theorem joinArgs_device {device : Bool} {info : Option RtWlanInfo}
    {password : Option (List UInt8)} {args : JoinArgs}
    (h : joinArgs device info password = some args) : device = true := by
  cases device with
  | true => rfl
  | false => exact nomatch h

/-- What the driver has reported of a join. -/
inductive Outcome where
  | running
  | connected
  | failed
  deriving DecidableEq

/-- A join, from the overwriting of `_sta_mgnt` on. -/
structure Join where
  args : JoinArgs
  outcome : Outcome

/-- `_sta_mgnt`, the joins made, and the one that `info` and `key` were written for. -/
structure Station where
  sta : StaMgnt
  joins : List Join
  infoJoin : Option Nat
  keyJoin : Option Nat

/-- The local `cfg_info`, and the join that each part was written for. -/
structure CfgCopy where
  info : RtWlanInfo
  key : RtWlanKey
  infoJoin : Option Nat
  keyJoin : Option Nat

namespace Station

/-- `cfg_info.info = _sta_mgnt.info; cfg_info.key = _sta_mgnt.key;` -/
def copy (m : Station) : CfgCopy := ⟨m.sta.info, m.sta.key, m.infoJoin, m.keyJoin⟩

/-- "save info", with `RT_WLAN_STATE_CONNECTING`: a new join begins. -/
def save (m : Station) (args : JoinArgs) : Station where
  sta := { m.sta with
    info := args.info
    key := { len := UInt8.ofNat args.password.length
             val := (rtMemcpy m.sta.key.val args.password).setIfInBounds args.password.length 0 }
    connecting := true }
  joins := m.joins ++ [⟨args, .running⟩]
  infoJoin := some m.joins.length
  keyJoin := some m.joins.length

/-- `gd32_wlan_join` up to its report. -/
def report (m : Station) (j : Nat) (args : JoinArgs) (outcome : Outcome) : Station :=
  { m with
    sta := m.sta.emit (.join (staInfo args.info args.password))
    joins := m.joins.set j ⟨args, outcome⟩ }

/-- `rt_wlan_event_dispatch` on `CONNECT`: the state byte. -/
def setConnect (m : Station) : Station :=
  { m with sta := { m.sta with connected := true, connecting := false } }

/-- `rt_wlan_event_dispatch` on `CONNECT_FAIL`: the state byte. -/
def clearConnect (m : Station) : Station :=
  { m with sta := { m.sta with connected := false, connecting := false } }

/-- The join has failed: the memset over the first 34 bytes of `info`, and over `key`. -/
def clear (m : Station) : Station where
  sta := { m.sta with
    info := { m.sta.info with
      security := 0, band := 0, datarate := 0, channel := 0, rssi := 0
      ssid := { len := 0, val := rtMemcpy m.sta.info.ssid.val (List.replicate 17 0) } }
    key := .zero
    connecting := false }
  joins := m.joins
  infoJoin := none
  keyJoin := none

/-- `gd32_wlan_disconnect`, which raises `DISCONNECT`, and the dispatcher's change of the
state byte. -/
def disconnect (m : Station) : Station :=
  { m with sta := { m.sta.emit .disconnect with connected := false } }

end Station

/-! ## The threads -/

/-- What `rt_wlan_disconnect` returns to. -/
inductive Return where
  | thread
  /-- `rt_wlan_connect_adv`, called by `rt_wlan_connect` or not -/
  | connectAdv (inConnect : Bool) (args : JoinArgs)

/-- The calls. -/
inductive Call where
  | connect (ssid password : Option (List UInt8))
  | connectAdv (info : Option RtWlanInfo) (password : Option (List UInt8))
  | disconnect
  /-- `rt_wlan_mgnt_work` on the next message -/
  | work

/-- Where a call stands; what is done under the mutex and not looked at without it is one
statement. -/
inductive Point where
  | connect (ssid password : Option (List UInt8))
  | connectLock (ssid : List UInt8) (password : Option (List UInt8))
  | connectScan (ssid : List UInt8) (password : Option (List UInt8))
  | connectCreate (info : RtWlanInfo) (password : Option (List UInt8))
  | advLock (inConnect : Bool) (info : Option RtWlanInfo) (password : Option (List UInt8))
  | advTest (inConnect : Bool) (args : JoinArgs)
  | discLock (ret : Return)
  | discCreate (ret : Return)
  | discDriver (ret : Return)
  | discWait (ret : Return)
  | save (inConnect : Bool) (args : JoinArgs)
  | join (inConnect : Bool) (j : Nat) (args : JoinArgs)
  | dispatchConnect (inConnect : Bool)
  | dispatchTest (inConnect : Bool)
  | dispatchCopy (inConnect : Bool)
  | dispatchSave (inConnect : Bool) (cfgInfo : CfgCopy)
  | dispatchSend (inConnect : Bool)
  | dispatchFail (inConnect : Bool)
  | clear (inConnect : Bool)
  /-- `MGNT_UNLOCK()` this often and return -/
  | unlock (n : Nat)
  | work
  | workTest
  | workCopy
  | workSave (cfgInfo : CfgCopy)

/-- What the threads share; `connected` messages are queued for the worker. -/
structure State (ι : Type*) where
  station : Station
  mutex : RecursiveMutex ι
  connected : Nat

/-- What a statement meets: the scan and what it finds, the creation of a completion, the
event flags that a wait returns, the join of the driver, the memory for a message. -/
structure Choice where
  scan : Lock.ScanEnv
  found : RtWlanInfo
  create : Lock.CreateEnv
  recved : UInt32
  accepted : Bool
  memory : Bool

/-- How often the caller of `rt_wlan_disconnect` has taken the mutex. -/
def Return.held : Return → Nat
  | thread => 0
  | connectAdv inConnect _ => inConnect.toNat + 1

section Code

variable {ι : Type*} [DecidableEq ι]

/-- `MGNT_LOCK()` -/
def State.lock (s : State ι) (t : ι) : Option (State ι) :=
  (s.mutex.take Lock.rtMutexHoldMax t).map fun mutex => { s with mutex := mutex }

/-- `MGNT_UNLOCK()` -/
def State.unlock (s : State ι) (t : ι) : State ι := { s with mutex := s.mutex.release t }

/-- The owner's count after code of its own. -/
def State.setHold (s : State ι) (t : ι) (hold : Nat) : State ι :=
  { s with mutex := s.mutex.setHold t hold }

/-- One statement of thread `t`; the messages of the queue are worked on by `worker` alone. -/
def stmt (worker t : ι) (s : State ι) (k : Point) (c : Choice) :
    Option (State ι × Option Point) :=
  match k with
  | .connect ssid password =>
    match JoinScan.connectChecks s.station.sta ssid with
    | .error _ => some (s, none)
    | .ok ssid => some (s, some (.connectLock ssid password))
  | .connectLock ssid password =>
    (s.lock t).map fun s => (s, some (.connectScan ssid password))
  | .connectScan ssid password =>
    let registered := Lock.rtWlanRegisterEventHandler Lock.rtWlanEvtScanReport s.mutex.hold
    let scanned := Lock.rtWlanScanWithInfo c.scan (some (Lock.ssidInfo ssid)) registered.2
    let s := s.setHold t scanned.2
    -- the mutex stays taken when the scan fails
    if scanned.1 ≠ 0 then some (s, none)
    else if c.found.channel ≤ 0 then some (s, some (.unlock 1))
    else
      some (s, some (.connectCreate { c.found with ssid := (Lock.ssidInfo ssid).ssid } password))
  | .connectCreate info password =>
    let complete := Lock.rtWlanCompleteCreate c.create s.mutex.hold
    let s := s.setHold t complete.2
    some (s, some (if complete.1 then .advLock true (some info) password else .unlock 1))
  | .advLock inConnect info password =>
    match joinArgs s.station.sta.device info password with
    | none => some (s, some (.unlock inConnect.toNat))
    | some args => (s.lock t).map fun s => (s, some (.advTest inConnect args))
  | .advTest inConnect args =>
    some (s, some (
      if Lock.isConnected s.station.sta then
        if alreadyConnected args.info args.password s.station.sta then
          .unlock (inConnect.toNat + 1)
        else .discLock (.connectAdv inConnect args)
      else .save inConnect args))
  | .discLock ret =>
    if !s.station.sta.device then some (s, some (.unlock ret.held))
    else (s.lock t).map fun s => (s, some (.discCreate ret))
  | .discCreate ret =>
    let complete := Lock.rtWlanCompleteCreate c.create s.mutex.hold
    let s := s.setHold t complete.2
    some (s, some (if complete.1 then .discDriver ret else .unlock (ret.held + 1)))
  | .discDriver ret => some ({ s with station := s.station.disconnect }, some (.discWait ret))
  | .discWait ret =>
    if c.recved &&& RtWlanDevEvent.disconnect.bit = 0 then
      some (s, some (.unlock (ret.held + 1)))
    else
      match ret with
      | .thread => some (s.unlock t, none)
      | .connectAdv inConnect args => some (s.unlock t, some (.save inConnect args))
  | .save inConnect args =>
    some ({ s with station := s.station.save args },
      some (.join inConnect s.station.joins.length args))
  | .join inConnect j args =>
    some ({ s with
        station := s.station.report j args (if c.accepted then .connected else .failed) },
      some (if c.accepted then .dispatchConnect inConnect else .dispatchFail inConnect))
  | .dispatchConnect inConnect =>
    some ({ s with station := s.station.setConnect }, some (.dispatchTest inConnect))
  | .dispatchTest inConnect =>
    some (s, some (
      if Lock.isConnected s.station.sta then .dispatchCopy inConnect else .dispatchSend inConnect))
  | .dispatchCopy inConnect => some (s, some (.dispatchSave inConnect s.station.copy))
  | .dispatchSave inConnect _ => some (s, some (.dispatchSend inConnect))
  | .dispatchSend inConnect =>
    some ({ s with connected := if c.memory then s.connected + 1 else s.connected },
      some (.unlock (inConnect.toNat + 1)))
  | .dispatchFail inConnect =>
    some ({ s with station := s.station.clearConnect }, some (.clear inConnect))
  | .clear inConnect =>
    some ({ s with station := s.station.clear }, some (.unlock (inConnect.toNat + 1)))
  | .unlock 0 => some (s, none)
  | .unlock (n + 1) => some (s.unlock t, some (.unlock n))
  | .work =>
    if t = worker ∧ 0 < s.connected then
      some ({ s with connected := s.connected - 1 }, some .workTest)
    else none
  | .workTest => some (s, if Lock.isConnected s.station.sta then some .workCopy else none)
  | .workCopy => some (s, some (.workSave s.station.copy))
  | .workSave _ => some (s, none)

/-- The calls of all threads. -/
def program (worker : ι) : Program ι (State ι) Point Call Choice where
  entry
    | .connect ssid password => .connect ssid password
    | .connectAdv info password => .advLock false info password
    | .disconnect => .discLock .thread
    | .work => .work
  stmt := stmt worker

end Code

/-- A station that has never joined, with a device or without one. -/
def State.init (ι : Type*) (device : Bool) : State ι where
  station :=
    { sta :=
        { device := device, info := .zero, key := .zero, connected := false,
          connecting := false, trace := [] }
      joins := []
      infoJoin := none
      keyJoin := none }
  mutex := .free
  connected := 0

/-! ## Accepted pairs -/

/-- A key holds a password; what lies behind it in the array does not count. -/
def KeyHolds (key : RtWlanKey) (password : List UInt8) : Prop :=
  key.len.toNat = password.length ∧ key.val.toList.take password.length = password

/-- The pair was written for one join, the `j`-th. -/
structure CfgCopy.Of (m : Station) (cfgInfo : CfgCopy) (j : Nat) (join : Join) : Prop where
  infoJoin : cfgInfo.infoJoin = some j
  keyJoin : cfgInfo.keyJoin = some j
  entry : m.joins[j]? = some join
  info : cfgInfo.info = join.args.info
  key : KeyHolds cfgInfo.key join.args.password

/-- It consists of the info and key of one join for which the driver has reported `CONNECT`. -/
def CfgCopy.Accepted (m : Station) (cfgInfo : CfgCopy) : Prop :=
  ∃ j join, cfgInfo.Of m j join ∧ join.outcome = .connected

/-- The pair that the next statement passes to `rt_wlan_cfg_save`. -/
def Point.saves : Point → Option CfgCopy
  | .dispatchSave _ cfgInfo => some cfgInfo
  | .workSave cfgInfo => some cfgInfo
  | _ => none

/-- A join has overwritten the pair and has not been accepted: it is running, or it has
failed and is about to clear the pair. -/
def Point.Unsettled : Point → Prop
  | .join _ _ _ | .dispatchFail _ | .clear _ => True
  | _ => False

section Condition

variable {ι : Type*}

/-- No join has overwritten the pair without having been accepted, and the pair is not the
one that a failed join has cleared. -/
def Settled (s : Threads ι (State ι) Point) : Prop :=
  (∀ t k, s.point t = some k → ¬ k.Unsettled) ∧ s.shared.station.sta.info.ssid.len ≠ 0

/-- The work thread copies the pair only while it is settled. -/
def CopiesSettled (s : Threads ι (State ι) Point) : ThreadAction ι Call Choice → Prop
  | .call _ _ => True
  | .next t _ => s.point t = some .workCopy → Settled s

end Condition

/-! ## The pair in `_sta_mgnt` -/

theorem keyHolds_of_fits {val : Vector UInt8 (rtWlanPasswordMaxLength + 1)}
    {password : List UInt8} (h : password.length ≤ rtWlanPasswordMaxLength) :
    KeyHolds ⟨UInt8.ofNat password.length,
      (rtMemcpy val password).setIfInBounds password.length 0⟩ password := by
  have hlt : password.length < 256 := Nat.lt_of_le_of_lt h (by decide)
  refine ⟨UInt8.toNat_ofNat_of_lt hlt, ?_⟩
  have hcopy := rtMemcpy_toList val (Nat.le_succ_of_le h)
  rw [Vector.toList_setIfInBounds, List.take_set_of_le (Nat.le_refl _), hcopy]
  exact List.take_left

namespace Station

/-- A station whose flag and pair agree. -/
structure Consistent (m : Station) : Prop where
  /-- the pair is that of a join, or there is none -/
  pair : m.sta.info.ssid.len = 0 ∧ m.infoJoin = none ∨ ∃ j join, m.copy.Of m j join
  /-- a connected station has the pair of an accepted join -/
  connected : m.sta.connected = true → m.copy.Accepted m

/-- The accepted joins of `m` are joins of `m'` and accepted there. -/
def Keeps (m m' : Station) : Prop :=
  ∀ (j : Nat) (join : Join), m.joins[j]? = some join → join.outcome = .connected →
    m'.joins[j]? = some join

end Station

theorem CfgCopy.Of.unique {m : Station} {cfgInfo : CfgCopy} {j j' : Nat} {join join' : Join}
    (h : cfgInfo.Of m j join) (h' : cfgInfo.Of m j' join') : j = j' ∧ join = join' := by
  obtain rfl := Option.some.inj (h.infoJoin.symm.trans h'.infoJoin)
  exact ⟨rfl, Option.some.inj (h.entry.symm.trans h'.entry)⟩

theorem CfgCopy.Accepted.mono {m m' : Station} {cfgInfo : CfgCopy} (h : cfgInfo.Accepted m)
    (hkeeps : m.Keeps m') : cfgInfo.Accepted m' := by
  obtain ⟨j, join, hof, houtcome⟩ := h
  exact ⟨j, join, { hof with entry := hkeeps j join hof.entry houtcome }, houtcome⟩

namespace Station

variable {m : Station} {args : JoinArgs}

/-- Changes to the flags leave the pair alone. -/
theorem copy_of_congr (m' : Station) {j : Nat} {join : Join} (hcopy : m'.copy = m.copy)
    (hjoins : m'.joins = m.joins) (h : m.copy.Of m j join) : m'.copy.Of m' j join := by
  rw [hcopy]
  exact { h with entry := hjoins ▸ h.entry }

theorem copy_of_save (m : Station) (args : JoinArgs) :
    (m.save args).copy.Of (m.save args) m.joins.length ⟨args, .running⟩ where
  infoJoin := rfl
  keyJoin := rfl
  entry := List.getElem?_concat_length
  info := rfl
  key := keyHolds_of_fits args.fits

theorem copy_of_report {j : Nat} (h : m.copy.Of m j ⟨args, .running⟩) (outcome : Outcome) :
    (m.report j args outcome).copy.Of (m.report j args outcome) j ⟨args, outcome⟩ where
  infoJoin := h.infoJoin
  keyJoin := h.keyJoin
  entry := by
    obtain ⟨hlt, -⟩ := List.getElem?_eq_some_iff.mp h.entry
    exact List.getElem?_set_self hlt
  info := h.info
  key := h.key

theorem keeps_refl (m : Station) : m.Keeps m := fun _ _ h _ => h

theorem keeps_save (m : Station) (args : JoinArgs) : m.Keeps (m.save args) := by
  intro j join hentry _
  obtain ⟨hlt, -⟩ := List.getElem?_eq_some_iff.mp hentry
  exact (List.getElem?_append_left hlt).trans hentry

theorem keeps_report {j : Nat} {outcome : Outcome} (h : m.copy.Of m j ⟨args, .running⟩) :
    m.Keeps (m.report j args outcome) := by
  intro i join hentry houtcome
  have hne : j ≠ i := by
    rintro rfl
    obtain rfl := Option.some.inj (h.entry.symm.trans hentry)
    exact nomatch houtcome
  exact (List.getElem?_set_ne hne).trans hentry

/-- The flag of a station whose pair is that of a join that is not accepted. -/
theorem Consistent.not_connected {j : Nat} {join : Join} (h : m.Consistent)
    (hof : m.copy.Of m j join) (houtcome : join.outcome ≠ .connected) :
    m.sta.connected = false := by
  by_contra hconnected
  obtain ⟨j', join', hof', houtcome'⟩ := h.connected (Bool.not_eq_false _ ▸ hconnected)
  obtain ⟨-, rfl⟩ := hof.unique hof'
  exact houtcome houtcome'

theorem consistent_save (hoff : m.sta.connected = false) : (m.save args).Consistent where
  pair := .inr ⟨_, _, m.copy_of_save args⟩
  connected := by
    intro hconnected
    exact absurd (hoff.symm.trans hconnected) (by decide)

theorem consistent_report {j : Nat} (h : m.Consistent) (hof : m.copy.Of m j ⟨args, .running⟩)
    (outcome : Outcome) : (m.report j args outcome).Consistent where
  pair := .inr ⟨_, _, copy_of_report hof outcome⟩
  connected := by
    intro hconnected
    have hoff := h.not_connected hof (fun heq => nomatch heq)
    exact absurd (hoff.symm.trans hconnected) (by decide)

theorem consistent_setConnect (h : m.copy.Accepted m) : m.setConnect.Consistent := by
  obtain ⟨j, join, hof, houtcome⟩ := h
  have hof' : m.setConnect.copy.Of m.setConnect j join :=
    copy_of_congr (m := m) m.setConnect rfl rfl hof
  exact ⟨.inr ⟨j, join, hof'⟩, fun _ => ⟨j, join, hof', houtcome⟩⟩

theorem consistent_clear (hoff : m.sta.connected = false) : m.clear.Consistent where
  pair := .inl ⟨rfl, rfl⟩
  connected := fun hconnected => absurd (hoff.symm.trans hconnected) (by decide)

/-- Clearing `CONNECT` keeps the pair. -/
theorem consistent_of_off {m' : Station} (h : m.Consistent) (hcopy : m'.copy = m.copy)
    (hjoins : m'.joins = m.joins) (hoff : m'.sta.connected = false) : m'.Consistent where
  pair := by
    have hinfo : m'.sta.info = m.sta.info := congrArg CfgCopy.info hcopy
    have htag : m'.infoJoin = m.infoJoin := congrArg CfgCopy.infoJoin hcopy
    rw [hinfo, htag]
    rcases h.pair with hnone | ⟨j, join, hof⟩
    · exact .inl hnone
    · exact .inr ⟨j, join, copy_of_congr m' hcopy hjoins hof⟩
  connected := fun hconnected => absurd (hoff.symm.trans hconnected) (by decide)

end Station

/-! ## Where a thread stands -/

/-- How often a call has taken the mutex at least. -/
def Point.depth : Point → Nat
  | .connectScan _ _ | .connectCreate _ _ => 1
  | .advLock inConnect _ _ => inConnect.toNat
  | .advTest inConnect _ | .save inConnect _ | .join inConnect _ _ => inConnect.toNat + 1
  | .dispatchConnect inConnect | .dispatchTest inConnect | .dispatchCopy inConnect
  | .dispatchSave inConnect _ | .dispatchSend inConnect | .dispatchFail inConnect
  | .clear inConnect => inConnect.toNat + 1
  | .discLock ret => ret.held
  | .discCreate ret | .discDriver ret | .discWait ret => ret.held + 1
  | .connect _ _ | .connectLock _ _ | .unlock _ | .work | .workTest | .workCopy
  | .workSave _ => 0

/-- What a thread may rely on at a point. -/
def Point.Asserts (m : Station) : Point → Prop
  | .advTest _ _ => m.sta.device = true
  | .discWait _ | .save _ _ => m.sta.connected = false
  | .join _ j args => m.copy.Of m j ⟨args, .running⟩
  | .dispatchConnect _ | .dispatchTest _ | .dispatchCopy _ => m.copy.Accepted m
  | .dispatchSave _ cfgInfo | .workSave cfgInfo => cfgInfo.Accepted m
  | .dispatchFail _ | .clear _ => ∃ j args, m.copy.Of m j ⟨args, .failed⟩
  | _ => True

theorem Return.held_le (ret : Return) : ret.held ≤ 2 := by
  cases ret with
  | thread => exact Nat.zero_le 2
  | connectAdv inConnect args => cases inConnect <;> exact Nat.le_of_ble_eq_true rfl

/-- What a thread relies on without the mutex no other thread takes away. -/
theorem Point.Asserts.mono {k : Point} {m m' : Station} (h : k.Asserts m) (hdepth : k.depth = 0)
    (hkeeps : m.Keeps m') : k.Asserts m' := by
  cases k with
  | workSave cfgInfo => exact CfgCopy.Accepted.mono h hkeeps
  | advTest inConnect args => exact nomatch hdepth
  | discWait ret => exact nomatch hdepth
  | save inConnect args => exact nomatch hdepth
  | join inConnect j args => exact nomatch hdepth
  | dispatchConnect inConnect => exact nomatch hdepth
  | dispatchTest inConnect => exact nomatch hdepth
  | dispatchCopy inConnect => exact nomatch hdepth
  | dispatchSave inConnect cfgInfo => exact nomatch hdepth
  | dispatchFail inConnect => exact nomatch hdepth
  | clear inConnect => exact nomatch hdepth
  | _ => trivial

/-- A thread at an unsettled point: the pair is that of a join that is not accepted. -/
theorem Point.Asserts.not_accepted {k : Point} {m : Station} (h : k.Asserts m)
    (hunsettled : k.Unsettled) : ¬ m.copy.Accepted m := by
  rintro ⟨j', join', hof', houtcome⟩
  cases k with
  | join inConnect j args =>
    obtain ⟨-, rfl⟩ := CfgCopy.Of.unique h hof'
    exact nomatch houtcome
  | dispatchFail inConnect =>
    obtain ⟨j, args, hof⟩ := h
    obtain ⟨-, rfl⟩ := hof.unique hof'
    exact nomatch houtcome
  | clear inConnect =>
    obtain ⟨j, args, hof⟩ := h
    obtain ⟨-, rfl⟩ := hof.unique hof'
    exact nomatch houtcome
  | _ => exact hunsettled

/-! ## What a statement does -/

section Effects

variable {ι : Type*} [DecidableEq ι] {t : ι} {s s' : State ι} {k : Point} {next : Option Point}

/-- What every statement of a thread at `k` guarantees. -/
structure StmtEffect (t : ι) (s s' : State ι) (k : Point) (next : Option Point) : Prop where
  held : ∀ k', next = some k' → s'.mutex.HeldBy t k'.depth
  others : ∀ u d, u ≠ t → s.mutex.HeldBy u d → s'.mutex.HeldBy u d
  asserts : ∀ k', next = some k' → k'.Asserts s'.station
  consistent : s'.station.Consistent
  keeps : s.station.Keeps s'.station
  /-- only a thread that holds the mutex changes the station -/
  guarded : 0 < k.depth ∨ s'.station = s.station
  /-- a pair that is not accepted is the thread's own or was there before -/
  pair : (s'.station.copy = s.station.copy ∧ s'.station.joins = s.station.joins ∧ ¬ k.Unsettled) ∨
    s'.station.copy.Accepted s'.station ∨ s'.station.infoJoin = none ∨
    ∃ k', next = some k' ∧ k'.Unsettled

omit [DecidableEq ι] in
/-- A statement that leaves the station alone. -/
theorem StmtEffect.of_station (hc : s.station.Consistent) (hstation : s'.station = s.station)
    (hsettled : ¬ k.Unsettled) (hheld : ∀ k', next = some k' → s'.mutex.HeldBy t k'.depth)
    (hothers : ∀ u d, u ≠ t → s.mutex.HeldBy u d → s'.mutex.HeldBy u d)
    (hasserts : ∀ k', next = some k' → k'.Asserts s.station) : StmtEffect t s s' k next where
  held := hheld
  others := hothers
  asserts := by rw [hstation]; exact hasserts
  consistent := by rw [hstation]; exact hc
  keeps := by rw [hstation]; exact s.station.keeps_refl
  guarded := .inr hstation
  pair := .inl ⟨by rw [hstation], by rw [hstation], hsettled⟩

omit [DecidableEq ι] in
/-- A statement that changes nothing shared but the queue. -/
theorem StmtEffect.goTo {k' : Point} (hc : s.station.Consistent)
    (hstation : s'.station = s.station) (hmutex : s'.mutex = s.mutex) (hsettled : ¬ k.Unsettled)
    (hheld : s.mutex.HeldBy t k.depth) (hdepth : k'.depth ≤ k.depth)
    (hasserts : k'.Asserts s.station) : StmtEffect t s s' k (some k') := by
  refine .of_station hc hstation hsettled ?_ (fun _ _ _ h => hmutex ▸ h) ?_
  · rintro _ ⟨⟩
    exact hmutex ▸ hheld.le hdepth
  · rintro _ ⟨⟩
    exact hasserts

omit [DecidableEq ι] in
/-- The last statement of a call. -/
theorem StmtEffect.stop (hc : s.station.Consistent) (hsettled : ¬ k.Unsettled) :
    StmtEffect t s s k none :=
  .of_station hc rfl hsettled (fun _ h => nomatch h) (fun _ _ _ h => h) (fun _ h => nomatch h)

/-- `MGNT_LOCK()` -/
theorem StmtEffect.lock {k' : Point} (hc : s.station.Consistent) (hlock : s.lock t = some s')
    (hsettled : ¬ k.Unsettled) (hheld : s.mutex.HeldBy t k.depth) (hk : k.depth ≤ 2)
    (hdepth : k'.depth ≤ k.depth + 1) (hasserts : k'.Asserts s.station) :
    StmtEffect t s s' k (some k') := by
  obtain ⟨mutex, htake, rfl⟩ := Option.map_eq_some_iff.mp hlock
  have hlt : k.depth < Lock.rtMutexHoldMax := Nat.lt_of_le_of_lt hk (by decide)
  refine .of_station hc rfl hsettled ?_ (fun u d hne hu => hu.take_other hne htake) ?_
  · rintro _ ⟨⟩
    exact (hheld.take hlt htake).le hdepth
  · rintro _ ⟨⟩
    exact hasserts

/-- `MGNT_UNLOCK()` -/
theorem StmtEffect.unlock (hc : s.station.Consistent) (hsettled : ¬ k.Unsettled)
    (hheld : s.mutex.HeldBy t k.depth)
    (hnext : ∀ k', next = some k' →
      (k'.depth + 1 ≤ k.depth ∨ k'.depth = 0) ∧ k'.Asserts s.station) :
    StmtEffect t s (s.unlock t) k next := by
  refine .of_station hc rfl hsettled (fun k' hk' => ?_) (fun u d hne hu => hu.release_other hne)
    fun k' hk' => (hnext k' hk').2
  rcases (hnext k' hk').1 with hle | hzero
  · exact (hheld.le hle).release
  · rw [hzero]
    exact RecursiveMutex.heldBy_zero _ t

omit [DecidableEq ι] in
/-- Code of the owner that leaves it a count of `hold`. -/
theorem StmtEffect.setHold {hold : Nat} (hc : s.station.Consistent) (hsettled : ¬ k.Unsettled)
    (hheld : s.mutex.HeldBy t k.depth) (hpos : 0 < k.depth)
    (hnext : ∀ k', next = some k' → k'.depth ≤ hold ∧ k'.Asserts s.station) :
    StmtEffect t s (s.setHold t hold) k next :=
  .of_station hc rfl hsettled
    (fun k' hk' => RecursiveMutex.heldBy_setHold s.mutex t (hnext k' hk').1)
    (fun _ _ hne hu => hheld.setHold_other hpos hu hne) fun k' hk' => (hnext k' hk').2

omit [DecidableEq ι] in
/-- A statement under the mutex that changes the station. -/
theorem StmtEffect.write {m : Station} {k' : Point} (hheld : s.mutex.HeldBy t k.depth)
    (hpos : 0 < k.depth) (hdepth : k'.depth ≤ k.depth) (hasserts : k'.Asserts m)
    (hconsistent : m.Consistent) (hkeeps : s.station.Keeps m)
    (hpair : (m.copy = s.station.copy ∧ m.joins = s.station.joins ∧ ¬ k.Unsettled) ∨
      m.copy.Accepted m ∨ m.infoJoin = none ∨ k'.Unsettled) :
    StmtEffect t s { s with station := m } k (some k') where
  held := by
    rintro _ ⟨⟩
    exact hheld.le hdepth
  others := fun _ _ _ hu => hu
  asserts := by
    rintro _ ⟨⟩
    exact hasserts
  consistent := hconsistent
  keeps := hkeeps
  guarded := .inl hpos
  pair := hpair.imp_right (Or.imp_right (Or.imp_right fun hk' => ⟨k', rfl, hk'⟩))

/-- A completion is created: on success the count is as it was. -/
theorem complete_hold {env : Lock.CreateEnv} {hold : Nat}
    (hok : (Lock.rtWlanCompleteCreate env hold).1 = true) :
    (Lock.rtWlanCompleteCreate env hold).2 = hold := by
  unfold Lock.rtWlanCompleteCreate at hok ⊢
  cases hmemory : env.memory with
  | false => rw [hmemory] at hok; exact nomatch hok
  | true =>
    cases hslot : env.slot with
    | false => rw [hmemory, hslot] at hok; exact nomatch hok
    | true => rfl

omit [DecidableEq ι] in
/-- The creation of a completion, under the mutex. -/
theorem StmtEffect.create {env : Lock.CreateEnv} {made missed : Point}
    (hc : s.station.Consistent) (hsettled : ¬ k.Unsettled) (hheld : s.mutex.HeldBy t k.depth)
    (hpos : 0 < k.depth) (hdepth : made.depth ≤ k.depth) (hmissed : missed.depth = 0)
    (hmade : made.Asserts s.station) (hnot : missed.Asserts s.station) :
    StmtEffect t s (s.setHold t (Lock.rtWlanCompleteCreate env s.mutex.hold).2) k
      (some (if (Lock.rtWlanCompleteCreate env s.mutex.hold).1 then made else missed)) := by
  refine .setHold hc hsettled hheld hpos ?_
  rintro _ ⟨⟩
  split
  · rename_i hok
    rw [complete_hold hok]
    exact ⟨Nat.le_trans hdepth (hheld hpos).2, hmade⟩
  · rw [hmissed]
    exact ⟨Nat.zero_le _, hnot⟩

/-- Paired code leaves a held mutex held. -/
theorem paired_pos {hold : Nat} (h : 0 < hold) : 0 < Lock.mgntUnlock (Lock.mgntLock hold) := by
  have hmax : Lock.rtMutexHoldMax = 255 := rfl
  unfold Lock.mgntUnlock Lock.mgntLock releaseHold takeHold
  split <;> omega

/-- A scan that returns `RT_EOK` leaves a held mutex held. -/
theorem scan_pos {env : Lock.ScanEnv} {info : Option RtWlanInfo} {hold : Nat} (h : 0 < hold)
    (hok : (Lock.rtWlanScanWithInfo env info hold).1 = 0) :
    0 < (Lock.rtWlanScanWithInfo env info hold).2 := by
  have hpaired := paired_pos h
  unfold Lock.rtWlanScanWithInfo Lock.waitedOperation at hok ⊢
  split at hok
  · exact nomatch hok
  · rename_i hdevice
    rw [if_neg hdevice]
    split at hok
    · exact nomatch hok
    · rename_i hfits
      rw [if_neg hfits]
      simp only at hok ⊢
      cases hcreate : (Lock.rtWlanCompleteCreate env.create (Lock.mgntLock hold)).1 with
      | false => rw [hcreate] at hok; exact nomatch hok
      | true =>
        have hhold := complete_hold hcreate
        simp only [hhold]
        rw [if_neg (by decide)]
        split
        · exact hpaired
        · split
          · exact hpaired
          · exact hpaired

/-- The scan of `rt_wlan_connect`. -/
theorem connectScan_effect {worker : ι} {c : Choice} {ssid : List UInt8}
    {password : Option (List UInt8)} (hc : s.station.Consistent) (hheld : s.mutex.HeldBy t 1)
    (hstmt : stmt worker t s (.connectScan ssid password) c = some (s', next)) :
    StmtEffect t s s' (.connectScan ssid password) next := by
  have hregistered : 0 < (Lock.rtWlanRegisterEventHandler Lock.rtWlanEvtScanReport
      s.mutex.hold).2 := paired_pos (hheld Nat.one_pos).2
  simp only [stmt] at hstmt
  split at hstmt
  · obtain ⟨rfl, rfl⟩ := Prod.mk.inj (Option.some.inj hstmt)
    exact .setHold hc id hheld Nat.one_pos fun _ h => nomatch h
  · rename_i hscan
    have hpos := scan_pos hregistered (Decidable.of_not_not hscan)
    split at hstmt
    · obtain ⟨rfl, rfl⟩ := Prod.mk.inj (Option.some.inj hstmt)
      refine .setHold hc id hheld Nat.one_pos ?_
      rintro _ ⟨⟩
      exact ⟨Nat.zero_le _, trivial⟩
    · obtain ⟨rfl, rfl⟩ := Prod.mk.inj (Option.some.inj hstmt)
      refine .setHold hc id hheld Nat.one_pos ?_
      rintro _ ⟨⟩
      exact ⟨hpos, trivial⟩

/-- The checks and the lock of `rt_wlan_connect_adv`. -/
theorem advLock_effect {worker : ι} {c : Choice} {inConnect : Bool} {info : Option RtWlanInfo}
    {password : Option (List UInt8)} (hc : s.station.Consistent)
    (hheld : s.mutex.HeldBy t inConnect.toNat)
    (hstmt : stmt worker t s (.advLock inConnect info password) c = some (s', next)) :
    StmtEffect t s s' (.advLock inConnect info password) next := by
  simp only [stmt] at hstmt
  cases hargs : joinArgs s.station.sta.device info password with
  | none =>
    rw [hargs] at hstmt
    obtain ⟨rfl, rfl⟩ := Prod.mk.inj (Option.some.inj hstmt)
    exact .goTo hc rfl rfl id hheld (Nat.zero_le _) trivial
  | some args =>
    rw [hargs] at hstmt
    obtain ⟨s', hlock, heq⟩ := Option.map_eq_some_iff.mp hstmt
    obtain ⟨rfl, rfl⟩ := Prod.mk.inj heq
    have hle : inConnect.toNat ≤ 2 := Nat.le_succ_of_le (Bool.toNat_le inConnect)
    exact .lock hc hlock id hheld hle (Nat.le_refl _) (joinArgs_device hargs)

/-- The test of `rt_wlan_connect_adv`: a join only begins while `CONNECT` is clear. -/
theorem advTest_effect {worker : ι} {c : Choice} {inConnect : Bool} {args : JoinArgs}
    (hc : s.station.Consistent) (hheld : s.mutex.HeldBy t (inConnect.toNat + 1))
    (hdevice : s.station.sta.device = true)
    (hstmt : stmt worker t s (.advTest inConnect args) c = some (s', next)) :
    StmtEffect t s s' (.advTest inConnect args) next := by
  simp only [stmt] at hstmt
  obtain ⟨rfl, rfl⟩ := Prod.mk.inj (Option.some.inj hstmt)
  split
  · split
    · exact .goTo hc rfl rfl id hheld (Nat.zero_le _) trivial
    · exact .goTo hc rfl rfl id hheld (Nat.le_refl _) trivial
  · rename_i hnot
    rw [Lock.isConnected, hdevice, Bool.true_and] at hnot
    exact .goTo hc rfl rfl id hheld (Nat.le_refl _) (Bool.eq_false_iff.mpr hnot)

/-- The end of `rt_wlan_disconnect`. -/
theorem discWait_effect {worker : ι} {c : Choice} {ret : Return} (hc : s.station.Consistent)
    (hheld : s.mutex.HeldBy t (ret.held + 1)) (hoff : s.station.sta.connected = false)
    (hstmt : stmt worker t s (.discWait ret) c = some (s', next)) :
    StmtEffect t s s' (.discWait ret) next := by
  simp only [stmt] at hstmt
  split at hstmt
  · obtain ⟨rfl, rfl⟩ := Prod.mk.inj (Option.some.inj hstmt)
    exact .goTo hc rfl rfl id hheld (Nat.zero_le _) trivial
  · cases ret with
    | thread =>
      obtain ⟨rfl, rfl⟩ := Prod.mk.inj (Option.some.inj hstmt)
      exact .unlock hc id hheld fun _ h => nomatch h
    | connectAdv inConnect args =>
      obtain ⟨rfl, rfl⟩ := Prod.mk.inj (Option.some.inj hstmt)
      refine .unlock hc id hheld ?_
      rintro _ ⟨⟩
      exact ⟨.inl (Nat.le_refl _), hoff⟩

/-- The join of the driver. -/
theorem join_effect {worker : ι} {c : Choice} {inConnect : Bool} {j : Nat} {args : JoinArgs}
    (hc : s.station.Consistent) (hheld : s.mutex.HeldBy t (inConnect.toNat + 1))
    (hof : s.station.copy.Of s.station j ⟨args, .running⟩)
    (hstmt : stmt worker t s (.join inConnect j args) c = some (s', next)) :
    StmtEffect t s s' (.join inConnect j args) next := by
  simp only [stmt] at hstmt
  cases haccepted : c.accepted with
  | true =>
    rw [haccepted] at hstmt
    obtain ⟨rfl, rfl⟩ := Prod.mk.inj (Option.some.inj hstmt)
    have hconnected := Station.copy_of_report hof .connected
    exact .write hheld (Nat.succ_pos _) (Nat.le_refl _) ⟨j, _, hconnected, rfl⟩
      (Station.consistent_report hc hof .connected) (Station.keeps_report hof)
      (.inr (.inl ⟨j, _, hconnected, rfl⟩))
  | false =>
    rw [haccepted] at hstmt
    obtain ⟨rfl, rfl⟩ := Prod.mk.inj (Option.some.inj hstmt)
    exact .write hheld (Nat.succ_pos _) (Nat.le_refl _)
      ⟨j, args, Station.copy_of_report hof .failed⟩
      (Station.consistent_report hc hof .failed) (Station.keeps_report hof)
      (.inr (.inr (.inr trivial)))

/-- The statement of a thread at `k`, the copy of the work thread being taken of an accepted
pair. -/
theorem stmt_effect {worker : ι} {c : Choice} (hstmt : stmt worker t s k c = some (s', next))
    (hheld : s.mutex.HeldBy t k.depth) (hassert : k.Asserts s.station)
    (hc : s.station.Consistent) (hcopy : k = .workCopy → s.station.copy.Accepted s.station) :
    StmtEffect t s s' k next := by
  cases k with
  | connect ssid password =>
    simp only [stmt] at hstmt
    cases hchecks : JoinScan.connectChecks s.station.sta ssid with
    | error err =>
      rw [hchecks] at hstmt
      obtain ⟨rfl, rfl⟩ := Prod.mk.inj (Option.some.inj hstmt)
      exact .stop hc id
    | ok ssid =>
      rw [hchecks] at hstmt
      obtain ⟨rfl, rfl⟩ := Prod.mk.inj (Option.some.inj hstmt)
      exact .goTo hc rfl rfl id hheld (Nat.le_refl 0) trivial
  | connectLock ssid password =>
    obtain ⟨s', hlock, heq⟩ := Option.map_eq_some_iff.mp hstmt
    obtain ⟨rfl, rfl⟩ := Prod.mk.inj heq
    exact .lock hc hlock id hheld (Nat.zero_le 2) (Nat.le_refl 1) trivial
  | connectScan ssid password => exact connectScan_effect hc hheld hstmt
  | connectCreate info password =>
    obtain ⟨rfl, rfl⟩ := Prod.mk.inj (Option.some.inj hstmt)
    exact .create hc id hheld Nat.one_pos (Nat.le_refl 1) rfl trivial trivial
  | advLock inConnect info password => exact advLock_effect hc hheld hstmt
  | advTest inConnect args => exact advTest_effect hc hheld hassert hstmt
  | discLock ret =>
    simp only [stmt] at hstmt
    split at hstmt
    · obtain ⟨rfl, rfl⟩ := Prod.mk.inj (Option.some.inj hstmt)
      exact .goTo hc rfl rfl id hheld (Nat.zero_le _) trivial
    · obtain ⟨s', hlock, heq⟩ := Option.map_eq_some_iff.mp hstmt
      obtain ⟨rfl, rfl⟩ := Prod.mk.inj heq
      exact .lock hc hlock id hheld ret.held_le (Nat.le_refl _) trivial
  | discCreate ret =>
    obtain ⟨rfl, rfl⟩ := Prod.mk.inj (Option.some.inj hstmt)
    exact .create hc id hheld (Nat.succ_pos _) (Nat.le_refl _) rfl trivial trivial
  | discDriver ret =>
    obtain ⟨rfl, rfl⟩ := Prod.mk.inj (Option.some.inj hstmt)
    exact .write hheld (Nat.succ_pos _) (Nat.le_refl _) rfl
      (Station.consistent_of_off hc rfl rfl rfl) s.station.keeps_refl (.inl ⟨rfl, rfl, id⟩)
  | discWait ret => exact discWait_effect hc hheld hassert hstmt
  | save inConnect args =>
    obtain ⟨rfl, rfl⟩ := Prod.mk.inj (Option.some.inj hstmt)
    exact .write hheld (Nat.succ_pos _) (Nat.le_refl _) (s.station.copy_of_save args)
      (Station.consistent_save hassert) (s.station.keeps_save args)
      (.inr (.inr (.inr trivial)))
  | join inConnect j args => exact join_effect hc hheld hassert hstmt
  | dispatchConnect inConnect =>
    obtain ⟨rfl, rfl⟩ := Prod.mk.inj (Option.some.inj hstmt)
    have hconsistent := Station.consistent_setConnect hassert
    have haccepted := hconsistent.connected rfl
    exact .write hheld (Nat.succ_pos _) (Nat.le_refl _) haccepted hconsistent
      s.station.keeps_refl (.inr (.inl haccepted))
  | dispatchTest inConnect =>
    obtain ⟨rfl, rfl⟩ := Prod.mk.inj (Option.some.inj hstmt)
    split
    · exact .goTo hc rfl rfl id hheld (Nat.le_refl _) hassert
    · exact .goTo hc rfl rfl id hheld (Nat.le_refl _) trivial
  | dispatchCopy inConnect =>
    obtain ⟨rfl, rfl⟩ := Prod.mk.inj (Option.some.inj hstmt)
    exact .goTo hc rfl rfl id hheld (Nat.le_refl _) hassert
  | dispatchSave inConnect cfgInfo =>
    obtain ⟨rfl, rfl⟩ := Prod.mk.inj (Option.some.inj hstmt)
    exact .goTo hc rfl rfl id hheld (Nat.le_refl _) trivial
  | dispatchSend inConnect =>
    obtain ⟨rfl, rfl⟩ := Prod.mk.inj (Option.some.inj hstmt)
    exact .goTo hc rfl rfl id hheld (Nat.zero_le _) trivial
  | dispatchFail inConnect =>
    obtain ⟨rfl, rfl⟩ := Prod.mk.inj (Option.some.inj hstmt)
    obtain ⟨j, args, hof⟩ := hassert
    exact .write hheld (Nat.succ_pos _) (Nat.le_refl _)
      ⟨j, args, Station.copy_of_congr (m := s.station) _ rfl rfl hof⟩
      (Station.consistent_of_off hc rfl rfl rfl) s.station.keeps_refl
      (.inr (.inr (.inr trivial)))
  | clear inConnect =>
    obtain ⟨rfl, rfl⟩ := Prod.mk.inj (Option.some.inj hstmt)
    obtain ⟨j, args, hof⟩ := hassert
    have hoff := hc.not_connected hof (fun heq => nomatch heq)
    exact .write hheld (Nat.succ_pos _) (Nat.zero_le _) trivial
      (Station.consistent_clear hoff) s.station.keeps_refl (.inr (.inr (.inl rfl)))
  | unlock n =>
    cases n with
    | zero =>
      obtain ⟨rfl, rfl⟩ := Prod.mk.inj (Option.some.inj hstmt)
      exact .stop hc id
    | succ n =>
      obtain ⟨rfl, rfl⟩ := Prod.mk.inj (Option.some.inj hstmt)
      refine .unlock hc id hheld ?_
      rintro _ ⟨⟩
      exact ⟨.inr rfl, trivial⟩
  | work =>
    simp only [stmt] at hstmt
    split at hstmt
    · obtain ⟨rfl, rfl⟩ := Prod.mk.inj (Option.some.inj hstmt)
      exact .goTo hc rfl rfl id hheld (Nat.le_refl 0) trivial
    · exact nomatch hstmt
  | workTest =>
    obtain ⟨rfl, rfl⟩ := Prod.mk.inj (Option.some.inj hstmt)
    split
    · exact .goTo hc rfl rfl id hheld (Nat.le_refl 0) trivial
    · exact .stop hc id
  | workCopy =>
    obtain ⟨rfl, rfl⟩ := Prod.mk.inj (Option.some.inj hstmt)
    exact .goTo hc rfl rfl id hheld (Nat.le_refl 0) (hcopy rfl)
  | workSave cfgInfo =>
    obtain ⟨rfl, rfl⟩ := Prod.mk.inj (Option.some.inj hstmt)
    exact .stop hc id

end Effects

/-! ## Runs -/

section Runs

variable {ι : Type*} [DecidableEq ι]

/-- The invariant of all interleavings. -/
structure SavedInv (s : Threads ι (State ι) Point) : Prop where
  held : ∀ t k, s.point t = some k → s.shared.mutex.HeldBy t k.depth
  asserts : ∀ t k, s.point t = some k → k.Asserts s.shared.station
  consistent : s.shared.station.Consistent
  /-- a pair that is not accepted is that of a thread in progress -/
  unsettled : ¬ s.shared.station.copy.Accepted s.shared.station →
    s.shared.station.infoJoin = none ∨ ∃ t k, s.point t = some k ∧ k.Unsettled

omit [DecidableEq ι] in
/-- The pair is that of an accepted join exactly when it is settled. -/
theorem SavedInv.accepted_iff {s : Threads ι (State ι) Point} (h : SavedInv s) :
    s.shared.station.copy.Accepted s.shared.station ↔ Settled s := by
  constructor
  · intro haccepted
    refine ⟨fun t k hpoint hunsettled => ?_, ?_⟩
    · exact (h.asserts t k hpoint).not_accepted hunsettled haccepted
    · obtain ⟨j, join, hof, -⟩ := haccepted
      have hinfo : s.shared.station.sta.info = join.args.info := hof.info
      rw [hinfo]
      exact join.args.ssid_set
  · rintro ⟨hnone, hssid⟩
    by_contra hnot
    rcases h.unsettled hnot with htag | ⟨t, k, hpoint, hunsettled⟩
    · rcases h.consistent.pair with ⟨hzero, -⟩ | ⟨j, join, hof⟩
      · exact hssid hzero
      · exact nomatch htag.symm.trans hof.infoJoin
    · exact hnone t k hpoint hunsettled

/-- A statement keeps the invariant. -/
theorem savedInv_stmt {s : Threads ι (State ι) Point} {t : ι} {k : Point} {shared : State ι}
    {next : Option Point} (h : SavedInv s) (hpoint : s.point t = some k)
    (heffect : StmtEffect t s.shared shared k next) : SavedInv (s.goTo t shared next) := by
  refine ⟨Threads.forall_goTo heffect.held fun u k' hut hu =>
      heffect.others u k'.depth hut (h.held u k' hu),
    Threads.forall_goTo heffect.asserts fun u k' hut hu => ?_, heffect.consistent, fun hnot => ?_⟩
  · have hold := h.asserts u k' hu
    rcases heffect.guarded with hpos | hsame
    · -- the acting thread holds the mutex, so the other one does not
      refine hold.mono ?_ heffect.keeps
      by_contra hdepth
      exact hut ((h.held u k' hu).exclusive (h.held t k hpoint)
        (Nat.pos_of_ne_zero hdepth) hpos)
    · rw [Threads.goTo_shared, hsame]
      exact hold
  · rw [Threads.goTo_shared] at hnot ⊢
    rcases heffect.pair with ⟨hcopy, hjoins, hsettled⟩ | haccepted | htag | ⟨k', hnext, hk'⟩
    · have hbefore : ¬ s.shared.station.copy.Accepted s.shared.station := by
        rintro ⟨j, join, hof, houtcome⟩
        exact hnot ⟨j, join, Station.copy_of_congr _ hcopy hjoins hof, houtcome⟩
      rcases h.unsettled hbefore with htag | ⟨u, k', hu, hk'⟩
      · exact .inl ((congrArg CfgCopy.infoJoin hcopy).trans htag)
      · refine .inr ⟨u, k', ?_, hk'⟩
        have hut : u ≠ t := by
          rintro rfl
          obtain rfl := Option.some.inj (hpoint.symm.trans hu)
          exact hsettled hk'
        rw [Threads.goTo_point_of_ne s shared next hut]
        exact hu
    · exact absurd haccepted hnot
    · exact .inl htag
    · exact .inr ⟨t, k', (Threads.goTo_point_self s t shared next).trans hnext, hk'⟩

theorem entry_depth (worker : ι) (call : Call) : ((program worker).entry call).depth = 0 := by
  cases call <;> rfl

theorem entry_asserts (worker : ι) (call : Call) (m : Station) :
    ((program worker).entry call).Asserts m := by
  cases call <;> trivial

theorem savedInv_call {worker : ι} {s : Threads ι (State ι) Point} {t : ι} {call : Call}
    (hidle : s.point t = none) (h : SavedInv s) :
    SavedInv (s.goTo t s.shared (some ((program worker).entry call))) := by
  refine ⟨Threads.forall_goTo (fun k hk => ?_) fun u k _ hu => h.held u k hu,
    Threads.forall_goTo (fun k hk => ?_) fun u k _ hu => h.asserts u k hu, h.consistent,
    fun hnot => ?_⟩
  · rw [← Option.some.inj hk, entry_depth]
    exact RecursiveMutex.heldBy_zero _ t
  · rw [← Option.some.inj hk]
    exact entry_asserts worker call _
  · rcases h.unsettled hnot with htag | ⟨u, k, hu, hk⟩
    · exact .inl htag
    · refine .inr ⟨u, k, ?_, hk⟩
      have hut : u ≠ t := by
        rintro rfl
        exact nomatch hidle.symm.trans hu
      rw [Threads.goTo_point_of_ne s _ _ hut]
      exact hu

omit [DecidableEq ι] in
theorem savedInv_init (device : Bool) : SavedInv (Threads.start (State.init ι device)) where
  held := fun _ _ h => nomatch h
  asserts := fun _ _ h => nomatch h
  consistent := ⟨.inl ⟨rfl, rfl⟩, fun h => nomatch h⟩
  unsettled := fun _ => .inl rfl

theorem savedInv_run {worker : ι} {device : Bool} {actions : List (ThreadAction ι Call Choice)}
    {s : Threads ι (State ι) Point}
    (run : (program worker).threads.Run CopiesSettled (.start (.init ι device)) actions s) :
    SavedInv s := by
  refine Program.invariant (I := SavedInv) (fun s t call hidle h => savedInv_call hidle h)
    (fun s t c k shared next hok hpoint hstmt h => ?_) run (savedInv_init device)
  refine savedInv_stmt h hpoint (stmt_effect hstmt (h.held t k hpoint) (h.asserts t k hpoint)
    h.consistent fun hk => ?_)
  exact h.accepted_iff.mpr (hok (hk ▸ hpoint))

/-- In every interleaving in which the work thread copies the pair only while it is settled,
every pair passed to `rt_wlan_cfg_save` consists of the info and key of one join for which
the driver has reported `CONNECT`. -/
theorem saved_accepted {worker : ι} {device : Bool}
    {actions : List (ThreadAction ι Call Choice)} {s : Threads ι (State ι) Point}
    (run : (program worker).threads.Run CopiesSettled (.start (.init ι device)) actions s)
    {t : ι} {k : Point} {cfgInfo : CfgCopy} (hpoint : s.point t = some k)
    (hsaves : k.saves = some cfgInfo) : cfgInfo.Accepted s.shared.station := by
  have hassert := (savedInv_run run).asserts t k hpoint
  cases k with
  | dispatchSave inConnect copied =>
    obtain rfl := Option.some.inj hsaves
    exact hassert
  | workSave copied =>
    obtain rfl := Option.some.inj hsaves
    exact hassert
  | _ => exact nomatch hsaves

end Runs

/-! ## A second join between the test and the copy -/

/-- Nothing is short and the driver accepts the join. -/
def Choice.fine : Choice where
  scan := ⟨true, ⟨true, true⟩, 0, RtWlanDevEvent.scanDone.bit⟩
  found := JoinScan.netReport
  create := ⟨true, true⟩
  recved := RtWlanDevEvent.disconnect.bit
  accepted := true
  memory := true

/-- Thread `false` joins a network and returns; the work thread has made its test. -/
def joinedAndTested : List (ThreadAction Bool Call Choice) :=
  .call false (.connectAdv (some JoinScan.netReport) none) ::
    List.replicate 11 (.next false .fine) ++
    [.call true .work, .next true .fine, .next true .fine]

theorem saved_accepted_after_join :
    ∃ s cfgInfo, (program true).threads.exec (.start (.init Bool true))
        (joinedAndTested ++ [.next true .fine]) = some s ∧
      s.point true = some (.workSave cfgInfo) ∧ cfgInfo.Accepted s.shared.station := by
  have hexec : ((program true).threads.exec (.start (.init Bool true)) joinedAndTested).map
      (fun s => (s.point false, s.point true, s.shared.station.sta.info.ssid.len)) =
      some (none, some .workCopy, 3) := rfl
  obtain ⟨s, hs, hstate⟩ := Option.map_eq_some_iff.mp hexec
  obtain ⟨hfalse, htrue, hssid⟩ : s.point false = none ∧ s.point true = some .workCopy ∧
      s.shared.station.sta.info.ssid.len = 3 := by simpa using hstate
  have hadmitted : (program true).threads.Admitted CopiesSettled (.start (.init Bool true))
      joinedAndTested :=
    .cons trivial rfl <| .cons nofun rfl <| .cons nofun rfl <| .cons nofun rfl <|
      .cons nofun rfl <| .cons nofun rfl <| .cons nofun rfl <| .cons nofun rfl <|
      .cons nofun rfl <| .cons nofun rfl <| .cons nofun rfl <| .cons nofun rfl <|
      .cons trivial rfl <| .cons nofun rfl <| .cons nofun rfl trivial
  have hsettled : Settled s := by
    refine ⟨fun t k hpoint => ?_, by rw [hssid]; decide⟩
    cases t with
    | false => exact nomatch hfalse.symm.trans hpoint
    | true =>
      rw [← Option.some.inj (htrue.symm.trans hpoint)]
      exact id
  have hcopy : (program true).threads.step s (.next true .fine) =
      some (s.goTo true s.shared (some (.workSave s.shared.station.copy))) := by
    simp only [Program.threads, htrue]
    rfl
  have hrun : (program true).threads.Run CopiesSettled (.start (.init Bool true))
      (joinedAndTested ++ [.next true .fine]) _ :=
    (Machine.Run.of_exec hs hadmitted).append (.cons (fun _ => hsettled) hcopy (.nil _))
  have hpoint := Threads.goTo_point_self s true s.shared
    (some (Point.workSave s.shared.station.copy))
  exact ⟨_, _, hrun.exec_eq, hpoint, saved_accepted hrun hpoint rfl⟩

/-- Another network. -/
def otherReport : RtWlanInfo := { Lock.ssidInfo [0x62, 0x61, 0x72, 0] with channel := 11 }

/-- As above, but a second call of thread `false` has overwritten the pair and runs its join
when the work thread copies. -/
def secondJoin : List (ThreadAction Bool Call Choice) :=
  joinedAndTested ++
    (.call false (.connectAdv (some otherReport) (some [0x78, 0])) ::
      List.replicate 7 (.next false .fine)) ++ [.next true .fine]

/-- The work thread saves the pair of a join that is still running. -/
theorem not_saved_accepted_second_join :
    ¬ ∀ s, (program true).threads.Run Machine.anyStep (.start (.init Bool true)) secondJoin s →
      ∀ t k cfgInfo, s.point t = some k → k.saves = some cfgInfo →
        cfgInfo.Accepted s.shared.station := by
  intro h
  have hexec : ((program true).threads.exec (.start (.init Bool true)) secondJoin).map
      (fun s => (((s.point true).bind Point.saves).map CfgCopy.infoJoin,
        s.shared.station.joins.map Join.outcome)) =
      some (some (some 1), [.connected, .running]) := rfl
  obtain ⟨s, hs, hfinal⟩ := Option.map_eq_some_iff.mp hexec
  obtain ⟨hsaves, hjoins⟩ := Prod.mk.inj hfinal
  obtain ⟨cfgInfo, hcfgInfo, htag⟩ := Option.map_eq_some_iff.mp hsaves
  obtain ⟨k, hpoint, hk⟩ := Option.bind_eq_some_iff.mp hcfgInfo
  obtain ⟨j, join, hof, houtcome⟩ :=
    h s (Machine.Run.of_exec hs (Machine.admitted_anyStep _ _)) true k cfgInfo hpoint hk
  obtain rfl : j = 1 := Option.some.inj (hof.infoJoin.symm.trans htag)
  have hentry : (s.shared.station.joins.map Join.outcome)[1]? = some .connected := by
    rw [List.getElem?_map, hof.entry, ← houtcome]
    rfl
  rw [hjoins] at hentry
  exact nomatch hentry

end Gd32Vw553h.Wlan.SavedPair
