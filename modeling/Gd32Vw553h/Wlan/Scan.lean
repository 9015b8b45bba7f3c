/-
  Wlan/Scan.lean --- `rt_wlan_scan_with_info` and the completion it waits for
  (`components/drivers/wlan/dev_wlan_mgnt.c`, `dev_wlan.c`, `src/ipc.c`).

  The caller creates a completion, starts the driver's scan and waits until
  `RT_WLAN_DEV_EVT_SCAN_DONE` has been indicated.  An indication may come before
  the wait (it is then found in `event_flag`) or during it (`rt_event_send` wakes
  the waiter); `rtWlanScanWithInfo_ok_iff` says that only whether it comes matters.
-/
import Gd32Vw553h.Wlan.Connect

set_option autoImplicit false

namespace Gd32Vw553h.Wlan

open Gd32Vw553h.Klibc

/-! ## Data -/

/-- `rt_wlan_dev_event_t` -/
inductive RtWlanDevEvent where
  | initDone
  | connect
  | connectFail
  | disconnect
  | apStart
  | apStop
  | apAssociated
  | apDisassociated
  | apAssociateFailed
  | scanReport
  | scanDone
  deriving DecidableEq

/-- The value of the enumerator. -/
def RtWlanDevEvent.value : RtWlanDevEvent → UInt32
  | initDone => 0
  | connect => 1
  | connectFail => 2
  | disconnect => 3
  | apStart => 4
  | apStop => 5
  | apAssociated => 6
  | apDisassociated => 7
  | apAssociateFailed => 8
  | scanReport => 9
  | scanDone => 10

/-- `0x1 << event` -/
def RtWlanDevEvent.bit (event : RtWlanDevEvent) : UInt32 := 0x1 <<< event.value

/-- `struct rt_scan_info` -/
structure RtScanInfo where
  ssid : RtWlanSsid
  bssid : Vector UInt8 6
  channelMin : Int16
  channelMax : Int16
  passive : Bool
  deriving DecidableEq

/-- `struct rt_wlan_complete_des`: `event_flag`, and the `set` of its event object. -/
structure RtWlanCompleteDes where
  eventFlag : UInt32
  set : UInt32

/-! ## The completion -/

/-- `rt_wlan_complete_create`, when memory and a table entry are free. -/
def RtWlanCompleteDes.create : RtWlanCompleteDes := ⟨0, 0⟩

/-- What `rt_wlan_event_dispatch` does to every entry of `complete_tab`. -/
def RtWlanCompleteDes.dispatch (complete : RtWlanCompleteDes) (event : RtWlanDevEvent) :
    RtWlanCompleteDes where
  eventFlag := complete.eventFlag ||| event.bit
  set := complete.set ||| event.bit

/-- `rt_event_recv` with `RT_EVENT_FLAG_OR`: the error code and `recved`.  `later` are
the events dispatched before the timeout; the first one in `set` wakes the waiter. -/
def rtEventRecv (set : UInt32) :
    RtWlanCompleteDes → List RtWlanDevEvent → Int × UInt32
  | complete, [] =>
      if complete.set &&& set ≠ 0 then (0, complete.set &&& set) else (-rtETimeout, 0)
  | complete, event :: later =>
      if complete.set &&& set ≠ 0 then (0, complete.set &&& set)
      else rtEventRecv set (complete.dispatch event) later

/-- `rt_wlan_complete_wait` -/
def rtWlanCompleteWait (complete : RtWlanCompleteDes) (event : UInt32)
    (later : List RtWlanDevEvent) : Int × UInt32 :=
  if complete.eventFlag &&& event ≠ 0 then (0, complete.eventFlag)
  else rtEventRecv event complete later

/-! ## The scan -/

/-- The SSID of `info`, when there is one, is within the limit. -/
def ScanSsidFits (info : Option RtWlanInfo) : Prop :=
  ∀ i ∈ info, i.ssid.len.toNat ≤ rtWlanSsidMaxLength

instance (info : Option RtWlanInfo) : Decidable (ScanSsidFits info) :=
  decidable_of_iff (info.all fun i => i.ssid.len.toNat ≤ rtWlanSsidMaxLength) (by
    cases info <;> simp [ScanSsidFits])

/-- The `scan_info` of `rt_wlan_dev_scan`. -/
def scanInfo (info : RtWlanInfo) : RtScanInfo where
  ssid := info.ssid
  bssid := info.bssid
  channelMin := if info.channel > 0 then info.channel else -1
  channelMax := if info.channel > 0 then info.channel else -1
  passive := info.hidden ≠ 0

section Scan

variable (driver : Option RtScanInfo → Int) (device created : Bool) (info : Option RtWlanInfo)

/-- `rt_wlan_dev_scan`; `driver` is the device's `wlan_scan`. -/
def rtWlanDevScan : Int :=
  if !device then -rtEIo
  else if ¬ ScanSsidFits info then -rtEInval
  else driver (info.map scanInfo)

/-- `rt_wlan_scan_with_info`.  `early` are the device's events between the creation
of the completion and the wait, `late` those during the wait. -/
def rtWlanScanWithInfo (early late : List RtWlanDevEvent) : Int :=
  if !device then -rtEInval
  else if ¬ ScanSsidFits info then -rtEInval
  else if !created then -rtEIo
  else if rtWlanDevScan driver device info ≠ 0 then -rtError
  else
    let complete := early.foldl RtWlanCompleteDes.dispatch .create
    let recved := (rtWlanCompleteWait complete RtWlanDevEvent.scanDone.bit late).2
    if recved &&& RtWlanDevEvent.scanDone.bit = 0 then -rtETimeout else 0

end Scan

/-! ## When the waiter is released -/

/-- No two events share a bit. -/
theorem bit_and_scanDone (event : RtWlanDevEvent) :
    event.bit &&& RtWlanDevEvent.scanDone.bit = 0 ↔ event ≠ .scanDone := by
  cases event <;> decide

theorem dispatch_flag_eq_zero (flag : UInt32) (event : RtWlanDevEvent) :
    (flag ||| event.bit) &&& RtWlanDevEvent.scanDone.bit = 0 ↔
      flag &&& RtWlanDevEvent.scanDone.bit = 0 ∧ event ≠ .scanDone := by
  have hdistrib : (flag ||| event.bit) &&& RtWlanDevEvent.scanDone.bit =
      flag &&& RtWlanDevEvent.scanDone.bit ||| event.bit &&& RtWlanDevEvent.scanDone.bit := by
    apply UInt32.eq_of_toBitVec_eq
    simp only [UInt32.toBitVec_and, UInt32.toBitVec_or, BitVec.and_or_distrib_right]
  rw [hdistrib, UInt32.or_eq_zero_iff, bit_and_scanDone]

/-- Both words of a completion collect the events dispatched. -/
theorem foldl_dispatch (complete : RtWlanCompleteDes) (events : List RtWlanDevEvent)
    (heq : complete.eventFlag = complete.set) :
    (events.foldl RtWlanCompleteDes.dispatch complete).eventFlag =
        (events.foldl RtWlanCompleteDes.dispatch complete).set ∧
      ((events.foldl RtWlanCompleteDes.dispatch complete).set &&&
          RtWlanDevEvent.scanDone.bit = 0 ↔
        complete.set &&& RtWlanDevEvent.scanDone.bit = 0 ∧ .scanDone ∉ events) := by
  induction events generalizing complete with
  | nil => simpa using heq
  | cons event rest ih =>
    have hnext : (complete.dispatch event).eventFlag = (complete.dispatch event).set := by
      simp [RtWlanCompleteDes.dispatch, heq]
    obtain ⟨hflag, hset⟩ := ih (complete.dispatch event) hnext
    refine ⟨hflag, hset.trans ?_⟩
    rw [List.mem_cons, not_or, ← and_assoc]
    exact and_congr_left fun _ =>
      (dispatch_flag_eq_zero complete.set event).trans (and_congr_right fun _ => ne_comm)

/-- The wait receives the event if it was dispatched before or comes later. -/
theorem rtEventRecv_eq_zero (complete : RtWlanCompleteDes) (later : List RtWlanDevEvent) :
    (rtEventRecv RtWlanDevEvent.scanDone.bit complete later).2 &&&
        RtWlanDevEvent.scanDone.bit = 0 ↔
      complete.set &&& RtWlanDevEvent.scanDone.bit = 0 ∧ .scanDone ∉ later := by
  induction later generalizing complete with
  | nil =>
    unfold rtEventRecv
    by_cases hset : complete.set &&& RtWlanDevEvent.scanDone.bit = 0
    · simp [hset]
    · simp [hset, UInt32.and_assoc]
  | cons event rest ih =>
    unfold rtEventRecv
    by_cases hset : complete.set &&& RtWlanDevEvent.scanDone.bit = 0
    · have hnext := dispatch_flag_eq_zero complete.set event
      simp only [hset, not_true_eq_false, ne_eq, if_false, ih, true_and] at hnext ⊢
      rw [RtWlanCompleteDes.dispatch, hnext, List.mem_cons, not_or]
      exact and_congr_left fun _ => ne_comm
    · simp [hset, UInt32.and_assoc]

/-- A caller whose scan was started returns `RT_EOK`, and not `-RT_ETIMEOUT`, exactly
when `RT_WLAN_DEV_EVT_SCAN_DONE` was dispatched before or during the wait. -/
theorem rtWlanScanWithInfo_ok_iff {driver : Option RtScanInfo → Int} {info : Option RtWlanInfo}
    (hdriver : driver (info.map scanInfo) = 0) (hinfo : ScanSsidFits info)
    (early late : List RtWlanDevEvent) :
    rtWlanScanWithInfo driver true true info early late = 0 ↔ .scanDone ∈ early ++ late := by
  have hscan : rtWlanDevScan driver true info = 0 := by
    simp [rtWlanDevScan, hinfo, hdriver]
  obtain ⟨hflag, hset⟩ := foldl_dispatch .create early rfl
  have hcreate : RtWlanCompleteDes.create.set &&& RtWlanDevEvent.scanDone.bit = 0 := by decide
  have htimeout : ¬ (-rtETimeout = 0) := by decide
  rw [hcreate, eq_self_iff_true, true_and] at hset
  unfold rtWlanScanWithInfo rtWlanCompleteWait
  simp only [Bool.not_true, Bool.false_eq_true, if_false, hinfo, not_true_eq_false, hscan, ne_eq,
    hflag]
  by_cases hearly : RtWlanDevEvent.scanDone ∈ early
  · have hne := mt hset.mp (not_not_intro hearly)
    simp [hne, hearly]
  · have heq := hset.mpr hearly
    have hrecv := rtEventRecv_eq_zero (early.foldl RtWlanCompleteDes.dispatch .create) late
    simp only [heq, true_and, not_true_eq_false, if_false, List.mem_append, hearly, false_or]
      at hrecv ⊢
    by_cases hlate : RtWlanDevEvent.scanDone ∈ late
    · simp [mt hrecv.mp (not_not_intro hlate), hlate]
    · simp [hrecv.mpr hlate, hlate, htimeout]

end Gd32Vw553h.Wlan
