/-
  Board/Scan.lean --- scanning in the board's WLAN driver (`board/drv_wlan.c`).

  `gd32_wlan_scan` registers two callbacks for the end of the scan and each of the
  two is meant to remove both again.  `scan_done_callback` does so on one of its
  three ways out only, and `scan_fail_callback` and the immediate failure indicate
  nothing.  A history of scans is described by the number of pairs left in the
  registry (`runScan_spec`); `scansBalanced_iff` and `scanCompleted_iff` say exactly
  when the registry is clean and when a caller of `rt_wlan_scan_with_info` is
  released.
-/
import Mathlib.Data.List.Induction
import Gd32Vw553h.Foundation.EventLoop
import Gd32Vw553h.Wlan.Scan

set_option autoImplicit false

namespace Gd32Vw553h.Board

open Gd32Vw553h.Foundation Gd32Vw553h.Wlan

/-! ## Scan results -/

/-- The masks `CO_BIT(..)` of the WiFi library that the driver tests. -/
structure MacBits where
  /-- `CO_BIT(MAC_AKM_NONE)` -/
  akmNone : UInt32
  /-- `CO_BIT(MAC_AKM_PRE_RSN)` -/
  akmPreRsn : UInt32
  /-- `CO_BIT(MAC_CIPHER_TKIP)` -/
  cipherTkip : UInt32
  /-- `CO_BIT(MAC_CIPHER_CCMP)` -/
  cipherCcmp : UInt32

/-- The fields of `struct mac_scan_result` that are read. -/
structure MacScanResult where
  bssid : Vector UInt8 rtWlanBssidMaxLength
  ssidArray : List UInt8
  ssidLength : UInt8
  /-- `chan->freq` -/
  freq : UInt16
  rssi : Int16
  akm : UInt32
  pairwiseCipher : UInt32

/-- `SECURITY_OPEN` -/
abbrev securityOpen : UInt32 := 0
/-- `SECURITY_WEP_PSK` -/
abbrev securityWepPsk : UInt32 := 0x0001
/-- `SECURITY_WPA_TKIP_PSK` -/
abbrev securityWpaTkipPsk : UInt32 := 0x00200000 ||| 0x0002
/-- `SECURITY_WPA_AES_PSK` -/
abbrev securityWpaAesPsk : UInt32 := 0x00200000 ||| 0x0004
/-- `SECURITY_WPA2_AES_PSK` -/
abbrev securityWpa2AesPsk : UInt32 := 0x00400000 ||| 0x0004
/-- `SECURITY_WPA2_TKIP_PSK` -/
abbrev securityWpa2TkipPsk : UInt32 := 0x00400000 ||| 0x0002
/-- `SECURITY_WPA2_MIXED_PSK` -/
abbrev securityWpa2MixedPsk : UInt32 := 0x00400000 ||| 0x0004 ||| 0x0002

/-- `RT_802_11_BAND_2_4GHZ` -/
abbrev rt80211Band24Ghz : UInt32 := 1

/-- `wifi_freq_to_channel` -/
def wifiFreqToChannel (freq : UInt16) : Nat :=
  if freq.toNat ≥ 2412 ∧ freq.toNat ≤ 2484 then
    if freq.toNat = 2484 then 14 else (freq.toNat - 2407) / 5
  else 0

section Report

variable (bits : MacBits) (bssInfo : MacScanResult)

/-- The `security` of a scan result. -/
def scanSecurity : UInt32 :=
  if bssInfo.akm &&& bits.akmNone ≠ 0 then securityOpen
  else if bssInfo.akm = bits.akmPreRsn then securityWepPsk
  else if bssInfo.akm &&& bits.akmPreRsn ≠ 0 then
    if bssInfo.pairwiseCipher &&& bits.cipherTkip ≠ 0 then securityWpaTkipPsk
    else if bssInfo.pairwiseCipher &&& bits.cipherCcmp ≠ 0 then securityWpaAesPsk
    else securityUnknown
  else if bssInfo.pairwiseCipher &&& bits.cipherTkip ≠ 0 ∧
      bssInfo.pairwiseCipher &&& bits.cipherCcmp ≠ 0 then securityWpa2MixedPsk
  else if bssInfo.pairwiseCipher &&& bits.cipherTkip ≠ 0 then securityWpa2TkipPsk
  else if bssInfo.pairwiseCipher &&& bits.cipherCcmp ≠ 0 then securityWpa2AesPsk
  else securityUnknown

/-- The `wlan_info` that `scan_done_callback` fills in for one result. -/
def scanWlanInfo : RtWlanInfo :=
  { RtWlanInfo.zero with
    bssid := bssInfo.bssid
    ssid := {
      len := bssInfo.ssidLength
      val := rtMemcpy RtWlanSsid.zero.val (bssInfo.ssidArray.take bssInfo.ssidLength.toNat) }
    hidden := if bssInfo.ssidLength > 0 then 0 else 1
    channel := Int16.ofNat (wifiFreqToChannel bssInfo.freq)
    rssi := bssInfo.rssi
    band := rt80211Band24Ghz
    security := scanSecurity bits bssInfo }

end Report

/-! ## The driver -/

/-- The two events of the WiFi library that end a scan. -/
inductive WifiMgmtEvent where
  /-- `WIFI_MGMT_EVENT_SCAN_DONE` -/
  | scanDone
  /-- `WIFI_MGMT_EVENT_SCAN_FAIL` -/
  | scanFail
  deriving DecidableEq

inductive ScanCallback where
  | scanDoneCallback
  | scanFailCallback
  deriving DecidableEq

/-- What `rt_wlan_dev_indicate_event_handle` is called with. -/
inductive ScanIndication where
  /-- `RT_WLAN_DEV_EVT_SCAN_REPORT` -/
  | report (wlanInfo : RtWlanInfo)
  /-- `RT_WLAN_DEV_EVT_SCAN_DONE` -/
  | done
  deriving DecidableEq

def ScanIndication.event : ScanIndication → RtWlanDevEvent
  | report _ => .scanReport
  | done => .scanDone

/-- The answers one run of `scan_done_callback` gets. -/
structure ScanAnswers where
  /-- `rt_malloc` returns memory -/
  malloc : Bool
  /-- the results, `none` when `wifi_netlink_scan_results_get` fails -/
  resultsGet : Option (List MacScanResult)

/-- The event loop's registry and the indications made so far. -/
structure ScanState where
  registry : Registry WifiMgmtEvent ScanCallback
  indications : List ScanIndication

namespace ScanState

variable (s : ScanState)

def indicate (indication : ScanIndication) : ScanState :=
  { s with indications := s.indications ++ [indication] }

def eloopEventRegister (event : WifiMgmtEvent) (callback : ScanCallback) : ScanState :=
  { s with registry := s.registry.register event callback }

def gd32EloopEventUnregister (event : WifiMgmtEvent) (callback : ScanCallback) : ScanState :=
  { s with registry := s.registry.unregister event callback }

/-- Nothing is registered and nothing was indicated. -/
def initial : ScanState := ⟨[], []⟩

end ScanState

/-- The two unregistrations that stand together in the source three times. -/
def unregisterBoth (s : ScanState) : ScanState :=
  (s.gd32EloopEventUnregister .scanDone .scanDoneCallback).gd32EloopEventUnregister
    .scanFail .scanFailCallback

section Driver

variable (bits : MacBits)

/-- `scan_done_callback` -/
def scanDoneCallback (answers : ScanAnswers) (s : ScanState) : ScanState :=
  if !answers.malloc then s.indicate .done
  else
    match answers.resultsGet with
    | none => s.indicate .done
    | some results =>
        let s := results.foldl (fun s bssInfo => s.indicate (.report (scanWlanInfo bits bssInfo))) s
        unregisterBoth (s.indicate .done)

/-- `scan_fail_callback` -/
def scanFailCallback (s : ScanState) : ScanState :=
  unregisterBoth s

/-- `gd32_wlan_scan`; `failed` says that `wifi_management_scan` returned nonzero. -/
def gd32WlanScan (s : ScanState) (_scanInfo : Option RtScanInfo) (failed : Bool) :
    Int × ScanState :=
  let s := s.eloopEventRegister .scanDone .scanDoneCallback
  let s := s.eloopEventRegister .scanFail .scanFailCallback
  if failed then (0, unregisterBoth s) else (0, s)

/-- One callback run by the event loop. -/
def runCallback (answers : Nat → ScanAnswers) (s : ScanState) (ran : Nat) :
    ScanCallback → ScanState
  | .scanDoneCallback => scanDoneCallback bits (answers ran) s
  | .scanFailCallback => scanFailCallback s

/-- The event loop runs every callback registered for `event`. -/
def postEvent (answers : Nat → ScanAnswers) (event : WifiMgmtEvent) (s : ScanState) : ScanState :=
  Registry.dispatchFrom (runCallback bits answers) 0 s (s.registry.handlers event)

/-- How a scan ends: at once, or with an event; `answers i` are the answers that the
`i`-th callback run for the event gets. -/
inductive ScanOutcome where
  | immediateFailure
  | posted (event : WifiMgmtEvent) (answers : Nat → ScanAnswers)

def ScanOutcome.startFails : ScanOutcome → Bool
  | immediateFailure => true
  | posted _ _ => false

/-- A call of `gd32_wlan_scan` and the handling of its outcome. -/
def runScan (s : ScanState) (scanInfo : Option RtScanInfo) (outcome : ScanOutcome) : ScanState :=
  let s := (gd32WlanScan s scanInfo outcome.startFails).2
  match outcome with
  | .immediateFailure => s
  | .posted event answers => postEvent bits answers event s

/-- One scan after the other. -/
def runScans (scans : List (Option RtScanInfo × ScanOutcome)) : ScanState :=
  scans.foldl (fun s scan => runScan bits s scan.1 scan.2) .initial

/-- The indications made for one call. -/
def callIndications (s : ScanState) (scanInfo : Option RtScanInfo) (outcome : ScanOutcome) :
    List ScanIndication :=
  (runScan bits s scanInfo outcome).indications.drop s.indications.length

end Driver

/-! ## What one callback does -/

/-- `scan_done_callback` gets as far as its unregistrations. -/
def ScanAnswers.Succeeds (answers : ScanAnswers) : Prop :=
  answers.malloc = true ∧ answers.resultsGet.isSome = true

instance (answers : ScanAnswers) : Decidable answers.Succeeds := inferInstanceAs (Decidable (_ ∧ _))

/-- The results that `scan_done_callback` reports. -/
def ScanAnswers.reported (answers : ScanAnswers) : List MacScanResult :=
  if answers.malloc then answers.resultsGet.getD [] else []

section Callbacks

variable (bits : MacBits)

/-- What `scan_done_callback` indicates: its reports, then the end. -/
def callbackIndications (answers : ScanAnswers) : List ScanIndication :=
  answers.reported.map (fun bssInfo => .report (scanWlanInfo bits bssInfo)) ++ [.done]

theorem foldl_indicate (results : List MacScanResult) (s : ScanState) :
    results.foldl (fun s bssInfo => s.indicate (.report (scanWlanInfo bits bssInfo))) s =
      { s with indications := s.indications ++
          results.map fun bssInfo => .report (scanWlanInfo bits bssInfo) } := by
  induction results generalizing s with
  | nil => simp
  | cons bssInfo rest ih =>
    rw [List.foldl_cons, ih]
    simp [ScanState.indicate]

/-- On every way out the reports end with one `SCAN_DONE`; the registrations go
only when everything succeeds. -/
theorem scanDoneCallback_eq (answers : ScanAnswers) (s : ScanState) :
    scanDoneCallback bits answers s =
      { registry := if answers.Succeeds then (unregisterBoth s).registry else s.registry
        indications := s.indications ++ callbackIndications bits answers } := by
  obtain ⟨malloc, resultsGet⟩ := answers
  unfold scanDoneCallback callbackIndications ScanAnswers.reported ScanAnswers.Succeeds
  cases malloc with
  | false => simp [ScanState.indicate]
  | true =>
    cases resultsGet with
    | none => simp [ScanState.indicate]
    | some results =>
      simp only [Bool.not_true, Bool.false_eq_true, if_false, foldl_indicate]
      simp [ScanState.indicate, unregisterBoth, ScanState.gd32EloopEventUnregister]

end Callbacks

/-! ## Left-over registrations -/

/-- The registry holds `n` pairs of the two callbacks. -/
def HasPairs (n : Nat) (s : ScanState) : Prop :=
  s.registry =
    Registry.paired (.scanDone, .scanDoneCallback) (.scanFail, .scanFailCallback) n

theorem hasPairs_initial : HasPairs 0 ScanState.initial := rfl

theorem HasPairs.unregisterBoth {n : Nat} {s : ScanState} (h : HasPairs n s) :
    HasPairs (n - 1) (unregisterBoth s) := by
  unfold HasPairs at h ⊢
  simp only [Board.unregisterBoth, ScanState.gd32EloopEventUnregister, h]
  exact Registry.paired_unregister _ _ n

/-- How many of the first `ran` callbacks succeeded. -/
def succeeded (answers : Nat → ScanAnswers) (ran : Nat) : Nat :=
  (List.range ran).countP fun i => decide (answers i).Succeeds

theorem succeeded_succ (answers : Nat → ScanAnswers) (ran : Nat) :
    succeeded answers (ran + 1) =
      succeeded answers ran + if (answers ran).Succeeds then 1 else 0 := by
  simp [succeeded, List.range_succ, List.countP_append, List.countP_singleton]

/-- The pairs left after a scan that found `n` of them. -/
def pairsAfter (n : Nat) : ScanOutcome → Nat
  | .immediateFailure => n
  | .posted .scanDone answers => n + 1 - succeeded answers (n + 1)
  | .posted .scanFail _ => 0

/-- What a scan that found `n` pairs indicates: every left-over callback reports. -/
def indicationsAfter (bits : MacBits) (n : Nat) : ScanOutcome → List ScanIndication
  | .posted .scanDone answers =>
      (List.range (n + 1)).flatMap fun i => callbackIndications bits (answers i)
  | _ => []

section Scans

variable (bits : MacBits)

/-- `ran` of the callbacks of a SCAN_DONE event have run. -/
theorem HasPairs.runCallback_done {answers : Nat → ScanAnswers} {n ran : Nat} {s : ScanState}
    (h : HasPairs (n - succeeded answers ran) s) :
    HasPairs (n - succeeded answers (ran + 1))
      (runCallback bits answers s ran .scanDoneCallback) := by
  unfold runCallback
  rw [scanDoneCallback_eq, succeeded_succ]
  by_cases hsucceeds : (answers ran).Succeeds
  · have hremoved := h.unregisterBoth
    simpa [hsucceeds, HasPairs, Nat.sub_sub] using hremoved
  · simpa [hsucceeds, HasPairs] using h

theorem postEvent_done (answers : Nat → ScanAnswers) {n : Nat} {s : ScanState}
    (h : HasPairs n s) :
    HasPairs (n - succeeded answers n) (postEvent bits answers .scanDone s) ∧
      (postEvent bits answers .scanDone s).indications =
        s.indications ++ (List.range n).flatMap fun i => callbackIndications bits (answers i) := by
  have hhandlers : s.registry.handlers .scanDone = List.replicate n .scanDoneCallback := by
    rw [h]
    exact Registry.handlers_paired_left _ _ (by decide) n
  -- after `ran` callbacks: the pairs that are left, and what they have indicated
  have hrun := Registry.dispatchFrom_invariant (runCallback bits answers)
    (fun ran mid => HasPairs (n - succeeded answers ran) mid ∧ mid.indications =
      s.indications ++ (List.range ran).flatMap fun i => callbackIndications bits (answers i))
    (s.registry.handlers .scanDone) ?_ (i := 0) (s := s) ⟨h, by simp⟩
  · rw [hhandlers, List.length_replicate, Nat.zero_add, ← hhandlers] at hrun
    exact hrun
  · rintro ran mid callback hmem ⟨hpairs, hindications⟩
    rw [hhandlers] at hmem
    obtain rfl := List.eq_of_mem_replicate hmem
    refine ⟨hpairs.runCallback_done bits, ?_⟩
    simp [runCallback, scanDoneCallback_eq, hindications, List.range_succ]

theorem postEvent_fail (answers : Nat → ScanAnswers) {n : Nat} {s : ScanState}
    (h : HasPairs n s) :
    HasPairs 0 (postEvent bits answers .scanFail s) ∧
      (postEvent bits answers .scanFail s).indications = s.indications := by
  have hhandlers : s.registry.handlers .scanFail = List.replicate n .scanFailCallback := by
    rw [h]
    exact Registry.handlers_paired_right _ _ (by decide) n
  have hrun := Registry.dispatchFrom_invariant (runCallback bits answers)
    (fun ran mid => HasPairs (n - ran) mid ∧ mid.indications = s.indications)
    (s.registry.handlers .scanFail) ?_ (i := 0) (s := s) ⟨h, rfl⟩
  · rw [hhandlers, List.length_replicate, Nat.zero_add, Nat.sub_self, ← hhandlers] at hrun
    exact hrun
  · rintro ran mid callback hmem ⟨hpairs, hindications⟩
    rw [hhandlers] at hmem
    obtain rfl := List.eq_of_mem_replicate hmem
    exact ⟨hpairs.unregisterBoth, hindications⟩

/-- One scan, from any number of pairs left over. -/
theorem runScan_spec {n : Nat} {s : ScanState} (h : HasPairs n s)
    (scanInfo : Option RtScanInfo) (outcome : ScanOutcome) :
    HasPairs (pairsAfter n outcome) (runScan bits s scanInfo outcome) ∧
      (runScan bits s scanInfo outcome).indications =
        s.indications ++ indicationsAfter bits n outcome := by
  let started : ScanState :=
    (s.eloopEventRegister .scanDone .scanDoneCallback).eloopEventRegister
      .scanFail .scanFailCallback
  have hstarted : HasPairs (n + 1) started := by
    unfold HasPairs at h ⊢
    simp only [started, ScanState.eloopEventRegister, h]
    exact Registry.paired_register _ _ n
  cases outcome with
  | immediateFailure =>
    refine ⟨hstarted.unregisterBoth, ?_⟩
    simp [runScan, gd32WlanScan, ScanOutcome.startFails, indicationsAfter,
      ScanState.eloopEventRegister, unregisterBoth, ScanState.gd32EloopEventUnregister]
  | posted event answers =>
    cases event with
    | scanDone => exact postEvent_done bits answers hstarted
    | scanFail =>
      obtain ⟨hpairs, hindications⟩ := postEvent_fail bits answers hstarted
      exact ⟨hpairs, hindications.trans (by simp [started, ScanState.eloopEventRegister,
        indicationsAfter])⟩

/-- The pairs left over after a history of scans. -/
def leftOver (scans : List (Option RtScanInfo × ScanOutcome)) : Nat :=
  scans.foldl (fun n scan => pairsAfter n scan.2) 0

theorem leftOver_snoc (scans : List (Option RtScanInfo × ScanOutcome))
    (scan : Option RtScanInfo × ScanOutcome) :
    leftOver (scans ++ [scan]) = pairsAfter (leftOver scans) scan.2 := by
  simp [leftOver]

/-- The registry after a history of scans is described by the number of pairs left. -/
theorem runScans_hasPairs (scans : List (Option RtScanInfo × ScanOutcome)) :
    HasPairs (leftOver scans) (runScans bits scans) := by
  induction scans using List.reverseRecOn with
  | nil => exact hasPairs_initial
  | append_singleton scans scan ih =>
    rw [leftOver_snoc, runScans, List.foldl_append]
    exact (runScan_spec bits ih scan.1 scan.2).1

theorem callIndications_eq {n : Nat} {s : ScanState} (h : HasPairs n s)
    (scanInfo : Option RtScanInfo) (outcome : ScanOutcome) :
    callIndications bits s scanInfo outcome = indicationsAfter bits n outcome := by
  rw [callIndications, (runScan_spec bits h scanInfo outcome).2, List.drop_left]

end Scans

/-! ## The balance of the registrations -/

/-- Neither callback is registered, for any event. -/
def Unregistered (s : ScanState) : Prop :=
  ∀ entry ∈ s.registry, entry.2 ≠ .scanDoneCallback ∧ entry.2 ≠ .scanFailCallback

theorem HasPairs.unregistered_iff {n : Nat} {s : ScanState} (h : HasPairs n s) :
    Unregistered s ↔ n = 0 := by
  unfold Unregistered
  rw [h]
  cases n <;> simp [Registry.paired]

/-- `scan_done_callback` is registered exactly when a pair is left over. -/
theorem HasPairs.doneUnregistered_iff {n : Nat} {s : ScanState} (h : HasPairs n s) :
    (∀ entry ∈ s.registry, entry.2 ≠ .scanDoneCallback) ↔ n = 0 := by
  rw [h]
  cases n <;> simp [Registry.paired]

/-- The scan does not end with an event for which the first callback runs out of
memory or gets no results. -/
def ScanOutcome.ResultsObtained : ScanOutcome → Prop
  | posted .scanDone answers => (answers 0).Succeeds
  | _ => True

theorem pairsAfter_zero_iff (outcome : ScanOutcome) :
    pairsAfter 0 outcome = 0 ↔ outcome.ResultsObtained := by
  cases outcome with
  | immediateFailure => simp [pairsAfter, ScanOutcome.ResultsObtained]
  | posted event answers =>
    cases event with
    | scanFail => simp [pairsAfter, ScanOutcome.ResultsObtained]
    | scanDone =>
      have hone : succeeded answers 1 = if (answers 0).Succeeds then 1 else 0 := by
        rw [succeeded_succ]
        simp [succeeded]
      rw [pairsAfter, Nat.zero_add, hone, ScanOutcome.ResultsObtained]
      by_cases hsucceeds : (answers 0).Succeeds <;> simp [hsucceeds]

theorem leftOver_eq_zero {scans : List (Option RtScanInfo × ScanOutcome)}
    (hobtained : ∀ scan ∈ scans, scan.2.ResultsObtained) : leftOver scans = 0 := by
  induction scans using List.reverseRecOn with
  | nil => rfl
  | append_singleton scans scan ih =>
    rw [leftOver_snoc, ih fun earlier h => hobtained earlier (List.mem_append_left _ h),
      pairsAfter_zero_iff]
    exact hobtained scan (List.mem_append_right scans (List.mem_singleton_self scan))

section Balance

variable (bits : MacBits)

theorem count_done_callbackIndications (answers : ScanAnswers) :
    (callbackIndications bits answers).count .done = 1 := by
  have hreports : ScanIndication.done ∉
      answers.reported.map fun bssInfo => .report (scanWlanInfo bits bssInfo) := by simp
  rw [callbackIndications, List.count_append, List.count_eq_zero_of_not_mem hreports]
  rfl

/-- Each callback that runs ends with one `SCAN_DONE`. -/
theorem count_done_flatMap (answers : Nat → ScanAnswers) (n : Nat) :
    ((List.range n).flatMap fun i => callbackIndications bits (answers i)).count .done = n := by
  induction n with
  | zero => rfl
  | succ n ih =>
    rw [List.range_succ, List.flatMap_append, List.count_append, ih, List.flatMap_singleton,
      count_done_callbackIndications]

theorem indicationsAfter_zero_count (outcome : ScanOutcome) :
    (indicationsAfter bits 0 outcome).count .done ≤ 1 := by
  cases outcome with
  | immediateFailure => exact Nat.zero_le 1
  | posted event answers =>
    cases event with
    | scanFail => exact Nat.zero_le 1
    | scanDone => exact (count_done_flatMap bits answers 1).le

/-- What the registrations are meant to come to over a history of scans. -/
structure ScansBalanced (scans : List (Option RtScanInfo × ScanOutcome)) : Prop where
  /-- once an outcome is handled nothing is registered any more -/
  unregistered : ∀ handled later, scans = handled ++ later →
    Unregistered (runScans bits handled)
  /-- no scan is reported twice -/
  reportedOnce : ∀ handled scan later, scans = handled ++ scan :: later →
    (callIndications bits (runScans bits handled) scan.1 scan.2).count .done ≤ 1

/-- The registrations balance over a history exactly when `scan_done_callback` has
found memory and results every time. -/
theorem scansBalanced_iff (scans : List (Option RtScanInfo × ScanOutcome)) :
    ScansBalanced bits scans ↔ ∀ scan ∈ scans, scan.2.ResultsObtained := by
  constructor
  · intro h scan hscan
    obtain ⟨handled, later, rfl⟩ := List.append_of_mem hscan
    have hbefore : leftOver handled = 0 :=
      (runScans_hasPairs bits handled).unregistered_iff.mp (h.unregistered handled _ rfl)
    have hafter : leftOver (handled ++ [scan]) = 0 :=
      (runScans_hasPairs bits _).unregistered_iff.mp
        (h.unregistered (handled ++ [scan]) later (by simp))
    rw [leftOver_snoc, hbefore] at hafter
    exact (pairsAfter_zero_iff scan.2).mp hafter
  · intro hobtained
    have hclean : ∀ handled later, scans = handled ++ later → leftOver handled = 0 := by
      rintro handled later rfl
      exact leftOver_eq_zero fun scan h => hobtained scan (List.mem_append_left later h)
    constructor
    · intro handled later hsplit
      exact (runScans_hasPairs bits handled).unregistered_iff.mpr (hclean handled later hsplit)
    · intro handled scan later hsplit
      have hpairs := runScans_hasPairs bits handled
      rw [hclean handled _ hsplit] at hpairs
      rw [callIndications_eq bits hpairs]
      exact indicationsAfter_zero_count bits scan.2

/-- `CO_BIT` of the first enumerators. -/
def sampleBits : MacBits := ⟨1, 2, 2, 4⟩

/-- A scan whose `scan_done_callback` gets no memory. -/
def outOfMemory : ScanOutcome := .posted .scanDone fun _ => ⟨false, none⟩

/-- After one failed allocation both callbacks stay registered. -/
theorem not_scansBalanced_outOfMemory : ¬ ScansBalanced sampleBits [(none, outOfMemory)] := by
  intro h
  have hclean := h.unregistered [(none, outOfMemory)] [] rfl
  have hmem : (WifiMgmtEvent.scanDone, ScanCallback.scanDoneCallback) ∈
      (runScans sampleBits [(none, outOfMemory)]).registry := by decide
  exact (hclean _ hmem).1 rfl

/-- The scan after a failed allocation ends twice. -/
example : callIndications bits
    (runScans bits [(none, .posted .scanDone fun _ => ⟨false, none⟩)]) none
    (.posted .scanDone fun _ => ⟨true, some []⟩) = [.done, .done] := rfl

end Balance

/-! ## The end of a scan -/

section Completion

variable (bits : MacBits)

/-- The scan ends with `WIFI_MGMT_EVENT_SCAN_DONE`. -/
def ScanOutcome.IsScanDone : ScanOutcome → Prop
  | posted .scanDone _ => True
  | _ => False

def isScanEvent (event : RtWlanDevEvent) : Bool :=
  event = .scanReport ∨ event = .scanDone

/-- What a call of `gd32_wlan_scan` is meant to indicate; every call returns
`RT_EOK`. -/
structure ScanCompleted (s : ScanState) (scanInfo : Option RtScanInfo)
    (outcome : ScanOutcome) : Prop where
  /-- one `SCAN_DONE`, after all the reports -/
  doneOnceLast : ∃ infos : List RtWlanInfo,
    callIndications bits s scanInfo outcome = infos.map .report ++ [.done]
  /-- whoever waits in `rt_wlan_scan_with_info` is released by the events of this call,
  wherever they fall and whatever else the device indicates in between -/
  released : ∀ (info : Option RtWlanInfo) (early late : List RtWlanDevEvent),
    info.map Wlan.scanInfo = scanInfo → ScanSsidFits info →
    (early ++ late).filter isScanEvent =
      (callIndications bits s scanInfo outcome).map ScanIndication.event →
    rtWlanScanWithInfo (fun request => (gd32WlanScan s request outcome.startFails).1)
      true true info early late = 0

theorem gd32WlanScan_ok (s : ScanState) (scanInfo : Option RtScanInfo) (failed : Bool) :
    (gd32WlanScan s scanInfo failed).1 = 0 := by
  cases failed <;> rfl

/-- A scan from a clean registry that ends with SCAN_DONE completes. -/
theorem scanCompleted_of_clean {s : ScanState} (h : HasPairs 0 s)
    (scanInfo : Option RtScanInfo) (answers : Nat → ScanAnswers) :
    ScanCompleted bits s scanInfo (.posted .scanDone answers) := by
  have hcall : callIndications bits s scanInfo (.posted .scanDone answers) =
      callbackIndications bits (answers 0) := by
    rw [callIndications_eq bits h]
    simp [indicationsAfter]
  constructor
  · refine ⟨(answers 0).reported.map (scanWlanInfo bits), ?_⟩
    rw [hcall, callbackIndications, List.map_map]
    rfl
  · intro info early late _ hinfo hevents
    have hmem : RtWlanDevEvent.scanDone ∈ (early ++ late).filter isScanEvent := by
      rw [hevents, hcall]
      simp [callbackIndications, ScanIndication.event]
    exact (rtWlanScanWithInfo_ok_iff (gd32WlanScan_ok s _ _) hinfo early late).mpr
      (List.mem_filter.mp hmem).1

/-- Over every history of scans, a call completes as meant exactly when it ends with
SCAN_DONE and no earlier scan has left `scan_done_callback` registered. -/
theorem scanCompleted_iff (scans : List (Option RtScanInfo × ScanOutcome))
    (scanInfo : Option RtScanInfo) (outcome : ScanOutcome) :
    ScanCompleted bits (runScans bits scans) scanInfo outcome ↔
      outcome.IsScanDone ∧
        ∀ entry ∈ (runScans bits scans).registry, entry.2 ≠ .scanDoneCallback := by
  have hpairs := runScans_hasPairs bits scans
  rw [hpairs.doneUnregistered_iff]
  constructor
  · intro h
    obtain ⟨infos, hcall⟩ := h.doneOnceLast
    rw [callIndications_eq bits hpairs] at hcall
    have hcount := congrArg (List.count ScanIndication.done) hcall
    have hreports : ScanIndication.done ∉ infos.map ScanIndication.report := by simp
    rw [List.count_append, List.count_eq_zero_of_not_mem hreports] at hcount
    cases outcome with
    | immediateFailure => exact absurd hcount Nat.zero_ne_one
    | posted event answers =>
      cases event with
      | scanFail => exact absurd hcount Nat.zero_ne_one
      | scanDone =>
        refine ⟨trivial, ?_⟩
        rw [indicationsAfter, count_done_flatMap] at hcount
        simpa using hcount
  · rintro ⟨hdone, hclean⟩
    rw [hclean] at hpairs
    cases outcome with
    | immediateFailure => exact absurd hdone id
    | posted event answers =>
      cases event with
      | scanFail => exact absurd hdone id
      | scanDone => exact scanCompleted_of_clean bits hpairs scanInfo answers

/-- A scan that cannot be started returns `RT_EOK` and is never indicated. -/
theorem not_scanCompleted_immediateFailure :
    ¬ ScanCompleted sampleBits (runScans sampleBits []) none .immediateFailure := by
  intro h
  obtain ⟨infos, hcall⟩ := h.doneOnceLast
  have hnone : callIndications sampleBits (runScans sampleBits []) none .immediateFailure = [] := by
    decide
  rw [hnone] at hcall
  simp at hcall

end Completion

end Gd32Vw553h.Board
