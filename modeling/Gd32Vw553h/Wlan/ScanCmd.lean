/-
  Wlan/ScanCmd.lean --- the shell command `wifi scan`
  (`components/drivers/wlan/dev_wlan_cmd.c`, `dev_wlan_mgnt.c`).

  `wifi_scan` registers `user_ap_info_callback` with the address of its local counter,
  points `scan_filter` to its local filter, runs a scan, empties `scan_result` and
  returns; nothing takes the registration back.  The reports come through the wlan work
  queue at any time, also from scans of others.  `wifiScan_leavesNothing` says when a
  run of commands leaves neither pointer nor result behind.
-/
import Gd32Vw553h.Foundation.Runs
import Gd32Vw553h.Wlan.JoinScan

set_option autoImplicit false

namespace Gd32Vw553h.Wlan.ScanCmd

open Gd32Vw553h.Foundation Gd32Vw553h.Klibc
open JoinScan (RtWlanEvent)

/-! ## The cache of results -/

/-- `RT_WLAN_SCAN_CACHE_NUM` -/
abbrev rtWlanScanCacheNum : Nat := 50

/-- `struct rt_wlan_scan_result` -/
structure RtWlanScanResult where
  num : Nat
  info : Option (List RtWlanInfo)
  deriving DecidableEq

def RtWlanScanResult.empty : RtWlanScanResult := ⟨0, none⟩

/-- `wifi_info_isequ`: the fields that both sides know agree. -/
def wifiInfoIsequ (info1 info2 : RtWlanInfo) : Bool :=
  let zero : Vector UInt8 rtWlanBssidMaxLength := Vector.replicate _ 0
  (!(info1.security ≠ securityUnknown ∧ info2.security ≠ securityUnknown) ||
      info2.security == info1.security) &&
  (!(info1.ssid.len > 0 ∧ info2.ssid.len > 0) ||
      info1.ssid.len == info2.ssid.len &&
        info2.ssid.val.toList.take info1.ssid.len.toNat ==
          info1.ssid.val.toList.take info1.ssid.len.toNat) &&
  (!(info1.bssid ≠ zero ∧ info2.bssid ≠ zero) || info1.bssid == info2.bssid) &&
  (!(info1.datarate ≠ 0 ∧ info2.datarate ≠ 0) || info1.datarate == info2.datarate) &&
  (!(info1.channel ≥ 0 ∧ info2.channel ≥ 0) || info1.channel == info2.channel) &&
  (!(info1.rssi < 0 ∧ info2.rssi < 0) || info1.rssi == info2.rssi)

/-- The comparisons of `RT_WLAN_SCAN_SORT`: the report goes before the entry. -/
def sortsBefore (info entry : RtWlanInfo) : Bool :=
  if (info.rssi < 0 ∧ entry.rssi < 0) ∧ info.rssi ≠ entry.rssi then info.rssi > entry.rssi
  else if info.channel ≠ entry.channel then info.channel < entry.channel
  else info.datarate > entry.datarate

/-- The loop over the results: `none` when the report is there already, else `insert`. -/
def scanPlace (info : RtWlanInfo) : Nat → Option Nat → List RtWlanInfo → Option (Option Nat)
  | _, insert, [] => some insert
  | i, insert, entry :: rest =>
    if info.ssid.len = entry.ssid.len ∧ info.bssid = entry.bssid then none
    else
      match insert with
      | some place => scanPlace info (i + 1) (some place) rest
      | none => scanPlace info (i + 1) (if sortsBefore info entry then some i else none) rest

/-- `wifi_scan_result_cache`; `filter` is what `scan_filter` points to, `alloc` whether
`rt_malloc` succeeds. -/
def wifiScanResultCache (filter : Option RtWlanInfo) (alloc : Bool) (info : Option RtWlanInfo)
    (result : RtWlanScanResult) : Int × RtWlanScanResult :=
  match info with
  | none => (-rtEInval, result)
  | some info =>
    if info.ssid.len = 0 then (-rtEInval, result)
    else if filter.any fun f => !wifiInfoIsequ f info then (0, result)
    else
      let table := result.info.getD []
      match scanPlace info 0 none (table.take result.num) with
      | none => (0, result)
      | some insert =>
        let insert := insert.getD result.num
        if result.num ≥ rtWlanScanCacheNum then (0, result)
        else if !alloc then (-rtENoMem, result)
        else (0, ⟨result.num + 1, some (table.take insert ++ info :: table.drop insert)⟩)

/-- `wifi_scan_result_clean` -/
def wifiScanResultClean (result : RtWlanScanResult) : RtWlanScanResult :=
  if result.num ≠ 0 then ⟨0, none⟩ else result

/-! ## The command, the worker and the others -/

/-- `struct rt_wlan_event_desc`: a handler and its parameter. -/
inductive EventDesc where
  | null
  /-- a handler of the application, or `rt_wlan_join_scan_callback` -/
  | other
  /-- `user_ap_info_callback` with `&i` of the call of this number -/
  | userApInfo (call : Nat)
  deriving DecidableEq

/-- `struct rt_wlan_msg` -/
inductive Msg where
  | report (info : Option RtWlanInfo)
  | other (event : RtWlanEvent)

def Msg.event : Msg → RtWlanEvent
  | report _ => .scanReport
  | other event => event

/-- `rt_wlan_mgnt_work` -/
inductive Worker where
  | idle
  | taken (msg : Msg)
  /-- the handler has been read from `event_tab` -/
  | handling (msg : Msg) (desc : EventDesc)
  /-- the callback has cached the report; `index` has been read from its parameter -/
  | counting (call : Nat) (info : RtWlanInfo) (index : Int)

/-- The call whose counter the worker has the address of. -/
def Worker.call : Worker → Option Nat
  | handling _ (.userApInfo call) => some call
  | counting call _ _ => some call
  | _ => none

/-- Where `wifi_scan` stands. -/
inductive Caller where
  | idle
  | register
  | setFilter
  | scan
  /-- in `rt_wlan_scan_with_info`, which holds `mgnt_mutex` -/
  | scanning
  | clean
  | clearFilter
  | leave
  deriving DecidableEq

structure State where
  eventTab : RtWlanEvent → EventDesc
  queue : List Msg
  worker : Worker
  caller : Caller
  /-- how many calls of `wifi_scan` have come to the registration -/
  calls : Nat
  /-- `i` of the last of them -/
  counter : Int
  /-- its `info`: whether it has a filter -/
  filter : Option RtWlanInfo
  /-- `scan_filter`, and the call whose `filter` it points to -/
  scanFilter : Option Nat
  scanResult : RtWlanScanResult

/-- The steps. -/
inductive Action where
  /-- `wifi_scan` up to the registration -/
  | cmd (argv : List (List UInt8))
  | register
  | setFilter
  | scan
  /-- `rt_wlan_scan_with_info` has returned, whatever it returns -/
  | scanned (err : Int)
  | clean
  | clearFilter
  | leave
  /-- a message enters the work queue -/
  | post (msg : Msg)
  /-- another thread sets or removes a handler -/
  | setHandler (event : RtWlanEvent) (present : Bool)
  | take
  | fetch
  /-- the handler up to the result of `wifi_scan_result_cache` -/
  | cache (alloc : Bool)
  /-- the rest of `user_ap_info_callback` -/
  | count

/-- `INVALID_INFO`, then `SSID_SET`. -/
def ssidFilter (ssid : List UInt8) : RtWlanInfo :=
  let bytes := (cString ssid).take rtWlanSsidMaxLength
  { Lock.invalidInfo with
    ssid := { len := UInt8.ofNat bytes.length
              val := rtMemcpy Lock.invalidInfo.ssid.val bytes } }

/-- The checks of `wifi_scan`: the filter of a call that goes on. -/
def scanArgs (argv : List (List UInt8)) : Option (Option RtWlanInfo) :=
  if argv.length > 3 then none
  else if argv.length = 3 then some (some (ssidFilter (argv.getD 2 [])))
  else some none

/-- The report passes the filter a second time before it is counted. -/
def countsReport (filter : Option RtWlanInfo) (info : RtWlanInfo) : Bool :=
  filter.all fun f => f.ssid.len == info.ssid.len &&
    f.ssid.val.toList.take f.ssid.len.toNat == info.ssid.val.toList.take f.ssid.len.toNat

/-- What `scan_filter` points to. -/
def State.filterInfo (s : State) : Option RtWlanInfo := s.scanFilter.bind fun _ => s.filter

/-- A handler runs up to the result of `wifi_scan_result_cache`. -/
def runHandler (s : State) (alloc : Bool) (msg : Msg) (desc : EventDesc) : State :=
  match msg, desc with
  | .report info, .userApInfo call =>
    let cached := wifiScanResultCache s.filterInfo alloc info s.scanResult
    match cached.1, info with
    | 0, some info => { s with scanResult := cached.2, worker := .counting call info s.counter }
    | _, _ => { s with scanResult := cached.2, worker := .idle }
  | _, _ => { s with worker := .idle }

/-- The rest of the callback; the counter of a call that has returned is gone. -/
def runCount (s : State) (call : Nat) (info : RtWlanInfo) (index : Int) : State :=
  if countsReport s.filterInfo info ∧ call = s.calls then
    { s with counter := index + 1, worker := .idle }
  else { s with worker := .idle }

def step (s : State) : Action → Option State
  | .cmd argv =>
    match s.caller with
    | .idle =>
      match scanArgs argv with
      | none => some s
      | some filter => some { s with
          caller := .register, calls := s.calls + 1, counter := 0, filter := filter }
    | _ => none
  | .register =>
    match s.caller with
    | .register => some { s with
        eventTab := Function.update s.eventTab .scanReport (.userApInfo s.calls)
        caller := .setFilter }
    | _ => none
  | .setFilter =>
    match s.caller with
    | .setFilter => some { s with
        scanFilter := if s.filter.isSome then some s.calls else s.scanFilter
        caller := .scan }
    | _ => none
  | .scan =>
    match s.caller with
    | .scan => some { s with caller := .scanning }
    | _ => none
  | .scanned _ =>
    match s.caller with
    | .scanning => some { s with caller := .clean }
    | _ => none
  | .clean =>
    match s.caller with
    | .clean => some { s with
        scanResult := wifiScanResultClean s.scanResult
        caller := .clearFilter }
    | _ => none
  | .clearFilter =>
    match s.caller with
    | .clearFilter => some { s with
        scanFilter := if s.filter.isSome then none else s.scanFilter
        caller := .leave }
    | _ => none
  | .leave =>
    match s.caller with
    | .leave => some { s with caller := .idle }
    | _ => none
  | .post msg => some { s with queue := s.queue ++ [msg] }
  | .setHandler event present =>
    if s.caller = .scanning then none
    else some { s with
      eventTab := Function.update s.eventTab event (if present then .other else .null) }
  | .take =>
    match s.worker, s.queue with
    | .idle, msg :: queue => some { s with worker := .taken msg, queue := queue }
    | _, _ => none
  | .fetch =>
    match s.worker with
    | .taken msg => some { s with worker := .handling msg (s.eventTab msg.event) }
    | _ => none
  | .cache alloc =>
    match s.worker with
    | .handling msg desc => some (runHandler s alloc msg desc)
    | _ => none
  | .count =>
    match s.worker with
    | .counting call info index => some (runCount s call info index)
    | _ => none

/-- The interleavings of the shell, the worker and the others. -/
def scans : Machine State Action := ⟨step⟩

/-- No handler is registered and nothing is under way. -/
def State.init : State where
  eventTab _ := .null
  queue := []
  worker := .idle
  caller := .idle
  calls := 0
  counter := 0
  filter := none
  scanFilter := none
  scanResult := .empty

/-! ## What is to hold -/

/-- The call of this number has not returned. -/
def State.Running (s : State) (call : Nat) : Prop := s.caller ≠ .idle ∧ call = s.calls

/-- Only the call in progress can be reached through `event_tab`, the worker and
`scan_filter`, and between calls there are no results. -/
structure LeavesNothing (s : State) : Prop where
  handler : ∀ event call, s.eventTab event = .userApInfo call → s.Running call
  worker : ∀ call, s.worker.call = some call → s.Running call
  filter : ∀ call, s.scanFilter = some call → s.Running call
  result : s.caller = .idle → s.scanResult = .empty

/-- `user_ap_info_callback` is not registered and the worker is not in it. -/
structure Detached (s : State) : Prop where
  handler : ∀ event call, s.eventTab event ≠ .userApInfo call
  worker : s.worker.call = none

/-- When `wifi_scan` empties `scan_result`, its registration has been replaced and its
callback is not being run. -/
def CleansDetached (s : State) : Action → Prop
  | .clean => s.caller = .clean → Detached s
  | _ => True

/-! ## What the steps keep -/

/-- Nothing of this call has been set up yet, or `scan_result` has been emptied. -/
def Caller.quiet : Caller → Bool
  | idle | register | clearFilter | leave => true
  | _ => false

/-- `scan_filter` may point to the filter of this call. -/
def Caller.filtering : Caller → Bool
  | scan | scanning | clean | clearFilter => true
  | _ => false

/-- What holds in runs whose calls clean detached. -/
structure ScanInv (s : State) : Prop where
  handler : ∀ event call, s.eventTab event = .userApInfo call → call = s.calls
  worker : ∀ call, s.worker.call = some call → call = s.calls
  filter : ∀ call, s.scanFilter = some call →
    call = s.calls ∧ s.caller.filtering = true ∧ s.filter.isSome = true
  quiet : s.caller.quiet = true → Detached s ∧ s.scanResult = .empty
  counted : s.scanResult.num = 0 → s.scanResult = .empty

theorem scanInv_init : ScanInv .init where
  handler _ _ h := nomatch h
  worker _ h := nomatch h
  filter _ h := nomatch h
  quiet _ := ⟨⟨(fun _ _ h => nomatch h), rfl⟩, rfl⟩
  counted _ := rfl

theorem ScanInv.leavesNothing {s : State} (h : ScanInv s) : LeavesNothing s where
  handler := by
    intro event call hdesc
    refine ⟨fun hidle => ?_, h.handler event call hdesc⟩
    have hquiet := (h.quiet (by rw [hidle]; rfl)).1
    exact hquiet.handler event call hdesc
  worker := by
    intro call hcall
    refine ⟨fun hidle => ?_, h.worker call hcall⟩
    have hquiet := (h.quiet (by rw [hidle]; rfl)).1
    exact nomatch hquiet.worker.symm.trans hcall
  filter := by
    intro call hfilter
    obtain ⟨hcall, hfiltering, -⟩ := h.filter call hfilter
    refine ⟨fun hidle => ?_, hcall⟩
    rw [hidle] at hfiltering
    exact nomatch hfiltering
  result := fun hidle => (h.quiet (by rw [hidle]; rfl)).2

/-- The results grow only by entries, so none of them are left when the counter is zero. -/
theorem wifiScanResultCache_counted (filter : Option RtWlanInfo) (alloc : Bool)
    (info : Option RtWlanInfo) {result : RtWlanScanResult} (h : result.num = 0 → result = .empty) :
    (wifiScanResultCache filter alloc info result).2.num = 0 →
      (wifiScanResultCache filter alloc info result).2 = .empty := by
  cases info with
  | none => exact h
  | some info =>
    simp only [wifiScanResultCache]
    split
    · exact h
    split
    · exact h
    split
    · exact h
    split
    · exact h
    split
    · exact h
    · exact fun hzero => absurd hzero (Nat.succ_ne_zero _)

theorem wifiScanResultClean_empty {result : RtWlanScanResult}
    (h : result.num = 0 → result = .empty) : wifiScanResultClean result = .empty := by
  unfold wifiScanResultClean
  split_ifs with hnum
  · rfl
  · exact h (not_not.mp hnum)

section Caller

variable {s s' : State}

/-- A step of the shell that leaves pointers and results alone. -/
theorem ScanInv.goTo (h : ScanInv s) (next : Caller)
    (hquiet : next.quiet = true → Detached s ∧ s.scanResult = .empty)
    (hfilter : s.scanFilter.isSome = true → next.filtering = true) :
    ScanInv { s with caller := next } where
  handler := h.handler
  worker := h.worker
  filter call hcall :=
    have hold := h.filter call hcall
    ⟨hold.1, hfilter (by rw [hcall]; rfl), hold.2.2⟩
  quiet := fun hnext =>
    have hold := hquiet hnext
    ⟨⟨hold.1.handler, hold.1.worker⟩, hold.2⟩
  counted := h.counted

theorem scanInv_cmd {argv : List (List UInt8)} (hstep : step s (.cmd argv) = some s')
    (h : ScanInv s) : ScanInv s' := by
  simp only [step] at hstep
  cases hcaller : s.caller with
  | idle =>
    rw [hcaller] at hstep
    cases hargs : scanArgs argv with
    | none =>
      rw [hargs] at hstep
      rw [← Option.some.inj hstep]
      exact h
    | some filter =>
      rw [hargs] at hstep
      rw [← Option.some.inj hstep]
      obtain ⟨hdetached, hresult⟩ := h.quiet (by rw [hcaller]; rfl)
      refine ⟨fun event call hdesc => absurd hdesc (hdetached.handler event call),
        (fun call hcall => nomatch hdetached.worker.symm.trans hcall), fun call hfilter => ?_,
        fun _ => ⟨⟨hdetached.handler, hdetached.worker⟩, hresult⟩, h.counted⟩
      have hfiltering := (h.filter call hfilter).2.1
      rw [hcaller] at hfiltering
      exact nomatch hfiltering
  | _ => rw [hcaller] at hstep; exact nomatch hstep

theorem scanInv_register (hstep : step s .register = some s') (h : ScanInv s) : ScanInv s' := by
  simp only [step] at hstep
  cases hcaller : s.caller with
  | register =>
    rw [hcaller] at hstep
    rw [← Option.some.inj hstep]
    refine ⟨fun event call hdesc => ?_, h.worker, fun call hfilter => ?_,
      (fun hquiet => nomatch hquiet), h.counted⟩
    · by_cases hevent : event = .scanReport
      · subst hevent
        have hself : EventDesc.userApInfo s.calls = .userApInfo call :=
          (Function.update_self RtWlanEvent.scanReport _ s.eventTab).symm.trans hdesc
        exact (EventDesc.userApInfo.inj hself).symm
      · have hother : s.eventTab event = .userApInfo call :=
          (Function.update_of_ne hevent _ s.eventTab).symm.trans hdesc
        exact h.handler event call hother
    · have hfiltering := (h.filter call hfilter).2.1
      rw [hcaller] at hfiltering
      exact nomatch hfiltering
  | _ => rw [hcaller] at hstep; exact nomatch hstep

theorem scanInv_setFilter (hstep : step s .setFilter = some s') (h : ScanInv s) :
    ScanInv s' := by
  simp only [step] at hstep
  cases hcaller : s.caller with
  | setFilter =>
    rw [hcaller] at hstep
    rw [← Option.some.inj hstep]
    refine ⟨h.handler, h.worker, fun call hfilter => ?_, (fun hquiet => nomatch hquiet), h.counted⟩
    change (if s.filter.isSome = true then some s.calls else s.scanFilter) = some call at hfilter
    by_cases hsome : s.filter.isSome = true
    · rw [if_pos hsome] at hfilter
      exact ⟨(Option.some.inj hfilter).symm, rfl, hsome⟩
    · rw [if_neg hsome] at hfilter
      exact absurd (h.filter call hfilter).2.2 hsome
  | _ => rw [hcaller] at hstep; exact nomatch hstep

theorem scanInv_scan (hstep : step s .scan = some s') (h : ScanInv s) : ScanInv s' := by
  simp only [step] at hstep
  cases hcaller : s.caller with
  | scan =>
    rw [hcaller] at hstep
    rw [← Option.some.inj hstep]
    exact h.goTo .scanning (fun hquiet => nomatch hquiet) fun _ => rfl
  | _ => rw [hcaller] at hstep; exact nomatch hstep

theorem scanInv_scanned (err : Int) (hstep : step s (.scanned err) = some s') (h : ScanInv s) :
    ScanInv s' := by
  simp only [step] at hstep
  cases hcaller : s.caller with
  | scanning =>
    rw [hcaller] at hstep
    rw [← Option.some.inj hstep]
    exact h.goTo .clean (fun hquiet => nomatch hquiet) fun _ => rfl
  | _ => rw [hcaller] at hstep; exact nomatch hstep

/-- This is the step at which the condition is needed: reports that come later would be
cached behind the cleaning. -/
theorem scanInv_clean (hok : CleansDetached s .clean) (hstep : step s .clean = some s')
    (h : ScanInv s) : ScanInv s' := by
  simp only [step] at hstep
  cases hcaller : s.caller with
  | clean =>
    have hdetached := hok hcaller
    have hempty := wifiScanResultClean_empty h.counted
    rw [hcaller] at hstep
    rw [← Option.some.inj hstep]
    refine ⟨h.handler, h.worker, fun call hfilter => ?_,
      fun _ => ⟨⟨hdetached.handler, hdetached.worker⟩, hempty⟩, fun _ => hempty⟩
    have hold := h.filter call hfilter
    exact ⟨hold.1, rfl, hold.2.2⟩
  | _ => rw [hcaller] at hstep; exact nomatch hstep

theorem scanInv_clearFilter (hstep : step s .clearFilter = some s') (h : ScanInv s) :
    ScanInv s' := by
  simp only [step] at hstep
  cases hcaller : s.caller with
  | clearFilter =>
    rw [hcaller] at hstep
    rw [← Option.some.inj hstep]
    obtain ⟨hdetached, hresult⟩ := h.quiet (by rw [hcaller]; rfl)
    refine ⟨h.handler, h.worker, fun call hfilter => ?_,
      fun _ => ⟨⟨hdetached.handler, hdetached.worker⟩, hresult⟩, h.counted⟩
    change (if s.filter.isSome = true then none else s.scanFilter) = some call at hfilter
    by_cases hsome : s.filter.isSome = true
    · rw [if_pos hsome] at hfilter
      exact nomatch hfilter
    · rw [if_neg hsome] at hfilter
      exact absurd (h.filter call hfilter).2.2 hsome
  | _ => rw [hcaller] at hstep; exact nomatch hstep

theorem scanInv_leave (hstep : step s .leave = some s') (h : ScanInv s) : ScanInv s' := by
  simp only [step] at hstep
  cases hcaller : s.caller with
  | leave =>
    rw [hcaller] at hstep
    rw [← Option.some.inj hstep]
    refine h.goTo .idle (fun _ => h.quiet (by rw [hcaller]; rfl)) fun hsome => ?_
    obtain ⟨call, hfilter⟩ := Option.isSome_iff_exists.mp hsome
    have hfiltering := (h.filter call hfilter).2.1
    rw [hcaller] at hfiltering
    exact nomatch hfiltering
  | _ => rw [hcaller] at hstep; exact nomatch hstep

end Caller

section Others

variable {s s' : State}

/-- A step of the worker that leaves the results alone keeps the invariant when the call it
holds afterwards is one that it held or that is registered. -/
theorem ScanInv.setWorker (h : ScanInv s) (counter : Int) (queue : List Msg) (next : Worker)
    (hcall : ∀ call, next.call = some call →
      s.worker.call = some call ∨ ∃ event, s.eventTab event = .userApInfo call) :
    ScanInv { s with worker := next, queue := queue, counter := counter } where
  handler := h.handler
  worker call hnext := by
    rcases hcall call hnext with hold | ⟨event, hdesc⟩
    · exact h.worker call hold
    · exact h.handler event call hdesc
  filter := h.filter
  quiet hquiet := by
    obtain ⟨hdetached, hresult⟩ := h.quiet hquiet
    refine ⟨⟨hdetached.handler, ?_⟩, hresult⟩
    cases hnext : next.call with
    | none => rfl
    | some call =>
      rcases hcall call hnext with hold | ⟨event, hdesc⟩
      · exact nomatch hdetached.worker.symm.trans hold
      · exact absurd hdesc (hdetached.handler event call)
  counted := h.counted

theorem scanInv_setHandler {event : RtWlanEvent} {present : Bool}
    (hstep : step s (.setHandler event present) = some s') (h : ScanInv s) : ScanInv s' := by
  simp only [step] at hstep
  by_cases hscanning : s.caller = .scanning
  · rw [if_pos hscanning] at hstep
    exact nomatch hstep
  · rw [if_neg hscanning] at hstep
    rw [← Option.some.inj hstep]
    -- the new entry is no `user_ap_info_callback`
    have hold : ∀ other call,
        Function.update s.eventTab event (if present then .other else .null) other =
          .userApInfo call → s.eventTab other = .userApInfo call := by
      intro other call hdesc
      by_cases hevent : other = event
      · subst hevent
        rw [Function.update_self] at hdesc
        cases present <;> exact nomatch hdesc
      · rwa [Function.update_of_ne hevent] at hdesc
    refine ⟨fun other call hdesc => h.handler other call (hold other call hdesc), h.worker,
      h.filter, fun hquiet => ?_, h.counted⟩
    obtain ⟨hdetached, hresult⟩ := h.quiet hquiet
    exact ⟨⟨fun other call hdesc => hdetached.handler other call (hold other call hdesc),
      hdetached.worker⟩, hresult⟩

theorem scanInv_take (hstep : step s .take = some s') (h : ScanInv s) : ScanInv s' := by
  simp only [step] at hstep
  cases hworker : s.worker with
  | idle =>
    cases hqueue : s.queue with
    | nil => rw [hworker, hqueue] at hstep; exact nomatch hstep
    | cons msg queue =>
      rw [hworker, hqueue] at hstep
      rw [← Option.some.inj hstep]
      exact h.setWorker s.counter queue (.taken msg) fun call hcall => nomatch hcall
  | _ => rw [hworker] at hstep; exact nomatch hstep

theorem scanInv_fetch (hstep : step s .fetch = some s') (h : ScanInv s) : ScanInv s' := by
  simp only [step] at hstep
  cases hworker : s.worker with
  | taken msg =>
    rw [hworker] at hstep
    rw [← Option.some.inj hstep]
    refine h.setWorker s.counter s.queue _ fun call hcall => .inr ⟨msg.event, ?_⟩
    cases hdesc : s.eventTab msg.event with
    | userApInfo other =>
      rw [hdesc] at hcall
      rw [Option.some.inj hcall]
    | _ => rw [hdesc] at hcall; exact nomatch hcall
  | _ => rw [hworker] at hstep; exact nomatch hstep

/-- Caching goes on only while the callback runs, which a quiet caller excludes. -/
theorem ScanInv.setResult (h : ScanInv s) {result : RtWlanScanResult} {call : Nat}
    (hcall : s.worker.call = some call) (hcounted : result.num = 0 → result = .empty) :
    ScanInv { s with scanResult := result } where
  handler := h.handler
  worker := h.worker
  filter := h.filter
  quiet hquiet := nomatch (h.quiet hquiet).1.worker.symm.trans hcall
  counted := hcounted

theorem scanInv_cache {alloc : Bool} (hstep : step s (.cache alloc) = some s') (h : ScanInv s) :
    ScanInv s' := by
  simp only [step] at hstep
  cases hworker : s.worker with
  | handling msg desc =>
    rw [hworker] at hstep
    rw [← Option.some.inj hstep]
    have hidle := h.setWorker s.counter s.queue .idle fun call hcall => nomatch hcall
    cases msg with
    | other event => exact hidle
    | report info =>
      cases desc with
      | userApInfo call =>
        have hcall : s.worker.call = some call := by rw [hworker]; rfl
        have hresult := h.setResult hcall
          (wifiScanResultCache_counted s.filterInfo alloc info h.counted)
        simp only [runHandler]
        split
        · exact hresult.setWorker s.counter s.queue _ fun other hother =>
            .inl (hcall.trans hother)
        · exact hresult.setWorker s.counter s.queue .idle fun other hother => nomatch hother
      | null => exact hidle
      | other => exact hidle
  | _ => rw [hworker] at hstep; exact nomatch hstep

theorem scanInv_count (hstep : step s .count = some s') (h : ScanInv s) : ScanInv s' := by
  simp only [step] at hstep
  cases hworker : s.worker with
  | counting call info index =>
    rw [hworker] at hstep
    rw [← Option.some.inj hstep]
    unfold runCount
    split_ifs
    · exact h.setWorker (index + 1) s.queue .idle fun other hother => nomatch hother
    · exact h.setWorker s.counter s.queue .idle fun other hother => nomatch hother
  | _ => rw [hworker] at hstep; exact nomatch hstep

end Others

/-! ## Runs -/

theorem scanInv_step {s s' : State} {a : Action} (hok : CleansDetached s a)
    (hstep : scans.step s a = some s') (h : ScanInv s) : ScanInv s' := by
  cases a with
  | cmd argv => exact scanInv_cmd hstep h
  | register => exact scanInv_register hstep h
  | setFilter => exact scanInv_setFilter hstep h
  | scan => exact scanInv_scan hstep h
  | scanned err => exact scanInv_scanned err hstep h
  | clean => exact scanInv_clean hok hstep h
  | clearFilter => exact scanInv_clearFilter hstep h
  | leave => exact scanInv_leave hstep h
  | post msg =>
    rw [← Option.some.inj hstep]
    exact h.setWorker s.counter (s.queue ++ [msg]) s.worker fun call hcall => .inl hcall
  | setHandler event present => exact scanInv_setHandler hstep h
  | take => exact scanInv_take hstep h
  | fetch => exact scanInv_fetch hstep h
  | cache alloc => exact scanInv_cache hstep h
  | count => exact scanInv_count hstep h

/-- In a run whose commands empty `scan_result` only when their registration has been
replaced and their callback is not being run, no command leaves anything behind. -/
theorem wifiScan_leavesNothing {actions : List Action} {s : State}
    (run : scans.Run CleansDetached .init actions s) : LeavesNothing s :=
  (run.invariant (fun _ _ _ => scanInv_step) scanInv_init).leavesNothing

/-- An access point with the SSID "net". -/
def netReport : RtWlanInfo := { ssidFilter [110, 101, 116, 0] with channel := 6, rssi := -40 }

/-- `wifi scan` with its report, and a join that registers its own handler before the
results are emptied. -/
def replacedScan : List Action :=
  [.cmd [[], []], .register, .setFilter, .scan, .post (.report netReport), .take, .fetch,
    .cache true, .count, .scanned 0, .setHandler .scanReport true, .clean, .clearFilter, .leave]

theorem wifiScan_leavesNothing_replaced :
    ∃ s, scans.exec .init replacedScan = some s ∧ s.calls = 1 ∧ s.counter = 1 ∧
      LeavesNothing s := by
  have hexec : (scans.exec .init replacedScan).map (fun s => (s.calls, s.counter)) =
      some (1, 1) := rfl
  obtain ⟨s, hs, hstate⟩ := Option.map_eq_some_iff.mp hexec
  obtain ⟨hcalls, hcounter⟩ : s.calls = 1 ∧ s.counter = 1 := by simpa using hstate
  have hadmitted : scans.Admitted CleansDetached .init replacedScan :=
    .cons trivial rfl <| .cons trivial rfl <| .cons trivial rfl <| .cons trivial rfl <|
      .cons trivial rfl <| .cons trivial rfl <| .cons trivial rfl <| .cons trivial rfl <|
      .cons trivial rfl <| .cons trivial rfl <| .cons trivial rfl <|
      .cons (fun _ => ⟨fun event _ => by cases event <;> exact nofun, rfl⟩) rfl <|
      .cons trivial rfl <| .cons trivial rfl trivial
  exact ⟨s, hs, hcalls, hcounter, wifiScan_leavesNothing (Machine.Run.of_exec hs hadmitted)⟩

/-- `wifi scan` whose report is still queued when it returns. -/
def lateReport : List Action :=
  [.cmd [[], []], .register, .setFilter, .scan, .post (.report netReport), .scanned 0, .clean,
    .clearFilter, .leave, .take, .fetch, .cache true]

/-- The late report finds the handler, is counted in a frame that is gone and stays in
`scan_result`. -/
theorem not_leavesNothing_late_report :
    ∃ s, scans.exec .init lateReport = some s ∧ s.caller = .idle ∧
      s.eventTab .scanReport = .userApInfo 1 ∧ s.worker.call = some 1 ∧
      s.scanResult.num = 1 ∧ ¬ LeavesNothing s := by
  have hexec : (scans.exec .init lateReport).map
      (fun s => (s.caller, s.eventTab .scanReport, s.worker.call, s.scanResult.num)) =
      some (.idle, .userApInfo 1, some 1, 1) := rfl
  obtain ⟨s, hs, hstate⟩ := Option.map_eq_some_iff.mp hexec
  simp only [Prod.mk.injEq] at hstate
  obtain ⟨hcaller, htable, hcall, hnum⟩ := hstate
  refine ⟨s, hs, hcaller, htable, hcall, hnum, fun h => ?_⟩
  exact (h.worker 1 hcall).1 hcaller

end Gd32Vw553h.Wlan.ScanCmd
