/-
  Wlan/JoinScan.lean --- the scan inside `rt_wlan_connect`
  (`components/drivers/wlan/dev_wlan_mgnt.c`).

  `rt_wlan_connect` registers `rt_wlan_join_scan_callback` with the address of its
  local variable `info`, starts a scan and waits for `SCAN_DONE`.  The reports reach
  the callback through the wlan work queue, `SCAN_DONE` reaches the waiter directly,
  and nothing takes the registration back.  So `info.channel` may be tested while
  reports are still queued, and every return leaves a handler behind that points into
  a dead frame: `allSeeReports_iff` says exactly when neither happens.
-/
import Gd32Vw553h.Foundation.Runs
import Gd32Vw553h.Wlan.LockBalance

set_option autoImplicit false

namespace Gd32Vw553h.Wlan.JoinScan

open Gd32Vw553h.Foundation Gd32Vw553h.Klibc

/-! ## Data -/

/-- `rt_wlan_event_t` -/
inductive RtWlanEvent where
  | ready
  | scanDone
  | scanReport
  | staConnected
  | staConnectedFail
  | staDisconnected
  | apStart
  | apStop
  | apAssociated
  | apDisassociated
  deriving DecidableEq

/-- `struct rt_wlan_event_desc`: a handler and its parameter. -/
inductive EventDesc where
  | null
  /-- a handler of the application -/
  | user
  /-- `rt_wlan_join_scan_callback` with `&info` of the call of this number -/
  | joinScan (call : Nat)
  deriving DecidableEq

/-- `struct rt_wlan_msg` -/
inductive Msg where
  /-- `RT_WLAN_EVT_SCAN_REPORT`, and the call of `rt_wlan_connect` whose scan it belongs to -/
  | report (scan : Option Nat) (info : RtWlanInfo)
  | other (event : RtWlanEvent)

def Msg.event : Msg → RtWlanEvent
  | report _ _ => .scanReport
  | other event => event

/-- A message that belongs to no scan of `rt_wlan_connect`. -/
def Msg.foreign : Msg → Msg
  | report _ info => report none info
  | other event => other event

/-- The report that a message carries for the scan of a call. -/
def Msg.reportOf (call : Nat) : Msg → Option RtWlanInfo
  | report scan info => if scan = some call then some info else none
  | other _ => none

/-- `rt_wlan_mgnt_work` -/
inductive Worker where
  | idle
  | taken (msg : Msg)
  /-- the handler has been read from `event_tab` -/
  | handling (msg : Msg) (desc : EventDesc)

def Worker.msg : Worker → Option Msg
  | idle => none
  | taken msg => some msg
  | handling msg _ => some msg

/-- What the driver has still to indicate of a scan. -/
inductive Driver where
  | idle
  | scanning (scan : Nat) (reports : List RtWlanInfo)
  /-- `SCAN_DONE` has been signalled, its message is still to be sent -/
  | done

def Driver.reports : Driver → List RtWlanInfo
  | scanning _ reports => reports
  | _ => []

/-- Where `rt_wlan_connect` stands. -/
inductive Caller where
  | idle
  | register
  | startScan
  | wait
  | test
  | join
  | leave (err : Int)

/-- The caller, the worker, the driver and what they share. -/
structure State where
  eventTab : RtWlanEvent → EventDesc
  queue : List Msg
  worker : Worker
  driver : Driver
  /-- `SCAN_DONE` has been signalled to the waiter -/
  signalled : Bool
  caller : Caller
  /-- how many calls have come to the registration -/
  calls : Nat
  /-- `info` of the last of them -/
  info : RtWlanInfo
  /-- the reports of its scan -/
  reports : List RtWlanInfo
  /-- those that the callback has been run on -/
  folded : List RtWlanInfo
  /-- how many of them found no memory -/
  lost : Nat

/-! ## Code -/

/-- `rt_wlan_join_scan_callback`: the report with the strongest signal is kept. -/
def rtWlanJoinScanCallback (info tgtInfo : RtWlanInfo) : RtWlanInfo :=
  if info.ssid.val.toList.take info.ssid.len.toNat =
      tgtInfo.ssid.val.toList.take info.ssid.len.toNat ∧ info.ssid.len = tgtInfo.ssid.len then
    if info.rssi > tgtInfo.rssi ∨ tgtInfo.rssi = 0 then
      { tgtInfo with
        security := info.security
        band := info.band
        datarate := info.datarate
        channel := info.channel
        rssi := info.rssi
        hidden := info.hidden
        bssid := info.bssid }
    else tgtInfo
  else tgtInfo

/-- The checks of `rt_wlan_connect`; `entry` is `_sta_mgnt`.  A call that passes them goes on
with its SSID, the others return. -/
def connectChecks (entry : StaMgnt) (ssid : Option (List UInt8)) : Except Int (List UInt8) :=
  if !entry.device then .error (-rtEIo)
  else
    match ssid with
    | none => .error (-rtEInval)
    | some ssid =>
      if rtStrlen ssid > rtWlanSsidMaxLength then .error (-rtEInval)
      else if Lock.isConnected entry ∧
          cString entry.info.ssid.val.toList = cString ssid then .error 0
      else .ok ssid

/-- The steps. -/
inductive Action where
  /-- `rt_wlan_connect` up to the registration -/
  | call (entry : StaMgnt) (ssid : Option (List UInt8))
  /-- `rt_wlan_register_event_handler` -/
  | register
  /-- `rt_wlan_scan_with_info` up to its wait, and what it meets -/
  | startScan (result : Except Int (List RtWlanInfo))
  | wake
  | timeout
  /-- the test of `info.channel` -/
  | test
  /-- the rest of the call up to its return -/
  | join (err : Int)
  | leave
  /-- the driver's next indication; whether there is memory for its message -/
  | indicate (ok : Bool)
  /-- the application sets or removes a handler -/
  | setHandler (event : RtWlanEvent) (user : Bool)
  /-- another message enters the queue -/
  | post (msg : Msg)
  | take
  | fetch
  | handle

/-- The driver indicates a report, signals `SCAN_DONE` or sends the message for it. -/
def indicate (s : State) (ok : Bool) : Option State :=
  match s.driver with
  | .idle => none
  | .scanning scan (info :: reports) =>
    let s := { s with driver := .scanning scan reports }
    some (if ok then { s with queue := s.queue ++ [.report (some scan) info] }
      else { s with lost := s.lost + 1 })
  | .scanning _ [] => some { s with driver := .done, signalled := true }
  | .done =>
    let s := { s with driver := .idle }
    some (if ok then { s with queue := s.queue ++ [.other .scanDone] } else s)

/-- The worker runs a handler; the callback of a call that has returned writes into a frame
that is gone. -/
def runHandler (s : State) (msg : Msg) (desc : EventDesc) : State :=
  match msg, desc with
  | .report scan info, .joinScan call =>
    if call = s.calls then
      let s := { s with info := rtWlanJoinScanCallback info s.info }
      if scan = some call then { s with folded := s.folded ++ [info] } else s
    else s
  | _, _ => s

def step (s : State) : Action → Option State
  | .call entry ssid =>
    match s.caller with
    | .idle =>
      match connectChecks entry ssid with
      | .error _ => some s
      | .ok ssid => some { s with
          caller := .register
          calls := s.calls + 1
          info := Lock.ssidInfo ssid
          reports := []
          folded := []
          lost := 0 }
    | _ => none
  | .register =>
    match s.caller with
    | .register => some { s with
        eventTab := Function.update s.eventTab .scanReport (.joinScan s.calls)
        caller := .startScan }
    | _ => none
  | .startScan result =>
    match s.caller, s.driver, result with
    | .startScan, _, .error err => some { s with caller := .leave err }
    | .startScan, .idle, .ok reports => some { s with
        caller := .wait
        driver := .scanning s.calls reports
        signalled := false
        reports := reports }
    | _, _, _ => none
  | .wake =>
    match s.caller with
    | .wait => if s.signalled then some { s with caller := .test } else none
    | _ => none
  | .timeout =>
    match s.caller with
    | .wait => if s.signalled then none else some { s with caller := .leave (-rtETimeout) }
    | _ => none
  | .test =>
    match s.caller with
    | .test => some { s with
        caller := if s.info.channel ≤ 0 then .leave (-rtError) else .join }
    | _ => none
  | .join err =>
    match s.caller with
    | .join => some { s with caller := .leave err }
    | _ => none
  | .leave =>
    match s.caller with
    | .leave _ => some { s with caller := .idle }
    | _ => none
  | .indicate ok => indicate s ok
  | .setHandler event user =>
    match s.caller with
    | .idle => some { s with
        eventTab := Function.update s.eventTab event (if user then .user else .null) }
    | _ => none
  | .post msg => some { s with queue := s.queue ++ [msg.foreign] }
  | .take =>
    match s.worker, s.queue with
    | .idle, msg :: queue => some { s with worker := .taken msg, queue := queue }
    | _, _ => none
  | .fetch =>
    match s.worker with
    | .taken msg => some { s with worker := .handling msg (s.eventTab msg.event) }
    | _ => none
  | .handle =>
    match s.worker with
    | .handling msg desc => some { runHandler s msg desc with worker := .idle }
    | _ => none

/-- The interleavings of the caller, the worker and the driver. -/
def joins : Machine State Action := ⟨step⟩

/-- No handler is registered and nothing is under way. -/
def State.init : State where
  eventTab _ := .null
  queue := []
  worker := .idle
  driver := .idle
  signalled := false
  caller := .idle
  calls := 0
  info := Lock.invalidInfo
  reports := []
  folded := []
  lost := 0

/-! ## What is to hold -/

/-- The call has registered and has not returned. -/
def Caller.registered : Caller → Bool
  | idle | register => false
  | _ => true

/-- Handlers only refer to the `info` of a call that has not returned. -/
def NoDangling (s : State) : Prop :=
  ∀ event call, s.eventTab event = .joinScan call → s.caller.registered = true ∧ call = s.calls

/-- When `info.channel` is tested the callback has been run on every report of the scan, in
their order, and no handler refers to a variable that is gone. -/
def SeesReports (s : State) (a : Action) (s' : State) : Prop :=
  (a = .test → s.folded = s.reports) ∧ NoDangling s'

/-- The reports of the call's scan that are still queued. -/
def State.queued (s : State) : List RtWlanInfo := s.queue.filterMap (Msg.reportOf s.calls)

/-- The report of the call's scan that the worker is at. -/
def State.held (s : State) : List RtWlanInfo :=
  (s.worker.msg.bind (Msg.reportOf s.calls)).toList

/-- No call that has registered returns, and `info.channel` is tested only when no report of
the scan is queued, with the worker or lost. -/
def ReportsIn (s : State) : Action → Prop
  | .test =>
    match s.caller with
    | .test => s.queued = [] ∧ s.held = [] ∧ s.lost = 0
    | _ => True
  | .leave =>
    match s.caller with
    | .leave _ => False
    | _ => True
  | _ => True

/-! ## The reports under way -/

/-- The call has started its scan, or has found that it cannot. -/
def Caller.started : Caller → Bool
  | idle | register | startScan => false
  | _ => true

/-- The reports of the call's scan, wherever they are. -/
def State.underway (s : State) : List RtWlanInfo :=
  s.folded ++ (s.held ++ (s.queued ++ s.driver.reports))

/-- Nothing of a scan of `rt_wlan_connect` is under way. -/
structure Quiet (s : State) : Prop where
  driver : s.driver = .idle
  queue : ∀ msg ∈ s.queue, msg.foreign = msg
  worker : ∀ msg, s.worker.msg = some msg → msg.foreign = msg
  reports : s.reports = []
  folded : s.folded = []
  lost : s.lost = 0

/-- What holds while no call that has registered has returned. -/
structure Accounted (s : State) : Prop where
  noDangling : NoDangling s
  table : s.caller.registered = true → s.eventTab .scanReport = .joinScan s.calls
  quiet : s.caller.started = false → Quiet s
  scan : ∀ scan reports, s.driver = .scanning scan reports → scan = s.calls
  handling : ∀ info desc, s.worker = .handling (.report (some s.calls) info) desc →
    desc = .joinScan s.calls
  drained : s.signalled = true → s.driver.reports = []
  tested : s.caller = .test → s.signalled = true
  inOrder : s.underway.Sublist s.reports
  counted : s.underway.length + s.lost = s.reports.length

@[simp] theorem Msg.foreign_foreign (msg : Msg) : msg.foreign.foreign = msg.foreign := by
  cases msg <;> rfl

@[simp] theorem Msg.reportOf_foreign (call : Nat) (msg : Msg) :
    msg.foreign.reportOf call = none := by
  cases msg <;> rfl

theorem Msg.reportOf_of_foreign {call : Nat} {msg : Msg} (h : msg.foreign = msg) :
    msg.reportOf call = none := by
  rw [← h, Msg.reportOf_foreign]

section Quiet

variable {s : State}

theorem Quiet.queued (h : Quiet s) : s.queued = [] :=
  List.filterMap_eq_nil_iff.mpr fun msg hmsg => Msg.reportOf_of_foreign (h.queue msg hmsg)

theorem Quiet.held (h : Quiet s) : s.held = [] := by
  simp only [State.held]
  cases hmsg : s.worker.msg with
  | none => rfl
  | some msg =>
    rw [Option.bind_some, Msg.reportOf_of_foreign (h.worker msg hmsg)]
    rfl

theorem Quiet.underway (h : Quiet s) : s.underway = [] := by
  simp only [State.underway]
  rw [h.folded, h.held, h.queued, h.driver]
  rfl

theorem Quiet.accounted (h : Quiet s) (hdangling : NoDangling s)
    (htable : s.caller.registered = true → s.eventTab .scanReport = .joinScan s.calls)
    (htest : s.caller ≠ .test) : Accounted s where
  noDangling := hdangling
  table := htable
  quiet := fun _ => h
  scan := by
    intro scan reports hdriver
    rw [h.driver] at hdriver
    exact nomatch hdriver
  handling := by
    intro info desc hworker
    have hforeign := h.worker (.report (some s.calls) info) (by rw [hworker]; rfl)
    exact nomatch hforeign
  drained := fun _ => by rw [h.driver]; rfl
  tested := fun hcaller => absurd hcaller htest
  inOrder := by rw [h.underway, h.reports]
  counted := by rw [h.underway, h.reports, h.lost]; rfl

end Quiet

theorem accounted_init : Accounted .init :=
  Quiet.accounted ⟨rfl, (fun _ h => nomatch h), (fun _ h => nomatch h), rfl, rfl, rfl⟩
    (fun _ _ h => nomatch h) (fun h => nomatch h) (fun h => nomatch h)

/-! ## The steps of the caller -/

section Caller

variable {s s' : State}

theorem Caller.registered_of_started {c : Caller} (h : c.started = true) :
    c.registered = true := by
  cases c <;> first | rfl | exact nomatch h

/-- The caller goes on after its scan. -/
theorem Accounted.goOn (h : Accounted s) (hstarted : s.caller.started = true) {c : Caller}
    (hc : c.started = true) (htest : c = .test → s.signalled = true) :
    Accounted { s with caller := c } :=
  { h with
    noDangling := fun event call hdesc =>
      ⟨Caller.registered_of_started hc, (h.noDangling event call hdesc).2⟩
    table := fun _ => h.table (Caller.registered_of_started hstarted)
    quiet := fun hnot => absurd (hc.symm.trans hnot) (by decide)
    tested := htest }

theorem accounted_call {entry : StaMgnt} {ssid : Option (List UInt8)}
    (hstep : step s (.call entry ssid) = some s') (h : Accounted s) : Accounted s' := by
  simp only [step] at hstep
  cases hcaller : s.caller with
  | idle =>
    rw [hcaller] at hstep
    cases hchecks : connectChecks entry ssid with
    | error err =>
      rw [hchecks] at hstep
      rw [← Option.some.inj hstep]
      exact h
    | ok ssid =>
      rw [hchecks] at hstep
      obtain rfl := Option.some.inj hstep
      have hquiet := h.quiet (by rw [hcaller]; rfl)
      refine Quiet.accounted { hquiet with reports := rfl, folded := rfl, lost := rfl } ?_
        (fun hregistered => nomatch hregistered) (fun htest => nomatch htest)
      intro event call hdesc
      have hregistered := (h.noDangling event call hdesc).1
      rw [hcaller] at hregistered
      exact nomatch hregistered
  | _ => rw [hcaller] at hstep; exact nomatch hstep

theorem accounted_register (hstep : step s .register = some s') (h : Accounted s) :
    Accounted s' := by
  simp only [step] at hstep
  cases hcaller : s.caller with
  | register =>
    rw [hcaller] at hstep
    obtain rfl := Option.some.inj hstep
    have hquiet := h.quiet (by rw [hcaller]; rfl)
    refine Quiet.accounted { hquiet with } ?_
      (fun _ => Function.update_self RtWlanEvent.scanReport _ s.eventTab)
      (fun htest => nomatch htest)
    intro event call hdesc
    by_cases hevent : event = .scanReport
    · subst hevent
      have hself : EventDesc.joinScan s.calls = .joinScan call :=
        (Function.update_self RtWlanEvent.scanReport _ s.eventTab).symm.trans hdesc
      exact ⟨rfl, (EventDesc.joinScan.inj hself).symm⟩
    · have hother : s.eventTab event = .joinScan call :=
        (Function.update_of_ne hevent _ s.eventTab).symm.trans hdesc
      exact ⟨rfl, (h.noDangling event call hother).2⟩
  | _ => rw [hcaller] at hstep; exact nomatch hstep

theorem accounted_startScan {result : Except Int (List RtWlanInfo)}
    (hstep : step s (.startScan result) = some s') (h : Accounted s) : Accounted s' := by
  simp only [step] at hstep
  cases hcaller : s.caller with
  | startScan =>
    have hquiet := h.quiet (by rw [hcaller]; rfl)
    have htable : s.eventTab .scanReport = .joinScan s.calls := h.table (by rw [hcaller]; rfl)
    rw [hcaller, hquiet.driver] at hstep
    cases result with
    | error err =>
      obtain rfl := Option.some.inj hstep
      exact Quiet.accounted { hquiet with driver := rfl }
        (fun event call hdesc => ⟨rfl, (h.noDangling event call hdesc).2⟩) (fun _ => htable)
        (fun htest => nomatch htest)
    | ok reports =>
      obtain rfl := Option.some.inj hstep
      have hunderway : s.folded ++ (s.held ++ (s.queued ++ reports)) = reports := by
        rw [hquiet.folded, hquiet.held, hquiet.queued]
        rfl
      exact { h with
        noDangling := fun event call hdesc => ⟨rfl, (h.noDangling event call hdesc).2⟩
        table := fun _ => htable
        quiet := fun hnot => nomatch hnot
        scan := fun scan reports' hdriver => (Driver.scanning.inj hdriver).1.symm
        drained := fun hsignalled => nomatch hsignalled
        tested := fun htest => nomatch htest
        inOrder := by
          show (s.folded ++ (s.held ++ (s.queued ++ reports))).Sublist reports
          rw [hunderway]
        counted := by
          show (s.folded ++ (s.held ++ (s.queued ++ reports))).length + s.lost = reports.length
          rw [hunderway, hquiet.lost]
          rfl }
  | _ => rw [hcaller] at hstep; exact nomatch hstep

theorem accounted_wake (hstep : step s .wake = some s') (h : Accounted s) : Accounted s' := by
  simp only [step] at hstep
  cases hcaller : s.caller with
  | wait =>
    rw [hcaller] at hstep
    by_cases hsignalled : s.signalled = true
    · rw [if_pos hsignalled] at hstep
      rw [← Option.some.inj hstep]
      exact h.goOn (by rw [hcaller]; rfl) rfl fun _ => hsignalled
    · rw [if_neg hsignalled] at hstep
      exact nomatch hstep
  | _ => rw [hcaller] at hstep; exact nomatch hstep

theorem accounted_timeout (hstep : step s .timeout = some s') (h : Accounted s) : Accounted s' := by
  simp only [step] at hstep
  cases hcaller : s.caller with
  | wait =>
    rw [hcaller] at hstep
    by_cases hsignalled : s.signalled = true
    · rw [if_pos hsignalled] at hstep
      exact nomatch hstep
    · rw [if_neg hsignalled] at hstep
      rw [← Option.some.inj hstep]
      exact h.goOn (by rw [hcaller]; rfl) rfl fun htest => nomatch htest
  | _ => rw [hcaller] at hstep; exact nomatch hstep

theorem accounted_test (hstep : step s .test = some s') (h : Accounted s) : Accounted s' := by
  simp only [step] at hstep
  cases hcaller : s.caller with
  | test =>
    rw [hcaller] at hstep
    rw [← Option.some.inj hstep]
    have hstarted : s.caller.started = true := by rw [hcaller]; rfl
    by_cases hchannel : s.info.channel ≤ 0
    · rw [if_pos hchannel]
      exact h.goOn hstarted rfl fun htest => nomatch htest
    · rw [if_neg hchannel]
      exact h.goOn hstarted rfl fun htest => nomatch htest
  | _ => rw [hcaller] at hstep; exact nomatch hstep

theorem accounted_join {err : Int} (hstep : step s (.join err) = some s') (h : Accounted s) :
    Accounted s' := by
  simp only [step] at hstep
  cases hcaller : s.caller with
  | join =>
    rw [hcaller] at hstep
    rw [← Option.some.inj hstep]
    exact h.goOn (by rw [hcaller]; rfl) rfl fun htest => nomatch htest
  | _ => rw [hcaller] at hstep; exact nomatch hstep

end Caller

/-! ## The steps of the driver and the worker -/

section Others

variable {s s' : State}

theorem filterMap_reportOf_append (call : Nat) (queue : List Msg) (msg : Msg) :
    (queue ++ [msg]).filterMap (Msg.reportOf call) =
      queue.filterMap (Msg.reportOf call) ++ (msg.reportOf call).toList := by
  rw [List.filterMap_append]
  cases hreport : msg.reportOf call <;> simp [hreport]

/-- A step that leaves the caller and the handlers alone moves the reports on; those that it
drops are lost. -/
theorem Accounted.carry (h : Accounted s) (hcaller : s'.caller = s.caller)
    (htab : s'.eventTab = s.eventTab) (hcalls : s'.calls = s.calls)
    (hreports : s'.reports = s.reports) (hsignal : s.signalled = true → s'.signalled = true)
    (hquiet : s.caller.started = false → Quiet s')
    (hscan : ∀ scan reports, s'.driver = .scanning scan reports → scan = s.calls)
    (hhandling : ∀ info desc, s'.worker = .handling (.report (some s.calls) info) desc →
      desc = .joinScan s.calls)
    (hdrained : s'.signalled = true → s'.driver.reports = [])
    (hunderway : s'.underway.Sublist s.underway)
    (hcount : s'.underway.length + s'.lost = s.underway.length + s.lost) : Accounted s' where
  noDangling := by
    intro event call hdesc
    rw [htab] at hdesc
    rw [hcaller, hcalls]
    exact h.noDangling event call hdesc
  table := by
    rw [hcaller, htab, hcalls]
    exact h.table
  quiet := by
    rw [hcaller]
    exact hquiet
  scan := by
    rw [hcalls]
    exact hscan
  handling := by
    rw [hcalls]
    exact hhandling
  drained := hdrained
  tested := by
    rw [hcaller]
    exact fun htest => hsignal (h.tested htest)
  inOrder := by
    rw [hreports]
    exact hunderway.trans h.inOrder
  counted := by
    rw [hreports, hcount]
    exact h.counted

theorem not_started_of_driver (h : Accounted s) (hdriver : s.driver ≠ .idle) :
    s.caller.started = false → Quiet s' :=
  fun hnot => absurd (h.quiet hnot).driver hdriver

theorem accounted_indicate {ok : Bool} (hstep : indicate s ok = some s') (h : Accounted s) :
    Accounted s' := by
  simp only [indicate] at hstep
  cases hdriver : s.driver with
  | idle => rw [hdriver] at hstep; exact nomatch hstep
  | done =>
    have hbusy : s.driver ≠ .idle := by rw [hdriver]; exact fun heq => nomatch heq
    have hunderway : s.underway = s.folded ++ (s.held ++ (s.queued ++ [])) := by
      simp only [State.underway]
      rw [hdriver]
      rfl
    rw [hdriver] at hstep
    cases ok with
    | true =>
      obtain rfl : { s with driver := .idle, queue := s.queue ++ [.other .scanDone] } = s' :=
        Option.some.inj hstep
      have hsame : State.underway { s with
          driver := .idle, queue := s.queue ++ [.other .scanDone] } = s.underway := by
        rw [hunderway]
        show s.folded ++ (s.held ++ ((s.queue ++ [Msg.other .scanDone]).filterMap _ ++ [])) = _
        rw [filterMap_reportOf_append]
        exact congrArg (fun l => s.folded ++ (s.held ++ (l ++ []))) (List.append_nil s.queued)
      exact h.carry rfl rfl rfl rfl id (not_started_of_driver h hbusy)
        (fun _ _ hscan => nomatch hscan) h.handling (fun _ => rfl)
        (by rw [hsame]) (by rw [hsame])
    | false =>
      obtain rfl : { s with driver := .idle } = s' := Option.some.inj hstep
      have hsame : State.underway { s with driver := .idle } = s.underway := hunderway.symm
      exact h.carry rfl rfl rfl rfl id (not_started_of_driver h hbusy)
        (fun _ _ hscan => nomatch hscan) h.handling (fun _ => rfl)
        (by rw [hsame]) (by rw [hsame])
  | scanning scan reports =>
    have hbusy : s.driver ≠ .idle := by rw [hdriver]; exact fun heq => nomatch heq
    have hunderway : s.underway = s.folded ++ (s.held ++ (s.queued ++ reports)) := by
      simp only [State.underway]
      rw [hdriver]
      rfl
    obtain rfl := h.scan scan reports hdriver
    rw [hdriver] at hstep
    cases reports with
    | nil =>
      obtain rfl := Option.some.inj hstep
      have hsame : State.underway { s with driver := .done, signalled := true } = s.underway :=
        hunderway.symm
      exact h.carry rfl rfl rfl rfl (fun _ => rfl) (not_started_of_driver h hbusy)
        (fun _ _ hscan => nomatch hscan) h.handling (fun _ => rfl)
        (by rw [hsame]) (by rw [hsame])
    | cons info reports =>
      -- the driver has a report left, so it has not signalled
      have hdrained : s.signalled = true → reports = [] := by
        intro hsignalled
        have hnil := h.drained hsignalled
        rw [hdriver] at hnil
        exact nomatch hnil
      cases ok with
      | true =>
        obtain rfl : { s with
            driver := .scanning s.calls reports
            queue := s.queue ++ [.report (some s.calls) info] } = s' := Option.some.inj hstep
        have hsame : State.underway { s with
            driver := .scanning s.calls reports
            queue := s.queue ++ [.report (some s.calls) info] } = s.underway := by
          rw [hunderway]
          show s.folded ++ (s.held ++
            ((s.queue ++ [Msg.report (some s.calls) info]).filterMap _ ++ reports)) = _
          rw [filterMap_reportOf_append, Msg.reportOf, if_pos rfl, List.append_assoc]
          rfl
        exact h.carry rfl rfl rfl rfl id (not_started_of_driver h hbusy)
          (fun _ _ hscan => (Driver.scanning.inj hscan).1.symm) h.handling hdrained
          (by rw [hsame]) (by rw [hsame])
      | false =>
        obtain rfl : { s with driver := .scanning s.calls reports, lost := s.lost + 1 } = s' :=
          Option.some.inj hstep
        have hfewer : State.underway { s with
            driver := .scanning s.calls reports, lost := s.lost + 1 } =
              s.folded ++ (s.held ++ (s.queued ++ reports)) := rfl
        refine h.carry rfl rfl rfl rfl id (not_started_of_driver h hbusy)
          (fun _ _ hscan => (Driver.scanning.inj hscan).1.symm) h.handling hdrained ?_ ?_
        · rw [hfewer, hunderway]
          exact (((List.sublist_cons_self info reports).append_left s.queued).append_left
            s.held).append_left s.folded
        · rw [hfewer, hunderway]
          simp only [List.length_append, List.length_cons]
          omega

theorem accounted_setHandler {event : RtWlanEvent} {user : Bool}
    (hstep : step s (.setHandler event user) = some s') (h : Accounted s) : Accounted s' := by
  simp only [step] at hstep
  cases hcaller : s.caller with
  | idle =>
    rw [hcaller] at hstep
    obtain rfl := Option.some.inj hstep
    have hquiet := h.quiet (by rw [hcaller]; rfl)
    refine Quiet.accounted { hquiet with } ?_ (fun hregistered => nomatch hregistered)
      (fun htest => nomatch htest)
    intro other call hdesc
    by_cases hevent : other = event
    · subst hevent
      have hself : (if user then EventDesc.user else .null) = .joinScan call :=
        (Function.update_self other _ s.eventTab).symm.trans hdesc
      cases user <;> exact nomatch hself
    · have hother : s.eventTab other = .joinScan call :=
        (Function.update_of_ne hevent _ s.eventTab).symm.trans hdesc
      have hregistered := (h.noDangling other call hother).1
      rw [hcaller] at hregistered
      exact nomatch hregistered
  | _ => rw [hcaller] at hstep; exact nomatch hstep

theorem accounted_post {msg : Msg} (hstep : step s (.post msg) = some s') (h : Accounted s) :
    Accounted s' := by
  obtain rfl : { s with queue := s.queue ++ [msg.foreign] } = s' := Option.some.inj hstep
  have hsame : State.underway { s with queue := s.queue ++ [msg.foreign] } = s.underway := by
    show s.folded ++ (s.held ++ ((s.queue ++ [msg.foreign]).filterMap _ ++ _)) = s.underway
    rw [filterMap_reportOf_append, Msg.reportOf_foreign]
    exact congrArg (fun l => s.folded ++ (s.held ++ (l ++ _))) (List.append_nil s.queued)
  refine h.carry rfl rfl rfl rfl id (fun hnot => ?_) h.scan h.handling h.drained
    (by rw [hsame]) (by rw [hsame])
  have hquiet := h.quiet hnot
  refine { hquiet with queue := fun queued hqueued => ?_ }
  rcases List.mem_append.mp hqueued with hold | hnew
  · exact hquiet.queue queued hold
  · rw [List.mem_singleton.mp hnew, Msg.foreign_foreign]

theorem accounted_take (hstep : step s .take = some s') (h : Accounted s) : Accounted s' := by
  simp only [step] at hstep
  cases hworker : s.worker with
  | idle =>
    cases hqueue : s.queue with
    | nil => rw [hworker, hqueue] at hstep; exact nomatch hstep
    | cons msg queue =>
      rw [hworker, hqueue] at hstep
      obtain rfl : { s with worker := .taken msg, queue := queue } = s' :=
        Option.some.inj hstep
      have hsame : State.underway { s with worker := .taken msg, queue := queue } =
          s.underway := by
        simp only [State.underway, State.held, State.queued]
        rw [hworker, hqueue, List.filterMap_cons]
        cases hreport : msg.reportOf s.calls <;> simp [Worker.msg, hreport]
      refine h.carry rfl rfl rfl rfl id (fun hnot => ?_) h.scan (fun _ _ heq => nomatch heq)
        h.drained (by rw [hsame]) (by rw [hsame])
      have hquiet := h.quiet hnot
      refine { hquiet with queue := fun queued hqueued => ?_, worker := fun taken htaken => ?_ }
      · exact hquiet.queue queued (by rw [hqueue]; exact List.mem_cons_of_mem msg hqueued)
      · obtain rfl : msg = taken := Option.some.inj htaken
        exact hquiet.queue msg (by rw [hqueue]; exact List.mem_cons_self)
  | _ => rw [hworker] at hstep; exact nomatch hstep

theorem accounted_fetch (hstep : step s .fetch = some s') (h : Accounted s) : Accounted s' := by
  simp only [step] at hstep
  cases hworker : s.worker with
  | taken msg =>
    rw [hworker] at hstep
    obtain rfl : { s with worker := .handling msg (s.eventTab msg.event) } = s' :=
      Option.some.inj hstep
    have hsame : State.underway { s with worker := .handling msg (s.eventTab msg.event) } =
        s.underway := by
      simp only [State.underway, State.held]
      rw [hworker]
      rfl
    refine h.carry rfl rfl rfl rfl id (fun hnot => ?_) h.scan (fun info desc heq => ?_) h.drained
      (by rw [hsame]) (by rw [hsame])
    · have hquiet := h.quiet hnot
      refine { hquiet with worker := fun taken htaken => ?_ }
      exact hquiet.worker taken (by rw [hworker]; exact htaken)
    · obtain ⟨rfl, rfl⟩ := Worker.handling.inj heq
      -- a report of this scan comes after the registration
      refine h.table (Caller.registered_of_started ?_)
      by_contra hnot
      have hforeign := (h.quiet (Bool.eq_false_iff.mpr hnot)).worker _ (by rw [hworker]; rfl)
      exact nomatch hforeign
  | _ => rw [hworker] at hstep; exact nomatch hstep

/-- Running a handler touches `info`, and `folded` when it is the callback on a report of
this scan. -/
theorem runHandler_eq (s : State) (msg : Msg) (desc : EventDesc)
    (h : ∀ info, msg = .report (some s.calls) info → desc = .joinScan s.calls) :
    runHandler s msg desc = { s with
      info := (runHandler s msg desc).info
      folded := s.folded ++ (msg.reportOf s.calls).toList } := by
  cases msg with
  | other event => simp [runHandler, Msg.reportOf]
  | report scan info =>
    by_cases hscan : scan = some s.calls
    · subst hscan
      rw [h info rfl]
      simp [runHandler, Msg.reportOf]
    · have hnone : (Msg.report scan info).reportOf s.calls = none := if_neg hscan
      rw [hnone]
      cases desc with
      | joinScan call =>
        by_cases hcall : call = s.calls
        · subst hcall
          simp [runHandler, hscan]
        · simp [runHandler, hcall]
      | _ => simp [runHandler]

theorem accounted_handle (hstep : step s .handle = some s') (h : Accounted s) :
    Accounted s' := by
  simp only [step] at hstep
  cases hworker : s.worker with
  | handling msg desc =>
    rw [hworker] at hstep
    have hmsg : s.worker.msg = some msg := by rw [hworker]; rfl
    have hran := runHandler_eq s msg desc fun info heq => h.handling info desc (heq ▸ hworker)
    generalize (runHandler s msg desc).info = info at hran
    replace hstep : some { runHandler s msg desc with worker := .idle } = some s' := hstep
    rw [hran] at hstep
    obtain rfl : { s with
        worker := .idle
        info := info
        folded := s.folded ++ (msg.reportOf s.calls).toList } = s' := Option.some.inj hstep
    have hsame : State.underway { s with
        worker := .idle
        info := info
        folded := s.folded ++ (msg.reportOf s.calls).toList } = s.underway := by
      simp only [State.underway, State.held]
      rw [hmsg, List.append_assoc]
      rfl
    refine h.carry rfl rfl rfl rfl id (fun hnot => ?_) h.scan (fun _ _ heq => nomatch heq)
      h.drained (by rw [hsame]) (by rw [hsame])
    have hquiet := h.quiet hnot
    refine { hquiet with worker := (fun _ heq => nomatch heq), folded := ?_ }
    show s.folded ++ (msg.reportOf s.calls).toList = []
    rw [hquiet.folded, Msg.reportOf_of_foreign (hquiet.worker msg hmsg)]
    rfl
  | _ => rw [hworker] at hstep; exact nomatch hstep

end Others

/-! ## Runs -/

section Runs

variable {s s' : State}

/-- A step that meets the condition keeps the account. -/
theorem accounted_step {a : Action} (hok : ReportsIn s a) (hstep : joins.step s a = some s')
    (h : Accounted s) : Accounted s' := by
  cases a with
  | call entry ssid => exact accounted_call hstep h
  | register => exact accounted_register hstep h
  | startScan result => exact accounted_startScan hstep h
  | wake => exact accounted_wake hstep h
  | timeout => exact accounted_timeout hstep h
  | test => exact accounted_test hstep h
  | join err => exact accounted_join hstep h
  | leave =>
    simp only [joins, step] at hstep
    cases hcaller : s.caller with
    | leave err => simp only [ReportsIn, hcaller] at hok
    | _ => rw [hcaller] at hstep; exact nomatch hstep
  | indicate ok => exact accounted_indicate hstep h
  | setHandler event user => exact accounted_setHandler hstep h
  | post msg => exact accounted_post hstep h
  | take => exact accounted_take hstep h
  | fetch => exact accounted_fetch hstep h
  | handle => exact accounted_handle hstep h

/-- When `info.channel` is tested, every report has been folded exactly if none of them is
queued, with the worker or lost. -/
theorem folded_eq_reports_iff (h : Accounted s) (hcaller : s.caller = .test) :
    s.folded = s.reports ↔ s.queued = [] ∧ s.held = [] ∧ s.lost = 0 := by
  have hdrained : s.driver.reports = [] := h.drained (h.tested hcaller)
  have hcounted := h.counted
  simp only [State.underway, hdrained, List.length_append, List.length_nil] at hcounted
  constructor
  · intro hfolded
    rw [hfolded] at hcounted
    exact ⟨List.length_eq_zero_iff.mp (by omega), List.length_eq_zero_iff.mp (by omega), by omega⟩
  · rintro ⟨hqueued, hheld, hlost⟩
    have hsub := h.inOrder
    simp only [State.underway, hdrained, hqueued, hheld, List.append_nil] at hsub
    refine hsub.eq_of_length ?_
    rw [hqueued, hheld, hlost] at hcounted
    simpa using hcounted

/-- The return of a call that has registered leaves its handler behind. -/
theorem not_noDangling_leave {err : Int} (h : Accounted s) (hcaller : s.caller = .leave err) :
    ¬ NoDangling { s with caller := .idle } := by
  intro hdangling
  have htable := h.table (by rw [hcaller]; rfl)
  exact nomatch (hdangling .scanReport s.calls htable).1

theorem seesReports_step_iff (a : Action) (h : Accounted s) :
    (∀ s', joins.step s a = some s' → SeesReports s a s') ↔ ReportsIn s a := by
  have hkept : ReportsIn s a → ∀ s', joins.step s a = some s' → NoDangling s' :=
    fun hok s' hstep => (accounted_step hok hstep h).noDangling
  cases a with
  | test =>
    cases hcaller : s.caller with
    | test =>
      simp only [ReportsIn, hcaller] at hkept ⊢
      rw [← folded_eq_reports_iff h hcaller] at hkept ⊢
      constructor
      · intro hall
        exact (hall _ (by simp only [joins, step, hcaller]; rfl)).1 rfl
      · intro hfolded s' hstep
        exact ⟨fun _ => hfolded, hkept hfolded s' hstep⟩
    | _ =>
      simp only [ReportsIn, hcaller, iff_true]
      intro s' hstep
      simp only [joins, step, hcaller] at hstep
      exact nomatch hstep
  | leave =>
    cases hcaller : s.caller with
    | leave err =>
      simp only [ReportsIn, hcaller, iff_false]
      intro hall
      exact not_noDangling_leave h hcaller
        (hall _ (by simp only [joins, step, hcaller])).2
    | _ =>
      simp only [ReportsIn, hcaller, iff_true]
      intro s' hstep
      simp only [joins, step, hcaller] at hstep
      exact nomatch hstep
  | _ =>
    exact ⟨fun _ => trivial, fun hok s' hstep =>
      ⟨(fun htest => nomatch htest), hkept hok s' hstep⟩⟩

/-- A schedule tests `info.channel` only after all reports of the scan and leaves no handler
behind exactly if no call of it that has registered returns and no report is still queued,
with the worker or lost at the test. -/
theorem allSeeReports_iff (actions : List Action) :
    joins.AllSteps SeesReports .init actions ↔ joins.Admitted ReportsIn .init actions :=
  Machine.allSteps_iff_admitted (I := Accounted) (fun _ a h => seesReports_step_iff a h)
    (fun _ _ _ hok hstep h => accounted_step hok hstep h) actions accounted_init

/-- The SSID "net". -/
def netSsid : List UInt8 := [110, 101, 116, 0]

/-- An access point with that SSID. -/
def netReport : RtWlanInfo := { Lock.ssidInfo netSsid with channel := 6, rssi := -40 }

/-- `SCAN_DONE` overtakes the report, which is still queued when the channel is tested; and
when the report has been folded, the handler outlives the call. -/
theorem not_allSeeReports_one_report :
    ¬ joins.AllSteps SeesReports .init
      [.call Lock.StaMgnt.idle (some netSsid), .register, .startScan (.ok [netReport]),
        .indicate true, .indicate true, .wake, .test] ∧
    ¬ joins.AllSteps SeesReports .init
      [.call Lock.StaMgnt.idle (some netSsid), .register, .startScan (.ok [netReport]),
        .indicate true, .take, .fetch, .handle, .indicate true, .wake, .test, .join 0,
        .leave] := by
  constructor
  · intro h
    have htest := ((((((h _ rfl).2 _ rfl).2 _ rfl).2 _ rfl).2 _ rfl).2 _ rfl).2 _ rfl
    exact nomatch htest.1.1 rfl
  · intro h
    have hfolded := ((((((((h _ rfl).2 _ rfl).2 _ rfl).2 _ rfl).2 _ rfl).2 _ rfl).2 _ rfl).2 _ rfl)
    have hleave := (((hfolded.2 _ rfl).2 _ rfl).2 _ rfl).2 _ rfl
    exact nomatch (hleave.1.2 .scanReport 1 rfl).1

end Runs

end Gd32Vw553h.Wlan.JoinScan
