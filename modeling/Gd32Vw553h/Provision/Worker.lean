/-
  Provision/Worker.lean --- `gd_prov_worker` beside the BLE callbacks.

  The system is a machine.  Its steps are connection events, the parts of
  `gd_prov_submit_json` that other threads can come between, the steps of the
  worker thread and the return of its WiFi call.  A section with interrupts
  disabled is one step, and so is a call that touches no shared object on the way.
  Any number of submissions may be under way at once.

  Besides the program's state the machine records history: the pairs accepted and
  attempted, which connection the slot's line came from, which connections are
  open, and the statuses the worker has sent.
-/
import Gd32Vw553h.Foundation.Runs
import Gd32Vw553h.Provision.Callbacks

set_option autoImplicit false

namespace Gd32Vw553h.Provision

open Gd32Vw553h.Foundation Gd32Vw553h.Klibc

/-! ## State -/

/-- An SSID and a password. -/
abbrev Pair : Type := List UInt8 × List UInt8

/-- `RT_SEM_VALUE_MAX` -/
abbrev rtSemValueMax : Nat := 65535

/-- The connection a line was received on, with the number of the connect event
that opened it; none when it was not open. -/
structure Origin where
  connIdx : UInt8
  opened : Option Nat
  deriving DecidableEq

/-- The locals of one round of `gd_prov_worker`, and where the pair came from. -/
structure Job where
  ssid : Vector UInt8 (gdProvMaxSsidLen + 1)
  password : Vector UInt8 (gdProvMaxPasswordLen + 1)
  connIdx : UInt8
  origin : Option Origin

/-- The two C strings of a job. -/
def Job.pair (job : Job) : Pair := (cString job.ssid.toList, cString job.password.toList)

/-- Where `gd_prov_worker` stands. -/
inductive WorkerPc where
  /-- before its start-up store -/
  | start
  /-- before `rt_sem_take` -/
  | take
  /-- suspended in `rt_sem_take` -/
  | blocked
  /-- `rt_sem_take` has returned -/
  | copy
  /-- before the `connecting` status -/
  | notifyConnecting (job : Job)
  /-- before `gd_prov_connect_wifi` -/
  | connect (job : Job)
  /-- inside `gd_prov_connect_wifi` or `gd_prov_wait_ip_text` -/
  | connecting (job : Job)
  /-- before the status of the result -/
  | notifyResponse (job : Job) (response : String)

namespace WorkerPc

/-- The job the worker holds. -/
def job? : WorkerPc → Option Job
  | notifyConnecting job | connect job | connecting job | notifyResponse job _ => some job
  | _ => none

/-- The pair the worker has copied and not yet tried. -/
def untried : WorkerPc → List Pair
  | notifyConnecting job | connect job => [job.pair]
  | _ => []

/-- The signals taken without a copy since. -/
def taken : WorkerPc → Nat
  | copy => 1
  | _ => 0

end WorkerPc

/-- What an accepted submission still has to do. -/
inductive SubmitterPc where
  | notify
  | release
  deriving DecidableEq

/-- A submission whose pair is stored. -/
structure Submitter where
  connIdx : UInt8
  pc : SubmitterPc
  deriving DecidableEq

/-- A status the worker handed to the BLE stack: the connection index and text it
used, the origin of the pair, and the connect event of that index open then. -/
structure SentStatus where
  connIdx : UInt8
  text : String
  origin : Option Origin
  openThen : Option Nat

structure System where
  globals : Globals
  /-- the value of `gd_prov_sem` -/
  sem : Nat
  /-- the accepted submissions under way -/
  submitters : List Submitter
  worker : WorkerPc
  /-- history: the pairs stored by submissions -/
  accepted : List Pair
  /-- history: the pairs `gd_prov_connect_wifi` was called with -/
  attempts : List Pair
  /-- history: where the pair in the slot came from -/
  slotOrigin : Option Origin
  /-- history: the open connections by index, with the number of their connect event -/
  openConn : UInt8 → Option Nat
  /-- history: the connect events so far -/
  connCount : Nat
  /-- history: the statuses the worker sent -/
  statuses : List SentStatus

/-- Advertising has begun: `gd_prov_main` has created the semaphore and the worker
has not run yet. -/
def System.initial : System where
  globals := .initial
  sem := 0
  submitters := []
  worker := .start
  accepted := []
  attempts := []
  slotOrigin := none
  openConn := fun _ => none
  connCount := 0
  statuses := []

/-- The signals of accepted submissions that no copy has answered. -/
def System.pending (s : System) : Nat := s.submitters.length + s.sem + s.worker.taken

/-- The pairs copied from the slot so far. -/
def System.copied (s : System) : List Pair := s.attempts ++ s.worker.untried

/-! ## Steps -/

inductive Action where
  /-- `gd_prov_ble_conn_evt` -/
  | connEvt (connIdx : UInt8) (connected : Bool)
  /-- `gd_prov_submit_json` up to and including the store, or to its end when the
  line is rejected -/
  | submit (json : Vector UInt8 gdProvJsonBufferLen) (connIdx : UInt8)
  /-- the next part of a submission under way -/
  | submitter (i : Nat)
  /-- the next step of the worker -/
  | worker
  /-- `gd_prov_connect_wifi` returns, and then `gd_prov_wait_ip_text` with `ip` -/
  | wifiDone (ret : Int) (ip : String)

namespace System

/-- `rt_sem_take(gd_prov_sem, RT_WAITING_FOREVER)` by the worker. -/
def rtSemTake (s : System) : System :=
  if s.sem > 0 then { s with sem := s.sem - 1, worker := .copy }
  else { s with worker := .blocked }

/-- `rt_sem_release(gd_prov_sem)`: a suspended worker is resumed with the signal. -/
def rtSemRelease (s : System) : System :=
  match s.worker with
  | .blocked => { s with worker := .copy }
  | _ => if s.sem < rtSemValueMax then { s with sem := s.sem + 1 } else s

/-- The sends recorded in `g'` and not in `g`. -/
def newSends (g g' : Globals) : List (UInt8 × String) :=
  (g'.trace.drop g.trace.length).filterMap fun
    | .datatransSend connIdx text _ => some (connIdx, text)
    | _ => none

end System

section Step

variable (env : Env)

namespace System

/-- `gd_prov_notify` by the worker. -/
def workerNotify (job : Job) (text : String) (s : System) : System :=
  let globals := gdProvNotify env job.connIdx text s.globals
  { s with
    globals := globals
    statuses := s.statuses ++ (newSends s.globals globals).map fun sent =>
      ⟨sent.1, sent.2, job.origin, job.origin.bind fun o => s.openConn o.connIdx⟩ }

/-- `rt_snprintf(response, sizeof(response), ...)` with the result of a round. -/
def response (ret : Int) (ip : String) : String :=
  let text :=
    if ret = 0 then "\x7b\"status\":\"connected\",\"ip\":\"" ++ ip ++ "\"\x7d\n"
    else "\x7b\"status\":\"failed\",\"code\":" ++ toString ret ++ "\x7d\n"
  String.ofList (text.toList.take 63)

/-- `(uint8_t)gd_prov_ble_conn_idx` -/
def currentConnIdx (s : System) : UInt8 := UInt8.ofNat (s.globals.bleConnIdx % 256).toNat

/-- The section with interrupts disabled in which the worker copies the slot. -/
def workerCopy (s : System) : System :=
  let job : Job :=
    { ssid := s.globals.creds.ssid
      password := s.globals.creds.password
      connIdx := s.currentConnIdx
      origin := s.slotOrigin }
  { s with worker := .notifyConnecting job }

/-- The next step of the worker, none while it waits. -/
def workerStep (s : System) : Option System :=
  match s.worker with
  | .start =>
      some { s with
        globals := gdProvStoreCredentials gdProvDefaultSsid gdProvDefaultPassword s.globals
        slotOrigin := none
        worker := .take }
  | .take => some s.rtSemTake
  | .blocked => none
  | .copy => some s.workerCopy
  | .notifyConnecting job =>
      let s := { s with
        globals := { s.globals with wifiConnectCount := s.globals.wifiConnectCount + 1 } }
      let s := s.workerNotify env job (statusText "connecting")
      some { s with worker := .connect job }
  | .connect job =>
      some { s with attempts := s.attempts ++ [job.pair], worker := .connecting job }
  | .connecting _ => none
  | .notifyResponse job text =>
      let s := s.workerNotify env job text
      some { s with worker := .take }

/-- A line handed to `gd_prov_submit_json`. -/
def submitStep (json : Vector UInt8 gdProvJsonBufferLen) (connIdx : UInt8) (s : System) :
    System :=
  match gdProvCheckJson env (cString json.toList) with
  | .error _ => { s with globals := gdProvSubmitJson env json connIdx s.globals }
  | .ok (ssid, password) =>
      { s with
        globals := gdProvAcceptStore ssid password (s.globals.emit (.submitJson json connIdx))
        submitters := s.submitters ++ [⟨connIdx, .notify⟩]
        accepted := s.accepted ++ [(ssid, password)]
        slotOrigin := some ⟨connIdx, s.openConn connIdx⟩ }

/-- The next part of the submission with index `i`: the `accepted` status, then the
release. -/
def submitterStep (i : Nat) (s : System) : Option System :=
  match s.submitters[i]? with
  | none => none
  | some ⟨connIdx, .notify⟩ =>
      some { s with
        globals := gdProvNotify env connIdx (statusText "accepted") s.globals
        submitters := s.submitters.set i ⟨connIdx, .release⟩ }
  | some ⟨_, .release⟩ =>
      let s := { s with
        globals := s.globals.emit .semRelease
        submitters := s.submitters.eraseIdx i }
      some s.rtSemRelease

/-- `gd_prov_ble_conn_evt` -/
def connEvtStep (connIdx : UInt8) (connected : Bool) (s : System) : System :=
  { s with
    globals := gdProvBleConnEvt connIdx connected s.globals
    openConn := fun c =>
      if c = connIdx then (if connected then some s.connCount else none) else s.openConn c
    connCount := if connected then s.connCount + 1 else s.connCount }

/-- `gd_prov_connect_wifi` returns. -/
def wifiDoneStep (ret : Int) (ip : String) (s : System) : Option System :=
  match s.worker with
  | .connecting job =>
      some { s with
        globals := { s.globals with wifiLastStatus := ret }
        worker := .notifyResponse job (response ret ip) }
  | _ => none

end System

/-- The callbacks and the worker as one machine. -/
def provisioning : Machine System Action where
  step s
    | .connEvt connIdx connected => some (s.connEvtStep connIdx connected)
    | .submit json connIdx => some (s.submitStep env json connIdx)
    | .submitter i => s.submitterStep env i
    | .worker => s.workerStep env
    | .wifiDone ret ip => s.wifiDoneStep ret ip

/-! ## What the steps leave alone -/

omit env in
/-- A release wakes the worker or counts the semaphore up. -/
theorem rtSemRelease_frame (s : System) :
    s.rtSemRelease.globals = s.globals ∧ s.rtSemRelease.accepted = s.accepted ∧
      s.rtSemRelease.copied = s.copied ∧ s.rtSemRelease.worker.job? = s.worker.job? ∧
      s.rtSemRelease.openConn = s.openConn ∧ s.rtSemRelease.statuses = s.statuses := by
  unfold System.rtSemRelease
  split
  · rename_i hblocked
    simp [System.copied, hblocked, WorkerPc.untried, WorkerPc.job?]
  · split <;> exact ⟨rfl, rfl, rfl, rfl, rfl, rfl⟩

theorem gdProvNotify_frame (connIdx : UInt8) (text : String) (g : Globals) :
    (gdProvNotify env connIdx text g).creds = g.creds ∧
      (gdProvNotify env connIdx text g).bleConnected = g.bleConnected ∧
      (gdProvNotify env connIdx text g).bleConnIdx = g.bleConnIdx := by
  obtain ⟨sends, tx, heq, -, -⟩ := gdProvNotify_eq env connIdx text g
  rw [heq]
  exact ⟨rfl, rfl, rfl⟩

theorem workerNotify_frame (job : Job) (text : String) (s : System) :
    (s.workerNotify env job text).globals.creds = s.globals.creds ∧
      (s.workerNotify env job text).globals.bleConnected = s.globals.bleConnected :=
  ⟨(gdProvNotify_frame env _ _ _).1, (gdProvNotify_frame env _ _ _).2.1⟩

/-! ## The parts of a submission -/

/-- An accepted line whose parts nothing comes between is `gd_prov_submit_json`. -/
theorem submit_uninterrupted {s : System} (hidle : s.submitters = [])
    {json : Vector UInt8 gdProvJsonBufferLen} {pair : Pair}
    (hcheck : gdProvCheckJson env (cString json.toList) = .ok pair) (connIdx : UInt8) :
    ∃ s', (provisioning env).exec s [.submit json connIdx, .submitter 0, .submitter 0] = some s' ∧
      s'.globals = gdProvSubmitJson env json connIdx s.globals ∧ s'.submitters = [] := by
  obtain ⟨ssid, password⟩ := pair
  let stored : System := { s with
    globals := gdProvAcceptStore ssid password (s.globals.emit (.submitJson json connIdx))
    submitters := [⟨connIdx, .notify⟩]
    accepted := s.accepted ++ [(ssid, password)]
    slotOrigin := some ⟨connIdx, s.openConn connIdx⟩ }
  let released : System := { stored with
    globals := (gdProvNotify env connIdx (statusText "accepted") stored.globals).emit .semRelease
    submitters := [] }
  have hstore : s.submitStep env json connIdx = stored := by
    simp [System.submitStep, hcheck, hidle, stored]
  refine ⟨released.rtSemRelease, ?_, ?_, ?_⟩
  · simp only [Machine.exec, provisioning, Option.bind_some, hstore]
    rfl
  · rw [(rtSemRelease_frame released).1]
    simp [gdProvSubmitJson, hcheck, released, stored]
  · unfold System.rtSemRelease
    split
    · rfl
    · split <;> rfl

end Step

end Gd32Vw553h.Provision
