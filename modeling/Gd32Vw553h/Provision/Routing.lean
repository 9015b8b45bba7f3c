/-
  Provision/Routing.lean --- on which connection the worker's statuses go out.

  The worker copies `gd_prov_ble_conn_idx` beside the slot and uses the copy for
  the rest of the round; which connection the line came from is not stored.
  `RoutingOk` says for each step when that copy is, or stays, the connection of the
  line; `statuses_onOrigin_of_run` is what follows for a whole run.
-/
import Gd32Vw553h.Provision.HandOff

set_option autoImplicit false

namespace Gd32Vw553h.Provision

open Gd32Vw553h.Foundation

variable (env : Env)

/-! ## Origins -/

/-- The connection `origin` has the index `connIdx` and is open since the connect
event it was opened by. -/
def IsOpenOrigin (origin : Option Origin) (openNow : Option Nat) (connIdx : UInt8) : Prop :=
  ∃ o n, origin = some o ∧ o.connIdx = connIdx ∧ o.opened = some n ∧ openNow = some n

/-- A status that went to the connection its pair's line came from, while that
connection was open. -/
def SentStatus.OnOrigin (status : SentStatus) : Prop :=
  IsOpenOrigin status.origin status.openThen status.connIdx

/-- A status sent now on `connIdx` about a pair from `origin` would be right. -/
def System.OnOrigin (s : System) (origin : Option Origin) (connIdx : UInt8) : Prop :=
  IsOpenOrigin origin (s.openConn connIdx) connIdx

/-- The condition on a step: when the worker copies the slot, no client is connected
or the current connection is the one the pair in the slot came from; and a client
connects during a round only when that round's connection is open and another one. -/
def RoutingOk (s : System) : Action → Prop
  | .worker =>
      s.worker = .copy → s.globals.bleConnected = 0 ∨ s.OnOrigin s.slotOrigin s.currentConnIdx
  | .connEvt connIdx true =>
      ∀ job, s.worker.job? = some job →
        s.OnOrigin job.origin job.connIdx ∧ connIdx ≠ job.connIdx
  | _ => True

/-- The status the worker would send next is right, or would not be sent. -/
def RoutedNext (s : System) : Prop :=
  ∀ job, s.worker.job? = some job →
    s.globals.bleConnected = 0 ∨ s.OnOrigin job.origin job.connIdx

/-- Every status so far, and the next one, is right. -/
structure Routed (s : System) : Prop where
  next : RoutedNext s
  sent : ∀ status ∈ s.statuses, status.OnOrigin

theorem routed_initial : Routed System.initial where
  next := fun _ h => absurd h (by simp [System.initial, WorkerPc.job?])
  sent := fun _ h => absurd h (by simp [System.initial])

/-! ## Steps -/

/-- `gd_prov_notify` sends once when a client is connected. -/
theorem newSends_gdProvNotify (connIdx : UInt8) (text : String) (g : Globals) :
    System.newSends g (gdProvNotify env connIdx text g) =
      if g.bleConnected = 0 then [] else [(connIdx, text)] := by
  by_cases hconn : g.bleConnected = 0
  · simp [System.newSends, gdProvNotify, Globals.emit, hconn]
  · by_cases hret : env.datatransSend (g.trace ++ [.notify connIdx text]) connIdx text = 0 <;>
      simp [System.newSends, gdProvNotify, Globals.emit, hconn, hret]

variable {s : System}

/-- A step that leaves the connections, the worker's job and its statuses alone. -/
theorem Routed.stutter {s' : System} (h : Routed s)
    (hjob : ∀ job, s'.worker.job? = some job → s.worker.job? = some job)
    (hconn : s'.globals.bleConnected = s.globals.bleConnected)
    (hopen : s'.openConn = s.openConn) (hstatuses : s'.statuses = s.statuses) : Routed s' where
  next := by
    intro job hheld
    rw [hconn, System.OnOrigin, hopen]
    exact h.next job (hjob job hheld)
  sent := by rw [hstatuses]; exact h.sent

/-- A status sent by the worker is right when the next one was to be. -/
theorem workerNotify_routed (h : Routed s) {job : Job} (hjob : s.worker.job? = some job)
    (text : String) : Routed (s.workerNotify env job text) where
  next := by
    intro held hheld
    have hnext := h.next held hheld
    rw [System.OnOrigin] at hnext ⊢
    rw [(workerNotify_frame env job text s).2]
    exact hnext
  sent := by
    intro status hstatus
    rcases List.mem_append.mp hstatus with hold | hnew
    · exact h.sent status hold
    · rw [newSends_gdProvNotify] at hnew
      rcases h.next job hjob with hclosed | ⟨o, n, horigin, hidx, hopened, hopen⟩
      · simp [hclosed] at hnew
      · split at hnew
        · exact absurd hnew (by simp)
        · rw [List.map_singleton, List.mem_singleton] at hnew
          rw [hnew]
          refine ⟨o, n, horigin, hidx, hopened, ?_⟩
          rw [horigin, Option.bind_some, hidx]
          exact hopen

theorem connEvtStep_routed (h : Routed s) {connIdx : UInt8} {connected : Bool}
    (hok : RoutingOk s (.connEvt connIdx connected)) :
    Routed (s.connEvtStep connIdx connected) where
  next := by
    intro job hjob
    cases connected with
    | false => exact Or.inl rfl
    | true =>
      obtain ⟨horigin, hother⟩ := hok job hjob
      right
      simpa [System.OnOrigin, System.connEvtStep, hother.symm] using horigin
  sent := h.sent

theorem submitStep_routed (h : Routed s) (json : Vector UInt8 gdProvJsonBufferLen)
    (connIdx : UInt8) : Routed (s.submitStep env json connIdx) := by
  cases hcheck : gdProvCheckJson env (cString json.toList) with
  | error status =>
    obtain ⟨sends, tx, heq, -⟩ := gdProvSubmitJson_rejected env hcheck connIdx s.globals
    simp only [System.submitStep, hcheck, heq]
    exact h.stutter (fun _ hjob => hjob) rfl rfl rfl
  | ok pair =>
    simp only [System.submitStep, hcheck]
    exact h.stutter (fun _ hjob => hjob) rfl rfl rfl

theorem rtSemRelease_routed (h : Routed s) : Routed s.rtSemRelease := by
  obtain ⟨hglobals, -, -, hjob, hopen, hstatuses⟩ := rtSemRelease_frame s
  exact h.stutter (fun job hheld => hjob ▸ hheld) (by rw [hglobals]) hopen hstatuses

theorem submitterStep_routed (h : Routed s) {i : Nat} {s' : System}
    (hstep : s.submitterStep env i = some s') : Routed s' := by
  cases hi : s.submitters[i]? with
  | none => simp [System.submitterStep, hi] at hstep
  | some submitter =>
    obtain ⟨connIdx, pc⟩ := submitter
    cases pc with
    | notify =>
      simp only [System.submitterStep, hi, Option.some.injEq] at hstep
      rw [← hstep]
      exact h.stutter (fun _ hjob => hjob) (gdProvNotify_frame env _ _ _).2.1 rfl rfl
    | release =>
      simp only [System.submitterStep, hi, Option.some.injEq] at hstep
      rw [← hstep]
      refine rtSemRelease_routed (h.stutter (fun _ hjob => hjob) rfl rfl rfl)

theorem workerStep_routed (h : Routed s) (hok : RoutingOk s .worker) {s' : System}
    (hstep : s.workerStep env = some s') : Routed s' := by
  cases hworker : s.worker with
  | start =>
    simp only [System.workerStep, hworker, Option.some.injEq] at hstep
    rw [← hstep]
    exact h.stutter (fun _ hjob => by simp [WorkerPc.job?] at hjob) rfl rfl rfl
  | take =>
    simp only [System.workerStep, hworker, Option.some.injEq] at hstep
    rw [← hstep]
    unfold System.rtSemTake
    split <;> exact h.stutter (fun _ hjob => by simp [WorkerPc.job?] at hjob) rfl rfl rfl
  | blocked => simp [System.workerStep, hworker] at hstep
  | copy =>
    simp only [System.workerStep, hworker, Option.some.injEq] at hstep
    rw [← hstep]
    refine ⟨fun job hjob => ?_, h.sent⟩
    simp only [System.workerCopy, WorkerPc.job?, Option.some.injEq] at hjob
    rw [← hjob]
    exact hok hworker
  | notifyConnecting job =>
    simp only [System.workerStep, hworker, Option.some.injEq] at hstep
    rw [← hstep]
    have hjob : s.worker.job? = some job := by rw [hworker]; rfl
    let counted : System :=
      { s with globals := { s.globals with wifiConnectCount := s.globals.wifiConnectCount + 1 } }
    have hcounted : Routed counted := h.stutter (fun _ hheld => hheld) rfl rfl rfl
    have hsent : Routed (counted.workerNotify env job (statusText "connecting")) :=
      workerNotify_routed env hcounted hjob _
    refine hsent.stutter (fun held hheld => ?_) rfl rfl rfl
    exact hjob.trans hheld
  | connect job =>
    simp only [System.workerStep, hworker, Option.some.injEq] at hstep
    rw [← hstep]
    have hjob : s.worker.job? = some job := by rw [hworker]; rfl
    exact h.stutter (fun held hheld => hjob.trans hheld) rfl rfl rfl
  | connecting job => simp [System.workerStep, hworker] at hstep
  | notifyResponse job text =>
    simp only [System.workerStep, hworker, Option.some.injEq] at hstep
    rw [← hstep]
    have hjob : s.worker.job? = some job := by rw [hworker]; rfl
    exact (workerNotify_routed env h hjob text).stutter
      (fun _ hheld => by simp [WorkerPc.job?] at hheld) rfl rfl rfl

theorem wifiDoneStep_routed (h : Routed s) {ret : Int} {ip : String} {s' : System}
    (hstep : s.wifiDoneStep ret ip = some s') : Routed s' := by
  cases hworker : s.worker with
  | connecting job =>
    simp only [System.wifiDoneStep, hworker, Option.some.injEq] at hstep
    rw [← hstep]
    have hjob : s.worker.job? = some job := by rw [hworker]; rfl
    exact h.stutter (fun held hheld => hjob.trans hheld) rfl rfl rfl
  | _ => simp [System.wifiDoneStep, hworker] at hstep

theorem step_routed {s' : System} {a : Action} (h : Routed s) (hok : RoutingOk s a)
    (hstep : (provisioning env).step s a = some s') : Routed s' := by
  cases a with
  | connEvt connIdx connected =>
    obtain rfl := Option.some.inj hstep
    exact connEvtStep_routed h hok
  | submit json connIdx =>
    obtain rfl := Option.some.inj hstep
    exact submitStep_routed env h json connIdx
  | submitter i => exact submitterStep_routed env h hstep
  | worker => exact workerStep_routed env h hok hstep
  | wifiDone ret ip => exact wifiDoneStep_routed h hstep

/-! ## The condition is exact -/

/-- Every number of a connect event in the state is below the count. -/
structure Numbered (s : System) : Prop where
  openConn : ∀ connIdx n, s.openConn connIdx = some n → n < s.connCount
  slot : ∀ o n, s.slotOrigin = some o → o.opened = some n → n < s.connCount
  job : ∀ job o n, s.worker.job? = some job → job.origin = some o → o.opened = some n →
    n < s.connCount

theorem numbered_initial : Numbered System.initial where
  openConn := fun _ _ h => absurd h (by simp [System.initial])
  slot := fun _ _ h => absurd h (by simp [System.initial])
  job := fun _ _ _ h => absurd h (by simp [System.initial, WorkerPc.job?])

/-- A step that opens and closes nothing and keeps the slot's origin and the job. -/
theorem Numbered.stutter {s' : System} (h : Numbered s)
    (hjob : ∀ job, s'.worker.job? = some job → s.worker.job? = some job)
    (hslot : s'.slotOrigin = s.slotOrigin) (hopen : s'.openConn = s.openConn)
    (hcount : s'.connCount = s.connCount) : Numbered s' where
  openConn := by rw [hopen, hcount]; exact h.openConn
  slot := by rw [hslot, hcount]; exact h.slot
  job := by
    intro job o n hheld
    rw [hcount]
    exact h.job job o n (hjob job hheld)

theorem connEvtStep_numbered (h : Numbered s) (connIdx : UInt8) (connected : Bool) :
    Numbered (s.connEvtStep connIdx connected) := by
  have hle : s.connCount ≤ (s.connEvtStep connIdx connected).connCount := by
    cases connected <;> simp [System.connEvtStep]
  refine ⟨fun c n hopen => ?_, fun o n ho hn => Nat.lt_of_lt_of_le (h.slot o n ho hn) hle,
    fun job o n hjob ho hn => Nat.lt_of_lt_of_le (h.job job o n hjob ho hn) hle⟩
  by_cases hc : c = connIdx
  · cases connected with
    | false => simp [System.connEvtStep, hc] at hopen
    | true =>
      simp only [System.connEvtStep, hc, if_true, Option.some.injEq] at hopen ⊢
      omega
  · simp only [System.connEvtStep, hc, if_false] at hopen
    exact Nat.lt_of_lt_of_le (h.openConn c n hopen) hle

/-- A submission's origin carries the number of an open connection. -/
theorem submitStep_numbered (h : Numbered s) (json : Vector UInt8 gdProvJsonBufferLen)
    (connIdx : UInt8) : Numbered (s.submitStep env json connIdx) := by
  cases hcheck : gdProvCheckJson env (cString json.toList) with
  | error status =>
    simp only [System.submitStep, hcheck]
    exact h.stutter (fun _ hjob => hjob) rfl rfl rfl
  | ok pair =>
    simp only [System.submitStep, hcheck]
    refine ⟨h.openConn, fun o n ho hn => ?_, h.job⟩
    rw [← Option.some.inj ho] at hn
    exact h.openConn connIdx n hn

theorem submitterStep_numbered (h : Numbered s) {i : Nat} {s' : System}
    (hstep : s.submitterStep env i = some s') : Numbered s' := by
  cases hi : s.submitters[i]? with
  | none => simp [System.submitterStep, hi] at hstep
  | some submitter =>
    obtain ⟨connIdx, pc⟩ := submitter
    cases pc with
    | notify =>
      simp only [System.submitterStep, hi, Option.some.injEq] at hstep
      rw [← hstep]
      exact h.stutter (fun _ hjob => hjob) rfl rfl rfl
    | release =>
      simp only [System.submitterStep, hi, Option.some.injEq] at hstep
      rw [← hstep]
      unfold System.rtSemRelease
      split
      · exact h.stutter (fun _ hjob => by simp [WorkerPc.job?] at hjob) rfl rfl rfl
      · split <;> exact h.stutter (fun _ hjob => hjob) rfl rfl rfl

/-- The worker's copy takes over the slot's origin, its start-up store clears it. -/
theorem workerStep_numbered (h : Numbered s) {s' : System}
    (hstep : s.workerStep env = some s') : Numbered s' := by
  cases hworker : s.worker with
  | start =>
    simp only [System.workerStep, hworker, Option.some.injEq] at hstep
    rw [← hstep]
    exact ⟨h.openConn, fun _ _ ho => absurd ho (by simp),
      fun _ _ _ hjob => absurd hjob (by simp [WorkerPc.job?])⟩
  | take =>
    simp only [System.workerStep, hworker, Option.some.injEq] at hstep
    rw [← hstep]
    unfold System.rtSemTake
    split <;> exact h.stutter (fun _ hjob => by simp [WorkerPc.job?] at hjob) rfl rfl rfl
  | blocked => simp [System.workerStep, hworker] at hstep
  | copy =>
    simp only [System.workerStep, hworker, Option.some.injEq] at hstep
    rw [← hstep]
    refine ⟨h.openConn, h.slot, fun job o n hjob ho hn => ?_⟩
    simp only [System.workerCopy, WorkerPc.job?, Option.some.injEq] at hjob
    rw [← hjob] at ho
    exact h.slot o n ho hn
  | notifyConnecting job =>
    simp only [System.workerStep, hworker, Option.some.injEq] at hstep
    rw [← hstep]
    have hjob : s.worker.job? = some job := by rw [hworker]; rfl
    exact h.stutter (fun _ hheld => hjob.trans hheld) rfl rfl rfl
  | connect job =>
    simp only [System.workerStep, hworker, Option.some.injEq] at hstep
    rw [← hstep]
    have hjob : s.worker.job? = some job := by rw [hworker]; rfl
    exact h.stutter (fun _ hheld => hjob.trans hheld) rfl rfl rfl
  | connecting job => simp [System.workerStep, hworker] at hstep
  | notifyResponse job text =>
    simp only [System.workerStep, hworker, Option.some.injEq] at hstep
    rw [← hstep]
    exact h.stutter (fun _ hheld => by simp [WorkerPc.job?] at hheld) rfl rfl rfl

omit env in
theorem wifiDoneStep_numbered (h : Numbered s) {ret : Int} {ip : String} {s' : System}
    (hstep : s.wifiDoneStep ret ip = some s') : Numbered s' := by
  cases hworker : s.worker with
  | connecting job =>
    simp only [System.wifiDoneStep, hworker, Option.some.injEq] at hstep
    rw [← hstep]
    have hjob : s.worker.job? = some job := by rw [hworker]; rfl
    exact h.stutter (fun _ hheld => hjob.trans hheld) rfl rfl rfl
  | _ => simp [System.wifiDoneStep, hworker] at hstep

theorem step_numbered {s' : System} {a : Action} (h : Numbered s)
    (hstep : (provisioning env).step s a = some s') : Numbered s' := by
  cases a with
  | connEvt connIdx connected =>
    obtain rfl := Option.some.inj hstep
    exact connEvtStep_numbered h connIdx connected
  | submit json connIdx =>
    obtain rfl := Option.some.inj hstep
    exact submitStep_numbered env h json connIdx
  | submitter i => exact submitterStep_numbered env h hstep
  | worker => exact workerStep_numbered env h hstep
  | wifiDone ret ip => exact wifiDoneStep_numbered h hstep

/-- Where everything was right before a step, the step meets the condition exactly
when the next status is right after it. -/
theorem routingOk_iff_routedNext {s' : System} {a : Action} (h : Routed s)
    (hnumbered : Numbered s) (hstep : (provisioning env).step s a = some s') :
    RoutingOk s a ↔ RoutedNext s' := by
  refine ⟨fun hok => (step_routed env h hok hstep).next, fun hnext => ?_⟩
  cases a with
  | connEvt connIdx connected =>
    cases connected with
    | false => trivial
    | true =>
      intro job hjob
      obtain rfl := Option.some.inj hstep
      rcases hnext job hjob with hclosed | ⟨o, n, horigin, hidx, hopened, hopen⟩
      · exact absurd hclosed (by simp [System.connEvtStep, gdProvBleConnEvt])
      · -- the number of the new connection is not the origin's
        have hother : job.connIdx ≠ connIdx := by
          intro hsame
          simp only [System.connEvtStep, hsame, if_true, Option.some.injEq] at hopen
          have hlt := hnumbered.job job o n hjob horigin hopened
          omega
        simp only [System.connEvtStep, hother, if_false] at hopen
        exact ⟨⟨o, n, horigin, hidx, hopened, hopen⟩, hother.symm⟩
  | worker =>
    intro hcopy
    have hcopied : s.workerCopy = s' := by
      change s.workerStep env = some s' at hstep
      simpa [System.workerStep, hcopy] using hstep
    rw [← hcopied] at hnext
    exact hnext _ rfl
  | submit json connIdx => trivial
  | submitter i => trivial
  | wifiDone ret ip => trivial

/-! ## Runs -/

/-- A run meets the condition at every step when the next status is right in every
state it reaches. -/
theorem routingOk_run_of_routedNext {actions : List Action} {final : System} (h : Routed s)
    (hnumbered : Numbered s) (run : (provisioning env).Run Machine.anyStep s actions final)
    (hnext : ∀ left right mid, actions = left ++ right →
      (provisioning env).Run Machine.anyStep s left mid → RoutedNext mid) :
    (provisioning env).Run RoutingOk s actions final := by
  induction run with
  | nil s => exact .nil s
  | @cons s mid final a rest _ hstep _ ih =>
    have hmid : RoutedNext mid := hnext [a] rest mid rfl (.cons trivial hstep (.nil mid))
    have hok : RoutingOk s a := (routingOk_iff_routedNext env h hnumbered hstep).mpr hmid
    refine .cons hok hstep (ih (step_routed env h hok hstep)
      (step_numbered env hnumbered hstep) fun left right later hsplit hleft => ?_)
    exact hnext (a :: left) right later (by rw [hsplit]; rfl) (.cons trivial hstep hleft)

/-- The condition is exact: a run meets it at every step if and only if in every
state of the run the status the worker would send next is right. -/
theorem routingOk_run_iff {actions : List Action}
    (run : (provisioning env).Run Machine.anyStep System.initial actions s) :
    (provisioning env).Run RoutingOk System.initial actions s ↔
      ∀ left right mid, actions = left ++ right →
        (provisioning env).Run Machine.anyStep System.initial left mid → RoutedNext mid := by
  refine ⟨fun hrun left right mid hsplit hleft => ?_,
    routingOk_run_of_routedNext env routed_initial numbered_initial run⟩
  rw [hsplit] at hrun
  obtain ⟨mid', hadmitted, -⟩ := hrun.split
  have hsame : some mid = some mid' := hleft.exec_eq.symm.trans hadmitted.exec_eq
  rw [Option.some.inj hsame]
  exact (hadmitted.invariant (fun _ _ _ hok hstep h => step_routed env h hok hstep)
    routed_initial).next

end Gd32Vw553h.Provision
