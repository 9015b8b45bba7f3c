/-
  Provision/Callbacks.lean --- what each BLE-side function does, said once.

  `gdProvNotify_eq`, `gdProvSubmitJson_rejected` and `gdProvSubmitJson_accepted`
  list every effect of their function.  On top of them the receive loop refines
  the bounded framer of `Foundation/Framer.lean` with room for 255 bytes
  (`gdProvBleRxLoop_refines`): the framer's events determine the calls that leave
  the module, both line counters and the credential slot.
-/
import Gd32Vw553h.Foundation.Framer
import Gd32Vw553h.Provision.Model

set_option autoImplicit false

namespace Gd32Vw553h.Provision

open Gd32Vw553h.Foundation Gd32Vw553h.Klibc

variable (env : Env)

/-! ## Notifications -/

/-- A call made on behalf of the connection `connIdx`; a submitted buffer is
terminated inside its 256 bytes. -/
def CallOn (connIdx : UInt8) : Effect → Prop
  | .submitJson json c => c = connIdx ∧ 0 ∈ json.toList
  | .notify c _ => c = connIdx
  | .datatransSend c _ _ => c = connIdx
  | .semRelease => True

/-- A notification is recorded, is sent when a client is connected, and may count
one transmission. -/
theorem gdProvNotify_eq (connIdx : UInt8) (text : String) (g : Globals) :
    ∃ (sends : List Effect) (tx : Nat),
      gdProvNotify env connIdx text g =
        { g with trace := g.trace ++ .notify connIdx text :: sends, bleTxCount := tx } ∧
      (∀ e ∈ sends, ∃ len, e = .datatransSend connIdx text len) ∧
      (g.bleConnected = 0 → sends = []) := by
  by_cases hconn : g.bleConnected = 0
  · refine ⟨[], g.bleTxCount, ?_, by simp, fun _ => rfl⟩
    simp [gdProvNotify, Globals.emit, hconn]
  · let len := UInt16.ofNat text.utf8ByteSize
    have hsent : ∀ e ∈ [Effect.datatransSend connIdx text len],
        ∃ len, e = .datatransSend connIdx text len := fun e he =>
      ⟨len, List.mem_singleton.mp he⟩
    by_cases hret : env.datatransSend (g.trace ++ [.notify connIdx text]) connIdx text = 0
    · refine ⟨[.datatransSend connIdx text len], g.bleTxCount + 1, ?_, hsent,
        fun h => absurd h hconn⟩
      simp [gdProvNotify, Globals.emit, hconn, hret, len]
    · refine ⟨[.datatransSend connIdx text len], g.bleTxCount, ?_, hsent,
        fun h => absurd h hconn⟩
      simp [gdProvNotify, Globals.emit, hconn, hret, len]

/-! ## Submitted lines -/

/-- The slot after `gd_prov_store_credentials(ssid, password)`. -/
def storedCredentials (ssid password : List UInt8) : Credentials :=
  (gdProvStoreCredentials ssid password Globals.initial).creds

theorem gdProvStoreCredentials_eq (ssid password : List UInt8) (g : Globals) :
    gdProvStoreCredentials ssid password g =
      { g with creds := storedCredentials ssid password } := rfl

theorem storedCredentials_ssid {ssid : List UInt8} (password : List UInt8)
    (hnul : NulFree ssid) (hlen : ssid.length ≤ gdProvMaxSsidLen) :
    (storedCredentials ssid password).ssid.toList = zeroPad (gdProvMaxSsidLen + 1) ssid := by
  simp only [storedCredentials, gdProvStoreCredentials, Vector.toList_set,
    rtStrncpyArray_toList, cString_of_nulFree hnul]
  exact zeroPad_set_last hlen

theorem storedCredentials_password (ssid : List UInt8) {password : List UInt8}
    (hnul : NulFree password) (hlen : password.length ≤ gdProvMaxPasswordLen) :
    (storedCredentials ssid password).password.toList =
      zeroPad (gdProvMaxPasswordLen + 1) password := by
  simp only [storedCredentials, gdProvStoreCredentials, Vector.toList_set,
    rtStrncpyArray_toList, cString_of_nulFree hnul]
  exact zeroPad_set_last hlen

/-- A rejected line is counted and answered with its status. -/
theorem gdProvSubmitJson_rejected {json : Vector UInt8 gdProvJsonBufferLen} {status : String}
    (h : gdProvCheckJson env (cString json.toList) = .error status)
    (connIdx : UInt8) (g : Globals) :
    ∃ (sends : List Effect) (tx : Nat),
      gdProvSubmitJson env json connIdx g =
        { g with
          jsonErrorCount := g.jsonErrorCount + 1
          trace := g.trace ++
            .submitJson json connIdx :: .notify connIdx (statusText status) :: sends
          bleTxCount := tx } ∧
      (∀ e ∈ sends, ∃ text len, e = .datatransSend connIdx text len) := by
  obtain ⟨sends, tx, heq, hsends, -⟩ := gdProvNotify_eq env connIdx (statusText status)
    { g.emit (.submitJson json connIdx) with jsonErrorCount := g.jsonErrorCount + 1 }
  refine ⟨sends, tx, ?_, fun e he => ⟨_, hsends e he⟩⟩
  simp only [gdProvSubmitJson, h]
  simpa [Globals.emit] using heq

/-- An accepted line overwrites the slot, is counted and answered, and releases
the semaphore last. -/
theorem gdProvSubmitJson_accepted {json : Vector UInt8 gdProvJsonBufferLen}
    {ssid password : List UInt8}
    (h : gdProvCheckJson env (cString json.toList) = .ok (ssid, password))
    (connIdx : UInt8) (g : Globals) :
    ∃ (sends : List Effect) (tx : Nat),
      gdProvSubmitJson env json connIdx g =
        { g with
          jsonOkCount := g.jsonOkCount + 1
          creds := storedCredentials ssid password
          trace := g.trace ++
            .submitJson json connIdx :: .notify connIdx (statusText "accepted") ::
              (sends ++ [.semRelease])
          bleTxCount := tx } ∧
      (∀ e ∈ sends, ∃ text len, e = .datatransSend connIdx text len) := by
  obtain ⟨sends, tx, heq, hsends, -⟩ := gdProvNotify_eq env connIdx (statusText "accepted")
    (gdProvAcceptStore ssid password (g.emit (.submitJson json connIdx)))
  refine ⟨sends, tx, ?_, fun e he => ⟨_, hsends e he⟩⟩
  simp only [gdProvSubmitJson, h, heq]
  simp [Globals.emit, gdProvAcceptStore, gdProvStoreCredentials_eq]

/-! ## Events of the receive loop -/

/-- The framer event a call stands for. -/
def lineEvent : Effect → Option (FrameEvent UInt8)
  | .submitJson json _ => some (.line (cString json.toList))
  | .notify _ text => if text = statusText "too_long" then some .overflow else none
  | _ => none

/-- The framer events of a call sequence. -/
def frameEvents (calls : List Effect) : List (FrameEvent UInt8) := calls.filterMap lineEvent

/-- The text of a `gd_prov_notify` call. -/
def notification? : Effect → Option String
  | .notify _ text => some text
  | _ => none

/-- The notifications of a call sequence. -/
def notifications (calls : List Effect) : List String := calls.filterMap notification?

/-- The number of semaphore releases of a call sequence. -/
def releaseCount (calls : List Effect) : Nat := calls.count .semRelease

@[simp] theorem frameEvents_append (s t : List Effect) :
    frameEvents (s ++ t) = frameEvents s ++ frameEvents t := List.filterMap_append

@[simp] theorem notifications_append (s t : List Effect) :
    notifications (s ++ t) = notifications s ++ notifications t := List.filterMap_append

@[simp] theorem releaseCount_append (s t : List Effect) :
    releaseCount (s ++ t) = releaseCount s + releaseCount t := List.count_append

theorem frameEvents_cons (e : Effect) (s : List Effect) :
    frameEvents (e :: s) = (lineEvent e).toList ++ frameEvents s := by
  cases h : lineEvent e <;> simp [frameEvents, h]

theorem notifications_cons (e : Effect) (s : List Effect) :
    notifications (e :: s) = (notification? e).toList ++ notifications s := by
  cases h : notification? e <;> simp [notifications, h]

section Sends

variable {sends : List Effect} (h : ∀ e ∈ sends, ∃ c text len, e = .datatransSend c text len)
include h

theorem frameEvents_sends : frameEvents sends = [] := by
  refine List.filterMap_eq_nil_iff.mpr fun e he => ?_
  obtain ⟨c, text, len, rfl⟩ := h e he
  rfl

theorem notifications_sends : notifications sends = [] := by
  refine List.filterMap_eq_nil_iff.mpr fun e he => ?_
  obtain ⟨c, text, len, rfl⟩ := h e he
  rfl

theorem releaseCount_sends : releaseCount sends = 0 := by
  refine List.count_eq_zero.mpr fun he => ?_
  obtain ⟨c, text, len, heq⟩ := h _ he
  exact Effect.noConfusion heq

end Sends

/-- The statuses of a rejected line. -/
theorem gdProvCheckJson_error {json : List UInt8} {status : String}
    (h : gdProvCheckJson env json = .error status) :
    status = "bad_json" ∨ status = "missing_ssid_or_pwd" ∨ status = "invalid_length" := by
  unfold gdProvCheckJson at h
  split at h
  · exact Or.inl (Except.error.inj h).symm
  · dsimp only at h
    split at h
    · exact Or.inr (Or.inl (Except.error.inj h).symm)
    · split at h
      · split at h
        · exact Or.inr (Or.inr (Except.error.inj h).symm)
        · exact absurd h (by simp)
      · exact Or.inr (Or.inl (Except.error.inj h).symm)

/-- The two C strings of an accepted line are within the limits. -/
theorem gdProvCheckJson_ok {json ssid password : List UInt8}
    (h : gdProvCheckJson env json = .ok (ssid, password)) :
    (NulFree ssid ∧ 1 ≤ ssid.length ∧ ssid.length ≤ gdProvMaxSsidLen) ∧
      (NulFree password ∧ password.length ≤ gdProvMaxPasswordLen) := by
  unfold gdProvCheckJson at h
  split at h
  · exact absurd h (by simp)
  · dsimp only at h
    split at h
    · exact absurd h (by simp)
    · split at h
      · split at h
        · exact absurd h (by simp)
        · rename_i rawSsid rawPassword _ _ hlimits
          simp only [Except.ok.injEq, Prod.mk.injEq] at h
          obtain ⟨rfl, rfl⟩ := h
          simp only [rtStrlen_eq, not_or] at hlimits
          exact ⟨⟨cString_nulFree _, by omega, by omega⟩, cString_nulFree _, by omega⟩
      · exact absurd h (by simp)

/-- The answer to a rejected line is not the overflow notification. -/
theorem statusText_ne_too_long {json : List UInt8} {status : String}
    (h : gdProvCheckJson env json = .error status) :
    statusText status ≠ statusText "too_long" := by
  rcases gdProvCheckJson_error env h with rfl | rfl | rfl <;> decide

/-- Whether an event counts as an error. -/
def isErrorEvent : FrameEvent UInt8 → Bool
  | .overflow => true
  | .line json => match gdProvCheckJson env json with
    | .error _ => true
    | .ok _ => false

/-- Whether an event is an accepted line. -/
def isOkEvent (e : FrameEvent UInt8) : Bool := !isErrorEvent env e

/-- What an event is answered with. -/
def answer : FrameEvent UInt8 → String
  | .overflow => statusText "too_long"
  | .line json => match gdProvCheckJson env json with
    | .error status => statusText status
    | .ok _ => statusText "accepted"

/-- The slot after an event. -/
def credsAfter (creds : Credentials) : FrameEvent UInt8 → Credentials
  | .overflow => creds
  | .line json => match gdProvCheckJson env json with
    | .error _ => creds
    | .ok (ssid, password) => storedCredentials ssid password

/-- The calls that answer `events` on one connection. -/
structure Answers (connIdx : UInt8) (calls : List Effect) (events : List (FrameEvent UInt8)) :
    Prop where
  frameEvents : frameEvents calls = events
  notifications : notifications calls = events.map (answer env)
  releaseCount : releaseCount calls = events.countP (isOkEvent env)
  on : ∀ e ∈ calls, CallOn connIdx e

/-- `g'` is `g` after the framer reported `events` and kept `kept`. -/
structure Reflects (connIdx : UInt8) (g g' : Globals) (kept : List UInt8)
    (events : List (FrameEvent UInt8)) : Prop where
  calls : ∃ calls, g'.trace = g.trace ++ calls ∧ Answers env connIdx calls events
  pending : g'.json.pending = kept
  errors : g'.jsonErrorCount = g.jsonErrorCount + events.countP (isErrorEvent env)
  oks : g'.jsonOkCount = g.jsonOkCount + events.countP (isOkEvent env)
  creds : g'.creds = events.foldl (credsAfter env) g.creds
  connected : g'.bleConnected = g.bleConnected
  connIdx : g'.bleConnIdx = g.bleConnIdx

variable {env}

theorem Answers.nil (connIdx : UInt8) : Answers env connIdx [] [] where
  frameEvents := rfl
  notifications := rfl
  releaseCount := rfl
  on := by simp

theorem Answers.append {connIdx : UInt8} {calls calls' : List Effect}
    {events events' : List (FrameEvent UInt8)} (h : Answers env connIdx calls events)
    (h' : Answers env connIdx calls' events') :
    Answers env connIdx (calls ++ calls') (events ++ events') where
  frameEvents := by rw [frameEvents_append, h.frameEvents, h'.frameEvents]
  notifications := by
    rw [notifications_append, h.notifications, h'.notifications, List.map_append]
  releaseCount := by
    rw [releaseCount_append, h.releaseCount, h'.releaseCount, List.countP_append]
  on := by
    intro e he
    rcases List.mem_append.mp he with hl | hr
    · exact h.on e hl
    · exact h'.on e hr

theorem Reflects.refl (connIdx : UInt8) (g : Globals) :
    Reflects env connIdx g g g.json.pending [] where
  calls := ⟨[], by simp, Answers.nil connIdx⟩
  pending := rfl
  errors := rfl
  oks := rfl
  creds := rfl
  connected := rfl
  connIdx := rfl

theorem Reflects.trans {connIdx : UInt8} {g g' g'' : Globals} {kept kept' : List UInt8}
    {events events' : List (FrameEvent UInt8)}
    (h : Reflects env connIdx g g' kept events)
    (h' : Reflects env connIdx g' g'' kept' events') :
    Reflects env connIdx g g'' kept' (events ++ events') where
  calls := by
    obtain ⟨calls, htrace, hanswers⟩ := h.calls
    obtain ⟨calls', htrace', hanswers'⟩ := h'.calls
    exact ⟨calls ++ calls', by rw [htrace', htrace, List.append_assoc],
      hanswers.append hanswers'⟩
  pending := h'.pending
  errors := by rw [h'.errors, h.errors, List.countP_append, Nat.add_assoc]
  oks := by rw [h'.oks, h.oks, List.countP_append, Nat.add_assoc]
  creds := by rw [h'.creds, h.creds, List.foldl_append]
  connected := h'.connected.trans h.connected
  connIdx := h'.connIdx.trans h.connIdx

variable (env)

/-- The calls of a rejected line. -/
theorem answers_rejected {json : Vector UInt8 gdProvJsonBufferLen} (hnul : 0 ∈ json.toList)
    {status : String} (hcheck : gdProvCheckJson env (cString json.toList) = .error status)
    {connIdx : UInt8} {sends : List Effect}
    (hsends : ∀ e ∈ sends, ∃ text len, e = .datatransSend connIdx text len) :
    Answers env connIdx
      (.submitJson json connIdx :: .notify connIdx (statusText status) :: sends)
      [.line (cString json.toList)] := by
  have hsends' : ∀ e ∈ sends, ∃ c text len, e = .datatransSend c text len :=
    fun e he => ⟨connIdx, hsends e he⟩
  refine ⟨?_, ?_, ?_, ?_⟩
  · rw [frameEvents_cons, frameEvents_cons, frameEvents_sends hsends']
    simp [lineEvent, statusText_ne_too_long env hcheck]
  · rw [notifications_cons, notifications_cons, notifications_sends hsends']
    simp [notification?, answer, hcheck]
  · have hnone := releaseCount_sends hsends'
    simp only [releaseCount] at hnone ⊢
    simp [isOkEvent, isErrorEvent, hcheck, hnone]
  · intro e he
    simp only [List.mem_cons] at he
    rcases he with rfl | rfl | he
    · exact ⟨rfl, hnul⟩
    · rfl
    · obtain ⟨text, len, rfl⟩ := hsends e he
      rfl

/-- The calls of an accepted line. -/
theorem answers_accepted {json : Vector UInt8 gdProvJsonBufferLen} (hnul : 0 ∈ json.toList)
    {pair : List UInt8 × List UInt8}
    (hcheck : gdProvCheckJson env (cString json.toList) = .ok pair)
    {connIdx : UInt8} {sends : List Effect}
    (hsends : ∀ e ∈ sends, ∃ text len, e = .datatransSend connIdx text len) :
    Answers env connIdx
      (.submitJson json connIdx :: .notify connIdx (statusText "accepted") ::
        (sends ++ [.semRelease]))
      [.line (cString json.toList)] := by
  have hsends' : ∀ e ∈ sends, ∃ c text len, e = .datatransSend c text len :=
    fun e he => ⟨connIdx, hsends e he⟩
  refine ⟨?_, ?_, ?_, ?_⟩
  · have hne : statusText "accepted" ≠ statusText "too_long" := by decide
    rw [frameEvents_cons, frameEvents_cons, frameEvents_append, frameEvents_sends hsends']
    simp [lineEvent, hne, frameEvents]
  · rw [notifications_cons, notifications_cons, notifications_append,
      notifications_sends hsends']
    simp [notification?, notifications, answer, hcheck]
  · have hnone := releaseCount_sends hsends'
    simp only [releaseCount] at hnone ⊢
    simp [isOkEvent, isErrorEvent, hcheck, hnone]
  · intro e he
    simp only [List.mem_cons, List.mem_append, List.not_mem_nil, or_false] at he
    rcases he with rfl | rfl | he | rfl
    · exact ⟨rfl, hnul⟩
    · rfl
    · obtain ⟨text, len, rfl⟩ := hsends e he
      rfl
    · trivial

/-- The calls of an overflow. -/
theorem answers_overflow {connIdx : UInt8} {sends : List Effect}
    (hsends : ∀ e ∈ sends, ∃ len, e = .datatransSend connIdx (statusText "too_long") len) :
    Answers env connIdx (.notify connIdx (statusText "too_long") :: sends) [.overflow] := by
  have hsends' : ∀ e ∈ sends, ∃ c text len, e = .datatransSend c text len :=
    fun e he => ⟨connIdx, _, hsends e he⟩
  refine ⟨?_, ?_, ?_, ?_⟩
  · rw [frameEvents_cons, frameEvents_sends hsends']
    simp [lineEvent]
  · rw [notifications_cons, notifications_sends hsends']
    simp [notification?, answer]
  · have hnone := releaseCount_sends hsends'
    simp only [releaseCount] at hnone ⊢
    simp [isOkEvent, isErrorEvent, hnone]
  · intro e he
    rcases List.mem_cons.mp he with rfl | he
    · rfl
    · obtain ⟨len, rfl⟩ := hsends e he
      rfl

/-- One submitted line: the framer's `line` event. -/
theorem gdProvSubmitJson_reflects (json : Vector UInt8 gdProvJsonBufferLen)
    (hnul : 0 ∈ json.toList) (connIdx : UInt8) (g : Globals) :
    Reflects env connIdx g (gdProvSubmitJson env json connIdx g) g.json.pending
      [.line (cString json.toList)] := by
  cases hcheck : gdProvCheckJson env (cString json.toList) with
  | error status =>
    obtain ⟨sends, tx, heq, hsends⟩ := gdProvSubmitJson_rejected env hcheck connIdx g
    rw [heq]
    refine ⟨⟨_, rfl, answers_rejected env hnul hcheck hsends⟩, rfl, ?_, ?_, ?_, rfl, rfl⟩
    · simp [isErrorEvent, hcheck]
    · simp [isOkEvent, isErrorEvent, hcheck]
    · simp [credsAfter, hcheck]
  | ok pair =>
    obtain ⟨ssid, password⟩ := pair
    obtain ⟨sends, tx, heq, hsends⟩ := gdProvSubmitJson_accepted env hcheck connIdx g
    rw [heq]
    refine ⟨⟨_, rfl, answers_accepted env hnul hcheck hsends⟩, rfl, ?_, ?_, ?_, rfl, rfl⟩
    · simp [isErrorEvent, hcheck]
    · simp [isOkEvent, isErrorEvent, hcheck]
    · simp [credsAfter, hcheck]

/-! ## The receive loop refines the bounded framer -/

/-- The bytes of a stream that the framing looks at. -/
def stripCr (data : List UInt8) : List UInt8 := data.filter fun ch => !isCr ch

@[simp] theorem stripCr_nil : stripCr [] = [] := rfl

@[simp] theorem stripCr_append (s t : List UInt8) :
    stripCr (s ++ t) = stripCr s ++ stripCr t := List.filter_append ..

/-- The framer that the receive loop runs: room for 255 bytes and a terminator. -/
abbrev lineFrame (kept data : List UInt8) : List UInt8 × List (FrameEvent UInt8) :=
  frame (gdProvJsonBufferLen - 1) isTerm kept (stripCr data)

theorem nulFree_of_no_term {s : List UInt8} (h : ∀ b ∈ s, isTerm b = false) : NulFree s := by
  intro b hb hz
  have := h b hb
  simp [isTerm, hz] at this

section ByteSteps

variable (connIdx : UInt8) (g : Globals) {ch : UInt8}

theorem gdProvBleRxByte_cr (hcr : isCr ch = true) : gdProvBleRxByte env connIdx g ch = g := by
  rw [gdProvBleRxByte, if_pos hcr]

/-- A terminator behind an empty line does nothing. -/
theorem gdProvBleRxByte_emptyLine (hcr : isCr ch = false) (hterm : isTerm ch = true)
    (hzero : g.json.len.val = 0) : gdProvBleRxByte env connIdx g ch = g := by
  simp [gdProvBleRxByte, hcr, hterm, hzero]

/-- A terminator submits the kept line and forgets it. -/
theorem gdProvBleRxByte_submit (hcr : isCr ch = false) (hterm : isTerm ch = true)
    (hpos : 0 < g.json.len.val) :
    gdProvBleRxByte env connIdx g ch =
      (let g' := gdProvSubmitJson env g.json.terminate.buf connIdx
        { g with json := g.json.terminate }
      { g' with json := g'.json.clear }) := by
  simp [gdProvBleRxByte, hcr, hterm, hpos]

theorem gdProvBleRxByte_room (hcr : isCr ch = false) (hterm : isTerm ch = false)
    (hroom : g.json.len.val < gdProvJsonBufferLen - 1) :
    gdProvBleRxByte env connIdx g ch = { g with json := g.json.push ch hroom } := by
  rw [gdProvBleRxByte, if_neg (by simp [hcr]), if_neg (by simp [hterm]), dif_pos hroom]

/-- A byte without room is dropped together with the kept line. -/
theorem gdProvBleRxByte_overflow (hcr : isCr ch = false) (hterm : isTerm ch = false)
    (hfull : ¬ g.json.len.val < gdProvJsonBufferLen - 1) :
    gdProvBleRxByte env connIdx g ch =
      gdProvNotify env connIdx (statusText "too_long")
        { g with json := g.json.clear, jsonErrorCount := g.jsonErrorCount + 1 } := by
  rw [gdProvBleRxByte, if_neg (by simp [hcr]), if_neg (by simp [hterm]), dif_neg hfull]

end ByteSteps

/-- One byte other than `'\r'` is one step of the framer. -/
theorem gdProvBleRxByte_reflects (connIdx : UInt8) (g : Globals) {ch : UInt8}
    (hcr : isCr ch = false) (hpending : ∀ b ∈ g.json.pending, isTerm b = false) :
    Reflects env connIdx g (gdProvBleRxByte env connIdx g ch)
      (frameStep (gdProvJsonBufferLen - 1) isTerm g.json.pending ch).1
      (frameStep (gdProvJsonBufferLen - 1) isTerm g.json.pending ch).2 := by
  have hlen : g.json.pending.length = g.json.len.val := g.json.pending_length
  have hempty : g.json.pending.isEmpty = decide (g.json.len.val = 0) := by
    rw [← hlen]
    cases g.json.pending <;> simp
  by_cases hterm : isTerm ch = true
  · rw [frameStep_term hterm]
    by_cases hzero : g.json.len.val = 0
    · have hnil : g.json.pending = [] := List.length_eq_zero_iff.mp (hlen.trans hzero)
      rw [gdProvBleRxByte_emptyLine env connIdx g hcr hterm hzero, hnil]
      have hrefl : Reflects env connIdx g g g.json.pending [] := .refl connIdx g
      simpa [hnil] using hrefl
    · -- the kept line is terminated, submitted and forgotten
      have hsubmit := gdProvSubmitJson_reflects env g.json.terminate.buf
        g.json.nul_mem_terminate connIdx { g with json := g.json.terminate }
      rw [g.json.cString_terminate (nulFree_of_no_term hpending)] at hsubmit
      rw [gdProvBleRxByte_submit env connIdx g hcr hterm (Nat.pos_of_ne_zero hzero)]
      simp only [hempty, hzero, decide_false, Bool.false_eq_true, if_false]
      exact ⟨hsubmit.calls, JsonBuffer.pending_clear _, hsubmit.errors, hsubmit.oks,
        hsubmit.creds, hsubmit.connected, hsubmit.connIdx⟩
  · have hterm' : isTerm ch = false := by simpa using hterm
    by_cases hroom : g.json.len.val < gdProvJsonBufferLen - 1
    · rw [gdProvBleRxByte_room env connIdx g hcr hterm' hroom,
        frameStep_room hterm' (by rw [hlen]; exact hroom)]
      exact ⟨⟨[], by simp, Answers.nil connIdx⟩, JsonBuffer.pending_push _ _ hroom,
        rfl, rfl, rfl, rfl, rfl⟩
    · obtain ⟨sends, tx, heq, hsends, -⟩ := gdProvNotify_eq env connIdx (statusText "too_long")
        { g with json := g.json.clear, jsonErrorCount := g.jsonErrorCount + 1 }
      rw [gdProvBleRxByte_overflow env connIdx g hcr hterm' hroom, heq,
        frameStep_overflow hterm' (by rw [hlen]; exact hroom)]
      exact ⟨⟨_, rfl, answers_overflow env hsends⟩, JsonBuffer.pending_clear _,
        rfl, rfl, rfl, rfl, rfl⟩

/-- The receive loop is the framer on the stripped bytes. -/
theorem gdProvBleRxLoop_refines (connIdx : UInt8) (data : List UInt8) (g : Globals)
    (hpending : ∀ b ∈ g.json.pending, isTerm b = false) :
    Reflects env connIdx g (gdProvBleRxLoop env connIdx data g)
      (lineFrame g.json.pending data).1 (lineFrame g.json.pending data).2 := by
  induction data generalizing g with
  | nil => exact Reflects.refl connIdx g
  | cons ch data ih =>
    cases hcr : isCr ch with
    | true =>
      have hstep : gdProvBleRxLoop env connIdx (ch :: data) g =
          gdProvBleRxLoop env connIdx data g := by
        simp [gdProvBleRxLoop, gdProvBleRxByte_cr env connIdx g hcr]
      have hstrip : stripCr (ch :: data) = stripCr data := by simp [stripCr, hcr]
      rw [hstep, lineFrame, hstrip]
      exact ih g hpending
    | false =>
      have hfirst := gdProvBleRxByte_reflects env connIdx g hcr hpending
      have hkept : ∀ b ∈ (gdProvBleRxByte env connIdx g ch).json.pending, isTerm b = false := by
        rw [hfirst.pending]
        have hone := frame_kept_no_term (gdProvJsonBufferLen - 1) hpending [ch]
        simpa [frame_cons] using hone
      have hlater := ih (gdProvBleRxByte env connIdx g ch) hkept
      rw [hfirst.pending] at hlater
      have hstrip : stripCr (ch :: data) = ch :: stripCr data := by simp [stripCr, hcr]
      rw [lineFrame, hstrip, frame_cons]
      exact hfirst.trans hlater

/-! ## Chunk boundaries -/

theorem gdProvNotify_rxCount (connIdx : UInt8) (text : String) (g : Globals) (n : Nat) :
    gdProvNotify env connIdx text { g with bleRxCount := n } =
      { gdProvNotify env connIdx text g with bleRxCount := n } := by
  by_cases hconn : g.bleConnected = 0
  · simp [gdProvNotify, Globals.emit, hconn]
  · by_cases hret : env.datatransSend (g.trace ++ [.notify connIdx text]) connIdx text = 0 <;>
      simp [gdProvNotify, Globals.emit, hconn, hret]

theorem gdProvSubmitJson_rxCount (json : Vector UInt8 gdProvJsonBufferLen) (connIdx : UInt8)
    (g : Globals) (n : Nat) :
    gdProvSubmitJson env json connIdx { g with bleRxCount := n } =
      { gdProvSubmitJson env json connIdx g with bleRxCount := n } := by
  cases hcheck : gdProvCheckJson env (cString json.toList) with
  | error status =>
    simp only [gdProvSubmitJson, hcheck]
    exact gdProvNotify_rxCount env connIdx (statusText status)
      { g.emit (.submitJson json connIdx) with jsonErrorCount := g.jsonErrorCount + 1 } n
  | ok pair =>
    simp only [gdProvSubmitJson, hcheck]
    have hnotify := gdProvNotify_rxCount env connIdx (statusText "accepted")
      (gdProvAcceptStore pair.1 pair.2 (g.emit (.submitJson json connIdx))) n
    exact congrArg (Globals.emit · .semRelease) hnotify

theorem gdProvBleRxByte_rxCount (connIdx : UInt8) (g : Globals) (ch : UInt8) (n : Nat) :
    gdProvBleRxByte env connIdx { g with bleRxCount := n } ch =
      { gdProvBleRxByte env connIdx g ch with bleRxCount := n } := by
  cases hcr : isCr ch with
  | true =>
    rw [gdProvBleRxByte_cr env connIdx { g with bleRxCount := n } hcr,
      gdProvBleRxByte_cr env connIdx g hcr]
  | false =>
    cases hterm : isTerm ch with
    | true =>
      by_cases hzero : g.json.len.val = 0
      · rw [gdProvBleRxByte_emptyLine env connIdx { g with bleRxCount := n } hcr hterm hzero,
          gdProvBleRxByte_emptyLine env connIdx g hcr hterm hzero]
      · have hpos : 0 < g.json.len.val := Nat.pos_of_ne_zero hzero
        have hsubmit := gdProvSubmitJson_rxCount env g.json.terminate.buf connIdx
          { g with json := g.json.terminate } n
        rw [gdProvBleRxByte_submit env connIdx { g with bleRxCount := n } hcr hterm hpos,
          gdProvBleRxByte_submit env connIdx g hcr hterm hpos]
        exact congrArg (fun g' : Globals => { g' with json := g'.json.clear }) hsubmit
    | false =>
      by_cases hroom : g.json.len.val < gdProvJsonBufferLen - 1
      · rw [gdProvBleRxByte_room env connIdx { g with bleRxCount := n } hcr hterm hroom,
          gdProvBleRxByte_room env connIdx g hcr hterm hroom]
      · rw [gdProvBleRxByte_overflow env connIdx { g with bleRxCount := n } hcr hterm hroom,
          gdProvBleRxByte_overflow env connIdx g hcr hterm hroom]
        exact gdProvNotify_rxCount env connIdx (statusText "too_long")
          { g with json := g.json.clear, jsonErrorCount := g.jsonErrorCount + 1 } n

theorem gdProvBleRxLoop_rxCount (connIdx : UInt8) (data : List UInt8) (g : Globals) (n : Nat) :
    gdProvBleRxLoop env connIdx data { g with bleRxCount := n } =
      { gdProvBleRxLoop env connIdx data g with bleRxCount := n } := by
  induction data generalizing g with
  | nil => rfl
  | cons ch data ih =>
    change gdProvBleRxLoop env connIdx data
      (gdProvBleRxByte env connIdx { g with bleRxCount := n } ch) = _
    rw [gdProvBleRxByte_rxCount, ih]
    rfl

/-- How the stream is cut into `gd_prov_ble_rx` calls shows in the call counter
only. -/
theorem gdProvBleRxCalls_eq (connIdx : UInt8) (chunks : List (List UInt8)) (g : Globals) :
    gdProvBleRxCalls env connIdx chunks g =
      { gdProvBleRxLoop env connIdx chunks.flatten g with
        bleRxCount := g.bleRxCount + chunks.length } := by
  induction chunks generalizing g with
  | nil => rfl
  | cons data chunks ih =>
    change gdProvBleRxCalls env connIdx chunks (gdProvBleRx env connIdx data g) = _
    have hfirst : gdProvBleRx env connIdx data g =
        { gdProvBleRxLoop env connIdx data g with bleRxCount := g.bleRxCount + 1 } :=
      gdProvBleRxLoop_rxCount env connIdx data g (g.bleRxCount + 1)
    rw [ih, hfirst, gdProvBleRxLoop_rxCount]
    have hcount : g.bleRxCount + 1 + chunks.length =
        g.bleRxCount + (data :: chunks).length := by
      rw [List.length_cons]
      omega
    simp only [List.flatten_cons, gdProvBleRxLoop, List.foldl_append, hcount]

end Gd32Vw553h.Provision
