/-
  Provision/Model.lean --- `applications/ble_wifi_provision.c`: the globals and
  the callbacks that run on the BLE side.

  The module state is one record, every callback is a function on it, and the
  calls that leave the module are recorded in `trace` in program order.  What the
  external packages answer (`cJSON_Parse`, `gd32vw55x_ble_datatrans_send`) is the
  environment `Env`; a send may answer differently each time, so it is given the
  calls made so far.
-/
import Gd32Vw553h.Klibc.KString

set_option autoImplicit false

namespace Gd32Vw553h.Provision

open Gd32Vw553h.Foundation Gd32Vw553h.Klibc

/-! ## Constants -/

/-- `GD_PROV_MAX_SSID_LEN` -/
abbrev gdProvMaxSsidLen : Nat := 32
/-- `GD_PROV_MAX_PASSWORD_LEN` -/
abbrev gdProvMaxPasswordLen : Nat := 64
/-- `GD_PROV_JSON_BUFFER_LEN` -/
abbrev gdProvJsonBufferLen : Nat := 256

/-- The bytes of an ASCII literal. -/
def ascii (s : String) : List UInt8 := s.toList.map fun c => UInt8.ofNat c.toNat

/-- `GD_PROV_DEFAULT_SSID` -/
def gdProvDefaultSsid : List UInt8 := ascii "123"
/-- `GD_PROV_DEFAULT_PASSWORD` -/
def gdProvDefaultPassword : List UInt8 := ascii "liuyucai"

/-- The status document `{"status":"..."}` and its newline. -/
def statusText (status : String) : String := "\x7b\"status\":\"" ++ status ++ "\"\x7d\n"

/-! ## Data -/

/-- A `cJSON` node as far as this module looks at it. -/
inductive CJson where
  /-- a string item with its `valuestring` -/
  | string (valuestring : Option (List UInt8))
  /-- an object with its named children in order -/
  | object (members : List (List UInt8 × CJson))
  /-- any other node: null, boolean, number, array -/
  | other

/-- The calls that leave the module. -/
inductive Effect where
  /-- `gd_prov_submit_json(json, conn_idx)` is entered; `json` is the whole buffer. -/
  | submitJson (json : Vector UInt8 gdProvJsonBufferLen) (connIdx : UInt8)
  /-- `gd_prov_notify(conn_idx, text)` is called. -/
  | notify (connIdx : UInt8) (text : String)
  /-- `gd32vw55x_ble_datatrans_send(conn_idx, text, len)` is called. -/
  | datatransSend (connIdx : UInt8) (text : String) (len : UInt16)
  /-- `rt_sem_release(gd_prov_sem)` is called. -/
  | semRelease
  deriving DecidableEq

/-- The packages outside the repository. -/
structure Env where
  /-- `cJSON_Parse` on a C string. -/
  cJSONParse : List UInt8 → Option CJson
  /-- The return value of `gd32vw55x_ble_datatrans_send` after the given calls. -/
  datatransSend : List Effect → UInt8 → String → Int

/-- `gd_prov_json_buf` with `gd_prov_json_len`.  The length is an index of the
buffer, so both stores of the receive loop are in bounds. -/
structure JsonBuffer where
  buf : Vector UInt8 gdProvJsonBufferLen
  len : Fin gdProvJsonBufferLen
  deriving DecidableEq

/-- `gd_prov_ssid` and `gd_prov_password`. -/
structure Credentials where
  ssid : Vector UInt8 (gdProvMaxSsidLen + 1)
  password : Vector UInt8 (gdProvMaxPasswordLen + 1)
  deriving DecidableEq

/-- The globals of the module that the callbacks and the worker share. -/
structure Globals where
  bleConnected : Int
  bleConnIdx : Int
  bleRxCount : Nat
  bleTxCount : Nat
  wifiConnectCount : Nat
  wifiLastStatus : Int
  jsonOkCount : Nat
  jsonErrorCount : Nat
  creds : Credentials
  json : JsonBuffer
  trace : List Effect
  deriving DecidableEq

/-- The globals as the C runtime initialises them. -/
def Globals.initial : Globals where
  bleConnected := 0
  bleConnIdx := -1
  bleRxCount := 0
  bleTxCount := 0
  wifiConnectCount := 0
  wifiLastStatus := 0
  jsonOkCount := 0
  jsonErrorCount := 0
  creds := ⟨Vector.replicate _ 0, Vector.replicate _ 0⟩
  json := ⟨Vector.replicate _ 0, 0⟩
  trace := []

/-- Record a call. -/
def Globals.emit (g : Globals) (e : Effect) : Globals := { g with trace := g.trace ++ [e] }

/-! ## The JSON line buffer -/

namespace JsonBuffer

/-- The bytes received of the current line. -/
def pending (b : JsonBuffer) : List UInt8 := b.buf.toList.take b.len

/-- `gd_prov_json_buf[gd_prov_json_len++] = ch`, with room for a terminator. -/
def push (b : JsonBuffer) (ch : UInt8) (room : b.len.val < gdProvJsonBufferLen - 1) :
    JsonBuffer where
  buf := b.buf.set b.len ch
  len := ⟨b.len.val + 1, by omega⟩

/-- `gd_prov_json_buf[gd_prov_json_len] = '\0'` -/
def terminate (b : JsonBuffer) : JsonBuffer := { b with buf := b.buf.set b.len 0 }

/-- `gd_prov_json_len = 0` -/
def clear (b : JsonBuffer) : JsonBuffer := { b with len := 0 }

@[simp] theorem pending_clear (b : JsonBuffer) : b.clear.pending = [] := by
  simp [pending, clear]

@[simp] theorem pending_length (b : JsonBuffer) : b.pending.length = b.len.val := by
  simp [pending]

theorem pending_push (b : JsonBuffer) (ch : UInt8)
    (room : b.len.val < gdProvJsonBufferLen - 1) :
    (b.push ch room).pending = b.pending ++ [ch] := by
  have hlen : b.len.val < b.buf.toList.length := by simp
  simp only [pending, push, Vector.toList_set]
  rw [List.take_succ_eq_append_getElem (by simp), List.take_set_of_le (Nat.le_refl _)]
  simp

/-- The terminated buffer is the received bytes, a NUL and stale bytes. -/
theorem terminate_toList (b : JsonBuffer) :
    ∃ stale, b.terminate.buf.toList = b.pending ++ 0 :: stale := by
  have hlen : b.len.val < b.buf.toList.length := by simp
  refine ⟨b.buf.toList.drop (b.len + 1), ?_⟩
  simp only [terminate, pending, Vector.toList_set]
  rw [List.set_eq_take_append_cons_drop, if_pos hlen]

theorem cString_terminate (b : JsonBuffer) (h : NulFree b.pending) :
    cString b.terminate.buf.toList = b.pending := by
  obtain ⟨stale, hstale⟩ := b.terminate_toList
  rw [hstale, cString_append_nul h]

theorem nul_mem_terminate (b : JsonBuffer) : 0 ∈ b.terminate.buf.toList := by
  obtain ⟨stale, hstale⟩ := b.terminate_toList
  simp [hstale]

end JsonBuffer

/-! ## The cJSON queries -/

/-- `cJSON_GetObjectItemCaseSensitive` -/
def cJSONGetObjectItemCaseSensitive : CJson → List UInt8 → Option CJson
  | .object members, name => (members.find? fun m => cString m.1 == name).map (·.2)
  | _, _ => none

/-- `cJSON_IsString`, false for a missing item. -/
def cJSONIsString : Option CJson → Bool
  | some (.string _) => true
  | _ => false

/-- `item->valuestring` of a string item. -/
def valuestring : Option CJson → Option (List UInt8)
  | some (.string v) => v
  | _ => none

/-- The password item of `gd_prov_submit_json`: `"pwd"`, or `"password"` when the
former is no string. -/
def gdProvPasswordItem (root : CJson) : Option CJson :=
  let passwordItem := cJSONGetObjectItemCaseSensitive root (ascii "pwd")
  if !cJSONIsString passwordItem then
    cJSONGetObjectItemCaseSensitive root (ascii "password")
  else passwordItem

/-! ## The functions -/

section Functions

variable (env : Env)

/-- `gd_prov_notify` -/
def gdProvNotify (connIdx : UInt8) (text : String) (g : Globals) : Globals :=
  let g := g.emit (.notify connIdx text)
  if g.bleConnected = 0 then g
  else
    let ret := env.datatransSend g.trace connIdx text
    let g := g.emit (.datatransSend connIdx text (UInt16.ofNat text.utf8ByteSize))
    if ret = 0 then { g with bleTxCount := g.bleTxCount + 1 } else g

/-- `gd_prov_store_credentials`: one section with interrupts disabled. -/
def gdProvStoreCredentials (ssid password : List UInt8) (g : Globals) : Globals :=
  { g with creds :=
    { ssid := (rtStrncpyArray (gdProvMaxSsidLen + 1) ssid).set gdProvMaxSsidLen 0
      password := (rtStrncpyArray (gdProvMaxPasswordLen + 1) password).set gdProvMaxPasswordLen 0 } }

/-- The checks of `gd_prov_submit_json`: the two C strings of a line it accepts,
or the status it answers. -/
def gdProvCheckJson (json : List UInt8) : Except String (List UInt8 × List UInt8) :=
  match env.cJSONParse json with
  | none => .error "bad_json"
  | some root =>
      let ssidItem := cJSONGetObjectItemCaseSensitive root (ascii "ssid")
      let passwordItem := gdProvPasswordItem root
      if !cJSONIsString ssidItem || !cJSONIsString passwordItem then
        .error "missing_ssid_or_pwd"
      else
        match valuestring ssidItem, valuestring passwordItem with
        | some ssid, some password =>
            if rtStrlen ssid = 0 ∨ rtStrlen ssid > gdProvMaxSsidLen ∨
                rtStrlen password > gdProvMaxPasswordLen then
              .error "invalid_length"
            else .ok (cString ssid, cString password)
        | _, _ => .error "missing_ssid_or_pwd"

/-- An accepted line up to the counter: the slot is overwritten. -/
def gdProvAcceptStore (ssid password : List UInt8) (g : Globals) : Globals :=
  let g := gdProvStoreCredentials ssid password g
  { g with jsonOkCount := g.jsonOkCount + 1 }

/-- `gd_prov_submit_json` -/
def gdProvSubmitJson (json : Vector UInt8 gdProvJsonBufferLen) (connIdx : UInt8)
    (g : Globals) : Globals :=
  let g := g.emit (.submitJson json connIdx)
  match gdProvCheckJson env (cString json.toList) with
  | .error status =>
      gdProvNotify env connIdx (statusText status)
        { g with jsonErrorCount := g.jsonErrorCount + 1 }
  | .ok (ssid, password) =>
      let g := gdProvAcceptStore ssid password g
      let g := gdProvNotify env connIdx (statusText "accepted") g
      g.emit .semRelease

/-- `'\r'` is dropped wherever it stands. -/
def isCr (ch : UInt8) : Bool := ch == 13

/-- `'\n'` and `'\0'` end a line. -/
def isTerm (ch : UInt8) : Bool := ch == 10 || ch == 0

/-- The body of the loop of `gd_prov_ble_rx`.  `submit_now` is false on entry to
every iteration, so it is local to the terminator branch. -/
def gdProvBleRxByte (connIdx : UInt8) (g : Globals) (ch : UInt8) : Globals :=
  if isCr ch then g
  else if isTerm ch then
    let submitNow := decide (g.json.len.val > 0)
    if submitNow then
      let json := g.json.terminate
      let g := gdProvSubmitJson env json.buf connIdx { g with json := json }
      { g with json := g.json.clear }
    else g
  else if room : g.json.len.val < gdProvJsonBufferLen - 1 then
    { g with json := g.json.push ch room }
  else
    gdProvNotify env connIdx (statusText "too_long")
      { g with json := g.json.clear, jsonErrorCount := g.jsonErrorCount + 1 }

/-- The loop of `gd_prov_ble_rx`. -/
def gdProvBleRxLoop (connIdx : UInt8) (data : List UInt8) (g : Globals) : Globals :=
  data.foldl (gdProvBleRxByte env connIdx) g

/-- `gd_prov_ble_rx`; `data_len` is the length of `data`. -/
def gdProvBleRx (connIdx : UInt8) (data : List UInt8) (g : Globals) : Globals :=
  gdProvBleRxLoop env connIdx data { g with bleRxCount := g.bleRxCount + 1 }

/-- `gd_prov_ble_conn_evt` -/
def gdProvBleConnEvt (connIdx : UInt8) (connected : Bool) (g : Globals) : Globals :=
  if connected then { g with bleConnected := 1, bleConnIdx := connIdx.toNat }
  else { g with bleConnected := 0, bleConnIdx := -1, json := g.json.clear }

/-- Consecutive `gd_prov_ble_rx` calls on one connection. -/
def gdProvBleRxCalls (connIdx : UInt8) (chunks : List (List UInt8)) (g : Globals) : Globals :=
  chunks.foldl (fun g data => gdProvBleRx env connIdx data g) g

end Functions

end Gd32Vw553h.Provision
