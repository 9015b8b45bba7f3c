/-
  Wlan/Connect.lean --- `rt_wlan_connect_adv` and the device calls below it
  (`components/drivers/wlan/dev_wlan_mgnt.c`, `dev_wlan.c`).

  Both layers check the lengths of the SSID and the password and copy them into
  fixed arrays.  `rtWlanConnectAdv_tooLong` says what a password beyond the limit
  meets, `rtWlanConnectAdv_joins` what the driver is handed otherwise.  The answers
  of the driver and of the disconnect are the environment `WlanEnv`; this board's
  driver has no fast-connect operations.
-/
import Gd32Vw553h.Klibc.KErrno
import Gd32Vw553h.Klibc.KString

set_option autoImplicit false

namespace Gd32Vw553h.Wlan

open Gd32Vw553h.Foundation Gd32Vw553h.Klibc

/-! ## Constants -/

/-- `RT_WLAN_SSID_MAX_LENGTH` -/
abbrev rtWlanSsidMaxLength : Nat := 32
/-- `RT_WLAN_PASSWORD_MAX_LENGTH` -/
abbrev rtWlanPasswordMaxLength : Nat := 32
/-- `RT_WLAN_BSSID_MAX_LENGTH` -/
abbrev rtWlanBssidMaxLength : Nat := 6

/-- `SECURITY_UNKNOWN` -/
abbrev securityUnknown : UInt32 := 0xffffffff

/-! ## Data -/

/-- `struct rt_wlan_ssid` -/
structure RtWlanSsid where
  len : UInt8
  val : Vector UInt8 (rtWlanSsidMaxLength + 1)
  deriving DecidableEq

/-- `struct rt_wlan_key` -/
structure RtWlanKey where
  len : UInt8
  val : Vector UInt8 (rtWlanPasswordMaxLength + 1)
  deriving DecidableEq

/-- `struct rt_wlan_info` -/
structure RtWlanInfo where
  security : UInt32
  band : UInt32
  datarate : UInt32
  channel : Int16
  rssi : Int16
  ssid : RtWlanSsid
  bssid : Vector UInt8 rtWlanBssidMaxLength
  hidden : UInt8
  deriving DecidableEq

/-- `struct rt_sta_info` -/
structure RtStaInfo where
  ssid : RtWlanSsid
  key : RtWlanKey
  bssid : Vector UInt8 rtWlanBssidMaxLength
  channel : UInt16
  security : UInt32
  deriving DecidableEq

def RtWlanSsid.zero : RtWlanSsid := ⟨0, Vector.replicate _ 0⟩

def RtWlanKey.zero : RtWlanKey := ⟨0, Vector.replicate _ 0⟩

/-- `rt_memset(&info, 0, sizeof(info))` -/
def RtWlanInfo.zero : RtWlanInfo := ⟨0, 0, 0, 0, 0, .zero, Vector.replicate _ 0, 0⟩

def RtStaInfo.zero : RtStaInfo := ⟨.zero, .zero, Vector.replicate _ 0, 0, 0⟩

/-- The length checks on the way to the driver. -/
inductive LengthCheck where
  | connectAdvPassword
  | connectAdvSsid
  | devFastConnect
  | devConnect
  deriving DecidableEq

/-- What a failed check logs, up to the values it prints. -/
def LengthCheck.text : LengthCheck → String
  | connectAdvPassword => "password is to long!"
  | connectAdvSsid => "ssid is zero or to long!"
  | devFastConnect => "password or ssid is too long"
  | devConnect => "password or ssid is too long"

/-- The calls that leave the two layers. -/
inductive WlanCall where
  /-- a length check has failed -/
  | rejected (check : LengthCheck)
  /-- `RT_WLAN_CMD_JOIN` -/
  | join (staInfo : RtStaInfo)
  /-- `rt_wlan_disconnect()` -/
  | disconnect
  deriving DecidableEq

/-- The answers from outside: `rt_wlan_disconnect` and the join operation. -/
structure WlanEnv where
  disconnect : Int
  join : RtStaInfo → Int

/-- `_sta_mgnt` and the calls made. -/
structure StaMgnt where
  /-- `_sta_mgnt.device` is set -/
  device : Bool
  info : RtWlanInfo
  key : RtWlanKey
  /-- `RT_WLAN_STATE_CONNECT` -/
  connected : Bool
  /-- `RT_WLAN_STATE_CONNECTING` -/
  connecting : Bool
  trace : List WlanCall
  deriving DecidableEq

def StaMgnt.emit (m : StaMgnt) (call : WlanCall) : StaMgnt :=
  { m with trace := m.trace ++ [call] }

theorem overwrite_size {n : Nat} (dst : Vector UInt8 n) (src : List UInt8) :
    (src.take n ++ dst.toList.drop (src.take n).length).toArray.size = n := by
  have hle := List.length_take_le n src
  rw [List.size_toArray, List.length_append, List.length_drop, Vector.length_toList]
  omega

/-- `rt_memcpy(dst, src, len)` into an array of `n` bytes. -/
def rtMemcpy {n : Nat} (dst : Vector UInt8 n) (src : List UInt8) : Vector UInt8 n :=
  ⟨(src.take n ++ dst.toList.drop (src.take n).length).toArray, overwrite_size dst src⟩

theorem rtMemcpy_toList {n : Nat} (dst : Vector UInt8 n) {src : List UInt8}
    (h : src.length ≤ n) : (rtMemcpy dst src).toList = src ++ dst.toList.drop src.length := by
  simp [rtMemcpy, List.take_of_length_le h]

/-- Copying into a zeroed array pads the string. -/
theorem rtMemcpy_zero_toList {n : Nat} {src : List UInt8} (h : src.length ≤ n) :
    (rtMemcpy (Vector.replicate n 0) src).toList = zeroPad n src := by
  rw [rtMemcpy_toList _ h, zeroPad, List.take_of_length_le h]
  simp

/-! ## The device layer -/

section Device

variable (w : WlanEnv) (info : RtWlanInfo) (password : List UInt8) (m : StaMgnt)

/-- The check that both device calls make first. -/
def devLengthsFit : Prop :=
  ¬ (password.length > rtWlanPasswordMaxLength ∨ info.ssid.len.toNat > rtWlanSsidMaxLength)

instance : Decidable (devLengthsFit info password) := inferInstanceAs (Decidable (¬ _))

/-- The `sta_info` of `rt_wlan_dev_connect`. -/
def staInfo : RtStaInfo where
  ssid := info.ssid
  bssid := info.bssid
  key := { len := UInt8.ofNat password.length, val := rtMemcpy RtWlanKey.zero.val password }
  channel := info.channel.toUInt16
  security := info.security

/-- `rt_wlan_dev_connect`; `password` are the `password_len` bytes at the pointer. -/
def rtWlanDevConnect : Int × StaMgnt :=
  if !m.device then (-rtEIo, m)
  else if ¬ devLengthsFit info password then (-rtError, m.emit (.rejected .devConnect))
  else (w.join (staInfo info password), m.emit (.join (staInfo info password)))

/-- `rt_wlan_dev_fast_connect`: the driver has no `wlan_get_fast_info`, so
`RT_WLAN_CMD_GET_FAST_CONNECT_INFO` answers `-RT_EEMPTY`. -/
def rtWlanDevFastConnect : Int × StaMgnt :=
  if !m.device then (-rtEIo, m)
  else if ¬ devLengthsFit info password then (-rtError, m.emit (.rejected .devFastConnect))
  else (-rtEEmpty, m)

end Device

/-! ## The management layer -/

section Management

variable (w : WlanEnv)

/-- The station is connected with these credentials already. -/
def alreadyConnected (info : RtWlanInfo) (password : List UInt8) (m : StaMgnt) : Bool :=
  m.info.ssid.len == info.ssid.len &&
    m.key.len.toNat == password.length &&
    m.info.ssid.val.toList.take info.ssid.len.toNat ==
      info.ssid.val.toList.take info.ssid.len.toNat &&
    m.info.bssid == info.bssid &&
    m.key.val.toList.take password.length == password

/-- `_sta_mgnt.info` and `_sta_mgnt.key` are overwritten and the join is tried. -/
def saveAndJoin (info : RtWlanInfo) (password : List UInt8) (m : StaMgnt) : Int × StaMgnt :=
  let m := { m with
    info := info
    key := { len := UInt8.ofNat password.length,
             val := (rtMemcpy m.key.val password).setIfInBounds password.length 0 }
    connecting := true }
  let fast := rtWlanDevFastConnect info password m
  if fast.1 = 0 then fast
  else
    let slow := rtWlanDevConnect w info password fast.2
    if slow.1 = 0 then slow
    else
      -- the memset runs over the first 34 bytes of `info`: up to the SSID's 17th byte
      let m := slow.2
      (slow.1, { m with
        info := { m.info with
          security := 0, band := 0, datarate := 0, channel := 0, rssi := 0
          ssid := { len := 0, val := rtMemcpy m.info.ssid.val (List.replicate 17 0) } }
        key := .zero
        connecting := false })

/-- `rt_wlan_connect_adv(info, password)`, both pointers set; `password` is a C
string. -/
def rtWlanConnectAdv (info : RtWlanInfo) (password : List UInt8) (m : StaMgnt) : Int × StaMgnt :=
  if !m.device then (-rtEIo, m)
  else
    let passwordLen := rtStrlen password
    if passwordLen > rtWlanPasswordMaxLength then
      (-rtEInval, m.emit (.rejected .connectAdvPassword))
    else if info.ssid.len = 0 ∨ info.ssid.len.toNat > rtWlanSsidMaxLength then
      (-rtEInval, m.emit (.rejected .connectAdvSsid))
    else
      let passwordBytes := password.take passwordLen
      if m.connected then
        if alreadyConnected info passwordBytes m then (0, m)
        else
          let m := m.emit .disconnect
          if w.disconnect ≠ 0 then (w.disconnect, m)
          else saveAndJoin w info passwordBytes { m with connected := false }
      else saveAndJoin w info passwordBytes m

end Management

/-! ## What the driver is handed -/

section Joins

variable (w : WlanEnv) {info : RtWlanInfo} {password : List UInt8} {m : StaMgnt}

theorem rtWlanDevFastConnect_empty (hdevice : m.device = true)
    (hfit : devLengthsFit info password) :
    rtWlanDevFastConnect info password m = (-rtEEmpty, m) := by
  simp [rtWlanDevFastConnect, hdevice, hfit]

theorem rtWlanDevConnect_joins (hdevice : m.device = true)
    (hfit : devLengthsFit info password) :
    rtWlanDevConnect w info password m =
      (w.join (staInfo info password), m.emit (.join (staInfo info password))) := by
  simp [rtWlanDevConnect, hdevice, hfit]

/-- With lengths that fit, the one call made is the join. -/
theorem saveAndJoin_trace (hdevice : m.device = true) (hfit : devLengthsFit info password) :
    (saveAndJoin w info password m).2.trace = m.trace ++ [.join (staInfo info password)] := by
  let saved : StaMgnt := { m with
    info := info
    key := { len := UInt8.ofNat password.length,
             val := (rtMemcpy m.key.val password).setIfInBounds password.length 0 }
    connecting := true }
  have hsaved : saved.device = true := hdevice
  have hfast := rtWlanDevFastConnect_empty hsaved hfit
  have hslow := rtWlanDevConnect_joins w hsaved hfit
  have hempty : ¬ (-rtEEmpty = 0) := by decide
  unfold saveAndJoin
  simp only [saved] at hfast hslow
  simp only [hfast, hslow, hempty, if_false]
  split <;> rfl

theorem take_rtStrlen (s : List UInt8) : s.take (rtStrlen s) = cString s := by
  rw [rtStrlen_eq]
  exact (List.prefix_iff_eq_take.mp (List.takeWhile_prefix _)).symm

/-- A password beyond the limit is rejected before anything else happens. -/
theorem rtWlanConnectAdv_tooLong (info : RtWlanInfo) (hdevice : m.device = true)
    (hlong : rtWlanPasswordMaxLength < (cString password).length) :
    rtWlanConnectAdv w info password m =
      (-rtEInval, m.emit (.rejected .connectAdvPassword)) := by
  have hlen : rtStrlen password > rtWlanPasswordMaxLength := by
    rw [rtStrlen_eq]
    exact hlong
  simp [rtWlanConnectAdv, hdevice, hlen]

/-- A pair within the limits passes every check: the driver is at most asked to
disconnect and to join with exactly this pair, and an unconnected station joins. -/
theorem rtWlanConnectAdv_joins (hdevice : m.device = true)
    (hpassword : (cString password).length ≤ rtWlanPasswordMaxLength)
    (hpos : info.ssid.len ≠ 0) (hssid : info.ssid.len.toNat ≤ rtWlanSsidMaxLength) :
    ∃ calls, (rtWlanConnectAdv w info password m).2.trace = m.trace ++ calls ∧
      (∀ call ∈ calls, call = .disconnect ∨
        call = .join (staInfo info (cString password))) ∧
      (m.connected = false → calls = [.join (staInfo info (cString password))]) := by
  have hlen : ¬ (rtStrlen password > rtWlanPasswordMaxLength) := by
    rw [rtStrlen_eq]
    omega
  have hssid' : ¬ (info.ssid.len = 0 ∨ info.ssid.len.toNat > rtWlanSsidMaxLength) := by
    rintro (h | h)
    · exact hpos h
    · omega
  have hfit : devLengthsFit info (cString password) := by
    rintro (h | h) <;> omega
  unfold rtWlanConnectAdv
  simp only [hdevice, Bool.not_true, Bool.false_eq_true, if_false, hlen, hssid', take_rtStrlen]
  cases hconn : m.connected with
  | false =>
    refine ⟨[.join (staInfo info (cString password))], ?_, by simp, fun _ => rfl⟩
    simpa using saveAndJoin_trace w hdevice hfit
  | true =>
    simp only [if_true]
    split
    · exact ⟨[], by simp, by simp, fun h => absurd h (by simp)⟩
    · split
      · exact ⟨[.disconnect], rfl, by simp, fun h => absurd h (by simp)⟩
      · refine ⟨[.disconnect, .join (staInfo info (cString password))], ?_, by simp,
          fun h => absurd h (by simp)⟩
        let left : StaMgnt := { m.emit .disconnect with connected := false }
        have hleft : left.device = true := hdevice
        exact (saveAndJoin_trace w hleft hfit).trans (by simp [left, StaMgnt.emit])

end Joins

end Gd32Vw553h.Wlan
