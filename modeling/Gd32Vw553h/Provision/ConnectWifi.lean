/-
  Provision/ConnectWifi.lean --- `gd_prov_connect_wifi` on an accepted pair.

  The application accepts passwords up to 64 bytes, the WLAN framework of this
  configuration up to 32.  `joinsExactly_iff` follows an accepted pair from the
  credential slot to the driver: it arrives byte for byte exactly when its password
  is within the framework's limit.
-/
import Gd32Vw553h.Provision.HandOff
import Gd32Vw553h.Wlan.Connect

set_option autoImplicit false

namespace Gd32Vw553h.Provision

open Gd32Vw553h.Foundation Gd32Vw553h.Klibc Gd32Vw553h.Json Gd32Vw553h.Wlan

/-! ## The function -/

/-- What `gd_prov_connect_wifi` meets: the outcome of its three waits and the WLAN
environment. -/
structure ConnectEnv where
  /-- `gd_prov_wait_wlan_ready()` -/
  waitWlanReady : Int
  wlan : WlanEnv
  /-- `rt_wlan_is_connected()` within 300 polls -/
  isConnected : Bool
  /-- `gd_prov_wait_ip_text(ip, sizeof(ip))` -/
  waitIpText : Int

/-- The return value, `gd_prov_wifi_last_status` and the station afterwards. -/
structure ConnectResult where
  ret : Int
  wifiLastStatus : Int
  sta : StaMgnt

/-- `info` of `gd_prov_connect_wifi`. -/
def connectInfo (ssid : List UInt8) : RtWlanInfo :=
  { RtWlanInfo.zero with
    ssid :=
      { len := UInt8.ofNat (rtStrlen ssid)
        val := rtStrncpyArray (rtWlanSsidMaxLength + 1) ssid }
    security := securityUnknown }

/-- `gd_prov_connect_wifi(ssid, password)` on two character arrays. -/
def gdProvConnectWifi (c : ConnectEnv) (ssid password : List UInt8) (wifiLastStatus : Int)
    (m : StaMgnt) : ConnectResult :=
  if c.waitWlanReady ≠ 0 then ⟨c.waitWlanReady, wifiLastStatus, m⟩
  else
    let adv := rtWlanConnectAdv c.wlan (connectInfo ssid) password m
    if adv.1 ≠ 0 then ⟨adv.1, adv.1, adv.2⟩
    else if !c.isConnected then ⟨-rtETimeout, -rtETimeout, adv.2⟩
    else if c.waitIpText ≠ 0 then ⟨c.waitIpText, c.waitIpText, adv.2⟩
    else ⟨0, adv.1, adv.2⟩

/-! ## The pair at the driver -/

/-- The calls of a connection attempt with this pair: no length check rejects it,
every join is handed exactly its bytes, NUL-terminated and with their lengths, and
an unconnected station joins once. -/
structure JoinsExactly (ssid password : List UInt8) (connected : Bool)
    (calls : List WlanCall) : Prop where
  notRejected : ∀ check, .rejected check ∉ calls
  joins : ∀ sta, .join sta ∈ calls →
    sta.ssid.len.toNat = ssid.length ∧
      sta.ssid.val.toList =
        ssid ++ 0 :: List.replicate (rtWlanSsidMaxLength - ssid.length) 0 ∧
      sta.key.len.toNat = password.length ∧
      sta.key.val.toList =
        password ++ 0 :: List.replicate (rtWlanPasswordMaxLength - password.length) 0
  once : connected = false → ∃ sta, calls = [.join sta]

variable {c : ConnectEnv} {ssid password : List UInt8} {lastStatus : Int} {m : StaMgnt}

/-- Whatever the waits answer, the WLAN calls are those of `rt_wlan_connect_adv`. -/
theorem gdProvConnectWifi_trace (hready : c.waitWlanReady = 0) :
    (gdProvConnectWifi c ssid password lastStatus m).sta.trace =
      (rtWlanConnectAdv c.wlan (connectInfo ssid) password m).2.trace := by
  unfold gdProvConnectWifi
  simp only [hready, ne_eq, not_true_eq_false, if_false]
  split
  · rfl
  · split
    · rfl
    · split <;> rfl

/-- The SSID of the framework's `info` is the C string in the slot. -/
theorem connectInfo_ssid {mem : List UInt8} (hmem : cString mem = ssid)
    (hlen : ssid.length ≤ rtWlanSsidMaxLength) :
    (connectInfo mem).ssid.len.toNat = ssid.length ∧
      (connectInfo mem).ssid.val.toList =
        ssid ++ 0 :: List.replicate (rtWlanSsidMaxLength - ssid.length) 0 := by
  have hbound : rtWlanSsidMaxLength = 32 := rfl
  constructor
  · simp only [connectInfo, rtStrlen_eq, hmem, UInt8.toNat_ofNat']
    omega
  · simp only [connectInfo, rtStrncpyArray_toList, hmem]
    rw [zeroPad_of_lt (by omega)]
    congr 3
    omega

/-- The key of a join is the password. -/
theorem staInfo_key (info : RtWlanInfo) (hlen : password.length ≤ rtWlanPasswordMaxLength) :
    (staInfo info password).key.len.toNat = password.length ∧
      (staInfo info password).key.val.toList =
        password ++ 0 :: List.replicate (rtWlanPasswordMaxLength - password.length) 0 := by
  have hbound : rtWlanPasswordMaxLength = 32 := rfl
  constructor
  · simp only [staInfo, UInt8.toNat_ofNat']
    omega
  · simp only [staInfo, RtWlanKey.zero]
    rw [rtMemcpy_zero_toList (by omega), zeroPad_of_lt (by omega)]
    congr 3
    omega

section Accepted

variable (env : Env) {line : List UInt8}
  (haccepted : gdProvCheckJson env line = .ok (ssid, password))
include haccepted

/-- The slot after an accepted line holds the pair's two C strings. -/
theorem accepted_pair :
    cString (storedCredentials ssid password).ssid.toList = ssid ∧
      cString (storedCredentials ssid password).password.toList = password := by
  obtain ⟨⟨hssidNul, -, hssidLen⟩, hpasswordNul, hpasswordLen⟩ :=
    gdProvCheckJson_ok env haccepted
  have hfits : Fits (ssid, password) := ⟨hssidNul, hssidLen, hpasswordNul, hpasswordLen⟩
  exact Prod.mk.inj (storedCredentials_pair hfits)

/-- An accepted password beyond the framework's limit is rejected behind the
application's back. -/
theorem connectWifi_rejects_long (hready : c.waitWlanReady = 0) (hdevice : m.device = true)
    (hlong : rtWlanPasswordMaxLength < password.length) :
    (gdProvConnectWifi c (storedCredentials ssid password).ssid.toList
        (storedCredentials ssid password).password.toList lastStatus m).sta.trace =
      m.trace ++ [.rejected .connectAdvPassword] := by
  obtain ⟨-, hpassword⟩ := accepted_pair env haccepted
  rw [gdProvConnectWifi_trace hready, rtWlanConnectAdv_tooLong c.wlan _ hdevice
    (by rw [hpassword]; exact hlong)]
  rfl

/-- An accepted pair within the framework's limit reaches the driver as it is. -/
theorem connectWifi_joins (hready : c.waitWlanReady = 0) (hdevice : m.device = true)
    (hfits : password.length ≤ rtWlanPasswordMaxLength) :
    ∃ calls, (gdProvConnectWifi c (storedCredentials ssid password).ssid.toList
        (storedCredentials ssid password).password.toList lastStatus m).sta.trace =
          m.trace ++ calls ∧
      JoinsExactly ssid password m.connected calls := by
  obtain ⟨⟨-, hssidPos, hssidLen⟩, -, -⟩ := gdProvCheckJson_ok env haccepted
  obtain ⟨hssidMem, hpasswordMem⟩ := accepted_pair env haccepted
  obtain ⟨hlenEq, hvalEq⟩ := connectInfo_ssid hssidMem hssidLen
  have hpos : (connectInfo (storedCredentials ssid password).ssid.toList).ssid.len ≠ 0 := by
    intro hzero
    rw [hzero] at hlenEq
    have : (0 : UInt8).toNat = 0 := rfl
    omega
  obtain ⟨calls, htrace, honly, honce⟩ := rtWlanConnectAdv_joins c.wlan hdevice
    (by rw [hpasswordMem]; exact hfits) hpos (by rw [hlenEq]; exact hssidLen)
  rw [hpasswordMem] at honly honce
  refine ⟨calls, (gdProvConnectWifi_trace hready).trans htrace, ?_, ?_,
    fun hconn => ⟨_, honce hconn⟩⟩
  · intro check hmem
    rcases honly _ hmem with h | h <;> exact WlanCall.noConfusion h
  · intro sta hmem
    rcases honly _ hmem with h | h
    · exact WlanCall.noConfusion h
    · obtain rfl := WlanCall.join.inj h
      exact ⟨hlenEq, hvalEq, staInfo_key _ hfits⟩

/-- A rejected attempt is no exact join. -/
theorem not_joinsExactly_of_long (hready : c.waitWlanReady = 0) (hdevice : m.device = true)
    (hlong : rtWlanPasswordMaxLength < password.length) :
    ¬ ∃ calls, (gdProvConnectWifi c (storedCredentials ssid password).ssid.toList
        (storedCredentials ssid password).password.toList lastStatus m).sta.trace =
          m.trace ++ calls ∧
      JoinsExactly ssid password m.connected calls := by
  rintro ⟨calls, htrace, hexact⟩
  rw [connectWifi_rejects_long env haccepted hready hdevice hlong] at htrace
  have hcalls : [.rejected .connectAdvPassword] = calls := List.append_cancel_left htrace
  refine hexact.notRejected .connectAdvPassword ?_
  rw [← hcalls]
  exact List.mem_singleton_self _

/-- An accepted pair reaches the driver byte for byte, past all length checks,
exactly when its password is not longer than the framework's limit. -/
theorem joinsExactly_iff (c : ConnectEnv) (hready : c.waitWlanReady = 0) (lastStatus : Int)
    (m : StaMgnt) (hdevice : m.device = true) :
    (∃ calls, (gdProvConnectWifi c (storedCredentials ssid password).ssid.toList
        (storedCredentials ssid password).password.toList lastStatus m).sta.trace =
          m.trace ++ calls ∧
      JoinsExactly ssid password m.connected calls) ↔
      password.length ≤ rtWlanPasswordMaxLength := by
  refine ⟨fun h => ?_, connectWifi_joins env haccepted hready hdevice⟩
  by_contra hlong
  exact not_joinsExactly_of_long env haccepted hready hdevice (Nat.lt_of_not_le hlong) h

end Accepted

/-- An idle station on a board whose waits and joins succeed. -/
def readyEnv : ConnectEnv := ⟨0, ⟨0, fun _ => 0⟩, true, 0⟩

def idleStation : StaMgnt := ⟨true, .zero, .zero, false, false, []⟩

theorem joinsExactly_sample :
    ∃ calls, (gdProvConnectWifi readyEnv
        (storedCredentials samplePair.1 samplePair.2).ssid.toList
        (storedCredentials samplePair.1 samplePair.2).password.toList 0 idleStation).sta.trace =
          idleStation.trace ++ calls ∧
      JoinsExactly samplePair.1 samplePair.2 idleStation.connected calls :=
  (joinsExactly_iff objectEnv gdProvCheckJson_sample readyEnv rfl 0 idleStation rfl).mpr
    (by decide)

/-- A password of 33 bytes. -/
def longPassword : List Char := List.replicate 33 'p'

/-- It is accepted, and no join is tried with it. -/
theorem not_joinsExactly_33 :
    gdProvCheckJson objectEnv (cString (pageLine ['n', 'e', 't'] longPassword).toList) =
        .ok (utf8 ['n', 'e', 't'], utf8 longPassword) ∧
      (gdProvConnectWifi readyEnv
        (storedCredentials (utf8 ['n', 'e', 't']) (utf8 longPassword)).ssid.toList
        (storedCredentials (utf8 ['n', 'e', 't']) (utf8 longPassword)).password.toList 0
        idleStation).sta.trace = idleStation.trace ++ [.rejected .connectAdvPassword] ∧
      ¬ ∃ calls, (gdProvConnectWifi readyEnv
          (storedCredentials (utf8 ['n', 'e', 't']) (utf8 longPassword)).ssid.toList
          (storedCredentials (utf8 ['n', 'e', 't']) (utf8 longPassword)).password.toList 0
          idleStation).sta.trace = idleStation.trace ++ calls ∧
        JoinsExactly (utf8 ['n', 'e', 't']) (utf8 longPassword) idleStation.connected calls := by
  have haccepted : gdProvCheckJson objectEnv
      (cString (pageLine ['n', 'e', 't'] longPassword).toList) =
        .ok (utf8 ['n', 'e', 't'], utf8 longPassword) :=
    gdProvCheckJson_pageLine (by decide) (by decide) (by decide) (by decide) (by decide)
  have hlong : rtWlanPasswordMaxLength < (utf8 longPassword).length := by decide
  exact ⟨haccepted, connectWifi_rejects_long objectEnv haccepted rfl rfl hlong,
    not_joinsExactly_of_long objectEnv haccepted rfl rfl hlong⟩

end Gd32Vw553h.Provision
