/-
  Wlan/StartAp.lean --- starting the access point (`components/drivers/wlan/dev_wlan_mgnt.c`,
  `dev_wlan.c`).

  `rt_wlan_start_ap_adv` answers a request for the configuration that is active already
  without calling the driver.  It takes the passwords for the same when `rt_memcmp` says that
  they differ.  `rt_wlan_start_ap` builds the request from two strings; it logs an SSID that
  is too long and copies it all the same.

  The trace has the copies into fixed buffers with the number of bytes, the requests that
  are refused, and the calls of the driver.  `MGNT_LOCK` waits forever and is left out.
-/
import Gd32Vw553h.Wlan.Connect

set_option autoImplicit false

namespace Gd32Vw553h.Wlan.StartAp

open Gd32Vw553h.Foundation Gd32Vw553h.Klibc

/-! ## The code -/

/-- `SECURITY_WPA2_AES_PSK` -/
abbrev securityWpa2AesPsk : UInt32 := 0x00400004

/-- `RT_802_11_BAND_2_4GHZ` -/
abbrev rtBand24Ghz : UInt32 := 1

/-- `struct rt_ap_info` -/
structure RtApInfo where
  ssid : RtWlanSsid
  key : RtWlanKey
  hidden : UInt8
  channel : UInt16
  security : UInt32
  deriving DecidableEq

/-- Why a request is refused before the driver is called. -/
inductive Refusal where
  /-- "key is to long!" in `rt_wlan_start_ap_adv` -/
  | passwordTooLong
  /-- "password or ssid is too long" in `rt_wlan_dev_ap_start` -/
  | lengths
  /-- `rt_wlan_complete_create` finds no memory -/
  | noMemory
  /-- `ssid` is null -/
  | noSsid
  /-- there is no device -/
  | noDevice
  deriving DecidableEq

inductive ApCall where
  | refused (why : Refusal)
  /-- "ssid is to long!" in `rt_wlan_start_ap`, which goes on -/
  | ssidTooLong
  /-- so many bytes are copied into an array for an SSID -/
  | copySsid (count : Nat)
  /-- so many bytes are copied into an array for a key -/
  | copyKey (count : Nat)
  /-- `RT_WLAN_CMD_SOFTAP` -/
  | softap (apInfo : RtApInfo)
  deriving DecidableEq

/-- The answers from outside. -/
structure ApEnv where
  softap : RtApInfo → Int
  /-- `rt_wlan_complete_create` finds memory -/
  complete : Bool
  /-- `RT_WLAN_DEV_EVT_AP_START` comes in time -/
  started : Bool

/-- `_ap_mgnt` and the calls made. -/
structure ApMgnt where
  device : Bool
  info : RtWlanInfo
  key : RtWlanKey
  /-- `RT_WLAN_STATE_ACTIVE` -/
  active : Bool
  trace : List ApCall
  deriving DecidableEq

def ApMgnt.emit (m : ApMgnt) (call : ApCall) : ApMgnt := { m with trace := m.trace ++ [call] }

/-- The bytes of a password; a null pointer has none. -/
def passwordBytes (password : Option (List UInt8)) : List UInt8 :=
  match password with
  | none => []
  | some s => s.take (rtStrlen s)

section Code

variable (env : ApEnv)

/-- The `ap_info` of `rt_wlan_dev_ap_start`. -/
def apInfo (info : RtWlanInfo) (password : List UInt8) : RtApInfo where
  ssid := info.ssid
  key := { len := UInt8.ofNat password.length, val := rtMemcpy RtWlanKey.zero.val password }
  hidden := info.hidden
  channel := info.channel.toUInt16
  security := info.security

/-- `rt_wlan_dev_ap_start` -/
def rtWlanDevApStart (info : RtWlanInfo) (password : List UInt8) (m : ApMgnt) : Int × ApMgnt :=
  if !m.device then (-rtEIo, m.emit (.refused .noDevice))
  else if ¬ devLengthsFit info password then (-rtError, m.emit (.refused .lengths))
  else
    (env.softap (apInfo info password),
      (m.emit (.copyKey password.length)).emit (.softap (apInfo info password)))

/-- The five comparisons of numbers and the one of SSIDs. -/
def sameButKey (info : RtWlanInfo) (passwordLen : Nat) (m : ApMgnt) : Bool :=
  m.info.ssid.len == info.ssid.len &&
    m.info.security == info.security &&
    m.info.channel == info.channel &&
    m.info.hidden == info.hidden &&
    m.key.len.toNat == passwordLen &&
    m.info.ssid.val.toList.take info.ssid.len.toNat ==
      info.ssid.val.toList.take info.ssid.len.toNat

/-- `rt_memcmp(&_ap_mgnt.key.val[0], password, password_len)` is not zero. -/
def keyDiffers (password : List UInt8) (m : ApMgnt) : Bool :=
  m.key.val.toList.take password.length != password

/-- `rt_wlan_start_ap_adv` -/
def rtWlanStartApAdv (info : RtWlanInfo) (password : Option (List UInt8)) (m : ApMgnt) :
    Int × ApMgnt :=
  if !m.device then (-rtEIo, m.emit (.refused .noDevice))
  else
    let password := passwordBytes password
    if password.length > rtWlanPasswordMaxLength then
      (-rtEInval, m.emit (.refused .passwordTooLong))
    else if m.active && (sameButKey info password.length m && keyDiffers password m) then (0, m)
    else
      let (err, m) := rtWlanDevApStart env info password m
      if err ≠ 0 then (err, m)
      else
        (err, { m.emit (.copyKey password.length) with
          info := info
          key := { len := UInt8.ofNat password.length, val := rtMemcpy m.key.val password } })

/-- The `info` of `rt_wlan_start_ap`.  What is copied behind the SSID array goes to the BSSID
and the hidden flag; what goes behind the structure is left out. -/
def startInfo (ssid : List UInt8) (password : Option (List UInt8)) : RtWlanInfo :=
  { RtWlanInfo.zero with
    security := if password.isSome then securityWpa2AesPsk else 0
    band := rtBand24Ghz
    channel := 6
    ssid := { len := UInt8.ofNat ssid.length, val := rtMemcpy RtWlanSsid.zero.val ssid }
    bssid := rtMemcpy RtWlanInfo.zero.bssid (ssid.drop (rtWlanSsidMaxLength + 1))
    hidden := (ssid.drop (rtWlanSsidMaxLength + 1 + rtWlanBssidMaxLength)).headD 0 }

/-- `rt_wlan_start_ap` -/
def rtWlanStartAp (ssid password : Option (List UInt8)) (m : ApMgnt) : Int × ApMgnt :=
  if !m.device then (-rtEIo, m.emit (.refused .noDevice))
  else
    match ssid with
    | none => (-rtEInval, m.emit (.refused .noSsid))
    | some ssid =>
      let ssidLen := rtStrlen ssid
      let m := if ssidLen > rtWlanSsidMaxLength then m.emit .ssidTooLong else m
      let info := startInfo (ssid.take ssidLen) password
      let m := m.emit (.copySsid ssidLen)
      if !env.complete then (-rtENoMem, m.emit (.refused .noMemory))
      else
        let (err, m) := rtWlanStartApAdv env info password m
        if err ≠ 0 then (err, m)
        else if !env.started then (-rtError, m)
        else (err, m)

end Code

/-! ## Requests -/

/-- A call of one of the two functions. -/
inductive ApRequest where
  | start (ssid password : Option (List UInt8))
  | adv (info : RtWlanInfo) (password : Option (List UInt8))

namespace ApRequest

def run (env : ApEnv) : ApRequest → ApMgnt → Int × ApMgnt
  | start ssid password, m => rtWlanStartAp env ssid password m
  | adv info password, m => rtWlanStartApAdv env info password m

/-- The configuration that is asked for. -/
def info : ApRequest → Option RtWlanInfo
  | start ssid password => ssid.map fun s => startInfo (s.take (rtStrlen s)) password
  | adv info _ => some info

def password : ApRequest → List UInt8
  | start _ password => passwordBytes password
  | adv _ password => passwordBytes password

/-- SSID, security, channel, hidden flag and the length of the password are the active ones. -/
def SameButKey (request : ApRequest) (m : ApMgnt) : Prop :=
  ∃ info, request.info = some info ∧ sameButKey info request.password.length m = true

/-- And so is the password. -/
def Same (request : ApRequest) (m : ApMgnt) : Prop :=
  request.SameButKey m ∧ keyDiffers request.password m = false

/-- The SSID that `rt_wlan_start_ap` copies fits. -/
def SsidFits : ApRequest → Prop
  | start ssid _ => ∀ s, ssid = some s → rtStrlen s ≤ rtWlanSsidMaxLength
  | adv _ _ => True

/-- The request comes to `rt_wlan_start_ap_adv`. -/
def Served (env : ApEnv) : ApRequest → Prop
  | start _ _ => env.complete = true
  | adv _ _ => True

end ApRequest

/-- What is copied fits, and what is not refused is answered without the driver just if it is
active already; otherwise the driver is called. -/
structure StartApRight (env : ApEnv) (m : ApMgnt) (request : ApRequest) : Prop where
  copies : ∃ calls, (request.run env m).2.trace = m.trace ++ calls ∧
    (∀ count, .copySsid count ∈ calls → count ≤ rtWlanSsidMaxLength) ∧
    (∀ count, .copyKey count ∈ calls → count ≤ rtWlanPasswordMaxLength)
  decided : ∃ calls, (request.run env m).2.trace = m.trace ++ calls ∧
    ((∃ why, .refused why ∈ calls) ∨
      (((request.run env m).1 = 0 ∧ ∀ ap, .softap ap ∉ calls) ↔ request.Same m) ∧
        (¬ request.Same m → ∃ ap, .softap ap ∈ calls))

/-- The lengths of the configuration that is kept fit its arrays. -/
structure ApMgnt.Fits (m : ApMgnt) : Prop where
  ssid : m.info.ssid.len.toNat ≤ rtWlanSsidMaxLength
  key : m.key.len.toNat ≤ rtWlanPasswordMaxLength

/-! ## What the calls do -/

section Calls

variable {env : ApEnv} {m : ApMgnt} {info : RtWlanInfo} {password : Option (List UInt8)}

/-- The shortcut is taken: all but the keys agree, and the keys do not. -/
theorem rtWlanStartApAdv_shortcut (hdevice : m.device = true) (hactive : m.active = true)
    (hpassword : (passwordBytes password).length ≤ rtWlanPasswordMaxLength)
    (hsame : sameButKey info (passwordBytes password).length m = true)
    (hkey : keyDiffers (passwordBytes password) m = true) :
    rtWlanStartApAdv env info password m = (0, m) := by
  have hfits : ¬ (passwordBytes password).length > rtWlanPasswordMaxLength := by omega
  simp only [rtWlanStartApAdv, hdevice, Bool.not_true, Bool.false_eq_true, if_false, hfits, hactive,
    hsame, hkey, Bool.and_true, if_true]

/-- What the device layer adds to the trace. -/
def devCalls (info : RtWlanInfo) (password : List UInt8) : List ApCall :=
  if devLengthsFit info password then
    [.copyKey password.length, .softap (apInfo info password)]
  else [.refused .lengths]

theorem rtWlanDevApStart_trace (env : ApEnv) (info : RtWlanInfo) (password : List UInt8)
    (hdevice : m.device = true) :
    (rtWlanDevApStart env info password m).2 =
      { m with trace := m.trace ++ devCalls info password } := by
  have hthere : (!m.device) = false := by rw [hdevice, Bool.not_true]
  unfold rtWlanDevApStart devCalls
  rw [hthere, if_neg Bool.false_ne_true]
  by_cases hfit : devLengthsFit info password
  · rw [if_neg (not_not_intro hfit), if_pos hfit]
    simp only [ApMgnt.emit, List.append_assoc, List.cons_append, List.nil_append]
  · rw [if_pos hfit, if_neg hfit]
    rfl

/-- Every other request with a password that fits comes to the device layer; the key is copied
once more when the driver is content. -/
theorem rtWlanStartApAdv_driver (hdevice : m.device = true)
    (hpassword : (passwordBytes password).length ≤ rtWlanPasswordMaxLength)
    (hno : ¬ (m.active = true ∧ sameButKey info (passwordBytes password).length m = true ∧
      keyDiffers (passwordBytes password) m = true)) :
    ∃ kept, (rtWlanStartApAdv env info password m).2.trace =
        m.trace ++ devCalls info (passwordBytes password) ++ kept ∧
      (kept = [] ∨ kept = [.copyKey (passwordBytes password).length]) := by
  have hfits : ¬ (passwordBytes password).length > rtWlanPasswordMaxLength := by omega
  have hgoes : ¬ ((m.active && (sameButKey info (passwordBytes password).length m &&
      keyDiffers (passwordBytes password) m)) = true) := by
    intro h
    obtain ⟨hactive, hboth⟩ := Bool.and_eq_true_iff.mp h
    exact hno ⟨hactive, Bool.and_eq_true_iff.mp hboth⟩
  have htrace := rtWlanDevApStart_trace env info (passwordBytes password) hdevice
  unfold rtWlanStartApAdv
  simp only [hdevice, Bool.not_true, Bool.false_eq_true, if_false, hfits, if_neg hgoes]
  split
  · exact ⟨[], by rw [htrace, List.append_nil], .inl rfl⟩
  · refine ⟨[.copyKey (passwordBytes password).length], ?_, .inr rfl⟩
    simp only [ApMgnt.emit, htrace]

theorem rtWlanStartApAdv_tooLong (hdevice : m.device = true)
    (hpassword : rtWlanPasswordMaxLength < (passwordBytes password).length) :
    rtWlanStartApAdv env info password m = (-rtEInval, m.emit (.refused .passwordTooLong)) := by
  simp only [rtWlanStartApAdv, hdevice, Bool.not_true, Bool.false_eq_true, if_false,
    gt_iff_lt, hpassword, if_true]

end Calls

/-! ## Every request -/

section Requests

variable {env : ApEnv} {m : ApMgnt} {info : RtWlanInfo} {password : Option (List UInt8)}

/-- How a call of `rt_wlan_start_ap_adv` ends, by what it adds to the trace. -/
inductive AdvOutcome (info : RtWlanInfo) (password : List UInt8) (m : ApMgnt)
    (calls : List ApCall) : Prop
  | refused (why : Refusal) (hmem : .refused why ∈ calls)
      (hnot : ¬ sameButKey info password.length m = true)
  | shortcut (hcalls : calls = []) (hsame : sameButKey info password.length m = true)
      (hkey : keyDiffers password m = true)
  | driver (ap : RtApInfo) (hmem : .softap ap ∈ calls) (hserved : ∀ why, .refused why ∉ calls)
      (hnot : sameButKey info password.length m = true → keyDiffers password m = false)

theorem sameButKey_lengths {password : List UInt8} (hfits : m.Fits)
    (hsame : sameButKey info password.length m = true) : devLengthsFit info password := by
  simp only [sameButKey, Bool.and_eq_true, beq_iff_eq] at hsame
  obtain ⟨⟨⟨⟨⟨hssid, -⟩, -⟩, -⟩, hkey⟩, -⟩ := hsame
  have hssid' := hfits.ssid
  have hkey' := hfits.key
  rw [hssid] at hssid'
  rw [hkey] at hkey'
  rintro (hlong | hlong) <;> omega

theorem rtWlanStartApAdv_calls (env : ApEnv) (info : RtWlanInfo)
    (password : Option (List UInt8)) (hfits : m.Fits) (hdevice : m.device = true)
    (hactive : m.active = true) :
    ∃ calls, (rtWlanStartApAdv env info password m).2.trace = m.trace ++ calls ∧
      (∀ count, .copySsid count ∉ calls) ∧
      (∀ count, .copyKey count ∈ calls → count ≤ rtWlanPasswordMaxLength) ∧
      AdvOutcome info (passwordBytes password) m calls := by
  by_cases hpassword : (passwordBytes password).length ≤ rtWlanPasswordMaxLength
  · by_cases hshort : sameButKey info (passwordBytes password).length m = true ∧
        keyDiffers (passwordBytes password) m = true
    · refine ⟨[], ?_, fun _ => List.not_mem_nil, fun _ hmem => absurd hmem List.not_mem_nil,
        .shortcut rfl hshort.1 hshort.2⟩
      rw [rtWlanStartApAdv_shortcut hdevice hactive hpassword hshort.1 hshort.2, List.append_nil]
    · obtain ⟨kept, htrace, hkept⟩ := rtWlanStartApAdv_driver hdevice hpassword
        fun h => hshort h.2
      have hcopied : ∀ call ∈ kept, call = .copyKey (passwordBytes password).length := by
        rcases hkept with rfl | rfl
        · exact fun call hmem => absurd hmem List.not_mem_nil
        · exact fun call hmem => List.mem_singleton.mp hmem
      refine ⟨devCalls info (passwordBytes password) ++ kept, ?_, fun count hmem => ?_,
        fun count hmem => ?_, ?_⟩
      · rw [htrace, List.append_assoc]
      · rcases List.mem_append.mp hmem with hdev | hlast
        · unfold devCalls at hdev
          split at hdev <;> simp at hdev
        · exact ApCall.noConfusion (hcopied _ hlast)
      · rcases List.mem_append.mp hmem with hdev | hlast
        · unfold devCalls at hdev
          split at hdev
          · simp only [List.mem_cons, ApCall.copyKey.injEq, reduceCtorEq, List.not_mem_nil,
              or_false] at hdev
            rw [hdev]
            exact hpassword
          · simp at hdev
        · rw [ApCall.copyKey.inj (hcopied _ hlast)]
          exact hpassword
      · by_cases hfit : devLengthsFit info (passwordBytes password)
        · refine .driver (apInfo info (passwordBytes password)) ?_ (fun why hmem => ?_)
            fun hsame => Bool.eq_false_iff.mpr fun hkey => hshort ⟨hsame, hkey⟩
          · rw [devCalls, if_pos hfit]
            simp
          · rw [devCalls, if_pos hfit] at hmem
            rcases List.mem_append.mp hmem with hdev | hlast
            · simp at hdev
            · exact ApCall.noConfusion (hcopied _ hlast)
        · refine .refused .lengths ?_ fun hsame => hfit (sameButKey_lengths hfits hsame)
          rw [devCalls, if_neg hfit]
          simp
  · refine ⟨[.refused .passwordTooLong], ?_, by simp, by simp,
      .refused .passwordTooLong List.mem_cons_self fun hsame => ?_⟩
    · rw [rtWlanStartApAdv_tooLong hdevice (Nat.lt_of_not_le hpassword)]
      rfl
    · exact (sameButKey_lengths hfits hsame) (.inl (Nat.lt_of_not_le hpassword))

/-- How a request ends. -/
inductive Outcome (env : ApEnv) (request : ApRequest) (m : ApMgnt) (calls : List ApCall) : Prop
  | refused (why : Refusal) (hmem : .refused why ∈ calls)
      (hnot : ¬ (request.Served env ∧ request.SameButKey m))
  | shortcut (hserved : request.Served env ∧ request.SameButKey m)
      (hkey : keyDiffers request.password m = true) (hrefused : ∀ why, .refused why ∉ calls)
      (hsoftap : ∀ ap, .softap ap ∉ calls)
  | driver (ap : RtApInfo) (hmem : .softap ap ∈ calls) (hserved : request.Served env)
      (hrefused : ∀ why, .refused why ∉ calls)
      (hnot : request.SameButKey m → keyDiffers request.password m = false)

/-- What `rt_wlan_start_ap` adds to the trace before anything else. -/
def startCalls (s : List UInt8) : List ApCall :=
  (if rtStrlen s > rtWlanSsidMaxLength then [.ssidTooLong] else []) ++ [.copySsid (rtStrlen s)]

/-- The rest of `rt_wlan_start_ap` is `rt_wlan_start_ap_adv`, as far as the trace goes. -/
theorem rtWlanStartAp_trace (env : ApEnv) (s : List UInt8) (password : Option (List UInt8))
    (hdevice : m.device = true) :
    (rtWlanStartAp env (some s) password m).2.trace =
      if env.complete = true then
        (rtWlanStartApAdv env (startInfo (s.take (rtStrlen s)) password) password
          { m with trace := m.trace ++ startCalls s }).2.trace
      else m.trace ++ startCalls s ++ [.refused .noMemory] := by
  have hthere : (!m.device) = false := by rw [hdevice, Bool.not_true]
  have hbefore : (if rtStrlen s > rtWlanSsidMaxLength then m.emit .ssidTooLong else m).emit
      (.copySsid (rtStrlen s)) = { m with trace := m.trace ++ startCalls s } := by
    unfold startCalls
    split
    · simp only [ApMgnt.emit, List.append_assoc]
    · rfl
  unfold rtWlanStartAp
  rw [hthere, if_neg Bool.false_ne_true]
  dsimp only
  rw [hbefore]
  cases env.complete with
  | false => rfl
  | true =>
    simp only [Bool.not_true, Bool.false_eq_true, if_false, if_true]
    generalize rtWlanStartApAdv env (startInfo (s.take (rtStrlen s)) password) password
      { m with trace := m.trace ++ startCalls s } = r
    split
    · rfl
    · split <;> rfl

theorem copySsid_startCalls {s : List UInt8} {count : Nat} :
    .copySsid count ∈ startCalls s ↔ count = rtStrlen s := by
  unfold startCalls
  split <;> simp

theorem startCalls_only {s : List UInt8} {call : ApCall} (hmem : call ∈ startCalls s) :
    call = .ssidTooLong ∨ call = .copySsid (rtStrlen s) := by
  unfold startCalls at hmem
  rcases List.mem_append.mp hmem with hlogged | hcopied
  · split at hlogged
    · exact .inl (List.mem_singleton.mp hlogged)
    · exact absurd hlogged List.not_mem_nil
  · exact .inr (List.mem_singleton.mp hcopied)

/-- Calls that say nothing about the driver may come before. -/
theorem AdvOutcome.outcome {request : ApRequest} {before calls : List ApCall}
    (hinfo : request.info = some info) (hserved : request.Served env)
    (hbefore : ∀ call ∈ before, (∀ why, call ≠ .refused why) ∧ ∀ ap, call ≠ .softap ap)
    (h : AdvOutcome info request.password m calls) : Outcome env request m (before ++ calls) := by
  have hsame : request.SameButKey m ↔ sameButKey info request.password.length m = true := by
    constructor
    · rintro ⟨info', hinfo', hsame⟩
      obtain rfl : info = info' := Option.some.inj (hinfo.symm.trans hinfo')
      exact hsame
    · intro hsame
      exact ⟨info, hinfo, hsame⟩
  have hrefused : (∀ why, .refused why ∉ calls) → ∀ why, .refused why ∉ before ++ calls := by
    intro hno why hmem
    rcases List.mem_append.mp hmem with hfirst | hlast
    · exact (hbefore _ hfirst).1 why rfl
    · exact hno why hlast
  cases h with
  | refused why hmem hnot =>
    exact .refused why (List.mem_append_right before hmem) fun h => hnot (hsame.mp h.2)
  | shortcut hcalls hall hkey =>
    subst hcalls
    refine .shortcut ⟨hserved, hsame.mpr hall⟩ hkey (hrefused fun _ => List.not_mem_nil) ?_
    intro ap hmem
    rcases List.mem_append.mp hmem with hfirst | hlast
    · exact (hbefore _ hfirst).2 ap rfl
    · exact absurd hlast List.not_mem_nil
  | driver ap hmem hno hnot =>
    exact .driver ap (List.mem_append_right before hmem) hserved (hrefused hno)
      fun h => hnot (hsame.mp h)

theorem run_adv_calls (env : ApEnv) (info : RtWlanInfo) (password : Option (List UInt8))
    (hfits : m.Fits) (hdevice : m.device = true) (hactive : m.active = true) :
    ∃ calls, ((ApRequest.adv info password).run env m).2.trace = m.trace ++ calls ∧
      (∀ count, .copySsid count ∉ calls) ∧
      (∀ count, .copyKey count ∈ calls → count ≤ rtWlanPasswordMaxLength) ∧
      Outcome env (.adv info password) m calls := by
  obtain ⟨calls, htrace, hssid, hkey, hout⟩ :=
    rtWlanStartApAdv_calls env info password hfits hdevice hactive
  have houtcome : Outcome env (.adv info password) m ([] ++ calls) :=
    AdvOutcome.outcome rfl trivial (fun _ hmem => absurd hmem List.not_mem_nil) hout
  exact ⟨calls, htrace, hssid, hkey, houtcome⟩

theorem run_start_calls (env : ApEnv) (s : List UInt8) (password : Option (List UInt8))
    (hfits : m.Fits) (hdevice : m.device = true) (hactive : m.active = true) :
    ∃ calls, ((ApRequest.start (some s) password).run env m).2.trace = m.trace ++ calls ∧
      (∀ count, .copySsid count ∈ calls ↔ count = rtStrlen s) ∧
      (∀ count, .copyKey count ∈ calls → count ≤ rtWlanPasswordMaxLength) ∧
      Outcome env (.start (some s) password) m calls := by
  have htrace : ((ApRequest.start (some s) password).run env m).2.trace = _ :=
    rtWlanStartAp_trace env s password hdevice
  have hkey : ∀ count, ApCall.copyKey count ∉ startCalls s := by
    intro count hmem
    rcases startCalls_only hmem with heq | heq <;> cases heq
  cases hcomplete : env.complete with
  | false =>
    rw [hcomplete, if_neg Bool.false_ne_true, List.append_assoc] at htrace
    refine ⟨startCalls s ++ [.refused .noMemory], htrace, fun count => ?_, fun count hmem => ?_,
      .refused .noMemory (List.mem_append_right _ List.mem_cons_self) fun h => ?_⟩
    · rw [← copySsid_startCalls, List.mem_append]
      exact or_iff_left (by simp)
    · rcases List.mem_append.mp hmem with hfirst | hlast
      · exact absurd hfirst (hkey count)
      · simp at hlast
    · exact Bool.false_ne_true (hcomplete.symm.trans h.1)
  | true =>
    obtain ⟨calls, hcalls, hssid, hfit, hout⟩ :=
      @rtWlanStartApAdv_calls { m with trace := m.trace ++ startCalls s } env
        (startInfo (s.take (rtStrlen s)) password) password ⟨hfits.ssid, hfits.key⟩ hdevice hactive
    rw [hcomplete, if_pos rfl, hcalls, List.append_assoc] at htrace
    refine ⟨startCalls s ++ calls, htrace, fun count => ?_, fun count hmem => ?_, ?_⟩
    · rw [← copySsid_startCalls, List.mem_append]
      exact or_iff_left (hssid count)
    · rcases List.mem_append.mp hmem with hfirst | hlast
      · exact absurd hfirst (hkey count)
      · exact hfit count hlast
    · -- the two states differ in the trace only, which the comparisons do not read
      have hadv : AdvOutcome (startInfo (s.take (rtStrlen s)) password) (passwordBytes password) m
          calls := by
        cases hout with
        | refused why hmem hnot => exact .refused why hmem hnot
        | shortcut hempty hsame hkeys => exact .shortcut hempty hsame hkeys
        | driver ap hmem hserved hnot => exact .driver ap hmem hserved hnot
      refine AdvOutcome.outcome rfl hcomplete (fun call hmem => ?_) hadv
      rcases startCalls_only hmem with rfl | rfl
      · exact ⟨fun _ => ApCall.noConfusion, fun _ => ApCall.noConfusion⟩
      · exact ⟨fun _ => ApCall.noConfusion, fun _ => ApCall.noConfusion⟩

/-- What a request adds to the trace, and how it ends. -/
theorem run_calls (env : ApEnv) (request : ApRequest) (hfits : m.Fits) (hdevice : m.device = true)
    (hactive : m.active = true) :
    ∃ calls, (request.run env m).2.trace = m.trace ++ calls ∧
      ((∀ count, .copySsid count ∈ calls → count ≤ rtWlanSsidMaxLength) ↔ request.SsidFits) ∧
      (∀ count, .copyKey count ∈ calls → count ≤ rtWlanPasswordMaxLength) ∧
      Outcome env request m calls := by
  cases request with
  | adv info password =>
    obtain ⟨calls, htrace, hssid, hkey, hout⟩ :=
      run_adv_calls env info password hfits hdevice hactive
    exact ⟨calls, htrace, iff_of_true (fun count hmem => absurd hmem (hssid count)) trivial, hkey,
      hout⟩
  | start ssid password =>
    cases ssid with
    | none =>
      have hthere : (!m.device) = false := by rw [hdevice, Bool.not_true]
      have hrun : (ApRequest.start none password).run env m =
          (-rtEInval, m.emit (.refused .noSsid)) := by
        simp only [ApRequest.run, rtWlanStartAp, hthere, Bool.false_eq_true, if_false]
      refine ⟨[.refused .noSsid], by rw [hrun]; rfl,
        iff_of_true (by simp) fun s hs => absurd hs.symm (Option.some_ne_none s), by simp,
        .refused .noSsid List.mem_cons_self ?_⟩
      rintro ⟨-, info, hinfo, -⟩
      cases hinfo
    | some s =>
      obtain ⟨calls, htrace, hssid, hkey, hout⟩ :=
        run_start_calls env s password hfits hdevice hactive
      refine ⟨calls, htrace, ⟨fun h s' hs' => ?_, fun h count hmem => ?_⟩, hkey, hout⟩
      · obtain rfl : s = s' := Option.some.inj hs'
        exact h _ ((hssid _).mpr rfl)
      · rw [(hssid count).mp hmem]
        exact h s rfl

/-- A request is handled right exactly if its SSID fits and it does not come to the comparison
of the passwords. -/
theorem startApRight_iff (env : ApEnv) (m : ApMgnt) (request : ApRequest) (hfits : m.Fits)
    (hdevice : m.device = true) (hactive : m.active = true) :
    StartApRight env m request ↔
      request.SsidFits ∧ ¬ (request.Served env ∧ request.SameButKey m) := by
  obtain ⟨calls, htrace, hssid, hkey, hout⟩ := run_calls env request hfits hdevice hactive
  have hself : ∀ calls', (request.run env m).2.trace = m.trace ++ calls' → calls' = calls :=
    fun calls' h => List.append_cancel_left (h.symm.trans htrace)
  constructor
  · rintro ⟨⟨calls', h, hfit, -⟩, calls'', h', hdecided⟩
    rw [hself calls' h] at hfit
    rw [hself calls'' h'] at hdecided
    refine ⟨hssid.mp hfit, fun hsame => ?_⟩
    cases hout with
    | refused why hmem hnot => exact hnot hsame
    | shortcut hserved hkeys hrefused hsoftap =>
      rcases hdecided with ⟨why, hmem⟩ | ⟨-, hother⟩
      · exact hrefused why hmem
      · obtain ⟨ap, hmem⟩ := hother fun h => Bool.false_ne_true (h.2.symm.trans hkeys)
        exact hsoftap ap hmem
    | driver ap hmem _ hrefused hnot =>
      rcases hdecided with ⟨why, hmem'⟩ | ⟨hanswered, -⟩
      · exact hrefused why hmem'
      · exact (hanswered.mpr ⟨hsame.2, hnot hsame.2⟩).2 ap hmem
  · rintro ⟨hfit, hnot⟩
    refine ⟨⟨calls, htrace, hssid.mpr hfit, hkey⟩, calls, htrace, ?_⟩
    cases hout with
    | refused why hmem _ => exact .inl ⟨why, hmem⟩
    | shortcut hserved _ _ _ => exact absurd hserved hnot
    | driver ap hmem hserved _ _ =>
      exact .inr ⟨iff_of_false (fun h => h.2 ap hmem) fun hsame => hnot ⟨hserved, hsame.1⟩,
        fun _ => ⟨ap, hmem⟩⟩

/-- An open access point with an SSID of one letter. -/
def sampleAp : ApMgnt where
  device := true
  info := startInfo [97] none
  key := .zero
  active := true
  trace := []

/-- A driver that is content. -/
def contentDriver : ApEnv := ⟨fun _ => 0, true, true⟩

/-- Another SSID. -/
theorem startApRight_other : StartApRight contentDriver sampleAp (.start (some [98]) none) :=
  (startApRight_iff contentDriver sampleAp _ ⟨by decide, by decide⟩ rfl rfl).mpr
    ⟨fun s hs => Option.some.inj hs ▸ by decide, fun h => by
      obtain ⟨-, info, hinfo, hsame⟩ := h
      obtain rfl := Option.some.inj hinfo
      revert hsame
      decide⟩

/-- With a password of the same length as the active one the driver is not called; the active
configuration is handed to it again; and 40 bytes are copied into an array of 33. -/
theorem not_startApRight :
    rtWlanStartApAdv contentDriver sampleAp.info (some [98])
        { sampleAp with key := ⟨1, RtWlanKey.zero.val.set 0 97⟩ } =
      (0, { sampleAp with key := ⟨1, RtWlanKey.zero.val.set 0 97⟩ }) ∧
    (rtWlanStartApAdv contentDriver sampleAp.info none sampleAp).2.trace.length = 3 ∧
    .copySsid 40 ∈ (rtWlanStartAp contentDriver (some (List.replicate 40 98)) none
      sampleAp).2.trace ∧
    ¬ StartApRight contentDriver sampleAp (.adv sampleAp.info none) ∧
    ¬ StartApRight contentDriver sampleAp (.start (some (List.replicate 40 98)) none) := by
  refine ⟨by decide, by decide, by decide +kernel, fun h => ?_, fun h => ?_⟩
  · obtain ⟨-, calls, htrace, hdecided⟩ := h
    have hrun : ((ApRequest.adv sampleAp.info none).run contentDriver sampleAp).2.trace =
        [.copyKey 0, .softap (apInfo sampleAp.info []), .copyKey 0] := by
      decide
    obtain rfl : calls = _ := htrace.symm.trans hrun
    have hsame : (ApRequest.adv sampleAp.info none).Same sampleAp :=
      ⟨⟨sampleAp.info, rfl, by decide⟩, by decide⟩
    rcases hdecided with ⟨why, hmem⟩ | ⟨hanswered, -⟩
    · simp at hmem
    · exact (hanswered.mpr hsame).2 (apInfo sampleAp.info []) (by simp)
  · obtain ⟨⟨calls, htrace, hfit, -⟩, -⟩ := h
    have hmem : .copySsid 40 ∈ ((ApRequest.start (some (List.replicate 40 98)) none).run
        contentDriver sampleAp).2.trace := by
      decide +kernel
    rw [htrace] at hmem
    exact absurd (hfit 40 hmem) (by decide)

/-! ### The lengths that are kept -/

theorem rtWlanDevApStart_ok {password : List UInt8} {m' : ApMgnt}
    (h : rtWlanDevApStart env info password m = (0, m')) :
    devLengthsFit info password ∧ m'.info = m.info ∧ m'.key = m.key := by
  have hio : -rtEIo ≠ (0 : Int) := by decide
  have herror : -rtError ≠ (0 : Int) := by decide
  unfold rtWlanDevApStart at h
  split at h
  · exact absurd (congrArg Prod.fst h) hio
  · split at h
    · exact absurd (congrArg Prod.fst h) herror
    next hfit =>
      obtain rfl := congrArg Prod.snd h
      exact ⟨not_not.mp hfit, rfl, rfl⟩

theorem rtWlanDevApStart_kept (env : ApEnv) (info : RtWlanInfo) (password : List UInt8)
    (m : ApMgnt) : (rtWlanDevApStart env info password m).2.info = m.info ∧
      (rtWlanDevApStart env info password m).2.key = m.key := by
  unfold rtWlanDevApStart
  split
  · exact ⟨rfl, rfl⟩
  · split <;> exact ⟨rfl, rfl⟩

theorem ApMgnt.Fits.adv (h : m.Fits) (env : ApEnv) (info : RtWlanInfo)
    (password : Option (List UInt8)) : (rtWlanStartApAdv env info password m).2.Fits := by
  unfold rtWlanStartApAdv
  split
  · exact ⟨h.ssid, h.key⟩
  · dsimp only
    split
    · exact ⟨h.ssid, h.key⟩
    · split
      · exact h
      · rcases hdev : rtWlanDevApStart env info (passwordBytes password) m with ⟨err, m'⟩
        dsimp only
        split
        · obtain ⟨hinfo, hkey⟩ := rtWlanDevApStart_kept env info (passwordBytes password) m
          rw [hdev] at hinfo hkey
          exact ⟨hinfo ▸ h.ssid, hkey ▸ h.key⟩
        next hok =>
          obtain rfl : err = 0 := not_not.mp hok
          obtain ⟨hfit, -, -⟩ := rtWlanDevApStart_ok hdev
          obtain ⟨hpassword, hssid⟩ := not_or.mp hfit
          have hmax : (passwordBytes password).length ≤ 32 := Nat.le_of_not_lt hpassword
          refine ⟨Nat.le_of_not_lt hssid, ?_⟩
          have hlen : (UInt8.ofNat (passwordBytes password).length).toNat =
              (passwordBytes password).length :=
            UInt8.toNat_ofNat_of_lt' (by rw [UInt8.size]; omega)
          show (UInt8.ofNat (passwordBytes password).length).toNat ≤ _
          rw [hlen]
          exact Nat.le_of_not_lt hpassword

theorem ApMgnt.Fits.run (h : m.Fits) (env : ApEnv) (request : ApRequest) :
    (request.run env m).2.Fits := by
  cases request with
  | adv info password => exact h.adv env info password
  | start ssid password =>
    show (rtWlanStartAp env ssid password m).2.Fits
    unfold rtWlanStartAp
    split
    · exact ⟨h.ssid, h.key⟩
    · split
      · exact ⟨h.ssid, h.key⟩
      next s =>
        dsimp only
        have hbefore : ((if rtStrlen s > rtWlanSsidMaxLength then m.emit .ssidTooLong else m).emit
            (.copySsid (rtStrlen s))).Fits := by
          split <;> exact ⟨h.ssid, h.key⟩
        have hadv := hbefore.adv env (startInfo (s.take (rtStrlen s)) password) password
        generalize (if rtStrlen s > rtWlanSsidMaxLength then m.emit .ssidTooLong else m).emit
          (.copySsid (rtStrlen s)) = copied at hbefore hadv ⊢
        generalize rtWlanStartApAdv env (startInfo (s.take (rtStrlen s)) password) password
          copied = answered at hadv ⊢
        split
        · exact ⟨hbefore.ssid, hbefore.key⟩
        · split
          · exact hadv
          · split <;> exact hadv

/-- After any requests, from the cleared `_ap_mgnt` on, the lengths fit. -/
theorem fits_of_requests (env : ApEnv) (requests : List ApRequest) (device active : Bool) :
    (requests.foldl (fun (m : ApMgnt) (request : ApRequest) => (request.run env m).2)
      ⟨device, .zero, .zero, active, []⟩).Fits := by
  have hrun : ∀ m : ApMgnt, m.Fits → (requests.foldl
      (fun (m : ApMgnt) (request : ApRequest) => (request.run env m).2) m).Fits := by
    induction requests with
    | nil =>
      intro m h
      exact h
    | cons request rest ih =>
      intro m h
      exact ih _ (h.run env request)
  have hkey : RtWlanKey.zero.len.toNat ≤ rtWlanPasswordMaxLength := by decide
  have hssid : RtWlanInfo.zero.ssid.len.toNat ≤ rtWlanSsidMaxLength := by decide
  exact hrun _ ⟨hssid, hkey⟩

end Requests

end Gd32Vw553h.Wlan.StartAp
