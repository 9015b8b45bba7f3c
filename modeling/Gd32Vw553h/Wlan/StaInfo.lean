/-
  Wlan/StaInfo.lean --- the list of associated stations
  (`components/drivers/wlan/dev_wlan_mgnt.c`).

  `rt_wlan_event_dispatch` enters a station at the head of `sta_info` when it
  associates, takes it out when it leaves and empties the list when the access point
  stops.  Entering does not look for the station and taking out stops at the first
  entry, so the list agrees with the history of events exactly as long as no station
  associates that is listed already: `staInfo_tracks_iff`.
-/
import Mathlib.Data.List.Induction
import Mathlib.Algebra.Order.Group.Int
import Gd32Vw553h.Wlan.Scan

set_option autoImplicit false

namespace Gd32Vw553h.Wlan

open Gd32Vw553h.Klibc

/-! ## Data -/

/-- `sizeof(struct rt_wlan_info)` -/
abbrev sizeofRtWlanInfo : Int := 60

/-- `struct rt_wlan_buff`, where its data are a `struct rt_wlan_info`. -/
structure RtWlanBuff where
  data : Option RtWlanInfo
  len : Int

/-- `struct rt_wlan_sta_des`: the counter and the chain of entries from `node` on. -/
structure RtWlanStaDes where
  num : Int
  node : List RtWlanInfo
  deriving DecidableEq

/-- `RT_WLAN_STATE_ACTIVE` of `_ap_mgnt`, and `sta_info`. -/
structure ApStations where
  active : Bool
  staInfo : RtWlanStaDes
  deriving DecidableEq

/-- An address of a station. -/
abbrev StaAddr := Vector UInt8 rtWlanBssidMaxLength

def RtWlanStaDes.addrs (sta : RtWlanStaDes) : List StaAddr := sta.node.map (·.bssid)

/-! ## Code -/

/-- `rt_wlan_sta_info_add` with `RT_WAITING_FOREVER`; `device` is whether there is an AP
device, `alloc` whether `rt_malloc` succeeds. -/
def rtWlanStaInfoAdd (device alloc : Bool) (info : Option RtWlanInfo) (sta : RtWlanStaDes) :
    Int × RtWlanStaDes :=
  match device, info, alloc with
  | false, _, _ | _, none, _ => (0, sta)
  | true, some _, false => (-rtENoMem, sta)
  | true, some info, true => (0, ⟨sta.num + 1, info :: sta.node⟩)

/-- The traversal of `rt_wlan_sta_info_del`: the chain without its first entry of that
address, if there is one. -/
def unlinkSta (addr : StaAddr) : List RtWlanInfo → Option (List RtWlanInfo)
  | [] => none
  | entry :: next =>
    if entry.bssid = addr then some next else (unlinkSta addr next).map (entry :: ·)

/-- `rt_wlan_sta_info_del` with `RT_WAITING_FOREVER` -/
def rtWlanStaInfoDel (device : Bool) (info : Option RtWlanInfo) (sta : RtWlanStaDes) :
    Int × RtWlanStaDes :=
  match device, info with
  | false, _ | _, none => (0, sta)
  | true, some info =>
    match unlinkSta info.bssid sta.node with
    | none => (0, sta)
    | some node => (0, ⟨sta.num - 1, node⟩)

/-- The counter after the loop of `rt_wlan_sta_info_del_all`. -/
def countDown (num : Int) : List RtWlanInfo → Int
  | [] => num
  | _ :: next => countDown (num - 1) next

/-- `rt_wlan_sta_info_del_all` with `RT_WAITING_FOREVER`; the flag is whether it logs
`Program runing exception`. -/
def rtWlanStaInfoDelAll (sta : RtWlanStaDes) : Bool × RtWlanStaDes :=
  (countDown sta.num sta.node ≠ 0, ⟨0, []⟩)

/-- What `rt_wlan_event_dispatch` does to the access point's part. -/
def apEventDispatch (device alloc : Bool) (event : RtWlanDevEvent) (buff : Option RtWlanBuff)
    (ap : ApStations) : ApStations :=
  let userBuff := buff.getD ⟨none, 0⟩
  match event with
  | .apStart => { ap with active := true }
  | .apStop => { ap with active := false, staInfo := (rtWlanStaInfoDelAll ap.staInfo).2 }
  | .apAssociated =>
    if userBuff.len ≠ sizeofRtWlanInfo then ap
    else { ap with staInfo := (rtWlanStaInfoAdd device alloc userBuff.data ap.staInfo).2 }
  | .apDisassociated =>
    if userBuff.len ≠ sizeofRtWlanInfo then ap
    else { ap with staInfo := (rtWlanStaInfoDel device userBuff.data ap.staInfo).2 }
  | _ => ap

/-- The loop of `rt_wlan_ap_get_sta_info`. -/
def copyStas (staNum : Int) : Int → List RtWlanInfo → List RtWlanInfo
  | _, [] => []
  | i, entry :: next => if i < staNum then entry :: copyStas staNum (i + 1) next else []

/-- `rt_wlan_ap_get_sta_info`: the entries it writes to `info`. -/
def rtWlanApGetStaInfo (num : Int) (sta : RtWlanStaDes) : List RtWlanInfo :=
  let staNum := if sta.num > num then num else sta.num
  copyStas staNum 0 sta.node

/-! ## Histories -/

/-- The events of the access point that concern its stations. -/
inductive ApEvent where
  | associated (info : RtWlanInfo)
  | disassociated (info : RtWlanInfo)
  | stop

/-- The event and the buffer that the driver indicates. -/
def ApEvent.indication : ApEvent → RtWlanDevEvent × Option RtWlanBuff
  | associated info => (.apAssociated, some ⟨some info, sizeofRtWlanInfo⟩)
  | disassociated info => (.apDisassociated, some ⟨some info, sizeofRtWlanInfo⟩)
  | stop => (.apStop, none)

/-- One event, with an AP device and memory for an entry. -/
def ApEvent.dispatch (ap : ApStations) (e : ApEvent) : ApStations :=
  apEventDispatch true true e.indication.1 e.indication.2 ap

def ApStations.init : ApStations := ⟨false, ⟨0, []⟩⟩

/-- The state after a history of events. -/
def apRun (events : List ApEvent) : ApStations := events.foldl ApEvent.dispatch .init

/-- The events after which an address is not associated. -/
def ApEvent.Ends (addr : StaAddr) : ApEvent → Prop
  | associated _ => False
  | disassociated info => info.bssid = addr
  | stop => True

/-- The last event of the history about an address is its association. -/
def Associated (events : List ApEvent) (addr : StaAddr) : Prop :=
  ∃ before info after, events = before ++ .associated info :: after ∧ info.bssid = addr ∧
    ∀ e ∈ after, ¬ e.Ends addr

/-- The list and the counter agree with the history. -/
structure TracksStations (events : List ApEvent) (sta : RtWlanStaDes) : Prop where
  num : sta.num = sta.node.length
  nodup : sta.addrs.Nodup
  mem_iff : ∀ addr, addr ∈ sta.addrs ↔ Associated events addr
  get : ∀ requested : Int,
    rtWlanApGetStaInfo requested sta = sta.node.take (min sta.num requested).toNat

/-- No station associates while it is associated. -/
def NoReassociation (events : List ApEvent) : Prop :=
  ∀ before info after, events = before ++ .associated info :: after →
    ¬ Associated before info.bssid

/-! ## The association as a fold -/

theorem not_associated_nil (addr : StaAddr) : ¬ Associated [] addr := by
  rintro ⟨before, info, after, hsplit, -⟩
  exact List.cons_ne_nil _ _ (List.append_eq_nil_iff.mp hsplit.symm).2

/-- An event that does not enter the address leaves it associated unless it ends that. -/
theorem associated_snoc_of_ne {events : List ApEvent} {e : ApEvent} {addr : StaAddr}
    (hne : ∀ info, e = .associated info → info.bssid ≠ addr) :
    Associated (events ++ [e]) addr ↔ Associated events addr ∧ ¬ e.Ends addr := by
  constructor
  · rintro ⟨before, info, after, hsplit, hbssid, hafter⟩
    rcases List.eq_nil_or_concat after with rfl | ⟨init, last, rfl⟩
    · obtain ⟨-, hlast⟩ := List.append_inj' hsplit rfl
      exact absurd hbssid (hne info (List.singleton_inj.mp hlast))
    · rw [List.concat_eq_append, ← List.cons_append, ← List.append_assoc] at hsplit
      obtain ⟨rfl, hlast⟩ := List.append_inj' hsplit rfl
      obtain rfl := List.singleton_inj.mp hlast
      rw [List.concat_eq_append] at hafter
      exact ⟨⟨before, info, init, rfl, hbssid, fun e he => hafter e (List.mem_append_left _ he)⟩,
        hafter e (List.mem_append_right _ (List.mem_singleton_self e))⟩
  · rintro ⟨⟨before, info, after, rfl, hbssid, hafter⟩, hends⟩
    refine ⟨before, info, after ++ [e], by rw [List.append_assoc, List.cons_append], hbssid, ?_⟩
    intro e' he'
    rcases List.mem_append.mp he' with h | h
    · exact hafter e' h
    · rw [List.mem_singleton.mp h]
      exact hends

theorem associated_snoc_associated (events : List ApEvent) (info : RtWlanInfo) (addr : StaAddr) :
    Associated (events ++ [.associated info]) addr ↔
      addr = info.bssid ∨ Associated events addr := by
  by_cases haddr : addr = info.bssid
  · exact iff_of_true ⟨events, info, [], rfl, haddr.symm, fun _ h => nomatch h⟩ (.inl haddr)
  · have hne : ∀ info', ApEvent.associated info = .associated info' → info'.bssid ≠ addr := by
      rintro info' ⟨⟩
      exact Ne.symm haddr
    rw [associated_snoc_of_ne hne]
    simp [haddr, ApEvent.Ends]

theorem associated_snoc_disassociated (events : List ApEvent) (info : RtWlanInfo)
    (addr : StaAddr) :
    Associated (events ++ [.disassociated info]) addr ↔
      Associated events addr ∧ addr ≠ info.bssid := by
  rw [associated_snoc_of_ne (by rintro _ ⟨⟩)]
  exact and_congr_right fun _ => not_congr eq_comm

theorem not_associated_snoc_stop (events : List ApEvent) (addr : StaAddr) :
    ¬ Associated (events ++ [.stop]) addr := by
  rw [associated_snoc_of_ne (by rintro _ ⟨⟩)]
  exact fun h => h.2 trivial

/-! ## The operations on the list -/

theorem countDown_eq (num : Int) (node : List RtWlanInfo) :
    countDown num node = num - node.length := by
  induction node generalizing num with
  | nil => exact (sub_zero num).symm
  | cons entry next ih =>
    rw [countDown, ih, List.length_cons]
    omega

theorem copyStas_eq (staNum i : Int) (node : List RtWlanInfo) :
    copyStas staNum i node = node.take (staNum - i).toNat := by
  induction node generalizing i with
  | nil => rw [copyStas, List.take_nil]
  | cons entry next ih =>
    rw [copyStas, ih]
    by_cases hlt : i < staNum
    · have hsucc : (staNum - i).toNat = (staNum - (i + 1)).toNat + 1 := by omega
      rw [if_pos hlt, hsucc, List.take_succ_cons]
    · have hzero : (staNum - i).toNat = 0 := by omega
      rw [if_neg hlt, hzero, List.take_zero]

/-- `rt_wlan_ap_get_sta_info` returns the first entries, as many as there are and are asked
for. -/
theorem rtWlanApGetStaInfo_eq (requested : Int) (sta : RtWlanStaDes) :
    rtWlanApGetStaInfo requested sta = sta.node.take (min sta.num requested).toNat := by
  have hmin : (if sta.num > requested then requested else sta.num) = min sta.num requested := by
    split_ifs <;> omega
  rw [rtWlanApGetStaInfo, copyStas_eq, hmin, sub_zero]

theorem unlinkSta_eq_none {addr : StaAddr} {node : List RtWlanInfo} :
    unlinkSta addr node = none ↔ addr ∉ node.map (·.bssid) := by
  induction node with
  | nil => simp [unlinkSta]
  | cons entry next ih =>
    rw [unlinkSta, List.map_cons, List.mem_cons, not_or, ← ih]
    by_cases haddr : entry.bssid = addr
    · simp [haddr]
    · simp [haddr, Ne.symm haddr]

/-- Taking out removes the first entry of the address and no other. -/
theorem unlinkSta_eq_some {addr : StaAddr} {node rest : List RtWlanInfo}
    (h : unlinkSta addr node = some rest) :
    rest.map (·.bssid) = (node.map (·.bssid)).erase addr ∧ node.length = rest.length + 1 := by
  induction node generalizing rest with
  | nil => exact nomatch h
  | cons entry next ih =>
    rw [unlinkSta] at h
    by_cases haddr : entry.bssid = addr
    · rw [if_pos haddr] at h
      obtain rfl := Option.some.inj h
      rw [List.map_cons, haddr, List.erase_cons_head]
      exact ⟨rfl, rfl⟩
    · rw [if_neg haddr] at h
      obtain ⟨mid, hmid, rfl⟩ := Option.map_eq_some_iff.mp h
      obtain ⟨hmap, hlength⟩ := ih hmid
      rw [List.map_cons, List.map_cons, hmap, List.erase_cons_tail (by simpa using haddr),
        List.length_cons, hlength]
      exact ⟨rfl, rfl⟩

theorem rtWlanStaInfoDel_addrs (info : RtWlanInfo) (sta : RtWlanStaDes) :
    (rtWlanStaInfoDel true (some info) sta).2.addrs = sta.addrs.erase info.bssid := by
  simp only [rtWlanStaInfoDel]
  cases hunlink : unlinkSta info.bssid sta.node with
  | none => exact (List.erase_of_not_mem (unlinkSta_eq_none.mp hunlink)).symm
  | some rest => exact (unlinkSta_eq_some hunlink).1

/-! ## The counter -/

theorem dispatch_num {ap : ApStations} (h : ap.staInfo.num = ap.staInfo.node.length)
    (e : ApEvent) : (e.dispatch ap).staInfo.num = (e.dispatch ap).staInfo.node.length := by
  cases e with
  | associated info =>
    show ap.staInfo.num + 1 = ((info :: ap.staInfo.node).length : Int)
    rw [h, List.length_cons]
    rfl
  | disassociated info =>
    show (rtWlanStaInfoDel true (some info) ap.staInfo).2.num = _
    simp only [ApEvent.dispatch, ApEvent.indication, apEventDispatch, rtWlanStaInfoDel,
      Option.getD_some, ne_eq, not_true_eq_false, if_false]
    cases hunlink : unlinkSta info.bssid ap.staInfo.node with
    | none => exact h
    | some rest =>
      have hlength := (unlinkSta_eq_some hunlink).2
      show ap.staInfo.num - 1 = (rest.length : Int)
      omega
  | stop => rfl

/-- The counter is the length of the list after every history. -/
theorem apRun_num (events : List ApEvent) :
    (apRun events).staInfo.num = (apRun events).staInfo.node.length := by
  induction events using List.reverseRecOn with
  | nil => rfl
  | append_singleton events e ih =>
    rw [apRun, List.foldl_append]
    exact dispatch_num ih e

/-- The warning of `rt_wlan_sta_info_del_all` is never logged. -/
theorem rtWlanStaInfoDelAll_quiet (events : List ApEvent) :
    (rtWlanStaInfoDelAll (apRun events).staInfo).1 = false := by
  have hzero : countDown (apRun events).staInfo.num (apRun events).staInfo.node = 0 := by
    rw [countDown_eq, apRun_num, sub_self]
  exact decide_eq_false (not_not_intro hzero)

/-! ## The list against the history -/

theorem apRun_snoc (events : List ApEvent) (e : ApEvent) :
    apRun (events ++ [e]) = e.dispatch (apRun events) := by
  rw [apRun, List.foldl_append]
  rfl

theorem tracks_nil : TracksStations [] (apRun []).staInfo where
  num := rfl
  nodup := List.nodup_nil
  mem_iff addr := iff_of_false List.not_mem_nil (not_associated_nil addr)
  get requested := rtWlanApGetStaInfo_eq requested _

/-- One more event is tracked when it is no association of a listed station. -/
theorem TracksStations.snoc {events : List ApEvent}
    (h : TracksStations events (apRun events).staInfo) {e : ApEvent}
    (hnew : ∀ info, e = .associated info → info.bssid ∉ (apRun events).staInfo.addrs) :
    TracksStations (events ++ [e]) (apRun (events ++ [e])).staInfo where
  num := apRun_num (events ++ [e])
  nodup := by
    rw [apRun_snoc]
    cases e with
    | associated info => exact List.nodup_cons.mpr ⟨hnew info rfl, h.nodup⟩
    | disassociated info =>
      have haddrs := rtWlanStaInfoDel_addrs info (apRun events).staInfo
      exact (congrArg List.Nodup haddrs).mpr (h.nodup.erase info.bssid)
    | stop => exact List.nodup_nil
  mem_iff addr := by
    rw [apRun_snoc]
    cases e with
    | associated info =>
      rw [associated_snoc_associated, ← h.mem_iff]
      exact List.mem_cons
    | disassociated info =>
      have haddrs := rtWlanStaInfoDel_addrs info (apRun events).staInfo
      have herase := h.nodup.mem_erase_iff (a := addr) (b := info.bssid)
      rw [associated_snoc_disassociated, ← h.mem_iff, and_comm, ← herase, ← haddrs]
      rfl
    | stop => exact iff_of_false List.not_mem_nil (not_associated_snoc_stop events addr)
  get requested := rtWlanApGetStaInfo_eq requested _

theorem NoReassociation.prefix {before after : List ApEvent}
    (h : NoReassociation (before ++ after)) : NoReassociation before := by
  rintro first info rest rfl
  exact h first info (rest ++ after) (by rw [List.append_assoc, List.cons_append])

theorem tracks_of_noReassociation (events : List ApEvent) (h : NoReassociation events) :
    TracksStations events (apRun events).staInfo := by
  induction events using List.reverseRecOn with
  | nil => exact tracks_nil
  | append_singleton events e ih =>
    have htracks := ih h.prefix
    refine htracks.snoc fun info he hmem => ?_
    subst he
    exact h events info [] rfl ((htracks.mem_iff info.bssid).mp hmem)

/-- The list of stations agrees with the history throughout exactly when no station
associates while it is associated. -/
theorem staInfo_tracks_iff (events : List ApEvent) :
    (∀ before after, events = before ++ after →
      TracksStations before (apRun before).staInfo) ↔ NoReassociation events := by
  constructor
  · rintro htracks before info after rfl hassociated
    have hbefore := htracks before (.associated info :: after) rfl
    have hafter := htracks (before ++ [.associated info]) after (by rw [List.append_assoc]; rfl)
    have hnodup := hafter.nodup
    rw [apRun_snoc] at hnodup
    exact (List.nodup_cons.mp hnodup).1 ((hbefore.mem_iff info.bssid).mpr hassociated)
  · rintro h before after rfl
    exact tracks_of_noReassociation before h.prefix

/-- A station that associates twice is listed twice. -/
theorem not_tracks_associated_twice :
    ¬ TracksStations [.associated .zero, .associated .zero]
      (apRun [.associated .zero, .associated .zero]).staInfo := by
  intro h
  have hnodup : ¬ (apRun [.associated .zero, .associated .zero]).staInfo.addrs.Nodup := by
    decide
  exact hnodup h.nodup

end Gd32Vw553h.Wlan
