/-
  Wlan/ScanTable.lean --- the table of scan results
  (`components/drivers/wlan/dev_wlan_cmd.c`).

  `wifi_scan_result_cache` looks for a duplicate and for the place of the report in one
  loop and rebuilds the table around that place.  `scanPlace_eq` says what the loop
  finds; the rest follows from what `placed` keeps.
-/
import Gd32Vw553h.Foundation.Placing
import Gd32Vw553h.Wlan.ScanCmd

set_option autoImplicit false

namespace Gd32Vw553h.Wlan.ScanCmd

open Gd32Vw553h.Foundation Gd32Vw553h.Klibc

/-- The entries that `scan_result` points to. -/
def RtWlanScanResult.table (result : RtWlanScanResult) : List RtWlanInfo := result.info.getD []

/-- A call of `wifi_scan_result_cache`, with what `scan_filter` points to and whether
`rt_malloc` succeeds. -/
structure CacheCall where
  filter : Option RtWlanInfo
  alloc : Bool
  info : Option RtWlanInfo

def CacheCall.run (call : CacheCall) (result : RtWlanScanResult) : Int × RtWlanScanResult :=
  wifiScanResultCache call.filter call.alloc call.info result

/-- The table after some calls. -/
def cacheCalls (calls : List CacheCall) (result : RtWlanScanResult) : RtWlanScanResult :=
  calls.foldl (fun r call => (call.run r).2) result

/-- What happens to the table between two uses: a report or a clean. -/
inductive TableOp where
  | cache (call : CacheCall)
  | clean

def TableOp.run (result : RtWlanScanResult) : TableOp → RtWlanScanResult
  | cache call => (call.run result).2
  | clean => wifiScanResultClean result

/-! ## What is to hold -/

/-- The report is the one of this entry. -/
def SameAp (info entry : RtWlanInfo) : Prop :=
  info.ssid.len = entry.ssid.len ∧ info.bssid = entry.bssid

instance (info entry : RtWlanInfo) : Decidable (SameAp info entry) :=
  inferInstanceAs (Decidable (_ ∧ _))

/-- `a` may stand in front of `b`: by signal from strong to weak, then by channel from low to
high, then by data rate from high to low. -/
def Ranked (a b : RtWlanInfo) : Prop :=
  b.rssi < a.rssi ∨ a.rssi = b.rssi ∧
    (a.channel < b.channel ∨ a.channel = b.channel ∧ b.datarate ≤ a.datarate)

/-- The table of results. -/
structure TableRight (result : RtWlanScanResult) : Prop where
  counted : result.num = result.table.length
  bounded : result.num ≤ rtWlanScanCacheNum
  distinct : result.table.Pairwise fun a b => ¬ SameAp a b
  ranked : result.table.Pairwise Ranked

/-- What a call does to the table: entries stay in their order, and a call without memory or
with a duplicate changes nothing; a call that stores leaves what its copy loop has built. -/
structure CallKeeps (call : CacheCall) (result : RtWlanScanResult) : Prop where
  kept : result.table.Sublist (call.run result).2.table
  noMemory : (call.run result).1 = -rtENoMem → (call.run result).2 = result
  duplicate : ∀ info, call.info = some info → (∃ entry ∈ result.table, SameAp info entry) →
    (call.run result).2 = result
  stored : (call.run result).2 ≠ result → ∃ info insert, call.info = some info ∧
    (call.run result).2.table.map some =
      (List.range (call.run result).2.num).map (copied result.table info insert)

/-! ## The loop -/

theorem Ranked.trans {a b c : RtWlanInfo} (hab : Ranked a b) (hbc : Ranked b c) :
    Ranked a c := by
  rcases hab with hrssi | ⟨hrssi, hchannel⟩
  · rcases hbc with hrssi' | ⟨hrssi', -⟩
    · exact .inl (Int16.lt_trans hrssi' hrssi)
    · exact .inl (hrssi' ▸ hrssi)
  · rcases hbc with hrssi' | ⟨hrssi', hchannel'⟩
    · exact .inl (hrssi ▸ hrssi')
    · refine .inr ⟨hrssi.trans hrssi', ?_⟩
      rcases hchannel with hlt | ⟨heq, hrate⟩
      · rcases hchannel' with hlt' | ⟨heq', -⟩
        · exact .inl (Int16.lt_trans hlt hlt')
        · exact .inl (heq' ▸ hlt)
      · rcases hchannel' with hlt' | ⟨heq', hrate'⟩
        · exact .inl (heq ▸ hlt')
        · exact .inr ⟨heq.trans heq', UInt32.le_trans hrate' hrate⟩

section Order

variable {info entry : RtWlanInfo}

/-- The report goes before an entry only if it may stand there. -/
theorem ranked_of_sortsBefore (hinfo : info.rssi < 0) (hentry : entry.rssi < 0)
    (h : sortsBefore info entry = true) : Ranked info entry := by
  unfold sortsBefore at h
  split_ifs at h with hrssi hchannel
  · exact .inl (of_decide_eq_true h)
  · have heq : info.rssi = entry.rssi := by
      by_contra hne
      exact hrssi ⟨⟨hinfo, hentry⟩, hne⟩
    exact .inr ⟨heq, .inl (of_decide_eq_true h)⟩
  · have heq : info.rssi = entry.rssi := by
      by_contra hne
      exact hrssi ⟨⟨hinfo, hentry⟩, hne⟩
    exact .inr ⟨heq, .inr ⟨not_not.mp hchannel, UInt32.le_of_lt (of_decide_eq_true h)⟩⟩

/-- It passes an entry only if the entry may stand before it. -/
theorem ranked_of_not_sortsBefore (hinfo : info.rssi < 0) (hentry : entry.rssi < 0)
    (h : sortsBefore info entry = false) : Ranked entry info := by
  unfold sortsBefore at h
  split_ifs at h with hrssi hchannel
  · have hle : info.rssi ≤ entry.rssi := Int16.not_lt.mp (of_decide_eq_false h)
    exact .inl (Int16.lt_of_le_of_ne hle hrssi.2)
  · have heq : info.rssi = entry.rssi := by
      by_contra hne
      exact hrssi ⟨⟨hinfo, hentry⟩, hne⟩
    have hle : entry.channel ≤ info.channel := Int16.not_lt.mp (of_decide_eq_false h)
    exact .inr ⟨heq.symm, .inl (Int16.lt_of_le_of_ne hle fun hc => hchannel hc.symm)⟩
  · have heq : info.rssi = entry.rssi := by
      by_contra hne
      exact hrssi ⟨⟨hinfo, hentry⟩, hne⟩
    exact .inr ⟨heq.symm, .inr ⟨(not_not.mp hchannel).symm,
      UInt32.not_lt.mp (of_decide_eq_false h)⟩⟩

end Order

section Place

variable {info entry : RtWlanInfo} {rest : List RtWlanInfo}

theorem scanPlace_same (i : Nat) (insert : Option Nat) (h : SameAp info entry) :
    scanPlace info i insert (entry :: rest) = none :=
  if_pos h

theorem scanPlace_some (i place : Nat) (h : ¬ SameAp info entry) :
    scanPlace info i (some place) (entry :: rest) = scanPlace info (i + 1) (some place) rest :=
  if_neg h

theorem scanPlace_none (i : Nat) (h : ¬ SameAp info entry) :
    scanPlace info i none (entry :: rest) =
      scanPlace info (i + 1) (if sortsBefore info entry then some i else none) rest :=
  if_neg h

end Place

/-- Once the place is known, the loop looks for a duplicate only. -/
theorem scanPlace_found (info : RtWlanInfo) (place : Nat) (entries : List RtWlanInfo) (i : Nat) :
    scanPlace info i (some place) entries =
      if ∃ entry ∈ entries, SameAp info entry then none else some (some place) := by
  induction entries generalizing i with
  | nil => simp [scanPlace]
  | cons entry rest ih =>
    simp only [List.exists_mem_cons_iff]
    by_cases hsame : SameAp info entry
    · rw [scanPlace_same i _ hsame, if_pos (.inl hsame)]
    · rw [scanPlace_some i place hsame, ih]
      simp only [hsame, false_or]

/-- The loop finds a duplicate if there is one, else the first entry that the report goes
before. -/
theorem scanPlace_eq (info : RtWlanInfo) (entries : List RtWlanInfo) (i : Nat) :
    scanPlace info i none entries =
      if ∃ entry ∈ entries, SameAp info entry then none
      else if entries.any (sortsBefore info) then
        some (some (i + entries.findIdx (sortsBefore info)))
      else some none := by
  induction entries generalizing i with
  | nil => simp [scanPlace]
  | cons entry rest ih =>
    simp only [List.exists_mem_cons_iff]
    by_cases hsame : SameAp info entry
    · rw [scanPlace_same i _ hsame, if_pos (.inl hsame)]
    · rw [scanPlace_none i hsame]
      simp only [hsame, false_or, List.any_cons, List.findIdx_cons]
      cases hbefore : sortsBefore info entry with
      | true => simp only [if_true, scanPlace_found, Bool.true_or, cond_true, Nat.add_zero]
      | false =>
        rw [if_neg Bool.false_ne_true, ih, Bool.false_or]
        simp only [cond_false, Nat.add_assoc, Nat.add_comm 1]

/-- The place is that of `placed`. -/
theorem scanPlace_insert {info : RtWlanInfo} {entries : List RtWlanInfo} {insert : Option Nat}
    (h : scanPlace info 0 none entries = some insert) :
    (∀ entry ∈ entries, ¬ SameAp info entry) ∧
      insert.getD entries.length = entries.findIdx (sortsBefore info) := by
  rw [scanPlace_eq] at h
  split_ifs at h with hdup hany
  · obtain rfl := Option.some.inj h
    exact ⟨fun entry hmem hsame => hdup ⟨entry, hmem, hsame⟩, Nat.zero_add _⟩
  · obtain rfl := Option.some.inj h
    refine ⟨fun entry hmem hsame => hdup ⟨entry, hmem, hsame⟩, ?_⟩
    rw [Option.getD_none, eq_comm, List.findIdx_eq_length]
    intro entry hmem
    by_contra hbefore
    exact hany (List.any_eq_true.mpr ⟨entry, hmem, Bool.of_not_eq_false hbefore⟩)

/-! ## One call -/

section Call

variable {result : RtWlanScanResult}

/-- What a call can do to a table that is counted right: nothing, or place a new report. -/
theorem CacheCall.run_cases (call : CacheCall) (hcounted : result.num = result.table.length) :
    ((call.run result).2 = result ∨
      ∃ info, call.info = some info ∧ (∀ entry ∈ result.table, ¬ SameAp info entry) ∧
        result.num < rtWlanScanCacheNum ∧ (call.run result).1 = 0 ∧
        (call.run result).2 =
          ⟨result.num + 1, some (placed (sortsBefore info) info result.table)⟩) := by
  cases hinfo : call.info with
  | none => exact .inl (by rw [CacheCall.run, hinfo]; rfl)
  | some info =>
    have htake : (result.info.getD []).take result.num = result.table :=
      List.take_of_length_le hcounted.ge
    simp only [CacheCall.run, wifiScanResultCache, hinfo, htake]
    split
    · exact .inl rfl
    · split
      · exact .inl rfl
      · cases hplace : scanPlace info 0 none result.table with
        | none => exact .inl rfl
        | some insert =>
          obtain ⟨hnew, hinsert⟩ := scanPlace_insert hplace
          rw [← hcounted] at hinsert
          dsimp only
          split
          · exact .inl rfl
          next hroom =>
            split
            · exact .inl rfl
            · refine .inr ⟨info, rfl, hnew, Nat.lt_of_not_le hroom, rfl, ?_⟩
              rw [hinsert]
              rfl

theorem callKeeps (call : CacheCall) (hcounted : result.num = result.table.length) :
    CallKeeps call result := by
  rcases call.run_cases hcounted with hsame | ⟨info, hinfo, hnew, -, hok, hplaced⟩
  · exact ⟨by rw [hsame], fun _ => hsame, fun _ _ _ => hsame, fun h => absurd hsame h⟩
  · have hne : (0 : Int) ≠ -rtENoMem := by decide
    refine ⟨?_, fun h => absurd (hok.symm.trans h) hne, fun info' hinfo' hdup => ?_, fun _ => ?_⟩
    · rw [hplaced]
      exact sublist_placed result.table
    · obtain rfl : info = info' := Option.some.inj (hinfo.symm.trans hinfo')
      obtain ⟨entry, hmem, hsame⟩ := hdup
      exact absurd hsame (hnew entry hmem)
    · refine ⟨info, result.table.findIdx (sortsBefore info), hinfo, ?_⟩
      rw [hplaced]
      dsimp only
      rw [hcounted, map_copied _ _ List.findIdx_le_length]
      rfl

/-- The part of `TableRight` that the next call builds on, with the signals it has been
given. -/
structure TableInv (result : RtWlanScanResult) : Prop extends TableRight result where
  weak : ∀ entry ∈ result.table, entry.rssi < 0

theorem SameAp.symm {a b : RtWlanInfo} (h : SameAp a b) : SameAp b a := ⟨h.1.symm, h.2.symm⟩

theorem TableInv.run (h : TableInv result) (call : CacheCall)
    (hrssi : ∀ info, call.info = some info → info.rssi < 0) : TableInv (call.run result).2 := by
  rcases call.run_cases h.counted with hsame | ⟨info, hinfo, hnew, hroom, -, hplaced⟩
  · rw [hsame]
    exact h
  · have hweak : info.rssi < 0 := hrssi info hinfo
    rw [hplaced]
    refine ⟨⟨?_, hroom, ?_, ?_⟩, fun entry hmem => ?_⟩
    · rw [h.counted]
      exact (length_placed _).symm
    · exact pairwise_placed_of_forall h.distinct hnew
        fun entry hmem hsame => hnew entry hmem hsame.symm
    · exact pairwise_placed (R := Ranked) Ranked.trans h.ranked
        (fun entry hmem => ranked_of_sortsBefore hweak (h.weak entry hmem))
        (fun entry hmem => ranked_of_not_sortsBefore hweak (h.weak entry hmem))
    · rcases mem_placed.mp hmem with rfl | hold
      · exact hweak
      · exact h.weak entry hold

end Call

/-! ## All calls -/

theorem tableInv_empty : TableInv .empty where
  counted := rfl
  bounded := Nat.zero_le _
  distinct := List.Pairwise.nil
  ranked := List.Pairwise.nil
  weak := fun _ hmem => absurd hmem List.not_mem_nil

theorem TableInv.calls {result : RtWlanScanResult} (h : TableInv result) (calls : List CacheCall)
    (hrssi : ∀ call ∈ calls, ∀ info, call.info = some info → info.rssi < 0) :
    TableInv (cacheCalls calls result) := by
  induction calls generalizing result with
  | nil => exact h
  | cons call rest ih =>
    exact ih (h.run call (hrssi call List.mem_cons_self))
      fun call' hmem => hrssi call' (List.mem_cons_of_mem call hmem)

theorem TableInv.sublist {result : RtWlanScanResult} (h : TableInv result)
    (calls : List CacheCall)
    (hrssi : ∀ call ∈ calls, ∀ info, call.info = some info → info.rssi < 0) :
    result.table.Sublist (cacheCalls calls result).table := by
  induction calls generalizing result with
  | nil => exact List.Sublist.refl _
  | cons call rest ih =>
    have hstep := (callKeeps call h.counted).kept
    exact hstep.trans (ih (h.run call (hrssi call List.mem_cons_self))
      fun call' hmem => hrssi call' (List.mem_cons_of_mem call hmem))

/-- A clean empties the table, whatever was done with it before. -/
theorem clean_of_ops (ops : List TableOp) :
    wifiScanResultClean (ops.foldl TableOp.run .empty) = .empty := by
  have hrun : ∀ result : RtWlanScanResult, (result.num = 0 → result = .empty) →
      (ops.foldl TableOp.run result).num = 0 → ops.foldl TableOp.run result = .empty := by
    induction ops with
    | nil =>
      intro result h
      exact h
    | cons op rest ih =>
      intro result h
      apply ih
      cases op with
      | cache call => exact wifiScanResultCache_counted call.filter call.alloc call.info h
      | clean => exact fun _ => wifiScanResultClean_empty h
  exact wifiScanResultClean_empty (hrun _ fun _ => rfl)

theorem cacheCalls_append (before after : List CacheCall) (result : RtWlanScanResult) :
    cacheCalls (before ++ after) result = cacheCalls after (cacheCalls before result) :=
  List.foldl_append

/-- After a clean the table is right after any calls, keeps what earlier calls have stored,
and every next call keeps what it must. -/
theorem scanTable_right (ops : List TableOp) (calls : List CacheCall)
    (hrssi : ∀ call ∈ calls, ∀ info, call.info = some info → info.rssi < 0) :
    TableRight (cacheCalls calls (wifiScanResultClean (ops.foldl TableOp.run .empty))) ∧
    (∀ before after, calls = before ++ after →
      (cacheCalls before (wifiScanResultClean (ops.foldl TableOp.run .empty))).table.Sublist
        (cacheCalls calls (wifiScanResultClean (ops.foldl TableOp.run .empty))).table) ∧
    ∀ call : CacheCall,
      CallKeeps call (cacheCalls calls (wifiScanResultClean (ops.foldl TableOp.run .empty))) := by
  rw [clean_of_ops]
  have hinv := tableInv_empty.calls calls hrssi
  refine ⟨hinv.toTableRight, ?_, fun call => callKeeps call hinv.counted⟩
  rintro before after rfl
  rw [cacheCalls_append]
  have hbefore := tableInv_empty.calls before
    fun call hmem => hrssi call (List.mem_append_left after hmem)
  exact hbefore.sublist after fun call hmem => hrssi call (List.mem_append_right before hmem)

/-- The report of an access point with this address, signal and channel. -/
def sampleReport (address : UInt8) (rssi channel : Int16) : CacheCall where
  filter := none
  alloc := true
  info := some { ssidFilter [97] with
    bssid := Vector.replicate _ address, rssi := rssi, channel := channel }

/-- Reports out of order, one of them twice. -/
def sampleReports : List CacheCall :=
  [sampleReport 1 (-70) 6, sampleReport 2 (-50) 11, sampleReport 1 (-40) 6,
    sampleReport 3 (-50) 1]

theorem scanTable_right_reports :
    TableRight (cacheCalls sampleReports (wifiScanResultClean
      ([TableOp.cache (sampleReport 9 (-30) 6)].foldl TableOp.run .empty))) := by
  have hrssi : ∀ call ∈ sampleReports, ∀ info, call.info = some info → info.rssi < 0 := by
    simp only [sampleReports, sampleReport, List.forall_mem_cons, Option.some.injEq,
      forall_eq']
    decide
  exact (scanTable_right _ sampleReports hrssi).1

example : ((cacheCalls sampleReports .empty).table.map fun entry => (entry.rssi, entry.channel)) =
    [(-50, 1), (-50, 11), (-70, 6)] := by
  decide

end Gd32Vw553h.Wlan.ScanCmd
