/-
  Wlan/CfgMemory.lean --- the memory that the saved networks take
  (`components/drivers/wlan/dev_wlan_cfg.c`).

  `Wlan/Cfg.lean` has the list of the entries; this file has the blocks they stand in.
  Deleting copies into a block of its own, which `rt_malloc` refuses when it would be
  empty.  `rt_wlan_cfg_read` hands `rt_memcpy` its arguments in the wrong order.
  Refreshing reads a block of `len` bytes, and computes the length behind the header
  before anything has checked `len`; the comparisons of SSIDs take their length from
  the entries.

  A read behind the end of a block has no result (`none`).
-/
import Gd32Vw553h.Foundation.BlockReads
import Gd32Vw553h.Wlan.Cfg
import Mathlib.Data.List.GetD
import Mathlib.Logic.Function.Basic
import Mathlib.Logic.Relation
import Mathlib.Order.Defs.LinearOrder
import Mathlib.Tactic.SplitIfs

set_option autoImplicit false

namespace Gd32Vw553h.Wlan.CfgMemory

open Gd32Vw553h.Foundation Gd32Vw553h.Klibc

/-! ## Deleting an entry -/

section Delete

/-- What `rt_malloc` of so many bytes finds: no block, or one with these entries in it. -/
abbrev Allocator : Type := Nat → Option (Nat → RtWlanCfgInfo)

/-- `rt_malloc`, where no block of no bytes is found (`rt_smem_alloc`). -/
def rtMalloc (find : Allocator) (size : Nat) : Option (Nat → RtWlanCfgInfo) :=
  if size = 0 then none else find size

/-- The copy loop of `rt_wlan_cfg_delete_index`, from entry `i` on. -/
def copyData (index : Nat) : CfgCache → Nat → (Nat → RtWlanCfgInfo) → Nat → RtWlanCfgInfo
  | [], _, cfgInfo => cfgInfo
  | e :: rest, i, cfgInfo =>
    copyData index rest (i + 1)
      (if i < index then Function.update cfgInfo i e
      else if i > index then Function.update cfgInfo (i - 1) e
      else cfgInfo)

/-- `rt_wlan_cfg_delete_index` -/
def deleteIndex (find : Allocator) (index : Int) (cfgCache : Option CfgCache) : Int × CfgCache :=
  let cache := rtWlanCfgInit cfgCache
  if index < 0 then (-1, cache)
  else if index ≥ cache.length then (-1, cache)
  else
    match rtMalloc find (cfgInfoCodec.width * (cache.length - 1)) with
    | none => (-1, cache)
    | some cfgInfo =>
      (0, (List.range (cache.length - 1)).map (copyData index.toNat cache 0 cfgInfo))

/-- The entry is gone and the others keep their order; otherwise nothing changes. -/
structure DeleteRight (find : Allocator) (cache : CfgCache) (index : Int) : Prop where
  deleted : 0 ≤ index → index < cache.length →
    deleteIndex find index (some cache) = (0, cache.eraseIdx index.toNat)
  refused : index < 0 ∨ cache.length ≤ index ∨ (deleteIndex find index (some cache)).1 = -1 →
    (deleteIndex find index (some cache)).2 = cache

variable {find : Allocator} {cache : CfgCache} {index : Int}

/-- Cell `k` of the new block: the entries before the deleted one keep their places, those
behind it move down one place. -/
theorem copyData_apply (index : Nat) (rest : CfgCache) (i : Nat) (cfgInfo : Nat → RtWlanCfgInfo)
    (k : Nat) :
    copyData index rest i cfgInfo k =
      if k < index then (if k < i then cfgInfo k else rest.getD (k - i) (cfgInfo k))
      else if k + 1 < i then cfgInfo k else rest.getD (k + 1 - i) (cfgInfo k) := by
  induction rest generalizing i cfgInfo with
  | nil => simp only [copyData, List.getD_nil, ite_self]
  | cons e rest ih =>
    rw [copyData, ih]
    -- what entry `i` itself does to cell `k`
    have hcell : (if i < index then Function.update cfgInfo i e
        else if i > index then Function.update cfgInfo (i - 1) e else cfgInfo) k =
        if k < index then (if k = i then e else cfgInfo k)
        else if k + 1 = i then e else cfgInfo k := by
      by_cases hi : i < index
      · rw [if_pos hi, Function.update_apply]
        split_ifs <;> first | rfl | omega
      · rw [if_neg hi]
        by_cases hi' : i > index
        · rw [if_pos hi', Function.update_apply]
          split_ifs <;> first | rfl | omega
        · rw [if_neg hi']
          split_ifs <;> first | rfl | omega
    rw [hcell]
    by_cases hk : k < index
    · simp only [if_pos hk]
      rcases lt_trichotomy k i with hlt | rfl | hgt
      · rw [if_pos (show k < i + 1 by omega), if_pos hlt, if_neg (show ¬ k = i by omega)]
      · rw [if_pos (Nat.lt_succ_self k), if_pos rfl, if_neg (Nat.lt_irrefl k), Nat.sub_self,
          List.getD_cons_zero]
      · have hstep : k - i = k - (i + 1) + 1 := by omega
        rw [if_neg (show ¬ k < i + 1 by omega), if_neg (show ¬ k < i by omega),
          if_neg (show ¬ k = i by omega), hstep, List.getD_cons_succ]
    · simp only [if_neg hk]
      rcases lt_trichotomy (k + 1) i with hlt | rfl | hgt
      · rw [if_pos (show k + 1 < i + 1 by omega), if_pos hlt, if_neg (show ¬ k + 1 = i by omega)]
      · rw [if_pos (Nat.lt_succ_self (k + 1)), if_pos rfl, if_neg (Nat.lt_irrefl (k + 1)),
          Nat.sub_self, List.getD_cons_zero]
      · have hstep : k + 1 - i = k + 1 - (i + 1) + 1 := by omega
        rw [if_neg (show ¬ k + 1 < i + 1 by omega), if_neg (show ¬ k + 1 < i by omega),
          if_neg (show ¬ k + 1 = i by omega), hstep, List.getD_cons_succ]

/-- The loop copies all entries but one. -/
theorem map_copyData (cache : CfgCache) {index : Nat} (hindex : index < cache.length)
    (cfgInfo : Nat → RtWlanCfgInfo) :
    (List.range (cache.length - 1)).map (copyData index cache 0 cfgInfo) =
      cache.eraseIdx index := by
  apply List.ext_getElem
  · rw [List.length_map, List.length_range, List.length_eraseIdx_of_lt hindex]
  · intro k hk hk'
    rw [List.length_map, List.length_range] at hk
    rw [List.getElem_map, List.getElem_range, copyData_apply, List.getElem_eraseIdx]
    by_cases hbefore : k < index
    · rw [if_pos hbefore, if_neg (Nat.not_lt_zero k), dif_pos hbefore, Nat.sub_zero,
        List.getD_eq_getElem _ _ (by omega)]
    · rw [if_neg hbefore, if_neg (Nat.not_lt_zero _), dif_neg hbefore, Nat.sub_zero,
        List.getD_eq_getElem _ _ (by omega)]

theorem deleteIndex_found {cfgInfo : Nat → RtWlanCfgInfo} (hpos : 0 ≤ index)
    (hlt : index < cache.length)
    (hmalloc : rtMalloc find (cfgInfoCodec.width * (cache.length - 1)) = some cfgInfo) :
    deleteIndex find index (some cache) = (0, cache.eraseIdx index.toNat) := by
  have hinit : rtWlanCfgInit (some cache) = cache := rfl
  simp only [deleteIndex, hinit]
  rw [if_neg (by omega), if_neg (by omega), hmalloc]
  dsimp only
  rw [map_copyData cache (by omega)]

theorem deleteIndex_none (hpos : 0 ≤ index) (hlt : index < cache.length)
    (hmalloc : rtMalloc find (cfgInfoCodec.width * (cache.length - 1)) = none) :
    deleteIndex find index (some cache) = (-1, cache) := by
  have hinit : rtWlanCfgInit (some cache) = cache := rfl
  simp only [deleteIndex, hinit]
  rw [if_neg (by omega), if_neg (by omega), hmalloc]

theorem deleteIndex_outside (hout : index < 0 ∨ cache.length ≤ index) :
    deleteIndex find index (some cache) = (-1, cache) := by
  have hinit : rtWlanCfgInit (some cache) = cache := rfl
  simp only [deleteIndex, hinit]
  by_cases hneg : index < 0
  · rw [if_pos hneg]
  · rw [if_neg hneg, if_pos (by omega)]

/-- A call fails and changes nothing, or it deletes the entry. -/
theorem deleteIndex_cases (find : Allocator) (cache : CfgCache) (index : Int) :
    deleteIndex find index (some cache) = (-1, cache) ∨
      deleteIndex find index (some cache) = (0, cache.eraseIdx index.toNat) := by
  by_cases hout : index < 0 ∨ cache.length ≤ index
  · exact .inl (deleteIndex_outside hout)
  · obtain ⟨hpos, hlt⟩ := not_or.mp hout
    cases hmalloc : rtMalloc find (cfgInfoCodec.width * (cache.length - 1)) with
    | none => exact .inl (deleteIndex_none (by omega) (by omega) hmalloc)
    | some cfgInfo => exact .inr (deleteIndex_found (by omega) (by omega) hmalloc)

/-- Where `rt_malloc` serves every request for a byte or more, deleting is right unless the
entry is the only one. -/
theorem deleteRight_iff (hfind : ∀ size, size ≠ 0 → (find size).isSome = true) (cache : CfgCache)
    (index : Int) : DeleteRight find cache index ↔ ¬ (cache.length = 1 ∧ index = 0) := by
  have hne : (-1 : Int) ≠ 0 := by decide
  constructor
  · rintro h ⟨hone, rfl⟩
    have hempty : rtMalloc find (cfgInfoCodec.width * (cache.length - 1)) = none := by
      rw [hone]
      rfl
    have hdeleted := h.deleted (by omega) (by omega)
    rw [deleteIndex_none (by omega) (by omega) hempty] at hdeleted
    exact absurd (congrArg Prod.fst hdeleted) hne
  · intro hnot
    refine ⟨fun hpos hlt => ?_, fun hrefused => ?_⟩
    · have hsize : cfgInfoCodec.width * (cache.length - 1) ≠ 0 := by
        rw [cfgInfoCodec_width]
        omega
      obtain ⟨cfgInfo, hsome⟩ := Option.isSome_iff_exists.mp (hfind _ hsize)
      have hmalloc : rtMalloc find (cfgInfoCodec.width * (cache.length - 1)) = some cfgInfo := by
        rw [rtMalloc, if_neg hsize, hsome]
      exact deleteIndex_found hpos hlt hmalloc
    · rcases deleteIndex_cases find cache index with hsame | hdone
      · rw [hsame]
      · rw [hdone] at hrefused ⊢
        rcases hrefused with hneg | hbig | hfail
        · rw [deleteIndex_outside (.inl hneg)] at hdone
          exact absurd (congrArg Prod.fst hdone) hne
        · rw [deleteIndex_outside (.inr hbig)] at hdone
          exact absurd (congrArg Prod.fst hdone) hne
        · exact absurd hfail.symm hne

/-- An allocator that serves every request. -/
def anyBlock : Allocator := fun _ => some fun _ => sampleNetwork 0 0

/-- The middle one of three networks. -/
theorem deleteRight_middle :
    DeleteRight anyBlock [sampleNetwork 97 1, sampleNetwork 98 6, sampleNetwork 99 11] 1 :=
  (deleteRight_iff (fun _ _ => rfl) _ 1).mpr (by decide)

/-- The only network is not deleted. -/
theorem not_deleteRight : deleteIndex anyBlock 0 (some [sampleNetwork 97 1]) =
    (-1, [sampleNetwork 97 1]) ∧ ¬ DeleteRight anyBlock [sampleNetwork 97 1] 0 :=
  ⟨rfl, fun h => absurd (congrArg Prod.fst (h.deleted (by decide) (by decide))) (by decide)⟩

/-- Such an allocator makes the list that `Wlan/Cfg.lean` has. -/
theorem deleteIndex_refines (hfind : ∀ size, size ≠ 0 → (find size).isSome = true)
    (cfgCache : Option CfgCache) :
    deleteIndex find index cfgCache = rtWlanCfgDeleteIndex index cfgCache := by
  have hsome : deleteIndex find index cfgCache =
      deleteIndex find index (some (rtWlanCfgInit cfgCache)) := rfl
  rw [hsome]
  simp only [rtWlanCfgDeleteIndex]
  generalize rtWlanCfgInit cfgCache = cache
  by_cases hneg : index < 0
  · rw [if_pos hneg, deleteIndex_outside (.inl hneg)]
  · by_cases hbig : index ≥ cache.length
    · rw [if_neg hneg, if_pos hbig, deleteIndex_outside (.inr hbig)]
    · rw [if_neg hneg, if_neg hbig]
      by_cases hzero : cfgInfoCodec.width * (cache.length - 1) = 0
      · have hnone : rtMalloc find (cfgInfoCodec.width * (cache.length - 1)) = none := if_pos hzero
        rw [if_pos hzero, deleteIndex_none (by omega) (by omega) hnone]
      · obtain ⟨cfgInfo, hcfgInfo⟩ := Option.isSome_iff_exists.mp (hfind _ hzero)
        have hmalloc : rtMalloc find (cfgInfoCodec.width * (cache.length - 1)) = some cfgInfo :=
          (if_neg hzero).trans hcfgInfo
        rw [if_neg hzero, deleteIndex_found (by omega) (by omega) hmalloc]

end Delete

/-! ## Reading entries -/

section Read

/-- `rt_memcpy` of `n` entries, which both blocks have. -/
def rtMemcpy (dst src : CfgCache) (n : Nat) : CfgCache := src.take n ++ dst.drop n

/-- `rt_wlan_cfg_read`: the result, the buffer and the cache. -/
def rtWlanCfgRead (cfgInfo : Option CfgCache) (num : Int) (cfgCache : Option CfgCache) :
    Int × Option CfgCache × CfgCache :=
  let cache := rtWlanCfgInit cfgCache
  match cfgInfo with
  | none => (0, none, cache)
  | some buf =>
    if num ≤ 0 then (0, some buf, cache)
    else
      let num := if (cache.length : Int) > num then num else cache.length
      (num, some buf, rtMemcpy cache buf num.toNat)

/-- `rt_wlan_cfg_read_index`: the result and the entry. -/
def rtWlanCfgReadIndex (index : Int) (cfgCache : Option CfgCache) : Int × Option RtWlanCfgInfo :=
  let cache := rtWlanCfgInit cfgCache
  if index < 0 then (0, none)
  else if index ≥ cache.length then (0, none)
  else (1, cache[index.toNat]?)

/-- The first entries are in the buffer, and the cache is as it was. -/
structure ReadRight (buf : CfgCache) (num : Int) (cache : CfgCache) : Prop where
  result : (rtWlanCfgRead (some buf) num (some cache)).1 = min num cache.length
  filled : ∃ filled, (rtWlanCfgRead (some buf) num (some cache)).2.1 = some filled ∧
    ∀ i : Nat, (i : Int) < (rtWlanCfgRead (some buf) num (some cache)).1 →
      rtWlanCfgReadIndex i (some cache) = (1, filled[i]?)
  kept : (rtWlanCfgRead (some buf) num (some cache)).2.2 = cache

variable {buf cache : CfgCache} {num : Int}

theorem rtWlanCfgRead_eq (hnum : 0 < num) :
    rtWlanCfgRead (some buf) num (some cache) =
      (min num cache.length, some buf, rtMemcpy cache buf (min num cache.length).toNat) := by
  have hinit : rtWlanCfgInit (some cache) = cache := rfl
  have hmin : (if (cache.length : Int) > num then num else cache.length) =
      min num cache.length := by
    split <;> omega
  simp only [rtWlanCfgRead, hinit]
  rw [if_neg (by omega), hmin]

theorem rtWlanCfgReadIndex_eq {i : Nat} (hi : i < cache.length) :
    rtWlanCfgReadIndex i (some cache) = (1, cache[i]?) := by
  have hinit : rtWlanCfgInit (some cache) = cache := rfl
  simp only [rtWlanCfgReadIndex, hinit]
  rw [if_neg (by omega), if_neg (by omega), Int.toNat_natCast]

/-- A copy in the wrong direction goes unnoticed exactly if it changes nothing: the buffer
starts with the entries it is to be filled with. -/
theorem readRight_iff (buf cache : CfgCache) (num : Int) (hnum : 0 < num) :
    ReadRight buf num cache ↔
      buf.take (min num cache.length).toNat = cache.take (min num cache.length).toNat := by
  have heq : rtWlanCfgRead (some buf) num (some cache) =
      (min num cache.length, some buf, rtMemcpy cache buf (min num cache.length).toNat) :=
    rtWlanCfgRead_eq hnum
  constructor
  · intro h
    obtain ⟨filled, hfilled, hentries⟩ := h.filled
    rw [heq] at hfilled hentries
    obtain rfl : buf = filled := Option.some.inj hfilled
    apply List.ext_getElem?
    intro i
    rw [List.getElem?_take, List.getElem?_take]
    by_cases hi : i < (min num cache.length).toNat
    · have hentry := hentries i (by omega)
      rw [rtWlanCfgReadIndex_eq (by omega)] at hentry
      rw [if_pos hi, if_pos hi]
      exact (congrArg Prod.snd hentry).symm
    · rw [if_neg hi, if_neg hi]
  · intro hsame
    refine ⟨by rw [heq], ⟨buf, by rw [heq], fun i hi => ?_⟩, ?_⟩
    · rw [heq] at hi
      have hentry := congrArg (fun l : CfgCache => l[i]?) hsame
      dsimp only at hi hentry
      rw [List.getElem?_take_of_lt (by omega), List.getElem?_take_of_lt (by omega)] at hentry
      rw [rtWlanCfgReadIndex_eq (by omega), hentry]
    · rw [heq]
      show rtMemcpy cache buf (min num cache.length).toNat = cache
      rw [rtMemcpy, hsame, List.take_append_drop]

/-- A buffer that holds the entry already. -/
theorem readRight_same : ReadRight [sampleNetwork 97 1] 1 [sampleNetwork 97 1] :=
  (readRight_iff [sampleNetwork 97 1] [sampleNetwork 97 1] 1 (by decide)).mpr rfl

/-- A buffer of zeros becomes the saved network. -/
theorem not_readRight :
    rtWlanCfgRead (some [sampleNetwork 0 0]) 1 (some [sampleNetwork 97 1]) =
      (1, some [sampleNetwork 0 0], [sampleNetwork 0 0]) ∧
    ¬ ReadRight [sampleNetwork 0 0] 1 [sampleNetwork 97 1] := by
  refine ⟨rfl, fun h => ?_⟩
  have hkept := h.kept
  revert hkept
  decide +kernel

end Read

/-! ## Refreshing -/

section Refresh

/-- What a refresh meets: `cfg_ops`, where a null pointer is `none`, and which requests for
memory are served.  `readCfg len` is the return value and the bytes of the block then. -/
structure RefreshEnv where
  getLen : Option Int
  readCfg : Option (Int → Int × List UInt8)
  malloc : Nat → Bool
  realloc : Nat → Bool

/-- Where `info.ssid.val` is in an entry. -/
abbrev ssidVal : Nat := 17

/-- Where entry `j` of the cache is in its block. -/
abbrev cachedOffset (j : Nat) : Nat := cfgInfoCodec.width * j

/-- Where stored entry `i` is in the blob. -/
abbrev storedOffset (i : Nat) : Nat := headCodec.width + cfgInfoCodec.width * i

/-- Stored entry `i`. -/
def storedAt (blob : List UInt8) (i : Nat) : Option RtWlanCfgInfo :=
  (readBytes blob (storedOffset i) cfgInfoCodec.width).map cfgInfoCodec.decode

/-- The comparison of SSID values in the search loop. -/
def sameSsid (block blob : List UInt8) (i j : Nat) (cached : RtWlanCfgInfo) : Option Bool :=
  compareBytes block (cachedOffset j + ssidVal) blob (storedOffset i + ssidVal)
    cached.info.ssid.len.toNat

/-- The search loop: `equal_flag` when it ends. -/
def equalFlag (block blob : List UInt8) (i : Nat) (e : RtWlanCfgInfo) :
    CfgCache → Nat → Option Bool
  | [], _ => some false
  | cached :: rest, j =>
    if cached.info.ssid.len = e.info.ssid.len then
      match sameSsid block blob i j cached with
      | none => none
      | some same =>
        if same = true ∧ cached.info.bssid = e.info.bssid then some true
        else equalFlag block blob i e rest (j + 1)
    else equalFlag block blob i e rest (j + 1)

/-- The merge loop, over `n` stored entries from number `i` on. -/
def mergeStored (env : RefreshEnv) (blob : List UInt8) :
    Nat → Nat → CfgCache → Option (Int × CfgCache)
  | 0, _, cache => some (0, cache)
  | n + 1, i, cache =>
    match storedAt blob i with
    | none => none
    | some e =>
      match equalFlag (cfgInfoCodec.encodeAll cache) blob i e cache 0 with
      | none => none
      | some equal =>
        if cache.length ≥ rtWlanCfgInfoMax then some (0, cache)
        else if equal = true then mergeStored env blob n (i + 1) cache
        else if env.realloc (cfgInfoCodec.width * (cache.length + 1)) = true then
          mergeStored env blob n (i + 1) (cache ++ [e])
        else some (-rtError, cache)

/-- The number of bytes behind the header, as the 32-bit subtraction gives it. -/
def dataLen (len : Int) : Nat := ((len - headCodec.width) % 2 ^ 32).toNat

/-- The header passes the check. -/
def HeadOk (head : CfgSaveInfoHead) (len : Int) (crc : UInt16) : Prop :=
  head.magic = rtWlanCfgMagic ∧ head.len = UInt32.ofNat len.toNat ∧
    head.num = UInt32.ofNat (dataLen len / cfgInfoCodec.width) ∧ head.crc = crc.toUInt32

instance (head : CfgSaveInfoHead) (len : Int) (crc : UInt16) : Decidable (HeadOk head len crc) :=
  inferInstanceAs (Decidable (_ ∧ _ ∧ _ ∧ _))

/-- `rt_wlan_cfg_cache_refresh` with its reads.  A negative `len` of `rt_wlan_cal_crc` counts
down through all 32-bit values. -/
def cacheRefresh (env : RefreshEnv) : Option CfgCache → Option (Int × Option CfgCache)
  | none => some (-rtError, none)
  | some cache =>
    if cache.length ≥ rtWlanCfgInfoMax then some (-rtError, some cache)
    else
      match env.getLen, env.readCfg with
      | some len, some readCfg =>
        if len ≤ 0 ∨ env.malloc len.toNat = false ∨ (readCfg len).1 ≠ len then
          some (-rtError, some cache)
        else
          let blob := (readCfg len).2
          match foldBytes crcByte blob headCodec.width (dataLen len) 0,
            readBytes blob 0 headCodec.width with
          | some crc, some bytes =>
            let head := headCodec.decode bytes
            if HeadOk head len crc then
              (mergeStored env blob head.num.toNat 0 cache).map fun r => (r.1, some r.2)
            else some (-rtError, some cache)
          | _, _ => none
      | _, _ => some (-rtError, some cache)

/-- A refresh reads inside its blocks, and a failed one keeps what was cached. -/
def RefreshSafe (env : RefreshEnv) (cache : CfgCache) : Prop :=
  ∃ ret cache', cacheRefresh env (some cache) = some (ret, some cache') ∧
    (ret ≠ 0 → ∀ i < cache.length, cache'[i]? = cache[i]?)

/-! ### The search loop -/

variable {env : RefreshEnv} {block blob : List UInt8} {cache cache' : CfgCache} {i j n : Nat}
  {e : RtWlanCfgInfo}

/-- Entry `j` of the cache is found to be the stored one. -/
def FoundAt (block blob : List UInt8) (i j : Nat) (e cached : RtWlanCfgInfo) : Prop :=
  cached.info.ssid.len = e.info.ssid.len ∧ sameSsid block blob i j cached = some true ∧
    cached.info.bssid = e.info.bssid

/-- The comparisons up to the first hit end inside the two blocks. -/
def ScanInside (block blob : List UInt8) (i : Nat) (e : RtWlanCfgInfo) (rest : CfgCache)
    (j : Nat) : Prop :=
  ∀ k cached, rest[k]? = some cached → cached.info.ssid.len = e.info.ssid.len →
    (∀ k' < k, ∀ earlier, rest[k']? = some earlier → ¬ FoundAt block blob i (j + k') e earlier) →
    CompareInside block (cachedOffset (j + k) + ssidVal) blob (storedOffset i + ssidVal)
      cached.info.ssid.len.toNat

theorem scanInside_cons {cached : RtWlanCfgInfo} {rest : CfgCache} :
    ScanInside block blob i e (cached :: rest) j ↔
      (cached.info.ssid.len = e.info.ssid.len →
        CompareInside block (cachedOffset j + ssidVal) blob (storedOffset i + ssidVal)
          cached.info.ssid.len.toNat) ∧
      (¬ FoundAt block blob i j e cached → ScanInside block blob i e rest (j + 1)) := by
  constructor
  · intro h
    refine ⟨fun hlen => h 0 cached rfl hlen fun k' hk' => absurd hk' (Nat.not_lt_zero k'),
      fun hnot k other hget hlen hearlier => ?_⟩
    have hindex : j + 1 + k = j + (k + 1) := by omega
    rw [hindex]
    refine h (k + 1) other hget hlen fun k' hk' earlier hget' => ?_
    cases k' with
    | zero =>
      obtain rfl : cached = earlier := Option.some.inj hget'
      exact hnot
    | succ k' =>
      have hnot' := hearlier k' (by omega) earlier hget'
      rwa [show j + 1 + k' = j + (k' + 1) by omega] at hnot'
  · rintro ⟨hfirst, hrest⟩ k other hget hlen hearlier
    cases k with
    | zero =>
      obtain rfl : cached = other := Option.some.inj hget
      exact hfirst hlen
    | succ k =>
      have hnot : ¬ FoundAt block blob i j e cached :=
        hearlier 0 (Nat.succ_pos k) cached rfl
      have hinside := hrest hnot k other hget hlen fun k' hk' earlier hget' => by
        have hnot' := hearlier (k' + 1) (by omega) earlier hget'
        rwa [show j + (k' + 1) = j + 1 + k' by omega] at hnot'
      rwa [show j + 1 + k = j + (k + 1) by omega] at hinside

theorem equalFlag_isSome_iff {rest : CfgCache}
    (hblock : cfgInfoCodec.width * (j + rest.length) ≤ block.length)
    (hblob : storedOffset i + cfgInfoCodec.width ≤ blob.length) :
    (equalFlag block blob i e rest j).isSome = true ↔ ScanInside block blob i e rest j := by
  induction rest generalizing j with
  | nil =>
    refine iff_of_true rfl fun k cached hget => ?_
    rw [List.getElem?_nil] at hget
    cases hget
  | cons cached rest ih =>
    rw [List.length_cons] at hblock
    have hnext := ih (j := j + 1) (by rw [Nat.add_right_comm]; exact hblock)
    have hwidth : ssidVal ≤ cfgInfoCodec.width := by decide
    have hstart : cachedOffset j + ssidVal ≤ block.length := by
      rw [Nat.mul_add, Nat.mul_add] at hblock
      have hoffset : cachedOffset j = cfgInfoCodec.width * j := rfl
      omega
    have hcompare := @compareBytes_isSome_iff _ _ block blob (cachedOffset j + ssidVal)
      (storedOffset i + ssidVal) cached.info.ssid.len.toNat hstart (by omega)
    rw [scanInside_cons, equalFlag]
    by_cases hlen : cached.info.ssid.len = e.info.ssid.len
    · rw [if_pos hlen]
      cases hsame : sameSsid block blob i j cached with
      | none =>
        rw [sameSsid] at hsame
        rw [hsame] at hcompare
        exact iff_of_false Bool.noConfusion fun h => Bool.noConfusion (hcompare.mpr (h.1 hlen))
      | some same =>
        have hresult := hsame
        rw [sameSsid] at hresult
        rw [hresult] at hcompare
        have hinside := hcompare.mp rfl
        dsimp only
        by_cases hfound : same = true ∧ cached.info.bssid = e.info.bssid
        · obtain ⟨rfl, hbssid⟩ := hfound
          rw [if_pos ⟨rfl, hbssid⟩]
          exact iff_of_true rfl ⟨fun _ => hinside, fun hnot => absurd ⟨hlen, hsame, hbssid⟩ hnot⟩
        · have hnot : ¬ FoundAt block blob i j e cached := by
            rintro ⟨-, hsame', hbssid⟩
            exact hfound ⟨Option.some.inj (hsame.symm.trans hsame'), hbssid⟩
          rw [if_neg hfound, hnext]
          exact ⟨fun h => ⟨fun _ => hinside, fun _ => h⟩, fun h => h.2 hnot⟩
    · have hnot : ¬ FoundAt block blob i j e cached := fun h => hlen h.1
      rw [if_neg hlen, hnext]
      exact ⟨fun h => ⟨fun hsame => absurd hsame hlen, fun _ => h⟩, fun h => h.2 hnot⟩

/-! ### The merge loop -/

/-- Stored entry `i` has been merged into the cache: the loop goes on with the next one. -/
def MergeStep (env : RefreshEnv) (blob : List UInt8) (p q : Nat × CfgCache) : Prop :=
  p.2.length < rtWlanCfgInfoMax ∧ ∃ e equal, storedAt blob p.1 = some e ∧
    equalFlag (cfgInfoCodec.encodeAll p.2) blob p.1 e p.2 0 = some equal ∧
    (equal = false → env.realloc (cfgInfoCodec.width * (p.2.length + 1)) = true) ∧
    q = (p.1 + 1, if equal = true then p.2 else p.2 ++ [e])

/-- The loop comes to entry `i` with this cache. -/
abbrev MergeReaches (env : RefreshEnv) (blob : List UInt8) : Nat × CfgCache → Nat × CfgCache → Prop :=
  Relation.ReflTransGen (MergeStep env blob)

theorem MergeReaches.le {p q : Nat × CfgCache} (h : MergeReaches env blob p q) : p.1 ≤ q.1 := by
  induction h with
  | refl => exact Nat.le_refl _
  | tail _ hstep ih =>
    obtain ⟨-, e, equal, -, -, -, rfl⟩ := hstep
    exact Nat.le_succ_of_le ih

/-- The search for stored entry `p.1` in the cache `p.2` ends inside the blocks. -/
def SearchInside (blob : List UInt8) (p : Nat × CfgCache) : Prop :=
  ∀ e, storedAt blob p.1 = some e → ScanInside (cfgInfoCodec.encodeAll p.2) blob p.1 e p.2 0

/-- Every search that the loop comes to ends inside the blocks. -/
def SearchesInside (env : RefreshEnv) (blob : List UInt8) (p : Nat × CfgCache) (num : Nat) : Prop :=
  ∀ q, MergeReaches env blob p q → q.1 < num → SearchInside blob q

theorem storedAt_isSome (hblob : storedOffset (i + 1) ≤ blob.length) :
    (storedAt blob i).isSome = true := by
  have hnext : storedOffset (i + 1) = storedOffset i + cfgInfoCodec.width := by
    show headCodec.width + cfgInfoCodec.width * (i + 1) = _
    rw [Nat.mul_succ, Nat.add_assoc]
  rw [hnext] at hblob
  rw [storedAt, readBytes, if_pos hblob]
  rfl

theorem storedAt_inside (h : storedAt blob i = some e) :
    storedOffset i + cfgInfoCodec.width ≤ blob.length := by
  unfold storedAt readBytes at h
  by_contra hout
  rw [if_neg hout] at h
  cases h

theorem equalFlag_some_iff (h : storedAt blob i = some e) :
    (equalFlag (cfgInfoCodec.encodeAll cache) blob i e cache 0).isSome = true ↔
      ScanInside (cfgInfoCodec.encodeAll cache) blob i e cache 0 := by
  refine equalFlag_isSome_iff ?_ (storedAt_inside h)
  rw [cfgInfoCodec.encodeAll_length, Nat.zero_add]

theorem searchesInside_of_stuck {p : Nat × CfgCache} {num : Nat} (hself : SearchInside blob p)
    (hno : ∀ next, ¬ MergeStep env blob p next) : SearchesInside env blob p num := by
  intro q hreach _
  rcases hreach.cases_head with rfl | ⟨next, hstep, -⟩
  · exact hself
  · exact absurd hstep (hno next)

theorem searchesInside_step {p next : Nat × CfgCache} {num : Nat} (hself : SearchInside blob p)
    (hstep : MergeStep env blob p next) (honly : ∀ q, MergeStep env blob p q → q = next) :
    SearchesInside env blob next num ↔ SearchesInside env blob p num := by
  constructor
  · intro h q hreach hlt
    rcases hreach.cases_head with rfl | ⟨mid, hmid, hrest⟩
    · exact hself
    · rw [honly mid hmid] at hrest
      exact h q hrest hlt
  · intro h q hreach hlt
    exact h q (.head hstep hreach) hlt

theorem mergeStep_unique {equal : Bool} {p q : Nat × CfgCache} (he : storedAt blob p.1 = some e)
    (hequal : equalFlag (cfgInfoCodec.encodeAll p.2) blob p.1 e p.2 0 = some equal)
    (hstep : MergeStep env blob p q) :
    (equal = false → env.realloc (cfgInfoCodec.width * (p.2.length + 1)) = true) ∧
      q = (p.1 + 1, if equal = true then p.2 else p.2 ++ [e]) := by
  obtain ⟨-, e', equal', he', hequal', hserved, hq⟩ := hstep
  obtain rfl : e = e' := Option.some.inj (he.symm.trans he')
  obtain rfl : equal = equal' := Option.some.inj (hequal.symm.trans hequal')
  exact ⟨hserved, hq⟩

theorem mergeStored_isSome_iff (hblob : storedOffset (i + n) ≤ blob.length) :
    (mergeStored env blob n i cache).isSome = true ↔
      SearchesInside env blob (i, cache) (i + n) := by
  induction n generalizing i cache with
  | zero =>
    refine iff_of_true rfl fun q hreach hlt => ?_
    exact absurd hreach.le (Nat.not_le_of_lt hlt)
  | succ n ih =>
    have hindex : i + (n + 1) = i + 1 + n := by omega
    have hfirst : storedOffset (i + 1) ≤ blob.length :=
      (Nat.add_le_add_left (Nat.mul_le_mul_left _ (by omega)) _).trans hblob
    obtain ⟨e, he⟩ := Option.isSome_iff_exists.mp (storedAt_isSome hfirst)
    have hscan : (equalFlag (cfgInfoCodec.encodeAll cache) blob i e cache 0).isSome = true ↔
        ScanInside (cfgInfoCodec.encodeAll cache) blob i e cache 0 := equalFlag_some_iff he
    simp only [mergeStored, he]
    cases hequal : equalFlag (cfgInfoCodec.encodeAll cache) blob i e cache 0 with
    | none =>
      rw [hequal] at hscan
      refine iff_of_false Bool.noConfusion fun h => ?_
      exact Bool.noConfusion (hscan.mpr (h (i, cache) .refl (by dsimp only; omega) e he))
    | some equal =>
      rw [hequal] at hscan
      have hself : SearchInside blob (i, cache) := by
        intro e' he'
        obtain rfl : e = e' := Option.some.inj (he.symm.trans he')
        exact hscan.mp rfl
      dsimp only
      by_cases hfull : cache.length ≥ rtWlanCfgInfoMax
      · rw [if_pos hfull]
        refine iff_of_true rfl (searchesInside_of_stuck hself fun next hnext => ?_)
        exact absurd hnext.1 (Nat.not_lt_of_le hfull)
      · rw [if_neg hfull]
        cases equal with
        | true =>
          have hstep : MergeStep env blob (i, cache) (i + 1, cache) :=
            ⟨Nat.lt_of_not_le hfull, e, true, he, hequal, fun h => absurd h Bool.noConfusion, rfl⟩
          rw [if_pos rfl, ih (by rwa [← hindex]), ← hindex]
          refine searchesInside_step hself hstep fun q hq => ?_
          have hnext := mergeStep_unique he hequal hq
          exact hnext.2
        | false =>
          rw [if_neg Bool.false_ne_true]
          by_cases hrealloc : env.realloc (cfgInfoCodec.width * (cache.length + 1)) = true
          · have hstep : MergeStep env blob (i, cache) (i + 1, cache ++ [e]) :=
              ⟨Nat.lt_of_not_le hfull, e, false, he, hequal, fun _ => hrealloc, rfl⟩
            rw [if_pos hrealloc, ih (by rwa [← hindex]), ← hindex]
            refine searchesInside_step hself hstep fun q hq => ?_
            have hnext := mergeStep_unique he hequal hq
            exact hnext.2
          · rw [if_neg hrealloc]
            refine iff_of_true rfl (searchesInside_of_stuck hself fun next hnext => ?_)
            have hserved := mergeStep_unique he hequal hnext
            exact hrealloc (hserved.1 rfl)

/-- What was cached stays at the front. -/
theorem mergeStored_begins {ret : Int} (h : mergeStored env blob n i cache = some (ret, cache')) :
    cache <+: cache' := by
  induction n generalizing i cache with
  | zero =>
    obtain rfl : cache = cache' := congrArg Prod.snd (Option.some.inj h)
    exact List.prefix_rfl
  | succ n ih =>
    simp only [mergeStored] at h
    split at h
    next => cases h
    next e he =>
      split at h
      next => cases h
      next equal hequal =>
        split at h
        next =>
          obtain rfl : cache = cache' := congrArg Prod.snd (Option.some.inj h)
          exact List.prefix_rfl
        next =>
          split at h
          next => exact ih h
          next =>
            split at h
            next => exact (List.prefix_append cache [e]).trans (ih h)
            next =>
              obtain rfl : cache = cache' := congrArg Prod.snd (Option.some.inj h)
              exact List.prefix_rfl

/-! ### The whole refresh -/

/-- The header of the blob passes the check. -/
def BlobAccepted (blob : List UInt8) : Prop :=
  HeadOk (headCodec.decode (blob.take headCodec.width)) blob.length
    (rtWlanCalCrc (blob.drop headCodec.width))

instance (blob : List UInt8) : Decidable (BlobAccepted blob) :=
  inferInstanceAs (Decidable (HeadOk _ _ _))

/-- The blob is what `get_len` and `read_cfg` say. -/
structure Reports (env : RefreshEnv) (blob : List UInt8) : Prop where
  getLen : env.getLen = some (blob.length : Int)
  readCfg : ∃ readCfg, env.readCfg = some readCfg ∧
    readCfg blob.length = ((blob.length : Int), blob)

theorem dataLen_long (hlong : headCodec.width ≤ blob.length) (hlen : blob.length < 2 ^ 31) :
    dataLen blob.length = blob.length - headCodec.width := by
  rw [dataLen]
  omega

theorem cacheRefresh_reports (hreports : Reports env blob) (hpos : 0 < blob.length)
    (hroom : cache.length < rtWlanCfgInfoMax) (hmalloc : env.malloc blob.length = true) :
    cacheRefresh env (some cache) =
      match foldBytes crcByte blob headCodec.width (dataLen blob.length) 0,
        readBytes blob 0 headCodec.width with
      | some crc, some bytes =>
        if HeadOk (headCodec.decode bytes) blob.length crc then
          (mergeStored env blob (headCodec.decode bytes).num.toNat 0 cache).map
            fun r => (r.1, some r.2)
        else some (-rtError, some cache)
      | _, _ => none := by
  obtain ⟨hgetLen, readCfg, hreadCfg, hgot⟩ := hreports
  have hserved : ¬ ((blob.length : Int) ≤ 0 ∨ env.malloc (blob.length : Int).toNat = false ∨
      (blob.length : Int) ≠ blob.length) := by
    rw [Int.toNat_natCast, hmalloc]
    rintro (hle | hfalse | hne)
    · omega
    · cases hfalse
    · exact hne rfl
  simp only [cacheRefresh, if_neg (Nat.not_le_of_lt hroom), hgetLen, hreadCfg, hgot]
  exact if_neg hserved

/-- A blob that is shorter than the header is read behind its end. -/
theorem cacheRefresh_short (hreports : Reports env blob) (hpos : 0 < blob.length)
    (hroom : cache.length < rtWlanCfgInfoMax) (hmalloc : env.malloc blob.length = true)
    (hshort : blob.length < headCodec.width) : cacheRefresh env (some cache) = none := by
  have hhead : readBytes blob 0 headCodec.width = none := if_neg (by omega)
  rw [cacheRefresh_reports hreports hpos hroom hmalloc, hhead]
  split
  next => contradiction
  next => rfl

theorem cacheRefresh_long (hreports : Reports env blob) (hlen : blob.length < 2 ^ 31)
    (hroom : cache.length < rtWlanCfgInfoMax) (hmalloc : env.malloc blob.length = true)
    (hlong : headCodec.width ≤ blob.length) :
    cacheRefresh env (some cache) =
      if BlobAccepted blob then
        (mergeStored env blob ((blob.length - headCodec.width) / cfgInfoCodec.width) 0 cache).map
          fun r => (r.1, some r.2)
      else some (-rtError, some cache) := by
  have hpos : 0 < blob.length := lt_of_lt_of_le (by decide) hlong
  have hdata := dataLen_long hlong hlen
  have hhead : readBytes blob 0 headCodec.width = some (blob.take headCodec.width) := by
    rw [readBytes, Nat.zero_add, if_pos hlong, List.drop_zero]
  have hcrc : foldBytes crcByte blob headCodec.width (dataLen blob.length) 0 =
      some (rtWlanCalCrc (blob.drop headCodec.width)) := by
    rw [foldBytes_inside (by omega), hdata, ← List.length_drop, List.take_length]
    rfl
  rw [cacheRefresh_reports hreports hpos hroom hmalloc, hhead, hcrc]
  dsimp only
  by_cases haccepted : BlobAccepted blob
  · have hnum : (headCodec.decode (blob.take headCodec.width)).num.toNat =
        (blob.length - headCodec.width) / cfgInfoCodec.width := by
      have hle := Nat.div_le_self (blob.length - headCodec.width) cfgInfoCodec.width
      rw [haccepted.2.2.1, hdata, UInt32.toNat_ofNat_of_lt' (by rw [UInt32.size]; omega)]
    rw [if_pos haccepted, hnum]
    exact if_pos haccepted
  · rw [if_neg haccepted]
    exact if_neg haccepted

/-- A blob that is read is refreshed from safely exactly if it has room for the header, and,
where the header is accepted, every search that the merge comes to ends inside the blob and the
cache. -/
theorem refreshSafe_read_iff (hreports : Reports env blob) (hpos : 0 < blob.length)
    (hlen : blob.length < 2 ^ 31) (hroom : cache.length < rtWlanCfgInfoMax)
    (hmalloc : env.malloc blob.length = true) :
    RefreshSafe env cache ↔
      headCodec.width ≤ blob.length ∧ (BlobAccepted blob →
        SearchesInside env blob (0, cache)
          ((blob.length - headCodec.width) / cfgInfoCodec.width)) := by
  by_cases hlong : headCodec.width ≤ blob.length
  · have hsize : storedOffset (0 + (blob.length - headCodec.width) / cfgInfoCodec.width) ≤
        blob.length := by
      have hmul := Nat.mul_div_le (blob.length - headCodec.width) cfgInfoCodec.width
      rw [Nat.zero_add]
      show headCodec.width + cfgInfoCodec.width * _ ≤ _
      omega
    have hmerge : (mergeStored env blob ((blob.length - headCodec.width) / cfgInfoCodec.width) 0
        cache).isSome = true ↔ SearchesInside env blob (0, cache)
          (0 + (blob.length - headCodec.width) / cfgInfoCodec.width) :=
      mergeStored_isSome_iff hsize
    rw [Nat.zero_add] at hmerge
    have heq := cacheRefresh_long hreports hlen hroom hmalloc hlong
    unfold RefreshSafe
    rw [heq]
    by_cases haccepted : BlobAccepted blob
    · rw [if_pos haccepted]
      constructor
      · rintro ⟨ret, cache', hsome, -⟩
        refine ⟨hlong, fun _ => hmerge.mp ?_⟩
        obtain ⟨r, hr, -⟩ := Option.map_eq_some_iff.mp hsome
        rw [hr]
        rfl
      · rintro ⟨-, hinside⟩
        obtain ⟨⟨ret, cache'⟩, hr⟩ := Option.isSome_iff_exists.mp (hmerge.mpr (hinside haccepted))
        refine ⟨ret, cache', by rw [hr]; rfl, fun _ i hi => ?_⟩
        exact (List.prefix_iff_getElem?.mp (mergeStored_begins hr) i hi).trans
          (List.getElem?_eq_getElem hi).symm
    · rw [if_neg haccepted]
      exact iff_of_true ⟨-rtError, cache, rfl, fun _ i _ => rfl⟩
        ⟨hlong, fun h => absurd h haccepted⟩
  · have hnone := cacheRefresh_short hreports hpos hroom hmalloc (Nat.lt_of_not_le hlong)
    refine iff_of_false ?_ fun h => hlong h.1
    rintro ⟨ret, cache', hsome, -⟩
    rw [hnone] at hsome
    cases hsome

/-- A refresh is safe exactly if the cache is full, there is no memory for the blob, or the blob
is refreshed from safely. -/
theorem refreshSafe_iff (hreports : Reports env blob) (hpos : 0 < blob.length)
    (hlen : blob.length < 2 ^ 31) :
    RefreshSafe env cache ↔
      (cache.length < rtWlanCfgInfoMax → env.malloc blob.length = true →
        headCodec.width ≤ blob.length ∧ (BlobAccepted blob →
          SearchesInside env blob (0, cache)
            ((blob.length - headCodec.width) / cfgInfoCodec.width))) := by
  have hrefused : cacheRefresh env (some cache) = some (-rtError, some cache) →
      RefreshSafe env cache := fun heq => ⟨-rtError, cache, heq, fun _ _ _ => rfl⟩
  by_cases hroom : cache.length < rtWlanCfgInfoMax
  · cases hmalloc : env.malloc blob.length with
    | true =>
      rw [refreshSafe_read_iff hreports hpos hlen hroom hmalloc]
      exact ⟨fun h _ _ => h, fun h => h hroom rfl⟩
    | false =>
      refine iff_of_true (hrefused ?_) fun _ h => absurd h Bool.false_ne_true
      obtain ⟨hgetLen, readCfg, hreadCfg, -⟩ := hreports
      simp only [cacheRefresh, if_neg (Nat.not_le_of_lt hroom), hgetLen, hreadCfg]
      exact if_pos (.inr (.inl (by rw [Int.toNat_natCast, hmalloc])))
  · refine iff_of_true (hrefused ?_) fun h => absurd h hroom
    exact if_pos (Nat.le_of_not_lt hroom)

/-- SSID lengths that keep a comparison within its entry. -/
def ShortSsid (e : RtWlanCfgInfo) : Prop := ssidVal + e.info.ssid.len.toNat ≤ cfgInfoCodec.width

instance (e : RtWlanCfgInfo) : Decidable (ShortSsid e) := inferInstanceAs (Decidable (_ ≤ _))

/-- Where all cached SSIDs are short, every search ends inside. -/
theorem searchInside_of_short {p : Nat × CfgCache} (h : ∀ cached ∈ p.2, ShortSsid cached) :
    SearchInside blob p := by
  intro e he k cached hget _ _
  obtain ⟨hk, rfl⟩ := List.getElem?_eq_some_iff.mp hget
  have hshort : ssidVal + p.2[k].info.ssid.len.toNat ≤ cfgInfoCodec.width :=
    h p.2[k] (List.getElem_mem hk)
  have hblock : (cfgInfoCodec.encodeAll p.2).length = cfgInfoCodec.width * p.2.length :=
    cfgInfoCodec.encodeAll_length p.2
  have hentry : cfgInfoCodec.width * k + cfgInfoCodec.width ≤ cfgInfoCodec.width * p.2.length := by
    rw [← Nat.mul_succ]
    exact Nat.mul_le_mul_left _ hk
  have hblob := storedAt_inside he
  refine .inl ⟨?_, by omega⟩
  show cfgInfoCodec.width * (0 + k) + ssidVal + _ ≤ _
  rw [Nat.zero_add]
  omega

/-- The merge adds stored entries only. -/
theorem MergeReaches.short {p q : Nat × CfgCache} (h : MergeReaches env blob p q)
    (hcached : ∀ cached ∈ p.2, ShortSsid cached)
    (hstored : ∀ i e, storedAt blob i = some e → ShortSsid e) : ∀ cached ∈ q.2, ShortSsid cached := by
  induction h with
  | refl => exact hcached
  | @tail mid q _ hstep ih =>
    obtain ⟨-, e, equal, he, -, -, rfl⟩ := hstep
    intro cached hmem
    dsimp only at hmem
    split at hmem
    · exact ih cached hmem
    · rcases List.mem_append.mp hmem with hold | hnew
      · exact ih cached hold
      · rw [List.mem_singleton.mp hnew]
        exact hstored mid.1 e he

/-- Entries whose SSID lengths are as `rt_wlan_cfg_save` is passed them are safe. -/
theorem searchesInside_of_short (hcached : ∀ cached ∈ cache, ShortSsid cached)
    (hstored : ∀ i e, storedAt blob i = some e → ShortSsid e) (num : Nat) :
    SearchesInside env blob (0, cache) num := fun _ hreach _ =>
  searchInside_of_short (hreach.short hcached hstored)

/-- What `rt_wlan_cfg_cache_save` writes is accepted. -/
theorem blobAccepted_savedImage (hlen : cache.length ≤ rtWlanCfgInfoMax) :
    BlobAccepted (savedImage cache) := by
  have hthree : cache.length ≤ 3 := hlen
  have hsize := savedImage_length cache
  have htake : (savedImage cache).take headCodec.width = headCodec.encode (savedHead cache) :=
    List.take_left' (headCodec.encode_length _)
  have hdrop : (savedImage cache).drop headCodec.width = cfgInfoCodec.encodeAll cache :=
    List.drop_left' (headCodec.encode_length _)
  have hdata : dataLen (savedImage cache).length / cfgInfoCodec.width = cache.length := by
    rw [dataLen_long (by rw [headCodec_width]; omega) (by omega), hsize, headCodec_width,
      cfgInfoCodec_width, Nat.add_sub_cancel_left, Nat.mul_div_cancel_left _ (by decide)]
  unfold BlobAccepted
  rw [htake, hdrop, headCodec.decode_encode_self]
  refine ⟨rfl, ?_, ?_, rfl⟩
  · rw [Int.toNat_natCast, hsize]
    rfl
  · rw [hdata]
    rfl

/-- A flash area that reports `blob`, on a heap that serves every request. -/
def blobEnv (blob : List UInt8) : RefreshEnv where
  getLen := some blob.length
  readCfg := some fun len => (len, blob)
  malloc := fun _ => true
  realloc := fun _ => true

theorem blobEnv_reports (blob : List UInt8) : Reports (blobEnv blob) blob :=
  ⟨rfl, _, rfl, rfl⟩

/-- A header of zeros. -/
theorem refreshSafe_zeros : RefreshSafe (blobEnv (List.replicate 16 0)) [sampleNetwork 97 1] :=
  (refreshSafe_iff (blobEnv_reports (List.replicate 16 0)) (by decide) (by decide)).mpr
    fun _ _ => ⟨by decide, fun haccepted => absurd haccepted (by decide +kernel)⟩

/-- A network whose SSID length is beyond its array. -/
def longNetwork : RtWlanCfgInfo :=
  { sampleNetwork 97 1 with
    info := { (sampleNetwork 97 1).info with
      ssid := { (sampleNetwork 97 1).info.ssid with len := 200 } } }

/-- A blob of one byte is read behind its end, and so is one that has an SSID length of 200 and
is read twice. -/
theorem not_refreshSafe :
    cacheRefresh (blobEnv [0]) (some []) = none ∧ ¬ RefreshSafe (blobEnv [0]) [] ∧
    cacheRefresh (blobEnv (savedImage [longNetwork])) (some []) = some (0, some [longNetwork]) ∧
    cacheRefresh (blobEnv (savedImage [longNetwork])) (some [longNetwork]) = none := by
  have hnone : cacheRefresh (blobEnv [0]) (some []) = none :=
    cacheRefresh_short (blobEnv_reports [0]) (by decide) (by decide) rfl (by decide)
  have hblob := blobEnv_reports (savedImage [longNetwork])
  have haccepted : BlobAccepted (savedImage [longNetwork]) := blobAccepted_savedImage (by decide)
  refine ⟨hnone, ?_, ?_, ?_⟩
  rotate_left
  · rw [cacheRefresh_long hblob (by decide +kernel) (by decide) rfl (by decide +kernel),
      if_pos haccepted]
    decide +kernel
  · rw [cacheRefresh_long hblob (by decide +kernel) (by decide) rfl (by decide +kernel),
      if_pos haccepted]
    decide +kernel
  rintro ⟨ret, cache', hsome, -⟩
  rw [hnone] at hsome
  cases hsome

end Refresh

end Gd32Vw553h.Wlan.CfgMemory
