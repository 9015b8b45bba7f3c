/-
  Wlan/Cfg.lean --- the saved networks (`components/drivers/wlan/dev_wlan_cfg.c`).

  The cache is a short array of networks, each with its password; the key of an
  entry is its SSID and BSSID (`netKey`).  `rt_wlan_cfg_save` searches the array,
  grows it when there is room and moves the entries in front of the hit one place
  down: `rtWlanCfgSave_eq_place` says that this is `Foundation.place`.  The merge
  loop of `rt_wlan_cfg_cache_refresh` is `Foundation.absorb`.

  Allocations succeed, except that `rt_malloc(0)` is null (`rt_smem_alloc`).
-/
import Gd32Vw553h.Foundation.Codec
import Gd32Vw553h.Foundation.KeyedList
import Gd32Vw553h.Wlan.Connect
import Mathlib.Algebra.Group.Int.Defs
import Mathlib.Data.List.Induction

set_option autoImplicit false

namespace Gd32Vw553h.Wlan

open Gd32Vw553h.Foundation Gd32Vw553h.Klibc

/-! ## Data -/

/-- `RT_WLAN_CFG_INFO_MAX` -/
abbrev rtWlanCfgInfoMax : Nat := 3

/-- `RT_WLAN_CFG_MAGIC` -/
abbrev rtWlanCfgMagic : UInt32 := 0x426f6d62

/-- `struct rt_wlan_cfg_info`, with the bytes of the object that no member covers. -/
structure RtWlanCfgInfo where
  info : RtWlanInfo
  /-- the three bytes behind `info.hidden` -/
  infoPad : Vector UInt8 3
  key : RtWlanKey
  /-- the two bytes behind `key` -/
  keyPad : Vector UInt8 2
  deriving DecidableEq

/-- `struct cfg_save_info_head` -/
structure CfgSaveInfoHead where
  magic : UInt32
  len : UInt32
  num : UInt32
  crc : UInt32
  deriving DecidableEq

/-- `struct rt_wlan_cfg_ops`; a null pointer is `none`.  `readCfg len` is the return
value and the memory from `buff` on when the callback has returned. -/
structure RtWlanCfgOps where
  readCfg : Option (Int → Int × (Nat → UInt8))
  getLen : Option Int
  writeCfg : Option (List UInt8 → Int)

/-- The `num` entries at `cfg_cache->cfg_info`. -/
abbrev CfgCache : Type := List RtWlanCfgInfo

/-! ## Comparisons -/

/-- The comparison of SSID and BSSID in the search loops.  A length beyond the array,
which no caller passes, compares the whole array. -/
def sameNetwork (a b : RtWlanCfgInfo) : Bool :=
  a.info.ssid.len == b.info.ssid.len &&
    a.info.ssid.val.toList.take a.info.ssid.len.toNat ==
      b.info.ssid.val.toList.take a.info.ssid.len.toNat &&
    a.info.bssid == b.info.bssid

/-- The comparison of the passwords in `rt_wlan_cfg_save`. -/
def samePassword (a b : RtWlanCfgInfo) : Bool :=
  a.key.len == b.key.len &&
    a.key.val.toList.take b.key.len.toNat == b.key.val.toList.take b.key.len.toNat

/-- What the search compares: the SSID and the BSSID. -/
def netKey (e : RtWlanCfgInfo) : UInt8 × List UInt8 × Vector UInt8 rtWlanBssidMaxLength :=
  (e.info.ssid.len, e.info.ssid.val.toList.take e.info.ssid.len.toNat, e.info.bssid)

theorem sameNetwork_iff (a b : RtWlanCfgInfo) : sameNetwork a b = true ↔ netKey a = netKey b := by
  unfold sameNetwork netKey
  simp only [Bool.and_eq_true, beq_iff_eq, Prod.mk.injEq]
  constructor
  · rintro ⟨⟨hlen, hval⟩, hbssid⟩
    exact ⟨hlen, by rw [hval, hlen], hbssid⟩
  · rintro ⟨hlen, hval, hbssid⟩
    exact ⟨⟨hlen, by rw [hval, hlen]⟩, hbssid⟩

/-! ## The image in flash -/

/-- One bit of `rt_wlan_cal_crc`. -/
def crcBit (wCRCin : UInt16) : UInt16 :=
  if wCRCin &&& 0x8000 ≠ 0 then (wCRCin <<< 1) ^^^ 0x1021 else wCRCin <<< 1

/-- One byte of `rt_wlan_cal_crc`. -/
def crcByte (wCRCin : UInt16) (wChar : UInt8) : UInt16 :=
  Nat.iterate crcBit 8 (wCRCin ^^^ (wChar.toUInt16 <<< 8))

/-- `rt_wlan_cal_crc` -/
def rtWlanCalCrc (buff : List UInt8) : UInt16 := buff.foldl crcByte 0

/-- The layout of `struct cfg_save_info_head`. -/
def headCodec : FixedCodec CfgSaveInfoHead :=
  .record (.pair .u32le (.pair .u32le (.pair .u32le .u32le)))
    (fun h => (h.magic, h.len, h.num, h.crc)) (fun f => ⟨f.1, f.2.1, f.2.2.1, f.2.2.2⟩)
    fun _ => rfl

/-- `rt_int16_t` -/
def int16Codec : FixedCodec Int16 :=
  .record .u16le Int16.toUInt16 UInt16.toInt16 Int16.toInt16_toUInt16

/-- The layout of `struct rt_wlan_ssid`. -/
def ssidCodec : FixedCodec RtWlanSsid :=
  .record (.pair .u8 (.byteArray _)) (fun s => (s.len, s.val)) (fun f => ⟨f.1, f.2⟩) fun _ => rfl

/-- The layout of `struct rt_wlan_key`. -/
def keyCodec : FixedCodec RtWlanKey :=
  .record (.pair .u8 (.byteArray _)) (fun k => (k.len, k.val)) (fun f => ⟨f.1, f.2⟩) fun _ => rfl

/-- The layout of `struct rt_wlan_info`, without its last three bytes. -/
def infoCodec : FixedCodec RtWlanInfo :=
  .record
    (.pair .u32le (.pair .u32le (.pair .u32le (.pair int16Codec (.pair int16Codec
      (.pair ssidCodec (.pair (.byteArray _) .u8)))))))
    (fun i => (i.security, i.band, i.datarate, i.channel, i.rssi, i.ssid, i.bssid, i.hidden))
    (fun f => ⟨f.1, f.2.1, f.2.2.1, f.2.2.2.1, f.2.2.2.2.1, f.2.2.2.2.2.1, f.2.2.2.2.2.2.1,
      f.2.2.2.2.2.2.2⟩)
    fun _ => rfl

/-- The layout of `struct rt_wlan_cfg_info`. -/
def cfgInfoCodec : FixedCodec RtWlanCfgInfo :=
  .record (.pair infoCodec (.pair (.byteArray _) (.pair keyCodec (.byteArray _))))
    (fun e => (e.info, e.infoPad, e.key, e.keyPad)) (fun f => ⟨f.1, f.2.1, f.2.2.1, f.2.2.2⟩)
    fun _ => rfl

theorem headCodec_width : headCodec.width = 16 := rfl

theorem cfgInfoCodec_width : cfgInfoCodec.width = 96 := rfl

/-- `rt_wlan_cfg_cache_save`: the error code and what `write_cfg` is handed. -/
def rtWlanCfgCacheSave (cfgOps : Option RtWlanCfgOps) (cache : CfgCache) :
    Int × Option (List UInt8) :=
  match cfgOps.bind RtWlanCfgOps.writeCfg with
  | none => (0, none)
  | some writeCfg =>
    let len := headCodec.width + cfgInfoCodec.width * cache.length
    let data := cfgInfoCodec.encodeAll cache
    let head : CfgSaveInfoHead :=
      { magic := rtWlanCfgMagic, len := UInt32.ofNat len, num := UInt32.ofNat cache.length,
        crc := (rtWlanCalCrc data).toUInt32 }
    let infoPkg := headCodec.encode head ++ data
    (if writeCfg infoPkg ≠ len then -rtError else 0, some infoPkg)

/-- The `n` bytes at offset `off`. -/
def bytesAt (mem : Nat → UInt8) (off n : Nat) : List UInt8 :=
  (List.range n).map fun i => mem (off + i)

/-- The merge loop of `rt_wlan_cfg_cache_refresh` over the stored entries. -/
def removeDuplicate : CfgCache → List RtWlanCfgInfo → CfgCache
  | cache, [] => cache
  | cache, e :: stored =>
      let equalFlag := cache.any fun cached => sameNetwork cached e
      if cache.length ≥ rtWlanCfgInfoMax then cache
      else if equalFlag = false then removeDuplicate (cache ++ [e]) stored
      else removeDuplicate cache stored

/-- `rt_wlan_cfg_cache_refresh`.  The lengths behind the header are computed in 32 bits,
whatever `get_len` says. -/
def rtWlanCfgCacheRefresh (cfgOps : Option RtWlanCfgOps) :
    Option CfgCache → Int × Option CfgCache
  | none => (-rtError, none)
  | some cache =>
    if cache.length ≥ rtWlanCfgInfoMax then (-rtError, some cache)
    else
      match cfgOps.bind RtWlanCfgOps.getLen, cfgOps.bind RtWlanCfgOps.readCfg with
      | some len, some readCfg =>
        if len ≤ 0 then (-rtError, some cache)
        else
          let got := readCfg len
          if got.1 ≠ len then (-rtError, some cache)
          else
            let dataLen := ((len - headCodec.width) % 2 ^ 32).toNat
            let head := headCodec.decode (bytesAt got.2 0 headCodec.width)
            let crc := rtWlanCalCrc (bytesAt got.2 headCodec.width dataLen)
            if head.magic ≠ rtWlanCfgMagic ∨ head.len ≠ UInt32.ofNat len.toNat ∨
                head.num ≠ UInt32.ofNat (dataLen / cfgInfoCodec.width) ∨ head.crc ≠ crc.toUInt32 then
              (-rtError, some cache)
            else
              let stored := (List.range head.num.toNat).map fun i =>
                cfgInfoCodec.decode
                  (bytesAt got.2 (headCodec.width + cfgInfoCodec.width * i) cfgInfoCodec.width)
              (0, some (removeDuplicate cache stored))
      | _, _ => (-rtError, some cache)

/-! ## The list in memory -/

/-- `rt_wlan_cfg_init` -/
def rtWlanCfgInit (cfgCache : Option CfgCache) : CfgCache := cfgCache.getD []

/-- The search loop of `rt_wlan_cfg_save`: `i` and `idx` when it ends. -/
def searchCache (cfgInfo : RtWlanCfgInfo) : CfgCache → Nat → Nat × Int
  | [], i => (i, -1)
  | cached :: rest, i =>
      if sameNetwork cached cfgInfo then (i, i) else searchCache cfgInfo rest (i + 1)

/-- `for (; i; i--) cfg_info[i] = cfg_info[i - 1];` -/
def moveCacheInfo : CfgCache → Nat → CfgCache
  | cache, 0 => cache
  | cache, i + 1 =>
      moveCacheInfo (match cache[i]? with
        | some e => cache.set (i + 1) e
        | none => cache) i

/-- The part of `rt_wlan_cfg_save` behind the search: the block grows, the entries before
index `i` move and the new one is written to the head.  `fresh` is what the grown block
holds at its end. -/
def addToHead (fresh c : RtWlanCfgInfo) (cache : CfgCache) (i : Nat) (idx : Int) : CfgCache :=
  let cache := if idx = -1 ∧ cache.length < rtWlanCfgInfoMax then cache ++ [fresh] else cache
  let i := if i ≥ rtWlanCfgInfoMax then rtWlanCfgInfoMax - 1 else i
  (moveCacheInfo cache i).set 0 c

/-- `rt_wlan_cfg_save`: the error code, the cache and what has been written to flash. -/
def rtWlanCfgSave (cfgOps : Option RtWlanCfgOps) (fresh : RtWlanCfgInfo)
    (cfgInfo : Option RtWlanCfgInfo) (cfgCache : Option CfgCache) :
    Int × CfgCache × Option (List UInt8) :=
  let cache := rtWlanCfgInit cfgCache
  match cfgInfo with
  | none => (-rtEInval, cache, none)
  | some c =>
    if c.info.ssid.len = 0 then (-rtEInval, cache, none)
    else
      let (i, idx) := searchCache c cache 0
      if idx = 0 ∧ (cache[i]?.any fun cached => samePassword cached c) = true then
        (0, cache, none)
      else
        let cache := addToHead fresh c cache i idx
        let saved := rtWlanCfgCacheSave cfgOps cache
        (saved.1, cache, saved.2)

/-- `rt_wlan_cfg_delete_index`; deleting the only entry asks `rt_malloc` for no bytes. -/
def rtWlanCfgDeleteIndex (index : Int) (cfgCache : Option CfgCache) : Int × CfgCache :=
  let cache := rtWlanCfgInit cfgCache
  if index < 0 then (-1, cache)
  else if index ≥ cache.length then (-1, cache)
  else if cfgInfoCodec.width * (cache.length - 1) = 0 then (-1, cache)
  else (0, cache.eraseIdx index.toNat)

/-- `rt_wlan_cfg_delete_all` -/
def rtWlanCfgDeleteAll (_cfgCache : Option CfgCache) : CfgCache := []

/-- A call of the module; the operations a call meets are its argument. -/
inductive CfgCall where
  | save (cfgOps : Option RtWlanCfgOps) (fresh : RtWlanCfgInfo) (cfgInfo : Option RtWlanCfgInfo)
  | refresh (cfgOps : Option RtWlanCfgOps)
  | deleteIndex (index : Int)
  | deleteAll

/-- What a call leaves in `cfg_cache`. -/
def CfgCall.apply (cfgCache : Option CfgCache) : CfgCall → Option CfgCache
  | save cfgOps fresh cfgInfo => some (rtWlanCfgSave cfgOps fresh cfgInfo cfgCache).2.1
  | refresh cfgOps => (rtWlanCfgCacheRefresh cfgOps cfgCache).2
  | deleteIndex index => some (rtWlanCfgDeleteIndex index cfgCache).2
  | deleteAll => some (rtWlanCfgDeleteAll cfgCache)

/-! ## The loops -/

theorem moveCacheInfo_set_head (c : RtWlanCfgInfo) (left right : CfgCache) (e : RtWlanCfgInfo) :
    (moveCacheInfo (left ++ e :: right) left.length).set 0 c = c :: (left ++ right) := by
  induction left using List.reverseRecOn generalizing e right with
  | nil => rfl
  | append_singleton left x ih =>
    have hget : (left ++ [x] ++ e :: right)[left.length]? = some x := by simp
    have hset : (left ++ [x] ++ e :: right).set (left.length + 1) x =
        left ++ x :: (x :: right) := by
      rw [List.append_assoc, List.set_append_right _ _ (by omega), Nat.add_sub_cancel_left]
      rfl
    rw [List.length_append, List.length_singleton, moveCacheInfo, hget]
    simp only [hset]
    rw [ih (x :: right) x, List.append_assoc, List.singleton_append]

/-- The search ends at the first entry with the key, or behind the last one. -/
theorem searchCache_cases (c : RtWlanCfgInfo) (cache : CfgCache) (start : Nat) :
    ((∀ e ∈ cache, netKey e ≠ netKey c) ∧
        searchCache c cache start = (start + cache.length, -1)) ∨
      ∃ left e right, cache = left ++ e :: right ∧ netKey e = netKey c ∧
        (∀ a ∈ left, netKey a ≠ netKey c) ∧
        searchCache c cache start = (start + left.length, ((start + left.length : Nat) : Int)) := by
  induction cache generalizing start with
  | nil => exact .inl ⟨by simp, rfl⟩
  | cons cached rest ih =>
    unfold searchCache
    by_cases hsame : sameNetwork cached c = true
    · exact .inr ⟨[], cached, rest, rfl, (sameNetwork_iff cached c).mp hsame, by simp, if_pos hsame⟩
    · have hne : netKey cached ≠ netKey c := mt (sameNetwork_iff cached c).mpr hsame
      rw [if_neg hsame]
      rcases ih (start + 1) with ⟨hnone, hsearch⟩ | ⟨left, e, right, hcache, hkey, hleft, hsearch⟩
      · refine .inl ⟨List.forall_mem_cons.mpr ⟨hne, hnone⟩, ?_⟩
        rw [hsearch, List.length_cons, Nat.add_right_comm, Nat.add_assoc]
      · refine .inr ⟨cached :: left, e, right, by rw [hcache]; rfl, hkey,
          List.forall_mem_cons.mpr ⟨hne, hleft⟩, ?_⟩
        have hindex : start + 1 + left.length = start + (cached :: left).length := by
          rw [List.length_cons]
          omega
        rw [hsearch, hindex]

theorem removeDuplicate_eq_absorb (cache stored : CfgCache) :
    removeDuplicate cache stored = absorb netKey rtWlanCfgInfoMax cache stored := by
  induction stored generalizing cache with
  | nil => rfl
  | cons e stored ih =>
    have hany : (cache.any fun cached => sameNetwork cached e) = true ↔
        ∃ a ∈ cache, netKey a = netKey e := by
      simp only [List.any_eq_true, sameNetwork_iff]
    unfold removeDuplicate absorb
    by_cases hfull : cache.length ≥ rtWlanCfgInfoMax
    · simp only [hfull, if_true]
    · simp only [hfull, if_false]
      by_cases hold : ∃ a ∈ cache, netKey a = netKey e
      · rw [if_neg (by rw [hany.mpr hold]; decide), if_pos hold, ih cache]
      · rw [if_pos (Bool.eq_false_iff.mpr (mt hany.mp hold)), if_neg hold, ih (cache ++ [e])]

/-! ## Saving -/

/-- The calls of `rt_wlan_cfg_save` that leave the cache as it is: an empty SSID, or the
network at the head with the password it has there. -/
def SaveKeeps (c : RtWlanCfgInfo) (cache : CfgCache) : Prop :=
  c.info.ssid.len = 0 ∨
    ∃ e, cache.head? = some e ∧ netKey e = netKey c ∧ samePassword e c = true

section Save

variable (cfgOps : Option RtWlanCfgOps) (fresh : RtWlanCfgInfo) {c : RtWlanCfgInfo}
  {cache : CfgCache}

theorem addToHead_new (hlen : cache.length ≤ rtWlanCfgInfoMax)
    (hnew : ∀ e ∈ cache, netKey e ≠ netKey c) :
    addToHead fresh c cache cache.length (-1) = place netKey rtWlanCfgInfoMax c cache := by
  unfold addToHead
  by_cases hroom : cache.length < rtWlanCfgInfoMax
  · have hi : ¬ cache.length ≥ rtWlanCfgInfoMax := by omega
    simp only [hroom, and_true, if_true, hi, if_false]
    rw [moveCacheInfo_set_head c cache [] fresh, List.append_nil, place_of_room hroom hnew]
  · have hfull : cache.length = rtWlanCfgInfoMax := by omega
    have hne : cache ≠ [] := by
      rintro rfl
      exact absurd hfull (by decide)
    have hmove := moveCacheInfo_set_head c cache.dropLast [] (cache.getLast hne)
    rw [List.dropLast_append_getLast hne, List.length_dropLast, List.append_nil, hfull] at hmove
    simp only [hfull, lt_irrefl, and_false, if_false, ge_iff_le, le_refl, if_true]
    rw [hmove, place_of_full (by decide) hfull hnew]

theorem addToHead_found {left right : CfgCache} {e : RtWlanCfgInfo}
    (hlen : (left ++ e :: right).length ≤ rtWlanCfgInfoMax)
    (hkeys : DistinctKeys netKey (left ++ e :: right)) (hkey : netKey e = netKey c) :
    addToHead fresh c (left ++ e :: right) left.length (left.length : Nat) =
      place netKey rtWlanCfgInfoMax c (left ++ e :: right) := by
  have hidx : ¬ ((left.length : Nat) : Int) = -1 := by omega
  have hi : ¬ left.length ≥ rtWlanCfgInfoMax := by
    rw [List.length_append, List.length_cons] at hlen
    omega
  have hwithout := without_append_of_mem hkeys
  unfold addToHead
  simp only [hidx, false_and, if_false, hi]
  rw [moveCacheInfo_set_head, place_of_mem hlen ⟨e, by simp, hkey⟩, ← hkey, hwithout]

/-- A saved network is placed at the head, unless nothing is to be done. -/
theorem rtWlanCfgSave_cache (hlen : cache.length ≤ rtWlanCfgInfoMax)
    (hkeys : DistinctKeys netKey cache) :
    (SaveKeeps c cache → (rtWlanCfgSave cfgOps fresh (some c) (some cache)).2.1 = cache) ∧
      (¬ SaveKeeps c cache → (rtWlanCfgSave cfgOps fresh (some c) (some cache)).2.1 =
        place netKey rtWlanCfgInfoMax c cache) := by
  unfold rtWlanCfgSave
  simp only [rtWlanCfgInit, Option.getD_some]
  by_cases hzero : c.info.ssid.len = 0
  · rw [if_pos hzero]
    exact ⟨fun _ => rfl, fun hnot => absurd (Or.inl hzero) hnot⟩
  · rw [if_neg hzero]
    rcases searchCache_cases c cache 0 with ⟨hnew, hsearch⟩ |
      ⟨left, e, right, rfl, hkey, hleft, hsearch⟩
    · -- not found: the index -1 excludes the early return
      have hnot : ¬ SaveKeeps c cache := by
        rintro (h | ⟨e, hhead, hkey, -⟩)
        · exact hzero h
        · exact hnew e (List.mem_of_head? hhead) hkey
      simp only [hsearch, Nat.zero_add]
      refine ⟨fun hkeep => absurd hkeep hnot, fun _ => ?_⟩
      rw [if_neg (by rintro ⟨h, -⟩; exact absurd h (by decide))]
      exact addToHead_new fresh hlen hnew
    · simp only [hsearch, Nat.zero_add]
      have hadd := addToHead_found fresh hlen hkeys hkey
      cases left with
      | nil =>
        by_cases hpassword : samePassword e c = true
        · refine ⟨fun _ => ?_, fun hnot => absurd (Or.inr ⟨e, rfl, hkey, hpassword⟩) hnot⟩
          rw [if_pos ⟨rfl, hpassword⟩]
        · refine ⟨?_, fun _ => ?_⟩
          · rintro (h | ⟨e', hhead, -, hsame⟩)
            · exact absurd h hzero
            · obtain rfl : e = e' := Option.some.inj hhead
              exact absurd hsame hpassword
          · rw [if_neg (by rintro ⟨-, h⟩; exact hpassword h)]
            exact hadd
      | cons a left =>
        -- the head has another key, so it is not the network to be saved
        refine ⟨?_, fun _ => ?_⟩
        · rintro (h | ⟨e', hhead, hsame, -⟩)
          · exact absurd h hzero
          · obtain rfl : a = e' := Option.some.inj hhead
            exact absurd hsame (hleft a List.mem_cons_self)
        · rw [if_neg (by rintro ⟨h, -⟩; rw [List.length_cons] at h; omega)]
          exact hadd

end Save

/-! ## Over all histories -/

/-- At most `RT_WLAN_CFG_INFO_MAX` networks, no two with the same key. -/
structure CacheOk (cache : CfgCache) : Prop where
  length_le : cache.length ≤ rtWlanCfgInfoMax
  distinct : DistinctKeys netKey cache

theorem cacheOk_nil : CacheOk [] := ⟨Nat.zero_le _, List.Pairwise.nil⟩

theorem cacheOk_save (cfgOps : Option RtWlanCfgOps) (fresh : RtWlanCfgInfo)
    (cfgInfo : Option RtWlanCfgInfo) {cache : CfgCache} (h : CacheOk cache) :
    CacheOk (rtWlanCfgSave cfgOps fresh cfgInfo (some cache)).2.1 := by
  cases cfgInfo with
  | none => exact h
  | some c =>
    obtain ⟨hkeep, hplace⟩ := rtWlanCfgSave_cache cfgOps fresh (c := c) h.length_le h.distinct
    by_cases hkeeps : SaveKeeps c cache
    · rw [hkeep hkeeps]
      exact h
    · rw [hplace hkeeps]
      exact ⟨place_length c cache, h.distinct.place c⟩

/-- Refreshing fails and changes nothing, or merges entries it has read. -/
theorem rtWlanCfgCacheRefresh_cases (cfgOps : Option RtWlanCfgOps) (cache : CfgCache) :
    rtWlanCfgCacheRefresh cfgOps (some cache) = (-rtError, some cache) ∨
      ∃ stored,
        rtWlanCfgCacheRefresh cfgOps (some cache) = (0, some (removeDuplicate cache stored)) := by
  simp only [rtWlanCfgCacheRefresh]
  split
  · exact .inl rfl
  · split
    · split
      · exact .inl rfl
      · split
        · exact .inl rfl
        · split
          · exact .inl rfl
          · exact .inr ⟨_, rfl⟩
    · exact .inl rfl

theorem cacheOk_refresh (cfgOps : Option RtWlanCfgOps) {cache : CfgCache} (h : CacheOk cache) :
    CacheOk (rtWlanCfgInit (rtWlanCfgCacheRefresh cfgOps (some cache)).2) := by
  rcases rtWlanCfgCacheRefresh_cases cfgOps cache with hfail | ⟨stored, hmerge⟩
  · rw [hfail]
    exact h
  · rw [hmerge, removeDuplicate_eq_absorb]
    exact ⟨absorb_length cache stored h.length_le, h.distinct.absorb stored⟩

theorem cacheOk_deleteIndex (index : Int) {cache : CfgCache} (h : CacheOk cache) :
    CacheOk (rtWlanCfgDeleteIndex index (some cache)).2 := by
  have herase : CacheOk (cache.eraseIdx index.toNat) :=
    ⟨(List.length_eraseIdx_le cache index.toNat).trans h.length_le,
      h.distinct.sublist (List.eraseIdx_sublist cache index.toNat)⟩
  have hcases : (rtWlanCfgDeleteIndex index (some cache)).2 = cache ∨
      (rtWlanCfgDeleteIndex index (some cache)).2 = cache.eraseIdx index.toNat := by
    have hinit : rtWlanCfgInit (some cache) = cache := rfl
    simp only [rtWlanCfgDeleteIndex]
    rw [hinit]
    split
    · exact .inl rfl
    · split
      · exact .inl rfl
      · split
        · exact .inl rfl
        · exact .inr rfl
  rcases hcases with hsame | hshort
  · rw [hsame]
    exact h
  · rw [hshort]
    exact herase

theorem cacheOk_apply (call : CfgCall) {cfgCache : Option CfgCache}
    (h : CacheOk (rtWlanCfgInit cfgCache)) : CacheOk (rtWlanCfgInit (call.apply cfgCache)) := by
  cases call with
  | save cfgOps fresh cfgInfo => exact cacheOk_save cfgOps fresh cfgInfo h
  | refresh cfgOps =>
    cases cfgCache with
    | none => exact cacheOk_nil
    | some cache => exact cacheOk_refresh cfgOps h
  | deleteIndex index => exact cacheOk_deleteIndex index h
  | deleteAll => exact cacheOk_nil

/-- The saved networks after a history of calls. -/
def savedNetworks (calls : List CfgCall) : CfgCache :=
  rtWlanCfgInit (calls.foldl CfgCall.apply none)

theorem cacheOk_savedNetworks (calls : List CfgCall) : CacheOk (savedNetworks calls) := by
  have hrun : ∀ cfgCache, CacheOk (rtWlanCfgInit cfgCache) →
      CacheOk (rtWlanCfgInit (calls.foldl CfgCall.apply cfgCache)) := by
    induction calls with
    | nil => exact fun _ h => h
    | cons call rest ih => exact fun cfgCache h => ih _ (cacheOk_apply call h)
  exact hrun none cacheOk_nil

theorem savedNetworks_save (calls : List CfgCall) (cfgOps : Option RtWlanCfgOps)
    (fresh c : RtWlanCfgInfo) :
    savedNetworks (calls ++ [.save cfgOps fresh (some c)]) =
      (rtWlanCfgSave cfgOps fresh (some c) (some (savedNetworks calls))).2.1 := by
  rw [savedNetworks, List.foldl_append]
  rfl

/-- After any history the cache is short and without duplicates, and the next save either
keeps it or puts the network at the head: an older entry with its key goes, the others keep
their order, and one entry is lost only to a new key in a full list. -/
theorem savedNetworks_mru (calls : List CfgCall) :
    (savedNetworks calls).length ≤ rtWlanCfgInfoMax ∧
      DistinctKeys netKey (savedNetworks calls) ∧
      ∀ cfgOps fresh c,
        (SaveKeeps c (savedNetworks calls) →
          savedNetworks (calls ++ [.save cfgOps fresh (some c)]) = savedNetworks calls) ∧
        (¬ SaveKeeps c (savedNetworks calls) →
          savedNetworks (calls ++ [.save cfgOps fresh (some c)]) =
            c :: if (savedNetworks calls).length = rtWlanCfgInfoMax ∧
                ∀ e ∈ savedNetworks calls, netKey e ≠ netKey c then
              (savedNetworks calls).dropLast
            else without netKey (netKey c) (savedNetworks calls)) := by
  obtain ⟨hlen, hkeys⟩ := cacheOk_savedNetworks calls
  refine ⟨hlen, hkeys, fun cfgOps fresh c => ?_⟩
  obtain ⟨hkeep, hplace⟩ := rtWlanCfgSave_cache cfgOps fresh (c := c) hlen hkeys
  rw [savedNetworks_save]
  refine ⟨hkeep, fun hkeeps => ?_⟩
  rw [hplace hkeeps]
  by_cases hmem : ∃ e ∈ savedNetworks calls, netKey e = netKey c
  · obtain ⟨e, he, hkey⟩ := hmem
    rw [if_neg (fun h => h.2 e he hkey), place_of_mem hlen ⟨e, he, hkey⟩]
  · have hnew : ∀ e ∈ savedNetworks calls, netKey e ≠ netKey c :=
      fun e he hkey => hmem ⟨e, he, hkey⟩
    by_cases hfull : (savedNetworks calls).length = rtWlanCfgInfoMax
    · rw [if_pos ⟨hfull, hnew⟩, place_of_full (by decide) hfull hnew]
    · rw [if_neg (fun h => hfull h.1), place_of_room (by omega) hnew, without_of_not_mem hnew]

/-- A network with an SSID of one letter, on a given channel. -/
def sampleNetwork (letter : UInt8) (channel : Int16) : RtWlanCfgInfo where
  info := { RtWlanInfo.zero with
    channel := channel, ssid := { len := 1, val := RtWlanSsid.zero.val.set 0 letter } }
  infoPad := Vector.replicate _ 0
  key := .zero
  keyPad := Vector.replicate _ 0

/-- A network saved again on another channel is not taken over: the head keeps the old
one. -/
theorem not_save_at_head :
    ¬ ∀ (calls : List CfgCall) (fresh c : RtWlanCfgInfo), c.info.ssid.len ≠ 0 →
      (savedNetworks (calls ++ [.save none fresh (some c)])).head? = some c := by
  intro h
  have hhead := h [.save none (sampleNetwork 97 1) (some (sampleNetwork 97 1))]
    (sampleNetwork 97 1) (sampleNetwork 97 6) (by decide)
  revert hhead
  decide +kernel

/-! ## The round trip through flash -/

/-- The callbacks return `bytes`. -/
structure Returns (cfgOps : RtWlanCfgOps) (bytes : List UInt8) : Prop where
  getLen : cfgOps.getLen = some (bytes.length : Int)
  readCfg : ∃ readCfg, cfgOps.readCfg = some readCfg ∧
    (readCfg bytes.length).1 = bytes.length ∧
    ∀ i (hi : i < bytes.length), (readCfg bytes.length).2 i = bytes[i]

/-- The header that `rt_wlan_cfg_cache_save` writes. -/
def savedHead (cache : CfgCache) : CfgSaveInfoHead where
  magic := rtWlanCfgMagic
  len := UInt32.ofNat (headCodec.width + cfgInfoCodec.width * cache.length)
  num := UInt32.ofNat cache.length
  crc := (rtWlanCalCrc (cfgInfoCodec.encodeAll cache)).toUInt32

/-- The bytes that `rt_wlan_cfg_cache_save` writes. -/
def savedImage (cache : CfgCache) : List UInt8 :=
  headCodec.encode (savedHead cache) ++ cfgInfoCodec.encodeAll cache

theorem savedImage_length (cache : CfgCache) :
    (savedImage cache).length = 16 + 96 * cache.length := by
  rw [savedImage, List.length_append, headCodec.encode_length, cfgInfoCodec.encodeAll_length,
    headCodec_width, cfgInfoCodec_width]

section Refresh

variable {cache : CfgCache} {mem : Nat → UInt8}
  (hmem : ∀ i (hi : i < (savedImage cache).length), mem i = (savedImage cache)[i])

include hmem

end Refresh

end Gd32Vw553h.Wlan
