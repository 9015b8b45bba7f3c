/-
  Provision/WebPage.lean --- `applications/ble_wifi_provision.html`: the page that
  writes the credentials.

  The page writes `JSON.stringify({ ssid, pwd })` and a newline as UTF-8 in slices
  of 20 bytes.  `JSON.stringify` is modelled with all its escapes.  For strings
  without control characters the document is the text of a JSON object
  (`jsonStringify_eq_objectText`), it fits the line buffer (`jsonStringify_length_le`),
  and the device stores exactly the two strings (`webPage_round_trip`).
-/
import Gd32Vw553h.Json.Object
import Gd32Vw553h.Provision.Framing

set_option autoImplicit false

namespace Gd32Vw553h.Provision

open Gd32Vw553h.Foundation Gd32Vw553h.Klibc Gd32Vw553h.Json

/-! ## The page -/

/-- `CHUNK_SIZE` -/
abbrev chunkSize : Nat := 20

/-- The loop of `writeChunks` from `offset` on: the slices it writes. -/
def writeChunksFrom (bytes : List UInt8) (offset : Nat) : List (List UInt8) :=
  if offset < bytes.length then
    (bytes.drop offset).take chunkSize :: writeChunksFrom bytes (offset + chunkSize)
  else []
termination_by bytes.length - offset
decreasing_by
  have : 0 < chunkSize := by decide
  omega

/-- `writeChunks` -/
def writeChunks (bytes : List UInt8) : List (List UInt8) := writeChunksFrom bytes 0

/-- The escape `\uXXXX` of a code below 65536. -/
def unicodeEscape (n : Nat) : List Char :=
  Char.ofNat 0x5c :: 'u' ::
    [n / 4096 % 16, n / 256 % 16, n / 16 % 16, n % 16].map Nat.digitChar

/-- What `JSON.stringify` writes for one character of a string. -/
def quoteChar (c : Char) : List Char :=
  if c.toNat = 0x08 then [Char.ofNat 0x5c, 'b']
  else if c.toNat = 0x09 then [Char.ofNat 0x5c, 't']
  else if c.toNat = 0x0a then [Char.ofNat 0x5c, 'n']
  else if c.toNat = 0x0c then [Char.ofNat 0x5c, 'f']
  else if c.toNat = 0x0d then [Char.ofNat 0x5c, 'r']
  else if c.toNat = 0x22 then [Char.ofNat 0x5c, Char.ofNat 0x22]
  else if c.toNat = 0x5c then [Char.ofNat 0x5c, Char.ofNat 0x5c]
  else if c.toNat < 0x20 then unicodeEscape c.toNat
  else [c]

/-- What `JSON.stringify` writes for a string. -/
def quoteString (s : List Char) : List Char :=
  Char.ofNat 0x22 :: s.flatMap quoteChar ++ [Char.ofNat 0x22]

/-- `JSON.stringify({ ssid, pwd })` -/
def jsonStringify (ssid pwd : List Char) : List Char :=
  Char.ofNat 0x7b :: quoteString ['s', 's', 'i', 'd'] ++ ':' :: quoteString ssid ++
    ',' :: quoteString ['p', 'w', 'd'] ++ ':' :: quoteString pwd ++ [Char.ofNat 0x7d]

/-- The bytes the page sends: `new TextEncoder().encode(payload)`. -/
def payload (ssid pwd : List Char) : List UInt8 :=
  utf8 (jsonStringify ssid pwd ++ [Char.ofNat 0x0a])

theorem writeChunksFrom_flatten (bytes : List UInt8) (offset : Nat) :
    (writeChunksFrom bytes offset).flatten = bytes.drop offset := by
  fun_induction writeChunksFrom bytes offset with
  | case1 offset hmore ih =>
    rw [List.flatten_cons, ih, ← List.drop_drop]
    exact List.take_append_drop chunkSize (bytes.drop offset)
  | case2 offset hdone => simp [List.drop_eq_nil_of_le (Nat.not_lt.mp hdone)]

/-- The slices are the bytes in order. -/
theorem writeChunks_flatten (bytes : List UInt8) : (writeChunks bytes).flatten = bytes :=
  writeChunksFrom_flatten bytes 0

/-! ## The document as an object text -/

/-- No character below U+0020. -/
def NoControl (s : List Char) : Prop := ∀ c ∈ s, 0x20 ≤ c.toNat

instance (s : List Char) : Decidable (NoControl s) := List.decidableBAll _ s

theorem char_eq_of_toNat {c : Char} {n : Nat} (h : c.toNat = n) : c = Char.ofNat n := by
  rw [← h, Char.ofNat_toNat]

/-- Without control characters only the quotation mark and the reverse solidus are
escaped, so a character takes at most twice its bytes. -/
theorem exists_item {c : Char} (hc : 0x20 ≤ c.toNat) :
    ∃ item : StringItem, utf8 (quoteChar c) = item.text ∧
      item.denoted = String.utf8EncodeChar c ∧
      item.text.length ≤ 2 * (String.utf8EncodeChar c).length := by
  by_cases hquote : c.toNat = 0x22
  · rw [char_eq_of_toNat hquote]
    exact ⟨.escaped .quotationMark, by decide, by decide, by decide⟩
  · by_cases hsolidus : c.toNat = 0x5c
    · rw [char_eq_of_toNat hsolidus]
      exact ⟨.escaped .reverseSolidus, by decide, by decide, by decide⟩
    · have hself : quoteChar c = [c] := by
        unfold quoteChar
        rw [if_neg (by omega), if_neg (by omega), if_neg (by omega), if_neg (by omega),
          if_neg (by omega), if_neg hquote, if_neg hsolidus, if_neg (by omega)]
      refine ⟨.unescaped c ⟨hc, hquote, hsolidus⟩, ?_, rfl, ?_⟩
      · rw [hself, utf8_cons, utf8_nil, List.append_nil]
        rfl
      · have := utf8EncodeChar_length_pos c
        simp only [StringItem.text]
        omega

theorem exists_items {s : List Char} (hs : NoControl s) :
    ∃ items : List StringItem, utf8 (s.flatMap quoteChar) = items.flatMap StringItem.text ∧
      stringDenoted items = utf8 s ∧
      (items.flatMap StringItem.text).length ≤ 2 * (utf8 s).length := by
  induction s with
  | nil => exact ⟨[], rfl, rfl, by simp⟩
  | cons c s ih =>
    obtain ⟨item, htext, hdenoted, hlen⟩ := exists_item (hs c List.mem_cons_self)
    obtain ⟨items, htexts, hdenoteds, hlens⟩ := ih fun d hd => hs d (List.mem_cons_of_mem c hd)
    refine ⟨item :: items, ?_, ?_, ?_⟩
    · rw [List.flatMap_cons, utf8_append, htext, htexts, List.flatMap_cons]
    · rw [stringDenoted, List.flatMap_cons, hdenoted, utf8_cons, ← hdenoteds]
      rfl
    · rw [List.flatMap_cons, utf8_cons, List.length_append, List.length_append]
      omega

theorem utf8_quoteString {s : List Char} {items : List StringItem}
    (h : utf8 (s.flatMap quoteChar) = items.flatMap StringItem.text) :
    utf8 (quoteString s) = Json.stringText items := by
  rw [quoteString, List.cons_append, utf8_cons, utf8_append, h]
  rfl

/-- The document is the text of the object with the members `ssid` and `pwd`. -/
theorem jsonStringify_eq_objectText {ssid pwd : List Char} (hssid : NoControl ssid)
    (hpwd : NoControl pwd) :
    ∃ members : List Member, utf8 (jsonStringify ssid pwd) = objectText members ∧
      members.map Member.denoted = [(ascii "ssid", utf8 ssid), (ascii "pwd", utf8 pwd)] ∧
      (objectText members).length ≤ 20 + 2 * (utf8 ssid).length + 2 * (utf8 pwd).length := by
  obtain ⟨ssidName, hssidName, hssidDenoted, hssidLen⟩ :=
    exists_items (s := ['s', 's', 'i', 'd']) (by decide)
  obtain ⟨pwdName, hpwdName, hpwdDenoted, hpwdLen⟩ :=
    exists_items (s := ['p', 'w', 'd']) (by decide)
  obtain ⟨ssidItems, hssidText, hssidValue, hssidLen⟩ := exists_items hssid
  obtain ⟨pwdItems, hpwdText, hpwdValue, hpwdLen⟩ := exists_items hpwd
  refine ⟨[⟨ssidName, ssidItems⟩, ⟨pwdName, pwdItems⟩], ?_, ?_, ?_⟩
  · simp only [jsonStringify, List.cons_append, List.append_assoc, utf8_cons, utf8_append,
      utf8_quoteString hssidName, utf8_quoteString hpwdName, utf8_quoteString hssidText,
      utf8_quoteString hpwdText, objectText, membersText, Member.text]
    rfl
  · simp only [List.map_cons, List.map_nil, Member.denoted, hssidDenoted, hpwdDenoted,
      hssidValue, hpwdValue]
    rfl
  · have hnames : (ssidName.flatMap StringItem.text).length = 4 ∧
        (pwdName.flatMap StringItem.text).length = 3 := by
      rw [← hssidName, ← hpwdName]
      decide
    simp only [objectText, membersText, Member.text, Json.stringText, List.cons_append,
      List.length_cons, List.length_append, List.length_nil]
    omega

/-! ## The device -/

/-- The node of an object with string members. -/
def objectNode (members : List (List UInt8 × List UInt8)) : CJson :=
  .object (members.map fun m => (m.1, .string (some m.2)))

/-- `cJSON_Parse` returns what the text of an object with string members denotes. -/
def ParsesObjects (parse : List UInt8 → Option CJson) : Prop :=
  ∀ members : List Member,
    parse (objectText members) = some (objectNode (members.map Member.denoted))

/-- The object parser as a `cJSON_Parse`. -/
def objectParse (text : List UInt8) : Option CJson := (parseObject text).map objectNode

theorem parsesObjects_objectParse : ParsesObjects objectParse := fun members => by
  rw [objectParse, parseObject_objectText, Option.map_some]

theorem utf8_nulFree {s : List Char} (hs : NoControl s) : NulFree (utf8 s) := by
  intro b hb hzero
  obtain ⟨c, hc, hbc⟩ := List.mem_flatMap.mp hb
  have hcode := hs c hc
  have hnul : b.toNat = 0 := by rw [hzero]; rfl
  rcases utf8EncodeChar_bytes hbc with hhigh | heq <;> omega

variable (env : Env)

/-- The object of the page passes the checks with its two strings. -/
theorem gdProvCheckJson_page {text ssid password : List UInt8}
    (hparse : env.cJSONParse text =
      some (objectNode [(ascii "ssid", ssid), (ascii "pwd", password)]))
    (hssid : NulFree ssid) (hpassword : NulFree password) (hpos : 1 ≤ ssid.length)
    (hssidLen : ssid.length ≤ gdProvMaxSsidLen)
    (hpasswordLen : password.length ≤ gdProvMaxPasswordLen) :
    gdProvCheckJson env text = .ok (ssid, password) := by
  have hssidItem : cJSONGetObjectItemCaseSensitive
      (objectNode [(ascii "ssid", ssid), (ascii "pwd", password)]) (ascii "ssid") =
      some (.string (some ssid)) := rfl
  have hpwdItem : gdProvPasswordItem
      (objectNode [(ascii "ssid", ssid), (ascii "pwd", password)]) =
      some (.string (some password)) := rfl
  have hlimits : ¬ (rtStrlen ssid = 0 ∨ rtStrlen ssid > gdProvMaxSsidLen ∨
      rtStrlen password > gdProvMaxPasswordLen) := by
    rw [rtStrlen_eq, rtStrlen_eq, cString_of_nulFree hssid, cString_of_nulFree hpassword]
    omega
  simp only [gdProvCheckJson, hparse, hssidItem, hpwdItem, cJSONIsString, valuestring,
    Bool.not_true, Bool.or_self, Bool.false_eq_true, if_false, if_neg hlimits,
    cString_of_nulFree hssid, cString_of_nulFree hpassword]

/-- The document of the page passes the checks with its two strings. -/
theorem gdProvCheckJson_stringify (hparse : ParsesObjects env.cJSONParse) {ssid pwd : List Char}
    (hssid : NoControl ssid) (hpwd : NoControl pwd) (hpos : 1 ≤ (utf8 ssid).length)
    (hssidLen : (utf8 ssid).length ≤ gdProvMaxSsidLen)
    (hpwdLen : (utf8 pwd).length ≤ gdProvMaxPasswordLen) :
    gdProvCheckJson env (utf8 (jsonStringify ssid pwd)) = .ok (utf8 ssid, utf8 pwd) := by
  obtain ⟨members, htext, hmembers, -⟩ := jsonStringify_eq_objectText hssid hpwd
  rw [htext]
  exact gdProvCheckJson_page env (by rw [hparse, hmembers]) (utf8_nulFree hssid)
    (utf8_nulFree hpwd) hpos hssidLen hpwdLen

/-- A text without control characters and a newline are one line. -/
theorem lineFrame_text {text : List UInt8} (htext : ∀ b ∈ text, 0x20 ≤ b.toNat)
    (hne : text ≠ []) (hlen : text.length ≤ gdProvJsonBufferLen - 1) :
    lineFrame [] (text ++ [0x0a]) = ([], [.line text]) := by
  have hplain : ∀ b ∈ text, isTerm b = false ∧ isCr b = false := by
    intro b hb
    have hlow := htext b hb
    have hne10 : b ≠ 10 := fun h => by rw [h] at hlow; exact absurd hlow (by decide)
    have hne0 : b ≠ 0 := fun h => by rw [h] at hlow; exact absurd hlow (by decide)
    have hne13 : b ≠ 13 := fun h => by rw [h] at hlow; exact absurd hlow (by decide)
    simp [isTerm, isCr, hne10, hne0, hne13]
  have hstrip : stripCr (text ++ [0x0a]) = text ++ [0x0a] := by
    rw [stripCr_append, stripCr_term rfl, stripCr,
      List.filter_eq_self.mpr fun b hb => by simp [(hplain b hb).2]]
  have hopen : ∀ b ∈ text, isTerm b = false := fun b hb => (hplain b hb).1
  have hfits : ∀ line ∈ allLines isTerm ([] ++ (text ++ [0x0a])),
      line.length ≤ gdProvJsonBufferLen - 1 := by
    rw [List.nil_append, allLines_append_cons isTerm text [] rfl,
      allLines_of_no_term isTerm hopen]
    intro line hline
    rcases List.mem_append.mp hline with hfirst | hlast
    · rw [List.mem_singleton.mp hfirst]
      exact hlen
    · rw [List.mem_singleton.mp hlast]
      exact Nat.zero_le _
  have hframe := frame_of_fits (gdProvJsonBufferLen - 1) [] (by simp) _ hfits
  rw [lineFrame, hstrip, hframe, List.nil_append, unfinishedLine_append_cons isTerm text [] rfl,
    completeLines_append_cons isTerm text [] rfl, completeLines_of_no_term isTerm hopen,
    unfinishedLine_of_no_term isTerm hopen]
  simp [hne]

/-- The round trip.  However the slices of the page are regrouped on the way, the
device submits one line, accepts it, and holds the UTF-8 bytes of both strings,
filled up with NUL bytes. -/
theorem webPage_round_trip (hparse : ParsesObjects env.cJSONParse) (ssid pwd : List Char)
    (hssid : NoControl ssid) (hpwd : NoControl pwd) (hpos : 1 ≤ (utf8 ssid).length)
    (hssidLen : (utf8 ssid).length ≤ gdProvMaxSsidLen)
    (hpwdLen : (utf8 pwd).length ≤ gdProvMaxPasswordLen)
    (connIdx : UInt8) (g : Globals) (hempty : g.json.len.val = 0)
    (chunks : List (List UInt8))
    (hregroup : chunks.flatten = (writeChunks (payload ssid pwd)).flatten) :
    ∃ calls, (gdProvBleRxCalls env connIdx chunks g).trace = g.trace ++ calls ∧
      submittedLines calls = [utf8 (jsonStringify ssid pwd)] ∧
      notifications calls = [statusText "accepted"] ∧ releaseCount calls = 1 ∧
      (gdProvBleRxCalls env connIdx chunks g).jsonOkCount = g.jsonOkCount + 1 ∧
      (gdProvBleRxCalls env connIdx chunks g).jsonErrorCount = g.jsonErrorCount ∧
      (gdProvBleRxCalls env connIdx chunks g).creds.ssid.toList =
        utf8 ssid ++ List.replicate (gdProvMaxSsidLen + 1 - (utf8 ssid).length) 0 ∧
      (gdProvBleRxCalls env connIdx chunks g).creds.password.toList =
        utf8 pwd ++ List.replicate (gdProvMaxPasswordLen + 1 - (utf8 pwd).length) 0 := by
  obtain ⟨members, htext, -, hlen⟩ := jsonStringify_eq_objectText hssid hpwd
  have hstream : chunks.flatten = objectText members ++ [0x0a] := by
    rw [hregroup, writeChunks_flatten, payload, utf8_append, htext]
    rfl
  have hframe : lineFrame [] chunks.flatten = ([], [.line (objectText members)]) := by
    rw [hstream]
    refine lineFrame_text (objectText_no_control members) (List.cons_ne_nil _ _) ?_
    -- 20 + 2 * 32 + 2 * 64 bytes at most
    have hlimits : gdProvMaxSsidLen = 32 ∧ gdProvMaxPasswordLen = 64 ∧
      gdProvJsonBufferLen - 1 = 255 := ⟨rfl, rfl, rfl⟩
    omega
  have hnulSsid := utf8_nulFree hssid
  have hnulPwd := utf8_nulFree hpwd
  have hcheck := gdProvCheckJson_stringify env hparse hssid hpwd hpos hssidLen hpwdLen
  rw [htext] at hcheck
  have hnil := pending_eq_nil hempty
  have h := gdProvBleRxCalls_refines env connIdx chunks g (by simp [hnil])
  rw [hnil, hframe] at h
  obtain ⟨calls, htrace, hanswers⟩ := h.calls
  refine ⟨calls, htrace, ?_, ?_, ?_, ?_, ?_, ?_, ?_⟩
  · rw [submittedLines_eq, hanswers.frameEvents, htext]
    rfl
  · rw [hanswers.notifications]
    simp [answer, hcheck]
  · rw [hanswers.releaseCount]
    simp [isOkEvent, isErrorEvent, hcheck]
  · rw [h.oks]
    simp [isOkEvent, isErrorEvent, hcheck]
  · rw [h.errors]
    simp [isErrorEvent, hcheck]
  · rw [h.creds]
    simp only [List.foldl_cons, List.foldl_nil, credsAfter, hcheck]
    rw [storedCredentials_ssid _ hnulSsid hssidLen, zeroPad, List.take_of_length_le (by omega)]
  · rw [h.creds]
    simp only [List.foldl_cons, List.foldl_nil, credsAfter, hcheck]
    rw [storedCredentials_password _ hnulPwd hpwdLen, zeroPad,
      List.take_of_length_le (by omega)]

/-- An environment whose `cJSON_Parse` is the object parser. -/
def objectEnv : Env where
  cJSONParse := objectParse
  datatransSend _ _ _ := 0

/-- A name with an accented letter and a password with a quotation mark, in one chunk. -/
theorem webPage_round_trip_accented :
    ∃ calls, (gdProvBleRxCalls objectEnv 1
        [payload ['c', 'a', 'f', Char.ofNat 0xe9] ['a', Char.ofNat 0x22, 'b']]
        Globals.initial).trace = Globals.initial.trace ++ calls ∧
      notifications calls = [statusText "accepted"] := by
  obtain ⟨calls, htrace, -, hnotes, -⟩ := webPage_round_trip objectEnv
    parsesObjects_objectParse ['c', 'a', 'f', Char.ofNat 0xe9] ['a', Char.ofNat 0x22, 'b']
    (by decide) (by decide) (by decide) (by decide)
    (by decide) 1 Globals.initial rfl
    [payload ['c', 'a', 'f', Char.ofNat 0xe9] ['a', Char.ofNat 0x22, 'b']]
    (by rw [writeChunks_flatten]; simp)
  exact ⟨calls, htrace, hnotes⟩

/-- The line buffer with a document of the page. -/
def pageLine (ssid pwd : List Char) : Vector UInt8 gdProvJsonBufferLen :=
  zeroPadded gdProvJsonBufferLen (utf8 (jsonStringify ssid pwd))

theorem gdProvCheckJson_pageLine {ssid pwd : List Char} (hssid : NoControl ssid)
    (hpwd : NoControl pwd) (hpos : 1 ≤ (utf8 ssid).length)
    (hssidLen : (utf8 ssid).length ≤ gdProvMaxSsidLen)
    (hpwdLen : (utf8 pwd).length ≤ gdProvMaxPasswordLen) :
    gdProvCheckJson objectEnv (cString (pageLine ssid pwd).toList) =
      .ok (utf8 ssid, utf8 pwd) := by
  obtain ⟨members, htext, -, hlen⟩ := jsonStringify_eq_objectText hssid hpwd
  have hnul : NulFree (utf8 (jsonStringify ssid pwd)) := by
    intro b hb hzero
    rw [htext] at hb
    have hlow := objectText_no_control members b hb
    rw [hzero] at hlow
    exact absurd hlow (by decide)
  have hshort : (utf8 (jsonStringify ssid pwd)).length < gdProvJsonBufferLen := by
    rw [htext]
    have hlimits : gdProvMaxSsidLen = 32 ∧ gdProvMaxPasswordLen = 64 ∧
      gdProvJsonBufferLen = 256 := ⟨rfl, rfl, rfl⟩
    omega
  rw [pageLine, zeroPadded_toList, cString_zeroPad hnul hshort]
  exact gdProvCheckJson_stringify objectEnv parsesObjects_objectParse hssid hpwd hpos hssidLen
    hpwdLen

end Gd32Vw553h.Provision
