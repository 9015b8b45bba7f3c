/-
  Json/Object.lean --- JSON objects whose members are strings, as UTF-8 text.

  `Member` is the parse tree of a member, `objectText` the text of an object
  without insignificant white space and `Member.denoted` what a member denotes.
  Strings are written with unescaped characters and the two-character escapes.
  `parseObject` reads such a text back (`parseObject_objectText`), so a text
  denotes one object only.
-/
import Mathlib.Data.List.Basic

set_option autoImplicit false

namespace Gd32Vw553h.Json

/-! ## UTF-8 -/

/-- The UTF-8 encoding of a sequence of Unicode scalar values. -/
def utf8 (s : List Char) : List UInt8 := s.flatMap String.utf8EncodeChar

@[simp] theorem utf8_nil : utf8 [] = [] := rfl

theorem utf8_cons (c : Char) (s : List Char) :
    utf8 (c :: s) = String.utf8EncodeChar c ++ utf8 s := rfl

@[simp] theorem utf8_append (s t : List Char) : utf8 (s ++ t) = utf8 s ++ utf8 t :=
  List.flatMap_append

/-- The encoding of a character is its code, when that is below 128, or consists of
bytes from 128 on. -/
theorem utf8EncodeChar_bytes {c : Char} {b : UInt8} (hb : b ∈ String.utf8EncodeChar c) :
    128 ≤ b.toNat ∨ b.toNat = c.toNat := by
  have hv : c.val.toNat = c.toNat := rfl
  unfold String.utf8EncodeChar at hb
  dsimp only at hb
  split at hb
  · right
    rw [List.mem_singleton.mp hb, UInt8.toNat_ofNat']
    omega
  · left
    split at hb
    · simp only [List.mem_cons, List.not_mem_nil, or_false] at hb
      rcases hb with rfl | rfl <;> rw [UInt8.toNat_ofNat'] <;> omega
    · split at hb
      · simp only [List.mem_cons, List.not_mem_nil, or_false] at hb
        rcases hb with rfl | rfl | rfl <;> rw [UInt8.toNat_ofNat'] <;> omega
      · simp only [List.mem_cons, List.not_mem_nil, or_false] at hb
        rcases hb with rfl | rfl | rfl | rfl <;> rw [UInt8.toNat_ofNat'] <;> omega

theorem utf8EncodeChar_length_pos (c : Char) : 0 < (String.utf8EncodeChar c).length :=
  List.length_pos_iff.mpr String.utf8EncodeChar_ne_nil

/-! ## Strings -/

/-- A character that stands for itself inside a string. -/
def IsUnescaped (c : Char) : Prop := 0x20 ≤ c.toNat ∧ c.toNat ≠ 0x22 ∧ c.toNat ≠ 0x5c

/-- The two-character escapes. -/
inductive Escape where
  | quotationMark
  | reverseSolidus
  | solidus
  | backspace
  | formFeed
  | lineFeed
  | carriageReturn
  | tab
  deriving DecidableEq

namespace Escape

/-- The character behind the reverse solidus. -/
def letter : Escape → UInt8
  | quotationMark => 0x22
  | reverseSolidus => 0x5c
  | solidus => 0x2f
  | backspace => 0x62
  | formFeed => 0x66
  | lineFeed => 0x6e
  | carriageReturn => 0x72
  | tab => 0x74

/-- The character an escape denotes. -/
def denoted : Escape → UInt8
  | quotationMark => 0x22
  | reverseSolidus => 0x5c
  | solidus => 0x2f
  | backspace => 0x08
  | formFeed => 0x0c
  | lineFeed => 0x0a
  | carriageReturn => 0x0d
  | tab => 0x09

/-- The escape with a letter. -/
def ofLetter? (b : UInt8) : Option Escape :=
  [quotationMark, reverseSolidus, solidus, backspace, formFeed, lineFeed, carriageReturn,
    tab].find? fun e => e.letter == b

theorem ofLetter?_letter (e : Escape) : ofLetter? e.letter = some e := by
  cases e <;> rfl

end Escape

/-- One character of a string as it is written. -/
inductive StringItem where
  | unescaped (c : Char) (h : IsUnescaped c)
  | escaped (e : Escape)

namespace StringItem

def text : StringItem → List UInt8
  | unescaped c _ => String.utf8EncodeChar c
  | escaped e => [0x5c, e.letter]

def denoted : StringItem → List UInt8
  | unescaped c _ => String.utf8EncodeChar c
  | escaped e => [e.denoted]

end StringItem

/-- The text of a string, with its quotation marks. -/
def stringText (items : List StringItem) : List UInt8 :=
  0x22 :: items.flatMap StringItem.text ++ [0x22]

/-- The UTF-8 bytes a string denotes. -/
def stringDenoted (items : List StringItem) : List UInt8 := items.flatMap StringItem.denoted

/-! ## Objects -/

/-- A member of an object. -/
structure Member where
  name : List StringItem
  value : List StringItem

namespace Member

def text (m : Member) : List UInt8 := stringText m.name ++ 0x3a :: stringText m.value

/-- The name and the value a member denotes. -/
def denoted (m : Member) : List UInt8 × List UInt8 :=
  (stringDenoted m.name, stringDenoted m.value)

end Member

/-- The members of an object and the closing bracket. -/
def membersText : List Member → List UInt8
  | [] => [0x7d]
  | [m] => m.text ++ [0x7d]
  | m :: n :: members => m.text ++ 0x2c :: membersText (n :: members)

/-- The text of an object. -/
def objectText (members : List Member) : List UInt8 := 0x7b :: membersText members

/-! ## No control characters -/

theorem unescaped_bytes {c : Char} (hc : IsUnescaped c) {b : UInt8}
    (hb : b ∈ String.utf8EncodeChar c) :
    0x20 ≤ b.toNat ∧ b.toNat ≠ 0x22 ∧ b.toNat ≠ 0x5c := by
  obtain ⟨hlow, hquote, hsolidus⟩ := hc
  rcases utf8EncodeChar_bytes hb with hhigh | hcode
  · omega
  · omega

theorem stringText_no_control (items : List StringItem) :
    ∀ b ∈ stringText items, 0x20 ≤ b.toNat := by
  intro b hb
  simp only [stringText, List.cons_append, List.mem_cons, List.mem_append, List.mem_flatMap,
    List.not_mem_nil, or_false] at hb
  rcases hb with rfl | ⟨item, -, hitem⟩ | rfl
  · decide
  · cases item with
    | unescaped c hc => exact (unescaped_bytes hc hitem).1
    | escaped e =>
      simp only [StringItem.text, List.mem_cons, List.not_mem_nil, or_false] at hitem
      rcases hitem with rfl | rfl
      · decide
      · cases e <;> decide
  · decide

theorem Member.text_no_control (m : Member) : ∀ b ∈ m.text, 0x20 ≤ b.toNat := by
  intro b hb
  rcases List.mem_append.mp hb with hname | hrest
  · exact stringText_no_control m.name b hname
  · rcases List.mem_cons.mp hrest with rfl | hvalue
    · decide
    · exact stringText_no_control m.value b hvalue

theorem membersText_no_control (members : List Member) :
    ∀ b ∈ membersText members, 0x20 ≤ b.toNat := by
  induction members with
  | nil =>
    intro b hb
    rw [List.mem_singleton.mp hb]
    decide
  | cons m rest ih =>
    intro b hb
    cases rest with
    | nil =>
      rcases List.mem_append.mp hb with hm | hclose
      · exact m.text_no_control b hm
      · rw [List.mem_singleton.mp hclose]
        decide
    | cons n rest =>
      rcases List.mem_append.mp hb with hm | hlater
      · exact m.text_no_control b hm
      · rcases List.mem_cons.mp hlater with rfl | hlater
        · decide
        · exact ih b hlater

/-- The text of an object holds no control character. -/
theorem objectText_no_control (members : List Member) :
    ∀ b ∈ objectText members, 0x20 ≤ b.toNat := by
  intro b hb
  rcases List.mem_cons.mp hb with rfl | hrest
  · decide
  · exact membersText_no_control members b hrest

/-! ## Reading -/

/-- The rest of a string behind its opening quotation mark: what it denotes and
what follows it. -/
def parseItems : List UInt8 → Option (List UInt8 × List UInt8)
  | [] => none
  | b :: rest =>
      if b = 0x22 then some ([], rest)
      else if b = 0x5c then
        match rest with
        | [] => none
        | l :: rest =>
            (Escape.ofLetter? l).bind fun e =>
              (parseItems rest).map fun p => (e.denoted :: p.1, p.2)
      else if b.toNat < 0x20 then none
      else (parseItems rest).map fun p => (b :: p.1, p.2)

def parseString : List UInt8 → Option (List UInt8 × List UInt8)
  | [] => none
  | b :: rest => if b = 0x22 then parseItems rest else none

def parseMember (s : List UInt8) : Option ((List UInt8 × List UInt8) × List UInt8) :=
  (parseString s).bind fun name =>
    match name.2 with
    | [] => none
    | b :: rest =>
        if b = 0x3a then (parseString rest).map fun value => ((name.1, value.1), value.2)
        else none

/-- Members up to the closing bracket, at most `fuel` of them. -/
def parseMembers : Nat → List UInt8 → Option (List (List UInt8 × List UInt8))
  | 0, _ => none
  | fuel + 1, s =>
      (parseMember s).bind fun m =>
        match m.2 with
        | [] => none
        | b :: rest =>
            if b = 0x7d ∧ rest = [] then some [m.1]
            else if b = 0x2c then (parseMembers fuel rest).map (m.1 :: ·)
            else none

/-- The names and values of an object text. -/
def parseObject : List UInt8 → Option (List (List UInt8 × List UInt8))
  | [] => none
  | b :: rest =>
      if b = 0x7b then
        if rest = [0x7d] then some [] else parseMembers rest.length rest
      else none

/-! ## Reading back what was written -/

theorem parseItems_quote (rest : List UInt8) : parseItems (0x22 :: rest) = some ([], rest) := by
  rw [parseItems.eq_def]
  rfl

theorem parseItems_escape (e : Escape) (rest : List UInt8) :
    parseItems (0x5c :: e.letter :: rest) =
      (parseItems rest).map fun p => (e.denoted :: p.1, p.2) := by
  rw [parseItems.eq_def]
  simp [e.ofLetter?_letter]

theorem parseItems_byte {b : UInt8} (hlow : 0x20 ≤ b.toNat) (hquote : b.toNat ≠ 0x22)
    (hsolidus : b.toNat ≠ 0x5c) (rest : List UInt8) :
    parseItems (b :: rest) = (parseItems rest).map fun p => (b :: p.1, p.2) := by
  have hquote' : b ≠ 0x22 := fun hb => hquote (by rw [hb]; rfl)
  have hsolidus' : b ≠ 0x5c := fun hb => hsolidus (by rw [hb]; rfl)
  rw [parseItems.eq_def]
  simp only [if_neg hquote', if_neg hsolidus', if_neg (Nat.not_lt.mpr hlow)]

theorem parseItems_unescaped {bytes : List UInt8}
    (h : ∀ b ∈ bytes, 0x20 ≤ b.toNat ∧ b.toNat ≠ 0x22 ∧ b.toNat ≠ 0x5c) (rest : List UInt8) :
    parseItems (bytes ++ rest) = (parseItems rest).map fun p => (bytes ++ p.1, p.2) := by
  induction bytes with
  | nil => simp
  | cons b bytes ih =>
    obtain ⟨hlow, hquote, hsolidus⟩ := h b List.mem_cons_self
    rw [List.cons_append, parseItems_byte hlow hquote hsolidus,
      ih fun x hx => h x (List.mem_cons_of_mem b hx), Option.map_map]
    rfl

theorem parseItems_text (items : List StringItem) (rest : List UInt8) :
    parseItems (items.flatMap StringItem.text ++ 0x22 :: rest) =
      some (stringDenoted items, rest) := by
  induction items with
  | nil => exact parseItems_quote rest
  | cons item items ih =>
    rw [List.flatMap_cons, List.append_assoc]
    cases item with
    | unescaped c hc =>
      have hc' : ∀ b ∈ StringItem.text (.unescaped c hc),
          0x20 ≤ b.toNat ∧ b.toNat ≠ 0x22 ∧ b.toNat ≠ 0x5c := fun b hb => unescaped_bytes hc hb
      rw [parseItems_unescaped hc', ih]
      rfl
    | escaped e =>
      rw [StringItem.text, List.cons_append, List.cons_append, List.nil_append,
        parseItems_escape, ih]
      rfl

theorem parseString_text (items : List StringItem) (rest : List UInt8) :
    parseString (stringText items ++ rest) = some (stringDenoted items, rest) := by
  rw [stringText, List.cons_append, List.cons_append, parseString, if_pos rfl,
    List.append_assoc, List.singleton_append, parseItems_text]

theorem parseMember_text (m : Member) (rest : List UInt8) :
    parseMember (m.text ++ rest) = some (m.denoted, rest) := by
  rw [Member.text, List.append_assoc, List.cons_append, parseMember, parseString_text]
  simp [parseString_text, Member.denoted]

theorem parseMembers_text {members : List Member} (hne : members ≠ []) {fuel : Nat}
    (hfuel : members.length ≤ fuel) :
    parseMembers fuel (membersText members) = some (members.map Member.denoted) := by
  induction members generalizing fuel with
  | nil => exact absurd rfl hne
  | cons m rest ih =>
    obtain ⟨fuel, rfl⟩ : ∃ n, fuel = n + 1 := ⟨fuel - 1, by
      rw [List.length_cons] at hfuel
      omega⟩
    cases rest with
    | nil => simp [membersText, parseMembers, parseMember_text]
    | cons n rest =>
      have hfuel' : (n :: rest).length ≤ fuel := by simpa using hfuel
      have hlater := ih (List.cons_ne_nil n rest) hfuel'
      simp [membersText, parseMembers, parseMember_text, hlater]

theorem length_le_membersText (members : List Member) :
    members.length ≤ (membersText members).length := by
  induction members with
  | nil => simp
  | cons m rest ih =>
    cases rest with
    | nil => simp [membersText]
    | cons n rest =>
      simp only [membersText, List.length_append, List.length_cons] at ih ⊢
      omega

/-- The parser reads every object text back to the members it denotes. -/
theorem parseObject_objectText (members : List Member) :
    parseObject (objectText members) = some (members.map Member.denoted) := by
  rw [objectText, parseObject, if_pos rfl]
  cases members with
  | nil => rfl
  | cons m rest =>
    have hopen : membersText (m :: rest) ≠ [0x7d] := by
      cases rest <;> simp [membersText, Member.text, stringText]
    rw [if_neg hopen]
    exact parseMembers_text (List.cons_ne_nil m rest) (length_le_membersText _)

end Gd32Vw553h.Json
