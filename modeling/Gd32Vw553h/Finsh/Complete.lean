/-
  Finsh/Complete.lean --- tab completion of `components/finsh/msh.c`.

  Source configuration: `FINSH_USING_SYMTAB` and `FINSH_USING_OPTION_COMPLETION` are set,
  `DFS_USING_POSIX` is not.  What is printed on the way (the candidates, the help texts)
  is not modelled.

  Main results:

    `mshAutoComplete_eq`     the command line becomes the common part of the matching names
    `mshOptAutoComplete_eq`  and so does the argument of a command with options
-/
import Gd32Vw553h.Foundation.CommonPrefix
import Gd32Vw553h.Klibc.KString

set_option autoImplicit false

namespace Gd32Vw553h.Finsh

open Gd32Vw553h.Foundation Gd32Vw553h.Klibc

/-- `FINSH_CMD_SIZE` -/
def finshCmdSize : Nat := 80

/-- A name in the tables: a C string shorter than a command line. -/
structure Name where
  chars : List UInt8
  nulFree : NulFree chars
  short : chars.length < finshCmdSize

/-- `struct finsh_syscall`: a command with the names of its options, up to the entry
with `id` 0; no options where `opt` is NULL. -/
structure Command where
  name : Name
  opt : List Name

/-! ## The source -/

/-- `str_common` -/
def strCommon : List UInt8 → List UInt8 → Nat
  | a :: str1, b :: str2 => if a = b then strCommon str1 str2 + 1 else 0
  | _, _ => 0

/-- The body of the loop over the names, for a name that matches: `min_length` and
`name_ptr`. -/
def matchName (found : Nat × Option (List UInt8)) (name : List UInt8) :
    Nat × Option (List UInt8) :=
  let (minLength, namePtr) := if found.1 = 0 then (name.length, some name) else found
  let length := strCommon (namePtr.getD []) name
  (if length < minLength then length else minLength, namePtr)

/-- The characters that `rt_strncpy` stores at the end, if any. -/
def commonPart (found : Nat × Option (List UInt8)) : Option (List UInt8) :=
  found.2.map fun name => rtStrncpy found.1 name

/-- `msh_auto_complete`: the characters it stores at `prefix`. -/
def mshAutoComplete (table : List Command) (line : List UInt8) : Option (List UInt8) :=
  if line = [] then none
  else
    commonPart <| table.foldl (fun found index =>
      if rtStrncmp line index.name.chars line.length = 0 then matchName found index.name.chars
      else found) (0, none)

/-- `msh_get_cmd_opt`: the options of the command that the first word names. -/
def mshGetCmdOpt (table : List Command) (optStr : List UInt8) : List Name :=
  let len := (optStr.takeWhile (· ≠ 0x20)).length
  match table.find? fun index =>
      rtStrncmp index.name.chars optStr len = 0 ∧ index.name.chars.getD len 0 = 0 with
  | some index => index.opt
  | none => []

/-- `msh_get_argc`, from offset `i` on: `argc` and the offset that is `last_argv`. -/
def mshGetArgc : List UInt8 → Nat → Nat → Option Nat → Nat × Option Nat
  | [], _, argc, lastArgv => (argc, lastArgv)
  | ch :: rest, i, argc, lastArgv =>
    if ch = 0x20 ∧ rest.headD 0 ≠ 0 ∧ rest.headD 0 ≠ 0x20 then
      mshGetArgc rest (i + 1) (argc + 1) (some (i + 1))
    else mshGetArgc rest (i + 1) argc lastArgv

/-- `msh_opt_complete`: the characters it stores at `opts_str`. -/
def mshOptComplete (optsStr : List UInt8) (cmdOpt : List Name) : Option (List UInt8) :=
  commonPart <| cmdOpt.foldl (fun found opt =>
    if rtStrncmp opt.chars optsStr optsStr.length = 0 then matchName found opt.chars
    else found) (0, none)

/-- `msh_opt_auto_complete`: the characters it stores and where.  With no argument it
prints the options at most. -/
def mshOptAutoComplete (table : List Command) (line : List UInt8) :
    Option (Nat × List UInt8) :=
  match mshGetArgc line 0 0 none with
  | (1, some optStr) =>
    let opt := mshGetCmdOpt table line
    if opt = [] then none
    else (mshOptComplete (line.drop optStr) opt).map fun bytes => (optStr, bytes)
  | _ => none

/-! ## What a line is completed to -/

/-- The offsets at which the arguments of a command begin. -/
def argumentStarts : List UInt8 → Nat → List Nat
  | [], _ => []
  | ch :: rest, i =>
    if ch = 0x20 ∧ rest.headD 0 ≠ 0 ∧ rest.headD 0 ≠ 0x20 then
      (i + 1) :: argumentStarts rest (i + 1)
    else argumentStarts rest (i + 1)

/-- A line is completed as the beginning of a command. -/
def completeCommand (table : List Command) (line : List UInt8) : List UInt8 :=
  if line = [] then [] else completion (table.map (·.name.chars)) line

/-- The only argument of a command is completed as the beginning of an option. -/
def completeOption (table : List Command) (line : List UInt8) : List UInt8 :=
  match argumentStarts line 0 with
  | [start] =>
    match table.find? (·.name.chars = line.takeWhile (· ≠ 0x20)) with
    | some command =>
      line.take start ++ completion (command.opt.map (·.chars)) (line.drop start)
    | none => line
  | _ => line

/-- What Tab makes of a line. -/
def complete (table : List Command) (line : List UInt8) : List UInt8 :=
  completeOption table (completeCommand table line)

/-! ## Matching names -/

theorem strCommon_eq (l m : List UInt8) : strCommon l m = (commonPrefix l m).length := by
  induction l generalizing m with
  | nil => rfl
  | cons a l ih =>
    cases m with
    | nil => rfl
    | cons b m =>
      rw [strCommon, commonPrefix]
      split
      · rw [ih, List.length_cons]
      · rfl

/-- After the first match: so many characters of the first name are common to all. -/
structure Matched (found : Nat × Option (List UInt8)) (name part : List UInt8) : Prop where
  namePtr : found.2 = some name
  nulFree : NulFree name
  taken : part = name.take found.1
  minLength : found.1 = part.length

theorem matchName_first {name : List UInt8} (hname : NulFree name) :
    Matched (matchName (0, none) name) name name := by
  have hself : strCommon name name = name.length := by
    have hwhole : name <+: commonPrefix name name :=
      prefix_commonPrefix List.prefix_rfl List.prefix_rfl
    rw [strCommon_eq]
    exact Nat.le_antisymm (commonPrefix_left name name).length_le hwhole.length_le
  have heq : matchName (0, none) name = (name.length, some name) := by
    simp only [matchName, if_pos, Option.getD_some, hself, Nat.lt_irrefl, if_false]
  rw [heq]
  exact ⟨rfl, hname, List.take_length.symm, rfl⟩

/-- One more name shortens the common part to what it has in common with the name. -/
theorem Matched.next {found : Nat × Option (List UInt8)} {first part : List UInt8}
    (h : Matched found first part) (hne : part ≠ []) (name : List UInt8) :
    Matched (matchName found name) first (commonPrefix part name) := by
  obtain ⟨minLength, namePtr⟩ := found
  obtain ⟨hptr, hnul, hpart, hlen⟩ := h
  dsimp only at hptr hpart hlen
  subst hptr
  have hpos : minLength ≠ 0 := by
    intro hzero
    rw [hlen] at hzero
    exact hne (List.length_eq_zero_iff.mp hzero)
  have heq : matchName (minLength, some first) name =
      (min minLength (strCommon first name), some first) := by
    simp only [matchName, hpos, if_false, Option.getD_some]
    congr 1
    rw [Nat.min_def]
    split <;> split <;> omega
  have hcommon : commonPrefix part name =
      first.take (min minLength (strCommon first name)) := by
    rw [hpart, commonPrefix_take, strCommon_eq]
  have hminLength : minLength ≤ first.length := by
    rw [hpart, List.length_take] at hlen
    omega
  rw [heq]
  refine ⟨rfl, hnul, hcommon, ?_⟩
  rw [hcommon, List.length_take]
  dsimp only
  omega

/-- The loop over names that all continue the line. -/
theorem Matched.foldl {found : Nat × Option (List UInt8)} {first part line : List UInt8}
    {names : List (List UInt8)} (h : Matched found first part) (hline : line ≠ [])
    (hpart : line <+: part) (hnames : ∀ name ∈ names, line <+: name) :
    Matched (names.foldl matchName found) first (names.foldl commonPrefix part) := by
  induction names generalizing found part with
  | nil => exact h
  | cons name names ih =>
    have hne : part ≠ [] := by
      rintro rfl
      exact hline (List.prefix_nil.mp hpart)
    have hname := hnames name List.mem_cons_self
    exact ih (h.next hne name) (prefix_commonPrefix hpart hname)
      fun other hother => hnames other (List.mem_cons_of_mem name hother)

/-- What is stored after a match is the common part. -/
theorem Matched.commonPart {found : Nat × Option (List UInt8)} {name part : List UInt8}
    (h : Matched found name part) : commonPart found = some part := by
  have hlen : found.1 ≤ name.length := by
    have hle := h.minLength
    rw [h.taken, List.length_take] at hle
    omega
  rw [Finsh.commonPart, h.namePtr, Option.map_some, rtStrncpy_eq, cString_of_nulFree h.nulFree,
    zeroPad, Nat.sub_eq_zero_of_le hlen, List.replicate_zero, List.append_nil, h.taken]

/-- The loop over a table: nothing is stored if no name continues the line, and then it is
complete as it stands. -/
theorem commonPart_foldl {line : List UInt8} {names : List Name} (hline : line ≠ []) :
    commonPart (names.foldl (fun found name =>
        if line <+: name.chars then matchName found name.chars else found) (0, none)) = none ∧
      completion (names.map (·.chars)) line = line ∨
    commonPart (names.foldl (fun found name =>
        if line <+: name.chars then matchName found name.chars else found) (0, none)) =
      some (completion (names.map (·.chars)) line) := by
  have hfold : ∀ found, names.foldl (fun found name =>
      if line <+: name.chars then matchName found name.chars else found) found =
        ((names.map (·.chars)).filter (line.isPrefixOf ·)).foldl matchName found := by
    intro found
    rw [List.foldl_filter, List.foldl_map]
    simp only [List.isPrefixOf_iff_prefix]
  have hall : ∀ name ∈ (names.map (·.chars)).filter (line.isPrefixOf ·), line <+: name := by
    intro name hname
    exact List.isPrefixOf_iff_prefix.mp (List.mem_filter.mp hname).2
  have hnul : ∀ name ∈ (names.map (·.chars)).filter (line.isPrefixOf ·), NulFree name := by
    intro name hname
    obtain ⟨entry, -, rfl⟩ := List.mem_map.mp (List.mem_filter.mp hname).1
    exact entry.nulFree
  rw [hfold]
  unfold completion
  cases hfilter : (names.map (·.chars)).filter (line.isPrefixOf ·) with
  | nil => exact .inl ⟨rfl, rfl⟩
  | cons first others =>
    rw [hfilter] at hall hnul
    have hmatched := (matchName_first (hnul first List.mem_cons_self)).foldl hline
      (hall first List.mem_cons_self) fun other hother =>
        hall other (List.mem_cons_of_mem first hother)
    exact .inr hmatched.commonPart

/-! ## Completing a line -/

variable {table : List Command} {line : List UInt8}

/-- `msh_auto_complete` stores what the line is completed to, or nothing if that is the line
itself. -/
theorem mshAutoComplete_eq (hnul : NulFree line) :
    mshAutoComplete table line = none ∧ completeCommand table line = line ∨
      mshAutoComplete table line = some (completeCommand table line) := by
  unfold mshAutoComplete completeCommand
  split
  · next hline => exact .inl ⟨rfl, hline.symm⟩
  · next hline =>
    have hmap : table.map (·.name.chars) = (table.map (·.name)).map (·.chars) := by
      rw [List.map_map]
      rfl
    have hfold : table.foldl (fun found index =>
        if rtStrncmp line index.name.chars line.length = 0 then matchName found index.name.chars
        else found) (0, none) = (table.map (·.name)).foldl (fun found name =>
          if line <+: name.chars then matchName found name.chars else found) (0, none) := by
      rw [List.foldl_map]
      simp only [rtStrncmp_begins hnul]
    rw [hfold, hmap]
    exact commonPart_foldl hline

theorem mshGetArgc_eq (line : List UInt8) (i argc : Nat) (lastArgv : Option Nat) :
    mshGetArgc line i argc lastArgv =
      (argc + (argumentStarts line i).length, (argumentStarts line i).getLast?.or lastArgv) := by
  induction line generalizing i argc lastArgv with
  | nil => rfl
  | cons ch rest ih =>
    rw [mshGetArgc, argumentStarts]
    split
    · rw [ih, List.length_cons, List.getLast?_cons]
      congr 1
      · omega
      · cases (argumentStarts rest (i + 1)).getLast? <;> rfl
    · exact ih (i + 1) argc lastArgv

/-- An argument begins inside the line. -/
theorem argumentStarts_lt {line : List UInt8} {i start : Nat} (h : start ∈ argumentStarts line i) :
    start < i + line.length := by
  induction line generalizing i with
  | nil => cases h
  | cons ch rest ih =>
    rw [argumentStarts] at h
    rw [List.length_cons]
    split at h
    · next hch =>
      rcases List.mem_cons.mp h with rfl | h
      · have hrest : rest ≠ [] := by
          rintro rfl
          exact hch.2.1 rfl
        have hpos := List.length_pos_iff.mpr hrest
        omega
      · have := ih h
        omega
    · have := ih h
      omega

/-- Comparing as many characters as a word has, and asking for the end behind them, asks for
the word itself. -/
theorem name_eq_word {p : List UInt8} (hp : NulFree p) (name : Name) (q : List UInt8) :
    rtStrncmp name.chars (p ++ q) p.length = 0 ∧ name.chars.getD p.length 0 = 0 ↔
      name.chars = p := by
  rw [rtStrncmp_append, rtStrncmp_comm, rtStrncmp_begins hp]
  constructor
  · rintro ⟨⟨rest, hrest⟩, hend⟩
    cases rest with
    | nil => rw [← hrest, List.append_nil]
    | cons c rest =>
      have hc : c ∈ name.chars := by
        rw [← hrest]
        exact List.mem_append_right p List.mem_cons_self
      have hzero : c = 0 := by
        rw [← hrest] at hend
        simpa using hend
      exact absurd hzero (name.nulFree c hc)
  · intro heq
    rw [heq]
    exact ⟨List.prefix_rfl, by simp⟩

/-- A command is looked up by the whole first word. -/
theorem mshGetCmdOpt_eq (hnul : NulFree line) :
    mshGetCmdOpt table line =
      match table.find? (·.name.chars = line.takeWhile (· ≠ 0x20)) with
      | some command => command.opt
      | none => [] := by
  have hword : NulFree (line.takeWhile (· ≠ 0x20)) := by
    intro b hb
    exact hnul b (List.takeWhile_subset _ hb)
  have hsame : ∀ index : Command,
      (rtStrncmp index.name.chars line (line.takeWhile (· ≠ 0x20)).length = 0 ∧
        index.name.chars.getD (line.takeWhile (· ≠ 0x20)).length 0 = 0) ↔
      index.name.chars = line.takeWhile (· ≠ 0x20) := by
    intro index
    have hindex := name_eq_word hword index.name (line.dropWhile (· ≠ 0x20))
    rw [List.takeWhile_append_dropWhile] at hindex
    exact hindex
  unfold mshGetCmdOpt
  simp only [hsame]

theorem mshOptAutoComplete_one {start : Nat} (h : mshGetArgc line 0 0 none = (1, some start)) :
    mshOptAutoComplete table line =
      if mshGetCmdOpt table line = [] then none
      else (mshOptComplete (line.drop start) (mshGetCmdOpt table line)).map fun bytes =>
        (start, bytes) := by
  unfold mshOptAutoComplete
  rw [h]
  rfl

/-- `msh_opt_auto_complete` stores what the argument is completed to, or nothing if the line
is complete as it stands. -/
theorem mshOptAutoComplete_eq (hnul : NulFree line) :
    mshOptAutoComplete table line = none ∧ completeOption table line = line ∨
      ∃ start bytes, mshOptAutoComplete table line = some (start, bytes) ∧
        start ≤ line.length ∧ line.drop start <+: bytes ∧
        completeOption table line = line.take start ++ bytes := by
  have hargc := mshGetArgc_eq line 0 0 none
  unfold completeOption
  cases hstarts : argumentStarts line 0 with
  | nil =>
    rw [hstarts] at hargc
    refine .inl ⟨?_, rfl⟩
    unfold mshOptAutoComplete
    rw [hargc]
    rfl
  | cons start others =>
    rw [hstarts] at hargc
    cases others with
    | cons other others =>
      refine .inl ⟨?_, rfl⟩
      unfold mshOptAutoComplete
      rw [hargc]
      split
      · next heq =>
        have hcount := congrArg Prod.fst heq
        simp at hcount
      · rfl
    | nil =>
      have hmem : start ∈ argumentStarts line 0 := by
        rw [hstarts]
        exact List.mem_cons_self
      have hstart := argumentStarts_lt hmem
      have hdrop : line.drop start ≠ [] := by
        rw [Ne, List.drop_eq_nil_iff]
        omega
      have hnulDrop : NulFree (line.drop start) := fun b hb => hnul b (List.mem_of_mem_drop hb)
      have hone : mshGetArgc line 0 0 none = (1, some start) := hargc
      rw [mshOptAutoComplete_one hone, mshGetCmdOpt_eq hnul]
      cases hfind : table.find? (·.name.chars = line.takeWhile (· ≠ 0x20)) with
      | none => exact .inl ⟨rfl, rfl⟩
      | some command =>
        dsimp only
        have hfold : mshOptComplete (line.drop start) command.opt = commonPart
            (command.opt.foldl (fun found name =>
              if line.drop start <+: name.chars then matchName found name.chars else found)
              (0, none)) := by
          unfold mshOptComplete
          simp only [rtStrncmp_comm _ (line.drop start), rtStrncmp_begins hnulDrop]
        rw [hfold]
        rcases @commonPart_foldl (line.drop start) command.opt hdrop with ⟨hnone, hsame⟩ | hsome
        · refine .inl ⟨?_, ?_⟩
          · rw [hnone]
            split <;> rfl
          · rw [hsame, List.take_append_drop]
        · by_cases hopt : command.opt = []
          · rw [if_pos hopt, hopt]
            exact .inl ⟨rfl, List.take_append_drop start line⟩
          · rw [if_neg hopt, hsome]
            exact .inr ⟨start, _, rfl, hstart.le.trans (Nat.zero_add _).le,
              prefix_completion _ _, rfl⟩

/-! ## The completed line -/

theorem completion_nulFree {word : List UInt8} (hword : NulFree word) (names : List Name) :
    NulFree (completion (names.map (·.chars)) word) := by
  rcases completion_begins (names.map (·.chars)) word with heq | ⟨name, hname, hbegins⟩
  · rw [heq]
    exact hword
  · obtain ⟨entry, -, rfl⟩ := List.mem_map.mp hname
    exact fun b hb => entry.nulFree b (hbegins.subset hb)

theorem prefix_completeCommand (table : List Command) (line : List UInt8) :
    line <+: completeCommand table line := by
  unfold completeCommand
  split
  · next hline =>
    rw [hline]
  · exact prefix_completion _ _

theorem completeCommand_nulFree (hnul : NulFree line) : NulFree (completeCommand table line) := by
  unfold completeCommand
  split
  · exact fun b hb => absurd hb List.not_mem_nil
  · have hmap : table.map (·.name.chars) = (table.map (·.name)).map (·.chars) := by
      rw [List.map_map]
      rfl
    rw [hmap]
    exact completion_nulFree hnul _

/-- A command is completed to a name at most. -/
theorem completeCommand_short (hshort : line.length < finshCmdSize) :
    (completeCommand table line).length < finshCmdSize := by
  unfold completeCommand
  split
  · decide
  · rcases completion_begins (table.map (·.name.chars)) line with heq | ⟨name, hname, hbegins⟩
    · rw [heq]
      exact hshort
    · obtain ⟨entry, -, rfl⟩ := List.mem_map.mp hname
      exact hbegins.length_le.trans_lt entry.name.short

theorem completeOption_nulFree (hnul : NulFree line) : NulFree (completeOption table line) := by
  unfold completeOption
  split
  · next start _ =>
    split
    · next command _ =>
      intro b hb
      rcases List.mem_append.mp hb with hb | hb
      · exact hnul b (List.mem_of_mem_take hb)
      · have hdrop : NulFree (line.drop start) := fun c hc => hnul c (List.mem_of_mem_drop hc)
        exact completion_nulFree hdrop command.opt b hb
    · exact hnul
  · exact hnul

end Gd32Vw553h.Finsh
