import CrashTriage.Proofs.Text.Lines
import CrashTriage.Proofs.Text.Numerals
import CrashTriage.Proofs.Text.Words
import CrashTriage.Symbol.File
import Mathlib.Data.List.TakeWhile

/-
The two layouts of symbol files. Each line of a file tells one symbol or none, whatever its line end, and a
file is read as the table of what its lines tell; so the two layouts of one list of symbols are read alike.
-/
namespace CrashTriage
namespace SymbolFile

open Text

/-- An offset as it is written: hexadecimal digits, with or without their mark. -/
inductive OffsetWord (offset : UInt64) : Text → Prop where
  | bare (digits : Text) : HexNumeral digits offset → OffsetWord offset digits
  | marked (digits : Text) : HexNumeral digits offset → OffsetWord offset ('0' :: 'x' :: digits)

variable {offset : UInt64} {word t : Text}

theorem OffsetWord.read (is : OffsetWord offset word) : readHex word = offset := by
  cases is with
  | bare _ numeral => exact numeral.read
  | marked _ numeral => exact numeral.read_marked

theorem OffsetWord.solid (is : OffsetWord offset word) : ∀ c ∈ word, isBlank c = false := by
  cases is with
  | bare _ numeral => exact fun c member => hex_digit_not_blank (numeral.each c member)
  | marked _ numeral =>
    rw [List.forall_mem_cons, List.forall_mem_cons]
    exact ⟨by decide, by decide, fun c member => hex_digit_not_blank (numeral.each c member)⟩

theorem OffsetWord.starts (is : OffsetWord offset word) : ∃ c rest, word = c :: rest ∧ isHexDigit c = true := by
  cases is with
  | bare _ numeral =>
    obtain ⟨c, rest, rfl⟩ := List.exists_cons_of_ne_nil numeral.nonempty
    exact ⟨c, rest, rfl, numeral.each c List.mem_cons_self⟩
  | marked digits _ => exact ⟨'0', 'x' :: digits, rfl, by decide⟩

theorem OffsetWord.hex (is : OffsetWord offset word) : isHexWord word = true := by
  have all {digits : Text} (numeral : HexNumeral digits offset) :
      (!digits.isEmpty && digits.all isHexDigit) = true := by
    simp [numeral.nonempty, List.all_eq_true.mpr numeral.each]
  cases is with
  | bare _ numeral =>
    have unmarked : strip? ['0', 'x'] word = none := by
      cases marked : strip? ['0', 'x'] word with
      | none => rfl
      | some rest =>
        have whole := (strip_eq_some_iff _ _ _).mp marked
        exact absurd (numeral.each 'x' (by simp [whole])) (by decide)
    rw [isHexWord, unmarked]
    exact all numeral
  | marked _ numeral => exact all numeral

/-- The two kinds of records that carry names. -/
inductive Keyword where
  | func
  | publicName

def Keyword.text : Keyword → Text
  | func => "FUNC ".toList
  | publicName => "PUBLIC ".toList

/-- How many numbers stand before the name, the address being one of them. -/
def Keyword.numbers : Keyword → Nat
  | func => 3
  | publicName => 2

/-- What a line of a plain file tells: a symbol, or nothing. -/
inductive PlainLine : Option Symbol → Text → Prop where
  | symbol (s : Symbol) (lead word gap tail : Text) : OffsetWord s.1 word → Blanks lead →
    gap ≠ [] → Blanks gap → Blanks tail → PlainLine (some s) (lead ++ (word ++ gap ++ s.2) ++ tail)
  | blank (line : Text) : Blanks line → PlainLine none line
  | comment (lead rest : Text) : Blanks lead → PlainLine none (lead ++ '#' :: rest)

/-- What a line of a Breakpad file tells, after the first one: the symbol of a record, or nothing. A record may
be marked as one of several names. -/
inductive RecordLine : Option Symbol → Text → Prop where
  | record (s : Symbol) (keyword : Keyword) (lead marker word tail : Text) (fields : List Text) :
    OffsetWord s.1 word → marker = [] ∨ marker = ['m', ' '] → fields.length + 1 = keyword.numbers →
    (∀ field ∈ fields, ' ' ∉ field) → Blanks lead → Blanks tail →
    RecordLine (some s)
      (lead ++ (keyword.text ++ (marker ++ (word ++ ' ' :: (fields.flatMap (· ++ [' ']) ++ s.2)))) ++ tail)
  | other (line : Text) : (∀ keyword : Keyword, startsWith (trim line) keyword.text = false) → RecordLine none line

/-- Lines that tell symbols in their order, perhaps with others that tell nothing between them. -/
inductive Tell (layout : Option Symbol → Text → Prop) : List Symbol → List Text → Prop where
  | nil : Tell layout [] []
  | symbol {s : Symbol} {line : Text} {symbols : List Symbol} {ls : List Text} : layout (some s) line →
    Tell layout symbols ls → Tell layout (s :: symbols) (line :: ls)
  | nothing {line : Text} {symbols : List Symbol} {ls : List Text} : layout none line →
    Tell layout symbols ls → Tell layout symbols (line :: ls)

def PlainFile (symbols : List Symbol) (t : Text) : Prop := ∃ ls, Lined ls t ∧ Tell PlainLine symbols ls

def BreakpadFile (symbols : List Symbol) (t : Text) : Prop :=
  ∃ build ls, Lined (("MODULE ".toList ++ build) :: ls) t ∧ Tell RecordLine symbols ls

variable {entry : Option Symbol} {line address : Text} {symbols : List Symbol} {ls fields : List Text}
variable {layout : Option Symbol → Text → Prop}

theorem read_keyword_line (breakpad : Bool) (keyword : Keyword) (record : Text) :
    readLine? breakpad (keyword.text ++ record) = readRecord? record keyword.numbers := by
  cases keyword <;> rfl

theorem read_line_without_keyword (breakpad : Bool)
    (others : ∀ keyword : Keyword, startsWith line keyword.text = false) :
    readLine? breakpad line =
      if line.isEmpty || startsWith line ['#'] || breakpad then none else readPlain? line := by
  have noFunc : strip? "FUNC ".toList line = none := strip_none_of_other_start (others .func)
  have noPublic : strip? "PUBLIC ".toList line = none := strip_none_of_other_start (others .publicName)
  unfold readLine?
  rw [noFunc, noPublic]
  cases line.isEmpty || startsWith line ['#'] <;> rfl

/-- A keyword that stood there would be the offset. -/
theorem no_keyword_at_offset (is : OffsetWord offset word) {blank : Char} (blanks : isBlank blank = true)
    (rest : Text) (keyword : Keyword) : startsWith (word ++ blank :: rest) keyword.text = false := by
  obtain ⟨front, text, isWord, notHex⟩ : ∃ front, keyword.text = front ++ [' '] ∧ IsWord front ∧
      isHexWord front = false := by
    cases keyword
    · exact ⟨"FUNC".toList, rfl, by decide, by decide⟩
    · exact ⟨"PUBLIC".toList, rfl, by decide, by decide⟩
  rw [Bool.eq_false_iff]
  intro starts
  obtain ⟨record, whole⟩ := List.isPrefixOf_iff_prefix.mp starts
  have cut : splitFirst? isBlank (word ++ blank :: rest) = some (front, record) := by
    rw [← whole, text, List.append_assoc]
    exact split_first_at isWord.solid (by decide)
  rw [split_first_at is.solid blanks] at cut
  cases cut
  rw [is.hex] at notHex
  cases notHex

theorem read_plain_line (told : PlainLine entry line) (proper : ∀ s ∈ entry, Trimmed s.2 ∧ s.2 ≠ []) :
    readLine? false (trim line) = entry := by
  cases told with
  | symbol s lead word gap tail is leads apart gaps ends =>
    obtain ⟨trimmed, nonempty⟩ := proper s rfl
    obtain ⟨c, rest, rfl, digit⟩ := is.starts
    obtain ⟨blank, gap, rfl⟩ := List.exists_cons_of_ne_nil apart
    rw [blanks_cons] at gaps
    have body : Trimmed (c :: rest ++ blank :: gap ++ s.2) :=
      trimmed_append (hex_digit_not_blank digit) trimmed nonempty
    have named : trim (gap ++ s.2) = s.2 := trim_behind_blanks gaps.2 trimmed
    have apart : c :: rest ++ blank :: gap ++ s.2 = c :: rest ++ blank :: (gap ++ s.2) := List.append_assoc _ _ _
    have noComment : '#' ≠ c := hex_digit_ne digit (by decide)
    rw [trim_padded leads body ends, apart, read_line_without_keyword false (no_keyword_at_offset is gaps.1 _),
      if_neg (by simp [startsWith, noComment]), readPlain?, split_first_at is.solid gaps.1]
    simp [is.hex, is.read, named]
  | blank _ blanks =>
    have none : Trimmed [] := ⟨nofun, nofun⟩
    have empty : trim line = [] := by simpa using trim_behind_blanks blanks none
    rw [empty]
    rfl
  | comment lead rest leads =>
    have first : (trim (lead ++ '#' :: rest)).head? = some '#' := by
      rw [first_of_trim, first_solid_after leads (by decide)]
    obtain ⟨rest, start⟩ := List.head?_eq_some_iff.mp first
    rw [start]
    rfl

theorem split_fields (free : ' ' ∉ address) (others : ∀ field ∈ fields, ' ' ∉ field) (name : Text) :
    splitFields? (fields.length + 1) (address ++ ' ' :: (fields.flatMap (· ++ [' ']) ++ name)) =
      some (address, name) := by
  induction fields generalizing address with
  | nil => exact split_once_at free name
  | cons field fields ih =>
    rw [List.forall_mem_cons] at others
    rw [List.length_cons, splitFields?, split_once_at free, List.flatMap_cons]
    simp [ih others.1 others.2]

theorem read_record_line (told : RecordLine entry line) (proper : ∀ s ∈ entry, Trimmed s.2 ∧ s.2 ≠ []) :
    readLine? true (trim line) = entry := by
  cases told with
  | record s keyword lead marker word tail fields is mark count free leads ends =>
    obtain ⟨trimmed, nonempty⟩ := proper s rfl
    have body (record : Text) : Trimmed (keyword.text ++ (record ++ s.2)) := by
      rw [← List.append_assoc]
      cases keyword <;> exact trimmed_append (by decide) trimmed nonempty
    have apart : ' ' ∉ word := fun member => by
      have solid := is.solid ' ' member
      revert solid
      decide
    have unmarked (rest : Text) : (strip? ['m', ' '] (marker ++ (word ++ rest))).getD (marker ++ (word ++ rest)) =
        word ++ rest := by
      rcases mark with rfl | rfl
      · obtain ⟨c, others, rfl, digit⟩ := is.starts
        simp [strip?, hex_digit_ne digit (d := 'm') (by decide)]
      · rfl
    have whole := body (marker ++ (word ++ ' ' :: fields.flatMap (· ++ [' '])))
    simp only [List.append_assoc, List.cons_append] at whole
    rw [trim_padded leads whole ends, read_keyword_line, readRecord?, unmarked, ← count, split_fields apart free]
    simp [is.hex, is.read, trim_trimmed trimmed, nonempty]
  | other _ others =>
    rw [read_line_without_keyword true others, Bool.or_true, if_pos rfl]

/-- What each line tells makes up the symbols that are read. -/
theorem symbols_of_lines {breakpad : Bool} {P : Symbol → Prop} (proper : ∀ s ∈ symbols, P s)
    (told : Tell layout symbols ls) (each : ∀ entry line, layout entry line → (∀ s ∈ entry, P s) →
      readLine? breakpad (trim line) = entry) :
    (ls.map trim).filterMap (readLine? breakpad) = symbols := by
  induction told with
  | nil => rfl
  | symbol here _ ih =>
    rw [List.forall_mem_cons] at proper
    have read := each _ _ here fun s same => Option.some.inj same ▸ proper.1
    rw [List.map_cons, List.filterMap_cons_some read, ih proper.2]
  | nothing here _ ih =>
    rw [List.map_cons, List.filterMap_cons_none (each _ _ here nofun), ih proper]

theorem plain_line_start (told : PlainLine entry line) : line.find? (fun c => !isBlank c) ≠ some 'M' := by
  cases told with
  | symbol s lead word gap tail is leads =>
    obtain ⟨c, rest, rfl, digit⟩ := is.starts
    simp only [List.append_assoc, List.cons_append]
    rw [first_solid_after leads (hex_digit_not_blank digit)]
    exact fun same => hex_digit_ne digit (d := 'M') (by decide) (Option.some.inj same).symm
  | blank _ blanks =>
    have none : line.find? (fun c => !isBlank c) = none := by simpa [Blanks] using blanks
    rw [none]
    exact (Option.some_ne_none 'M').symm
  | comment lead rest leads =>
    rw [first_solid_after leads (by decide)]
    decide

theorem plain_not_breakpad (lined : Lined ls t) (told : Tell PlainLine symbols ls) : isBreakpad t = false := by
  have other : t.find? (fun c => !isBlank c) ≠ some 'M' := by
    apply first_solid_of_lined lined
    clear lined
    induction told with
    | nil => exact nofun
    | symbol here _ ih => exact List.forall_mem_cons.mpr ⟨plain_line_start here, ih⟩
    | nothing here _ ih => exact List.forall_mem_cons.mpr ⟨plain_line_start here, ih⟩
  rw [Bool.eq_false_iff]
  intro starts
  obtain ⟨rest, whole⟩ := List.isPrefixOf_iff_prefix.mp starts
  rw [List.find?_not_eq_head?_dropWhile, ← trimStart, ← whole] at other
  exact other rfl

theorem module_line (build : Text) : RecordLine none ("MODULE ".toList ++ build) := by
  refine .other _ fun keyword => ?_
  have first : (trim ("MODULE ".toList ++ build)).head? = some 'M' := by
    rw [first_of_trim]
    rfl
  obtain ⟨rest, start⟩ := List.head?_eq_some_iff.mp first
  rw [start]
  cases keyword <;> rfl

theorem module_line_breakpad {build : Text} (lined : Lined (("MODULE ".toList ++ build) :: ls) t) :
    isBreakpad t = true := by
  obtain ⟨rest, rfl⟩ : ∃ rest, t = "MODULE ".toList ++ rest := by
    cases lined with
    | last => exact ⟨_, rfl⟩
    | feed => exact ⟨_, List.append_assoc _ _ _⟩
    | carriage => exact ⟨_, List.append_assoc _ _ _⟩
  rfl

/-- Both layouts of a list of symbols are read as the table of the list. -/
theorem layouts_agree (proper : ∀ s ∈ symbols, Trimmed s.2 ∧ s.2 ≠ []) :
    (∀ t, PlainFile symbols t → read t = SymbolTable.ofList symbols) ∧
      ∀ t, BreakpadFile symbols t → read t = SymbolTable.ofList symbols := by
  constructor
  · rintro t ⟨ls, lined, told⟩
    rw [read, lines_of_lined lined, plain_not_breakpad lined told,
      symbols_of_lines proper told fun _ _ => read_plain_line]
  · rintro t ⟨build, ls, lined, told⟩
    have whole : Tell RecordLine symbols (("MODULE ".toList ++ build) :: ls) := .nothing (module_line build) told
    rw [read, lines_of_lined lined, module_line_breakpad lined,
      symbols_of_lines proper whole fun _ _ => read_record_line]

def thingSymbols : List Symbol :=
  [(0x1000, "main".toList), (0x20, "-[Thing do: it]".toList), (0x1000, "start # 2".toList)]

def thingPlain : Text :=
  ["# offsets\r\n", "0x01000\tmain\n", "\n", " 20  -[Thing do: it] \r\n", "00001000 start # 2"].flatMap
    String.toList

def thingRecords : Text :=
  ["MODULE mac arm64 0A1B Helper\r\n", "FUNC m 1000 40 0 main\n", "1000 12 1\n",
    "PUBLIC 0020 0 -[Thing do: it]\r\n", "PUBLIC m 0x1000 0 start # 2\n"].flatMap String.toList

theorem layouts_agree_on_things :
    PlainFile thingSymbols thingPlain ∧ BreakpadFile thingSymbols thingRecords ∧
      read thingPlain = SymbolTable.ofList thingSymbols ∧ read thingRecords = SymbolTable.ofList thingSymbols := by
  have proper : ∀ s ∈ thingSymbols, Trimmed s.2 ∧ s.2 ≠ [] := by decide
  have plain : PlainFile thingSymbols thingPlain :=
    ⟨["# offsets".toList, "0x01000\tmain".toList, [], " 20  -[Thing do: it] ".toList, "00001000 start # 2".toList],
      .carriage _ (by decide) <| .feed _ (by decide) <| .feed _ (by decide) <| .carriage _ (by decide) <|
        .last _ (by decide) (by decide),
      .nothing (.comment [] _ (by decide)) <|
      .symbol (.symbol _ [] "0x01000".toList ['\t'] [] (.marked _ (by decide)) nofun (by decide) (by decide) nofun) <|
      .nothing (.blank _ nofun) <|
      .symbol (.symbol _ [' '] "20".toList [' ', ' '] [' '] (.bare _ (by decide)) (by decide) (by decide) (by decide)
        (by decide)) <|
      .symbol (.symbol _ [] "00001000".toList [' '] [] (.bare _ (by decide)) nofun (by decide) (by decide) nofun) .nil⟩
  have records : BreakpadFile thingSymbols thingRecords :=
    ⟨"mac arm64 0A1B Helper".toList, ["FUNC m 1000 40 0 main".toList, "1000 12 1".toList,
        "PUBLIC 0020 0 -[Thing do: it]".toList, "PUBLIC m 0x1000 0 start # 2".toList],
      .carriage _ (by decide) <| .feed _ (by decide) <| .feed _ (by decide) <| .carriage _ (by decide) <|
        .feed _ (by decide) .nil,
      .symbol (.record _ .func [] ['m', ' '] "1000".toList [] ["40".toList, "0".toList] (.bare _ (by decide))
        (.inr rfl) rfl (by decide) nofun nofun) <|
      .nothing (.other _ fun keyword => by cases keyword <;> decide) <|
      .symbol (.record _ .publicName [] [] "0020".toList [] ["0".toList] (.bare _ (by decide)) (.inl rfl) rfl
        (by decide) nofun nofun) <|
      .symbol (.record _ .publicName [] ['m', ' '] "0x1000".toList [] ["0".toList] (.marked _ (by decide))
        (.inr rfl) rfl (by decide) nofun nofun) .nil⟩
  have agree := layouts_agree proper
  exact ⟨plain, records, agree.1 _ plain, agree.2 _ records⟩

end SymbolFile
end CrashTriage
