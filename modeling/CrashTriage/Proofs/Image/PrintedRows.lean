import CrashTriage.Proofs.Image.RowRange
import CrashTriage.Proofs.Text.Numerals
import CrashTriage.Proofs.Text.Words
import Mathlib.Data.List.TakeDrop

/-
Rows of the image table that are printed and read again. The path starts at the first slash, which is why no
part before it may hold one; the brackets of the build identifier are cut off before those of the version, and
the words that are left are told apart by their order and by how an architecture starts.
-/
namespace CrashTriage

open Text

/-- What a row of the image table tells, the name by its words. -/
structure ImageRow where
  base : UInt64
  last : UInt64
  marked : Bool
  name : List Text
  arch : Option Text
  version : Option Text
  uuid : Option Text
  path : Path
deriving DecidableEq

/-- A character that parts of a row end at. -/
def isRowMark (c : Char) : Bool := c == '/' || c == '<' || c == '>' || c == '(' || c == ')'

theorem blank_no_row_mark {c : Char} (blank : isBlank c = true) : isRowMark c = false := by
  rw [Bool.eq_false_iff]
  intro mark
  simp only [isRowMark, Bool.or_eq_true, beq_iff_eq] at mark
  rcases mark with (((rfl | rfl) | rfl) | rfl) | rfl <;> revert blank <;> decide

theorem hex_digit_no_row_mark {c : Char} (digit : isHexDigit c = true) : isRowMark c = false := by
  rw [Bool.eq_false_iff]
  intro mark
  simp only [isRowMark, Bool.or_eq_true, beq_iff_eq] at mark
  rcases mark with (((rfl | rfl) | rfl) | rfl) | rfl <;> revert digit <;> decide

theorem mark_not_among {t : Text} {c : Char} (unmarked : ∀ c ∈ t, isRowMark c = false) (mark : isRowMark c = true) :
    c ∉ t := by
  intro member
  rw [unmarked c member] at mark
  cases mark

theorem mark_not_in_gap {gap : Text} {c : Char} (blanks : Blanks gap) (mark : isRowMark c = true) : c ∉ gap :=
  mark_not_among (fun c member => blank_no_row_mark (blanks c member)) mark

/-- A word that no part of a row ends at. -/
@[mk_iff]
structure RowWord (word : Text) : Prop where
  isWord : IsWord word
  unmarked : ∀ c ∈ word, isRowMark c = false

instance (word : Text) : Decidable (RowWord word) :=
  decidable_of_iff (IsWord word ∧ word.all (fun c => !isRowMark c) = true) (by simp [rowWord_iff])

/-- What brackets may hold. It may hold round brackets of its own. -/
@[mk_iff]
structure BracketText (t : Text) : Prop where
  trimmed : Trimmed t
  nonempty : t ≠ []
  slash : '/' ∉ t
  opening : '<' ∉ t
  closing : '>' ∉ t

instance (t : Text) : Decidable (BracketText t) := decidable_of_iff _ (bracketText_iff t).symm

/-- A part of a row in brackets, with what follows it; nothing where there is no such part. -/
def bracketed (opening closing : Char) (inner : Option Text) (after : Text) : Text :=
  match inner with
  | some t => opening :: (t ++ closing :: after)
  | none => []

theorem take_bracketed_of_printed {opening closing : Char} {before after : Text} {inner : Option Text}
    (noOpening : opening ∉ before) (noClosing : closing ∉ after)
    (proper : ∀ t ∈ inner, Trimmed t ∧ t ≠ []) :
    Image.takeBracketed opening closing (before ++ bracketed opening closing inner after) = (before, inner) := by
  unfold Image.takeBracketed
  cases inner with
  | none =>
    rw [bracketed, List.append_nil]
    cases opened : splitOnce? opening before with
    | none => rfl
    | some cut =>
      obtain ⟨whole, -⟩ := split_once_some opened
      exact absurd (whole ▸ List.mem_append_right _ List.mem_cons_self) noOpening
  | some t =>
    obtain ⟨trimmed, nonempty⟩ := proper t rfl
    have apart : before ++ opening :: (t ++ closing :: after) = (before ++ opening :: t) ++ closing :: after := by
      simp
    have longer : before.length < (before ++ opening :: t).length := by
      rw [List.length_append, List.length_cons]
      omega
    have inside : (before ++ opening :: t).drop (before.length + 1) = t := by
      rw [← List.drop_drop, List.drop_left]
      rfl
    rw [bracketed, split_once_at noOpening, apart, split_last_at _ noClosing]
    dsimp only
    rw [if_pos longer, inside, trim_trimmed trimmed, if_neg (by simpa using nonempty)]

theorem bracketed_free {opening closing c : Char} {inner : Option Text} {after : Text} (notOpening : c ≠ opening)
    (notClosing : c ≠ closing) (inside : ∀ t ∈ inner, c ∉ t) (behind : c ∉ after) :
    c ∉ bracketed opening closing inner after := by
  cases inner with
  | none => exact List.not_mem_nil
  | some t => simp [bracketed, notOpening, notClosing, inside t rfl, behind]

/-- What is read of a row, by the cuts that it is read with. -/
theorem read_row_of_parts {line head path unnamed front first last : Text} {uuid version : Option Text}
    {more others : List Text} (start : startsWith (trim line) ['0', 'x'] = true)
    (cut : splitOnce? '/' (trim line) = some (head, path))
    (named : Image.takeBracketed '<' '>' head = (unnamed, uuid))
    (versioned : Image.takeBracketed '(' ')' unnamed = (front, version)) (fields : words front = first :: more)
    (taken : Image.takeLastWord? more = some (last, others)) (marked : startsWith last ['0', 'x'] = true)
    (ordered : readHex first ≤ readHex last) (bounded : ¬ (readHex first = 0 ∧ readHex last = Image.topAddress)) :
    Image.readRow? line =
      let printed := joinWith [' '] (Image.splitArch others).1
      let official := startsWith printed ['+']
      let name := if official then printed.drop 1 else printed
      some { base := readHex first, size := readHex last - readHex first + 1
             name := if name.isEmpty then (Path.fileName? (trim ('/' :: path))).getD [] else name
             path := trim ('/' :: path), arch := (Image.splitArch others).2, version, uuid
             fromUnofficialSource := official, newerThanOsBuild := false } := by
  unfold Image.readRow?
  simp [start, cut, named, versioned, fields, taken, marked]
  exact ⟨ordered, fun zero top => bounded ⟨zero, top⟩⟩

namespace ImageRow

/-- What keeps the parts of a row apart. -/
@[mk_iff]
structure Printable (r : ImageRow) : Prop where
  ordered : r.base ≤ r.last
  /-- No row covers the whole address space, whose size is no number of 64 bits. -/
  bounded : ¬ (r.base = 0 ∧ r.last = Image.topAddress)
  named : r.name ≠ []
  unmarked : ∀ word ∈ r.name.head?, word.head? ≠ some '+'
  words : ∀ word ∈ r.name, RowWord word
  /-- Only the first word of a name may start as an architecture does. -/
  noArch : ∀ word ∈ r.name.tail, Image.isArchWord word = false
  arch : ∀ word ∈ r.arch, RowWord word ∧ Image.isArchWord word = true
  version : ∀ t ∈ r.version, BracketText t
  uuid : ∀ t ∈ r.uuid, BracketText t
  path : Trimmed r.path
  absolute : r.path.head? = some '/'

instance (r : ImageRow) : Decidable r.Printable := decidable_of_iff _ (printable_iff r).symm

/-- The words of the two addresses. The dash between them may stand by itself or at the last address. -/
inductive AddressFields (base last : UInt64) : List Text → Prop where
  | apart (first final : Text) : HexNumeral first base → HexNumeral final last →
    AddressFields base last ['0' :: 'x' :: first, ['-'], '0' :: 'x' :: final]
  | joined (first final : Text) : HexNumeral first base → HexNumeral final last →
    AddressFields base last ['0' :: 'x' :: first, '-' :: '0' :: 'x' :: final]

/-- The words of the name, the mark being part of the first one. -/
def printedName (r : ImageRow) : List Text :=
  match r.marked, r.name with
  | true, first :: others => ('+' :: first) :: others
  | _, name => name

/-- The lines that a row may be printed as, with any blanks around its parts. -/
inductive Prints (r : ImageRow) : Text → Prop where
  | line (lead front afterVersion afterUuid tail : Text) (addresses : List Text) :
    AddressFields r.base r.last addresses → Spaced (addresses ++ (r.printedName ++ r.arch.toList)) front →
    Blanks lead → Blanks afterVersion → Blanks afterUuid → Blanks tail →
    Prints r (lead ++ (front ++ bracketed '(' ')' r.version afterVersion ++
      bracketed '<' '>' r.uuid afterUuid ++ r.path) ++ tail)

/-- The image of a row. -/
def image (r : ImageRow) : Image where
  base := r.base
  size := r.last - r.base + 1
  name := joinWith [' '] r.name
  path := r.path
  arch := r.arch
  version := r.version
  uuid := r.uuid
  fromUnofficialSource := r.marked
  newerThanOsBuild := false

variable {r : ImageRow} {addresses : List Text} {front line : Text}

theorem address_fields_unmarked (fields : AddressFields r.base r.last addresses) :
    ∀ word ∈ addresses, ∀ c ∈ word, isRowMark c = false := by
  have numeral {digits : Text} {n : UInt64} (is : HexNumeral digits n) :
      ∀ c ∈ '0' :: 'x' :: digits, isRowMark c = false := by
    simp only [List.forall_mem_cons]
    exact ⟨by decide, by decide, fun c member => hex_digit_no_row_mark (is.each c member)⟩
  cases fields with
  | apart first final base last =>
    simp only [List.forall_mem_cons (p := fun word => ∀ c ∈ word, isRowMark c = false)]
    exact ⟨numeral base, List.forall_mem_singleton.mpr (by decide), numeral last, nofun⟩
  | joined first final base last =>
    simp only [List.forall_mem_cons (p := fun word => ∀ c ∈ word, isRowMark c = false)]
    exact ⟨numeral base, List.forall_mem_cons.mpr ⟨by decide, numeral last⟩, nofun⟩

theorem printed_name_unmarked (printable : r.Printable) :
    ∀ word ∈ r.printedName ++ r.arch.toList, ∀ c ∈ word, isRowMark c = false := by
  intro word member
  rcases List.mem_append.mp member with inName | isArch
  · unfold printedName at inName
    split at inName
    · rename_i first others _ name
      have words := name ▸ printable.words
      rw [List.forall_mem_cons] at words
      rcases List.mem_cons.mp inName with rfl | later
      · exact List.forall_mem_cons.mpr ⟨by decide, words.1.unmarked⟩
      · exact (words.2 word later).unmarked
    · exact (printable.words word inName).unmarked
  · exact (printable.arch word (Option.mem_toList.mp isArch)).1.unmarked

theorem front_unmarked (printable : r.Printable) (fields : AddressFields r.base r.last addresses)
    (spaced : Spaced (addresses ++ (r.printedName ++ r.arch.toList)) front) : ∀ c ∈ front, isRowMark c = false := by
  refine chars_of_spaced spaced (fun _ => blank_no_row_mark) fun word member => ?_
  rcases List.mem_append.mp member with inAddresses | inName
  · exact address_fields_unmarked fields word inAddresses
  · exact printed_name_unmarked printable word inName

/-- The words of the name and of the architecture, as a row is read. -/
theorem split_arch_of_printed (printable : r.Printable) :
    Image.splitArch (r.printedName ++ r.arch.toList) = (r.printedName, r.arch) := by
  obtain ⟨first, others, name⟩ := List.exists_cons_of_ne_nil printable.named
  have noArch : ∀ word ∈ others, (!Image.isArchWord word) = true := fun word member => by
    simp [printable.noArch word (by simpa [name] using member)]
  have printed : ∃ start, r.printedName = start :: others := by
    unfold printedName
    rw [name]
    cases r.marked
    · exact ⟨first, rfl⟩
    · exact ⟨'+' :: first, rfl⟩
  obtain ⟨start, printed⟩ := printed
  rw [printed, List.cons_append, Image.splitArch, List.span_eq_takeWhile_dropWhile,
    List.takeWhile_append_of_pos noArch, List.dropWhile_append_of_pos noArch]
  cases arch : r.arch with
  | none => simp
  | some word =>
    have isArch := (printable.arch word arch).2
    simp [isArch]

/-- The name and its mark are found in the printed words. -/
theorem name_of_printed (printable : r.Printable) :
    startsWith (joinWith [' '] r.printedName) ['+'] = r.marked ∧
      (if r.marked then (joinWith [' '] r.printedName).drop 1 else joinWith [' '] r.printedName) =
        joinWith [' '] r.name ∧ joinWith [' '] r.name ≠ [] := by
  obtain ⟨first, others, name⟩ := List.exists_cons_of_ne_nil printable.named
  have unmarked := printable.unmarked first (by rw [name]; rfl)
  obtain ⟨c, rest, rfl⟩ := List.exists_cons_of_ne_nil (printable.words first (by simp [name])).isWord.nonempty
  have other : '+' ≠ c := fun same => unmarked (by rw [same]; rfl)
  -- what follows the first word does not depend on its mark
  obtain ⟨more, joined⟩ : ∃ more, ∀ first, joinWith [' '] (first :: others) = first ++ more := by
    cases others with
    | nil => exact ⟨[], fun first => by simp [joinWith]⟩
    | cons next others =>
      exact ⟨[' '] ++ joinWith [' '] (next :: others), fun first => by simp [joinWith, List.intercalate_cons_cons]⟩
  unfold printedName
  rw [name]
  cases r.marked with
  | true => simp [joined, startsWith]
  | false => simp [joined, startsWith, List.isPrefixOf, other]

theorem address_fields_taken (fields : AddressFields r.base r.last addresses) (rest : List Text) :
    ∃ first more final, addresses ++ rest = ('0' :: 'x' :: first) :: more ∧
      Image.takeLastWord? more = some ('0' :: 'x' :: final, rest) ∧
      HexNumeral first r.base ∧ HexNumeral final r.last := by
  cases fields with
  | apart first final base last => exact ⟨first, _, final, rfl, rfl, base, last⟩
  | joined first final base last => exact ⟨first, _, final, rfl, rfl, base, last⟩

section Parts

variable {afterVersion afterUuid : Text}

theorem no_slash_before_path (printable : r.Printable) (unmarked : ∀ c ∈ front, isRowMark c = false)
    (gapV : Blanks afterVersion) (gapU : Blanks afterUuid) :
    '/' ∉ front ++ bracketed '(' ')' r.version afterVersion ++ bracketed '<' '>' r.uuid afterUuid := by
  rw [List.mem_append, List.mem_append, not_or, not_or]
  refine ⟨⟨mark_not_among unmarked (by decide), ?_⟩, ?_⟩
  · exact bracketed_free (by decide) (by decide) (fun t there => (printable.version t there).slash)
      (mark_not_in_gap gapV (by decide))
  · exact bracketed_free (by decide) (by decide) (fun t there => (printable.uuid t there).slash)
      (mark_not_in_gap gapU (by decide))

theorem uuid_of_printed (printable : r.Printable) (unmarked : ∀ c ∈ front, isRowMark c = false)
    (gapV : Blanks afterVersion) (gapU : Blanks afterUuid) :
    Image.takeBracketed '<' '>' (front ++ bracketed '(' ')' r.version afterVersion ++
      bracketed '<' '>' r.uuid afterUuid) = (front ++ bracketed '(' ')' r.version afterVersion, r.uuid) := by
  refine take_bracketed_of_printed ?_ (mark_not_in_gap gapU (by decide)) fun t there =>
    ⟨(printable.uuid t there).trimmed, (printable.uuid t there).nonempty⟩
  rw [List.mem_append, not_or]
  exact ⟨mark_not_among unmarked (by decide), bracketed_free (by decide) (by decide)
    (fun t there => (printable.version t there).opening) (mark_not_in_gap gapV (by decide))⟩

theorem version_of_printed (printable : r.Printable) (unmarked : ∀ c ∈ front, isRowMark c = false)
    (gapV : Blanks afterVersion) :
    Image.takeBracketed '(' ')' (front ++ bracketed '(' ')' r.version afterVersion) = (front, r.version) :=
  take_bracketed_of_printed (mark_not_among unmarked (by decide)) (mark_not_in_gap gapV (by decide))
    fun t there => ⟨(printable.version t there).trimmed, (printable.version t there).nonempty⟩

end Parts

theorem front_starts (fields : AddressFields r.base r.last addresses) {rest : List Text}
    (spaced : Spaced (addresses ++ rest) front) : ∃ more, front = '0' :: 'x' :: more := by
  cases fields <;> cases spaced <;> exact ⟨_, rfl⟩

/-- A printed row is read back, with the size that its addresses span. -/
theorem printed_row_read (printable : r.Printable) (prints : r.Prints line) :
    Image.readRow? line = some r.image ∧ r.image.base.toNat + r.image.size.toNat = r.last.toNat + 1 := by
  refine ⟨?_, Image.size_of_range printable.ordered printable.bounded⟩
  obtain ⟨lead, front, afterVersion, afterUuid, tail, addresses, fields, spaced, leads, gapV, gapU, ends⟩ := prints
  have unmarked := front_unmarked printable fields spaced
  obtain ⟨rest, starts⟩ := front_starts fields spaced
  obtain ⟨path, absolute⟩ := List.head?_eq_some_iff.mp printable.absolute
  obtain ⟨first, more, final, words, taken, base, last⟩ :=
    address_fields_taken fields (r.printedName ++ r.arch.toList)
  have body : Trimmed (front ++ bracketed '(' ')' r.version afterVersion ++
      bracketed '<' '>' r.uuid afterUuid ++ r.path) := by
    rw [starts]
    exact trimmed_append (by decide) printable.path (by simp [absolute])
  have trimmed := trim_padded leads body ends
  have cut := split_once_at (no_slash_before_path printable unmarked gapV gapU) path
  rw [← absolute, ← trimmed] at cut
  have begins : startsWith (trim (lead ++ (front ++ bracketed '(' ')' r.version afterVersion ++
      bracketed '<' '>' r.uuid afterUuid ++ r.path) ++ tail)) ['0', 'x'] = true := by
    rw [trimmed, starts]
    rfl
  have read := read_row_of_parts begins cut (uuid_of_printed printable unmarked gapV gapU)
    (version_of_printed printable unmarked gapV) ((words_of_spaced spaced).trans words) taken rfl
    (by rw [base.read_marked, last.read_marked]; exact printable.ordered)
    (by rw [base.read_marked, last.read_marked]; exact printable.bounded)
  obtain ⟨marked, named, nonempty⟩ := name_of_printed printable
  have whole : trim r.path = r.path := trim_trimmed printable.path
  rw [read, split_arch_of_printed printable, base.read_marked, last.read_marked]
  dsimp only
  rw [marked, named, if_neg (by simpa using nonempty), ← absolute, whole]
  rfl

def loaderRow : ImageRow where
  base := 0x100000
  last := 0x1fffff
  marked := true
  name := ["x86Loader".toList, "+Tool".toList]
  arch := some "arm64e".toList
  version := some "1.0) (beta".toList
  uuid := some "A1 (b2)".toList
  path := "/Apps/Cy (1) <x> +/Tool 2".toList

def loaderLine : Text :=
  "\t 0x00100000 -0x1FFFff  +x86Loader +Tool\tarm64e(1.0) (beta) <A1 (b2)>/Apps/Cy (1) <x> +/Tool 2 \r".toList

theorem printed_row_read_of_loader :
    loaderRow.Prints loaderLine ∧ Image.readRow? loaderLine = some loaderRow.image ∧
      loaderRow.image.name = "x86Loader +Tool".toList ∧
      loaderRow.image.base.toNat + loaderRow.image.size.toNat = 0x200000 := by
  have words : Spaced ["0x00100000".toList, "-0x1FFFff".toList, "+x86Loader".toList, "+Tool".toList,
      "arm64e".toList] "0x00100000 -0x1FFFff  +x86Loader +Tool\tarm64e".toList :=
    .cons [' '] (by decide) (by decide) (by decide) <|
    .cons [' ', ' '] (by decide) (by decide) (by decide) <|
    .cons [' '] (by decide) (by decide) (by decide) <|
    .cons ['\t'] (by decide) (by decide) (by decide) <|
    .cons [] (by decide) (by decide) (by decide) .nil
  have prints : loaderRow.Prints loaderLine :=
    .line (r := loaderRow) ['\t', ' '] _ [' '] [] [' ', '\r'] _
      (.joined "00100000".toList "1FFFff".toList (by decide) (by decide)) words (by decide) (by decide) (by decide) (by decide)
  have read := printed_row_read (r := loaderRow) (by decide) prints
  exact ⟨prints, read.1, by decide, read.2⟩

end ImageRow
end CrashTriage
