import CrashTriage.Package.Status
import CrashTriage.Proofs.Lists
import CrashTriage.Proofs.Text.Lines
import CrashTriage.Proofs.Text.Words
import Mathlib.Data.List.Nodup

/-
Status files that are printed and read again. Blank lines separate stanzas however many they are, since an empty
line at the head of a stanza tells nothing; in a stanza the order of the lines does not matter, because each
field is told once and what else there is has another key or no key at all.
-/
namespace CrashTriage

open Text

/-- The fields of a stanza that an entry is made of. -/
inductive StatusField where
  | package
  | name
  | author
  | maintainer
  | status
deriving DecidableEq, Repr

namespace StatusField

def key : StatusField → Text
  | package => "package".toList
  | name => "name".toList
  | author => "author".toList
  | maintainer => "maintainer".toList
  | status => "status".toList

theorem key_injective {f g : StatusField} (same : f.key = g.key) : f = g := by
  revert same
  cases f <;> cases g <;> decide

end StatusField

/-- A package to be printed. -/
structure StatusRecord where
  identifier : Text
  name : Option Text
  author : Option Text
  maintainer : Option Text
  status : Text

namespace StatusRecord

def value? (r : StatusRecord) : StatusField → Option Text
  | .package => some r.identifier
  | .name => r.name
  | .author => r.author
  | .maintainer => r.maintainer
  | .status => some r.status

/-- Every value stands on its line as it is; blanks around the status are no matter. -/
structure Proper (r : StatusRecord) : Prop where
  trimmed : ∀ f : StatusField, f ≠ .status → ∀ v ∈ r.value? f, Trimmed v

end StatusRecord

namespace StatusEntry

/-- What a line of a stanza tells: the value of a field, or nothing. -/
inductive StanzaLine : Option (StatusField × Text) → Text → Prop where
  | field (f : StatusField) (written value : Text) : toLowerAscii written = f.key → '\n' ∉ value →
    StanzaLine (some (f, value)) (written ++ ':' :: ' ' :: value)
  | other (key value : Text) : (∀ f : StatusField, toLowerAscii (trim key) ≠ f.key) → ':' ∉ key → '\n' ∉ key →
    isContinuation key = false → '\n' ∉ value → StanzaLine none (key ++ ':' :: ' ' :: value)
  | continued (blank : Char) (rest : Text) : blank = ' ' ∨ blank = '\t' → '\n' ∉ rest → StanzaLine none (blank :: rest)

/-- The lines of a stanza that tells these fields in this order. Its first line continues none. -/
structure StanzaLines (told : List (StatusField × Text)) (ls : List Text) : Prop where
  starts : ∃ first, ls.head? = some first ∧ isContinuation first = false
  each : ∃ tells, List.Forall₂ StanzaLine tells ls ∧ tells.filterMap id = told

/-- The fields of a record, each told once. -/
structure TellsRecord (r : StatusRecord) (told : List (StatusField × Text)) : Prop where
  once : (told.map (·.1)).Nodup
  mem_iff : ∀ f value, (f, value) ∈ told ↔ r.value? f = some value

def printedLines (ls : List Text) : Text := ls.flatMap (· ++ ['\n'])

def blankLines (n : Nat) : Text := List.replicate n '\n'

/-- A status file: stanzas of the records in their order, with blank lines between them, perhaps with stanzas
among them that name no package. -/
inductive StatusFile : List StatusRecord → Text → Prop where
  | nil : StatusFile [] []
  | record (blank : Nat) (told : List (StatusField × Text)) {r : StatusRecord} {ls : List Text}
    {others : List StatusRecord} {rest : Text} : r.Proper → TellsRecord r told → StanzaLines told ls →
    (rest ≠ [] → blank ≠ 0) → StatusFile others rest →
    StatusFile (r :: others) (printedLines ls ++ blankLines blank ++ rest)
  | nameless (blank : Nat) (told : List (StatusField × Text)) {ls : List Text} {others : List StatusRecord}
    {rest : Text} : (∀ value, (.package, value) ∉ told) → StanzaLines told ls → (rest ≠ [] → blank ≠ 0) →
    StatusFile others rest → StatusFile others (printedLines ls ++ blankLines blank ++ rest)

/-- The entry that a record is read as. -/
structure ReadFrom (r : StatusRecord) (e : StatusEntry) : Prop where
  identifier : e.identifier = r.identifier
  name : e.name = r.name
  author : e.author = r.author
  maintainer : e.maintainer = r.maintainer
  installed : e.installed = true ↔ (words r.status).getLast? = some "installed".toList

variable {line stanza t rest : Text} {ls : List Text} {c : Char} {told : List (StatusField × Text)}
variable {r : StatusRecord} {records : List StatusRecord} {blank : Nat}

theorem split_stanzas_ne_nil (t : Text) : splitStanzas t ≠ [] := by
  fun_cases splitStanzas t <;> simp [*]

/-- A character that starts no pair of line feeds belongs to the first stanza. -/
theorem split_stanzas_cons (alone : c = '\n' → rest.head? ≠ some '\n') :
    splitStanzas (c :: rest) = (splitStanzas rest).modifyHead (c :: ·) := by
  by_cases single : c = '\n' ∧ rest = []
  · obtain ⟨rfl, rfl⟩ := single
    rfl
  · have unpaired (more : Text) (feed : c = '\n') (pair : rest = '\n' :: more) : False := by
      refine alone feed ?_
      rw [pair]
      rfl
    rw [splitStanzas.eq_4 c rest (fun feed none => single ⟨feed, none⟩) unpaired]
    cases first : splitStanzas rest with
    | nil => exact absurd first (split_stanzas_ne_nil rest)
    | cons stanza others => rfl

theorem split_stanzas_line (free : '\n' ∉ line) (rest : Text) :
    splitStanzas (line ++ rest) = (splitStanzas rest).modifyHead (line ++ ·) := by
  induction line with
  | nil => exact (congrFun List.modifyHead_id _).symm
  | cons c line ih =>
    rw [List.mem_cons, not_or] at free
    rw [List.cons_append, split_stanzas_cons fun feed => absurd feed.symm free.1, ih free.2,
      List.modifyHead_modifyHead]
    rfl

/-- None of the lines is empty, and none holds a line feed. -/
structure SolidLines (ls : List Text) : Prop where
  some_ : ls ≠ []
  nonempty : ∀ line ∈ ls, line ≠ []
  free : ∀ line ∈ ls, '\n' ∉ line

theorem printed_lines_cons (line : Text) (ls : List Text) :
    printedLines (line :: ls) = line ++ '\n' :: printedLines ls := by
  rw [printedLines, List.flatMap_cons, List.append_assoc]
  rfl

theorem SolidLines.tail {next : Text} (solid : SolidLines (line :: next :: ls)) : SolidLines (next :: ls) := by
  refine ⟨List.cons_ne_nil _ _, fun l member => ?_, fun l member => ?_⟩
  · exact solid.nonempty l (List.mem_cons_of_mem _ member)
  · exact solid.free l (List.mem_cons_of_mem _ member)

theorem printed_start (solid : SolidLines ls) (rest : Text) : (printedLines ls ++ rest).head? ≠ some '\n' := by
  obtain ⟨line, more, rfl⟩ := List.exists_cons_of_ne_nil solid.some_
  obtain ⟨c, others, rfl⟩ := List.exists_cons_of_ne_nil (solid.nonempty line List.mem_cons_self)
  have free := solid.free _ List.mem_cons_self
  intro feed
  obtain rfl : c = '\n' := by simpa [printed_lines_cons] using feed
  exact free List.mem_cons_self

/-- No two line feeds meet in a printed stanza but at its end. -/
theorem split_printed (solid : SolidLines ls) (rest : Text) :
    splitStanzas (printedLines ls ++ rest) =
      (splitStanzas ('\n' :: rest)).modifyHead (joinWith ['\n'] ls ++ ·) := by
  induction ls with
  | nil => exact absurd rfl solid.some_
  | cons line ls ih =>
    have free := solid.free line List.mem_cons_self
    rw [printed_lines_cons, List.append_assoc, List.cons_append, split_stanzas_line free]
    cases ls with
    | nil => rw [joinWith, List.intercalate_singleton]; rfl
    | cons next more =>
      rw [split_stanzas_cons fun _ => printed_start solid.tail rest, ih solid.tail, List.modifyHead_modifyHead,
        List.modifyHead_modifyHead, joinWith, joinWith, List.intercalate_cons_cons]
      congr 1
      funext stanza
      simp

theorem lined_joined (solid : SolidLines ls) :
    Lined ls (joinWith ['\n'] ls) ∧ Lined ls (joinWith ['\n'] ls ++ ['\n']) := by
  induction ls with
  | nil => exact absurd rfl solid.some_
  | cons line ls ih =>
    have free := solid.free line List.mem_cons_self
    cases ls with
    | nil =>
      rw [joinWith, List.intercalate_singleton]
      exact ⟨.last line (solid.nonempty line List.mem_cons_self) free, .feed line free .nil⟩
    | cons next more =>
      obtain ⟨open_, ended⟩ := ih solid.tail
      rw [joinWith, List.intercalate_cons_cons, List.append_assoc, List.append_assoc, List.append_assoc]
      exact ⟨.feed line free open_, .feed line free ended⟩

theorem continuation_before (space : c ≠ ' ') (tab : c ≠ '\t') (line rest : Text) :
    isContinuation (line ++ c :: rest) = isContinuation line := by
  cases line with
  | nil => simp [isContinuation, startsWith, List.isPrefixOf, space.symm, tab.symm]
  | cons d line => simp [isContinuation, startsWith, List.isPrefixOf]

/-- A carriage return at the end of a line is a blank at the end of its value. -/
theorem read_field_before_return (line : Text) : readField? (line ++ ['\r']) = readField? line := by
  unfold readField?
  rw [continuation_before (by decide) (by decide)]
  cases cut : splitOnce? ':' line with
  | none =>
    have whole : splitOnce? ':' (line ++ ['\r']) = none := by
      cases found : splitOnce? ':' (line ++ ['\r']) with
      | none => rfl
      | some parts =>
        have colon : ':' ∈ line ++ ['\r'] := by
          rw [(split_once_some found).1]
          exact List.mem_append_right _ List.mem_cons_self
        exact absurd (by simpa using colon) (split_once_none cut)
    rw [whole]
  | some parts =>
    obtain ⟨rfl, free⟩ := split_once_some cut
    rw [List.append_assoc, List.cons_append, split_once_at free]
    simp [trim_before_blank (show isBlank '\r' = true by decide)]

theorem read_field_chomped (line : Text) : readField? (chompPiece (line ++ ['\n'])) = readField? line := by
  rw [chomp_ended]
  split
  · rename_i ended
    obtain ⟨front, rfl⟩ := List.getLast?_eq_some_iff.mp ended
    rw [List.dropLast_concat, read_field_before_return]
  · rfl

theorem fields_of_lined (lined : Lined ls t) : (lines t).filterMap readField? = ls.filterMap readField? := by
  unfold lines
  induction lined with
  | nil => rfl
  | last line nonempty free => rw [pieces_last line nonempty free, List.map_singleton, chomp_without_feed free]
  | feed line free _ ih =>
    rw [pieces_ended line _ free]
    simp only [List.map_cons, List.filterMap_cons, read_field_chomped, ih]
  | carriage line free _ ih =>
    rw [List.append_cons, pieces_ended (line ++ ['\r']) _ (by simp [free])]
    simp only [List.map_cons, List.filterMap_cons, read_field_chomped, read_field_before_return, ih]

theorem read_behind_feed (stanza : Text) : read? ('\n' :: stanza) = read? stanza := by
  have fields : readFields ('\n' :: stanza) = readFields stanza := by
    rw [readFields, readFields, lines, pieces, if_pos rfl, List.map_cons, List.filterMap_cons_none rfl]
    rfl
  rw [read?, read?, fields]

theorem read_all_behind_feed (start : rest.head? ≠ some '\n') : readAll ('\n' :: rest) = readAll rest := by
  rw [readAll, readAll, split_stanzas_cons fun _ => start]
  cases splitStanzas rest with
  | nil => rfl
  | cons stanza others => rw [List.modifyHead_cons, List.filterMap_cons, List.filterMap_cons, read_behind_feed]

/-- Blank lines in front of a stanza tell nothing, whether they pair up or one of them is left. -/
theorem read_all_behind_blank (n : Nat) (start : rest.head? ≠ some '\n') :
    readAll (blankLines n ++ rest) = readAll rest := by
  induction n using Nat.twoStepInduction with
  | zero => rfl
  | one => exact read_all_behind_feed start
  | more n ih _ => exact ih

/-- The entry that fields give, the last line's field first. -/
def ofFields? (fields : List (Text × Text)) : Option StatusEntry := do
  let identifier ← fields.lookup StatusField.package.key
  pure {
    identifier
    name := fields.lookup StatusField.name.key
    author := fields.lookup StatusField.author.key
    maintainer := fields.lookup StatusField.maintainer.key
    installed := ((fields.lookup StatusField.status.key).map isInstalled).getD false }

/-- The entry of the lines of a stanza. -/
def ofLines? (ls : List Text) : Option StatusEntry := ofFields? (ls.filterMap readField?).reverse

theorem read_of_lined (lined : Lined ls t) : read? t = ofLines? ls := by
  show ofFields? (readFields t) = ofLines? ls
  rw [readFields, fields_of_lined lined, ofLines?]

theorem read_all_printed (solid : SolidLines ls) (apart : rest ≠ [] → blank ≠ 0) (start : rest.head? ≠ some '\n') :
    readAll (printedLines ls ++ blankLines blank ++ rest) = (ofLines? ls).toList ++ readAll rest := by
  obtain ⟨open_, ended⟩ := lined_joined solid
  rw [readAll, List.append_assoc, split_printed solid]
  -- the file ends behind the last line, or its end and a blank line are the pair that cuts the stanza off
  cases blank with
  | zero =>
    obtain rfl : rest = [] := by
      by_contra more
      exact apart more rfl
    show [joinWith ['\n'] ls ++ ['\n']].filterMap read? = _
    rw [List.filterMap_cons, read_of_lined ended]
    cases ofLines? ls <;> rfl
  | succ blank =>
    have next : splitStanzas ('\n' :: (blankLines (blank + 1) ++ rest)) =
        [] :: splitStanzas (blankLines blank ++ rest) := by
      rw [blankLines, List.replicate_succ, List.cons_append, splitStanzas]
      rfl
    rw [next, List.modifyHead_cons, List.append_nil, List.filterMap_cons, read_of_lined open_, ← readAll,
      read_all_behind_blank blank start]
    cases ofLines? ls <;> rfl

theorem lower_of_blank (blank : isBlank c = true) : lowerAscii c = c := by
  unfold lowerAscii
  split
  · rename_i letter
    have low : 65 ≤ c.toNat := letter.1
    have high : c.toNat ≤ 90 := letter.2
    simp [isBlank] at blank
    omega
  · rfl

/-- A key in letters of any case is one word and holds no colon. -/
theorem written_key_solid {f : StatusField} {written : Text} (lowered : toLowerAscii written = f.key) :
    (∀ c ∈ written, isBlank c = false) ∧ ':' ∉ written ∧ written ≠ [] := by
  have solid : f.key.any isBlank = false ∧ ':' ∉ f.key ∧ f.key ≠ [] := by cases f <;> decide
  have inKey : ∀ c ∈ written, lowerAscii c ∈ f.key := fun c member => lowered ▸ List.mem_map_of_mem member
  refine ⟨fun c member => ?_, fun colon => solid.2.1 (inKey ':' colon), ?_⟩
  · rw [Bool.eq_false_iff]
    intro blank
    have lower := List.any_eq_false.mp solid.1 _ (inKey c member)
    rw [lower_of_blank blank] at lower
    exact lower blank
  · rintro rfl
    exact solid.2.2 lowered.symm

theorem solid_trimmed {t : Text} (solid : ∀ c ∈ t, isBlank c = false) : Trimmed t :=
  ⟨fun c first => solid c (List.mem_of_head? first), fun c last => solid c (List.mem_of_getLast? last)⟩

theorem not_continuation (first : ∀ c, t.head? = some c → isBlank c = false) : isContinuation t = false := by
  rw [Bool.eq_false_iff]
  intro continued
  cases t with
  | nil => cases continued
  | cons c t =>
    have solid := first c rfl
    simp only [isContinuation, startsWith, List.isPrefixOf, Bool.and_true, Bool.or_eq_true, beq_iff_eq] at continued
    rcases continued with rfl | rfl <;> revert solid <;> decide

theorem read_field_line {key : Text} (starts : isContinuation key = false) (free : ':' ∉ key) (value : Text) :
    readField? (key ++ ':' :: ' ' :: value) = some (toLowerAscii (trim key), trim value) := by
  have blank : trim (' ' :: value) = trim value := rfl
  rw [readField?, continuation_before (by decide) (by decide), starts, split_once_at free]
  exact congrArg (fun v => some (toLowerAscii (trim key), v)) blank

theorem read_told {f : StatusField} {value : Text} (told : StanzaLine (some (f, value)) line) :
    readField? line = some (f.key, trim value) := by
  cases told with
  | field _ written _ lowered _ =>
    obtain ⟨solid, free, -⟩ := written_key_solid lowered
    have starts := not_continuation fun c first => solid c (List.mem_of_head? first)
    rw [read_field_line starts free, trim_trimmed (solid_trimmed solid), lowered]

theorem read_untold (told : StanzaLine none line) :
    ∀ field ∈ readField? line, ∀ f : StatusField, field.1 ≠ f.key := by
  cases told with
  | other key value others free _ starts _ =>
    rw [read_field_line starts free]
    rintro _ ⟨⟩
    exact others
  | continued blank rest isBlank _ =>
    have continues : isContinuation (blank :: rest) = true := by
      rcases isBlank with rfl | rfl <;> rfl
    rw [readField?, if_pos continues]
    exact nofun

theorem stanza_line_solid {tell : Option (StatusField × Text)} (told : StanzaLine tell line) :
    line ≠ [] ∧ '\n' ∉ line := by
  cases told with
  | field f written value lowered freeValue =>
    have solid := (written_key_solid lowered).1
    have feed : '\n' ∉ written := fun member => by
      have blank := solid '\n' member
      revert blank
      decide
    exact ⟨by simp, by simp [feed, freeValue]⟩
  | other key value _ _ freeKey _ freeValue => exact ⟨by simp, by simp [freeKey, freeValue]⟩
  | continued blank rest isBlank free =>
    refine ⟨List.cons_ne_nil _ _, ?_⟩
    rcases isBlank with rfl | rfl <;> simp [free]

theorem StanzaLines.solid (printed : StanzaLines told ls) : SolidLines ls := by
  obtain ⟨⟨first, head, -⟩, tells, each, -⟩ := printed
  have every : ∀ line ∈ ls, line ≠ [] ∧ '\n' ∉ line := by
    intro line member
    obtain ⟨tell, -, is⟩ := Readings.mem_of_read each member
    exact stanza_line_solid is
  refine ⟨?_, fun line member => (every line member).1, fun line member => (every line member).2⟩
  rintro rfl
  cases head

def isKnown (key : Text) : Bool := [StatusField.package, .name, .author, .maintainer, .status].any (·.key == key)

theorem is_known_iff (key : Text) : isKnown key = true ↔ ∃ f : StatusField, f.key = key := by
  simp only [isKnown, List.any_eq_true, beq_iff_eq]
  constructor
  · rintro ⟨f, -, same⟩
    exact ⟨f, same⟩
  · rintro ⟨f, same⟩
    exact ⟨f, by cases f <;> simp, same⟩

/-- What is read under the keys of fields is what the lines tell. -/
theorem known_fields {tells : List (Option (StatusField × Text))} (each : List.Forall₂ StanzaLine tells ls) :
    (ls.filterMap readField?).filter (fun field => isKnown field.1) =
      (tells.filterMap id).map fun field => (field.1.key, trim field.2) := by
  induction each with
  | nil => rfl
  | @cons tell line tells ls is _ ih =>
    cases tell with
    | some field =>
      have known : isKnown field.1.key = true := (is_known_iff _).mpr ⟨field.1, rfl⟩
      rw [List.filterMap_cons_some (read_told is), List.filter_cons, if_pos known, ih]
      rfl
    | none =>
      cases found : readField? line with
      | none => rw [List.filterMap_cons_none found, ih]; rfl
      | some field =>
        have unknown : ¬ isKnown field.1 = true := by
          rw [is_known_iff]
          rintro ⟨f, same⟩
          exact read_untold is field found f same.symm
        rw [List.filterMap_cons_some found, List.filter_cons, if_neg unknown, ih]
        rfl

theorem lookup_told (printed : StanzaLines told ls) (f : StatusField) :
    (ls.filterMap readField?).reverse.lookup f.key =
      (told.map fun field => (field.1.key, trim field.2)).reverse.lookup f.key := by
  obtain ⟨-, tells, each, rfl⟩ := printed
  have known : isKnown f.key = true := (is_known_iff _).mpr ⟨f, rfl⟩
  have kept := Keyed.lookup_filter isKnown f.key (ls.filterMap readField?).reverse
  rw [if_pos known] at kept
  rw [← kept, List.filter_reverse, known_fields each]

theorem lookup_of_record (tells : TellsRecord r told) (printed : StanzaLines told ls) (f : StatusField) :
    (ls.filterMap readField?).reverse.lookup f.key = (r.value? f).map trim := by
  have distinct : (((told.map fun field => (field.1.key, trim field.2)).reverse).map (·.1)).Nodup := by
    rw [List.map_reverse, (List.reverse_perm _).nodup_iff, List.map_map]
    have keys := List.Nodup.map (fun _ _ same => StatusField.key_injective same) tells.once
    rwa [List.map_map] at keys
  rw [lookup_told printed]
  ext value
  rw [Keyed.lookup_iff_mem distinct, List.mem_reverse, List.mem_map, Option.map_eq_some_iff]
  constructor
  · rintro ⟨⟨g, v⟩, member, same⟩
    obtain ⟨sameKey, rfl⟩ := Prod.mk.inj same
    obtain rfl := StatusField.key_injective sameKey
    exact ⟨v, (tells.mem_iff g v).mp member, rfl⟩
  · rintro ⟨v, stands, rfl⟩
    exact ⟨(f, v), (tells.mem_iff f v).mpr stands, rfl⟩

theorem record_read (proper : r.Proper) (tells : TellsRecord r told) (printed : StanzaLines told ls) :
    ∃ e, ofLines? ls = some e ∧ ReadFrom r e := by
  have found := lookup_of_record tells printed
  have whole {f : StatusField} (plain : f ≠ .status) : (r.value? f).map trim = r.value? f := by
    cases value : r.value? f with
    | none => rfl
    | some v => rw [Option.map_some, trim_trimmed (proper.trimmed f plain v value)]
  have identifier := (found .package).trans (whole (by decide))
  rw [ofLines?, ofFields?, identifier]
  refine ⟨_, rfl, rfl, (found .name).trans (whole (by decide)), (found .author).trans (whole (by decide)),
    (found .maintainer).trans (whole (by decide)), ?_⟩
  rw [found .status]
  simp [StatusRecord.value?, isInstalled, words_trim]

theorem nameless_read (nameless : ∀ value, (.package, value) ∉ told) (printed : StanzaLines told ls) :
    ofLines? ls = none := by
  have missing : (ls.filterMap readField?).reverse.lookup StatusField.package.key = none := by
    rw [lookup_told printed, List.lookup_eq_none_iff]
    simp only [List.mem_reverse, List.mem_map, bne_iff_ne]
    rintro _ ⟨⟨f, v⟩, member, rfl⟩ same
    obtain rfl := StatusField.key_injective same
    exact nameless v member
  rw [ofLines?, ofFields?, missing]
  rfl

theorem StatusFile.start (printed : StatusFile records t) : t.head? ≠ some '\n' := by
  cases printed with
  | nil => exact nofun
  | record _ _ _ _ lines _ _ => rw [List.append_assoc]; exact printed_start lines.solid _
  | nameless _ _ _ lines _ _ => rw [List.append_assoc]; exact printed_start lines.solid _

/-- A printed status file is read as its records, in their order. -/
theorem stanzas_read_back (printed : StatusFile records t) : List.Forall₂ ReadFrom records (readAll t) := by
  induction printed with
  | nil => exact .nil
  | record _ _ proper tells lines apart others ih =>
    obtain ⟨e, read, as⟩ := record_read proper tells lines
    rw [read_all_printed lines.solid apart others.start, read]
    exact .cons as ih
  | nameless _ _ missing lines apart others ih =>
    rw [read_all_printed lines.solid apart others.start, nameless_read missing lines]
    exact ih

def toolRecord : StatusRecord where
  identifier := "tool".toList
  name := some []
  author := some "Jane: Dev <a@b.c>".toList
  maintainer := none
  status := "install ok installed ".toList

def gameRecord : StatusRecord where
  identifier := "game".toList
  name := none
  author := none
  maintainer := none
  status := "deinstall ok config-files".toList

def toolFields : List (StatusField × Text) :=
  [(.package, "tool".toList), (.status, "install ok installed ".toList), (.name, []),
    (.author, "Jane: Dev <a@b.c>".toList)]

def gameFields : List (StatusField × Text) :=
  [(.status, "deinstall ok config-files".toList), (.package, "game".toList)]

def namelessFields : List (StatusField × Text) :=
  [(.name, "lost".toList), (.status, "install ok installed".toList)]

def toolLines : List Text :=
  ["pAckage: tool", " Status: hold", "status: install ok installed ", "Description: a: b", "\t", "NAME: ",
    "Author: Jane: Dev <a@b.c>"].map String.toList

def namelessLines : List Text := ["Name: lost", "Status: install ok installed"].map String.toList

def gameLines : List Text :=
  ["Packages: 2", "Status: deinstall ok config-files", "Package: game"].map String.toList

def mixedStatus : Text :=
  printedLines toolLines ++ blankLines 2 ++
    (printedLines namelessLines ++ blankLines 1 ++ (printedLines gameLines ++ blankLines 0 ++ []))

theorem tool_stanza : toolRecord.Proper ∧ TellsRecord toolRecord toolFields ∧ StanzaLines toolFields toolLines := by
  refine ⟨⟨fun f other => ?_⟩, ⟨by decide, fun f v => ?_⟩, ⟨_, rfl, by decide⟩,
    [some (.package, _), none, some (.status, _), none, none, some (.name, []), some (.author, _)], ?_, rfl⟩
  · cases f with
    | status => exact absurd rfl other
    | _ => decide
  · cases f <;> simp [toolFields, toolRecord, StatusRecord.value?, eq_comm]
  · exact .cons (.field .package "pAckage".toList _ (by decide) (by decide)) <|
      .cons (.continued ' ' "Status: hold".toList (.inl rfl) (by decide)) <|
      .cons (.field .status "status".toList _ (by decide) (by decide)) <|
      .cons (.other "Description".toList "a: b".toList (fun f => by cases f <;> decide) (by decide) (by decide)
        (by decide) (by decide)) <|
      .cons (.continued '\t' [] (.inr rfl) (by decide)) <|
      .cons (.field .name "NAME".toList [] (by decide) (by decide)) <|
      .cons (.field .author "Author".toList _ (by decide) (by decide)) .nil

theorem nameless_stanza :
    (∀ value, (.package, value) ∉ namelessFields) ∧ StanzaLines namelessFields namelessLines := by
  refine ⟨by simp [namelessFields], ⟨_, rfl, by decide⟩, [some (.name, _), some (.status, _)], ?_, rfl⟩
  exact .cons (.field .name "Name".toList _ (by decide) (by decide)) <|
    .cons (.field .status "Status".toList _ (by decide) (by decide)) .nil

theorem game_stanza : gameRecord.Proper ∧ TellsRecord gameRecord gameFields ∧ StanzaLines gameFields gameLines := by
  refine ⟨⟨fun f other => ?_⟩, ⟨by decide, fun f v => ?_⟩, ⟨_, rfl, by decide⟩,
    [none, some (.status, _), some (.package, _)], ?_, rfl⟩
  · cases f with
    | status => exact absurd rfl other
    | _ => decide
  · cases f <;> simp [gameFields, gameRecord, StatusRecord.value?, eq_comm]
  · exact .cons (.other "Packages".toList ['2'] (fun f => by cases f <;> decide) (by decide) (by decide) (by decide)
        (by decide)) <|
      .cons (.field .status "Status".toList _ (by decide) (by decide)) <|
      .cons (.field .package "Package".toList _ (by decide) (by decide)) .nil

theorem stanzas_read_back_of_mixed :
    StatusFile [toolRecord, gameRecord] mixedStatus ∧
      List.Forall₂ ReadFrom [toolRecord, gameRecord] (readAll mixedStatus) ∧
      readAll mixedStatus =
        [⟨"tool".toList, some [], some "Jane: Dev <a@b.c>".toList, none, true⟩,
          ⟨"game".toList, none, none, none, false⟩] := by
  obtain ⟨toolProper, toolTold, tool⟩ := tool_stanza
  obtain ⟨gameProper, gameTold, game⟩ := game_stanza
  have printed : StatusFile [toolRecord, gameRecord] mixedStatus :=
    .record 2 toolFields toolProper toolTold tool (by decide) <|
    .nameless 1 namelessFields nameless_stanza.1 nameless_stanza.2 (by decide) <|
    .record 0 gameFields gameProper gameTold game (by decide) .nil
  exact ⟨printed, stanzas_read_back printed, by decide +kernel⟩

end StatusEntry
end CrashTriage
