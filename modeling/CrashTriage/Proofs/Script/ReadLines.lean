import CrashTriage.Proofs.Lists
import CrashTriage.Proofs.Script.Quoting
import CrashTriage.Script.Reader

/-
What is read from a line. Each reader of words is given by the words that it accepts. From a line without
NUL characters and line feeds, an instruction of one of six forms is read; what such a form tells is
enough for its words to be written and read once more.
-/
namespace CrashTriage

namespace Directive

open Words

/-- A title that a written line leaves out, or one that it can state. -/
def Stated (title : Text) (d : Directive) : Prop := title = d.defaultTitle ∨ Plain title

/-- An address of a list, as it is read. -/
structure Address (t : Text) : Prop where
  nonempty : t ≠ []
  trimmed : Text.trim t = t
  noComma : ',' ∉ t
  plain : Plain t

structure Addresses (list : List Text) : Prop where
  nonempty : list ≠ []
  each : ∀ t ∈ list, Address t

/-- The titles and directives that are read from lines without a NUL character. -/
inductive Readable : Text → Directive → Prop where
  | named (title : Text) (kind : IncludeKind) (target : Text) : kind ≠ .command → target ≠ [] →
    Plain target → Stated title (.attach ⟨kind, target⟩) → Readable title (.attach ⟨kind, target⟩)
  | command (title : Text) (words : List Text) : words.all (·.isEmpty) = false →
    (∀ w ∈ words, Plain w) → Stated title (.attach ⟨.command, join words⟩) →
    Readable title (.attach ⟨.command, join words⟩)
  | url (title url : Text) : url ≠ [] → Plain url → Stated title (.contact ⟨.url url, false, title⟩) →
    Readable title (.contact ⟨.url url, false, title⟩)
  | support (recipients : List Text) : Addresses recipients →
    Readable "Support".toList (.contact ⟨.email recipients, true, "Support".toList⟩)
  | email (title : Text) (recipients : List Text) : Addresses recipients → Plain title →
    Readable title (.contact ⟨.email recipients, false, title⟩)
  | deny (title : Text) : Text.allBlank title = false → Plain title → Readable title (.deny title)

/-- The words that state a title. -/
def titleWords : Option Text → List Text
  | some title => ["as".toList, title]
  | none => []

theorem take_title_iff {words rest : List Text} {stated : Option Text} :
    takeTitle words = .ok (stated, rest) ↔
      words = titleWords stated ++ rest ∧ (stated = none → rest.head? ≠ some "as".toList) := by
  cases words with
  | nil =>
    cases stated with
    | none => simp +contextual [takeTitle, titleWords, eq_comm]
    | some title => simp [takeTitle, titleWords]
  | cons first words =>
    unfold takeTitle
    dsimp only
    split
    · rename_i as_
      cases words with
      | nil => cases stated <;> simp +contextual [titleWords, as_, eq_comm]
      | cons title words => cases stated <;> simp +contextual [titleWords, as_, eq_comm]
    · rename_i other
      cases stated with
      | none => simp +contextual [titleWords, other, eq_comm]
      | some title => simp [titleWords, other]

theorem of_keyword_iff {word : Text} {kind : IncludeKind} :
    IncludeKind.ofKeyword? word = some kind ↔ word = kind.keyword := by
  constructor
  · intro found
    have same := List.find?_some found
    exact (beq_iff_eq.mp same).symm
  · rintro rfl
    cases kind <;> rfl

/-- What an include names. -/
def targetOf (kind : IncludeKind) (words : List Text) : Text :=
  if kind = .command then join words else Text.joinWith [' '] words

theorem read_include_iff {words : List Text} {stated : Option Text} {d : Directive} :
    readInclude words = .ok (stated, d) ↔ ∃ (kind : IncludeKind) (target : List Text),
      words = titleWords stated ++ kind.keyword :: target ∧ target.all (·.isEmpty) = false ∧
        d = .attach ⟨kind, targetOf kind target⟩ := by
  unfold readInclude
  rw [Readings.bind_ok]
  constructor
  · rintro ⟨⟨title, rest⟩, taken, read⟩
    obtain ⟨whole, _⟩ := take_title_iff.mp taken
    dsimp only at read
    split at read
    · contradiction
    · split at read
      · contradiction
      · rename_i kind known
        split at read
        · contradiction
        · rename_i some_
          cases read
          exact ⟨kind, _, of_keyword_iff.mp known ▸ whole, by simpa using some_, rfl⟩
  · rintro ⟨kind, target, whole, some_, rfl⟩
    have known : IncludeKind.ofKeyword? kind.keyword = some kind := of_keyword_iff.mpr rfl
    have noTitle : kind.keyword ≠ "as".toList := by cases kind <;> decide
    refine ⟨(stated, kind.keyword :: target), take_title_iff.mpr ⟨whole, ?_⟩, ?_⟩
    · exact fun _ first => noTitle (Option.some.inj first)
    · simp only [known, some_]
      rfl

theorem read_link_target_iff {word : Text} {words : List Text} {target : LinkTarget} :
    readLinkTarget word words = .ok target ↔
      (∃ url, word = "url".toList ∧ words = [url] ∧ url ≠ [] ∧ target = .url url) ∨
      (word = "email".toList ∧ readAddresses (Text.joinWith [' '] words) ≠ [] ∧
        target = .email (readAddresses (Text.joinWith [' '] words))) := by
  constructor
  · intro read
    unfold readLinkTarget at read
    split at read
    · rename_i isUrl
      left
      split at read
      · rename_i url
        split at read
        · contradiction
        · rename_i some_
          cases read
          exact ⟨url, isUrl, rfl, by simpa using some_, rfl⟩
      · contradiction
    · split at read
      · rename_i isEmail
        right
        dsimp only at read
        split at read
        · contradiction
        · rename_i some_
          cases read
          exact ⟨isEmail, by simpa using some_, rfl⟩
      · contradiction
  · rintro (⟨url, rfl, rfl, some_, rfl⟩ | ⟨rfl, some_, rfl⟩)
    · simp [readLinkTarget, some_]
    · simp [readLinkTarget, some_]

theorem read_link_iff {words : List Text} {stated : Option Text} {d : Directive} :
    readLink words = .ok (stated, d) ↔ ∃ (word : Text) (rest : List Text) (target : LinkTarget),
      words = titleWords stated ++ word :: rest ∧ readLinkTarget word rest = .ok target ∧
        d = .contact ⟨target, stated.isNone && (Link.mk target false []).isEmail, []⟩ := by
  unfold readLink
  rw [Readings.bind_ok]
  constructor
  · rintro ⟨⟨title, rest⟩, taken, read⟩
    obtain ⟨whole, _⟩ := take_title_iff.mp taken
    dsimp only at read
    split at read
    · contradiction
    · obtain ⟨target, found, link⟩ := Readings.bind_ok.mp read
      cases link
      exact ⟨_, _, target, whole, found, rfl⟩
  · rintro ⟨word, rest, target, whole, found, rfl⟩
    refine ⟨(stated, word :: rest), take_title_iff.mpr ⟨whole, fun _ first => ?_⟩, ?_⟩
    · cases first
      rcases read_link_target_iff.mp found with ⟨_, as_, _⟩ | ⟨as_, _⟩ <;> cases as_
    · exact Readings.bind_ok.mpr ⟨target, found, rfl⟩

theorem read_deny_iff {words : List Text} {stated : Option Text} {d : Directive} :
    readDeny words = .ok (stated, d) ↔
      Text.allBlank (Text.joinWith [' '] words) = false ∧ stated = none ∧
        d = .deny (Text.joinWith [' '] words) := by
  unfold readDeny
  dsimp only
  split
  · rename_i blank
    simp [blank]
  · rename_i some_
    simp [some_, eq_comm]

theorem plain_joined {sep : Text} {words : List Text} (plainSep : Plain sep)
    (plain : ∀ w ∈ words, Plain w) : Plain (Text.joinWith sep words) := fun c member => by
  rcases Text.mem_joined member with between | ⟨w, there, inside⟩
  · exact plainSep c between
  · exact plain w there c inside

theorem joined_nonempty {sep : Text} {words : List Text} (some_ : words.all (·.isEmpty) = false) :
    Text.joinWith sep words ≠ [] := by
  obtain ⟨w, member, nonempty⟩ := List.all_eq_false.mp some_
  have nonempty : w ≠ [] := by simpa using nonempty
  obtain ⟨c, rest, rfl⟩ := List.exists_cons_of_ne_nil nonempty
  exact List.ne_nil_of_mem (Text.joined_mem member List.mem_cons_self)

theorem addresses_of_read {list : Text} (plain : Plain list) (some_ : readAddresses list ≠ []) :
    Addresses (readAddresses list) := by
  refine ⟨some_, fun t member => ?_⟩
  obtain ⟨fields, nonempty⟩ := List.mem_filter.mp member
  obtain ⟨field, there, rfl⟩ := List.mem_map.mp fields
  have inField (c : Char) (inside : c ∈ Text.trim field) : c ∈ list ∧ (c == ',') = false :=
    Text.split_by_fields field there c (Text.mem_of_trim inside)
  refine ⟨by simpa using nonempty, Text.trim_trimmed (Text.trimmed_trim field), fun comma => ?_,
    fun c inside => plain c (inField c inside).1⟩
  exact absurd (inField ',' comma).2 (by decide)

theorem read_joined_addresses {list : List Text} (addresses : Addresses list) :
    readAddresses (Text.joinWith [','] list) = list := by
  have trimmed : list.map Text.trim = list := by
    rw [List.map_congr_left fun t member => (addresses.each t member).trimmed, List.map_id']
  rw [readAddresses, Text.split_joined addresses.nonempty fun t member => (addresses.each t member).noComma,
    trimmed, List.filter_eq_self]
  intro t member
  simpa using (addresses.each t member).nonempty

theorem default_with_title (title : Text) (d : Directive) :
    (d.withTitle title).defaultTitle = d.defaultTitle := by
  cases d with
  | attach e => rfl
  | deny t => rfl
  | contact l =>
    obtain ⟨target, isSupport, unlocalized⟩ := l
    cases target <;> rfl

theorem stated_title {stated : Option Text} {d : Directive} (plain : ∀ t ∈ stated, Plain t) :
    Stated (stated.getD d.defaultTitle) d := by
  cases stated with
  | none => exact .inl rfl
  | some title => exact .inr (plain title rfl)

theorem title_word {stated : Option Text} {t : Text} (title : t ∈ stated) : t ∈ titleWords stated := by
  rw [Option.mem_def] at title
  simp [title, titleWords]

theorem reader_cases {keyword : Text}
    {reader : List Text → Except ScriptFault (Option Text × Directive)}
    (known : reader? keyword = some reader) :
    (keyword = "include".toList ∧ reader = readInclude) ∨
      (keyword = "link".toList ∧ reader = readLink) ∨
      (keyword = "deny".toList ∧ reader = readDeny) := by
  unfold reader? at known
  split at known
  · rename_i word
    exact .inl ⟨word, (Option.some.inj known).symm⟩
  · split at known
    · rename_i word
      exact .inr (.inl ⟨word, (Option.some.inj known).symm⟩)
    · split at known
      · rename_i word
        exact .inr (.inr ⟨word, (Option.some.inj known).symm⟩)
      · contradiction

theorem read_readable {keyword : Text} {words : List Text} {stated : Option Text} {d : Directive}
    {reader : List Text → Except ScriptFault (Option Text × Directive)}
    (known : reader? keyword = some reader) (read : reader words = .ok (stated, d))
    (plain : ∀ w ∈ words, Plain w) :
    Readable (stated.getD d.defaultTitle) (d.withTitle (stated.getD d.defaultTitle)) := by
  have plainTitle {rest : List Text} (whole : words = titleWords stated ++ rest) :
      ∀ t ∈ stated, Plain t := fun t title =>
    plain t (whole ▸ List.mem_append_left rest (title_word title))
  have plainRest {rest : List Text} (whole : words = titleWords stated ++ rest) :
      ∀ w ∈ rest, Plain w := fun w member => plain w (whole ▸ List.mem_append_right _ member)
  rcases reader_cases known with ⟨_, rfl⟩ | ⟨_, rfl⟩ | ⟨_, rfl⟩
  · obtain ⟨kind, target, whole, some_, rfl⟩ := read_include_iff.mp read
    have titled := stated_title (d := .attach ⟨kind, targetOf kind target⟩) (plainTitle whole)
    have plainTarget := (List.forall_mem_cons.mp (plainRest whole)).2
    by_cases command : kind = .command
    · subst command
      exact .command _ target some_ plainTarget titled
    · have target_ : targetOf kind target = Text.joinWith [' '] target := if_neg command
      rw [target_] at titled ⊢
      exact .named _ kind _ command (joined_nonempty some_) (plain_joined (by decide) plainTarget) titled
  · obtain ⟨word, rest, target, whole, found, rfl⟩ := read_link_iff.mp read
    have plainRest := (List.forall_mem_cons.mp (plainRest whole)).2
    have titled := stated_title (d := .contact ⟨target, false, []⟩) (plainTitle whole)
    rcases read_link_target_iff.mp found with ⟨url, _, rfl, some_, rfl⟩ | ⟨_, some_, rfl⟩
    · have noSupport : (stated.isNone && (Link.mk (.url url) false []).isEmail) = false := Bool.and_false _
      rw [noSupport]
      exact .url _ url some_ (plainRest url List.mem_cons_self) titled
    · have addresses := addresses_of_read (plain_joined (by decide) plainRest) some_
      cases stated with
      | none => exact .support _ addresses
      | some title => exact .email _ _ addresses (plainTitle whole title rfl)
  · obtain ⟨some_, rfl, rfl⟩ := read_deny_iff.mp read
    exact .deny _ some_ (plain_joined (by decide) plain)

end Directive

namespace Instruction

open Words

theorem read_some {line : Text} {number : Nat} {i : Instruction}
    (read : read? line number = .ok (some i)) : ∃ keyword words reader stated d,
      Words.read? (Text.trim line) = some (keyword :: words) ∧
      Directive.reader? keyword = some reader ∧ reader words = .ok (stated, d) ∧
      i = ⟨stated.getD d.defaultTitle, keyword :: words, number, none,
        d.withTitle (stated.getD d.defaultTitle)⟩ := by
  unfold read? at read
  dsimp only at read
  split at read
  · cases read
  · split at read
    · contradiction
    · cases read
    · rename_i keyword words found
      split at read
      · contradiction
      · rename_i reader known
        split at read
        · contradiction
        · rename_i stated d answered
          cases read
          exact ⟨keyword, words, reader, stated, d, found, known, answered, rfl⟩

theorem marked_not_passed {line : Text} (marked : Marked line) :
    (line.isEmpty || Text.startsWith line ['#']) = false := by
  obtain ⟨c, rest, rfl, mark⟩ := marked.start
  simp [Text.startsWith, List.isPrefixOf, (mark_starts_word mark).2.symm]

theorem read_of_words {line keyword : Text} {words : List Text} {number : Nat}
    {stated : Option Text} {d : Directive}
    {reader : List Text → Except ScriptFault (Option Text × Directive)} (marked : Marked line)
    (found : Words.read? line = some (keyword :: words))
    (known : Directive.reader? keyword = some reader) (answered : reader words = .ok (stated, d)) :
    read? line number = .ok (some ⟨stated.getD d.defaultTitle, keyword :: words, number, none,
      d.withTitle (stated.getD d.defaultTitle)⟩) := by
  simp [read?, marked_trimmed marked, marked_not_passed marked, found, known, answered]

theorem fault_of_words {line keyword : Text} {words : List Text} {number : Nat} {fault : ScriptFault}
    {reader : List Text → Except ScriptFault (Option Text × Directive)} (marked : Marked line)
    (found : Words.read? line = some (keyword :: words))
    (known : Directive.reader? keyword = some reader) (answered : reader words = .error fault) :
    read? line number = .error (.malformed number fault) := by
  simp [read?, marked_trimmed marked, marked_not_passed marked, found, known, answered]

theorem line_readable {line : Text} {number : Nat} {i : Instruction} (plain : Plain line)
    (read : read? line number = .ok (some i)) : Directive.Readable i.title i.directive := by
  obtain ⟨keyword, words, reader, stated, d, found, known, answered, rfl⟩ := read_some read
  have trimmed : Plain (Text.trim line) := fun c inside => plain c (Text.mem_of_trim inside)
  have plainWords := (List.forall_mem_cons.mp (plain_words trimmed found)).2
  exact Directive.read_readable known answered plainWords

end Instruction
end CrashTriage
