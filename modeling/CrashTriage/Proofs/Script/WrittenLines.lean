import CrashTriage.Proofs.Script.ReadLines

/-
Lines that instructions are written as. Such a line consists of a keyword, a title unless it is left out,
and what the instruction names; for an instruction that was read, these words read back to the same title
and the same directive.
-/
namespace CrashTriage
namespace Directive

open Words

theorem join_stated {keyword : Text} (bare : IsBare keyword) (title : Text) :
    join (keyword :: titleWords (some title)) = keyword ++ " as ".toList ++ quote title := by
  have between : " as ".toList = ' ' :: "as".toList ++ [' '] := by decide
  rw [titleWords, join_bare bare (by simp), join_bare (by decide) (by simp), join_singleton, between]
  simp only [List.append_assoc, List.cons_append, List.nil_append]

theorem join_unstated {keyword : Text} (bare : IsBare keyword) :
    join (keyword :: titleWords none) = keyword := by
  rw [titleWords, join_singleton, quote_bare bare]

/-- The words of a line: a keyword, a title perhaps, another keyword, and what follows it. -/
theorem join_line {keyword kind : Text} {stated : Option Text} {rest : List Text}
    (bare : IsBare kind) (some_ : rest ≠ []) :
    join (keyword :: (titleWords stated ++ kind :: rest)) =
      join (keyword :: titleWords stated) ++ ' ' :: kind ++ ' ' :: join rest := by
  rw [← List.cons_append, join_append (by simp) (by simp), join_bare bare some_]
  simp only [List.append_assoc, List.cons_append]
end Directive

namespace Instruction

open Words

/-- The title that a line states when it may be left out. -/
def statedTitle? (i : Instruction) : Option Text :=
  if i.title = i.directive.defaultTitle then none else some i.title

theorem write_head_joined (i : Instruction) {keyword : Text} (bare : IsBare keyword) :
    i.writeHead keyword = join (keyword :: Directive.titleWords i.statedTitle?) := by
  unfold writeHead statedTitle?
  split
  · rw [Directive.join_unstated bare]
  · rw [Directive.join_stated bare]

theorem stated_or_default (i : Instruction) :
    i.statedTitle?.getD i.directive.defaultTitle = i.title := by
  unfold statedTitle?
  split
  · rename_i default
    exact default.symm
  · rfl

theorem plain_pair {v w : Text} (first : Plain v) (second : Plain w) : ∀ u ∈ [v, w], Plain u := by
  simp only [List.forall_mem_cons, List.not_mem_nil, false_implies, implies_true, and_true]
  exact ⟨first, second⟩

theorem title_words_of {i : Instruction} {holds : Text → Prop} (as_ : holds "as".toList)
    (stated : i.title = i.directive.defaultTitle ∨ holds i.title) :
    ∀ w ∈ Directive.titleWords i.statedTitle?, holds w := by
  unfold statedTitle?
  split
  · simp [Directive.titleWords]
  · rename_i other
    simp only [Directive.titleWords, List.forall_mem_cons]
    exact ⟨as_, stated.resolve_left other, by simp⟩

theorem title_words_plain {i : Instruction} (stated : Directive.Stated i.title i.directive) :
    ∀ w ∈ Directive.titleWords i.statedTitle?, Plain w := title_words_of (by decide) stated

/-- What the words of a line are read as. -/
def ReadsAs (keyword : Text) (words : List Text) (title : Text) (d : Directive) : Prop :=
  ∃ reader stated read, Directive.reader? keyword = some reader ∧ reader words = .ok (stated, read) ∧
    stated.getD read.defaultTitle = title ∧ read.withTitle title = d

/-- An instruction whose line has words that read as the instruction. -/
def Restorable (i : Instruction) : Prop :=
  ∃ keyword words, i.write = join (keyword :: words) ∧ (∀ w ∈ keyword :: words, Plain w) ∧
    ReadsAs keyword words i.title i.directive

theorem line_plain {keyword kind : Text} {stated : Option Text} {rest : List Text}
    (bare : IsBare keyword) (title : ∀ w ∈ Directive.titleWords stated, Plain w)
    (bareKind : IsBare kind) (plain : ∀ w ∈ rest, Plain w) :
    ∀ w ∈ keyword :: (Directive.titleWords stated ++ kind :: rest), Plain w := by
  simp only [List.forall_mem_cons, List.forall_mem_append]
  exact ⟨bare_plain bare, title, bare_plain bareKind, plain⟩

theorem kind_bare (kind : IncludeKind) : IsBare kind.keyword := by
  cases kind <;> decide

theorem include_written {i : Instruction} (kind : IncludeKind) (target : List Text)
    (form : i.directive = .attach ⟨kind, Directive.targetOf kind target⟩)
    (alone : kind ≠ .command → ∃ word, target = [word]) (nonempty : target ≠ []) :
    i.write = join ("include".toList :: (Directive.titleWords i.statedTitle? ++ kind.keyword :: target)) := by
  rw [Directive.join_line (kind_bare kind) nonempty, ← write_head_joined i (by decide), write, form]
  by_cases command : kind = .command
  · simp [command, Directive.targetOf]
  · obtain ⟨word, rfl⟩ := alone command
    simp [command, Directive.targetOf, Text.joinWith, join_singleton]

theorem include_reads {i : Instruction} (kind : IncludeKind) (target : List Text)
    (form : i.directive = .attach ⟨kind, Directive.targetOf kind target⟩)
    (some_ : target.all (·.isEmpty) = false) :
    ReadsAs "include".toList (Directive.titleWords i.statedTitle? ++ kind.keyword :: target) i.title
      i.directive := by
  have read : Directive.readInclude (Directive.titleWords i.statedTitle? ++ kind.keyword :: target) =
      .ok (i.statedTitle?, i.directive) :=
    Directive.read_include_iff.mpr ⟨kind, target, rfl, some_, form⟩
  refine ⟨Directive.readInclude, _, _, rfl, read, stated_or_default i, ?_⟩
  rw [form]
  rfl

theorem include_restorable {i : Instruction} (kind : IncludeKind) (target : List Text)
    (form : i.directive = .attach ⟨kind, Directive.targetOf kind target⟩)
    (alone : kind ≠ .command → ∃ word, target = [word])
    (some_ : target.all (·.isEmpty) = false) (plain : ∀ w ∈ target, Plain w)
    (stated : Directive.Stated i.title i.directive) : Restorable i := by
  have nonempty : target ≠ [] := by
    rintro rfl
    contradiction
  exact ⟨"include".toList, Directive.titleWords i.statedTitle? ++ kind.keyword :: target,
    include_written kind target form alone nonempty,
    line_plain (by decide) (title_words_plain stated) (kind_bare kind) plain,
    include_reads kind target form some_⟩

theorem link_restorable {i : Instruction} (stated : Option Text) (kind word : Text)
    {target : LinkTarget} {isSupport : Bool}
    (form : i.directive = .contact ⟨target, isSupport, i.title⟩)
    (written : i.write = join ("link".toList :: Directive.titleWords stated) ++ ' ' :: kind ++
      ' ' :: quote word)
    (bareKind : IsBare kind) (plainTitle : ∀ w ∈ Directive.titleWords stated, Plain w)
    (plain : Plain word) (found : Directive.readLinkTarget kind [word] = .ok target)
    (titled : stated.getD i.directive.defaultTitle = i.title)
    (support : (stated.isNone && (Link.mk target false []).isEmail) = isSupport) : Restorable i := by
  have read : Directive.readLink (Directive.titleWords stated ++ [kind, word]) =
      .ok (stated, .contact ⟨target, isSupport, []⟩) :=
    Directive.read_link_iff.mpr ⟨kind, [word], target, rfl, found, by rw [support]⟩
  have same : (Directive.contact ⟨target, isSupport, []⟩).withTitle i.title = i.directive := by
    rw [form]
    rfl
  refine ⟨"link".toList, Directive.titleWords stated ++ [kind, word], ?_,
    line_plain (by decide) plainTitle bareKind (by simpa using plain),
    Directive.readLink, stated, _, rfl, read, ?_, same⟩
  · rw [written, Directive.join_line bareKind (List.cons_ne_nil _ _), join_singleton]
  · rw [← Directive.default_with_title i.title, same, titled]

theorem deny_restorable {i : Instruction} (form : i.directive = .deny i.title)
    (some_ : Text.allBlank i.title = false) (plain : Plain i.title) : Restorable i := by
  have alone : Text.joinWith [' '] [i.title] = i.title := List.intercalate_singleton
  have read : Directive.readDeny [i.title] = .ok (none, i.directive) :=
    Directive.read_deny_iff.mpr ⟨alone.symm ▸ some_, rfl, alone.symm ▸ form⟩
  refine ⟨"deny".toList, [i.title], ?_, plain_pair (by decide) plain, Directive.readDeny, none, _, rfl, read, ?_, ?_⟩
  · rw [write, form, join_bare (by decide) (List.cons_ne_nil _ _), join_singleton]
    rfl
  · rw [form]
    rfl
  · rw [form]
    rfl

theorem addresses_found {list : List Text} (addresses : Directive.Addresses list) :
    Directive.readLinkTarget "email".toList [Text.joinWith [','] list] = .ok (.email list) := by
  have alone : Text.joinWith [' '] [Text.joinWith [','] list] = Text.joinWith [','] list :=
    List.intercalate_singleton
  refine Directive.read_link_target_iff.mpr (.inr ⟨rfl, ?_, ?_⟩)
  · rw [alone, Directive.read_joined_addresses addresses]
    exact addresses.nonempty
  · rw [alone, Directive.read_joined_addresses addresses]

theorem email_restorable {i : Instruction} (stated : Option Text) {recipients : List Text}
    {isSupport : Bool} (addresses : Directive.Addresses recipients)
    (form : i.directive = .contact ⟨.email recipients, isSupport, i.title⟩)
    (written : i.write = join ("link".toList :: Directive.titleWords stated) ++ " email ".toList ++
      quote (Text.joinWith [','] recipients))
    (plainTitle : ∀ w ∈ Directive.titleWords stated, Plain w)
    (titled : stated.getD i.directive.defaultTitle = i.title)
    (support : stated.isNone = isSupport) : Restorable i := by
  have between : " email ".toList = ' ' :: "email".toList ++ [' '] := by decide
  have plain : Plain (Text.joinWith [','] recipients) :=
    Directive.plain_joined (by decide) fun t there => (addresses.each t there).plain
  refine link_restorable stated "email".toList _ form ?_ (by decide) plainTitle plain
    (addresses_found addresses) titled ((Bool.and_true _).trans support)
  rw [written, between]
  simp only [List.append_assoc, List.cons_append, List.nil_append]

theorem readable_restorable {i : Instruction} (readable : Directive.Readable i.title i.directive) :
    Restorable i := by
  obtain ⟨title, tokens, order, origin, directive⟩ := i
  dsimp only at readable
  cases readable with
  | named _ kind target other nonempty plain stated =>
    have alone : Directive.targetOf kind [target] = target := by
      simp [Directive.targetOf, other, Text.joinWith]
    refine include_restorable kind [target] (by rw [alone]) ?_ ?_ ?_ stated
    · exact fun _ => ⟨target, rfl⟩
    · simpa using nonempty
    · simpa using plain
  | command _ words some_ plain stated =>
    exact include_restorable .command words rfl (by simp) some_ plain stated
  | url _ url nonempty plain stated =>
    have between : " url ".toList = ' ' :: "url".toList ++ [' '] := by decide
    refine link_restorable (statedTitle? _) "url".toList url rfl ?_ (by decide)
      (title_words_plain stated) plain ?_ (stated_or_default _) (Bool.and_false _)
    · rw [← write_head_joined _ (by decide)]
      simp [write, between, Link.isEmail]
    · exact Directive.read_link_target_iff.mpr (.inl ⟨url, rfl, rfl, nonempty, rfl⟩)
  | support recipients addresses =>
    refine email_restorable none addresses rfl ?_ (by simp [Directive.titleWords]) rfl rfl
    rw [Directive.join_unstated (by decide)]
    simp [write]
  | email title recipients addresses plain =>
    refine email_restorable (some title) addresses rfl ?_ (plain_pair (by decide) plain) rfl rfl
    rw [Directive.join_stated (by decide)]
    simp [write, Link.isEmail]
  | deny _ some_ plain => exact deny_restorable rfl some_ plain

/-- A written line of words that read as an instruction is read as that instruction. -/
theorem read_joined {keyword title : Text} {words : List Text} {d : Directive}
    (writable : ∀ w ∈ keyword :: words, Writable w) (reads : ReadsAs keyword words title d) (number : Nat) :
    read? (join (keyword :: words)) number = .ok (some ⟨title, keyword :: words, number, none, d⟩) := by
  obtain ⟨reader, stated, read, known, answered, titled, directed⟩ := reads
  have marked : Marked (join (keyword :: words)) := join_marked writable (List.cons_ne_nil keyword words)
  rw [read_of_words marked (read_join writable) known answered, titled, directed]

theorem written_marked {i : Instruction} (restorable : Restorable i) : Marked i.write := by
  obtain ⟨keyword, words, written, plain, _⟩ := restorable
  exact written ▸ join_marked (all_writable plain) (List.cons_ne_nil keyword words)

theorem written_plain {i : Instruction} (restorable : Restorable i) : Plain i.write := by
  obtain ⟨_, _, written, plain, _⟩ := restorable
  exact written ▸ join_plain plain

theorem read_written {i : Instruction} (restorable : Restorable i) (number : Nat) :
    ∃ tokens, read? i.write number = .ok (some ⟨i.title, tokens, number, none, i.directive⟩) := by
  obtain ⟨keyword, words, written, plain, reads⟩ := restorable
  refine ⟨keyword :: words, ?_⟩
  rw [written]
  exact read_joined (all_writable plain) reads number

end Instruction
end CrashTriage
