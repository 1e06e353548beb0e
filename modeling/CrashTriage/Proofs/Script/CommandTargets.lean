import CrashTriage.Proofs.Script.WrittenLines

/-
Commands of includes. Words that are quoted or joined are read back, whatever they hold but NUL characters. So
the target of a command gives its words again, and the instruction can be written and read as often as one
likes without a word being split, merged or changed.
-/
namespace CrashTriage
namespace Instruction

open Words

variable {i : Instruction} {ws : List Text}

/-- Writes an instruction and reads it again, once on a line of each number. -/
def reprint (i : Instruction) : List Nat → Except ScriptError (Option Instruction)
  | [] => .ok (some i)
  | number :: rest =>
    match read? i.write number with
    | .ok (some again) => again.reprint rest
    | other => other

/-- An include of the command that consists of these words. -/
structure IncludesCommand (i : Instruction) (ws : List Text) : Prop where
  target : i.directive = .attach ⟨.command, join ws⟩
  some_ : ws.all (·.isEmpty) = false
  words : ∀ w ∈ ws, Writable w
  title : i.title = i.directive.defaultTitle ∨ Writable i.title

def commandLine (stated : Option Text) (ws : List Text) : List Text :=
  "include".toList :: (Directive.titleWords stated ++ "command".toList :: ws)

theorem read_quoted {w : Text} (writable : Writable w) : Words.read? (quote w) = some [w] := by
  rw [← join_singleton]
  apply read_join
  simpa using writable

theorem attach_of_titled {d : Directive} {title : Text} {e : Include} (titled : d.withTitle title = .attach e) :
    d = .attach e := by
  cases d with
  | attach _ => exact titled
  | contact _ => cases titled
  | deny _ => cases titled

/-- The words that a line of an include of a command has. -/
theorem command_of_line {line target : Text} {number : Nat} (writable : Writable line)
    (read : read? line number = .ok (some i)) (form : i.directive = .attach ⟨.command, target⟩) :
    ∃ stated ws, i.tokens = commandLine stated ws ∧ IncludesCommand i ws := by
  obtain ⟨keyword, words, reader, stated, d, found, known, answered, rfl⟩ := read_some read
  have attached : d = .attach ⟨.command, target⟩ := attach_of_titled form
  have writableLine : ∀ c ∈ Text.trim line, c ≠ '\x00' := fun c member => writable c (Text.mem_of_trim member)
  have writableWords : ∀ w ∈ keyword :: words, Writable w :=
    words_from (P := (· ≠ '\x00')) (by decide) found (by simp) writableLine
  rcases Directive.reader_cases known with ⟨rfl, rfl⟩ | ⟨_, rfl⟩ | ⟨_, rfl⟩
  · obtain ⟨kind, ws, rfl, some_, include_⟩ := Directive.read_include_iff.mp answered
    rw [attached] at include_
    obtain ⟨rfl, rfl⟩ : .command = kind ∧ target = Directive.targetOf kind ws := by simpa using include_
    subst attached
    simp only [List.forall_mem_cons, List.forall_mem_append] at writableWords
    refine ⟨stated, ws, rfl, rfl, some_, writableWords.2.2.2, ?_⟩
    cases stated with
    | none => exact .inl rfl
    | some title => exact .inr (writableWords.2.1 title (Directive.title_word rfl))
  · obtain ⟨_, _, _, _, _, link⟩ := Directive.read_link_iff.mp answered
    rw [attached] at link
    cases link
  · obtain ⟨_, _, deny⟩ := Directive.read_deny_iff.mp answered
    rw [attached] at deny
    cases deny

theorem command_written (command : IncludesCommand i ws) : i.write = join (commandLine i.statedTitle? ws) := by
  apply include_written .command ws command.target (by simp)
  rintro rfl
  exact absurd command.some_ (by decide)

/-- A command keeps its words when it is written and read once. -/
theorem command_read_again (command : IncludesCommand i ws) (number : Nat) :
    ∃ again, read? i.write number = .ok (some again) ∧ again.title = i.title ∧
      again.tokens = commandLine i.statedTitle? ws ∧ IncludesCommand again ws := by
  have reads := include_reads .command ws command.target command.some_
  have titled : ∀ w ∈ Directive.titleWords i.statedTitle?, Writable w :=
    title_words_of (by decide) command.title
  have writable : ∀ w ∈ commandLine i.statedTitle? ws, Writable w := by
    simp only [commandLine, List.forall_mem_cons, List.forall_mem_append]
    exact ⟨by decide, titled, by decide, command.words⟩
  refine ⟨⟨i.title, commandLine i.statedTitle? ws, number, none, i.directive⟩, ?_, rfl, rfl, ?_⟩
  · rw [command_written command]
    exact read_joined writable reads number
  · exact ⟨command.target, command.some_, command.words, command.title⟩

theorem command_reprinted (command : IncludesCommand i ws) (numbers : List Nat) :
    ∃ again, i.reprint numbers = .ok (some again) ∧ again.title = i.title ∧ IncludesCommand again ws := by
  induction numbers generalizing i with
  | nil => exact ⟨i, rfl, rfl, command⟩
  | cons number numbers ih =>
    obtain ⟨once, read, title, _, still⟩ := command_read_again command number
    obtain ⟨again, reread, title', last⟩ := ih still
    refine ⟨again, ?_, title'.trans title, last⟩
    rw [reprint, read]
    exact reread

/-- Words keep their boundaries when they are quoted or joined, and the words of a command do so however often
its instruction is written and read. -/
theorem command_words_kept :
    (∀ w, Writable w → Words.read? (quote w) = some [w]) ∧
      (∀ ws : List Text, (∀ w ∈ ws, Writable w) → Words.read? (join ws) = some ws) ∧
      (∀ line number i target, Writable line → read? line number = .ok (some i) →
        i.directive = .attach ⟨.command, target⟩ →
          ∃ stated ws, i.tokens = commandLine stated ws ∧ IncludesCommand i ws) ∧
      ∀ i ws, IncludesCommand i ws → ∀ numbers, ∃ again, i.reprint numbers = .ok (some again) ∧
        again.title = i.title ∧ again.directive = i.directive ∧
          ∀ target, again.directive = .attach ⟨.command, target⟩ → Words.read? target = some ws := by
  refine ⟨fun w => read_quoted, fun ws => read_join, fun _ _ _ _ => command_of_line, ?_⟩
  intro i ws command numbers
  obtain ⟨again, reread, title, still⟩ := command_reprinted command numbers
  refine ⟨again, reread, title, still.target.trans command.target.symm, ?_⟩
  intro target form
  obtain rfl : join ws = target := by simpa [still.target] using form
  exact read_join command.words

/-- Words with every mark of the quoting rules, empty ones among them. -/
def awkwardWords : List Text :=
  ["", "it's", "^^'\\", "# \"$\x60!", "a\nb\tc", "\x01\x7Fé", "''"].map String.toList

def awkwardLine : Text :=
  "include as \"a\nb\" command '' it\\'s ^^\\'\\\\ \"# \\\"\\$\\\x60!\" 'a\nb\tc' \x01\x7Fé \"''\" # over".toList

theorem command_words_kept_of_awkward_words :
    (∀ w ∈ awkwardWords, Writable w ∧ Words.read? (quote w) = some [w]) ∧
      Words.read? (join awkwardWords) = some awkwardWords ∧ Writable awkwardLine ∧
      ∃ i again, read? awkwardLine 3 = .ok (some i) ∧
        i.directive = .attach ⟨.command, join awkwardWords⟩ ∧ i.title = "a\nb".toList ∧
        i.reprint [7, 7, 1] = .ok (some again) ∧ again.directive = i.directive := by
  obtain ⟨quoted, joined, read, kept⟩ := command_words_kept
  have writable : ∀ w ∈ awkwardWords, Writable w := by decide
  have writableLine : Writable awkwardLine := by decide
  let i : Instruction := ⟨"a\nb".toList, commandLine (some "a\nb".toList) awkwardWords, 3, none,
    .attach ⟨.command, join awkwardWords⟩⟩
  have found : read? awkwardLine 3 = .ok (some i) := by decide +kernel
  obtain ⟨_, ws, _, command⟩ := read awkwardLine 3 i (join awkwardWords) writableLine found rfl
  obtain ⟨again, reread, _, same, _⟩ := kept i ws command [7, 7, 1]
  exact ⟨fun w member => ⟨writable w member, quoted w (writable w member)⟩, joined awkwardWords writable,
    writableLine, i, again, found, rfl, rfl, reread, same⟩

end Instruction
end CrashTriage
