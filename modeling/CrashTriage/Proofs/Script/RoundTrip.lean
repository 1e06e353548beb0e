import CrashTriage.Proofs.Script.EvaluatedChain
import CrashTriage.Proofs.Script.WrittenLines
import CrashTriage.Proofs.Text.Lines

/-
Scripts that are written and read again. What a script says is the titles and directives of its
instructions; a script that was read is written one line an instruction, and these lines say the same
once more, without errors, and leave the same links and includes when they are evaluated.
-/
namespace CrashTriage

namespace Instruction

/-- What an instruction says, apart from where it stands. -/
def content (i : Instruction) : Text × Directive := (i.title, i.directive)

/-- An instruction that says something, and nothing else. -/
def saying (x : Text × Directive) : Instruction := ⟨x.1, [], 0, none, x.2⟩

theorem write_saying (i : Instruction) : (saying i.content).write = i.write := by
  obtain ⟨_, _, _, _, _⟩ := i
  rfl

end Instruction

namespace Script

open Words

def contents (s : Script) : List (Text × Directive) := s.instructions.map (·.content)

theorem mem_read_lines {lines : List Text} {number : Nat} {i : Instruction}
    (member : i ∈ (readLines number lines).instructions) :
    ∃ line ∈ lines, ∃ n, Instruction.read? line n = .ok (some i) := by
  induction lines generalizing number with
  | nil => simp [readLines, empty] at member
  | cons line rest ih =>
    have later (there : i ∈ (readLines (number + 1) rest).instructions) :
        ∃ l ∈ line :: rest, ∃ n, Instruction.read? l n = .ok (some i) := by
      obtain ⟨l, inRest, n, read⟩ := ih there
      exact ⟨l, List.mem_cons_of_mem line inRest, n, read⟩
    unfold readLines at member
    dsimp only at member
    split at member
    · rename_i first read
      rcases List.mem_cons.mp member with rfl | there
      · exact ⟨line, List.mem_cons_self, number, read⟩
      · exact later there
    · exact later member
    · exact later member

theorem read_restorable {text : Text} (noNul : '\x00' ∉ text) :
    ∀ i ∈ (read text).instructions, Instruction.Restorable i := by
  intro i member
  obtain ⟨line, there, n, read⟩ := mem_read_lines member
  have plain : Plain line := fun c inside =>
    ⟨fun nul => noNul (nul ▸ (Text.line_chars there c inside).1), (Text.line_chars there c inside).2⟩
  exact Instruction.readable_restorable (Instruction.line_readable plain read)

theorem read_written_lines {is : List Instruction} (restorable : ∀ i ∈ is, Instruction.Restorable i)
    (number : Nat) :
    (readLines number (is.map (·.write))).errors = [] ∧
      (readLines number (is.map (·.write))).contents = is.map (·.content) := by
  induction is generalizing number with
  | nil => exact ⟨rfl, rfl⟩
  | cons i is ih =>
    rw [List.forall_mem_cons] at restorable
    obtain ⟨tokens, read⟩ := Instruction.read_written restorable.1 number
    obtain ⟨errors, contents⟩ := ih restorable.2 (number + 1)
    rw [List.map_cons, readLines, read]
    refine ⟨errors, ?_⟩
    rw [List.map_cons, ← contents]
    rfl

theorem lines_of_written {s : Script} (restorable : ∀ i ∈ s.instructions, Instruction.Restorable i) :
    Text.lines s.write = s.instructions.map (·.write) := by
  have ended : s.write = (s.instructions.map (·.write)).flatMap (· ++ ['\n']) := by
    rw [List.flatMap_map, write]
  rw [ended]
  refine Text.lines_of_ended (fun line member feed => ?_) (fun line member last => ?_)
  · obtain ⟨i, there, rfl⟩ := List.mem_map.mp member
    exact (Instruction.written_plain (restorable i there) '\n' feed).2 rfl
  · -- A written line ends in a mark, which is no carriage return that would go with the feed.
    obtain ⟨i, there, rfl⟩ := List.mem_map.mp member
    obtain ⟨front, c, whole, mark⟩ := (Instruction.written_marked (restorable i there)).stop
    rw [whole, List.getLast?_concat] at last
    cases last
    contradiction

theorem write_of_contents (s : Script) :
    s.write = s.contents.flatMap fun x => (Instruction.saying x).write ++ ['\n'] := by
  simp only [contents, List.flatMap_map, Instruction.write_saying, write]

end Script

namespace Evaluation

open Instruction (saying)

def chainContents (chain : List Addition) : List (Text × Directive) :=
  (chain.flatMap Addition.members).map (·.content)

theorem declared_contents (chain : List Addition) :
    (declared chain).map (·.content) = chainContents chain := by
  rw [chainContents, ← List.zipIdx_map_fst 0 (chain.flatMap Addition.members), List.map_map, declared,
    numberedFrom, List.map_map]
  rfl

theorem filter_contents {p : Instruction → Bool} (blind : ∀ i, p (saying i.content) = p i)
    (is : List Instruction) :
    (is.filter p).map (·.content) = (is.map (·.content)).filter fun x => p (saying x) := by
  have same : (fun x => p (saying x)) ∘ Instruction.content = p := funext blind
  rw [List.filter_map, same]

/-- The links that are left, by what the chain says. -/
theorem links_of_contents (chain : List Addition) :
    (ofChain chain).finish.links.map (·.content) =
      firstBy (fun x => linkKey (saying x)) [] ((chainContents chain).filter fun x =>
        isLink (saying x) &&
          !isDenied ((chainContents chain).filterMap fun y => denial? (saying y)) (saying x)) := by
  have denied : (ofChain chain).denied = (chainContents chain).filterMap fun y => denial? (saying y) := by
    rw [chain_collects, chainContents, List.filterMap_map]
    rfl
  have first (is : List Instruction) : firstBy (fun x => linkKey (saying x)) [] (is.map (·.content)) =
      (firstBy linkKey [] is).map (·.content) := first_by_map (fun _ => rfl) [] is
  rw [finish_links, ← first, openLinks, filter_contents fun _ => rfl, declared_contents, denied]

theorem includes_of_contents (chain : List Addition) :
    (ofChain chain).finish.includes.map (·.content) =
      firstBy (fun x => (saying x).include?) []
        ((chainContents chain).filter fun x => isInclude (saying x)) := by
  have first (is : List Instruction) : firstBy (fun x => (saying x).include?) [] (is.map (·.content)) =
      (firstBy Instruction.include? [] is).map (·.content) := first_by_map (fun _ => rfl) [] is
  rw [finish_includes, ← first, filter_contents fun _ => rfl, declared_contents]

theorem chain_contents_with {s t : Script} (same : s.contents = t.contents) (origin : Option Text)
    (before after : List Addition) :
    chainContents (before ++ .script s origin :: after) =
      chainContents (before ++ .script t origin :: after) := by
  have members (u : Script) :
      (Addition.members (.script u origin)).map (·.content) = u.contents := List.map_map
  simp only [chainContents, List.flatMap_append, List.flatMap_cons, List.map_append, members, same]

end Evaluation

namespace Script

open Evaluation

/-- What is read from the written form of a script: the same titles and directives, one a line, which
leave the same links and includes wherever the script stands in a chain. -/
structure RestoredFrom (s again : Script) : Prop where
  noErrors : again.errors = []
  sameContents : again.contents = s.contents
  sameText : again.write = s.write
  oneLineEach : Text.lines s.write = s.instructions.map (·.write)
  sameLinks : ∀ (before after : List Addition) (origin : Option Text),
    (ofChain (before ++ .script again origin :: after)).finish.links.map (·.content) =
      (ofChain (before ++ .script s origin :: after)).finish.links.map (·.content)
  sameIncludes : ∀ (before after : List Addition) (origin : Option Text),
    (ofChain (before ++ .script again origin :: after)).finish.includes.map (·.content) =
      (ofChain (before ++ .script s origin :: after)).finish.includes.map (·.content)

theorem rendering_round_trips (text : Text) (noNul : '\x00' ∉ text) :
    RestoredFrom (read text) (read (read text).write) := by
  let s := read text
  let again := read s.write
  have restorable := read_restorable noNul
  have lines : Text.lines s.write = s.instructions.map (·.write) := lines_of_written restorable
  have whole : again = readLines 1 (s.instructions.map (·.write)) := congrArg ofLines lines
  obtain ⟨errors, contents⟩ := read_written_lines restorable 1
  rw [← whole] at errors contents
  have same : again.contents = s.contents := contents
  have sameChain (before after : List Addition) (origin : Option Text) :=
    chain_contents_with same origin before after
  refine
    { noErrors := errors
      sameContents := same
      sameText := by rw [write_of_contents, same, ← write_of_contents]
      oneLineEach := lines
      sameLinks := fun before after origin => ?_
      sameIncludes := fun before after origin => ?_ }
  · rw [links_of_contents, links_of_contents, sameChain]
  · rw [includes_of_contents, includes_of_contents, sameChain]

/-- Every kind of instruction, and a line that cannot be read. -/
def mixedScript : Text :=
  ["include as \"It's\" file '/a b.log'\r", "link url http://x/?a", "link as '' email 'a@x , b@x',",
    "link email d@x", "include command grep \"^it's\" ''", "\x09deny  A   B", "'open"].flatMap
      fun line => line.toList ++ ['\n']

def mixedScriptWritten : Text :=
  ["include as \"It's\" file '/a b.log'", "link url 'http://x/?a'", "link as '' email 'a@x,b@x'",
    "link email d@x", "include command grep '^it'\"'s\" ''", "deny 'A B'"].flatMap
      fun line => line.toList ++ ['\n']

theorem rendering_round_trips_of_mixed_script :
    '\x00' ∉ mixedScript ∧ (read mixedScript).write = mixedScriptWritten ∧
      (read mixedScript).errors = [.unterminatedQuote 7] ∧
      RestoredFrom (read mixedScript) (read (read mixedScript).write) := by
  obtain ⟨noNul, written, errors⟩ : '\x00' ∉ mixedScript ∧
      (read mixedScript).write = mixedScriptWritten ∧
      (read mixedScript).errors = [.unterminatedQuote 7] := by decide +kernel
  exact ⟨noNul, written, errors, rendering_round_trips mixedScript noNul⟩

end Script
end CrashTriage
