import CrashTriage.Package.Basic
import CrashTriage.Proofs.Script.WrittenLines

/-
The contact that is made of a package's author field. It never passes through the reader of script lines,
which takes commas for the ends of addresses: its line is read back to the same link just when the address
has none.
-/
namespace CrashTriage

namespace Directive

open Words

/-- A list without a comma is one address, and an address that is read has none. -/
theorem read_addresses_alone {address : Text} (trimmed : Text.Trimmed address) (nonempty : address ≠ []) :
    readAddresses address = [address] ↔ ',' ∉ address := by
  constructor
  · intro alone comma
    have member : address ∈ readAddresses address := alone ▸ List.mem_singleton_self address
    obtain ⟨field, there, same⟩ := List.mem_map.mp (List.mem_filter.mp member).1
    have inField : ',' ∈ Text.trim field := same ▸ comma
    exact absurd (Text.split_by_fields field there ',' (Text.mem_of_trim inField)).2 (by decide)
  · intro free
    rw [readAddresses, Text.split_without free, List.map_singleton, Text.trim_trimmed trimmed]
    exact List.filter_eq_self.mpr (by simpa using nonempty)

/-- What the words of a titled list of addresses are read as. -/
theorem read_titled_list (title list : Text) :
    readLink ["as".toList, title, "email".toList, list] =
      if (readAddresses list).isEmpty then .error .addressMissing
      else .ok (some title, .contact ⟨.email (readAddresses list), false, []⟩) := by
  have alone : Text.joinWith [' '] [list] = list := List.intercalate_singleton
  have taken : takeTitle ["as".toList, title, "email".toList, list] = .ok (some title, ["email".toList, list]) :=
    take_title_iff.mpr ⟨rfl, nofun⟩
  have target : readLinkTarget "email".toList [list] =
      if (readAddresses list).isEmpty then .error .addressMissing else .ok (.email (readAddresses list)) := by
    simp [readLinkTarget, alone]
  unfold readLink
  rw [taken]
  show (readLinkTarget "email".toList [list] >>= _) = _
  rw [target]
  split <;> rfl

end Directive

namespace Package

open Text Words

variable {p : Package} {link : Instruction} {email name title : Text}

theorem author_email_some (found : p.authorEmail? = some email) :
    Trimmed email ∧ email ≠ [] ∧ ∃ author ∈ p.author, ∀ c ∈ email, c ∈ author := by
  obtain ⟨author, given, found⟩ := Option.bind_eq_some_iff.mp found
  obtain ⟨⟨before, rest⟩, opened, found⟩ := Option.bind_eq_some_iff.mp found
  obtain ⟨⟨inner, after⟩, closed, found⟩ := Option.bind_eq_some_iff.mp found
  dsimp only at found
  split at found
  · cases found
  · rename_i some_
    cases found
    refine ⟨trimmed_trim inner, by simpa using some_, author, given, fun c member => ?_⟩
    rw [(split_once_some opened).1, (split_once_some closed).1]
    simp [mem_of_trim member]

theorem author_name_some (found : p.authorName? = some name) : ∃ author ∈ p.author, ∀ c ∈ name, c ∈ author := by
  obtain ⟨author, given, found⟩ := Option.bind_eq_some_iff.mp found
  dsimp only at found
  split at found
  · cases found
  · cases found
    exact ⟨author, given, fun c member => (List.takeWhile_sublist _).subset (mem_of_trim member)⟩

/-- The words of the line of an author's link. -/
def linkWords (title email : Text) : List Text :=
  ["link".toList, "as".toList, title, "email".toList, email]

/-- A link to one address under a title that can be written. -/
structure AuthorLink (email title : Text) (link : Instruction) : Prop where
  address : Trimmed email
  nonempty : email ≠ []
  plain : Plain email
  plainTitle : Plain title
  titled : link.title = title
  contact : link.directive = .contact ⟨.email [email], false, title⟩

theorem author_link_some (given : p.authorLink? = some link) (author : ∀ a ∈ p.author, Plain a)
    (named : Plain p.name) : ∃ email title, AuthorLink email title link := by
  obtain ⟨email, found, same⟩ := Option.bind_eq_some_iff.mp given
  cases same
  obtain ⟨trimmed, nonempty, field, there, inside⟩ := author_email_some found
  refine ⟨email, p.authorName?.getD p.name, trimmed, nonempty, fun c member => ?_, ?_, rfl, rfl⟩
  · exact author field there c (inside c member)
  · cases name : p.authorName? with
    | none => exact named
    | some name =>
      obtain ⟨field, there, inside⟩ := author_name_some name
      exact fun c member => author field there c (inside c member)

theorem AuthorLink.written (is : AuthorLink email title link) : link.write = join (linkWords title email) := by
  have alone : joinWith [','] [email] = email := List.intercalate_singleton
  have between : " email ".toList = ' ' :: "email".toList ++ [' '] := by decide
  have line := @Directive.join_line "link".toList "email".toList (some title) [email] (by decide) (by simp)
  rw [Directive.join_stated (by decide), join_singleton] at line
  refine Eq.trans ?_ line.symm
  simp [Instruction.write, is.contact, is.titled, Link.isEmail, alone, between]

theorem AuthorLink.words_plain (is : AuthorLink email title link) : ∀ w ∈ linkWords title email, Plain w := by
  have titled : ∀ w ∈ Directive.titleWords (some title), Plain w := Instruction.plain_pair (by decide) is.plainTitle
  exact Instruction.line_plain (by decide) titled (by decide) (by simpa using is.plain)

/-- The line of an author's link is read as the addresses that the commas leave. -/
theorem AuthorLink.read (is : AuthorLink email title link) (number : Nat) :
    Instruction.read? link.write number =
      if (Directive.readAddresses email).isEmpty then .error (.malformed number .addressMissing)
      else .ok (some ⟨title, linkWords title email, number, none,
        .contact ⟨.email (Directive.readAddresses email), false, title⟩⟩) := by
  have marked : Marked link.write := is.written ▸ join_marked (all_writable is.words_plain) (List.cons_ne_nil _ _)
  have words : Words.read? link.write = some (linkWords title email) :=
    is.written ▸ read_join (all_writable is.words_plain)
  have read := Directive.read_titled_list title email
  split at read
  · rename_i empty
    rw [if_pos empty]
    exact Instruction.fault_of_words marked words rfl read
  · rename_i some_
    rw [if_neg some_]
    exact Instruction.read_of_words marked words rfl read

/-- The line of an author's link gives the link again just when its address has no comma. -/
theorem author_link_reads_back_iff (given : p.authorLink? = some link) (author : ∀ a ∈ p.author, Plain a)
    (named : Plain p.name) (number : Nat) :
    (∃ i, Instruction.read? link.write number = .ok (some i) ∧ i.title = link.title ∧
        i.directive = link.directive) ↔
      ∀ l ∈ link.link?, ∀ address ∈ l.recipients, ',' ∉ address := by
  obtain ⟨email, title, is⟩ := author_link_some given author named
  have contact : link.link? = some ⟨.email [email], false, title⟩ := by rw [Instruction.link?, is.contact]
  have alone := Directive.read_addresses_alone is.address is.nonempty
  rw [is.read number, contact, is.titled, is.contact]
  simp only [Option.mem_def, Option.some.injEq, forall_eq', Link.recipients, List.mem_singleton, forall_eq]
  rw [← alone]
  constructor
  · rintro ⟨i, read, -, same⟩
    split at read
    · cases read
    · cases read
      simpa using same
  · intro whole
    rw [whole]
    exact ⟨_, rfl, rfl, rfl⟩

def authored (author : String) : Package :=
  { named "com.example.app".toList with author := some author.toList }

def contactOf (title email : String) : Instruction where
  title := title.toList
  tokens := linkWords title.toList email.toList
  order := 0
  origin := some "com.example.app".toList
  directive := .contact ⟨.email [email.toList], false, title.toList⟩

theorem author_link_reads_back_of_quoted_name :
    (authored " O'Neil, Jane # <  jane@example.com >").authorLink? =
        some (contactOf "O'Neil, Jane #" "jane@example.com") ∧
      (contactOf "O'Neil, Jane #" "jane@example.com").write =
        "link as \"O'Neil, Jane #\" email jane@example.com".toList ∧
      ∃ i, Instruction.read? (contactOf "O'Neil, Jane #" "jane@example.com").write 3 = .ok (some i) ∧
        i.title = "O'Neil, Jane #".toList ∧
        i.directive = .contact ⟨.email ["jane@example.com".toList], false, "O'Neil, Jane #".toList⟩ := by
  have given : (authored " O'Neil, Jane # <  jane@example.com >").authorLink? =
      some (contactOf "O'Neil, Jane #" "jane@example.com") := by decide +kernel
  have plain : ∀ a ∈ (authored " O'Neil, Jane # <  jane@example.com >").author, Plain a := by decide +kernel
  exact ⟨given, by decide +kernel,
    (author_link_reads_back_iff given plain (by decide +kernel) 3).mpr (by decide +kernel)⟩

/-- Addresses that one pair of brackets holds are one recipient of the link and two of its line; a comma alone
is a recipient of the link, and its line is refused. -/
theorem author_link_split_at_comma :
    (authored "Jane <a@example.com, b@example.com>").authorLink? =
        some (contactOf "Jane" "a@example.com, b@example.com") ∧
      Instruction.read? (contactOf "Jane" "a@example.com, b@example.com").write 1 = .ok (some
        ⟨"Jane".toList, linkWords "Jane".toList "a@example.com, b@example.com".toList, 1, none,
          .contact ⟨.email ["a@example.com".toList, "b@example.com".toList], false, "Jane".toList⟩⟩) ∧
      (authored "Jane <,>").authorLink? = some (contactOf "Jane" ",") ∧
      Instruction.read? (contactOf "Jane" ",").write 1 = .error (.malformed 1 .addressMissing) := by
  decide +kernel

end Package
end CrashTriage
