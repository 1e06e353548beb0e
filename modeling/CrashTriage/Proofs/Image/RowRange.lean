import CrashTriage.Image
import CrashTriage.Proofs.Text.Cuts

/-
The addresses of a row of the image table and those that its image covers. Between the two stand a size
and a stop that is at most the largest address, so that an image covers all addresses of its row but that one.
-/
namespace CrashTriage
namespace Image

open Text

variable {line row front first last : Text} {fields more others : List Text} {image : Image}
variable {opening closing : Char}

/-- What stands before a part in brackets, which goes from the first opening to the last closing one. -/
inductive BeforeBrackets (opening closing : Char) : Text → Text → Prop where
  | cut (front inner after : Text) : opening ∉ front → closing ∉ after →
    BeforeBrackets opening closing (front ++ opening :: (inner ++ closing :: after)) front
  | whole (row : Text) : (∀ front inner after, row ≠ front ++ opening :: (inner ++ closing :: after)) →
    BeforeBrackets opening closing row row

theorem before_brackets (opening closing : Char) (row : Text) :
    BeforeBrackets opening closing row (takeBracketed opening closing row).1 := by
  unfold takeBracketed
  cases opened : splitOnce? opening row with
  | none =>
    refine .whole row fun front inner after same => split_once_none opened ?_
    simp [same]
  | some cut =>
    obtain ⟨front, tail⟩ := cut
    obtain ⟨whole, free⟩ := split_once_some opened
    cases closed : splitLast? closing row with
    | none =>
      refine .whole row fun front inner after same => split_last_none closed ?_
      simp [same]
    | some cut =>
      obtain ⟨before, after⟩ := cut
      have ended := split_last_some closed
      have freeAfter := split_last_free closed
      dsimp only
      split
      · rename_i ordered
        have both : front ++ opening :: tail = before ++ closing :: after := whole.symm.trans ended
        rcases List.append_eq_append_iff.mp both with ⟨inner, rfl, rest⟩ | ⟨inner, rfl, -⟩
        · cases inner with
          | nil => simp at ordered
          | cons c inner =>
            obtain ⟨rfl, rfl⟩ := List.cons.inj rest
            rw [whole]
            exact .cut front inner after free freeAfter
        · rw [List.length_append] at ordered
          omega
      · rename_i disordered
        refine .whole row fun other inner others same => disordered ?_
        have first := first_no_later free (whole.symm.trans same)
        have apart : row = (other ++ opening :: inner) ++ closing :: others := by simp [same]
        have last := last_no_earlier freeAfter (ended.symm.trans apart)
        rw [List.length_append, List.length_cons] at last
        omega

theorem before_brackets_unique {other : Text} (one : BeforeBrackets opening closing row front)
    (also : BeforeBrackets opening closing row other) : front = other := by
  generalize same : row = there at also
  cases one with
  | cut _ inner after free _ =>
    cases also with
    | cut _ inner' after' free' _ =>
      have shorter := first_no_later free same
      have longer := first_no_later free' same.symm
      exact (List.append_inj same (by omega)).1
    | whole _ unbracketed => exact absurd same.symm (unbracketed _ _ _)
  | whole _ unbracketed =>
    cases also with
    | cut => exact absurd same (unbracketed _ _ _)
    | whole => exact same

/-- The words of a row before its version, its build identifier and its path. -/
def FrontWords (line : Text) (fields : List Text) : Prop :=
  ∃ head path unnamed front, trim line = head ++ '/' :: path ∧ '/' ∉ head ∧
    BeforeBrackets '<' '>' head unnamed ∧ BeforeBrackets '(' ')' unnamed front ∧ words front = fields

theorem front_words_unique (one : FrontWords line fields) (also : FrontWords line others) :
    fields = others := by
  obtain ⟨head, path, unnamed, front, whole, free, named, versioned, rfl⟩ := one
  obtain ⟨head', path', unnamed', front', whole', free', named', versioned', rfl⟩ := also
  have same := whole.symm.trans whole'
  have shorter := first_no_later free same
  have longer := first_no_later free' same.symm
  obtain rfl := (List.append_inj same (by omega)).1
  obtain rfl := before_brackets_unique named named'
  obtain rfl := before_brackets_unique versioned versioned'
  rfl

/-- The word of the last address among those after the first address. A dash may stand before it, as a word
of its own or not. -/
inductive LastWord : List Text → Text → Prop where
  | apart (last : Text) (others : List Text) : LastWord (['-'] :: last :: others) last
  | joined (last : Text) (others : List Text) : last ≠ [] → LastWord (('-' :: last) :: others) last
  | bare (last : Text) (others : List Text) : last.head? ≠ some '-' → LastWord (last :: others) last

theorem last_word_iff : LastWord more last ↔ ∃ others, takeLastWord? more = some (last, others) := by
  constructor
  · rintro (⟨_, others⟩ | ⟨_, others, solid⟩ | ⟨_, others, undashed⟩)
    · exact ⟨others, rfl⟩
    · cases last with
      | nil => contradiction
      | cons c rest => exact ⟨others, rfl⟩
    · cases last with
      | nil => exact ⟨others, rfl⟩
      | cons c rest =>
        have other : c ≠ '-' := fun same => undashed (by rw [same]; rfl)
        exact ⟨others, by simp [takeLastWord?, other]⟩
  · rintro ⟨others, taken⟩
    unfold takeLastWord? at taken
    split at taken
    · cases taken
      exact .apart last others
    · cases taken
    · rename_i notApart notAlone
      cases taken
      refine .joined last others ?_
      rintro rfl
      cases others with
      | nil => exact notAlone rfl rfl
      | cons word rest => exact notApart word rest rfl rfl
    · rename_i notJoined
      cases taken
      refine .bare last others fun dashed => ?_
      obtain ⟨rest, rfl⟩ := List.head?_eq_some_iff.mp dashed
      exact notJoined rest rfl
    · cases taken

/-- The words of the first and the last address of a row. -/
def AddressWords (line first last : Text) : Prop :=
  ∃ more, FrontWords line (first :: more) ∧ LastWord more last

theorem address_words_unique {other otherLast : Text} (one : AddressWords line first last)
    (also : AddressWords line other otherLast) : first = other ∧ last = otherLast := by
  obtain ⟨more, fronts, lasts⟩ := one
  obtain ⟨more', fronts', lasts'⟩ := also
  obtain ⟨rfl, rfl⟩ := List.cons.inj (front_words_unique fronts fronts')
  obtain ⟨others, taken⟩ := last_word_iff.mp lasts
  obtain ⟨others', taken'⟩ := last_word_iff.mp lasts'
  cases taken.symm.trans taken'
  exact ⟨rfl, rfl⟩

def topAddress : UInt64 := 0xFFFFFFFFFFFFFFFF

/-- The cuts that a row was read with, and what was read from them. -/
theorem row_parts (read : readRow? line = some image) :
    ∃ head path first more last others, splitOnce? '/' (trim line) = some (head, path) ∧
      words (takeBracketed '(' ')' (takeBracketed '<' '>' head).1).1 = first :: more ∧
      takeLastWord? more = some (last, others) ∧ readHex first ≤ readHex last ∧
      ¬ (readHex first = 0 ∧ readHex last = topAddress) ∧ image.base = readHex first ∧
      image.size = readHex last - readHex first + 1 ∧ image.uuid = (takeBracketed '<' '>' head).2 := by
  unfold readRow? at read
  dsimp only at read
  split at read
  · cases read
  · obtain ⟨⟨head, path⟩, cut, read⟩ := Option.bind_eq_some_iff.mp read
    dsimp only at read
    split at read
    · cases read
    · rename_i first more fronts
      obtain ⟨⟨last, others⟩, taken, read⟩ := Option.bind_eq_some_iff.mp read
      dsimp only at read
      split at read
      · cases read
      · split at read
        · cases read
        · rename_i ordered
          cases read
          simp only [Bool.or_eq_true, Bool.and_eq_true, decide_eq_true_eq, not_or] at ordered
          exact ⟨head, path, first, more, last, others, cut, fronts, taken, UInt64.not_lt.mp ordered.1,
            ordered.2, rfl, rfl, rfl⟩

theorem row_addresses (read : readRow? line = some image) :
    ∃ first last, AddressWords line first last ∧ readHex first ≤ readHex last ∧
      ¬ (readHex first = 0 ∧ readHex last = topAddress) ∧ image.base = readHex first ∧
      image.size = readHex last - readHex first + 1 := by
  obtain ⟨head, path, first, more, last, others, cut, fronts, taken, ordered, held, base, size, -⟩ := row_parts read
  obtain ⟨whole, free⟩ := split_once_some cut
  have words : FrontWords line (first :: more) :=
    ⟨head, path, _, _, whole, free, before_brackets '<' '>' head, before_brackets '(' ')' _, fronts⟩
  exact ⟨first, last, ⟨more, words, last_word_iff.mpr ⟨others, taken⟩⟩, ordered, held, base, size⟩

theorem size_of_range {base final : UInt64} (ordered : base ≤ final)
    (held : ¬ (base = 0 ∧ final = topAddress)) :
    base.toNat + (final - base + 1).toNat = final.toNat + 1 := by
  have order := UInt64.le_iff_toNat_le.mp ordered
  have top : topAddress.toNat = 2 ^ 64 - 1 := rfl
  have small : final.toNat < 2 ^ 64 := final.toNat_lt
  have notWhole : final.toNat - base.toNat + 1 < 2 ^ 64 := by
    by_contra whole
    exact held ⟨UInt64.toNat_inj.mp (by simp; omega), UInt64.toNat_inj.mp (by omega)⟩
  have size : (final - base + 1).toNat = final.toNat - base.toNat + 1 := by
    rw [UInt64.toNat_add, UInt64.toNat_sub_of_le _ _ ordered]
    exact Nat.mod_eq_of_lt notWhole
  omega

theorem stop_eq (i : Image) : i.stop.toNat = min (i.base.toNat + i.size.toNat) topAddress.toNat := by
  have top : topAddress.toNat = 2 ^ 64 - 1 := rfl
  unfold stop
  split
  · rename_i fits
    have fits : i.base.toNat + i.size.toNat < 2 ^ 64 := fits
    rw [UInt64.toNat_add, Nat.mod_eq_of_lt fits]
    omega
  · rename_i beyond
    have beyond : ¬ i.base.toNat + i.size.toNat < 2 ^ 64 := beyond
    have least : min (i.base.toNat + i.size.toNat) topAddress.toNat = topAddress.toNat := by omega
    exact least.symm

/-- A stop that is at most the largest address leaves that address out. -/
theorem contains_iff {base final : UInt64} (start : image.base = base) (size : image.size = final - base + 1)
    (ordered : base ≤ final) (held : ¬ (base = 0 ∧ final = topAddress)) (address : UInt64) :
    image.contains address = true ↔ base ≤ address ∧ address ≤ final ∧ address ≠ topAddress := by
  have range := size_of_range ordered held
  have stops := stop_eq image
  rw [start, size, range] at stops
  have top : topAddress.toNat = 2 ^ 64 - 1 := rfl
  have small : address.toNat < 2 ^ 64 := address.toNat_lt
  rw [contains, Bool.and_eq_true, decide_eq_true_eq, decide_eq_true_eq, start, UInt64.lt_iff_toNat_lt, stops,
    UInt64.le_iff_toNat_le (a := address), ne_eq, ← UInt64.toNat_inj, top]
  apply and_congr_right
  intro _
  omega

/-- An image and the row it was read from, with the first and the last address as they are written. The last
address is covered, but when it is the largest there is. -/
structure CoversRow (line first last : Text) (image : Image) : Prop where
  written : AddressWords line first last
  only : ∀ other others, AddressWords line other others → first = other ∧ last = others
  covers : ∀ address, image.contains address = true ↔
    readHex first ≤ address ∧ address ≤ readHex last ∧ address ≠ topAddress
  inclusive_iff : (∀ address, image.contains address = true ↔
    readHex first ≤ address ∧ address ≤ readHex last) ↔ readHex last ≠ topAddress

theorem row_covers (read : readRow? line = some image) : ∃ first last, CoversRow line first last image := by
  obtain ⟨first, last, written, ordered, held, start, size⟩ := row_addresses read
  have covers := contains_iff start size ordered held
  refine ⟨first, last, written, fun _ _ => address_words_unique written, covers, ?_⟩
  constructor
  · intro all top
    have here := (all (readHex last)).mpr ⟨ordered, UInt64.le_refl _⟩
    exact ((covers _).mp here).2.2 top
  · intro notTop address
    rw [covers]
    refine ⟨fun ⟨above, below, _⟩ => ⟨above, below⟩, fun ⟨above, below⟩ => ⟨above, below, ?_⟩⟩
    rintro rfl
    have most : readHex last ≤ topAddress := UInt64.le_iff_toNat_le.mpr (Nat.le_of_lt_succ (readHex last).toNat_lt)
    exact notTop (UInt64.le_antisymm most below)

def topRow : Text := "0xfffffffffffff000 - 0xffffffffffffffff App /App".toList

def topImage : Image where
  base := 0xFFFFFFFFFFFFF000
  size := 0x1000
  name := "App".toList
  path := "/App".toList
  arch := none
  version := none
  uuid := none
  fromUnofficialSource := false
  newerThanOsBuild := false

theorem row_covers_of_top : readRow? topRow = some topImage ∧ topImage.contains 0xFFFFFFFFFFFFFFFE = true ∧
    ∃ first last, CoversRow topRow first last topImage := by
  have read : readRow? topRow = some topImage := by decide +kernel
  exact ⟨read, by decide, row_covers read⟩

/-- The last address of this row is not covered. -/
theorem top_address_left_out : readRow? topRow = some topImage ∧
    AddressWords topRow "0xfffffffffffff000".toList "0xffffffffffffffff".toList ∧
    readHex "0xfffffffffffff000".toList ≤ topAddress ∧ topAddress ≤ readHex "0xffffffffffffffff".toList ∧
    topImage.contains topAddress = false := by
  have written : AddressWords topRow "0xfffffffffffff000".toList "0xffffffffffffffff".toList :=
    ⟨_, ⟨"0xfffffffffffff000 - 0xffffffffffffffff App ".toList, "App".toList, _, _, by decide, by decide,
      before_brackets '<' '>' _, before_brackets '(' ')' _, by decide +kernel⟩, .apart _ ["App".toList]⟩
  exact ⟨by decide +kernel, written, by decide +kernel, by decide +kernel, by decide⟩

end Image
end CrashTriage
