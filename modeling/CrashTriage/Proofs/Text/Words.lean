import CrashTriage.Proofs.Text.Cuts
import Mathlib.Tactic.MkIffOfInductiveProp

/-
Words and the blanks around them. Blanks between two texts keep their words apart, so that words printed
with any blanks between them are read back, and blanks around a trimmed text are what trimming takes off.
-/
namespace CrashTriage
namespace Text

theorem split_by_separator {p : Char → Bool} {c : Char} (separates : p c = true) (s t : Text) :
    splitBy p (s ++ c :: t) = splitBy p s ++ splitBy p t := by
  induction s with
  | nil => simp [splitBy, separates]
  | cons x s ih =>
    rw [List.cons_append, splitBy, splitBy, ih]
    cases first : splitBy p s with
    | nil => exact absurd first (split_by_ne_nil p s)
    | cons field fields => cases p x <;> rfl

theorem first_field (p : Char → Bool) (t : Text) :
    ∃ fields, splitBy p t = (t.takeWhile fun c => !p c) :: fields := by
  induction t with
  | nil => exact ⟨[], rfl⟩
  | cons c t ih =>
    obtain ⟨fields, first⟩ := ih
    rw [splitBy, first]
    cases here : p c with
    | true => exact ⟨(t.takeWhile fun c => !p c) :: fields, by simp [here]⟩
    | false => exact ⟨fields, by simp [here]⟩

theorem words_between {blank : Char} (isBlank : isBlank blank = true) (s t : Text) :
    words (s ++ blank :: t) = words s ++ words t := by
  rw [words, split_by_separator isBlank, List.filter_append]
  rfl

theorem words_after_blank {blank : Char} (isBlank : isBlank blank = true) (t : Text) :
    words (blank :: t) = words t := words_between isBlank [] t

theorem words_before_blank {blank : Char} (isBlank : isBlank blank = true) (t : Text) :
    words (t ++ [blank]) = words t := by
  rw [words_between isBlank]
  exact List.append_nil (words t)

theorem first_word {c : Char} (solid : isBlank c = false) (t : Text) :
    (c :: t).takeWhile (fun c => !isBlank c) ∈ words (c :: t) := by
  obtain ⟨fields, first⟩ := first_field isBlank (c :: t)
  rw [words, first]
  exact List.mem_filter.mpr ⟨List.mem_cons_self, by simp [solid]⟩

/-- A text that is one word. -/
@[mk_iff]
structure IsWord (t : Text) : Prop where
  nonempty : t ≠ []
  solid : ∀ c ∈ t, isBlank c = false

instance (t : Text) : Decidable (IsWord t) :=
  decidable_of_iff (t ≠ [] ∧ t.all (fun c => !isBlank c) = true) (by simp [isWord_iff])

/-- Words with blanks after them; where another word follows there are some. -/
inductive Spaced : List Text → Text → Prop where
  | nil : Spaced [] []
  | cons {word : Text} (gap : Text) {others : List Text} {rest : Text} (isWord : IsWord word)
    (blanks : Blanks gap) (apart : others ≠ [] → gap ≠ []) (spaced : Spaced others rest) :
    Spaced (word :: others) (word ++ gap ++ rest)

theorem words_of_blanks {gap : Text} (blanks : Blanks gap) (t : Text) : words (gap ++ t) = words t := by
  induction gap with
  | nil => rfl
  | cons c gap ih =>
    rw [blanks_cons] at blanks
    rw [List.cons_append, words_after_blank blanks.1, ih blanks.2]

theorem words_before_blanks {gap : Text} (blanks : Blanks gap) (t : Text) : words (t ++ gap) = words t := by
  induction gap generalizing t with
  | nil => rw [List.append_nil]
  | cons c gap ih =>
    rw [blanks_cons] at blanks
    rw [List.append_cons, ih blanks.2, words_before_blank blanks.1]

theorem words_trim (t : Text) : words (trim t) = words t := by
  have lead : Blanks (t.takeWhile isBlank) := fun c member => List.mem_takeWhile_imp member
  have tail : Blanks ((trimStart t).rtakeWhile isBlank) := fun c member => List.mem_rtakeWhile_imp member
  calc words (trim t)
      = words (trim t ++ (trimStart t).rtakeWhile isBlank) := (words_before_blanks tail _).symm
    _ = words (trimStart t) := by rw [trim, trimEnd, dropEndWhile, ← List.rdropWhile, List.rdropWhile_append_rtakeWhile]
    _ = words (t.takeWhile isBlank ++ trimStart t) := (words_of_blanks lead _).symm
    _ = words t := by rw [trimStart, List.takeWhile_append_dropWhile]

theorem words_of_word {t : Text} (isWord : IsWord t) : words t = [t] := by
  rw [words, split_by_without isWord.solid]
  simp [isWord.nonempty]

/-- Words are found again whatever blanks stand between them. -/
theorem words_of_spaced {fields : List Text} {t : Text} (spaced : Spaced fields t) : words t = fields := by
  induction spaced with
  | nil => rfl
  | @cons word gap others rest isWord blanks apart spaced ih =>
    cases gap with
    | nil =>
      obtain rfl : others = [] := by
        by_contra more
        exact apart more rfl
      cases spaced
      rw [List.append_nil, List.append_nil, words_of_word isWord]
    | cons c gap =>
      rw [blanks_cons] at blanks
      rw [List.append_assoc, List.cons_append, words_between blanks.1, words_of_word isWord,
        words_of_blanks blanks.2, ih]
      rfl

/-- What blanks and the characters of words have in common holds of the text. -/
theorem chars_of_spaced {P : Char → Prop} {fields : List Text} {t : Text} (spaced : Spaced fields t)
    (blank : ∀ c, isBlank c = true → P c) (inWords : ∀ word ∈ fields, ∀ c ∈ word, P c) : ∀ c ∈ t, P c := by
  induction spaced with
  | nil => exact fun _ => nofun
  | cons _ _ blanks _ _ ih =>
    rw [List.forall_mem_cons] at inWords
    intro c member
    rw [List.mem_append, List.mem_append] at member
    rcases member with (inWord | inGap) | inRest
    · exact inWords.1 c inWord
    · exact blank c (blanks c inGap)
    · exact ih inWords.2 c inRest

theorem trim_padded {lead t tail : Text} (before : Blanks lead) (trimmed : Trimmed t) (after : Blanks tail) :
    trim (lead ++ t ++ tail) = t := by
  have last : trimEnd (t ++ tail) = t := by
    have blanks : ∀ c ∈ tail.reverse, isBlank c = true := fun c member => after c (List.mem_reverse.mp member)
    rw [trimEnd, dropEndWhile, List.reverse_append, List.dropWhile_append_of_pos blanks]
    rcases List.eq_nil_or_concat t with rfl | ⟨front, c, rfl⟩
    · rfl
    · rw [List.concat_eq_append] at trimmed ⊢
      have solid := trimmed.stop c (by simp)
      simp [solid]
  rw [trim, trimStart, List.append_assoc, List.dropWhile_append_of_pos before]
  cases t with
  | nil =>
    have none : tail.dropWhile isBlank = [] := List.dropWhile_eq_nil_iff.mpr after
    rw [List.nil_append, none]
    rfl
  | cons c t =>
    have solid := trimmed.start c rfl
    rw [List.cons_append, List.dropWhile_cons, solid]
    exact last

theorem trim_behind_blanks {lead t : Text} (blanks : Blanks lead) (trimmed : Trimmed t) :
    trim (lead ++ t) = t := by
  have padded := trim_padded blanks trimmed (List.forall_mem_nil _)
  rwa [List.append_nil] at padded

theorem trimmed_iff (t : Text) : Trimmed t ↔ trim t = t := by
  constructor
  · exact trim_trimmed
  · intro same
    rw [← same]
    exact trimmed_trim t

instance (t : Text) : Decidable (Trimmed t) := decidable_of_iff (trim t = t) (trimmed_iff t).symm

end Text
end CrashTriage
