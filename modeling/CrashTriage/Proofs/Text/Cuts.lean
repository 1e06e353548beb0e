import CrashTriage.Text.Basic
import Mathlib.Data.List.DropRight

/-
What the cuts of a text leave: the parts put together are the text again.
-/
namespace CrashTriage
namespace Text

theorem strip_eq_some_iff (start t rest : Text) :
    strip? start t = some rest ↔ t = start ++ rest := by
  induction start generalizing t with
  | nil => simp [strip?, eq_comm]
  | cons a start ih =>
    cases t with
    | nil => simp [strip?]
    | cons c t =>
      simp only [strip?, List.cons_append, List.cons.injEq]
      split
      · rename_i same
        simp [same, ih t]
      · rename_i different
        simp [Ne.symm different]

theorem strip_none_of_other_start {start t : Text} (other : startsWith t start = false) :
    strip? start t = none := by
  cases stripped : strip? start t with
  | none => rfl
  | some rest =>
    have whole := (strip_eq_some_iff start t rest).mp stripped
    have starts : startsWith t start = true := List.isPrefixOf_iff_prefix.mpr ⟨rest, whole.symm⟩
    rw [other] at starts
    contradiction

theorem split_first_some {p : Char → Bool} {t before rest : Text}
    (cut : splitFirst? p t = some (before, rest)) :
    ∃ c, p c = true ∧ t = before ++ c :: rest ∧ ∀ x ∈ before, p x = false := by
  induction t generalizing before with
  | nil => simp [splitFirst?] at cut
  | cons c t ih =>
    unfold splitFirst? at cut
    split at cut
    · rename_i here
      cases cut
      exact ⟨c, here, rfl, by simp⟩
    · rename_i notHere
      obtain ⟨⟨a, b⟩, later, pair⟩ := Option.map_eq_some_iff.mp cut
      cases pair
      obtain ⟨x, holds, rfl, none⟩ := ih later
      exact ⟨x, holds, rfl, by simpa [notHere] using none⟩

theorem split_last_some {sep : Char} {t before rest : Text}
    (cut : splitLast? sep t = some (before, rest)) : t = before ++ sep :: rest := by
  obtain ⟨⟨a, b⟩, found, pair⟩ := Option.map_eq_some_iff.mp cut
  cases pair
  obtain ⟨c, same, reversed, _⟩ := split_first_some found
  have forward := congrArg List.reverse reversed
  simpa [beq_iff_eq.mp same] using forward

/-- The first of a character stands no later than any other. -/
theorem first_no_later {sep : Char} {before rest other others : Text} (free : sep ∉ before)
    (same : before ++ sep :: rest = other ++ sep :: others) : before.length ≤ other.length := by
  rcases List.append_eq_append_iff.mp same with ⟨more, rfl, -⟩ | ⟨more, rfl, tail⟩
  · simp
  · cases more with
    | nil => simp
    | cons c more =>
      obtain ⟨rfl, -⟩ := List.cons.inj tail
      simp at free

/-- The last of a character stands no earlier than any other. -/
theorem last_no_earlier {sep : Char} {before rest other others : Text} (free : sep ∉ rest)
    (same : before ++ sep :: rest = other ++ sep :: others) : other.length ≤ before.length := by
  rcases List.append_eq_append_iff.mp same with ⟨more, rfl, tail⟩ | ⟨more, rfl, -⟩
  · cases more with
    | nil => simp
    | cons c more =>
      obtain ⟨-, rfl⟩ := List.cons.inj tail
      simp at free
  · simp

theorem split_once_some {sep : Char} {t before rest : Text}
    (cut : splitOnce? sep t = some (before, rest)) : t = before ++ sep :: rest ∧ sep ∉ before := by
  obtain ⟨c, same, whole, others⟩ := split_first_some cut
  refine ⟨by rw [whole, beq_iff_eq.mp same], fun member => ?_⟩
  simpa using others sep member

theorem split_once_none {sep : Char} {t : Text} (uncut : splitOnce? sep t = none) : sep ∉ t := by
  induction t with
  | nil => simp
  | cons c t ih =>
    rw [splitOnce?, splitFirst?] at uncut
    split at uncut
    · cases uncut
    · rename_i other
      rw [List.mem_cons, not_or]
      exact ⟨fun same => other (by simp [same]), ih (Option.map_eq_none_iff.mp uncut)⟩

theorem split_first_at {p : Char → Bool} {before rest : Text} {c : Char} (free : ∀ x ∈ before, p x = false)
    (here : p c = true) : splitFirst? p (before ++ c :: rest) = some (before, rest) := by
  induction before with
  | nil => rw [List.nil_append, splitFirst?, if_pos here]
  | cons x before ih =>
    rw [List.forall_mem_cons] at free
    rw [List.cons_append, splitFirst?, if_neg (by simp [free.1]), ih free.2]
    rfl

theorem split_once_at {sep : Char} {before : Text} (free : sep ∉ before) (rest : Text) :
    splitOnce? sep (before ++ sep :: rest) = some (before, rest) :=
  split_first_at (fun _ member => beq_eq_false_iff_ne.mpr fun same => free (same ▸ member)) (beq_self_eq_true sep)

theorem split_last_at {sep : Char} {rest : Text} (before : Text) (free : sep ∉ rest) :
    splitLast? sep (before ++ sep :: rest) = some (before, rest) := by
  have turned : (before ++ sep :: rest).reverse = rest.reverse ++ sep :: before.reverse := by simp
  rw [splitLast?, turned, split_once_at (by simpa using free)]
  simp

theorem split_last_free {sep : Char} {t before rest : Text}
    (cut : splitLast? sep t = some (before, rest)) : sep ∉ rest := by
  obtain ⟨⟨a, b⟩, found, pair⟩ := Option.map_eq_some_iff.mp cut
  cases pair
  simpa using (split_once_some found).2

theorem split_last_none {sep : Char} {t : Text} (uncut : splitLast? sep t = none) : sep ∉ t := by
  simpa using split_once_none (Option.map_eq_none_iff.mp uncut)

theorem split_by_without {p : Char → Bool} {t : Text} (free : ∀ c ∈ t, p c = false) : splitBy p t = [t] := by
  induction t with
  | nil => rfl
  | cons c t ih =>
    rw [List.forall_mem_cons] at free
    rw [splitBy, free.1, ih free.2]

theorem split_without {sep : Char} {t : Text} (absent : sep ∉ t) : split sep t = [t] :=
  split_by_without fun _ member => beq_eq_false_iff_ne.mpr fun same => absent (same ▸ member)

theorem split_by_ne_nil (p : Char → Bool) (t : Text) : splitBy p t ≠ [] := by
  cases t with
  | nil => simp [splitBy]
  | cons c t =>
    rw [splitBy]
    split <;> simp

theorem split_by_fields {p : Char → Bool} {t : Text} :
    ∀ field ∈ splitBy p t, ∀ c ∈ field, c ∈ t ∧ p c = false := by
  induction t with
  | nil => simp [splitBy]
  | cons c t ih =>
    rw [splitBy]
    split
    · simp only [List.forall_mem_cons, List.not_mem_nil, false_implies, implies_true, true_and]
      exact fun field member d there =>
        ⟨List.mem_cons_of_mem c (ih field member d there).1, (ih field member d there).2⟩
    · rename_i none
      exact absurd none (split_by_ne_nil p t)
    · rename_i field fields other some_
      rw [some_] at ih
      rw [List.forall_mem_cons] at ih ⊢
      refine ⟨?_, fun f member d there => ?_⟩
      · rw [List.forall_mem_cons]
        exact ⟨⟨List.mem_cons_self, other⟩,
          fun d there => ⟨List.mem_cons_of_mem c (ih.1 d there).1, (ih.1 d there).2⟩⟩
      · exact ⟨List.mem_cons_of_mem c (ih.2 f member d there).1, (ih.2 f member d there).2⟩

theorem split_at_separator {sep : Char} {field : Text} (free : sep ∉ field) (t : Text) :
    split sep (field ++ sep :: t) = field :: split sep t := by
  induction field with
  | nil => simp [split, splitBy]
  | cons c field ih =>
    simp only [List.mem_cons, not_or] at free
    have rest := ih free.2
    have other : (c == sep) = false := beq_eq_false_iff_ne.mpr (Ne.symm free.1)
    unfold split at rest ⊢
    rw [List.cons_append, splitBy, rest, other]

/-- Fields without the separator are found again where they were joined. -/
theorem split_joined {sep : Char} {fields : List Text} (nonempty : fields ≠ [])
    (free : ∀ field ∈ fields, sep ∉ field) : split sep (joinWith [sep] fields) = fields := by
  induction fields with
  | nil => contradiction
  | cons field fields ih =>
    rw [List.forall_mem_cons] at free
    cases fields with
    | nil => rw [joinWith, List.intercalate_singleton, split_without free.1]
    | cons next fields =>
      have rest := ih (List.cons_ne_nil next fields) free.2
      rw [joinWith] at rest ⊢
      rw [List.intercalate_cons_cons, List.append_assoc, List.singleton_append,
        split_at_separator free.1, rest]

theorem mem_joined {sep : Text} {parts : List Text} {c : Char} (member : c ∈ joinWith sep parts) :
    c ∈ sep ∨ ∃ part ∈ parts, c ∈ part := by
  induction parts with
  | nil => simp [joinWith] at member
  | cons part parts ih =>
    cases parts with
    | nil =>
      rw [joinWith, List.intercalate_singleton] at member
      exact .inr ⟨part, List.mem_singleton_self part, member⟩
    | cons next parts =>
      rw [joinWith, List.intercalate_cons_cons, List.mem_append, List.mem_append] at member
      rcases member with (here | between) | later
      · exact .inr ⟨part, List.mem_cons_self, here⟩
      · exact .inl between
      · exact (ih later).imp_right fun ⟨p, there, inside⟩ => ⟨p, List.mem_cons_of_mem part there, inside⟩

theorem joined_mem {sep part : Text} {parts : List Text} {c : Char} (there : part ∈ parts)
    (inside : c ∈ part) : c ∈ joinWith sep parts := by
  induction parts with
  | nil => contradiction
  | cons first parts ih =>
    cases parts with
    | nil =>
      rw [List.mem_singleton] at there
      rwa [joinWith, List.intercalate_singleton, ← there]
    | cons next parts =>
      rw [joinWith, List.intercalate_cons_cons]
      rcases List.mem_cons.mp there with rfl | later
      · exact List.mem_append_left _ (List.mem_append_left _ inside)
      · exact List.mem_append_right _ (ih later)

theorem digit_not_blank {c : Char} (digit : isDigit c = true) : isBlank c = false := by
  simp only [isDigit, Bool.and_eq_true, decide_eq_true_eq] at digit
  have low : 48 ≤ c.toNat := digit.1
  have high : c.toNat ≤ 57 := digit.2
  simp [isBlank]
  omega

theorem digit_size {c : Char} (digit : isDigit c = true) : c.utf8Size = 1 := by
  simp only [isDigit, Bool.and_eq_true, decide_eq_true_eq] at digit
  have high : c.toNat ≤ 57 := digit.2
  rw [Char.utf8Size, if_pos]
  rw [UInt32.le_iff_toNat_le]
  exact Nat.le_trans high (by decide)

theorem mem_of_trim {t : Text} {c : Char} (member : c ∈ trim t) : c ∈ t := by
  have inStart := List.rdropWhile_prefix isBlank (trimStart t)
  exact (List.dropWhile_sublist isBlank).subset (inStart.subset member)

/-- A text that starts and ends in no blank. -/
structure Trimmed (t : Text) : Prop where
  start : ∀ c, t.head? = some c → isBlank c = false
  stop : ∀ c, t.getLast? = some c → isBlank c = false

theorem trimmed_append {c : Char} {s t : Text} (solid : isBlank c = false) (trimmed : Trimmed t)
    (nonempty : t ≠ []) : Trimmed (c :: s ++ t) := by
  refine ⟨fun d first => ?_, fun d last => trimmed.stop d ?_⟩
  · cases first
    exact solid
  · rwa [List.getLast?_append_of_ne_nil _ nonempty] at last

theorem trim_start_trimmed {t : Text} (trimmed : Trimmed t) : trimStart t = t := by
  cases t with
  | nil => rfl
  | cons c t =>
    rw [trimStart, List.dropWhile_cons, trimmed.start c rfl]
    rfl

theorem trim_trimmed {t : Text} (trimmed : Trimmed t) : trim t = t := by
  rw [trim, trim_start_trimmed trimmed, trimEnd]
  rcases List.eq_nil_or_concat t with rfl | ⟨front, c, rfl⟩
  · rfl
  · rw [List.concat_eq_append] at trimmed ⊢
    have last := trimmed.stop c (by simp)
    simp [dropEndWhile, last]

theorem drop_stops {p : Char → Bool} {t : Text} {c : Char} (first : (t.dropWhile p).head? = some c) :
    p c = false := by
  have stops := List.head?_dropWhile_not p t
  rwa [first] at stops

theorem trimmed_trim (t : Text) : Trimmed (trim t) := by
  refine ⟨fun c first => ?_, fun c last => ?_⟩
  · have front : trim t <+: trimStart t := List.rdropWhile_prefix isBlank (trimStart t)
    obtain ⟨rest, whole⟩ := front
    have start : (trimStart t).head? = some c := by
      rw [← whole, List.head?_append, first]
      rfl
    exact drop_stops start
  · rw [trim, trimEnd, dropEndWhile, List.getLast?_reverse] at last
    exact drop_stops last

theorem trim_before_blank {c : Char} (blank : isBlank c = true) (t : Text) : trim (t ++ [c]) = trim t := by
  have last (s : Text) : trimEnd (s ++ [c]) = trimEnd s := by
    rw [trimEnd, dropEndWhile, List.reverse_concat, List.dropWhile_cons, blank]
    rfl
  unfold trim trimStart
  rw [List.dropWhile_append]
  split
  · rename_i all
    rw [List.isEmpty_iff.mp all, List.dropWhile_cons, blank]
    rfl
  · exact last _

/-- Nothing but blanks. -/
def Blanks (t : Text) : Prop := ∀ c ∈ t, isBlank c = true

instance (t : Text) : Decidable (Blanks t) := decidable_of_iff (t.all isBlank = true) List.all_eq_true

theorem blanks_cons {c : Char} {t : Text} : Blanks (c :: t) ↔ isBlank c = true ∧ Blanks t := List.forall_mem_cons

theorem first_solid_after {lead rest : Text} {c : Char} (blanks : Blanks lead) (solid : isBlank c = false) :
    (lead ++ c :: rest).find? (fun c => !isBlank c) = some c := by
  have none : lead.find? (fun c => !isBlank c) = none := by simpa [Blanks] using blanks
  simp [List.find?_append, none, solid]

/-- What is left of a text starts with its first character other than a blank. -/
theorem first_of_trim (t : Text) : (trim t).head? = t.find? fun c => !isBlank c := by
  rw [List.find?_not_eq_head?_dropWhile, trim, ← trimStart]
  cases start : trimStart t with
  | nil => rfl
  | cons c rest =>
    have solid : isBlank c = false := drop_stops (p := isBlank) (t := t) (by rw [← trimStart, start]; rfl)
    rw [trimEnd, dropEndWhile, List.head?_reverse, List.reverse_cons, List.dropWhile_append]
    split <;> simp [solid]

theorem byte_size_cons (c : Char) (t : Text) : byteSize (c :: t) = c.utf8Size + byteSize t := rfl

theorem byte_size_append (s t : Text) : byteSize (s ++ t) = byteSize s + byteSize t := by
  induction s with
  | nil => simp [byteSize]
  | cons c s ih => rw [List.cons_append, byte_size_cons, byte_size_cons, ih, Nat.add_assoc]

theorem byte_size_of_small {t : Text} (small : ∀ c ∈ t, c.utf8Size = 1) : byteSize t = t.length := by
  induction t with
  | nil => rfl
  | cons c t ih =>
    rw [List.forall_mem_cons] at small
    rw [byte_size_cons, small.1, ih small.2, List.length_cons, Nat.add_comm]

theorem length_le_byte_size (t : Text) : t.length ≤ byteSize t := by
  induction t with
  | nil => simp
  | cons c t ih =>
    have positive := c.utf8Size_pos
    rw [List.length_cons, byte_size_cons]
    omega

theorem byte_size_zero_iff (t : Text) : byteSize t = 0 ↔ t = [] := by
  constructor
  · intro empty
    have shorter := length_le_byte_size t
    exact List.length_eq_zero_iff.mp (by omega)
  · rintro rfl
    rfl

theorem take_bytes_of_front (front rest : Text) :
    takeBytes? (byteSize front) (front ++ rest) = some front := by
  induction front with
  | nil => simp [byteSize, takeBytes?]
  | cons c front ih =>
    have positive := c.utf8Size_pos
    obtain ⟨n, size⟩ : ∃ n, byteSize (c :: front) = n + 1 := by
      refine ⟨c.utf8Size - 1 + byteSize front, ?_⟩
      rw [byte_size_cons]
      omega
    have fits : n + 1 = c.utf8Size + byteSize front := by rw [← size, byte_size_cons]
    have left : n + 1 - c.utf8Size = byteSize front := by omega
    rw [size, List.cons_append, takeBytes?, if_pos (by omega), left, ih]
    rfl

end Text
end CrashTriage
