import CrashTriage.Proofs.Text.Cuts
import CrashTriage.Script.Words

/-
Words that are written are read back. A piece of a word is read as it was before it was written,
whichever of the ways it was written in; a written word starts and ends in a character that is neither
a blank nor a hash, so that the words of a written line are those it was written from.
-/
namespace CrashTriage
namespace Words

/-- Words that can be written, and read back from one line. -/
def Plain (t : Text) : Prop := ∀ c ∈ t, c ≠ '\x00' ∧ c ≠ '\n'

instance (t : Text) : Decidable (Plain t) :=
  List.decidableBAll (fun c => c ≠ '\x00' ∧ c ≠ '\n') t

/-- Words that can be written, be it on several lines. -/
def Writable (t : Text) : Prop := ∀ c ∈ t, c ≠ '\x00'

instance (t : Text) : Decidable (Writable t) := List.decidableBAll (· ≠ '\x00') t

/-- What a written word starts and ends in. -/
def isMark (c : Char) : Bool := isBareSafe c || c == '\'' || c == '"'

structure Marked (t : Text) : Prop where
  start : ∃ c rest, t = c :: rest ∧ isMark c = true
  stop : ∃ front c, t = front ++ [c] ∧ isMark c = true

variable {place next : Place} {word added t rest piece : Text} {ways : Ways} {c : Char}

theorem Plain.writable (plain : Plain t) : Writable t := fun c member => (plain c member).1

theorem all_writable {ws : List Text} (plain : ∀ w ∈ ws, Plain w) : ∀ w ∈ ws, Writable w :=
  fun w member => (plain w member).writable

theorem read_on (moves : move place c = ⟨next, added, false⟩) :
    readFrom place word (c :: t) = readFrom next (word ++ added) t := by
  simp [readFrom, moves]

theorem read_over (moves : move place c = ⟨next, added, true⟩) :
    readFrom place word (c :: t) = (readFrom next [] t).map (word :: ·) := by
  simp [readFrom, moves]

theorem differs {p : Char → Bool} (holds : p c = true) (d : Char) (fails : p d = false) : c ≠ d := by
  rintro rfl
  rw [fails] at holds
  contradiction

theorem safe_move (safe : isBareSafe c = true) : bareMove c = ⟨.bare, [c], false⟩ := by
  have other := differs safe
  have separators : isSeparator c = false := by
    simp [isSeparator, other ' ' (by decide), other '\t' (by decide), other '\n' (by decide)]
  simp [bareMove, other '"' (by decide), other '\'' (by decide), other '\\' (by decide), separators]

theorem read_bare_piece (safe : ∀ c ∈ piece, isBareSafe c = true) :
    readFrom .bare word (piece ++ rest) = readFrom .bare (word ++ piece) rest := by
  induction piece generalizing word with
  | nil => rw [List.nil_append, List.append_nil]
  | cons c piece ih =>
    rw [List.forall_mem_cons] at safe
    have moves : move .bare c = ⟨.bare, [c], false⟩ := safe_move safe.1
    rw [List.cons_append, read_on moves, ih safe.2, List.append_assoc, List.singleton_append]

theorem read_single_piece (noQuote : ∀ c ∈ piece, c ≠ '\'') :
    readFrom .single word (piece ++ '\'' :: rest) = readFrom .bare (word ++ piece) rest := by
  induction piece generalizing word with
  | nil => exact read_on rfl
  | cons c piece ih =>
    rw [List.forall_mem_cons] at noQuote
    have moves : move .single c = ⟨.single, [c], false⟩ := if_neg noQuote.1
    rw [List.cons_append, read_on moves, ih noQuote.2, List.append_assoc, List.singleton_append]

/-- The written form of a character inside double quotes. -/
def protect (c : Char) : Text := if isDoubleSpecial c then ['\\', c] else [c]

theorem read_protected : readFrom .double word (protect c ++ rest) = readFrom .double (word ++ [c]) rest := by
  unfold protect
  split
  · rename_i special
    have moves : move .doubleEscape c = ⟨.double, [c], false⟩ := if_pos special
    rw [List.cons_append, List.singleton_append, read_on rfl, read_on moves, List.append_nil]
  · rename_i ordinary
    have quote : c ≠ '"' := by rintro rfl; exact ordinary rfl
    have backslash : c ≠ '\\' := by rintro rfl; exact ordinary rfl
    have moves : move .double c = ⟨.double, [c], false⟩ := by simp [move, quote, backslash]
    rw [List.singleton_append, read_on moves]

theorem read_double_piece :
    readFrom .double word (piece.flatMap protect ++ '"' :: rest) = readFrom .bare (word ++ piece) rest := by
  induction piece generalizing word with
  | nil => exact read_on rfl
  | cons c piece ih =>
    rw [List.flatMap_cons, List.append_assoc, read_protected, ih, List.append_assoc,
      List.singleton_append]

/-- The characters of a piece allow what is left of its ways. -/
structure Admits (ways : Ways) (piece : Text) : Prop where
  bare : ways.bare = true → ∀ c ∈ piece, isBareSafe c = true
  single : ways.single = true → ∀ c ∈ piece, c ≠ '\''

theorem read_piece (admits : Admits ways piece) :
    readFrom .bare word (writePiece piece ways ++ rest) = readFrom .bare (word ++ piece) rest := by
  unfold writePiece
  split
  · rename_i bare
    exact read_bare_piece (admits.bare bare)
  · split
    · rename_i single
      rw [List.cons_append, List.cons_append, List.append_assoc, read_on rfl, List.append_nil]
      exact read_single_piece (admits.single single)
    · rw [List.cons_append, List.cons_append, List.append_assoc, read_on rfl, List.append_nil]
      exact read_double_piece

theorem span_ways_cut (ways : Ways) (t : Text) : (spanWays ways t).1 ++ (spanWays ways t).2.1 = t := by
  induction t generalizing ways with
  | nil => rfl
  | cons c t ih =>
    unfold spanWays
    dsimp only
    split
    · rfl
    · rw [List.cons_append, ih]

/-- The ways left after a start were left before it and are ways of its characters. -/
theorem span_ways_left (ways : Ways) (t : Text) :
    ((spanWays ways t).2.2.bare = true →
      ways.bare = true ∧ ∀ c ∈ (spanWays ways t).1, (waysOf c).bare = true) ∧
    ((spanWays ways t).2.2.single = true →
      ways.single = true ∧ ∀ c ∈ (spanWays ways t).1, (waysOf c).single = true) := by
  induction t generalizing ways with
  | nil => simp [spanWays]
  | cons c t ih =>
    unfold spanWays
    dsimp only
    split
    · simp
    · obtain ⟨bare, single⟩ := ih (ways.meet (waysOf c))
      simp only [Ways.meet, Bool.and_eq_true] at bare single
      simp only [List.forall_mem_cons]
      exact ⟨fun left => ⟨(bare left).1.1, (bare left).1.2, (bare left).2⟩,
        fun left => ⟨(single left).1.1, (single left).1.2, (single left).2⟩⟩

theorem single_no_quote (single : (waysOf c).single = true) : c ≠ '\'' := by
  rintro rfl
  contradiction

theorem first_piece_admits (c : Char) (t : Text) :
    Admits (firstPiece c t).2.2 (firstPiece c t).1 := by
  obtain ⟨bare, single⟩ :=
    span_ways_left (if c = '^' then ⟨false, true, false⟩ else Ways.all.meet (waysOf c)) t
  refine ⟨fun left => ?_, fun left => ?_⟩
  · obtain ⟨first, later⟩ := bare left
    refine List.forall_mem_cons.mpr ⟨?_, later⟩
    split at first
    · contradiction
    · simpa [Ways.meet, Ways.all, waysOf] using first
  · obtain ⟨first, later⟩ := single left
    refine List.forall_mem_cons.mpr ⟨?_, fun d member => single_no_quote (later d member)⟩
    split at first
    · rename_i circumflex
      rw [circumflex]
      decide
    · exact single_no_quote (by simpa [Ways.meet, Ways.all] using first)

theorem first_piece_cut (c : Char) (t : Text) :
    (firstPiece c t).1 ++ (firstPiece c t).2.1 = c :: t := by
  rw [firstPiece, List.cons_append, span_ways_cut]

theorem read_pieces (t rest : Text) :
    ∀ word, readFrom .bare word (writePieces t ++ rest) = readFrom .bare (word ++ t) rest := by
  induction t using writePieces.induct with
  | case1 =>
    intro word
    rw [writePieces, List.nil_append, List.append_nil]
  | case2 c t _ ih =>
    intro word
    rw [writePieces, List.append_assoc, read_piece (first_piece_admits c t), ih, List.append_assoc,
      first_piece_cut]

theorem quote_of_writable (writable : Writable word) :
    quote word = if word.isEmpty then ['\'', '\''] else writePieces word := by
  have noNul : word.any (· == '\x00') = false := by
    rw [List.any_eq_false]
    intro c member
    simpa using writable c member
  rw [quote, noNul]
  rfl

theorem marked_around {s m t : Text} (first : Marked s) (last : Marked t) : Marked (s ++ m ++ t) := by
  obtain ⟨c, more, rfl, mark⟩ := first.start
  obtain ⟨front, d, rfl, mark'⟩ := last.stop
  exact ⟨⟨c, more ++ m ++ (front ++ [d]), rfl, mark⟩,
    ⟨c :: more ++ m ++ front, d, by simp only [List.append_assoc], mark'⟩⟩

theorem piece_marked (admits : Admits ways piece) (nonempty : piece ≠ []) :
    Marked (writePiece piece ways) := by
  unfold writePiece
  split
  · rename_i bare
    have safe := admits.bare bare
    have mark (c : Char) (member : c ∈ piece) : isMark c = true := by simp [isMark, safe c member]
    refine ⟨?_, ?_⟩
    · obtain ⟨c, more, rfl⟩ := List.exists_cons_of_ne_nil nonempty
      exact ⟨c, more, rfl, mark c List.mem_cons_self⟩
    · refine ⟨piece.dropLast, piece.getLast nonempty, ?_, mark _ (List.getLast_mem nonempty)⟩
      exact (List.dropLast_concat_getLast nonempty).symm
  · split
    · exact ⟨⟨_, _, rfl, rfl⟩, ⟨_, _, rfl, rfl⟩⟩
    · exact ⟨⟨_, _, rfl, rfl⟩, ⟨_, _, rfl, rfl⟩⟩

theorem pieces_marked (nonempty : t ≠ []) : Marked (writePieces t) := by
  induction t using writePieces.induct with
  | case1 => contradiction
  | case2 c t _ ih =>
    have first : Marked (writePiece (firstPiece c t).1 (firstPiece c t).2.2) :=
      piece_marked (first_piece_admits c t) (List.cons_ne_nil _ _)
    rw [writePieces]
    by_cases more : (firstPiece c t).2.1 = []
    · rw [more, writePieces, List.append_nil]
      exact first
    · rw [← List.append_nil (writePiece _ _)]
      exact marked_around first (ih more)

theorem quote_marked (writable : Writable word) : Marked (quote word) := by
  rw [quote_of_writable writable]
  split
  · exact ⟨⟨_, _, rfl, rfl⟩, ⟨['\''], _, rfl, rfl⟩⟩
  · rename_i nonempty
    exact pieces_marked (by simpa using nonempty)

theorem mark_starts_word (mark : isMark c = true) : isSeparator c = false ∧ c ≠ '#' := by
  have other := differs mark
  refine ⟨?_, other '#' (by decide)⟩
  simp [isSeparator, other ' ' (by decide), other '\t' (by decide), other '\n' (by decide)]

/-- A word that starts in a mark is read as if it had begun before. -/
theorem read_start (marked : Marked t) :
    readFrom .between word (t ++ rest) = readFrom .bare word (t ++ rest) := by
  obtain ⟨c, more, rfl, mark⟩ := marked.start
  obtain ⟨noSeparator, noHash⟩ := mark_starts_word mark
  have same : move .between c = move .bare c := by simp [move, noSeparator, noHash]
  rw [List.cons_append, readFrom, readFrom, same]

theorem read_quote (writable : Writable word) (rest : Text) :
    readFrom .between [] (quote word ++ rest) = readFrom .bare word rest := by
  rw [read_start (quote_marked writable), quote_of_writable writable]
  split
  · -- An empty word is a pair of quotes, which no piece is written as.
    rename_i empty
    rw [List.isEmpty_iff.mp empty]
    exact (read_on rfl).trans (read_on rfl)
  · exact read_pieces word rest []

theorem safe_ways (safe : isBareSafe c = true) : Ways.all.meet (waysOf c) = Ways.all := by
  have other := differs safe
  simp [Ways.meet, Ways.all, waysOf, safe, other '\'' (by decide), other '^' (by decide),
    other '\\' (by decide), other '\x60' (by decide), other '$' (by decide), other '!' (by decide)]

theorem plain_append {s t : Text} : Plain (s ++ t) ↔ Plain s ∧ Plain t := List.forall_mem_append

theorem plain_enclosed (mark : Text) (plainMark : Plain mark) (plain : Plain t) :
    Plain (mark ++ t ++ mark) :=
  plain_append.mpr ⟨plain_append.mpr ⟨plainMark, plain⟩, plainMark⟩

theorem piece_plain (plain : Plain piece) : Plain (writePiece piece ways) := by
  unfold writePiece
  split
  · exact plain
  · split
    · exact plain_enclosed ['\''] (by decide) plain
    · refine plain_enclosed ['"'] (by decide) fun d there => ?_
      obtain ⟨c, inside, protected_⟩ := List.mem_flatMap.mp there
      split at protected_
      · rcases List.mem_cons.mp protected_ with rfl | same
        · decide
        · exact List.mem_singleton.mp same ▸ plain c inside
      · exact List.mem_singleton.mp protected_ ▸ plain c inside

theorem pieces_plain (plain : Plain t) : Plain (writePieces t) := by
  induction t using writePieces.induct with
  | case1 => simpa [writePieces] using plain
  | case2 c t _ ih =>
    rw [← first_piece_cut, plain_append] at plain
    rw [writePieces]
    exact plain_append.mpr ⟨piece_plain plain.1, ih plain.2⟩

theorem quote_plain (plain : Plain word) : Plain (quote word) := by
  rw [quote_of_writable plain.writable]
  split
  · decide
  · exact pieces_plain plain

theorem span_safe (safe : ∀ c ∈ t, isBareSafe c = true) : spanWays Ways.all t = (t, [], Ways.all) := by
  induction t with
  | nil => rfl
  | cons c t ih =>
    rw [List.forall_mem_cons] at safe
    rw [spanWays, safe_ways safe.1, ih safe.2]
    rfl

/-- A word of characters that need no protection. -/
def IsBare (word : Text) : Prop := word ≠ [] ∧ ∀ c ∈ word, isBareSafe c = true

instance (word : Text) : Decidable (∀ c ∈ word, isBareSafe c = true) :=
  List.decidableBAll (isBareSafe · = true) word

instance (word : Text) : Decidable (IsBare word) :=
  inferInstanceAs (Decidable (word ≠ [] ∧ ∀ c ∈ word, isBareSafe c = true))

theorem bare_plain (bare : IsBare word) : Plain word := fun c member =>
  ⟨differs (bare.2 c member) _ (by decide), differs (bare.2 c member) _ (by decide)⟩

/-- A word of characters that need no protection is written as it is. -/
theorem quote_bare (bare : IsBare word) : quote word = word := by
  obtain ⟨nonempty, safe⟩ := bare
  rw [quote_of_writable (bare_plain ⟨nonempty, safe⟩).writable, if_neg (by simpa using nonempty)]
  cases word with
  | nil => contradiction
  | cons c t =>
    rw [List.forall_mem_cons] at safe
    have circumflex : c ≠ '^' := differs safe.1 _ (by decide)
    have cut : firstPiece c t = (c :: t, [], Ways.all) := by
      rw [firstPiece, if_neg circumflex, safe_ways safe.1, span_safe safe.2]
    have bare : writePiece (c :: t) Ways.all = c :: t := if_pos rfl
    simp only [writePieces, cut, bare, List.append_nil]

theorem join_singleton (w : Text) : join [w] = quote w := by
  rw [join, List.map_singleton, Text.joinWith, List.intercalate_singleton]

theorem join_cons (w v : Text) (ws : List Text) :
    join (w :: v :: ws) = quote w ++ ' ' :: join (v :: ws) := by
  simp [join, Text.joinWith, List.intercalate_cons_cons]

theorem join_bare {w : Text} {ws : List Text} (bare : IsBare w) (some_ : ws ≠ []) :
    join (w :: ws) = w ++ ' ' :: join ws := by
  obtain ⟨v, vs, rfl⟩ := List.exists_cons_of_ne_nil some_
  rw [join_cons, quote_bare bare]

theorem join_append {ws vs : List Text} (some_ : ws ≠ []) (others : vs ≠ []) :
    join (ws ++ vs) = join ws ++ ' ' :: join vs := by
  induction ws with
  | nil => contradiction
  | cons w ws ih =>
    cases ws with
    | nil =>
      obtain ⟨v, vs, rfl⟩ := List.exists_cons_of_ne_nil others
      rw [List.singleton_append, join_cons, join_singleton]
    | cons x ws =>
      rw [List.cons_append, List.cons_append, join_cons, ← List.cons_append,
        ih (List.cons_ne_nil x ws), join_cons, List.append_assoc, List.cons_append]

/-- Words that are written with blanks between them are read back. -/
theorem read_join {ws : List Text} (writable : ∀ w ∈ ws, Writable w) : read? (join ws) = some ws := by
  induction ws with
  | nil => rfl
  | cons w ws ih =>
    rw [List.forall_mem_cons] at writable
    cases ws with
    | nil =>
      have alone := read_quote writable.1 []
      rw [List.append_nil] at alone
      rw [join_singleton, read?, alone]
      rfl
    | cons v ws =>
      have rest := ih writable.2
      rw [read?] at rest
      rw [join_cons, read?, read_quote writable.1, read_over rfl, rest]
      rfl

theorem join_plain {ws : List Text} (plain : ∀ w ∈ ws, Plain w) : Plain (join ws) := fun c member => by
  rcases Text.mem_joined member with between | ⟨written, there, inside⟩
  · rw [List.mem_singleton] at between
    exact between ▸ (by decide)
  · obtain ⟨w, word, rfl⟩ := List.mem_map.mp there
    exact quote_plain (plain w word) c inside

theorem join_marked {ws : List Text} (writable : ∀ w ∈ ws, Writable w) (nonempty : ws ≠ []) :
    Marked (join ws) := by
  induction ws with
  | nil => contradiction
  | cons w ws ih =>
    rw [List.forall_mem_cons] at writable
    cases ws with
    | nil => exact join_singleton w ▸ quote_marked writable.1
    | cons v ws =>
      rw [join_cons, ← List.singleton_append, ← List.append_assoc]
      exact marked_around (quote_marked writable.1) (ih writable.2 (List.cons_ne_nil v ws))

theorem move_adds (place : Place) (c : Char) : ∀ d ∈ (move place c).added, d = c ∨ d = '\\' := by
  cases place <;> simp only [move, bareMove] <;> split_ifs <;> simp

/-- Words are made of the characters of their line; a backslash may be added. -/
theorem words_from {P : Char → Prop} (backslash : P '\\') {place : Place} {word t : Text}
    {ws : List Text} (read : readFrom place word t = some ws) (begun : ∀ c ∈ word, P c)
    (line : ∀ c ∈ t, P c) : ∀ w ∈ ws, ∀ c ∈ w, P c := by
  induction t generalizing place word ws with
  | nil =>
    cases place <;> simp only [readFrom, Option.some.injEq, reduceCtorEq] at read
    · simp [← read]
    · simp [← read]
    · simpa [← read] using begun
  | cons c t ih =>
    rw [List.forall_mem_cons] at line
    rw [readFrom] at read
    split at read
    · obtain ⟨rest, later, rfl⟩ := Option.map_eq_some_iff.mp read
      exact List.forall_mem_cons.mpr ⟨begun, ih later (by simp) line.2⟩
    · refine ih read (fun d member => ?_) line.2
      rcases List.mem_append.mp member with before | added
      · exact begun d before
      · rcases move_adds place c d added with rfl | rfl
        · exact line.1
        · exact backslash

theorem plain_words {ws : List Text} (plain : Plain t) (read : read? t = some ws) :
    ∀ w ∈ ws, Plain w :=
  words_from (by decide) read (by simp) plain

/-- The least and the greatest code of a mark. -/
theorem mark_range (mark : isMark c = true) : 33 ≤ c.toNat ∧ c.toNat ≤ 122 := by
  have char_le (a b : Char) : a ≤ b ↔ a.toNat ≤ b.toNat := Iff.rfl
  have codes : '0'.toNat = 48 ∧ '9'.toNat = 57 ∧ 'A'.toNat = 65 ∧ 'Z'.toNat = 90 ∧
    'a'.toNat = 97 ∧ 'z'.toNat = 122 := by decide
  have signs : "+-./:@]_".toList.all (fun d => 33 ≤ d.toNat ∧ d.toNat ≤ 122) = true := by decide
  simp only [isMark, isBareSafe, Bool.or_eq_true, Bool.and_eq_true, decide_eq_true_eq, beq_iff_eq,
    List.contains_iff_mem, char_le] at mark
  rcases mark with ((((digit | upper) | lower) | sign) | rfl) | rfl
  · omega
  · omega
  · omega
  · simpa using List.all_eq_true.mp signs c sign
  · decide
  · decide

theorem mark_not_blank (mark : isMark c = true) : Text.isBlank c = false := by
  have range := mark_range mark
  simp only [Text.isBlank, Bool.or_eq_false_iff, Bool.and_eq_false_iff, decide_eq_false_iff_not,
    beq_eq_false_iff_ne]
  omega

theorem marked_trimmed (marked : Marked t) : Text.trim t = t := by
  obtain ⟨c, rest, start, mark⟩ := marked.start
  obtain ⟨front, d, stop, last⟩ := marked.stop
  refine Text.trim_trimmed ⟨fun x first => ?_, fun x final => ?_⟩
  · rw [start] at first
    cases first
    exact mark_not_blank mark
  · rw [stop, List.getLast?_concat] at final
    cases final
    exact mark_not_blank last

end Words
end CrashTriage
