import CrashTriage.Proofs.Text.Cuts
import Mathlib.Data.List.Forall2

/-
Lines of a text. A text is the pieces it is cut into; pieces that each end in their only line feed, but
perhaps for the last, are cut again where they meet. A line without its ends is the same whichever of
the two readings of line ends is used.
-/
namespace CrashTriage
namespace Text

/-- Each of the texts ends in its only line feed; the last may be without one. -/
inductive CutAfterFeeds : List Text → Prop where
  | nil : CutAfterFeeds []
  | last (piece : Text) : piece ≠ [] → '\n' ∉ piece → CutAfterFeeds [piece]
  | cons (front : Text) (rest : List Text) :
    '\n' ∉ front → CutAfterFeeds rest → CutAfterFeeds ((front ++ ['\n']) :: rest)

theorem pieces_flatten (t : Text) : (pieces t).flatten = t := by
  induction t with
  | nil => rfl
  | cons c t ih =>
    unfold pieces
    split
    · rw [List.flatten_cons, ih, List.singleton_append]
    · split
      · rename_i none
        rw [none] at ih
        rw [← ih]
        rfl
      · rename_i piece rest some
        rw [some] at ih
        rw [← ih]
        rfl

theorem pieces_ended (front t : Text) (free : '\n' ∉ front) :
    pieces (front ++ '\n' :: t) = (front ++ ['\n']) :: pieces t := by
  induction front with
  | nil => rfl
  | cons c front ih =>
    rw [List.mem_cons, not_or] at free
    rw [List.cons_append, pieces, if_neg (Ne.symm free.1), ih free.2]
    rfl

theorem pieces_last (t : Text) (nonempty : t ≠ []) (free : '\n' ∉ t) : pieces t = [t] := by
  induction t with
  | nil => contradiction
  | cons c t ih =>
    rw [List.mem_cons, not_or] at free
    rw [pieces, if_neg (Ne.symm free.1)]
    cases t with
    | nil => rfl
    | cons d t => rw [ih (List.cons_ne_nil d t) free.2]

theorem pieces_cut (t : Text) : CutAfterFeeds (pieces t) := by
  induction t with
  | nil => exact .nil
  | cons c t ih =>
    unfold pieces
    split
    · rename_i feed
      exact feed ▸ .cons [] _ List.not_mem_nil ih
    · rename_i other
      have free : ∀ s : Text, '\n' ∉ s → '\n' ∉ c :: s := fun s absent => by
        simp [Ne.symm other, absent]
      generalize pieces t = ps at ih
      cases ih with
      | nil => exact .last [c] (List.cons_ne_nil c []) (free [] List.not_mem_nil)
      | last piece _ absent => exact .last (c :: piece) (List.cons_ne_nil c piece) (free piece absent)
      | cons front rest absent more => exact .cons (c :: front) rest (free front absent) more

theorem pieces_of_cut {ps : List Text} (cut : CutAfterFeeds ps) : pieces ps.flatten = ps := by
  induction cut with
  | nil => rfl
  | last piece nonempty free =>
    rw [List.flatten_singleton]
    exact pieces_last piece nonempty free
  | cons front rest free _ ih =>
    rw [List.flatten_cons, List.append_assoc, List.singleton_append, pieces_ended front _ free, ih]

theorem piece_shape {ps : List Text} (cut : CutAfterFeeds ps) {piece : Text} (member : piece ∈ ps) :
    '\n' ∉ piece ∨ ∃ front, '\n' ∉ front ∧ piece = front ++ ['\n'] := by
  induction cut with
  | nil => contradiction
  | last only _ free =>
    rw [List.mem_singleton] at member
    exact .inl (member ▸ free)
  | cons front rest free _ ih =>
    rcases List.mem_cons.mp member with rfl | later
    · exact .inr ⟨front, free, rfl⟩
    · exact ih later

theorem chomp_subset (piece : Text) : ∀ c ∈ chompPiece piece, c ∈ piece := by
  intro c member
  rw [← List.mem_reverse]
  unfold chompPiece at member
  split at member
  · rename_i t reversed
    rw [reversed]
    exact List.mem_cons_of_mem _ (List.mem_cons_of_mem _ (List.mem_reverse.mp member))
  · rename_i t _ reversed
    rw [reversed]
    exact List.mem_cons_of_mem _ (List.mem_reverse.mp member)
  · exact List.mem_reverse.mpr member

theorem chomp_without_feed {piece : Text} (free : '\n' ∉ piece) : chompPiece piece = piece := by
  unfold chompPiece
  split
  · rename_i t reversed
    exact absurd (List.mem_reverse.mp (reversed ▸ List.mem_cons_self)) free
  · rename_i t _ reversed
    exact absurd (List.mem_reverse.mp (reversed ▸ List.mem_cons_self)) free
  · rfl

/-- A carriage return before the line feed is left out with it. -/
theorem chomp_ended (front : Text) :
    chompPiece (front ++ ['\n']) = if front.getLast? = some '\r' then front.dropLast else front := by
  have turned : (front ++ ['\n']).reverse = '\n' :: front.reverse := by simp
  unfold chompPiece
  rw [turned]
  rcases List.eq_nil_or_concat front with rfl | ⟨short, c, rfl⟩
  · rfl
  · rw [List.concat_eq_append, List.reverse_concat, List.getLast?_concat, List.dropLast_concat]
    by_cases carriage : c = '\r'
    · simp [carriage]
    · simp [carriage]

theorem line_chars {t line : Text} (member : line ∈ lines t) : ∀ c ∈ line, c ∈ t ∧ c ≠ '\n' := by
  obtain ⟨piece, there, rfl⟩ := List.mem_map.mp member
  intro c inside
  have inPiece := chomp_subset piece c inside
  refine ⟨pieces_flatten t ▸ List.mem_flatten.mpr ⟨piece, there, inPiece⟩, ?_⟩
  rcases piece_shape (pieces_cut t) there with free | ⟨front, free, rfl⟩
  · exact fun feed => free (feed ▸ inPiece)
  · rw [chomp_ended] at inside
    have inFront : c ∈ front := by
      split at inside
      · exact (List.dropLast_subset front) inside
      · exact inside
    exact fun feed => free (feed ▸ inFront)

/-- Lines that are each followed by a line feed are read back. -/
theorem lines_of_ended {ls : List Text} (free : ∀ l ∈ ls, '\n' ∉ l)
    (noReturn : ∀ l ∈ ls, l.getLast? ≠ some '\r') : lines (ls.flatMap (· ++ ['\n'])) = ls := by
  have cut : CutAfterFeeds (ls.map (· ++ ['\n'])) := by
    induction ls with
    | nil => exact .nil
    | cons l ls ih =>
      rw [List.forall_mem_cons] at free noReturn
      exact .cons l _ free.1 (ih free.2 noReturn.2)
  have same : ∀ l ∈ ls, chompPiece (l ++ ['\n']) = l := fun l member => by
    rw [chomp_ended, if_neg (noReturn l member)]
  rw [lines, List.flatMap_def, pieces_of_cut cut, List.map_map]
  exact (List.map_congr_left same).trans (List.map_id ls)

/-- A text of lines, each with a line feed, or with a carriage return and a line feed, after it; the last may
stand without. -/
inductive Lined : List Text → Text → Prop where
  | nil : Lined [] []
  | last (line : Text) : line ≠ [] → '\n' ∉ line → Lined [line] line
  | feed (line : Text) {others : List Text} {rest : Text} : '\n' ∉ line → Lined others rest →
    Lined (line :: others) (line ++ '\n' :: rest)
  | carriage (line : Text) {others : List Text} {rest : Text} : '\n' ∉ line → Lined others rest →
    Lined (line :: others) (line ++ '\r' :: '\n' :: rest)

/-- Lines are read back but for the blanks around them. -/
theorem lines_of_lined {ls : List Text} {t : Text} (lined : Lined ls t) : (lines t).map trim = ls.map trim := by
  unfold lines
  induction lined with
  | nil => rfl
  | last line nonempty free =>
    rw [pieces_last line nonempty free, List.map_singleton, chomp_without_feed free]
  | feed line free _ ih =>
    rw [pieces_ended line _ free]
    simp only [List.map_cons, ih, chomp_ended]
    split
    · rename_i ended
      obtain ⟨front, rfl⟩ := List.getLast?_eq_some_iff.mp ended
      rw [List.dropLast_concat, trim_before_blank (by decide)]
    · rfl
  | carriage line free _ ih =>
    rw [List.append_cons, pieces_ended (line ++ ['\r']) _ (by simp [free])]
    simp only [List.map_cons, ih, chomp_ended]
    simp

/-- What the first character other than a blank is not in any line, it is not in the text. -/
theorem first_solid_of_lined {ls : List Text} {t : Text} {first : Char} (lined : Lined ls t)
    (each : ∀ line ∈ ls, line.find? (fun c => !isBlank c) ≠ some first) :
    t.find? (fun c => !isBlank c) ≠ some first := by
  have onward {line rest : Text} (here : line.find? (fun c => !isBlank c) ≠ some first)
      (later : rest.find? (fun c => !isBlank c) ≠ some first) :
      (line ++ rest).find? (fun c => !isBlank c) ≠ some first := by
    rw [List.find?_append]
    cases found : line.find? (fun c => !isBlank c) with
    | none => exact later
    | some c =>
      rw [found] at here
      exact here
  induction lined with
  | nil => exact nofun
  | last line _ _ => exact each line List.mem_cons_self
  | feed line _ _ ih =>
    rw [List.forall_mem_cons] at each
    exact onward each.1 (ih each.2)
  | carriage line _ _ ih =>
    rw [List.forall_mem_cons] at each
    exact onward each.1 (ih each.2)

/-- A character that can be part of a line's end. -/
def isEnd (c : Char) : Bool := c == '\n' || c == '\r'

theorem drop_end_append_take (p : Char → Bool) (t : Text) :
    dropEndWhile p t ++ (t.reverse.takeWhile p).reverse = t := by
  rw [dropEndWhile, ← List.reverse_append, List.takeWhile_append_dropWhile, List.reverse_reverse]

theorem line_text (piece : Text) : (Line.ofPiece piece).text = piece :=
  drop_end_append_take isEnd piece

theorem line_ending (piece : Text) : ∀ c ∈ (Line.ofPiece piece).ending, c = '\n' ∨ c = '\r' := by
  intro c member
  have ends := List.mem_takeWhile_imp (List.mem_reverse.mp member)
  simpa using ends

theorem line_of_parts {body ending : Text} (ends : ∀ c ∈ ending, isEnd c = true)
    (stops : ∀ c, body.getLast? = some c → isEnd c = false) :
    Line.ofPiece (body ++ ending) = ⟨body, ending⟩ := by
  have stopsReversed : body.reverse.takeWhile isEnd = [] ∧ body.reverse.dropWhile isEnd = body.reverse := by
    cases reversed : body.reverse with
    | nil => exact ⟨rfl, rfl⟩
    | cons c rest =>
      have last : body.getLast? = some c := by rw [← List.head?_reverse, reversed, List.head?_cons]
      have other := stops c last
      simp [other]
  have all : ∀ c ∈ ending.reverse, isEnd c = true := fun c member => ends c (List.mem_reverse.mp member)
  have taken : (body ++ ending).reverse.takeWhile isEnd = ending.reverse := by
    rw [List.reverse_append, List.takeWhile_append_of_pos all, stopsReversed.1, List.append_nil]
  have dropped : (body ++ ending).reverse.dropWhile isEnd = body.reverse := by
    rw [List.reverse_append, List.dropWhile_append_of_pos all, stopsReversed.2]
  show (⟨((body ++ ending).reverse.dropWhile isEnd).reverse,
    ((body ++ ending).reverse.takeWhile isEnd).reverse⟩ : Line) = _
  rw [taken, dropped, List.reverse_reverse, List.reverse_reverse]

theorem line_body_stops (piece : Text) (c : Char)
    (last : (Line.ofPiece piece).body.getLast? = some c) : isEnd c = false := by
  have head : (piece.reverse.dropWhile isEnd).head? = some c := by
    rw [← List.getLast?_reverse]
    exact last
  have stopped := List.head?_dropWhile_not isEnd piece.reverse
  rwa [head] at stopped

theorem drop_end_shorter {p q : Char → Bool} (t : Text) (agree : ∀ c ∈ t, p c = q c) :
    dropEndWhile p t = dropEndWhile q t := by
  have reversed : ∀ c ∈ t.reverse, p c = q c := fun c member => agree c (List.mem_reverse.mp member)
  unfold dropEndWhile
  generalize t.reverse = r at reversed
  induction r with
  | nil => rfl
  | cons c r ih =>
    rw [List.forall_mem_cons] at reversed
    rw [List.dropWhile_cons, List.dropWhile_cons, reversed.1]
    split
    · exact ih reversed.2
    · rfl

theorem ends_without_feed {t : Text} (free : '\n' ∉ t) :
    dropEndWhile isEnd t = dropEndWhile (· == '\r') t := by
  apply drop_end_shorter
  intro c member
  have other : c ≠ '\n' := fun same => free (same ▸ member)
  simp [isEnd, other]

theorem drop_end_ended (front : Text) :
    dropEndWhile isEnd (front ++ ['\n']) = dropEndWhile isEnd front := by
  rw [dropEndWhile, List.reverse_append, dropEndWhile]
  rfl

/-- The line that either reading of line ends leaves when carriage returns are dropped as well. -/
theorem body_of_chomped {ps : List Text} (cut : CutAfterFeeds ps) {piece : Text} (member : piece ∈ ps) :
    (Line.ofPiece piece).body = dropEndWhile (· == '\r') (chompPiece piece) := by
  show dropEndWhile isEnd piece = _
  rcases piece_shape cut member with free | ⟨front, free, rfl⟩
  · rw [chomp_without_feed free, ends_without_feed free]
  · rw [drop_end_ended, ends_without_feed free]
    have turned : (front ++ ['\n']).reverse = '\n' :: front.reverse := by simp
    unfold chompPiece
    rw [turned]
    cases back : front.reverse with
    | nil => rw [List.reverse_eq_nil_iff.mp back]; rfl
    | cons c rest =>
      have whole : front = rest.reverse ++ [c] := by
        rw [← List.reverse_reverse front, back, List.reverse_cons]
      by_cases carriage : c = '\r'
      · subst carriage
        rw [whole, dropEndWhile, List.reverse_append]
        rfl
      · rw [whole]
        simp [carriage]

/-- Texts that end alike: both in their only line feed, or both without one. -/
def EndAlike (s t : Text) : Prop :=
  ('\n' ∉ s ∧ '\n' ∉ t) ∨
    ∃ a b : Text, '\n' ∉ a ∧ '\n' ∉ b ∧ s = a ++ ['\n'] ∧ t = b ++ ['\n']

theorem cut_of_alike {ps qs : List Text} (cut : CutAfterFeeds ps)
    (alike : List.Forall₂ EndAlike ps qs) (nonempty : ∀ q ∈ qs, q ≠ []) : CutAfterFeeds qs := by
  induction cut generalizing qs with
  | nil =>
    cases alike
    exact .nil
  | last piece _ free =>
    cases alike with | cons ends others =>
    cases others
    rename_i q
    rcases ends with ⟨_, freeQ⟩ | ⟨a, b, _, _, rfl, _⟩
    · exact .last q (nonempty q List.mem_cons_self) freeQ
    · simp at free
  | cons front rest free _ ih =>
    cases alike with | cons ends later =>
    rename_i q more
    rcases ends with ⟨freeP, _⟩ | ⟨a, b, _, freeB, _, rfl⟩
    · simp at freeP
    · exact .cons b more freeB (ih later fun q member => nonempty q (List.mem_cons_of_mem _ member))

theorem piece_nonempty {ps : List Text} (cut : CutAfterFeeds ps) : ∀ piece ∈ ps, piece ≠ [] := by
  induction cut with
  | nil => simp
  | last piece nonempty _ => simpa using nonempty
  | cons front rest _ _ ih => simpa using ih

theorem body_without_feed {ps : List Text} (cut : CutAfterFeeds ps) {piece : Text}
    (member : piece ∈ ps) : '\n' ∉ (Line.ofPiece piece).body := by
  have shorter (t : Text) : ∀ c ∈ dropEndWhile isEnd t, c ∈ t := fun c there => by
    rw [← drop_end_append_take isEnd t]
    exact List.mem_append_left _ there
  rcases piece_shape cut member with free | ⟨front, free, rfl⟩
  · exact fun feed => free (shorter piece _ feed)
  · intro feed
    have short : '\n' ∈ dropEndWhile isEnd (front ++ ['\n']) := feed
    rw [drop_end_ended] at short
    exact free (shorter front _ short)

theorem ends_alike_of_shared {body other ending : Text} (shape : '\n' ∉ body ++ ending ∨
      ∃ front, '\n' ∉ front ∧ body ++ ending = front ++ ['\n'])
    (freeBody : '\n' ∉ body) (freeOther : '\n' ∉ other) :
    EndAlike (body ++ ending) (other ++ ending) := by
  rcases shape with free | ⟨front, free, same⟩
  · refine .inl ⟨free, ?_⟩
    simp only [List.mem_append, not_or] at free ⊢
    exact ⟨freeOther, free.2⟩
  · rcases List.eq_nil_or_concat ending with rfl | ⟨short, c, rfl⟩
    · rw [List.append_nil] at same
      simp [same] at freeBody
    · rw [List.concat_eq_append, ← List.append_assoc] at same
      obtain ⟨rfl, last⟩ := List.append_inj' same rfl
      obtain rfl : c = '\n' := by simpa using last
      refine .inr ⟨body ++ short, other ++ short, free, ?_, by simp, by simp⟩
      simp only [List.mem_append, not_or] at free ⊢
      exact ⟨freeOther, free.2⟩

/-- The text of a line in which the body is replaced by something that a line can hold. -/
def CanStandFor (body other : Text) : Prop :=
  other = body ∨ (other ≠ [] ∧ '\n' ∉ other ∧ ∀ c, other.getLast? = some c → isEnd c = false)

section Edited

variable {text : Text} {new : Text × Nat → Text}

theorem edited_pieces_cut
    (sound : ∀ x ∈ (pieces text).zipIdx, CanStandFor (Line.ofPiece x.1).body (new x)) :
    CutAfterFeeds ((pieces text).zipIdx.map fun x => new x ++ (Line.ofPiece x.1).ending) := by
  have cut := pieces_cut text
  have inText : ∀ x ∈ (pieces text).zipIdx, x.1 ∈ pieces text := fun x member =>
    List.mem_of_getElem? (List.mem_zipIdx_iff_getElem?.mp member)
  refine cut_of_alike cut ?_ ?_
  · nth_rewrite 1 [← List.zipIdx_map_fst 0 (pieces text)]
    rw [List.forall₂_map_left_iff, List.forall₂_map_right_iff, List.forall₂_same]
    intro x member
    have free := body_without_feed cut (inText x member)
    have shape := piece_shape cut (inText x member)
    rw [← line_text x.1, Line.text] at shape
    nth_rewrite 1 [← line_text x.1]
    refine ends_alike_of_shared shape free ?_
    rcases sound x member with same | ⟨_, freeNew, _⟩
    · exact same ▸ free
    · exact freeNew
  · intro q member
    obtain ⟨x, there, rfl⟩ := List.mem_map.mp member
    rcases sound x there with same | ⟨some, _, _⟩
    · have whole : (Line.ofPiece x.1).body ++ (Line.ofPiece x.1).ending = x.1 := line_text x.1
      rw [same, whole]
      exact piece_nonempty cut x.1 (inText x there)
    · simp [some]

theorem full_lines_of_edited
    (sound : ∀ x ∈ (pieces text).zipIdx, CanStandFor (Line.ofPiece x.1).body (new x)) :
    fullLines ((pieces text).zipIdx.map fun x => new x ++ (Line.ofPiece x.1).ending).flatten =
      (pieces text).zipIdx.map fun x => ⟨new x, (Line.ofPiece x.1).ending⟩ := by
  rw [fullLines, pieces_of_cut (edited_pieces_cut sound), List.map_map]
  refine List.map_congr_left fun x member => ?_
  refine line_of_parts (fun c there => ?_) ?_
  · simpa [isEnd] using line_ending x.1 c there
  · rcases sound x member with same | ⟨_, _, stops⟩
    · rw [same]
      exact line_body_stops x.1
    · exact stops

end Edited

end Text
end CrashTriage
