import CrashTriage.Backtrace.Thread
import CrashTriage.Proofs.Text.Cuts

/-
A frame line has a head, which ends with the address word, and a rest. What is read of the head does not
depend on the rest, so a line keeps its frame, but for the detail, when its rest is written anew.
-/
namespace CrashTriage

open Text

/-- Does an address begin here? -/
def startsAddress (t : Text) : Bool := startsWith t ['0', 'x']

theorem starts_address_iff (t : Text) : startsAddress t = true ↔ ∃ rest, t = '0' :: 'x' :: rest := by
  constructor
  · intro marked
    obtain ⟨rest, same⟩ := List.isPrefixOf_iff_prefix.mp marked
    exact ⟨rest, same.symm⟩
  · rintro ⟨rest, rfl⟩
    simp [startsAddress, startsWith]

theorem word_starts_address {t : Text} (marked : startsAddress t = true) :
    startsAddress (t.takeWhile fun c => !isBlank c) = true := by
  obtain ⟨tail, rfl⟩ := (starts_address_iff t).mp marked
  refine (starts_address_iff _).mpr ⟨tail.takeWhile fun c => !isBlank c, ?_⟩
  rw [List.takeWhile_cons_of_pos (by decide), List.takeWhile_cons_of_pos (by decide)]

/-- The rest of a line after a word: nothing, or text that begins with a blank. -/
def FollowsWord (rest : Text) : Prop := ∀ c, rest.head? = some c → isBlank c = true

theorem word_before_rest {word rest : Text} (solid : ∀ c ∈ word, isBlank c = false)
    (follows : FollowsWord rest) : (word ++ rest).takeWhile (fun c => !isBlank c) = word := by
  have all : ∀ c ∈ word, (!isBlank c) = true := fun c member => by rw [solid c member]; rfl
  rw [List.takeWhile_append_of_pos all]
  cases rest with
  | nil => exact List.append_nil word
  | cons c rest =>
    have blank : isBlank c = true := follows c rfl
    rw [List.takeWhile_cons_of_neg (by simp [blank]), List.append_nil]

theorem drop_taken (p : Char → Bool) (t : Text) : t.drop (t.takeWhile p).length = t.dropWhile p := by
  have whole : t.takeWhile p ++ t.dropWhile p = t := List.takeWhile_append_dropWhile
  calc t.drop (t.takeWhile p).length = (t.takeWhile p ++ t.dropWhile p).drop (t.takeWhile p).length := by
        rw [whole]
    _ = t.dropWhile p := List.drop_left

/-- A text that an address may follow: it ends in a blank, and no address begins in it. -/
structure BeforeAddress (before : Text) : Prop where
  ends : ∃ front blank, before = front ++ [blank] ∧ isBlank blank = true
  cut : ∀ other, startsAddress other = true →
    Frame.splitAddress? (before ++ other) = some (before, other)

theorem starts_address_append {a : Text} (ends : ∃ front blank, a = front ++ [blank] ∧ isBlank blank = true)
    (s t : Text) : startsAddress (a ++ s) = startsAddress (a ++ t) := by
  obtain ⟨front, blank, rfl, isBlank⟩ := ends
  match front with
  | [] =>
    have other : blank ≠ '0' := by
      rintro rfl
      revert isBlank
      decide
    have different : ('0' == blank) = false := beq_eq_false_iff_ne.mpr (Ne.symm other)
    simp [startsAddress, startsWith, List.isPrefixOf, different]
  | [x] => simp [startsAddress, startsWith, List.isPrefixOf]
  | x :: y :: front => simp [startsAddress, startsWith, List.isPrefixOf]

theorem split_address_some {t before rest : Text}
    (cut : Frame.splitAddress? t = some (before, rest)) :
    t = before ++ rest ∧ startsAddress rest = true ∧ BeforeAddress before := by
  induction t generalizing before with
  | nil => simp [Frame.splitAddress?] at cut
  | cons c t ih =>
    unfold Frame.splitAddress? at cut
    split at cut
    · rename_i here
      cases cut
      rw [Bool.and_eq_true] at here
      refine ⟨rfl, here.2, ⟨[], c, rfl, here.1⟩, ?_⟩
      intro other marked
      have both : (isBlank c && startsWith other ['0', 'x']) = true := by
        rw [here.1, Bool.true_and]
        exact marked
      rw [List.singleton_append, Frame.splitAddress?, if_pos both]
    · rename_i notHere
      obtain ⟨⟨a, b⟩, later, pair⟩ := Option.map_eq_some_iff.mp cut
      cases pair
      obtain ⟨rfl, marked, ⟨ends, again⟩⟩ := ih later
      refine ⟨rfl, marked, ?_, ?_⟩
      · obtain ⟨front, blank, rfl, isBlank⟩ := ends
        exact ⟨c :: front, blank, rfl, isBlank⟩
      · intro other markedOther
        have same : startsWith (a ++ other) ['0', 'x'] = startsWith (a ++ rest) ['0', 'x'] :=
          starts_address_append ends other rest
        rw [List.cons_append, Frame.splitAddress?, same, if_neg notHere, again other markedOther]
        rfl

/-- A frame line up to the end of its address word. -/
structure FrameHead where
  lead : Text
  digits : Text
  before : Text
  word : Text
  index : Nat
  blanks : ∀ c ∈ lead, isBlank c = true
  numbered : digits ≠ []
  decimal : ∀ c ∈ digits, isDigit c = true
  known : readIndex? digits = some index
  apart : ∀ c, before.head? = some c → isDigit c = false
  named : trim before ≠ []
  beforeAddress : BeforeAddress before
  marked : startsAddress word = true
  solid : ∀ c ∈ word, isBlank c = false

namespace FrameHead

def text (h : FrameHead) : Text := h.lead ++ h.digits ++ h.before ++ h.word

/-- The frame of a line with this head. -/
def frame (h : FrameHead) (rest : Text) (number : Nat) : Frame where
  index := h.index
  imageName := trim h.before
  address := readHex h.word
  detail := trim rest
  raw := RawLocation.read? (trim rest)
  line := number
  addressEnd := byteSize h.text

theorem read (h : FrameHead) {rest : Text} (follows : FollowsWord rest) (number : Nat) :
    Frame.read? (h.text ++ rest) number = some (h.frame rest number) := by
  have whole : h.text ++ rest = h.lead ++ (h.digits ++ (h.before ++ (h.word ++ rest))) := by
    simp [text]
  obtain ⟨d, ds, digitsEq⟩ := List.exists_cons_of_ne_nil h.numbered
  have solidStart : isBlank d = false :=
    digit_not_blank (h.decimal d (digitsEq ▸ List.mem_cons_self))
  have stops : isBlank d ≠ true := by simp [solidStart]
  have leadTaken : (h.text ++ rest).takeWhile isBlank = h.lead := by
    rw [whole, List.takeWhile_append_of_pos h.blanks, digitsEq, List.cons_append,
      List.takeWhile_cons_of_neg stops, List.append_nil]
  have body : trimStart (h.text ++ rest) = h.digits ++ (h.before ++ (h.word ++ rest)) := by
    rw [whole, trimStart, List.dropWhile_append_of_pos h.blanks, digitsEq, List.cons_append,
      List.dropWhile_cons_of_neg stops]
  have digitsTaken :
      (h.digits ++ (h.before ++ (h.word ++ rest))).takeWhile isDigit = h.digits := by
    rw [List.takeWhile_append_of_pos h.decimal]
    cases beforeEq : h.before with
    | nil =>
      obtain ⟨front, blank, ended, _⟩ := h.beforeAddress.ends
      rw [beforeEq] at ended
      simp at ended
    | cons c before =>
      have other : isDigit c = false := h.apart c (by rw [beforeEq, List.head?_cons])
      rw [List.cons_append, List.takeWhile_cons_of_neg (by simp [other]), List.append_nil]
  have markedRest : startsAddress (h.word ++ rest) = true := by
    obtain ⟨tail, wordEq⟩ := (starts_address_iff h.word).mp h.marked
    exact (starts_address_iff _).mpr ⟨tail ++ rest, by rw [wordEq]; rfl⟩
  have someDigits : h.digits.isEmpty = false := by simp [digitsEq]
  have someName : (trim h.before).isEmpty = false := by simp [h.named]
  have afterDigits : (h.digits ++ (h.before ++ (h.word ++ rest))).drop h.digits.length =
      h.before ++ (h.word ++ rest) := List.drop_left
  have afterWord : (h.word ++ rest).drop h.word.length = rest := List.drop_left
  unfold Frame.read?
  simp only [body, digitsTaken, someDigits, h.known, afterDigits, h.beforeAddress.cut _ markedRest,
    Option.bind_eq_bind, Option.bind_some, word_before_rest h.solid follows, someName, leadTaken,
    afterWord, Bool.false_eq_true, if_false]
  rfl

theorem not_read_as_heading (h : FrameHead) (rest : Text) :
    startsWith (h.text ++ rest) "Thread ".toList = false ∧
      BacktraceLine.startsImages (h.text ++ rest) = false := by
  obtain ⟨d, ds, digitsEq⟩ := List.exists_cons_of_ne_nil h.numbered
  have first : ∃ c tail, h.text ++ rest = c :: tail ∧ (isBlank c = true ∨ isDigit c = true) := by
    cases leadEq : h.lead with
    | nil =>
      refine ⟨d, ds ++ h.before ++ h.word ++ rest, by simp [text, leadEq, digitsEq], .inr ?_⟩
      exact h.decimal d (digitsEq ▸ List.mem_cons_self)
    | cons c lead =>
      refine ⟨c, lead ++ h.digits ++ h.before ++ h.word ++ rest, by simp [text, leadEq], .inl ?_⟩
      exact h.blanks c (leadEq ▸ List.mem_cons_self)
  obtain ⟨c, tail, whole, kind⟩ := first
  have notT : ('T' == c) = false := by
    rw [beq_eq_false_iff_ne]
    rintro rfl
    revert kind
    decide
  have notB : ('B' == c) = false := by
    rw [beq_eq_false_iff_ne]
    rintro rfl
    revert kind
    decide
  have thread : "Thread ".toList = 'T' :: "hread ".toList := rfl
  have images : BacktraceLine.imagesHeading = 'B' :: "inary Images:".toList := rfl
  rw [whole, BacktraceLine.startsImages, startsWith, startsWith, thread, images]
  constructor
  · rw [List.isPrefixOf_cons_cons, notT, Bool.false_and]
  · rw [List.isPrefixOf_cons_cons, notB, Bool.false_and]

theorem line_kind (h : FrameHead) (rest : Text) :
    BacktraceLine.ofLine (h.text ++ rest) = .other (h.text ++ rest) := by
  have notHeading : strip? "Thread ".toList (h.text ++ rest) = none :=
    strip_none_of_other_start (h.not_read_as_heading rest).1
  have notBlank : allBlank (h.text ++ rest) = false := by
    obtain ⟨d, ds, digitsEq⟩ := List.exists_cons_of_ne_nil h.numbered
    have digit := h.decimal d (digitsEq ▸ List.mem_cons_self)
    have member : d ∈ h.text ++ rest := by simp [text, digitsEq]
    rw [allBlank, List.all_eq_false]
    exact ⟨d, member, by simp [digit_not_blank digit]⟩
  rw [BacktraceLine.ofLine, notHeading, notBlank]
  rfl

end FrameHead

theorem head_of_read {line : Text} {number : Nat} {f : Frame}
    (read : Frame.read? line number = some f) :
    ∃ (h : FrameHead) (rest : Text), FollowsWord rest ∧ line = h.text ++ rest ∧
      f = h.frame rest number := by
  unfold Frame.read? at read
  dsimp only at read
  split at read
  · contradiction
  rename_i someDigits
  obtain ⟨index, known, read⟩ := Option.bind_eq_some_iff.mp read
  obtain ⟨⟨before, other⟩, cut, read⟩ := Option.bind_eq_some_iff.mp read
  dsimp only at read
  split at read
  · contradiction
  rename_i named
  cases read
  rw [drop_taken] at cut
  obtain ⟨afterDigits, markedOther, beforeAddress⟩ := split_address_some cut
  have marked := word_starts_address markedOther
  have apart : ∀ c, before.head? = some c → isDigit c = false := by
    intro c first
    have head : ((trimStart line).dropWhile isDigit).head? = some c := by
      rw [afterDigits, List.head?_append, first]
      rfl
    have stopped := List.head?_dropWhile_not isDigit (trimStart line)
    rwa [head] at stopped
  refine ⟨⟨line.takeWhile isBlank, (trimStart line).takeWhile isDigit, before,
    other.takeWhile fun c => !isBlank c, index, fun c => List.mem_takeWhile_imp,
    by simpa using someDigits, fun c => List.mem_takeWhile_imp, known, apart, by simpa using named,
    beforeAddress, marked, ?_⟩, other.dropWhile fun c => !isBlank c, ?_, ?_, ?_⟩
  · intro c member
    simpa using List.mem_takeWhile_imp member
  · intro c first
    have stopped := List.head?_dropWhile_not (fun c => !isBlank c) other
    rw [first] at stopped
    simpa using stopped
  · calc line = line.takeWhile isBlank ++ trimStart line := List.takeWhile_append_dropWhile.symm
      _ = line.takeWhile isBlank ++ ((trimStart line).takeWhile isDigit ++ (before ++ other)) := by
        rw [← afterDigits, List.takeWhile_append_dropWhile]
      _ = _ := by
        simp only [FrameHead.text, List.append_assoc, List.takeWhile_append_dropWhile]
  · rw [drop_taken]
    rfl

end CrashTriage
