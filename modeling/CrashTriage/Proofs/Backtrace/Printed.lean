import CrashTriage.Proofs.Backtrace.Frames
import CrashTriage.Proofs.Text.Numerals
import CrashTriage.Proofs.Text.Words
import Mathlib.Tactic.MkIffOfInductiveProp

/-
Backtraces that are printed and read again. A frame line is built from the parts that are read of it, and
a section of a thread leaves the reader closed, with that thread added to what it read before.
-/
namespace CrashTriage

open Text

/-- A detail that is a load address and a decimal offset within 64 bits. -/
def RawLocation.Written (detail : Text) (location : RawLocation) : Prop :=
  ∃ base digits, words detail = [base, ['+'], digits] ∧ startsWith base ['0', 'x'] = true ∧
    (∀ c ∈ digits, isDigit c = true) ∧ Nat.ofDigitChars 10 digits 0 < 2 ^ 64 ∧
    location = ⟨readHex base, UInt64.ofNat (Nat.ofDigitChars 10 digits 0)⟩

theorem raw_location_iff (detail : Text) (location : RawLocation) :
    RawLocation.read? detail = some location ↔ RawLocation.Written detail location := by
  have nonempty : ∀ word ∈ words detail, word ≠ [] := fun word member => by
    simpa using (List.mem_filter.mp member).2
  unfold RawLocation.read? RawLocation.Written
  split
  · rename_i base digits parts
    rw [parts] at nonempty
    by_cases marked : startsWith base ['0', 'x'] = true ∧ ∀ c ∈ digits, isDigit c = true
    · have known := (read_nat_iff marked.2 _).mpr ⟨nonempty digits (by simp), rfl⟩
      have both : (startsWith base ['0', 'x'] && digits.all isDigit) = true := by
        simpa using marked
      rw [if_pos both, known]
      dsimp only
      constructor
      · intro read
        split at read
        · rename_i small
          cases read
          exact ⟨base, digits, parts, marked.1, marked.2, small, rfl⟩
        · contradiction
      · rintro ⟨b, d, same, _, _, small, rfl⟩
        obtain ⟨rfl, rfl⟩ : base = b ∧ digits = d := by simpa [parts] using same
        exact if_pos small
    · have other : ¬ (startsWith base ['0', 'x'] && digits.all isDigit) = true := by
        simpa using marked
      rw [if_neg other]
      simp only [reduceCtorEq, false_iff, not_exists]
      rintro b d ⟨same, start, decimal, _⟩
      obtain ⟨rfl, rfl⟩ : base = b ∧ digits = d := by simpa [parts] using same
      exact marked ⟨start, decimal⟩
  · rename_i other
    simp only [reduceCtorEq, false_iff, not_exists]
    rintro base digits ⟨parts, _⟩
    exact other base digits parts

/-- No address begins after a blank of `s`, so that the first one stands after the blank that follows. -/
theorem before_address_of_words {s : Text} (free : ∀ word ∈ words s, startsAddress word = false)
    {blank : Char} (isBlank : isBlank blank = true) : BeforeAddress (s ++ [blank]) := by
  have notWithin : ∀ a c b, s = a ++ c :: b → Text.isBlank c = true →
      startsAddress (b ++ [blank]) = false := by
    intro a c b parts here
    rw [Bool.eq_false_iff]
    intro starts
    obtain ⟨rest, whole⟩ := (starts_address_iff _).mp starts
    match b with
    | [] =>
      obtain rfl : blank = '0' := by simpa using congrArg List.head? whole
      revert isBlank
      decide
    | [x] =>
      obtain ⟨rfl, rfl, _⟩ : x = '0' ∧ blank = 'x' ∧ rest = [] := by simpa [eq_comm] using whole
      revert isBlank
      decide
    | x :: y :: b =>
      obtain ⟨rfl, rfl, _⟩ : x = '0' ∧ y = 'x' ∧ b ++ [blank] = rest := by simpa using whole
      have marked : startsAddress ('0' :: 'x' :: b) = true := (starts_address_iff _).mpr ⟨b, rfl⟩
      have word := first_word (c := '0') (by decide) ('x' :: b)
      have there : ('0' :: 'x' :: b).takeWhile (fun c => !Text.isBlank c) ∈ words s := by
        rw [parts, words_between here]
        exact List.mem_append_right _ word
      have never := free _ there
      rw [word_starts_address marked] at never
      contradiction
  refine ⟨⟨s, blank, rfl, isBlank⟩, ?_⟩
  intro other marked
  -- the search passes one character of `s` after the other
  clear free
  induction s with
  | nil =>
    have here : (Text.isBlank blank && startsWith other ['0', 'x']) = true := by
      rw [isBlank, Bool.true_and]
      exact marked
    rw [List.nil_append, List.singleton_append, Frame.splitAddress?, if_pos here]
  | cons c s ih =>
    have notHere : ¬ (Text.isBlank c && startsWith (s ++ [blank] ++ other) ['0', 'x']) = true := by
      rw [Bool.and_eq_true]
      rintro ⟨here, starts⟩
      have same := starts_address_append ⟨s, blank, rfl, isBlank⟩ other []
      rw [List.append_nil, notWithin [] c s rfl here] at same
      exact absurd (starts.symm.trans same) (by decide)
    have later := ih fun a d b parts => notWithin (c :: a) d b (by rw [parts]; rfl)
    rw [List.cons_append, List.cons_append, Frame.splitAddress?, if_neg notHere, later]
    rfl

structure FrameEntry where
  index : Nat
  imageName : Text
  address : UInt64
  detail : Text
deriving DecidableEq

namespace FrameEntry

@[mk_iff]
structure Printable (e : FrameEntry) : Prop where
  index : e.index < 2 ^ 31
  named : e.imageName ≠ []
  name : Trimmed e.imageName
  nameLine : '\n' ∉ e.imageName
  noAddress : ∀ word ∈ words e.imageName, startsWith word ['0', 'x'] = false
  detail : Trimmed e.detail
  detailLine : '\n' ∉ e.detail

instance (e : FrameEntry) : Decidable e.Printable := decidable_of_iff _ (printable_iff e).symm

/-- An address in hexadecimal digits, filled with zeros on the left up to `width`. -/
def addressWord (width : Nat) (address : UInt64) : Text :=
  let digits := Nat.toDigits 16 address.toNat
  '0' :: 'x' :: List.replicate (width - digits.length) '0' ++ digits

def head (width : Nat) (e : FrameEntry) : Text :=
  ofNat e.index ++ ("   ".toList ++ e.imageName ++ "   ".toList) ++ addressWord width e.address

def line (width : Nat) (e : FrameEntry) : Text := e.head width ++ ' ' :: e.detail

/-- The frame that is read of the line with a number. -/
def frame (width : Nat) (e : FrameEntry) (number : Nat) : Frame where
  index := e.index
  imageName := e.imageName
  address := e.address
  detail := e.detail
  raw := RawLocation.read? e.detail
  line := number
  addressEnd := byteSize (e.head width)

variable {e : FrameEntry} {width : Nat}

theorem address_word_solid (width : Nat) (address : UInt64) :
    ∀ c ∈ addressWord width address, isBlank c = false := by
  intro c member
  simp only [addressWord, List.cons_append, List.mem_cons, List.mem_append, List.mem_replicate] at member
  rcases member with rfl | rfl | ⟨_, rfl⟩ | digit
  · decide
  · decide
  · decide
  · obtain ⟨d, small, rfl⟩ := hex_digits_of_nat _ c digit
    exact (hex_digit_of_nat small).2.1

theorem read_address_word (width : Nat) (address : UInt64) :
    readHex (addressWord width address) = address := by
  rw [addressWord, read_hex_of_padded, UInt64.ofNat_toNat]

theorem before_address (printable : e.Printable) :
    BeforeAddress ("   ".toList ++ e.imageName ++ "   ".toList) := by
  have space : isBlank ' ' = true := by decide
  have parts : "   ".toList ++ e.imageName ++ "   ".toList =
      ' ' :: ' ' :: ' ' :: ((e.imageName ++ [' ']) ++ [' ']) ++ [' '] := by simp
  rw [parts]
  refine before_address_of_words ?_ space
  rw [words_after_blank space, words_after_blank space, words_after_blank space,
    words_before_blank space, words_before_blank space]
  exact printable.noAddress

theorem trim_between_blanks {t : Text} (trimmed : Trimmed t) :
    trim ("   ".toList ++ t ++ "   ".toList) = t := by
  have blanks : ∀ c ∈ "   ".toList, isBlank c = true := List.all_eq_true.mp (by decide)
  exact trim_padded blanks trimmed blanks

theorem trim_after_blank {t : Text} (trimmed : Trimmed t) : trim (' ' :: t) = t := by
  have blanks : ∀ c ∈ [' '], isBlank c = true := List.all_eq_true.mp (by decide)
  exact trim_behind_blanks blanks trimmed

def frameHead (width : Nat) (e : FrameEntry) (printable : e.Printable) : FrameHead where
  lead := []
  digits := ofNat e.index
  before := "   ".toList ++ e.imageName ++ "   ".toList
  word := addressWord width e.address
  index := e.index
  blanks := by simp
  numbered := of_nat_ne_nil e.index
  decimal := digits_of_nat e.index
  known := read_index_of_nat printable.index
  apart := by
    intro c first
    obtain rfl : ' ' = c := by simpa using first
    decide
  named := by
    rw [trim_between_blanks printable.name]
    exact printable.named
  beforeAddress := before_address printable
  marked := (starts_address_iff _).mpr ⟨_, rfl⟩
  solid := address_word_solid width e.address

theorem line_of_head (printable : e.Printable) :
    e.line width = (frameHead width e printable).text ++ ' ' :: e.detail := rfl

theorem read_line (printable : e.Printable) (number : Nat) :
    Frame.read? (e.line width) number = some (e.frame width number) := by
  have follows : FollowsWord (' ' :: e.detail) := by
    intro c first
    obtain rfl : ' ' = c := by simpa using first
    decide
  rw [line_of_head printable, (frameHead width e printable).read follows]
  simp only [FrameHead.frame, frame, frameHead, trim_between_blanks printable.name,
    trim_after_blank printable.detail, read_address_word]
  rfl

end FrameEntry

/-- A text that can be printed on a line of its own. -/
structure OneLine (line : Text) : Prop where
  free : '\n' ∉ line
  stops : ∀ c, line.getLast? = some c → isEnd c = false

theorem one_line_after {front t : Text} (free : '\n' ∉ front) (stops : OneLine t)
    (end_ : ∀ c, front.getLast? = some c → isEnd c = false) : OneLine (front ++ t) := by
  constructor
  · rw [List.mem_append, not_or]
    exact ⟨free, stops.free⟩
  · intro c last
    rw [List.getLast?_append] at last
    cases back : t.getLast? with
    | some d =>
      rw [back, Option.some_or] at last
      exact stops.stops c (back.trans last)
    | none =>
      rw [back, Option.none_or] at last
      exact end_ c last

theorem one_line_of_trimmed {t : Text} (trimmed : Trimmed t) (free : '\n' ∉ t) : OneLine t := by
  refine ⟨free, fun c last => ?_⟩
  have solid := trimmed.stop c last
  rw [isEnd, Bool.or_eq_false_iff, beq_eq_false_iff_ne, beq_eq_false_iff_ne]
  constructor <;> rintro rfl <;> revert solid <;> decide

theorem FrameEntry.one_line {e : FrameEntry} {width : Nat} (printable : e.Printable) :
    OneLine (e.line width) := by
  have digits : '\n' ∉ ofNat e.index := fun feed => by
    exact absurd (digits_of_nat e.index '\n' feed) (by decide)
  have address : '\n' ∉ addressWord width e.address := fun feed => by
    exact absurd (address_word_solid width e.address '\n' feed) (by decide)
  have front : e.line width = (e.head width ++ [' ']) ++ e.detail := by simp [FrameEntry.line]
  rw [front]
  refine one_line_after ?_ (one_line_of_trimmed printable.detail printable.detailLine) ?_
  · simp [head, digits, address, printable.nameLine]
  · intro c last
    obtain rfl : ' ' = c := by simpa using last
    decide

structure ThreadEntry where
  index : Nat
  crashed : Bool
  name : Option Text
  frames : List FrameEntry
deriving DecidableEq

namespace ThreadEntry

@[mk_iff]
structure Printable (t : ThreadEntry) : Prop where
  index : t.index < 2 ^ 31
  name : ∀ name ∈ t.name, Trimmed name ∧ '\n' ∉ name
  frames : ∀ e ∈ t.frames, e.Printable

instance (t : ThreadEntry) : Decidable t.Printable := decidable_of_iff _ (printable_iff t).symm

def nameLine (t : ThreadEntry) (name : Text) : Text :=
  "Thread ".toList ++ (ofNat t.index ++ ' ' :: ("name:".toList ++ ' ' :: name))

def heading (t : ThreadEntry) : Text :=
  "Thread ".toList ++ (ofNat t.index ++ ((if t.crashed then " Crashed".toList else []) ++ [':']))

/-- The lines of a thread: its name if it has one, its heading, its frames, and a blank line. -/
def lines (width : Nat) (t : ThreadEntry) : List Text :=
  t.name.toList.map t.nameLine ++ t.heading :: t.frames.map (·.line width) ++ [[]]

/-- The thread that is read when the lines of an entry start at line `first`. -/
def thread (width : Nat) (t : ThreadEntry) (first : Nat) : Thread where
  index := t.index
  crashed := t.crashed
  name := t.name
  frames := (t.frames.zipIdx (first + t.name.toList.length + 1)).map fun e => e.1.frame width e.2

def threads (width : Nat) : Nat → List ThreadEntry → List Thread
  | _, [] => []
  | first, t :: rest => t.thread width first :: threads width (first + (t.lines width).length) rest

end ThreadEntry
end CrashTriage
