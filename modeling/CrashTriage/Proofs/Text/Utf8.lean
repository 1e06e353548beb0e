import CrashTriage.Text.Bytes
import Mathlib.Algebra.Order.BigOperators.Group.List
import Mathlib.Algebra.Order.Ring.Nat

/-
UTF-8 read and written. The bytes of a character are read as that character and no other bytes are, so
that a lossy reading can be written back to the same bytes just when nothing was lost.
-/
namespace CrashTriage
namespace Bytes

variable {lead b : UInt8} {rest bytes : Bytes} {c : Char} {n v : Nat}

theorem continuation_iff (b : UInt8) : isContinuation b = true ↔ 0x80 ≤ b.toNat ∧ b.toNat ≤ 0xBF := by
  rw [isContinuation, Bool.and_eq_true, decide_eq_true_eq, decide_eq_true_eq, UInt8.le_iff_toNat_le,
    UInt8.le_iff_toNat_le]
  rfl

theorem second_fits_iff (lead second : UInt8) : secondFits lead second = true ↔
    0x80 ≤ second.toNat ∧ second.toNat ≤ 0xBF ∧ (lead.toNat = 0xE0 → 0xA0 ≤ second.toNat) ∧
      (lead.toNat = 0xED → second.toNat ≤ 0x9F) ∧ (lead.toNat = 0xF0 → 0x90 ≤ second.toNat) ∧
      (lead.toNat = 0xF4 → second.toNat ≤ 0x8F) := by
  have number (m : UInt8) : (lead == m) = true ↔ lead.toNat = m.toNat := by
    rw [beq_iff_eq, UInt8.toNat_inj]
  have range (low high : UInt8) : (low ≤ second && second ≤ high) = true ↔
      low.toNat ≤ second.toNat ∧ second.toNat ≤ high.toNat := by
    rw [Bool.and_eq_true, decide_eq_true_eq, decide_eq_true_eq, UInt8.le_iff_toNat_le, UInt8.le_iff_toNat_le]
  have values : (0xE0 : UInt8).toNat = 0xE0 ∧ (0xED : UInt8).toNat = 0xED ∧ (0xF0 : UInt8).toNat = 0xF0 ∧
      (0xF4 : UInt8).toNat = 0xF4 ∧ (0xA0 : UInt8).toNat = 0xA0 ∧ (0xBF : UInt8).toNat = 0xBF ∧
      (0x80 : UInt8).toNat = 0x80 ∧ (0x9F : UInt8).toNat = 0x9F ∧ (0x90 : UInt8).toNat = 0x90 ∧
      (0x8F : UInt8).toNat = 0x8F := by decide
  unfold secondFits
  simp only [number, values]
  split
  · rw [range]
    omega
  · split
    · rw [range]
      omega
    · split
      · rw [range]
        omega
      · split
        · rw [range]
          omega
        · rw [continuation_iff]
          omega

/-- The bytes of the character with a number. -/
inductive Coded : Nat → Bytes → Prop where
  | one {a : UInt8} : a.toNat < 0x80 → Coded a.toNat [a]
  | two {a b : UInt8} : 0xC2 ≤ a.toNat → a.toNat ≤ 0xDF → isContinuation b = true →
    Coded (a.toNat % 32 * 64 + low b) [a, b]
  | three {a b c : UInt8} : 0xE0 ≤ a.toNat → a.toNat ≤ 0xEF → secondFits a b = true →
    isContinuation c = true → Coded (a.toNat % 16 * 4096 + low b * 64 + low c) [a, b, c]
  | four {a b c d : UInt8} : 0xF0 ≤ a.toNat → a.toNat ≤ 0xF4 → secondFits a b = true →
    isContinuation c = true → isContinuation d = true →
    Coded (a.toNat % 8 * 262144 + low b * 4096 + low c * 64 + low d) [a, b, c, d]

/-- What the reading of one character says of the bytes. -/
inductive Read (lead : UInt8) (rest : Bytes) : Option Char × Nat → Prop where
  | char (v n : Nat) : n ≤ rest.length → Coded v (lead :: rest.take n) → Read lead rest (some (Char.ofNat v), n)
  | invalid (n : Nat) : n ≤ rest.length → n ≤ 2 → Read lead rest (none, n)

theorem read_char (lead : UInt8) (rest : Bytes) : Read lead rest (readChar lead rest) := by
  -- the first byte tells how many follow; each that does not fit ends the reading where it stands
  unfold readChar
  dsimp only
  split
  · rename_i ascii
    exact .char _ 0 (Nat.zero_le _) (.one ascii)
  · split
    · rename_i leads
      rw [Bool.and_eq_true, decide_eq_true_eq, decide_eq_true_eq] at leads
      split
      · rename_i b rest
        split
        · rename_i follows
          exact .char _ 1 (by simp) (.two leads.1 leads.2 follows)
        · exact .invalid 0 (Nat.zero_le _) (by omega)
      · exact .invalid 0 (Nat.zero_le _) (by omega)
    · split
      · rename_i leads
        rw [Bool.and_eq_true, decide_eq_true_eq, decide_eq_true_eq] at leads
        split
        · rename_i b rest
          split
          · exact .invalid 0 (Nat.zero_le _) (by omega)
          · rename_i fits
            have fits : secondFits lead b = true := by simpa using fits
            split
            · rename_i c rest
              split
              · rename_i follows
                exact .char _ 2 (by simp) (.three leads.1 leads.2 fits follows)
              · exact .invalid 1 (by simp) (by omega)
            · exact .invalid 1 (by simp) (by omega)
        · exact .invalid 0 (Nat.zero_le _) (by omega)
      · split
        · rename_i leads
          rw [Bool.and_eq_true, decide_eq_true_eq, decide_eq_true_eq] at leads
          split
          · rename_i b rest
            split
            · exact .invalid 0 (Nat.zero_le _) (by omega)
            · rename_i fits
              have fits : secondFits lead b = true := by simpa using fits
              split
              · rename_i c rest
                split
                · exact .invalid 1 (by simp) (by omega)
                · rename_i third
                  have third : isContinuation c = true := by simpa using third
                  split
                  · rename_i d rest
                    split
                    · rename_i fourth
                      exact .char _ 3 (by simp) (.four leads.1 leads.2 fits third fourth)
                    · exact .invalid 2 (by simp) (by omega)
                  · exact .invalid 2 (by simp) (by omega)
              · exact .invalid 1 (by simp) (by omega)
          · exact .invalid 0 (Nat.zero_le _) (by omega)
        · exact .invalid 0 (Nat.zero_le _) (by omega)

theorem read_coded (coded : Coded v (lead :: bytes)) (rest : Bytes) :
    readChar lead (bytes ++ rest) = (some (Char.ofNat v), bytes.length) := by
  unfold readChar
  cases coded with
  | one ascii => simp [ascii]
  | two above below follows =>
    have notAscii : ¬ lead.toNat < 0x80 := by omega
    simp [notAscii, above, below, follows]
  | three above below fits follows =>
    have notAscii : ¬ lead.toNat < 0x80 := by omega
    have notTwo : ¬ lead.toNat ≤ 0xDF := by omega
    simp [notAscii, notTwo, above, below, fits, follows]
  | four above below fits third follows =>
    have notAscii : ¬ lead.toNat < 0x80 := by omega
    have notTwo : ¬ lead.toNat ≤ 0xDF := by omega
    have notThree : ¬ lead.toNat ≤ 0xEF := by omega
    simp [notAscii, notTwo, notThree, above, below, fits, third, follows]

theorem low_of_continuation (follows : isContinuation b = true) : b.toNat = low b + 128 ∧ low b < 64 := by
  rw [continuation_iff] at follows
  rw [low]
  omega

theorem continuation_of_fits (fits : secondFits lead b = true) : isContinuation b = true := by
  rw [second_fits_iff] at fits
  exact (continuation_iff b).mpr ⟨fits.1, fits.2.1⟩

theorem coded_valid (coded : Coded v bytes) : v.isValidChar := by
  cases coded with
  | one ascii => exact .inl (by omega)
  | two above below follows =>
    have second := low_of_continuation follows
    exact .inl (by omega)
  | three above below fits follows =>
    have second := low_of_continuation (continuation_of_fits fits)
    have third := low_of_continuation follows
    rw [second_fits_iff] at fits
    unfold Nat.isValidChar
    omega
  | four above below fits third follows =>
    have second := low_of_continuation (continuation_of_fits fits)
    have third := low_of_continuation third
    have fourth := low_of_continuation follows
    rw [second_fits_iff] at fits
    unfold Nat.isValidChar
    omega

theorem coded_number (coded : Coded v bytes) : (Char.ofNat v).toNat = v := by
  rw [Char.ofNat, dif_pos (coded_valid coded)]
  rfl

theorem byte_of_number {x : Nat} {a : UInt8} (same : x = a.toNat) : UInt8.ofNat x = a := by
  rw [same, UInt8.ofNat_toNat]

theorem encode_of_coded (coded : Coded v bytes) : String.utf8EncodeChar (Char.ofNat v) = bytes := by
  have number : (Char.ofNat v).val.toNat = v := coded_number coded
  unfold String.utf8EncodeChar
  dsimp only
  rw [number]
  cases coded with
  | one ascii => rw [if_pos (by omega), UInt8.ofNat_toNat]
  | @two a b above below follows =>
    have second := low_of_continuation follows
    have first : (a.toNat % 32 * 64 + low b) / 64 % 32 + 192 = a.toNat := by omega
    have last : (a.toNat % 32 * 64 + low b) % 64 + 128 = b.toNat := by omega
    rw [if_neg (by omega), if_pos (by omega), byte_of_number first, byte_of_number last]
  | @three a b c above below fits follows =>
    have second := low_of_continuation (continuation_of_fits fits)
    have third := low_of_continuation follows
    rw [second_fits_iff] at fits
    generalize value : a.toNat % 16 * 4096 + low b * 64 + low c = v
    have first : v / 4096 % 16 + 224 = a.toNat := by omega
    have middle : v / 64 % 64 + 128 = b.toNat := by omega
    have last : v % 64 + 128 = c.toNat := by omega
    rw [if_neg (by omega), if_neg (by omega), if_pos (by omega), byte_of_number first, byte_of_number middle,
      byte_of_number last]
  | @four a b c d above below fits third follows =>
    have second := low_of_continuation (continuation_of_fits fits)
    have third := low_of_continuation third
    have fourth := low_of_continuation follows
    rw [second_fits_iff] at fits
    generalize value : a.toNat % 8 * 262144 + low b * 4096 + low c * 64 + low d = v
    have first : v / 262144 % 8 + 240 = a.toNat := by omega
    have middle : v / 4096 % 64 + 128 = b.toNat := by omega
    have later : v / 64 % 64 + 128 = c.toNat := by omega
    have last : v % 64 + 128 = d.toNat := by omega
    rw [if_neg (by omega), if_neg (by omega), if_neg (by omega), byte_of_number first, byte_of_number middle,
      byte_of_number later, byte_of_number last]

theorem number_of_byte {x : Nat} (small : x < 256) : (UInt8.ofNat x).toNat = x := by
  rw [UInt8.toNat_ofNat']
  exact Nat.mod_eq_of_lt small

theorem coded_of_encode (c : Char) : Coded c.toNat (String.utf8EncodeChar c) := by
  have valid : c.toNat.isValidChar := c.valid
  have number : c.val.toNat = c.toNat := rfl
  generalize value : c.toNat = v at *
  unfold Nat.isValidChar at valid
  unfold String.utf8EncodeChar
  dsimp only
  rw [number]
  split
  · rename_i ascii
    have first := number_of_byte (x := v) (by omega)
    have coded : Coded _ [UInt8.ofNat v] := .one (by omega)
    rwa [first] at coded
  · split
    · rename_i above below
      have first := number_of_byte (x := v / 64 % 32 + 192) (by omega)
      have last := number_of_byte (x := v % 64 + 128) (by omega)
      have coded : Coded _ [UInt8.ofNat (v / 64 % 32 + 192), UInt8.ofNat (v % 64 + 128)] :=
        .two (by omega) (by omega) ((continuation_iff _).mpr (by omega))
      have same : (UInt8.ofNat (v / 64 % 32 + 192)).toNat % 32 * 64 + low (UInt8.ofNat (v % 64 + 128)) = v := by
        rw [low, first, last]
        omega
      rwa [same] at coded
    · split
      · rename_i above below
        have first := number_of_byte (x := v / 4096 % 16 + 224) (by omega)
        have middle := number_of_byte (x := v / 64 % 64 + 128) (by omega)
        have last := number_of_byte (x := v % 64 + 128) (by omega)
        have coded : Coded _ [UInt8.ofNat (v / 4096 % 16 + 224), UInt8.ofNat (v / 64 % 64 + 128),
            UInt8.ofNat (v % 64 + 128)] :=
          .three (by omega) (by omega) ((second_fits_iff _ _).mpr (by omega)) ((continuation_iff _).mpr (by omega))
        have same : (UInt8.ofNat (v / 4096 % 16 + 224)).toNat % 16 * 4096 +
            low (UInt8.ofNat (v / 64 % 64 + 128)) * 64 + low (UInt8.ofNat (v % 64 + 128)) = v := by
          rw [low, low, first, middle, last]
          omega
        rwa [same] at coded
      · rename_i above
        have first := number_of_byte (x := v / 262144 % 8 + 240) (by omega)
        have middle := number_of_byte (x := v / 4096 % 64 + 128) (by omega)
        have later := number_of_byte (x := v / 64 % 64 + 128) (by omega)
        have last := number_of_byte (x := v % 64 + 128) (by omega)
        have coded : Coded _ [UInt8.ofNat (v / 262144 % 8 + 240), UInt8.ofNat (v / 4096 % 64 + 128),
            UInt8.ofNat (v / 64 % 64 + 128), UInt8.ofNat (v % 64 + 128)] :=
          .four (by omega) (by omega) ((second_fits_iff _ _).mpr (by omega)) ((continuation_iff _).mpr (by omega))
            ((continuation_iff _).mpr (by omega))
        have same : (UInt8.ofNat (v / 262144 % 8 + 240)).toNat % 8 * 262144 +
            low (UInt8.ofNat (v / 4096 % 64 + 128)) * 4096 + low (UInt8.ofNat (v / 64 % 64 + 128)) * 64 +
            low (UInt8.ofNat (v % 64 + 128)) = v := by
          rw [low, low, low, first, middle, later, last]
          omega
        rwa [same] at coded

/-- A byte string that is some text's. -/
def IsUtf8 (bytes : Bytes) : Prop := ∃ t : Text, bytes = t.toBytes

/-- What is written back after a lossy reading. -/
def repaired (bytes : Bytes) : Bytes := (toText bytes).toBytes

theorem to_text_nil : toText [] = [] := by
  rw [toText, readChars]
  rfl

theorem to_text_cons (lead : UInt8) (rest : Bytes) :
    toText (lead :: rest) =
      (readChar lead rest).1.getD '\uFFFD' :: toText (rest.drop (readChar lead rest).2) := by
  rw [toText, readChars, List.map_cons]
  rfl

theorem to_text_of_coded (coded : Coded v bytes) (rest : Bytes) :
    toText (bytes ++ rest) = Char.ofNat v :: toText rest := by
  obtain ⟨lead, more, rfl⟩ : ∃ lead more, bytes = lead :: more := by
    cases coded <;> exact ⟨_, _, rfl⟩
  rw [List.cons_append, to_text_cons, read_coded coded, List.drop_left]
  rfl

theorem text_of_bytes (t : Text) : toText t.toBytes = t := by
  induction t with
  | nil => exact to_text_nil
  | cons c t ih =>
    have whole : Text.toBytes (c :: t) = String.utf8EncodeChar c ++ Text.toBytes t := rfl
    rw [whole, to_text_of_coded (coded_of_encode c), ih, Char.ofNat_toNat]

theorem is_utf8_iff (bytes : Bytes) : IsUtf8 bytes ↔ repaired bytes = bytes := by
  constructor
  · rintro ⟨t, rfl⟩
    rw [repaired, text_of_bytes]
  · intro same
    exact ⟨toText bytes, same.symm⟩

theorem to_bytes_append (s t : Text) : (s ++ t).toBytes = s.toBytes ++ t.toBytes := List.flatMap_append ..

theorem to_bytes_flatten (ts : List Text) : Text.toBytes ts.flatten = (ts.map Text.toBytes).flatten := by
  induction ts with
  | nil => rfl
  | cons t ts ih => rw [List.flatten_cons, to_bytes_append, ih, List.map_cons, List.flatten_cons]

theorem repaired_cons {read? : Option Char} (answer : readChar lead rest = (read?, n)) :
    repaired (lead :: rest) = String.utf8EncodeChar (read?.getD '\uFFFD') ++ repaired (rest.drop n) := by
  rw [repaired, to_text_cons, answer]
  rfl

theorem length_le_repaired (bytes : Bytes) : bytes.length ≤ (repaired bytes).length := by
  induction bytes using readChars.induct with
  | case1 => exact Nat.zero_le _
  | case2 lead rest c n answer ih =>
    rw [repaired_cons answer, List.length_append, List.length_cons]
    have short : rest.length ≤ n + (rest.drop n).length := by
      rw [List.length_drop]
      omega
    have read := read_char lead rest
    rw [answer] at read
    cases read with
    | char v n fits coded =>
      rw [Option.getD_some, encode_of_coded coded, List.length_cons, List.length_take_of_le fits]
      omega
    | invalid n fits few =>
      -- what is written is as long as the longest run of bytes that is read as nothing
      have three : (String.utf8EncodeChar '\uFFFD').length = 3 := rfl
      rw [Option.getD_none, three]
      omega

/-- How a character is read depends on no more bytes than it takes. -/
theorem read_char_taken (lead : UInt8) (rest : Bytes) (k : Nat) (enough : (readChar lead rest).2 ≤ k) :
    readChar lead (rest.take k) = readChar lead rest := by
  -- no more than three bytes after the lead are looked at
  rcases rest with _ | ⟨b, _ | ⟨c, _ | ⟨d, rest⟩⟩⟩ <;> rcases k with _ | _ | _ | k <;>
    simp only [readChar, List.take] at enough ⊢ <;> grind

/-- Bytes can be cut wherever the text that is read of them is cut. -/
theorem cut_text {s t : Text} (whole : toText bytes = s ++ t) :
    ∃ a b, bytes = a ++ b ∧ toText a = s ∧ toText b = t := by
  induction s generalizing bytes with
  | nil => exact ⟨[], bytes, rfl, to_text_nil, whole⟩
  | cons c s ih =>
    cases bytes with
    | nil =>
      rw [to_text_nil] at whole
      cases whole
    | cons lead rest =>
      rw [to_text_cons] at whole
      obtain ⟨first, more⟩ := List.cons.inj whole
      obtain ⟨a, b, cut, front, back⟩ := ih more
      refine ⟨lead :: (rest.take (readChar lead rest).2 ++ a), b, ?_, ?_, back⟩
      · rw [List.cons_append, List.append_assoc, ← cut, List.take_append_drop]
      · have fits : (readChar lead rest).2 ≤ rest.length := by
          have read := read_char lead rest
          generalize readChar lead rest = answer at read
          cases read with
          | char _ _ fits _ => exact fits
          | invalid _ fits _ => exact fits
        have taken : rest.take (readChar lead rest).2 ++ a = rest.take ((readChar lead rest).2 + a.length) := by
          rw [List.take_add, cut, List.take_left]
        have same := read_char_taken lead rest ((readChar lead rest).2 + a.length) (Nat.le_add_right _ _)
        rw [taken, to_text_cons, same, first, ← taken, List.drop_left' (List.length_take_of_le fits), front]

/-- The bytes of a text that is cut in parts are cut in as many. -/
theorem cut_texts {parts : List Text} (whole : toText bytes = parts.flatten) :
    ∃ bs : List Bytes, bs.flatten = bytes ∧ bs.map toText = parts := by
  induction parts generalizing bytes with
  | nil =>
    cases bytes with
    | nil => exact ⟨[], rfl, rfl⟩
    | cons lead rest =>
      rw [to_text_cons] at whole
      cases whole
  | cons part parts ih =>
    obtain ⟨a, b, rfl, front, back⟩ := cut_text whole
    obtain ⟨bs, flat, texts⟩ := ih back
    exact ⟨a :: bs, by rw [List.flatten_cons, flat], by rw [List.map_cons, front, texts]⟩

/-- Nothing was lost where no replacement character is read. -/
theorem repaired_without_loss (bytes : Bytes) (clean : '\uFFFD' ∉ toText bytes) : repaired bytes = bytes := by
  induction bytes using readChars.induct with
  | case1 => rw [repaired, to_text_nil]; rfl
  | case2 lead rest c n answer ih =>
    rw [to_text_cons, answer, List.mem_cons, not_or] at clean
    rw [repaired_cons answer, ih clean.2]
    have read := read_char lead rest
    rw [answer] at read
    cases read with
    | char v n fits coded =>
      rw [Option.getD_some, encode_of_coded coded, List.cons_append, List.take_append_drop]
    | invalid n fits few => exact absurd rfl clean.1

theorem line_end_bytes {bytes : Bytes} (ends : ∀ c ∈ toText bytes, c = '\n' ∨ c = '\r') :
    repaired bytes = bytes ∧ ∀ b ∈ bytes, b = 10 ∨ b = 13 := by
  have clean : '\uFFFD' ∉ toText bytes := by
    intro lost
    rcases ends _ lost with same | same <;> revert same <;> decide
  have whole := repaired_without_loss bytes clean
  refine ⟨whole, fun b member => ?_⟩
  rw [← whole] at member
  obtain ⟨c, there, inside⟩ := List.mem_flatMap.mp member
  rcases ends c there with rfl | rfl
  · exact .inl (List.mem_singleton.mp inside)
  · exact .inr (List.mem_singleton.mp inside)

/-- Byte strings that are put together alike are alike, when none is shorter than its counterpart. -/
theorem same_of_longer {ps : List (Bytes × Bytes)} (longer : ∀ p ∈ ps, p.1.length ≤ p.2.length)
    (same : (ps.map (·.1)).flatten = (ps.map (·.2)).flatten) : ∀ p ∈ ps, p.1 = p.2 := by
  induction ps with
  | nil => simp
  | cons p ps ih =>
    rw [List.forall_mem_cons] at longer ⊢
    have rest : (ps.map (·.1)).flatten.length ≤ (ps.map (·.2)).flatten.length := by
      rw [List.length_flatten, List.length_flatten, List.map_map, List.map_map]
      exact List.sum_le_sum longer.2
    simp only [List.map_cons, List.flatten_cons] at same
    have total := congrArg List.length same
    rw [List.length_append, List.length_append] at total
    obtain ⟨first, more⟩ := List.append_inj same (by omega)
    exact ⟨first, ih longer.2 more⟩

end Bytes
end CrashTriage
