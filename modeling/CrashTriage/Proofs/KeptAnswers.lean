/-
Answers that are kept under a key of the question. Every question is answered like the first one with its
key, so that keeping answers shows just where questions with one key have different answers.
-/
namespace CrashTriage
namespace KeptAnswers

variable {α β κ : Type} [BEq κ] {key : α → κ} {answer : α → β}
variable {seen : List α} {known : List (κ × β)} {a : α}

/-- The first question with the key of `a`. -/
def first (key : α → κ) (seen : List α) (a : α) : α := (seen.find? fun b => key b == key a).getD a

/-- What is kept under a key is the answer to the first question with that key. -/
def Keeps (key : α → κ) (answer : α → β) (seen : List α) (known : List (κ × β)) : Prop :=
  ∀ a, known.lookup (key a) = (seen.find? fun b => key b == key a).map answer

def firstAnswers (key : α → κ) (answer : α → β) : (seen asked : List α) → List β
  | _, [] => []
  | seen, a :: rest => answer (first key seen a) :: firstAnswers key answer (seen ++ [a]) rest

theorem first_answers_eq_iff (key : α → κ) (answer : α → β) (seen asked : List α) :
    firstAnswers key answer seen asked = asked.map answer ↔
      ∀ done a rest, asked = done ++ a :: rest → answer (first key (seen ++ done) a) = answer a := by
  induction asked generalizing seen with
  | nil => simp [firstAnswers]
  | cons b asked ih =>
    rw [firstAnswers, List.map_cons, List.cons.injEq, ih]
    constructor
    · rintro ⟨here, later⟩ done a rest whole
      cases done with
      | nil =>
        obtain ⟨rfl, -⟩ := List.cons.inj whole
        rwa [List.append_nil]
      | cons c done =>
        obtain ⟨rfl, more⟩ := List.cons.inj whole
        rw [List.append_cons]
        exact later done a rest more
    · intro all
      refine ⟨?_, fun done a rest more => ?_⟩
      · have here := all [] b asked rfl
        rwa [List.append_nil] at here
      · rw [← List.append_cons]
        exact all (b :: done) a rest (by rw [more]; rfl)

theorem keeps_nothing (key : α → κ) (answer : α → β) : Keeps key answer [] [] := fun _ => rfl

theorem find_later (key : α → κ) (seen : List α) (a c : α) :
    (seen ++ [a]).find? (fun b => key b == key c) =
      (seen.find? fun b => key b == key c).or (if key a == key c then some a else none) := by
  rw [List.find?_append, List.find?_singleton]

variable [LawfulBEq κ]

theorem first_cases (key : α → κ) (seen : List α) (a : α) :
    first key seen a = a ∨ first key seen a ∈ seen ∧ key (first key seen a) = key a := by
  unfold first
  cases found : seen.find? fun b => key b == key a with
  | none => exact .inl rfl
  | some b =>
    have same : (key b == key a) = true := by simpa using List.find?_some found
    exact .inr ⟨List.mem_of_find?_eq_some found, eq_of_beq same⟩

theorem known_answer (keeps : Keeps key answer seen known) {b : β} (there : known.lookup (key a) = some b) :
    b = answer (first key seen a) ∧ Keeps key answer (seen ++ [a]) known := by
  have kept := keeps a
  rw [there] at kept
  obtain ⟨question, found, answered⟩ := Option.map_eq_some_iff.mp kept.symm
  refine ⟨by rw [first, found]; exact answered.symm, fun c => ?_⟩
  rw [keeps c, find_later]
  by_cases same : key a = key c
  · rw [← same, found]
    rfl
  · rw [if_neg (by simpa using same), Option.or_none]

theorem new_answer (keeps : Keeps key answer seen known) (absent : known.lookup (key a) = none) :
    first key seen a = a ∧ Keeps key answer (seen ++ [a]) ((key a, answer a) :: known) := by
  have kept := keeps a
  rw [absent] at kept
  have unseen := Option.map_eq_none_iff.mp kept.symm
  refine ⟨by rw [first, unseen]; rfl, fun c => ?_⟩
  rw [find_later, List.lookup_cons]
  by_cases same : key a = key c
  · rw [← same, unseen]
    simp
  · have other : (key c == key a) = false := beq_eq_false_iff_ne.mpr (Ne.symm same)
    rw [other, if_neg (by simpa using same), Option.or_none]
    exact keeps c

end KeptAnswers
end CrashTriage
