import CrashTriage.Proofs.Package.Nearest

/-
The rule by which a path gets its owner, and that the scan of the entries answers by it. The first exact
entry decides; without one the longest listed directory above the path does, whatever stands higher up.
-/
namespace CrashTriage
namespace Owner

variable {path place : Path} {entries : List (Path × Text)} {answer : Option Text}

/-- The path goes on with a slash right after the place. -/
def Above (path place : Path) : Prop := place ≠ [] ∧ ∃ rest, path = place ++ '/' :: rest

structure ClosestAbove (path : Path) (entries : List (Path × Text)) (place : Path) : Prop where
  above : Above path place
  listed : ∃ e ∈ entries, trimSlashes e.1 = place
  longest : ∀ e ∈ entries, Above path (trimSlashes e.1) → (trimSlashes e.1).length ≤ place.length

def Unlisted (path : Path) (entries : List (Path × Text)) : Prop := ∀ e ∈ entries, trimSlashes e.1 ≠ path

/-- The answers for a path without trailing slashes. -/
inductive Selects (path : Path) (entries : List (Path × Text)) : Option Text → Prop where
  | exact (front rest : List (Path × Text)) (entry : Path) (id : Text) :
    entries = front ++ (entry, id) :: rest → trimSlashes entry = path → Unlisted path front →
    Selects path entries (some id)
  | sole (place : Path) (id : Text) : Unlisted path entries → ClosestAbove path entries place →
    (∀ e ∈ entries, trimSlashes e.1 = place → e.2 = id) → Selects path entries (some id)
  | shared (place : Path) (a b : Path × Text) : Unlisted path entries → ClosestAbove path entries place →
    a ∈ entries → b ∈ entries → trimSlashes a.1 = place → trimSlashes b.1 = place → a.2 ≠ b.2 →
    Selects path entries none
  | nowhere : Unlisted path entries → (∀ e ∈ entries, ¬ Above path (trimSlashes e.1)) →
    Selects path entries none

theorem closest_iff_nearest : ClosestAbove path entries place ↔ Nearest path entries place := by
  constructor
  · rintro ⟨above, ⟨e, member, same⟩, longest⟩
    refine ⟨(below_iff _ _).mpr above, ⟨e.2, e.1, member, same⟩, ?_⟩
    rintro other id below ⟨entry, there, rfl⟩
    exact longest (entry, id) there ((below_iff _ _).mp below)
  · rintro ⟨below, ⟨id, entry, member, same⟩, longest⟩
    refine ⟨(below_iff _ _).mp below, ⟨(entry, id), member, same⟩, fun e there above => ?_⟩
    exact longest _ e.2 ((below_iff _ _).mpr above) ⟨e.1, there, rfl⟩

theorem unlisted_iff : Unlisted path entries ↔ exactOwner? path entries = none := by
  rw [exactOwner?, Option.map_eq_none_iff, List.find?_eq_none]
  simp only [Unlisted, beq_iff_eq]

theorem exact_first (path : Path) (entries : List (Path × Text)) (id : Text) :
    exactOwner? path entries = some id ↔
      ∃ front entry rest, entries = front ++ (entry, id) :: rest ∧ trimSlashes entry = path ∧
        Unlisted path front := by
  rw [exactOwner?, Option.map_eq_some_iff]
  constructor
  · rintro ⟨⟨entry, _⟩, found, rfl⟩
    obtain ⟨here, front, rest, parts, before⟩ := List.find?_eq_some_iff_append.mp found
    exact ⟨front, entry, rest, parts, beq_iff_eq.mp here, fun e member same => by simpa [same] using before e member⟩
  · rintro ⟨front, entry, rest, parts, here, before⟩
    refine ⟨(entry, id), List.find?_eq_some_iff_append.mpr ⟨beq_iff_eq.mpr here, front, rest, parts, ?_⟩, rfl⟩
    exact fun e member => by simpa using before e member

theorem selects_sound (rule : Selects (trimSlashes path) entries answer) : select? path entries = answer := by
  cases rule with
  | exact front rest entry id parts here before =>
    have first := (exact_first _ _ _).mpr ⟨front, entry, rest, parts, here, before⟩
    exact (select_eq_some_iff path entries id).mpr (.inl first)
  | sole place id unlisted closest only =>
    refine (select_eq_some_iff path entries id).mpr (.inr ⟨unlisted_iff.mp unlisted, place, ?_, fun other => ?_⟩)
    · exact closest_iff_nearest.mp closest
    · constructor
      · rintro ⟨entry, member, here⟩
        exact only (entry, other) member here
      · rintro rfl
        obtain ⟨e, member, here⟩ := closest.listed
        exact ⟨e.1, only e member here ▸ member, here⟩
  | shared place a b unlisted closest inA inB atA atB different =>
    refine Option.eq_none_iff_forall_ne_some.mpr fun id selected => different ?_
    rcases (select_eq_some_iff path entries id).mp selected with found | ⟨-, other, near, only⟩
    · rw [unlisted_iff.mp unlisted] at found
      cases found
    · obtain rfl := nearest_unique near (closest_iff_nearest.mp closest)
      exact ((only a.2).mp ⟨a.1, inA, atA⟩).trans ((only b.2).mp ⟨b.1, inB, atB⟩).symm
  | nowhere unlisted none =>
    refine Option.eq_none_iff_forall_ne_some.mpr fun id selected => ?_
    rcases (select_eq_some_iff path entries id).mp selected with found | ⟨-, place, near, -⟩
    · rw [unlisted_iff.mp unlisted] at found
      cases found
    · have closest := closest_iff_nearest.mpr near
      obtain ⟨e, member, here⟩ := closest.listed
      exact none e member (here ▸ closest.above)

/-- The rule gives every path an answer. -/
theorem selects_total (path : Path) (entries : List (Path × Text)) : ∃ answer, Selects path entries answer := by
  cases found : exactOwner? path entries with
  | some id =>
    obtain ⟨front, entry, rest, parts, here, before⟩ := (exact_first _ _ _).mp found
    exact ⟨some id, .exact front rest entry id parts here before⟩
  | none =>
    have unlisted := unlisted_iff.mpr found
    have start : Summarizes path [] none := fun _ _ _ ⟨_, member, _⟩ => absurd member List.not_mem_nil
    obtain ⟨best, summary, -⟩ := scan_summary found start
    rw [List.nil_append] at summary
    match best with
    | none =>
      refine ⟨none, .nowhere unlisted fun e member above => ?_⟩
      exact summary _ e.2 ((below_iff _ _).mpr above) ⟨e.1, member, rfl⟩
    | some (place, ids) =>
      obtain ⟨near, -, -⟩ := summary
      have closest := closest_iff_nearest.mpr near
      obtain ⟨id, entry, member, here⟩ := near.listed
      by_cases only : ∀ e ∈ entries, trimSlashes e.1 = place → e.2 = id
      · exact ⟨some id, .sole place id unlisted closest only⟩
      · push Not at only
        obtain ⟨e, there, same, different⟩ := only
        exact ⟨none, .shared place e (entry, id) unlisted closest there member same here different⟩

/-- Paths get their owners by the rule, and an entry that only repeats another one away from the path itself
changes nothing. -/
theorem selection_by_rule (path : Path) (entries : List (Path × Text)) :
    (∀ answer, select? path entries = answer ↔ Selects (trimSlashes path) entries answer) ∧
    ∀ front entry id rest, entries = front ++ (entry, id) :: rest → trimSlashes entry ≠ trimSlashes path →
      Lists (front ++ rest) (trimSlashes entry) id → select? path entries = select? path (front ++ rest) := by
  refine ⟨fun answer => ⟨?_, selects_sound⟩, ?_⟩
  · rintro rfl
    obtain ⟨answer, rule⟩ := selects_total (trimSlashes path) entries
    rwa [selects_sound rule]
  · rintro front entry id rest rfl elsewhere again
    refine select_congr ?_ fun place other _ => ?_
    · simp [exactOwner?, List.find?_append, elsewhere]
    · rw [List.append_cons, lists_append, lists_added, or_right_comm, ← lists_append, or_iff_left_iff_imp]
      rintro ⟨rfl, rfl⟩
      exact again

def sharedEntries : List (Path × Text) :=
  [("/usr", "a"), ("/usr/lib", "a"), ("/usr/lib/", "b")].map fun e => (e.1.toList, e.2.toList)

/-- The package that alone lists `/usr` does not get what is below the shared `/usr/lib`, though it lists that
directory twice. -/
theorem shared_directory_not_bypassed :
    Selects (trimSlashes "/usr/lib/x".toList) (("/usr/lib/".toList, "a".toList) :: sharedEntries) none ∧
      select? "/usr/lib/x".toList (("/usr/lib/".toList, "a".toList) :: sharedEntries) =
        select? "/usr/lib/x".toList sharedEntries := by
  obtain ⟨rule, repeated⟩ :=
    selection_by_rule "/usr/lib/x".toList (("/usr/lib/".toList, "a".toList) :: sharedEntries)
  refine ⟨(rule none).mp (by decide), repeated [] "/usr/lib/".toList "a".toList sharedEntries rfl (by decide) ?_⟩
  exact ⟨"/usr/lib".toList, by decide, by decide⟩

end Owner
end CrashTriage
