import CrashTriage.Proofs.Lists
import CrashTriage.Proofs.Package.Index.Rows
import CrashTriage.Proofs.Package.Nearest
import Mathlib.Data.List.Find

/-
What an index with all its tables answers, told from its rows. The owner of a path is looked up among the
rows of the path and of its ancestors only; all other rows would change nothing.
-/
namespace CrashTriage
namespace IndexTables

open Owner

structure Holds (t : IndexTables) (rows : IndexRows) : Prop where
  packages : t.packages = some rows.packages
  files : t.files = some rows.files
  lines : t.lines = some rows.lines

variable {t later : IndexTables} {rows : IndexRows}

theorem perform_holds (holds : t.Holds rows) (s : IndexStatement) :
    ∃ next, t.perform s = .ok next ∧ next.Holds (rows.after s) := by
  obtain ⟨packages, files, lines⟩ := holds
  cases s <;>
    simp only [perform, onPackages, onFiles, onLines, withOwners, packages, files, lines,
      Option.isSome_some, ↓reduceIte, Except.ok.injEq, exists_eq_left'] <;>
    exact ⟨by simp [IndexRows.after], by simp [IndexRows.after], by simp [IndexRows.after]⟩

theorem perform_all_nil {budget : Option Nat} (run : t.performAll budget [] = .ok later) :
    t = later := by
  cases budget <;> simpa [performAll] using run

theorem perform_all_cons {budget : Option Nat} {s : IndexStatement} {rest : List IndexStatement}
    (run : t.performAll budget (s :: rest) = .ok later) :
    ∃ next, t.perform s = .ok next ∧ next.performAll (budget.map (· - 1)) rest = .ok later := by
  unfold performAll at run
  split at run <;> try contradiction
  rename_i continued
  simp only [List.cons.injEq] at continued
  obtain ⟨rfl, rfl⟩ := continued
  split at run <;> try contradiction
  rename_i next done
  exact ⟨next, done, run⟩

theorem perform_all_holds {statements : List IndexStatement} {budget : Option Nat}
    (holds : t.Holds rows) (run : t.performAll budget statements = .ok later) :
    later.Holds (statements.foldl IndexRows.after rows) := by
  induction statements generalizing t rows budget with
  | nil => exact perform_all_nil run ▸ holds
  | cons s rest ih =>
    obtain ⟨next, done, continued⟩ := perform_all_cons run
    obtain ⟨other, performed, nextHolds⟩ := perform_holds holds s
    have same : other = next := Except.ok.inj (performed.symm.trans done)
    exact ih (same ▸ nextHolds) continued

theorem perform_all_complete {statements : List IndexStatement} {budget : Option Nat}
    (holds : t.Holds rows) (enough : ∀ n, budget = some n → statements.length ≤ n) :
    ∃ later, t.performAll budget statements = .ok later := by
  induction statements generalizing t rows budget with
  | nil => exact ⟨t, by cases budget <;> rfl⟩
  | cons s rest ih =>
    obtain ⟨next, done, nextHolds⟩ := perform_holds holds s
    have left : ∀ n, budget.map (· - 1) = some n → rest.length ≤ n := by
      intro n known
      obtain ⟨m, given, rfl⟩ := Option.map_eq_some_iff.mp known
      have bound := enough m given
      simp only [List.length_cons] at bound
      omega
    obtain ⟨later, run⟩ := ih nextHolds left
    refine ⟨later, ?_⟩
    rw [performAll, done]
    · exact run
    · rintro rfl
      simpa using enough 0 rfl

theorem clear_lines_ok (done : t.perform .clearLines = .ok later) :
    t.packages.isSome ∧ t.lines.isSome ∧ later.files = t.files := by
  cases packages : t.packages <;> cases lines : t.lines <;>
    simp [perform, onLines, withOwners, packages, lines] at done ⊢
  rw [← done]

theorem clear_files_ok (done : t.perform .clearFiles = .ok later) : t.files.isSome := by
  cases files : t.files <;> simp [perform, onFiles, files] at done ⊢

/- Clearing names every table first, so a replacement that succeeds found all of them. -/
theorem complete_of_replace {records : List (Package × List Path)} {budget : Option Nat}
    (run : t.performAll budget (replaceAll records) = .ok later) : ∃ rows, t.Holds rows := by
  obtain ⟨second, clearedLines, more⟩ := perform_all_cons run
  obtain ⟨third, clearedFiles, _⟩ := perform_all_cons more
  obtain ⟨packages, lines, sameFiles⟩ := clear_lines_ok clearedLines
  have files := clear_files_ok clearedFiles
  rw [sameFiles] at files
  obtain ⟨packageRows, packages⟩ := Option.isSome_iff_exists.mp packages
  obtain ⟨lineRows, lines⟩ := Option.isSome_iff_exists.mp lines
  obtain ⟨fileRows, files⟩ := Option.isSome_iff_exists.mp files
  exact ⟨⟨packageRows, fileRows, lineRows⟩, packages, files, lines⟩

theorem replace_holds {records : List (Package × List Path)} {budget : Option Nat}
    (run : t.performAll budget (replaceAll records) = .ok later) :
    later.Holds (IndexRows.empty.putAll records) := by
  obtain ⟨rows, holds⟩ := complete_of_replace run
  have result := perform_all_holds holds run
  rwa [IndexRows.replace_all_rows] at result

theorem script_lines_of_record (holds : t.Holds rows) {package : Package} {files : List Path}
    (own : rows.of package.identifier = IndexRows.record package files) :
    t.scriptLines package.identifier = .ok package.config := by
  have lines : rows.lines.filter (fun r => r.identifier == package.identifier) =
      IndexRows.lineRows package.identifier package.config := congrArg IndexRows.lines own
  have numbered : (IndexRows.lineRows package.identifier package.config).Pairwise
      fun a b => decide (a.number ≤ b.number) = true := by
    rw [IndexRows.lineRows, List.pairwise_map]
    exact (Numbered.ascending package.config 0).imp fun less => decide_eq_true (Nat.le_of_lt less)
  rw [scriptLines, holds.lines]
  simp only [lines, List.mergeSort_of_pairwise numbered, Except.ok.injEq]
  simp [IndexRows.lineRows, Function.comp_def]

theorem package_of_record (holds : t.Holds rows) {package : Package} {files : List Path}
    (own : rows.of package.identifier = IndexRows.record package files) :
    t.package? package.identifier = .ok (some package) := by
  have found : rows.packages.find? (fun r => r.identifier == package.identifier) =
      (IndexRows.record package files).packages.head? := by
    rw [← own, IndexRows.of, List.head?_filter]
  simp [package?, holds.packages, found, IndexRows.record, script_lines_of_record holds own,
    Except.map]

theorem package_absent (holds : t.Holds rows) {id : Text} (absent : rows.of id = IndexRows.empty) :
    t.package? id = .ok none := by
  have none : rows.packages.find? (fun r => r.identifier == id) = none := by
    have noRow : rows.packages.filter (fun r => r.identifier == id) = [] :=
      congrArg IndexRows.packages absent
    rw [← List.head?_filter, noRow, List.head?_nil]
  simp [package?, holds.packages, none]

/-- The last record written under an identifier is the package that is answered. -/
theorem package_of_written {written : List (Package × List Path)}
    (holds : t.Holds (IndexRows.empty.putAll written)) (id : Text) :
    t.package? id = .ok ((IndexRows.lastRecord? id written).map (·.1)) := by
  have own := IndexRows.of_put_all IndexRows.empty written id
  cases found : IndexRows.lastRecord? id written with
  | none =>
    rw [found] at own
    exact package_absent holds own
  | some r =>
    have same := (IndexRows.last_record_found found).2
    rw [found, ← same] at own
    rw [← same, package_of_record holds own, Option.map_some]

/-- The entries that rows stand for. -/
def entries (rows : List FileRow) : List (Path × Text) := rows.map fun r => (r.path, r.identifier)

theorem mem_ancestry (path place : Path) :
    place ∈ ancestry path ↔ place = path ∨ isBelow path place = true := by
  simp only [ancestry, List.mem_cons, List.mem_map, List.mem_filter, List.mem_reverse,
    List.mem_range, Bool.and_eq_true, decide_eq_true_eq, beq_iff_eq, below_iff]
  apply or_congr_right
  constructor
  · rintro ⟨i, ⟨bound, positive, slash⟩, rfl⟩
    refine ⟨?_, path.drop (i + 1), ?_⟩
    · intro empty
      have length := congrArg List.length empty
      simp only [List.length_take, List.length_nil] at length
      omega
    · obtain ⟨_, here⟩ := List.getElem?_eq_some_iff.mp slash
      rw [← here, ← List.drop_eq_getElem_cons, List.take_append_drop]
  · rintro ⟨nonempty, rest, rfl⟩
    have positive : 0 < place.length := List.length_pos_iff.mpr nonempty
    exact ⟨place.length, ⟨by simp, positive, by simp⟩, by simp⟩

def candidateRows (rows : List FileRow) (path : Path) : List FileRow :=
  (ancestry (trimSlashes path)).flatMap fun place => rows.filter fun r => r.path == place

theorem candidates_of_rows (holds : t.Holds rows) (path : Path) :
    t.candidates path = .ok (entries (candidateRows rows.files path)) := by
  have collect : ∀ (places : List Path) (found : List (Path × Text)),
      places.foldl (fun found place => do
        let found ← found
        let rows ← t.rowsAt place
        pure (found ++ rows.map fun r => (r.path, r.identifier))) (Except.ok found) =
      .ok (found ++ entries (places.flatMap fun place => rows.files.filter fun r => r.path == place)) := by
    intro places
    induction places with
    | nil => simp [entries]
    | cons place rest ih =>
      intro found
      have here : t.rowsAt place = .ok (rows.files.filter fun r => r.path == place) := by
        simp [rowsAt, holds.files]
      rw [List.foldl_cons]
      simp only [here, bind, Except.bind, pure, Except.pure] at ih ⊢
      rw [ih]
      simp [entries]
  simpa [candidates, candidateRows] using collect (ancestry (trimSlashes path)) []

theorem mem_candidates {files : List FileRow} {path place : Path} {id : Text} :
    (place, id) ∈ entries (candidateRows files path) ↔
      place ∈ ancestry (trimSlashes path) ∧ (place, id) ∈ entries files := by
  simp only [entries, candidateRows, List.mem_map, List.mem_flatMap, List.mem_filter, beq_iff_eq,
    Prod.mk.injEq]
  constructor
  · rintro ⟨row, ⟨_, above, member, rfl⟩, rfl, rfl⟩
    exact ⟨above, row, member, rfl, rfl⟩
  · rintro ⟨above, row, member, rfl, rfl⟩
    exact ⟨row, ⟨row.path, above, member, rfl⟩, rfl, rfl⟩

theorem exact_of_trimmed {files : List FileRow}
    (trimmed : ∀ row ∈ files, trimSlashes row.path = row.path) (place : Path) :
    exactOwner? place (entries files) =
      (files.filter fun r => r.path == place).head?.map (·.identifier) := by
  have same : ∀ row ∈ files, (trimSlashes row.path == place) = (row.path == place) := by
    intro row member
    rw [trimmed row member]
  rw [List.head?_filter, exactOwner?, entries, List.find?_map, Option.map_map]
  exact congrArg _ (List.find?_congr same)

/- The ancestors of a path are shorter than it, so only the path's own rows can be exact. -/
theorem own_candidates (files : List FileRow) (path : Path) :
    (candidateRows files path).filter (fun r => r.path == trimSlashes path) =
      files.filter fun r => r.path == trimSlashes path := by
  have shorter : ∀ place ∈ (ancestry (trimSlashes path)).tail, place ≠ trimSlashes path := by
    rintro place above rfl
    simp only [ancestry, List.tail_cons, List.mem_map, List.mem_filter, List.mem_reverse,
      List.mem_range] at above
    obtain ⟨i, ⟨bound, _⟩, cut⟩ := above
    have length := congrArg List.length cut
    simp only [List.length_take] at length
    omega
  have others : ((ancestry (trimSlashes path)).tail.flatMap fun place =>
      files.filter fun r => r.path == place).filter (fun r => r.path == trimSlashes path) = [] := by
    rw [List.filter_eq_nil_iff]
    intro row member
    obtain ⟨place, above, here⟩ := List.mem_flatMap.mp member
    have at_place : row.path = place := by simpa using (List.mem_filter.mp here).2
    simpa [at_place] using shorter place above
  rw [candidateRows, ancestry, List.flatMap_cons, List.filter_append, List.filter_filter]
  rw [ancestry, List.tail_cons] at others
  rw [others, List.append_nil]
  simp only [Bool.and_self]

theorem exact_candidates {files : List FileRow}
    (trimmed : ∀ row ∈ files, trimSlashes row.path = row.path) (path : Path) :
    exactOwner? (trimSlashes path) (entries (candidateRows files path)) =
      exactOwner? (trimSlashes path) (entries files) := by
  have candidates : ∀ row ∈ candidateRows files path, trimSlashes row.path = row.path := by
    intro row member
    obtain ⟨place, _, here⟩ := List.mem_flatMap.mp member
    exact trimmed row (List.mem_filter.mp here).1
  rw [exact_of_trimmed candidates, exact_of_trimmed trimmed, own_candidates]

theorem select_candidates {files : List FileRow}
    (trimmed : ∀ row ∈ files, trimSlashes row.path = row.path) (path : Path) :
    select? path (entries (candidateRows files path)) = select? path (entries files) := by
  apply select_congr (exact_candidates trimmed path)
  intro place id below
  have stored : ∀ entry, (entry, id) ∈ entries files → trimSlashes entry = entry := by
    intro entry member
    obtain ⟨row, here, same⟩ := List.mem_map.mp member
    simp only [Prod.mk.injEq] at same
    exact same.1 ▸ trimmed row here
  constructor
  · rintro ⟨entry, member, same⟩
    exact ⟨entry, (mem_candidates.mp member).2, same⟩
  · rintro ⟨entry, member, same⟩
    have self := (stored entry member).symm.trans same
    exact ⟨entry, mem_candidates.mpr ⟨(mem_ancestry _ _).mpr (Or.inr (self ▸ below)), member⟩, same⟩

theorem owner_of_rows (holds : t.Holds rows)
    (trimmed : ∀ row ∈ rows.files, trimSlashes row.path = row.path) (path : Path) :
    t.owner? path = match select? path (entries rows.files) with
      | some id => t.package? id
      | none => .ok none := by
  rw [owner?, candidates_of_rows holds]
  simp only [bind, Except.bind, select_candidates trimmed path]
  rfl

end IndexTables
end CrashTriage
