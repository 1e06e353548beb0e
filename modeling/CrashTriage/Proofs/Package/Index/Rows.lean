import CrashTriage.Package.Index.Tables
import Mathlib.Data.List.Induction

/-
What transactions do to the rows of an index whose tables are all there. A package's rows are those with
its identifier: writing a package sets its own rows and leaves those of every other package.
-/
namespace CrashTriage

structure IndexRows where
  packages : List PackageRow
  files : List FileRow
  lines : List LineRow
deriving DecidableEq

namespace IndexRows

def empty : IndexRows := ⟨[], [], []⟩

/-- The rows with one identifier. -/
def of (rows : IndexRows) (id : Text) : IndexRows :=
  ⟨rows.packages.filter fun r => r.identifier == id, rows.files.filter fun r => r.identifier == id,
    rows.lines.filter fun r => r.identifier == id⟩

def without (rows : IndexRows) (id : Text) : IndexRows :=
  ⟨rows.packages.filter fun r => r.identifier != id, rows.files.filter fun r => r.identifier != id,
    rows.lines.filter fun r => r.identifier != id⟩

def append (rows others : IndexRows) : IndexRows :=
  ⟨rows.packages ++ others.packages, rows.files ++ others.files, rows.lines ++ others.lines⟩

def fileRows (id : Text) (files : List Path) : List FileRow :=
  files.map fun file => ⟨Owner.trimSlashes file, id⟩

def lineRows (id : Text) (config : List Text) : List LineRow :=
  config.zipIdx.map fun (line, number) => ⟨id, number, line⟩

/-- The rows of a package that lists `files`. -/
def record (package : Package) (files : List Path) : IndexRows :=
  let id := package.identifier
  ⟨[⟨id, package.storeIdentifier, package.name, package.author, package.isAppStore⟩],
    fileRows id files, lineRows id package.config⟩

def put (rows : IndexRows) (package : Package) (files : List Path) : IndexRows :=
  (rows.without package.identifier).append (record package files)

def putAll (rows : IndexRows) (records : List (Package × List Path)) : IndexRows :=
  records.foldl (fun rows r => rows.put r.1 r.2) rows

def after (rows : IndexRows) : IndexStatement → IndexRows
  | .clearLines => { rows with lines := [] }
  | .clearFiles => { rows with files := [] }
  | .clearPackages => { rows with packages := [] }
  | .putPackage row =>
    { rows with packages := rows.packages.filter (fun r => r.identifier != row.identifier) ++ [row] }
  | .dropFiles id => { rows with files := rows.files.filter fun r => r.identifier != id }
  | .dropLines id => { rows with lines := rows.lines.filter fun r => r.identifier != id }
  | .addFile row => { rows with files := rows.files ++ [row] }
  | .addLine row => { rows with lines := rows.lines ++ [row] }

theorem of_append (rows others : IndexRows) (id : Text) :
    (rows.append others).of id = (rows.of id).append (others.of id) := by
  simp [of, append]

theorem of_without_same (rows : IndexRows) (id : Text) : (rows.without id).of id = empty := by
  simp [of, without, empty, List.filter_filter]

theorem of_without_other (rows : IndexRows) {id other : Text} (different : id ≠ other) :
    (rows.without other).of id = rows.of id := by
  have kept : ∀ name : Text, ((name == id) && (name != other)) = (name == id) := by
    intro name
    by_cases same : name = id
    · simp [same, different]
    · simp [same]
  simp [of, without, List.filter_filter, kept]

theorem file_row_identifier {id : Text} {files : List Path} {row : FileRow}
    (member : row ∈ fileRows id files) : row.identifier = id := by
  obtain ⟨file, _, rfl⟩ := List.mem_map.mp member
  rfl

theorem line_row_identifier {id : Text} {config : List Text} {row : LineRow}
    (member : row ∈ lineRows id config) : row.identifier = id := by
  obtain ⟨line, _, rfl⟩ := List.mem_map.mp member
  rfl

theorem of_record_same (package : Package) (files : List Path) :
    (record package files).of package.identifier = record package files := by
  have fileKept : (fileRows package.identifier files).filter
      (fun r => r.identifier == package.identifier) = fileRows package.identifier files := by
    apply List.filter_eq_self.mpr
    intro row member
    simp [file_row_identifier member]
  have lineKept : (lineRows package.identifier package.config).filter
      (fun r => r.identifier == package.identifier) =
        lineRows package.identifier package.config := by
    apply List.filter_eq_self.mpr
    intro row member
    simp [line_row_identifier member]
  simp [of, record, fileKept, lineKept]

theorem of_record_other (package : Package) (files : List Path) {id : Text}
    (different : id ≠ package.identifier) : (record package files).of id = empty := by
  have fileGone : (fileRows package.identifier files).filter (fun r => r.identifier == id) = [] := by
    apply List.filter_eq_nil_iff.mpr
    intro row member
    simp [file_row_identifier member, Ne.symm different]
  have lineGone :
      (lineRows package.identifier package.config).filter (fun r => r.identifier == id) = [] := by
    apply List.filter_eq_nil_iff.mpr
    intro row member
    simp [line_row_identifier member, Ne.symm different]
  simp [of, record, empty, fileGone, lineGone, Ne.symm different]

theorem of_put_same (rows : IndexRows) (package : Package) (files : List Path) :
    (rows.put package files).of package.identifier = record package files := by
  rw [put, of_append, of_without_same, of_record_same]
  rfl

theorem of_put_other (rows : IndexRows) (package : Package) (files : List Path) {id : Text}
    (different : id ≠ package.identifier) : (rows.put package files).of id = rows.of id := by
  rw [put, of_append, of_without_other rows different, of_record_other package files different]
  simp [append, empty]

/-- The last record of an identifier counts. -/
def lastRecord? (id : Text) (records : List (Package × List Path)) : Option (Package × List Path) :=
  records.reverse.find? fun r => r.1.identifier == id

theorem last_record_found {id : Text} {records : List (Package × List Path)}
    {r : Package × List Path} (found : lastRecord? id records = some r) :
    r ∈ records ∧ r.1.identifier = id := by
  have same := List.find?_some found
  exact ⟨List.mem_reverse.mp (List.mem_of_find?_eq_some found), beq_iff_eq.mp same⟩

theorem of_put_all (rows : IndexRows) (records : List (Package × List Path)) (id : Text) :
    (rows.putAll records).of id =
      match lastRecord? id records with
      | some (package, files) => record package files
      | none => rows.of id := by
  induction records using List.reverseRecOn with
  | nil => rfl
  | append_singleton records r ih =>
    have last : rows.putAll (records ++ [r]) = (rows.putAll records).put r.1 r.2 := by
      simp [putAll]
    rw [last]
    by_cases same : r.1.identifier = id
    · subst same
      rw [of_put_same]
      simp [lastRecord?]
    · rw [of_put_other _ _ _ (Ne.symm same), ih]
      simp [lastRecord?, same]

/-- No package has two different records. -/
def OneRecordEach (records : List (Package × List Path)) : Prop :=
  ∀ r ∈ records, ∀ s ∈ records, r.1.identifier = s.1.identifier → r = s

theorem last_record_of_mem {records : List (Package × List Path)} (one : OneRecordEach records)
    {r : Package × List Path} (member : r ∈ records) :
    lastRecord? r.1.identifier records = some r := by
  cases found : lastRecord? r.1.identifier records with
  | none =>
    have missing := List.find?_eq_none.mp found r (List.mem_reverse.mpr member)
    simp at missing
  | some s =>
    obtain ⟨there, same⟩ := last_record_found found
    rw [one s there r member same]

theorem of_put_all_mem (rows : IndexRows) {records : List (Package × List Path)}
    (one : OneRecordEach records) {r : Package × List Path} (member : r ∈ records) :
    (rows.putAll records).of r.1.identifier = record r.1 r.2 := by
  rw [of_put_all, last_record_of_mem one member]

theorem mem_files_of (rows : IndexRows) (row : FileRow) :
    row ∈ rows.files ↔ row ∈ (rows.of row.identifier).files := by
  simp [of]

theorem file_row_recorded {records : List (Package × List Path)} {row : FileRow}
    (member : row ∈ (empty.putAll records).files) :
    ∃ r ∈ records, row ∈ fileRows r.1.identifier r.2 := by
  rw [mem_files_of, of_put_all] at member
  cases found : lastRecord? row.identifier records with
  | none => simp [found, of, empty] at member
  | some r =>
    rw [found] at member
    exact ⟨r, (last_record_found found).1, member⟩

theorem recorded_file_row {records : List (Package × List Path)} (one : OneRecordEach records)
    {r : Package × List Path} (member : r ∈ records) {row : FileRow}
    (listed : row ∈ fileRows r.1.identifier r.2) : row ∈ (empty.putAll records).files := by
  rw [mem_files_of, file_row_identifier listed, of_put_all_mem empty one member]
  exact listed

theorem without_absent {rows : IndexRows} {id : Text} (absent : rows.of id = empty) :
    rows.without id = rows := by
  obtain ⟨packages, files, lines⟩ := rows
  simp only [of, empty, IndexRows.mk.injEq, List.filter_eq_nil_iff, beq_iff_eq] at absent
  obtain ⟨noPackage, noFile, noLine⟩ := absent
  rw [without, IndexRows.mk.injEq]
  refine ⟨List.filter_eq_self.mpr fun r member => ?_, List.filter_eq_self.mpr fun r member => ?_,
    List.filter_eq_self.mpr fun r member => ?_⟩
  · exact bne_iff_ne.mpr (noPackage r member)
  · exact bne_iff_ne.mpr (noFile r member)
  · exact bne_iff_ne.mpr (noLine r member)

/-- The rows of records, one record after the other. -/
def inOrder (records : List (Package × List Path)) : IndexRows :=
  ⟨records.flatMap fun r => (record r.1 r.2).packages, records.flatMap fun r => (record r.1 r.2).files,
    records.flatMap fun r => (record r.1 r.2).lines⟩

theorem put_all_distinct {records : List (Package × List Path)}
    (distinct : (records.map (·.1.identifier)).Nodup) : empty.putAll records = inOrder records := by
  induction records using List.reverseRecOn with
  | nil => rfl
  | append_singleton records r ih =>
    rw [List.map_append, List.nodup_append] at distinct
    obtain ⟨before, _, apart⟩ := distinct
    -- No row of the identifier is there yet, so nothing is dropped for it.
    have new : (inOrder records).of r.1.identifier = empty := by
      rw [← ih before, of_put_all]
      cases found : lastRecord? r.1.identifier records with
      | none => rfl
      | some s =>
        obtain ⟨there, same⟩ := last_record_found found
        exact absurd same (apart _ (List.mem_map_of_mem there) _ (List.mem_singleton_self _))
    have last : empty.putAll (records ++ [r]) = (empty.putAll records).put r.1 r.2 := by simp [putAll]
    rw [last, ih before, put, without_absent new]
    simp [inOrder, append]

theorem foldl_add_files (rows : IndexRows) (added : List FileRow) :
    (added.map IndexStatement.addFile).foldl after rows =
      { rows with files := rows.files ++ added } := by
  induction added generalizing rows with
  | nil => simp
  | cons row rest ih =>
    rw [List.map_cons, List.foldl_cons, ih]
    simp [after]

theorem foldl_add_lines (rows : IndexRows) (added : List LineRow) :
    (added.map IndexStatement.addLine).foldl after rows =
      { rows with lines := rows.lines ++ added } := by
  induction added generalizing rows with
  | nil => simp
  | cons row rest ih =>
    rw [List.map_cons, List.foldl_cons, ih]
    simp [after]

theorem write_package_rows (rows : IndexRows) (package : Package) (files : List Path) :
    (IndexTables.writePackage package files).foldl after rows = rows.put package files := by
  have fileWrites : files.map (fun file =>
        IndexStatement.addFile ⟨Owner.trimSlashes file, package.identifier⟩) =
      (fileRows package.identifier files).map IndexStatement.addFile := by
    simp [fileRows]
  have lineWrites : package.config.zipIdx.map (fun (line, number) =>
        IndexStatement.addLine ⟨package.identifier, number, line⟩) =
      (lineRows package.identifier package.config).map IndexStatement.addLine := by
    simp [lineRows]
  simp only [IndexTables.writePackage, fileWrites, lineWrites, List.foldl_append,
    foldl_add_files, foldl_add_lines]
  rfl

theorem replace_all_rows (rows : IndexRows) (records : List (Package × List Path)) :
    (IndexTables.replaceAll records).foldl after rows = empty.putAll records := by
  simp only [IndexTables.replaceAll, List.foldl_append, List.foldl_flatMap, write_package_rows]
  rfl

end IndexRows
end CrashTriage
