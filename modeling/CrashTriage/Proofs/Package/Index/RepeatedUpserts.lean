import CrashTriage.Proofs.Package.Index.LastWritten

/-
What becomes of the owners when a package is written again as it stands. Its rows move behind those of all
other packages. Directories above a path are looked up as a set, where nothing changes; among the packages
that list the path itself the first row counts, so that a package which shares a path gives it away.
-/
namespace CrashTriage

namespace Catalog

def Lists (m : Catalog) (place : Path) (id : Text) : Prop :=
  ∃ r, m id = some r ∧ place ∈ r.2.map Owner.trimSlashes

end Catalog

namespace IndexRows

variable {rows : IndexRows} {package : Package} {files listed : List Path} {id : Text}

theorem record_trimmed (same : files.map Owner.trimSlashes = listed.map Owner.trimSlashes) :
    record package files = record package listed := by
  have written (paths : List Path) : fileRows package.identifier paths =
      (paths.map Owner.trimSlashes).map fun place => ⟨place, package.identifier⟩ := by
    simp [fileRows]
  simp only [record, written, same]

/-- A package that is written as it stands has its files' rows moved to the end. -/
theorem files_put_again (own : rows.of package.identifier = record package files) :
    (rows.put package files).files =
      rows.files.filter (fun r => r.identifier != package.identifier) ++
        rows.files.filter (fun r => r.identifier == package.identifier) := by
  rw [put, ← own]
  rfl

theorem head_moved (xs : List FileRow) (id : Text) :
    ((xs.filter (fun r => r.identifier != id) ++ xs.filter (fun r => r.identifier == id)).head?.map
        (·.identifier) = xs.head?.map (·.identifier)) ↔
      ¬ (xs.head?.map (·.identifier) = some id ∧ ∃ r ∈ xs, r.identifier ≠ id) := by
  cases xs with
  | nil => simp
  | cons first rest =>
    by_cases here : first.identifier = id
    · -- The first row moves, and the next one of another package takes its place, if there is one.
      cases others : rest.filter fun r => r.identifier != id with
      | nil =>
        have alone : ∀ r ∈ rest, r.identifier = id := by simpa [List.filter_eq_nil_iff] using others
        simpa [here, others] using alone
      | cons other more =>
        have there : other ∈ rest.filter fun r => r.identifier != id := by simp [others]
        obtain ⟨member, different⟩ : other ∈ rest ∧ other.identifier ≠ id := by simpa using there
        simp only [here, others, bne_self_eq_false, Bool.false_eq_true, not_false_eq_true,
          List.filter_cons_of_neg, List.cons_append, List.head?_cons, Option.map_some,
          Option.some.injEq, true_and, List.mem_cons, exists_eq_or_imp, ne_eq, not_true_eq_false,
          false_or, different, false_iff, not_not]
        exact ⟨other, member, different⟩
    · simp [here]

end IndexRows

namespace Owner

variable {entries others : List (Path × Text)} {path : Path}

theorem exact_none_iff (place : Path) (entries : List (Path × Text)) :
    exactOwner? place entries = none ↔ ∀ id, ¬ Lists entries place id := by
  simp only [exactOwner?, Option.map_eq_none_iff, List.find?_eq_none, beq_iff_eq, Lists]
  constructor
  · intro apart id lists
    obtain ⟨entry, member, same⟩ := lists
    exact apart (entry, id) member same
  · intro unlisted e member same
    exact unlisted e.2 ⟨e.1, member, same⟩

theorem exact_listed {place : Path} {id : Text} (first : exactOwner? place entries = some id) :
    Lists entries place id := by
  obtain ⟨⟨entry, name⟩, found, rfl⟩ := Option.map_eq_some_iff.mp first
  exact ⟨entry, List.mem_of_find?_eq_some found, by simpa using List.find?_some found⟩

theorem exact_of_selected (listed : ∀ id, Lists others (trimSlashes path) id ↔ Lists entries (trimSlashes path) id)
    (same : select? path others = select? path entries) :
    exactOwner? (trimSlashes path) others = exactOwner? (trimSlashes path) entries := by
  have none_ : exactOwner? (trimSlashes path) others = none ↔
      exactOwner? (trimSlashes path) entries = none := by
    simp only [exact_none_iff, listed]
  cases here : exactOwner? (trimSlashes path) entries with
  | none => exact none_.mpr here
  | some id =>
    cases there : exactOwner? (trimSlashes path) others with
    | none => simp [here, there] at none_
    | some other =>
      rw [(select_eq_some_iff path entries id).mpr (.inl here),
        (select_eq_some_iff path others other).mpr (.inl there)] at same
      exact same

end Owner

namespace IndexTables

open Owner

variable {t later : IndexTables} {rows : IndexRows} {m : Catalog} {written : List (Package × List Path)}
variable {package : Package} {files listed : List Path} {path : Path}

theorem mem_files_put_again (own : rows.of package.identifier = IndexRows.record package files)
    (row : FileRow) : row ∈ (rows.put package files).files ↔ row ∈ rows.files := by
  rw [IndexRows.files_put_again own, List.mem_append, List.mem_filter, List.mem_filter]
  by_cases mine : row.identifier = package.identifier <;> simp [mine]

theorem listed_iff_row {files : List FileRow} (trimmed : ∀ row ∈ files, trimSlashes row.path = row.path)
    (place : Path) (id : Text) :
    Lists (entries files) place id ↔ ∃ row ∈ files, row.path = place ∧ row.identifier = id := by
  constructor
  · rintro ⟨entry, member, same⟩
    obtain ⟨row, there, pair⟩ := List.mem_map.mp member
    cases pair
    exact ⟨row, there, (trimmed row there).symm.trans same, rfl⟩
  · rintro ⟨row, there, rfl, rfl⟩
    exact ⟨row.path, List.mem_map_of_mem there, trimmed row there⟩

theorem exact_put_again (own : rows.of package.identifier = IndexRows.record package files)
    (trimmed : ∀ row ∈ rows.files, trimSlashes row.path = row.path) (place : Path) :
    exactOwner? place (entries (rows.put package files).files) = exactOwner? place (entries rows.files) ↔
      ¬ (exactOwner? place (entries rows.files) = some package.identifier ∧
        ∃ other, other ≠ package.identifier ∧ Lists (entries rows.files) place other) := by
  have later : ∀ row ∈ (rows.put package files).files, trimSlashes row.path = row.path :=
    fun row member => trimmed row ((mem_files_put_again own row).mp member)
  have shared : (∃ other, other ≠ package.identifier ∧ Lists (entries rows.files) place other) ↔
      ∃ row ∈ rows.files.filter fun r => r.path == place, row.identifier ≠ package.identifier := by
    simp only [listed_iff_row trimmed, List.mem_filter, beq_iff_eq]
    constructor
    · rintro ⟨other, different, row, there, here, rfl⟩
      exact ⟨row, ⟨there, here⟩, different⟩
    · rintro ⟨row, ⟨there, here⟩, different⟩
      exact ⟨row.identifier, different, row, there, here, rfl⟩
  have moved := IndexRows.head_moved (rows.files.filter fun r => r.path == place) package.identifier
  rw [exact_of_trimmed trimmed, exact_of_trimmed later, IndexRows.files_put_again own, List.filter_append,
    shared, ← moved]
  simp only [List.filter_filter, Bool.and_comm]

theorem select_put_again (own : rows.of package.identifier = IndexRows.record package files)
    (trimmed : ∀ row ∈ rows.files, trimSlashes row.path = row.path) (path : Path) :
    select? path (entries (rows.put package files).files) = select? path (entries rows.files) ↔
      ¬ (exactOwner? (trimSlashes path) (entries rows.files) = some package.identifier ∧
        ∃ other, other ≠ package.identifier ∧ Lists (entries rows.files) (trimSlashes path) other) := by
  have later : ∀ row ∈ (rows.put package files).files, trimSlashes row.path = row.path :=
    fun row member => trimmed row ((mem_files_put_again own row).mp member)
  have sameLists (place : Path) (id : Text) :
      Lists (entries (rows.put package files).files) place id ↔ Lists (entries rows.files) place id := by
    simp only [listed_iff_row trimmed, listed_iff_row later, mem_files_put_again own]
  rw [← exact_put_again own trimmed]
  constructor
  · exact exact_of_selected (sameLists (trimSlashes path))
  · intro same
    exact select_congr same fun place id _ => sameLists place id

/-- The rows of a catalog that was written record by record. -/
theorem listed_iff_catalog (place : Path) (id : Text) :
    Lists (entries (IndexRows.empty.putAll written).files) place id ↔
      (written.foldl Catalog.write .empty).Lists place id := by
  have own := IndexRows.of_put_all IndexRows.empty written id
  rw [listed_iff_row (trimmed_rows written), Catalog.Lists, Catalog.written]
  constructor
  · rintro ⟨row, there, rfl, rfl⟩
    rw [IndexRows.mem_files_of, own] at there
    cases found : IndexRows.lastRecord? row.identifier written with
    | none => simp [found, IndexRows.of, IndexRows.empty] at there
    | some r =>
      rw [found] at there
      obtain ⟨file, member, same⟩ := List.mem_map.mp there
      exact ⟨r, rfl, List.mem_map.mpr ⟨file, member, congrArg FileRow.path same⟩⟩
  · rintro ⟨r, found, listed⟩
    obtain ⟨file, member, rfl⟩ := List.mem_map.mp listed
    refine ⟨⟨trimSlashes file, id⟩, ?_, rfl, rfl⟩
    rw [IndexRows.mem_files_of, own, found, ← (IndexRows.last_record_found found).2]
    exact List.mem_map_of_mem member

theorem owner_of_catalog (holds : t.Holds (IndexRows.empty.putAll written)) (path : Path) :
    t.owner? path = .ok ((select? path (entries (IndexRows.empty.putAll written).files)).bind fun id =>
      (written.foldl Catalog.write .empty id).map (·.1)) := by
  rw [owner_of_rows holds (trimmed_rows written)]
  cases select? path (entries (IndexRows.empty.putAll written).files) with
  | none => rfl
  | some id =>
    rw [Option.bind_some, Catalog.written]
    exact package_of_written holds id

/-- Whoever is selected has a record, so that owners tell the selected identifiers apart. -/
theorem selected_recorded {id : Text}
    (selected : select? path (entries (IndexRows.empty.putAll written).files) = some id) :
    ∃ r, written.foldl Catalog.write .empty id = some r ∧ r.1.identifier = id := by
  obtain ⟨place, listed⟩ := select_listed selected
  obtain ⟨r, found, _⟩ := (listed_iff_catalog place id).mp listed
  rw [Catalog.written] at found ⊢
  exact ⟨r, found, (IndexRows.last_record_found found).2⟩

theorem same_owner_iff {more : List (Package × List Path)}
    (holds : t.Holds (IndexRows.empty.putAll written)) (holdsLater : later.Holds (IndexRows.empty.putAll more))
    (same : more.foldl Catalog.write .empty = written.foldl Catalog.write .empty) (path : Path) :
    later.owner? path = t.owner? path ↔
      select? path (entries (IndexRows.empty.putAll more).files) =
        select? path (entries (IndexRows.empty.putAll written).files) := by
  rw [owner_of_catalog holds, owner_of_catalog holdsLater, same, Except.ok.injEq]
  constructor
  · intro owners
    have named {records : List (Package × List Path)}
        (catalog : records.foldl Catalog.write .empty = written.foldl Catalog.write .empty) :
        select? path (entries (IndexRows.empty.putAll records).files) =
          ((select? path (entries (IndexRows.empty.putAll records).files)).bind fun id =>
            (written.foldl Catalog.write .empty id).map (·.1)).map (·.identifier) := by
      cases selected : select? path (entries (IndexRows.empty.putAll records).files) with
      | none => rfl
      | some id =>
        obtain ⟨r, found, named⟩ := selected_recorded selected
        rw [Option.bind_some, ← catalog, found, Option.map_some, Option.map_some, named]
    rw [named same, owners, ← named rfl]
  · intro selected
    rw [selected]

/-- The first of the exact entries, told from the answer. -/
theorem first_exact_iff (holds : t.Holds (IndexRows.empty.putAll written))
    (known : written.foldl Catalog.write .empty package.identifier = some (package, listed))
    (path : Path) :
    exactOwner? (trimSlashes path) (entries (IndexRows.empty.putAll written).files) =
        some package.identifier ↔
      t.owner? path = .ok (some package) ∧
        (written.foldl Catalog.write .empty).Lists (trimSlashes path) package.identifier := by
  rw [← listed_iff_catalog, owner_of_catalog holds, Except.ok.injEq]
  constructor
  · intro first
    have selected := (select_eq_some_iff path _ package.identifier).mpr (.inl first)
    refine ⟨?_, exact_listed first⟩
    rw [selected, Option.bind_some, known, Option.map_some]
  · rintro ⟨owner, lists⟩
    cases first : exactOwner? (trimSlashes path) (entries (IndexRows.empty.putAll written).files) with
    | none => exact absurd lists ((exact_none_iff _ _).mp first _)
    | some id =>
      have selected := (select_eq_some_iff path _ id).mpr (.inl first)
      obtain ⟨r, found, named⟩ := selected_recorded selected
      rw [selected, Option.bind_some, found, Option.map_some, Option.some.injEq] at owner
      rw [← named, owner]

end IndexTables

namespace PackageIndex

open Owner

variable {index later : PackageIndex} {budget : Option Nat} {h host : Host} {s : Session}
variable {package : Package} {files listed : List Path}

/-- A path that several packages list and that one of them owns. -/
structure Session.OwnsShared (s : Session) (package : Package) (path : Path) : Prop where
  owner : s.index.ask s.host.disk (fun t => t.owner? path) = .ok (some package)
  listed : s.catalog.Lists (trimSlashes path) package.identifier
  shared : ∃ other, other ≠ package.identifier ∧ s.catalog.Lists (trimSlashes path) other

theorem run_keeps {start : Session} (keeps : start.Keeps)
    (run : Relation.ReflTransGen Session.Step start s) : s.Keeps := by
  induction run with
  | refl => exact keeps
  | tail _ step ih => exact step_keeps ih step

theorem ask_seen {d : Disk} {t : IndexTables} {α : Type} (seen : index.tables d = .ok t)
    (question : IndexTables → Except SqlProblem α) :
    index.ask d question = (question t).mapError .sql := by
  rw [ask, seen]
  rfl

theorem written_again {m : Catalog} (known : m package.identifier = some (package, listed)) :
    m.write (package, listed) = m := by
  funext id
  unfold Catalog.write
  split
  · rename_i same
    rw [← same, known]
  · rfl

/-- Who shares a path that it owns, told from the rows. -/
theorem owns_shared_iff {t : IndexTables} {written : List (Package × List Path)}
    (catalog : s.catalog = written.foldl Catalog.write .empty) (seen : s.index.tables s.host.disk = .ok t)
    (holds : t.Holds (IndexRows.empty.putAll written))
    (known : s.catalog package.identifier = some (package, listed)) (path : Path) :
    s.OwnsShared package path ↔
      exactOwner? (trimSlashes path) (IndexTables.entries (IndexRows.empty.putAll written).files) =
          some package.identifier ∧
        ∃ other, other ≠ package.identifier ∧
          Owner.Lists (IndexTables.entries (IndexRows.empty.putAll written).files) (trimSlashes path) other := by
  rw [catalog] at known
  have asked := ask_seen seen fun t => t.owner? path
  simp only [IndexTables.first_exact_iff holds known, IndexTables.listed_iff_catalog]
  constructor
  · rintro ⟨owner, lists, shared⟩
    rw [asked, Readings.map_error_ok] at owner
    rw [catalog] at lists shared
    exact ⟨⟨owner, lists⟩, shared⟩
  · rintro ⟨⟨owner, lists⟩, shared⟩
    refine ⟨by rw [asked, Readings.map_error_ok, owner], ?_, ?_⟩ <;> rwa [catalog]

/-- A package that was written again as it stands keeps a path unless it shares the path with another. -/
theorem owner_after_upsert (keeps : s.Keeps)
    (known : s.catalog package.identifier = some (package, listed))
    (same : files.map trimSlashes = listed.map trimSlashes)
    (ok : s.index.upsertWithin budget package files s.host = (.ok later, host)) (path : Path) :
    later.ask host.disk (fun t => t.owner? path) = s.index.ask s.host.disk (fun t => t.owner? path) ↔
      ¬ s.OwnsShared package path := by
  obtain ⟨t, written, seen, holds, catalog⟩ := keeps
  obtain ⟨before, tables, found, done, after⟩ := write_seen ok
  obtain rfl := Except.ok.inj (seen.symm.trans found)
  have rows := IndexTables.perform_all_holds holds done
  rw [IndexRows.write_package_rows] at rows
  have own : (IndexRows.empty.putAll written).of package.identifier = IndexRows.record package files := by
    have last := IndexRows.of_put_all IndexRows.empty written package.identifier
    rw [catalog, Catalog.written] at known
    rw [known] at last
    rw [last, IndexRows.record_trimmed same]
  have put : (IndexRows.empty.putAll written).put package files =
      IndexRows.empty.putAll (written ++ [(package, listed)]) := by
    simp [IndexRows.putAll, IndexRows.put, IndexRows.record_trimmed same]
  have again : (written ++ [(package, listed)]).foldl Catalog.write .empty =
      written.foldl Catalog.write .empty := by
    rw [List.foldl_append, ← catalog]
    exact written_again known
  have owners : later.ask host.disk (fun t => t.owner? path) =
        s.index.ask s.host.disk (fun t => t.owner? path) ↔ tables.owner? path = t.owner? path := by
    rw [ask_seen after, ask_seen seen, IndexTables.owner_of_catalog holds]
    exact Readings.map_error_ok
  have select := IndexTables.select_put_again own (IndexTables.trimmed_rows written) path
  rw [put] at rows select
  rw [owners, IndexTables.same_owner_iff holds rows again, owns_shared_iff catalog seen holds known, select]

theorem upsert_keeps_owner_iff {start : PackageIndex} (begins : Begins start h)
    (run : Relation.ReflTransGen Session.Step ⟨start, h, .empty⟩ s)
    (known : s.catalog package.identifier = some (package, listed))
    (same : files.map trimSlashes = listed.map trimSlashes) :
    (∀ budget later host, s.index.upsertWithin budget package files s.host = (.ok later, host) →
      ∀ path, later.ask host.disk (fun t => t.owner? path) =
          s.index.ask s.host.disk (fun t => t.owner? path) ↔ ¬ s.OwnsShared package path) ∧
    (∀ budget e host, s.index.upsertWithin budget package files s.host = (.error e, host) →
      ∀ path, s.index.ask host.disk (fun t => t.owner? path) =
        s.index.ask s.host.disk (fun t => t.owner? path)) ∧
    (s.index.Stores s.host.disk →
      ∃ later host, s.index.upsert package files s.host = (.ok later, host)) := by
  obtain ⟨t, seen, holds⟩ := begins_empty begins
  have keeps : s.Keeps := run_keeps ⟨t, [], seen, holds, rfl⟩ run
  refine ⟨fun budget later host => owner_after_upsert keeps known same, ?_, ?_⟩
  · intro budget e host failed path
    rw [write_failed failed]
  · intro stores
    obtain ⟨t, written, seen, holds, _⟩ := keeps
    exact write_carried_out seen holds stores fun _ none_ => nomatch none_

def gameRecord : Package × List Path :=
  (.named "game".toList, ["/opt/tool".toList, "/usr/games/".toList])

def toolRecord : Package × List Path := (.named "tool".toList, ["/opt/tool".toList])

/-- Two packages that list one path. -/
def sharedSession : Session :=
  ⟨indexOf [gameRecord, toolRecord], twoPackagesHost, (Catalog.empty.write gameRecord).write toolRecord⟩

theorem shared_session_run :
    Relation.ReflTransGen Session.Step ⟨indexOf [], twoPackagesHost, .empty⟩ sharedSession := by
  have first : (indexOf []).upsertWithin none gameRecord.1 gameRecord.2 twoPackagesHost =
      (.ok (indexOf [gameRecord]), twoPackagesHost) := Prod.ext (by decide +kernel) rfl
  have second : (indexOf [gameRecord]).upsertWithin none toolRecord.1 toolRecord.2 twoPackagesHost =
      (.ok (indexOf [gameRecord, toolRecord]), twoPackagesHost) := Prod.ext (by decide +kernel) rfl
  exact (Relation.ReflTransGen.single (.upserted none _ _ first)).tail (.upserted none _ _ second)

theorem shared_path_given_away :
    Relation.ReflTransGen Session.Step ⟨indexOf [], twoPackagesHost, .empty⟩ sharedSession ∧
      sharedSession.catalog "game".toList = some gameRecord ∧
      sharedSession.index.upsert gameRecord.1 gameRecord.2 twoPackagesHost =
        (.ok (indexOf [toolRecord, gameRecord]), twoPackagesHost) ∧
      sharedSession.index.ask twoPackagesHost.disk (fun t => t.owner? "/opt/tool".toList) =
        .ok (some gameRecord.1) ∧
      (indexOf [toolRecord, gameRecord]).ask twoPackagesHost.disk (fun t => t.owner? "/opt/tool".toList) =
        .ok (some toolRecord.1) ∧
      ¬ ∀ path, (indexOf [toolRecord, gameRecord]).ask twoPackagesHost.disk (fun t => t.owner? path) =
        sharedSession.index.ask twoPackagesHost.disk (fun t => t.owner? path) := by
  have before : sharedSession.index.ask twoPackagesHost.disk (fun t => t.owner? "/opt/tool".toList) =
      .ok (some gameRecord.1) := by decide +kernel
  have after : (indexOf [toolRecord, gameRecord]).ask twoPackagesHost.disk
      (fun t => t.owner? "/opt/tool".toList) = .ok (some toolRecord.1) := by decide +kernel
  refine ⟨shared_session_run, rfl, Prod.ext (by decide +kernel) rfl, before, after, fun kept => ?_⟩
  have same := kept "/opt/tool".toList
  rw [before, after] at same
  revert same
  decide +kernel

theorem upsert_keeps_owner_iff_of_shared :
    Begins (indexOf []) twoPackagesHost ∧
      Relation.ReflTransGen Session.Step ⟨indexOf [], twoPackagesHost, .empty⟩ sharedSession ∧
      sharedSession.catalog gameRecord.1.identifier = some gameRecord ∧
      ["/opt/tool//".toList, "/usr/games".toList].map trimSlashes = gameRecord.2.map trimSlashes ∧
      ∃ later host, sharedSession.index.upsert gameRecord.1 ["/opt/tool//".toList, "/usr/games".toList]
          twoPackagesHost = (.ok later, host) ∧
        ∀ path, later.ask host.disk (fun t => t.owner? path) =
            sharedSession.index.ask twoPackagesHost.disk (fun t => t.owner? path) ↔
          ¬ sharedSession.OwnsShared gameRecord.1 path := by
  have begins : Begins (indexOf []) twoPackagesHost := .inMemory _ rfl
  have recorded : sharedSession.catalog gameRecord.1.identifier = some gameRecord := rfl
  have same : ["/opt/tool//".toList, "/usr/games".toList].map trimSlashes =
      gameRecord.2.map trimSlashes := by decide
  obtain ⟨keeps, _, carried⟩ := upsert_keeps_owner_iff begins shared_session_run recorded same
  obtain ⟨later, host, done⟩ := carried trivial
  exact ⟨begins, shared_session_run, recorded, same, later, host, done, keeps none later host done⟩

end PackageIndex
end CrashTriage
