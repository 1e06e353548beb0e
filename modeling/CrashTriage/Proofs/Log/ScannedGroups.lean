import CrashTriage.Log.Directory
import CrashTriage.Proofs.Disk.Listings
import CrashTriage.Proofs.Log.NameDates
import CrashTriage.Proofs.Path.Order
import Mathlib.Data.List.Pairwise

/-
The groups of a directory. Every log that the scan can look at is in the group of its name and in no other, and
neither the order of the groups nor that in a group depends on the order in which the directory was listed. A
directory can be listed and yet not let its files be looked at, and then the scan takes it for one without logs.
-/
namespace CrashTriage
namespace LogName

variable {m m' : Moment}

theorem compare_name_dates (is : NameDate m) (isToo : NameDate m') :
    m.compare m' = Ord.compare m.instant.second m'.instant.second := by
  have nano : m.instant.nano = 0 := is.whole
  have nano' : m'.instant.nano = 0 := isToo.whole
  rw [Moment.compare, Instant.compare, nano, nano']
  exact Ordering.then_eq

theorem name_date_of_second (is : NameDate m) (isToo : NameDate m') (same : m.instant.second = m'.instant.second) :
    m = m' := by
  have inDay := is.inDay
  have inDay' := isToo.inDay
  unfold Moment.instant at same
  dsimp only at same
  have days : m.date = m'.date := Date.day_number_injective is.real isToo.real (by omega)
  have seconds : m.time.second = m'.time.second := by
    rw [days] at same
    omega
  have nano := is.whole
  rw [← isToo.whole] at nano
  obtain ⟨date, second, nano⟩ := m
  obtain ⟨date', second', nano'⟩ := m'
  dsimp only at days seconds nano
  rw [days, seconds, nano]

theorem read_name_date {path : Path} (told : (read path).2 = some m) : NameDate m := by
  rw [read] at told
  split at told
  · rename_i split
    cases told
    exact (leftmost_of_split split).splits.date
  · cases told

end LogName

namespace LogGroup

open LogName

instance : Std.TransCmp compareDates where
  eq_swap := by
    intro a b
    cases a <;> cases b
    · rfl
    · rfl
    · rfl
    · exact @Std.OrientedCmp.eq_swap _ Instant.compare _ _ _
  isLE_trans := by
    intro a b c first second
    cases a <;> cases b <;> cases c <;> try contradiction
    · rfl
    · rfl
    · rfl
    · exact @Std.TransCmp.isLE_trans _ Instant.compare _ _ _ _ second first

theorem compare_logs_by_parts :
    compareLogs = compareLex (Ordering.byKey CrashLog.date compareDates) (Ordering.byKey CrashLog.path Path.compare) :=
  rfl

instance : Std.TransCmp compareLogs := compare_logs_by_parts ▸ inferInstance

/-- The order of the logs in a group: the newest first and those without a date last, logs of one date by their
paths. -/
def Precedes (a b : CrashLog) : Prop :=
  match a.date, b.date with
  | some m, some m' => m'.instant.second < m.instant.second ∨ (m = m' ∧ Path.compare a.path b.path = .lt)
  | some _, none => True
  | none, some _ => False
  | none, none => Path.compare a.path b.path = .lt

/-- Groups in the order of their names, each with logs of its name in their order. -/
structure InOrder (directory : Path) (groups : List LogGroup) : Prop where
  names : groups.Pairwise fun g g' => Text.compare g.name g'.name = .lt
  members : ∀ g ∈ groups, g.directory = directory ∧ g.logs ≠ [] ∧ ∀ log ∈ g.logs, log.name = g.name
  logs : ∀ g ∈ groups, g.logs.Pairwise Precedes

/-- No two logs are in one place. -/
def Apart (logs : List CrashLog) : Prop :=
  logs.Pairwise fun a b => Path.components a.path ≠ Path.components b.path

def NameDated (logs : List CrashLog) : Prop := ∀ log ∈ logs, ∀ m, log.date = some m → NameDate m

variable {a b log : CrashLog} {logs logs' : List CrashLog} {directory : Path} {name : Text} {names names' : List Text}

theorem precedes_of_compare (dateA : ∀ m, a.date = some m → NameDate m) (dateB : ∀ m, b.date = some m → NameDate m)
    (order : compareLogs a b = .lt) : Precedes a b := by
  unfold compareLogs at order
  unfold Precedes
  cases first : a.date with
  | none =>
    cases second : b.date with
    | none =>
      rw [first, second] at order
      exact order
    | some m' =>
      rw [first, second] at order
      cases order
  | some m =>
    cases second : b.date with
    | none => trivial
    | some m' =>
      have is := dateA m first
      have isToo := dateB m' second
      rw [first, second, compareDates, compare_name_dates isToo is] at order
      rcases Ordering.then_eq_lt.mp order with newer | ⟨same, paths⟩
      · exact .inl (Int.compare_eq_lt.mp newer)
      · have same := Int.compare_eq_eq.mp same
        exact .inr ⟨name_date_of_second is isToo same.symm, paths⟩

theorem same_place_of_compare (same : compareLogs a b = .eq) : Path.components a.path = Path.components b.path :=
  Path.components_of_equal (Ordering.then_eq_eq.mp same).2

theorem same_log_of_compare (apart : Apart logs) (inA : a ∈ logs) (inB : b ∈ logs) (same : compareLogs a b = .eq) :
    a = b := by
  have symmetric : Std.Symm fun a b : CrashLog => Path.components a.path ≠ Path.components b.path :=
    ⟨fun _ _ differ => differ.symm⟩
  by_contra differs
  exact apart.forall inA inB differs (same_place_of_compare same)

theorem sorted_names_ascend (names : List Text) :
    (sortedNames names).Pairwise fun a b => Text.compare a b = .lt := by
  apply Sorted.strictly_ascending
  exact (Sorted.erase_dups_nodup names).imp fun differs same => differs (Text.eq_of_compare same)

theorem mem_sorted_names : name ∈ sortedNames names ↔ name ∈ names :=
  List.mem_mergeSort.trans List.mem_eraseDups

theorem sorted_names_alike (perm : names.Perm names') : sortedNames names = sortedNames names' := by
  have once (names : List Text) := Sorted.erase_dups_nodup names
  apply Sorted.sorted_alike
  · refine (List.perm_ext_iff_of_nodup (once names) (once names')).mpr fun name => ?_
    rw [List.mem_eraseDups, List.mem_eraseDups, perm.mem_iff]
  · intro a _ b _ same
    exact Text.eq_of_compare same

/-- The group of one name. -/
def named (directory : Path) (logs : List CrashLog) (name : Text) : LogGroup :=
  ⟨name, directory, (logs.filter fun log => log.name == name).mergeSort fun a b => compareLogs a b != .gt⟩

theorem group_by_names (directory : Path) (logs : List CrashLog) :
    group directory logs = (sortedNames (logs.map (·.name))).map (named directory logs) := rfl

theorem mem_named : log ∈ (named directory logs name).logs ↔ log ∈ logs ∧ log.name = name := by
  rw [named, List.mem_mergeSort, List.mem_filter, beq_iff_eq]

theorem filtered_by_names (distinct : names.Nodup) (named : ∀ log ∈ logs, log.name ∈ names) :
    (names.flatMap fun name => logs.filter fun log => log.name == name).Perm logs := by
  induction names generalizing logs with
  | nil =>
    cases logs with
    | nil => exact .nil
    | cons log logs => exact absurd (named log List.mem_cons_self) List.not_mem_nil
  | cons name names ih =>
    obtain ⟨new, distinct⟩ := List.nodup_cons.mp distinct
    let others := logs.filter fun log => !(log.name == name)
    -- of the logs with later names none has this one
    have later : (names.flatMap fun name => logs.filter fun log => log.name == name) =
        names.flatMap fun name => others.filter fun log => log.name == name := by
      refine List.flatMap_congr fun other member => ?_
      rw [List.filter_filter]
      refine List.filter_congr fun log _ => ?_
      by_cases here : log.name = other
      · have differs : other ≠ name := fun same => new (same ▸ member)
        simp [here, differs]
      · simp [here]
    have rest : (names.flatMap fun name => others.filter fun log => log.name == name).Perm others := by
      refine ih distinct fun log member => ?_
      obtain ⟨there, differs⟩ := List.mem_filter.mp member
      exact (List.mem_cons.mp (named log there)).resolve_left (by simpa using differs)
    rw [List.flatMap_cons, later]
    exact (rest.append_left _).trans (List.filter_append_perm _ logs)

/-- Every log is in one group, once. -/
theorem groups_part_logs (directory : Path) (logs : List CrashLog) :
    ((group directory logs).flatMap (·.logs)).Perm logs := by
  have distinct : (sortedNames (logs.map (·.name))).Nodup := by
    refine (sorted_names_ascend _).imp fun {a b} less same => ?_
    have self : Text.compare b b = .eq := Std.ReflCmp.compare_self
    rw [same, self] at less
    cases less
  rw [group_by_names, List.flatMap_map]
  refine .trans (List.Perm.flatMap_left _ fun name _ => List.mergeSort_perm _ _) (filtered_by_names distinct ?_)
  intro log member
  exact mem_sorted_names.mpr (List.mem_map_of_mem member)

theorem groups_in_order (apart : Apart logs) (dated : NameDated logs) : InOrder directory (group directory logs) := by
  rw [group_by_names]
  refine ⟨?_, ?_, ?_⟩
  · rw [List.pairwise_map]
    exact sorted_names_ascend _
  · intro g member
    obtain ⟨name, listed, rfl⟩ := List.mem_map.mp member
    obtain ⟨log, there, called⟩ := List.mem_map.mp (mem_sorted_names.mp listed)
    refine ⟨rfl, List.ne_nil_of_mem (mem_named.mpr ⟨there, called⟩), fun log inside => (mem_named.mp inside).2⟩
  · intro g member
    obtain ⟨name, listed, rfl⟩ := List.mem_map.mp member
    have ascend : (named directory logs name).logs.Pairwise fun a b => compareLogs a b = .lt := by
      apply Sorted.strictly_ascending
      exact (apart.sublist List.filter_sublist).imp fun differ same => differ (same_place_of_compare same)
    refine ascend.imp_of_mem fun {a b} inA inB order => ?_
    exact precedes_of_compare (dated a (mem_named.mp inA).1) (dated b (mem_named.mp inB).1) order

theorem groups_alike (apart : Apart logs) (perm : logs.Perm logs') :
    group directory logs = group directory logs' := by
  rw [group_by_names, group_by_names, sorted_names_alike (perm.map (·.name))]
  refine List.map_congr_left fun name _ => ?_
  unfold named
  congr 1
  apply Sorted.sorted_alike
  · exact perm.filter _
  · intro a inA b inB same
    exact same_log_of_compare apart (List.mem_filter.mp inA).1 (List.mem_filter.mp inB).1 same

/-- A name that ends in one of the extensions of logs, with something before it. -/
def IsLogName (name : Text) : Prop :=
  ∃ stem, stem ≠ [] ∧ (name = stem ++ ".crash".toList ∨ name = stem ++ ".ips".toList)

open Disk (SingleName PlainName)

variable {d e : Disk}

/-- A file, and no directory, has the name in a directory. -/
def RegularFile (d : Disk) (directory : Path) (name : Text) : Prop :=
  ∃ node content, d.nodeIn? directory name = some node ∧ node.entry = .file content

theorem no_directory_iff {node : Node} : node.isDirectory = false ↔ ∃ content, node.entry = .file content := by
  unfold Node.isDirectory
  cases node.entry <;> simp

theorem IsLogName.plain (named : IsLogName name) (single : SingleName name) : PlainName name := by
  have last : name.getLast? = some 'h' ∨ name.getLast? = some 's' := by
    obtain ⟨stem, -, rfl | rfl⟩ := named
    · exact .inl List.getLast?_append
    · exact .inr List.getLast?_append
  have fixed : ∀ step ∈ Disk.workingDirName, step.getLast? ≠ some 'h' ∧ step.getLast? ≠ some 's' := by decide
  refine ⟨single.nonempty, single.free, ?_, fun known => ?_⟩
  · rcases last with last | last <;> simp [last]
  · exact last.elim (fixed name known).1 (fixed name known).2

theorem log_extension_iff (single : SingleName name) (directory : Path) :
    (∃ extension ∈ LogName.extensions, Path.extension? (Path.join directory name) = some extension) ↔
      IsLogName name := by
  constructor
  · rintro ⟨extension, known, found⟩
    obtain ⟨stem, nonempty, -, named⟩ := (Disk.extension_of_single_iff single directory).mp found
    have known : extension = "crash".toList ∨ extension = "ips".toList := by simpa [LogName.extensions] using known
    rcases known with rfl | rfl
    · exact ⟨stem, nonempty, .inl named⟩
    · exact ⟨stem, nonempty, .inr named⟩
  · rintro ⟨stem, nonempty, crash | ips⟩
    · refine ⟨"crash".toList, by decide, (Disk.extension_of_single_iff single directory).mpr ?_⟩
      exact ⟨stem, nonempty, by decide, crash⟩
    · refine ⟨"ips".toList, by decide, (Disk.extension_of_single_iff single directory).mpr ?_⟩
      exact ⟨stem, nonempty, by decide, ips⟩

theorem is_log_file_parts {path : Path} : isLogFile d path = true ↔
    (∃ extension ∈ LogName.extensions, Path.extension? path = some extension) ∧ d.isFile path = true := by
  unfold isLogFile
  cases Path.extension? path <;> simp

theorem is_log_file_iff (listed : d.list directory = .ok names) (single : SingleName name) :
    isLogFile d (Path.join directory name) = true ↔
      IsLogName name ∧ RegularFile d directory name ∧ d.Reaches directory name := by
  rw [is_log_file_parts, log_extension_iff single]
  refine and_congr_right fun named => ?_
  unfold Disk.isFile RegularFile
  constructor
  · intro isFile
    cases known : d.stat (Path.join directory name) with
    | error cause =>
      rw [known] at isFile
      cases isFile
    | ok node =>
      rw [known] at isFile
      obtain ⟨entry, reaches⟩ := (Disk.stat_listed_iff listed (named.plain single)).mp known
      obtain ⟨content, file⟩ := no_directory_iff.mp (by simpa using isFile)
      exact ⟨⟨node, content, entry, file⟩, reaches⟩
  · rintro ⟨⟨node, content, entry, file⟩, reaches⟩
    rw [(Disk.stat_listed_iff listed (named.plain single)).mpr ⟨entry, reaches⟩]
    simp [no_directory_iff.mpr ⟨content, file⟩]

theorem regular_listed (listed : d.list directory = .ok names) (regular : RegularFile d directory name) :
    name ∈ names := by
  obtain ⟨node, _, entry, _⟩ := regular
  exact (Disk.mem_listed_iff listed).mpr ⟨node, entry⟩

theorem mem_logs_among (listed : d.list directory = .ok names) (single : ∀ name ∈ names, SingleName name) :
    log ∈ logsAmong d directory names ↔ ∃ name, IsLogName name ∧ RegularFile d directory name ∧
      d.Reaches directory name ∧ log = CrashLog.ofPath (Path.join directory name) := by
  constructor
  · intro member
    obtain ⟨path, kept, rfl⟩ := List.mem_map.mp member
    obtain ⟨joined, isLog⟩ := List.mem_filter.mp kept
    obtain ⟨name, there, rfl⟩ := List.mem_map.mp joined
    obtain ⟨named, regular, reaches⟩ := (is_log_file_iff listed (single name there)).mp isLog
    exact ⟨name, named, regular, reaches, rfl⟩
  · rintro ⟨name, named, regular, reaches, rfl⟩
    have there := regular_listed listed regular
    have isLog := (is_log_file_iff listed (single name there)).mpr ⟨named, regular, reaches⟩
    exact List.mem_map_of_mem (List.mem_filter.mpr ⟨List.mem_map_of_mem there, isLog⟩)

theorem logs_among_apart (single : ∀ name ∈ names, SingleName name) (distinct : names.Nodup) :
    Apart (logsAmong d directory names) := by
  have apart : (names.map (Path.join directory)).Pairwise fun p q => Path.components p ≠ Path.components q := by
    rw [List.pairwise_map]
    refine distinct.imp_of_mem fun {name other} there thereToo differ same => differ ?_
    rw [Disk.components_of_single (single name there), Disk.components_of_single (single other thereToo)] at same
    simpa using same
  exact List.pairwise_map.mpr (apart.sublist List.filter_sublist)

theorem logs_among_dated (d : Disk) (directory : Path) (names : List Text) :
    NameDated (logsAmong d directory names) := by
  intro log member m dated
  obtain ⟨path, -, rfl⟩ := List.mem_map.mp member
  exact read_name_date dated

theorem logs_among_perm (perm : names'.Perm names) (alike : ∀ path, e.stat path = d.stat path) :
    (logsAmong e directory names').Perm (logsAmong d directory names) := by
  have same : isLogFile e = isLogFile d := by
    funext path
    unfold isLogFile Disk.isFile
    rw [alike]
  unfold logsAmong
  rw [same]
  exact ((perm.map _).filter _).map _

theorem scan_listed (listed : d.list directory = .ok names) :
    scan d directory = .ok (group directory (logsAmong d directory names)) := by
  rw [scan, listed]

/-- The scan of a directory parts the logs that it reaches by their names, in whatever order the directory was
listed. These are all logs in the directory just when each of them is reached; the others are left out without an
error. -/
theorem scan_ordered_partition_iff (single : d.SingleNames) (distinct : d.DistinctPlaces)
    (listed : d.list directory = .ok names) :
    ∃ groups, scan d directory = .ok groups ∧ InOrder directory groups ∧
      ((groups.flatMap (·.logs)).map (·.path)).Nodup ∧
      (∀ log, log ∈ groups.flatMap (·.logs) ↔ ∃ name, IsLogName name ∧ RegularFile d directory name ∧
        d.Reaches directory name ∧ log = CrashLog.ofPath (Path.join directory name)) ∧
      ((∀ name, IsLogName name → RegularFile d directory name →
          CrashLog.ofPath (Path.join directory name) ∈ groups.flatMap (·.logs)) ↔
        ∀ name, IsLogName name → RegularFile d directory name → d.Reaches directory name) ∧
      (∀ names', names'.Perm names → group directory (logsAmong d directory names') = groups) ∧
      ∀ e, Disk.Reordered d e → scan e directory = .ok groups := by
  have eachSingle := Disk.list_single single listed
  have apart : Apart (logsAmong d directory names) :=
    logs_among_apart eachSingle (Disk.list_distinct distinct listed)
  have parts := groups_part_logs directory (logsAmong d directory names)
  have alike {e : Disk} {names' : List Text} (perm : names'.Perm names) (same : ∀ path, e.stat path = d.stat path) :
      group directory (logsAmong e directory names') = group directory (logsAmong d directory names) :=
    (groups_alike apart (logs_among_perm perm same).symm).symm
  have member (log : CrashLog) := (parts.mem_iff (a := log)).trans (mem_logs_among listed eachSingle)
  refine ⟨_, scan_listed listed, groups_in_order apart (logs_among_dated d directory names), ?_, member, ?_,
    fun names' perm => alike perm fun _ => rfl, fun e reordered => ?_⟩
  · refine ((parts.map _).nodup_iff).mpr (List.pairwise_map.mpr (apart.imp fun differ same => differ ?_))
    rw [same]
  · constructor
    · intro complete name named regular
      obtain ⟨other, -, regularToo, reaches, same⟩ := (member _).mp (complete name named regular)
      have paths : Path.join directory name = Path.join directory other := congrArg CrashLog.path same
      have single := eachSingle name (regular_listed listed regular)
      have singleToo := eachSingle other (regular_listed listed regularToo)
      rw [Path.join_name_injective single.free singleToo.free paths]
      exact reaches
    · intro reached name named regular
      exact (member _).mpr ⟨name, named, regular, reached name named regular, rfl⟩
  · obtain ⟨names', listedToo, perm⟩ := reordered.list distinct listed
    rw [scan_listed listedToo, alike perm (reordered.stat distinct)]

/-- A directory of files with extensions of logs and without, a directory among them. -/
def mixedDisk (mode : Nat) : Disk :=
  let file : Node := ⟨.file (.bytes []), 0o644, 0⟩
  { nodes := [([], ⟨.directory, 0o755, 0⟩), (["Logs"].map String.toList, ⟨.directory, mode, 0⟩),
      (["Logs", "Aide_2013-13-01-000000.ips"].map String.toList, file),
      (["Logs", "notes.txt"].map String.toList, file),
      (["Logs", "App_2013-01-01-000000.crash"].map String.toList, file), (["Logs", ".crash"].map String.toList, file),
      (["Logs", "App_2012-02-29-235959.ips"].map String.toList, file),
      (["Logs", "App_2012-02-29-235959_iPad.crash"].map String.toList, file),
      (["Logs", "old.crash"].map String.toList, ⟨.directory, 0o755, 0⟩),
      (["Logs", "App.ips"].map String.toList, file)]
    workingDir := []
    enforced := true
    now := 1 }

theorem scan_ordered_partition_of_mixed :
    let logs := ["/Logs/Aide_2013-13-01-000000.ips", "/Logs/App_2013-01-01-000000.crash",
      "/Logs/App_2012-02-29-235959.ips", "/Logs/App_2012-02-29-235959_iPad.crash", "/Logs/App.ips"].map
        fun path => CrashLog.ofPath path.toList
    let groups : List LogGroup := [⟨"Aide_2013-13-01-000000".toList, "/Logs".toList, logs.take 1⟩,
      ⟨"App".toList, "/Logs".toList, logs.drop 1⟩]
    let d := mixedDisk 0o755
    scan d "/Logs".toList = .ok groups ∧ scan { d with nodes := d.nodes.reverse } "/Logs".toList = .ok groups := by
  intro logs groups d
  have single : d.SingleNames := by decide +kernel
  have distinct : d.DistinctPlaces := by decide +kernel
  have listed : d.list "/Logs".toList = .ok (d.namesIn ["Logs".toList]) := by decide +kernel
  have among : logsAmong d "/Logs".toList (d.namesIn ["Logs".toList]) = logs := by decide +kernel
  -- in this order of the nodes the logs already stand in theirs
  have once : (logs.map (·.name)).eraseDups = groups.map (·.name) := by decide +kernel
  have names : sortedNames (logs.map (·.name)) = groups.map (·.name) := by
    rw [sortedNames, once]
    exact List.mergeSort_of_pairwise (by decide +kernel)
  have parts : ∀ g ∈ groups, g.directory = "/Logs".toList ∧ (logs.filter fun log => log.name == g.name) = g.logs ∧
      g.logs.Pairwise fun a b => (compareLogs a b != .gt) = true := by decide +kernel
  have each : ∀ g ∈ groups, named "/Logs".toList logs g.name = g := by
    intro g member
    obtain ⟨under, whole, ordered⟩ := parts g member
    rw [named, whole, List.mergeSort_of_pairwise ordered, ← under]
  have scanned : scan d "/Logs".toList = .ok groups := by
    rw [scan_listed listed, among, group_by_names, names, List.map_map]
    exact congrArg Except.ok ((List.map_congr_left each).trans (List.map_id groups))
  obtain ⟨found, scannedToo, -, -, -, -, -, anyOrder⟩ := scan_ordered_partition_iff single distinct listed
  rw [scanned] at scannedToo
  cases scannedToo
  exact ⟨scanned, anyOrder _ ⟨List.reverse_perm _, rfl, rfl⟩⟩

/-- In a directory that may be listed but not searched no log is found, and no error tells of it. -/
theorem logs_lost_in_unsearchable_directory :
    let d := mixedDisk 0o400
    let name := "App_2013-01-01-000000.crash".toList
    d.SingleNames ∧ d.DistinctPlaces ∧ d.list "/Logs".toList = .ok (d.namesIn ["Logs".toList]) ∧ IsLogName name ∧
      RegularFile d "/Logs".toList name ∧ scan d "/Logs".toList = .ok [] := by
  intro d name
  have listed : d.list "/Logs".toList = .ok (d.namesIn ["Logs".toList]) := by decide +kernel
  have none : logsAmong d "/Logs".toList (d.namesIn ["Logs".toList]) = [] := by decide +kernel
  have named : IsLogName name := ⟨"App_2013-01-01-000000".toList, by decide, .inl (by decide)⟩
  have entry : d.nodeIn? "/Logs".toList name = some ⟨.file (.bytes []), 0o644, 0⟩ := by decide +kernel
  have scanned : scan d "/Logs".toList = .ok [] := by
    rw [scan_listed listed, none, group_by_names]
    simp [sortedNames]
  exact ⟨by decide +kernel, by decide +kernel, listed, named, ⟨_, _, entry, rfl⟩, scanned⟩

end LogGroup
end CrashTriage
