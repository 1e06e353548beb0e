import CrashTriage.Proofs.Disk.LexicalPlaces
import CrashTriage.Proofs.Disk.Names

/-
The names in a directory. Each makes the path of the directory longer by one component. The order in which they
are listed is the disk's own: a disk that holds the same in another order lists the same names, and tells the same
of what is behind them.
-/
namespace CrashTriage
namespace Disk

open Text

variable {d e : Disk} {path : Path} {name : Text} {names : List Text} {place : Place}

theorem segment_spans_append (start : Nat) {front : List Text} (nonempty : front ≠ []) :
    ∃ later, start < later ∧ ∀ rest, Path.segmentSpans start (front ++ rest) =
      Path.segmentSpans start front ++ Path.segmentSpans later rest := by
  induction front generalizing start with
  | nil => contradiction
  | cons segment front ih =>
    by_cases last : front = []
    · subst last
      refine ⟨start + segment.length + 1, by omega, fun rest => ?_⟩
      rw [List.singleton_append, Path.segment_spans_cons, Path.segment_spans_cons, Path.segmentSpans, List.append_nil]
    · obtain ⟨later, after, spans⟩ := ih (start + segment.length + 1) last
      refine ⟨later, by omega, fun rest => ?_⟩
      rw [List.cons_append, Path.segment_spans_cons, Path.segment_spans_cons, spans, List.append_assoc]

theorem components_between {s : Path} (nonempty : s ≠ []) (t : Path) :
    Path.components (s ++ '/' :: t) = Path.components s ++ (namesOf t).map componentOf := by
  have cut : split '/' (s ++ '/' :: t) = split '/' s ++ split '/' t :=
    @split_by_separator (· == '/') '/' rfl s t
  obtain ⟨later, behind, spans⟩ := segment_spans_append 0 (split_by_ne_nil (· == '/') s)
  have spans : Path.segmentSpans 0 (split '/' s ++ split '/' t) =
      Path.segmentSpans 0 (split '/' s) ++ Path.segmentSpans later (split '/' t) := spans _
  rw [Path.components, Path.components, Path.spans, Path.spans, absolute_append nonempty, cut, spans,
    ← List.append_assoc, List.map_append, components_behind_head behind]
  rfl

theorem components_of_single (single : SingleName name) (directory : Path) :
    Path.components (Path.join directory name) = Path.components directory ++ [.name name] := by
  have relative := Path.relative_name single.free
  have last : (namesOf name).map componentOf = [.name name] := by
    rw [names_of_single single, List.map_singleton, componentOf, if_neg single.notUp]
  by_cases empty : directory = []
  · rw [empty, Path.join, relative, if_pos (by rfl), Path.components, Path.spans, relative,
      split_without single.free, Path.segment_spans_cons, Path.spanOf?, if_neg single.nonempty,
      if_neg single.notDot, if_neg single.notUp]
    rfl
  · obtain ⟨front, joined, whole | slashed⟩ := join_name_eq empty single.free
    · rw [joined, whole, components_between (whole ▸ empty), last]
    · rw [joined, slashed]
      by_cases root : front = []
      · subst root
        have names : namesOf ('/' :: name) = namesOf name := names_between [] name
        rw [List.nil_append, List.nil_append, components_of_absolute rfl, components_of_absolute rfl, names, last]
        rfl
      · rw [components_between root, components_between root, last]
        simp [namesOf, split, splitBy]

theorem file_name_of_single (single : SingleName name) (directory : Path) :
    Path.fileName? (Path.join directory name) = some name := by
  rw [Path.fileName?, components_of_single single, List.getLast?_concat]

/-- A name has an extension behind its last dot, unless it starts there. -/
theorem extension_of_single_iff (single : SingleName name) (directory : Path) {extension : Text} :
    Path.extension? (Path.join directory name) = some extension ↔
      ∃ stem, stem ≠ [] ∧ '.' ∉ extension ∧ name = stem ++ '.' :: extension := by
  rw [Path.extension?, Path.splitExtension?, file_name_of_single single, Option.map_some, Option.bind_some]
  constructor
  · intro found
    cases cut : splitLast? '.' name with
    | none => simp [cut] at found
    | some parts =>
      obtain ⟨stem, behind⟩ := parts
      rw [cut] at found
      by_cases empty : stem = []
      · simp [empty] at found
      · have found : some behind = some extension := by simpa [empty] using found
        cases found
        exact ⟨stem, empty, split_last_free cut, split_last_some cut⟩
  · rintro ⟨stem, nonempty, free, rfl⟩
    rw [split_last_at stem free]
    simp [nonempty]

instance (name : Text) : Decidable (SingleName name) :=
  decidable_of_iff (name ≠ [] ∧ '/' ∉ name ∧ name ≠ ['.'] ∧ name ≠ ['.', '.'])
    ⟨fun ⟨nonempty, free, notDot, notUp⟩ => ⟨nonempty, free, notDot, notUp⟩,
      fun ⟨nonempty, free, notDot, notUp⟩ => ⟨nonempty, free, notDot, notUp⟩⟩

/-- Every entry of a disk has a name of its own, and none is a way to another one. -/
def SingleNames (d : Disk) : Prop := ∀ n ∈ d.nodes, ∀ name ∈ n.1, SingleName name

instance (d : Disk) : Decidable d.SingleNames :=
  inferInstanceAs (Decidable (∀ n ∈ d.nodes, ∀ name ∈ n.1, SingleName name))

instance (d : Disk) : Decidable d.DistinctPlaces := inferInstanceAs (Decidable (List.Nodup _))

theorem list_single (single : d.SingleNames) (listed : d.list path = .ok names) : ∀ name ∈ names, SingleName name :=
  list_names single listed

/-- What has a name in the directory that a path leads to, may it be looked at or not. -/
def nodeIn? (d : Disk) (directory : Path) (name : Text) : Option Node :=
  (d.place? directory).bind fun place => d.find? (place ++ [name])

/-- The user may search the directory, and the system takes the name and the path that it makes longer. -/
structure Reaches (d : Disk) (directory : Path) (name : Text) : Prop where
  searched : ∃ node, d.standing? directory = some node ∧ d.allows node .search = true
  noNul : '\x00' ∉ name
  nameFits : byteSize name ≤ nameLimit
  pathFits : byteSize (Path.join directory name) < pathLimit

theorem mem_names_in_iff : name ∈ d.namesIn place ↔ ∃ node, d.find? (place ++ [name]) = some node := by
  rw [names_in_nodes, List.mem_filterMap]
  constructor
  · rintro ⟨other, there, named⟩
    obtain rfl := name_in_iff.mp named
    cases found : d.find? (place ++ [name]) with
    | some node => exact ⟨node, rfl⟩
    | none =>
      obtain ⟨n, listed, same⟩ := List.mem_map.mp there
      have differs := List.lookup_eq_none_iff.mp found n listed
      simp [same] at differs
  · rintro ⟨node, found⟩
    obtain ⟨before, after, listed, -⟩ := List.lookup_eq_some_iff.mp found
    exact ⟨place ++ [name], by simp [listed], name_in_iff.mpr rfl⟩

theorem mem_listed_iff (listed : d.list path = .ok names) :
    name ∈ names ↔ ∃ node, d.nodeIn? path name = some node := by
  obtain ⟨place, _, located, _, _, _, rfl⟩ := list_iff.mp listed
  rw [nodeIn?, place_of_locate located, Option.bind_some, mem_names_in_iff]

/-- What has a listed name can be looked at just when it is reached; the listing itself does not tell. -/
theorem stat_listed_iff (listed : d.list path = .ok names) (plain : PlainName name) {node : Node} :
    d.stat (Path.join path name) = .ok node ↔ d.nodeIn? path name = some node ∧ d.Reaches path name := by
  obtain ⟨place, directory, located, found, kind, _, _⟩ := list_iff.mp listed
  have leads := place_of_locate located
  have stands : d.standing? path = some directory := by rw [standing?, leads, Option.bind_some, found]
  have isDirectory : d.hasDirectory place = true := has_directory_iff.mpr ⟨directory, found, kind⟩
  rw [stat_ok_iff, nodeIn?, leads, Option.bind_some]
  constructor
  · rintro ⟨there, joined, known⟩
    obtain ⟨noNul, pathFits, allowed, nameFits, rfl⟩ := (locate_of_join_iff plain located isDirectory).mp joined
    obtain ⟨directory', foundToo, searched⟩ := require_ok_iff.mp allowed
    obtain rfl := Option.some.inj (found.symm.trans foundToo)
    exact ⟨known, ⟨directory, stands, searched⟩, noNul, nameFits, pathFits⟩
  · rintro ⟨known, ⟨directory', standsToo, searched⟩, noNul, nameFits, pathFits⟩
    obtain rfl := Option.some.inj (stands.symm.trans standsToo)
    have allowed := require_ok_iff.mpr ⟨directory, found, searched⟩
    have joined := (locate_of_join_iff plain located isDirectory).mpr ⟨noNul, pathFits, allowed, nameFits, rfl⟩
    exact ⟨place ++ [name], joined, known⟩

/-- The same disk with its nodes in another order. -/
structure Reordered (d e : Disk) : Prop where
  nodes : e.nodes.Perm d.nodes
  workingDir : e.workingDir = d.workingDir
  enforced : e.enforced = d.enforced

namespace Reordered

theorem find (reordered : Reordered d e) (distinct : d.DistinctPlaces) (place : Place) :
    e.find? place = d.find? place := by
  have distinctToo : e.DistinctPlaces := (reordered.nodes.map _).nodup_iff.mpr distinct
  refine Option.ext fun node => ?_
  rw [find?, find?, Keyed.lookup_iff_mem distinctToo, Keyed.lookup_iff_mem distinct, reordered.nodes.mem_iff]

theorem allows (reordered : Reordered d e) (node : Node) (access : Access) :
    e.allows node access = d.allows node access := by
  rw [Disk.allows, Disk.allows, reordered.enforced]

variable (reordered : Reordered d e) (distinct : d.DistinctPlaces)
include reordered distinct

theorem require (place : Place) (access : Access) : e.require place access = d.require place access := by
  simp only [Disk.require, reordered.find distinct, reordered.allows]

theorem enter (place : Place) (steps : List Text) : e.enter place steps = d.enter place steps := by
  induction steps generalizing place with
  | nil => rfl
  | cons step rest ih => simp only [Disk.enter, reordered.require distinct, reordered.find distinct, ih]

theorem locate (path : Path) : e.locate path = d.locate path := by
  simp only [Disk.locate, route_alike reordered.workingDir, reordered.enter distinct, reordered.require distinct]

theorem stat (path : Path) : e.stat path = d.stat path := by
  simp only [Disk.stat, reordered.locate distinct, reordered.find distinct]

/-- The other order of the nodes is one of the names in a directory. -/
theorem list (listed : d.list path = .ok names) : ∃ names', e.list path = .ok names' ∧ names'.Perm names := by
  obtain ⟨place, node, located, found, kind, readable, rfl⟩ := list_iff.mp listed
  rw [← reordered.locate distinct] at located
  rw [← reordered.find distinct] at found
  rw [← reordered.allows] at readable
  exact ⟨_, list_iff.mpr ⟨place, node, located, found, kind, readable, rfl⟩, reordered.nodes.filterMap _⟩

end Reordered

end Disk
end CrashTriage
