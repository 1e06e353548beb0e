import CrashTriage.Disk.Basic
import CrashTriage.Proofs.Lists
import Mathlib.Data.List.Nodup

/-
Names on a disk. No file system lets a name hold a slash, nor lets two files stand in one place; a disk
as a value could.
-/
namespace CrashTriage
namespace Disk

def ProperNames (d : Disk) : Prop := ∀ n ∈ d.nodes, ∀ name ∈ n.1, '/' ∉ name

def DistinctPlaces (d : Disk) : Prop := (d.nodes.map (·.1)).Nodup

variable {d : Disk} {path : Path} {names : List Text}

theorem list_iff : d.list path = .ok names ↔ ∃ place node, d.locate path = .ok place ∧ d.find? place = some node ∧
    node.isDirectory = true ∧ d.allows node .read = true ∧ names = d.namesIn place := by
  constructor
  · intro listed
    obtain ⟨place, located, more⟩ := Readings.bind_ok.mp listed
    cases found : d.find? place with
    | none =>
      rw [found] at more
      cases more
    | some node =>
      rw [found] at more
      dsimp only at more
      split at more
      · cases more
      · rename_i kind
        split at more
        · cases more
        · rename_i readable
          exact ⟨place, node, located, found, by simpa using kind, by simpa using readable, (Except.ok.inj more).symm⟩
  · rintro ⟨place, node, located, found, kind, readable, rfl⟩
    refine Readings.bind_ok.mpr ⟨place, located, ?_⟩
    rw [found]
    dsimp only
    rw [kind, readable]
    rfl

theorem list_ok (listed : d.list path = .ok names) : ∃ place, names = d.namesIn place := by
  obtain ⟨place, _, _, _, _, _, same⟩ := list_iff.mp listed
  exact ⟨place, same⟩

/-- The name under which a place is listed in the directory `parent`. -/
def nameIn? (parent place : Place) : Option Text :=
  match place.getLast? with
  | some name => if place.dropLast = parent then some name else none
  | none => none

theorem name_in_iff {parent place : Place} {name : Text} :
    nameIn? parent place = some name ↔ place = parent ++ [name] := by
  unfold nameIn?
  rcases List.eq_nil_or_concat place with rfl | ⟨above, last, rfl⟩
  · simp
  · rw [List.concat_eq_append]
    constructor
    · intro named
      obtain ⟨rfl, rfl⟩ : above = parent ∧ last = name := by simpa using named
      rfl
    · intro same
      obtain ⟨rfl, ⟨⟩⟩ := List.append_inj' same rfl
      simp

theorem names_in_nodes (d : Disk) (parent : Place) :
    d.namesIn parent = (d.nodes.map (·.1)).filterMap (nameIn? parent) := by
  rw [List.filterMap_map]
  rfl

/-- What holds of all names on a disk holds of those in a directory. -/
theorem list_names {holds : Text → Prop} (all : ∀ n ∈ d.nodes, ∀ name ∈ n.1, holds name)
    (listed : d.list path = .ok names) : ∀ name ∈ names, holds name := by
  obtain ⟨parent, rfl⟩ := list_ok listed
  intro name member
  rw [names_in_nodes] at member
  obtain ⟨place, there, named⟩ := List.mem_filterMap.mp member
  obtain ⟨n, stands, rfl⟩ := List.mem_map.mp there
  exact all n stands name (by simp [name_in_iff.mp named])

theorem list_proper (proper : d.ProperNames) (listed : d.list path = .ok names) :
    ∀ name ∈ names, '/' ∉ name := list_names proper listed

theorem list_distinct (distinct : d.DistinctPlaces) (listed : d.list path = .ok names) :
    names.Nodup := by
  obtain ⟨parent, rfl⟩ := list_ok listed
  rw [names_in_nodes]
  refine List.Nodup.filterMap (fun a b name here there => ?_) distinct
  rw [name_in_iff.mp here, name_in_iff.mp there]

end Disk
end CrashTriage
