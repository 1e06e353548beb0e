import CrashTriage.Proofs.Disk.JoinedPaths
import CrashTriage.Proofs.HostRuns

/-
A draft on its way to the file that it is to replace. Until it is moved the disk looks as before but for
the draft, which stands where nothing stood; so a draft that is removed leaves no trace, and one that is
moved changes what stands at the target and nothing else.
-/
namespace CrashTriage
namespace Disk

variable {d₀ d d' : Disk} {place target : Place} {node : Node} {path : Path}

/-- As `d₀` looks, but for a draft at a place that was free. -/
structure Drafted (d₀ : Disk) (place : Place) (d : Disk) : Prop where
  free : d₀.find? place = none
  named : ∃ parent n, place = parent ++ [temporaryName n]
  file : d.hasDirectory place = false
  others : ∀ other, other ≠ place → d.find? other = d₀.find? other
  workingDir : d.workingDir = d₀.workingDir

/-- As `d₀` looks, with or without a draft. -/
def Spared (d₀ d : Disk) : Prop := LooksAs d d₀ ∨ ∃ place, Drafted d₀ place d

/-- As `d₀` looks, but for a new file at the target. -/
structure Replaced (d₀ : Disk) (target : Place) (contents : Bytes) (mode : Nat) (d : Disk) : Prop where
  placed : ∃ time, d.find? target = some ⟨.file (.bytes contents), mode, time⟩
  noDirectory : d₀.hasDirectory target = false
  others : ∀ other, other ≠ target → d.find? other = d₀.find? other
  workingDir : d.workingDir = d₀.workingDir

theorem Drafted.same_tree (drafted : Drafted d₀ place d) : SameTree d₀ d := by
  refine ⟨drafted.workingDir, fun other => ?_⟩
  by_cases here : other = place
  · rw [here, drafted.file, hasDirectory, drafted.free]
    rfl
  · rw [hasDirectory, hasDirectory, drafted.others other here]

theorem Spared.same_tree (spared : Spared d₀ d) : SameTree d₀ d := by
  rcases spared with looks | ⟨place, drafted⟩
  · exact looks.same_tree
  · exact drafted.same_tree

theorem Replaced.same_tree {contents : Bytes} {mode : Nat} (replaced : Replaced d₀ target contents mode d) :
    SameTree d₀ d := by
  refine ⟨replaced.workingDir, fun other => ?_⟩
  by_cases here : other = target
  · obtain ⟨time, placed⟩ := replaced.placed
    rw [here, replaced.noDirectory, hasDirectory, placed]
    rfl
  · rw [hasDirectory, hasDirectory, replaced.others other here]

theorem Drafted.looks (drafted : Drafted d₀ place d) (looks : LooksAs d' d) : Drafted d₀ place d' := by
  refine ⟨drafted.free, drafted.named, ?_, fun other away => ?_, looks.workingDir.trans drafted.workingDir⟩
  · rw [looks.same_tree.directories, drafted.file]
  · rw [looks.nodes other, drafted.others other away]

theorem Replaced.looks {contents : Bytes} {mode : Nat} (replaced : Replaced d₀ target contents mode d)
    (looks : LooksAs d' d) : Replaced d₀ target contents mode d' := by
  refine ⟨?_, replaced.noDirectory, fun other away => ?_, looks.workingDir.trans replaced.workingDir⟩
  · rw [looks.nodes target]
    exact replaced.placed
  · rw [looks.nodes other, replaced.others other away]

theorem looks_as_tick (d : Disk) : LooksAs d.tick d := ⟨rfl, fun _ => rfl⟩

theorem Drafted.discarded (drafted : Drafted d₀ place d) : LooksAs (d.erase place) d₀ := by
  refine ⟨drafted.workingDir, fun other => ?_⟩
  rw [find_erase]
  split
  · rename_i here
    rw [here, drafted.free]
  · rename_i away
    exact drafted.others other away

theorem Drafted.rewritten (drafted : Drafted d₀ place d) (file : node.isDirectory = false) :
    Drafted d₀ place (d.put place node) := by
  refine ⟨drafted.free, drafted.named, ?_, fun other away => ?_, drafted.workingDir⟩
  · rw [hasDirectory, find_put, if_pos rfl, Option.any_some, file]
  · rw [find_put, if_neg away, drafted.others other away]

theorem Drafted.moved {contents : Bytes} {mode : Nat} {time : Int} (drafted : Drafted d₀ place d)
    (noDirectory : d.hasDirectory target = false) :
    Replaced d₀ target contents mode ((d.erase place).put target ⟨.file (.bytes contents), mode, time⟩) := by
  refine ⟨⟨time, by rw [find_put, if_pos rfl]⟩, ?_, fun other away => ?_, drafted.workingDir⟩
  · rw [← drafted.same_tree.directories, noDirectory]
  · rw [find_put, if_neg away]
    exact drafted.discarded.nodes other

/-- What a temporary file is when it is made, and where the path to it leads. -/
theorem create_temporary {directory : Path} (looks : LooksAs d d₀)
    (created : createTemporary directory d = .ok (place, d')) :
    Drafted d₀ place d' ∧ d'.find? place = some ⟨.file (.bytes []), 0o600, d.now⟩ ∧
      ∀ there, d.place? (Path.join (d.absolute directory) (place.getLast?.getD [])) = some there →
        there = place := by
  obtain ⟨parent, entered, created⟩ := Readings.bind_ok.mp created
  obtain ⟨_, _, created⟩ := Readings.bind_ok.mp created
  obtain ⟨free, n, named⟩ := free_name d parent
  cases created
  refine ⟨⟨?_, ⟨parent, n, by rw [named]⟩, ?_, fun other away => ?_, looks.workingDir⟩, ?_, ?_⟩
  · rw [← looks.nodes]
    exact free
  · show (d.put _ _).hasDirectory _ = false
    rw [hasDirectory, find_put, if_pos rfl]
    rfl
  · show (d.put _ _).find? other = _
    rw [find_put, if_neg away, looks.nodes]
  · show (d.put _ _).find? _ = _
    rw [find_put, if_pos rfl]
    rfl
  · intro there leads
    obtain ⟨r, routed, entered⟩ := Readings.bind_ok.mp entered
    obtain ⟨_, inside, entered⟩ := Readings.bind_ok.mp entered
    obtain ⟨_, _, same⟩ := Readings.bind_ok.mp entered
    cases same
    rw [List.getLast?_concat, Option.getD_some, named] at leads
    rw [named]
    exact place_of_join (temporary_name_plain n) routed inside leads

theorem move_from_ok {source : Place} (moved : moveFrom source path d = .ok ((), d')) :
    ∃ target node, d.place? path = some target ∧ d.hasDirectory target = false ∧
      d.find? source = some node ∧ d' = (d.erase source).put target node := by
  obtain ⟨⟨parent, name, slash⟩, entered, moved⟩ := Readings.bind_ok.mp moved
  dsimp only at moved
  split at moved
  · cases moved
  · rename_i bare
    obtain rfl : slash = false := by simpa using bare
    obtain ⟨_, _, moved⟩ := Readings.bind_ok.mp moved
    cases found : d.find? source with
    | none =>
      rw [found] at moved
      cases moved
    | some node =>
      rw [found] at moved
      dsimp only at moved
      split at moved
      · cases moved
      · rename_i noDirectory
        cases moved
        refine ⟨parent ++ [name], node, place_of_parent entered, ?_, rfl, rfl⟩
        simpa [hasDirectory] using noDirectory

end Disk
end CrashTriage
