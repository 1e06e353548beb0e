import CrashTriage.Proofs.Log.StackSuspects

/-
The potential suspects of a crash: its suspects, the victim, and the other images from an unofficial
source. The paths that were met are told apart before the system's images are left out. A victim that is
the system's therefore takes its path with it, and an unofficial image on that path is lost.
-/
namespace CrashTriage

namespace Evaluation

variable {α κ : Type} [BEq κ] [LawfulBEq κ]

theorem first_by_covers (key : α → κ) (seen : List κ) {xs : List α} {x : α} (member : x ∈ xs) :
    key x ∈ seen ∨ ∃ y ∈ firstBy key seen xs, key y = key x := by
  induction xs generalizing seen with
  | nil => cases member
  | cons z xs ih =>
    unfold firstBy
    rcases List.mem_cons.mp member with rfl | later
    · split
      · rename_i known
        exact .inl (List.contains_iff_mem.mp known)
      · exact .inr ⟨x, List.mem_cons_self, rfl⟩
    · split
      · exact ih seen later
      · rcases ih (key z :: seen) later with known | ⟨y, kept, same⟩
        · rcases List.mem_cons.mp known with first | known
          · exact .inr ⟨z, List.mem_cons_self, first.symm⟩
          · exact .inl known
        · exact .inr ⟨y, List.mem_cons_of_mem _ kept, same⟩

end Evaluation

namespace CrashLog

open Evaluation

variable {σ : Type} {images : List Image} {image : Image}

/-- What a resolver answers about a path once it was asked for the suspects. -/
def afterSuspects (log : CrashLog) (owner : Path → StateM σ Resolution) (start : σ) (path : Path) :
    Resolution :=
  ((owner path).run ((log.suspects owner).run start).2).1

def SystemVictimAt (log : CrashLog) (answer : Path → Resolution) (path : Path) : Prop :=
  ∃ victim, log.victim? = some victim ∧ victim.path = path ∧
    Suspect.isSystem ⟨victim, answer victim.path⟩ = true

structure PotentialSuspects (log : CrashLog) (answer : Path → Resolution) (found all : List Suspect) : Prop where
  distinct : (all.map (·.image.path)).Nodup
  suspectsFirst : found.map (·.image.path) <+: all.map (·.image.path)
  victim : ∀ victim, log.victim? = some victim → Suspect.isSystem ⟨victim, answer victim.path⟩ = false →
    victim.path ∈ all.map (·.image.path)
  unofficial : ∀ image ∈ log.images, image.fromUnofficialSource = true →
    (image.path ∈ all.map (·.image.path) ↔ ¬ log.SystemVictimAt answer image.path)

theorem unofficial_resolved (owner : Path → StateM σ Resolution) (s : σ) (member : image ∈ images)
    (unofficial : image.fromUnofficialSource = true) :
    image.path ∈ ((resolveAll owner images).run s).1.map (·.image.path) := by
  induction images generalizing s with
  | nil => cases member
  | cons first rest ih =>
    rw [run_resolve_cons]
    dsimp only
    rcases List.mem_cons.mp member with rfl | later
    · have foreign : Suspect.isSystem ⟨image, ((owner image.path).run s).1⟩ = false := by
        simp [Suspect.isSystem, unofficial]
      simp [foreign]
    · have listed := ih ((owner first.path).run s).2 later
      split
      · exact listed
      · exact List.mem_cons_of_mem _ listed

/-- The images that are asked about after the suspects. -/
def otherCandidates (log : CrashLog) (found : List Suspect) : List Image :=
  firstByPath (found.map (·.image.path)) (log.victim?.toList ++ log.images.filter (·.fromUnofficialSource))

theorem run_potential (owner : Path → StateM σ Resolution) (log : CrashLog) (start : σ) :
    ((log.potentialSuspects owner).run start).1 =
      ((log.suspects owner).run start).1 ++
        ((resolveAll owner (log.otherCandidates ((log.suspects owner).run start).1)).run
          ((log.suspects owner).run start).2).1 := rfl

variable {log : CrashLog} {found : List Suspect}

theorem candidate_new (member : image ∈ log.otherCandidates found) :
    image.path ∉ found.map (·.image.path) :=
  (mem_first_by_split.mp member).1

/-- An unofficial image is asked about unless the victim stands before it with its path. -/
theorem unofficial_candidate (listed : image ∈ log.images) (unofficial : image.fromUnofficialSource = true) :
    image.path ∈ found.map (·.image.path) ∨ (∃ victim, log.victim? = some victim ∧ victim.path = image.path) ∨
      ∃ other ∈ log.otherCandidates found, other.path = image.path ∧ other.fromUnofficialSource = true := by
  have candidate : image ∈ log.victim?.toList ++ log.images.filter (·.fromUnofficialSource) :=
    List.mem_append_right _ (List.mem_filter.mpr ⟨listed, unofficial⟩)
  rcases first_by_covers Image.path (found.map (·.image.path)) candidate with known | ⟨other, kept, same⟩
  · exact .inl known
  · rcases List.mem_append.mp ((first_by_sublist _ _).subset kept) with victim | filtered
    · exact .inr (.inl ⟨other, Option.mem_toList.mp victim, same⟩)
    · exact .inr (.inr ⟨other, kept, same, (List.mem_filter.mp filtered).2⟩)

/-- The victim is the first to be asked about, and nothing after it has its path. -/
theorem candidates_from_victim {victim : Image} (here : log.victim? = some victim)
    (new : victim.path ∉ found.map (·.image.path)) :
    ∃ rest, log.otherCandidates found = victim :: rest ∧ victim.path ∉ rest.map (·.path) := by
  refine ⟨firstBy Image.path (victim.path :: found.map (·.image.path))
    (log.images.filter (·.fromUnofficialSource)), ?_, ?_⟩
  · unfold otherCandidates firstByPath
    rw [here, Option.toList_some, List.singleton_append, firstBy, if_neg]
    simpa using new
  · intro again
    obtain ⟨other, kept, same⟩ := List.mem_map.mp again
    exact (mem_first_by_split.mp kept).1 (same ▸ List.mem_cons_self)

theorem potential_distinct (owner : Path → StateM σ Resolution) (log : CrashLog) (start : σ) :
    (((log.potentialSuspects owner).run start).1.map (·.image.path)).Nodup := by
  rw [run_potential, List.map_append, List.nodup_append]
  have candidates : ((log.otherCandidates ((log.suspects owner).run start).1).map (·.path)).Nodup :=
    first_by_distinct _ _
  refine ⟨suspects_distinct owner log start, (resolved_paths owner _ _).nodup candidates, ?_⟩
  intro path old other new same
  obtain ⟨image, candidate, rfl⟩ := List.mem_map.mp ((resolved_paths owner _ _).subset new)
  exact candidate_new candidate (same ▸ old)

theorem victim_among_potential_iff (owner : Path → StateM σ Resolution) (start : σ) {victim : Image}
    (here : log.victim? = some victim) :
    victim.path ∈ ((log.potentialSuspects owner).run start).1.map (·.image.path) ↔
      Suspect.isSystem ⟨victim, log.afterSuspects owner start victim.path⟩ = false := by
  have new := suspects_no_victim owner log start victim here
  obtain ⟨rest, candidates, last⟩ := candidates_from_victim here new
  rw [run_potential, candidates, run_resolve_cons, List.map_append, List.mem_append]
  simp only [new, false_or]
  unfold afterSuspects
  cases Suspect.isSystem ⟨victim, ((owner victim.path).run ((log.suspects owner).run start).2).1⟩ with
  | false => simp
  | true =>
    simp only [if_true, Bool.true_eq_false, iff_false]
    exact fun member => last ((resolved_paths owner _ _).subset member)

theorem potential_suspects_of_log (owner : Path → StateM σ Resolution) (log : CrashLog) (start : σ) :
    PotentialSuspects log (log.afterSuspects owner start) ((log.suspects owner).run start).1
      ((log.potentialSuspects owner).run start).1 where
  distinct := potential_distinct owner log start
  suspectsFirst := by
    rw [run_potential, List.map_append]
    exact List.prefix_append _ _
  victim := fun _ here => (victim_among_potential_iff owner start here).mpr
  unofficial := by
    intro image listed unofficial
    constructor
    · rintro member ⟨victim, here, same, system⟩
      rw [← same, victim_among_potential_iff owner start here, system] at member
      cases member
    · intro kept
      rcases unofficial_candidate listed unofficial with found | ⟨victim, here, same⟩ | ⟨other, asked, same, marked⟩
      · rw [run_potential, List.map_append]
        exact List.mem_append_left _ found
      · rw [← same, victim_among_potential_iff owner start here]
        exact Bool.eq_false_iff.mpr fun system => kept ⟨victim, here, same, system⟩
      · rw [run_potential, List.map_append, ← same]
        exact List.mem_append_right _ (unofficial_resolved owner _ asked marked)

/-- The system's library is on top of the stack, and another row has its path. -/
def replacedReport : Text :=
  ["Process: App [7]\n", "Date/Time: Jan  2 03:04:05\n", "\n", "Thread 0 Crashed:\n",
    "0 Foo  0x1010 0x1000 + 16\n", "\n", "Binary Images:\n", "0x1000 - 0x10ff Foo arm64 <aa> /usr/lib/foo\n",
    "0x2000 - 0x20ff +Foo arm64 <bb> /usr/lib/foo\n"].flatMap String.toList

theorem unofficial_image_lost :
    let log := (Reading.run ⟨.ofDisk (stackDisk replacedReport), none, 2024⟩ (ofPath stackPath)).2.log
    let resolve := Resolver.resolve (m := Id) fun _ => pure (.ok none)
    let all := ((log.potentialSuspects (m := StateM Resolver) resolve).run ⟨usrRules, []⟩).1
    log.loaded.isSome = true ∧
      ∃ image ∈ log.images, image.fromUnofficialSource = true ∧ image.path ∉ all.map (·.image.path) := by
  decide +kernel

end CrashLog
end CrashTriage
