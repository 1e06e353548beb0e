import CrashTriage.Proofs.Log.LogStates
import CrashTriage.Proofs.Package.ResolverCache
import CrashTriage.Proofs.Script.EvaluatedChain
import CrashTriage.Proofs.Symbol.ImageOrder
import Mathlib.Logic.Relation

/-
The suspects of a crash, told from the frames of the crashed stack. A frame adds the image that owns it
when no frame above it has an owner with the same path, the path is not the victim's and the image is not
the system's; frames without an owner add nothing, and the frames below them are looked at all the same.
-/
namespace CrashTriage

namespace CrashLog

open Evaluation

variable {σ : Type}

section Answers

variable (owner : Path → StateM σ Resolution) (paths : List Path)

/-- The states that a resolver comes to while it is asked for some of the paths. -/
def ComesTo : σ → σ → Prop :=
  Relation.ReflTransGen fun s t => ∃ path ∈ paths, ((owner path).run s).2 = t

/-- Whatever was asked before, a path has its one answer. -/
def AnswersByPath (start : σ) (answer : Path → Resolution) : Prop :=
  ∀ s, ComesTo owner paths start s → ∀ path ∈ paths, ((owner path).run s).1 = answer path

end Answers

def crashedFrames (log : CrashLog) : List Frame := (log.crashedThread?.map (·.frames)).getD []

/-- The image that owns the frame so many below the top of the crashed stack. -/
def stackOwner? (log : CrashLog) (n : Nat) : Option Image :=
  log.crashedFrames[n]?.bind fun frame => Image.owner? log.images frame.address

/-- The suspect that a frame adds. -/
structure SuspectAt (log : CrashLog) (answer : Path → Resolution) (n : Nat) (s : Suspect) : Prop where
  owner : log.stackOwner? n = some s.image
  first : ∀ k < n, ∀ image, log.stackOwner? k = some image → image.path ≠ s.image.path
  notVictim : ∀ victim, log.victim? = some victim → victim.path ≠ s.image.path
  foreign : ¬ (answer s.image.path = .apple ∧ s.image.fromUnofficialSource = false)
  answered : s.resolution = answer s.image.path

/-- `found` is what the frames add, in the order of the stack. -/
structure SuspectsOfStack (log : CrashLog) (answer : Path → Resolution) (found : List Suspect) : Prop where
  exactly : ∃ positions : List Nat, positions.Pairwise (· < ·) ∧
    List.Forall₂ (SuspectAt log answer) positions found ∧
    ∀ n s, SuspectAt log answer n s → n ∈ positions
  lowest : ∀ s ∈ found, ∃ frame ∈ log.crashedFrames, Image.Least log.images frame.address s.image
  distinct : (found.map (·.image.path)).Nodup
  noVictim : ∀ victim, log.victim? = some victim → victim.path ∉ found.map (·.image.path)
  noSystem : ∀ s ∈ found, s.isSystem = false
  everyFrame : ∀ n image, log.stackOwner? n = some image →
    image.path ∈ found.map (·.image.path) ∨
      (∃ victim, log.victim? = some victim ∧ victim.path = image.path) ∨
      ∃ k ≤ n, ∃ first, log.stackOwner? k = some first ∧ first.path = image.path ∧
        answer first.path = .apple ∧ first.fromUnofficialSource = false

variable {owner : Path → StateM σ Resolution} {paths : List Path} {start s : σ}
variable {answer : Path → Resolution} {log : CrashLog} {images : List Image} {image : Image} {n : Nat}

theorem foreign_iff (s : Suspect) :
    (!s.isSystem) = true ↔ ¬ (s.resolution = .apple ∧ s.image.fromUnofficialSource = false) := by
  simp [Suspect.isSystem, imp_iff_not_or]

theorem run_resolve_cons (owner : Path → StateM σ Resolution) (image : Image) (rest : List Image) (s : σ) :
    (resolveAll owner (image :: rest)).run s =
      let asked := (owner image.path).run s
      let others := (resolveAll owner rest).run asked.2
      (if Suspect.isSystem ⟨image, asked.1⟩ then others.1 else ⟨image, asked.1⟩ :: others.1, others.2) := rfl

theorem answers_after (byPath : AnswersByPath owner paths s answer) {path : Path} (asked : path ∈ paths) :
    AnswersByPath owner paths ((owner path).run s).2 answer :=
  fun t comes => byPath t (.head ⟨path, asked, rfl⟩ comes)

theorem resolve_by_path (byPath : AnswersByPath owner paths s answer)
    (among : ∀ image ∈ images, image.path ∈ paths) :
    ((resolveAll owner images).run s).1 =
      (images.map fun image => ⟨image, answer image.path⟩).filter (!·.isSystem) := by
  induction images generalizing s with
  | nil => rfl
  | cons image rest ih =>
    rw [List.forall_mem_cons] at among
    have here := byPath s .refl image.path among.1
    have others := ih (answers_after byPath among.1) among.2
    rw [run_resolve_cons]
    simp only [here, others, List.map_cons, List.filter_cons]
    cases Suspect.isSystem ⟨image, answer image.path⟩ <;> rfl

theorem resolved_images (owner : Path → StateM σ Resolution) (images : List Image) (s : σ) :
    (((resolveAll owner images).run s).1.map (·.image)).Sublist images := by
  induction images generalizing s with
  | nil => exact .slnil
  | cons image rest ih =>
    rw [run_resolve_cons]
    dsimp only
    split
    · exact (ih _).cons image
    · exact (ih _).cons_cons image

theorem resolved_paths (owner : Path → StateM σ Resolution) (images : List Image) (s : σ) :
    (((resolveAll owner images).run s).1.map (·.image.path)).Sublist (images.map (·.path)) := by
  have kept := (resolved_images owner images s).map Image.path
  rw [List.map_map] at kept
  exact kept

theorem resolved_foreign (owner : Path → StateM σ Resolution) (images : List Image) (s : σ) :
    ∀ suspect ∈ ((resolveAll owner images).run s).1, suspect.isSystem = false := by
  induction images generalizing s with
  | nil => intro suspect member; cases member
  | cons image rest ih =>
    rw [run_resolve_cons]
    dsimp only
    split
    · exact ih _
    · rename_i foreign
      intro suspect member
      rcases List.mem_cons.mp member with rfl | later
      · simpa using foreign
      · exact ih _ suspect later

theorem victim_on_top (log : CrashLog) : log.victim? = log.stackOwner? 0 := by
  unfold victim? stackOwner? crashedFrames
  cases log.crashedThread? with
  | none => rfl
  | some thread =>
    rw [Option.map_some, Option.getD_some, ← List.head?_eq_getElem?]
    rfl

/-- The owners of the frames with the numbers of these. -/
def stackOwners (log : CrashLog) : List (Image × Nat) :=
  log.crashedFrames.zipIdx.filterMap fun (frame, n) =>
    (Image.owner? log.images frame.address).map fun image => (image, n)

theorem mem_stack_owners : (image, n) ∈ log.stackOwners ↔ log.stackOwner? n = some image := by
  simp only [stackOwners, stackOwner?, List.mem_filterMap, Option.map_eq_some_iff, Prod.mk.injEq,
    Option.bind_eq_some_iff, Prod.exists, List.mem_zipIdx_iff_getElem?]
  constructor
  · rintro ⟨frame, _, here, _, owner, rfl, rfl⟩
    exact ⟨frame, here, owner⟩
  · rintro ⟨frame, here, owner⟩
    exact ⟨frame, n, here, image, owner, rfl, rfl⟩

theorem stack_owners_ascend (log : CrashLog) : log.stackOwners.Pairwise fun a b => a.2 < b.2 := by
  refine (Numbered.ascending log.crashedFrames 0).filterMap _ fun a b less x fromA y fromB => ?_
  obtain ⟨_, _, rfl⟩ := Option.map_eq_some_iff.mp fromA
  obtain ⟨_, _, rfl⟩ := Option.map_eq_some_iff.mp fromB
  exact less

theorem stack_images_numbered (log : CrashLog) :
    log.stackImages =
      (firstBy (fun x => x.1.path) (log.victim?.map (·.path)).toList log.stackOwners).map (·.1) := by
  have owners : log.stackOwners.map (·.1) =
      log.crashedFrames.filterMap fun frame => Image.owner? log.images frame.address := by
    calc log.stackOwners.map (·.1)
        = log.crashedFrames.zipIdx.filterMap fun x => Image.owner? log.images x.1.address := by
          simp [stackOwners, List.map_filterMap, Function.comp_def]
      _ = (log.crashedFrames.zipIdx.map (·.1)).filterMap fun frame =>
            Image.owner? log.images frame.address := by rw [List.filterMap_map]; rfl
      _ = log.crashedFrames.filterMap fun frame => Image.owner? log.images frame.address := by
          rw [List.zipIdx_map_fst]
  have samePath : ∀ x : Image × Nat, Image.path (Prod.fst x) = x.1.path := fun _ => rfl
  rw [← first_by_map samePath, owners]
  unfold stackImages crashedFrames
  cases log.crashedThread? <;> rfl

theorem stack_images_listed : ∀ image ∈ log.stackImages, image ∈ log.images := by
  intro image member
  rw [stack_images_numbered] at member
  obtain ⟨⟨_, n⟩, kept, rfl⟩ := List.mem_map.mp member
  have there := mem_stack_owners.mp ((first_by_sublist _ _).subset kept)
  obtain ⟨frame, _, owner⟩ := Option.bind_eq_some_iff.mp there
  exact (Image.owner_least owner).listed

/-- The owners that are left, with the numbers of their frames. -/
def blamed (log : CrashLog) (answer : Path → Resolution) : List (Image × Nat) :=
  (firstBy (fun x => x.1.path) (log.victim?.map (·.path)).toList log.stackOwners).filter fun x =>
    !Suspect.isSystem ⟨x.1, answer x.1.path⟩

theorem mem_blamed :
    (image, n) ∈ log.blamed answer ↔ SuspectAt log answer n ⟨image, answer image.path⟩ := by
  have victim : image.path ∉ (log.victim?.map (·.path)).toList ↔
      ∀ victim, log.victim? = some victim → victim.path ≠ image.path := by
    cases log.victim? <;> simp [eq_comm]
  have earlier : (∀ x ∈ log.stackOwners, x.2 < n → x.1.path ≠ image.path) ↔
      ∀ k < n, ∀ other, log.stackOwner? k = some other → other.path ≠ image.path := by
    constructor
    · intro first k less other there
      exact first (other, k) (mem_stack_owners.mpr there) less
    · intro first x member less
      exact first x.2 less x.1 (mem_stack_owners.mp member)
  rw [blamed, List.mem_filter, mem_first_by log.stack_owners_ascend, mem_stack_owners, victim, earlier,
    foreign_iff]
  constructor
  · rintro ⟨⟨owner, notVictim, first⟩, foreign⟩
    exact ⟨owner, first, notVictim, foreign, rfl⟩
  · rintro ⟨owner, first, notVictim, foreign, _⟩
    exact ⟨⟨owner, notVictim, first⟩, foreign⟩

theorem blamed_ascend (log : CrashLog) (answer : Path → Resolution) :
    (log.blamed answer).Pairwise fun a b => a.2 < b.2 :=
  (log.stack_owners_ascend.sublist (first_by_sublist _ _)).filter _

theorem suspects_blamed (byPath : AnswersByPath owner (log.images.map (·.path)) s answer) :
    ((log.suspects owner).run s).1 = (log.blamed answer).map fun x => ⟨x.1, answer x.1.path⟩ := by
  have among : ∀ image ∈ log.stackImages, image.path ∈ log.images.map (·.path) :=
    fun image member => List.mem_map_of_mem (stack_images_listed image member)
  rw [suspects, resolve_by_path byPath among, stack_images_numbered, blamed, List.map_map, List.filter_map]
  rfl

theorem suspects_exactly (byPath : AnswersByPath owner (log.images.map (·.path)) s answer) :
    ∃ positions : List Nat, positions.Pairwise (· < ·) ∧
      List.Forall₂ (SuspectAt log answer) positions ((log.suspects owner).run s).1 ∧
      ∀ n suspect, SuspectAt log answer n suspect → n ∈ positions := by
  refine ⟨(log.blamed answer).map (·.2), List.pairwise_map.mpr (blamed_ascend log answer), ?_, ?_⟩
  · rw [suspects_blamed byPath, List.forall₂_map_left_iff, List.forall₂_map_right_iff, List.forall₂_same]
    exact fun x member => mem_blamed.mp member
  · rintro n ⟨image, resolution⟩ here
    obtain rfl : resolution = answer image.path := here.answered
    exact List.mem_map.mpr ⟨(image, n), mem_blamed.mpr here, rfl⟩

theorem suspects_distinct (owner : Path → StateM σ Resolution) (log : CrashLog) (s : σ) :
    (((log.suspects owner).run s).1.map (·.image.path)).Nodup := by
  refine (resolved_paths owner log.stackImages s).nodup ?_
  rw [stack_images_numbered, List.map_map]
  exact first_by_distinct _ _

theorem suspects_no_victim (owner : Path → StateM σ Resolution) (log : CrashLog) (s : σ)
    (victim : Image) (here : log.victim? = some victim) :
    victim.path ∉ ((log.suspects owner).run s).1.map (·.image.path) := by
  intro member
  obtain ⟨suspect, there, same⟩ := List.mem_map.mp member
  have listed := (resolved_images owner log.stackImages s).subset (List.mem_map_of_mem there)
  rw [stack_images_numbered, here] at listed
  obtain ⟨x, kept, image⟩ := List.mem_map.mp listed
  have new := (mem_first_by_split.mp kept).1
  rw [image, same] at new
  simp at new

theorem every_frame {found : List Suspect}
    (exactly : ∃ positions : List Nat, positions.Pairwise (· < ·) ∧
      List.Forall₂ (SuspectAt log answer) positions found ∧
      ∀ n suspect, SuspectAt log answer n suspect → n ∈ positions)
    (here : log.stackOwner? n = some image) :
    image.path ∈ found.map (·.image.path) ∨
      (∃ victim, log.victim? = some victim ∧ victim.path = image.path) ∨
      ∃ k ≤ n, ∃ first, log.stackOwner? k = some first ∧ first.path = image.path ∧
        answer first.path = .apple ∧ first.fromUnofficialSource = false := by
  obtain ⟨positions, _, each, all⟩ := exactly
  -- The highest frame whose owner has the path decides.
  induction n using Nat.strongRecOn generalizing image with
  | ind n ih =>
    by_cases above : ∃ k < n, ∃ other, log.stackOwner? k = some other ∧ other.path = image.path
    · obtain ⟨k, less, other, there, same⟩ := above
      have earlier := ih k less there
      rw [same] at earlier
      rcases earlier with listed | victim | ⟨j, bound, first⟩
      · exact .inl listed
      · exact .inr (.inl victim)
      · exact .inr (.inr ⟨j, by omega, first⟩)
    · by_cases victim : ∃ victim, log.victim? = some victim ∧ victim.path = image.path
      · exact .inr (.inl victim)
      · by_cases system : answer image.path = .apple ∧ image.fromUnofficialSource = false
        · exact .inr (.inr ⟨n, Nat.le_refl n, image, here, rfl, system⟩)
        · left
          have suspect : SuspectAt log answer n ⟨image, answer image.path⟩ := by
            refine ⟨here, ?_, ?_, system, rfl⟩
            · intro k less other there same
              exact above ⟨k, less, other, there, same⟩
            · intro v isVictim same
              exact victim ⟨v, isVictim, same⟩
          obtain ⟨s, member, there⟩ := Readings.mem_of_read each.flip (all n _ suspect)
          have same : image = s.image := Option.some.inj (here.symm.trans there.owner)
          exact List.mem_map.mpr ⟨s, member, by rw [same]⟩

theorem suspects_of_stack (log : CrashLog)
    (byPath : AnswersByPath owner (log.images.map (·.path)) start answer) :
    SuspectsOfStack log answer ((log.suspects owner).run start).1 where
  exactly := suspects_exactly byPath
  lowest := by
    intro suspect member
    obtain ⟨positions, _, each, _⟩ := suspects_exactly byPath
    obtain ⟨n, _, there⟩ := Readings.mem_of_read each member
    obtain ⟨frame, here, owner⟩ := Option.bind_eq_some_iff.mp there.owner
    exact ⟨frame, List.mem_of_getElem? here, Image.owner_least owner⟩
  distinct := suspects_distinct owner log start
  noVictim := suspects_no_victim owner log start
  noSystem := resolved_foreign owner log.stackImages start
  everyFrame := fun _ _ => every_frame (suspects_exactly byPath)

section Resolvers

variable {rules : OwnerRules} {database : Path → Option Package} {r : Resolver} {seen : List Path}

/-- Paths that spell the same components are looked up alike. -/
def SpelledAlike (rules : OwnerRules) (database : Path → Option Package) (paths : List Path) : Prop :=
  ∀ p ∈ paths, ∀ q ∈ paths, Path.same p q = true →
    Resolver.lookUp rules database p = Resolver.lookUp rules database q

theorem first_spelling_alike (alike : SpelledAlike rules database paths) (among : ∀ p ∈ seen, p ∈ paths)
    {path : Path} (asked : path ∈ paths) :
    Resolver.lookUp rules database (Resolver.firstSpelling seen path) =
      Resolver.lookUp rules database path := by
  unfold Resolver.firstSpelling
  cases found : seen.find? fun q => Path.same q path with
  | none => rfl
  | some spelling =>
    have same := List.find?_some found
    exact alike spelling (among spelling (List.mem_of_find?_eq_some found)) path asked same

/-- A resolver answers by path where its database does not fail and every path has one spelling. -/
theorem resolver_answers_by_path (alike : SpelledAlike rules database paths) :
    AnswersByPath (σ := Resolver) (Resolver.resolve fun p => pure (.ok (database p))) paths ⟨rules, []⟩
      (Resolver.lookUp rules database) := by
  intro r comes
  have kept : r.rules = rules ∧ ∃ seen, (∀ p ∈ seen, p ∈ paths) ∧ Resolver.Keeps database seen r := by
    induction comes with
    | refl => exact ⟨rfl, [], by simp, Resolver.new_keeps rules database⟩
    | tail _ asked ih =>
      obtain ⟨path, here, rfl⟩ := asked
      obtain ⟨sameRules, seen, among, keeps⟩ := ih
      obtain ⟨later, answered, kept, still⟩ := Resolver.resolve_step keeps path
      have left : ((Resolver.resolve (m := Id) (fun p => pure (.ok (database p))) path).run _).2 = later :=
        congrArg Prod.snd answered
      rw [left]
      refine ⟨kept.trans sameRules, seen ++ [path], ?_, still⟩
      intro p member
      rcases List.mem_append.mp member with old | new
      · exact among p old
      · exact List.mem_singleton.mp new ▸ here
  intro path here
  obtain ⟨rfl, seen, among, keeps⟩ := kept
  obtain ⟨later, answered, _, _⟩ := Resolver.resolve_step keeps path
  exact (congrArg Prod.fst answered).trans (first_spelling_alike alike among here)

end Resolvers

/-- The third frame has no owner, two images hold the fourth, and two frames are on paths that stand
above them. -/
def deepReport : Text :=
  ["Process: App [7]\n", "Date/Time: Jan  2 03:04:05\n", "\n", "Thread 0 Crashed:\n", "0 App  0x1010 f\n",
    "1 x  0x2010 f\n", "2 ?  0x9010 f\n", "3 B  0x4010 f\n", "4 App  0x1020 f\n", "5 A  0x4020 f\n",
    "6 Tweak  0x3010 f\n", "7 Hook  0x5010 f\n", "\n", "Binary Images:\n", "0x1000 - 0x1fff +App /App\n",
    "0x2000 - 0x2fff x /usr/lib/x\n", "0x3000 - 0x3fff +Tweak /Library/Tweak\n", "0x4000 - 0x4fff B /B\n",
    "0x4000 - 0x4fff A /A\n", "0x5000 - 0x5fff +Hook /usr/lib/hook\n"].flatMap String.toList

def deepLog : CrashLog :=
  (Reading.run ⟨.ofDisk (stackDisk deepReport), none, 2024⟩ (ofPath stackPath)).2.log

def tweakPackage : Package := .named "tweak".toList

def tweakOwner (path : Path) : Option Package :=
  if path = "/Library/Tweak".toList then some tweakPackage else none

def usrRules : OwnerRules := ⟨["/usr/".toList], []⟩

theorem suspects_of_stack_of_deep_log :
    let resolve := Resolver.resolve (m := Id) fun p => pure (.ok (tweakOwner p))
    let answer := Resolver.lookUp usrRules tweakOwner
    AnswersByPath (σ := Resolver) resolve (deepLog.images.map (·.path)) ⟨usrRules, []⟩ answer ∧
      SuspectsOfStack deepLog answer ((deepLog.suspects (m := StateM Resolver) resolve).run ⟨usrRules, []⟩).1 ∧
      ((deepLog.suspects (m := StateM Resolver) resolve).run ⟨usrRules, []⟩).1.map
          (fun s => (s.image.path, s.resolution)) =
        [("/A".toList, .unknown), ("/Library/Tweak".toList, .package tweakPackage),
          ("/usr/lib/hook".toList, .apple)] := by
  intro resolve answer
  have alike : SpelledAlike usrRules tweakOwner (deepLog.images.map (·.path)) := by
    unfold SpelledAlike
    decide +kernel
  have byPath := resolver_answers_by_path alike
  exact ⟨byPath, suspects_of_stack deepLog byPath, by decide +kernel⟩

end CrashLog
end CrashTriage
