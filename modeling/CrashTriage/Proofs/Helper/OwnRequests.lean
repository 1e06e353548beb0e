import CrashTriage.Proofs.Disk.Listings
import CrashTriage.Proofs.FileReplacement
import CrashTriage.Proofs.Helper.ConfinedHelper

/-
The one request that replacing a file makes. The draft it names lies in the temporary directory made absolute,
while the allow list of a configuration holds the directory as it is written; the two are told apart by their
components, so that a relative directory makes the helper refuse a request of the program itself.
-/
namespace CrashTriage

open Host Disk AllowList

variable {c : Config} {p : HelperProcess} {h later : Host} {path q : Path} {contents : Bytes}

namespace Draft

variable {working : Place}

def Stays (working : Place) (d : Disk) : Prop := d.workingDir = working

theorem fill_stays (draft : Draft) (contents : Bytes) (mode : Option Nat) (here : Stays working h.disk) :
    Yields (Stays working) 0 h (draft.fill contents mode) (Stays working) fun _ => Stays working := by
  refine fill_passes (fun _ => Stays working) 0 here here (fun _ _ => id) (fun _ _ => id) (fun d written => ?_)
    (fun _ new d d' stays set => ?_) mode
  · unfold writeAt at written
    split at written <;> cases written
    exact here
  · unfold setModeAt at set
    split at set <;> cases set
    exact stays

/-- A draft has a temporary name in the directory made absolute. -/
theorem prepare_in (directory : Path) (contents : Bytes) (mode : Option Nat) (here : Stays working h.disk) :
    Yields (Stays working) 0 h (prepare directory contents mode) (Stays working) fun draft d =>
      Stays working d ∧ ∃ n, draft.path = Path.join (h.disk.absolute directory) (temporaryName n) := by
  have create (f : OsError → DraftError) :
      Yields (Stays working) 0 h (failingAs f (step (createTemporary directory))) (Stays working) fun place d =>
        Stays working d ∧ ∃ n, place.getLast?.getD [] = temporaryName n := by
    refine yields_failing_as (yields_step here here fun place d created => ?_)
    obtain ⟨drafted, -⟩ := create_temporary (LooksAs.refl h.disk) created
    obtain ⟨parent, n, named⟩ := drafted.named
    exact ⟨drafted.workingDir.trans here, n, by simp [named]⟩
  unfold prepare
  refine yields_get (yields_bind (create _) fun place between created => ?_)
  obtain ⟨stays, n, named⟩ := created
  refine yields_handled (fill_stays _ contents mode stays) ?_ ?_
  · intro _ later stays
    exact yields_pure ⟨stays, n, by rw [named]⟩
  · intro e later stays
    exact discard_passes stays stays

theorem kept_in (directory : Path) (contents : Bytes) (mode : Option Nat) (here : Stays working h.disk) :
    Yields (Stays working) 0 h (do let draft ← prepare directory contents mode; draft.keep; pure draft)
      (Stays working) fun draft _ => ∃ n, draft.path = Path.join (h.disk.absolute directory) (temporaryName n) := by
  refine yields_bind (prepare_in directory contents mode here) fun draft between ⟨stays, named⟩ => ?_
  exact yields_bind (keep_passes stays stays stays) fun _ _ _ => yields_pure named

end Draft

namespace FileUpdate

open Draft

/-- The request for a draft in the temporary directory. -/
def ownRequest (d : Disk) (temporary path : Path) (n : Nat) : HelperRequest :=
  .move (Path.join (d.absolute temporary) (temporaryName n)) path

/-- What replacing a file comes to: an answer of its own without a request, or what a helper answers to the
request for a draft. -/
inductive Turn (helper : Option Helper) (path temporary : Path) (h : Host) :
    Except FileError Unit → Host → Prop where
  | alone {answer : Except FileError Unit} {later : Host} (own : ∀ problem, answer ≠ .error (.helper problem))
    (unasked : later.asked = h.asked) : Turn helper path temporary h answer later
  | asked {serves : Helper} {answer : Except FileError Unit} {between later : Host} {n : Nat}
    (given : helper = some serves) (before : between.asked = h.asked)
    (answers : answer = ((ask serves (ownRequest h.disk temporary path n)).run between).1.mapError .helper)
    (after : later.asked = ((ask serves (ownRequest h.disk temporary path n)).run between).2.asked) :
    Turn helper path temporary h answer later

variable {temporary : Path} {helper : Option Helper} {mode : Option Nat}

/-- The failure of a draft is no answer of a helper. -/
theorem draft_failure_own {α : Type} {run : HostM DraftError α} {e : FileError}
    (failed : (failingAs (·.toFileError path) run).run h = (.error e, later)) (problem : HelperError) :
    e ≠ .helper problem := by
  unfold failingAs at failed
  rw [run_handled] at failed
  cases answer : (run.run h).1 with
  | ok a =>
    rw [answer] at failed
    cases failed
  | error cause =>
    rw [answer] at failed
    cases failed
    show cause.toFileError path ≠ .helper problem
    unfold DraftError.toFileError
    split <;> nofun

theorem replace_through_turns {serves : Helper} (given : helper = some serves)
    (same : later.disk.workingDir = h.disk.workingDir) (unasked : later.asked = h.asked) :
    Turn helper path temporary h ((replaceThrough serves path contents mode temporary).run later).1
      ((replaceThrough serves path contents mode temporary).run later).2 := by
  unfold replaceThrough
  have quiet := (quiet_failing_as (f := (·.toFileError temporary)) (kept_quiet temporary contents mode) later).1
  obtain ⟨-, named⟩ := yields_failing_as (f := (·.toFileError temporary))
    (kept_in (h := later) temporary contents mode rfl)
  generalize ran : (failingAs (·.toFileError temporary)
    (do let draft ← prepare temporary contents mode; draft.keep; pure draft)).run later = result
    at quiet named
  obtain ⟨answer, between⟩ := result
  cases answer with
  | error e =>
    rw [Runs.bind_failed ran]
    exact .alone (fun problem same => draft_failure_own ran problem (Except.error.inj same)) (quiet.trans unasked)
  | ok draft =>
    obtain ⟨n, named⟩ := named
    have request : HelperRequest.move draft.path path = ownRequest h.disk temporary path n := by
      rw [ownRequest, named, absolute_alike same]
    rw [Runs.bind_answered ran, run_handled, request]
    refine .asked given (quiet.trans unasked) (n := n) ?_ ?_
    all_goals cases ((ask serves (ownRequest h.disk temporary path n)).run between).1 <;> rfl

theorem replace_turns (path : Path) (contents : Bytes) (temporary : Path) (helper : Option Helper) (h : Host) :
    Turn helper path temporary h ((replace path contents temporary helper).run h).1
      ((replace path contents temporary helper).run h).2 := by
  unfold replace
  rw [Runs.bind_answered (Runs.run_get h)]
  dsimp only
  rw [run_handled]
  have unasked := (prepare_quiet ((Path.parent? path).getD ['.']) contents (seenMode h.disk path) h).1
  obtain ⟨-, stays⟩ := prepare_in (h := h) ((Path.parent? path).getD ['.']) contents (seenMode h.disk path) rfl
  rw [← seenMode]
  generalize (prepare ((Path.parent? path).getD ['.']) contents (seenMode h.disk path)).run h = result
    at unasked stays ⊢
  obtain ⟨answer, between⟩ := result
  cases answer with
  | ok draft =>
    have quiet := quiet_failing_as (f := (·.toFileError path)) (draft.persist_quiet path) between
    exact .alone (fun problem same => draft_failure_own (Prod.ext same rfl) problem rfl) (quiet.1.trans unasked)
  | error e =>
    dsimp only
    split
    · cases helper with
      | none =>
        refine .alone (fun problem same => ?_) unasked
        cases same
      | some serves => exact replace_through_turns rfl stays unasked
    · refine .alone (fun problem same => ?_) unasked
      cases same

end FileUpdate

namespace HelperProcess

theorem refused_iff (p : HelperProcess) (r : HelperRequest) (h : Host) (path : Path) :
    ((ask p.serve r).run h).1 = .error (.notAllowed path) ↔ FirstOffending p.allow.roots r.paths path := by
  obtain ⟨served, -⟩ := p.ask_served r h
  generalize (ask p.serve r).run h = result at served ⊢
  obtain ⟨answer, later⟩ := result
  have clash (inside : ∀ path ∈ r.paths, DirectChild p.allow.roots path) :
      ¬ FirstOffending p.allow.roots r.paths path := by
    rintro ⟨front, rest, parts, offends, -⟩
    exact offends (inside path (by simp [parts]))
  generalize later.started = started at served
  cases served with
  | @refused first offends =>
    constructor
    · rintro ⟨⟩
      exact offends
    · intro also
      have same := (first_refused_some.mpr offends).symm.trans (first_refused_some (a := p.allow).mpr also)
      rw [Option.some.inj same]
  | unstarted inside => exact ⟨nofun, fun offends => absurd offends (clash inside)⟩
  | succeeded inside => exact ⟨nofun, fun offends => absurd offends (clash inside)⟩
  | failed inside => exact ⟨nofun, fun offends => absurd offends (clash inside)⟩

end HelperProcess

namespace AllowList

theorem direct_child_of_name {roots : List Path} {root path : Path} {name : Text} (allowed : root ∈ roots)
    (level : .parent ∉ Path.components root) (below : Path.components path = Path.components root ++ [.name name]) :
    DirectChild roots path := by
  refine ⟨⟨by simp [below, level], root, allowed, _, below⟩, fun alone => ?_⟩
  rw [alone, List.singleton_eq_append_iff] at below
  rcases below with ⟨-, ends⟩ | ⟨-, none⟩
  · cases ends
  · cases none

theorem first_offending_of_second {roots : List Path} {first second : Path} (inside : DirectChild roots second) :
    FirstOffending roots [first, second] q ↔ q = first ∧ ¬ DirectChild roots first := by
  constructor
  · rintro ⟨front, rest, parts, offends, before⟩
    rcases front with _ | ⟨other, _ | ⟨third, front⟩⟩
    · obtain ⟨rfl, -⟩ := List.cons.inj parts
      exact ⟨rfl, offends⟩
    · obtain ⟨-, parts⟩ := List.cons.inj parts
      exact absurd ((List.cons.inj parts).1 ▸ inside) offends
    · simp at parts
  · rintro ⟨rfl, offends⟩
    exact ⟨[], [second], rfl, offends, nofun⟩

/-- One level below the log directory or the temporary directory of a configuration. -/
theorem draft_allowed_iff {c : Config} (d : Disk) (n : Nat) (rootLevel : .parent ∉ Path.components c.rootLogDir)
    (tempLevel : .parent ∉ Path.components c.tempDir) :
    DirectChild (ofConfig c).roots (Path.join (d.absolute c.tempDir) (temporaryName n)) ↔
      Path.isAbsolute c.tempDir = true ∨ Path.same (d.absolute c.tempDir) c.rootLogDir = true := by
  have parts := components_of_single (temporary_name_plain n).single (d.absolute c.tempDir)
  rw [← absolute_components_iff d, Path.same, beq_iff_eq]
  constructor
  · rintro ⟨⟨-, root, allowed, last, below⟩, -⟩
    rw [parts] at below
    obtain ⟨same, -⟩ := List.append_inj' below rfl
    rcases List.mem_cons.mp allowed with rfl | temporary
    · exact .inr same
    · rw [List.mem_singleton.mp temporary] at same
      exact .inl same
  · rintro (same | same)
    · exact direct_child_of_name (by simp [ofConfig]) tempLevel (same ▸ parts)
    · exact direct_child_of_name (by simp [ofConfig]) rootLevel (same ▸ parts)

end AllowList

namespace FileUpdate

/-- Replacing a file in the log directory asks for what the configured helper refuses just when the temporary
directory is written as a relative path, and is not the log directory made absolute. -/
theorem own_request_refused_iff {c : Config} {name : Text} (rootLevel : .parent ∉ Path.components c.rootLogDir)
    (tempLevel : .parent ∉ Path.components c.tempDir)
    (inRoot : Path.components path = Path.components c.rootLogDir ++ [.name name]) (contents : Bytes) (h : Host)
    (q : Path) :
    ((replace path contents c.tempDir ((HelperProcess.ofConfig? c).map (·.serve))).run h).1 =
        .error (.helper (.notAllowed q)) ↔
      ((replace path contents c.tempDir ((HelperProcess.ofConfig? c).map (·.serve))).run h).2.asked =
          .move q path :: h.asked ∧
        Path.isAbsolute c.tempDir = false ∧ Path.same (h.disk.absolute c.tempDir) c.rootLogDir = false := by
  have turn := replace_turns path contents c.tempDir ((HelperProcess.ofConfig? c).map (·.serve)) h
  generalize (replace path contents c.tempDir ((HelperProcess.ofConfig? c).map (·.serve))).run h = result at turn ⊢
  obtain ⟨answer, later⟩ := result
  cases turn with
  | alone own unasked =>
    refine ⟨fun refused => absurd refused (own _), fun ⟨asked, _⟩ => ?_⟩
    exact absurd (asked.symm.trans unasked) (List.cons_ne_self _ _)
  | @asked serves _ between _ n given before answers after =>
    obtain ⟨p, configured, rfl⟩ := Option.map_eq_some_iff.mp given
    have allow : p.allow = .ofConfig c := by
      obtain ⟨program, -, rfl⟩ := Option.map_eq_some_iff.mp configured
      rfl
    have child : DirectChild (AllowList.ofConfig c).roots path :=
      direct_child_of_name List.mem_cons_self rootLevel inRoot
    have asked := after.trans ((p.ask_served _ between).2.trans (congrArg _ before))
    have answered (answer : Except HelperError Unit) :
        answer.mapError FileError.helper = .error (.helper (.notAllowed q)) ↔ answer = .error (.notAllowed q) := by
      cases answer <;> simp [Except.mapError]
    rw [answers, answered, HelperProcess.refused_iff, allow, asked, ownRequest, HelperRequest.paths,
      first_offending_of_second child, draft_allowed_iff h.disk n rootLevel tempLevel, not_or, Bool.not_eq_true,
      Bool.not_eq_true]
    refine and_congr_left fun _ => ⟨fun same => same ▸ rfl, fun same => ?_⟩
    exact (HelperRequest.move.inj (List.cons.inj same).1).1.symm

/-- A helper that moves files whatever their permissions. -/
def mover : Program where
  status _ _ := .code 0
  effect
    | .move source target, d => ((rootMove source target d).toOption.map (·.2)).getD d
    | _, d => d

def moverHost : Host where
  disk := ⟨[([], ⟨.directory, 0o755, 0⟩), (["mover".toList], ⟨.file (.bytes []), 0o755, 0⟩),
    (["log".toList], ⟨.directory, 0o555, 0⟩), (["log".toList, "a".toList], ⟨.file (.bytes [1]), 0o644, 0⟩),
    (["tmp".toList], ⟨.directory, 0o755, 0⟩)], [], true, 5⟩
  programs := [(["mover".toList], mover)]
  due := []
  history := []
  asked := []
  started := []

def moverConfig (root temporary : String) : Config :=
  { rootLogDir := root.toList, tempDir := temporary.toList, helper := some "/mover".toList }

/-- The file `a` of the log directory replaced as a configuration has it. -/
def moverRun (root temporary : String) : Except FileError Unit × Host :=
  (replace (root.toList ++ "/a".toList) [2] temporary.toList
    ((HelperProcess.ofConfig? (moverConfig root temporary)).map (·.serve))).run moverHost

theorem own_request_served_from_absolute_directory :
    (moverRun "log" "/tmp/.").1 = .ok () ∧
      (moverRun "log" "/tmp/.").2.asked = [.move "/tmp/./.tmp000000".toList "log/a".toList] ∧
      (moverRun "log" "/tmp/.").2.disk.standing? "/log/a".toList = some ⟨.file (.bytes [2]), 0o644, 6⟩ ∧
      ∀ q, (moverRun "log" "/tmp/.").1 ≠ .error (.helper (.notAllowed q)) := by
  refine ⟨by decide +kernel, by decide +kernel, by decide +kernel, fun q refused => ?_⟩
  have inRoot : Path.components ("log".toList ++ "/a".toList) =
      Path.components (moverConfig "log" "/tmp/.").rootLogDir ++ [.name "a".toList] := by decide
  obtain ⟨-, relative, -⟩ := (own_request_refused_iff (c := moverConfig "log" "/tmp/.") (by decide) (by decide)
    inRoot [2] moverHost q).mp refused
  revert relative
  decide

/-- The same directory written as a relative path is none that the helper may touch. -/
theorem own_request_refused_from_relative_directory :
    .parent ∉ Path.components (moverConfig "/log" "tmp").rootLogDir ∧
      .parent ∉ Path.components (moverConfig "/log" "tmp").tempDir ∧
      Path.parent? "/log/a".toList = some (moverConfig "/log" "tmp").rootLogDir ∧
      moverHost.disk.require ["log".toList] .write = .error .denied ∧
      (moverRun "/log" "tmp").1 = .error (.helper (.notAllowed "/tmp/.tmp000000".toList)) := by
  decide +kernel

end FileUpdate
end CrashTriage
