import CrashTriage.Proofs.Helper.DirectChildren
import CrashTriage.Proofs.HostRuns

/-
What a helper process touches. Its program is started only with direct children of the allowed
directories, by whatever use of the helper and whatever was used before; a request for another path is
answered with the first such path.
-/
namespace CrashTriage

open Host AllowList

variable {h : Host} {r : HelperRequest}

namespace Draft

theorem fill_quiet (draft : Draft) (contents : Bytes) (mode : Option Nat) : Quiet (draft.fill contents mode) := by
  unfold fill
  refine quiet_bind (quiet_failing_as (quiet_step _)) fun _ => ?_
  cases mode with
  | none => exact quiet_failing_as (quiet_step _)
  | some mode => exact quiet_bind (quiet_failing_as (quiet_step _)) fun _ => quiet_failing_as (quiet_step _)

theorem discard_quiet {ε α : Type} (draft : Draft) (e : ε) : Quiet (do draft.discard; throw e : HostM ε α) :=
  quiet_bind (quiet_change _) fun _ => quiet_throw e

theorem prepare_quiet (directory : Path) (contents : Bytes) (mode : Option Nat) :
    Quiet (prepare directory contents mode) := by
  unfold prepare
  refine quiet_bind quiet_get fun _ => quiet_bind (quiet_failing_as (quiet_step _)) fun place => ?_
  exact quiet_handled (fill_quiet _ contents mode) (fun _ => quiet_pure _) (discard_quiet _)

theorem persist_quiet (draft : Draft) (path : Path) : Quiet (draft.persist path) :=
  quiet_handled (quiet_step _) quiet_pure fun _ => draft.discard_quiet _

theorem keep_quiet (draft : Draft) : Quiet draft.keep :=
  quiet_handled (quiet_step _) quiet_pure fun _ => draft.discard_quiet _

theorem kept_quiet (directory : Path) (contents : Bytes) (mode : Option Nat) :
    Quiet (do let draft ← prepare directory contents mode; draft.keep; pure draft : HostM DraftError Draft) :=
  quiet_bind (prepare_quiet directory contents mode) fun draft =>
    quiet_bind draft.keep_quiet fun _ => quiet_pure draft

end Draft

namespace HelperProcess

variable (p : HelperProcess)

/-- How a request is answered, with the programs started before and after. -/
inductive Served (r : HelperRequest) (before : List (Path × HelperRequest)) :
    Except HelperError Unit → List (Path × HelperRequest) → Prop
  | refused {path : Path} (offends : FirstOffending p.allow.roots r.paths path) :
    Served r before (.error (.notAllowed path)) before
  | unstarted {cause : OsError} (inside : ∀ path ∈ r.paths, DirectChild p.allow.roots path) :
    Served r before (.error (.spawn p.program cause)) before
  | succeeded (inside : ∀ path ∈ r.paths, DirectChild p.allow.roots path) :
    Served r before (.ok ()) ((p.program, r) :: before)
  | failed {status : ExitStatus} (inside : ∀ path ∈ r.paths, DirectChild p.allow.roots path)
    (unsuccessful : status.isSuccess = false) :
    Served r before (.error (.failed r.written status.message)) ((p.program, r) :: before)

theorem serve_served (r : HelperRequest) (h : Host) :
    Served p r h.started ((p.serve r).run h).1 ((p.serve r).run h).2.started ∧
      ((p.serve r).run h).2.asked = h.asked := by
  unfold serve
  cases refused : p.allow.firstRefused? r.paths with
  | some path => exact ⟨.refused (first_refused_some.mp refused), rfl⟩
  | none =>
    have inside := first_refused_none.mp refused
    dsimp only
    rw [Runs.bind_answered (Runs.run_get h)]
    cases p.programFor r h with
    | error cause => exact ⟨.unstarted inside, rfl⟩
    | ok program =>
      have started : (start p.program program r).run h = (.ok (program.status r h.disk), _) := rfl
      dsimp only
      rw [Runs.bind_answered started]
      cases success : (program.status r h.disk).isSuccess with
      | true => exact ⟨.succeeded inside, rfl⟩
      | false => exact ⟨.failed inside success, rfl⟩

theorem ask_served (r : HelperRequest) (h : Host) :
    Served p r h.started ((ask p.serve r).run h).1 ((ask p.serve r).run h).2.started ∧
      ((ask p.serve r).run h).2.asked = r :: h.asked :=
  p.serve_served r { h with asked := r :: h.asked }

end HelperProcess

/-- What a helper is used for: a request of its own, or a file that is replaced or deleted. -/
inductive HelperUse where
  | request (r : HelperRequest)
  | replace (path : Path) (contents : Bytes) (temporary : Path)
  | delete (path : Path)
deriving DecidableEq, Repr

namespace HelperUse

def run (p : HelperProcess) : HelperUse → HostM FileError Unit
  | request r => failingAs .helper (ask p.serve r)
  | replace path contents temporary => FileUpdate.replace path contents temporary (some p.serve)
  | delete path => FileUpdate.delete path (some p.serve)

/-- A file is changed without the helper where the user may change it. -/
def changesFile : HelperUse → Bool
  | request _ => false
  | replace _ _ _ => true
  | delete _ => true

/-- The request that a use may make. -/
def Makes : HelperUse → HelperRequest → Prop
  | request own, r => r = own
  | replace path _ _, r => ∃ draft, r = .move draft path
  | delete path, r => r = .delete path

/-- What a use comes to: it gets on without the helper, or makes one request, whose answer is its own. -/
inductive Outcome (p : HelperProcess) (use : HelperUse) (h : Host) : Except FileError Unit → Host → Prop
  | unasked {answer : Except FileError Unit} {later : Host} (alone : use.changesFile = true)
    (asked : later.asked = h.asked) (started : later.started = h.started) : Outcome p use h answer later
  | asked {r : HelperRequest} {answer : Except HelperError Unit} {later : Host} (made : use.Makes r)
    (asked : later.asked = r :: h.asked) (served : p.Served r h.started answer later.started) :
    Outcome p use h (answer.mapError .helper) later

variable {p : HelperProcess} {use : HelperUse}

/-- The run of a use, or the rest of one, comes to an outcome of the use. -/
def ComesOut (p : HelperProcess) (use : HelperUse) (run : HostM FileError Unit) : Prop :=
  ∀ h, Outcome p use h (run.run h).1 (run.run h).2

theorem comes_out_alone {run : HostM FileError Unit} (alone : use.changesFile = true) (quiet : Quiet run) :
    ComesOut p use run :=
  fun h => .unasked alone (quiet h).1 (quiet h).2

/-- What goes before asks for nothing, so that the use comes to what the rest comes to. -/
theorem comes_out_bind {α : Type} {first : HostM FileError α} {next : α → HostM FileError Unit}
    (alone : use.changesFile = true) (quiet : Quiet first) (rest : ∀ a, ComesOut p use (next a)) :
    ComesOut p use (first >>= next) := by
  intro h
  obtain ⟨asked, started⟩ := quiet h
  cases ran : first.run h with
  | mk answer between =>
    rw [ran] at asked started
    cases answer with
    | error e =>
      rw [Runs.bind_failed ran]
      exact .unasked alone asked started
    | ok a =>
      rw [Runs.bind_answered ran]
      have after := rest a between
      generalize (next a).run between = result at after
      obtain ⟨answer, later⟩ := result
      -- the records of requests and starts are at `between` as the use found them
      cases after with
      | unasked _ asked' started' => exact .unasked alone (asked'.trans asked) (started'.trans started)
      | asked made asked' served =>
        rw [asked] at asked'
        rw [started] at served
        exact .asked made asked' served

/-- A request is made, and then the use has its answer. -/
theorem comes_out_asked {next : Except HelperError Unit → HostM FileError Unit} (made : use.Makes r)
    (quiet : ∀ answer, Quiet (next answer))
    (answers : ∀ answer h, ((next answer).run h).1 = answer.mapError .helper) :
    ComesOut p use (outcome (ask p.serve r) >>= next) := by
  intro h
  rw [run_handled]
  obtain ⟨served, asked⟩ := p.ask_served r h
  generalize (ask p.serve r).run h = result at served asked
  obtain ⟨answer, between⟩ := result
  obtain ⟨keepsAsked, keepsStarted⟩ := quiet answer between
  rw [answers]
  refine .asked made (keepsAsked.trans asked) ?_
  rw [keepsStarted]
  exact served

theorem comes_out_failing (made : use.Makes r) : ComesOut p use (failingAs FileError.helper (ask p.serve r)) := by
  refine comes_out_asked made (fun answer => ?_) fun answer h => ?_
  · cases answer with
    | ok a => exact quiet_pure a
    | error e => exact quiet_throw (FileError.helper e)
  · cases answer <;> rfl

theorem delete_comes_out (path : Path) : ComesOut p (.delete path) (run p (.delete path)) := by
  unfold run FileUpdate.delete
  refine comes_out_bind rfl (quiet_outcome (quiet_step _)) fun removed => ?_
  split
  · exact comes_out_alone rfl (quiet_pure ())
  · exact comes_out_failing rfl
  · exact comes_out_alone rfl (quiet_throw _)

theorem replace_through_comes_out (path : Path) (contents : Bytes) (mode : Option Nat) (temporary : Path) :
    ComesOut p (.replace path contents temporary)
      (FileUpdate.replaceThrough p.serve path contents mode temporary) := by
  unfold FileUpdate.replaceThrough
  refine comes_out_bind rfl (quiet_failing_as (Draft.kept_quiet temporary contents mode)) fun draft => ?_
  refine comes_out_asked ⟨draft.path, rfl⟩ (fun answer => ?_) fun answer h => ?_
  · cases answer with
    | ok a => exact quiet_pure a
    | error e => exact draft.discard_quiet (FileError.helper e)
  · cases answer <;> rfl

theorem replace_comes_out (path : Path) (contents : Bytes) (temporary : Path) :
    ComesOut p (.replace path contents temporary) (run p (.replace path contents temporary)) := by
  unfold run FileUpdate.replace
  refine comes_out_bind rfl quiet_get fun h => ?_
  refine comes_out_bind rfl (quiet_outcome (Draft.prepare_quiet _ _ _)) fun prepared => ?_
  cases prepared with
  | ok draft => exact comes_out_alone rfl (quiet_failing_as (draft.persist_quiet path))
  | error e =>
    dsimp only
    split
    · exact replace_through_comes_out path contents _ temporary
    · exact comes_out_alone rfl (quiet_throw _)

theorem use_comes_out (p : HelperProcess) (use : HelperUse) : ComesOut p use (run p use) := by
  cases use with
  | request r => exact comes_out_failing rfl
  | replace path contents temporary => exact replace_comes_out path contents temporary
  | delete path => exact delete_comes_out path

end HelperUse

namespace HelperProcess

/-- A use of a helper, with the host it found, its answer and the host it left. -/
structure Used where
  use : HelperUse
  found : Host
  answer : Except FileError Unit
  left : Host

/-- Uses one after the other. -/
def useAll (p : HelperProcess) : List HelperUse → Host → List Used
  | [], _ => []
  | use :: uses, h =>
    let (answer, later) := (use.run p).run h
    ⟨use, h, answer, later⟩ :: useAll p uses later

def hostAfter (p : HelperProcess) (uses : List HelperUse) (h : Host) : Host :=
  uses.foldl (fun h use => ((use.run p).run h).2) h

/-- The program of the helper was started, with direct children of the allowed directories. -/
structure StartedInside (p : HelperProcess) (started : Path × HelperRequest) : Prop where
  program : started.1 = p.program
  inside : ∀ path ∈ started.2.paths, DirectChild p.allow.roots path

variable {p : HelperProcess}

theorem served_started {before later : List (Path × HelperRequest)} {answer : Except HelperError Unit}
    (served : Served p r before answer later) : ∀ started ∈ later, started ∈ before ∨ StartedInside p started := by
  intro started member
  cases served with
  | refused _ => exact .inl member
  | unstarted _ => exact .inl member
  | succeeded inside =>
    rcases List.mem_cons.mp member with rfl | earlier
    · exact .inr ⟨rfl, inside⟩
    · exact .inl earlier
  | failed inside _ =>
    rcases List.mem_cons.mp member with rfl | earlier
    · exact .inr ⟨rfl, inside⟩
    · exact .inl earlier

theorem use_started (p : HelperProcess) (use : HelperUse) (h : Host) :
    ∀ started ∈ ((use.run p).run h).2.started, started ∈ h.started ∨ StartedInside p started := by
  have outcome := use.use_comes_out p h
  generalize (use.run p).run h = result at outcome
  obtain ⟨answer, later⟩ := result
  cases outcome with
  | unasked _ _ same => exact fun started member => .inl (same ▸ member)
  | asked _ _ served => exact served_started served

theorem all_started (p : HelperProcess) (uses : List HelperUse) (h : Host) :
    ∀ started ∈ (p.hostAfter uses h).started, started ∈ h.started ∨ StartedInside p started := by
  induction uses generalizing h with
  | nil => exact fun _ => .inl
  | cons use uses ih =>
    intro started member
    rcases ih _ started member with here | inside
    · exact use_started p use h started here
    · exact .inr inside

theorem all_come_out (p : HelperProcess) (uses : List HelperUse) (h : Host) :
    ∀ used ∈ p.useAll uses h, used.use.Outcome p used.found used.answer used.left := by
  induction uses generalizing h with
  | nil => simp [useAll]
  | cons use uses ih =>
    intro used member
    rcases List.mem_cons.mp member with rfl | later
    · exact use.use_comes_out p h
    · exact ih _ used later

/-- A request for a path outside is refused, whatever it was made for. -/
theorem outcome_refused {use : HelperUse} {answer : Except FileError Unit} {later : Host}
    (outcome : use.Outcome p h answer later) (asked : later.asked = r :: h.asked)
    (outside : ¬ ∀ path ∈ r.paths, DirectChild p.allow.roots path) :
    later.started = h.started ∧
      ∃ path, FirstOffending p.allow.roots r.paths path ∧ answer = .error (.helper (.notAllowed path)) := by
  cases outcome with
  | unasked _ same _ =>
    rw [same] at asked
    exact absurd asked.symm (List.cons_ne_self r h.asked)
  | asked _ made served =>
    obtain ⟨rfl, -⟩ := List.cons.inj (made.symm.trans asked)
    generalize later.started = started at served ⊢
    cases served with
    | refused offends => exact ⟨rfl, _, offends, rfl⟩
    | unstarted inside => exact absurd inside outside
    | succeeded inside => exact absurd inside outside
    | failed inside _ => exact absurd inside outside

/-- What a helper is confined to, whatever it is used for. -/
structure Confined (p : HelperProcess) (uses : List HelperUse) (h : Host) : Prop where
  started : ∀ started ∈ (p.hostAfter uses h).started, started ∈ h.started ∨ StartedInside p started
  outcomes : ∀ used ∈ p.useAll uses h, used.use.Outcome p used.found used.answer used.left
  refused : ∀ used ∈ p.useAll uses h, ∀ r, used.left.asked = r :: used.found.asked →
    (¬ ∀ path ∈ r.paths, DirectChild p.allow.roots path) → used.left.started = used.found.started ∧
      ∃ path, FirstOffending p.allow.roots r.paths path ∧ used.answer = .error (.helper (.notAllowed path))

theorem helper_confined (p : HelperProcess) (uses : List HelperUse) (h : Host) : Confined p uses h := by
  have outcomes := all_come_out p uses h
  refine ⟨all_started p uses h, outcomes, fun used member r asked outside => ?_⟩
  exact outcome_refused (outcomes used member) asked outside

/-- The root of all paths is named as offending although it is one below an empty path. -/
theorem root_refused_below_empty_root :
    OneBelow [[]] "/".toList ∧ ¬ OneBelow [[]] "/etc/passwd".toList ∧
      ((HelperUse.request (.copy "/".toList "/etc/passwd".toList)).run ⟨"/bin/true".toList, ⟨[[]]⟩⟩
        (.ofDisk ⟨[], [], true, 0⟩)).1 = .error (.helper (.notAllowed "/".toList)) := by
  refine ⟨⟨by decide, [], by simp, .root, by decide⟩, fun below => ?_, by decide⟩
  obtain ⟨root, allowed, last, parts⟩ := below.below
  rw [List.mem_singleton.mp allowed] at parts
  cases congrArg List.length parts

def helperHost : Host where
  disk := ⟨[([], ⟨.directory, 0o755, 0⟩), (["helper".toList], ⟨.file (.bytes []), 0o755, 0⟩)], [], true, 0⟩
  programs := [(["helper".toList], ⟨fun _ _ => .code 0, fun _ d => d⟩)]
  due := []
  history := []
  asked := []
  started := []

example : (hostAfter ⟨"/helper".toList, ⟨["/logs".toList]⟩⟩
    [.request (.delete "/logs//./a/".toList), .request (.move "/logs/a".toList "/logs/../b".toList)] helperHost).started =
      [("/helper".toList, .delete "/logs//./a/".toList)] := by
  decide +kernel

end HelperProcess
end CrashTriage
