import CrashTriage.Proofs.FileReplacement
import CrashTriage.Proofs.Log.LogStates
import CrashTriage.Proofs.Symbol.CutFiles

/-
The file of a log before a load and after the symbolication that follows. The text with symbols is what
replaces the file, so that the file keeps the bytes around the symbols as far as they are UTF-8.
-/
namespace CrashTriage
namespace CrashLog

open Symbolication Bytes

variable {σ : Type} {r : Reading} {a : Attempt σ} {log : CrashLog} {l : LoadedLog}
variable {summary : SymbolicationSummary}

theorem of_given {ε ε' α : Type} {failure : ε → ε'} {result : Except ε α} {x : α} {s later : LogState}
    (answered : (LogM.given failure result).run s = (.ok x, later)) : result = .ok x ∧ later = s := by
  cases result with
  | error e => cases answered
  | ok y =>
    cases answered
    exact ⟨rfl, rfl⟩

theorem of_on_host {ε ε' α : Type} {failure : ε → ε'} {run : HostM ε α} {x : α} {s later : LogState}
    (answered : (LogM.onHost failure run).run s = (.ok x, later)) :
    run.run s.host = (.ok x, later.host) := by
  rw [on_host_run] at answered
  obtain ⟨answer, rfl⟩ := Prod.mk.inj answered
  exact Prod.ext (Readings.map_error_ok.mp answer) rfl

theorem text_of_load (loaded : (r.run log).1 = .ok ()) :
    ∃ old l, r.host.disk.read log.path = .ok old ∧ (r.run log).2.log.path = log.path ∧
      (r.run log).2.log.loaded = some l ∧ l.text = toText old := by
  generalize ran : r.run log = result at loaded ⊢
  obtain ⟨_, left⟩ := result
  obtain rfl := loaded
  unfold Reading.run readIn at ran
  rw [Runs.bind_answered (Runs.run_get _)] at ran
  obtain ⟨text, _, answered, ran⟩ := Runs.answered_bind ran
  obtain ⟨readText, rfl⟩ := of_given answered
  obtain ⟨header, _, answered, ran⟩ := Runs.answered_bind ran
  obtain ⟨_, rfl⟩ := of_given answered
  obtain ⟨old, read, rfl⟩ : ∃ old, r.host.disk.read log.path = .ok old ∧ toText old = text :=
    Readings.map_ok.mp readText
  split at ran
  · cases ran
  · cases ran
    exact ⟨old, _, read, rfl, rfl, rfl⟩

theorem written_by_symbolication (loaded : log.loaded = some l)
    (ran : (a.run log).1 = .ok summary) (some_ : summary.resolved ≠ 0) :
    ∃ text, ((run l.text l.images a.source).run a.start).1 = (text, summary) ∧
      (FileUpdate.replace log.path text.toBytes a.temporary a.helper).run a.host =
        (.ok (), (a.run log).2.host) := by
  generalize ended : a.run log = result at ran ⊢
  obtain ⟨_, left⟩ := result
  obtain rfl := ran
  have unsymbolicated : log.symbolicated = false := by
    rw [Bool.eq_false_iff]
    intro symbolicated
    rw [run_of_symbolicated a loaded symbolicated] at ended
    cases ended
    exact some_ rfl
  cases found : ((run l.text l.images a.source).run a.start).1 with
  | mk text summary' =>
    rw [run_after_sources loaded unsymbolicated found] at ended
    split at ended
    · rename_i none
      cases ended
      exact absurd none some_
    · obtain ⟨_, between, kept, same⟩ := Runs.answered_bind ended
      cases same
      refine ⟨text, rfl, ?_⟩
      unfold keepText at kept
      rw [Runs.bind_answered (Runs.run_get _)] at kept
      obtain ⟨_, written, replaced, marked⟩ := Runs.answered_bind kept
      cases marked
      exact of_on_host replaced

/-- A file that was read as a text, and the disk after the text with symbols was written. -/
structure Rewritten (path : Path) (old : Bytes) (images : List Image)
    (source : Image → Option SymbolTable) (cuts : List CutLine) (left : Disk) : Prop where
  cut : CutFile images source (toText old) old cuts
  written : ∃ node, left.standing? path = some node ∧
    node.entry = .file (.bytes (cuts.map (·.after)).flatten)
  kept : (cuts.map (·.after)).flatten = (cuts.map (·.kept)).flatten ↔ ∀ c ∈ cuts, IsUtf8 c.front
  fronts : IsUtf8 old → ∀ c ∈ cuts, IsUtf8 c.front

theorem rewritten_file (loaded : (r.run log).1 = .ok ())
    (ran : (a.run (r.run log).2.log).1 = .ok summary) (some_ : summary.resolved ≠ 0)
    (tree : a.host.disk.Tree) (law : ∀ serves ∈ a.helper, MovesWholly serves) :
    ∃ old l table cuts, r.host.disk.read log.path = .ok old ∧
      (r.run log).2.log.loaded = some l ∧ AnswersByKey l.images table ∧
      (∀ image t, table image = some t → CanAnswer a.source (some t)) ∧
      summary = (Id.run (run (toText old) l.images table)).2 ∧
      Rewritten log.path old l.images table cuts (a.run (r.run log).2.log).2.host.disk := by
  obtain ⟨old, l, read, path, known, text⟩ := text_of_load loaded
  obtain ⟨new, found, replaced⟩ := written_by_symbolication known ran some_
  -- what a source with state answers in this run, a table by base and path would have answered
  obtain ⟨table, alike, answers, same⟩ := run_asked l.images a.source l.text a.start
  rw [found, text] at same
  obtain ⟨cuts, cut, after⟩ := cut_file l.images table old
  have newText : new = edited l.images table (toText old) := by
    rw [← run_text, ← same]
  refine ⟨old, l, table, cuts, read, known, alike, answers, by rw [← same], cut, ?_, kept_iff cuts, ?_⟩
  · have yields := FileUpdate.replace_yields law tree (r.run log).2.log.path new.toBytes a.temporary 1
      fun _ => Nat.le_refl 1
    have arrived := yields.2
    rw [replaced, path, newText, after] at arrived
    obtain ⟨time, stands⟩ := FileUpdate.standing_arrived tree arrived
    exact ⟨_, stands, rfl⟩
  · exact fronts_of_utf8 cut

def stackReading (file : Bytes) : Reading :=
  let place := ["log".toList, "App_2024-01-02-030405.ips".toList]
  ⟨.ofDisk ((stackDisk []).put place ⟨.file (.bytes file), 0o644, 0⟩), none, 2024⟩

/-- A symbolication after a load, with nobody at the file between them. -/
def rewriteStack (file : Bytes) : Except LogError SymbolicationSummary × LogState :=
  { stackAttempt with host := (stackReading file).host }.run ((stackReading file).run (ofPath stackPath)).2.log

theorem stack_file_rewritten :
    ((stackReading stackReport.toBytes).run (ofPath stackPath)).1 = .ok () ∧
      (rewriteStack stackReport.toBytes).1 = .ok ⟨1, []⟩ ∧
      ∃ images table cuts,
        Rewritten stackPath stackReport.toBytes images table cuts (rewriteStack stackReport.toBytes).2.host.disk := by
  obtain ⟨loaded, ran, file⟩ :
      ((stackReading stackReport.toBytes).run (ofPath stackPath)).1 = .ok () ∧
      (rewriteStack stackReport.toBytes).1 = .ok ⟨1, []⟩ ∧
      (stackReading stackReport.toBytes).host.disk.read stackPath = .ok stackReport.toBytes := by
    decide +kernel
  have tree : (stackReading stackReport.toBytes).host.disk.Tree :=
    Disk.tree_of_nodes (by decide) (by decide) (by decide)
  have noHelper : ∀ serves ∈ (none : Option Helper), MovesWholly serves := nofun
  obtain ⟨old, l, table, cuts, read, _, _, _, _, rewritten⟩ :=
    rewritten_file (a := { stackAttempt with host := (stackReading stackReport.toBytes).host })
      loaded ran (by decide) tree noHelper
  obtain rfl : stackReport.toBytes = old := Except.ok.inj (file.symm.trans read)
  exact ⟨loaded, ran, l.images, table, cuts, rewritten⟩

def headedStack (header : Bytes) (detail : String) : Bytes :=
  let rest := "\nDate/Time: Jan  2 03:04:05\n\nThread 0 Crashed:\n0 App  0x1010" ++ detail ++
    "\n\nBinary Images:\n0x1000 - 0x10ff +App arm64 /App\n"
  header ++ Text.toBytes rest.toList

/-- Of a header in Latin-1 the accented letter is lost, though no frame is on its line. -/
theorem latin_header_lost :
    let name := Text.toBytes "Process: Caf".toList
    let file := headedStack (name ++ [0xE9]) "  0x1000 + 16"
    ((stackReading file).run (ofPath stackPath)).1 = .ok () ∧
      (rewriteStack file).1 = .ok ⟨1, []⟩ ∧
      (stackReading file).host.disk.read stackPath = .ok file ∧
      (rewriteStack file).2.host.disk.read stackPath =
        .ok (headedStack (name ++ [0xEF, 0xBF, 0xBD]) " main + 8") := by
  decide +kernel

end CrashLog
end CrashTriage
