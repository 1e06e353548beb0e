import CrashTriage.Log.CrashLog
import CrashTriage.Proofs.Lists
import CrashTriage.Proofs.Runs
import CrashTriage.Proofs.Symbol.AskedSources

/-
What holds of a crash log after any calls, each of which finds a disk, sources of symbols and failures of
its own. A loaded log is what its text is read as: symbols change neither the header nor the headings of
threads nor the image table, so that only the threads are read anew. A call that fails changes nothing.
-/
namespace CrashTriage

namespace Symbolication

variable {σ : Type}

/-- No name that a source can answer with holds a line feed. -/
def SingleLineAnswers (source : Image → StateM σ (Option SymbolTable)) : Prop :=
  ∀ table, CanAnswer source (some table) → ∀ s ∈ table.symbols, '\n' ∉ s.2

/-- A text with symbols is read as before, but for the frames. -/
structure SameReport (text out : Text) : Prop where
  fields : (Sections.read out).fields = (Sections.read text).fields
  images : (Sections.read out).images = (Sections.read text).images
  threads : ∃ change : Frame → Frame,
    (Sections.read out).threads = (Sections.read text).threads.map (Thread.mapFrames change)

theorem run_same_report {source : Image → StateM σ (Option SymbolTable)}
    (names : SingleLineAnswers source) (images : List Image) (text : Text) (s : σ) :
    SameReport text ((run text images source).run s).1.1 := by
  obtain ⟨table, alike, answers, same⟩ := run_asked images source text s
  have singleLine : SingleLineNames table := fun image t known => names t (answers image t known)
  rw [same, run_text]
  refine ⟨?_, ?_, renew images table, ?_⟩
  · simp only [Sections.read, header_lines_edited singleLine]
  · simp only [Sections.read, image_lines_edited singleLine]
  · simp only [Sections.read, threads_edited alike singleLine]

variable {text out : Text}

theorem find_thread_kept (same : SameReport text out) (p : Thread → Bool)
    (blind : ∀ change t, p (Thread.mapFrames change t) = p t) :
    ((Sections.read out).threads.find? p).map (·.index) =
      ((Sections.read text).threads.find? p).map (·.index) := by
  obtain ⟨change, threads⟩ := same.threads
  have through : p ∘ Thread.mapFrames change = p := funext (blind change)
  rw [threads, List.find?_map, through, Option.map_map]
  rfl

theorem header_kept (same : SameReport text out) (year : Int) :
    Header.build (Sections.read out) year = Header.build (Sections.read text) year := by
  have crashed := find_thread_kept same (·.crashed) fun _ _ => rfl
  simp only [Header.build, Sections.field?, same.fields, crashed]

end Symbolication

namespace CrashLog

open Symbolication

variable {σ : Type}

/-- A symbolication, with the state of its sources and the host that it finds. -/
structure Attempt (σ : Type) where
  source : Image → StateM σ (Option SymbolTable)
  start : σ
  temporary : Path
  helper : Option Helper
  host : Host

def Attempt.run (a : Attempt σ) (log : CrashLog) : Except LogError SymbolicationSummary × LogState :=
  ((log.findSymbols a.source a.temporary a.helper).run a.start).1.run ⟨log, a.host⟩

/-- A load, with the host that it finds and the year that it takes for the current one. -/
structure Reading where
  host : Host
  marker : Option Path
  thisYear : Int

def Reading.run (r : Reading) (log : CrashLog) : Except LogError Unit × LogState :=
  (readIn r.marker r.thisYear).run ⟨log, r.host⟩

inductive Call (σ : Type) where
  | load (reading : Reading)
  | symbolicate (attempt : Attempt σ)
  | markViewed
  | delete (helper : Option Helper) (host : Host)

/-- The log as a call leaves it, whether it succeeds or fails. -/
def after (log : CrashLog) : Call σ → CrashLog
  | .load r => (r.run log).2.log
  | .symbolicate a => (a.run log).2.log
  | .markViewed => log.markViewed
  | .delete _ _ => log

def afterAll (log : CrashLog) (calls : List (Call σ)) : CrashLog := calls.foldl after log

/-- The year in which a call loads the log, if it does. -/
def loadsIn? (log : CrashLog) : Call σ → Option Int
  | .load r => (r.run log).1.toOption.map fun () => r.thisYear
  | _ => none

/-- The year of the last load that succeeded. -/
def loadYear? (log : CrashLog) : List (Call σ) → Option Int
  | [] => none
  | call :: rest => (loadYear? (log.after call) rest).or (log.loadsIn? call)

def unmarked (image : Image) : Image := { image with newerThanOsBuild := false }

/-- A log that is what its text was read as in a year. -/
structure ReadAs (log : CrashLog) (l : LoadedLog) (year : Int) : Prop where
  threads : l.threads = Thread.readAll l.text
  header : Header.build (Sections.read l.text) year = .ok l.header
  images : l.images.map unmarked = (Sections.read l.text).images.map unmarked
  logType : log.logType = (l.header.processPath.map LogType.ofProcessPath).getD .service
  crashedThread : ∃ t, log.crashedThread? = some t ∧ t.index = l.header.crashedThread

structure Coherent (log : CrashLog) (year? : Option Int) : Prop where
  loaded : log.loaded.isSome = year?.isSome
  symbolicated : log.symbolicated = true → log.loaded.isSome = true
  read : ∀ l year, log.loaded = some l → year? = some year → log.ReadAs l year

def Call.SingleLine : Call σ → Prop
  | .symbolicate a => SingleLineAnswers a.source
  | _ => True

variable {log later : CrashLog} {l : LoadedLog} {year : Int} {year? : Option Int}

theorem unmarked_mark (d : Disk) (marker : Option Path) (images : List Image) :
    (markNewer d marker images).map unmarked = images.map unmarked := by
  unfold markNewer
  split
  · rfl
  · rw [List.map_map]
    rfl

theorem given_answers {ε ε' α : Type} (failure : ε → ε') (a : α) (s : LogState) :
    (LogM.given failure (.ok a)).run s = (.ok a, s) := rfl

theorem given_fails {ε ε' α : Type} (failure : ε → ε') (e : ε) (s : LogState) :
    (LogM.given failure (.error e) : LogM ε' α).run s = (.error (failure e), s) := rfl

theorem on_host_run {ε ε' α : Type} (failure : ε → ε') (run : HostM ε α) (s : LogState) :
    (LogM.onHost failure run).run s =
      ((run.run s.host).1.mapError failure, { s with host := (run.run s.host).2 }) := rfl

/-- What a load answers and leaves. -/
inductive Loads (r : Reading) (log : CrashLog) : Except LogError Unit × LogState → Prop where
  | failed (e : LogError) : Loads r log (.error e, ⟨log, r.host⟩)
  | loaded (l : LoadedLog) (later : CrashLog) : later.loaded = some l → later.ReadAs l r.thisYear →
    Loads r log (.ok (), ⟨later, r.host⟩)

theorem loads (r : Reading) (log : CrashLog) : Loads r log (r.run log) := by
  unfold Reading.run readIn
  rw [Runs.bind_answered (Runs.run_get _)]
  dsimp only
  cases r.host.disk.readText log.path with
  | error e =>
    rw [Runs.bind_failed (given_fails _ e _)]
    exact .failed _
  | ok text =>
    rw [Runs.bind_answered (given_answers _ text _)]
    cases built : Header.build (Sections.read text) r.thisYear with
    | error e =>
      rw [Runs.bind_failed (given_fails _ e _)]
      exact .failed _
    | ok header =>
      rw [Runs.bind_answered (given_answers _ header _)]
      split
      · exact .failed _
      · rename_i some_
        have some_ : ∃ t ∈ (Sections.read text).threads, (t.index == header.crashedThread) = true := by
          simpa using some_
        obtain ⟨t, crashed⟩ := Option.isSome_iff_exists.mp (List.find?_isSome.mpr some_)
        exact .loaded _ _ rfl ⟨rfl, built, unmarked_mark r.host.disk r.marker _, rfl, t, crashed,
          by simpa using List.find?_some crashed⟩

/-- The log with a text that symbols were written into. -/
def withSymbols (log : CrashLog) (l : LoadedLog) (text : Text) : CrashLog :=
  { log with symbolicated := true, loaded := some { l with text, threads := Thread.readAll text } }

/-- What a symbolication answers and leaves. -/
inductive Symbolicates (a : Attempt σ) (log : CrashLog) :
    Except LogError SymbolicationSummary × LogState → Prop where
  | notLoaded : log.loaded = none → Symbolicates a log (.error (.notLoaded log.path), ⟨log, a.host⟩)
  | done (l : LoadedLog) : log.loaded = some l → log.symbolicated = true →
    Symbolicates a log (.ok .none, ⟨log, a.host⟩)
  | nothing (l : LoadedLog) (summary : SymbolicationSummary) : log.loaded = some l →
    log.symbolicated = false → summary.resolved = 0 → Symbolicates a log (.ok summary, ⟨log, a.host⟩)
  | unwritten (l : LoadedLog) (e : LogError) (host : Host) : log.loaded = some l →
    log.symbolicated = false → Symbolicates a log (.error e, ⟨log, host⟩)
  | written (l : LoadedLog) (text : Text) (summary : SymbolicationSummary) (host : Host) :
    log.loaded = some l → log.symbolicated = false →
    ((run l.text l.images a.source).run a.start).1 = (text, summary) → summary.resolved ≠ 0 →
    Symbolicates a log (.ok summary, ⟨log.withSymbols l text, host⟩)

/-- The log is changed after its file was written, and not when that failed. -/
theorem keep_text (loaded : log.loaded = some l) (text : Text) (temporary : Path)
    (helper : Option Helper) (host : Host) :
    (∃ e later, (keepText text temporary helper).run ⟨log, host⟩ = (.error e, ⟨log, later⟩)) ∨
      ∃ later, (keepText text temporary helper).run ⟨log, host⟩ =
        (.ok (), ⟨log.withSymbols l text, later⟩) := by
  have written (answer : Except FileError Unit) (later : Host)
      (replaced : (FileUpdate.replace log.path text.toBytes temporary helper).run host = (answer, later)) :
      (LogM.onHost LogError.file (FileUpdate.replace log.path text.toBytes temporary helper)).run
        ⟨log, host⟩ = (answer.mapError .file, ⟨log, later⟩) := by
    rw [on_host_run, replaced]
  unfold keepText
  rw [Runs.bind_answered (Runs.run_get _)]
  cases replaced : (FileUpdate.replace log.path text.toBytes temporary helper).run host with
  | mk answer later =>
    cases answer with
    | error e => exact .inl ⟨.file e, later, Runs.bind_failed (written _ later replaced)⟩
    | ok _ =>
      refine .inr ⟨later, (Runs.bind_answered (written _ later replaced)).trans ?_⟩
      obtain ⟨path, name, nameDate, logType, symbolicated, viewed, parts⟩ := log
      obtain rfl : parts = some l := loaded
      rfl

theorem run_of_symbolicated (a : Attempt σ) (loaded : log.loaded = some l)
    (symbolicated : log.symbolicated = true) : a.run log = (.ok .none, ⟨log, a.host⟩) := by
  unfold Attempt.run findSymbols
  rw [loaded]
  dsimp only
  rw [if_pos symbolicated]
  rfl

/-- What is left of a symbolication when the sources have answered. -/
theorem run_after_sources {a : Attempt σ} {text : Text} {summary : SymbolicationSummary}
    (loaded : log.loaded = some l) (unsymbolicated : log.symbolicated = false)
    (ran : ((run l.text l.images a.source).run a.start).1 = (text, summary)) :
    a.run log = if summary.resolved = 0 then (.ok summary, ⟨log, a.host⟩)
      else (keepText text a.temporary a.helper >>= fun () => pure summary).run ⟨log, a.host⟩ := by
  unfold Attempt.run findSymbols
  rw [loaded]
  dsimp only
  rw [if_neg (by simp [unsymbolicated]), StateT.run_bind]
  have next {α β : Type} (x : α) (f : α → Id β) : (bind (m := Id) x f) = f x := rfl
  rw [next, ran]
  split <;> rfl

theorem symbolicates (a : Attempt σ) (log : CrashLog) : Symbolicates a log (a.run log) := by
  cases loaded : log.loaded with
  | none =>
    have failed : a.run log = (.error (.notLoaded log.path), ⟨log, a.host⟩) := by
      unfold Attempt.run findSymbols
      rw [loaded]
      rfl
    exact failed ▸ .notLoaded loaded
  | some l =>
    cases symbolicated : log.symbolicated with
    | true => exact run_of_symbolicated a loaded symbolicated ▸ .done l loaded symbolicated
    | false =>
      obtain ⟨text, summary, ran⟩ :
        ∃ text summary, ((run l.text l.images a.source).run a.start).1 = (text, summary) := ⟨_, _, rfl⟩
      rw [run_after_sources loaded symbolicated ran]
      split
      · rename_i none
        exact .nothing l summary loaded symbolicated none
      · rename_i some_
        rcases keep_text loaded text a.temporary a.helper a.host with ⟨e, host, failed⟩ | ⟨host, kept⟩
        · rw [Runs.bind_failed failed]
          exact .unwritten l e host loaded symbolicated
        · rw [Runs.bind_answered kept]
          exact .written l text summary host loaded symbolicated ran some_

theorem with_symbols_read {text : Text} (loaded : log.loaded = some l) (read : log.ReadAs l year)
    (same : SameReport l.text text) :
    (log.withSymbols l text).ReadAs { l with text, threads := Thread.readAll text } year := by
  refine ⟨rfl, (header_kept same year).trans read.header, ?_, read.logType, ?_⟩
  · rw [same.images]
    exact read.images
  · -- The crashed thread is found by its index, which symbols leave as it is.
    obtain ⟨t, crashed, index⟩ := read.crashedThread
    have before : (Sections.read l.text).threads.find? (·.index == l.header.crashedThread) = some t := by
      rw [crashedThread?, loaded, Option.bind_some, read.threads] at crashed
      exact crashed
    have kept := find_thread_kept same (·.index == l.header.crashedThread) fun _ _ => rfl
    rw [before, Option.map_some] at kept
    obtain ⟨u, there, sameIndex⟩ := Option.map_eq_some_iff.mp kept
    exact ⟨u, there, sameIndex.trans index⟩

theorem coherent_of_path (path : Path) : (ofPath path).Coherent none := by
  refine ⟨rfl, fun symbolicated => ?_, fun _ _ loaded => ?_⟩
  · cases symbolicated
  · cases loaded

theorem coherent_after (coherent : log.Coherent year?) {call : Call σ} (names : call.SingleLine) :
    (log.after call).Coherent ((log.loadsIn? call).or year?) := by
  cases call with
  | load r =>
    have outcome := loads r log
    rw [after, loadsIn?]
    generalize r.run log = result at outcome
    cases outcome with
    | failed e => exact coherent
    | loaded l later loaded read =>
      refine ⟨by rw [loaded]; rfl, fun _ => by rw [loaded]; rfl, fun l' year known inYear => ?_⟩
      obtain rfl := Option.some.inj (loaded.symm.trans known)
      obtain rfl := Option.some.inj inYear
      exact read
  | symbolicate a =>
    have outcome := symbolicates a log
    have noLoad : log.loadsIn? (.symbolicate a) = none := rfl
    rw [noLoad, Option.none_or, after]
    generalize a.run log = result at outcome
    cases outcome with
    | notLoaded _ => exact coherent
    | done _ _ _ => exact coherent
    | nothing _ _ _ _ _ => exact coherent
    | unwritten _ _ _ _ _ => exact coherent
    | written l text summary host loaded symbolicated ran some_ =>
      have same : SameReport l.text text := by
        have report := run_same_report names l.images l.text a.start
        rwa [ran] at report
      refine ⟨?_, fun _ => rfl, fun l' year known inYear => ?_⟩
      · rw [← coherent.loaded, loaded]
        rfl
      · obtain rfl := Option.some.inj known
        exact with_symbols_read loaded (coherent.read l year loaded inYear) same
  | markViewed =>
    refine ⟨coherent.loaded, coherent.symbolicated, fun l year known inYear => ?_⟩
    obtain ⟨threads, header, images, logType, crashed⟩ := coherent.read l year known inYear
    exact ⟨threads, header, images, logType, crashed⟩
  | delete _ _ => exact coherent

theorem coherent_after_all {calls : List (Call σ)} (coherent : log.Coherent year?)
    (names : ∀ call ∈ calls, call.SingleLine) :
    (log.afterAll calls).Coherent ((log.loadYear? calls).or year?) := by
  induction calls generalizing log year? with
  | nil => exact coherent
  | cons call rest ih =>
    rw [List.forall_mem_cons] at names
    have later := ih (coherent_after coherent names.1) names.2
    rwa [← Option.or_assoc] at later

/-- Calls that change nothing in a log, nor in its file when there was nothing to be written. -/
structure Undisturbed (σ : Type) (log : CrashLog) : Prop where
  loadFailed : ∀ (r : Reading) (e : LogError), (r.run log).1 = .error e →
    (r.run log).2 = ⟨log, r.host⟩
  symbolicationFailed : ∀ (a : Attempt σ) (e : LogError), (a.run log).1 = .error e →
    (a.run log).2.log = log
  nothingResolved : ∀ (a : Attempt σ) (summary : SymbolicationSummary),
    (a.run log).1 = .ok summary → summary.resolved = 0 → (a.run log).2 = ⟨log, a.host⟩
  symbolicatedBefore : log.symbolicated = true →
    ∀ a : Attempt σ, a.run log = (.ok .none, ⟨log, a.host⟩)

theorem undisturbed (coherent : log.Coherent year?) : Undisturbed σ log := by
  refine ⟨fun r e failed => ?_, fun a e failed => ?_, fun a summary answered none => ?_,
    fun symbolicated a => ?_⟩
  · have outcome := loads r log
    generalize r.run log = result at outcome failed ⊢
    cases outcome with
    | failed _ => rfl
    | loaded _ _ _ _ => cases failed
  · have outcome := symbolicates a log
    generalize a.run log = result at outcome failed ⊢
    cases outcome with
    | notLoaded _ => rfl
    | unwritten _ _ _ _ _ => rfl
    | done _ _ _ => cases failed
    | nothing _ _ _ _ _ => cases failed
    | written _ _ _ _ _ _ _ _ => cases failed
  · have outcome := symbolicates a log
    generalize a.run log = result at outcome answered ⊢
    cases outcome with
    | done _ _ _ => rfl
    | nothing _ _ _ _ _ => rfl
    | notLoaded _ => cases answered
    | unwritten _ _ _ _ _ => cases answered
    | written _ _ _ _ _ _ _ some_ =>
      cases answered
      contradiction
  · obtain ⟨l, loaded⟩ := Option.isSome_iff_exists.mp (coherent.symbolicated symbolicated)
    exact run_of_symbolicated a loaded symbolicated

theorem log_coherent (path : Path) (calls : List (Call σ)) (names : ∀ call ∈ calls, call.SingleLine) :
    ((ofPath path).afterAll calls).Coherent ((ofPath path).loadYear? calls) ∧
      Undisturbed σ ((ofPath path).afterAll calls) := by
  have coherent := coherent_after_all (coherent_of_path path) names
  rw [Option.or_none] at coherent
  exact ⟨coherent, undisturbed coherent⟩

def stackReport : Text :=
  ("Process: App [7]\nDate/Time: Jan  2 03:04:05\n\nThread 0 Crashed:\n" ++
    "0 App  0x1010  0x1000 + 16\r\n\nBinary Images:\n0x1000 - 0x10ff +App arm64 /App\n").toList

def stackPath : Path := "/log/App_2024-01-02-030405.ips".toList

/-- A disk with a report whose only image is newer than a marker. -/
def stackDisk (report : Text) : Disk :=
  let file (content : Text) (modified : Int) : Node := ⟨.file (.bytes content.toBytes), 0o644, modified⟩
  { nodes := [([], ⟨.directory, 0o755, 0⟩), (["log".toList], ⟨.directory, 0o755, 0⟩),
      (["log".toList, "App_2024-01-02-030405.ips".toList], file report 0),
      (["App".toList], file [] 9), (["marker".toList], file [] 5)]
    workingDir := []
    enforced := true
    now := 20 }

/-- A source that answers the first question only. -/
def firstAnswerOnly (_ : Image) : StateM Nat (Option SymbolTable) := fun asked =>
  (if asked = 0 then some (SymbolTable.empty.insert (8, "main".toList)) else none, asked + 1)

def stackAttempt : Attempt Nat :=
  ⟨firstAnswerOnly, 0, "/tmp".toList, none, .ofDisk (stackDisk stackReport)⟩

/-- The last load finds a file without a header. -/
def stackCalls : List (Call Nat) :=
  [.load ⟨.ofDisk (stackDisk stackReport), some "/marker".toList, 2024⟩, .symbolicate stackAttempt,
    .markViewed, .delete none (.ofDisk (stackDisk stackReport)),
    .load ⟨.ofDisk (stackDisk []), none, 2030⟩]

theorem log_coherent_after_failed_load :
    (∀ call ∈ stackCalls, call.SingleLine) ∧
      (ofPath stackPath).loadYear? stackCalls = some 2024 ∧
      ((ofPath stackPath).afterAll stackCalls).symbolicated = true ∧
      ((ofPath stackPath).afterAll stackCalls).Coherent ((ofPath stackPath).loadYear? stackCalls) ∧
      Undisturbed Nat ((ofPath stackPath).afterAll stackCalls) := by
  have answers : SingleLineAnswers firstAnswerOnly := by
    rintro table ⟨image, asked, answer⟩ s member
    have first : (if asked = 0 then some (SymbolTable.empty.insert (8, "main".toList)) else none) =
      some table := answer
    split at first
    · cases first
      obtain rfl := List.mem_singleton.mp member
      decide
    · contradiction
  have names : ∀ call ∈ stackCalls, call.SingleLine := by
    simp only [stackCalls, List.forall_mem_cons]
    exact ⟨trivial, answers, trivial, trivial, trivial, fun _ none => nomatch none⟩
  exact ⟨names, by decide +kernel, by decide +kernel, log_coherent stackPath stackCalls names⟩

end CrashLog
end CrashTriage
