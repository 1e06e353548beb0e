import CrashTriage.Proofs.Symbol.StableReports

/-
Sources of symbols that keep state while they answer. A table is asked for once for each base and path,
so that a run is the run with a source without state: the one that gives, by base and path, the tables
which were answered.
-/
namespace CrashTriage
namespace Symbolication

variable {σ : Type} {images : List Image} {source : Image → StateM σ (Option SymbolTable)}
variable {p q : Progress} {s t : σ} {f : Frame}

/-- The source that gives the tables of a run. -/
def recorded (p : Progress) (image : Image) : Option SymbolTable :=
  (p.tables.lookup (image.base, image.path)).getD none

def Extends (p q : Progress) : Prop :=
  ∀ key table, p.tables.lookup key = some table → q.tables.lookup key = some table

/-- What a source can answer in some state. -/
def CanAnswer (source : Image → StateM σ (Option SymbolTable)) (table : Option SymbolTable) : Prop :=
  ∃ image s, ((source image).run s).1 = table

/-- What was asked for between two points of a run, of whose tables any later ones are an extension. -/
structure Asked (images : List Image) (source : Image → StateM σ (Option SymbolTable))
    (frames : List Frame) (p q : Progress) : Prop where
  kept : Extends p q
  answered : ∀ key table, q.tables.lookup key = some table →
    p.tables.lookup key = some table ∨ CanAnswer source table
  again : ∀ last, Extends q last →
    Id.run (frames.foldlM (Progress.step images (recorded last)) p) = q

theorem use_tables (p : Progress) (f : Frame) (image : Image) (table : Option SymbolTable) :
    (p.use f image table).tables = p.tables := by
  unfold Progress.use
  split
  · rfl
  · dsimp only
    split <;> rfl

theorem asked_unchanged (same : q.tables = p.tables)
    (again : ∀ last, Extends q last →
      Id.run (Progress.step images (recorded last) p f) = q) : Asked images source [f] p q := by
  refine ⟨fun key table known => same ▸ known, fun key table known => .inl (same ▸ known), ?_⟩
  intro last extends_
  simpa using again last extends_

theorem step_asked (ran : (Progress.step images source p f).run s = (q, t)) :
    Asked images source [f] p q := by
  unfold Progress.step at ran
  split at ran
  · rename_i unowned
    cases ran
    exact asked_unchanged rfl fun last _ => by simp [Progress.step, unowned]
  · rename_i image owner
    dsimp only at ran
    split at ran
    · rename_i table known
      cases ran
      exact asked_unchanged (use_tables p f image table) fun last _ => by
        simp [Progress.step, owner, known]
    · rename_i new
      cases answer : (source image).run s with | mk table u =>
      have asked : ({ p with tables := ((image.base, image.path), table) :: p.tables }.use f image table,
          u) = (q, t) := by
        rw [StateT.run_bind, answer] at ran
        exact ran
      obtain ⟨rfl, rfl⟩ := Prod.mk.inj asked
      have tables := use_tables { p with tables := ((image.base, image.path), table) :: p.tables } f image
        table
      refine ⟨fun key known there => ?_, fun key known there => ?_, fun last extends_ => ?_⟩
      · rw [tables, List.lookup_cons]
        split
        · rename_i same
          rw [beq_iff_eq.mp same, new] at there
          contradiction
        · exact there
      · rw [tables, List.lookup_cons] at there
        split at there
        · exact .inr ⟨image, s, by rw [answer]; exact Option.some.inj there⟩
        · exact .inl there
      · have given : recorded last image = table := by
          rw [recorded, extends_ (image.base, image.path) table (by rw [tables]; simp)]
          rfl
        simp [Progress.step, owner, new, given]
        rfl

theorem frames_asked {frames : List Frame}
    (ran : (frames.foldlM (Progress.step images source) p).run s = (q, t)) :
    Asked images source frames p q := by
  induction frames generalizing p s with
  | nil =>
    cases ran
    exact ⟨fun _ _ => id, fun _ _ => .inl, fun _ _ => rfl⟩
  | cons f frames ih =>
    rw [List.foldlM_cons, StateT.run_bind] at ran
    cases first : (Progress.step images source p f).run s with | mk next u =>
    rw [first] at ran
    have here := step_asked first
    have later := ih ran
    refine ⟨fun key table known => later.kept key table (here.kept key table known), ?_, ?_⟩
    · intro key table known
      rcases later.answered key table known with before | answer
      · exact here.answered key table before
      · exact .inr answer
    · -- Tables are only ever added, so that the last ones answer every earlier question as well.
      intro last extends_
      have toLast : Extends next last := fun key table known =>
        extends_ key table (later.kept key table known)
      have one : Id.run (Progress.step images (recorded last) p f) = next := here.again last toLast
      have rest := later.again last extends_
      rw [List.foldlM_cons]
      show Id.run (frames.foldlM (Progress.step images (recorded last))
        (Id.run (Progress.step images (recorded last) p f))) = q
      rwa [one]

/-- A run is the run with some source without state that gives no other answers. -/
theorem run_asked (images : List Image) (source : Image → StateM σ (Option SymbolTable)) (text : Text)
    (s : σ) : ∃ table : Image → Option SymbolTable, AnswersByKey images table ∧
      (∀ image t, table image = some t → CanAnswer source (some t)) ∧
      ((run text images source).run s).1 = Id.run (run text images table) := by
  cases ran : ((rawFrames text).foldlM (Progress.step images source) Progress.start).run s with | mk last u =>
  have asked := frames_asked ran
  refine ⟨recorded last, ?_, ?_, ?_⟩
  · intro i _ j _ same
    rw [recorded, recorded, same]
  · intro image t known
    rw [recorded] at known
    cases found : last.tables.lookup (image.base, image.path) with
    | none => rw [found] at known; contradiction
    | some table =>
      rw [found] at known
      obtain rfl : table = some t := known
      rcases asked.answered _ _ found with start | answer
      · cases start
      · exact answer
  · have again := asked.again last fun _ _ => id
    have answer : (run text images source).run s =
        ((editText last.edits text, ⟨last.edits.length, last.errors.reverse⟩), u) := by
      rw [run, StateT.run_bind, ran]
      rfl
    have recordedRun : Id.run (run text images (recorded last)) =
        let p := Id.run ((rawFrames text).foldlM (Progress.step images (recorded last)) Progress.start)
        (editText p.edits text, ⟨p.edits.length, p.errors.reverse⟩) := rfl
    rw [answer, recordedRun, again]

end Symbolication
end CrashTriage
