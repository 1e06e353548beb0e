import CrashTriage.Proofs.Disk.Drafts

/-
Replacing a file. At every moment of the run a path leads to its old file or to the complete new one; a run
that fails leaves the disk as it was; and a helper is asked once at most, when nothing could be prepared in
the directory of the file.
-/
namespace CrashTriage

open Host Disk

variable {d₀ d : Disk} {h later : Host} {draft : Draft} {path : Path} {contents : Bytes} {mode : Nat}

namespace Draft

/-- A draft that holds a content, and that is found under its path or not at all. -/
structure Ready (d₀ : Disk) (draft : Draft) (content : Content) (mode : Nat) (d : Disk) : Prop where
  drafted : Drafted d₀ draft.place d
  held : ∃ time, d.find? draft.place = some ⟨.file content, mode, time⟩
  reached : ∀ there, d₀.place? draft.path = some there → there = draft.place

variable {content : Content}

theorem Ready.spared (ready : Ready d₀ draft content mode d) : Spared d₀ d := .inr ⟨_, ready.drafted⟩

theorem Ready.written (ready : Ready d₀ draft content mode d) (new : Content) {d' : Disk}
    (written : writeAt draft.place new d = .ok ((), d')) : Ready d₀ draft new mode d' := by
  obtain ⟨time, held⟩ := ready.held
  rw [writeAt, held] at written
  cases written
  have drafted : Drafted d₀ draft.place (d.put draft.place ⟨.file new, mode, d.now⟩) :=
    ready.drafted.rewritten rfl
  refine ⟨drafted.looks (looks_as_tick _), ⟨d.now, ?_⟩, ready.reached⟩
  show (d.put _ _).find? _ = _
  rw [find_put, if_pos rfl]

theorem Ready.given_mode (ready : Ready d₀ draft content mode d) (new : Nat) {d' : Disk}
    (set : setModeAt draft.place new d = .ok ((), d')) : Ready d₀ draft content new d' := by
  obtain ⟨time, held⟩ := ready.held
  rw [setModeAt, held] at set
  cases set
  exact ⟨ready.drafted.rewritten rfl, ⟨time, by rw [find_put, if_pos rfl]⟩, ready.reached⟩

section Passes

variable {P failed : Disk → Prop}

theorem discard_passes {ε α : Type} {e : ε} {done : α → Disk → Prop} (here : P h.disk)
    (discarded : failed (h.disk.erase draft.place)) :
    Yields P 0 h (do draft.discard; throw e : HostM ε α) failed done :=
  have gone : Yields P 0 h (draft.discard : HostM ε Unit) failed fun _ => failed := yields_change here discarded
  yields_bind gone fun _ _ holds => yields_throw holds

/-- What each step of filling a draft keeps, `ready` being told the mode that the draft has. -/
theorem fill_passes (ready : Nat → Disk → Prop) (mode : Nat) (here : P h.disk) (still : failed h.disk)
    (passes : ∀ mode d, ready mode d → P d) (fails : ∀ mode d, ready mode d → failed d)
    (written : ∀ d, writeAt draft.place (.bytes contents) h.disk = .ok ((), d) → ready mode d)
    (set : ∀ mode new d d', ready mode d → setModeAt draft.place new d = .ok ((), d') → ready new d')
    (given : Option Nat) :
    Yields P 0 h (draft.fill contents given) failed fun _ d => ready (given.getD mode) d := by
  have write : Yields P 0 h (failingAs (⟨·, some draft.path⟩ : OsError → DraftError)
      (step (writeAt draft.place (.bytes contents)))) failed fun _ d => ready mode d :=
    yields_failing_as (yields_step here still fun _ => written)
  have store (h : Host) (mode : Nat) (holds : ready mode h.disk) :
      Yields P 0 h (failingAs (⟨·, none⟩ : OsError → DraftError) pause) failed fun _ d => ready mode d :=
    yields_failing_as (yields_pause (passes mode _ holds) (fails mode _ holds) holds)
  unfold fill
  cases given with
  | none => exact yields_bind write fun _ between holds => store between mode holds
  | some given =>
    refine yields_bind write fun _ between holds => ?_
    have change : Yields P 0 between (failingAs (⟨·, none⟩ : OsError → DraftError)
        (step (setModeAt draft.place given))) failed fun _ d => ready given d :=
      yields_failing_as (yields_step (passes mode _ holds) (fails mode _ holds) fun _ d => set mode given _ d holds)
    exact yields_bind change fun _ later holds => store later given holds

theorem keep_passes {done : Disk → Prop} (here : P h.disk) (discarded : failed (h.disk.erase draft.place))
    (kept : done h.disk) : Yields P 0 h draft.keep failed fun _ => done := by
  unfold keep
  have pause : Yields P 0 h pause (· = h.disk) fun _ => done := yields_pause here rfl kept
  refine yields_handled pause ?_ ?_
  · intro _ later holds
    exact yields_pure holds
  · intro e later same
    exact discard_passes (same ▸ here) (same ▸ discarded)

end Passes

theorem fill_yields (ready : Ready d₀ draft content mode h.disk) (contents : Bytes) (given : Option Nat) :
    Yields (Spared d₀) 0 h (draft.fill contents given) (Drafted d₀ draft.place) fun _ d =>
      Ready d₀ draft (.bytes contents) (given.getD mode) d :=
  fill_passes (Ready d₀ draft (.bytes contents)) mode ready.spared ready.drafted (fun _ _ ready => ready.spared)
    (fun _ _ ready => ready.drafted) (fun _ => ready.written _) (fun _ new _ _ ready => ready.given_mode new) given

theorem discard_yields {ε α : Type} {e : ε} {done : α → Disk → Prop} (drafted : Drafted d₀ draft.place h.disk) :
    Yields (Spared d₀) 0 h (do draft.discard; throw e : HostM ε α) (LooksAs · d₀) done :=
  discard_passes (.inr ⟨_, drafted⟩) drafted.discarded

theorem prepare_yields (tree : d₀.Tree) (looks : LooksAs h.disk d₀) (directory : Path) (contents : Bytes)
    (given : Option Nat) :
    Yields (Spared d₀) 0 h (prepare directory contents given) (LooksAs · d₀) fun draft d =>
      Ready d₀ draft (.bytes contents) (given.getD 0o600) d := by
  have create (f : OsError → DraftError) :
      Yields (Spared d₀) 0 h (failingAs f (step (createTemporary directory))) (LooksAs · d₀) fun place d =>
        Ready d₀ ⟨place, Path.join (h.disk.absolute directory) (place.getLast?.getD [])⟩ (.bytes []) 0o600 d := by
    refine yields_failing_as (yields_step (.inl looks) looks fun place d created => ?_)
    obtain ⟨drafted, held, reached⟩ := create_temporary looks created
    refine ⟨drafted, ⟨_, held⟩, fun there leads => reached there ?_⟩
    rw [← place_alike tree looks.same_tree] at leads
    exact leads
  unfold prepare
  refine yields_get (yields_bind (create _) fun place between ready => ?_)
  refine yields_handled (fill_yields ready contents given) ?_ ?_
  · intro _ later ready
    exact yields_pure ready
  · intro e later drafted
    exact discard_yields drafted

/-- The path leads to the new file, and nothing else has changed. -/
def Arrived (d₀ : Disk) (path : Path) (contents : Bytes) (mode : Nat) (d : Disk) : Prop :=
  ∃ target, d₀.place? path = some target ∧ Replaced d₀ target contents mode d

theorem Ready.arrived (tree : d₀.Tree) (ready : Ready d₀ draft (.bytes contents) mode d) {target : Place}
    (leads : d.place? path = some target) (noDirectory : d.hasDirectory target = false) {node : Node}
    (found : d.find? draft.place = some node) :
    Arrived d₀ path contents mode ((d.erase draft.place).put target node) := by
  obtain ⟨time, held⟩ := ready.held
  obtain rfl := Option.some.inj (found.symm.trans held)
  rw [place_alike tree ready.drafted.same_tree] at leads
  exact ⟨target, leads, ready.drafted.moved noDirectory⟩

theorem persist_yields (tree : d₀.Tree) (ready : Ready d₀ draft (.bytes contents) mode h.disk) (path : Path) :
    Yields (Spared d₀) 0 h (draft.persist path) (LooksAs · d₀) fun _ d => Arrived d₀ path contents mode d := by
  have move : Yields (Spared d₀) 0 h (step (moveFrom draft.place path)) (Drafted d₀ draft.place) fun _ d =>
      Arrived d₀ path contents mode d := by
    refine yields_step ready.spared ready.drafted fun _ d moved => ?_
    obtain ⟨target, node, leads, noDirectory, found, rfl⟩ := move_from_ok moved
    exact ready.arrived tree leads noDirectory found
  unfold persist
  refine yields_handled move ?_ ?_
  · intro _ later arrived
    exact yields_pure arrived
  · intro e later drafted
    exact discard_yields drafted

theorem keep_yields (ready : Ready d₀ draft (.bytes contents) mode h.disk) :
    Yields (Spared d₀) 0 h draft.keep (LooksAs · d₀) fun _ d => Ready d₀ draft (.bytes contents) mode d :=
  keep_passes ready.spared ready.drafted.discarded ready

end Draft

/-- A helper whose move does everything when it succeeds, and nothing when it fails. -/
structure MovesWholly (helper : Helper) : Prop where
  passed : ∀ h source target, Passed (fun d => LooksAs d h.disk ∨
    LooksAs d ((helper (.move source target)).run h).2.disk) 0 h ((helper (.move source target)).run h).2
  moved : ∀ h source target later, (helper (.move source target)).run h = (.ok (), later) →
    ∃ place there node, h.disk.place? source = some place ∧ h.disk.find? place = some node ∧
      h.disk.place? target = some there ∧ h.disk.hasDirectory there = false ∧
      LooksAs later.disk ((h.disk.erase place).put there node)
  refused : ∀ h source target e later, (helper (.move source target)).run h = (.error e, later) →
    LooksAs later.disk h.disk

namespace FileUpdate

open Draft

/-- As the disk was, with or without a draft, or with the new file in its place. -/
def Moment (d₀ : Disk) (path : Path) (contents : Bytes) (mode : Nat) (d : Disk) : Prop :=
  Spared d₀ d ∨ Arrived d₀ path contents mode d

theorem arrived_looks {d' : Disk} (arrived : Arrived d₀ path contents mode d) (looks : LooksAs d' d) :
    Arrived d₀ path contents mode d' := by
  obtain ⟨target, leads, replaced⟩ := arrived
  exact ⟨target, leads, replaced.looks looks⟩

theorem move_yields {helper : Helper} (law : MovesWholly helper) (tree : d₀.Tree)
    (ready : Ready d₀ draft (.bytes contents) mode h.disk) (path : Path) :
    Yields (Moment d₀ path contents mode) 0 h (helper (.move draft.path path)) (Drafted d₀ draft.place)
      fun _ d => Arrived d₀ path contents mode d := by
  have passed := law.passed h draft.path path
  have drafted (d : Disk) (looks : LooksAs d h.disk) : Drafted d₀ draft.place d := ready.drafted.looks looks
  unfold Yields
  cases ran : (helper (.move draft.path path)).run h with
  | mk answer later =>
    rw [ran] at passed
    cases answer with
    | ok _ =>
      obtain ⟨place, there, node, reached, found, leads, noDirectory, looks⟩ := law.moved h _ _ _ ran
      rw [place_alike tree ready.drafted.same_tree] at reached
      obtain rfl := ready.reached place reached
      have arrived := arrived_looks (ready.arrived tree leads noDirectory found) looks
      refine ⟨passed.mono (fun d seen => ?_) (Nat.le_refl 0), arrived⟩
      rcases seen with before | after
      · exact .inl (.inr ⟨_, drafted d before⟩)
      · exact .inr (arrived_looks arrived after)
    | error e =>
      have refused : LooksAs later.disk h.disk := law.refused h _ _ _ _ ran
      refine ⟨passed.mono (fun d seen => ?_) (Nat.le_refl 0), drafted _ refused⟩
      rcases seen with before | after
      · exact .inl (.inr ⟨_, drafted d before⟩)
      · exact .inl (.inr ⟨_, drafted d (after.trans refused)⟩)

theorem replace_through_yields {helper : Helper} (law : MovesWholly helper) (tree : d₀.Tree)
    (looks : LooksAs h.disk d₀) (path : Path) (contents : Bytes) (given : Option Nat) (temporary : Path) :
    Yields (Moment d₀ path contents (given.getD 0o600)) 1 h
      (replaceThrough helper path contents given temporary) (LooksAs · d₀)
        fun _ d => Arrived d₀ path contents (given.getD 0o600) d := by
  have spared (d : Disk) (holds : Spared d₀ d) : Moment d₀ path contents (given.getD 0o600) d := .inl holds
  have prepared (f : DraftError → FileError) :
      Yields (Spared d₀) 0 h (failingAs f do
        let draft ← prepare temporary contents given
        draft.keep
        pure draft) (LooksAs · d₀) fun draft d => Ready d₀ draft (.bytes contents) (given.getD 0o600) d := by
    refine yields_failing_as (yields_bind (prepare_yields tree looks temporary contents given) ?_)
    intro draft between ready
    exact yields_bind (keep_yields ready) fun _ later ready => yields_pure ready
  unfold replaceThrough
  refine yields_bind ((prepared _).mono spared (Nat.le_refl 0)) fun draft between ready => ?_
  have readyToo : Ready d₀ draft (.bytes contents) (given.getD 0o600)
      ({ between with asked := .move draft.path path :: between.asked } : Host).disk := ready
  refine (yields_both (n := 0) (yields_ask (move_yields law tree readyToo path)) ?_ ?_).mono (fun _ => id)
    (Nat.le_refl 1)
  · intro _ later arrived
    exact yields_pure arrived
  · intro e later drafted
    exact (discard_yields drafted).mono spared (Nat.le_refl 0)

/-- The mode of the file at a path, as far as it can be seen. -/
def seenMode (d : Disk) (path : Path) : Option Nat := (d.stat path).toOption.map (·.mode)

/-- Permission was denied when a draft was prepared in the directory of the path. -/
def DeniedBeside (path : Path) (contents : Bytes) (h : Host) : Prop :=
  ∃ e later, (prepare ((Path.parent? path).getD ['.']) contents (seenMode h.disk path)).run h =
    (.error e, later) ∧ e.cause = .denied

theorem replace_yields {helper : Option Helper} (law : ∀ serves ∈ helper, MovesWholly serves)
    (tree : h.disk.Tree) (path : Path) (contents : Bytes) (temporary : Path) (n : Nat)
    (enough : DeniedBeside path contents h → 1 ≤ n) :
    Yields (Moment h.disk path contents ((seenMode h.disk path).getD 0o600)) n h
      (replace path contents temporary helper) (LooksAs · h.disk)
        fun _ d => Arrived h.disk path contents ((seenMode h.disk path).getD 0o600) d := by
  have spared (d : Disk) (holds : Spared h.disk d) :
      Moment h.disk path contents ((seenMode h.disk path).getD 0o600) d := .inl holds
  have prepared := prepare_yields tree (LooksAs.refl h.disk) ((Path.parent? path).getD ['.']) contents
    (seenMode h.disk path)
  unfold replace
  refine yields_get ?_
  dsimp only
  rw [← Nat.zero_add n]
  cases ran : (prepare ((Path.parent? path).getD ['.']) contents (seenMode h.disk path)).run h with
  | mk answer between =>
    obtain ⟨passed, holds⟩ := prepared
    rw [ran] at passed holds
    refine yields_after ran (passed.mono spared (Nat.le_refl 0)) ?_
    cases answer with
    | ok draft =>
      exact (yields_failing_as (persist_yields tree holds path)).mono spared (Nat.zero_le n)
    | error e =>
      dsimp only
      split
      · rename_i denied
        cases helper with
        | none => exact yields_throw holds
        | some serves =>
          have through := replace_through_yields (law serves rfl) tree holds path contents
            (seenMode h.disk path) temporary
          exact through.mono (fun _ => id) (enough ⟨e, between, ran, denied⟩)
      · exact yields_throw holds

/-- The old file stands at the path, or the new one with all its content; or nothing stood there, and the
path is a name that drafts are given. -/
def OldOrNew (d₀ : Disk) (path : Path) (contents : Bytes) (d : Disk) : Prop :=
  d.standing? path = d₀.standing? path ∨
    (∃ node, d.standing? path = some node ∧ node.entry = .file (.bytes contents)) ∨
    (d₀.standing? path = none ∧ ∃ parent n, d₀.place? path = some (parent ++ [temporaryName n]))

theorem standing_looks (tree : d₀.Tree) (looks : LooksAs d d₀) (path : Path) :
    d.standing? path = d₀.standing? path := by
  rw [standing?, standing?, place_alike tree looks.same_tree]
  cases d₀.place? path with
  | none => rfl
  | some place => exact looks.nodes place

theorem standing_arrived (tree : d₀.Tree) (arrived : Arrived d₀ path contents mode d) :
    ∃ time, d.standing? path = some ⟨.file (.bytes contents), mode, time⟩ := by
  obtain ⟨target, leads, replaced⟩ := arrived
  obtain ⟨time, placed⟩ := replaced.placed
  refine ⟨time, ?_⟩
  rw [standing?, place_alike tree replaced.same_tree, leads, Option.bind_some, placed]

theorem moment_old_or_new (tree : d₀.Tree) (moment : Moment d₀ path contents mode d) :
    OldOrNew d₀ path contents d := by
  rcases moment with (looks | ⟨place, drafted⟩) | arrived
  · exact .inl (standing_looks tree looks path)
  · have leads := place_alike tree drafted.same_tree path
    unfold OldOrNew standing?
    rw [leads]
    cases there : d₀.place? path with
    | none => exact .inl rfl
    | some target =>
      by_cases onDraft : target = place
      · obtain ⟨parent, n, named⟩ := drafted.named
        exact .inr (.inr ⟨onDraft ▸ drafted.free, parent, n, by rw [onDraft, named]⟩)
      · exact .inl (drafted.others target onDraft)
  · obtain ⟨time, standing⟩ := standing_arrived tree arrived
    exact .inr (.inl ⟨_, standing, rfl⟩)

theorem seen_mode_iff {old : Node} (standing : d.standing? path = some old) :
    (seenMode d path).getD 0o600 = old.mode ↔ d.stat path = .ok old ∨ old.mode = 0o600 := by
  cases found : d.stat path with
  | error e => simp [seenMode, found, eq_comm, Except.toOption]
  | ok node =>
    obtain ⟨place, located, there⟩ := stat_ok_iff.mp found
    rw [standing?, place_of_locate located, Option.bind_some, there] at standing
    cases standing
    simp [seenMode, found, Except.toOption]

/-- What a replacement leaves, at its end and at every moment before. -/
structure AllOrNothing (path : Path) (contents : Bytes) (h : Host) (answer : Except FileError Unit)
    (later : Host) : Prop where
  moments : ∃ seen, later.history = seen ++ h.history ∧
    ∀ d ∈ later.disk :: seen, OldOrNew h.disk path contents d
  asked : ∃ asked, later.asked = asked ++ h.asked ∧ asked.length ≤ 1 ∧
    (asked ≠ [] → DeniedBeside path contents h)
  failed : ∀ e, answer = .error e → ∀ place, later.disk.find? place = h.disk.find? place
  replaced : answer = .ok () → ∃ target node, h.disk.place? path = some target ∧
    later.disk.place? path = some target ∧ later.disk.find? target = some node ∧
    node.entry = .file (.bytes contents) ∧
    (∀ other, other ≠ target → later.disk.find? other = h.disk.find? other) ∧
    -- the mode goes over when it could be seen
    ∀ old, h.disk.standing? path = some old →
      (node.mode = old.mode ↔ h.disk.stat path = .ok old ∨ old.mode = 0o600)

theorem replace_all_or_nothing (h : Host) (tree : h.disk.Tree) (path : Path) (contents : Bytes)
    (temporary : Path) (helper : Option Helper) (law : ∀ serves ∈ helper, MovesWholly serves) :
    AllOrNothing path contents h ((replace path contents temporary helper).run h).1
      ((replace path contents temporary helper).run h).2 := by
  obtain ⟨⟨⟨seen, history, holds⟩, asked, requests, once⟩, ends⟩ :=
    replace_yields law tree path contents temporary 1 fun _ => Nat.le_refl 1
  -- the same run asks for nothing when the bound on requests can be none
  have unasked : ¬ DeniedBeside path contents h → asked = [] := by
    intro allowed
    obtain ⟨⟨_, asked', requests', none⟩, _⟩ :=
      replace_yields law tree path contents temporary 0 fun denied => absurd denied allowed
    have same : asked = asked' := List.append_cancel_right (requests.symm.trans requests')
    rw [same]
    exact List.length_eq_zero_iff.mp (Nat.le_zero.mp none)
  generalize (replace path contents temporary helper).run h = result at *
  obtain ⟨answer, later⟩ := result
  have last : Moment h.disk path contents ((seenMode h.disk path).getD 0o600) later.disk := by
    cases answer with
    | ok _ => exact .inr ends
    | error e => exact .inl (.inl ends)
  refine ⟨⟨seen, history, ?_⟩, ⟨asked, requests, once, ?_⟩, ?_, ?_⟩
  · rw [List.forall_mem_cons]
    exact ⟨moment_old_or_new tree last, fun d member => moment_old_or_new tree (holds d member)⟩
  · intro some_
    by_contra allowed
    exact some_ (unasked allowed)
  · rintro e rfl place
    exact ends.nodes place
  · rintro rfl
    obtain ⟨target, leads, replaced⟩ := ends
    obtain ⟨time, placed⟩ := replaced.placed
    refine ⟨target, _, leads, ?_, placed, rfl, replaced.others, fun old standing => ?_⟩
    · exact (place_alike tree replaced.same_tree path).trans leads
    · exact seen_mode_iff standing

/-- A move that permissions do not stop. -/
def rootMove (source target : Path) (d : Disk) : Except OsError (Unit × Disk) := do
  let place ← d.unbound.locate source
  let ((), moved) ← moveFrom place target d.unbound
  pure ((), { moved with enforced := d.enforced })

def rootHelper : Helper
  | .move source target =>
    failingAs (fun e => .failed (HelperRequest.move source target).written e.message)
      (step (rootMove source target))
  | _ => throw .notConfigured

theorem root_helper_moves : MovesWholly rootHelper := by
  have yields (h : Host) (source target : Path) :
      Yields (LooksAs · h.disk) 0 h (rootHelper (.move source target)) (LooksAs · h.disk) fun _ d =>
        ∃ place there node, h.disk.place? source = some place ∧ h.disk.find? place = some node ∧
          h.disk.place? target = some there ∧ h.disk.hasDirectory there = false ∧
          LooksAs d ((h.disk.erase place).put there node) := by
    refine yields_failing_as (yields_step (LooksAs.refl _) (LooksAs.refl _) fun _ d made => ?_)
    obtain ⟨place, located, made⟩ := Readings.bind_ok.mp made
    obtain ⟨⟨_, moved⟩, move, made⟩ := Readings.bind_ok.mp made
    obtain ⟨there, node, leads, noDirectory, found, rfl⟩ := move_from_ok move
    cases made
    refine ⟨place, there, node, ?_, found, leads, noDirectory, rfl, fun _ => rfl⟩
    rw [place?, located]
    rfl
  refine ⟨fun h source target => ?_, fun h source target later ran => ?_, fun h source target e later ran => ?_⟩
  · exact (yields h source target).1.mono (fun _ => .inl) (Nat.le_refl 0)
  · have ends := (yields h source target).2
    rw [ran] at ends
    exact ends
  · have ends := (yields h source target).2
    rw [ran] at ends
    exact ends

def keptDisk (mode : Nat) : Disk where
  nodes := [([], ⟨.directory, 0o755, 0⟩), (["kept".toList], ⟨.directory, mode, 0⟩),
    (["kept".toList, "a".toList], ⟨.file (.bytes [1, 2]), 0o644, 0⟩), (["tmp".toList], ⟨.directory, 0o755, 0⟩)]
  workingDir := []
  enforced := true
  now := 5

def keptRun (mode : Nat) : Except FileError Unit × Host :=
  (replace "/kept/a".toList [3] "/tmp".toList (some rootHelper)).run (.ofDisk (keptDisk mode))

theorem replace_in_unwritable_directory :
    (keptRun 0o555).1 = .ok () ∧
      (keptRun 0o555).2.disk.standing? "/kept/a".toList = some ⟨.file (.bytes [3]), 0o644, 6⟩ ∧
      AllOrNothing "/kept/a".toList [3] (.ofDisk (keptDisk 0o555)) (keptRun 0o555).1 (keptRun 0o555).2 := by
  have tree : (keptDisk 0o555).Tree := tree_of_nodes (by decide) (by decide) (by decide)
  have law : ∀ serves ∈ some rootHelper, MovesWholly serves := by
    rintro serves same
    cases same
    exact root_helper_moves
  exact ⟨by decide +kernel, by decide +kernel,
    replace_all_or_nothing (.ofDisk (keptDisk 0o555)) tree "/kept/a".toList [3] "/tmp".toList (some rootHelper) law⟩

/-- In a directory that may not be searched the old mode is not seen, and it is lost. -/
theorem mode_lost_in_unsearchable_directory :
    (keptDisk 0o600).Tree ∧ MovesWholly rootHelper ∧
      (keptDisk 0o600).standing? "/kept/a".toList = some ⟨.file (.bytes [1, 2]), 0o644, 0⟩ ∧
      (keptRun 0o600).1 = .ok () ∧
      (keptRun 0o600).2.disk.standing? "/kept/a".toList = some ⟨.file (.bytes [3]), 0o600, 6⟩ :=
  ⟨tree_of_nodes (by decide) (by decide) (by decide), root_helper_moves, by decide +kernel, by decide +kernel,
    by decide +kernel⟩

end FileUpdate
end CrashTriage
