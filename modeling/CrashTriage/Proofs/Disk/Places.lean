import CrashTriage.Disk.Change
import CrashTriage.Proofs.Lists
import CrashTriage.Proofs.Text.Numerals
import Mathlib.Data.List.Nodup
import Mathlib.Data.List.Perm.Subperm

/-
Where paths lead. A path is followed through directories alone, so that disks with the same directories
let it lead to the same place, whatever files stand in them. Permissions only keep a path from being
followed; they never lead it elsewhere.
-/
namespace CrashTriage
namespace Disk

open Text

variable {d d' : Disk} {place other parent : Place} {node : Node} {path : Path}

theorem find_put (d : Disk) (place other : Place) (node : Node) :
    (d.put place node).find? other = if other = place then some node else d.find? other := by
  have kept := Keyed.lookup_filter (fun p => p != place) other d.nodes
  rw [put, find?, List.lookup_cons, kept, find?]
  by_cases same : other = place
  · simp [same]
  · have differs : (other == place) = false := beq_eq_false_iff_ne.mpr same
    simp [same, differs]

theorem find_erase (d : Disk) (place other : Place) :
    (d.erase place).find? other = if other = place then none else d.find? other := by
  have kept := Keyed.lookup_filter (fun p => p != place) other d.nodes
  rw [erase, find?, kept, find?]
  by_cases same : other = place
  · simp [same]
  · simp [same]

theorem temporary_name_injective {m n : Nat} (same : temporaryName m = temporaryName n) : m = n := by
  have digits : padded 6 m = padded 6 n := List.append_cancel_left same
  calc m = Nat.ofDigitChars 10 (padded 6 m) 0 := (padded_value 6 m).symm
    _ = Nat.ofDigitChars 10 (padded 6 n) 0 := by rw [digits]
    _ = n := padded_value 6 n

/-- One name more than there are places is tried, so one of them is free. -/
theorem free_name (d : Disk) (place : Place) :
    d.find? (place ++ [d.freeName place]) = none ∧ ∃ n, d.freeName place = temporaryName n := by
  unfold freeName
  dsimp only
  cases tried : ((List.range (d.nodes.length + 1)).map temporaryName).find? fun name =>
      (d.find? (place ++ [name])).isNone with
  | some name =>
    obtain ⟨n, _, named⟩ := List.mem_map.mp (List.mem_of_find?_eq_some tried)
    have free := List.find?_some tried
    exact ⟨by simpa using free, n, named.symm⟩
  | none =>
    -- every name would stand for a place of its own
    exfalso
    have taken : (List.range (d.nodes.length + 1)).map (fun n => place ++ [temporaryName n]) ⊆
        d.nodes.map (·.1) := by
      intro there member
      obtain ⟨n, inRange, rfl⟩ := List.mem_map.mp member
      have occupied := List.find?_eq_none.mp tried (temporaryName n) (List.mem_map_of_mem inRange)
      by_contra absent
      refine occupied ?_
      rw [Option.isNone_iff_eq_none, find?, List.lookup_eq_none_iff]
      intro entry listed
      rw [bne_iff_ne]
      rintro same
      exact absent (List.mem_map.mpr ⟨entry, listed, same.symm⟩)
    have distinct : ((List.range (d.nodes.length + 1)).map fun n => place ++ [temporaryName n]).Nodup := by
      refine List.Nodup.map (fun m n same => ?_) List.nodup_range
      have names := List.append_cancel_left same
      exact temporary_name_injective (List.cons.inj names).1
    have bound := (List.subperm_of_subset distinct taken).length_le
    simp at bound

def hasDirectory (d : Disk) (place : Place) : Bool := (d.find? place).any (·.isDirectory)

theorem has_directory_iff :
    d.hasDirectory place = true ↔ ∃ node, d.find? place = some node ∧ node.isDirectory = true := by
  unfold hasDirectory
  cases d.find? place <;> simp

/-- Paths start in directories, and directories stand in directories. -/
structure Tree (d : Disk) : Prop where
  root : d.hasDirectory [] = true
  workingDir : d.hasDirectory d.workingDir = true
  parent : ∀ place, d.hasDirectory place = true → d.hasDirectory place.dropLast = true

theorem tree_of_nodes (root : d.hasDirectory [] = true) (workingDir : d.hasDirectory d.workingDir = true)
    (nodes : ∀ n ∈ d.nodes, n.2.isDirectory = true → d.hasDirectory n.1.dropLast = true) : d.Tree := by
  refine ⟨root, workingDir, fun place stands => ?_⟩
  obtain ⟨node, found, kind⟩ := has_directory_iff.mp stands
  obtain ⟨before, after, listed, _⟩ := List.lookup_eq_some_iff.mp found
  exact nodes (place, node) (by simp [listed]) kind

structure SameTree (d d' : Disk) : Prop where
  workingDir : d'.workingDir = d.workingDir
  directories : ∀ place, d'.hasDirectory place = d.hasDirectory place

structure LooksAs (d d' : Disk) : Prop where
  workingDir : d.workingDir = d'.workingDir
  nodes : ∀ place, d.find? place = d'.find? place

/-- The disk as a user sees it whom no permissions bind. -/
def unbound (d : Disk) : Disk := { d with enforced := false }

/-- Where a path leads, may the user follow it or not. -/
def place? (d : Disk) (path : Path) : Option Place := (d.unbound.locate path).toOption

/-- What stands where a path leads. -/
def standing? (d : Disk) (path : Path) : Option Node := (d.place? path).bind d.find?

theorem LooksAs.refl (d : Disk) : LooksAs d d := ⟨rfl, fun _ => rfl⟩

theorem LooksAs.symm (looks : LooksAs d d') : LooksAs d' d :=
  ⟨looks.workingDir.symm, fun place => (looks.nodes place).symm⟩

theorem LooksAs.trans {d'' : Disk} (looks : LooksAs d d') (more : LooksAs d' d'') : LooksAs d d'' :=
  ⟨looks.workingDir.trans more.workingDir, fun place => (looks.nodes place).trans (more.nodes place)⟩

theorem LooksAs.same_tree (looks : LooksAs d d') : SameTree d' d :=
  ⟨looks.workingDir, fun place => by rw [hasDirectory, hasDirectory, looks.nodes place]⟩

theorem require_ok_iff {access : Access} :
    d.require place access = .ok () ↔ ∃ node, d.find? place = some node ∧ d.allows node access = true := by
  unfold require
  cases d.find? place with
  | none => simp
  | some node => cases d.allows node access <;> simp

theorem require_unbound {access : Access} (allowed : d.require place access = .ok ()) :
    d.unbound.require place access = .ok () := by
  obtain ⟨node, found, _⟩ := require_ok_iff.mp allowed
  exact require_ok_iff.mpr ⟨node, found, rfl⟩

theorem require_of_directory (stands : d.hasDirectory place = true) (access : Access) :
    d.unbound.require place access = .ok () := by
  obtain ⟨node, found, _⟩ := has_directory_iff.mp stands
  exact require_ok_iff.mpr ⟨node, found, rfl⟩

theorem stat_ok_iff : d.stat path = .ok node ↔ ∃ place, d.locate path = .ok place ∧ d.find? place = some node := by
  unfold stat
  rw [Readings.bind_ok]
  refine exists_congr fun place => and_congr_right fun _ => ?_
  cases d.find? place with
  | none => exact ⟨nofun, nofun⟩
  | some other =>
    constructor
    · intro same
      exact congrArg some (Except.ok.inj same)
    · intro same
      exact congrArg Except.ok (Option.some.inj same)

theorem to_option_bind {ε α β : Type} (first : Except ε α) (next : α → Except ε β) :
    (first >>= next).toOption = first.toOption.bind fun a => (next a).toOption := by
  cases first <;> rfl

theorem enter_searched {name : Text} {rest : List Text} (allowed : d.require place .search = .ok ()) :
    d.enter place (name :: rest) =
      if name = ['.', '.'] then d.enter place.dropLast rest
      else if byteSize name > nameLimit then .error .nameTooLong
      else match d.find? (place ++ [name]) with
        | none => .error .notFound
        | some node => if node.isDirectory then d.enter (place ++ [name]) rest else .error .notDirectory := by
  rw [enter, allowed]
  rfl

/-- One name on the way of a user whom no permissions bind. -/
theorem enter_cons (stands : d.hasDirectory place = true) (name : Text) (rest : List Text) :
    (d.unbound.enter place (name :: rest)).toOption =
      if name = ['.', '.'] then (d.unbound.enter place.dropLast rest).toOption
      else if nameLimit < byteSize name then none
      else if d.hasDirectory (place ++ [name]) then (d.unbound.enter (place ++ [name]) rest).toOption
      else none := by
  have same : d.unbound.find? (place ++ [name]) = d.find? (place ++ [name]) := rfl
  rw [enter_searched (require_of_directory stands _), same]
  split
  · rfl
  · split
    · rfl
    · unfold hasDirectory
      cases d.find? (place ++ [name]) with
      | none => rfl
      | some node =>
        cases kind : node.isDirectory with
        | true => simp [kind]
        | false =>
          simp only [kind, Option.any_some, Bool.false_eq_true, if_false]
          rfl

theorem enter_inverted {name : Text} {rest : List Text}
    (entered : d.enter place (name :: rest) = .ok other) :
    d.require place .search = .ok () ∧
      ((name = ['.', '.'] ∧ d.enter place.dropLast rest = .ok other) ∨
        (name ≠ ['.', '.'] ∧ byteSize name ≤ nameLimit ∧ d.hasDirectory (place ++ [name]) = true ∧
          d.enter (place ++ [name]) rest = .ok other)) := by
  obtain ⟨_, allowed, _⟩ := Readings.bind_ok.mp entered
  rw [enter_searched allowed] at entered
  refine ⟨allowed, ?_⟩
  split at entered
  · rename_i up
    exact .inl ⟨up, entered⟩
  · rename_i down
    split at entered
    · cases entered
    · rename_i short
      split at entered
      · cases entered
      · rename_i node found
        split at entered
        · rename_i kind
          exact .inr ⟨down, Nat.le_of_not_lt short, has_directory_iff.mpr ⟨node, found, kind⟩, entered⟩
        · cases entered

theorem enter_into {name : Text} {rest : List Text} (allowed : d.require place .search = .ok ())
    (down : name ≠ ['.', '.']) (short : byteSize name ≤ nameLimit) (kind : d.hasDirectory (place ++ [name]) = true) :
    d.enter place (name :: rest) = d.enter (place ++ [name]) rest := by
  obtain ⟨node, found, isDirectory⟩ := has_directory_iff.mp kind
  rw [enter_searched allowed, if_neg down, if_neg (Nat.not_lt.mpr short), found]
  exact if_pos isDirectory

theorem enter_further {steps : List Text} (entered : d.enter place steps = .ok other) (more : List Text) :
    d.enter place (steps ++ more) = d.enter other more := by
  induction steps generalizing place with
  | nil =>
    cases entered
    rfl
  | cons name rest ih =>
    rw [List.cons_append]
    obtain ⟨allowed, ⟨up, entered⟩ | ⟨down, short, kind, entered⟩⟩ := enter_inverted entered
    · rw [enter_searched allowed, if_pos up]
      exact ih entered
    · rw [enter_into allowed down short kind]
      exact ih entered

theorem enter_directory (tree : d.Tree) {steps : List Text} (stands : d.hasDirectory place = true)
    (entered : d.enter place steps = .ok other) : d.hasDirectory other = true := by
  induction steps generalizing place with
  | nil =>
    cases entered
    exact stands
  | cons name rest ih =>
    obtain ⟨_, ⟨_, more⟩ | ⟨_, _, kind, more⟩⟩ := enter_inverted entered
    · exact ih (tree.parent place stands) more
    · exact ih kind more

theorem enter_alike (tree : d.Tree) (same : SameTree d d') (steps : List Text)
    (stands : d.hasDirectory place = true) :
    (d'.unbound.enter place steps).toOption = (d.unbound.enter place steps).toOption := by
  induction steps generalizing place with
  | nil => rfl
  | cons name rest ih =>
    rw [enter_cons stands, enter_cons ((same.directories place).trans stands), same.directories]
    split
    · exact ih (tree.parent place stands)
    · split
      · rfl
      · split
        · rename_i kind
          exact ih kind
        · rfl

theorem enter_unbound {steps : List Text} (entered : d.enter place steps = .ok other) :
    d.unbound.enter place steps = .ok other := by
  induction steps generalizing place with
  | nil => exact entered
  | cons name rest ih =>
    obtain ⟨allowed, ⟨up, more⟩ | ⟨down, short, kind, more⟩⟩ := enter_inverted entered
    · rw [enter_searched (require_unbound allowed), if_pos up]
      exact ih more
    · rw [enter_into (require_unbound allowed) down short kind]
      exact ih more

theorem route_start {r : Route} (routed : d.route path = .ok r) : r.start = [] ∨ r.start = d.workingDir := by
  unfold route at routed
  dsimp only at routed
  repeat' split at routed
  all_goals cases routed
  · exact .inr rfl
  · exact .inr rfl
  · exact .inl rfl

theorem route_directory (tree : d.Tree) {r : Route} (routed : d.route path = .ok r) :
    d.hasDirectory r.start = true := by
  rcases route_start routed with atRoot | inWork
  · exact atRoot ▸ tree.root
  · exact inWork ▸ tree.workingDir

theorem route_alike (same : d'.workingDir = d.workingDir) (path : Path) : d'.route path = d.route path := by
  rw [route, route, same]

/-- The last name of a path, its directory having been entered. -/
def settle (d : Disk) (slash : Bool) (last : Text) (parent : Place) : Except OsError Place :=
  if last = ['.', '.'] then d.enter parent [last]
  else do
    d.require parent .search
    if byteSize last > nameLimit then throw .nameTooLong
    else if slash then d.enter parent [last]
    else pure (parent ++ [last])

theorem locate_routed {r : Route} (routed : d.route path = .ok r) :
    d.locate path = match r.steps.getLast? with
      | none => .ok r.start
      | some last => d.enter r.start r.steps.dropLast >>= d.settle r.slash last := by
  rw [locate, routed]
  rfl

theorem settle_bare_iff {last : Text} (down : last ≠ ['.', '.']) : d.settle false last parent = .ok place ↔
    d.require parent .search = .ok () ∧ byteSize last ≤ nameLimit ∧ place = parent ++ [last] := by
  rw [settle, if_neg down]
  constructor
  · intro settled
    obtain ⟨_, allowed, settled⟩ := Readings.bind_ok.mp settled
    split at settled
    · cases settled
    · rename_i short
      cases settled
      exact ⟨allowed, Nat.le_of_not_lt short, rfl⟩
  · rintro ⟨allowed, short, rfl⟩
    refine Readings.bind_ok.mpr ⟨(), allowed, ?_⟩
    rw [if_neg (Nat.not_lt.mpr short)]
    rfl

/-- A path that leads to a directory is entered with its last name. -/
theorem enter_of_locate {r : Route} (routed : d.route path = .ok r) (located : d.locate path = .ok place)
    (stands : d.hasDirectory place = true) : d.enter r.start r.steps = .ok place := by
  rw [locate_routed routed] at located
  cases last : r.steps.getLast? with
  | none =>
    rw [last] at located
    rw [List.getLast?_eq_none_iff.mp last]
    exact located
  | some name =>
    rw [last] at located
    obtain ⟨parent, entered, settled⟩ := Readings.bind_ok.mp located
    have steps : r.steps = r.steps.dropLast ++ [name] := (List.dropLast_append_getLast? name last).symm
    rw [steps, enter_further entered]
    unfold settle at settled
    split at settled
    · exact settled
    · rename_i down
      obtain ⟨_, allowed, settled⟩ := Readings.bind_ok.mp settled
      split at settled
      · cases settled
      · rename_i short
        split at settled
        · exact settled
        · cases settled
          exact enter_into allowed down (Nat.le_of_not_lt short) stands

theorem settle_unbound {slash : Bool} {last : Text} (settled : d.settle slash last parent = .ok place) :
    d.unbound.settle slash last parent = .ok place := by
  unfold settle at settled ⊢
  split
  · rename_i up
    rw [if_pos up] at settled
    exact enter_unbound settled
  · rename_i down
    rw [if_neg down] at settled
    obtain ⟨_, allowed, settled⟩ := Readings.bind_ok.mp settled
    refine Readings.bind_ok.mpr ⟨(), require_unbound allowed, ?_⟩
    split
    · rename_i long
      rw [if_pos long] at settled
      exact settled
    · rename_i short
      rw [if_neg short] at settled
      split
      · rename_i slashed
        rw [if_pos slashed] at settled
        exact enter_unbound settled
      · rename_i bare
        rw [if_neg bare] at settled
        exact settled

/-- Who may follow a path is led where all others would be. -/
theorem place_of_locate (located : d.locate path = .ok place) : d.place? path = some place := by
  obtain ⟨r, routed, _⟩ := Readings.bind_ok.mp located
  rw [locate_routed routed] at located
  have routedToo : d.unbound.route path = .ok r := routed
  rw [place?, locate_routed routedToo]
  cases last : r.steps.getLast? with
  | none =>
    rw [last] at located
    cases located
    rfl
  | some name =>
    rw [last] at located
    obtain ⟨parent, entered, settled⟩ := Readings.bind_ok.mp located
    dsimp only
    rw [Readings.bind_ok.mpr ⟨parent, enter_unbound entered, settle_unbound settled⟩]
    rfl

theorem settle_alike (tree : d.Tree) (same : SameTree d d') (stands : d.hasDirectory parent = true)
    (slash : Bool) (last : Text) :
    (d'.unbound.settle slash last parent).toOption = (d.unbound.settle slash last parent).toOption := by
  unfold settle
  rw [require_of_directory stands, require_of_directory ((same.directories parent).trans stands)]
  have alike := enter_alike tree same [last] stands
  split
  · exact alike
  · show (if byteSize last > nameLimit then throw OsError.nameTooLong
      else if slash then d'.unbound.enter parent [last] else pure (parent ++ [last])).toOption =
        (if byteSize last > nameLimit then throw OsError.nameTooLong
          else if slash then d.unbound.enter parent [last] else pure (parent ++ [last])).toOption
    split
    · rfl
    · split
      · exact alike
      · rfl

/-- Files do not lead a path elsewhere. -/
theorem place_alike (tree : d.Tree) (same : SameTree d d') (path : Path) :
    d'.place? path = d.place? path := by
  have routes : d'.unbound.route path = d.unbound.route path := route_alike same.workingDir path
  unfold place?
  cases routed : d.unbound.route path with
  | error e =>
    rw [routed] at routes
    rw [locate, locate, routes, routed]
    rfl
  | ok r =>
    rw [locate_routed routed, locate_routed (routes.trans routed)]
    cases r.steps.getLast? with
    | none => rfl
    | some last =>
      have stands : d.hasDirectory r.start = true := route_directory tree routed
      -- both disks lead through the same directories up to the last name
      have alike := enter_alike tree same r.steps.dropLast stands
      dsimp only
      rw [to_option_bind, to_option_bind, alike]
      cases entered : d.unbound.enter r.start r.steps.dropLast with
      | error e => rfl
      | ok parent =>
        have unboundTree : d.unbound.Tree := ⟨tree.root, tree.workingDir, tree.parent⟩
        have inside : d.unbound.hasDirectory parent = true := enter_directory unboundTree stands entered
        exact settle_alike tree same inside r.slash last

/-- The name that a change is made under is where the path leads. -/
theorem place_of_parent {unnamed : OsError} {name : Text}
    (entered : d.enterParent path unnamed = .ok (parent, name, false)) :
    d.place? path = some (parent ++ [name]) := by
  apply place_of_locate
  obtain ⟨r, routed, entered⟩ := Readings.bind_ok.mp entered
  rw [locate_routed routed]
  cases last : r.steps.getLast? with
  | none =>
    rw [last] at entered
    cases entered
  | some step =>
    rw [last] at entered
    obtain ⟨place, there, entered⟩ := Readings.bind_ok.mp entered
    obtain ⟨_, allowed, entered⟩ := Readings.bind_ok.mp entered
    dsimp only at entered
    split at entered
    · cases entered
    · rename_i down
      split at entered
      · cases entered
      · rename_i short
        obtain ⟨rfl, rfl, bare⟩ : place = parent ∧ step = name ∧ r.slash = false := by
          simpa using Except.ok.inj entered
        refine Readings.bind_ok.mpr ⟨place, there, ?_⟩
        rw [settle, if_neg down]
        refine Readings.bind_ok.mpr ⟨(), allowed, ?_⟩
        rw [if_neg short, if_neg (by simp [bare])]
        rfl

end Disk
end CrashTriage
