import CrashTriage.Proofs.Disk.Places
import CrashTriage.Proofs.Path.Parents
import CrashTriage.Proofs.Text.Names
import CrashTriage.Proofs.Text.Words

/-
A path that is made longer by one name. A plain name is one more step, wherever the path leads; the names
of temporary files are plain.
-/
namespace CrashTriage
namespace Disk

open Text

variable {d : Disk} {place parent : Place} {path : Path}

def namesOf (path : Path) : List Text := (split '/' path).filter fun s => !s.isEmpty && s != ['.']

/-- A name that is taken as it is written, whatever path it ends. -/
structure PlainName (name : Text) : Prop where
  nonempty : name ≠ []
  free : '/' ∉ name
  stops : name.getLast? ≠ some '.'
  fresh : name ∉ workingDirName

namespace PlainName

variable {name : Text}

theorem notDot (plain : PlainName name) : name ≠ ['.'] := by
  rintro rfl
  exact plain.stops rfl

theorem notUp (plain : PlainName name) : name ≠ ['.', '.'] := by
  rintro rfl
  exact plain.stops rfl

end PlainName

theorem names_between (s t : Path) : namesOf (s ++ '/' :: t) = namesOf s ++ namesOf t := by
  have cut : split '/' (s ++ '/' :: t) = split '/' s ++ split '/' t :=
    @split_by_separator (· == '/') '/' rfl s t
  rw [namesOf, cut, List.filter_append]
  rfl

theorem names_before_slash (front : Path) : namesOf (front ++ ['/']) = namesOf front :=
  (names_between front []).trans (List.append_nil _)

theorem names_of_plain {name : Text} (plain : PlainName name) : namesOf name = [name] := by
  rw [namesOf, split_without plain.free]
  simp [plain.nonempty, plain.notDot]

theorem absolute_start (absolute : Path.isAbsolute path = true) : ∃ rest, path = '/' :: rest := by
  unfold Path.isAbsolute at absolute
  split at absolute
  · exact ⟨_, rfl⟩
  · cases absolute

theorem absolute_join (start path : Path) (absolute : Path.isAbsolute start = true) :
    Path.isAbsolute (Path.join start path) = true := by
  obtain ⟨rest, rfl⟩ := absolute_start absolute
  unfold Path.join
  split
  · rename_i jumps
    simpa using jumps
  · split <;> rfl

theorem absolute_append {base : Path} (nonempty : base ≠ []) (more : Path) :
    Path.isAbsolute (base ++ more) = Path.isAbsolute base := by
  cases base with
  | nil => contradiction
  | cons c base =>
    rw [List.cons_append]
    unfold Path.isAbsolute
    by_cases slash : c = '/' <;> simp [slash]

theorem absolute_absolute (d : Disk) (path : Path) : Path.isAbsolute (d.absolute path) = true := by
  unfold absolute
  split
  · assumption
  · apply absolute_join
    cases d.workingDir <;> rfl

theorem absolute_alike {d' : Disk} (same : d'.workingDir = d.workingDir) (path : Path) :
    d'.absolute path = d.absolute path := by
  rw [absolute, absolute, same]

/-- A name under a path stands behind a slash, which may end the path already. -/
theorem join_name_eq {base : Path} {name : Text} (nonempty : base ≠ []) (free : '/' ∉ name) :
    ∃ front, Path.join base name = front ++ '/' :: name ∧ (base = front ∨ base = front ++ ['/']) := by
  have relative := Path.relative_name free
  unfold Path.join
  rw [relative, if_neg (by simpa using nonempty)]
  split
  · rename_i slashed
    obtain ⟨front, rfl⟩ := List.isSuffixOf_iff_suffix.mp slashed
    exact ⟨front, List.append_assoc front ['/'] name, .inr rfl⟩
  · exact ⟨base, rfl, .inl rfl⟩

theorem names_of_join {base : Path} {name : Text} (nonempty : base ≠ []) (free : '/' ∉ name) :
    namesOf (Path.join base name) = namesOf base ++ namesOf name := by
  obtain ⟨front, joined, rfl | rfl⟩ := join_name_eq nonempty free
  · rw [joined, names_between]
  · rw [joined, names_between, names_before_slash]

theorem absolute_of_join {base : Path} {name : Text} (nonempty : base ≠ []) (free : '/' ∉ name) :
    Path.isAbsolute (Path.join base name) = Path.isAbsolute base := by
  obtain ⟨front, joined, rfl | rfl⟩ := join_name_eq nonempty free
  · rw [joined, absolute_append nonempty]
  · rw [joined]
    by_cases root : front = []
    · rw [root]
      rfl
    · rw [absolute_append root, absolute_append root]

/-- The component that a step of a path is. -/
def componentOf (step : Text) : Component := if step = ['.', '.'] then .parent else .name step

/-- Behind the head of a path all its names are components. -/
theorem components_behind_head {start : Nat} (behind : 0 < start) (segments : List Text) :
    (Path.segmentSpans start segments).map (·.component) =
      (segments.filter fun s => !s.isEmpty && s != ['.']).map componentOf := by
  induction segments generalizing start with
  | nil => rfl
  | cons segment segments ih =>
    have headless : start ≠ 0 := Nat.ne_of_gt behind
    rw [Path.segment_spans_cons, List.map_append, ih (by omega)]
    unfold Path.spanOf? componentOf
    by_cases empty : segment = []
    · simp [empty]
    · by_cases dot : segment = ['.']
      · simp [dot, headless]
      · by_cases up : segment = ['.', '.'] <;> simp [empty, dot, up]

theorem components_of_absolute (absolute : Path.isAbsolute path = true) :
    Path.components path = .root :: (namesOf path).map componentOf := by
  obtain ⟨rest, rfl⟩ := absolute_start absolute
  have cut : split '/' ('/' :: rest) = [] :: split '/' rest := split_at_separator List.not_mem_nil rest
  have names : namesOf ('/' :: rest) = namesOf rest := names_between [] rest
  rw [Path.components, Path.spans, if_pos absolute, cut, Path.segment_spans_cons, names]
  exact congrArg (Component.root :: ·) (components_behind_head (Nat.zero_lt_succ 0) (split '/' rest))

theorem root_component_iff (path : Path) : .root ∈ Path.components path ↔ Path.isAbsolute path = true := by
  cases absolute : Path.isAbsolute path with
  | true => simp [components_of_absolute absolute]
  | false =>
    simp only [Bool.false_eq_true, iff_false]
    intro root
    rw [Path.components, Path.spans, absolute] at root
    obtain ⟨s, member, same⟩ := List.mem_map.mp root
    exact Path.segment_not_root 0 _ s member same

/-- Made absolute, a path has other components unless it was absolute before. -/
theorem absolute_components_iff (d : Disk) (path : Path) :
    Path.components (d.absolute path) = Path.components path ↔ Path.isAbsolute path = true := by
  constructor
  · intro same
    rw [← root_component_iff, ← same, root_component_iff]
    exact absolute_absolute d path
  · intro absolute
    rw [Disk.absolute, if_pos absolute]

/-- The route along names. -/
def routeOf (d : Disk) (absolute : Bool) (names : List Text) (slash : Bool) : Route :=
  if !absolute then ⟨d.workingDir, names, slash⟩
  else if workingDirName.isPrefixOf names then ⟨d.workingDir, names.drop workingDirName.length, slash⟩
  else ⟨[], names, slash⟩

theorem route_within (nonempty : path ≠ []) (noNul : '\x00' ∉ path) (short : byteSize path < pathLimit) :
    d.route path = .ok (d.routeOf (Path.isAbsolute path) (namesOf path)
      (endsWith path ['/'] || endsWith path ['/', '.'] || path == ['.'])) := by
  have nonempty : path.isEmpty = false := by simpa using nonempty
  have noNul : path.any (· == '\x00') = false := by
    rw [List.any_eq_false]
    intro c member nul
    exact noNul (beq_iff_eq.mp nul ▸ member)
  unfold route routeOf namesOf
  dsimp only
  rw [nonempty, noNul, if_neg (by decide), if_neg (by decide), if_neg (Nat.not_le.mpr short)]
  split
  · rfl
  · split <;> rfl

theorem route_ok_iff {r : Route} : d.route path = .ok r ↔
    path ≠ [] ∧ '\x00' ∉ path ∧ byteSize path < pathLimit ∧
      r = d.routeOf (Path.isAbsolute path) (namesOf path)
        (endsWith path ['/'] || endsWith path ['/', '.'] || path == ['.']) := by
  constructor
  · intro routed
    have limits : path ≠ [] ∧ '\x00' ∉ path ∧ byteSize path < pathLimit := by
      unfold route at routed
      dsimp only at routed
      split at routed
      · cases routed
      · rename_i nonempty
        split at routed
        · cases routed
        · rename_i noNul
          split at routed
          · cases routed
          · rename_i short
            exact ⟨by simpa using nonempty, by simpa using noNul, Nat.lt_of_not_le short⟩
    obtain ⟨nonempty, noNul, short⟩ := limits
    rw [route_within nonempty noNul short] at routed
    exact ⟨nonempty, noNul, short, (Except.ok.inj routed).symm⟩
  · rintro ⟨nonempty, noNul, short, rfl⟩
    exact route_within nonempty noNul short

@[simp] theorem route_of_slash (d : Disk) (absolute : Bool) (names : List Text) (slash : Bool) :
    (d.routeOf absolute names slash).slash = slash := by
  unfold routeOf
  split
  · rfl
  · split <;> rfl

theorem route_by_names {r : Route} (routed : d.route path = .ok r) :
    r = d.routeOf (Path.isAbsolute path) (namesOf path) r.slash := by
  obtain ⟨_, _, _, rfl⟩ := route_ok_iff.mp routed
  rw [route_of_slash]

/-- A plain name makes no route start at the working directory that starts elsewhere without it. -/
theorem route_of_concat {name : Text} (plain : PlainName name) (absolute : Bool) (names : List Text) (slash : Bool) :
    d.routeOf absolute (names ++ [name]) false =
      ⟨(d.routeOf absolute names slash).start, (d.routeOf absolute names slash).steps ++ [name], false⟩ := by
  have ownRoot : workingDirName.isPrefixOf (names ++ [name]) = workingDirName.isPrefixOf names := by
    rw [Bool.eq_iff_iff, List.isPrefixOf_iff_prefix, List.isPrefixOf_iff_prefix, List.prefix_concat_iff]
    constructor
    · rintro (same | front)
      · exact absurd (same ▸ List.mem_append_right _ (List.mem_singleton_self name)) plain.fresh
      · exact front
    · exact .inr
  unfold routeOf
  rw [ownRoot]
  split
  · rfl
  · split
    · rename_i own
      have inside := (List.isPrefixOf_iff_prefix.mp own).length_le
      rw [List.drop_append_of_le_length inside]
    · rfl

theorem plain_ends_no_path {name : Text} (plain : PlainName name) (front : Path) :
    (endsWith (front ++ '/' :: name) ['/'] || endsWith (front ++ '/' :: name) ['/', '.'] ||
      front ++ '/' :: name == ['.']) = false := by
  have last : (front ++ '/' :: name).getLast? = name.getLast? := by
    obtain ⟨c, rest, rfl⟩ := List.exists_cons_of_ne_nil plain.nonempty
    rw [List.getLast?_append, List.getLast?_cons_cons]
    cases found : (c :: rest).getLast? with
    | none => simp at found
    | some d => rfl
  have notEnd : ∀ ending c, (ending ++ [c] : Text) <:+ front ++ '/' :: name → name.getLast? = some c := by
    rintro ending c ⟨more, same⟩
    rw [← last, ← same, ← List.append_assoc, List.getLast?_concat]
  have noSlash : name.getLast? ≠ some '/' := fun ends => plain.free (List.mem_of_getLast? ends)
  simp only [Bool.or_eq_false_iff, beq_eq_false_iff_ne, endsWith]
  refine ⟨⟨?_, ?_⟩, ?_⟩
  · rw [Bool.eq_false_iff]
    exact fun ends => noSlash (notEnd [] '/' (List.isSuffixOf_iff_suffix.mp ends))
  · rw [Bool.eq_false_iff]
    exact fun ends => plain.stops (notEnd ['/'] '.' (List.isSuffixOf_iff_suffix.mp ends))
  · intro same
    exact plain.stops (notEnd [] '.' ⟨[], by rw [same]; rfl⟩)

/-- A plain name under a path is one more step of that path. -/
theorem route_of_join_iff {base : Path} {name : Text} (plain : PlainName name) {r r' : Route}
    (routed : d.route base = .ok r) : d.route (Path.join base name) = .ok r' ↔
      '\x00' ∉ name ∧ byteSize (Path.join base name) < pathLimit ∧ r' = ⟨r.start, r.steps ++ [name], false⟩ := by
  obtain ⟨nonempty, noNul, _, rfl⟩ := route_ok_iff.mp routed
  obtain ⟨front, joined, parts⟩ := join_name_eq nonempty plain.free
  have someName : Path.join base name ≠ [] := by simp [joined]
  have nuls : '\x00' ∉ Path.join base name ↔ '\x00' ∉ name := by
    have inFront : '\x00' ∉ front := by
      rcases parts with rfl | rfl
      · exact noNul
      · exact fun there => noNul (List.mem_append_left _ there)
    simp [joined, inFront]
  have ends := plain_ends_no_path plain front
  rw [← joined] at ends
  rw [route_ok_iff, nuls, ends, absolute_of_join nonempty plain.free, names_of_join nonempty plain.free,
    names_of_plain plain, route_of_concat plain]
  exact ⟨fun ⟨_, more⟩ => more, fun more => ⟨someName, more⟩⟩

/-- What has a plain name in a directory is where the path of the directory leads with that name, when it leads
there. -/
theorem locate_of_join_iff {base : Path} {name : Text} (plain : PlainName name)
    (located : d.locate base = .ok parent) (stands : d.hasDirectory parent = true) :
    d.locate (Path.join base name) = .ok place ↔
      '\x00' ∉ name ∧ byteSize (Path.join base name) < pathLimit ∧ d.require parent .search = .ok () ∧
        byteSize name ≤ nameLimit ∧ place = parent ++ [name] := by
  obtain ⟨r, routed, _⟩ := Readings.bind_ok.mp located
  have entered := enter_of_locate routed located stands
  -- with a route for the longer path, only the last name is left to be settled
  have settles (joined : d.route (Path.join base name) = .ok ⟨r.start, r.steps ++ [name], false⟩) :
      d.locate (Path.join base name) = d.settle false name parent := by
    rw [locate_routed joined]
    dsimp only
    rw [List.getLast?_concat, List.dropLast_concat, entered]
    rfl
  constructor
  · intro leads
    obtain ⟨r', joined, _⟩ := Readings.bind_ok.mp leads
    obtain ⟨noNul, short, rfl⟩ := (route_of_join_iff plain routed).mp joined
    rw [settles joined] at leads
    exact ⟨noNul, short, (settle_bare_iff plain.notUp).mp leads⟩
  · rintro ⟨noNul, short, more⟩
    rw [settles ((route_of_join_iff plain routed).mpr ⟨noNul, short, rfl⟩)]
    exact (settle_bare_iff plain.notUp).mpr more

theorem place_of_join {base : Path} {name : Text} (plain : PlainName name) {r : Route}
    (routed : d.route base = .ok r) (entered : d.enter r.start r.steps = .ok parent)
    (leads : d.place? (Path.join base name) = some place) : place = parent ++ [name] := by
  unfold place? at leads
  cases located : d.unbound.locate (Path.join base name) with
  | error e =>
    rw [located] at leads
    cases leads
  | ok there =>
    rw [located] at leads
    obtain rfl : there = place := Option.some.inj leads
    obtain ⟨r', joined, _⟩ := Readings.bind_ok.mp located
    obtain ⟨_, _, rfl⟩ := (route_of_join_iff plain (d := d) routed).mp joined
    rw [locate_routed joined] at located
    dsimp only at located
    rw [List.getLast?_concat, List.dropLast_concat, enter_unbound entered] at located
    exact ((settle_bare_iff plain.notUp).mp located).2.2

theorem temporary_name_plain (n : Nat) : PlainName (temporaryName n) := by
  have digits := padded_digits 6 n
  have start : temporaryName n = ['.', 't', 'm', 'p'] ++ padded 6 n := rfl
  obtain ⟨front, c, ended⟩ : ∃ front c, padded 6 n = front ++ [c] := by
    rcases List.eq_nil_or_concat (padded 6 n) with none | ⟨front, c, same⟩
    · have both := List.append_eq_nil_iff.mp none
      exact absurd both.2 (of_nat_ne_nil n)
    · exact ⟨front, c, by rw [same, List.concat_eq_append]⟩
  refine ⟨by simp [start], ?_, ?_, ?_⟩
  · intro slash
    rw [start] at slash
    rcases List.mem_append.mp slash with among | digit
    · revert among
      decide
    · exact absurd (digits '/' digit) (by decide)
  · rw [start, ended, ← List.append_assoc, List.getLast?_concat]
    intro dot
    obtain rfl := Option.some.inj dot
    exact absurd (digits '.' (by simp [ended])) (by decide)
  · intro fixed
    have heads : ∀ step ∈ workingDirName, step.head? ≠ some '.' := by decide
    exact heads _ fixed rfl

end Disk
end CrashTriage
