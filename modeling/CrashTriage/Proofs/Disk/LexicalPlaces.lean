import CrashTriage.Proofs.Disk.JoinedPaths

/-
Where paths lead by their names alone. Names take some names off the place that they start from and put
others there, so that they stay below every place just when no beginning of them has more `..` than names.
-/
namespace CrashTriage
namespace Disk

open Text

variable {d : Disk} {p q : Path} {names : List Text}

/-- The name that a component adds to the way. -/
def stepOf? : Component → Option Text
  | .root | .current => none
  | .parent => some ['.', '.']
  | .name text => some text

theorem steps_of_segments (start : Nat) (segments : List Text) :
    ((Path.segmentSpans start segments).map (·.component)).filterMap stepOf? =
      segments.filter fun s => !s.isEmpty && s != ['.'] := by
  induction segments generalizing start with
  | nil => rfl
  | cons segment segments ih =>
    rw [Path.segment_spans_cons, List.map_append, List.filterMap_append, ih]
    unfold Path.spanOf?
    by_cases empty : segment = []
    · simp [empty]
    · by_cases dot : segment = ['.']
      · by_cases head : start = 0 <;> simp [dot, head, stepOf?]
      · by_cases up : segment = ['.', '.'] <;> simp [empty, dot, up, stepOf?]

theorem names_of_components (path : Path) : (Path.components path).filterMap stepOf? = namesOf path := by
  rw [Path.components, Path.spans, List.map_append, List.filterMap_append, steps_of_segments]
  cases Path.isAbsolute path <;> rfl

/-- Paths with the same components are followed alike, but for a slash at their ends. -/
theorem route_of_components {r r' : Route} (same : Path.components p = Path.components q)
    (routed : d.route p = .ok r) (routed' : d.route q = .ok r') (slash : r.slash = r'.slash) : r = r' := by
  have names : namesOf p = namesOf q := by rw [← names_of_components, same, names_of_components]
  have absolute : Path.isAbsolute p = Path.isAbsolute q := by
    rw [Bool.eq_iff_iff, ← root_component_iff, same, root_component_iff]
  rw [route_by_names routed, route_by_names routed', names, absolute, slash]

theorem read_of_route (same : d.route p = d.route q) : d.read p = d.read q := by
  have located : d.locate p = d.locate q := by rw [locate, locate, same]
  rw [read, read, stat, stat, located]

/-- Where a path leads by its names alone, each `..` leading back over the name before it. -/
def placeFrom (workingDir : Place) (p : Path) : Place :=
  lexicalPlace (if Path.isAbsolute p then [] else workingDir) (namesOf p)

theorem lexical_place_append (start : Place) (names more : List Text) :
    lexicalPlace start (names ++ more) = lexicalPlace (lexicalPlace start names) more := by
  induction names generalizing start with
  | nil => rfl
  | cons name names ih =>
    rw [List.cons_append, lexicalPlace, lexicalPlace]
    exact ih _

theorem names_behind_slashes (p : Path) : namesOf (p.dropWhile (· == '/')) = namesOf p := by
  induction p with
  | nil => rfl
  | cons c p ih =>
    rw [List.dropWhile_cons]
    split
    · rename_i slash
      obtain rfl := beq_iff_eq.mp slash
      rw [ih]
      exact (names_between [] p).symm
    · rfl

theorem behind_slashes_relative (p : Path) : Path.isAbsolute (p.dropWhile (· == '/')) = false := by
  unfold Path.isAbsolute
  split
  · rename_i rest starts
    have stops : ('/' == '/') = false := drop_stops (p := (· == '/')) (t := p) (by rw [starts]; rfl)
    contradiction
  · rfl

/-- A relative path is followed from where the base leads. -/
theorem place_of_joined (workingDir : Place) (base : Path) {p : Path} (relative : Path.isAbsolute p = false) :
    placeFrom workingDir (Path.join base p) = lexicalPlace (placeFrom workingDir base) (namesOf p) := by
  unfold Path.join
  rw [relative, Bool.false_or]
  split
  · rename_i empty
    rw [List.isEmpty_iff.mp empty, placeFrom, relative]
    rfl
  · rename_i nonempty
    have nonempty : base ≠ [] := by simpa using nonempty
    split
    · rename_i slashed
      obtain ⟨front, rfl⟩ := List.isSuffixOf_iff_suffix.mp slashed
      rw [placeFrom, placeFrom, absolute_append nonempty, names_before_slash, List.append_assoc,
        List.singleton_append, names_between, lexical_place_append]
    · rw [placeFrom, placeFrom, absolute_append nonempty, names_between, lexical_place_append]

/-- A name as a path of its own, which leads to what has that name. -/
structure SingleName (name : Text) : Prop where
  nonempty : name ≠ []
  free : '/' ∉ name
  notDot : name ≠ ['.']
  notUp : name ≠ ['.', '.']

theorem PlainName.single {name : Text} (plain : PlainName name) : SingleName name :=
  ⟨plain.nonempty, plain.free, plain.notDot, plain.notUp⟩

theorem names_of_single {name : Text} (single : SingleName name) : namesOf name = [name] := by
  rw [namesOf, split_without single.free]
  simp [single.nonempty, single.notDot]

theorem lexical_place_single {name : Text} (single : SingleName name) (start : Place) :
    lexicalPlace start [name] = start ++ [name] := if_neg single.notUp

theorem place_of_single (workingDir : Place) {name : Text} (single : SingleName name) (directory : Path) :
    placeFrom workingDir (Path.join directory name) = placeFrom workingDir directory ++ [name] := by
  rw [place_of_joined workingDir directory (Path.relative_name single.free), names_of_single single,
    lexical_place_single single]

/-- What names do to any place they start from: so many names are taken off its end, and others are put
there. -/
structure Trail where
  up : Nat
  down : List Text
deriving DecidableEq, Repr

namespace Trail

def step (t : Trail) (name : Text) : Trail :=
  if name ≠ ['.', '.'] then ⟨t.up, t.down ++ [name]⟩
  else if t.down = [] then ⟨t.up + 1, []⟩
  else ⟨t.up, t.down.dropLast⟩

def ofNames (names : List Text) : Trail := names.foldl step ⟨0, []⟩

def landing (t : Trail) (start : Place) : Place := start.take (start.length - t.up) ++ t.down

theorem of_names_concat (names : List Text) (name : Text) :
    ofNames (names ++ [name]) = (ofNames names).step name := by
  rw [ofNames, List.foldl_append]
  rfl

theorem landing_step (t : Trail) (start : Place) (name : Text) :
    lexicalPlace (t.landing start) [name] = (t.step name).landing start := by
  obtain ⟨up, down⟩ := t
  unfold step landing
  rw [lexicalPlace, lexicalPlace]
  by_cases goesUp : name = ['.', '.']
  · rw [if_pos goesUp, if_neg (by simpa using goesUp)]
    by_cases atStart : down = []
    · rw [if_pos atStart, atStart, List.append_nil, List.append_nil, List.dropLast_eq_take, List.take_take,
        List.length_take]
      congr 1
      dsimp only
      omega
    · rw [if_neg atStart, List.dropLast_append_of_ne_nil atStart]
  · rw [if_neg goesUp, if_pos goesUp, List.append_assoc]

theorem lexical_place_eq (start : Place) (names : List Text) :
    lexicalPlace start names = (ofNames names).landing start := by
  induction names using List.reverseRecOn with
  | nil => simp [lexicalPlace, ofNames, landing]
  | append_singleton names name ih => rw [lexical_place_append, ih, landing_step, of_names_concat]

/-- A place is kept when the names that are taken off it are put there again. -/
theorem kept_iff (t : Trail) (start : Place) :
    start <+: t.landing start ↔ start.drop (start.length - t.up) <+: t.down := by
  have parts := List.take_append_drop (start.length - t.up) start
  calc start <+: t.landing start
      ↔ start.take (start.length - t.up) ++ start.drop (start.length - t.up) <+: t.landing start := by rw [parts]
    _ ↔ start.drop (start.length - t.up) <+: t.down := List.prefix_append_right_inj _

/-- In no beginning are there more `..` than names. -/
def Balanced (names : List Text) : Prop :=
  ∀ front, front <+: names → 2 * front.count ['.', '.'] ≤ front.length

theorem balanced_concat (names : List Text) (name : Text) :
    Balanced (names ++ [name]) ↔
      Balanced names ∧ 2 * (names ++ [name]).count ['.', '.'] ≤ names.length + 1 := by
  constructor
  · intro balanced
    refine ⟨fun front inside => balanced front (inside.trans (List.prefix_append names [name])), ?_⟩
    simpa using balanced _ List.prefix_rfl
  · rintro ⟨balanced, whole⟩ front inside
    rcases List.prefix_concat_iff.mp inside with rfl | before
    · simpa using whole
    · exact balanced front before

/-- As long as nothing was taken off, what was put there are the names that no `..` took back. -/
theorem balanced_iff (names : List Text) :
    (Balanced names ↔ (ofNames names).up = 0) ∧
      ((ofNames names).up = 0 → (ofNames names).down.length + 2 * names.count ['.', '.'] = names.length) := by
  induction names using List.reverseRecOn with
  | nil => simp [Balanced, ofNames]
  | append_singleton names name ih =>
    obtain ⟨same, counted⟩ := ih
    rw [balanced_concat, of_names_concat, same, List.length_append, List.count_append, List.length_singleton]
    generalize ofNames names = t at counted ⊢
    obtain ⟨up, down⟩ := t
    dsimp only at counted ⊢
    unfold step
    by_cases goesUp : name = ['.', '.']
    · have one : [name].count ['.', '.'] = 1 := by simp [goesUp]
      rw [one, if_neg (by simpa using goesUp)]
      by_cases atStart : down = []
      · subst atStart
        rw [if_pos rfl]
        simp only [List.length_nil] at counted ⊢
        omega
      · have positive := List.length_pos_iff.mpr atStart
        rw [if_neg atStart]
        simp only [List.length_dropLast]
        omega
    · have none : [name].count ['.', '.'] = 0 := by simp [goesUp]
      rw [none, if_pos goesUp]
      simp only [List.length_append, List.length_singleton]
      omega

end Trail

theorem stays_iff (start : Place) (names : List Text) :
    start <+: lexicalPlace start names ↔
      start.drop (start.length - (Trail.ofNames names).up) <+: (Trail.ofNames names).down := by
  rw [Trail.lexical_place_eq, Trail.kept_iff]

theorem other_first_name (names : List Text) : ∃ fresh, SingleName fresh ∧ ¬ [fresh] <+: names := by
  -- a name that is longer than the first one
  let fresh : Text := List.replicate ((names.head?.getD []).length + 1) 'x'
  refine ⟨fresh, ⟨by simp [fresh], by simp [fresh], ?_, ?_⟩, ?_⟩
  · intro same
    have first := congrArg List.head? same
    simp [fresh, List.replicate_succ] at first
  · intro same
    have first := congrArg List.head? same
    simp [fresh, List.replicate_succ] at first
  · rintro ⟨rest, same⟩
    have length := congrArg (fun names => (names.head?.getD []).length) same
    simp [fresh] at length

/-- Names lead out of no directory just when they are balanced. -/
theorem stays_below_all_iff (workingDir : Place) (names : List Text) :
    (∀ directory, placeFrom workingDir directory <+: lexicalPlace (placeFrom workingDir directory) names) ↔
      Trail.Balanced names := by
  rw [(Trail.balanced_iff names).1]
  constructor
  · intro stays
    by_contra leaves
    obtain ⟨fresh, single, other⟩ := other_first_name (Trail.ofNames names).down
    have alone : placeFrom workingDir (Path.join ['/'] fresh) = [fresh] := place_of_single workingDir single ['/']
    have kept := (stays_iff _ _).mp (stays (Path.join ['/'] fresh))
    have taken : 1 - (Trail.ofNames names).up = 0 := by omega
    rw [alone, List.length_singleton, taken, List.drop_zero] at kept
    exact other kept
  · intro none directory
    rw [stays_iff, none, Nat.sub_zero, List.drop_length]
    exact List.nil_prefix

end Disk
end CrashTriage
