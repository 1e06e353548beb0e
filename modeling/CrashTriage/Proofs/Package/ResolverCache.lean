import CrashTriage.Package.Resolver
import CrashTriage.Proofs.KeptAnswers

/-
What a resolver answers over a run of requests, with a database that never fails. Answers are kept by
the components of paths while a look-up reads a path as it is written: a request is answered for the
first spelling of its path since everything was last forgotten.
-/
namespace CrashTriage
namespace Resolver

/-- What is asked of a resolver. -/
inductive Request where
  | resolve (path : Path)
  | clear
deriving DecidableEq, Repr

section Runs

variable (rules : OwnerRules) (owner : Path → Option Package)

/-- What a path is when nothing is kept. -/
def lookUp (path : Path) : Resolution :=
  match owner path with
  | some package => .package package
  | none => rules.withoutPackage path

/-- The answers to requests in order. -/
def run (owner : Path → Option Package) : Resolver → List Request → List Resolution
  | _, [] => []
  | r, .clear :: rest => run owner r.clear rest
  | r, .resolve path :: rest =>
    let (answer, later) := Id.run ((resolve (fun p => pure (.ok (owner p))) path).run r)
    answer :: run owner later rest

/-- The answers of a resolver that keeps nothing. -/
def lookUps (requests : List Request) : List Resolution :=
  requests.filterMap fun request =>
    match request with
    | .resolve path => some (lookUp rules owner path)
    | .clear => none

/-- The paths resolved since everything was last forgotten, the first one first. -/
def seenAfter (seen : List Path) : Request → List Path
  | .resolve path => seen ++ [path]
  | .clear => []

/-- The first spelling of a path. -/
def firstSpelling (seen : List Path) (path : Path) : Path :=
  (seen.find? fun q => Path.same q path).getD path

/-- The look-ups of first spellings. -/
def firstLookUps : (seen : List Path) → List Request → List Resolution
  | _, [] => []
  | _, .clear :: rest => firstLookUps [] rest
  | seen, .resolve path :: rest =>
    lookUp rules owner (firstSpelling seen path) :: firstLookUps (seen ++ [path]) rest

end Runs

variable {rules : OwnerRules} {owner : Path → Option Package} {r : Resolver} {seen : List Path}

/-- What is kept is the look-up of the first spelling. -/
def Keeps (owner : Path → Option Package) (seen : List Path) (r : Resolver) : Prop :=
  ∀ path, r.kept? path = (seen.find? fun q => Path.same q path).map (lookUp r.rules owner)

theorem resolution_of_owner (rules : OwnerRules) (owner : Path → Option Package) (path : Path) :
    rules.resolutionOf path (.ok (owner path)) = .ok (lookUp rules owner path) := by
  unfold lookUp
  cases owner path <;> rfl

theorem resolve_kept {path : Path} {resolution : Resolution} (kept : r.kept? path = some resolution) :
    Id.run ((resolve (fun p => pure (.ok (owner p))) path).run r) = (resolution, r) := by
  simp [resolve, kept]

theorem resolve_new {path : Path} (unknown : r.kept? path = none) :
    Id.run ((resolve (fun p => pure (.ok (owner p))) path).run r) =
      (lookUp r.rules owner path, r.keep path (lookUp r.rules owner path)) := by
  simp [resolve, unknown, resolution_of_owner]

theorem resolve_step (keeps : Keeps owner seen r) (path : Path) :
    ∃ later, Id.run ((resolve (fun p => pure (.ok (owner p))) path).run r) =
        (lookUp r.rules owner (firstSpelling seen path), later) ∧
      later.rules = r.rules ∧ Keeps owner (seen ++ [path]) later := by
  have known : KeptAnswers.Keeps Path.components (lookUp r.rules owner) seen r.settled := keeps
  cases kept : r.kept? path with
  | some resolution =>
    obtain ⟨rfl, still⟩ := KeptAnswers.known_answer known kept
    exact ⟨r, resolve_kept kept, rfl, still⟩
  | none =>
    obtain ⟨itself, still⟩ := KeptAnswers.new_answer known kept
    have spelling : firstSpelling seen path = path := itself
    rw [spelling]
    exact ⟨r.keep path (lookUp r.rules owner path), resolve_new kept, rfl, still⟩

theorem run_keeps (keeps : Keeps owner seen r) (requests : List Request) :
    run owner r requests = firstLookUps r.rules owner seen requests := by
  induction requests generalizing r seen with
  | nil => rfl
  | cons request rest ih =>
    cases request with
    | clear => exact @ih r.clear [] fun _ => rfl
    | resolve path =>
      obtain ⟨later, answered, sameRules, still⟩ := resolve_step keeps path
      rw [run, answered, firstLookUps, ← sameRules]
      exact congrArg _ (ih still)

/-- The requests in a run at which the first spelling is looked up like the one asked for. -/
def AlikeIn (rules : OwnerRules) (owner : Path → Option Package) (seen : List Path)
    (requests : List Request) : Prop :=
  ∀ done path rest, requests = done ++ .resolve path :: rest →
    lookUp rules owner (firstSpelling (done.foldl seenAfter seen) path) = lookUp rules owner path

theorem alike_in_cons (request : Request) (requests : List Request) :
    AlikeIn rules owner seen (request :: requests) ↔
      (∀ path, request = .resolve path →
        lookUp rules owner (firstSpelling seen path) = lookUp rules owner path) ∧
      AlikeIn rules owner (seenAfter seen request) requests := by
  constructor
  · intro alike
    refine ⟨?_, ?_⟩
    · rintro path rfl
      exact alike [] path requests rfl
    · rintro done path rest rfl
      exact alike (request :: done) path rest rfl
  · rintro ⟨here, later⟩ done path rest whole
    cases done with
    | nil => exact here path (List.cons.inj whole).1
    | cons first done =>
      obtain ⟨rfl, more⟩ := List.cons.inj whole
      exact later done path rest more

theorem first_look_ups_eq_iff (rules : OwnerRules) (owner : Path → Option Package) (seen : List Path)
    (requests : List Request) :
    firstLookUps rules owner seen requests = lookUps rules owner requests ↔
      AlikeIn rules owner seen requests := by
  induction requests generalizing seen with
  | nil => simp [firstLookUps, lookUps, AlikeIn]
  | cons request rest ih =>
    rw [alike_in_cons, ← ih]
    cases request with
    | clear => simp [firstLookUps, lookUps, seenAfter]
    | resolve path => simp [firstLookUps, lookUps, seenAfter]

theorem new_keeps (rules : OwnerRules) (owner : Path → Option Package) : Keeps owner [] ⟨rules, []⟩ :=
  fun _ => rfl

theorem cache_transparent_iff (rules : OwnerRules) (owner : Path → Option Package)
    (requests : List Request) :
    run owner ⟨rules, []⟩ requests = firstLookUps rules owner [] requests ∧
      (run owner ⟨rules, []⟩ requests = lookUps rules owner requests ↔
        ∀ done path rest, requests = done ++ .resolve path :: rest →
          lookUp rules owner (firstSpelling (done.foldl seenAfter []) path) =
            lookUp rules owner path) := by
  have answers := run_keeps (new_keeps rules owner) requests
  refine ⟨answers, ?_⟩
  rw [answers]
  exact first_look_ups_eq_iff rules owner [] requests

/-- A database of one package that lists one file. -/
def toolOwner (path : Path) : Option Package :=
  (Owner.select? path [("/opt/tool".toList, "tool".toList)]).map Package.named

def toolRequests : List Request :=
  [.resolve "/opt//tool".toList, .resolve "/opt/tool".toList]

theorem listed_path_missed_after_other_spelling :
    run toolOwner ⟨⟨[], []⟩, []⟩ toolRequests = [.unknown, .unknown] ∧
      lookUps ⟨[], []⟩ toolOwner toolRequests = [.unknown, .package (.named "tool".toList)] ∧
      run toolOwner ⟨⟨[], []⟩, []⟩ toolRequests ≠ lookUps ⟨[], []⟩ toolOwner toolRequests := by
  decide +kernel

/-- The cache is transparent in every run just when look-ups do not tell spellings of a path apart. -/
theorem always_transparent_iff (rules : OwnerRules) (owner : Path → Option Package) :
    (∀ requests, run owner ⟨rules, []⟩ requests = lookUps rules owner requests) ↔
      ∀ p q, Path.same p q = true → lookUp rules owner p = lookUp rules owner q := by
  constructor
  · intro transparent p q same
    have both := transparent [.resolve p, .resolve q]
    rw [run_keeps (new_keeps rules owner)] at both
    have first : firstSpelling [p] q = p := by simp [firstSpelling, same]
    have answers : [lookUp rules owner p, lookUp rules owner (firstSpelling [p] q)] =
        [lookUp rules owner p, lookUp rules owner q] := both
    rw [first] at answers
    exact (List.cons.inj (List.cons.inj answers).2).1
  · intro alike requests
    rw [run_keeps (new_keeps rules owner), first_look_ups_eq_iff]
    intro done path rest _
    unfold firstSpelling
    cases found : (done.foldl seenAfter []).find? fun q => Path.same q path with
    | none => rfl
    | some spelling => exact alike spelling path (by simpa using List.find?_some found)

end Resolver
end CrashTriage
