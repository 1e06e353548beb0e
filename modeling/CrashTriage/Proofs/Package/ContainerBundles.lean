import CrashTriage.Package.Owner
import CrashTriage.Proofs.Text.Cuts

/-
Applications below container directories. The first container that a path begins with decides, the first
component behind the container's identifier that ends in `.app` is the bundle, and the application has the
name of the bundle without any `.app` at its end.
-/
namespace CrashTriage
namespace Owner

open Text

def appEnding : Text := ".app".toList

/-- The first of the containers that the path begins with. -/
def FirstStart (containers : List Path) (start path : Path) : Prop :=
  start <+: path ∧ ∃ before after, containers = before ++ start :: after ∧ ∀ other ∈ before, ¬ other <+: path

structure Stripped (name short : Text) : Prop where
  endings : ∃ n, name = short ++ (List.replicate n appEnding).flatten
  stops : ¬ appEnding <:+ short

def application (id name : Text) : Package where
  identifier := name
  storeIdentifier := some id
  name := name
  author := none
  config := []
  isAppStore := true

/-- What stands behind a container in the path of a bundle, or of something in a bundle. -/
structure BundlePath where
  id : Text
  between : List Text
  name : Text
  inside : Option Text

namespace BundlePath

def text (b : BundlePath) : Path :=
  b.id ++ '/' :: (b.between.flatMap (· ++ ['/']) ++ (b.name ++ appEnding ++
    (b.inside.map fun rest => '/' :: rest).getD []))

structure Proper (b : BundlePath) : Prop where
  nonempty : b.id ≠ []
  id : '/' ∉ b.id
  between : ∀ part ∈ b.between, '/' ∉ part ∧ ¬ appEnding <:+ part
  name : '/' ∉ b.name

end BundlePath

variable {containers : List Path} {path start rest id name short : Text} {later : List Text}

theorem stripped_iff_bare (stripped : Stripped name short) : short = name ↔ ¬ appEnding <:+ name := by
  constructor
  · intro same
    exact same ▸ stripped.stops
  · intro bare
    obtain ⟨n, parts⟩ := stripped.endings
    cases n with
    | zero => simpa using parts.symm
    | succ n =>
      rw [List.replicate_succ', List.flatten_append, List.flatten_singleton, ← List.append_assoc] at parts
      exact absurd ⟨_, parts.symm⟩ bare

/-- On a reversed name the endings are at the front. -/
theorem drop_app_front (reversed : Text) :
    (∃ n, reversed = (List.replicate n appEnding.reverse).flatten ++ dropApp reversed) ∧
      ¬ appEnding.reverse <+: dropApp reversed := by
  fun_induction dropApp reversed with
  | case1 rest ih =>
    obtain ⟨⟨n, parts⟩, stops⟩ := ih
    refine ⟨⟨n + 1, ?_⟩, stops⟩
    rw [List.replicate_succ, List.flatten_cons, List.append_assoc, ← parts]
    rfl
  | case2 rest other =>
    refine ⟨⟨0, rfl⟩, ?_⟩
    rintro ⟨more, rfl⟩
    exact other more rfl

theorem bundle_name_stripped (name : Text) : Stripped name (bundleName name) := by
  obtain ⟨⟨n, parts⟩, stops⟩ := drop_app_front name.reverse
  constructor
  · refine ⟨n, ?_⟩
    have turned := congrArg List.reverse parts
    rw [List.reverse_reverse, List.reverse_append, List.reverse_flatten, List.map_replicate, List.reverse_replicate,
      List.reverse_reverse] at turned
    exact turned
  · intro ends
    rw [bundleName, ← List.reverse_prefix, List.reverse_reverse] at ends
    exact stops ends

theorem bundle_name_of_bundle (name : Text) : bundleName (name ++ appEnding) = bundleName name := by
  rw [bundleName, List.reverse_append]
  rfl

theorem start_found (first : FirstStart containers start (start ++ rest)) :
    containers.findSome? (fun container => strip? container (start ++ rest)) = some rest := by
  obtain ⟨-, before, after, rfl, others⟩ := first
  have none : before.findSome? (fun container => strip? container (start ++ rest)) = none := by
    rw [List.findSome?_eq_none_iff]
    intro other member
    cases stripped : strip? other (start ++ rest) with
    | none => rfl
    | some more => exact absurd ⟨more, ((strip_eq_some_iff _ _ _).mp stripped).symm⟩ (others other member)
  rw [List.findSome?_append, none, List.findSome?_cons, (strip_eq_some_iff start _ rest).mpr rfl]
  rfl

/-- The application by the components behind the container. -/
theorem app_store_package_eq (first : FirstStart containers start (start ++ rest))
    (parts : split '/' rest = id :: later) :
    appStorePackage? (start ++ rest) containers =
      if id = [] then none
      else (later.find? fun part => endsWith part appEnding).map fun bundle => application id (bundleName bundle) := by
  rw [appStorePackage?, start_found first, Option.bind_eq_bind, Option.bind_some, parts]
  dsimp only
  by_cases empty : id = []
  · simp [empty]
  · rw [if_neg empty, if_neg (by simpa using empty)]
    exact (Option.map_eq_bind (f := fun bundle => application id (bundleName bundle))).symm

theorem split_parts {parts : List Text} (free : ∀ part ∈ parts, '/' ∉ part) (t : Text) :
    split '/' (parts.flatMap (· ++ ['/']) ++ t) = parts ++ split '/' t := by
  induction parts with
  | nil => rfl
  | cons part parts ih =>
    rw [List.forall_mem_cons] at free
    rw [List.flatMap_cons, List.append_assoc, List.append_assoc, List.singleton_append, split_at_separator free.1,
      ih free.2, List.cons_append]

namespace BundlePath

theorem components {b : BundlePath} (proper : b.Proper) :
    ∃ within, split '/' b.text = b.id :: (b.between ++ (b.name ++ appEnding) :: within) := by
  have named : '/' ∉ b.name ++ appEnding := by
    rw [List.mem_append, not_or]
    exact ⟨proper.name, by decide⟩
  have between : ∀ part ∈ b.between, '/' ∉ part := fun part member => (proper.between part member).1
  rw [text, split_at_separator proper.id, split_parts between]
  cases b.inside with
  | none =>
    refine ⟨[], ?_⟩
    rw [Option.map_none, Option.getD_none, List.append_nil, split_without named]
  | some rest =>
    refine ⟨split '/' rest, ?_⟩
    rw [Option.map_some, Option.getD_some, split_at_separator named]

theorem resolved {b : BundlePath} (proper : b.Proper) (first : FirstStart containers start (start ++ b.text)) :
    appStorePackage? (start ++ b.text) containers = some (application b.id (bundleName b.name)) := by
  obtain ⟨within, parts⟩ := components proper
  have passed : b.between.find? (fun part => endsWith part appEnding) = none := by
    rw [List.find?_eq_none]
    intro part member ends
    exact (proper.between part member).2 (List.isSuffixOf_iff_suffix.mp ends)
  have ends : endsWith (b.name ++ appEnding) appEnding = true :=
    List.isSuffixOf_iff_suffix.mpr (List.suffix_append b.name appEnding)
  rw [app_store_package_eq first parts, if_neg proper.nonempty, List.find?_append, passed, List.find?_cons,
    ends]
  exact congrArg (fun name => some (application b.id name)) (bundle_name_of_bundle b.name)

end BundlePath

theorem unresolved_iff (free : ∀ part ∈ id :: later, '/' ∉ part)
    (first : FirstStart containers start (start ++ joinWith ['/'] (id :: later))) :
    appStorePackage? (start ++ joinWith ['/'] (id :: later)) containers = none ↔
      id = [] ∨ ∀ part ∈ later, ¬ appEnding <:+ part := by
  have parts : split '/' (joinWith ['/'] (id :: later)) = id :: later := split_joined (List.cons_ne_nil _ _) free
  rw [app_store_package_eq first parts]
  split
  · simp [*]
  · rename_i nonempty
    simp only [Option.map_eq_none_iff, List.find?_eq_none, nonempty, false_or]
    exact forall₂_congr fun part _ => not_congr List.isSuffixOf_iff_suffix

/-- A bundle below a container gives its application the bundle's name, of which every `.app` at its end is
taken off: the name in front of the last one just when it does not end so itself. -/
theorem bundle_names_application :
    (∀ b : BundlePath, b.Proper → FirstStart containers start (start ++ b.text) →
      (∃ short, Stripped b.name short ∧
        appStorePackage? (start ++ b.text) containers = some (application b.id short)) ∧
      (appStorePackage? (start ++ b.text) containers = some (application b.id b.name) ↔ ¬ appEnding <:+ b.name)) ∧
    ∀ id later, (∀ part ∈ id :: later, '/' ∉ part) →
      FirstStart containers start (start ++ joinWith ['/'] (id :: later)) →
      (appStorePackage? (start ++ joinWith ['/'] (id :: later)) containers = none ↔
        id = [] ∨ ∀ part ∈ later, ¬ appEnding <:+ part) := by
  refine ⟨fun b proper first => ?_, fun id later => unresolved_iff⟩
  have resolved := b.resolved proper first
  have stripped := bundle_name_stripped b.name
  refine ⟨⟨_, stripped, resolved⟩, ?_⟩
  rw [resolved, ← stripped_iff_bare stripped]
  simp [application]

def gameBundle : BundlePath where
  id := "ABCD-1234".toList
  between := [[], "Payload.app.d".toList]
  name := "Game.app 2".toList
  inside := some "PlugIns/Share.app/Share".toList

def doubledBundle : BundlePath where
  id := "ABCD-1234".toList
  between := []
  name := "Game.app".toList
  inside := some "Game".toList

theorem bundle_names_application_of_nested :
    appStorePackage? "/var/mobile/Applications/ABCD-1234//Payload.app.d/Game.app 2.app/PlugIns/Share.app/Share".toList
        (["/private/", "/var/mobile/Applications/", "/var/"].map String.toList) =
      some (application "ABCD-1234".toList "Game.app 2".toList) ∧
    appStorePackage? "/var/mobile/Applications//Game.app/Game".toList
        (["/private/", "/var/mobile/Applications/", "/var/"].map String.toList) = none := by
  have first (path : Path) (starts : "/var/mobile/Applications/".toList <+: path)
      (other : ¬ "/private/".toList <+: path) :
      FirstStart (["/private/", "/var/mobile/Applications/", "/var/"].map String.toList)
        "/var/mobile/Applications/".toList path :=
    ⟨starts, ["/private/".toList], ["/var/".toList], rfl, by simpa using other⟩
  have proper : gameBundle.Proper := ⟨by decide, by decide, by decide, by decide⟩
  constructor
  · exact ((bundle_names_application.1 gameBundle proper (first _ (by decide) (by decide))).2).mpr (by decide)
  · exact (bundle_names_application.2 [] ["Game.app".toList, "Game".toList] (by decide)
      (first _ (by decide) (by decide))).mpr (.inl rfl)

/-- The name in front of the last `.app` is `Game.app`. -/
theorem doubled_ending_lost :
    doubledBundle.Proper ∧
      FirstStart ["/var/mobile/Applications/".toList] "/var/mobile/Applications/".toList
        ("/var/mobile/Applications/".toList ++ doubledBundle.text) ∧
      "/var/mobile/Applications/".toList ++ doubledBundle.text =
        "/var/mobile/Applications/ABCD-1234/Game.app.app/Game".toList ∧
      appStorePackage? ("/var/mobile/Applications/".toList ++ doubledBundle.text)
          ["/var/mobile/Applications/".toList] = some (application doubledBundle.id "Game".toList) ∧
      "Game".toList ≠ doubledBundle.name := by
  refine ⟨⟨by decide, by decide, by decide, by decide⟩, ⟨by decide, [], [], rfl, by decide⟩, ?_⟩
  decide +kernel

end Owner
end CrashTriage
