import CrashTriage.Package.Owner
import CrashTriage.Proofs.Text.Order
import CrashTriage.Proofs.Text.Cuts
import Mathlib.Data.List.Nodup

/-
The owner of a path told from the entries as a set: the first exact entry, else the one package that
lists the longest listed directory above the path. The order of the entries matters only among exact ones.
-/
namespace CrashTriage
namespace Owner

open Text

def Lists (entries : List (Path × Text)) (place : Path) (id : Text) : Prop :=
  ∃ entry, (entry, id) ∈ entries ∧ trimSlashes entry = place

def exactOwner? (place : Path) (entries : List (Path × Text)) : Option Text :=
  (entries.find? fun e => trimSlashes e.1 == place).map (·.2)

structure Nearest (path : Path) (entries : List (Path × Text)) (place : Path) : Prop where
  below : isBelow path place = true
  listed : ∃ id, Lists entries place id
  longest : ∀ other id, isBelow path other = true → Lists entries other id →
    other.length ≤ place.length

theorem trim_slashes_idempotent (path : Path) :
    trimSlashes (trimSlashes path) = trimSlashes path :=
  List.rdropWhile_idempotent (· == '/') path

theorem below_iff (path place : Path) :
    isBelow path place = true ↔ place ≠ [] ∧ ∃ rest, path = place ++ '/' :: rest := by
  unfold isBelow
  constructor
  · intro below
    simp only [Bool.and_eq_true, Bool.not_eq_eq_eq_not, Bool.not_true, List.isEmpty_eq_false_iff] at below
    obtain ⟨nonempty, follows⟩ := below
    split at follows
    · rename_i rest cut
      exact ⟨nonempty, rest, (strip_eq_some_iff _ _ _).mp cut⟩
    · simp at follows
  · rintro ⟨nonempty, rest, rfl⟩
    have cut : strip? place (place ++ '/' :: rest) = some ('/' :: rest) :=
      (strip_eq_some_iff _ _ _).mpr rfl
    simp [cut, nonempty]

theorem below_begins {path place : Path} (below : isBelow path place = true) : place <+: path := by
  obtain ⟨_, rest, rfl⟩ := (below_iff _ _).mp below
  exact List.prefix_append _ _

/- Directories above one path are prefixes of it, so their bytes compare as their lengths do. -/
theorem above_compare {path a b : Path} (belowA : isBelow path a = true)
    (belowB : isBelow path b = true) :
    (byteSize a < byteSize b ↔ a.length < b.length) ∧ (byteSize a = byteSize b ↔ a = b) := by
  have comparable := List.prefix_or_prefix_of_prefix (below_begins belowA) (below_begins belowB)
  rcases comparable with ⟨rest, rfl⟩ | ⟨rest, rfl⟩
  all_goals
    have positive := length_le_byte_size rest
    have empty := byte_size_zero_iff rest
    simp only [byte_size_append, List.length_append, List.self_eq_append_right,
      List.append_right_eq_self, ← List.length_eq_zero_iff] at *
    omega

/-- What is known of the directories above `path` once `entries` were seen. -/
def Summarizes (path : Path) (entries : List (Path × Text)) : Closest → Prop
  | none => ∀ place id, isBelow path place = true → ¬ Lists entries place id
  | some (place, ids) =>
    Nearest path entries place ∧ ids.Nodup ∧ ∀ id, id ∈ ids ↔ Lists entries place id

theorem lists_append (entries others : List (Path × Text)) (place : Path) (id : Text) :
    Lists (entries ++ others) place id ↔ Lists entries place id ∨ Lists others place id := by
  simp only [Lists, List.mem_append, or_and_right, exists_or]

theorem lists_single (entry : Path) (id : Text) (place : Path) (other : Text) :
    Lists [(entry, id)] place other ↔ trimSlashes entry = place ∧ other = id := by
  simp only [Lists, List.mem_singleton, Prod.mk.injEq]
  constructor
  · rintro ⟨e, ⟨rfl, rfl⟩, same⟩
    exact ⟨same, rfl⟩
  · rintro ⟨same, rfl⟩
    exact ⟨entry, ⟨rfl, rfl⟩, same⟩

theorem summary_passes_over {path : Path} {seen : List (Path × Text)} {best : Closest}
    (summary : Summarizes path seen best) {entry : Path} (id : Text)
    (aside : isBelow path (trimSlashes entry) = false) :
    Summarizes path (seen ++ [(entry, id)]) best := by
  have same : ∀ place other, isBelow path place = true →
      (Lists (seen ++ [(entry, id)]) place other ↔ Lists seen place other) := by
    intro place other below
    rw [lists_append, lists_single]
    constructor
    · rintro (old | ⟨rfl, -⟩)
      · exact old
      · simp [aside] at below
    · exact Or.inl
  match best with
  | none => exact fun place other below => by rw [same place other below]; exact summary place other below
  | some (place, ids) =>
    obtain ⟨near, nodup, members⟩ := summary
    obtain ⟨first, listed⟩ := near.listed
    refine ⟨⟨near.below, ⟨first, (same _ _ near.below).mpr listed⟩, ?_⟩, nodup, ?_⟩
    · intro other name below lists
      exact near.longest other name below ((same other name below).mp lists)
    · intro other
      rw [members other, same place other near.below]

theorem lists_added (seen : List (Path × Text)) (entry : Path) (id : Text) (place : Path)
    (other : Text) : Lists (seen ++ [(entry, id)]) place other ↔
      Lists seen place other ∨ trimSlashes entry = place ∧ other = id := by
  rw [lists_append, lists_single]

/-- A directory longer than any seen before is the nearest, and its lister is the only one. -/
theorem summary_restarts {path : Path} {seen : List (Path × Text)} {entry : Path} (id : Text)
    (below : isBelow path (trimSlashes entry) = true)
    (longer : ∀ other name, isBelow path other = true → Lists seen other name →
      other.length < (trimSlashes entry).length) :
    Summarizes path (seen ++ [(entry, id)]) (some (trimSlashes entry, [id])) := by
  have lists := lists_added seen entry id
  refine ⟨⟨below, ⟨id, by simp [lists]⟩, ?_⟩, by simp, ?_⟩
  · intro other name above listed
    rcases (lists other name).mp listed with old | ⟨rfl, -⟩
    · exact Nat.le_of_lt (longer other name above old)
    · exact Nat.le_refl _
  · intro other
    have unseen : ¬ Lists seen (trimSlashes entry) other := fun old =>
      absurd (longer _ other below old) (Nat.lt_irrefl _)
    simp [lists, unseen]

theorem nearest_unique {path place other : Path} {entries : List (Path × Text)}
    (near : Nearest path entries place) (also : Nearest path entries other) : place = other := by
  obtain ⟨a, listedA⟩ := near.listed
  obtain ⟨b, listedB⟩ := also.listed
  have above := also.longest place a near.below listedA
  have below := near.longest other b also.below listedB
  have comparable := List.prefix_or_prefix_of_prefix (below_begins near.below)
    (below_begins also.below)
  rcases comparable with first | first
  · exact first.eq_of_length (by omega)
  · exact (first.eq_of_length (by omega)).symm

theorem nearest_stays {path : Path} {seen : List (Path × Text)} {place entry : Path} (id : Text)
    (near : Nearest path seen place) (bounded : (trimSlashes entry).length ≤ place.length) :
    Nearest path (seen ++ [(entry, id)]) place := by
  have lists := lists_added seen entry id
  obtain ⟨first, listed⟩ := near.listed
  refine ⟨near.below, ⟨first, (lists place first).mpr (Or.inl listed)⟩, ?_⟩
  intro other name above listed
  rcases (lists other name).mp listed with old | ⟨rfl, -⟩
  · exact near.longest other name above old
  · exact bounded

theorem summary_adds {path : Path} {seen : List (Path × Text)} {best : Closest}
    (summary : Summarizes path seen best) {entry : Path} (id : Text)
    (below : isBelow path (trimSlashes entry) = true) :
    Summarizes path (seen ++ [(entry, id)]) (best.add (trimSlashes entry) id) := by
  match best with
  | none => exact summary_restarts id below fun other name above old =>
      absurd old (summary other name above)
  | some (place, ids) =>
    obtain ⟨near, nodup, members⟩ := summary
    obtain ⟨smaller, equal⟩ := above_compare near.below below
    simp only [Closest.add]
    split
    · rename_i closer
      have longer := smaller.mp closer
      refine summary_restarts id below fun other name above old => ?_
      have bounded := near.longest other name above old
      omega
    · rename_i notCloser
      have bounded : (trimSlashes entry).length ≤ place.length := by
        by_contra longer
        exact notCloser (smaller.mpr (by omega))
      have nearest := nearest_stays id near bounded
      have lists := lists_added seen entry id
      split
      · rename_i again
        simp only [Bool.and_eq_true, decide_eq_true_eq, Bool.not_eq_eq_eq_not, Bool.not_true,
          List.contains_eq_mem, decide_eq_false_iff_not] at again
        obtain ⟨tie, fresh⟩ := again
        have same : trimSlashes entry = place := (equal.mp tie).symm
        refine ⟨nearest, List.nodup_append'.mpr ⟨nodup, by simp, by simpa using fresh⟩, ?_⟩
        intro other
        simp [lists, members, same]
      · rename_i known
        simp only [Bool.and_eq_true, decide_eq_true_eq, Bool.not_eq_eq_eq_not, Bool.not_true,
          List.contains_eq_mem, decide_eq_false_iff_not, not_and, not_not] at known
        refine ⟨nearest, nodup, ?_⟩
        intro other
        rw [members, lists]
        constructor
        · exact Or.inl
        · rintro (old | ⟨same, rfl⟩)
          · exact old
          · exact (members other).mp (known (equal.mpr same.symm))

theorem scan_exact {path : Path} {entries : List (Path × Text)} {id : Text}
    (found : exactOwner? path entries = some id) (best : Closest) :
    selectFrom path best entries = some id := by
  induction entries generalizing best with
  | nil => simp [exactOwner?] at found
  | cons e rest ih =>
    obtain ⟨entry, name⟩ := e
    simp only [exactOwner?, List.find?_cons] at found ih
    simp only [selectFrom]
    by_cases same : trimSlashes entry = path
    · simpa [same] using found
    · simp only [same, ↓reduceIte, beq_eq_false_iff_ne.mpr same] at found ⊢
      split <;> exact ih found _

theorem scan_summary {path : Path} {entries : List (Path × Text)}
    (missing : exactOwner? path entries = none) {seen : List (Path × Text)} {best : Closest}
    (summary : Summarizes path seen best) :
    ∃ last, Summarizes path (seen ++ entries) last ∧
      selectFrom path best entries = last.owner? := by
  induction entries generalizing seen best with
  | nil => exact ⟨best, by simpa using summary, rfl⟩
  | cons e rest ih =>
    obtain ⟨entry, name⟩ := e
    simp only [exactOwner?, Option.map_eq_none_iff, List.find?_eq_none, List.mem_cons,
      forall_eq_or_imp, beq_iff_eq] at missing ih
    obtain ⟨different, later⟩ := missing
    simp only [selectFrom, different, ↓reduceIte]
    rw [List.append_cons]
    split
    · rename_i below
      exact ih later (summary_adds summary name below)
    · rename_i aside
      exact ih later (summary_passes_over summary name (by simpa using aside))

theorem closest_owner_iff {path : Path} {entries : List (Path × Text)} {best : Closest}
    (summary : Summarizes path entries best) (id : Text) :
    best.owner? = some id ↔
      ∃ place, Nearest path entries place ∧ ∀ other, Lists entries place other ↔ other = id := by
  match best with
  | none =>
    simp only [Closest.owner?, reduceCtorEq, false_iff, not_exists, not_and]
    intro place near
    obtain ⟨other, listed⟩ := near.listed
    exact absurd listed (summary place other near.below)
  | some (place, ids) =>
    obtain ⟨near, nodup, members⟩ := summary
    have sole : Closest.owner? (some (place, ids)) = some id ↔ ids = [id] := by
      unfold Closest.owner?
      split <;> simp_all
    rw [sole]
    constructor
    · rintro rfl
      exact ⟨place, near, fun other => by rw [← members other]; simp⟩
    · rintro ⟨other, also, only⟩
      rw [nearest_unique also near] at only
      have mem : ∀ x, x ∈ ids ↔ x = id := fun x => (members x).trans (only x)
      exact List.perm_singleton.mp
        ((List.perm_ext_iff_of_nodup nodup (List.nodup_singleton id)).mpr (by simpa using mem))

theorem select_eq_some_iff (path : Path) (entries : List (Path × Text)) (id : Text) :
    select? path entries = some id ↔
      exactOwner? (trimSlashes path) entries = some id ∨
        exactOwner? (trimSlashes path) entries = none ∧
          ∃ place, Nearest (trimSlashes path) entries place ∧
            ∀ other, Lists entries place other ↔ other = id := by
  have start : Summarizes (trimSlashes path) [] none := by
    intro place other _ listed
    obtain ⟨entry, member, _⟩ := listed
    simp at member
  unfold select?
  cases found : exactOwner? (trimSlashes path) entries with
  | some first => simp [scan_exact found]
  | none =>
    obtain ⟨last, summary, run⟩ := scan_summary found start
    rw [List.nil_append] at summary
    simp [run, closest_owner_iff summary]

theorem select_listed {path : Path} {entries : List (Path × Text)} {id : Text}
    (selected : select? path entries = some id) : ∃ place, Lists entries place id := by
  rcases (select_eq_some_iff _ _ _).mp selected with exact | ⟨_, place, _, only⟩
  · obtain ⟨⟨entry, name⟩, found, same⟩ := Option.map_eq_some_iff.mp exact
    cases same
    have here := List.find?_some found
    exact ⟨_, entry, List.mem_of_find?_eq_some found, beq_iff_eq.mp here⟩
  · exact ⟨place, (only id).mpr rfl⟩

theorem select_congr {path : Path} {entries others : List (Path × Text)}
    (exact : exactOwner? (trimSlashes path) entries = exactOwner? (trimSlashes path) others)
    (same : ∀ place id, isBelow (trimSlashes path) place = true →
      (Lists entries place id ↔ Lists others place id)) :
    select? path entries = select? path others := by
  have nearest : ∀ place, Nearest (trimSlashes path) entries place ↔
      Nearest (trimSlashes path) others place := by
    intro place
    constructor
    · rintro ⟨below, ⟨id, listed⟩, longest⟩
      exact ⟨below, ⟨id, (same _ _ below).mp listed⟩,
        fun other name above lists => longest other name above ((same _ _ above).mpr lists)⟩
    · rintro ⟨below, ⟨id, listed⟩, longest⟩
      exact ⟨below, ⟨id, (same _ _ below).mpr listed⟩,
        fun other name above lists => longest other name above ((same _ _ above).mp lists)⟩
  have sole : ∀ id, (∃ place, Nearest (trimSlashes path) entries place ∧
      ∀ other, Lists entries place other ↔ other = id) ↔
      ∃ place, Nearest (trimSlashes path) others place ∧
        ∀ other, Lists others place other ↔ other = id := by
    intro id
    apply exists_congr
    intro place
    rw [nearest place]
    apply and_congr_right
    intro near
    exact forall_congr' fun other => by rw [same place other near.below]
  apply Option.ext
  intro id
  rw [select_eq_some_iff, select_eq_some_iff, exact, sole id]

/-- Entries in the order of the packages that list them. -/
def Ordered (entries : List (Path × Text)) : Prop := entries.Pairwise fun a b => NotAfter a.2 b.2

theorem exact_of_ordered {entries : List (Path × Text)} (ordered : Ordered entries) (place : Path)
    (id : Text) :
    exactOwner? place entries = some id ↔
      Lists entries place id ∧ ∀ other, Lists entries place other → NotAfter id other := by
  induction entries with
  | nil => simp [exactOwner?, Lists]
  | cons e rest ih =>
    obtain ⟨entry, name⟩ := e
    obtain ⟨first, later⟩ := List.pairwise_cons.mp ordered
    have lists : ∀ other, Lists ((entry, name) :: rest) place other ↔
        (trimSlashes entry = place ∧ other = name) ∨ Lists rest place other := by
      intro other
      rw [← List.singleton_append, lists_append, lists_single]
    by_cases same : trimSlashes entry = place
    · have least : ∀ other, Lists ((entry, name) :: rest) place other → NotAfter name other := by
        intro other listed
        rcases (lists other).mp listed with ⟨-, rfl⟩ | ⟨e, member, -⟩
        · exact not_after_refl other
        · exact first (e, other) member
      have head : exactOwner? place ((entry, name) :: rest) = some name := by simp [exactOwner?, same]
      rw [head, Option.some_inj]
      constructor
      · rintro rfl
        exact ⟨(lists name).mpr (Or.inl ⟨same, rfl⟩), least⟩
      · rintro ⟨listed, before⟩
        exact not_after_antisymm (least id listed) (before name ((lists name).mpr (Or.inl ⟨same, rfl⟩)))
    · have skip : exactOwner? place ((entry, name) :: rest) = exactOwner? place rest := by
        simp [exactOwner?, same]
      rw [skip, ih later]
      simp [lists, same]

theorem select_same_lists {entries others : List (Path × Text)} (ordered : Ordered entries)
    (otherwise : Ordered others)
    (same : ∀ place id, Lists entries place id ↔ Lists others place id) (path : Path) :
    select? path entries = select? path others := by
  apply select_congr
  · apply Option.ext
    intro id
    rw [exact_of_ordered ordered, exact_of_ordered otherwise, same]
    apply and_congr_right
    intro _
    exact forall_congr' fun other => by rw [same]
  · exact fun place id _ => same place id

end Owner
end CrashTriage
