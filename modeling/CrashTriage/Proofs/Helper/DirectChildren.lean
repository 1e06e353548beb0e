import CrashTriage.Helper.AllowList
import CrashTriage.Proofs.Path.Parents

/-
What an allow list permits, told by the components of paths: the direct children of its directories. A
list of paths is refused for the first that is none.
-/
namespace CrashTriage
namespace AllowList

open CrashTriage.Path

variable {a : AllowList} {paths : List Path} {path : Path}

/-- No component leads up, and before the last one stand the components of an allowed directory. -/
structure OneBelow (roots : List Path) (path : Path) : Prop where
  level : .parent ∉ components path
  below : ∃ root ∈ roots, ∃ last, components path = components root ++ [last]

/-- One below an allowed directory. The root of all paths has a single component but lies in no directory,
also when an empty path is allowed, which has no components. -/
structure DirectChild (roots : List Path) (path : Path) : Prop extends OneBelow roots path where
  inside : components path ≠ [.root]

theorem permits_iff : a.permits path = true ↔ DirectChild a.roots path := by
  unfold permits
  rw [Bool.and_eq_true, Bool.not_eq_true', List.contains_eq_mem, decide_eq_false_iff_not]
  cases above : parent? path with
  | none =>
    refine ⟨fun permitted => by simp at permitted, fun child => ?_⟩
    obtain ⟨root, -, last, parts⟩ := child.below
    rcases parent_none above with empty | rootOnly
    · simp [empty] at parts
    · exact absurd rootOnly child.inside
  | some parent =>
    obtain ⟨last, notRoot, parts⟩ := parent_some above
    rw [List.any_eq_true]
    constructor
    · rintro ⟨level, root, allowed, same⟩
      have same : components parent = components root := beq_iff_eq.mp same
      rw [same] at parts
      refine ⟨⟨level, root, allowed, last, parts⟩, fun alone => ?_⟩
      rw [alone, List.singleton_eq_append_iff] at parts
      rcases parts with ⟨-, ends⟩ | ⟨-, none⟩
      · exact notRoot (List.cons.inj ends).1
      · cases none
    · intro child
      obtain ⟨root, allowed, other, parts'⟩ := child.below
      refine ⟨child.level, root, allowed, beq_iff_eq.mpr ?_⟩
      exact List.append_inj_left' (parts.symm.trans parts') rfl

/-- The path that a list of paths is refused for: no path before it offends. -/
def FirstOffending (roots paths : List Path) (path : Path) : Prop :=
  ∃ front rest, paths = front ++ path :: rest ∧ ¬ DirectChild roots path ∧ ∀ p ∈ front, DirectChild roots p

theorem first_refused_some : a.firstRefused? paths = some path ↔ FirstOffending a.roots paths path := by
  unfold firstRefused? FirstOffending
  rw [List.find?_eq_some_iff_append]
  simp only [Bool.not_eq_true', Bool.not_not, permits_iff, ← Bool.not_eq_true]
  constructor
  · rintro ⟨offends, front, rest, parts, inside⟩
    exact ⟨front, rest, parts, offends, inside⟩
  · rintro ⟨front, rest, parts, offends, inside⟩
    exact ⟨offends, front, rest, parts, inside⟩

theorem first_refused_none : a.firstRefused? paths = none ↔ ∀ p ∈ paths, DirectChild a.roots p := by
  unfold firstRefused?
  simp [permits_iff]

end AllowList
end CrashTriage
