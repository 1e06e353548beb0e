import CrashTriage.Path
import CrashTriage.Proofs.Text.Order
import Mathlib.Order.Compare

/-
The order of paths is the lexicographic one over their components, so that only paths with the same components
are equal in it.
-/
namespace CrashTriage
namespace Path

/-- The text of a name; the other kinds of component have none. -/
def nameText : Component → Text
  | .name text => text
  | _ => []

def compareComponent : Component → Component → Ordering :=
  compareLex (Ordering.byKey rank Ord.compare) (Ordering.byKey nameText Text.compare)

instance : Std.TransCmp compareComponent := by
  unfold compareComponent
  infer_instance

instance : Std.LawfulEqCmp compareComponent where
  compare_self := Std.ReflCmp.compare_self
  eq_of_compare := by
    intro a b same
    obtain ⟨ranks, texts⟩ := compareLex_eq_eq.mp same
    have ranks : rank a = rank b := Std.LawfulEqCmp.eq_of_compare ranks
    have texts : nameText a = nameText b := Text.eq_of_compare texts
    cases a <;> cases b <;> simp_all [rank, nameText]

theorem component_order (a b : Component) (p q : List Component) :
    compareComponents (a :: p) (b :: q) = (compareComponent a b).then (compareComponents p q) := by
  cases a <;> cases b <;> rfl

theorem compare_lexicographic : compareComponents = List.compareLex compareComponent := by
  funext p q
  induction p generalizing q with
  | nil => cases q <;> rfl
  | cons a p ih =>
    cases q with
    | nil => rw [compareComponents, List.compareLex_cons_nil]
    | cons b q =>
      rw [component_order, ih q, List.compareLex_cons_cons]

instance : Std.TransCmp compareComponents := compare_lexicographic ▸ inferInstance

instance : Std.LawfulEqCmp compareComponents := compare_lexicographic ▸ inferInstance

theorem compare_by_components : Path.compare = Ordering.byKey components compareComponents := rfl

instance : Std.TransCmp Path.compare := compare_by_components ▸ inferInstance

theorem components_of_equal {p q : Path} (same : Path.compare p q = .eq) : components p = components q :=
  @Std.LawfulEqCmp.eq_of_compare _ compareComponents _ _ _ same

end Path
end CrashTriage
