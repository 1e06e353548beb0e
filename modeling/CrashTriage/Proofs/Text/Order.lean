import CrashTriage.Text.Basic

/-
The order of texts is a linear order: it is the lexicographic one over the numbers of characters.
-/
namespace CrashTriage
namespace Text

def compareChars (a b : Char) : Ordering := Ord.compare a.toNat b.toNat

instance : Std.TransCmp compareChars where
  eq_swap := by
    intro a b
    unfold compareChars
    exact Std.OrientedCmp.eq_swap
  isLE_trans := by
    intro a b c
    unfold compareChars
    exact Std.TransCmp.isLE_trans

instance : Std.LawfulEqCmp compareChars where
  compare_self := by
    intro a
    unfold compareChars
    exact Std.ReflCmp.compare_self
  eq_of_compare := by
    intro a b same
    unfold compareChars at same
    exact Char.toNat_inj.mp (Std.LawfulEqCmp.eq_of_compare same)

theorem compare_lexicographic : Text.compare = List.compareLex compareChars := by
  funext s t
  induction s generalizing t with
  | nil => cases t <;> rfl
  | cons a s ih =>
    cases t with
    | nil => rfl
    | cons b t => rw [compare, ih t, List.compareLex_cons_cons]; rfl

instance : Std.TransCmp Text.compare := compare_lexicographic ▸ inferInstance

instance : Std.LawfulEqCmp Text.compare := compare_lexicographic ▸ inferInstance

theorem compare_swap (a b : Text) : Text.compare a b = (Text.compare b a).swap :=
  Std.OrientedCmp.eq_swap

theorem eq_of_compare {a b : Text} (same : Text.compare a b = .eq) : a = b :=
  Std.LawfulEqCmp.eq_of_compare same

def NotAfter (a b : Text) : Prop := Text.compare a b ≠ .gt

instance (a b : Text) : Decidable (NotAfter a b) :=
  inferInstanceAs (Decidable (Text.compare a b ≠ .gt))

theorem not_after_refl (a : Text) : NotAfter a a := by
  simp [NotAfter, Std.ReflCmp.compare_self]

theorem not_after_trans {a b c : Text} (first : NotAfter a b) (second : NotAfter b c) :
    NotAfter a c := by
  simp only [NotAfter, Ordering.ne_gt_iff_isLE] at *
  exact Std.TransCmp.isLE_trans first second

theorem not_after_total (a b : Text) : NotAfter a b ∨ NotAfter b a := by
  unfold NotAfter
  rw [compare_swap b a]
  cases Text.compare a b <;> simp

theorem not_after_antisymm {a b : Text} (first : NotAfter a b) (second : NotAfter b a) : a = b := by
  unfold NotAfter at *
  rw [compare_swap b a] at second
  apply eq_of_compare
  cases order : Text.compare a b <;> simp_all

end Text
end CrashTriage
