import CrashTriage.Path
import CrashTriage.Proofs.Text.Cuts

/-
File names: a text without a slash is the only component of the path that it is, and one directory holds
one path for each.
-/
namespace CrashTriage
namespace Path

theorem relative_name {name : Text} (noSlash : '/' ∉ name) : isAbsolute name = false := by
  unfold isAbsolute
  split
  · simp at noSlash
  · rfl

theorem file_name_alone {name n : Text} (noSlash : '/' ∉ name) (found : fileName? name = some n) :
    n = name := by
  have relative := relative_name noSlash
  unfold fileName? components spans at found
  rw [Text.split_without noSlash, relative] at found
  simp only [Bool.false_eq_true, ↓reduceIte, List.nil_append, segmentSpans] at found
  split at found
  · rename_i last
    cases found
    split at last
    · simp at last
    · split at last
      · simp at last
      · split at last <;> simp_all
  · contradiction

theorem split_extension_name {name stem extension : Text} (noSlash : '/' ∉ name)
    (cut : splitExtension? name = some (stem, some extension)) :
    name = stem ++ '.' :: extension := by
  obtain ⟨n, found, parts⟩ := Option.map_eq_some_iff.mp cut
  have same := file_name_alone noSlash found
  subst same
  split at parts
  · rename_i before rest split
    split at parts
    · simp at parts
    · simp only [Prod.mk.injEq, Option.some.injEq] at parts
      obtain ⟨rfl, rfl⟩ := parts
      exact Text.split_last_some split
  · simp at parts

theorem join_name_injective {base : Path} {name other : Text} (noSlash : '/' ∉ name)
    (noSlashThere : '/' ∉ other) (same : join base name = join base other) : name = other := by
  simp only [join, relative_name noSlash, relative_name noSlashThere, Bool.false_or] at same
  split at same
  · exact same
  · split at same
    · exact List.append_cancel_left same
    · exact (List.cons.inj (List.append_cancel_left same)).2

end Path
end CrashTriage
