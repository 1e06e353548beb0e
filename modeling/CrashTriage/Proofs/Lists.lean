import Mathlib.Data.List.Forall2

/-
Lists that are numbered, lists that are cut where a test fails, lists of values under keys, lists that are
sorted by a comparison, and lists that are read element by element where every reading may fail.
-/
namespace CrashTriage
namespace Numbered

theorem ascending {α : Type} (xs : List α) (start : Nat) :
    (xs.zipIdx start).Pairwise fun a b => a.2 < b.2 := by
  have numbers := List.pairwise_lt_range' (s := start) (n := xs.length) 1
  rwa [← List.zipIdx_map_snd start xs, List.pairwise_map] at numbers

theorem map_numbered {α β : Type} (xs : List α) (g : α × Nat → β) :
    (xs.zipIdx.map g).zipIdx = xs.zipIdx.map fun x => (g x, x.2) := by
  apply List.ext_getElem?
  intro n
  simp only [List.getElem?_zipIdx, List.getElem?_map, Option.map_map]
  cases xs[n]? <;> simp

end Numbered

namespace Mapped

variable {α β : Type} {p : β → Bool} {q : α → Bool} {g : α → β}

theorem take_while_map (xs : List α) (agree : ∀ x ∈ xs, p (g x) = q x) :
    (xs.map g).takeWhile p = (xs.takeWhile q).map g := by
  induction xs with
  | nil => rfl
  | cons x xs ih =>
    rw [List.forall_mem_cons] at agree
    rw [List.map_cons, List.takeWhile_cons, List.takeWhile_cons, agree.1]
    split
    · rw [ih agree.2, List.map_cons]
    · rfl

theorem drop_while_map (xs : List α) (agree : ∀ x ∈ xs, p (g x) = q x) :
    (xs.map g).dropWhile p = (xs.dropWhile q).map g := by
  induction xs with
  | nil => rfl
  | cons x xs ih =>
    rw [List.forall_mem_cons] at agree
    rw [List.map_cons, List.dropWhile_cons, List.dropWhile_cons, agree.1]
    split
    · exact ih agree.2
    · rfl

end Mapped

namespace Keyed

variable {κ α : Type} [BEq κ] [LawfulBEq κ]

theorem lookup_filter (keeps : κ → Bool) (key : κ) (xs : List (κ × α)) :
    (xs.filter fun x => keeps x.1).lookup key = if keeps key then xs.lookup key else none := by
  induction xs with
  | nil => simp
  | cons x xs ih =>
    obtain ⟨k, a⟩ := x
    rw [List.filter_cons, List.lookup_cons]
    by_cases same : key = k
    · subst same
      cases kept : keeps key <;> simp [kept, ih]
    · have differs : (key == k) = false := beq_eq_false_iff_ne.mpr same
      cases kept : keeps k <;> simp [List.lookup_cons, differs, ih]

theorem lookup_iff_mem {xs : List (κ × α)} (distinct : (xs.map (·.1)).Nodup) {key : κ} {a : α} :
    xs.lookup key = some a ↔ (key, a) ∈ xs := by
  induction xs with
  | nil => simp
  | cons x xs ih =>
    obtain ⟨k, b⟩ := x
    obtain ⟨new, rest⟩ := List.nodup_cons.mp distinct
    rw [List.lookup_cons, List.mem_cons, Prod.mk.injEq]
    by_cases same : key = k
    · subst same
      have elsewhere : (key, a) ∉ xs := fun there => new (List.mem_map.mpr ⟨(key, a), there, rfl⟩)
      simp [elsewhere, eq_comm]
    · have differs : (key == k) = false := beq_eq_false_iff_ne.mpr same
      simp [differs, same, ih rest]

end Keyed

namespace Sorted

variable {α : Type} {cmp : α → α → Ordering} {xs ys : List α}

theorem erase_dups_nodup [BEq α] [LawfulBEq α] (xs : List α) : xs.eraseDups.Nodup := by
  cases xs with
  | nil => exact .nil
  | cons x xs =>
    rw [List.eraseDups_cons]
    refine List.nodup_cons.mpr ⟨fun again => ?_, erase_dups_nodup _⟩
    have inRest := List.mem_eraseDups.mp again
    simp at inRest
termination_by xs.length
decreasing_by exact Nat.lt_succ_of_le (List.length_filter_le _ xs)

variable [Std.TransCmp cmp]

theorem ascending (xs : List α) :
    (xs.mergeSort fun a b => cmp a b != .gt).Pairwise fun a b => cmp a b ≠ .gt := by
  refine (List.pairwise_mergeSort (fun a b c first second => ?_) (fun a b => ?_) xs).imp fun before => ?_
  · simp only [bne_iff_ne, Ordering.ne_gt_iff_isLE] at *
    exact Std.TransCmp.isLE_trans first second
  · have swapped : cmp b a = (cmp a b).swap := Std.OrientedCmp.eq_swap
    rw [swapped]
    cases cmp a b <;> rfl
  · simpa using before

theorem strictly_ascending (distinct : xs.Pairwise fun a b => cmp a b ≠ .eq) :
    (xs.mergeSort fun a b => cmp a b != .gt).Pairwise fun a b => cmp a b = .lt := by
  have symmetric {a b : α} (differs : cmp a b ≠ .eq) : cmp b a ≠ .eq := by
    have swapped : cmp b a = (cmp a b).swap := Std.OrientedCmp.eq_swap
    rw [swapped]
    cases order : cmp a b <;> simp_all
  have sorted : (xs.mergeSort fun a b => cmp a b != .gt).Pairwise fun a b => cmp a b ≠ .gt := ascending xs
  have differ := (List.mergeSort_perm xs fun a b => cmp a b != .gt).symm.pairwise distinct symmetric
  refine (sorted.and differ).imp fun {a b} both => ?_
  cases order : cmp a b <;> simp_all

/-- Sorting does not depend on the order before when only equal elements compare as equal. -/
theorem sorted_alike (perm : xs.Perm ys) (faithful : ∀ a ∈ xs, ∀ b ∈ xs, cmp a b = .eq → a = b) :
    xs.mergeSort (fun a b => cmp a b != .gt) = ys.mergeSort fun a b => cmp a b != .gt := by
  have sortedPerm := (List.mergeSort_perm xs fun a b => cmp a b != .gt).trans
    (perm.trans (List.mergeSort_perm ys fun a b => cmp a b != .gt).symm)
  refine List.Perm.eq_of_pairwise (fun a b inFirst inSecond notAfter notBefore => ?_) (ascending xs) (ascending ys)
    sortedPerm
  have inXs := List.mem_mergeSort.mp inFirst
  have inYs := List.mem_mergeSort.mp inSecond
  refine faithful a inXs b (perm.mem_iff.mpr inYs) ?_
  have swapped : cmp b a = (cmp a b).swap := Std.OrientedCmp.eq_swap
  rw [swapped] at notBefore
  cases order : cmp a b <;> simp_all

end Sorted

namespace Readings

theorem bind_ok {ε α β : Type} {first : Except ε α} {next : α → Except ε β} {b : β} :
    first >>= next = .ok b ↔ ∃ a, first = .ok a ∧ next a = .ok b := by
  cases first <;> simp [bind, Except.bind]

theorem map_ok {ε α β : Type} {answer : Except ε α} {f : α → β} {b : β} :
    answer.map f = .ok b ↔ ∃ a, answer = .ok a ∧ f a = b := by
  cases answer <;> simp [Except.map]

theorem map_error_ok {ε δ α : Type} {answer : Except ε α} {f : ε → δ} {a : α} :
    answer.mapError f = .ok a ↔ answer = .ok a := by
  cases answer <;> simp [Except.mapError]

theorem of_all_read {ε α β : Type} {read : α → Except ε β} {xs : List α} {ys : List β}
    (run : xs.mapM read = .ok ys) : List.Forall₂ (fun x y => read x = .ok y) xs ys := by
  induction xs generalizing ys with
  | nil =>
    cases run
    exact .nil
  | cons x xs ih =>
    rw [List.mapM_cons] at run
    obtain ⟨y, first, more⟩ := bind_ok.mp run
    obtain ⟨rest, others, last⟩ := bind_ok.mp more
    cases last
    exact .cons first (ih others)

theorem all_read {ε α β : Type} {read : α → Except ε β} {xs : List α} {ys : List β}
    (each : List.Forall₂ (fun x y => read x = .ok y) xs ys) : xs.mapM read = .ok ys := by
  induction each with
  | nil => rfl
  | cons first _ ih => rw [List.mapM_cons, first, ih]; rfl

theorem mem_of_read {α β : Type} {related : α → β → Prop} {xs : List α} {ys : List β}
    (all : List.Forall₂ related xs ys) {y : β} (member : y ∈ ys) : ∃ x ∈ xs, related x y := by
  induction all with
  | nil => simp at member
  | cons first _ ih =>
    rcases List.mem_cons.mp member with rfl | later
    · exact ⟨_, List.mem_cons_self, first⟩
    · obtain ⟨x, here, holds⟩ := ih later
      exact ⟨x, List.mem_cons_of_mem _ here, holds⟩

theorem map_of_read {α β γ : Type} {related : α → β → Prop} {f : α → γ} {g : β → γ} {xs : List α}
    {ys : List β} (all : List.Forall₂ related xs ys) (same : ∀ x y, related x y → g y = f x) :
    ys.map g = xs.map f := by
  induction all with
  | nil => rfl
  | cons first _ ih => rw [List.map_cons, List.map_cons, same _ _ first, ih]

theorem read_both {α β : Type} {related other : α → β → Prop} {xs : List α} {ys : List β}
    (all : List.Forall₂ related xs ys) (others : List.Forall₂ other xs ys) {x : α} (member : x ∈ xs) :
    ∃ y, related x y ∧ other x y := by
  induction all with
  | nil => simp at member
  | cons first _ ih =>
    cases others with
    | cons first' rest =>
      rcases List.mem_cons.mp member with rfl | later
      · exact ⟨_, first, first'⟩
      · exact ih rest later

theorem paired_of_some {α β γ : Type} {f : α → Option γ} {g : β → γ} {xs : List α} {ys : List β}
    (same : ys.map g = xs.filterMap f) :
    List.Forall₂ (fun x y => f x = some (g y)) (xs.filter fun x => (f x).isSome) ys := by
  induction xs generalizing ys with
  | nil =>
    rw [List.map_eq_nil_iff.mp same]
    exact .nil
  | cons x xs ih =>
    cases found : f x with
    | none =>
      rw [List.filterMap_cons_none found] at same
      rw [List.filter_cons_of_neg (by simp [found])]
      exact ih same
    | some c =>
      rw [List.filterMap_cons_some found] at same
      obtain ⟨y, ys, rfl, first, rest⟩ := List.map_eq_cons_iff.mp same
      rw [List.filter_cons_of_pos (by simp [found])]
      exact .cons (found.trans (congrArg some first.symm)) (ih rest)

end Readings
end CrashTriage
