import CrashTriage.Proofs.Symbol.Outcomes
import Mathlib.Data.List.Dedup
import Mathlib.Data.List.Perm.Lattice

/-
A symbol table and the list it was made from. A look-up answers as a scan of the whole list does, in which
the last name of an offset counts. The same table comes from sorting the list by offset, equal offsets in
their order, and keeping the last symbol of each run; halving its range finds the symbol that a look-up finds.
-/
namespace CrashTriage
namespace Symbol

variable {symbols xs : List Symbol} {s x : Symbol}

def atOffset (offset : UInt64) (symbols : List Symbol) : List Symbol := symbols.filter fun s => s.1 = offset

/-- No symbol at the same offset comes later in the list. -/
def NamedLast (symbols : List Symbol) (s : Symbol) : Prop := (atOffset s.1 symbols).getLast? = some s

theorem named_last_concat (symbols : List Symbol) (s x : Symbol) :
    NamedLast (symbols ++ [s]) x ↔ x = s ∨ NamedLast symbols x ∧ x.1 ≠ s.1 := by
  unfold NamedLast atOffset
  rw [List.filter_append]
  by_cases same : s.1 = x.1
  · simp [same, eq_comm]
  · have other : x ≠ s := fun equal => same (by rw [equal])
    simp [same, other, Ne.symm same]

theorem named_last_mem (named : NamedLast symbols s) : s ∈ symbols :=
  (List.mem_filter.mp (List.mem_of_getLast? named)).1

theorem named_last_exists (member : s ∈ symbols) : ∃ x, NamedLast symbols x ∧ x.1 = s.1 := by
  have nonempty : atOffset s.1 symbols ≠ [] := List.ne_nil_of_mem (List.mem_filter.mpr ⟨member, by simp⟩)
  obtain ⟨x, last⟩ := Option.isSome_iff_exists.mp (List.getLast?_isSome.mpr nonempty)
  have same : x.1 = s.1 := by simpa using (List.mem_filter.mp (List.mem_of_getLast? last)).2
  exact ⟨x, by rw [NamedLast, same]; exact last, same⟩

abbrev Ascending (xs : List Symbol) : Prop := xs.Pairwise fun a b => a.1 < b.1

theorem insert_iff (ascending : Ascending xs) : x ∈ insert s xs ↔ x = s ∨ x ∈ xs ∧ x.1 ≠ s.1 := by
  induction xs with
  | nil => simp [insert]
  | cons other rest ih =>
    obtain ⟨below, tail⟩ := List.pairwise_cons.mp ascending
    simp only [insert]
    split
    · rename_i before
      have apart : ∀ y ∈ other :: rest, y.1 ≠ s.1 := by
        rw [List.forall_mem_cons]
        refine ⟨(UInt64.ne_of_lt before).symm, fun y later => (UInt64.ne_of_lt ?_).symm⟩
        exact UInt64.lt_trans before (below y later)
      rw [List.mem_cons]
      exact or_congr_right ⟨fun member => ⟨member, apart x member⟩, And.left⟩
    · split
      · rename_i same
        have apart : ∀ y ∈ rest, y.1 ≠ s.1 := fun y later => (same ▸ UInt64.ne_of_lt (below y later)).symm
        rw [List.mem_cons, List.mem_cons]
        apply or_congr_right
        constructor
        · exact fun member => ⟨.inr member, apart x member⟩
        · rintro ⟨rfl | member, differs⟩
          · exact absurd same.symm differs
          · exact member
      · rename_i differs
        rw [List.mem_cons, ih tail, List.mem_cons]
        constructor
        · rintro (rfl | rfl | ⟨member, apart⟩)
          · exact .inr ⟨.inl rfl, Ne.symm differs⟩
          · exact .inl rfl
          · exact .inr ⟨.inr member, apart⟩
        · rintro (rfl | ⟨rfl | member, apart⟩)
          · exact .inr (.inl rfl)
          · exact .inl rfl
          · exact .inr (.inr ⟨member, apart⟩)

theorem ascending_ext (first : Ascending xs) (second : Ascending symbols) (same : ∀ s, s ∈ xs ↔ s ∈ symbols) :
    xs = symbols := by
  have nodup {ys : List Symbol} (ascending : Ascending ys) : ys.Nodup := by
    refine List.Pairwise.imp ?_ ascending
    rintro a b less rfl
    exact UInt64.lt_irrefl _ less
  have perm := (List.perm_ext_iff_of_nodup (nodup first) (nodup second)).mpr same
  refine perm.eq_of_pairwise (fun a b _ _ less more => ?_) first second
  exact absurd (UInt64.lt_trans less more) (UInt64.lt_irrefl _)

/-- The last of ascending symbols is the greatest. -/
theorem last_iff_greatest (ascending : Ascending xs) :
    xs.getLast? = some s ↔ s ∈ xs ∧ ∀ other ∈ xs, other.1 ≤ s.1 := by
  rcases List.eq_nil_or_concat xs with rfl | ⟨front, last, rfl⟩
  · simp
  · rw [List.concat_eq_append] at ascending ⊢
    have below : ∀ other ∈ front, other.1 < last.1 := fun other member =>
      (List.pairwise_append.mp ascending).2.2 other member last (List.mem_singleton_self last)
    rw [List.getLast?_concat, Option.some_inj]
    constructor
    · rintro rfl
      refine ⟨by simp, fun other member => ?_⟩
      rcases List.mem_append.mp member with earlier | here
      · exact UInt64.le_of_lt (below other earlier)
      · rw [List.mem_singleton.mp here]
        exact UInt64.le_refl _
    · rintro ⟨member, greatest⟩
      rcases List.mem_append.mp member with earlier | here
      · exact absurd (greatest last (by simp)) (UInt64.not_le.mpr (below s earlier))
      · exact (List.mem_singleton.mp here).symm

/-- Of ascending symbols those up to an offset come first. -/
theorem take_while_ascending (ascending : Ascending xs) (offset : UInt64) :
    (xs.takeWhile fun s => s.1 ≤ offset) = xs.filter fun s => s.1 ≤ offset := by
  induction xs with
  | nil => rfl
  | cons s rest ih =>
    obtain ⟨below, tail⟩ := List.pairwise_cons.mp ascending
    rw [List.takeWhile_cons, List.filter_cons, ih tail]
    split
    · rfl
    · rename_i above
      have above : offset < s.1 := UInt64.not_le.mp (by simpa using above)
      refine (List.filter_eq_nil_iff.mpr fun later member => ?_).symm
      simpa using UInt64.lt_trans above (below later member)

end Symbol

namespace SymbolTable

open CrashTriage.Symbol

variable {symbols : List Symbol} {s : Symbol}

theorem table_ext {other : SymbolTable} (same : table.symbols = other.symbols) : table = other := by
  cases table
  cases other
  cases same
  rfl

theorem of_list_concat (symbols : List Symbol) (s : Symbol) :
    ofList (symbols ++ [s]) = (ofList symbols).insert s := by
  rw [ofList, List.foldl_append]
  rfl

/-- A table holds the last symbol of each offset of its list. -/
theorem mem_of_list (symbols : List Symbol) (s : Symbol) :
    s ∈ (ofList symbols).symbols ↔ NamedLast symbols s := by
  induction symbols using List.reverseRecOn with
  | nil => simp [ofList, empty, NamedLast, atOffset]
  | append_singleton symbols last ih =>
    rw [of_list_concat, named_last_concat, ← ih]
    exact insert_iff (ofList symbols).ascending

theorem lookup_iff (table : SymbolTable) (target : UInt64) (s : Symbol) :
    table.lookup? target = some s ↔
      s ∈ table.symbols ∧ s.1 ≤ target ∧ ∀ other ∈ table.symbols, other.1 ≤ target → other.1 ≤ s.1 := by
  rw [lookup?, take_while_ascending table.ascending, last_iff_greatest (table.ascending.filter _)]
  simp [and_assoc]

/-- What a scan of the whole list answers: the greatest offset up to the target, under its last name. -/
structure Scanned (symbols : List Symbol) (target : UInt64) (s : Symbol) : Prop where
  below : s.1 ≤ target
  greatest : ∀ other ∈ symbols, other.1 ≤ target → other.1 ≤ s.1
  named : NamedLast symbols s

theorem lookup_scans (symbols : List Symbol) (target : UInt64) (s : Symbol) :
    (ofList symbols).lookup? target = some s ↔ Scanned symbols target s := by
  rw [lookup_iff, mem_of_list]
  constructor
  · rintro ⟨named, below, greatest⟩
    refine ⟨below, fun other member under => ?_, named⟩
    obtain ⟨last, lastNamed, same⟩ := named_last_exists member
    exact same ▸ greatest last ((mem_of_list symbols last).mpr lastNamed) (same ▸ under)
  · rintro ⟨below, greatest, named⟩
    refine ⟨named, below, fun other member under => greatest other ?_ under⟩
    exact named_last_mem ((mem_of_list symbols other).mp member)

theorem lookup_none_iff (symbols : List Symbol) (target : UInt64) :
    (ofList symbols).lookup? target = none ↔ ∀ s ∈ symbols, target < s.1 := by
  constructor
  · intro missing s member
    obtain ⟨last, named, same⟩ := named_last_exists member
    exact same ▸ UInt64.lt_iff_toNat_lt.mpr (lookup_none missing last ((mem_of_list symbols last).mpr named))
  · intro above
    refine Option.eq_none_iff_forall_ne_some.mpr fun s found => ?_
    obtain ⟨below, -, named⟩ := (lookup_scans symbols target s).mp found
    exact absurd below (UInt64.not_le.mpr (above s (named_last_mem named)))

theorem size_of_list (symbols : List Symbol) : (ofList symbols).size = (symbols.map (·.1)).dedup.length := by
  have distinct : ((ofList symbols).symbols.map (·.1)).Nodup := by
    rw [List.Nodup, List.pairwise_map]
    exact (ofList symbols).ascending.imp UInt64.ne_of_lt
  have same : ((ofList symbols).symbols.map (·.1)).Perm (symbols.map (·.1)).dedup := by
    refine (List.perm_ext_iff_of_nodup distinct (List.nodup_dedup _)).mpr fun offset => ?_
    rw [List.mem_dedup, List.mem_map, List.mem_map]
    constructor
    · rintro ⟨s, member, rfl⟩
      exact ⟨s, named_last_mem ((mem_of_list symbols s).mp member), rfl⟩
    · rintro ⟨s, member, rfl⟩
      obtain ⟨last, named, equal⟩ := named_last_exists member
      exact ⟨last, (mem_of_list symbols last).mpr named, equal⟩
  rw [size, ← same.length_eq, List.length_map]

/-- Lists with the same symbols in the same order at each offset make the same table. -/
theorem of_list_congr {others : List Symbol} (same : ∀ offset, atOffset offset symbols = atOffset offset others) :
    ofList symbols = ofList others := by
  refine table_ext (ascending_ext (ofList symbols).ascending (ofList others).ascending fun s => ?_)
  rw [mem_of_list, mem_of_list, NamedLast, NamedLast, same]

/-- The list by offset, symbols at one offset in the order they had. -/
def sorted (symbols : List Symbol) : List Symbol := symbols.mergeSort fun a b => a.1 ≤ b.1

theorem at_offset_sorted (offset : UInt64) (symbols : List Symbol) :
    atOffset offset (sorted symbols) = atOffset offset symbols := by
  have tied : (atOffset offset symbols).Pairwise fun a b => decide (a.1 ≤ b.1) = true := by
    refine List.pairwise_of_forall_mem_list fun a here b there => ?_
    have equal : a.1 = offset ∧ b.1 = offset := by simp_all [atOffset]
    simp [equal]
  have kept : (atOffset offset symbols).Sublist (sorted symbols) := by
    refine List.sublist_mergeSort (fun a b c ab bc => ?_) (fun a b => ?_) tied List.filter_sublist
    · simpa using UInt64.le_trans (by simpa using ab) (by simpa using bc)
    · simpa using UInt64.le_total a.1 b.1
  have again : (atOffset offset symbols).Sublist (atOffset offset (sorted symbols)) := by
    have filtered := kept.filter fun s : Symbol => decide (s.1 = offset)
    rw [atOffset, List.filter_filter] at filtered
    simpa [atOffset] using filtered
  refine (again.eq_of_length ?_).symm
  exact ((List.mergeSort_perm symbols _).filter _).length_eq.symm

/-- Adds a symbol to those kept, of which the latest stands first. At the offset of the latest it only gives its
name to it. -/
def keep (kept : List Symbol) (s : Symbol) : List Symbol :=
  match kept with
  | latest :: before => if s.1 = latest.1 then (latest.1, s.2) :: before else s :: latest :: before
  | [] => [s]

/-- One symbol of each run at one offset, with the last name of the run. -/
def collapsed (symbols : List Symbol) : List Symbol := (symbols.foldl keep []).reverse

theorem insert_after {front : List Symbol} (before : ∀ other ∈ front, other.1 < s.1) (rest : List Symbol) :
    Symbol.insert s (front ++ rest) = front ++ Symbol.insert s rest := by
  induction front with
  | nil => rfl
  | cons other front ih =>
    rw [List.forall_mem_cons] at before
    have later : ¬ s.1 < other.1 := UInt64.not_lt.mpr (UInt64.le_of_lt before.1)
    have differs : s.1 ≠ other.1 := (UInt64.ne_of_lt before.1).symm
    rw [List.cons_append, Symbol.insert, if_neg later, if_neg differs, ih before.2, List.cons_append]

theorem insert_at_end {xs : List Symbol} (ascending : Ascending xs) (before : ∀ other ∈ xs, other.1 ≤ s.1) :
    Symbol.insert s xs = (keep xs.reverse s).reverse := by
  rcases List.eq_nil_or_concat xs with rfl | ⟨front, last, rfl⟩
  · rfl
  · rw [List.concat_eq_append] at ascending before ⊢
    have reaches : last.1 ≤ s.1 := before last (by simp)
    have below : ∀ other ∈ front, other.1 < s.1 := fun other member =>
      UInt64.lt_of_lt_of_le ((List.pairwise_append.mp ascending).2.2 other member last (by simp)) reaches
    rw [insert_after below, Symbol.insert, if_neg (UInt64.not_lt.mpr reaches), List.reverse_concat, keep]
    split
    · rename_i same
      simp [← same]
    · simp [Symbol.insert]

theorem collapsed_ordered (ordered : symbols.Pairwise fun a b => a.1 ≤ b.1) :
    collapsed symbols = (ofList symbols).symbols := by
  unfold collapsed
  induction symbols using List.reverseRecOn with
  | nil => rfl
  | append_singleton symbols last ih =>
    obtain ⟨earlier, -, before⟩ := List.pairwise_append.mp ordered
    have under : ∀ other ∈ (ofList symbols).symbols, other.1 ≤ last.1 := fun other member =>
      before other (named_last_mem ((mem_of_list symbols other).mp member)) last (by simp)
    have step : (ofList (symbols ++ [last])).symbols = Symbol.insert last (ofList symbols).symbols := by
      rw [of_list_concat]
      rfl
    rw [step, insert_at_end (ofList symbols).ascending under, ← ih earlier, List.reverse_reverse, List.foldl_append]
    rfl

theorem collapsed_sorted (symbols : List Symbol) : collapsed (sorted symbols) = (ofList symbols).symbols := by
  have ordered : (sorted symbols).Pairwise fun a b => a.1 ≤ b.1 := by
    refine (List.pairwise_mergeSort (fun a b c ab bc => ?_) (fun a b => ?_) symbols).imp fun le => by simpa using le
    · simpa using UInt64.le_trans (by simpa using ab) (by simpa using bc)
    · simpa using UInt64.le_total a.1 b.1
  rw [collapsed_ordered ordered, of_list_congr fun offset => at_offset_sorted offset symbols]

/-- How many of the first symbols are at or below the target, when that is known to be between `low` and `high`.
The range is halved until it is empty. -/
def countUpTo (symbols : List Symbol) (target : UInt64) (low high : Nat) : Nat :=
  if low < high then
    let middle := low + (high - low) / 2
    if symbols[middle]?.any fun s => s.1 ≤ target then countUpTo symbols target (middle + 1) high
    else countUpTo symbols target low middle
  else low
termination_by high - low

/-- The last symbol at or below the target. -/
def halved? (symbols : List Symbol) (target : UInt64) : Option Symbol :=
  match countUpTo symbols target 0 symbols.length with
  | 0 => none
  | n + 1 => symbols[n]?

theorem up_to_iff {xs : List Symbol} (ascending : Ascending xs) (target : UInt64) (n : Nat) :
    (xs[n]?.any fun s => s.1 ≤ target) = true ↔ n < (xs.takeWhile fun s => s.1 ≤ target).length := by
  have parts := List.takeWhile_append_dropWhile (p := fun s : Symbol => decide (s.1 ≤ target)) (l := xs)
  have all : ∀ s ∈ xs.takeWhile fun s => s.1 ≤ target, s.1 ≤ target := fun s member => by
    simpa using List.mem_takeWhile_imp member
  have none : ∀ s ∈ xs.dropWhile fun s => s.1 ≤ target, ¬ s.1 ≤ target := by
    have first := take_while_ascending ascending target
    nth_rewrite 2 [← parts] at first
    rw [List.filter_append, List.filter_eq_self.mpr fun s => List.mem_takeWhile_imp] at first
    simpa using List.self_eq_append_right.mp first
  generalize (xs.takeWhile fun s => s.1 ≤ target) = taken at parts all ⊢
  generalize (xs.dropWhile fun s => s.1 ≤ target) = dropped at parts none
  rw [← parts]
  by_cases inside : n < taken.length
  · rw [List.getElem?_append_left inside, List.getElem?_eq_getElem inside]
    simp [inside, all taken[n] (List.getElem_mem inside)]
  · rw [List.getElem?_append_right (Nat.le_of_not_lt inside)]
    cases there : dropped[n - taken.length]? with
    | none => simp [inside]
    | some s => simp [inside, none s (List.mem_of_getElem? there)]

theorem count_up_to {xs : List Symbol} (ascending : Ascending xs) (target : UInt64) {low high : Nat}
    (least : low ≤ (xs.takeWhile fun s => s.1 ≤ target).length)
    (most : (xs.takeWhile fun s => s.1 ≤ target).length ≤ high) :
    countUpTo xs target low high = (xs.takeWhile fun s => s.1 ≤ target).length := by
  fun_induction countUpTo xs target low high with
  | case1 low high active middle reaches ih =>
    exact ih (Nat.succ_le_of_lt ((up_to_iff ascending target middle).mp reaches)) most
  | case2 low high active middle stops ih =>
    rw [up_to_iff ascending target middle] at stops
    exact ih least (Nat.le_of_not_lt stops)
  | case3 low high empty => omega

theorem halved_eq (table : SymbolTable) (target : UInt64) :
    halved? table.symbols target = table.lookup? target := by
  have count := count_up_to table.ascending target (Nat.zero_le _) (List.takeWhile_sublist _).length_le
  have front := List.takeWhile_prefix (fun s : Symbol => decide (s.1 ≤ target)) (l := table.symbols)
  unfold halved? lookup?
  rw [count, List.getLast?_eq_getElem?]
  generalize (table.symbols.takeWhile fun s => s.1 ≤ target) = taken at front
  cases taken with
  | nil => rfl
  | cons s rest =>
    have inside : rest.length < (s :: rest).length := Nat.lt_succ_self _
    have last : table.symbols[rest.length]? = (s :: rest)[rest.length]? := by
      rw [List.getElem?_eq_getElem inside]
      exact List.prefix_iff_getElem?.mp front rest.length inside
    exact last

/-- A table that answers as scans of the list do. -/
structure ScansList (symbols : List Symbol) (table : SymbolTable) : Prop where
  nothing : ∀ target, table.lookup? target = none ↔ ∀ s ∈ symbols, target < s.1
  found : ∀ target s, table.lookup? target = some s ↔ Scanned symbols target s
  distinct : table.size = (symbols.map (·.1)).dedup.length
  runs : table.symbols = collapsed (sorted symbols)
  halves : ∀ target, table.lookup? target = halved? table.symbols target

theorem table_scans_list (symbols : List Symbol) : ScansList symbols (ofList symbols) where
  nothing := lookup_none_iff symbols
  found := lookup_scans symbols
  distinct := size_of_list symbols
  runs := (collapsed_sorted symbols).symm
  halves := fun target => (halved_eq (ofList symbols) target).symm

end SymbolTable
end CrashTriage
