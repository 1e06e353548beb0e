import CrashTriage.Text.Numeral

/-
The symbols of one image: names at offsets from its base, in ascending order with no offset twice.
Of several names given for one offset the last is kept.
-/
namespace CrashTriage

abbrev Symbol := UInt64 × Text

namespace Symbol

/-- Puts a symbol into an ascending list, in place of one at the same offset. -/
def insert (s : Symbol) : List Symbol → List Symbol
  | [] => [s]
  | other :: rest =>
    if s.1 < other.1 then s :: other :: rest
    else if s.1 = other.1 then s :: rest
    else other :: insert s rest

theorem mem_insert {s x : Symbol} {xs : List Symbol} (h : x ∈ insert s xs) : x = s ∨ x ∈ xs := by
  induction xs with
  | nil => simpa [insert] using h
  | cons other rest ih =>
    simp only [insert] at h
    split at h
    · simpa using h
    · split at h
      · have := List.mem_cons.1 h
        rcases this with rfl | tail
        · exact Or.inl rfl
        · exact Or.inr (List.mem_cons_of_mem _ tail)
      · rcases List.mem_cons.1 h with rfl | tail
        · exact Or.inr List.mem_cons_self
        · exact (ih tail).imp_right (List.mem_cons_of_mem _)

theorem insert_ascending (s : Symbol) {xs : List Symbol}
    (ascending : xs.Pairwise fun a b => a.1 < b.1) :
    (insert s xs).Pairwise fun a b => a.1 < b.1 := by
  induction xs with
  | nil => simp [insert]
  | cons other rest ih =>
    obtain ⟨below, tail⟩ := List.pairwise_cons.1 ascending
    simp only [insert]
    split
    · next less =>
      refine List.pairwise_cons.2 ⟨fun x member => ?_, ascending⟩
      rcases List.mem_cons.1 member with rfl | later
      · exact less
      · exact UInt64.lt_trans less (below x later)
    · next notLess =>
      split
      · next equal =>
        exact List.pairwise_cons.2 ⟨fun x member => equal ▸ below x member, tail⟩
      · next different =>
        refine List.pairwise_cons.2 ⟨fun x member => ?_, ih tail⟩
        rcases mem_insert member with rfl | later
        · have h1 : ¬ x.1.toNat < other.1.toNat := fun h => notLess (UInt64.lt_iff_toNat_lt.2 h)
          have h2 : x.1.toNat ≠ other.1.toNat := fun h => different (UInt64.toNat_inj.1 h)
          exact UInt64.lt_iff_toNat_lt.2 (by omega)
        · exact below x later

end Symbol

structure SymbolTable where
  symbols : List Symbol
  ascending : symbols.Pairwise fun a b => a.1 < b.1
deriving DecidableEq

namespace SymbolTable

def empty : SymbolTable := ⟨[], .nil⟩

def insert (table : SymbolTable) (s : Symbol) : SymbolTable :=
  ⟨Symbol.insert s table.symbols, Symbol.insert_ascending s table.ascending⟩

def ofList (symbols : List Symbol) : SymbolTable := symbols.foldl insert empty

def size (table : SymbolTable) : Nat := table.symbols.length

/-- The symbol with the greatest offset that is not above `offset`. -/
def lookup? (table : SymbolTable) (offset : UInt64) : Option Symbol :=
  (table.symbols.takeWhile fun s => s.1 ≤ offset).getLast?

end SymbolTable

end CrashTriage
