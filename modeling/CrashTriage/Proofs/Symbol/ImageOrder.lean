import CrashTriage.Log.CrashLog
import CrashTriage.Proofs.Symbol.Outcomes
import CrashTriage.Proofs.Text.Order

/-
The order of the image table. The owner of an address is a least image by base and path, and of several
least ones the first in the table. So the order of the rows can be seen just when two different images
are both least for some address, which takes the same base and the same path.
-/
namespace CrashTriage
namespace Image

variable {images permuted : List Image} {address : UInt64} {i j k : Image}

def NotLater (i j : Image) : Prop :=
  i.base.toNat < j.base.toNat ∨ (i.base = j.base ∧ Text.NotAfter i.path j.path)

theorem before_eq_false_iff (i j : Image) : before j i = false ↔ NotLater i j := by
  have paths : Text.compare j.path i.path ≠ .lt ↔ Text.NotAfter i.path j.path := by
    rw [Text.NotAfter, Text.compare_swap i.path j.path]
    cases Text.compare j.path i.path <;> simp
  have order : j.base < i.base ↔ j.base.toNat < i.base.toNat := UInt64.lt_iff_toNat_lt
  have equal : j.base = i.base ↔ j.base.toNat = i.base.toNat := UInt64.toNat_inj.symm
  simp only [before, NotLater, Bool.or_eq_false_iff, Bool.and_eq_false_iff, decide_eq_false_iff_not,
    beq_eq_false_iff_ne, order, eq_comm (a := i.base), equal, paths]
  constructor
  · rintro ⟨notBelow, other | paths⟩
    · left
      omega
    · by_cases same : j.base.toNat = i.base.toNat
      · exact .inr ⟨same, paths⟩
      · left
        omega
  · rintro (below | ⟨same, paths⟩)
    · exact ⟨by omega, .inl (by omega)⟩
    · exact ⟨by omega, .inr paths⟩

theorem not_later_refl (i : Image) : NotLater i i := .inr ⟨rfl, Text.not_after_refl i.path⟩

theorem not_later_trans (first : NotLater i j) (second : NotLater j k) : NotLater i k := by
  rcases first with below | ⟨same, paths⟩
  · rcases second with further | ⟨equal, _⟩
    · exact .inl (by omega)
    · exact .inl (equal ▸ below)
  · rcases second with further | ⟨equal, more⟩
    · exact .inl (same ▸ further)
    · exact .inr ⟨same.trans equal, Text.not_after_trans paths more⟩

theorem not_later_of_before (less : before i j = true) : NotLater i j := by
  simp only [before, Bool.or_eq_true, Bool.and_eq_true, decide_eq_true_eq, beq_iff_eq] at less
  rcases less with below | ⟨same, paths⟩
  · exact .inl (UInt64.lt_iff_toNat_lt.mp below)
  · refine .inr ⟨same, ?_⟩
    rw [Text.NotAfter, paths]
    simp

theorem least_not_later (least : least? images = some i) : ∀ other ∈ images, NotLater i other := by
  induction images generalizing i with
  | nil => cases least
  | cons first rest ih =>
    unfold least? at least
    split at least
    · rename_i other found
      have above := ih found
      split at least
      · rename_i less
        cases least
        intro x member
        rcases List.mem_cons.mp member with rfl | later
        · exact not_later_of_before less
        · exact above x later
      · rename_i notLess
        cases least
        have fits := (before_eq_false_iff _ _).mp (by simpa using notLess)
        intro x member
        rcases List.mem_cons.mp member with rfl | later
        · exact not_later_refl x
        · exact not_later_trans fits (above x later)
    · rename_i empty
      cases least
      obtain rfl := (least_none_iff rest).mp empty
      intro x member
      rw [List.mem_singleton.mp member]
      exact not_later_refl _

theorem least_of_first (rest : List Image) (least : ∀ other ∈ rest, NotLater i other) :
    least? (i :: rest) = some i := by
  unfold least?
  cases found : least? rest with
  | none => rfl
  | some other =>
    have kept := (before_eq_false_iff i other).mpr (least other (least_mem found))
    simp [kept]

/-- An image that could own an address: none that holds it comes earlier by base and path. -/
structure Least (images : List Image) (address : UInt64) (image : Image) : Prop where
  listed : image ∈ images
  contains : image.contains address = true
  first : ∀ other ∈ images, other.contains address = true → NotLater image other

theorem owner_least (owner : owner? images address = some i) : Least images address i := by
  obtain ⟨listed, contains⟩ := List.mem_filter.mp (least_mem owner)
  refine ⟨listed, contains, fun other there holds => ?_⟩
  exact least_not_later owner other (List.mem_filter.mpr ⟨there, holds⟩)

theorem owner_of_contains (there : i ∈ images) (contains : i.contains address = true) :
    ∃ owner, owner? images address = some owner := by
  cases found : owner? images address with
  | some owner => exact ⟨owner, rfl⟩
  | none =>
    have outside := owner_none found i there
    rw [contains] at outside
    contradiction

theorem least_permuted (order : permuted.Perm images) :
    Least permuted address i ↔ Least images address i := by
  constructor
  · rintro ⟨listed, contains, first⟩
    exact ⟨order.mem_iff.mp listed, contains, fun other there => first other (order.mem_iff.mpr there)⟩
  · rintro ⟨listed, contains, first⟩
    exact ⟨order.mem_iff.mpr listed, contains, fun other there => first other (order.mem_iff.mp there)⟩

/-- Any image that could own an address does own it in some order of the table. -/
theorem owner_in_some_order (least : Least images address i) :
    ∃ permuted, permuted.Perm images ∧ owner? permuted address = some i := by
  -- of several least images the first in the table owns the address
  obtain ⟨before, after, rfl⟩ := List.append_of_mem least.listed
  have order : (i :: (before ++ after)).Perm (before ++ i :: after) := List.perm_middle.symm
  refine ⟨i :: (before ++ after), order, ?_⟩
  have sameLeast := (least_permuted order).mpr least
  rw [owner?, List.filter_cons, if_pos least.contains]
  refine least_of_first _ fun other member => ?_
  obtain ⟨there, holds⟩ := List.mem_filter.mp member
  exact sameLeast.first other (List.mem_cons_of_mem i there) holds

/-- No address has two different images that could own it. -/
def OwnersSettled (images : List Image) : Prop :=
  ∀ address i j, Least images address i → Least images address j → i = j

theorem owner_permuted (settled : OwnersSettled images) (order : permuted.Perm images)
    (address : UInt64) : owner? permuted address = owner? images address := by
  cases owner : owner? permuted address with
  | some i =>
    have least := (least_permuted order).mp (owner_least owner)
    obtain ⟨j, same⟩ := owner_of_contains least.listed least.contains
    rw [same, settled address i j least (owner_least same)]
  | none =>
    cases other : owner? images address with
    | none => rfl
    | some j =>
      have least := owner_least other
      have outside := owner_none owner j (order.mem_iff.mpr least.listed)
      rw [least.contains] at outside
      contradiction

theorem settled_of_owners
    (same : ∀ permuted, permuted.Perm images → ∀ address, owner? permuted address = owner? images address) :
    OwnersSettled images := by
  intro address i j leastI leastJ
  obtain ⟨first, orderI, ownerI⟩ := owner_in_some_order leastI
  obtain ⟨second, orderJ, ownerJ⟩ := owner_in_some_order leastJ
  rw [same first orderI] at ownerI
  rw [same second orderJ, ownerI] at ownerJ
  exact Option.some.inj ownerJ

/-- Images with different bases or paths are never both least. -/
theorem settled_of_keys (keys : ∀ i ∈ images, ∀ j ∈ images, i.base = j.base → i.path = j.path → i = j) :
    OwnersSettled images := by
  intro address i j leastI leastJ
  have forth := leastI.first j leastJ.listed leastJ.contains
  have back := leastJ.first i leastI.listed leastI.contains
  rcases forth with below | ⟨same, paths⟩
  · rcases back with above | ⟨equal, _⟩
    · omega
    · rw [equal] at below
      omega
  · rcases back with above | ⟨_, others⟩
    · rw [same] at above
      omega
    · exact keys i leastI.listed j leastJ.listed same (Text.not_after_antisymm paths others)

end Image

namespace Symbolication

variable {m : Type → Type} [Monad m]

theorem run_by_owners {images permuted : List Image}
    (same : ∀ address, Image.owner? permuted address = Image.owner? images address) (text : Text)
    (source : Image → m (Option SymbolTable)) : run text permuted source = run text images source := by
  have steps : Progress.step permuted source = Progress.step images source := by
    funext p frame
    rw [Progress.step, Progress.step, same]
  rw [run, run, steps]

end Symbolication

namespace CrashLog

variable {m : Type → Type} [Monad m] {images permuted : List Image}

def withImages (images : List Image) (log : CrashLog) : CrashLog :=
  { log with loaded := log.loaded.map fun l => { l with images } }

theorem crashed_thread_with_images (images : List Image) (log : CrashLog) :
    (log.withImages images).crashedThread? = log.crashedThread? := by
  unfold crashedThread? withImages
  cases log.loaded <;> rfl

theorem images_with_images (images : List Image) (log : CrashLog) :
    (log.withImages images).images = if log.loaded.isSome then images else [] := by
  unfold CrashLog.images withImages
  cases log.loaded <;> rfl

theorem owner_with_images (same : ∀ address, Image.owner? permuted address = Image.owner? images address)
    (log : CrashLog) (address : UInt64) :
    Image.owner? (log.withImages permuted).images address =
      Image.owner? (log.withImages images).images address := by
  rw [images_with_images, images_with_images]
  split
  · exact same address
  · rfl

theorem victim_by_owners (same : ∀ address, Image.owner? permuted address = Image.owner? images address)
    (log : CrashLog) : (log.withImages permuted).victim? = (log.withImages images).victim? := by
  simp only [victim?, crashed_thread_with_images, owner_with_images same log]

theorem suspects_by_owners (same : ∀ address, Image.owner? permuted address = Image.owner? images address)
    (owner : Path → m Resolution) (log : CrashLog) :
    suspects owner (log.withImages permuted) = suspects owner (log.withImages images) := by
  simp only [suspects, stackImages, crashed_thread_with_images, victim_by_owners same log,
    owner_with_images same log]

end CrashLog

/-- Whatever the order of an image table, every address has the same owner, every report the same
symbols and every log the same victim and suspects. -/
structure OrderIrrelevant (images : List Image) : Prop where
  owner : ∀ permuted, permuted.Perm images → ∀ address,
    Image.owner? permuted address = Image.owner? images address
  symbols : ∀ (m : Type → Type) [Monad m] permuted, permuted.Perm images →
    ∀ (text : Text) (source : Image → m (Option SymbolTable)),
      Symbolication.run text permuted source = Symbolication.run text images source
  victim : ∀ permuted, permuted.Perm images → ∀ log : CrashLog,
    (log.withImages permuted).victim? = (log.withImages images).victim?
  suspects : ∀ (m : Type → Type) [Monad m] permuted, permuted.Perm images →
    ∀ (log : CrashLog) (resolve : Path → m Resolution),
      (log.withImages permuted).suspects resolve = (log.withImages images).suspects resolve

theorem order_irrelevant_iff (images : List Image) :
    OrderIrrelevant images ↔ Image.OwnersSettled images := by
  constructor
  · intro irrelevant
    exact Image.settled_of_owners irrelevant.owner
  · intro settled
    have same : ∀ permuted, permuted.Perm images → ∀ address,
        Image.owner? permuted address = Image.owner? images address :=
      fun permuted order => Image.owner_permuted settled order
    constructor
    · exact same
    · intro m _ permuted order text source
      exact Symbolication.run_by_owners (same permuted order) text source
    · intro permuted order log
      exact CrashLog.victim_by_owners (same permuted order) log
    · intro m _ permuted order log resolve
      exact CrashLog.suspects_by_owners (same permuted order) resolve log

/-- Two rows for the same path and base, as two builds of one program leave them. -/
def oldBuild : Image :=
  { base := 0x1000
    size := 0x100
    name := "App".toList
    path := "/App".toList
    arch := none
    version := none
    uuid := some "aa".toList
    fromUnofficialSource := true
    newerThanOsBuild := false }

def newBuild : Image := { oldBuild with size := 0x1000, uuid := some "bb".toList }

def oldBuildSymbols (image : Image) : Id (Option SymbolTable) :=
  if image = oldBuild then some (SymbolTable.empty.insert (8, "main".toList)) else none

def appStack : Text := "Thread 0 Crashed:\n0 App 0x1010 0x1000 + 16".toList

theorem order_seen_between_builds :
    [newBuild, oldBuild].Perm [oldBuild, newBuild] ∧
      Image.owner? [oldBuild, newBuild] 0x1010 = some oldBuild ∧
      Image.owner? [newBuild, oldBuild] 0x1010 = some newBuild ∧
      (Id.run (Symbolication.run appStack [oldBuild, newBuild] oldBuildSymbols)).1 =
        "Thread 0 Crashed:\n0 App 0x1010 main + 8".toList ∧
      (Id.run (Symbolication.run appStack [newBuild, oldBuild] oldBuildSymbols)).1 = appStack ∧
      ¬ OrderIrrelevant [oldBuild, newBuild] := by
  have order : [newBuild, oldBuild].Perm [oldBuild, newBuild] := List.Perm.swap _ _ _
  have forth : Image.owner? [oldBuild, newBuild] 0x1010 = some oldBuild := by decide +kernel
  have back : Image.owner? [newBuild, oldBuild] 0x1010 = some newBuild := by decide +kernel
  refine ⟨order, forth, back, by decide +kernel, by decide +kernel, fun irrelevant => ?_⟩
  have same := irrelevant.owner [newBuild, oldBuild] order 0x1010
  rw [forth, back] at same
  revert same
  decide +kernel

end CrashTriage
