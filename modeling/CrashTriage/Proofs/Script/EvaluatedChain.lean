import CrashTriage.Proofs.Lists
import CrashTriage.Script.Evaluation
import Mathlib.Data.List.Basic

/-
What remains of a chain of scripts. The instructions of a chain are numbered from zero over all scripts
and single instructions that were added to it. Of the links that no denial names, and of the includes,
the first of each key remains with its number and the origin it was added with. Where denials stand
makes no difference but to the numbers.
-/
namespace CrashTriage
namespace Evaluation

/-- What a chain is made longer by. -/
inductive Addition where
  | script (script : Script) (origin : Option Text)
  | instruction (instruction : Instruction) (origin : Option Text)
deriving DecidableEq, Repr

namespace Addition

def addTo (e : Evaluation) : Addition → Evaluation
  | .script s origin => e.addScript s origin
  | .instruction i origin => e.add i origin

/-- The instructions of an addition, with the origin they are added with. -/
def members : Addition → List Instruction
  | .script s origin => s.instructions.map fun i => { i with origin }
  | .instruction i origin => [{ i with origin }]

end Addition

def ofChain (chain : List Addition) : Evaluation := chain.foldl Addition.addTo empty

def numberedFrom (start : Nat) (is : List Instruction) : List Instruction :=
  (is.zipIdx start).map fun x => { x.1 with order := x.2 }

/-- The instructions of a chain in the order of declaration, each with its position and its origin. -/
def declared (chain : List Addition) : List Instruction :=
  numberedFrom 0 (chain.flatMap Addition.members)

def Denies (all : List Instruction) (title : Text) : Prop := ∃ i ∈ all, i.directive = .deny title

/-- A link that no denial names, the first with its title and target. -/
def LinkRemains (all : List Instruction) (i : Instruction) : Prop :=
  ∃ l, i.directive = .contact l ∧ ¬ Denies all l.unlocalizedTitle ∧
    ∀ j ∈ all, j.order < i.order → ∀ k, j.directive = .contact k →
      ¬ (k.unlocalizedTitle = l.unlocalizedTitle ∧ k.target = l.target)

/-- An include, the first of its kind and target. -/
def IncludeRemains (all : List Instruction) (i : Instruction) : Prop :=
  ∃ e, i.directive = .attach e ∧
    ∀ j ∈ all, j.order < i.order → ∀ k, j.directive = .attach k →
      ¬ (k.kind = e.kind ∧ k.target = e.target)

/-- `kept` is what satisfies `remains`, in the order of `all`. -/
structure Selects (all : List Instruction) (remains : Instruction → Prop) (kept : List Instruction) :
    Prop where
  inOrder : kept.Sublist all
  exactly : ∀ i, i ∈ kept ↔ i ∈ all ∧ remains i

def isDenial (i : Instruction) : Bool :=
  match i.directive with
  | .deny _ => true
  | _ => false

def unnumbered (i : Instruction) : Instruction := { i with order := 0 }

/-- Two chains that deny the same titles and are otherwise the same. -/
structure DenialsMoved (chain other : List Addition) : Prop where
  sameTitles : ∀ title, Denies (declared chain) title ↔ Denies (declared other) title
  sameOthers : ((declared chain).filter fun i => !isDenial i).map unnumbered =
    ((declared other).filter fun i => !isDenial i).map unnumbered

section FirstByKey

variable {α κ : Type} [BEq κ] {key : α → κ}

theorem first_by_sublist (seen : List κ) (xs : List α) : (firstBy key seen xs).Sublist xs := by
  induction xs generalizing seen with
  | nil => exact .slnil
  | cons x xs ih =>
    unfold firstBy
    split
    · exact (ih seen).cons x
    · exact (ih _).cons_cons x

/-- What is kept stands before all others with its key. -/
theorem mem_first_by_split [LawfulBEq κ] {seen : List κ} {xs : List α} {y : α} :
    y ∈ firstBy key seen xs ↔ key y ∉ seen ∧
      ∃ before after, xs = before ++ y :: after ∧ ∀ x ∈ before, key x ≠ key y := by
  induction xs generalizing seen with
  | nil => simp [firstBy]
  | cons x xs ih =>
    unfold firstBy
    split
    · rename_i known
      rw [List.contains_iff_mem] at known
      rw [ih]
      refine and_congr_right fun new => ?_
      have other : key x ≠ key y := fun same => new (same ▸ known)
      constructor
      · rintro ⟨before, after, rfl, first⟩
        exact ⟨x :: before, after, rfl, List.forall_mem_cons.mpr ⟨other, first⟩⟩
      · rintro ⟨before, after, split, first⟩
        cases before with
        | nil => exact absurd (congrArg key (List.cons.inj split).1) other
        | cons z before =>
          obtain ⟨rfl, rfl⟩ := List.cons.inj split
          exact ⟨before, after, rfl, (List.forall_mem_cons.mp first).2⟩
    · rename_i unknown
      rw [List.contains_iff_mem] at unknown
      rw [List.mem_cons, ih, List.mem_cons, not_or]
      constructor
      · rintro (rfl | ⟨⟨other, new⟩, before, after, rfl, first⟩)
        · exact ⟨unknown, [], xs, rfl, fun _ none_ => absurd none_ List.not_mem_nil⟩
        · exact ⟨new, x :: before, after, rfl, List.forall_mem_cons.mpr ⟨Ne.symm other, first⟩⟩
      · rintro ⟨new, before, after, split, first⟩
        cases before with
        | nil => exact .inl (List.cons.inj split).1.symm
        | cons z before =>
          obtain ⟨rfl, rfl⟩ := List.cons.inj split
          obtain ⟨other, first⟩ := List.forall_mem_cons.mp first
          exact .inr ⟨⟨Ne.symm other, new⟩, before, after, rfl, first⟩

theorem first_by_distinct [LawfulBEq κ] (seen : List κ) (xs : List α) :
    ((firstBy key seen xs).map key).Nodup := by
  induction xs generalizing seen with
  | nil => exact List.nodup_nil
  | cons x xs ih =>
    unfold firstBy
    split
    · exact ih seen
    · refine List.nodup_cons.mpr ⟨fun again => ?_, ih _⟩
      obtain ⟨y, kept, same⟩ := List.mem_map.mp again
      exact (mem_first_by_split.mp kept).1 (same ▸ List.mem_cons_self)

/-- With members in ascending order, the one that is kept is the least with its key. -/
theorem mem_first_by [LawfulBEq κ] {rank : α → Nat} {seen : List κ} {xs : List α} {y : α}
    (ascending : xs.Pairwise fun a b => rank a < rank b) :
    y ∈ firstBy key seen xs ↔
      y ∈ xs ∧ key y ∉ seen ∧ ∀ x ∈ xs, rank x < rank y → key x ≠ key y := by
  rw [mem_first_by_split]
  constructor
  · rintro ⟨new, before, after, rfl, first⟩
    obtain ⟨_, rest, _⟩ := List.pairwise_append.mp ascending
    refine ⟨List.mem_append_right _ List.mem_cons_self, new, fun x member less => ?_⟩
    rcases List.mem_append.mp member with earlier | later
    · exact first x earlier
    · rcases List.mem_cons.mp later with rfl | later
      · exact absurd less (Nat.lt_irrefl _)
      · exact absurd ((List.pairwise_cons.mp rest).1 x later) (Nat.lt_asymm less)
  · rintro ⟨member, new, first⟩
    obtain ⟨before, after, rfl⟩ := List.append_of_mem member
    refine ⟨new, before, after, rfl, fun x earlier => ?_⟩
    have less := (List.pairwise_append.mp ascending).2.2 x earlier y List.mem_cons_self
    exact first x (List.mem_append_left _ earlier) less

theorem first_by_map {β : Type} {g : α → β} {keyOf : β → κ} (same : ∀ x, keyOf (g x) = key x)
    (seen : List κ) (xs : List α) : firstBy keyOf seen (xs.map g) = (firstBy key seen xs).map g := by
  induction xs generalizing seen with
  | nil => rfl
  | cons x xs ih =>
    rw [List.map_cons, firstBy, firstBy, same]
    split
    · exact ih seen
    · rw [ih, List.map_cons]

end FirstByKey

theorem sort_ascending {is : List Instruction}
    (ascending : is.Pairwise fun a b => a.order < b.order) : sort is = is := by
  refine List.mergeSort_of_pairwise (ascending.imp fun {a b} less => ?_)
  have first : Ord.compare a.order b.order = .lt := Nat.compare_eq_lt.mpr less
  simp [Instruction.compare, first]

def isLink (i : Instruction) : Bool := i.link?.isSome

def isInclude (i : Instruction) : Bool := i.include?.isSome

def denial? (i : Instruction) : Option Text :=
  match i.directive with
  | .deny title => some title
  | _ => none

theorem numbered_from_cons (start : Nat) (i : Instruction) (is : List Instruction) :
    numberedFrom start (i :: is) = { i with order := start } :: numberedFrom (start + 1) is := by
  simp [numberedFrom]

theorem numbered_ascending (start : Nat) (is : List Instruction) :
    (numberedFrom start is).Pairwise fun a b => a.order < b.order :=
  List.pairwise_map.mpr (Numbered.ascending is start)

/-- What a row of additions leaves, one instruction after the other. -/
theorem additions_collect (is : List Instruction) (e : Evaluation) :
    is.foldl (fun e i => e.add i i.origin) e =
      { nextOrder := e.nextOrder + is.length
        includes := e.includes ++ (numberedFrom e.nextOrder is).filter isInclude
        links := e.links ++ (numberedFrom e.nextOrder is).filter isLink
        denied := e.denied ++ is.filterMap denial? } := by
  induction is generalizing e with
  | nil => simp [numberedFrom]
  | cons i is ih =>
    rw [List.foldl_cons, ih, numbered_from_cons]
    cases kind : i.directive <;>
      simp [add, kind, isInclude, isLink, denial?, Instruction.include?, Instruction.link?,
        List.filter_cons, Nat.add_comm, Nat.add_left_comm]

theorem add_members (e : Evaluation) (addition : Addition) :
    addition.addTo e = addition.members.foldl (fun e i => e.add i i.origin) e := by
  cases addition with
  | script s origin =>
    rw [Addition.addTo, addScript, Addition.members, List.foldl_map]
    rfl
  | instruction i origin => rfl

theorem chain_collects (chain : List Addition) :
    ofChain chain =
      { nextOrder := (chain.flatMap Addition.members).length
        includes := (declared chain).filter isInclude
        links := (declared chain).filter isLink
        denied := (chain.flatMap Addition.members).filterMap denial? } := by
  have each : Addition.addTo = fun e (addition : Addition) =>
      addition.members.foldl (fun e i => e.add i i.origin) e :=
    funext fun e => funext fun addition => add_members e addition
  rw [ofChain, each, ← List.foldl_flatMap, additions_collect]
  simp [empty, declared]

theorem numbered_directives (start : Nat) (is : List Instruction) :
    (numberedFrom start is).map (·.directive) = is.map (·.directive) := by
  have directives : (is.zipIdx start).map (fun x => x.1.directive) = is.map (·.directive) := by
    rw [← List.zipIdx_map_fst start is, List.map_map, List.zipIdx_map_fst]
    rfl
  rw [numberedFrom, List.map_map]
  exact directives

theorem denied_iff (chain : List Addition) (title : Text) :
    title ∈ (ofChain chain).denied ↔ Denies (declared chain) title := by
  have denies_iff (is : List Instruction) :
      title ∈ is.filterMap denial? ↔ Directive.deny title ∈ is.map (·.directive) := by
    rw [List.mem_filterMap, List.mem_map]
    refine exists_congr fun i => and_congr_right fun _ => ?_
    cases kind : i.directive <;> simp [denial?, kind]
  rw [chain_collects, denies_iff, ← numbered_directives 0, List.mem_map]
  rfl

theorem declared_ascending (chain : List Addition) :
    (declared chain).Pairwise fun a b => a.order < b.order := numbered_ascending 0 _

theorem link_key_iff {i : Instruction} {key : Text × LinkTarget} :
    linkKey i = some key ↔ ∃ l, i.directive = .contact l ∧ (l.unlocalizedTitle, l.target) = key := by
  cases kind : i.directive <;> simp [linkKey, Instruction.link?, kind]

theorem include_iff {i : Instruction} {e : Include} : i.include? = some e ↔ i.directive = .attach e := by
  cases kind : i.directive <;> simp [Instruction.include?, kind]

/-- The links of a chain that no denial names. -/
def openLinks (chain : List Addition) : List Instruction :=
  (declared chain).filter fun i => isLink i && !isDenied (ofChain chain).denied i

theorem open_links_ascending (chain : List Addition) :
    (openLinks chain).Pairwise fun a b => a.order < b.order := (declared_ascending chain).filter _

theorem includes_ascending (chain : List Addition) :
    ((declared chain).filter isInclude).Pairwise fun a b => a.order < b.order :=
  (declared_ascending chain).filter _

theorem finish_links (chain : List Addition) :
    (ofChain chain).finish.links = firstBy linkKey [] (openLinks chain) := by
  have same : (ofChain chain).links.filter (fun i => !isDenied (ofChain chain).denied i) =
      openLinks chain := by
    rw [openLinks]
    simp only [chain_collects, List.filter_filter, Bool.and_comm]
  rw [finish, same]
  exact sort_ascending ((open_links_ascending chain).sublist (first_by_sublist _ _))

theorem finish_includes (chain : List Addition) :
    (ofChain chain).finish.includes =
      firstBy Instruction.include? [] ((declared chain).filter isInclude) := by
  rw [finish, chain_collects]
  exact sort_ascending ((includes_ascending chain).sublist (first_by_sublist _ _))

theorem mem_open_links {chain : List Addition} {i : Instruction} :
    i ∈ openLinks chain ↔ i ∈ declared chain ∧
      ∃ l, i.directive = .contact l ∧ ¬ Denies (declared chain) l.unlocalizedTitle := by
  rw [openLinks, List.mem_filter]
  refine and_congr_right fun _ => ?_
  cases kind : i.directive <;>
    simp [isLink, isDenied, Instruction.link?, kind, ← denied_iff]

theorem links_selected (chain : List Addition) :
    Selects (declared chain) (LinkRemains (declared chain)) (ofChain chain).finish.links := by
  rw [finish_links]
  refine ⟨(first_by_sublist _ _).trans List.filter_sublist, fun i => ?_⟩
  rw [mem_first_by (open_links_ascending chain), mem_open_links, and_assoc]
  refine and_congr_right fun _ => ?_
  constructor
  · rintro ⟨⟨l, link, notDenied⟩, _, first⟩
    refine ⟨l, link, notDenied, fun j member before k other same => ?_⟩
    -- A link that has the title of an undenied one is undenied as well.
    have open_ : j ∈ openLinks chain := mem_open_links.mpr ⟨member, k, other, same.1 ▸ notDenied⟩
    refine first j open_ before ?_
    rw [link_key_iff.mpr ⟨k, other, rfl⟩, link_key_iff.mpr ⟨l, link, rfl⟩, same.1, same.2]
  · rintro ⟨l, link, notDenied, first⟩
    refine ⟨⟨l, link, notDenied⟩, List.not_mem_nil, fun j member before same => ?_⟩
    rw [link_key_iff.mpr ⟨l, link, rfl⟩] at same
    obtain ⟨k, other, sameKey⟩ := link_key_iff.mp same
    exact first j (mem_open_links.mp member).1 before k other (Prod.mk.inj sameKey)

theorem includes_selected (chain : List Addition) :
    Selects (declared chain) (IncludeRemains (declared chain)) (ofChain chain).finish.includes := by
  rw [finish_includes]
  refine ⟨(first_by_sublist _ _).trans List.filter_sublist, fun i => ?_⟩
  rw [mem_first_by (includes_ascending chain), List.mem_filter, and_assoc]
  refine and_congr_right fun _ => ?_
  constructor
  · rintro ⟨some_, _, first⟩
    obtain ⟨e, found⟩ := Option.isSome_iff_exists.mp some_
    refine ⟨e, include_iff.mp found, fun j member before k other same => ?_⟩
    have foundThere : j.include? = some k := include_iff.mpr other
    have there : j ∈ (declared chain).filter isInclude :=
      List.mem_filter.mpr ⟨member, Option.isSome_iff_exists.mpr ⟨k, foundThere⟩⟩
    refine first j there before ?_
    rw [foundThere, found]
    obtain ⟨kind, target⟩ := k
    obtain ⟨rfl, rfl⟩ := same
    rfl
  · rintro ⟨e, attached, first⟩
    have found : i.include? = some e := include_iff.mpr attached
    refine ⟨Option.isSome_iff_exists.mpr ⟨e, found⟩, List.not_mem_nil, fun j member before same => ?_⟩
    exact first j (List.mem_filter.mp member).1 before e (include_iff.mp (same.trans found)) ⟨rfl, rfl⟩

/-- A selection that takes no denials and does not look at numbers sees the other instructions only. -/
theorem selection_unnumbered {p : Instruction → Bool} (blind : ∀ i, p (unnumbered i) = p i)
    (noDenial : ∀ i, p i = true → isDenial i = false) (is : List Instruction) :
    (is.filter p).map unnumbered =
      ((is.filter fun i => !isDenial i).map unnumbered).filter p := by
  have same : p ∘ unnumbered = p := funext blind
  rw [List.filter_map, same, List.filter_filter]
  refine congrArg _ (List.filter_congr fun i _ => ?_)
  cases taken : p i with
  | false => rfl
  | true => rw [noDenial i taken]; rfl

theorem link_no_denial {i : Instruction} (link : isLink i = true) : isDenial i = false := by
  cases kind : i.directive <;> simp_all [isLink, isDenial, Instruction.link?]

theorem include_no_denial {i : Instruction} (attached : isInclude i = true) : isDenial i = false := by
  cases kind : i.directive <;> simp_all [isInclude, isDenial, Instruction.include?]

theorem same_denied {chain other : List Addition} (moved : DenialsMoved chain other)
    (i : Instruction) : isDenied (ofChain other).denied i = isDenied (ofChain chain).denied i := by
  unfold isDenied
  split
  · rw [Bool.eq_iff_iff, List.contains_iff_mem, List.contains_iff_mem, denied_iff, denied_iff]
    exact (moved.sameTitles _).symm
  · rfl

theorem denials_moved {chain other : List Addition} (moved : DenialsMoved chain other) :
    (ofChain other).finish.links.map unnumbered = (ofChain chain).finish.links.map unnumbered ∧
      (ofChain other).finish.includes.map unnumbered =
        (ofChain chain).finish.includes.map unnumbered := by
  have keys (i : Instruction) : linkKey (unnumbered i) = linkKey i := rfl
  have attached (i : Instruction) : (unnumbered i).include? = i.include? := rfl
  have sameLinks : (openLinks other).map unnumbered = (openLinks chain).map unnumbered := by
    have opens (which : List Addition) := selection_unnumbered
      (p := fun i => isLink i && !isDenied (ofChain which).denied i) (fun _ => rfl)
      (fun i taken => link_no_denial (Bool.and_eq_true_iff.mp taken).1) (declared which)
    rw [openLinks, openLinks, opens, opens, moved.sameOthers]
    exact List.filter_congr fun i _ => by rw [same_denied moved]
  have sameIncludes : ((declared other).filter isInclude).map unnumbered =
      ((declared chain).filter isInclude).map unnumbered := by
    rw [selection_unnumbered (fun _ => rfl) fun i => include_no_denial, selection_unnumbered
      (fun _ => rfl) fun i => include_no_denial, moved.sameOthers]
  constructor
  · rw [finish_links, finish_links, ← first_by_map keys, ← first_by_map keys, sameLinks]
  · rw [finish_includes, finish_includes, ← first_by_map attached, ← first_by_map attached,
      sameIncludes]

theorem evaluation_exact (chain : List Addition) :
    Selects (declared chain) (LinkRemains (declared chain)) (ofChain chain).finish.links ∧
      Selects (declared chain) (IncludeRemains (declared chain)) (ofChain chain).finish.includes ∧
      (∀ other, DenialsMoved chain other →
        (ofChain other).finish.links.map unnumbered = (ofChain chain).finish.links.map unnumbered ∧
          (ofChain other).finish.includes.map unnumbered =
            (ofChain chain).finish.includes.map unnumbered) ∧
      ∀ i ∈ (ofChain chain).finish.links, ∀ l, i.directive = .contact l →
        ¬ Denies (declared chain) l.unlocalizedTitle := by
  refine ⟨links_selected chain, includes_selected chain, fun other => denials_moved, ?_⟩
  intro i member l link
  obtain ⟨k, same, notDenied, _⟩ := ((links_selected chain).exactly i).mp member |>.2
  rw [link, Directive.contact.injEq] at same
  exact same ▸ notDenied

def siteLink (title : Text) : Instruction :=
  ⟨title, [], 1, none, .contact ⟨.url "http://site".toList, false, title⟩⟩

def forumDenial : Instruction := ⟨"Forum".toList, [], 1, none, .deny "Forum".toList⟩

/-- A denial before the links of one package, and the same one after them from nobody's script. -/
def deniedFirst : List Addition :=
  [.script ⟨[forumDenial, siteLink "Dev".toList, siteLink "Forum".toList], []⟩ (some "a".toList),
    .instruction (siteLink "Dev".toList) none]

def deniedLast : List Addition :=
  [.script ⟨[siteLink "Dev".toList, siteLink "Forum".toList], []⟩ (some "a".toList),
    .instruction (siteLink "Dev".toList) none, .instruction forumDenial none]

theorem evaluation_exact_with_moved_denial :
    DenialsMoved deniedFirst deniedLast ∧
      (ofChain deniedFirst).finish.links =
        [{ siteLink "Dev".toList with order := 1, origin := some "a".toList }] ∧
      (ofChain deniedLast).finish.links.map unnumbered =
        (ofChain deniedFirst).finish.links.map unnumbered := by
  have moved : DenialsMoved deniedFirst deniedLast := by
    refine ⟨fun title => ?_, by decide⟩
    simp [Denies, declared, numberedFrom, deniedFirst, deniedLast, Addition.members, siteLink,
      forumDenial]
  exact ⟨moved, by decide +kernel, ((evaluation_exact deniedFirst).2.2.1 deniedLast moved).1⟩

end Evaluation
end CrashTriage
