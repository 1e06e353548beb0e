import CrashTriage.Proofs.Script.EvaluatedChain
import CrashTriage.Report.Assembly
import Mathlib.Data.List.Induction

/-
What a report makes of the packages that it considers. An image claims a crash when its package ships a
script and no image before it belongs to that package; under the first claim the images after it say
nothing. Of what is considered each package asks once, and the default script asks last. The includes of
this chain are read in their order, and those that cannot be read are the failures.
-/
namespace CrashTriage
namespace Report

open Evaluation

def identifiers (images : List Suspect) : List Text := (packages none images).map (·.identifier)

def Claims (before : List Suspect) (s : Suspect) : Prop :=
  ∃ p, s.resolution.package? = some p ∧ p.hasScript ∧ p.identifier ∉ identifiers before

def Unclaimed (images : List Suspect) : Prop :=
  ∀ before s after, images = before ++ s :: after → ¬ Claims before s

/-- The suspects that a policy looks at, beside the victim. -/
inductive Considered (victim : Option Suspect) (suspects : List Suspect) :
    ClaimPolicy → List Suspect → Prop where
  | all : Considered victim suspects .union suspects
  | unclaimed (nobody : Unclaimed (victim.toList ++ suspects)) :
      Considered victim suspects .firstClaim suspects
  | byVictim {v : Suspect} (here : victim = some v) (claims : Claims [] v) :
      Considered victim suspects .firstClaim []
  | bySuspect {before after : List Suspect} {s : Suspect} (here : suspects = before ++ s :: after)
      (nobody : Unclaimed (victim.toList ++ before)) (claims : Claims (victim.toList ++ before) s) :
      Considered victim suspects .firstClaim (before ++ [s])

/-- `once` is the first package of each identifier, in the order of `all`. -/
structure ContributesOnce (all once : List Package) : Prop where
  inOrder : once.Sublist all
  distinct : (once.map (·.identifier)).Nodup
  first : ∀ p, p ∈ once ↔
    ∃ before after, all = before ++ p :: after ∧ ∀ q ∈ before, q.identifier ≠ p.identifier

/-- What a package asks for: its script, or its author's contact. -/
def request (p : Package) : List Addition :=
  if p.hasScript then [.script (Script.ofLines p.config) (some p.identifier)]
  else p.authorLink?.toList.map fun link => .instruction link (some p.identifier)

def chainOf (once : List Package) (defaultScript : Option Script) : List Addition :=
  once.flatMap request ++ defaultScript.toList.map fun script => .script script none

/-- Includes that are read one after the other, from a state that reading may change; a fixed outcome
leaves it alone. -/
inductive Gathered {σ : Type} (content : Include → StateM σ (Except IncludeError Text)) :
    σ → List Instruction → List Evidence → List IncludeFailure → σ → Prop where
  | nil {s : σ} : Gathered content s [] [] [] s
  | read {s between later : σ} {i : Instruction} {e : Include} {text : Text} {is : List Instruction}
      {includes : List Evidence} {failures : List IncludeFailure} (attached : i.directive = .attach e)
      (answer : (content e).run s = (.ok text, between))
      (rest : Gathered content between is includes failures later) :
      Gathered content s (i :: is) (⟨i, text⟩ :: includes) failures later
  | failed {s between later : σ} {i : Instruction} {e : Include} {problem : IncludeError}
      {is : List Instruction} {includes : List Evidence} {failures : List IncludeFailure}
      (attached : i.directive = .attach e) (answer : (content e).run s = (.error problem, between))
      (rest : Gathered content between is includes failures later) :
      Gathered content s (i :: is) (⟨i, []⟩ :: includes) (⟨i.title, e.target, problem⟩ :: failures)
        later

def contents (r : Report) : List Instruction × List Evidence × List IncludeFailure :=
  (r.links, r.includes, r.failures)

theorem unclaimed_packages {images : List Suspect} (nobody : Unclaimed images)
    {before after : List Package} {p : Package} (split : packages none images = before ++ p :: after)
    (script : p.hasScript) : p.identifier ∈ before.map (·.identifier) := by
  obtain ⟨earlier, others, rfl, rfl, more⟩ := List.filterMap_eq_append_iff.mp split
  obtain ⟨unowned, s, later, rfl, none_, owned, rfl⟩ := List.filterMap_eq_cons_iff.mp more
  by_contra new
  refine nobody (earlier ++ unowned) s later (List.append_assoc ..).symm ⟨p, owned, script, ?_⟩
  have nothing : unowned.filterMap (·.resolution.package?) = [] := List.filterMap_eq_nil_iff.mpr none_
  rwa [identifiers, packages, Option.toList_none, List.nil_append, List.filterMap_append, nothing,
    List.append_nil]

theorem unclaimed_of_silent {images : List Suspect}
    (silent : ∀ p ∈ packages none images, p.hasScript = false) : Unclaimed images := by
  rintro before s after rfl ⟨p, owned, script, _⟩
  have image : s ∈ before ++ s :: after := List.mem_append_right _ List.mem_cons_self
  have member : p ∈ packages none (before ++ s :: after) := List.mem_filterMap.mpr ⟨s, image, owned⟩
  rw [silent p member] at script
  contradiction

theorem contributors_before_claim {ps rest kept : List Package} (seen : List Text)
    (nobody : ∀ before p after, ps = before ++ p :: after → p.hasScript →
      p.identifier ∈ seen ∨ p.identifier ∈ before.map (·.identifier))
    (agree : ∀ known, (∀ id, id ∈ known ↔ id ∈ seen ∨ id ∈ ps.map (·.identifier)) →
      contributors .firstClaim known rest = contributors .union known kept) :
    contributors .firstClaim seen (ps ++ rest) = contributors .union seen (ps ++ kept) := by
  -- Until the first claim both policies list the same packages and have seen the same identifiers.
  induction ps generalizing seen with
  | nil => exact agree seen fun id => by simp
  | cons p ps ih =>
    rw [List.cons_append, List.cons_append, contributors, contributors]
    by_cases known : p.identifier ∈ seen
    · rw [if_pos (List.contains_iff_mem.mpr known), if_pos (List.contains_iff_mem.mpr known)]
      refine ih seen (fun before q after split script => ?_) fun others members => ?_
      · have earlier := nobody (p :: before) q after (congrArg _ split) script
        rw [List.map_cons, List.mem_cons] at earlier
        rcases earlier with old | same | listed
        · exact .inl old
        · exact .inl (same ▸ known)
        · exact .inr listed
      · refine agree others fun id => ?_
        rw [members, List.map_cons, List.mem_cons]
        constructor
        · exact Or.imp_right .inr
        · rintro (old | rfl | listed)
          · exact .inl old
          · exact .inl known
          · exact .inr listed
    · have silent : p.hasScript = false := by
        by_contra script
        rcases nobody [] p ps rfl (by simpa using script) with old | listed
        · exact known old
        · simp at listed
      rw [if_neg (mt List.contains_iff_mem.mp known), if_neg (mt List.contains_iff_mem.mp known)]
      simp only [silent, Bool.false_and, Bool.false_eq_true, if_false]
      congr 1
      refine ih _ (fun before q after split script => ?_) fun others members => ?_
      · have earlier := nobody (p :: before) q after (congrArg _ split) script
        rwa [List.map_cons, List.mem_cons, ← or_assoc, or_comm (a := _ ∈ seen), ← List.mem_cons]
          at earlier
      · refine agree others fun id => ?_
        rw [members, List.map_cons, List.mem_cons, List.mem_cons, or_assoc, or_left_comm]

theorem packages_victim (victim : Option Suspect) (suspects : List Suspect) :
    packages victim suspects = packages none (victim.toList ++ suspects) := rfl

theorem unclaimed_contributors {images : List Suspect} (nobody : Unclaimed images) :
    contributors .firstClaim [] (packages none images) =
      contributors .union [] (packages none images) := by
  have same : contributors .firstClaim [] (packages none images ++ []) =
      contributors .union [] (packages none images ++ []) :=
    contributors_before_claim []
      (fun _ _ _ split script => .inr (unclaimed_packages nobody split script)) fun _ _ => rfl
  rwa [List.append_nil] at same

theorem claimed_contributors {before : List Suspect} {s : Suspect} (after : List Suspect)
    (nobody : Unclaimed before) (claims : Claims before s) :
    contributors .firstClaim [] (packages none (before ++ s :: after)) =
      contributors .union [] (packages none (before ++ [s])) := by
  obtain ⟨p, owned, script, new⟩ := claims
  have split (others : List Suspect) :
      packages none (before ++ s :: others) = packages none before ++ p :: packages none others := by
    simp [packages, owned]
  rw [split, split]
  refine contributors_before_claim []
    (fun _ _ _ split script => .inr (unclaimed_packages nobody split script)) fun known members => ?_
  have unknown : p.identifier ∉ known := by
    rw [members]
    exact not_or.mpr ⟨List.not_mem_nil, new⟩
  simp [contributors, packages, script, unknown]

theorem considered_contributors {victim : Option Suspect} {suspects kept : List Suspect}
    {policy : ClaimPolicy} (considered : Considered victim suspects policy kept) :
    contributors policy [] (packages victim suspects) =
      contributors .union [] (packages victim kept) := by
  rw [packages_victim, packages_victim victim]
  cases considered with
  | all => rfl
  | unclaimed nobody => exact unclaimed_contributors nobody
  | byVictim here claims =>
    subst here
    exact claimed_contributors suspects (fun before s after split => by simp at split) claims
  | bySuspect here nobody claims =>
    subst here
    rw [← List.append_assoc, ← List.append_assoc]
    exact claimed_contributors _ nobody claims

theorem unclaimed_snoc {images : List Suspect} {s : Suspect} (nobody : Unclaimed images)
    (silent : ¬ Claims images s) : Unclaimed (images ++ [s]) := by
  intro before t after split
  rcases List.eq_nil_or_concat' after with rfl | ⟨later, last, rfl⟩
  · obtain ⟨rfl, rfl⟩ := List.append_singleton_inj.mp split
    exact silent
  · rw [← List.cons_append, ← List.append_assoc] at split
    exact nobody before t later (List.append_singleton_inj.mp split).1

theorem considered_exists (victim : Option Suspect) (suspects : List Suspect) :
    ∃ kept, Considered victim suspects .firstClaim kept := by
  induction suspects using List.reverseRecOn with
  | nil =>
    cases victim with
    | none => exact ⟨[], .unclaimed fun before s after split => by simp at split⟩
    | some v =>
      by_cases claims : Claims [] v
      · exact ⟨[], .byVictim rfl claims⟩
      · exact ⟨[], .unclaimed (unclaimed_snoc (fun before s after split => by simp at split) claims)⟩
  | append_singleton suspects s ih =>
    obtain ⟨kept, considered⟩ := ih
    cases considered with
    | unclaimed nobody =>
      by_cases claims : Claims (victim.toList ++ suspects) s
      · exact ⟨suspects ++ [s], .bySuspect rfl nobody claims⟩
      · refine ⟨suspects ++ [s], .unclaimed ?_⟩
        rw [← List.append_assoc]
        exact unclaimed_snoc nobody claims
    | byVictim here claims => exact ⟨[], .byVictim here claims⟩
    | bySuspect here nobody claims =>
      subst here
      exact ⟨_, .bySuspect (List.append_assoc ..) nobody claims⟩

theorem contributors_union (seen : List Text) (ps : List Package) :
    contributors .union seen ps = firstBy (·.identifier) seen ps := by
  induction ps generalizing seen with
  | nil => rfl
  | cons p ps ih =>
    rw [contributors, firstBy, ih, ih]
    simp

theorem contributes_once (ps : List Package) : ContributesOnce ps (contributors .union [] ps) := by
  rw [contributors_union]
  refine ⟨first_by_sublist _ _, first_by_distinct _ _, fun p => ?_⟩
  rw [mem_first_by_split]
  exact and_iff_right List.not_mem_nil

theorem add_package (e : Evaluation) (p : Package) :
    addPackage e p = (request p).foldl Addition.addTo e := by
  unfold addPackage request
  split
  · rfl
  · cases p.authorLink? <;> rfl

theorem evaluated_chain (policy : ClaimPolicy) (victim : Option Suspect) (suspects : List Suspect)
    (defaultScript : Option Script) :
    evaluated policy victim suspects defaultScript =
      (ofChain (chainOf (contributors policy [] (packages victim suspects)) defaultScript)).finish := by
  have each : addPackage = fun e p => (request p).foldl Addition.addTo e :=
    funext fun e => funext fun p => add_package e p
  rw [evaluated, each, ofChain, chainOf, List.foldl_append, List.foldl_flatMap, List.foldl_map]
  rfl

theorem includes_attached {chain : List Addition} {i : Instruction}
    (member : i ∈ (ofChain chain).finish.includes) : ∃ e, i.directive = .attach e := by
  obtain ⟨_, e, attached, _⟩ := ((includes_selected chain).exactly i).mp member
  exact ⟨e, attached⟩

theorem gathered {σ : Type} (content : Include → StateM σ (Except IncludeError Text))
    {is : List Instruction} (attached : ∀ i ∈ is, ∃ e, i.directive = .attach e) (s : σ) :
    Gathered content s is (((is.mapM (gather content)).run s).1.map (·.1))
      (((is.mapM (gather content)).run s).1.filterMap (·.2)) ((is.mapM (gather content)).run s).2 := by
  induction is generalizing s with
  | nil => exact .nil
  | cons i is ih =>
    obtain ⟨⟨e, here⟩, others⟩ := List.forall_mem_cons.mp attached
    have found : i.include? = some e := include_iff.mpr here
    cases answer : (content e).run s with
    | mk outcome between =>
      have gatherNext (next : Evidence × Option IncludeFailure)
          (one : (gather content i).run s = (next, between)) :
          ((i :: is).mapM (gather content)).run s =
            (next :: ((is.mapM (gather content)).run between).1,
              ((is.mapM (gather content)).run between).2) := by
        rw [List.mapM_cons, StateT.run_bind, one]
        rfl
      have rest := ih others between
      cases outcome with
      | ok text =>
        rw [gatherNext (⟨i, text⟩, none) (by rw [gather, found, StateT.run_bind, answer]; rfl)]
        exact .read here answer rest
      | error problem =>
        rw [gatherNext (⟨i, []⟩, some ⟨i.title, e.target, problem⟩)
          (by rw [gather, found, StateT.run_bind, answer]; rfl)]
        exact .failed here answer rest

theorem contents_assemble {σ : Type} (log : CrashLog) (victim : Option Suspect)
    (suspects : List Suspect) (defaultScript : Option Script) (policy : ClaimPolicy)
    (content : Include → StateM σ (Except IncludeError Text)) :
    contents <$> assemble log victim suspects defaultScript policy content =
      (fun each => ((evaluated policy victim suspects defaultScript).links, each.map (·.1),
        each.filterMap (·.2))) <$>
        (evaluated policy victim suspects defaultScript).includes.mapM (gather content) := by
  simp only [assemble, contents, map_eq_pure_bind, bind_assoc, pure_bind]

/-- What a report says is what the union of the packages up to the first claim says: the chain of what
each of them asks for once and of the default script, with its includes read in their order. -/
theorem claim_policies_agree {σ : Type} (log : CrashLog) (victim : Option Suspect)
    (suspects : List Suspect) (defaultScript : Option Script)
    (content : Include → StateM σ (Except IncludeError Text)) (s : σ) :
    (∃ kept, Considered victim suspects .firstClaim kept) ∧
      ∀ policy kept, Considered victim suspects policy kept →
        contents <$> assemble log victim suspects defaultScript policy content =
            contents <$> assemble log victim kept defaultScript .union content ∧
          ∃ once report later,
            (assemble log victim suspects defaultScript policy content).run s = (report, later) ∧
              ContributesOnce (packages victim kept) once ∧
              report.links = (ofChain (chainOf once defaultScript)).finish.links ∧
              Gathered content s (ofChain (chainOf once defaultScript)).finish.includes report.includes
                report.failures later := by
  refine ⟨considered_exists victim suspects, fun policy kept considered => ?_⟩
  have listed := considered_contributors considered
  have same : evaluated policy victim suspects defaultScript =
      evaluated .union victim kept defaultScript := by
    rw [evaluated_chain, evaluated_chain, listed]
  refine ⟨by rw [contents_assemble, contents_assemble, same], ?_⟩
  refine ⟨contributors policy [] (packages victim suspects), _, _, rfl, ?_, ?_, ?_⟩
  · rw [listed]
    exact contributes_once _
  · exact congrArg (·.links) (evaluated_chain policy victim suspects defaultScript)
  · rw [← evaluated_chain]
    exact gathered content (fun i member => includes_attached (evaluated_chain .. ▸ member)) s

def imageOf (path : String) (p : Package) : Suspect :=
  ⟨⟨0, 0, path.toList, path.toList, none, none, none, false, false⟩, .package p⟩

def silentPackage : Package :=
  { Package.named ['a'] with author := some "Ann <ann@site>".toList, config := ["# none".toList] }

def claimingPackage : Package :=
  { Package.named ['b'] with config := ["include file /log".toList, "include file /gone".toList] }

def denyingPackage : Package := { Package.named ['c'] with config := ["deny Ann".toList] }

def silentImages : List Suspect := [imageOf "/a2" silentPackage, imageOf "/a3" silentPackage]

def crashedImages : List Suspect :=
  silentImages ++ imageOf "/b" claimingPackage :: [imageOf "/b2" claimingPackage, imageOf "/c" denyingPackage]

def silentVictim : Option Suspect := some (imageOf "/a" silentPackage)

def reportOn (suspects : List Suspect) (policy : ClaimPolicy) : StateM Disk Report :=
  assemble (.ofPath "/x".toList) silentVictim suspects (some (Script.ofLines ["include file /end".toList]))
    policy (Include.content (.ofConfig {} none))

def diskWithLog : Disk :=
  { nodes := [([], ⟨.directory, 0o755, 0⟩), (["log".toList], ⟨.file (.bytes (Text.toBytes ['x'])), 0o644, 0⟩)]
    workingDir := []
    enforced := true
    now := 0 }

/- The author of the first package is listed once, although three images are his and the last package,
which comes after the claim, denies him. -/
theorem claim_policies_agree_on_images :
    Considered silentVictim crashedImages .firstClaim (silentImages ++ [imageOf "/b" claimingPackage]) ∧
      contents <$> reportOn crashedImages .firstClaim =
        contents <$> reportOn (silentImages ++ [imageOf "/b" claimingPackage]) .union ∧
      ∃ once report later, (reportOn crashedImages .firstClaim).run diskWithLog = (report, later) ∧
        ContributesOnce (packages silentVictim (silentImages ++ [imageOf "/b" claimingPackage])) once ∧
        report.links.map (·.title) = ["Ann".toList] ∧
        report.includes.map (·.content) = [['x'], [], []] ∧
        report.failures.map (·.target) = ["/gone".toList, "/end".toList] := by
  have considered : Considered silentVictim crashedImages .firstClaim
      (silentImages ++ [imageOf "/b" claimingPackage]) := by
    refine .bySuspect rfl (unclaimed_of_silent ?_) ⟨claimingPackage, rfl, ?_, ?_⟩ <;> decide +kernel
  obtain ⟨same, once, report, later, run, contributes, _, _⟩ :=
    (claim_policies_agree (.ofPath "/x".toList) silentVictim crashedImages
      (some (Script.ofLines ["include file /end".toList])) (Include.content (.ofConfig {} none))
      diskWithLog).2 _ _ considered
  have here : report = ((reportOn crashedImages .firstClaim).run diskWithLog).1 :=
    (congrArg Prod.fst run).symm
  refine ⟨considered, same, once, report, later, run, contributes, ?_, ?_, ?_⟩ <;>
    simp only [here, reportOn, assemble, evaluated_chain, finish_links, finish_includes] <;>
    decide +kernel

end Report
end CrashTriage
