import CrashTriage.Proofs.Package.FlightAskers
import Mathlib.Data.Set.Card

/-
What overlapping calls get. Every question to the database that came to an end is a landing. Of the
landings of one slot only the last can have an answer, a settled slot holds that answer, and a call
returns it unless its own question failed. What is kept are the answers of the latest generation.
-/
namespace CrashTriage
namespace Flights

/-- The end of a question to the database. -/
structure Landing where
  call : Nat
  path : Path
  generation : Nat
  /-- None when the database failed. -/
  resolution? : Option Resolution
deriving DecidableEq, Repr

def Landing.slot (q : Landing) : SlotName := slotOf q.path q.generation

/-- The question that an event ends. -/
def landing? (f : Flights) : FlightEvent → Option Landing
  | .answer call found =>
    match f.calls[call]? with
    | some ⟨path, .asking generation⟩ =>
      some ⟨call, path, generation, (f.rules.resolutionOf path found).toOption⟩
    | _ => none
  | _ => none

/-- The questions that came to an end in a run, in their order. -/
def landings (f : Flights) : List FlightEvent → List Landing
  | [] => []
  | event :: rest =>
    (f.landing? event).toList ++
      match f.step? event with
      | some later => landings later rest
      | none => []

/-- Has the call's own question failed? -/
def Failed (ended : List Landing) (call : Nat) : Prop :=
  ∃ q ∈ ended, q.call = call ∧ q.resolution? = none

/-- What slots and calls hold follows from the questions that came to an end. -/
structure Recorded (f : Flights) (ended : List Landing) : Prop where
  settled : ∀ name r, f.slot? name = some (.settled r) ↔
    ∃ q ∈ ended, q.slot = name ∧ q.resolution? = some r
  once : ended.Pairwise fun q s => q.slot = s.slot → q.resolution? = none
  landed : ∀ q ∈ ended, ∃ r, f.calls[q.call]? = some ⟨q.path, .finished q.generation r⟩
  results : ∀ (call : Nat) (path : Path) (generation : Nat) (r : Resolution),
    f.calls[call]? = some ⟨path, .finished generation r⟩ →
      (Failed ended call ∧ r = .unknown) ∨
        (¬ Failed ended call ∧ f.slot? (slotOf path generation) = some (.settled r))

variable {f later : Flights} {call : Nat} {path : Path} {name : SlotName}
variable {state old : CallState} {slot : Slot} {event : FlightEvent} {ended : List Landing}

theorem lands_finished (recorded : Recorded f ended) (there : f.calls[call]? = some ⟨path, old⟩)
    (unfinished : ∀ g r, old ≠ .finished g r) : ∀ q ∈ ended, q.call ≠ call := by
  rintro q member rfl
  obtain ⟨r, finished⟩ := recorded.landed q member
  rw [there] at finished
  cases finished
  exact unfinished _ _ rfl

theorem recorded_kept (recorded : Recorded f ended) (there : f.calls[call]? = some ⟨path, old⟩)
    (unfinished : ∀ g r, old ≠ .finished g r)
    (advances : Advances f later call path name state slot)
    (sameSettled : ∀ r, slot = .settled r ↔ f.slot? name = some (.settled r))
    (reads : ∀ g r, state = .finished g r → slotOf path g = name ∧ slot = .settled r) :
    Recorded later ended := by
  have slots (n : SlotName) (r : Resolution) :
      later.slot? n = some (.settled r) ↔ f.slot? n = some (.settled r) := by
    rw [advances.slots]
    split
    · rename_i same
      rw [same, Option.some.injEq, sameSettled]
    · rfl
  have others := lands_finished recorded there unfinished
  refine ⟨fun n r => ?_, recorded.once, fun q member => ?_, fun j p g r finished => ?_⟩
  · rw [slots, recorded.settled]
  · rw [advances.calls, if_neg (others q member)]
    exact recorded.landed q member
  · rw [slots]
    rw [advances.calls] at finished
    split at finished
    · rename_i same
      cases finished
      obtain ⟨own, settled⟩ := reads g r rfl
      right
      refine ⟨?_, own ▸ (sameSettled r).mp settled⟩
      rintro ⟨q, member, here, _⟩
      exact others q member (here.trans same)
    · exact recorded.results j p g r finished

theorem recorded_landed {generation : Nat} (tidy : Tidy f) (recorded : Recorded f ended)
    (asks : f.calls[call]? = some ⟨path, .asking generation⟩) (answer? : Option Resolution)
    (advances : Advances f later call path (slotOf path generation)
      (.finished generation (answer?.getD .unknown)) ((answer?.map .settled).getD .idle)) :
    Recorded later (ended ++ [⟨call, path, generation, answer?⟩]) := by
  have asking : f.slot? (slotOf path generation) = some .asking :=
    (tidy.asked _).mpr ⟨call, path, generation, asks, rfl⟩
  -- Nothing was answered for a slot that is still being asked for.
  have unsettled : ∀ q ∈ ended, q.slot = slotOf path generation → q.resolution? = none := by
    intro q member here
    cases answer : q.resolution? with
    | none => rfl
    | some r =>
      have settled := (recorded.settled _ r).mpr ⟨q, member, here, answer⟩
      rw [asking] at settled
      cases settled
  have others := lands_finished recorded asks (by simp)
  have slots (n : SlotName) (r : Resolution) : later.slot? n = some (.settled r) ↔
      f.slot? n = some (.settled r) ∨ n = slotOf path generation ∧ answer? = some r := by
    rw [advances.slots]
    split
    · rename_i here
      rw [here, asking]
      cases answer? <;> simp
    · rename_i elsewhere
      simp [elsewhere]
  have failed (j : Nat) : Failed (ended ++ [⟨call, path, generation, answer?⟩]) j ↔
      Failed ended j ∨ call = j ∧ answer? = none := by
    simp only [Failed, List.mem_append, List.mem_singleton, or_and_right, exists_or, exists_eq_left]
  refine ⟨fun n r => ?_, ?_, fun q member => ?_, fun j p g r finished => ?_⟩
  · simp only [slots, recorded.settled, List.mem_append, List.mem_singleton, or_and_right, exists_or,
      exists_eq_left, Landing.slot, eq_comm (a := n)]
  · rw [List.pairwise_append]
    refine ⟨recorded.once, List.pairwise_singleton _ _, fun q member s last => ?_⟩
    rw [List.mem_singleton] at last
    subst last
    exact unsettled q member
  · rw [advances.calls]
    rcases List.mem_append.mp member with before | last
    · rw [if_neg (others q before)]
      exact recorded.landed q before
    · rw [List.mem_singleton] at last
      subst last
      exact ⟨_, if_pos rfl⟩
  · rw [failed, slots]
    rw [advances.calls] at finished
    split at finished
    · rename_i same
      cases finished
      have notBefore : ¬ Failed ended j := fun ⟨q, member, here, _⟩ => others q member (here.trans same)
      cases answer? with
      | none => exact .inl ⟨.inr ⟨same.symm, rfl⟩, rfl⟩
      | some r => simp [notBefore]
    · rename_i other
      have notOwn : ¬ (call = j ∧ answer? = none) := fun own => other own.1.symm
      rw [or_iff_left notOwn]
      exact (recorded.results j p g r finished).imp_right (And.imp_right .inl)

theorem recorded_step (tidy : Tidy f) (recorded : Recorded f ended) (moves : Moves f event later) :
    Recorded later (ended ++ (f.landing? event).toList) := by
  cases moves with
  | enter path =>
    have calls := entered_call f path
    simp only [landing?, Option.toList_none, List.append_nil]
    refine ⟨recorded.settled, recorded.once, fun q member => ?_, fun j p g r finished => ?_⟩
    · obtain ⟨r, finished⟩ := recorded.landed q member
      exact ⟨r, by rw [List.getElem?_append_left (List.getElem?_eq_some_iff.mp finished).1, finished]⟩
    · rw [calls] at finished
      split at finished
      · cases finished
      · exact recorded.results j p g r finished
  | take new advances =>
    simp only [landing?, Option.toList_none, List.append_nil]
    refine recorded_kept recorded new (by simp) advances (fun r => ?_) (by simp)
    cases f.slot? _ <;> simp
  | ask waits idle advances =>
    simp only [landing?, Option.toList_none, List.append_nil]
    exact recorded_kept recorded waits (by simp) advances (by simp [idle]) (by simp)
  | @succeed _ _ _ _ resolution _ asks answered advances =>
    have landing := recorded_landed tidy recorded asks (some resolution) advances
    simpa [landing?, asks, answered, Except.toOption] using landing
  | fail asks failed advances =>
    have landing := recorded_landed tidy recorded asks none advances
    simpa [landing?, asks, failed, Except.toOption] using landing
  | read waits settled advances =>
    simp only [landing?, Option.toList_none, List.append_nil]
    refine recorded_kept recorded waits (by simp) advances (by simp [settled]) ?_
    rintro g r ⟨⟩
    exact ⟨rfl, rfl⟩
  | clear =>
    simp only [landing?, Option.toList_none, List.append_nil]
    exact ⟨recorded.settled, recorded.once, recorded.landed, recorded.results⟩

theorem run_recorded {events : List FlightEvent} (tidy : Tidy f) (recorded : Recorded f ended)
    (run : f.run? events = some later) :
    Tidy later ∧ Recorded later (ended ++ landings f events) := by
  induction events generalizing f ended with
  | nil =>
    cases run
    rw [landings, List.append_nil]
    exact ⟨tidy, recorded⟩
  | cons event rest ih =>
    rw [run_cons] at run
    obtain ⟨next, step, more⟩ := Option.bind_eq_some_iff.mp run
    have moves := moves_of_step step
    have after := ih (tidy_step tidy moves) (recorded_step tidy recorded moves) more
    rwa [landings, step, ← List.append_assoc]

theorem mem_kept (distinct : f.DistinctNames) {key : List Component} {r : Resolution} :
    (key, r) ∈ f.kept ↔ f.slot? ⟨key, f.generation⟩ = some (.settled r) := by
  rw [slot?, Keyed.lookup_iff_mem distinct, kept, List.mem_filterMap]
  constructor
  · rintro ⟨⟨⟨k, g⟩, slot⟩, member, entry⟩
    dsimp only at entry
    split at entry
    · split at entry
      · rename_i current
        cases entry
        cases current
        exact member
      · contradiction
    · contradiction
  · intro member
    exact ⟨_, member, by simp⟩

theorem kept_names_distinct (distinct : f.DistinctNames) :
    (f.kept.map fun entry => SlotName.mk entry.1 f.generation).Nodup := by
  refine List.Nodup.sublist ?_ distinct
  unfold kept
  induction f.slots with
  | nil => exact .slnil
  | cons s rest ih =>
    obtain ⟨⟨key, generation⟩, slot⟩ := s
    rw [List.map_cons, List.filterMap_cons]
    dsimp only
    split
    · exact ih.cons _
    · rename_i entry found
      split at found
      · split at found
        · rename_i current
          cases found
          cases current
          exact ih.cons_cons _
        · contradiction
      · contradiction

theorem kept_count (distinct : f.DistinctNames) :
    f.keptCount =
      {name | name.generation = f.generation ∧ ∃ r, f.slot? name = some (.settled r)}.ncard := by
  have names : {name | name.generation = f.generation ∧ ∃ r, f.slot? name = some (.settled r)} =
      ↑(f.kept.map fun entry => SlotName.mk entry.1 f.generation).toFinset := by
    ext ⟨key, generation⟩
    simp only [Set.mem_ofPred_eq, List.coe_toFinset, List.mem_map, Prod.exists, SlotName.mk.injEq,
      mem_kept distinct]
    constructor
    · rintro ⟨rfl, r, settled⟩
      exact ⟨key, r, settled, rfl, rfl⟩
    · rintro ⟨_, r, settled, rfl, rfl⟩
      exact ⟨rfl, r, settled⟩
  rw [names, Set.ncard_coe_finset, List.toFinset_card_of_nodup (kept_names_distinct distinct),
    List.length_map, keptCount]

theorem opened_tidy (rules : OwnerRules) : Tidy (opened rules) :=
  ⟨List.nodup_nil, fun name => by simp [opened, ofResolver, slot?, Asks],
    by simp [opened, ofResolver, Asks], by simp [opened, ofResolver]⟩

theorem opened_recorded (rules : OwnerRules) : Recorded (opened rules) [] :=
  ⟨by simp [opened, ofResolver, slot?], .nil, by simp, by simp [opened, ofResolver]⟩

/-- What holds of calls to a new resolver after any events, `f` being the state that these leave. -/
structure SingleFlight (rules : OwnerRules) (events : List FlightEvent) (f : Flights) : Prop where
  /-- The generation is how often everything was forgotten; a call has that in which it took its slot. -/
  generation : f.generation = clears events
  took : ∀ before call after c, events = before ++ .take call :: after →
    f.calls[call]? = some c → takenIn? c.state = some (clears before)
  /-- No two questions about one slot overlap, and all but the last of them failed. -/
  alone : ∀ (i j : Nat) (p q : Path) (g : Nat), f.calls[i]? = some ⟨p, .asking g⟩ →
    f.calls[j]? = some ⟨q, .asking g⟩ → Path.same p q = true → i = j
  once : (landings (opened rules) events).Pairwise fun q s => q.slot = s.slot → q.resolution? = none
  landed : ∀ q ∈ landings (opened rules) events,
    ∃ r, f.calls[q.call]? = some ⟨q.path, .finished q.generation r⟩
  /-- A call whose own question did not fail returns what was answered for its slot. -/
  answered : ∀ (i : Nat) (p : Path) (g : Nat) (r : Resolution), f.calls[i]? = some ⟨p, .finished g r⟩ →
    ¬ Failed (landings (opened rules) events) i →
      ∃ q ∈ landings (opened rules) events, q.slot = slotOf p g ∧ q.resolution? = some r
  shared : ∀ (i j : Nat) (p q : Path) (g : Nat) (r s : Resolution),
    f.calls[i]? = some ⟨p, .finished g r⟩ → f.calls[j]? = some ⟨q, .finished g s⟩ →
      Path.same p q = true → ¬ Failed (landings (opened rules) events) i →
        ¬ Failed (landings (opened rules) events) j → r = s
  /-- A question that fails gives its own call nobody as the owner and changes no other call or answer. -/
  failed : ∀ (i : Nat) (p : Path) (g : Nat) (r : Resolution), f.calls[i]? = some ⟨p, .finished g r⟩ →
    Failed (landings (opened rules) events) i → r = .unknown
  settlesNothing : ∀ (i : Nat) (p : Path) (g : Nat) (found : OwnerAnswer) (e : PackageDbError),
    f.calls[i]? = some ⟨p, .asking g⟩ → rules.resolutionOf p found = .error e →
      ∃ later, f.step? (.answer i found) = some later ∧
        later.calls[i]? = some ⟨p, .finished g .unknown⟩ ∧
        (∀ j, j ≠ i → later.calls[j]? = f.calls[j]?) ∧
        ∀ name r, later.slot? name = some (.settled r) ↔ f.slot? name = some (.settled r)
  /-- A call that enters after everything was forgotten is of a generation that began by then. -/
  fresh : ∀ before path after c, events = before ++ .enter path :: after →
    f.calls[entries before]? = some c →
      c.path = path ∧ ∀ g, takenIn? c.state = some g → clears before ≤ g
  /-- An answer to a question from before everything was forgotten is not kept. -/
  late : ∀ (i : Nat) (p : Path) (g : Nat) (found : OwnerAnswer) (later : Flights),
    f.calls[i]? = some ⟨p, .asking g⟩ → g ≠ f.generation → f.step? (.answer i found) = some later →
      ∀ entry, entry ∈ later.kept ↔ entry ∈ f.kept
  kept : ∀ key r, (key, r) ∈ f.kept ↔
    ∃ q ∈ landings (opened rules) events, q.slot = ⟨key, f.generation⟩ ∧ q.resolution? = some r
  counted : f.keptCount =
    {name | name.generation = f.generation ∧ ∃ r, f.slot? name = some (.settled r)}.ncard
  ends : ∀ (i : Nat) (c : Call), f.calls[i]? = some c → OwnerAnswer → CanEnd f i c.path

theorem same_slot {p q : Path} (same : Path.same p q = true) (generation : Nat) :
    slotOf q generation = slotOf p generation := by
  have components : Path.components p = Path.components q := by simpa [Path.same] using same
  rw [slotOf, slotOf, components]

theorem run_rules {events : List FlightEvent} (run : f.run? events = some later) :
    later.rules = f.rules := by
  induction events generalizing f with
  | nil =>
    cases run
    rfl
  | cons event rest ih =>
    rw [run_cons] at run
    obtain ⟨next, step, more⟩ := Option.bind_eq_some_iff.mp run
    refine (ih more).trans ?_
    cases moves_of_step step with
    | enter path => rfl
    | take _ advances => exact advances.rules
    | ask _ _ advances => exact advances.rules
    | succeed _ _ advances => exact advances.rules
    | fail _ _ advances => exact advances.rules
    | read _ _ advances => exact advances.rules
    | clear => rfl

theorem failure_settles_nothing {generation : Nat} {found : OwnerAnswer} {e : PackageDbError}
    (tidy : Tidy f) (asks : f.calls[call]? = some ⟨path, .asking generation⟩)
    (failed : f.rules.resolutionOf path found = .error e) :
    ∃ later, f.step? (.answer call found) = some later ∧
      later.calls[call]? = some ⟨path, .finished generation .unknown⟩ ∧
      (∀ j, j ≠ call → later.calls[j]? = f.calls[j]?) ∧
      ∀ name r, later.slot? name = some (.settled r) ↔ f.slot? name = some (.settled r) := by
  obtain ⟨later, _, _, step, _, _⟩ := can_answer asks found
  have moves := moves_of_step step
  refine ⟨later, step, ?_⟩
  cases moves with
  | succeed there answered _ =>
    cases Option.some.inj (there.symm.trans asks)
    rw [failed] at answered
    contradiction
  | fail there _ advances =>
    cases Option.some.inj (there.symm.trans asks)
    refine ⟨by rw [advances.calls, if_pos rfl], fun j other => by rw [advances.calls, if_neg other], ?_⟩
    intro name r
    have asking := (tidy.asked _).mpr ⟨call, path, generation, asks, rfl⟩
    rw [advances.slots]
    split
    · rename_i here
      rw [here, asking]
      simp
    · rfl

theorem late_answer_not_kept {generation : Nat} {found : OwnerAnswer} (tidy : Tidy f)
    (asks : f.calls[call]? = some ⟨path, .asking generation⟩) (old : generation ≠ f.generation)
    (step : f.step? (.answer call found) = some later) (entry : List Component × Resolution) :
    entry ∈ later.kept ↔ entry ∈ f.kept := by
  obtain ⟨after, resolution, slot, answered, _, advances⟩ := can_answer asks found
  obtain rfl := Option.some.inj (step.symm.trans answered)
  obtain ⟨key, r⟩ := entry
  rw [mem_kept (advances.distinct tidy.distinct), mem_kept tidy.distinct, advances.generation,
    advances.slots, if_neg]
  -- The answer goes to a slot of the generation that the call took, which is not the latest.
  intro same
  exact old (congrArg SlotName.generation same).symm

theorem entered_later {before after : List FlightEvent} {c : Call}
    (run : f.run? (before ++ .enter path :: after) = some later) (none : f.calls = [])
    (there : later.calls[entries before]? = some c) :
    c.path = path ∧ ∀ g, takenIn? c.state = some g → f.generation + clears before ≤ g := by
  obtain ⟨middle, next, first, moves, rest⟩ := run_split run
  obtain ⟨generation, length⟩ := run_counts first
  rw [none, List.length_nil, Nat.zero_add] at length
  cases moves with
  | enter path =>
    have new : (middle.calls ++ [⟨path, .entered⟩])[entries before]? = some ⟨path, .entered⟩ := by
      rw [entered_call, if_pos length.symm]
    obtain ⟨d, found, becomes⟩ := run_becomes rest new
    obtain rfl := Option.some.inj (found.symm.trans there)
    exact ⟨becomes.path, generation ▸ becomes.new rfl⟩

theorem took_then {before after : List FlightEvent} {c : Call}
    (run : f.run? (before ++ .take call :: after) = some later)
    (there : later.calls[call]? = some c) : takenIn? c.state = some (f.generation + clears before) := by
  obtain ⟨middle, next, first, moves, rest⟩ := run_split run
  obtain ⟨generation, _⟩ := run_counts first
  cases moves with
  | @take _ path _ new advances =>
    obtain ⟨d, found, becomes⟩ := run_becomes (c := ⟨path, .waiting middle.generation⟩) rest
      (by rw [advances.calls, if_pos rfl])
    obtain rfl := Option.some.inj (found.symm.trans there)
    exact generation ▸ becomes.kept _ rfl

theorem single_flight (rules : OwnerRules) (events : List FlightEvent) (f : Flights)
    (run : (opened rules).run? events = some f) : SingleFlight rules events f := by
  obtain ⟨tidy, recorded⟩ := run_recorded (opened_tidy rules) (opened_recorded rules) run
  rw [List.nil_append] at recorded
  have own {i : Nat} {p : Path} {g : Nat} {r : Resolution}
      (finished : f.calls[i]? = some ⟨p, .finished g r⟩)
      (good : ¬ Failed (landings (opened rules) events) i) :
      f.slot? (slotOf p g) = some (.settled r) := by
    rcases recorded.results i p g r finished with ⟨failed, _⟩ | ⟨_, settled⟩
    · exact absurd failed good
    · exact settled
  refine
    { generation := by simpa [opened, ofResolver] using (run_counts run).1
      took := ?_
      alone := ?_
      once := recorded.once
      landed := recorded.landed
      answered := fun i p g r finished good => (recorded.settled _ r).mp (own finished good)
      shared := ?_
      failed := ?_
      settlesNothing := ?_
      fresh := ?_
      late := fun i p g found later => late_answer_not_kept tidy
      kept := fun key r => (mem_kept tidy.distinct).trans (recorded.settled _ r)
      counted := kept_count tidy.distinct
      ends := fun i c there found => call_ends tidy there found }
  · rintro before call after c rfl there
    simpa [opened, ofResolver] using took_then run there
  · intro i j p q g first second same
    exact tidy.alone i j (slotOf p g) ⟨p, g, first, rfl⟩ ⟨q, g, second, same_slot same g⟩
  · intro i j p q g r s first second same good fine
    have here := own first good
    have there := own second fine
    rw [same_slot same, here] at there
    cases there
    rfl
  · intro i p g r finished failed
    rcases recorded.results i p g r finished with ⟨_, unknown⟩ | ⟨good, _⟩
    · exact unknown
    · exact absurd failed good
  · intro i p g found e asks failed
    refine failure_settles_nothing tidy asks (e := e) ?_
    rwa [run_rules run]
  · rintro before path after c rfl there
    simpa [opened, ofResolver] using entered_later run rfl there

/-- A question that fails, and one whose answer comes after everything was forgotten. -/
def overlappingEvents : List FlightEvent :=
  [.enter "/a//b".toList, .enter "/a/b".toList, .enter "/a/./b".toList, .take 0, .take 1, .take 2,
    .ask 0, .answer 0 (.error (.unsupportedVersion 0)), .ask 1, .clear, .enter "/a/b".toList, .take 3,
    .ask 3, .answer 1 (.ok (some (.named "old".toList))), .read 2,
    .answer 3 (.ok (some (.named "new".toList)))]

def overlappingFlights : Flights :=
  ((opened ⟨[], []⟩).run? overlappingEvents).getD (opened ⟨[], []⟩)

theorem single_flight_over_failure_and_clear :
    (opened ⟨[], []⟩).run? overlappingEvents = some overlappingFlights ∧
      overlappingFlights.calls.map (·.result?) =
        [some .unknown, some (.package (.named "old".toList)), some (.package (.named "old".toList)),
          some (.package (.named "new".toList))] ∧
      overlappingFlights.keptCount = 1 ∧
      SingleFlight ⟨[], []⟩ overlappingEvents overlappingFlights := by
  have run : (opened ⟨[], []⟩).run? overlappingEvents = some overlappingFlights := by decide +kernel
  refine ⟨run, ?_, ?_, single_flight ⟨[], []⟩ overlappingEvents overlappingFlights run⟩
  · decide +kernel
  · decide +kernel

end Flights
end CrashTriage
