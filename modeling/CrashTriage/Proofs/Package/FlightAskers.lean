import CrashTriage.Proofs.Package.FlightRuns

/-
Who asks the database. A slot is being asked for when just one of the calls that took it asks, so that
every call that waits on a slot can be brought to its end.
-/
namespace CrashTriage
namespace Flights

variable {f later : Flights} {call : Nat} {path : Path} {name : SlotName}
variable {state old : CallState} {slot : Slot}

/-- Is the call asking the database on behalf of a slot? -/
def Asks (f : Flights) (call : Nat) (name : SlotName) : Prop :=
  ∃ (path : Path) (generation : Nat),
    f.calls[call]? = some ⟨path, .asking generation⟩ ∧ slotOf path generation = name

/-- A slot is being asked for when just one call asks, and a call that waits has its slot. -/
structure Tidy (f : Flights) : Prop where
  distinct : f.DistinctNames
  asked : ∀ name, f.slot? name = some .asking ↔ ∃ call, Asks f call name
  alone : ∀ i j name, Asks f i name → Asks f j name → i = j
  taken : ∀ (call : Nat) (path : Path) (generation : Nat),
    f.calls[call]? = some ⟨path, .waiting generation⟩ → ∃ slot, f.slot? (slotOf path generation) = some slot

/-- Who asks after a call went on. -/
theorem asks_after (advances : Advances f later call path name state slot) (j : Nat) (n : SlotName) :
    Asks later j n ↔
      if j = call then ∃ generation, state = .asking generation ∧ slotOf path generation = n
      else Asks f j n := by
  unfold Asks
  rw [advances.calls]
  split
  · simp
  · rfl

theorem asks_there (there : f.calls[call]? = some ⟨path, state⟩) (n : SlotName) :
    Asks f call n ↔ ∃ generation, state = .asking generation ∧ slotOf path generation = n := by
  simp [Asks, there]

theorem asks_kept (there : f.calls[call]? = some ⟨path, old⟩) (before : ∀ g, old ≠ .asking g)
    (after : ∀ g, state ≠ .asking g) (advances : Advances f later call path name state slot)
    (j : Nat) (n : SlotName) : Asks later j n ↔ Asks f j n := by
  rw [asks_after advances]
  split
  · rename_i same
    rw [same, asks_there there]
    simp [before, after]
  · rfl

theorem taken_after (tidy : Tidy f) (advances : Advances f later call path name state slot)
    (takes : ∀ g, state = .waiting g → slotOf path g = name) {j g : Nat} {p : Path}
    (waits : later.calls[j]? = some ⟨p, .waiting g⟩) :
    ∃ slot, later.slot? (slotOf p g) = some slot := by
  rw [advances.calls] at waits
  rw [advances.slots]
  split at waits
  · cases waits
    rw [takes g rfl, if_pos rfl]
    exact ⟨_, rfl⟩
  · split
    · exact ⟨_, rfl⟩
    · exact tidy.taken j p g waits

theorem tidy_kept (tidy : Tidy f) (there : f.calls[call]? = some ⟨path, old⟩)
    (before : ∀ g, old ≠ .asking g) (after : ∀ g, state ≠ .asking g)
    (advances : Advances f later call path name state slot)
    (stays : f.slot? name = some slot ∨ f.slot? name = none ∧ slot = .idle)
    (takes : ∀ g, state = .waiting g → slotOf path g = name) : Tidy later := by
  have same := asks_kept there before after advances
  refine ⟨advances.distinct tidy.distinct, fun n => ?_, fun i j n => ?_, fun j p g waits => ?_⟩
  · simp only [same]
    rw [← tidy.asked, advances.slots]
    split
    · rename_i here
      subst here
      rcases stays with slot | ⟨slot, rfl⟩ <;> simp [slot]
    · rfl
  · rw [same, same]
    exact tidy.alone i j n
  · exact taken_after tidy advances takes waits

theorem tidy_asking {generation : Nat} (tidy : Tidy f)
    (there : f.calls[call]? = some ⟨path, .waiting generation⟩)
    (idle : f.slot? (slotOf path generation) = some .idle)
    (advances : Advances f later call path (slotOf path generation) (.asking generation) .asking) :
    Tidy later := by
  have nobody (j : Nat) : ¬ Asks f j (slotOf path generation) := fun asks => by
    have slot := (tidy.asked _).mpr ⟨j, asks⟩
    rw [idle] at slot
    contradiction
  have asks (j : Nat) (n : SlotName) :
      Asks later j n ↔ Asks f j n ∨ j = call ∧ n = slotOf path generation := by
    rw [asks_after advances]
    split
    · rename_i same
      rw [same, asks_there there]
      simp [eq_comm]
    · rename_i other
      simp [other]
  refine ⟨advances.distinct tidy.distinct, fun n => ?_, fun i j n => ?_, fun j p g waits => ?_⟩
  · simp only [asks, exists_or, ← tidy.asked, advances.slots]
    by_cases here : n = slotOf path generation <;> simp [here]
  · rw [asks, asks]
    rintro (first | ⟨here, own⟩) (second | ⟨same, own⟩)
    · exact tidy.alone i j n first second
    · exact absurd (own ▸ first) (nobody i)
    · exact absurd (own ▸ second) (nobody j)
    · exact here.trans same.symm
  · exact taken_after tidy advances (by simp) waits

theorem tidy_answered {generation : Nat} {resolution : Resolution} (tidy : Tidy f)
    (there : f.calls[call]? = some ⟨path, .asking generation⟩) (ended : slot ≠ .asking)
    (advances : Advances f later call path (slotOf path generation)
      (.finished generation resolution) slot) : Tidy later := by
  have own : Asks f call (slotOf path generation) := ⟨path, generation, there, rfl⟩
  have asks (j : Nat) (n : SlotName) :
      Asks later j n ↔ Asks f j n ∧ n ≠ slotOf path generation := by
    rw [asks_after advances]
    split
    · rename_i same
      rw [same, asks_there there]
      simp [eq_comm]
    · rename_i other
      refine ⟨fun asks => ⟨asks, ?_⟩, And.left⟩
      rintro rfl
      exact other (tidy.alone j call _ asks own)
  refine ⟨advances.distinct tidy.distinct, fun n => ?_, fun i j n => ?_, fun j p g waits => ?_⟩
  · simp only [asks, exists_and_right, ← tidy.asked, advances.slots]
    by_cases here : n = slotOf path generation <;> simp [here, ended]
  · rw [asks, asks]
    exact fun first second => tidy.alone i j n first.1 second.1
  · exact taken_after tidy advances (by simp) waits

theorem tidy_step {event : FlightEvent} (tidy : Tidy f) (moves : Moves f event later) : Tidy later := by
  cases moves with
  | enter path =>
    have asks (j : Nat) (n : SlotName) :
        Asks { f with calls := f.calls ++ [⟨path, .entered⟩] } j n ↔ Asks f j n := by
      simp only [Asks, entered_call]
      split
      · rename_i last
        simp [last]
      · rfl
    refine ⟨tidy.distinct, fun n => ?_, fun i j n => ?_, fun j p g waits => ?_⟩
    · simp only [asks]
      exact tidy.asked n
    · rw [asks, asks]
      exact tidy.alone i j n
    · rw [entered_call] at waits
      split at waits
      · cases waits
      · exact tidy.taken j p g waits
  | take new advances =>
    refine tidy_kept tidy new (by simp) (by simp) advances ?_ (by rintro _ ⟨⟩; rfl)
    cases f.slot? _ <;> simp
  | ask waits idle advances => exact tidy_asking tidy waits idle advances
  | succeed asks answered advances => exact tidy_answered tidy asks (by simp) advances
  | fail asks failed advances => exact tidy_answered tidy asks (by simp) advances
  | read waits settled advances =>
    exact tidy_kept tidy waits (by simp) (by simp) advances (.inl settled) (by simp)
  | clear => exact ⟨tidy.distinct, tidy.asked, tidy.alone, tidy.taken⟩

theorem can_take (new : f.calls[call]? = some ⟨path, .entered⟩) :
    ∃ later, f.step? (.take call) = some later ∧
      later.calls[call]? = some ⟨path, .waiting f.generation⟩ := by
  refine ⟨f.take call ⟨path, .entered⟩, by simp [step?, new], ?_⟩
  rw [(advances_take new).calls, if_pos rfl]

theorem can_ask {generation : Nat} (waits : f.calls[call]? = some ⟨path, .waiting generation⟩)
    (idle : f.slot? (slotOf path generation) = some .idle) :
    ∃ later, f.step? (.ask call) = some later ∧
      later.calls[call]? = some ⟨path, .asking generation⟩ := by
  refine ⟨(f.putSlot (slotOf path generation) .asking).putCall call (.asking generation), ?_, ?_⟩
  · simp only [step?, waits]
    exact if_pos idle
  · rw [(advances_put waits _ .asking).calls, if_pos rfl]

theorem can_read {generation : Nat} {resolution : Resolution}
    (waits : f.calls[call]? = some ⟨path, .waiting generation⟩)
    (settled : f.slot? (slotOf path generation) = some (.settled resolution)) :
    ∃ later, f.step? (.read call) = some later ∧
      later.calls[call]? = some ⟨path, .finished generation resolution⟩ := by
  refine ⟨f.putCall call (.finished generation resolution), ?_, ?_⟩
  · have name : (Call.mk path (.waiting generation)).slotName generation = slotOf path generation := rfl
    simp only [step?, waits, name, settled]
  · rw [call_after_put waits, if_pos rfl]

/-- What an answer leaves: the call is finished, its slot free again or settled, all else as before. -/
theorem can_answer {generation : Nat} (asks : f.calls[call]? = some ⟨path, .asking generation⟩)
    (found : OwnerAnswer) :
    ∃ later resolution slot, f.step? (.answer call found) = some later ∧ slot ≠ .asking ∧
      Advances f later call path (slotOf path generation) (.finished generation resolution) slot := by
  obtain ⟨later, step⟩ : ∃ later, f.step? (.answer call found) = some later :=
    ⟨f.land call generation ⟨path, .asking generation⟩ found, by simp [step?, asks]⟩
  have moves := moves_of_step step
  cases moves with
  | succeed there answered advances =>
    cases Option.some.inj (there.symm.trans asks)
    exact ⟨later, _, _, step, by simp, advances⟩
  | fail there failed advances =>
    cases Option.some.inj (there.symm.trans asks)
    exact ⟨later, _, _, step, by simp, advances⟩

/-- A call comes to its end after more events. -/
def CanEnd (f : Flights) (call : Nat) (path : Path) : Prop :=
  ∃ more later generation resolution, f.run? more = some later ∧
    later.calls[call]? = some ⟨path, .finished generation resolution⟩

theorem can_end_after {event : FlightEvent} (step : f.step? event = some later)
    (ends : CanEnd later call path) : CanEnd f call path := by
  obtain ⟨more, last, generation, resolution, run, finished⟩ := ends
  refine ⟨event :: more, last, generation, resolution, ?_, finished⟩
  rw [run_cons, step]
  exact run

theorem finished_ended {generation : Nat} {resolution : Resolution}
    (finished : f.calls[call]? = some ⟨path, .finished generation resolution⟩) : CanEnd f call path :=
  ⟨[], f, generation, resolution, rfl, finished⟩

theorem asking_ends {generation : Nat} (asks : f.calls[call]? = some ⟨path, .asking generation⟩)
    (found : OwnerAnswer) : CanEnd f call path := by
  obtain ⟨later, resolution, slot, step, _, advances⟩ := can_answer asks found
  have finished : later.calls[call]? = some ⟨path, .finished generation resolution⟩ := by
    rw [advances.calls, if_pos rfl]
  exact can_end_after step (finished_ended finished)

theorem free_slot_ends {generation : Nat}
    (waits : f.calls[call]? = some ⟨path, .waiting generation⟩)
    (there : f.slot? (slotOf path generation) = some slot) (free : slot ≠ .asking)
    (found : OwnerAnswer) : CanEnd f call path := by
  cases slot with
  | idle =>
    obtain ⟨later, step, asks⟩ := can_ask waits there
    exact can_end_after step (asking_ends asks found)
  | asking => contradiction
  | settled resolution =>
    obtain ⟨later, step, finished⟩ := can_read waits there
    exact can_end_after step (finished_ended finished)

theorem waiting_ends {generation : Nat} (tidy : Tidy f)
    (waits : f.calls[call]? = some ⟨path, .waiting generation⟩) (found : OwnerAnswer) :
    CanEnd f call path := by
  obtain ⟨slot, there⟩ := tidy.taken call path generation waits
  by_cases free : slot = .asking
  · -- The one that asks ends first, which frees the slot or settles it.
    rw [free] at there
    obtain ⟨other, p, g, asks, same⟩ := (tidy.asked _).mp there
    obtain ⟨later, resolution, left, step, ended, advances⟩ := can_answer asks found
    have another : call ≠ other := by
      rintro rfl
      rw [waits] at asks
      cases asks
    have stillWaits : later.calls[call]? = some ⟨path, .waiting generation⟩ := by
      rw [advances.calls, if_neg another, waits]
    have freed : later.slot? (slotOf path generation) = some left := by
      rw [advances.slots, same, if_pos rfl]
    exact can_end_after step (free_slot_ends stillWaits freed ended found)
  · exact free_slot_ends waits there free found

theorem call_ends (tidy : Tidy f) (there : f.calls[call]? = some ⟨path, state⟩)
    (found : OwnerAnswer) : CanEnd f call path := by
  cases state with
  | entered =>
    obtain ⟨later, step, waits⟩ := can_take there
    exact can_end_after step (waiting_ends (tidy_step tidy (moves_of_step step)) waits found)
  | waiting generation => exact waiting_ends tidy there found
  | asking generation => exact asking_ends there found
  | finished generation resolution => exact finished_ended there

end Flights
end CrashTriage
