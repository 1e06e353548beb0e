import CrashTriage.Package.Flights
import CrashTriage.Proofs.Lists
import Mathlib.Data.List.Nodup

/-
What one event does to overlapping calls. A call moves on by itself: every event changes the state of
one call at most, and at most the slot that this call took.
-/
namespace CrashTriage
namespace Flights

variable {f later : Flights} {call : Nat} {path : Path}

/-- A resolver that nobody has called yet. -/
def opened (rules : OwnerRules) : Flights := ofResolver ⟨rules, []⟩

def slotOf (path : Path) (generation : Nat) : SlotName := ⟨Path.components path, generation⟩

def DistinctNames (f : Flights) : Prop := (f.slots.map (·.1)).Nodup

theorem slot_after_put (f : Flights) (name other : SlotName) (slot : Slot) :
    (f.putSlot name slot).slot? other = if other = name then some slot else f.slot? other := by
  unfold slot? putSlot
  rw [List.lookup_cons]
  by_cases same : other = name
  · simp [same]
  · have stays : (other != name) = true := bne_iff_ne.mpr same
    have kept := Keyed.lookup_filter (· != name) other f.slots
    rw [stays, if_pos rfl] at kept
    rw [beq_eq_false_iff_ne.mpr same, if_neg same]
    exact kept

theorem distinct_after_put (distinct : f.DistinctNames) (name : SlotName) (slot : Slot) :
    (f.putSlot name slot).DistinctNames := by
  unfold DistinctNames putSlot at *
  rw [List.map_cons, List.nodup_cons]
  constructor
  · simp
  · exact distinct.sublist (List.filter_sublist.map _)

theorem call_after_put {old state : CallState} (there : f.calls[call]? = some ⟨path, old⟩) (j : Nat) :
    (f.putCall call state).calls[j]? = if j = call then some ⟨path, state⟩ else f.calls[j]? := by
  rw [putCall, List.getElem?_modify]
  by_cases same : j = call
  · rw [same, there]
    simp
  · have differs : ¬ call = j := fun other => same other.symm
    simp [same, differs]

/-- A call goes from one state to another and leaves its slot as `slot`. -/
structure Advances (f later : Flights) (call : Nat) (path : Path) (name : SlotName)
    (state : CallState) (slot : Slot) : Prop where
  calls : ∀ j, later.calls[j]? = if j = call then some ⟨path, state⟩ else f.calls[j]?
  slots : ∀ other, later.slot? other = if other = name then some slot else f.slot? other
  distinct : f.DistinctNames → later.DistinctNames
  generation : later.generation = f.generation
  rules : later.rules = f.rules
  length : later.calls.length = f.calls.length

theorem advances_put {old state : CallState} (there : f.calls[call]? = some ⟨path, old⟩)
    (name : SlotName) (slot : Slot) :
    Advances f ((f.putSlot name slot).putCall call state) call path name state slot where
  calls := call_after_put (f := f.putSlot name slot) there
  slots other := slot_after_put f name other slot
  distinct distinct := distinct_after_put distinct name slot
  generation := rfl
  rules := rfl
  length := List.length_modify _ _ _

theorem advances_beside {old state : CallState} {name : SlotName} {slot : Slot}
    (there : f.calls[call]? = some ⟨path, old⟩) (stays : f.slot? name = some slot) :
    Advances f (f.putCall call state) call path name state slot where
  calls := call_after_put there
  slots other := by
    split
    · rename_i same
      exact same ▸ stays
    · rfl
  distinct distinct := distinct
  generation := rfl
  rules := rfl
  length := List.length_modify _ _ _

theorem advances_take (new : f.calls[call]? = some ⟨path, .entered⟩) :
    Advances f (f.take call ⟨path, .entered⟩) call path (slotOf path f.generation)
      (.waiting f.generation) ((f.slot? (slotOf path f.generation)).getD .idle) := by
  have name : (Call.mk path .entered).slotName f.generation = slotOf path f.generation := rfl
  rw [take, name]
  cases found : f.slot? (slotOf path f.generation) with
  | none => exact advances_put new _ _
  | some slot => exact advances_beside new found

/-- The events that can happen, each with what it leaves. -/
inductive Moves (f : Flights) : FlightEvent → Flights → Prop where
  | enter (path : Path) : Moves f (.enter path) { f with calls := f.calls ++ [⟨path, .entered⟩] }
  | take {call : Nat} {path : Path} {later : Flights} (new : f.calls[call]? = some ⟨path, .entered⟩)
      (advances : Advances f later call path (slotOf path f.generation) (.waiting f.generation)
        ((f.slot? (slotOf path f.generation)).getD .idle)) : Moves f (.take call) later
  | ask {call generation : Nat} {path : Path} {later : Flights}
      (waits : f.calls[call]? = some ⟨path, .waiting generation⟩)
      (idle : f.slot? (slotOf path generation) = some .idle)
      (advances : Advances f later call path (slotOf path generation) (.asking generation) .asking) :
      Moves f (.ask call) later
  | succeed {call generation : Nat} {path : Path} {found : OwnerAnswer} {resolution : Resolution}
      {later : Flights} (asks : f.calls[call]? = some ⟨path, .asking generation⟩)
      (answered : f.rules.resolutionOf path found = .ok resolution)
      (advances : Advances f later call path (slotOf path generation)
        (.finished generation resolution) (.settled resolution)) : Moves f (.answer call found) later
  | fail {call generation : Nat} {path : Path} {found : OwnerAnswer} {e : PackageDbError}
      {later : Flights} (asks : f.calls[call]? = some ⟨path, .asking generation⟩)
      (failed : f.rules.resolutionOf path found = .error e)
      (advances : Advances f later call path (slotOf path generation)
        (.finished generation .unknown) .idle) : Moves f (.answer call found) later
  | read {call generation : Nat} {path : Path} {resolution : Resolution} {later : Flights}
      (waits : f.calls[call]? = some ⟨path, .waiting generation⟩)
      (settled : f.slot? (slotOf path generation) = some (.settled resolution))
      (advances : Advances f later call path (slotOf path generation)
        (.finished generation resolution) (.settled resolution)) : Moves f (.read call) later
  | clear : Moves f .clear { f with generation := f.generation + 1 }

theorem moves_of_step {event : FlightEvent} (step : f.step? event = some later) :
    Moves f event later := by
  cases event with
  | enter path =>
    cases step
    exact .enter path
  | take call =>
    simp only [step?] at step
    split at step
    · rename_i c there
      obtain ⟨path, state⟩ := c
      split at step
      · rename_i new
        cases new
        cases step
        exact .take there (advances_take there)
      · contradiction
    · contradiction
  | ask call =>
    simp only [step?] at step
    split at step
    · rename_i path generation there
      split at step
      · rename_i idle
        cases step
        exact .ask there idle (advances_put there _ _)
      · contradiction
    · contradiction
  | answer call found =>
    simp only [step?] at step
    split at step
    · rename_i path generation there
      cases step
      unfold land
      split
      · rename_i resolution answered
        exact .succeed there answered (advances_put there _ _)
      · rename_i e failed
        exact .fail there failed (advances_put there _ _)
    · contradiction
  | read call =>
    simp only [step?] at step
    split at step
    · rename_i path generation there
      split at step
      · rename_i resolution settled
        cases step
        exact .read there settled (advances_beside there settled)
      · contradiction
    · contradiction
  | clear =>
    cases step
    exact .clear

end Flights
end CrashTriage
