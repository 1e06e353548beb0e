import CrashTriage.Proofs.Package.FlightMoves

/-
Runs of overlapping calls. Calls are numbered by how many entered before, the generation is how often
everything was forgotten, and a call keeps the generation that it took its slot in.
-/
namespace CrashTriage
namespace Flights

def clears (events : List FlightEvent) : Nat :=
  events.countP fun event => match event with
    | .clear => true
    | _ => false

def entries (events : List FlightEvent) : Nat :=
  events.countP fun event => match event with
    | .enter _ => true
    | _ => false

/-- The generation of the slot that a call took. -/
def takenIn? : CallState → Option Nat
  | .entered => none
  | .waiting generation => some generation
  | .asking generation => some generation
  | .finished generation _ => some generation

/-- What a call can become from a time on at which the generation is `generation`. -/
structure Becomes (generation : Nat) (c d : Call) : Prop where
  path : d.path = c.path
  kept : ∀ g, takenIn? c.state = some g → takenIn? d.state = some g
  new : takenIn? c.state = none → ∀ g, takenIn? d.state = some g → generation ≤ g

variable {f later : Flights} {event : FlightEvent}

theorem run_cons (f : Flights) (event : FlightEvent) (rest : List FlightEvent) :
    f.run? (event :: rest) = (f.step? event).bind fun later => later.run? rest := rfl

theorem run_split {events rest : List FlightEvent} (run : f.run? (events ++ event :: rest) = some later) :
    ∃ before after, f.run? events = some before ∧ Moves before event after ∧
      after.run? rest = some later := by
  unfold run? at run
  rw [List.foldlM_append] at run
  obtain ⟨before, first, more⟩ := Option.bind_eq_some_iff.mp run
  obtain ⟨after, step, last⟩ := Option.bind_eq_some_iff.mp more
  exact ⟨before, after, first, moves_of_step step, last⟩

theorem entered_call (f : Flights) (path : Path) (j : Nat) :
    (f.calls ++ [⟨path, .entered⟩])[j]? =
      if j = f.calls.length then some ⟨path, .entered⟩ else f.calls[j]? := by
  rw [List.getElem?_append]
  split
  · rename_i before
    rw [if_neg (Nat.ne_of_lt before)]
  · rename_i after
    by_cases last : j = f.calls.length
    · simp [last]
    · have beyond : f.calls.length < j := by omega
      rw [if_neg last, List.getElem?_eq_none (by simp; omega), List.getElem?_eq_none (by omega)]

theorem becomes_same (generation : Nat) (c : Call) : Becomes generation c c :=
  ⟨rfl, fun _ => id, fun none g some => by rw [none] at some; contradiction⟩

theorem becomes_trans {first second : Nat} {c d e : Call} (order : first ≤ second)
    (here : Becomes first c d) (there : Becomes second d e) : Becomes first c e := by
  refine ⟨there.path.trans here.path, fun g taken => there.kept g (here.kept g taken), ?_⟩
  intro none g taken
  cases between : takenIn? d.state with
  | none => exact Nat.le_trans order (there.new between g taken)
  | some g' =>
    rw [there.kept g' between, Option.some.injEq] at taken
    exact taken ▸ here.new none g' between

theorem advanced_becomes {call : Nat} {path : Path} {name : SlotName} {state old : CallState}
    {slot : Slot} (there : f.calls[call]? = some ⟨path, old⟩)
    (advances : Advances f later call path name state slot)
    (becomes : Becomes f.generation ⟨path, old⟩ ⟨path, state⟩) {i : Nat} {c : Call}
    (member : f.calls[i]? = some c) : ∃ d, later.calls[i]? = some d ∧ Becomes f.generation c d := by
  rw [advances.calls]
  split
  · rename_i same
    rw [same, there] at member
    cases member
    exact ⟨_, rfl, becomes⟩
  · exact ⟨c, member, becomes_same _ c⟩

theorem step_becomes (moves : Moves f event later) {i : Nat} {c : Call}
    (member : f.calls[i]? = some c) : ∃ d, later.calls[i]? = some d ∧ Becomes f.generation c d := by
  cases moves with
  | enter path =>
    have inside : i < f.calls.length := (List.getElem?_eq_some_iff.mp member).1
    exact ⟨c, by rw [List.getElem?_append_left inside, member], becomes_same _ c⟩
  | take new advances => exact advanced_becomes new advances ⟨rfl, nofun, by simp [takenIn?]⟩ member
  | ask waits idle advances => exact advanced_becomes waits advances ⟨rfl, fun _ => id, nofun⟩ member
  | succeed asks answered advances =>
    exact advanced_becomes asks advances ⟨rfl, fun _ => id, nofun⟩ member
  | fail asks failed advances => exact advanced_becomes asks advances ⟨rfl, fun _ => id, nofun⟩ member
  | read waits settled advances =>
    exact advanced_becomes waits advances ⟨rfl, fun _ => id, nofun⟩ member
  | clear => exact ⟨c, member, becomes_same _ c⟩

theorem step_counts (moves : Moves f event later) :
    later.generation = f.generation + clears [event] ∧
      later.calls.length = f.calls.length + entries [event] := by
  cases moves with
  | enter path => exact ⟨rfl, by simp [entries]⟩
  | take new advances => exact ⟨advances.generation, advances.length⟩
  | ask waits idle advances => exact ⟨advances.generation, advances.length⟩
  | succeed asks answered advances => exact ⟨advances.generation, advances.length⟩
  | fail asks failed advances => exact ⟨advances.generation, advances.length⟩
  | read waits settled advances => exact ⟨advances.generation, advances.length⟩
  | clear => exact ⟨rfl, rfl⟩

theorem run_counts {events : List FlightEvent} (run : f.run? events = some later) :
    later.generation = f.generation + clears events ∧
      later.calls.length = f.calls.length + entries events := by
  induction events generalizing f with
  | nil =>
    cases run
    exact ⟨rfl, rfl⟩
  | cons event rest ih =>
    rw [run_cons] at run
    obtain ⟨next, step, more⟩ := Option.bind_eq_some_iff.mp run
    obtain ⟨generation, length⟩ := step_counts (moves_of_step step)
    obtain ⟨lastGeneration, lastLength⟩ := ih more
    have whole : event :: rest = [event] ++ rest := rfl
    have allClears : clears (event :: rest) = clears [event] + clears rest := by
      rw [whole, clears, List.countP_append]
      rfl
    have allEntries : entries (event :: rest) = entries [event] + entries rest := by
      rw [whole, entries, List.countP_append]
      rfl
    omega

theorem run_becomes {events : List FlightEvent} (run : f.run? events = some later) {i : Nat} {c : Call}
    (member : f.calls[i]? = some c) : ∃ d, later.calls[i]? = some d ∧ Becomes f.generation c d := by
  induction events generalizing f c with
  | nil =>
    cases run
    exact ⟨c, member, becomes_same _ c⟩
  | cons event rest ih =>
    rw [run_cons] at run
    obtain ⟨next, step, more⟩ := Option.bind_eq_some_iff.mp run
    have moves := moves_of_step step
    obtain ⟨d, there, first⟩ := step_becomes moves member
    obtain ⟨e, last, second⟩ := ih more there
    have order : f.generation ≤ next.generation := by
      have counted := (step_counts moves).1
      omega
    exact ⟨e, last, becomes_trans order first second⟩

end Flights
end CrashTriage
