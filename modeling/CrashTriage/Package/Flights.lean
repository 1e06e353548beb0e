import CrashTriage.Package.Resolver

/-
Calls to a resolver that overlap. A call takes the slot of its path's components and then either reads
what the slot has settled on or asks the database itself, if nobody else is asking. Forgetting opens a
new generation of slots; a call goes on with the slot it took, whatever the generation is by then.
-/
namespace CrashTriage

/-- The path of a slot by its components, and its generation. -/
structure SlotName where
  key : List Component
  generation : Nat
deriving DecidableEq, Repr

inductive Slot where
  | idle
  /-- A call is asking the database. -/
  | asking
  | settled (resolution : Resolution)
deriving DecidableEq, Repr

namespace Slot

def isSettled : Slot → Bool
  | .settled _ => true
  | _ => false

end Slot

/-- Where a call stands. A call that has taken a slot knows its generation. -/
inductive CallState where
  | entered
  | waiting (generation : Nat)
  | asking (generation : Nat)
  | finished (generation : Nat) (resolution : Resolution)
deriving DecidableEq, Repr

structure Call where
  path : Path
  state : CallState
deriving DecidableEq, Repr

namespace Call

def slotName (c : Call) (generation : Nat) : SlotName := ⟨Path.components c.path, generation⟩

def result? (c : Call) : Option Resolution :=
  match c.state with
  | .finished _ resolution => some resolution
  | _ => none

end Call

/-- What can happen next; calls are numbered in the order they entered. -/
inductive FlightEvent where
  | enter (path : Path)
  | take (call : Nat)
  | ask (call : Nat)
  | answer (call : Nat) (found : OwnerAnswer)
  | read (call : Nat)
  | clear
deriving Repr

structure Flights where
  rules : OwnerRules
  /-- How often everything was forgotten. -/
  generation : Nat
  slots : List (SlotName × Slot)
  calls : List Call
deriving DecidableEq, Repr

namespace Flights

/-- No calls yet, and the answers that a resolver keeps. -/
def ofResolver (r : Resolver) : Flights :=
  ⟨r.rules, 0, r.settled.map fun (key, resolution) => (⟨key, 0⟩, .settled resolution), []⟩

def slot? (f : Flights) (name : SlotName) : Option Slot := f.slots.lookup name

def putSlot (f : Flights) (name : SlotName) (slot : Slot) : Flights :=
  { f with slots := (name, slot) :: f.slots.filter fun s => s.1 != name }

def putCall (f : Flights) (call : Nat) (state : CallState) : Flights :=
  { f with calls := f.calls.modify call fun c => { c with state } }

/-- The slot of a call, made when it is missing, with the call waiting on it. -/
def take (f : Flights) (call : Nat) (c : Call) : Flights :=
  let name := c.slotName f.generation
  let f := if (f.slot? name).isSome then f else f.putSlot name .idle
  f.putCall call (.waiting f.generation)

/-- The end of a question: an answer settles the slot, a failure leaves it idle. -/
def land (f : Flights) (call generation : Nat) (c : Call) (found : OwnerAnswer) : Flights :=
  let name := c.slotName generation
  match f.rules.resolutionOf c.path found with
  | .ok resolution =>
    (f.putSlot name (.settled resolution)).putCall call (.finished generation resolution)
  | .error _ => (f.putSlot name .idle).putCall call (.finished generation .unknown)

/-- The state after an event; none when the event cannot happen. -/
def step? (f : Flights) : FlightEvent → Option Flights
  | .enter path => some { f with calls := f.calls ++ [⟨path, .entered⟩] }
  | .take call =>
    match f.calls[call]? with
    | some c => if c.state = .entered then some (f.take call c) else none
    | none => none
  | .ask call =>
    match f.calls[call]? with
    | some ⟨path, .waiting generation⟩ =>
      let name := (Call.mk path (.waiting generation)).slotName generation
      if f.slot? name = some .idle then
        some ((f.putSlot name .asking).putCall call (.asking generation))
      else none
    | _ => none
  | .answer call found =>
    match f.calls[call]? with
    | some ⟨path, .asking generation⟩ =>
      some (f.land call generation ⟨path, .asking generation⟩ found)
    | _ => none
  | .read call =>
    match f.calls[call]? with
    | some ⟨path, .waiting generation⟩ =>
      match f.slot? ((Call.mk path (.waiting generation)).slotName generation) with
      | some (.settled resolution) => some (f.putCall call (.finished generation resolution))
      | _ => none
    | _ => none
  | .clear => some { f with generation := f.generation + 1 }

/-- The state after events in order. -/
def run? (f : Flights) (events : List FlightEvent) : Option Flights := events.foldlM step? f

/-- The answers that are kept: the settled slots of the latest generation. -/
def kept (f : Flights) : List (List Component × Resolution) :=
  f.slots.filterMap fun (name, slot) =>
    match slot with
    | .settled resolution =>
      if name.generation = f.generation then some (name.key, resolution) else none
    | _ => none

def keptCount (f : Flights) : Nat := f.kept.length

def toResolver (f : Flights) : Resolver := ⟨f.rules, f.kept⟩

variable {m : Type → Type} [Monad m]

/-- Lets one call run to its end: it reads its slot, or else asks. -/
def finish (owner : Path → m OwnerAnswer) (f : Flights) (call : Nat) : m Flights :=
  match f.step? (.read call) with
  | some f => pure f
  | none =>
    match f.step? (.ask call), f.calls[call]? with
    | some asked, some c => do
      let found ← owner c.path
      pure ((asked.step? (.answer call found)).getD asked)
    | _, _ => pure f

/-- Lets calls enter and take their slots before the first of them asks. -/
def board (f : Flights) (paths : List Path) : Flights :=
  let entered := paths.foldl (fun f path => (f.step? (.enter path)).getD f) f
  (List.range entered.calls.length).foldl (fun f call => (f.step? (.take call)).getD f) entered

end Flights

namespace Resolver

variable {m : Type → Type} [Monad m]

/-- Resolves paths in calls that overlap. -/
def resolveTogether (owner : Path → m OwnerAnswer) (paths : List Path) :
    StateT Resolver m (List Resolution) := fun r => do
  let boarded := (Flights.ofResolver r).board paths
  let f ← (List.range paths.length).foldlM (Flights.finish owner) boarded
  pure (f.calls.filterMap (·.result?), f.toResolver)

end Resolver

end CrashTriage
