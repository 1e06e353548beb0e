import CrashTriage.FileUpdate
import CrashTriage.Proofs.Runs

/-
What a run on a host passes through. Every step is recorded with the disk it found, so that what holds of
the recorded disks and of the last one holds at every moment of the run.
-/
namespace CrashTriage
namespace Host

/-- Since `h` only disks that `P` holds of were passed, and a helper was asked at most `n` times. -/
structure Passed (P : Disk → Prop) (n : Nat) (h later : Host) : Prop where
  history : ∃ seen, later.history = seen ++ h.history ∧ ∀ d ∈ seen, P d
  asked : ∃ asked, later.asked = asked ++ h.asked ∧ asked.length ≤ n

variable {P Q : Disk → Prop} {m n : Nat} {h between later : Host}

theorem Passed.refl (P : Disk → Prop) (n : Nat) (h : Host) : Passed P n h h :=
  ⟨⟨[], rfl, by simp⟩, [], rfl, Nat.zero_le n⟩

theorem Passed.trans (first : Passed P m h between) (second : Passed P n between later) :
    Passed P (m + n) h later := by
  obtain ⟨⟨seen, history, holds⟩, asked, requests, few⟩ := first
  obtain ⟨⟨seen', history', holds'⟩, asked', requests', few'⟩ := second
  constructor
  · refine ⟨seen' ++ seen, by rw [history', history, List.append_assoc], fun d member => ?_⟩
    rcases List.mem_append.mp member with late | early
    · exact holds' d late
    · exact holds d early
  · refine ⟨asked' ++ asked, by rw [requests', requests, List.append_assoc], ?_⟩
    rw [List.length_append]
    omega

theorem Passed.mono (passed : Passed P m h later) (weaker : ∀ d, P d → Q d) (more : m ≤ n) :
    Passed Q n h later := by
  obtain ⟨⟨seen, history, holds⟩, asked, requests, few⟩ := passed
  exact ⟨⟨seen, history, fun d member => weaker d (holds d member)⟩, asked, requests, by omega⟩

section Yields

variable {ε ε' α β : Type}

/-- The run asks a helper at most `n` times and passes only disks that `P` holds of. It leaves a disk that
`failed` holds of or an answer with a disk that `done` holds of. -/
def Yields (P : Disk → Prop) (n : Nat) (h : Host) (run : HostM ε α) (failed : Disk → Prop)
    (done : α → Disk → Prop) : Prop :=
  Passed P n h (run.run h).2 ∧
    match (run.run h).1 with
    | .ok a => done a (run.run h).2.disk
    | .error _ => failed (run.run h).2.disk

variable {failed caught : Disk → Prop} {done mid : α → Disk → Prop} {last : β → Disk → Prop}
variable {run : HostM ε α}

theorem Yields.mono (yields : Yields P m h run failed done) (weaker : ∀ d, P d → Q d) (more : m ≤ n) :
    Yields Q n h run failed done :=
  ⟨yields.1.mono weaker more, yields.2⟩

theorem yields_pure {a : α} (holds : done a h.disk) : Yields P n h (pure a : HostM ε α) failed done :=
  ⟨Passed.refl P n h, holds⟩

theorem yields_throw {e : ε} (holds : failed h.disk) : Yields P n h (throw e : HostM ε α) failed done :=
  ⟨Passed.refl P n h, holds⟩

theorem yields_get {next : Host → HostM ε α} (yields : Yields P n h (next h) failed done) :
    Yields P n h (get >>= next) failed done := by
  unfold Yields
  rw [Runs.bind_answered (Runs.run_get h)]
  exact yields

theorem yields_bind {next : α → HostM ε β} (first : Yields P 0 h run failed mid)
    (more : ∀ a later, mid a later.disk → Yields P n later (next a) failed last) :
    Yields P n h (run >>= next) failed last := by
  obtain ⟨passed, holds⟩ := first
  unfold Yields
  cases ran : run.run h with
  | mk answer between =>
    rw [ran] at passed holds
    cases answer with
    | error e =>
      rw [Runs.bind_failed ran]
      exact ⟨passed.mono (fun _ => id) (Nat.zero_le n), holds⟩
    | ok a =>
      rw [Runs.bind_answered ran]
      obtain ⟨later, after⟩ := more a between holds
      exact ⟨(passed.trans later).mono (fun _ => id) (by omega), after⟩

theorem run_handled (next : Except ε α → HostM ε' β) :
    (outcome run >>= next).run h = (next (run.run h).1).run (run.run h).2 := by
  have answered : (outcome run : HostM ε' (Except ε α)).run h = (.ok (run.run h).1, (run.run h).2) := rfl
  exact Runs.bind_answered answered

theorem yields_after {next : Except ε α → HostM ε' β} {answer : Except ε α}
    (ran : run.run h = (answer, between)) (passed : Passed P m h between)
    (more : Yields P n between (next answer) failed last) :
    Yields P (m + n) h (outcome run >>= next) failed last := by
  unfold Yields
  rw [run_handled, ran]
  exact ⟨passed.trans more.1, more.2⟩

/-- What follows a run whose failure is handled as well. -/
theorem yields_both {next : Except ε α → HostM ε' β} (first : Yields P m h run caught mid)
    (answered : ∀ a later, mid a later.disk → Yields P n later (next (.ok a)) failed last)
    (handled : ∀ e later, caught later.disk → Yields P n later (next (.error e)) failed last) :
    Yields P (m + n) h (outcome run >>= next) failed last := by
  obtain ⟨passed, holds⟩ := first
  cases ran : run.run h with
  | mk answer between =>
    rw [ran] at passed holds
    cases answer with
    | ok a => exact yields_after ran passed (answered a between holds)
    | error e => exact yields_after ran passed (handled e between holds)

theorem yields_handled {next : Except ε α → HostM ε' β} (first : Yields P 0 h run caught mid)
    (answered : ∀ a later, mid a later.disk → Yields P n later (next (.ok a)) failed last)
    (handled : ∀ e later, caught later.disk → Yields P n later (next (.error e)) failed last) :
    Yields P n h (outcome run >>= next) failed last :=
  (yields_both first answered handled).mono (fun _ => id) (by omega)

theorem yields_failing_as {f : ε → ε'} (yields : Yields P n h run failed done) :
    Yields P n h (failingAs f run) failed done := by
  have seen : Yields P (n + 0) h (failingAs f run) failed done :=
    yields_both yields (fun _ _ holds => yields_pure holds) fun _ _ holds => yields_throw holds
  exact seen

/-- A step that fails leaves the disk as it was, whether it was due to fail or could not be made. -/
theorem yields_step {change : Disk → Except OsError (α × Disk)} (here : P h.disk) (still : failed h.disk)
    (made : ∀ a d, change h.disk = .ok (a, d) → done a d) : Yields P 0 h (step change) failed done := by
  have passed (d : Disk) : Passed P 0 h { h with due := h.due.tail, history := h.disk :: h.history, disk := d } :=
    ⟨⟨[h.disk], rfl, by simpa using here⟩, [], rfl, Nat.le_refl 0⟩
  unfold Yields step
  simp only [ExceptT.run]
  split
  · exact ⟨passed h.disk, still⟩
  · split
    · exact ⟨passed h.disk, still⟩
    · rename_i a d changed
      exact ⟨passed d, made a d changed⟩

theorem yields_pause {done : Unit → Disk → Prop} (here : P h.disk) (still : failed h.disk)
    (holds : done () h.disk) : Yields P 0 h pause failed done := by
  refine yields_step here still fun a d changed => ?_
  cases changed
  exact holds

theorem yields_change {f : Disk → Disk} {done : Unit → Disk → Prop} (here : P h.disk)
    (holds : done () (f h.disk)) : Yields P 0 h (change f : HostM ε Unit) failed done :=
  ⟨⟨⟨[h.disk], rfl, by simpa using here⟩, [], rfl, Nat.le_refl 0⟩, holds⟩

theorem yields_ask {helper : Helper} {request : HelperRequest} {done : Unit → Disk → Prop}
    (serves : Yields P n { h with asked := request :: h.asked } (helper request) failed done) :
    Yields P (n + 1) h (ask helper request) failed done := by
  obtain ⟨⟨history, asked, requests, few⟩, holds⟩ := serves
  refine ⟨⟨history, asked ++ [request], ?_, ?_⟩, holds⟩
  · rw [List.append_assoc]
    exact requests
  · rw [List.length_append, List.length_singleton]
    omega

end Yields

section Quiet

variable {ε ε' α β : Type} {run : HostM ε α}

/-- The run asks no helper and starts no program. -/
def Quiet (run : HostM ε α) : Prop :=
  ∀ h, (run.run h).2.asked = h.asked ∧ (run.run h).2.started = h.started

theorem quiet_pure (a : α) : Quiet (pure a : HostM ε α) := fun _ => ⟨rfl, rfl⟩

theorem quiet_throw (e : ε) : Quiet (throw e : HostM ε α) := fun _ => ⟨rfl, rfl⟩

theorem quiet_get : Quiet (get : HostM ε Host) := fun _ => ⟨rfl, rfl⟩

theorem quiet_bind {next : α → HostM ε β} (first : Quiet run) (more : ∀ a, Quiet (next a)) :
    Quiet (run >>= next) := by
  intro h
  obtain ⟨asked, started⟩ := first h
  cases ran : run.run h with
  | mk answer between =>
    rw [ran] at asked started
    cases answer with
    | error e =>
      rw [Runs.bind_failed ran]
      exact ⟨asked, started⟩
    | ok a =>
      rw [Runs.bind_answered ran]
      exact ⟨(more a between).1.trans asked, (more a between).2.trans started⟩

theorem quiet_outcome (quiet : Quiet run) : Quiet (outcome run : HostM ε' (Except ε α)) := quiet

theorem quiet_handled {next : Except ε α → HostM ε' β} (quiet : Quiet run)
    (answered : ∀ a, Quiet (next (.ok a))) (handled : ∀ e, Quiet (next (.error e))) :
    Quiet (outcome run >>= next) := by
  refine quiet_bind (quiet_outcome quiet) fun answer => ?_
  cases answer with
  | ok a => exact answered a
  | error e => exact handled e

theorem quiet_failing_as {f : ε → ε'} (quiet : Quiet run) : Quiet (failingAs f run) :=
  quiet_handled quiet quiet_pure fun e => quiet_throw (f e)

theorem quiet_step (change : Disk → Except OsError (α × Disk)) : Quiet (step change) := by
  intro h
  unfold step
  simp only [ExceptT.run]
  split
  · exact ⟨rfl, rfl⟩
  · split <;> exact ⟨rfl, rfl⟩

theorem quiet_change (f : Disk → Disk) : Quiet (change f : HostM ε Unit) := fun _ => ⟨rfl, rfl⟩

end Quiet

end Host
end CrashTriage
