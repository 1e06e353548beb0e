import CrashTriage.Host

/-
Runs that keep a state and can fail: a run made of two goes on from what the first one left, one that
answered was answered by both, and one that failed by one of them.
-/
namespace CrashTriage
namespace Runs

variable {ε σ α β : Type} {run : ExceptT ε (StateM σ) α} {next : α → ExceptT ε (StateM σ) β}
variable {s later : σ}

theorem bind_answered {a : α} (first : run.run s = (.ok a, later)) :
    (run >>= next).run s = (next a).run later := by
  have here : run s = (.ok a, later) := first
  simp only [ExceptT.run, bind, ExceptT.bind, ExceptT.mk, StateT.bind, here]
  rfl

theorem bind_failed {e : ε} (first : run.run s = (.error e, later)) :
    (run >>= next).run s = (.error e, later) := by
  have here : run s = (.error e, later) := first
  simp only [ExceptT.run, bind, ExceptT.bind, ExceptT.mk, StateT.bind, here]
  rfl

theorem answered_bind {b : β} (both : (run >>= next).run s = (.ok b, later)) :
    ∃ a between, run.run s = (.ok a, between) ∧ (next a).run between = (.ok b, later) := by
  cases first : run.run s with
  | mk answer between =>
    cases answer with
    | error e =>
      rw [bind_failed first] at both
      cases both
    | ok a => exact ⟨a, between, rfl, (bind_answered first).symm.trans both⟩

theorem failed_bind {e : ε} (both : (run >>= next).run s = (.error e, later)) :
    run.run s = (.error e, later) ∨
      ∃ a between, run.run s = (.ok a, between) ∧ (next a).run between = (.error e, later) := by
  cases first : run.run s with
  | mk answer between =>
    cases answer with
    | error e =>
      rw [bind_failed first] at both
      cases both
      exact .inl rfl
    | ok a => exact .inr ⟨a, between, rfl, (bind_answered first).symm.trans both⟩

theorem run_lift (answer : Except ε α) (s : σ) :
    (liftM answer : ExceptT ε (StateM σ) α).run s = (answer, s) := by
  cases answer <;> rfl

theorem run_get (s : σ) : (get : ExceptT ε (StateM σ) σ).run s = (.ok s, s) := rfl

end Runs
end CrashTriage
