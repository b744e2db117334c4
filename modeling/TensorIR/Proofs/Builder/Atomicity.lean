import TensorIR.Proofs.Builder.Run

/-!
# TensorIR.Proofs.Builder.Atomicity

Failing calls have no effect. What an operator declares before its instruction is never left behind
without it.

* `perform_of_error`: a call that fails leaves the program as it was.
* `trace_of_sublist`: some failing calls of a run may be left out.
* `failures_leave_no_trace`: both for every reachable program.
-/

namespace TensorIR
namespace Program

variable {p : Program} {c : Call} {e : Abort ProgramError}

theorem perform_of_error (hp : p.WellFormed) (h : (p.perform c).1 = .error e) :
    (p.perform c).2 = p := by
  rcases perform_cases hp c with ⟨cause, hc⟩ | ⟨created, q, hc, -⟩
  · rw [hc]
  · rw [hc] at h
    cases h

/-- A part of a run that holds all its successful calls has the outcomes of the run and ends in the
same program. -/
theorem trace_of_sublist (calls : List Call) :
    ∀ {p : Program} {kept : List (Call × Outcome)}, p.WellFormed → kept.Sublist (p.trace calls) →
      kept.filter (·.2.isOk) = (p.trace calls).filter (·.2.isOk) →
      p.trace (kept.map (·.1)) = kept ∧ p.after (kept.map (·.1)) = p.after calls := by
  induction calls with
  | nil =>
    intro p kept _ hsub _
    rw [trace_nil, List.sublist_nil] at hsub
    subst hsub
    exact ⟨rfl, rfl⟩
  | cons c calls ih =>
    intro p kept hp hsub hok
    rw [trace_cons] at hsub hok
    cases hsub with
    | cons _ hsub =>
      -- The first call is left out, so it has failed: the successes of the rest are too few.
      cases hc : (p.perform c).1 with
      | ok created =>
        have hlen := (hsub.filter (·.2.isOk)).length_le
        rw [hok, hc, List.filter_cons_of_pos rfl, List.length_cons] at hlen
        omega
      | error e =>
        rw [perform_of_error hp hc] at hsub hok
        rw [hc] at hok
        rw [after_cons, perform_of_error hp hc]
        exact ih hp hsub hok
    | cons_cons _ hsub =>
      have hrest := ih (hp.perform c) hsub ?_
      · rw [List.map_cons, trace_cons, after_cons, after_cons, hrest.1, hrest.2]
        exact ⟨rfl, rfl⟩
      · cases hc : (p.perform c).1 with
        | ok created =>
          rw [hc, List.filter_cons_of_pos rfl, List.filter_cons_of_pos rfl] at hok
          exact (List.cons.inj hok).2
        | error e =>
          rw [hc] at hok
          exact hok

/-- A call that fails leaves the program as it was. So failing calls may be left out of a run, any
of them or all: the other calls end as before, and the run ends in the same program. -/
theorem failures_leave_no_trace (hp : p.Reachable) :
    (∀ c e, (p.perform c).1 = .error e → (p.perform c).2 = p) ∧
    ∀ (calls : List Call) (kept : List (Call × Outcome)), kept.Sublist (p.trace calls) →
      kept.filter (·.2.isOk) = (p.trace calls).filter (·.2.isOk) →
      p.trace (kept.map (·.1)) = kept ∧ p.after (kept.map (·.1)) = p.after calls :=
  ⟨fun _ _ h => perform_of_error hp.wellFormed h,
    fun calls _ hsub hok => trace_of_sublist calls hp.wellFormed hsub hok⟩

theorem failures_leave_no_trace_concat :
    let a : Call := ⟨{}, .declare ⟨.float32, [2]⟩ {} "a"⟩
    let b : Call := ⟨{}, .operator (.tanh ⟨0⟩)⟩
    ({} : Program).trace [a, b] = [(a, .ok (.value ⟨0⟩)), (b, .ok (.instr ⟨0⟩))] ∧
      ({} : Program).after [a, b] =
        ({} : Program).after [a, ⟨{}, .operator (.concat [] 0)⟩, b] := by
  intro a b
  exact (failures_leave_no_trace ⟨[], rfl⟩).2 [a, ⟨{}, .operator (.concat [] 0)⟩, b]
    [(a, .ok (.value ⟨0⟩)), (b, .ok (.instr ⟨0⟩))] (by decide) (by decide)

end Program
end TensorIR
