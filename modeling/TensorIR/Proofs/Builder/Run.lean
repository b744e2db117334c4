import TensorIR.Builder.Session
import TensorIR.Proofs.Builder.Execution

/-!
# TensorIR.Proofs.Builder.Run

Runs of sessions. A run is a list of calls, each under settings of its own; calls may fail, and the
run goes on.

* `Program.perform`, `Program.after`, `Program.trace`: how one call ends, the program after a run,
  and the outcomes of its calls.
* `Program.Grows`: what a call that succeeds adds to a well-formed program.
* `perform_cases`: every other call changes nothing.
* `after_induction`: what growing preserves is preserved by runs.
* `exists_of_mem_trace`, `exists_call_of_after`: the single calls that the outcomes and the effects of
  a run come from.
* `Program.Reachable`: the programs that runs from the empty program end in. They are well-formed
  (`Reachable.wellFormed`).
-/

namespace TensorIR

theorem Build.map_run {α β : Type} (f : α → β) (m : Build α) (p : Program) :
    (f <$> m).run p =
      match m.run p with
      | .ok a q => .ok (f a) q
      | .error e q => .error e q := by
  rw [map_eq_pure_bind, EStateM.run_bind]
  cases m.run p <;> rfl

/-- A step, and the settings that are in force for it. -/
structure Call where
  config : Config
  step : Step
  deriving DecidableEq

/-- How a call ends. -/
abbrev Outcome := Except (Abort ProgramError) Created

namespace Program

variable {p q : Program} {c : Call} {config : Config}

def perform (p : Program) (c : Call) : Outcome × Program :=
  let (outcome, s) := Session.perform ⟨p, c.config⟩ c.step
  (outcome, s.program)

def after (p : Program) (calls : List Call) : Program :=
  calls.foldl (fun p c => (p.perform c).2) p

def trace : Program → List Call → List (Call × Outcome)
  | _, [] => []
  | p, c :: calls => (c, (p.perform c).1) :: (p.perform c).2.trace calls

@[simp] theorem after_cons (p : Program) (c : Call) (calls : List Call) :
    p.after (c :: calls) = (p.perform c).2.after calls := rfl

@[simp] theorem trace_nil (p : Program) : p.trace [] = [] := rfl

@[simp] theorem trace_cons (p : Program) (c : Call) (calls : List Call) :
    p.trace (c :: calls) = (c, (p.perform c).1) :: (p.perform c).2.trace calls := rfl

/-! ## One call -/

theorem perform_eq (p : Program) (c : Call) :
    p.perform c =
      match (c.step.build c.config).run p with
      | .ok created q => (.ok created, q)
      | .error e q => (.error e, q) := by
  unfold perform Session.perform
  dsimp only
  cases (c.step.build c.config).run p <;> rfl

theorem perform_declareOf (p : Program) (config : Config) (ref : TypeRef) (var : StaticVariable)
    (name : String) :
    p.perform ⟨config, .declareOf ref var name⟩ =
      match p.type? ref with
      | some t => (.ok (.value (p.fresh 0)), p.declareAs ⟨t, var, name⟩)
      | none => (.error (.refused (.unknownType ref)), p) := by
  rw [perform_eq, Step.build]
  cases ht : p.type? ref with
  | none =>
    have hrun : (Build.declareOf ref var name).run p = .error (.refused (.unknownType ref)) p := by
      simp only [Build.declareOf, EStateM.run_bind, EStateM.run_get, ht]
      rfl
    rw [Build.map_run, hrun]
  | some t =>
    have hrun := Build.declareOf_bind_run ht var name (fun id => pure (Created.value id))
    rw [map_eq_pure_bind, hrun]
    rfl

theorem perform_request (p : Program) (config : Config) (r : Request) :
    p.perform ⟨config, .request r⟩ =
      match p.permit config r.instruction with
      | .ok _ => (.ok (.instr ⟨p.instrs.length⟩), (p.append r.instruction).2)
      | .error e => (.error e, p) := by
  rw [perform_eq, Step.build, Build.map_run, Build.request, Build.append_run]
  cases p.permit config r.instruction <;> rfl

theorem perform_operator (hp : p.WellFormed) (config : Config) (op : Operator) :
    p.perform ⟨config, .operator op⟩ =
      match op.plan config p with
      | .ok plan => (.ok (.instr ⟨p.instrs.length⟩), plan.carryOut p)
      | .error e => (.error e, p) := by
  rw [perform_eq, Step.build, Build.map_run, Build.build_run hp]
  cases op.plan config p <;> rfl

/-- A call that succeeds, what it creates, and the program after it. -/
inductive Grows (p : Program) : Call → Created → Program → Prop
  | internType (config : Config) (t : TensorType) :
    Grows p ⟨config, .internType t⟩ (.type (p.internType t).1) (p.internType t).2
  | declare (config : Config) (d : Declaration) :
    Grows p ⟨config, .declare d.type d.var d.name⟩ (.value (p.fresh 0)) (p.declareAs d)
  | declareOf (config : Config) (ref : TypeRef) (d : Declaration)
    (h : p.type? ref = some d.type) :
    Grows p ⟨config, .declareOf ref d.var d.name⟩ (.value (p.fresh 0)) (p.declareAs d)
  | request (config : Config) (r : Request) (h : p.permit config r.instruction = .ok ()) :
    Grows p ⟨config, .request r⟩ (.instr ⟨p.instrs.length⟩) (p.append r.instruction).2
  | operator (config : Config) (op : Operator) (plan : Plan) (h : op.plan config p = .ok plan) :
    Grows p ⟨config, .operator op⟩ (.instr ⟨p.instrs.length⟩) (plan.carryOut p)

/-- A call fails and changes nothing, or it succeeds and the program grows. -/
theorem perform_cases (hp : p.WellFormed) (c : Call) :
    (∃ e, p.perform c = (.error e, p)) ∨
      ∃ created q, p.perform c = (.ok created, q) ∧ p.Grows c created q := by
  obtain ⟨config, step⟩ := c
  cases step with
  | internType t => exact .inr ⟨_, _, rfl, .internType config t⟩
  | declare t var name => exact .inr ⟨_, _, rfl, .declare config ⟨t, var, name⟩⟩
  | declareOf ref var name =>
    rw [perform_declareOf]
    cases ht : p.type? ref with
    | none => exact .inl ⟨_, rfl⟩
    | some t => exact .inr ⟨_, _, rfl, .declareOf config ref ⟨t, var, name⟩ ht⟩
  | request r =>
    rw [perform_request]
    cases h : p.permit config r.instruction with
    | error e => exact .inl ⟨e, rfl⟩
    | ok _ => exact .inr ⟨_, _, rfl, .request config r h⟩
  | operator op =>
    rw [perform_operator hp]
    cases h : op.plan config p with
    | error e => exact .inl ⟨e, rfl⟩
    | ok plan => exact .inr ⟨_, _, rfl, .operator config op plan h⟩

namespace Grows

variable {created : Created}

theorem larger (h : p.Grows c created q) : p.Extends q := by
  cases h with
  | internType config t => exact extends_internType p t
  | declare config d => exact extends_declareAs p d
  | declareOf config ref d h => exact extends_declareAs p d
  | request config r h => exact extends_append p r.instruction
  | operator config op plan h => exact (extends_declareAll _ p).trans (extends_append _ _)

theorem wellFormed (h : p.Grows c created q) (hp : p.WellFormed) : q.WellFormed := by
  cases h with
  | internType config t => exact hp.internType t
  | declare config d => exact hp.declareAs d
  | declareOf config ref d h => exact hp.declareAs d
  | request config r h => exact hp.append r.singleOutput (hasOperands_of_permit h)
  | operator config op plan h =>
    have hpermit := Operator.permit_plan hp h config
    exact (WellFormed.declareAll _ hp).append plan.request.singleOutput
      (hasOperands_of_permit hpermit)

end Grows

theorem extends_perform (hp : p.WellFormed) (c : Call) : p.Extends (p.perform c).2 := by
  rcases perform_cases hp c with ⟨e, h⟩ | ⟨created, q, h, hgrows⟩
  · rw [h]
    exact .refl p
  · rw [h]
    exact hgrows.larger

theorem WellFormed.perform (hp : p.WellFormed) (c : Call) : (p.perform c).2.WellFormed := by
  rcases perform_cases hp c with ⟨e, h⟩ | ⟨created, q, h, hgrows⟩
  · rw [h]
    exact hp
  · rw [h]
    exact hgrows.wellFormed hp

/-! ## Runs -/

theorem WellFormed.after (calls : List Call) :
    ∀ {p : Program}, p.WellFormed → (p.after calls).WellFormed := by
  induction calls with
  | nil => intro p hp; exact hp
  | cons c calls ih => intro p hp; exact ih (hp.perform c)

theorem extends_after (calls : List Call) :
    ∀ {p : Program}, p.WellFormed → p.Extends (p.after calls) := by
  induction calls with
  | nil => intro p _; exact .refl p
  | cons c calls ih => intro p hp; exact (extends_perform hp c).trans (ih (hp.perform c))

/-- A run from the empty program ends in `p`. -/
def Reachable (p : Program) : Prop := ∃ calls, ({} : Program).after calls = p

theorem Reachable.wellFormed (h : p.Reachable) : p.WellFormed := by
  obtain ⟨calls, rfl⟩ := h
  exact WellFormed.empty.after calls

theorem Reachable.after (h : p.Reachable) (calls : List Call) : (p.after calls).Reachable := by
  obtain ⟨earlier, rfl⟩ := h
  exact ⟨earlier ++ calls, List.foldl_append⟩

/-- What growing preserves is preserved by runs. -/
theorem after_induction {motive : Program → Prop}
    (hgrows : ∀ {p c created q}, p.WellFormed → motive p → p.Grows c created q → motive q)
    (calls : List Call) : ∀ {p : Program}, p.WellFormed → motive p → motive (p.after calls) := by
  induction calls with
  | nil => intro p _ h; exact h
  | cons c calls ih =>
    intro p hp h
    have hnext : motive (p.perform c).2 := by
      rcases perform_cases hp c with ⟨e, hc⟩ | ⟨created, q, hc, hq⟩
      · rw [hc]
        exact h
      · rw [hc]
        exact hgrows hp h hq
    exact ih (hp.perform c) hnext

theorem mem_calls_of_mem_trace {outcome : Outcome} (calls : List Call) :
    ∀ {p : Program}, (c, outcome) ∈ p.trace calls → c ∈ calls := by
  induction calls with
  | nil => intro p h; cases h
  | cons first calls ih =>
    intro p h
    rcases List.mem_cons.1 h with h | h
    · exact List.mem_cons.2 (.inl (Prod.mk.inj h).1)
    · exact List.mem_cons_of_mem _ (ih h)

/-- An outcome of a run is that of a call on some program, which the run extends. -/
theorem exists_of_mem_trace {outcome : Outcome} (calls : List Call) :
    ∀ {p : Program}, p.WellFormed → (c, outcome) ∈ p.trace calls →
      ∃ q : Program, q.WellFormed ∧ (q.perform c).1 = outcome ∧
        (q.perform c).2.Extends (p.after calls) := by
  induction calls with
  | nil => intro p _ h; cases h
  | cons first calls ih =>
    intro p hp h
    rcases List.mem_cons.1 h with h | h
    · cases h
      exact ⟨p, hp, rfl, extends_after calls (hp.perform c)⟩
    · exact ih (hp.perform first) h

/-- What holds after a run and did not hold before it was brought about by one of the calls. -/
theorem exists_call_of_after {P : Program → Prop} (calls : List Call) :
    ∀ {p : Program}, p.WellFormed → P (p.after calls) →
      P p ∨ ∃ (q : Program) (c : Call), q.WellFormed ∧ (c, (q.perform c).1) ∈ p.trace calls ∧
        ¬ P q ∧ P (q.perform c).2 ∧ (q.perform c).2.Extends (p.after calls) := by
  induction calls with
  | nil => intro p _ h; exact .inl h
  | cons first calls ih =>
    intro p hp h
    by_cases hbefore : P p
    · exact .inl hbefore
    · rcases ih (hp.perform first) h with hnext | ⟨q, c, hq, hmem, hrest⟩
      · exact .inr ⟨p, first, hp, List.mem_cons_self, hbefore, hnext,
          extends_after calls (hp.perform first)⟩
      · exact .inr ⟨q, c, hq, List.mem_cons_of_mem _ hmem, hrest⟩

end Program
end TensorIR
