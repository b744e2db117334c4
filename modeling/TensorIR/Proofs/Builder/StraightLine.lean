import TensorIR.Proofs.Builder.Run

/-!
# TensorIR.Proofs.Builder.StraightLine

Programs whose instructions all come from operators can be executed in program order: every value is
written at one place of the program, and met only after that place.

* `Program.Mentions`, `Program.Writes`, `Program.Reads`: what an operand does to its value.
* `Program.StraightLine`: a written value is scratch, and no other operand up to the instruction
  that writes it has the value. An instruction that writes only scratch of its own keeps this
  (`StraightLine.append`).
* `Plan.WritesOwn`, `plan_writesOwn`: operators write only what they have declared for the purpose,
  one case for each operator.
* `operators_write_in_order`: the same for runs in which only operators append instructions.
-/

namespace TensorIR
namespace Program

variable {p q : Program} {i : Instruction} {j k : InstrId} {m n : Nat} {v : ValueId}

/-! ## Occurrences of values -/

/-- Operand `n` of instruction `k`. -/
def operandAt? (p : Program) (k : InstrId) (n : Nat) : Option Operand :=
  (p.instr? k).bind (·.instr.operand? n)

def Mentions (p : Program) (k : InstrId) (n : Nat) (v : ValueId) : Prop :=
  ∃ role, p.operandAt? k n = some ⟨role, v⟩

def Writes (p : Program) (k : InstrId) (n : Nat) (v : ValueId) : Prop :=
  ∃ role, p.operandAt? k n = some ⟨role, v⟩ ∧ role.writes = true

def Reads (p : Program) (k : InstrId) (n : Nat) (v : ValueId) : Prop :=
  ∃ role, p.operandAt? k n = some ⟨role, v⟩ ∧ role.reads = true

theorem Writes.mentions (h : p.Writes k n v) : p.Mentions k n v := by
  obtain ⟨role, ho, -⟩ := h
  exact ⟨role, ho⟩

theorem Reads.mentions (h : p.Reads k n v) : p.Mentions k n v := by
  obtain ⟨role, ho, -⟩ := h
  exact ⟨role, ho⟩

theorem operandAt?_eq_inout (hwrites : p.Writes k n v) (hreads : p.Reads k n v) :
    p.operandAt? k n = some (.inout v) := by
  obtain ⟨role, ho, hw⟩ := hwrites
  obtain ⟨role', ho', hr⟩ := hreads
  rw [ho] at ho'
  cases ho'
  cases role with
  | inout => exact ho
  | input => cases hw
  | output => cases hr

theorem operandAt?_of_instrs_eq (h : q.instrs = p.instrs) (k : InstrId) (n : Nat) :
    q.operandAt? k n = p.operandAt? k n := by
  simp only [operandAt?, instr?, h]

/-- An operand of the longer program is an operand of the shorter one or of the instruction that was
added. -/
theorem operandAt?_append {o : Operand} (h : (p.append i).2.operandAt? k n = some o) :
    p.operandAt? k n = some o ∨ k = ⟨p.instrs.length⟩ ∧ i.operand? n = some o := by
  obtain ⟨placed, hplaced, ho⟩ := Option.bind_eq_some_iff.1 h
  rcases getElem?_concat hplaced with hplaced | ⟨hk, rfl⟩
  · exact .inl (Option.bind_eq_some_iff.2 ⟨placed, hplaced, ho⟩)
  · exact .inr ⟨congrArg InstrId.mk hk, ho⟩

theorem Mentions.lt_instrs (h : p.Mentions k n v) : k.index < p.instrs.length := by
  obtain ⟨role, ho⟩ := h
  obtain ⟨placed, hplaced, -⟩ := Option.bind_eq_some_iff.1 ho
  exact lt_of_instr? hplaced

theorem Mentions.lt_values (hp : p.WellFormed) (h : p.Mentions k n v) :
    v.index < p.values.length := by
  obtain ⟨role, ho⟩ := h
  obtain ⟨placed, hplaced, ho⟩ := Option.bind_eq_some_iff.1 ho
  exact hp.hasOperands hplaced _ (List.mem_of_getElem? ho)

/-! ## Straight-line programs -/

/-- The value is a static variable that holds an activation. -/
def IsScratch (p : Program) (v : ValueId) : Prop :=
  ∃ value var, p.value? v = some value ∧ value.origin = .declared var ∧ var.sharing = .activation

theorem IsScratch.mono (h : p.IsScratch v) (hq : p.Extends q) : q.IsScratch v := by
  obtain ⟨value, var, hv, hvar⟩ := h
  exact ⟨value, var, hq.value? hv, hvar⟩

/-- Only scratch is written, and all other operands with a written value belong to later
instructions. -/
structure StraightLine (p : Program) : Prop where
  scratch : ∀ {k n v}, p.Writes k n v → p.IsScratch v
  order : ∀ {j k m n v}, p.Writes k n v → p.Mentions j m v → k.index < j.index ∨ j = k ∧ m = n

namespace StraightLine

theorem empty : StraightLine {} := by
  have hnone : ∀ k n, ({} : Program).operandAt? k n = none := by simp [operandAt?, instr?]
  constructor
  · rintro k n v ⟨role, ho, -⟩
    rw [hnone] at ho
    cases ho
  · rintro j k m n v ⟨role, ho, -⟩ -
    rw [hnone] at ho
    cases ho

/-- Declarations of variables do not matter. -/
theorem of_instrs_eq (h : p.StraightLine) (hq : p.Extends q) (hinstrs : q.instrs = p.instrs) :
    q.StraightLine := by
  have hsame := operandAt?_of_instrs_eq hinstrs
  constructor
  · rintro k n v ⟨role, ho, hwrites⟩
    exact (h.scratch ⟨role, hsame k n ▸ ho, hwrites⟩).mono hq
  · rintro j k m n v ⟨role, ho, hwrites⟩ ⟨role', ho'⟩
    exact h.order ⟨role, hsame k n ▸ ho, hwrites⟩ ⟨role', hsame j m ▸ ho'⟩

/-- The first write of a value is the only one. -/
theorem writes_unique (h : p.StraightLine) (hj : p.Writes j m v) (hk : p.Writes k n v) :
    j = k ∧ m = n := by
  rcases h.order hk hj.mentions with hlt | heq
  · rcases h.order hj hk.mentions with hgt | ⟨rfl, rfl⟩
    · omega
    · exact ⟨rfl, rfl⟩
  · exact heq

/-- A value that is read has been written before, or the operand that reads it writes it too. -/
theorem written_before (h : p.StraightLine) (hwrites : p.Writes j m v) (hreads : p.Reads k n v) :
    (∃ j m, p.Writes j m v ∧ j.index < k.index) ∨ p.operandAt? k n = some (.inout v) := by
  rcases h.order hwrites hreads.mentions with hlt | ⟨rfl, rfl⟩
  · exact .inl ⟨j, m, hwrites, hlt⟩
  · exact .inr (operandAt?_eq_inout hwrites hreads)

end StraightLine

/-- No written value of the operands occurs among them again. -/
def Apart (operands : List Operand) : Prop :=
  operands.Pairwise fun a b => a.role.writes = true ∨ b.role.writes = true → a.value ≠ b.value

theorem Apart.index_eq (h : Apart i.operands) {a b : Operand} (ha : i.operand? n = some a)
    (hb : i.operand? m = some b) (hwrites : a.role.writes = true) (hv : b.value = a.value) :
    m = n := by
  obtain ⟨hn, rfl⟩ := List.getElem?_eq_some_iff.1 ha
  obtain ⟨hm, rfl⟩ := List.getElem?_eq_some_iff.1 hb
  rcases Nat.lt_trichotomy m n with hlt | heq | hgt
  · exact absurd hv (List.pairwise_iff_getElem.1 h m n hm hn hlt (.inr hwrites))
  · exact heq
  · exact absurd hv.symm (List.pairwise_iff_getElem.1 h n m hn hm hgt (.inl hwrites))

/-- An instruction may be added that writes scratch which the program does not mention yet. -/
theorem StraightLine.append (h : p.StraightLine)
    (hnew : ∀ o ∈ i.operands, o.role.writes = true →
      p.IsScratch o.value ∧ ∀ j m, ¬ p.Mentions j m o.value)
    (hapart : Apart i.operands) : (p.append i).2.StraightLine := by
  constructor
  · rintro k n v ⟨role, ho, hwrites⟩
    rcases operandAt?_append ho with ho | ⟨-, ho⟩
    · exact (h.scratch ⟨role, ho, hwrites⟩).mono (extends_append p i)
    · exact (hnew _ (List.mem_of_getElem? ho) hwrites).1.mono (extends_append p i)
  · rintro j k m n v ⟨role, ho, hwrites⟩ ⟨role', ho'⟩
    rcases operandAt?_append ho with hold | ⟨hk, hadded⟩
    · rcases operandAt?_append ho' with hold' | ⟨hj, -⟩
      · exact h.order ⟨role, hold, hwrites⟩ ⟨role', hold'⟩
      · rw [hj]
        exact .inl (Mentions.lt_instrs ⟨role, hold⟩)
    · rcases operandAt?_append ho' with hold' | ⟨hj, hadded'⟩
      · have hunknown := (hnew _ (List.mem_of_getElem? hadded) hwrites).2
        exact absurd ⟨role', hold'⟩ (hunknown j m)
      · exact .inr ⟨hj.trans hk.symm, hapart.index_eq hadded hadded' hwrites rfl⟩

end Program

/-! ## What operators write -/

open Program

/-- The value is an activation that the plan declares. -/
def Plan.Owns (p : Program) (plan : Plan) (v : ValueId) : Prop :=
  ∃ n d, plan.declarations[n]? = some d ∧ d.var.sharing = .activation ∧ v = p.fresh n

/-- The instruction of the plan writes activations that the plan declares, each at one operand and
without another use of it. -/
structure Plan.WritesOwn (p : Program) (plan : Plan) : Prop where
  own : ∀ o ∈ plan.request.instruction.operands, o.role.writes = true → plan.Owns p o.value
  apart : Apart plan.request.instruction.operands

namespace Operator

variable {p : Program} {config : Config} {plan : Plan} {input : ValueId}

theorem owns_fresh (n : Nat) {d : Declaration} (hd : plan.declarations[n]? = some d)
    (hvar : d.var.sharing = .activation) : plan.Owns p (p.fresh n) :=
  ⟨n, d, hd, hvar, rfl⟩

/-- Inputs are not written. -/
theorem owns_input {v : ValueId} (h : (Operand.input v).role.writes = true) : plan.Owns p v := by
  cases h

theorem fresh_inj {m n : Nat} : p.fresh m = p.fresh n ↔ m = n := by
  simp [fresh]

theorem ne_fresh_of_lt {v : ValueId} (h : v.index < p.values.length) (n : Nat) :
    v ≠ p.fresh n := by
  rintro rfl
  exact absurd h (Nat.not_lt.2 (Nat.le_add_right _ _))

theorem ne_fresh_of_typeOf {v : ValueId} {t : TensorType} (h : typeOf p v = .ok t) (n : Nat) :
    v ≠ p.fresh n :=
  ne_fresh_of_lt (lt_of_typeOf? (typeOf_eq_ok.1 h)) n

theorem apart_inputs (vs : List ValueId) : Apart (vs.map .input) := by
  simp [Apart, List.pairwise_map, Operand.input, Role.writes, List.pairwise_of_forall]

theorem into_writesOwn {t : TensorType} {request : ValueId → Request} (inputs : List ValueId)
    (hops : (request (p.fresh 0)).instruction.operands =
      .output (p.fresh 0) :: inputs.map .input)
    (hold : ∀ v ∈ inputs, ∃ u, typeOf p v = .ok u) : (into p t request).WritesOwn p := by
  have hops : (into p t request).request.instruction.operands = _ := hops
  constructor
  · rw [hops, List.forall_mem_cons]
    refine ⟨fun _ => owns_fresh 0 rfl rfl, fun o ho hwrites => ?_⟩
    obtain ⟨v, -, rfl⟩ := List.mem_map.1 ho
    exact owns_input hwrites
  · rw [hops]
    refine List.pairwise_cons.2 ⟨fun o ho _ => ?_, apart_inputs inputs⟩
    obtain ⟨v, hv, rfl⟩ := List.mem_map.1 ho
    obtain ⟨u, hu⟩ := hold v hv
    exact (ne_fresh_of_typeOf hu 0).symm

theorem elementwise_writesOwn {make : ValueId → ValueId → Request}
    (hmake : ∀ dest src, (make dest src).instruction.operands = [.output dest, .input src])
    (h : (do return into p (← typeOf p input) (make · input)) = .ok plan) : plan.WritesOwn p := by
  obtain ⟨t, ht, h⟩ := bind_eq_ok.1 h
  cases h
  exact into_writesOwn [input] (hmake _ _) (by simpa using ⟨t, ht⟩)

theorem pool_writesOwn {kind : PoolKind} {window : Window}
    (h : (pool input kind window).plan config p = .ok plan) : plan.WritesOwn p := by
  obtain ⟨t, ht, h⟩ := bind_eq_ok.1 h
  obtain ⟨⟨image, out⟩, -, h⟩ := bind_eq_ok.1 h
  cases h
  have hne := ne_fresh_of_typeOf ht
  constructor
  · simp only [Request.instruction, List.forall_mem_cons]
    exact ⟨fun _ => owns_fresh 1 rfl rfl, owns_input, fun _ => owns_fresh 0 rfl rfl,
      List.forall_mem_nil _⟩
  · simp [Apart, Request.instruction, Operand.input, Operand.output, Operand.inout, Role.writes,
      fresh_inj, hne, (hne _).symm]

theorem convolution_writesOwn {depth : Nat} {window : Window}
    (h : (convolution input depth window).plan config p = .ok plan) : plan.WritesOwn p := by
  obtain ⟨t, ht, h⟩ := bind_eq_ok.1 h
  obtain ⟨⟨image, out⟩, -, h⟩ := bind_eq_ok.1 h
  obtain ⟨fanIn, -, h⟩ := bind_eq_ok.1 h
  cases h
  have hne := ne_fresh_of_typeOf ht
  constructor
  · simp only [Request.instruction, List.forall_mem_cons]
    exact ⟨fun _ => owns_fresh 2 rfl rfl, owns_input, owns_input, owns_input,
      List.forall_mem_nil _⟩
  · simp [Apart, Request.instruction, Operand.input, Operand.output, Role.writes, fresh_inj,
      (hne _).symm]

theorem fullyConnected_writesOwn {depth : Nat}
    (h : (fullyConnected input depth).plan config p = .ok plan) : plan.WritesOwn p := by
  obtain ⟨t, ht, h⟩ := bind_eq_ok.1 h
  obtain ⟨⟨batch, inner⟩, -, h⟩ := bind_eq_ok.1 h
  cases h
  have hne := ne_fresh_of_typeOf ht
  constructor
  · simp only [Request.instruction, List.forall_mem_cons]
    exact ⟨fun _ => owns_fresh 2 rfl rfl, owns_input, owns_input, owns_input,
      List.forall_mem_nil _⟩
  · simp [Apart, Request.instruction, Operand.input, Operand.output, Role.writes, fresh_inj,
      (hne _).symm]

theorem softmax_writesOwn {selected : ValueId}
    (h : (softmax input selected).plan config p = .ok plan) : plan.WritesOwn p := by
  obtain ⟨u, hu, h⟩ := bind_eq_ok.1 h
  obtain ⟨t, ht, h⟩ := bind_eq_ok.1 h
  cases h
  have hinput := ne_fresh_of_typeOf ht
  have hselected := ne_fresh_of_typeOf hu
  constructor
  · simp only [Request.instruction, List.forall_mem_cons]
    exact ⟨fun _ => owns_fresh 0 rfl rfl, owns_input, fun _ => owns_fresh 1 rfl rfl, owns_input,
      List.forall_mem_nil _⟩
  · simp [Apart, Request.instruction, Operand.input, Operand.output, Operand.inout, Role.writes,
      fresh_inj, hinput, (hinput _).symm, (hselected _).symm]

theorem batchNormalization_writesOwn {channel : Nat} {epsilon momentum : Binary32}
    (h : (batchNormalization input channel epsilon momentum).plan config p = .ok plan) :
    plan.WritesOwn p := by
  obtain ⟨t, ht, h⟩ := bind_eq_ok.1 h
  obtain ⟨channels, -, h⟩ := bind_eq_ok.1 h
  cases h
  have hne := ne_fresh_of_typeOf ht
  constructor
  · simp only [Request.instruction, List.forall_mem_cons]
    exact ⟨fun _ => owns_fresh 4 rfl rfl, owns_input, owns_input, owns_input,
      fun _ => owns_fresh 2 rfl rfl, fun _ => owns_fresh 3 rfl rfl, List.forall_mem_nil _⟩
  · simp [Apart, Request.instruction, Operand.input, Operand.output, Operand.inout, Role.writes,
      fresh_inj, hne, (hne _).symm]

theorem plan_writesOwn {op : Operator} (h : op.plan config p = .ok plan) : plan.WritesOwn p := by
  cases op with
  | convolution input depth window => exact convolution_writesOwn h
  | pool input kind window => exact pool_writesOwn h
  | fullyConnected input depth => exact fullyConnected_writesOwn h
  | relu input => exact elementwise_writesOwn (fun _ _ => rfl) h
  | sigmoid input => exact elementwise_writesOwn (fun _ _ => rfl) h
  | tanh input => exact elementwise_writesOwn (fun _ _ => rfl) h
  | softmax input selected => exact softmax_writesOwn h
  | regression input expected =>
    obtain ⟨u, hu, h⟩ := bind_eq_ok.1 h
    obtain ⟨t, ht, h⟩ := bind_eq_ok.1 h
    cases h
    exact into_writesOwn [input, expected] rfl (by simpa using ⟨⟨t, ht⟩, u, hu⟩)
  | reshape input dims =>
    obtain ⟨t, ht, h⟩ := bind_eq_ok.1 h
    obtain ⟨_, -, h⟩ := bind_eq_ok.1 h
    cases h
    exact into_writesOwn [input] rfl (by simpa using ⟨t, ht⟩)
  | transpose input shuffle =>
    obtain ⟨t, ht, h⟩ := bind_eq_ok.1 h
    obtain ⟨dims, -, h⟩ := bind_eq_ok.1 h
    cases h
    exact into_writesOwn [input] rfl (by simpa using ⟨t, ht⟩)
  | concat inputs axis =>
    cases inputs with
    | nil => cases h
    | cons first rest =>
      obtain ⟨t, -, h⟩ := bind_eq_ok.1 h
      obtain ⟨sources, hsources, h⟩ := bind_eq_ok.1 h
      obtain ⟨dims, -, h⟩ := bind_eq_ok.1 h
      cases h
      exact into_writesOwn (first :: rest) rfl fun v hv => exists_eq_ok_of_mapM hsources hv
  | batchNormalization input channel epsilon momentum => exact batchNormalization_writesOwn h
  | arithmetic lhs rhs kind =>
    obtain ⟨t, ht, h⟩ := bind_eq_ok.1 h
    obtain ⟨u, hu, h⟩ := bind_eq_ok.1 h
    by_cases heq : t = u
    · rw [if_pos heq] at h
      cases h
      exact into_writesOwn [lhs, rhs] rfl (by simpa using ⟨⟨t, ht⟩, u, hu⟩)
    · rw [if_neg heq] at h
      cases h

end Operator

namespace Program

variable {p q : Program} {i : Instruction} {j k : InstrId} {m n : Nat} {v : ValueId}

/-- What a plan declares is scratch by then, and no instruction has heard of it. -/
theorem StraightLine.carryOut (hp : p.WellFormed) (h : p.StraightLine) {plan : Plan}
    (hplan : plan.WritesOwn p) : (plan.carryOut p).StraightLine := by
  have hlarger : p.Extends (p.declareAll plan.declarations) := extends_declareAll _ p
  have hinstrs := instrs_declareAll plan.declarations p
  refine (h.of_instrs_eq hlarger hinstrs).append (fun o ho hwrites => ?_) hplan.apart
  obtain ⟨n, d, hd, hvar, hv⟩ := hplan.own o ho hwrites
  rw [hv]
  constructor
  · obtain ⟨value, hvalue, horigin, -⟩ := value?_fresh plan.declarations p n d hd
    exact ⟨value, d.var, hvalue, horigin, hvar⟩
  · rintro j m ⟨role, hmentions⟩
    rw [operandAt?_of_instrs_eq hinstrs] at hmentions
    have hlt := Mentions.lt_values hp ⟨role, hmentions⟩
    exact Operator.ne_fresh_of_lt hlt n rfl

/-! ## Runs -/

/-- Every instruction that a run appends comes from an operator. -/
def OperatorsOnly (entries : List (Call × Outcome)) : Prop :=
  ∀ entry ∈ entries, ∀ id, entry.2 = .ok (.instr id) → ∃ op, entry.1.step = .operator op

theorem StraightLine.of_grows {c : Call} {created : Created} (hp : p.WellFormed)
    (h : p.StraightLine) (hgrows : p.Grows c created q)
    (hop : ∀ id, created = .instr id → ∃ op, c.step = .operator op) : q.StraightLine := by
  have hlarger := hgrows.larger
  cases hgrows with
  | internType config t => exact h.of_instrs_eq hlarger rfl
  | declare config d => exact h.of_instrs_eq hlarger rfl
  | declareOf config ref d _ => exact h.of_instrs_eq hlarger rfl
  | request config r _ =>
    obtain ⟨op, hop⟩ := hop _ rfl
    cases hop
  | operator config op plan hplan => exact h.carryOut hp (Operator.plan_writesOwn hplan)

theorem StraightLine.after (calls : List Call) :
    ∀ {p : Program}, p.WellFormed → p.StraightLine → OperatorsOnly (p.trace calls) →
      (p.after calls).StraightLine := by
  induction calls with
  | nil => intro p _ h _; exact h
  | cons c calls ih =>
    intro p hp h hops
    have hnext : (p.perform c).2.StraightLine := by
      rcases perform_cases hp c with ⟨e, hc⟩ | ⟨created, q, hc, hgrows⟩
      · rw [hc]
        exact h
      · rw [hc]
        refine h.of_grows hp hgrows fun id hid => ?_
        exact hops (c, (p.perform c).1) List.mem_cons_self id (by rw [hc, hid])
    exact ih (hp.perform c) hnext fun entry hmem => hops entry (List.mem_cons_of_mem _ hmem)

/-- After a run in which all instructions come from operators

* every value is written at no more than one operand of the program;
* what is written is a static variable that holds an activation, and no weight and no result;
* no other operand of the same instruction and no operand of an earlier one has a written value;
* so what an instruction reads is never written, or written by an earlier instruction, or it is a
  cache that this very operand updates. -/
theorem operators_write_in_order (calls : List Call)
    (hops : OperatorsOnly (({} : Program).trace calls)) :
    let p := ({} : Program).after calls
    (∀ j k m n v, p.Writes j m v → p.Writes k n v → j = k ∧ m = n) ∧
    (∀ k n v, p.Writes k n v → ∃ value var, p.value? v = some value ∧
      value.origin = .declared var ∧ var.sharing = .activation) ∧
    (∀ j k m n v, p.Writes k n v → p.Mentions j m v → k.index < j.index ∨ j = k ∧ m = n) ∧
    ∀ k n v, p.Reads k n v → (∀ j m, ¬ p.Writes j m v) ∨
      (∃ j m, p.Writes j m v ∧ j.index < k.index) ∨ p.operandAt? k n = some (.inout v) := by
  intro p
  have hp : p.StraightLine := StraightLine.empty.after calls .empty hops
  refine ⟨fun j k m n v => hp.writes_unique, fun k n v => hp.scratch,
    fun j k m n v => hp.order, fun k n v hreads => ?_⟩
  by_cases hwritten : ∃ j m, p.Writes j m v
  · obtain ⟨j, m, hwrites⟩ := hwritten
    exact .inr (hp.written_before hwrites hreads)
  · exact .inl fun j m hwrites => hwritten ⟨j, m, hwrites⟩

/-- A convolution, and then a pool of its output and the sum of its output with itself; a request
that fails stands between them. -/
theorem operators_write_in_order_pooled :
    let calls : List Call := [⟨{}, .declare ⟨.float32, [1, 3, 3, 1]⟩ {} "x"⟩,
      ⟨{}, .operator (.convolution ⟨0⟩ 1 ⟨2, 1, 0⟩)⟩, ⟨{}, .request (.relu ⟨3⟩ ⟨99⟩)⟩,
      ⟨{}, .operator (.pool ⟨3⟩ .avg ⟨1, 1, 0⟩)⟩, ⟨{}, .operator (.arithmetic ⟨3⟩ ⟨3⟩ .add)⟩]
    let p := ({} : Program).after calls
    OperatorsOnly (({} : Program).trace calls) ∧ p.Writes ⟨0⟩ 0 ⟨3⟩ ∧ p.Mentions ⟨2⟩ 2 ⟨3⟩ ∧
      ∀ j m, p.Writes j m ⟨3⟩ → j = ⟨0⟩ ∧ m = 0 := by
  intro calls p
  have htrace : ({} : Program).trace calls = [(calls[0], .ok (.value ⟨0⟩)),
      (calls[1], .ok (.instr ⟨0⟩)), (calls[2], .error (.refused (.unknownValue ⟨99⟩))),
      (calls[3], .ok (.instr ⟨1⟩)), (calls[4], .ok (.instr ⟨2⟩))] := by decide
  have hops : OperatorsOnly (({} : Program).trace calls) := by
    rw [htrace]
    simp [OperatorsOnly, calls]
  have hwrites : p.Writes ⟨0⟩ 0 ⟨3⟩ := ⟨.output, by decide, rfl⟩
  refine ⟨hops, hwrites, ⟨.input, by decide⟩, fun j m h => ?_⟩
  exact (operators_write_in_order calls hops).1 j ⟨0⟩ m 0 ⟨3⟩ h hwrites

/-- A pool reads the cache that it writes itself. -/
theorem pool_reads_own_cache :
    let calls : List Call := [⟨{}, .declare ⟨.float32, [1, 2, 2, 1]⟩ {} "x"⟩,
      ⟨{}, .operator (.pool ⟨0⟩ .max ⟨1, 1, 0⟩)⟩]
    let p := ({} : Program).after calls
    OperatorsOnly (({} : Program).trace calls) ∧ p.Reads ⟨0⟩ 2 ⟨1⟩ ∧
      ¬ ((∀ j m, ¬ p.Writes j m ⟨1⟩) ∨ ∃ j m, p.Writes j m ⟨1⟩ ∧ j.index < 0) := by
  intro calls p
  have htrace : ({} : Program).trace calls =
      [(calls[0], .ok (.value ⟨0⟩)), (calls[1], .ok (.instr ⟨0⟩))] := by decide
  refine ⟨by rw [htrace]; simp [OperatorsOnly, calls], ⟨.inout, by decide, rfl⟩, ?_⟩
  rintro (hnone | ⟨j, m, -, hlt⟩)
  · exact hnone ⟨0⟩ 2 ⟨.inout, by decide, rfl⟩
  · exact Nat.not_lt_zero _ hlt

end Program
end TensorIR
