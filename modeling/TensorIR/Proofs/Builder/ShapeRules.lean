import TensorIR.Proofs.Builder.Acceptance
import TensorIR.Proofs.Builder.Allocation

/-!
# TensorIR.Proofs.Builder.ShapeRules

The rules of shape stand in two places, in operators and in verification, and both say the same.

* `Counterpart`: the request on given values that does what an operator does on values of its own.
* `counterpart_refused`: a shape for which an operator is refused is what verification finds wrong
  with the request, one lemma for each kind.
* `counterpart_wellTyped`: on values of the dimensions that an operator allocates, the request obeys
  its typing rule.
* `shape_rules_agree`: both, as outcomes of calls.
-/

namespace TensorIR

/-- The request on given values that an operator would make on values of its own: with its inputs and
parameters, and with any other operands. A destination of a `reshape` has the dimensions asked for,
and that of a normalisation the type of the input. -/
inductive Counterpart (env : TypeEnv) : Operator → Request → Prop
  | convolution {input dest filter bias : ValueId} {depth : Nat} {window : Window} :
    Counterpart env (.convolution input depth window)
      (.convolution dest input filter bias window depth)
  | pool {input dest cache : ValueId} {kind : PoolKind} {window : Window} :
    Counterpart env (.pool input kind window) (.pool dest input cache kind window)
  | fullyConnected {input dest weights bias : ValueId} {depth : Nat} :
    Counterpart env (.fullyConnected input depth) (.fullyConnected dest input weights bias depth)
  | reshape {input dest : ValueId} {dims : List Nat} (hdest : env.HasDims dest dims) :
    Counterpart env (.reshape input dims) (.reshape dest input dims)
  | transpose {input dest : ValueId} {shuffle : List Nat} :
    Counterpart env (.transpose input shuffle) (.transpose dest input shuffle)
  | concat {inputs : List ValueId} {dest : ValueId} {axis : Nat} (hne : inputs ≠ []) :
    Counterpart env (.concat inputs axis) (.concat dest inputs axis)
  | batchNormalization {input dest scale bias mean variance : ValueId} {channel : Nat}
    {epsilon momentum : Binary32} (hdest : env.SameType dest input) :
    Counterpart env (.batchNormalization input channel epsilon momentum)
      (.batchNormalization dest input scale bias mean variance channel epsilon momentum)

namespace Counterpart

variable {env : TypeEnv} {op : Operator} {r : Request}

theorem acceptsRoles (h : Counterpart env op r) :
    r.instruction.kind.AcceptsRoles r.instruction.roles := by
  refine r.acceptsRoles fun dest axis hnil => ?_
  cases h with
  | concat hne => exact hne (Request.concat.inj hnil).2.1
  | _ => cases hnil

end Counterpart

namespace Program

variable {p : Program} {config : Config} {e : ShapeError} {input dest : ValueId} {t : TensorType}

/-! ## Refusals -/

/-- If only a rule can refuse a computation for a shape, then it is the rule that did. -/
theorem rule_refused {α β : Type} {rule : Attempt ShapeError α} {f : α → Attempt ProgramError β}
    (hf : ∀ a, f a ≠ .error (.refused (.shape e)))
    (h : (rule.mapRefusal .shape >>= f) = .error (.refused (.shape e))) :
    rule = .error (.refused e) :=
  Operator.mapRefusal_shape_eq_error_iff (e := .refused e) |>.1 ((bind_eq_error_iff_left hf).1 h)

theorem ofFault_bind_ne_refused {α β : Type} (x : Except Fault α) (f : α → β) (cause : ProgramError) :
    (Attempt.ofFault x >>= fun a => pure (f a)) ≠ .error (.refused cause) := by
  cases x <;> nofun

/-- A rule on the dimensions of the source that refuses an operator refuses the request. -/
theorem sourceRule_refused {α : Type} {i : Instruction} {o : Operand}
    {rule : List Nat → Attempt ShapeError α} {f : TensorType → α → Attempt ProgramError Plan}
    {g : α → Attempt Violation Unit} (ho : i.operand? 1 = some o) (ht : p.typeOf? o.value = some t)
    (hf : ∀ a, f t a ≠ .error (.refused (.shape e)))
    (h : (do
      let t ← Operator.typeOf p o.value
      let a ← (rule t.dims).mapRefusal .shape
      f t a) = .error (.refused (.shape e))) :
    (do
      let source ← p.operandDims i 1
      let a ← shapeRule (rule source)
      g a) = .error (.refused (.shape e)) := by
  rw [Operator.typeOf_eq_ok.2 ht, ok_bind] at h
  rw [operandDims_eq ho (dims?_of_typeOf? ht), ok_bind, rule_refused hf h]
  rfl

theorem convolution_refused {filter bias : ValueId} {depth : Nat} {window : Window}
    (ht : p.typeOf? input = some t)
    (h : (Operator.convolution input depth window).plan config p = .error (.refused (.shape e))) :
    p.checkOperands (Request.convolution dest input filter bias window depth).instruction =
      .error (.refused (.shape e)) :=
  sourceRule_refused (o := .input input) rfl ht (fun _ => ofFault_bind_ne_refused _ _ _) h

theorem pool_refused {cache : ValueId} {kind : PoolKind} {window : Window}
    (ht : p.typeOf? input = some t)
    (h : (Operator.pool input kind window).plan config p = .error (.refused (.shape e))) :
    p.checkOperands (Request.pool dest input cache kind window).instruction =
      .error (.refused (.shape e)) :=
  sourceRule_refused (o := .input input) rfl ht (fun _ h => by cases h) h

theorem fullyConnected_refused {weights bias : ValueId} {depth : Nat}
    (ht : p.typeOf? input = some t)
    (h : (Operator.fullyConnected input depth).plan config p = .error (.refused (.shape e))) :
    p.checkOperands (Request.fullyConnected dest input weights bias depth).instruction =
      .error (.refused (.shape e)) :=
  sourceRule_refused (o := .input input) rfl ht (fun _ h => by cases h) h

theorem transpose_refused {shuffle : List Nat} (ht : p.typeOf? input = some t)
    (h : (Operator.transpose input shuffle).plan config p = .error (.refused (.shape e))) :
    p.checkOperands (Request.transpose dest input shuffle).instruction =
      .error (.refused (.shape e)) :=
  sourceRule_refused (o := .input input) rfl ht (fun _ h => by cases h) h

theorem reshape_refused {dims : List Nat} (ht : p.typeOf? input = some t)
    (hdest : p.dims? dest = some dims)
    (h : (Operator.reshape input dims).plan config p = .error (.refused (.shape e))) :
    p.checkOperands (Request.reshape dest input dims).instruction =
      .error (.refused (.shape e)) := by
  simp only [Operator.plan, Operator.typeOf_eq_ok.2 ht, ok_bind] at h
  have hrule := rule_refused (fun _ h => by cases h) h
  simp only [Request.instruction, Request.unary, checkOperands]
  rw [operandDims_eq (o := .input input) rfl (dims?_of_typeOf? ht), ok_bind,
    operandDims_eq (o := .output dest) rfl hdest, ok_bind, hrule]
  rfl

theorem concat_refused {inputs : List ValueId} {axis : Nat} (hne : inputs ≠ [])
    (ht : ∀ input ∈ inputs, ∃ t, p.typeOf? input = some t)
    (h : (Operator.concat inputs axis).plan config p = .error (.refused (.shape e))) :
    p.checkOperands (Request.concat dest inputs axis).instruction =
      .error (.refused (.shape e)) := by
  have htypes : ∀ input ∈ inputs, ∃ t, Operator.typeOf p input = .ok t ∧ True := by
    intro input hinput
    obtain ⟨t, ht⟩ := ht input hinput
    exact ⟨t, Operator.typeOf_eq_ok.2 ht, trivial⟩
  obtain ⟨sources, hsources, -⟩ := mapM_of_forall htypes
  obtain ⟨hlen, hall⟩ := mapM_eq_ok hsources
  have hdims (n : Nat) (dims : List Nat) (h : (sources.map (·.dims))[n]? = some dims) :
      ∃ v, inputs[n]? = some v ∧ p.dims? v = some dims := by
    rw [List.getElem?_map] at h
    obtain ⟨t, ht, rfl⟩ := Option.map_eq_some_iff.1 h
    obtain ⟨v, hv, htype⟩ := hall n t ht
    exact ⟨v, hv, dims?_of_typeOf? (Operator.typeOf_eq_ok.1 htype)⟩
  have hrule : Attempt.ofExcept (Shape.concatDims (sources.map (·.dims)) axis) =
      .error (.refused e) := by
    cases inputs with
    | nil => exact absurd rfl hne
    | cons first rest =>
      obtain ⟨t, ht⟩ := ht first List.mem_cons_self
      simp only [Operator.plan, Operator.typeOf_eq_ok.2 ht, hsources, ok_bind] at h
      exact rule_refused (fun _ h => by cases h) h
  rw [checkOperands_concat_eq (by rw [List.length_map, hlen]) hdims, hrule]
  rfl

theorem batchNormalization_refused {scale bias mean variance : ValueId} {channel : Nat}
    {epsilon momentum : Binary32} (ht : p.typeOf? input = some t) (hdest : p.typeOf? dest = some t)
    (h : (Operator.batchNormalization input channel epsilon momentum).plan config p =
      .error (.refused (.shape e))) :
    p.checkOperands (Request.batchNormalization dest input scale bias mean variance channel epsilon
      momentum).instruction = .error (.refused (.shape e)) := by
  simp only [Request.instruction, checkOperands]
  rw [requireSameType_eq (a := 0) (b := 1) rfl rfl hdest ht, ok_bind]
  exact sourceRule_refused (o := .input input) rfl ht (fun _ h => by cases h) h

/-- A shape for which an operator is refused is what verification finds wrong with the request. -/
theorem counterpart_refused (hp : p.WellFormed) {op : Operator} {r : Request}
    (hr : Counterpart p.typeEnv op r) (ho : p.HasOperands r.instruction)
    (h : op.plan config p = .error (.refused (.shape e))) :
    p.checkOperands r.instruction = .error (.refused (.shape e)) := by
  have hknown (o : Operand) (hmem : o ∈ r.instruction.operands) : ∃ t, p.typeOf? o.value = some t :=
    hp.typeOf?_of_lt (ho o hmem)
  cases hr with
  | @convolution input =>
    obtain ⟨t, ht⟩ := hknown (.input input) (by simp [Request.instruction])
    exact convolution_refused ht h
  | @pool input =>
    obtain ⟨t, ht⟩ := hknown (.input input) (by simp [Request.instruction])
    exact pool_refused ht h
  | @fullyConnected input =>
    obtain ⟨t, ht⟩ := hknown (.input input) (by simp [Request.instruction])
    exact fullyConnected_refused ht h
  | @reshape input dest dims hdest =>
    obtain ⟨t, ht⟩ := hknown (.input input) (by simp [Request.instruction, Request.unary])
    exact reshape_refused ht (dims?_of_hasDims hdest) h
  | @transpose input =>
    obtain ⟨t, ht⟩ := hknown (.input input) (by simp [Request.instruction, Request.unary])
    exact transpose_refused ht h
  | concat hne =>
    refine concat_refused hne (fun input hinput => ?_) h
    exact hknown (.input input) (List.mem_cons_of_mem _ (List.mem_map_of_mem hinput))
  | batchNormalization hdest =>
    obtain ⟨t, hdest, ht⟩ := hdest
    exact batchNormalization_refused ht hdest h

/-! ## Acceptance -/

/-- Operands with the dimensions of those that an operator allocates obey the typing rule. -/
theorem counterpart_wellTyped {q : Program} {op : Operator} {r s : Request}
    {ds : List Declaration} (hr : Counterpart p.typeEnv op r)
    (h : Allocates config p.typeEnv p.fresh op ds s) (hq : p.Gains q ds s.instruction)
    (hdims : ∀ n a b, r.instruction.operand? n = some a → s.instruction.operand? n = some b →
      p.dims? a.value = q.dims? b.value) :
    WellTyped p.typeEnv r.instruction := by
  -- The operand at place `n` has the dimensions of the `m`-th declared variable.
  have hlike (n m : Nat) {a : Operand} {d : Declaration}
      (ha : r.instruction.operand? n = some a)
      (hb : (s.instruction.operand? n).map (·.value) = some (p.fresh m)) (hd : ds[m]? = some d) :
      p.typeEnv.HasDims a.value d.type.dims := by
    obtain ⟨b, hb, hm⟩ := Option.map_eq_some_iff.1 hb
    rw [← dims?_eq_some_iff, hdims n a b ha hb, hm]
    exact dims?_of_typeOf? (hq.declared m d hd).1
  cases hr with
  | @convolution input dest filter bias =>
    cases h with
    | convolution hinput hheight hwidth =>
      exact .convolution hinput hheight hwidth (hlike 0 2 (a := .output dest) rfl rfl rfl)
        (hlike 2 0 (a := .input filter) rfl rfl rfl) (hlike 3 1 (a := .input bias) rfl rfl rfl)
  | @pool input dest cache =>
    cases h with
    | maxPool hinput hheight hwidth =>
      exact .maxPool hinput hheight hwidth (hlike 0 1 (a := .output dest) rfl rfl rfl)
        (hlike 2 0 (a := .inout cache) rfl rfl rfl)
    | avgPool hinput hheight hwidth =>
      exact .avgPool hinput hheight hwidth (hlike 0 1 (a := .output dest) rfl rfl rfl)
        (hlike 2 0 (a := .inout cache) rfl rfl rfl)
  | @fullyConnected input dest weights bias =>
    cases h with
    | fullyConnected hinput hinner =>
      exact .fullyConnected ⟨_, hinput⟩ hinner (hlike 0 2 (a := .output dest) rfl rfl rfl)
        (hlike 2 0 (a := .input weights) rfl rfl rfl) (hlike 3 1 (a := .input bias) rfl rfl rfl)
  | reshape hdest =>
    cases h with
    | reshape hinput hsource htarget => exact .reshape ⟨_, hinput⟩ hdest hsource htarget
  | @transpose input dest =>
    cases h with
    | transpose hinput hshuffle hplaces =>
      exact .transpose ⟨_, hinput⟩ (hlike 0 0 (a := .output dest) rfl rfl rfl) hshuffle hplaces
  | @concat inputs dest axis hne =>
    cases h with
    | concat hfirst hrest haxis hfits =>
      exact .concat hne (List.forall_mem_cons.2 ⟨⟨_, hfirst⟩, hrest⟩) haxis hfits
        (hlike 0 0 (a := .output dest) rfl rfl rfl)
  | @batchNormalization input dest scale bias mean variance _ _ _ hdest =>
    cases h with
    | batchNormalization hinput hchannels =>
      obtain ⟨t, hdest, ht⟩ := hdest
      cases hinput.symm.trans ht
      exact .batchNormalization hdest ht hchannels (hlike 2 1 (a := .input scale) rfl rfl rfl)
        (hlike 3 0 (a := .input bias) rfl rfl rfl) (hlike 4 2 (a := .inout mean) rfl rfl rfl)
        (hlike 5 3 (a := .inout variance) rfl rfl rfl)

theorem permit_of_wellTyped {r : Request} (ho : p.HasOperands r.instruction)
    (h : WellTyped p.typeEnv r.instruction)
    (hdest : ∀ placed ∈ p.instrs, r.dest ∉ placed.instr.outputs) (settings : Config) :
    p.permit settings r.instruction = .ok () := by
  have hadmits : p.admits r.instruction = .ok () := by
    rw [admits, verifyAs, check_of_wellTyped h, checkSingleWriter_of_unwritten r hdest]
    rfl
  rw [permit_of_hasOperands settings ho, hadmits]
  split <;> rfl

/-- Operators and verification have the same rules of shape. What an operator is refused for,
verification says of the request on other values, with the same text; and where the operator
succeeds, the request is accepted on all values of the dimensions that the operator allocates,
unless the destination is written already. -/
theorem shape_rules_agree (hp : p.Reachable) {op : Operator} {r : Request}
    (hr : Counterpart p.typeEnv op r) (ho : p.HasOperands r.instruction)
    (config settings : Config) :
    (∀ e : ShapeError, (p.perform ⟨config, .operator op⟩).1 = .error (.refused (.shape e)) →
      ∃ cause : Violation, cause.message = e.message ∧
        p.perform ⟨{ settings with verifyOnBuild := true }, .request r⟩ =
          (.error (.refused (.verification ⟨⟨p.instrs.length⟩, r.instruction.opcode, cause⟩)), p)) ∧
    ∀ (k : InstrId) (q : Program) (placed : Placed),
      p.perform ⟨config, .operator op⟩ = (.ok (.instr k), q) → q.instr? k = some placed →
      (∀ n a b, r.instruction.operand? n = some a → placed.instr.operand? n = some b →
        p.dims? a.value = q.dims? b.value) →
      (∀ other ∈ p.instrs, r.dest ∉ other.instr.outputs) →
      p.perform ⟨settings, .request r⟩ =
        (.ok (.instr ⟨p.instrs.length⟩), (p.append r.instruction).2) := by
  rw [perform_operator hp.wellFormed]
  constructor
  · intro e h
    cases hplan : op.plan config p with
    | ok plan => rw [hplan] at h; cases h
    | error cause =>
      rw [hplan] at h
      cases h
      have hcheck := counterpart_refused hp.wellFormed hr ho hplan
      refine ⟨.shape e, rfl, ?_⟩
      rw [perform_request, permit_of_hasOperands _ ho, if_pos rfl, admits, verifyAs, check,
        if_pos hr.acceptsRoles, hcheck]
      rfl
  · intro k q placed h hplaced hdims hdest
    cases hplan : op.plan config p with
    | error cause => rw [hplan] at h; cases h
    | ok plan =>
      rw [hplan] at h
      cases h
      have hgains := gains_carryOut p plan
      have hlast : placed.instr = plan.request.instruction := by
        rw [instr?, hgains.instrs, List.getElem?_concat_length] at hplaced
        cases hplaced
        rfl
      rw [hlast] at hdims
      have htyped := counterpart_wellTyped hr (Operator.plan_allocates hplan) hgains hdims
      rw [perform_request, permit_of_wellTyped ho htyped hdest]

/-- A convolution on a destination, a filter and a bias of the dimensions that the operator
allocates, and one whose window is wider than the image. -/
theorem shape_rules_agree_convolution :
    let p := ({} : Program).after [⟨{}, .declare ⟨.float32, [1, 5, 4, 3]⟩ {} "src"⟩,
      ⟨{}, .declare ⟨.int8, [1, 3, 2, 8]⟩ {} "dest"⟩,
      ⟨{}, .declare ⟨.float32, [8, 3, 3, 3]⟩ {} "filter"⟩,
      ⟨{}, .declare ⟨.float32, [8]⟩ {} "bias"⟩]
    let fits : Window := ⟨3, 2, 1⟩
    let wide : Window := ⟨5, 2, 1⟩
    let request (window : Window) : Request := .convolution ⟨1⟩ ⟨0⟩ ⟨2⟩ ⟨3⟩ window 8
    let q := (p.perform ⟨{}, .operator (.convolution ⟨0⟩ 8 fits)⟩).2
    let e : ShapeError := .kernelTooLarge "convolution" 5 5 4
    p.Reachable ∧ p.perform ⟨{}, .operator (.convolution ⟨0⟩ 8 fits)⟩ = (.ok (.instr ⟨0⟩), q) ∧
      p.perform ⟨{}, .request (request fits)⟩ =
        (.ok (.instr ⟨0⟩), (p.append (request fits).instruction).2) ∧
      (p.perform ⟨{}, .operator (.convolution ⟨0⟩ 8 wide)⟩).1 = .error (.refused (.shape e)) ∧
      ∃ cause : Violation, cause.message = e.message ∧ p.perform ⟨{}, .request (request wide)⟩ =
        (.error (.refused (.verification ⟨⟨0⟩, .convolution, cause⟩)), p) := by
  intro p fits wide request q e
  have hp : p.Reachable := ⟨_, rfl⟩
  have ho (window : Window) : p.HasOperands (request window).instruction := by
    show ∀ o ∈ [Operand.output ⟨1⟩, .input ⟨0⟩, .input ⟨2⟩, .input ⟨3⟩], o.value.index < 4
    decide
  have hfits : p.perform ⟨{}, .operator (.convolution ⟨0⟩ 8 fits)⟩ = (.ok (.instr ⟨0⟩), q) :=
    Prod.ext (by decide) rfl
  have hwide : (p.perform ⟨{}, .operator (.convolution ⟨0⟩ 8 wide)⟩).1 =
      .error (.refused (.shape e)) := by decide
  have hr (window : Window) :
      Counterpart p.typeEnv (.convolution ⟨0⟩ 8 window) (request window) := .convolution
  have hplaced : q.instr? ⟨0⟩ =
      some ⟨(Request.convolution ⟨6⟩ ⟨0⟩ ⟨4⟩ ⟨5⟩ fits 8).instruction, ⟨7⟩⟩ := by decide
  refine ⟨hp, hfits, (shape_rules_agree hp (hr fits) (ho fits) {} {}).2 ⟨0⟩ q _ hfits hplaced ?_ ?_,
    hwide, (shape_rules_agree hp (hr wide) (ho wide) {} {}).1 e hwide⟩
  · intro n a b ha hb
    match n with
    | 0 => cases ha; cases hb; decide
    | 1 => cases ha; cases hb; decide
    | 2 => cases ha; cases hb; decide
    | 3 => cases ha; cases hb; decide
    | n + 4 => cases ha
  · decide

end Program
end TensorIR
