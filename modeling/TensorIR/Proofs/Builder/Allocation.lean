import TensorIR.Proofs.Builder.Run
import TensorIR.Proofs.Program.Typing

/-!
# TensorIR.Proofs.Builder.Allocation

What operators ask for and what they add, stated on types and unbounded numbers.

* `Allocates`: one rule for each operator. The premises are what is asked of the inputs; the rest is
  the variables that are declared, in their order, and the request on them.
* `plan_allocates`, `plan_of_allocates`: an operator has a plan exactly if its rule applies, and the
  plan is that of the rule.
* `Program.Gains`: the program after a plan, value by value.
* `operator_postcondition`: an operator succeeds exactly if its rule applies, and the program gains
  what the rule says.
-/

namespace TensorIR

/-- What an operator adds to a program: the variables that it declares and the request on them, where
`fresh n` is the `n`-th new value. There is one rule for each operator, and one for each kind of
pool; its premises are what the operator asks of its inputs. -/
inductive Allocates (config : Config) (env : TypeEnv) (fresh : Nat → ValueId) :
    Operator → List Declaration → Request → Prop
  | convolution {input : ValueId} {window : Window} {depth n h w c : Nat}
    (hinput : env.HasDims input [n, h, w, c])
    (hheight : window.Applies h) (hwidth : window.Applies w)
    (hsquare : window.kernel * window.kernel < Size.limit)
    (hfanIn : window.kernel * window.kernel * c < Size.limit) :
    Allocates config env fresh (.convolution input depth window)
      [⟨⟨.float32, [depth, window.kernel, window.kernel, c]⟩,
          ⟨.xavier, .weight, .ofNat (window.kernel * window.kernel * c)⟩, "filter"⟩,
        ⟨⟨.float32, [depth]⟩, ⟨.broadcast, .weight, config.biasFill⟩, "bias"⟩,
        { type := ⟨.float32, [n, window.places h, window.places w, depth]⟩ }]
      (.convolution (fresh 2) input (fresh 0) (fresh 1) window depth)
  | maxPool {input : ValueId} {window : Window} {n h w c : Nat}
    (hinput : env.HasDims input [n, h, w, c])
    (hheight : window.Applies h) (hwidth : window.Applies w) :
    Allocates config env fresh (.pool input .max window)
      [{ type := ⟨.index, [n, window.places h, window.places w, c, 2]⟩, name := "srcXY" },
        { type := ⟨.float32, [n, window.places h, window.places w, c]⟩ }]
      (.pool (fresh 1) input (fresh 0) .max window)
  | avgPool {input : ValueId} {window : Window} {n h w c : Nat}
    (hinput : env.HasDims input [n, h, w, c])
    (hheight : window.Applies h) (hwidth : window.Applies w) :
    Allocates config env fresh (.pool input .avg window)
      [{ type := ⟨.index, []⟩, name := "srcXY" },
        { type := ⟨.float32, [n, window.places h, window.places w, c]⟩ }]
      (.pool (fresh 1) input (fresh 0) .avg window)
  | fullyConnected {input : ValueId} {kind : ElemKind} {depth batch inner : Nat} {rest : List Nat}
    (hinput : env input = some ⟨kind, batch :: rest⟩) (hinner : Shape.Counts rest inner) :
    Allocates config env fresh (.fullyConnected input depth)
      [⟨⟨kind, [depth, inner]⟩, ⟨.xavier, .weight, .ofNat inner⟩, "weights"⟩,
        ⟨⟨kind, [depth]⟩, ⟨.broadcast, .weight, config.biasFill⟩, "bias"⟩,
        { type := ⟨kind, [batch, depth]⟩ }]
      (.fullyConnected (fresh 2) input (fresh 0) (fresh 1) depth)
  | relu {input : ValueId} {t : TensorType} (hinput : env input = some t) :
    Allocates config env fresh (.relu input) [{ type := t }] (.relu (fresh 0) input)
  | sigmoid {input : ValueId} {t : TensorType} (hinput : env input = some t) :
    Allocates config env fresh (.sigmoid input) [{ type := t }] (.sigmoid (fresh 0) input)
  | tanh {input : ValueId} {t : TensorType} (hinput : env input = some t) :
    Allocates config env fresh (.tanh input) [{ type := t }] (.tanh (fresh 0) input)
  | softmax {input selected : ValueId} {t u : TensorType} (hinput : env input = some t)
    (hselected : env selected = some u) :
    Allocates config env fresh (.softmax input selected)
      [{ type := t }, { type := t, name := "expected" }]
      (.softmax (fresh 0) input (fresh 1) selected)
  | regression {input expected : ValueId} {t u : TensorType} (hinput : env input = some t)
    (hexpected : env expected = some u) :
    Allocates config env fresh (.regression input expected) [{ type := t }]
      (.regression (fresh 0) input expected)
  | reshape {input : ValueId} {kind : ElemKind} {source dims : List Nat} {count : Nat}
    (hinput : env input = some ⟨kind, source⟩)
    (hsource : Shape.Counts source count) (hdims : Shape.Counts dims count) :
    Allocates config env fresh (.reshape input dims) [{ type := ⟨kind, dims⟩ }]
      (.reshape (fresh 0) input dims)
  | transpose {input : ValueId} {kind : ElemKind} {source shuffle target : List Nat}
    (hinput : env input = some ⟨kind, source⟩)
    (hshuffle : shuffle.Perm (List.range source.length))
    (hplaces : ∀ place : Nat, target[place]? = shuffle[place]?.bind (source[·]?)) :
    Allocates config env fresh (.transpose input shuffle) [{ type := ⟨kind, target⟩ }]
      (.transpose (fresh 0) input shuffle)
  | concat {first : ValueId} {rest : List ValueId} {kind : ElemKind} {source : List Nat}
    {axis extent : Nat} (hfirst : env first = some ⟨kind, source⟩)
    (hrest : ∀ input ∈ rest, env.HasDims input source) (haxis : source[axis]? = some extent)
    (hfits : extent * (first :: rest).length < Size.limit) :
    Allocates config env fresh (.concat (first :: rest) axis)
      [{ type := ⟨kind, source.set axis (extent * (first :: rest).length)⟩ }]
      (.concat (fresh 0) (first :: rest) axis)
  | batchNormalization {input : ValueId} {t : TensorType} {channel channels : Nat}
    {epsilon momentum : Binary32} (hinput : env input = some t)
    (hchannels : t.dims[channel]? = some channels) :
    Allocates config env fresh (.batchNormalization input channel epsilon momentum)
      [⟨⟨.float32, [channels]⟩, ⟨.broadcast, .weight, config.betaFill⟩, "beta"⟩,
        ⟨⟨.float32, [channels]⟩, ⟨.broadcast, .weight, config.gammaFill⟩, "gamma"⟩,
        { type := ⟨.float32, [channels]⟩, name := "mean" },
        { type := ⟨.float32, [channels]⟩, name := "variance" },
        { type := t }]
      (.batchNormalization (fresh 4) input (fresh 1) (fresh 0) (fresh 2) (fresh 3) channel
        epsilon momentum)
  | arithmetic {lhs rhs : ValueId} {kind : ArithmeticKind} {t : TensorType}
    (hlhs : env lhs = some t) (hrhs : env rhs = some t) :
    Allocates config env fresh (.arithmetic lhs rhs kind) [{ type := t }]
      (.arithmetic (fresh 0) lhs rhs kind)

namespace Operator

open Program

variable {p : Program} {config : Config} {plan : Plan} {input : ValueId}

theorem hasDims_of_typeOf {t : TensorType} (h : typeOf p input = .ok t) :
    p.typeEnv.HasDims input t.dims :=
  ⟨t.kind, typeOf_eq_ok.1 h⟩

/-- Inputs that are found to have the same dimensions. -/
theorem hasDims_of_mapM {inputs : List ValueId} {sources : List TensorType} {source : List Nat}
    (h : inputs.mapM (typeOf p) = .ok sources)
    (hsame : ∀ dims ∈ sources.map (·.dims), dims = source) :
    sources.length = inputs.length ∧ ∀ input ∈ inputs, p.typeEnv.HasDims input source := by
  refine ⟨(mapM_eq_ok h).1, fun input hinput => ?_⟩
  obtain ⟨t, ht, htype⟩ := exists_mem_of_mapM h hinput
  exact ⟨t.kind, hsame t.dims (List.mem_map_of_mem ht) ▸ typeOf_eq_ok.1 htype⟩

/-- Inputs of the same dimensions are found to have them. -/
theorem exists_mapM_of_hasDims {inputs : List ValueId} {source : List Nat}
    (h : ∀ input ∈ inputs, p.typeEnv.HasDims input source) :
    ∃ sources, inputs.mapM (typeOf p) = .ok sources ∧
      sources.map (·.dims) = List.replicate inputs.length source := by
  have hinputs : ∀ input ∈ inputs, ∃ t, typeOf p input = .ok t ∧ t.dims = source := by
    intro input hinput
    obtain ⟨kind, ht⟩ := h input hinput
    exact ⟨_, typeOf_eq_ok.2 ht, rfl⟩
  obtain ⟨sources, hsources, hsame⟩ := mapM_of_forall hinputs
  refine ⟨sources, hsources, List.eq_replicate_iff.2 ⟨?_, fun dims hdims => ?_⟩⟩
  · rw [List.length_map, (mapM_eq_ok hsources).1]
  · obtain ⟨t, ht, rfl⟩ := List.mem_map.1 hdims
    exact hsame t ht

/-! ## A plan obeys the rule -/

theorem convolution_allocates {depth : Nat} {window : Window}
    (h : (convolution input depth window).plan config p = .ok plan) :
    Allocates config p.typeEnv p.fresh (convolution input depth window) plan.declarations
      plan.request := by
  obtain ⟨t, ht, h⟩ := bind_eq_ok.1 h
  obtain ⟨⟨image, out⟩, hslide, h⟩ := bind_eq_ok.1 h
  obtain ⟨fanIn, hfanIn, h⟩ := bind_eq_ok.1 h
  cases h
  obtain ⟨hdims, hheight, hwidth, rfl⟩ :=
    Window.slide_eq_ok_iff.1 (Attempt.mapRefusal_eq_ok.1 hslide)
  obtain ⟨square, hsquare, hfanIn⟩ := bind_eq_ok.1 (Attempt.ofFault_eq_ok.1 hfanIn)
  obtain ⟨rfl, hsquare⟩ := Size.mul_eq_ok_iff.1 hsquare
  obtain ⟨rfl, hfanIn⟩ := Size.mul_eq_ok_iff.1 hfanIn
  have hinput : p.typeEnv.HasDims input image.dims := hdims ▸ hasDims_of_typeOf ht
  exact .convolution hinput hheight hwidth hsquare hfanIn

theorem pool_allocates {kind : PoolKind} {window : Window}
    (h : (pool input kind window).plan config p = .ok plan) :
    Allocates config p.typeEnv p.fresh (pool input kind window) plan.declarations
      plan.request := by
  obtain ⟨t, ht, h⟩ := bind_eq_ok.1 h
  obtain ⟨⟨image, out⟩, hslide, h⟩ := bind_eq_ok.1 h
  cases h
  obtain ⟨hdims, hheight, hwidth, rfl⟩ :=
    Window.slide_eq_ok_iff.1 (Attempt.mapRefusal_eq_ok.1 hslide)
  have hinput : p.typeEnv.HasDims input image.dims := hdims ▸ hasDims_of_typeOf ht
  cases kind with
  | max => exact .maxPool hinput hheight hwidth
  | avg => exact .avgPool hinput hheight hwidth

theorem fullyConnected_allocates {depth : Nat}
    (h : (fullyConnected input depth).plan config p = .ok plan) :
    Allocates config p.typeEnv p.fresh (fullyConnected input depth) plan.declarations
      plan.request := by
  obtain ⟨⟨kind, dims⟩, ht, h⟩ := bind_eq_ok.1 h
  obtain ⟨⟨batch, inner⟩, hflat, h⟩ := bind_eq_ok.1 h
  cases h
  obtain ⟨rest, rfl, hinner⟩ :=
    Shape.flattenTail_eq_ok_iff.1 (Attempt.mapRefusal_ofExcept_eq_ok.1 hflat)
  exact .fullyConnected (typeOf_eq_ok.1 ht) hinner

theorem concat_allocates {inputs : List ValueId} {axis : Nat}
    (h : (concat inputs axis).plan config p = .ok plan) :
    Allocates config p.typeEnv p.fresh (concat inputs axis) plan.declarations plan.request := by
  cases inputs with
  | nil => cases h
  | cons first rest =>
    obtain ⟨⟨kind, dims⟩, ht, h⟩ := bind_eq_ok.1 h
    obtain ⟨sources, hsources, h⟩ := bind_eq_ok.1 h
    obtain ⟨target, htarget, h⟩ := bind_eq_ok.1 h
    cases h
    obtain ⟨source, extent, -, hsame, haxis, hfits, rfl⟩ :=
      Shape.concatDims_eq_ok_iff.1 (Attempt.mapRefusal_ofExcept_eq_ok.1 htarget)
    obtain ⟨hlen, hinputs⟩ := hasDims_of_mapM hsources hsame
    rw [List.length_map, hlen] at hfits ⊢
    obtain ⟨hfirst, hrest⟩ := List.forall_mem_cons.1 hinputs
    obtain ⟨kind', hfirst⟩ := hfirst
    cases (typeOf_eq_ok.1 ht).symm.trans hfirst
    exact .concat hfirst hrest haxis hfits

theorem plan_allocates {op : Operator} (h : op.plan config p = .ok plan) :
    Allocates config p.typeEnv p.fresh op plan.declarations plan.request := by
  cases op with
  | convolution input depth window => exact convolution_allocates h
  | pool input kind window => exact pool_allocates h
  | fullyConnected input depth => exact fullyConnected_allocates h
  | relu input =>
    obtain ⟨t, ht, h⟩ := bind_eq_ok.1 h
    cases h
    exact .relu (typeOf_eq_ok.1 ht)
  | sigmoid input =>
    obtain ⟨t, ht, h⟩ := bind_eq_ok.1 h
    cases h
    exact .sigmoid (typeOf_eq_ok.1 ht)
  | tanh input =>
    obtain ⟨t, ht, h⟩ := bind_eq_ok.1 h
    cases h
    exact .tanh (typeOf_eq_ok.1 ht)
  | softmax input selected =>
    obtain ⟨u, hu, h⟩ := bind_eq_ok.1 h
    obtain ⟨t, ht, h⟩ := bind_eq_ok.1 h
    cases h
    exact .softmax (typeOf_eq_ok.1 ht) (typeOf_eq_ok.1 hu)
  | regression input expected =>
    obtain ⟨u, hu, h⟩ := bind_eq_ok.1 h
    obtain ⟨t, ht, h⟩ := bind_eq_ok.1 h
    cases h
    exact .regression (typeOf_eq_ok.1 ht) (typeOf_eq_ok.1 hu)
  | reshape input dims =>
    obtain ⟨⟨kind, source⟩, ht, h⟩ := bind_eq_ok.1 h
    obtain ⟨_, hcount, h⟩ := bind_eq_ok.1 h
    cases h
    obtain ⟨count, hsource, hdims⟩ :=
      Shape.checkReshape_eq_ok_iff.1 (Attempt.mapRefusal_ofExcept_eq_ok.1 hcount)
    exact .reshape (typeOf_eq_ok.1 ht) hsource hdims
  | transpose input shuffle =>
    obtain ⟨⟨kind, source⟩, ht, h⟩ := bind_eq_ok.1 h
    obtain ⟨target, htarget, h⟩ := bind_eq_ok.1 h
    cases h
    obtain ⟨hshuffle, hplaces⟩ :=
      Shape.transposeDims_eq_ok_iff.1 (Attempt.mapRefusal_ofExcept_eq_ok.1 htarget)
    exact .transpose (typeOf_eq_ok.1 ht) hshuffle hplaces
  | concat inputs axis => exact concat_allocates h
  | batchNormalization input channel epsilon momentum =>
    obtain ⟨t, ht, h⟩ := bind_eq_ok.1 h
    obtain ⟨channels, hchannels, h⟩ := bind_eq_ok.1 h
    cases h
    exact .batchNormalization (typeOf_eq_ok.1 ht)
      (Shape.channelCount_eq_ok_iff.1 (Attempt.mapRefusal_ofExcept_eq_ok.1 hchannels))
  | arithmetic lhs rhs kind =>
    obtain ⟨t, ht, h⟩ := bind_eq_ok.1 h
    obtain ⟨u, hu, h⟩ := bind_eq_ok.1 h
    by_cases heq : t = u
    · subst heq
      rw [if_pos rfl] at h
      cases h
      exact .arithmetic (typeOf_eq_ok.1 ht) (typeOf_eq_ok.1 hu)
    · rw [if_neg heq] at h
      cases h

/-! ## The rule gives the plan -/

theorem concat_planned {first : ValueId} {rest : List ValueId} {kind : ElemKind}
    {source : List Nat} {axis extent : Nat} (hfirst : p.typeEnv first = some ⟨kind, source⟩)
    (hrest : ∀ input ∈ rest, p.typeEnv.HasDims input source) (haxis : source[axis]? = some extent)
    (hfits : extent * (first :: rest).length < Size.limit) :
    (concat (first :: rest) axis).plan config p =
      .ok (into p ⟨kind, source.set axis (extent * (first :: rest).length)⟩
        (.concat · (first :: rest) axis)) := by
  obtain ⟨sources, hsources, hdims⟩ := exists_mapM_of_hasDims
    (List.forall_mem_cons.2 ⟨⟨kind, hfirst⟩, hrest⟩)
  have htarget : Shape.concatDims (sources.map (·.dims)) axis =
      .ok (source.set axis (extent * (first :: rest).length)) := by
    rw [hdims, Shape.concatDims_of_same (by simp) (fun _ => List.eq_of_mem_replicate) haxis,
      List.length_replicate, if_pos hfits]
  simp only [plan, typeOf_eq_ok.2 hfirst, ok_bind, hsources, htarget, Attempt.ofExcept_ok,
    Attempt.mapRefusal_ok]
  rfl

theorem plan_of_allocates {op : Operator} {ds : List Declaration} {r : Request}
    (h : Allocates config p.typeEnv p.fresh op ds r) : op.plan config p = .ok ⟨ds, r⟩ := by
  cases h with
  | @convolution input window depth n h w c hinput hheight hwidth hsquare hfanIn =>
    obtain ⟨kind, hinput⟩ := hinput
    have hslide : window.slide Opcode.convolution.name [n, h, w, c] = _ :=
      Window.slide_of_applies hheight hwidth
    have hsquare := Size.mul_eq_ok_iff.2 ⟨rfl, hsquare⟩
    have hfanIn := Size.mul_eq_ok_iff.2 ⟨rfl, hfanIn⟩
    simp only [plan, typeOf_eq_ok.2 hinput, ok_bind, hslide, Attempt.mapRefusal_ok, hsquare, hfanIn,
      Attempt.ofFault_ok]
    rfl
  | @maxPool input window n h w c hinput hheight hwidth =>
    obtain ⟨kind, hinput⟩ := hinput
    have hslide : window.slide Opcode.pool.name [n, h, w, c] = _ :=
      Window.slide_of_applies hheight hwidth
    simp only [plan, typeOf_eq_ok.2 hinput, ok_bind, hslide, Attempt.mapRefusal_ok]
    rfl
  | @avgPool input window n h w c hinput hheight hwidth =>
    obtain ⟨kind, hinput⟩ := hinput
    have hslide : window.slide Opcode.pool.name [n, h, w, c] = _ :=
      Window.slide_of_applies hheight hwidth
    simp only [plan, typeOf_eq_ok.2 hinput, ok_bind, hslide, Attempt.mapRefusal_ok]
    rfl
  | @fullyConnected input kind depth batch inner rest hinput hinner =>
    have hflat : Shape.flattenTail Opcode.fullyConnected.name (batch :: rest) = .ok (batch, inner) :=
      Shape.flattenTail_eq_ok_iff.2 ⟨rest, rfl, hinner⟩
    simp only [plan, typeOf_eq_ok.2 hinput, ok_bind, hflat, Attempt.ofExcept_ok,
      Attempt.mapRefusal_ok]
    rfl
  | relu hinput => simp only [plan, typeOf_eq_ok.2 hinput, ok_bind]; rfl
  | sigmoid hinput => simp only [plan, typeOf_eq_ok.2 hinput, ok_bind]; rfl
  | tanh hinput => simp only [plan, typeOf_eq_ok.2 hinput, ok_bind]; rfl
  | softmax hinput hselected =>
    simp only [plan, typeOf_eq_ok.2 hinput, typeOf_eq_ok.2 hselected, ok_bind]
    rfl
  | regression hinput hexpected =>
    simp only [plan, typeOf_eq_ok.2 hinput, typeOf_eq_ok.2 hexpected, ok_bind]
    rfl
  | reshape hinput hsource hdims =>
    have hcount := Shape.checkReshape_eq_ok_iff.2 ⟨_, hsource, hdims⟩
    simp only [plan, typeOf_eq_ok.2 hinput, ok_bind, hcount, Attempt.ofExcept_ok,
      Attempt.mapRefusal_ok]
    rfl
  | transpose hinput hshuffle hplaces =>
    have htarget := Shape.transposeDims_eq_ok_iff.2 ⟨hshuffle, hplaces⟩
    simp only [plan, typeOf_eq_ok.2 hinput, ok_bind, htarget, Attempt.ofExcept_ok,
      Attempt.mapRefusal_ok]
    rfl
  | concat hfirst hrest haxis hfits => exact concat_planned hfirst hrest haxis hfits
  | batchNormalization hinput hchannels =>
    have hcount := Shape.channelCount_eq_ok_iff.2 hchannels
    simp only [plan, typeOf_eq_ok.2 hinput, ok_bind, hcount, Attempt.ofExcept_ok,
      Attempt.mapRefusal_ok]
    rfl
  | arithmetic hlhs hrhs =>
    simp only [plan, typeOf_eq_ok.2 hlhs, typeOf_eq_ok.2 hrhs, ok_bind, if_pos]
    rfl

end Operator

/-! ## What a program gains -/

namespace Program

/-- The program `q` is `p` with the variables `ds`, then the result of an instruction `i`, and with
that instruction at the end. -/
structure Gains (p q : Program) (ds : List Declaration) (i : Instruction) : Prop where
  larger : p.Extends q
  size : q.values.length = p.values.length + ds.length + 1
  instrs : q.instrs = p.instrs ++ [⟨i, p.fresh ds.length⟩]
  declared : ∀ n d, ds[n]? = some d → q.typeOf? (p.fresh n) = some d.type ∧
    ∃ v, q.value? (p.fresh n) = some v ∧ v.origin = .declared d.var ∧
      v.name = if d.name = "" then none else some d.name
  result : ∃ v, q.value? (p.fresh ds.length) = some v ∧ v.origin = .result ⟨p.instrs.length⟩

theorem gains_carryOut (p : Program) (plan : Plan) :
    p.Gains (plan.carryOut p) plan.declarations plan.request.instruction := by
  have hdeclared := extends_declareAll plan.declarations p
  have happended := extends_append (p.declareAll plan.declarations) plan.request.instruction
  refine ⟨hdeclared.trans happended, ?_, ?_, fun n d hd => ?_, ?_⟩
  · simp [Plan.carryOut, append]
  · simp [Plan.carryOut, append, fresh]
  · obtain ⟨v, hv, hvar⟩ := value?_fresh plan.declarations p n d hd
    have ht := typeOf?_fresh plan.declarations p n d hd
    exact ⟨happended.typeOf? ht, v, happended.value? hv, hvar⟩
  · simp [Plan.carryOut, append, value?, fresh]

variable {p : Program}

/-- An operator succeeds exactly if its rule applies to the types of the values. It then appends one
instruction, and the program gains the variables and the request of the rule and nothing else. -/
theorem operator_postcondition (hp : p.Reachable) (config : Config) (op : Operator) :
    ((∃ created q, p.perform ⟨config, .operator op⟩ = (.ok created, q)) ↔
      ∃ ds r, Allocates config p.typeEnv p.fresh op ds r) ∧
    ∀ created q, p.perform ⟨config, .operator op⟩ = (.ok created, q) →
      created = .instr ⟨p.instrs.length⟩ ∧
      ∃ ds r, Allocates config p.typeEnv p.fresh op ds r ∧ p.Gains q ds r.instruction := by
  rw [perform_operator hp.wellFormed]
  constructor
  · constructor
    · rintro ⟨created, q, h⟩
      cases hplan : op.plan config p with
      | error e => rw [hplan] at h; cases h
      | ok plan => exact ⟨_, _, Operator.plan_allocates hplan⟩
    · rintro ⟨ds, r, h⟩
      rw [Operator.plan_of_allocates h]
      exact ⟨_, _, rfl⟩
  · intro created q h
    cases hplan : op.plan config p with
    | error e => rw [hplan] at h; cases h
    | ok plan =>
      rw [hplan] at h
      cases h
      exact ⟨rfl, _, _, Operator.plan_allocates hplan, gains_carryOut p plan⟩

/-- A padded convolution that moves by two places, and a pool whose window is wider than the image. -/
theorem operator_postcondition_convolution :
    let p := ({} : Program).after [⟨{}, .declare ⟨.float32, [1, 5, 4, 3]⟩ {} "x"⟩]
    let conv : Operator := .convolution ⟨0⟩ 8 ⟨3, 2, 1⟩
    let pool : Operator := .pool ⟨0⟩ .max ⟨5, 1, 0⟩
    let q := (p.perform ⟨{}, .operator conv⟩).2
    p.Reachable ∧ p.perform ⟨{}, .operator conv⟩ = (.ok (.instr ⟨0⟩), q) ∧
      (∃ ds r, Allocates {} p.typeEnv p.fresh conv ds r ∧ p.Gains q ds r.instruction) ∧
      ¬ ∃ ds r, Allocates {} p.typeEnv p.fresh pool ds r := by
  intro p conv pool q
  have hp : p.Reachable := ⟨_, rfl⟩
  have hconv : p.perform ⟨{}, .operator conv⟩ = (.ok (.instr ⟨0⟩), q) := Prod.ext (by decide) rfl
  have hpool : (p.perform ⟨{}, .operator pool⟩).1 =
      .error (.refused (.shape (.kernelTooLarge "pool" 5 5 4))) := by decide
  refine ⟨hp, hconv, ((operator_postcondition hp {} conv).2 _ q hconv).2, fun h => ?_⟩
  obtain ⟨created, q', h⟩ := (operator_postcondition hp {} pool).1.2 h
  rw [h] at hpool
  cases hpool

end Program
end TensorIR
