import Mathlib.Algebra.BigOperators.Group.List.Basic
import Mathlib.Tactic.Ring
import TensorIR.Proofs.Builder.Allocation

/-!
# TensorIR.Proofs.Builder.Parameters

The number of learnable elements in a program, and what calls add to it.

* `TensorType.total`: the number of elements of several tensors, over unbounded numbers.
* `Program.weightTypes`, `parameterCount_eq_ok_iff`: the count is that total, and it is returned if
  every weight can be counted and the total is a machine size.
* `Operator.learned`, `Program.learned`: the elements that a call adds, from the inputs of the call.
* `weightTypes_perform`: a call adds weights at the end, with as many elements as that.
* `parameterCount_tracks_learned`: what this makes of the count, over one call and over a run.
-/

namespace TensorIR

open Program

/-! ## Totals -/

def TensorType.total (ts : List TensorType) : Nat := (ts.map (·.dims.prod)).sum

@[simp] theorem TensorType.total_nil : total [] = 0 := rfl

@[simp] theorem TensorType.total_cons (t : TensorType) (ts : List TensorType) :
    total (t :: ts) = t.dims.prod + total ts := rfl

@[simp] theorem TensorType.total_append (ts us : List TensorType) :
    total (ts ++ us) = total ts + total us := by
  simp [total]

/-- Counts one more tensor. -/
def addElements (total : Nat) (t : TensorType) : Except Fault Nat := do
  Size.add total (← t.numElements)

theorem addElements_eq_ok_iff {start n : Nat} {t : TensorType} :
    addElements start t = .ok n ↔
      Shape.Counts t.dims t.dims.prod ∧ n = start + t.dims.prod ∧ n < Size.limit := by
  simp only [addElements, bind_eq_ok, numElements_eq_ok_iff, Size.add_eq_ok_iff]
  constructor
  · rintro ⟨count, hcount, rfl, hlt⟩
    cases hcount.product
    exact ⟨hcount, rfl, hlt⟩
  · rintro ⟨hcount, rfl, hlt⟩
    exact ⟨_, hcount, rfl, hlt⟩

/-- Tensors are counted one after the other, begun at any machine size. As the total only grows, it
passes the limit somewhere exactly if it does so at the end. -/
theorem foldlM_addElements_eq_ok_iff (ts : List TensorType) {n : Nat} : ∀ {start : Nat},
    start < Size.limit →
      (ts.foldlM addElements start = .ok n ↔
        (∀ t ∈ ts, Shape.Counts t.dims t.dims.prod) ∧ n = start + TensorType.total ts ∧
          n < Size.limit) := by
  induction ts with
  | nil =>
    intro start hstart
    constructor
    · intro h
      cases h
      exact ⟨List.forall_mem_nil _, rfl, hstart⟩
    · rintro ⟨-, rfl, -⟩
      rfl
  | cons t ts ih =>
    intro start hstart
    rw [List.foldlM_cons, bind_eq_ok, List.forall_mem_cons, TensorType.total_cons]
    constructor
    · rintro ⟨next, hnext, h⟩
      obtain ⟨hcount, rfl, hlt⟩ := addElements_eq_ok_iff.1 hnext
      obtain ⟨hcounts, rfl, hn⟩ := (ih hlt).1 h
      exact ⟨⟨hcount, hcounts⟩, Nat.add_assoc _ _ _, hn⟩
    · rintro ⟨⟨hcount, hcounts⟩, rfl, hn⟩
      have hlt : start + t.dims.prod < Size.limit := by omega
      exact ⟨_, addElements_eq_ok_iff.2 ⟨hcount, rfl, hlt⟩,
        (ih hlt).2 ⟨hcounts, (Nat.add_assoc _ _ _).symm, hn⟩⟩

namespace Program

variable {p q : Program}

/-! ## Weights -/

/-- The types of the learnable parameters, in the order of their declaration. -/
def weightTypes (p : Program) : List TensorType := p.weights.filterMap fun v => p.type? v.type

theorem parameterCount_eq (p : Program) : p.parameterCount = p.weightTypes.foldlM addElements 0 :=
  rfl

theorem parameterCount_eq_ok_iff {n : Nat} :
    p.parameterCount = .ok n ↔
      (∀ t ∈ p.weightTypes, Shape.Counts t.dims t.dims.prod) ∧
        n = TensorType.total p.weightTypes ∧ n < Size.limit := by
  have hzero : 0 < Size.limit := by decide
  rw [parameterCount_eq, foldlM_addElements_eq_ok_iff p.weightTypes hzero, Nat.zero_add]

theorem mem_values_of_mem_weights {v : Value} (h : v ∈ p.weights) : v ∈ p.values := by
  obtain ⟨⟨_, var⟩, hdeclared, rfl⟩ := List.mem_map.1 h
  obtain ⟨v, hv, hvar⟩ := List.mem_filterMap.1 (List.mem_filter.1 hdeclared).1
  obtain ⟨_, -, heq⟩ := Option.map_eq_some_iff.1 hvar
  cases heq
  exact hv

/-- Weights keep their types while the program grows. -/
theorem filterMap_weights (hp : p.WellFormed) (h : p.Extends q) :
    p.weights.filterMap (fun v => q.type? v.type) = p.weightTypes := by
  refine List.filterMap_congr fun v hv => ?_
  obtain ⟨index, hindex⟩ := List.mem_iff_getElem?.1 (mem_values_of_mem_weights hv)
  obtain ⟨t, ht⟩ := hp.typed ⟨index⟩ v hindex
  rw [ht, h.type? ht]

theorem weights_concat {v : Value} {var : Option StaticVariable}
    (hvalues : q.values = p.values ++ [v]) (hv : v.declared? = var) :
    q.weights = p.weights ++ if var.any (·.isWeight) then [v] else [] := by
  rw [weights, weights, declarations, declarations, hvalues, List.filterMap_append,
    List.filter_append, List.map_append]
  cases var with
  | none => simp [hv]
  | some var => by_cases hvar : var.isWeight <;> simp [hv, hvar]

theorem weightTypes_internType (hp : p.WellFormed) (t : TensorType) :
    (p.internType t).2.weightTypes = p.weightTypes :=
  filterMap_weights hp (extends_internType p t)

/-- The types of the learnable parameters among variables that are to be declared. -/
def learnable (ds : List Declaration) : List TensorType :=
  (ds.filter (·.var.isWeight)).map (·.type)

theorem learnable_cons (d : Declaration) (ds : List Declaration) :
    learnable (d :: ds) = learnable [d] ++ learnable ds := by
  rw [← List.singleton_append, learnable, List.filter_append, List.map_append]
  rfl

theorem weightTypes_declareAs (hp : p.WellFormed) (d : Declaration) :
    (p.declareAs d).weightTypes = p.weightTypes ++ learnable [d] := by
  have hknown : (p.declareAs d).type? (p.internType d.type).1 = some d.type :=
    (extends_declare _ _ _ _).type? (type?_internType p d.type)
  have hweights : (p.declareAs d).weights = p.weights ++
      if (some d.var).any (·.isWeight) then [_] else [] := weights_concat rfl rfl
  rw [weightTypes, hweights, List.filterMap_append, filterMap_weights hp (extends_declareAs p d)]
  by_cases hvar : d.var.isWeight <;> simp [learnable, hvar, Value.rename, hknown]

theorem weightTypes_declareAll (ds : List Declaration) : ∀ {p : Program}, p.WellFormed →
    (p.declareAll ds).weightTypes = p.weightTypes ++ learnable ds := by
  induction ds with
  | nil => intro p _; exact (List.append_nil _).symm
  | cons d ds ih =>
    intro p hp
    rw [declareAll_cons, ih (hp.declareAs d), weightTypes_declareAs hp, List.append_assoc,
      ← learnable_cons]

/-- The result of an instruction is no parameter. -/
theorem weightTypes_append (hp : p.WellFormed) (i : Instruction) :
    (p.append i).2.weightTypes = p.weightTypes := by
  have hweights : (p.append i).2.weights = p.weights ++
      if (none : Option StaticVariable).any (·.isWeight) then [_] else [] := weights_concat rfl rfl
  rw [weightTypes, hweights, if_neg (by simp), List.append_nil,
    filterMap_weights hp (extends_append p i)]

theorem weightTypes_carryOut (hp : p.WellFormed) (plan : Plan) :
    (plan.carryOut p).weightTypes = p.weightTypes ++ learnable plan.declarations := by
  rw [Plan.carryOut, weightTypes_append (.declareAll plan.declarations hp),
    weightTypes_declareAll plan.declarations hp]

end Program

/-! ## What is learned -/

/-- The number of learnable elements that an operator allocates for its input. -/
def Operator.learned (env : TypeEnv) : Operator → Nat
  | convolution input depth window =>
    match env input with
    | some ⟨_, [_, _, _, channels]⟩ => depth * window.kernel * window.kernel * channels + depth
    | _ => 0
  | fullyConnected input depth =>
    match env input with
    | some ⟨_, _ :: rest⟩ => depth * rest.prod + depth
    | _ => 0
  | batchNormalization input channel _ _ =>
    match (env input).bind (·.dims[channel]?) with
    | some channels => 2 * channels
    | none => 0
  | _ => 0

theorem Allocates.total_learnable {config : Config} {env : TypeEnv} {fresh : Nat → ValueId}
    {op : Operator} {ds : List Declaration} {r : Request} (h : Allocates config env fresh op ds r) :
    TensorType.total (learnable ds) = op.learned env := by
  cases h with
  | @convolution input window depth n h w channels hinput =>
    obtain ⟨kind, hinput⟩ := hinput
    simp only [Operator.learned, hinput]
    show depth * (window.kernel * (window.kernel * (channels * 1))) + (depth * 1 + 0) = _
    ring
  | @fullyConnected input kind depth batch inner rest hinput hinner =>
    simp only [Operator.learned, hinput]
    show depth * (inner * 1) + (depth * 1 + 0) = _
    rw [hinner.product, Nat.mul_one, Nat.mul_one, Nat.add_zero]
  | @batchNormalization input t channel channels epsilon momentum hinput hchannels =>
    simp only [Operator.learned, hinput, Option.bind_some, hchannels]
    show channels * 1 + (channels * 1 + 0) = 2 * channels
    omega
  | _ => rfl

namespace Program

variable {p q : Program}

/-- The number of learnable elements that a call adds to the program. -/
def learned (p : Program) (c : Call) : Nat :=
  match (p.perform c).1, c.step with
  | .ok _, .declare t var _ => if var.isWeight then t.dims.prod else 0
  | .ok _, .declareOf ref var _ =>
    match p.type? ref with
    | some t => if var.isWeight then t.dims.prod else 0
    | none => 0
  | .ok _, .operator op => op.learned p.typeEnv
  | _, _ => 0

/-- Those that the calls of a run add. -/
def learnedIn : Program → List Call → Nat
  | _, [] => 0
  | p, c :: calls => p.learned c + (p.perform c).2.learnedIn calls

theorem total_learnable_singleton (d : Declaration) :
    TensorType.total (learnable [d]) = if d.var.isWeight then d.type.dims.prod else 0 := by
  by_cases hvar : d.var.isWeight <;> simp [learnable, hvar]

/-- A call adds its weights behind those of the program. -/
theorem weightTypes_perform (hp : p.WellFormed) (c : Call) :
    ∃ added, (p.perform c).2.weightTypes = p.weightTypes ++ added ∧
      TensorType.total added = p.learned c := by
  rcases perform_cases hp c with ⟨e, h⟩ | ⟨created, q, h, hgrows⟩
  · exact ⟨[], by rw [h, List.append_nil], by rw [learned, h]; rfl⟩
  · rw [learned, h]
    cases hgrows with
    | internType config t =>
      exact ⟨[], by rw [weightTypes_internType hp, List.append_nil], rfl⟩
    | declare config d =>
      exact ⟨learnable [d], weightTypes_declareAs hp d, total_learnable_singleton d⟩
    | declareOf config ref d href =>
      refine ⟨learnable [d], weightTypes_declareAs hp d, ?_⟩
      simp only [total_learnable_singleton, href]
    | request config r hpermit =>
      exact ⟨[], by rw [weightTypes_append hp, List.append_nil], rfl⟩
    | operator config op plan hplan =>
      exact ⟨learnable plan.declarations, weightTypes_carryOut hp plan,
        (Operator.plan_allocates hplan).total_learnable⟩

/-! ## What is counted -/

/-- The count of `q` is the count of `p` and `added` elements more. It is returned only if that of
`p` is, and where that meets a fault it meets the same one. -/
structure CountsMore (p q : Program) (added : Nat) : Prop where
  fault : ∀ f, p.parameterCount = .error f → q.parameterCount = .error f
  sum : ∀ total, q.parameterCount = .ok total →
    ∃ before, p.parameterCount = .ok before ∧ total = before + added

theorem CountsMore.of_weightTypes {added : List TensorType}
    (h : q.weightTypes = p.weightTypes ++ added) : p.CountsMore q (TensorType.total added) where
  fault f hf := by
    rw [parameterCount_eq] at hf
    rw [parameterCount_eq, h, List.foldlM_append, hf]
    rfl
  sum total htotal := by
    obtain ⟨hcounts, rfl, hlt⟩ := parameterCount_eq_ok_iff.1 htotal
    rw [h, TensorType.total_append] at hlt ⊢
    rw [h, List.forall_mem_append] at hcounts
    exact ⟨_, parameterCount_eq_ok_iff.2 ⟨hcounts.1, rfl, by omega⟩, rfl⟩

theorem CountsMore.trans {r : Program} {m n : Nat} (h₁ : p.CountsMore q m)
    (h₂ : q.CountsMore r n) : p.CountsMore r (m + n) where
  fault f hf := h₂.fault f (h₁.fault f hf)
  sum total htotal := by
    obtain ⟨between, hbetween, rfl⟩ := h₂.sum total htotal
    obtain ⟨before, hbefore, rfl⟩ := h₁.sum between hbetween
    exact ⟨before, hbefore, Nat.add_assoc _ _ _⟩

theorem countsMore_perform (hp : p.WellFormed) (c : Call) :
    p.CountsMore (p.perform c).2 (p.learned c) := by
  obtain ⟨added, hweights, htotal⟩ := weightTypes_perform hp c
  exact htotal ▸ .of_weightTypes hweights

theorem countsMore_after (calls : List Call) : ∀ {p : Program}, p.WellFormed →
    p.CountsMore (p.after calls) (p.learnedIn calls) := by
  induction calls with
  | nil => intro p _; exact .of_weightTypes (List.append_nil _).symm
  | cons c calls ih =>
    intro p hp
    exact (countsMore_perform hp c).trans (ih (hp.perform c))

/-- The parameters of a program are counted if the dimensions of each weight can be multiplied and
all weights together have a machine size of elements; the count is then that number. A call adds to
it what it learns, which is nothing for calls that fail, requests, types and activations, and a run
adds what its calls do. A program whose parameters cannot be counted never gets one that can be. -/
theorem parameterCount_tracks_learned (hp : p.Reachable) :
    (∀ n, p.parameterCount = .ok n ↔
      (∀ t ∈ p.weightTypes, Shape.Counts t.dims t.dims.prod) ∧
        n = TensorType.total p.weightTypes ∧ n < Size.limit) ∧
    (∀ c, p.CountsMore (p.perform c).2 (p.learned c)) ∧
    ∀ calls, p.CountsMore (p.after calls) (p.learnedIn calls) :=
  ⟨fun _ => parameterCount_eq_ok_iff, countsMore_perform hp.wellFormed,
    fun calls => countsMore_after calls hp.wellFormed⟩

/-- A small network, whose parameters are those of a convolution and of a fully connected layer, and
a weight that cannot be counted. -/
theorem parameterCount_tracks_learned_network :
    let p := ({} : Program).after [⟨{}, .declare ⟨.float32, [8, 28, 28, 1]⟩ {} "input"⟩,
      ⟨{}, .declare ⟨.index, [8, 1]⟩ {} "selected"⟩]
    let calls : List Call := [⟨{}, .operator (.convolution ⟨0⟩ 8 ⟨5, 1, 2⟩)⟩,
      ⟨{}, .operator (.relu ⟨4⟩)⟩, ⟨{}, .operator (.pool ⟨6⟩ .max ⟨2, 2, 0⟩)⟩,
      ⟨{}, .operator (.fullyConnected ⟨9⟩ 10)⟩, ⟨{}, .operator (.softmax ⟨13⟩ ⟨1⟩)⟩]
    let wide : Call := ⟨{}, .declare ⟨.float32, [2 ^ 63, 2]⟩ ⟨.external, .weight, .zero false⟩ "w"⟩
    let q := (p.after calls).after [wide]
    p.Reachable ∧ (p.after calls).parameterCount = .ok (8 * 5 * 5 + 8 + 10 * 14 * 14 * 8 + 10) ∧
      (∃ before, p.parameterCount = .ok before ∧
        8 * 5 * 5 + 8 + 10 * 14 * 14 * 8 + 10 = before + p.learnedIn calls) ∧
      q.Reachable ∧ q.parameterCount = .error .multiplyOverflow ∧
      (q.after calls).parameterCount = .error .multiplyOverflow := by
  intro p calls wide q
  have hp : p.Reachable := ⟨_, rfl⟩
  have hq : q.Reachable := (hp.after calls).after [wide]
  have hcount : (p.after calls).parameterCount =
      .ok (8 * 5 * 5 + 8 + 10 * 14 * 14 * 8 + 10) := by decide
  have hfault : q.parameterCount = .error .multiplyOverflow := by decide
  exact ⟨hp, hcount, ((parameterCount_tracks_learned hp).2.2 calls).sum _ hcount, hq, hfault,
    ((parameterCount_tracks_learned hq).2.2 calls).fault _ hfault⟩

end Program
end TensorIR
