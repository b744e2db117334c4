import TensorIR.Proofs.Builder.Fitting
import TensorIR.Proofs.Builder.Plan

/-!
# TensorIR.Proofs.Builder.Sizing

The operands that an operator plans have the types that the rule of its kind asks for.

* `Plan.Sound`: after its declarations, the instruction of a plan has all its operands, fits its
  kind, and writes a value that the program does not know yet.
* `plan_sound`: the plans of operators are sound, one case for each operator.
* `permit_plan`: the instruction of a plan is permitted, whether programs are verified or not.
-/

namespace TensorIR

structure Plan.Sound (p : Program) (plan : Plan) : Prop where
  operands : ∀ o ∈ plan.request.instruction.operands,
    ∃ t, (p.declareAll plan.declarations).typeOf? o.value = some t
  dest : p.values.length ≤ plan.request.dest.index
  roles : plan.request.instruction.kind.AcceptsRoles plan.request.instruction.roles
  check : (p.declareAll plan.declarations).checkOperands plan.request.instruction = .ok ()

namespace Operator

open Program

variable {p : Program} {config : Config} {plan : Plan} {input : ValueId}

theorem typeOf?_old (ds : List Declaration) {id : ValueId} {t : TensorType}
    (ht : typeOf p id = .ok t) : (p.declareAll ds).typeOf? id = some t :=
  (extends_declareAll ds p).typeOf? (typeOf_eq_ok.1 ht)

theorem dims?_old (ds : List Declaration) {id : ValueId} {t : TensorType}
    (ht : typeOf p id = .ok t) : (p.declareAll ds).dims? id = some t.dims :=
  dims?_of_typeOf? (typeOf?_old ds ht)

theorem dims?_fresh (ds : List Declaration) (n : Nat) {dims : List Nat}
    (h : ds[n]?.map (·.type.dims) = some dims) :
    (p.declareAll ds).dims? (p.fresh n) = some dims := by
  obtain ⟨d, hd, rfl⟩ := Option.map_eq_some_iff.1 h
  exact dims?_of_typeOf? (typeOf?_fresh ds p n d hd)

/-! ## Operators that declare a destination only -/

theorem into_sound {t : TensorType} {request : ValueId → Request} {inputs : List Operand}
    (hops : (request (p.fresh 0)).instruction.operands = .output (p.fresh 0) :: inputs)
    (hroles : (request (p.fresh 0)).instruction.kind.AcceptsRoles
      (request (p.fresh 0)).instruction.roles)
    (hin : ∀ o ∈ inputs, ∃ u, p.typeOf? o.value = some u)
    (hcheck : ∀ q : Program, p.Extends q → q.typeOf? (p.fresh 0) = some t →
      q.checkOperands (request (p.fresh 0)).instruction = .ok ()) :
    (into p t request).Sound p := by
  have hq := extends_declareAll [{ type := t }] p
  have hnew := typeOf?_fresh [{ type := t }] p 0 _ rfl
  refine ⟨?_, ?_, hroles, hcheck _ hq hnew⟩
  · intro o ho
    rw [show (into p t request).request.instruction.operands = _ from hops, List.mem_cons] at ho
    rcases ho with rfl | ho
    · exact ⟨t, hnew⟩
    · obtain ⟨u, hu⟩ := hin o ho
      exact ⟨u, hq.typeOf? hu⟩
  · show p.values.length ≤ (request (p.fresh 0)).dest.index
    rw [Request.dest_eq hops]
    exact Nat.le_add_right _ _

/-- A destination of the type of the first input. -/
theorem like_sound {t : TensorType} {request : ValueId → Request} {kind : InstrKind}
    {rest : List Operand} (hkind : kind ∈ [.copy, .relu, .sigmoid, .tanh, .softmax, .regression])
    (hreq : (request (p.fresh 0)).instruction =
      ⟨kind, .output (p.fresh 0) :: .input input :: rest⟩)
    (hroles : kind.AcceptsRoles (.output :: .input :: rest.map (·.role)))
    (hrest : ∀ o ∈ rest, ∃ u, p.typeOf? o.value = some u) (ht : p.typeOf? input = some t) :
    (into p t request).Sound p := by
  refine into_sound (by rw [hreq]) (by rw [hreq]; exact hroles) ?_ ?_
  · rw [List.forall_mem_cons]
    exact ⟨⟨t, ht⟩, hrest⟩
  · intro q hq hnew
    rw [hreq]
    exact checkOperands_like hkind hnew (hq.typeOf? ht)

theorem elementwise_sound (kind : InstrKind) {make : ValueId → ValueId → Request}
    (hkind : kind ∈ [.copy, .relu, .sigmoid, .tanh, .softmax, .regression])
    (hmake : ∀ dest src, (make dest src).instruction = Request.unary kind dest src)
    (hroles : kind.AcceptsRoles [.output, .input])
    (h : (do return into p (← typeOf p input) (make · input)) = .ok plan) : plan.Sound p := by
  obtain ⟨t, ht, h⟩ := bind_eq_ok.1 h
  cases h
  exact like_sound hkind (hmake _ _) hroles (List.forall_mem_nil _) (typeOf_eq_ok.1 ht)

theorem concat_sound {first : ValueId} {rest : List ValueId} {axis : Nat}
    (h : (concat (first :: rest) axis).plan config p = .ok plan) : plan.Sound p := by
  obtain ⟨t, -, h⟩ := bind_eq_ok.1 h
  obtain ⟨sources, hsources, h⟩ := bind_eq_ok.1 h
  obtain ⟨dims, hdims, h⟩ := bind_eq_ok.1 h
  cases h
  obtain ⟨hlen, hall⟩ := mapM_eq_ok hsources
  refine into_sound rfl ⟨by simp, ?_⟩ ?_ ?_
  · intro role hrole
    obtain ⟨o, ho, rfl⟩ := List.mem_map.1 hrole
    obtain ⟨v, -, rfl⟩ := List.mem_map.1 ho
    rfl
  · intro o ho
    obtain ⟨v, hv, rfl⟩ := List.mem_map.1 ho
    obtain ⟨u, hu⟩ := exists_eq_ok_of_mapM hsources hv
    exact ⟨u, typeOf_eq_ok.1 hu⟩
  · intro q hq hnew
    refine checkOperands_concat (by simpa using hlen) ?_
      (Attempt.mapRefusal_ofExcept_eq_ok.1 hdims) (dims?_of_typeOf? hnew)
    intro n d hd
    rw [List.getElem?_map] at hd
    obtain ⟨u, hu, rfl⟩ := Option.map_eq_some_iff.1 hd
    obtain ⟨v, hv, ht⟩ := hall n u hu
    exact ⟨v, hv, dims?_of_typeOf? (hq.typeOf? (typeOf_eq_ok.1 ht))⟩

/-! ## Operators with parameters and caches -/

theorem convolution_sound {depth : Nat} {window : Window}
    (h : (convolution input depth window).plan config p = .ok plan) : plan.Sound p := by
  obtain ⟨t, ht, h⟩ := bind_eq_ok.1 h
  obtain ⟨⟨image, out⟩, hslide, h⟩ := bind_eq_ok.1 h
  obtain ⟨fanIn, -, h⟩ := bind_eq_ok.1 h
  cases h
  refine ⟨?_, Nat.le_add_right _ _, rfl, ?_⟩
  · simp only [Request.instruction, List.forall_mem_cons]
    exact ⟨⟨_, typeOf?_fresh _ p 2 _ rfl⟩, ⟨_, typeOf?_old _ ht⟩, ⟨_, typeOf?_fresh _ p 0 _ rfl⟩,
      ⟨_, typeOf?_fresh _ p 1 _ rfl⟩, List.forall_mem_nil _⟩
  · exact checkOperands_convolution (dims?_old _ ht)
      (Attempt.mapRefusal_eq_ok.1 hslide) (dims?_fresh _ 2 rfl) (dims?_fresh _ 0 rfl)
      (dims?_fresh _ 1 rfl)

theorem pool_sound {kind : PoolKind} {window : Window}
    (h : (pool input kind window).plan config p = .ok plan) : plan.Sound p := by
  obtain ⟨t, ht, h⟩ := bind_eq_ok.1 h
  obtain ⟨⟨image, out⟩, hslide, h⟩ := bind_eq_ok.1 h
  cases h
  refine ⟨?_, Nat.le_add_right _ _, rfl, ?_⟩
  · simp only [Request.instruction, List.forall_mem_cons]
    exact ⟨⟨_, typeOf?_fresh _ p 1 _ rfl⟩, ⟨_, typeOf?_old _ ht⟩, ⟨_, typeOf?_fresh _ p 0 _ rfl⟩,
      List.forall_mem_nil _⟩
  · exact checkOperands_pool (dims?_old _ ht)
      (Attempt.mapRefusal_eq_ok.1 hslide) (dims?_fresh _ 1 rfl) (dims?_fresh _ 0 rfl)

theorem fullyConnected_sound {depth : Nat}
    (h : (fullyConnected input depth).plan config p = .ok plan) : plan.Sound p := by
  obtain ⟨t, ht, h⟩ := bind_eq_ok.1 h
  obtain ⟨⟨batch, inner⟩, hflat, h⟩ := bind_eq_ok.1 h
  cases h
  refine ⟨?_, Nat.le_add_right _ _, rfl, ?_⟩
  · simp only [Request.instruction, List.forall_mem_cons]
    exact ⟨⟨_, typeOf?_fresh _ p 2 _ rfl⟩, ⟨_, typeOf?_old _ ht⟩, ⟨_, typeOf?_fresh _ p 0 _ rfl⟩,
      ⟨_, typeOf?_fresh _ p 1 _ rfl⟩, List.forall_mem_nil _⟩
  · exact checkOperands_fullyConnected (dims?_old _ ht)
      (Attempt.mapRefusal_ofExcept_eq_ok.1 hflat) (dims?_fresh _ 2 rfl)
      (dims?_fresh _ 0 rfl) (dims?_fresh _ 1 rfl)

theorem softmax_sound {selected : ValueId}
    (h : (softmax input selected).plan config p = .ok plan) : plan.Sound p := by
  obtain ⟨_, hselected, h⟩ := bind_eq_ok.1 h
  obtain ⟨t, ht, h⟩ := bind_eq_ok.1 h
  cases h
  refine ⟨?_, Nat.le_add_right _ _, rfl, ?_⟩
  · simp only [Request.instruction, List.forall_mem_cons]
    exact ⟨⟨_, typeOf?_fresh _ p 0 _ rfl⟩, ⟨_, typeOf?_old _ ht⟩, ⟨_, typeOf?_fresh _ p 1 _ rfl⟩,
      ⟨_, typeOf?_old _ hselected⟩, List.forall_mem_nil _⟩
  · exact checkOperands_like (by simp) (typeOf?_fresh _ p 0 _ rfl) (typeOf?_old _ ht)

theorem batchNormalization_sound {channel : Nat} {epsilon momentum : Binary32}
    (h : (batchNormalization input channel epsilon momentum).plan config p = .ok plan) :
    plan.Sound p := by
  obtain ⟨t, ht, h⟩ := bind_eq_ok.1 h
  obtain ⟨channels, hchannels, h⟩ := bind_eq_ok.1 h
  cases h
  refine ⟨?_, Nat.le_add_right _ _, rfl, ?_⟩
  · simp only [Request.instruction, List.forall_mem_cons]
    exact ⟨⟨_, typeOf?_fresh _ p 4 _ rfl⟩, ⟨_, typeOf?_old _ ht⟩, ⟨_, typeOf?_fresh _ p 1 _ rfl⟩,
      ⟨_, typeOf?_fresh _ p 0 _ rfl⟩, ⟨_, typeOf?_fresh _ p 2 _ rfl⟩,
      ⟨_, typeOf?_fresh _ p 3 _ rfl⟩, List.forall_mem_nil _⟩
  · exact checkOperands_batchNormalization epsilon momentum (typeOf?_fresh _ p 4 _ rfl)
      (typeOf?_old _ ht) (Attempt.mapRefusal_ofExcept_eq_ok.1 hchannels)
      (dims?_fresh _ 1 rfl) (dims?_fresh _ 0 rfl) (dims?_fresh _ 2 rfl) (dims?_fresh _ 3 rfl)

/-! ## All operators -/

theorem plan_sound {op : Operator} (h : op.plan config p = .ok plan) : plan.Sound p := by
  cases op with
  | convolution input depth window => exact convolution_sound h
  | pool input kind window => exact pool_sound h
  | fullyConnected input depth => exact fullyConnected_sound h
  | relu input => exact elementwise_sound .relu (by simp) (fun _ _ => rfl) rfl h
  | sigmoid input => exact elementwise_sound .sigmoid (by simp) (fun _ _ => rfl) rfl h
  | tanh input => exact elementwise_sound .tanh (by simp) (fun _ _ => rfl) rfl h
  | softmax input selected => exact softmax_sound h
  | regression input expected =>
    obtain ⟨u, hu, h⟩ := bind_eq_ok.1 h
    obtain ⟨t, ht, h⟩ := bind_eq_ok.1 h
    cases h
    exact like_sound (by simp) rfl rfl (by simpa using ⟨u, typeOf_eq_ok.1 hu⟩)
      (typeOf_eq_ok.1 ht)
  | reshape input dims =>
    obtain ⟨t, ht, h⟩ := bind_eq_ok.1 h
    obtain ⟨_, hcount, h⟩ := bind_eq_ok.1 h
    cases h
    refine into_sound rfl rfl (by simpa using ⟨t, typeOf_eq_ok.1 ht⟩) fun q hq hnew => ?_
    exact checkOperands_reshape (dims?_of_typeOf? (hq.typeOf? (typeOf_eq_ok.1 ht)))
      (dims?_of_typeOf? hnew) (Attempt.mapRefusal_ofExcept_eq_ok.1 hcount) dims
  | transpose input shuffle =>
    obtain ⟨t, ht, h⟩ := bind_eq_ok.1 h
    obtain ⟨dims, hdims, h⟩ := bind_eq_ok.1 h
    cases h
    refine into_sound rfl rfl (by simpa using ⟨t, typeOf_eq_ok.1 ht⟩) fun q hq hnew => ?_
    exact checkOperands_transpose (dims?_of_typeOf? (hq.typeOf? (typeOf_eq_ok.1 ht)))
      (Attempt.mapRefusal_ofExcept_eq_ok.1 hdims) (dims?_of_typeOf? hnew)
  | concat inputs axis =>
    cases inputs with
    | nil => cases h
    | cons first rest => exact concat_sound h
  | batchNormalization input channel epsilon momentum => exact batchNormalization_sound h
  | arithmetic lhs rhs kind =>
    obtain ⟨t, ht, h⟩ := bind_eq_ok.1 h
    obtain ⟨u, hu, h⟩ := bind_eq_ok.1 h
    by_cases heq : t = u
    · subst heq
      rw [if_pos rfl] at h
      cases h
      refine into_sound rfl rfl ?_ fun q hq hnew => ?_
      · simp only [List.forall_mem_cons]
        exact ⟨⟨t, typeOf_eq_ok.1 ht⟩, ⟨t, typeOf_eq_ok.1 hu⟩, List.forall_mem_nil _⟩
      · exact checkOperands_arithmetic kind hnew (hq.typeOf? (typeOf_eq_ok.1 ht))
          (hq.typeOf? (typeOf_eq_ok.1 hu))
    · rw [if_neg heq] at h
      cases h

/-- The instruction of a plan is permitted, whether programs are verified or not. -/
theorem permit_plan (hp : p.WellFormed) {op : Operator} (h : op.plan config p = .ok plan)
    (settings : Config) :
    (p.declareAll plan.declarations).permit settings plan.request.instruction = .ok () := by
  obtain ⟨hops, hdest, hroles, hcheck⟩ := plan_sound h
  have ho : (p.declareAll plan.declarations).HasOperands plan.request.instruction := by
    intro o hmem
    obtain ⟨t, ht⟩ := hops o hmem
    exact lt_of_typeOf? ht
  have hadmits : (p.declareAll plan.declarations).admits plan.request.instruction = .ok () := by
    rw [admits, verifyAs, check, if_pos hroles, hcheck,
      checkSingleWriter_fresh hp (instrs_declareAll _ p) _ hdest]
    rfl
  rw [permit_of_hasOperands settings ho, hadmits]
  split <;> rfl

end Operator
end TensorIR
