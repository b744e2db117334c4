import TensorIR.Proofs.Builder.Admission

/-!
# TensorIR.Proofs.Builder.Fitting

When the operands of a request fit its kind: one lemma for each kind, on the types and dimensions
that a program gives to the operands.

* `requireDims_eq`, `requireSameType_eq`: when the two rules on operands are satisfied. Since types
  are stored once, values of equal type have one handle (`typeRef?_eq_of_typeOf?`).
* `checkOperands_convolution` and the others: the rules of the kinds.
-/

namespace TensorIR
namespace Program

variable {p : Program} {i : Instruction} {dest src : ValueId} {source dims : List Nat}
  {t : TensorType}

/-! ## Rules on operands -/

theorem lt_of_typeOf? {id : ValueId} (h : p.typeOf? id = some t) :
    id.index < p.values.length := by
  obtain ⟨ref, href, -⟩ := Option.bind_eq_some_iff.1 h
  obtain ⟨v, hv, -⟩ := Option.map_eq_some_iff.1 href
  exact lt_of_value? hv

theorem dims?_of_typeOf? {id : ValueId} (ht : p.typeOf? id = some t) :
    p.dims? id = some t.dims := by
  simp [dims?, ht]

theorem requireDims_eq {index : Nat} {o : Operand} {operand : String}
    (h : i.operand? index = some o) (hdims : p.dims? o.value = some dims) :
    p.requireDims i index dims operand = .ok () := by
  simp [requireDims, operandDims_eq h hdims]
  rfl

theorem typeRef?_eq_of_typeOf? {a b : ValueId} (ha : p.typeOf? a = some t)
    (hb : p.typeOf? b = some t) : ∃ ref, p.typeRef? a = some ref ∧ p.typeRef? b = some ref := by
  obtain ⟨ra, hra, hta⟩ := Option.bind_eq_some_iff.1 ha
  obtain ⟨rb, hrb, htb⟩ := Option.bind_eq_some_iff.1 hb
  obtain rfl := TypeTable.get?_inj hta htb
  exact ⟨ra, hra, hrb⟩

theorem requireSameType_eq {a b : Nat} {oa ob : Operand} (ha : i.operand? a = some oa)
    (hb : i.operand? b = some ob) (hta : p.typeOf? oa.value = some t)
    (htb : p.typeOf? ob.value = some t) : p.requireSameType i a b = .ok () := by
  obtain ⟨ref, hra, hrb⟩ := typeRef?_eq_of_typeOf? hta htb
  simp [requireSameType, operandType_eq ha hra, operandType_eq hb hrb]
  rfl

theorem shapeRule_ok {α : Type} (a : α) : shapeRule (.ok a) = .ok a := rfl

/-! ## Rules of the kinds -/

/-- The kinds that only ask for a destination of the type of their source. -/
theorem checkOperands_like {rest : List Operand} {kind : InstrKind}
    (hkind : kind ∈ [.copy, .relu, .sigmoid, .tanh, .softmax, .regression])
    (hdest : p.typeOf? dest = some t) (hsrc : p.typeOf? src = some t) :
    p.checkOperands ⟨kind, .output dest :: .input src :: rest⟩ = .ok () := by
  have hsame : p.requireSameType ⟨kind, .output dest :: .input src :: rest⟩ 0 1 = .ok () :=
    requireSameType_eq rfl rfl hdest hsrc
  simp only [List.mem_cons, List.not_mem_nil, or_false] at hkind
  rcases hkind with rfl | rfl | rfl | rfl | rfl | rfl <;> exact hsame

theorem checkOperands_convolution {filter bias : ValueId} {window : Window} {depth : Nat}
    {image out : Nhwc} (hsrc : p.dims? src = some source)
    (hslide : window.slide Opcode.convolution.name source = .ok (image, out))
    (hdest : p.dims? dest = some { out with channels := depth }.dims)
    (hfilter : p.dims? filter = some (window.filterDims depth image.channels))
    (hbias : p.dims? bias = some [depth]) :
    p.checkOperands (Request.convolution dest src filter bias window depth).instruction =
      .ok () := by
  simp only [Request.instruction, checkOperands]
  rw [operandDims_eq (o := .input src) rfl hsrc, ok_bind, hslide, shapeRule_ok, ok_bind]
  show (do p.requireDims _ 0 _ _; _) = _
  rw [requireDims_eq (o := .output dest) rfl hdest, ok_bind,
    requireDims_eq (o := .input filter) rfl hfilter, ok_bind,
    requireDims_eq (o := .input bias) rfl hbias]

theorem checkOperands_pool {cache : ValueId} {kind : PoolKind} {window : Window}
    {image out : Nhwc} (hsrc : p.dims? src = some source)
    (hslide : window.slide Opcode.pool.name source = .ok (image, out))
    (hdest : p.dims? dest = some out.dims) (hcache : p.dims? cache = some (kind.cacheDims out)) :
    p.checkOperands (Request.pool dest src cache kind window).instruction = .ok () := by
  simp only [Request.instruction, checkOperands]
  rw [operandDims_eq (o := .input src) rfl hsrc, ok_bind, hslide, shapeRule_ok, ok_bind]
  show (do p.requireDims _ 0 _ _; _) = _
  rw [requireDims_eq (o := .output dest) rfl hdest, ok_bind,
    requireDims_eq (o := .inout cache) rfl hcache]

theorem checkOperands_fullyConnected {weights bias : ValueId} {depth batch inner : Nat}
    (hsrc : p.dims? src = some source)
    (hflat : Shape.flattenTail Opcode.fullyConnected.name source = .ok (batch, inner))
    (hdest : p.dims? dest = some [batch, depth])
    (hweights : p.dims? weights = some [depth, inner]) (hbias : p.dims? bias = some [depth]) :
    p.checkOperands (Request.fullyConnected dest src weights bias depth).instruction =
      .ok () := by
  simp only [Request.instruction, checkOperands]
  rw [operandDims_eq (o := .input src) rfl hsrc, ok_bind, hflat, Attempt.ofExcept_ok,
    shapeRule_ok, ok_bind]
  show (do p.requireDims _ 0 _ _; _) = _
  rw [requireDims_eq (o := .output dest) rfl hdest, ok_bind,
    requireDims_eq (o := .input weights) rfl hweights, ok_bind,
    requireDims_eq (o := .input bias) rfl hbias]

theorem checkOperands_reshape (hsrc : p.dims? src = some source)
    (hdest : p.dims? dest = some dims) (hcount : Shape.checkReshape source dims = .ok ())
    (target : List Nat) :
    p.checkOperands (Request.reshape dest src target).instruction = .ok () := by
  simp only [Request.instruction, Request.unary, checkOperands]
  rw [operandDims_eq (o := .input src) rfl hsrc, ok_bind,
    operandDims_eq (o := .output dest) rfl hdest, ok_bind, hcount]
  rfl

theorem checkOperands_transpose {shuffle : List Nat} (hsrc : p.dims? src = some source)
    (hshuffle : Shape.transposeDims source shuffle = .ok dims)
    (hdest : p.dims? dest = some dims) :
    p.checkOperands (Request.transpose dest src shuffle).instruction = .ok () := by
  simp only [Request.instruction, Request.unary, checkOperands]
  rw [operandDims_eq (o := .input src) rfl hsrc, ok_bind, hshuffle, Attempt.ofExcept_ok,
    shapeRule_ok, ok_bind, requireDims_eq (o := .output dest) rfl hdest]

/-- The rule of a `concat` is that of its shape on the dimensions of its sources. -/
theorem checkOperands_concat_eq {srcs : List ValueId} {sources : List (List Nat)} {axis : Nat}
    (hlen : sources.length = srcs.length)
    (hsrcs : ∀ (n : Nat) (d : List Nat), sources[n]? = some d →
      ∃ v, srcs[n]? = some v ∧ p.dims? v = some d) :
    p.checkOperands (Request.concat dest srcs axis).instruction = (do
      let expected ← shapeRule (Attempt.ofExcept (Shape.concatDims sources axis))
      p.requireDims (Request.concat dest srcs axis).instruction 0 expected "output") := by
  have hall : (List.range' 1 sources.length).mapM
      (p.operandDims (Request.concat dest srcs axis).instruction) = .ok sources := by
    refine mapM_range'_eq_ok sources 1 fun n d hd => ?_
    obtain ⟨v, hv, hdims⟩ := hsrcs n d hd
    refine operandDims_eq (o := .input v) ?_ hdims
    simp [Request.instruction, Instruction.operand?, Nat.add_comm 1 n, hv]
  simp only [Request.instruction] at hall ⊢
  simp only [checkOperands, List.length_cons, List.length_map, Nat.add_sub_cancel, ← hlen, hall,
    ok_bind]

theorem checkOperands_concat {srcs : List ValueId} {sources : List (List Nat)} {axis : Nat}
    (hlen : sources.length = srcs.length)
    (hsrcs : ∀ (n : Nat) (d : List Nat), sources[n]? = some d →
      ∃ v, srcs[n]? = some v ∧ p.dims? v = some d)
    (hconcat : Shape.concatDims sources axis = .ok dims) (hdest : p.dims? dest = some dims) :
    p.checkOperands (Request.concat dest srcs axis).instruction = .ok () := by
  rw [checkOperands_concat_eq hlen hsrcs, hconcat, Attempt.ofExcept_ok, shapeRule_ok, ok_bind,
    requireDims_eq (o := .output dest) rfl hdest]

theorem checkOperands_batchNormalization {scale bias mean variance : ValueId}
    {channel channels : Nat} (epsilon momentum : Binary32)
    (hdest : p.typeOf? dest = some t) (hsrc : p.typeOf? src = some t)
    (hchannels : Shape.channelCount t.dims channel = .ok channels)
    (hscale : p.dims? scale = some [channels]) (hbias : p.dims? bias = some [channels])
    (hmean : p.dims? mean = some [channels]) (hvariance : p.dims? variance = some [channels]) :
    p.checkOperands (Request.batchNormalization dest src scale bias mean variance channel epsilon
      momentum).instruction = .ok () := by
  simp only [Request.instruction, checkOperands]
  rw [requireSameType_eq (a := 0) (b := 1) rfl rfl hdest hsrc, ok_bind,
    operandDims_eq (o := .input src) rfl (dims?_of_typeOf? hsrc), ok_bind, hchannels,
    Attempt.ofExcept_ok, shapeRule_ok, ok_bind,
    requireDims_eq (o := .input scale) rfl hscale, ok_bind,
    requireDims_eq (o := .input bias) rfl hbias, ok_bind,
    requireDims_eq (o := .inout mean) rfl hmean, ok_bind,
    requireDims_eq (o := .inout variance) rfl hvariance]

theorem checkOperands_arithmetic {lhs rhs : ValueId} (kind : ArithmeticKind)
    (hdest : p.typeOf? dest = some t) (hlhs : p.typeOf? lhs = some t)
    (hrhs : p.typeOf? rhs = some t) :
    p.checkOperands (Request.arithmetic dest lhs rhs kind).instruction = .ok () := by
  simp only [Request.instruction, checkOperands]
  rw [requireSameType_eq (a := 0) (b := 1) rfl rfl hdest hlhs, ok_bind,
    requireSameType_eq (a := 0) (b := 2) rfl rfl hdest hrhs]

end Program
end TensorIR
