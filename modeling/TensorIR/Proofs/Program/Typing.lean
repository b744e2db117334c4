import TensorIR.Builder.Request
import TensorIR.Proofs.Program.Verdict
import TensorIR.Proofs.Shape.Axes
import TensorIR.Proofs.Shape.Count
import TensorIR.Proofs.Shape.Window

/-!
# TensorIR.Proofs.Program.Typing

The typing rules of the instruction set, stated on types and unbounded numbers. Neither the handles
of types nor the machine limit on intermediate results plays a part in them, other than where a rule
asks for it.

* `WellTyped`: the rules. Each one gives the operands with their roles, and what is asked of their
  types.
* `Request.exists_of_acceptsRoles`: an instruction whose roles fit its kind is a request.
* `wellTyped_of_check`: an instruction that passes the check obeys a rule, one lemma for each kind.
-/

namespace TensorIR

/-- The types of values. -/
abbrev TypeEnv := ValueId → Option TensorType

/-- A value has the given dimensions, whatever it stores. -/
def TypeEnv.HasDims (env : TypeEnv) (v : ValueId) (dims : List Nat) : Prop :=
  ∃ kind, env v = some ⟨kind, dims⟩

/-- The types that a program gives to its values. -/
def Program.typeEnv (p : Program) : TypeEnv := p.typeOf?

/-- Two values store the same kind of element in the same dimensions. -/
def TypeEnv.SameType (env : TypeEnv) (a b : ValueId) : Prop := ∃ t, env a = some t ∧ env b = some t

/-- The typing rules. -/
inductive WellTyped (env : TypeEnv) : Instruction → Prop
  | elementwise {kind : InstrKind} {dest src : ValueId}
    (hkind : kind ∈ [.copy, .relu, .sigmoid, .tanh]) (hsame : env.SameType dest src) :
    WellTyped env ⟨kind, [.output dest, .input src]⟩
  | softmax {dest src expected selected : ValueId} (hsame : env.SameType dest src) :
    WellTyped env ⟨.softmax, [.output dest, .input src, .inout expected, .input selected]⟩
  | regression {dest src expected : ValueId} (hsame : env.SameType dest src) :
    WellTyped env ⟨.regression, [.output dest, .input src, .input expected]⟩
  | convolution {dest src filter bias : ValueId} {window : Window} {depth n h w c : Nat}
    (hsrc : env.HasDims src [n, h, w, c])
    (hheight : window.Applies h) (hwidth : window.Applies w)
    (hdest : env.HasDims dest [n, window.places h, window.places w, depth])
    (hfilter : env.HasDims filter [depth, window.kernel, window.kernel, c])
    (hbias : env.HasDims bias [depth]) :
    WellTyped env ⟨.convolution window depth,
      [.output dest, .input src, .input filter, .input bias]⟩
  | maxPool {dest src cache : ValueId} {window : Window} {n h w c : Nat}
    (hsrc : env.HasDims src [n, h, w, c])
    (hheight : window.Applies h) (hwidth : window.Applies w)
    (hdest : env.HasDims dest [n, window.places h, window.places w, c])
    (hcache : env.HasDims cache [n, window.places h, window.places w, c, 2]) :
    WellTyped env ⟨.pool .max window, [.output dest, .input src, .inout cache]⟩
  | avgPool {dest src cache : ValueId} {window : Window} {n h w c : Nat}
    (hsrc : env.HasDims src [n, h, w, c])
    (hheight : window.Applies h) (hwidth : window.Applies w)
    (hdest : env.HasDims dest [n, window.places h, window.places w, c])
    (hcache : env.HasDims cache []) :
    WellTyped env ⟨.pool .avg window, [.output dest, .input src, .inout cache]⟩
  | fullyConnected {dest src weights bias : ValueId} {depth batch inner : Nat} {rest : List Nat}
    (hsrc : env.HasDims src (batch :: rest)) (hinner : Shape.Counts rest inner)
    (hdest : env.HasDims dest [batch, depth]) (hweights : env.HasDims weights [depth, inner])
    (hbias : env.HasDims bias [depth]) :
    WellTyped env ⟨.fullyConnected depth,
      [.output dest, .input src, .input weights, .input bias]⟩
  /-- The dimensions asked for are those of the destination; the parameter is not looked at. -/
  | reshape {dest src : ValueId} {parameter source target : List Nat} {count : Nat}
    (hsrc : env.HasDims src source) (hdest : env.HasDims dest target)
    (hsource : Shape.Counts source count) (htarget : Shape.Counts target count) :
    WellTyped env ⟨.reshape parameter, [.output dest, .input src]⟩
  | transpose {dest src : ValueId} {shuffle source target : List Nat}
    (hsrc : env.HasDims src source) (hdest : env.HasDims dest target)
    (hshuffle : shuffle.Perm (List.range source.length))
    (hplaces : ∀ place : Nat, target[place]? = shuffle[place]?.bind (source[·]?)) :
    WellTyped env ⟨.transpose shuffle, [.output dest, .input src]⟩
  | concat {dest : ValueId} {srcs : List ValueId} {axis extent : Nat} {source : List Nat}
    (hne : srcs ≠ []) (hsrcs : ∀ src ∈ srcs, env.HasDims src source)
    (haxis : source[axis]? = some extent) (hfits : extent * srcs.length < Size.limit)
    (hdest : env.HasDims dest (source.set axis (extent * srcs.length))) :
    WellTyped env ⟨.concat axis, .output dest :: srcs.map .input⟩
  | batchNormalization {dest src scale bias mean variance : ValueId} {channel channels : Nat}
    {epsilon momentum : Binary32} {t : TensorType}
    (hdest : env dest = some t) (hsrc : env src = some t)
    (hchannels : t.dims[channel]? = some channels)
    (hscale : env.HasDims scale [channels]) (hbias : env.HasDims bias [channels])
    (hmean : env.HasDims mean [channels]) (hvariance : env.HasDims variance [channels]) :
    WellTyped env ⟨.batchNormalization channel epsilon momentum,
      [.output dest, .input src, .input scale, .input bias, .inout mean, .inout variance]⟩
  | arithmetic {dest lhs rhs : ValueId} {kind : ArithmeticKind} {t : TensorType}
    (hdest : env dest = some t) (hlhs : env lhs = some t) (hrhs : env rhs = some t) :
    WellTyped env ⟨.arithmetic kind, [.output dest, .input lhs, .input rhs]⟩

/-! ## Roles -/

/-- Operands are their roles and their values, place by place. -/
theorem exists_values_of_roles {operands : List Operand} :
    ∀ {roles : List Role}, operands.map (·.role) = roles →
      ∃ values, values.length = roles.length ∧ operands = List.zipWith Operand.mk roles values := by
  induction operands with
  | nil =>
    intro roles h
    subst h
    exact ⟨[], rfl, rfl⟩
  | cons o rest ih =>
    intro roles h
    subst h
    obtain ⟨values, hlen, hrest⟩ := ih rfl
    refine ⟨o.value :: values, by simp [hlen], ?_⟩
    rw [List.map_cons, List.zipWith_cons_cons, ← hrest]

theorem inputs_of_roles {operands : List Operand}
    (h : ∀ role ∈ operands.map (·.role), role = .input) :
    operands = (operands.map (·.value)).map .input := by
  rw [List.map_map]
  refine (List.map_id' _).symm.trans (List.map_congr_left fun o ho => ?_)
  have hrole : o.role = .input := h _ (List.mem_map_of_mem ho)
  cases o
  cases hrole
  rfl

/-- An instruction whose roles fit its kind is what some request asks for, which is no `concat`
without a source. -/
theorem Request.exists_of_acceptsRoles {i : Instruction} (h : i.kind.AcceptsRoles i.roles) :
    ∃ r : Request, r.instruction = i ∧ ∀ dest axis, r ≠ .concat dest [] axis := by
  obtain ⟨kind, operands⟩ := i
  unfold InstrKind.AcceptsRoles at h
  cases hlayout : kind.layout? with
  | some layout =>
    simp only [hlayout] at h
    obtain ⟨values, hlen, rfl⟩ := exists_values_of_roles h
    match kind, hlayout, values, hlen with
    | .copy, rfl, [dest, src], _ => exact ⟨.copy dest src, rfl, nofun⟩
    | .convolution window depth, rfl, [dest, src, filter, bias], _ =>
      exact ⟨.convolution dest src filter bias window depth, rfl, nofun⟩
    | .pool kind window, rfl, [dest, src, cache], _ =>
      exact ⟨.pool dest src cache kind window, rfl, nofun⟩
    | .fullyConnected depth, rfl, [dest, src, weights, bias], _ =>
      exact ⟨.fullyConnected dest src weights bias depth, rfl, nofun⟩
    | .relu, rfl, [dest, src], _ => exact ⟨.relu dest src, rfl, nofun⟩
    | .sigmoid, rfl, [dest, src], _ => exact ⟨.sigmoid dest src, rfl, nofun⟩
    | .tanh, rfl, [dest, src], _ => exact ⟨.tanh dest src, rfl, nofun⟩
    | .softmax, rfl, [dest, src, expected, selected], _ =>
      exact ⟨.softmax dest src expected selected, rfl, nofun⟩
    | .regression, rfl, [dest, src, expected], _ =>
      exact ⟨.regression dest src expected, rfl, nofun⟩
    | .reshape dims, rfl, [dest, src], _ => exact ⟨.reshape dest src dims, rfl, nofun⟩
    | .transpose shuffle, rfl, [dest, src], _ => exact ⟨.transpose dest src shuffle, rfl, nofun⟩
    | .batchNormalization channel epsilon momentum, rfl,
      [dest, src, scale, bias, mean, variance], _ =>
      exact ⟨.batchNormalization dest src scale bias mean variance channel epsilon momentum,
        rfl, nofun⟩
    | .arithmetic kind, rfl, [dest, lhs, rhs], _ =>
      exact ⟨.arithmetic dest lhs rhs kind, rfl, nofun⟩
  | none =>
    cases kind with
    | concat axis =>
      simp only [hlayout] at h
      split at h
      · next inputs hroles =>
        obtain ⟨⟨_, dest⟩, rest, rfl, rfl, rfl⟩ := List.map_eq_cons_iff.1 hroles
        obtain ⟨hne, hinputs⟩ := h
        refine ⟨.concat dest (rest.map (·.value)) axis, ?_, fun _ _ heq => ?_⟩
        · rw [Request.instruction, ← inputs_of_roles hinputs]
          rfl
        · obtain ⟨-, hnil, -⟩ := Request.concat.inj heq
          rw [List.map_eq_nil_iff] at hnil
          exact hne (by rw [hnil, List.map_nil])
      · exact h.elim
    | _ => cases hlayout

/-! ## Rules on operands -/

namespace Program

variable {p : Program} {i : Instruction} {o : Operand} {dims : List Nat} {index : Nat}

theorem dims?_eq_some_iff {v : ValueId} : p.dims? v = some dims ↔ p.typeEnv.HasDims v dims := by
  constructor
  · intro h
    obtain ⟨t, ht, rfl⟩ := Option.map_eq_some_iff.1 h
    exact ⟨t.kind, ht⟩
  · rintro ⟨kind, h⟩
    have h : p.typeOf? v = some ⟨kind, dims⟩ := h
    simp [dims?, h]

theorem hasDims_of_operandDims (ho : i.operand? index = some o)
    (h : p.operandDims i index = .ok dims) : p.typeEnv.HasDims o.value dims := by
  rw [← dims?_eq_some_iff]
  simp only [operandDims, operandValue, ho, ok_bind] at h
  cases hdims : p.dims? o.value with
  | none => rw [hdims] at h; cases h
  | some actual => rw [hdims] at h; cases h; rfl

theorem hasDims_of_requireDims {operand : String} (ho : i.operand? index = some o)
    (h : p.requireDims i index dims operand = .ok ()) : p.typeEnv.HasDims o.value dims := by
  obtain ⟨actual, hactual, h⟩ := bind_eq_ok.1 h
  split at h
  · next heq => exact heq ▸ hasDims_of_operandDims ho hactual
  · cases h

theorem typeRef?_of_operandType {ref : TypeRef} (ho : i.operand? index = some o)
    (h : p.operandType i index = .ok ref) : p.typeRef? o.value = some ref := by
  simp only [operandType, operandValue, ho, ok_bind] at h
  cases href : p.typeRef? o.value with
  | none => rw [href] at h; cases h
  | some actual => rw [href] at h; cases h; rfl

/-- Two values of one handle have the type of that handle. -/
theorem sameType_of_requireSameType (hp : p.WellFormed) {m n : Nat} {a b : Operand}
    (ha : i.operand? m = some a) (hb : i.operand? n = some b)
    (h : p.requireSameType i m n = .ok ()) : p.typeEnv.SameType a.value b.value := by
  obtain ⟨ref, hrefA, h⟩ := bind_eq_ok.1 h
  obtain ⟨refB, hrefB, h⟩ := bind_eq_ok.1 h
  split at h
  · next heq =>
    subst heq
    have hrefA := typeRef?_of_operandType ha hrefA
    have hrefB := typeRef?_of_operandType hb hrefB
    obtain ⟨v, hv, rfl⟩ := Option.map_eq_some_iff.1 hrefA
    obtain ⟨t, ht⟩ := hp.typed _ v hv
    exact ⟨t, by simp [typeEnv, typeOf?, hrefA, ht], by simp [typeEnv, typeOf?, hrefB, ht]⟩
  · cases h

/-! ## The rules of the kinds -/

section Kinds

variable {dest src : ValueId}

theorem convolution_wellTyped {filter bias : ValueId} {window : Window} {depth : Nat}
    (h : p.checkOperands (Request.convolution dest src filter bias window depth).instruction =
      .ok ()) :
    WellTyped p.typeEnv (Request.convolution dest src filter bias window depth).instruction := by
  obtain ⟨source, hsrc, h⟩ := bind_eq_ok.1 h
  obtain ⟨⟨image, out⟩, hslide, h⟩ := bind_eq_ok.1 h
  obtain ⟨_, hdest, h⟩ := bind_eq_ok.1 h
  obtain ⟨_, hfilter, hbias⟩ := bind_eq_ok.1 h
  obtain ⟨rfl, hheight, hwidth, rfl⟩ := Window.slide_eq_ok_iff.1 (Attempt.mapRefusal_eq_ok.1 hslide)
  exact .convolution (hasDims_of_operandDims (o := .input src) rfl hsrc) hheight hwidth
    (hasDims_of_requireDims (o := .output dest) rfl hdest)
    (hasDims_of_requireDims (o := .input filter) rfl hfilter)
    (hasDims_of_requireDims (o := .input bias) rfl hbias)

theorem pool_wellTyped {cache : ValueId} {kind : PoolKind} {window : Window}
    (h : p.checkOperands (Request.pool dest src cache kind window).instruction = .ok ()) :
    WellTyped p.typeEnv (Request.pool dest src cache kind window).instruction := by
  obtain ⟨source, hsrc, h⟩ := bind_eq_ok.1 h
  obtain ⟨⟨image, out⟩, hslide, h⟩ := bind_eq_ok.1 h
  obtain ⟨_, hdest, hcache⟩ := bind_eq_ok.1 h
  obtain ⟨rfl, hheight, hwidth, rfl⟩ := Window.slide_eq_ok_iff.1 (Attempt.mapRefusal_eq_ok.1 hslide)
  have hsrcDims := hasDims_of_operandDims (o := .input src) rfl hsrc
  have hdestDims := hasDims_of_requireDims (o := .output dest) rfl hdest
  have hcacheDims := hasDims_of_requireDims (o := .inout cache) rfl hcache
  cases kind with
  | max => exact .maxPool hsrcDims hheight hwidth hdestDims hcacheDims
  | avg => exact .avgPool hsrcDims hheight hwidth hdestDims hcacheDims

theorem fullyConnected_wellTyped {weights bias : ValueId} {depth : Nat}
    (h : p.checkOperands (Request.fullyConnected dest src weights bias depth).instruction =
      .ok ()) :
    WellTyped p.typeEnv (Request.fullyConnected dest src weights bias depth).instruction := by
  obtain ⟨source, hsrc, h⟩ := bind_eq_ok.1 h
  obtain ⟨⟨batch, inner⟩, hflat, h⟩ := bind_eq_ok.1 h
  obtain ⟨_, hdest, h⟩ := bind_eq_ok.1 h
  obtain ⟨_, hweights, hbias⟩ := bind_eq_ok.1 h
  obtain ⟨rest, rfl, hinner⟩ :=
    Shape.flattenTail_eq_ok_iff.1 (Attempt.mapRefusal_ofExcept_eq_ok.1 hflat)
  exact .fullyConnected (hasDims_of_operandDims (o := .input src) rfl hsrc) hinner
    (hasDims_of_requireDims (o := .output dest) rfl hdest)
    (hasDims_of_requireDims (o := .input weights) rfl hweights)
    (hasDims_of_requireDims (o := .input bias) rfl hbias)

theorem reshape_wellTyped {parameter : List Nat}
    (h : p.checkOperands (Request.reshape dest src parameter).instruction = .ok ()) :
    WellTyped p.typeEnv (Request.reshape dest src parameter).instruction := by
  obtain ⟨source, hsrc, h⟩ := bind_eq_ok.1 h
  obtain ⟨target, hdest, h⟩ := bind_eq_ok.1 h
  obtain ⟨count, hsource, htarget⟩ :=
    Shape.checkReshape_eq_ok_iff.1 (Attempt.mapRefusal_ofExcept_eq_ok.1 h)
  exact .reshape (hasDims_of_operandDims (o := .input src) rfl hsrc)
    (hasDims_of_operandDims (o := .output dest) rfl hdest) hsource htarget

theorem transpose_wellTyped {shuffle : List Nat}
    (h : p.checkOperands (Request.transpose dest src shuffle).instruction = .ok ()) :
    WellTyped p.typeEnv (Request.transpose dest src shuffle).instruction := by
  obtain ⟨source, hsrc, h⟩ := bind_eq_ok.1 h
  obtain ⟨target, htarget, hdest⟩ := bind_eq_ok.1 h
  obtain ⟨hshuffle, hplaces⟩ :=
    Shape.transposeDims_eq_ok_iff.1 (Attempt.mapRefusal_ofExcept_eq_ok.1 htarget)
  exact .transpose (hasDims_of_operandDims (o := .input src) rfl hsrc)
    (hasDims_of_requireDims (o := .output dest) rfl hdest) hshuffle hplaces

/-- Sources that are found to have the same dimensions. -/
theorem hasDims_of_concatSources {srcs : List ValueId} {axis : Nat} {sources : List (List Nat)}
    {source : List Nat}
    (h : (List.range' 1 ((Request.concat dest srcs axis).instruction.operands.length - 1)).mapM
      (p.operandDims (Request.concat dest srcs axis).instruction) = .ok sources)
    (hsame : ∀ dims ∈ sources, dims = source) :
    sources.length = srcs.length ∧ ∀ v ∈ srcs, p.typeEnv.HasDims v source := by
  obtain ⟨hlen, hall⟩ := mapM_eq_ok h
  have hlen : sources.length = srcs.length := by
    simpa [Request.instruction] using hlen
  refine ⟨hlen, fun v hv => ?_⟩
  obtain ⟨n, hn⟩ := List.mem_iff_getElem?.1 hv
  have hlt : n < sources.length := hlen ▸ (List.getElem?_eq_some_iff.1 hn).1
  obtain ⟨place, hplace, hdims⟩ := hall n sources[n] (List.getElem?_eq_getElem hlt)
  obtain ⟨_, hplace⟩ := List.getElem?_eq_some_iff.1 hplace
  rw [List.getElem_range', Nat.one_mul] at hplace
  have ho : (Request.concat dest srcs axis).instruction.operand? (1 + n) = some (.input v) := by
    simp [Request.instruction, Instruction.operand?, Nat.add_comm 1 n, hn]
  rw [← hplace, hsame _ (List.getElem_mem hlt)] at hdims
  exact hasDims_of_operandDims ho hdims

theorem concat_wellTyped {srcs : List ValueId} {axis : Nat} (hne : srcs ≠ [])
    (h : p.checkOperands (Request.concat dest srcs axis).instruction = .ok ()) :
    WellTyped p.typeEnv (Request.concat dest srcs axis).instruction := by
  obtain ⟨sources, hsources, h⟩ := bind_eq_ok.1 h
  obtain ⟨target, htarget, hdest⟩ := bind_eq_ok.1 h
  obtain ⟨source, extent, -, hsame, haxis, hfits, rfl⟩ :=
    Shape.concatDims_eq_ok_iff.1 (Attempt.mapRefusal_ofExcept_eq_ok.1 htarget)
  obtain ⟨hlen, hsrcs⟩ := hasDims_of_concatSources hsources hsame
  rw [hlen] at hfits hdest
  exact .concat hne hsrcs haxis hfits (hasDims_of_requireDims (o := .output dest) rfl hdest)

theorem batchNormalization_wellTyped (hp : p.WellFormed) {scale bias mean variance : ValueId}
    {channel : Nat} {epsilon momentum : Binary32}
    (h : p.checkOperands (Request.batchNormalization dest src scale bias mean variance channel
      epsilon momentum).instruction = .ok ()) :
    WellTyped p.typeEnv (Request.batchNormalization dest src scale bias mean variance channel
      epsilon momentum).instruction := by
  obtain ⟨_, hsame, h⟩ := bind_eq_ok.1 h
  obtain ⟨source, hsrc, h⟩ := bind_eq_ok.1 h
  obtain ⟨channels, hchannels, h⟩ := bind_eq_ok.1 h
  obtain ⟨_, hscale, h⟩ := bind_eq_ok.1 h
  obtain ⟨_, hbias, h⟩ := bind_eq_ok.1 h
  obtain ⟨_, hmean, hvariance⟩ := bind_eq_ok.1 h
  obtain ⟨kind, hkind⟩ := hasDims_of_operandDims (o := .input src) rfl hsrc
  obtain ⟨t, hdest, ht⟩ :=
    sameType_of_requireSameType hp (a := .output dest) (b := .input src) rfl rfl hsame
  obtain rfl : ⟨kind, source⟩ = t := Option.some.inj (hkind.symm.trans ht)
  exact .batchNormalization hdest ht
    (Shape.channelCount_eq_ok_iff.1 (Attempt.mapRefusal_ofExcept_eq_ok.1 hchannels))
    (hasDims_of_requireDims (o := .input scale) rfl hscale)
    (hasDims_of_requireDims (o := .input bias) rfl hbias)
    (hasDims_of_requireDims (o := .inout mean) rfl hmean)
    (hasDims_of_requireDims (o := .inout variance) rfl hvariance)

theorem arithmetic_wellTyped (hp : p.WellFormed) {lhs rhs : ValueId} {kind : ArithmeticKind}
    (h : p.checkOperands (Request.arithmetic dest lhs rhs kind).instruction = .ok ()) :
    WellTyped p.typeEnv (Request.arithmetic dest lhs rhs kind).instruction := by
  obtain ⟨_, hlhs, hrhs⟩ := bind_eq_ok.1 h
  obtain ⟨t, hdest, hlhs⟩ :=
    sameType_of_requireSameType hp (a := .output dest) (b := .input lhs) rfl rfl hlhs
  obtain ⟨u, hdest', hrhs⟩ :=
    sameType_of_requireSameType hp (a := .output dest) (b := .input rhs) rfl rfl hrhs
  obtain rfl : t = u := Option.some.inj (hdest.symm.trans hdest')
  exact .arithmetic hdest hlhs hrhs

end Kinds

/-- An instruction that passes the check obeys the typing rules. -/
theorem wellTyped_of_check (hp : p.WellFormed) (h : p.check i = .ok ()) :
    WellTyped p.typeEnv i := by
  unfold check at h
  split at h
  · next hroles =>
    obtain ⟨r, rfl, hsources⟩ := Request.exists_of_acceptsRoles hroles
    have hsame {dest src : ValueId} {kind : InstrKind} {rest : List Operand}
        (h : p.requireSameType ⟨kind, .output dest :: .input src :: rest⟩ 0 1 = .ok ()) :
        p.typeEnv.SameType dest src :=
      sameType_of_requireSameType hp (a := .output dest) (b := .input src) rfl rfl h
    cases r with
    | copy dest src => exact .elementwise (by simp) (hsame h)
    | convolution dest src filter bias window depth => exact convolution_wellTyped h
    | pool dest src cache kind window => exact pool_wellTyped h
    | fullyConnected dest src weights bias depth => exact fullyConnected_wellTyped h
    | relu dest src => exact .elementwise (by simp) (hsame h)
    | sigmoid dest src => exact .elementwise (by simp) (hsame h)
    | tanh dest src => exact .elementwise (by simp) (hsame h)
    | softmax dest src expected selected => exact .softmax (hsame h)
    | regression dest src expected => exact .regression (hsame h)
    | reshape dest src dims => exact reshape_wellTyped h
    | transpose dest src shuffle => exact transpose_wellTyped h
    | concat dest srcs axis =>
      refine concat_wellTyped ?_ h
      rintro rfl
      exact hsources dest axis rfl
    | batchNormalization dest src scale bias mean variance channel epsilon momentum =>
      exact batchNormalization_wellTyped hp h
    | arithmetic dest lhs rhs kind => exact arithmetic_wellTyped hp h
  · cases h

end Program

end TensorIR
