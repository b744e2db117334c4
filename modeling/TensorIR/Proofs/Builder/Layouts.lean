import TensorIR.Proofs.Builder.Allocation
import TensorIR.Proofs.Builder.Representation

/-!
# TensorIR.Proofs.Builder.Layouts

Reshapes and transpositions one after the other. Types are compared by their handles, within one
program: an operator was built at some time (`Program.Made`), further calls may have followed, and
an operator that is built now takes the handle of a known type (`Program.Makes`).

* `types_of_made_reshape`, `types_of_made_transpose`: the type of what was made, at the end of the
  run.
* `makes_into`: the handle of what an operator makes that declares nothing but a destination.
* `layouts_round_trip`: a reshape is taken back by a reshape, a transposition by the inverse
  permutation, and two transpositions are one by the composed permutation.
-/

namespace TensorIR
namespace Program

open Operator

variable {p q : Program} {calls : List Call} {op : Operator} {x y : ValueId} {ref : TypeRef}
  {t : TensorType} {kind : ElemKind} {dims source target shuffle : List Nat}

/-- In a run from `p` the operator was built, and `dest` is the destination of its instruction. -/
def Made (p : Program) (calls : List Call) (op : Operator) (dest : ValueId) : Prop :=
  ∃ config id, (⟨config, .operator op⟩, .ok (.instr id)) ∈ p.trace calls ∧
    (p.after calls).destOf id = .ok dest

/-- The operator succeeds under all settings, and its destination has the given type handle. -/
def Makes (p : Program) (op : Operator) (ref : TypeRef) : Prop :=
  ∀ config, ∃ id q dest, p.perform ⟨config, .operator op⟩ = (.ok (.instr id), q) ∧
    q.destOf id = .ok dest ∧ q.typeRef? dest = some ref

theorem Extends.destOf (h : p.Extends q) {id : InstrId} {dest : ValueId}
    (hdest : p.destOf id = .ok dest) : q.destOf id = .ok dest := by
  cases hplaced : p.instr? id with
  | none =>
    rw [Program.destOf, hplaced] at hdest
    cases hdest
  | some placed => rwa [Program.destOf, h.instr? hplaced, ← hplaced]

theorem destOf_carryOut (p : Program) (plan : Plan) :
    (plan.carryOut p).destOf ⟨p.instrs.length⟩ = .ok plan.request.dest := by
  have hlast : (plan.carryOut p).instr? ⟨p.instrs.length⟩ =
      some ⟨plan.request.instruction, p.fresh plan.declarations.length⟩ := by
    rw [instr?, (gains_carryOut p plan).instrs, List.getElem?_concat_length]
  exact destOf_eq hlast plan.request.singleOutput

/-! ## What was made -/

/-- What an operator found and what it allocated are still there at the end of the run. -/
theorem exists_allocates_of_made (hp : p.WellFormed) (h : p.Made calls op y) :
    ∃ (config : Config) (r : Program) (ds : List Declaration) (request : Request),
      Allocates config r.typeEnv r.fresh op ds request ∧
      (∀ id t, r.typeOf? id = some t → (p.after calls).typeOf? id = some t) ∧
      ∀ n d, ds[n]? = some d → request.dest = r.fresh n →
        (p.after calls).typeOf? y = some d.type := by
  obtain ⟨config, id, hmem, hdest⟩ := h
  obtain ⟨r, hr, houtcome, hlarger⟩ := exists_of_mem_trace calls hp hmem
  rw [perform_operator hr] at houtcome hlarger
  cases hplan : op.plan config r with
  | error e =>
    rw [hplan] at houtcome
    cases houtcome
  | ok plan =>
    rw [hplan] at houtcome hlarger
    cases houtcome
    have hgains := gains_carryOut r plan
    cases hdest.symm.trans (hlarger.destOf (destOf_carryOut r plan))
    refine ⟨config, r, plan.declarations, plan.request, plan_allocates hplan,
      fun id t => (hgains.larger.trans hlarger).typeOf?, fun n d hd hfresh => ?_⟩
    rw [hfresh]
    exact hlarger.typeOf? (hgains.declared n d hd).1

theorem types_of_made_reshape (hp : p.WellFormed)
    (hx : (p.after calls).typeOf? x = some ⟨kind, dims⟩)
    (h : p.Made calls (.reshape x target) y) :
    (p.after calls).typeOf? y = some ⟨kind, target⟩ ∧
      ∃ count, Shape.Counts dims count ∧ Shape.Counts target count := by
  obtain ⟨config, r, ds, request, hallocates, hinputs, hdest⟩ := exists_allocates_of_made hp h
  cases hallocates with
  | reshape hinput hsource htarget =>
    cases hx.symm.trans (hinputs x _ hinput)
    exact ⟨hdest 0 _ rfl rfl, _, hsource, htarget⟩

theorem types_of_made_transpose (hp : p.WellFormed)
    (hx : (p.after calls).typeOf? x = some ⟨kind, dims⟩)
    (h : p.Made calls (.transpose x shuffle) y) :
    ∃ target, (p.after calls).typeOf? y = some ⟨kind, target⟩ ∧
      shuffle.Perm (List.range dims.length) ∧
      ∀ place : Nat, target[place]? = shuffle[place]?.bind (dims[·]?) := by
  obtain ⟨config, r, ds, request, hallocates, hinputs, hdest⟩ := exists_allocates_of_made hp h
  cases hallocates with
  | transpose hinput hshuffle hplaces =>
    cases hx.symm.trans (hinputs x _ hinput)
    exact ⟨_, hdest 0 _ rfl rfl, hshuffle, hplaces⟩

/-! ## What can be made -/

/-- An operator that declares nothing but a destination takes the handle of the type of it. -/
theorem makes_into (hp : p.WellFormed) {request : ValueId → Request}
    (hplan : ∀ config, op.plan config p = .ok (into p t request))
    (hdest : (request (p.fresh 0)).dest = p.fresh 0) : p.Makes op (p.internType t).1 := by
  intro config
  have hgains := gains_carryOut p (into p t request)
  refine ⟨⟨p.instrs.length⟩, (into p t request).carryOut p, p.fresh 0, ?_, ?_, ?_⟩
  · rw [perform_operator hp, hplan config]
  · rw [← hdest]
    exact destOf_carryOut p (into p t request)
  · obtain ⟨ref, href, hknown⟩ := Option.bind_eq_some_iff.1 (hgains.declared 0 _ rfl).1
    have hinterned : p.declareAs { type := t } |>.Extends ((into p t request).carryOut p) :=
      extends_append _ _
    have hsame := hinterned.type? ((extends_declare _ _ _ _).type? (type?_internType p t))
    rw [href, TypeTable.get?_inj hknown hsame]

theorem makes_reshape (hp : p.WellFormed) {count : Nat} (hx : p.typeOf? x = some ⟨kind, source⟩)
    (hsource : Shape.Counts source count) (htarget : Shape.Counts target count) :
    p.Makes (.reshape x target) (p.internType ⟨kind, target⟩).1 := by
  have hplan (config : Config) : (Operator.reshape x target).plan config p =
      .ok (into p ⟨kind, target⟩ (.reshape · x target)) :=
    plan_of_allocates (.reshape hx hsource htarget)
  exact makes_into hp hplan rfl

theorem makes_transpose (hp : p.WellFormed) (hx : p.typeOf? x = some ⟨kind, source⟩)
    (hshuffle : shuffle.Perm (List.range source.length))
    (hplaces : ∀ place : Nat, target[place]? = shuffle[place]?.bind (source[·]?)) :
    p.Makes (.transpose x shuffle) (p.internType ⟨kind, target⟩).1 := by
  have hplan (config : Config) : (Operator.transpose x shuffle).plan config p =
      .ok (into p ⟨kind, target⟩ (.transpose · x shuffle)) :=
    plan_of_allocates (.transpose hx hshuffle hplaces)
  exact makes_into hp hplan rfl

/-! ## Round trips -/

theorem makes_of_type? (hknown : p.type? ref = some t) (h : p.Makes op (p.internType t).1) :
    p.Makes op ref := by
  rwa [Build.internType_of_type? hknown] at h

theorem makes_reshape_back (hp : p.WellFormed) (hx : (p.after calls).typeOf? x = some ⟨kind, dims⟩)
    (hmade : p.Made calls (.reshape x target) y)
    (href : (p.after calls).type? ref = some ⟨kind, dims⟩) :
    (p.after calls).Makes (.reshape y dims) ref := by
  obtain ⟨hy, count, hsource, htarget⟩ := types_of_made_reshape hp hx hmade
  exact makes_of_type? href (makes_reshape (hp.after calls) hy htarget hsource)

theorem makes_transpose_back (hp : p.WellFormed)
    (hx : (p.after calls).typeOf? x = some ⟨kind, dims⟩) {back : List Nat}
    (hback : Shape.Inverse shuffle back) (hmade : p.Made calls (.transpose x shuffle) y)
    (href : (p.after calls).type? ref = some ⟨kind, dims⟩) :
    (p.after calls).Makes (.transpose y back) ref := by
  obtain ⟨target, hy, hshuffle, htarget⟩ := types_of_made_transpose hp hx hmade
  have hlen : target.length = dims.length := (Shape.perm_of_places hshuffle htarget).length_eq
  have hbackPerm : back.Perm (List.range target.length) := hlen ▸ hback.perm hshuffle
  obtain ⟨out, hout⟩ := Shape.exists_places hbackPerm
  have hmakes := makes_transpose (hp.after calls) hy hbackPerm hout
  rw [Shape.eq_of_inverse hback hshuffle htarget hout] at hmakes
  exact makes_of_type? href hmakes

/-- Both ways of transposing by two permutations can be taken, and lead to one handle. -/
theorem makes_transpose_twice (hp : p.WellFormed)
    (hx : (p.after calls).typeOf? x = some ⟨kind, dims⟩) {first second both : List Nat}
    (hfirst : first.Perm (List.range dims.length)) (hsecond : second.Perm (List.range dims.length))
    (hboth : Shape.Composed first second both) (hmade : p.Made calls (.transpose x first) y) :
    ∃ r, (p.after calls).Makes (.transpose y second) r ∧
      (p.after calls).Makes (.transpose x both) r := by
  obtain ⟨target, hy, -, htarget⟩ := types_of_made_transpose hp hx hmade
  have hlen : target.length = dims.length := (Shape.perm_of_places hfirst htarget).length_eq
  have hsecond' : second.Perm (List.range target.length) := by rwa [hlen]
  obtain ⟨out, hout⟩ := Shape.exists_places hsecond'
  exact ⟨_, makes_transpose (hp.after calls) hy hsecond' hout,
    makes_transpose (hp.after calls) hx (hboth.perm hfirst hsecond)
      ((hboth.places_iff htarget).1 hout)⟩

/-- Where both ways were taken, the destinations have one handle. -/
theorem typeRef?_eq_of_made_transposes (hp : p.WellFormed)
    (hx : (p.after calls).typeOf? x = some ⟨kind, dims⟩) {first second both : List Nat}
    (hboth : Shape.Composed first second both) (hy : p.Made calls (.transpose x first) y)
    {z w : ValueId} (hz : p.Made calls (.transpose y second) z)
    (hw : p.Made calls (.transpose x both) w) :
    ∃ r, (p.after calls).typeRef? z = some r ∧ (p.after calls).typeRef? w = some r := by
  obtain ⟨target, hy, -, htarget⟩ := types_of_made_transpose hp hx hy
  obtain ⟨out, hz, -, hout⟩ := types_of_made_transpose hp hy hz
  obtain ⟨out', hw, -, hout'⟩ := types_of_made_transpose hp hx hw
  have hsame : out = out' := List.ext_getElem? fun place =>
    ((hboth.places_iff htarget).1 hout place).trans (hout' place).symm
  exact typeRef?_eq_of_typeOf? hz (hsame ▸ hw)

/-- A value is laid out anew in the course of a run, with any calls in between.

* A destination that it was reshaped into can be reshaped back to its dimensions, and what comes out
  has the type handle of the value.
* It can be transposed by every permutation, and a destination of that by the inverse permutation,
  and what comes out has the type handle of the value.
* Its transposition by one permutation can be transposed by another. The two permutations have a
  composed one, and the transposition by that comes out with the same type handle, whether both ways
  are still to be taken or were taken already, in any order. -/
theorem layouts_round_trip (hp : p.Reachable) (hx : p.typeRef? x = some ref)
    (hdims : p.dims? x = some dims) (calls : List Call) :
    let q := p.after calls
    (∀ target y, p.Made calls (.reshape x target) y → q.Makes (.reshape y dims) ref) ∧
    (∀ shuffle, shuffle.Perm (List.range dims.length) →
      (∃ r, q.Makes (.transpose x shuffle) r) ∧ (∃ back, Shape.Inverse shuffle back) ∧
        ∀ back y, Shape.Inverse shuffle back → p.Made calls (.transpose x shuffle) y →
          q.Makes (.transpose y back) ref) ∧
    ∀ first second, first.Perm (List.range dims.length) → second.Perm (List.range dims.length) →
      (∃ both, Shape.Composed first second both) ∧
        ∀ both, Shape.Composed first second both →
          both.Perm (List.range dims.length) ∧
          ∀ y, p.Made calls (.transpose x first) y →
            (∃ r, q.Makes (.transpose y second) r ∧ q.Makes (.transpose x both) r) ∧
            ∀ z w, p.Made calls (.transpose y second) z → p.Made calls (.transpose x both) w →
              ∃ r, q.typeRef? z = some r ∧ q.typeRef? w = some r := by
  intro q
  have hw := hp.wellFormed
  have hlarger : p.Extends q := extends_after calls hw
  obtain ⟨⟨kind, dims⟩, ht, rfl⟩ := Option.map_eq_some_iff.1 hdims
  have htype : q.typeOf? x = some ⟨kind, dims⟩ := hlarger.typeOf? ht
  have href : q.type? ref = some ⟨kind, dims⟩ := by
    rwa [typeOf?, hlarger.typeRef? hx, Option.bind_some] at htype
  refine ⟨?_, ?_, ?_⟩
  · intro target y hy
    exact makes_reshape_back hw htype hy href
  · intro shuffle hshuffle
    obtain ⟨target, htarget⟩ := Shape.exists_places hshuffle
    refine ⟨⟨_, makes_transpose (hw.after calls) htype hshuffle htarget⟩,
      Shape.exists_inverse hshuffle, fun back y hback hy => ?_⟩
    exact makes_transpose_back hw htype hback hy href
  · intro first second hfirst hsecond
    have hlen : first.length = dims.length := by simpa using hfirst.length_eq
    have hsecond' : second.Perm (List.range first.length) := by rwa [hlen]
    refine ⟨Shape.exists_places hsecond', fun both hboth => ⟨hboth.perm hfirst hsecond, ?_⟩⟩
    intro y hy
    refine ⟨makes_transpose_twice hw htype hfirst hsecond hboth hy, fun z w hz hw' => ?_⟩
    exact typeRef?_eq_of_made_transposes hw htype hboth hy hz hw'

/-- A tensor of rank three is transposed twice, transposed once by the composed permutation and
reshaped, with a request for a type in between. -/
theorem layouts_round_trip_rankThree :
    let p := ({} : Program).after [⟨{}, .declare ⟨.float32, [2, 3, 4]⟩ {} "x"⟩]
    let calls : List Call := [⟨{}, .operator (.transpose ⟨0⟩ [1, 2, 0])⟩,
      ⟨{}, .internType ⟨.int8, [2]⟩⟩, ⟨{}, .operator (.reshape ⟨0⟩ [4, 6])⟩,
      ⟨{ verifyOnBuild := false }, .operator (.transpose ⟨1⟩ [2, 1, 0])⟩,
      ⟨{}, .operator (.transpose ⟨0⟩ [0, 2, 1])⟩]
    let q := p.after calls
    p.Reachable ∧ p.typeRef? ⟨0⟩ = some ⟨0⟩ ∧ p.dims? ⟨0⟩ = some [2, 3, 4] ∧
      q.Makes (.reshape ⟨3⟩ [2, 3, 4]) ⟨0⟩ ∧ q.Makes (.transpose ⟨1⟩ [2, 0, 1]) ⟨0⟩ ∧
      q.dims? ⟨5⟩ = some [2, 4, 3] ∧
      ∃ r, q.typeRef? ⟨5⟩ = some r ∧ q.typeRef? ⟨7⟩ = some r := by
  intro p calls q
  have hp : p.Reachable := ⟨_, rfl⟩
  have hinverse : Shape.Inverse [1, 2, 0] [2, 0, 1] := by
    intro place axis
    rcases place with _ | _ | _ | place <;> rcases axis with _ | _ | _ | axis <;> simp
  have hcomposed : Shape.Composed [1, 2, 0] [2, 1, 0] [0, 2, 1] := by
    intro place
    rcases place with _ | _ | _ | place <;> rfl
  have hturned : p.Made calls (.transpose ⟨0⟩ [1, 2, 0]) ⟨1⟩ := ⟨{}, ⟨0⟩, by decide, by decide⟩
  have hreshaped : p.Made calls (.reshape ⟨0⟩ [4, 6]) ⟨3⟩ := ⟨{}, ⟨1⟩, by decide, by decide⟩
  have htwice : p.Made calls (.transpose ⟨1⟩ [2, 1, 0]) ⟨5⟩ :=
    ⟨{ verifyOnBuild := false }, ⟨2⟩, by decide, by decide⟩
  have honce : p.Made calls (.transpose ⟨0⟩ [0, 2, 1]) ⟨7⟩ := ⟨{}, ⟨3⟩, by decide, by decide⟩
  obtain ⟨hreshape, htranspose, hcompose⟩ :=
    layouts_round_trip hp (by decide : p.typeRef? ⟨0⟩ = some ⟨0⟩)
      (by decide : p.dims? ⟨0⟩ = some [2, 3, 4]) calls
  obtain ⟨-, -, hback⟩ := htranspose [1, 2, 0] (by decide)
  obtain ⟨-, hboth⟩ := hcompose [1, 2, 0] [2, 1, 0] (by decide) (by decide)
  exact ⟨hp, by decide, by decide, hreshape _ _ hreshaped, hback _ _ hinverse hturned, by decide,
    ((hboth _ hcomposed).2 _ hturned).2 _ _ htwice honce⟩

end Program
end TensorIR
