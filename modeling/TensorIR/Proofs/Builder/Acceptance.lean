import TensorIR.Proofs.Builder.Fitting
import TensorIR.Proofs.Builder.Run
import TensorIR.Proofs.Program.Typing

/-!
# TensorIR.Proofs.Builder.Acceptance

Verification accepts exactly the instructions that obey the typing rules.

* `check_of_wellTyped`: an instruction that obeys a rule passes the check.
* `verifyAs_eq_ok_iff`: in a program that was built step by step, the check and the rules agree on
  every instruction, whether it stands in the program or not.
-/

namespace TensorIR
namespace Program

variable {p : Program} {i : Instruction}

theorem check_eq_ok (hroles : i.kind.AcceptsRoles i.roles) (h : p.checkOperands i = .ok ()) :
    p.check i = .ok () := by
  rw [check, if_pos hroles, h]

theorem dims?_of_hasDims {v : ValueId} {dims : List Nat} (h : p.typeEnv.HasDims v dims) :
    p.dims? v = some dims :=
  dims?_eq_some_iff.2 h

/-- The rule of a `concat` of sources of equal dimensions. -/
theorem checkOperands_concat_of_same {dest : ValueId} {srcs : List ValueId} {axis extent : Nat}
    {source : List Nat} (hne : srcs ≠ []) (hsrcs : ∀ src ∈ srcs, p.typeEnv.HasDims src source)
    (haxis : source[axis]? = some extent) :
    p.checkOperands (Request.concat dest srcs axis).instruction = (do
      let expected ← shapeRule (Attempt.ofExcept
        (if extent * srcs.length < Size.limit then .ok (source.set axis (extent * srcs.length))
        else .error (.overflow Opcode.concat.name)))
      p.requireDims (Request.concat dest srcs axis).instruction 0 expected "output") := by
  have hsame : ∀ dims ∈ srcs.map fun _ => source, dims = source := by
    intro dims hdims
    obtain ⟨_, -, rfl⟩ := List.mem_map.1 hdims
    rfl
  rw [checkOperands_concat_eq (List.length_map ..),
    Shape.concatDims_of_same (by simpa using hne) hsame haxis, List.length_map]
  intro n dims hdims
  rw [List.getElem?_map] at hdims
  obtain ⟨v, hv, rfl⟩ := Option.map_eq_some_iff.1 hdims
  exact ⟨v, hv, dims?_of_hasDims (hsrcs v (List.mem_of_getElem? hv))⟩

theorem concat_fits {dest : ValueId} {srcs : List ValueId} {axis extent : Nat}
    {source : List Nat} (hne : srcs ≠ []) (hsrcs : ∀ src ∈ srcs, p.typeEnv.HasDims src source)
    (haxis : source[axis]? = some extent) (hfits : extent * srcs.length < Size.limit)
    (hdest : p.typeEnv.HasDims dest (source.set axis (extent * srcs.length))) :
    p.checkOperands (Request.concat dest srcs axis).instruction = .ok () := by
  rw [checkOperands_concat_of_same hne hsrcs haxis, if_pos hfits]
  exact requireDims_eq (o := .output dest) rfl (dims?_of_hasDims hdest)

/-- An instruction that obeys a typing rule passes the check. -/
theorem check_of_wellTyped (h : WellTyped p.typeEnv i) : p.check i = .ok () := by
  cases h with
  | @elementwise kind _ _ hkind hsame =>
    obtain ⟨t, hdest, hsrc⟩ := hsame
    refine check_eq_ok ?_ (checkOperands_like ?_ hdest hsrc)
    · simp only [List.mem_cons, List.not_mem_nil, or_false] at hkind
      rcases hkind with rfl | rfl | rfl | rfl <;> rfl
    · simp only [List.mem_cons, List.not_mem_nil, or_false] at hkind ⊢
      rcases hkind with rfl | rfl | rfl | rfl <;> simp
  | softmax hsame =>
    obtain ⟨t, hdest, hsrc⟩ := hsame
    exact check_eq_ok rfl (checkOperands_like (by simp) hdest hsrc)
  | regression hsame =>
    obtain ⟨t, hdest, hsrc⟩ := hsame
    exact check_eq_ok rfl (checkOperands_like (by simp) hdest hsrc)
  | convolution hsrc hheight hwidth hdest hfilter hbias =>
    exact check_eq_ok rfl (checkOperands_convolution (dims?_of_hasDims hsrc)
      (Window.slide_of_applies hheight hwidth) (dims?_of_hasDims hdest) (dims?_of_hasDims hfilter)
      (dims?_of_hasDims hbias))
  | maxPool hsrc hheight hwidth hdest hcache =>
    exact check_eq_ok rfl (checkOperands_pool (dims?_of_hasDims hsrc)
      (Window.slide_of_applies hheight hwidth) (dims?_of_hasDims hdest) (dims?_of_hasDims hcache))
  | avgPool hsrc hheight hwidth hdest hcache =>
    exact check_eq_ok rfl (checkOperands_pool (dims?_of_hasDims hsrc)
      (Window.slide_of_applies hheight hwidth) (dims?_of_hasDims hdest) (dims?_of_hasDims hcache))
  | fullyConnected hsrc hinner hdest hweights hbias =>
    exact check_eq_ok rfl (checkOperands_fullyConnected (dims?_of_hasDims hsrc)
      (Shape.flattenTail_eq_ok_iff.2 ⟨_, rfl, hinner⟩) (dims?_of_hasDims hdest)
      (dims?_of_hasDims hweights) (dims?_of_hasDims hbias))
  | reshape hsrc hdest hsource htarget =>
    exact check_eq_ok rfl (checkOperands_reshape (dims?_of_hasDims hsrc) (dims?_of_hasDims hdest)
      (Shape.checkReshape_eq_ok_iff.2 ⟨_, hsource, htarget⟩) _)
  | transpose hsrc hdest hshuffle hplaces =>
    exact check_eq_ok rfl (checkOperands_transpose (dims?_of_hasDims hsrc)
      (Shape.transposeDims_eq_ok_iff.2 ⟨hshuffle, hplaces⟩) (dims?_of_hasDims hdest))
  | @concat dest srcs axis _ _ hne hsrcs haxis hfits hdest =>
    refine check_eq_ok (Request.acceptsRoles (.concat dest srcs axis) ?_)
      (concat_fits hne hsrcs haxis hfits hdest)
    intro _ _ heq
    obtain ⟨-, hnil, -⟩ := Request.concat.inj heq
    exact hne hnil
  | batchNormalization hdest hsrc hchannels hscale hbias hmean hvariance =>
    exact check_eq_ok rfl (checkOperands_batchNormalization _ _ hdest hsrc
      (Shape.channelCount_eq_ok_iff.2 hchannels) (dims?_of_hasDims hscale)
      (dims?_of_hasDims hbias) (dims?_of_hasDims hmean) (dims?_of_hasDims hvariance))
  | arithmetic hdest hlhs hrhs =>
    exact check_eq_ok rfl (checkOperands_arithmetic _ hdest hlhs hrhs)

/-- In a program that was built step by step, verification accepts an instruction exactly if it
obeys a typing rule. The instruction need not stand in the program; its position is for the report
only. -/
theorem verifyAs_eq_ok_iff (hp : p.Reachable) (id : InstrId) (i : Instruction) :
    p.verifyAs id i = .ok () ↔ WellTyped p.typeEnv i := by
  rw [verifyAs, blaming, Attempt.mapRefusal_eq_ok]
  exact ⟨wellTyped_of_check hp.wellFormed, check_of_wellTyped⟩

/-- A padded convolution that moves by two places, and a copy between values of different types. -/
theorem verifyAs_eq_ok_iff_stridedConvolution :
    let p := ({} : Program).after [⟨{}, .declare ⟨.float32, [1, 5, 4, 3]⟩ {} "src"⟩,
      ⟨{}, .declare ⟨.float32, [1, 3, 2, 8]⟩ {} "dest"⟩,
      ⟨{}, .declare ⟨.float32, [8, 3, 3, 3]⟩ {} "filter"⟩,
      ⟨{}, .declare ⟨.float32, [8]⟩ {} "bias"⟩]
    p.Reachable ∧
      WellTyped p.typeEnv (Request.convolution ⟨1⟩ ⟨0⟩ ⟨2⟩ ⟨3⟩ ⟨3, 2, 1⟩ 8).instruction ∧
      ¬ WellTyped p.typeEnv (Request.copy ⟨1⟩ ⟨0⟩).instruction := by
  intro p
  have hp : p.Reachable := ⟨_, rfl⟩
  have hcopy : p.verifyAs ⟨0⟩ (Request.copy ⟨1⟩ ⟨0⟩).instruction ≠ .ok () := by decide
  refine ⟨hp, (verifyAs_eq_ok_iff hp ⟨0⟩ _).1 (by decide), fun h => hcopy ?_⟩
  exact (verifyAs_eq_ok_iff hp ⟨0⟩ _).2 h

end Program
end TensorIR
