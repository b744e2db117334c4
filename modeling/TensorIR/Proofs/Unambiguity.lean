import TensorIR.Instruction.Kind
import TensorIR.Proofs.Binary32.Decimal

/-!
# TensorIR.Proofs.Unambiguity

What the textual form tells of types and of the parameters of instructions.

* `TensorType.text_inj`: the text of a type determines it.
* `InstrKind.SameUpToNaN`: the same kind with the same parameters, where the bits of a NaN do not
  count.
* `InstrKind.sameUpToNaN_of_texts`: the name of the operation and the text of the parameters
  determine a kind in this sense. Neither would do alone: `[3]` is the text of a depth as well as of
  one dimension.
* `texts_unambiguous`: both, with the converse.
-/

namespace TensorIR

/-! ## Types -/

theorem TensorType.text_inj {t u : TensorType} (h : t.text = u.text) : t = u := by
  have hbracket (kind : ElemKind) : '<' ∉ kind.name.toList := by cases kind <;> decide
  rw [text, text, String.append_left_inj] at h
  obtain ⟨hkind, hdims⟩ := Text.append_inj_at rfl (hbracket t.kind) (hbracket u.kind) h
  have hdims := Text.joined_sizes_inj rfl rfl hdims
  cases t
  cases u
  exact congrArg₂ mk (ElemKind.name_injective hkind) hdims

/-! ## Parameters -/

theorem PoolKind.name_injective {a b : PoolKind} (h : a.name = b.name) : a = b := by
  revert h; cases a <;> cases b <;> decide

theorem ArithmeticKind.name_injective {a b : ArithmeticKind} (h : a.name = b.name) : a = b := by
  revert h; cases a <;> cases b <;> decide

theorem Text.sizes_inj {as bs : List Nat} (h : Text.sizes as = Text.sizes bs) : as = bs :=
  Text.bracketed_inj rfl rfl h

namespace InstrKind

/-- The same kind with the same parameters, numbers that are NaN counting as one. -/
inductive SameUpToNaN : InstrKind → InstrKind → Prop
  | refl (kind : InstrKind) : SameUpToNaN kind kind
  | batchNormalization (channel : Nat) {epsilon epsilon' momentum momentum' : Binary32}
    (hepsilon : epsilon.SameDatum epsilon') (hmomentum : momentum.SameDatum momentum') :
    SameUpToNaN (.batchNormalization channel epsilon momentum)
      (.batchNormalization channel epsilon' momentum')

/-- The binary32 numbers among the parameters. -/
def numbers : InstrKind → List Binary32
  | batchNormalization _ epsilon momentum => [epsilon, momentum]
  | _ => []

/-- No parameter is NaN. -/
def NaNFree (kind : InstrKind) : Prop := ∀ x ∈ kind.numbers, x.isNaN = false

instance (kind : InstrKind) : Decidable kind.NaNFree :=
  inferInstanceAs (Decidable (∀ x ∈ kind.numbers, x.isNaN = false))

variable {a b : InstrKind}

theorem eq_of_pool_parameters {kind kind' : PoolKind} {window window' : Window}
    (h : (pool kind window).parameters = (pool kind' window').parameters) :
    pool kind window = pool kind' window' := by
  have hspace (kind : PoolKind) : ' ' ∉ kind.name.toList := by cases kind <;> decide
  obtain ⟨hkind, hwindow⟩ := Text.append_inj_at rfl (hspace kind) (hspace kind') h
  have hwindow := Text.bracketed_inj rfl rfl hwindow
  cases window
  cases window'
  cases hwindow
  rw [PoolKind.name_injective hkind]

theorem sameUpToNaN_of_batchNormalization_parameters {channel channel' : Nat}
    {epsilon epsilon' momentum momentum' : Binary32}
    (h : (batchNormalization channel epsilon momentum).parameters =
      (batchNormalization channel' epsilon' momentum').parameters) :
    SameUpToNaN (.batchNormalization channel epsilon momentum)
      (.batchNormalization channel' epsilon' momentum') := by
  have hitems (channel : Nat) (epsilon momentum : Binary32) :
      Text.Separable ' ' [toString channel, epsilon.text, momentum.text] := by
    simp only [Text.separable_cons]
    exact ⟨⟨toString_ne_empty _, notMem_toString rfl _⟩,
      ⟨epsilon.text_ne_empty, epsilon.space_notMem_text⟩,
      ⟨momentum.text_ne_empty, momentum.space_notMem_text⟩, List.forall_mem_nil _⟩
  rw [parameters, parameters, String.append_left_inj, String.append_right_inj] at h
  have hparts := Text.joined_inj rfl (hitems _ _ _) (hitems _ _ _) h
  simp only [List.cons.injEq, and_true] at hparts
  obtain ⟨hchannel, hepsilon, hmomentum⟩ := hparts
  obtain rfl := toString_inj hchannel
  exact .batchNormalization channel (Binary32.text_eq_iff.1 hepsilon)
    (Binary32.text_eq_iff.1 hmomentum)

theorem sameUpToNaN_of_texts (hopcode : a.opcode = b.opcode) (h : a.parameters = b.parameters) :
    a.SameUpToNaN b := by
  cases a <;> cases b <;> try (cases hopcode; done)
  case convolution.convolution w d w' d' =>
    have hlist := Text.bracketed_inj rfl rfl h
    cases w
    cases w'
    cases hlist
    exact .refl _
  case pool.pool =>
    rw [eq_of_pool_parameters h]
    exact .refl _
  case fullyConnected.fullyConnected =>
    cases Text.bracketed_inj rfl rfl h
    exact .refl _
  case reshape.reshape =>
    cases Text.sizes_inj h
    exact .refl _
  case transpose.transpose =>
    cases Text.sizes_inj h
    exact .refl _
  case concat.concat =>
    rw [parameters, parameters, String.append_left_inj, String.append_right_inj] at h
    cases toString_inj h
    exact .refl _
  case batchNormalization.batchNormalization =>
    exact sameUpToNaN_of_batchNormalization_parameters h
  case arithmetic.arithmetic =>
    cases ArithmeticKind.name_injective h
    exact .refl _
  all_goals exact .refl _

theorem SameUpToNaN.texts_eq (h : a.SameUpToNaN b) :
    a.opcode.name = b.opcode.name ∧ a.parameters = b.parameters := by
  cases h with
  | refl => exact ⟨rfl, rfl⟩
  | batchNormalization channel hepsilon hmomentum =>
    refine ⟨rfl, ?_⟩
    rw [parameters, parameters, Binary32.text_eq_iff.2 hepsilon, Binary32.text_eq_iff.2 hmomentum]

theorem texts_eq_iff :
    a.opcode.name = b.opcode.name ∧ a.parameters = b.parameters ↔ a.SameUpToNaN b :=
  ⟨fun h => sameUpToNaN_of_texts (Opcode.name_injective h.1) h.2, SameUpToNaN.texts_eq⟩

theorem NaNFree.sameUpToNaN_iff (ha : a.NaNFree) : a.SameUpToNaN b ↔ a = b := by
  constructor
  · intro h
    cases h with
    | refl => rfl
    | batchNormalization channel hepsilon hmomentum =>
      obtain ⟨hepsilonFree, hmomentumFree, -⟩ := by
        simpa only [NaNFree, numbers, List.forall_mem_cons] using ha
      rw [(Binary32.sameDatum_iff_eq hepsilonFree).1 hepsilon,
        (Binary32.sameDatum_iff_eq hmomentumFree).1 hmomentum]
  · rintro rfl
    exact .refl a

end InstrKind

/-- Two types have the same text exactly if they are equal. Two kinds of instruction have the same
operation name and the same text for their parameters exactly if they are the same kind with the
same parameters, up to the bits of a NaN; so they are equal if the parameters of one hold no NaN. -/
theorem texts_unambiguous :
    (∀ t u : TensorType, t.text = u.text ↔ t = u) ∧
    (∀ a b : InstrKind,
      a.opcode.name = b.opcode.name ∧ a.parameters = b.parameters ↔ a.SameUpToNaN b) ∧
    ∀ a b : InstrKind, a.NaNFree →
      (a.opcode.name = b.opcode.name ∧ a.parameters = b.parameters ↔ a = b) := by
  refine ⟨fun t u => ⟨TensorType.text_inj, congrArg _⟩, fun a b => InstrKind.texts_eq_iff, ?_⟩
  intro a b ha
  exact InstrKind.texts_eq_iff.trans ha.sameUpToNaN_iff

/-- Two zeros of different signs are told apart, and so are two dimensions and one with the digits of
both. -/
theorem texts_unambiguous_signedZero :
    let a : InstrKind := .batchNormalization 1 (.zero false) ⟨0x3f666666⟩
    let b : InstrKind := .batchNormalization 1 (.zero true) ⟨0x3f666666⟩
    a.NaNFree ∧ a.opcode.name = b.opcode.name ∧ a.parameters ≠ b.parameters ∧
      (⟨.index, [1, 2]⟩ : TensorType).text ≠ (⟨.index, [12]⟩ : TensorType).text := by
  intro a b
  have hfree : a.NaNFree := by decide
  have hkinds := texts_unambiguous.2.2 a b hfree
  refine ⟨hfree, rfl, fun h => ?_, fun h => ?_⟩
  · exact absurd (hkinds.1 ⟨rfl, h⟩) (by decide)
  · exact absurd ((texts_unambiguous.1 _ _).1 h) (by decide)

end TensorIR
