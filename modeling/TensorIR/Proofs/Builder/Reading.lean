import TensorIR.Proofs.Builder.Admission
import TensorIR.Proofs.Builder.Plan
import TensorIR.Proofs.TypeTable

/-!
# TensorIR.Proofs.Builder.Reading

Constructions next to the computations that foretell them.

* `Build.Reads`: a construction that changes nothing and answers as a computation does. The steps
  that look at a value read its type (`reads_typeRefOf`, `reads_dimsOf`, `reads_kindOf`).
* `Build.Follows`: a construction that ends as a plan tells, as soon as the instruction of the plan
  is permitted. `Follows.read` and its special cases put a step before it that reads or computes.
* `declare_bind_run`, `like_bind_run`, `Follows.request`: the steps that change the program.
-/

namespace TensorIR
namespace Build

open Program Operator

variable {α β γ δ : Type} {p q : Program} {config : Config} {id : ValueId} {t : TensorType}

/-! ## Reading steps -/

/-- Both fail alike or both answer, with related answers, and the program stays as it is. -/
inductive Reads (p : Program) (m : Build α) (x : Attempt ProgramError β) (R : α → β → Prop) : Prop
  | answer (a : α) (b : β) (hm : m.run p = .ok a p) (hx : x = .ok b) (h : R a b)
  | abort (e : Abort ProgramError) (hm : m.run p = .error e p) (hx : x = .error e)

namespace Reads

variable {m : Build α} {x : Attempt ProgramError β} {R : α → β → Prop}

theorem pure {a : α} {b : β} (h : R a b) : Reads p (Pure.pure a) (.ok b) R := .answer a b rfl rfl h

theorem bind {S : γ → δ → Prop} {f : α → Build γ} {g : β → Attempt ProgramError δ}
    (h : Reads p m x R) (hf : ∀ a b, R a b → Reads p (f a) (g b) S) :
    Reads p (m >>= f) (x >>= g) S := by
  cases h with
  | abort e hm hx => exact .abort e (by simp [hm]) (by simp [hx])
  | answer a b hm hx hab =>
    cases hf a b hab with
    | abort e hm' hx' => exact .abort e (by simp [hm, hm']) (by simp [hx, hx'])
    | answer c d hm' hx' hcd => exact .answer c d (by simp [hm, hm']) (by simp [hx, hx']) hcd

theorem mapM {view : δ → γ} {f : α → Build γ} {g : α → Attempt ProgramError δ}
    (h : ∀ a, Reads p (f a) (g a) (fun c d => c = view d)) (as : List α) :
    Reads p (as.mapM f) (as.mapM g) (fun cs ds => cs = ds.map view) := by
  induction as with
  | nil => exact .pure rfl
  | cons a as ih =>
    rw [List.mapM_cons, List.mapM_cons]
    refine (h a).bind fun c d hcd => ih.bind fun cs ds hrest => .pure ?_
    rw [hcd, hrest, List.map_cons]

end Reads

/-- A look-up that finds something for every value of a known type reads that type. -/
theorem reads_known {R : α → TensorType → Prop} {look : Program → Option α} (hp : p.WellFormed)
    (hsome : ∀ ref t, p.typeRef? id = some ref → p.type? ref = some t →
      ∃ a, look p = some a ∧ R a t)
    (hnone : p.typeRef? id = none → look p = none) :
    Reads p (known id look) (typeOf p id) R := by
  cases href : p.typeRef? id with
  | none =>
    refine .abort (.refused (.unknownValue id)) ?_ ?_
    · simp only [known, EStateM.run_bind, EStateM.run_get, hnone href]
      rfl
    · simp [typeOf, typeOf?, href, Attempt.refuse]
  | some ref =>
    obtain ⟨v, hv, rfl⟩ := Option.map_eq_some_iff.1 href
    obtain ⟨t, ht⟩ := hp.typed id v hv
    obtain ⟨a, ha, hR⟩ := hsome _ t href ht
    exact .answer a t (by simp [known, ha]) (by simp [typeOf, typeOf?, href, ht]) hR

theorem reads_typeRefOf (hp : p.WellFormed) (id : ValueId) :
    Reads p (typeRefOf id) (typeOf p id) fun ref t =>
      p.typeRef? id = some ref ∧ p.type? ref = some t :=
  reads_known hp (fun ref _ href ht => ⟨ref, href, href, ht⟩) (fun h => h)

theorem reads_dimsOf (hp : p.WellFormed) (id : ValueId) :
    Reads p (dimsOf id) (typeOf p id) fun dims t => dims = t.dims := by
  refine reads_known hp (fun ref t href ht => ⟨t.dims, ?_, rfl⟩) (fun h => ?_)
  · simp [dims?, typeOf?, href, ht]
  · simp [dims?, typeOf?, h]

theorem reads_kindOf (hp : p.WellFormed) (id : ValueId) :
    Reads p (kindOf id) (typeOf p id) fun kind t => kind = t.kind := by
  refine reads_known hp (fun ref t href ht => ⟨t.kind, ?_, rfl⟩) (fun h => ?_)
  · simp [kind?, typeOf?, href, ht]
  · simp [kind?, typeOf?, h]

theorem dimsOf_run (h : p.typeOf? id = some t) : (dimsOf id).run p = .ok t.dims p := by
  simp [dimsOf, known, dims?, h]

/-! ## Declaring steps -/

theorem declare_bind_run (t : TensorType) (var : StaticVariable) (name : String)
    (f : ValueId → Build α) :
    (declare t var name >>= f).run p = (f (p.fresh 0)).run (p.declareAs ⟨t, var, name⟩) := by
  simp [declare, internType, declareAs, fresh, Program.declare, Program.internType]

/-- A type that has a handle already is not stored again. -/
theorem internType_of_type? {ref : TypeRef} (h : p.type? ref = some t) :
    p.internType t = (ref, p) := by
  rw [Program.internType, TypeTable.intern_of_get? h]

theorem declareOf_bind_run {ref : TypeRef} (h : p.type? ref = some t) (var : StaticVariable)
    (name : String) (f : ValueId → Build α) :
    (declareOf ref var name >>= f).run p =
      (f (p.fresh 0)).run (p.declareAs ⟨t, var, name⟩) := by
  simp [declareOf, h, declareAs, fresh, internType_of_type? h, Program.declare]

theorem like_bind_run (h : p.typeOf? id = some t) (name : String) (f : ValueId → Build α) :
    (like id name >>= f).run p = (f (p.fresh 0)).run (p.declareAs { type := t, name }) := by
  obtain ⟨ref, href, ht⟩ := Option.bind_eq_some_iff.1 h
  have hread : (typeRefOf id).run p = .ok ref p := by simp [typeRefOf, known, href]
  rw [like, bind_assoc, EStateM.run_bind, hread]
  exact declareOf_bind_run ht {} name f

/-! ## Following a plan -/

/-- How a construction ends that does what a plan tells. -/
def foretold (p : Program) :
    Attempt ProgramError Plan → EStateM.Result (Abort ProgramError) Program InstrId
  | .ok plan => .ok ⟨p.instrs.length⟩ (plan.carryOut p)
  | .error e => .error e p

/-- The construction does what the plan tells if the instruction of the plan is permitted. -/
def Follows (config : Config) (p : Program) (m : Build InstrId)
    (planned : Attempt ProgramError Plan) : Prop :=
  (∀ plan, planned = .ok plan →
    (p.declareAll plan.declarations).permit config plan.request.instruction = .ok ()) →
  m.run p = foretold p planned

namespace Follows

theorem step {m : Build α} {a : α} {f : α → Build InstrId} {planned : Attempt ProgramError Plan}
    (hm : m.run p = .ok a p) (hf : Follows config p (f a) planned) :
    Follows config p (m >>= f) planned := by
  intro hpermit
  rw [EStateM.run_bind, hm]
  exact hf hpermit

theorem read {R : α → β → Prop} {m : Build α} {x : Attempt ProgramError β}
    {f : α → Build InstrId} {g : β → Attempt ProgramError Plan} (h : Reads p m x R)
    (hf : ∀ a b, x = .ok b → R a b → Follows config p (f a) (g b)) :
    Follows config p (m >>= f) (x >>= g) := by
  cases h with
  | abort e hm hx => intro _; simp [hm, hx, foretold]
  | answer a b hm hx hab =>
    subst hx
    exact step hm (hf a b rfl hab)

theorem attempt (x : Attempt ProgramError α) {f : α → Build InstrId}
    {g : α → Attempt ProgramError Plan} (hf : ∀ a, Follows config p (f a) (g a)) :
    Follows config p (ofAttempt x >>= f) (x >>= g) := by
  cases x with
  | ok a => exact hf a
  | error e => intro _; rfl

theorem dimsOf {f : List Nat → Build InstrId} {g : TensorType → Attempt ProgramError Plan}
    (hp : p.WellFormed) (hf : ∀ t, p.typeOf? id = some t → Follows config p (f t.dims) (g t)) :
    Follows config p (Build.dimsOf id >>= f) (typeOf p id >>= g) := by
  refine read (reads_dimsOf hp id) fun dims t ht hdims => ?_
  rw [hdims]
  exact hf t (typeOf_eq_ok.1 ht)

theorem kindOf {f : ElemKind → Build InstrId} {g : TensorType → Attempt ProgramError Plan}
    (hp : p.WellFormed) (hf : ∀ t, p.typeOf? id = some t → Follows config p (f t.kind) (g t)) :
    Follows config p (Build.kindOf id >>= f) (typeOf p id >>= g) := by
  refine read (reads_kindOf hp id) fun kind t ht hkind => ?_
  rw [hkind]
  exact hf t (typeOf_eq_ok.1 ht)

/-- Where a variable like a value is declared, the type of that value is known. -/
theorem like {f : ValueId → Build InstrId} {g : TensorType → Attempt ProgramError Plan}
    {name : String} (hp : p.WellFormed)
    (hf : ∀ t, p.typeOf? id = some t → Follows config p (Build.like id name >>= f) (g t)) :
    Follows config p (Build.like id name >>= f) (typeOf p id >>= g) := by
  cases reads_typeRefOf hp id with
  | abort e hm hx => intro _; simp [Build.like, hm, hx, foretold]
  | answer ref t hm hx h =>
    rw [hx]
    exact hf t (Option.bind_eq_some_iff.2 ⟨ref, h⟩)

/-- A construction comes down to the declarations and the request of its plan. -/
theorem request {m : Build InstrId} {ds : List Declaration} {r : Request}
    (h : m.run p = (Build.request config r).run (p.declareAll ds)) :
    Follows config p m (.ok ⟨ds, r⟩) := by
  intro hpermit
  have hpermit : (p.declareAll ds).permit config r.instruction = .ok () := hpermit _ rfl
  rw [h, Build.request, append_run, hpermit, instrs_declareAll]
  rfl

end Follows

end Build
end TensorIR
