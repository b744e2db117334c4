import TensorIR.Proofs.Builder.Alike

/-!
# TensorIR.Proofs.Builder.Handles

What the numbering of types can be noticed by. Two runs of the same calls are compared, of which the
second one asks for further types in between. These requests shift the handles of types, and nothing
else that the runs bring to light depends on them.

* `Entry`: a call of both runs, or a request that the second run makes in addition.
* `Program.translate`: the handle in the second program for a handle of the first one.
* `EndsAlike`: outcomes that are equal but for handles of one type.
* `Alike.perform`, `Alike.after`: a call, and then a run, on programs that are alike.
* `handles_unobservable`: the two runs agree in everything but the handles.
-/

namespace TensorIR

/-- A call of a run, or a request for a type that is put in between. -/
inductive Entry where
  | given (c : Call)
  | added (config : Config) (t : TensorType)

namespace Entry

def call : Entry → Call
  | given c => c
  | added config t => ⟨config, .internType t⟩

def given? : Entry → Option Call
  | given c => some c
  | added .. => none

/-- The results of the given calls, among the results of all of them. -/
def givenResults {α : Type} (entries : List Entry) (results : List α) : List α :=
  (entries.zip results).filterMap fun (entry, result) => entry.given?.map fun _ => result

end Entry

/-! ## Renaming handles -/

def Created.rename (ρ : TypeRef → TypeRef) : Created → Created
  | type ref => type (ρ ref)
  | value id => value id
  | instr id => instr id

/-- Failures show no handles to be renamed. -/
def Outcome.rename (ρ : TypeRef → TypeRef) (outcome : Outcome) : Outcome :=
  outcome.map (·.rename ρ)

def Value.retype (ρ : TypeRef → TypeRef) (v : Value) : Value := { v with type := ρ v.type }

namespace Program

variable {p q p' q' : Program} {a b : TypeRef} {t : TensorType} {outcome outcome' : Outcome}

/-- The handle in `q` for the type that the handle stands for in `p`. -/
def translate (p q : Program) (ref : TypeRef) : TypeRef :=
  match p.type? ref with
  | some t => (q.internType t).1
  | none => ref

theorem translate_eq (ha : p.type? a = some t) (hb : q.type? b = some t) :
    p.translate q a = b := by
  rw [translate, ha]
  exact congrArg Prod.fst (Build.internType_of_type? hb)

theorem Alike.type?_translate (h : p.Alike q) (ha : p.type? a = some t) :
    q.type? (p.translate q a) = some t := by
  obtain ⟨index, hindex⟩ := List.mem_iff_getElem?.1 (h.types (List.mem_of_getElem? ha))
  have hb : q.type? ⟨index⟩ = some t := hindex
  rw [translate_eq ha hb, hb]

/-- Values that have one description differ in their handles at most. -/
theorem Alike.values_eq (h : p.Alike q) :
    q.values = p.values.map (·.retype (p.translate q)) := by
  refine List.ext_getElem? fun index => ?_
  rw [List.getElem?_map]
  cases hv : p.value? ⟨index⟩ with
  | none =>
    have hw := h.value?_eq_none hv
    rw [value?] at hv hw
    rw [hv, hw, Option.map_none]
  | some v =>
    obtain ⟨w, hw, hsame⟩ := h.exists_value? hv
    obtain ⟨t, ht⟩ := h.left.typed _ v hv
    have ht' : q.type? w.type = some t := (congrArg Description.type hsame).trans ht
    have hid : w.id = v.id := congrArg Description.id hsame
    have hname : w.name = v.name := congrArg Description.name hsame
    have horigin : w.origin = v.origin := congrArg Description.origin hsame
    have hretype : v.retype (p.translate q) = w := by
      rw [Value.retype, translate_eq ht ht', ← hid, ← hname, ← horigin]
    rw [value?] at hv hw
    rw [hv, hw, Option.map_some, hretype]

/-! ## One call -/

/-- The outcomes are equal, or they are handles of one type. -/
inductive EndsAlike (p q : Program) : Outcome → Outcome → Prop
  | error (e : Abort ProgramError) : EndsAlike p q (.error e) (.error e)
  | value (id : ValueId) : EndsAlike p q (.ok (.value id)) (.ok (.value id))
  | instr (id : InstrId) : EndsAlike p q (.ok (.instr id)) (.ok (.instr id))
  | type {a b : TypeRef} {t : TensorType} (ha : p.type? a = some t) (hb : q.type? b = some t) :
    EndsAlike p q (.ok (.type a)) (.ok (.type b))

theorem EndsAlike.mono (h : EndsAlike p q outcome outcome') (hp : p.Extends p')
    (hq : q.Extends q') : EndsAlike p' q' outcome outcome' := by
  cases h with
  | error e => exact .error e
  | value id => exact .value id
  | instr id => exact .instr id
  | type ha hb => exact .type (hp.type? ha) (hq.type? hb)

theorem EndsAlike.eq_rename (h : EndsAlike p q outcome outcome') :
    outcome' = outcome.rename (p.translate q) := by
  cases h with
  | error e => rfl
  | value id => rfl
  | instr id => rfl
  | type ha hb => rw [← translate_eq ha hb]; rfl

/-- Only a request for a type ends in a handle. -/
theorem rename_perform (hp : p.WellFormed) {c : Call} (hc : ∀ t, c.step ≠ .internType t)
    (ρ : TypeRef → TypeRef) : Outcome.rename ρ (p.perform c).1 = (p.perform c).1 := by
  rcases perform_cases hp c with ⟨e, h⟩ | ⟨created, q, h, hgrows⟩
  · rw [h]
    rfl
  · rw [h]
    cases hgrows with
    | internType config t => exact absurd rfl (hc t)
    | _ => rfl

/-- The call does not pass the handle of a type. -/
def PassesNoHandle (c : Call) : Prop := ∀ ref var name, c.step ≠ .declareOf ref var name

/-- A call on programs that are alike ends alike and leaves programs that are alike. -/
theorem Alike.perform (h : p.Alike q) {c : Call} (hc : PassesNoHandle c) :
    EndsAlike (p.perform c).2 (q.perform c).2 (p.perform c).1 (q.perform c).1 ∧
      (p.perform c).2.Alike (q.perform c).2 := by
  obtain ⟨config, step⟩ := c
  cases step with
  | internType t => exact ⟨.type (type?_internType p t) (type?_internType q t), h.internType t⟩
  | declare t var name =>
    refine ⟨?_, h.declareAs ⟨t, var, name⟩⟩
    show EndsAlike _ _ (.ok (.value (p.fresh 0))) (.ok (.value (q.fresh 0)))
    rw [h.fresh]
    exact .value _
  | declareOf ref var name => exact absurd rfl (hc ref var name)
  | request r =>
    rw [perform_request, perform_request, h.permit, h.instrs]
    cases hpermit : p.permit config r.instruction with
    | error e => exact ⟨.error e, h⟩
    | ok _ => exact ⟨.instr _, h.append r.singleOutput (hasOperands_of_permit hpermit)⟩
  | operator op =>
    rw [perform_operator h.left, perform_operator h.right, h.plan, h.instrs]
    cases hplan : op.plan config p with
    | error e => exact ⟨.error e, h⟩
    | ok plan =>
      have hpermit := Operator.permit_plan h.left hplan config
      exact ⟨.instr _, (h.declareAll plan.declarations).append plan.request.singleOutput
        (hasOperands_of_permit hpermit)⟩

/-! ## Two runs -/

/-- By induction on the calls, with both programs general. The handles of single outcomes keep their
meaning, so that they are translated as at the end of the runs. -/
theorem Alike.after (entries : List Entry) :
    ∀ {p q : Program}, p.Alike q → (∀ c ∈ entries.filterMap Entry.given?, PassesNoHandle c) →
      (p.after (entries.filterMap Entry.given?)).Alike (q.after (entries.map Entry.call)) ∧
      Entry.givenResults entries (q.trace (entries.map Entry.call)) =
        (p.trace (entries.filterMap Entry.given?)).map fun (c, outcome) =>
          (c, outcome.rename ((p.after (entries.filterMap Entry.given?)).translate
            (q.after (entries.map Entry.call)))) := by
  induction entries with
  | nil => intro p q h _; exact ⟨h, rfl⟩
  | cons entry entries ih =>
    intro p q h hgiven
    cases entry with
    | added config t => exact ih (h.internType_right t) hgiven
    | given c =>
      obtain ⟨hends, hnext⟩ := h.perform (hgiven c List.mem_cons_self)
      obtain ⟨halike, hresults⟩ := ih hnext fun c hc => hgiven c (List.mem_cons_of_mem _ hc)
      have hends := hends.mono (extends_after (entries.filterMap Entry.given?) hnext.left)
        (extends_after (entries.map Entry.call) hnext.right)
      refine ⟨halike, List.cons_eq_cons.2 ⟨?_, hresults⟩⟩
      exact congrArg (Prod.mk c) hends.eq_rename

/-- Two runs of the same calls, none of which passes the handle of a type; the second run asks for
further types in between, at any positions. There is a renaming of the handles of the first program
that keeps them apart and keeps what they stand for, such that

* the calls end alike: with the same new positions, for the same cause or by the same fault, and
  with renamed handles where a type was asked for;
* the instructions at the end are the same, and the values are the same up to the renaming, under
  which every value keeps its type;
* the listings and the outcomes of all verifications are the same. -/
theorem handles_unobservable (entries : List Entry)
    (hgiven : ∀ c ∈ entries.filterMap Entry.given?, PassesNoHandle c) :
    let calls := entries.filterMap Entry.given?
    let more := entries.map Entry.call
    let p := ({} : Program).after calls
    let q := ({} : Program).after more
    ∃ ρ : TypeRef → TypeRef,
      ((∀ ref t, p.type? ref = some t → q.type? (ρ ref) = some t) ∧
        ∀ a b t u, p.type? a = some t → p.type? b = some u → ρ a = ρ b → a = b) ∧
      (Entry.givenResults entries (({} : Program).trace more) =
          (({} : Program).trace calls).map (fun (c, outcome) => (c, outcome.rename ρ)) ∧
        ∀ c outcome, (c, outcome) ∈ ({} : Program).trace calls → (∀ t, c.step ≠ .internType t) →
          outcome.rename ρ = outcome) ∧
      (q.instrs = p.instrs ∧ q.values = p.values.map (·.retype ρ) ∧
        ∀ id, q.typeOf? id = p.typeOf? id) ∧
      q.listing = p.listing ∧ q.verify = p.verify ∧
      (∀ id, q.verifyInstr id = p.verifyInstr id) ∧
      ∀ id i, q.verifyAs id i = p.verifyAs id i := by
  intro calls more p q
  obtain ⟨halike, hresults⟩ := Alike.after entries WellFormed.empty.alike hgiven
  have hstands {ref : TypeRef} {t : TensorType} (h : p.type? ref = some t) :
      q.type? (p.translate q ref) = some t :=
    halike.type?_translate h
  refine ⟨p.translate q, ⟨fun ref t => hstands, fun a b t u ha hb hab => ?_⟩,
    ⟨hresults, fun c outcome hmem hc => ?_⟩,
    ⟨halike.instrs, halike.values_eq, halike.typeOf?⟩, halike.listing, halike.verify,
    halike.verifyInstr, halike.verifyAs⟩
  · have hsame := hstands ha
    rw [hab, hstands hb] at hsame
    cases hsame
    exact TypeTable.get?_inj ha hb
  · obtain ⟨before, hbefore, rfl, -⟩ := exists_of_mem_trace calls .empty hmem
    exact rename_perform hbefore hc _

/-- Two types are asked for in between. The handles of the values are others then; the type that is
asked for in both runs has another handle, and the sum of two types is refused in the same words. -/
theorem handles_unobservable_sum :
    let entries : List Entry := [.added {} ⟨.int8, [5]⟩,
      .given ⟨{}, .declare ⟨.float32, [2]⟩ {} "x"⟩, .given ⟨{}, .declare ⟨.index, [3]⟩ {} "y"⟩,
      .added {} ⟨.float64, []⟩, .given ⟨{}, .internType ⟨.int32, [7]⟩⟩,
      .given ⟨{}, .operator (.tanh ⟨0⟩)⟩, .given ⟨{}, .operator (.arithmetic ⟨0⟩ ⟨1⟩ .add)⟩]
    let p := ({} : Program).after (entries.filterMap Entry.given?)
    let q := ({} : Program).after (entries.map Entry.call)
    let results := Entry.givenResults entries (({} : Program).trace (entries.map Entry.call))
    results.map (·.2) = [.ok (.value ⟨0⟩), .ok (.value ⟨1⟩), .ok (.type ⟨4⟩), .ok (.instr ⟨0⟩),
        .error (.refused (.shape (.operandMismatch "add" "float<2>" "index<3>")))] ∧
      q.values ≠ p.values ∧ q.listing = p.listing ∧
      ∃ ρ : TypeRef → TypeRef, q.values = p.values.map (·.retype ρ) ∧
        results = (({} : Program).trace (entries.filterMap Entry.given?)).map
          fun (c, outcome) => (c, outcome.rename ρ) := by
  intro entries p q results
  have hgiven : ∀ c ∈ entries.filterMap Entry.given?, PassesNoHandle c := by
    intro c hc ref var name hstep
    rcases List.mem_filterMap.1 hc with ⟨entry, hentry, hcall⟩
    simp only [entries, List.mem_cons, List.not_mem_nil, or_false] at hentry
    rcases hentry with rfl | rfl | rfl | rfl | rfl | rfl | rfl <;> cases hcall <;> cases hstep
  obtain ⟨ρ, -, ⟨hresults, -⟩, ⟨-, hvalues, -⟩, hlisting, -⟩ :=
    handles_unobservable entries hgiven
  exact ⟨by decide, by decide, hlisting, ρ, hvalues, hresults⟩

end Program
end TensorIR
