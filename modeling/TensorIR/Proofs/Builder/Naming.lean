import TensorIR.Proofs.Builder.Allocation
import TensorIR.Proofs.Program.Labels

/-!
# TensorIR.Proofs.Builder.Naming

The names of the values of a run, and what it takes for labels to tell the values apart.

* `Step.chosenName?`, `Operator.names`: names are chosen in declarations, or they are of the few that
  operators give. There are no others (`hasName_perform`, `hasName_after`).
* `Ambiguous`: names that read like a position or like a numbered repeat. The names that operators
  give are not among them (`not_ambiguous_of_mem_names`).
* `labels_coincide_iff`: labels coincide exactly where a chosen name is one that the program makes up
  for another value. Where no ambiguous name is chosen, all labels are different.
-/

namespace TensorIR

/-- The name that the caller chooses in a step; an empty one leaves the variable without a name. -/
def Step.chosenName? : Step → Option String
  | declare _ _ name => some name
  | declareOf _ _ name => some name
  | internType _ => none
  | request _ => none
  | operator _ => none

/-- The names that operators give to their variables. -/
def Operator.names : List String :=
  ["filter", "bias", "srcXY", "weights", "expected", "beta", "gamma", "mean", "variance"]

theorem Allocates.name_mem_names {config : Config} {env : TypeEnv} {fresh : Nat → ValueId}
    {op : Operator} {ds : List Declaration} {r : Request}
    (h : Allocates config env fresh op ds r) : ∀ d ∈ ds, d.name = "" ∨ d.name ∈ Operator.names := by
  cases h <;> simp [Operator.names]

/-- The name reads like a position or like a numbered repeat of another name. -/
def Ambiguous (name : String) : Prop :=
  ∃ n : Nat, name = toString n ∨ ∃ stem : String, name = stem ++ "." ++ toString n

theorem Ambiguous.exists_isDigit {name : String} (h : Ambiguous name) :
    ∃ c ∈ name.toList, c.isDigit = true := by
  obtain ⟨n, rfl | ⟨stem, rfl⟩⟩ := h
  · obtain ⟨c, hc⟩ := exists_mem_toString n
    exact ⟨c, hc, isDigit_of_mem_toString hc⟩
  · obtain ⟨c, hc⟩ := exists_mem_toString n
    rw [toList_numbered]
    exact ⟨c, List.mem_append_right _ (List.mem_cons_of_mem _ hc), isDigit_of_mem_toString hc⟩

theorem not_ambiguous_of_mem_names : ∀ name ∈ Operator.names, ¬ Ambiguous name := by
  intro name hname h
  obtain ⟨c, hc, hdigit⟩ := h.exists_isDigit
  have hplain : ∀ name ∈ Operator.names, ∀ c ∈ name.toList, c.isDigit = false := by
    simp [Operator.names]
  rw [hplain name hname c hc] at hdigit
  cases hdigit

namespace Program

variable {p q : Program} {name : String}

def HasName (p : Program) (name : String) : Prop := ∃ v ∈ p.values, v.name = some name

theorem hasName_declareAs {d : Declaration} (h : (p.declareAs d).HasName name) :
    p.HasName name ∨ name = d.name := by
  obtain ⟨v, hv, hname⟩ := h
  rcases List.mem_append.1 hv with hv | hv
  · exact .inl ⟨v, hv, hname⟩
  · rw [List.mem_singleton.1 hv] at hname
    simp only [Value.rename] at hname
    split at hname
    · cases hname
    · exact .inr (Option.some.inj hname).symm

theorem hasName_declareAll (ds : List Declaration) : ∀ {p : Program},
    (p.declareAll ds).HasName name → p.HasName name ∨ ∃ d ∈ ds, name = d.name := by
  induction ds with
  | nil => intro p h; exact .inl h
  | cons d ds ih =>
    intro p h
    rcases ih h with h | ⟨d', hd, h⟩
    · rcases hasName_declareAs h with h | h
      · exact .inl h
      · exact .inr ⟨d, List.mem_cons_self, h⟩
    · exact .inr ⟨d', List.mem_cons_of_mem _ hd, h⟩

/-- Results have no name. -/
theorem hasName_append {i : Instruction} (h : (p.append i).2.HasName name) : p.HasName name := by
  obtain ⟨v, hv, hname⟩ := h
  rcases List.mem_append.1 hv with hv | hv
  · exact ⟨v, hv, hname⟩
  · rw [List.mem_singleton.1 hv] at hname
    cases hname

/-- A name after a call was there before it, or it was chosen in the call, or an operator gave it. -/
theorem hasName_perform (hp : p.WellFormed) (hname : name ≠ "") {c : Call}
    (h : (p.perform c).2.HasName name) :
    p.HasName name ∨ c.step.chosenName? = some name ∨ name ∈ Operator.names := by
  rcases perform_cases hp c with ⟨e, hc⟩ | ⟨created, q, hc, hgrows⟩
  · rw [hc] at h
    exact .inl h
  · rw [hc] at h
    cases hgrows with
    | internType config t => exact .inl h
    | declare config d =>
      rcases hasName_declareAs h with h | rfl
      · exact .inl h
      · exact .inr (.inl rfl)
    | declareOf config ref d _ =>
      rcases hasName_declareAs h with h | rfl
      · exact .inl h
      · exact .inr (.inl rfl)
    | request config r _ => exact .inl (hasName_append h)
    | operator config op plan hplan =>
      rcases hasName_declareAll _ (hasName_append h) with h | ⟨d, hd, rfl⟩
      · exact .inl h
      · exact .inr (.inr (((Operator.plan_allocates hplan).name_mem_names d hd).resolve_left hname))

/-- Every name of a run was chosen in one of its calls, or an operator gave it. -/
theorem hasName_after (hp : p.WellFormed) (hname : name ≠ "") (calls : List Call)
    (h : (p.after calls).HasName name) :
    p.HasName name ∨ (∃ c ∈ calls, c.step.chosenName? = some name) ∨ name ∈ Operator.names := by
  rcases exists_call_of_after (P := fun q => q.HasName name) calls hp h with
    h | ⟨q, c, hq, hmem, hbefore, hnext, -⟩
  · exact .inl h
  · rcases (hasName_perform hq hname hnext).resolve_left hbefore with h | h
    · exact .inr (.inl ⟨c, mem_calls_of_mem_trace calls hmem, h⟩)
    · exact .inr (.inr h)

theorem Coins.ambiguous {v : Value} (h : p.Coins v name) : Ambiguous name := by
  cases h with
  | position => exact ⟨_, .inl rfl⟩
  | @numbered stem => exact ⟨_, .inr ⟨stem, rfl⟩⟩

/-- Labels collide over a name that was chosen in the run. -/
theorem Collide.chosen {calls : List Call} {b : ValueId} {v w : Value}
    (hb : (({} : Program).after calls).value? b = some w)
    (h : (({} : Program).after calls).Collide v w) :
    ∃ name, Ambiguous name ∧ ∃ c ∈ calls, c.step.chosenName? = some name := by
  obtain ⟨name, hv, hw, -⟩ := h
  have hambiguous := hv.ambiguous
  refine ⟨name, hambiguous, ?_⟩
  have hname : name ≠ "" := by
    rintro rfl
    obtain ⟨c, hc, -⟩ := hambiguous.exists_isDigit
    cases hc
  rcases hasName_after .empty hname calls ⟨w, List.mem_of_getElem? hb, hw⟩ with h | h | h
  · obtain ⟨_, hmem, -⟩ := h
    cases hmem
  · exact h
  · exact absurd hambiguous (not_ambiguous_of_mem_names name h)

/-- After a run

* a value without a name is called by its position; a named one is called by its name, followed by
  the number of earlier values of the name if there are any;
* two values have one label exactly if one of them is the first with a name that spells what the
  other, which has no name or repeats one, is called by;
* all labels are different if every name that was chosen in the run is unlike a position and unlike
  a numbered repeat. -/
theorem labels_coincide_iff (calls : List Call) :
    let p := ({} : Program).after calls
    (∀ id v, p.value? id = some v →
      (v.name = none → p.label v = "%" ++ toString id.index) ∧
      ∀ name, v.name = some name →
        let earlier := (p.values.take id.index).countP (·.name = some name)
        p.label v = "%" ++ if earlier = 0 then name else name ++ "." ++ toString earlier) ∧
    (∀ a b v w, p.value? a = some v → p.value? b = some w →
      (p.label v = p.label w ↔ a = b ∨ p.Collide v w ∨ p.Collide w v)) ∧
    ((∀ c ∈ calls, ∀ name, c.step.chosenName? = some name → ¬ Ambiguous name) →
      ∀ a b v w, p.value? a = some v → p.value? b = some w → p.label v = p.label w → a = b) := by
  intro p
  have hp : p.WellFormed := WellFormed.empty.after calls
  refine ⟨fun id v hv => ⟨fun hname => ?_, fun name hname => ?_⟩,
    fun a b v w => label_eq_label_iff hp, fun hchosen a b v w ha hb h => ?_⟩
  · rw [← hp.ids id v hv]
    exact (Coins.position hname).label_eq
  · rw [← hp.ids id v hv]
    show p.label v = "%" ++ if p.repeats v name = 0 then _ else _
    split
    · case isTrue hfirst => exact FirstNamed.label_eq ⟨hname, hfirst⟩
    · case isFalse hrepeats => exact (Coins.numbered hname hrepeats).label_eq
  · rcases (label_eq_label_iff hp ha hb).1 h with h | h | h
    · exact h
    · obtain ⟨name, hambiguous, c, hc, hchoose⟩ := h.chosen hb
      exact absurd hambiguous (hchosen c hc name hchoose)
    · obtain ⟨name, hambiguous, c, hc, hchoose⟩ := h.chosen ha
      exact absurd hambiguous (hchosen c hc name hchoose)

/-- Two variables of one name, and one of another. -/
theorem labels_coincide_iff_repeated :
    let calls : List Call := [⟨{}, .declare ⟨.float32, [2]⟩ {} "x"⟩,
      ⟨{}, .declare ⟨.float32, [2]⟩ {} "x"⟩, ⟨{}, .declare ⟨.float32, [2]⟩ {} "y"⟩]
    let p := ({} : Program).after calls
    p.values.map p.label = ["%x", "%x.1", "%y"] ∧
      ∀ a b v w, p.value? a = some v → p.value? b = some w → p.label v = p.label w → a = b := by
  intro calls p
  refine ⟨by decide, (labels_coincide_iff calls).2.2 fun c hc name hname hambiguous => ?_⟩
  obtain ⟨char, hchar, hdigit⟩ := hambiguous.exists_isDigit
  have hchosen : ∀ c ∈ calls, c.step.chosenName? = some "x" ∨ c.step.chosenName? = some "y" := by
    decide
  rcases hchosen c hc with h | h
  · obtain rfl : "x" = name := Option.some.inj (h.symm.trans hname)
    obtain rfl : char = 'x' := by simpa using hchar
    cases hdigit
  · obtain rfl : "y" = name := Option.some.inj (h.symm.trans hname)
    obtain rfl : char = 'y' := by simpa using hchar
    cases hdigit

/-- The third name is what the repeat of the first one is called by. -/
theorem label_shared_with_repeat :
    let p := ({} : Program).after [⟨{}, .declare ⟨.float32, [2]⟩ {} "a"⟩,
      ⟨{}, .declare ⟨.float32, [2]⟩ {} "a"⟩, ⟨{}, .declare ⟨.float32, [2]⟩ {} "a.1"⟩]
    p.Reachable ∧ p.values.map p.label = ["%a", "%a.1", "%a.1"] := by
  intro p
  exact ⟨⟨_, rfl⟩, by decide⟩

end Program
end TensorIR
