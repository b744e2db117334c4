import TensorIR.Program.Basic

/-!
# TensorIR.Proofs.Program.Extends

Growth of programs. One program extends another if each of its lists begins with the list of the
other, so that every handle of the smaller program keeps its meaning in the larger one.

* `Program.Extends`: the relation, which is reflexive and transitive. Types, variables and
  instructions are only ever added (`extends_internType`, `extends_declare`, `extends_append`).
* `Extends.value?`, `Extends.typeOf?` and the others: what a look-up finds, it finds in every
  extension.
-/

namespace TensorIR
namespace Program

variable {p q r : Program}

structure Extends (p q : Program) : Prop where
  values : p.values <+: q.values
  instrs : p.instrs <+: q.instrs
  types : p.types.types <+: q.types.types

theorem Extends.refl (p : Program) : p.Extends p :=
  ⟨List.prefix_refl _, List.prefix_refl _, List.prefix_refl _⟩

theorem Extends.trans (h₁ : p.Extends q) (h₂ : q.Extends r) : p.Extends r :=
  ⟨h₁.values.trans h₂.values, h₁.instrs.trans h₂.instrs, h₁.types.trans h₂.types⟩

/-! ## Look-ups -/

theorem getElem?_of_isPrefix {α : Type} {xs ys : List α} (h : xs <+: ys) {index : Nat} {a : α}
    (ha : xs[index]? = some a) : ys[index]? = some a := by
  obtain ⟨hlt, rfl⟩ := List.getElem?_eq_some_iff.1 ha
  exact List.prefix_iff_getElem?.1 h index hlt

namespace Extends

theorem value? (h : p.Extends q) {id : ValueId} {v : Value} (hv : p.value? id = some v) :
    q.value? id = some v :=
  getElem?_of_isPrefix h.values hv

theorem instr? (h : p.Extends q) {id : InstrId} {placed : Placed}
    (hi : p.instr? id = some placed) : q.instr? id = some placed :=
  getElem?_of_isPrefix h.instrs hi

theorem type? (h : p.Extends q) {ref : TypeRef} {t : TensorType} (ht : p.type? ref = some t) :
    q.type? ref = some t :=
  getElem?_of_isPrefix h.types ht

theorem typeRef? (h : p.Extends q) {id : ValueId} {ref : TypeRef}
    (hr : p.typeRef? id = some ref) : q.typeRef? id = some ref := by
  obtain ⟨v, hv, rfl⟩ := Option.map_eq_some_iff.1 hr
  exact Option.map_eq_some_iff.2 ⟨v, h.value? hv, rfl⟩

theorem typeOf? (h : p.Extends q) {id : ValueId} {t : TensorType} (ht : p.typeOf? id = some t) :
    q.typeOf? id = some t := by
  obtain ⟨ref, hr, ht⟩ := Option.bind_eq_some_iff.1 ht
  exact Option.bind_eq_some_iff.2 ⟨ref, h.typeRef? hr, h.type? ht⟩

theorem dims? (h : p.Extends q) {id : ValueId} {dims : List Nat} (hd : p.dims? id = some dims) :
    q.dims? id = some dims := by
  obtain ⟨t, ht, rfl⟩ := Option.map_eq_some_iff.1 hd
  exact Option.map_eq_some_iff.2 ⟨t, h.typeOf? ht, rfl⟩

end Extends

/-! ## The three ways to grow -/

theorem extends_internType (p : Program) (t : TensorType) : p.Extends (p.internType t).2 where
  values := List.prefix_refl _
  instrs := List.prefix_refl _
  types := by
    show p.types.types <+: (p.types.intern t).2.types
    rw [TypeTable.types_intern]
    split
    · exact List.prefix_refl _
    · exact List.prefix_append _ _

theorem extends_declare (p : Program) (type : TypeRef) (var : StaticVariable) (name : String) :
    p.Extends (p.declare type var name).2 :=
  ⟨List.prefix_append _ _, List.prefix_refl _, List.prefix_refl _⟩

theorem extends_append (p : Program) (i : Instruction) : p.Extends (p.append i).2 where
  values := List.prefix_append _ _
  instrs := List.prefix_append _ _
  types := by
    simp only [append]
    split
    · exact List.prefix_refl _
    · rw [TypeTable.types_intern]
      split
      · exact List.prefix_refl _
      · exact List.prefix_append _ _

end Program
end TensorIR
