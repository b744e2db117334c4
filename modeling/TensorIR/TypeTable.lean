import TensorIR.TensorType

/-!
# TensorIR.TypeTable

The types of one program, each stored once, by handle and by type. Types are never removed, so a
handle keeps its meaning for as long as the table lives.

* `TypeTable.get?`: the type behind a handle.
* `TypeTable.handle?`: the handle of a type, if the table has it.
* `TypeTable.Coherent`: the two look-ups are inverse to each other, and a new type that is entered on
  both sides leaves them so (`Coherent.push`).
* `TypeTable.intern`: the handle of a type, which is added if the table does not have it yet.
* `types_intern`: interning leaves the table as it is or adds the type at the end.
* `get?_intern`: the handle of an interned type stands for that type.
* `get?_intern_of_get?`: interning changes no handle that has a meaning already.
* `get?_inj`: since a type has one handle, two handles of one type are the same.
-/

namespace TensorIR

/-- By type, each type has the position at which it stands by handle, and no other type has one. Of
several entries for one type the first counts. -/
def TypeTable.Coherent (types : List TensorType) (handles : List (TensorType × TypeRef)) : Prop :=
  ∀ (t : TensorType) (ref : TypeRef), handles.lookup t = some ref ↔ types[ref.index]? = some t

namespace TypeTable.Coherent

variable {types : List TensorType} {handles : List (TensorType × TypeRef)} {t : TensorType}

theorem nil : Coherent [] [] := by
  intro t ref
  simp

theorem push (h : Coherent types handles) (fresh : handles.lookup t = none) :
    Coherent (types ++ [t]) ((t, ⟨types.length⟩) :: handles) := by
  intro u ref
  rw [List.lookup_cons, List.getElem?_append]
  by_cases hu : u = t
  · subst hu
    -- The new type stands at no old position, or else it would have had a handle.
    have hnew : types[ref.index]? ≠ some u := by
      rw [Ne, ← h, fresh]
      exact nofun
    cases ref
    grind
  · have hne : (u == t) = false := beq_false_of_ne hu
    rw [hne, h]
    grind

end TypeTable.Coherent

structure TypeTable where
  types : List TensorType := []
  handles : List (TensorType × TypeRef) := []
  coherent : TypeTable.Coherent types handles := by exact .nil
  deriving DecidableEq

namespace TypeTable

variable {table : TypeTable} {ref : TypeRef} {t : TensorType}

def size (table : TypeTable) : Nat := table.types.length

def get? (table : TypeTable) (ref : TypeRef) : Option TensorType := table.types[ref.index]?

def handle? (table : TypeTable) (t : TensorType) : Option TypeRef := table.handles.lookup t

/-- The table with a type added at the end that it does not hold yet. -/
def push (table : TypeTable) (t : TensorType) (fresh : table.handle? t = none) : TypeTable where
  types := table.types ++ [t]
  handles := (t, ⟨table.size⟩) :: table.handles
  coherent := table.coherent.push fresh

/-- The handle of a type, and the table that has it. -/
def intern (table : TypeTable) (t : TensorType) : TypeRef × TypeTable :=
  match h : table.handle? t with
  | some ref => (ref, table)
  | none => (⟨table.size⟩, table.push t h)

theorem handle?_eq_some_iff : table.handle? t = some ref ↔ table.get? ref = some t :=
  table.coherent t ref

theorem intern_of_handle? (h : table.handle? t = some ref) : table.intern t = (ref, table) := by
  unfold intern
  split <;> simp_all

theorem intern_of_fresh (h : table.handle? t = none) :
    table.intern t = (⟨table.size⟩, table.push t h) := by
  unfold intern
  split
  · simp_all
  · rfl

theorem handle?_eq_none_iff : table.handle? t = none ↔ t ∉ table.types := by
  constructor
  · intro h hmem
    obtain ⟨index, hindex⟩ := List.mem_iff_getElem?.1 hmem
    have hfound : table.handle? t = some ⟨index⟩ := handle?_eq_some_iff.2 hindex
    rw [h] at hfound
    cases hfound
  · intro h
    cases hfound : table.handle? t with
    | none => rfl
    | some ref => exact absurd (List.mem_of_getElem? (handle?_eq_some_iff.1 hfound)) h

theorem types_intern (table : TypeTable) (t : TensorType) :
    (table.intern t).2.types = if t ∈ table.types then table.types else table.types ++ [t] := by
  cases h : table.handle? t with
  | some ref =>
    rw [intern_of_handle? h, if_pos (List.mem_of_getElem? (handle?_eq_some_iff.1 h))]
  | none =>
    rw [intern_of_fresh h, if_neg (handle?_eq_none_iff.1 h)]
    rfl

theorem get?_intern (table : TypeTable) (t : TensorType) :
    (table.intern t).2.get? (table.intern t).1 = some t := by
  cases h : table.handle? t with
  | some ref =>
    rw [intern_of_handle? h]
    exact handle?_eq_some_iff.1 h
  | none =>
    rw [intern_of_fresh h]
    exact List.getElem?_concat_length

theorem get?_intern_of_get? {table : TypeTable} {ref : TypeRef} {t : TensorType}
    (h : table.get? ref = some t) (u : TensorType) : (table.intern u).2.get? ref = some t := by
  unfold get? at *
  rw [types_intern]
  split
  · exact h
  · rw [List.getElem?_append_left (List.getElem?_eq_some_iff.1 h).1, h]

theorem get?_inj {table : TypeTable} {a b : TypeRef} {t : TensorType}
    (ha : table.get? a = some t) (hb : table.get? b = some t) : a = b := by
  have hfound := handle?_eq_some_iff.2 ha
  rw [handle?_eq_some_iff.2 hb] at hfound
  exact (Option.some.inj hfound).symm

end TypeTable
end TensorIR
