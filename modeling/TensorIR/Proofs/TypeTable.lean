import Mathlib.Data.List.Dedup
import TensorIR.TypeTable

/-!
# TensorIR.Proofs.TypeTable

Sequences of requests to a type table.

* `TypeTable.internAll`: the handles that a sequence of requests is answered with, and the table
  after it.
* `TypeTable.Indexed`: by type there is one entry for each type that is stored, with its position. A
  request keeps this (`Indexed.intern`), and so do all requests (`Indexed.internAll`).
* `intern_eq_self_iff`: the types that stand at a position are those that are answered with it and
  leave the table as it is.
* `map_get?_internAll`: the handles stand for the types asked for, one by one.
* `TypeTable.Uniques`: the answers to a sequence of requests, and the table after them, in terms of
  the types alone (`uniques_internAll`).
-/

namespace TensorIR
namespace TypeTable

variable {table : TypeTable} {ref : TypeRef} {t u : TensorType}

/-- Asks for types one after the other. -/
def internAll (table : TypeTable) : List TensorType → List TypeRef × TypeTable
  | [] => ([], table)
  | t :: rest =>
    let (ref, next) := table.intern t
    let (refs, last) := next.internAll rest
    (ref :: refs, last)

@[simp] theorem internAll_nil (table : TypeTable) : table.internAll [] = ([], table) := rfl

theorem internAll_cons (table : TypeTable) (t : TensorType) (rest : List TensorType) :
    table.internAll (t :: rest) =
      ((table.intern t).1 :: ((table.intern t).2.internAll rest).1,
        ((table.intern t).2.internAll rest).2) := rfl

theorem internAll_append (more requested : List TensorType) : ∀ table : TypeTable,
    (table.internAll (requested ++ more)).2 = ((table.internAll requested).2.internAll more).2 := by
  induction requested with
  | nil => intro table; rfl
  | cons t rest ih => intro table; exact ih (table.intern t).2

/-! ## Entries -/

/-- Two handles of one type are the same, so no type is stored twice. -/
theorem nodup_types (table : TypeTable) : table.types.Nodup := by
  rw [List.nodup_iff_injective_get]
  intro m n h
  have hm : table.get? ⟨m⟩ = some (table.types.get m) := List.getElem?_eq_getElem m.isLt
  have hn : table.get? ⟨n⟩ = some (table.types.get n) := List.getElem?_eq_getElem n.isLt
  rw [← h] at hn
  exact Fin.ext (TypeRef.mk.inj (get?_inj hm hn))

/-- The entries by type are the types that are stored, each with its position. -/
def Indexed (table : TypeTable) : Prop :=
  table.handles.Perm (table.types.zipIdx.map fun (t, index) => (t, ⟨index⟩))

theorem Indexed.intern (h : table.Indexed) (t : TensorType) : (table.intern t).2.Indexed := by
  cases hfound : table.handle? t with
  | some ref => rwa [intern_of_handle? hfound]
  | none =>
    rw [intern_of_fresh hfound, Indexed, push, List.zipIdx_append, List.map_append, Nat.zero_add]
    exact (h.cons _).trans (List.perm_append_singleton _ _).symm

theorem Indexed.internAll (requested : List TensorType) : ∀ {table : TypeTable}, table.Indexed →
    (table.internAll requested).2.Indexed := by
  induction requested with
  | nil => intro table h; exact h
  | cons t rest ih => intro table h; exact ih (h.intern t)

/-! ## One request -/

theorem intern_of_get? (h : table.get? ref = some t) : table.intern t = (ref, table) :=
  intern_of_handle? (handle?_eq_some_iff.2 h)

theorem intern_eq_self_iff : table.intern t = (ref, table) ↔ table.get? ref = some t := by
  refine ⟨fun h => ?_, intern_of_get?⟩
  have hfound := table.get?_intern t
  rwa [h] at hfound

theorem mem_types_intern : u ∈ (table.intern t).2.types ↔ u ∈ table.types ∨ u = t := by
  rw [types_intern]
  split
  · next h => exact ⟨.inl, fun hu => hu.elim id fun heq => heq ▸ h⟩
  · rw [List.mem_append, List.mem_singleton]

/-! ## Sequences of requests -/

theorem get?_internAll_of_get? (requested : List TensorType) :
    ∀ {table : TypeTable}, table.get? ref = some t →
      (table.internAll requested).2.get? ref = some t := by
  induction requested with
  | nil => intro table h; exact h
  | cons u rest ih => intro table h; exact ih (get?_intern_of_get? h u)

/-- The handles stand for the types asked for. -/
theorem map_get?_internAll (requested : List TensorType) : ∀ table : TypeTable,
    (table.internAll requested).1.map (table.internAll requested).2.get? =
      requested.map some := by
  induction requested with
  | nil => intro table; rfl
  | cons t rest ih =>
    intro table
    rw [internAll_cons, List.map_cons, List.map_cons, ih,
      get?_internAll_of_get? rest (table.get?_intern t)]

theorem mem_types_internAll (requested : List TensorType) : ∀ table : TypeTable,
    u ∈ (table.internAll requested).2.types ↔ u ∈ table.types ∨ u ∈ requested := by
  induction requested with
  | nil => intro table; simp
  | cons t rest ih =>
    intro table
    rw [internAll_cons, ih, mem_types_intern, List.mem_cons, or_assoc]

section Resolved

variable {refs : List TypeRef} {types : List TensorType}

/-- What handles stand for, they keep standing for. -/
theorem map_get?_of_internAll (h : refs.map table.get? = types.map some)
    (more : List TensorType) : refs.map (table.internAll more).2.get? = types.map some := by
  rw [← h]
  refine List.map_congr_left fun ref href => ?_
  have hknown : table.get? ref ∈ types.map some := h ▸ List.mem_map_of_mem href
  obtain ⟨t, -, ht⟩ := List.mem_map.1 hknown
  rw [← ht, get?_internAll_of_get? more ht.symm]

/-- Handles are equal where the types that they stand for are equal. -/
theorem getElem?_eq_iff (h : refs.map table.get? = types.map some) (m n : Nat) :
    refs[m]? = refs[n]? ↔ types[m]? = types[n]? := by
  have hplace (n : Nat) : refs[n]?.map table.get? = types[n]?.map some := by
    rw [← List.getElem?_map, h, List.getElem?_map]
  constructor
  · intro hrefs
    have hsome : types[m]?.map some = types[n]?.map some := by
      rw [← hplace m, hrefs, hplace n]
    exact Option.map_injective (fun _ _ => Option.some.inj) hsome
  · intro htypes
    have hm := hplace m
    have hn := hplace n
    rw [htypes] at hm
    cases ht : types[n]? with
    | none =>
      rw [ht] at hm hn
      rw [Option.map_eq_none_iff.1 hm, Option.map_eq_none_iff.1 hn]
    | some t =>
      rw [ht] at hm hn
      obtain ⟨a, ha, hta⟩ := Option.map_eq_some_iff.1 hm
      obtain ⟨b, hb, htb⟩ := Option.map_eq_some_iff.1 hn
      rw [ha, hb, get?_inj hta htb]

end Resolved

/-- The handles `refs` answer the requests for `requested`, and `table` is the table after them. -/
structure Uniques (requested : List TensorType) (refs : List TypeRef) (table : TypeTable) :
    Prop where
  resolve : refs.map table.get? = requested.map some
  handles : ∀ m n : Nat, refs[m]? = refs[n]? ↔ requested[m]? = requested[n]?
  distinct : ∀ a b : TypeRef, a.index < table.size → b.index < table.size →
    table.get? a = table.get? b → a = b
  size : table.size = requested.dedup.length
  coherent : ∀ t ref, table.handle? t = some ref ↔ table.get? ref = some t
  indexed : table.Indexed
  lookup : ∀ ref t, table.intern t = (ref, table) ↔ table.get? ref = some t
  repeated : ∀ t ∈ requested, (table.intern t).2 = table

theorem uniques_internAll (requested : List TensorType) :
    Uniques requested (({} : TypeTable).internAll requested).1
      (({} : TypeTable).internAll requested).2 := by
  set table := (({} : TypeTable).internAll requested).2
  have hresolve := map_get?_internAll requested {}
  have hmem (t : TensorType) : t ∈ table.types ↔ t ∈ requested := by
    simpa using mem_types_internAll (u := t) requested {}
  refine ⟨hresolve, getElem?_eq_iff hresolve, fun a b ha _ h => ?_, ?_,
    fun t ref => handle?_eq_some_iff, .internAll requested .nil, fun ref t => intern_eq_self_iff,
    fun t ht => ?_⟩
  · have ht : table.get? a = some table.types[a.index] := List.getElem?_eq_getElem ha
    exact get?_inj ht (h ▸ ht)
  · -- Neither list has duplicates, so it is enough that they have the same members.
    have hperm : table.types.Perm requested.dedup :=
      (List.perm_ext_iff_of_nodup table.nodup_types requested.nodup_dedup).2 fun t => by
        rw [hmem, List.mem_dedup]
    exact hperm.length_eq
  · obtain ⟨n, hn⟩ := List.mem_iff_getElem?.1 ((hmem t).2 ht)
    have hstored : table.get? ⟨n⟩ = some t := hn
    rw [intern_of_get? hstored]

end TypeTable
end TensorIR
