import TensorIR.Program.Listing
import TensorIR.Proofs.Program.WellFormed
import TensorIR.Proofs.Text

/-!
# TensorIR.Proofs.Program.Labels

Which values share a label. A value is called by its position if it has no name, by its name if it is
the first of that name, and by its name and the number of earlier ones otherwise.

* `toString_ne_numbered`, `numbered_inj`: a text with a dot and a number at its end is not a number,
  and it determines both of its parts.
* `Program.Coins`, `Program.FirstNamed`: the texts that a program makes up for its values, and the
  names that stand as they were given. Every label is of one of the two kinds (`label_eq_iff`).
* `Coins.unique`, `FirstNamed.unique`: no text of one kind is for two values.
* `label_eq_label_iff`: so labels coincide exactly if the name of one value is what the program makes
  up for the other.
-/

namespace TensorIR

/-! ## Numbers behind names -/

/-- A name with a number behind it, as a string of characters. -/
theorem toList_numbered (name : String) (n : Nat) :
    (name ++ "." ++ toString n).toList = name.toList ++ '.' :: (toString n).toList := by
  simp

/-- There is no dot among digits. -/
theorem dot_notMem_toString (n : Nat) : '.' ∉ (toString n).toList := notMem_toString rfl n

theorem toString_ne_numbered (m : Nat) (name : String) (n : Nat) :
    toString m ≠ name ++ "." ++ toString n := by
  intro h
  refine dot_notMem_toString m ?_
  rw [h, toList_numbered]
  exact List.mem_append_right _ List.mem_cons_self

/-- A list is split in one way only at the last occurrence of an element. -/
theorem append_cons_inj_of_notMem {α : Type} {xs ys s t : List α} {a : α} (hs : a ∉ s) (ht : a ∉ t)
    (h : xs ++ a :: s = ys ++ a :: t) : xs = ys ∧ s = t := by
  have hreverse := congrArg List.reverse h
  simp only [List.reverse_append, List.reverse_cons, List.append_assoc,
    List.singleton_append] at hreverse
  obtain ⟨hlast, hfirst⟩ := append_cons_inj_of_stop (by simpa using hs) (by simpa using ht) hreverse
  exact ⟨List.reverse_inj.1 hfirst, List.reverse_inj.1 hlast⟩

theorem numbered_inj {a b : String} {m n : Nat}
    (h : a ++ "." ++ toString m = b ++ "." ++ toString n) : a = b ∧ m = n := by
  have hlist := congrArg String.toList h
  rw [toList_numbered, toList_numbered] at hlist
  obtain ⟨hname, hnumber⟩ :=
    append_cons_inj_of_notMem (dot_notMem_toString m) (dot_notMem_toString n) hlist
  exact ⟨String.toList_inj.1 hname, toString_inj (String.toList_inj.1 hnumber)⟩

/-! ## Two kinds of labels -/

namespace Program

variable {p : Program} {a b : ValueId} {v w : Value} {name text : String}

/-- What a program makes up to call a value: the position of one without a name, and for a name that
is not the first of its kind, the name and the number of earlier ones. -/
inductive Coins (p : Program) (v : Value) : String → Prop
  | position (hname : v.name = none) : Coins p v (toString v.id.index)
  | numbered {name : String} (hname : v.name = some name) (hrepeats : p.repeats v name ≠ 0) :
    Coins p v (name ++ "." ++ toString (p.repeats v name))

/-- The value is the first one of its name. -/
def FirstNamed (p : Program) (v : Value) (name : String) : Prop :=
  v.name = some name ∧ p.repeats v name = 0

theorem Coins.label_eq (h : p.Coins v text) : p.label v = "%" ++ text := by
  cases h with
  | position hname => simp [label, Value.label, ValueId.label, hname]
  | numbered hname hrepeats =>
    simp [label, Value.label, hname, String.append_assoc]

theorem FirstNamed.label_eq (h : p.FirstNamed v name) : p.label v = "%" ++ name := by
  simp [label, Value.label, h.1, h.2]

theorem coins_or_firstNamed (p : Program) (v : Value) :
    ∃ text, p.Coins v text ∨ p.FirstNamed v text := by
  cases hname : v.name with
  | none => exact ⟨_, .inl (.position hname)⟩
  | some name =>
    by_cases hrepeats : p.repeats v name = 0
    · exact ⟨name, .inr ⟨hname, hrepeats⟩⟩
    · exact ⟨_, .inl (.numbered hname hrepeats)⟩

theorem label_eq_iff : p.label v = "%" ++ text ↔ p.Coins v text ∨ p.FirstNamed v text := by
  constructor
  · intro h
    obtain ⟨text', hkind⟩ := coins_or_firstNamed p v
    have hlabel := hkind.elim Coins.label_eq FirstNamed.label_eq
    rw [h, String.append_right_inj] at hlabel
    exact hlabel ▸ hkind
  · exact fun h => h.elim Coins.label_eq FirstNamed.label_eq

/-! ## Different values -/

/-- Every value of a name has more values of the name before it than the one before. -/
theorem repeats_lt (hp : p.WellFormed) (ha : p.value? a = some v) (hb : p.value? b = some w)
    (hname : v.name = some name) (hlt : a.index < b.index) :
    p.repeats v name < p.repeats w name := by
  rw [repeats, repeats, hp.ids a v ha, hp.ids b w hb]
  have hnext : p.values.take (a.index + 1) = p.values.take a.index ++ [v] := by
    rw [List.take_add_one, show p.values[a.index]? = some v from ha, Option.toList_some]
  calc (p.values.take a.index).countP (·.name = some name)
      < (p.values.take a.index ++ [v]).countP (·.name = some name) := by
        simp [List.countP_append, hname]
    _ = (p.values.take (a.index + 1)).countP (·.name = some name) := by rw [hnext]
    _ ≤ (p.values.take b.index).countP (·.name = some name) :=
        (List.take_prefix_take_left hlt).sublist.countP_le

/-- A value of a name is determined by the number of earlier ones. -/
theorem eq_of_repeats_eq (hp : p.WellFormed) (ha : p.value? a = some v) (hb : p.value? b = some w)
    (hv : v.name = some name) (hw : w.name = some name)
    (h : p.repeats v name = p.repeats w name) : a = b := by
  rcases Nat.lt_trichotomy a.index b.index with hlt | heq | hlt
  · exact absurd h (Nat.ne_of_lt (repeats_lt hp ha hb hv hlt))
  · exact congrArg ValueId.mk heq
  · exact absurd h.symm (Nat.ne_of_lt (repeats_lt hp hb ha hw hlt))

theorem FirstNamed.unique (hp : p.WellFormed) (ha : p.value? a = some v)
    (hb : p.value? b = some w) (hv : p.FirstNamed v text) (hw : p.FirstNamed w text) : a = b :=
  eq_of_repeats_eq hp ha hb hv.1 hw.1 (hv.2.trans hw.2.symm)

/-- What the program makes up is made up for one value. -/
theorem Coins.unique (hp : p.WellFormed) (ha : p.value? a = some v) (hb : p.value? b = some w)
    (hv : p.Coins v text) (hw : p.Coins w text) : a = b := by
  generalize hsame : text = text' at hw
  cases hv with
  | position =>
    cases hw with
    | position =>
      have hindex := toString_inj hsame
      rw [hp.ids a v ha, hp.ids b w hb] at hindex
      exact congrArg ValueId.mk hindex
    | numbered => exact absurd hsame (toString_ne_numbered _ _ _)
  | numbered hv =>
    cases hw with
    | position => exact absurd hsame.symm (toString_ne_numbered _ _ _)
    | numbered hw =>
      obtain ⟨rfl, hrepeats⟩ := numbered_inj hsame
      exact eq_of_repeats_eq hp ha hb hv hw hrepeats

/-- The second value has been given what the program makes up for the first one as its name. -/
def Collide (p : Program) (v w : Value) : Prop := ∃ text, p.Coins v text ∧ p.FirstNamed w text

theorem Collide.label_eq (h : p.Collide v w) : p.label v = p.label w := by
  obtain ⟨text, hv, hw⟩ := h
  exact hv.label_eq.trans hw.label_eq.symm

theorem label_eq_label_iff (hp : p.WellFormed) (ha : p.value? a = some v)
    (hb : p.value? b = some w) :
    p.label v = p.label w ↔ a = b ∨ p.Collide v w ∨ p.Collide w v := by
  constructor
  · intro h
    obtain ⟨text, hv⟩ := coins_or_firstNamed p v
    have hw := label_eq_iff.1 (h ▸ label_eq_iff.2 hv)
    rcases hv with hv | hv
    · rcases hw with hw | hw
      · exact .inl (hv.unique hp ha hb hw)
      · exact .inr (.inl ⟨text, hv, hw⟩)
    · rcases hw with hw | hw
      · exact .inr (.inr ⟨text, hw, hv⟩)
      · exact .inl (hv.unique hp ha hb hw)
  · rintro (rfl | h | h)
    · rw [Option.some.inj (ha.symm.trans hb)]
    · exact h.label_eq
    · exact h.label_eq.symm

end Program
end TensorIR
