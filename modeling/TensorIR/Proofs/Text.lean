import TensorIR.Text.Listing

/-!
# TensorIR.Proofs.Text

Texts that can be taken apart again.

* `toString_inj`, `isDigit_of_mem_toString`: the digits of a number determine it.
* `append_inj_of_stop`, `Text.append_inj_at`: a part in which a symbol does not occur ends where the
  symbol stands first.
* `Text.Separable`, `Text.joined_inj`: items without the first symbol of their separator can be read
  off the joined text, their number included.
* `Text.bracketed_inj`: so can sizes in brackets.
-/

namespace TensorIR

/-! ## Numbers -/

theorem toList_toString (n : Nat) : (toString n).toList = Nat.toDigits 10 n := by
  rw [Nat.toString_eq_repr, Nat.toList_repr]

theorem isDigit_of_mem_toString {n : Nat} {c : Char} (h : c ∈ (toString n).toList) :
    c.isDigit = true := by
  rw [toList_toString] at h
  exact Nat.isDigit_of_mem_toDigits (by decide) (by decide) h

theorem exists_mem_toString (n : Nat) : ∃ c, c ∈ (toString n).toList := by
  rw [toList_toString]
  exact List.exists_mem_of_ne_nil _ Nat.toDigits_ne_nil

theorem toString_ne_empty (n : Nat) : toString n ≠ "" := by
  intro h
  obtain ⟨c, hc⟩ := exists_mem_toString n
  rw [h] at hc
  cases hc

/-- Reading the digits gives the number back. -/
theorem ofDigitChars_toString (n : Nat) : Nat.ofDigitChars 10 (toString n).toList 0 = n := by
  rw [toList_toString, Nat.ofDigitChars_ten_toDigits]

theorem toString_inj {m n : Nat} (h : toString m = toString n) : m = n := by
  have hread := congrArg (fun text : String => Nat.ofDigitChars 10 text.toList 0) h
  simpa only [ofDigitChars_toString] using hread

theorem notMem_toString {c : Char} (hc : c.isDigit = false) (n : Nat) :
    c ∉ (toString n).toList := by
  intro h
  rw [isDigit_of_mem_toString h] at hc
  cases hc

/-! ## Parts of a text -/

/-- A part in which `a` does not occur ends where the first `a` stands, or else with the list. -/
theorem append_inj_of_stop {α : Type} {a : α} {xs ys s t : List α} (hxs : a ∉ xs) (hys : a ∉ ys)
    (hs : ∀ b ∈ s.head?, b = a) (ht : ∀ b ∈ t.head?, b = a) (h : xs ++ s = ys ++ t) :
    xs = ys ∧ s = t := by
  have hempty {xs between s t : List α} (hxs : a ∉ xs ++ between) (hs : ∀ b ∈ s.head?, b = a)
      (h : s = between ++ t) : between = [] := by
    cases between with
    | nil => rfl
    | cons b between =>
      obtain rfl := hs b (by rw [h]; rfl)
      exact absurd (List.mem_append_right xs List.mem_cons_self) hxs
  rcases List.append_eq_append_iff.1 h with ⟨between, rfl, hrest⟩ | ⟨between, rfl, hrest⟩
  · obtain rfl := hempty hys hs hrest
    exact ⟨(List.append_nil xs).symm, hrest⟩
  · obtain rfl := hempty hxs ht hrest
    exact ⟨List.append_nil ys, hrest.symm⟩

theorem append_cons_inj_of_stop {α : Type} {a : α} {xs ys s t : List α} (hxs : a ∉ xs)
    (hys : a ∉ ys) (h : xs ++ a :: s = ys ++ a :: t) : xs = ys ∧ s = t := by
  obtain ⟨hfirst, hrest⟩ := append_inj_of_stop hxs hys (by simp) (by simp) h
  exact ⟨hfirst, (List.cons.inj hrest).2⟩

namespace Text

variable {sep : String} {c : Char} {rest : List Char} {xs ys : List String}

theorem append_inj_at {a b s t : String} (hsep : sep.toList = c :: rest) (ha : c ∉ a.toList)
    (hb : c ∉ b.toList) (h : a ++ sep ++ s = b ++ sep ++ t) : a = b ∧ s = t := by
  have hlist := congrArg String.toList h
  rw [String.append_assoc, String.append_assoc, String.toList_append, String.toList_append,
    String.toList_append, String.toList_append, hsep] at hlist
  obtain ⟨hfirst, hrest⟩ := append_cons_inj_of_stop ha hb hlist
  exact ⟨String.toList_inj.1 hfirst, String.toList_inj.1 (List.append_cancel_left hrest)⟩

/-! ## Joined items -/

/-- No item is empty, and `c` occurs in none. -/
def Separable (c : Char) (items : List String) : Prop :=
  ∀ item ∈ items, item ≠ "" ∧ c ∉ item.toList

theorem separable_cons {x : String} :
    Separable c (x :: xs) ↔ (x ≠ "" ∧ c ∉ x.toList) ∧ Separable c xs :=
  List.forall_mem_cons

/-- What stands behind the first item of a sequence. -/
def continued (sep : String) : List String → String
  | [] => ""
  | x :: xs => sep ++ joined sep (x :: xs)

theorem joined_cons (sep x : String) (xs : List String) :
    joined sep (x :: xs) = x ++ continued sep xs := by
  cases xs with
  | nil => rw [joined, String.intercalate_singleton, continued, String.append_empty]
  | cons y ys => rw [joined, String.intercalate_cons_cons, continued, joined, String.append_assoc]

theorem joined_ne_empty {x : String} (hx : x ≠ "") : joined sep (x :: xs) ≠ "" := by
  rw [joined_cons]
  exact fun h => hx (String.append_eq_empty_iff.1 h).1

theorem head?_continued (hsep : sep.toList = c :: rest) (xs : List String) :
    ∀ b ∈ (continued sep xs).toList.head?, b = c := by
  cases xs with
  | nil => exact fun b hb => nomatch hb
  | cons x xs =>
    intro b hb
    rw [continued, String.toList_append, hsep] at hb
    cases hb
    rfl

/-- There is a separator behind the first item exactly if there are further items. -/
theorem joined_eq_of_continued (hsep : sep.toList = c :: rest)
    (h : continued sep xs = continued sep ys) : joined sep xs = joined sep ys := by
  have hempty : sep ≠ "" := by
    rintro rfl
    cases hsep
  cases xs with
  | nil =>
    cases ys with
    | nil => rfl
    | cons y ys => exact absurd (String.append_eq_empty_iff.1 h.symm).1 hempty
  | cons x xs =>
    cases ys with
    | nil => exact absurd (String.append_eq_empty_iff.1 h).1 hempty
    | cons y ys => exact (String.append_right_inj sep).1 h

/-- The items are what stands between the separators. -/
theorem joined_inj (hsep : sep.toList = c :: rest) (hxs : Separable c xs) (hys : Separable c ys)
    (h : joined sep xs = joined sep ys) : xs = ys := by
  induction xs generalizing ys with
  | nil =>
    cases ys with
    | nil => rfl
    | cons y ys => exact absurd h.symm (joined_ne_empty (separable_cons.1 hys).1.1)
  | cons x xs ih =>
    cases ys with
    | nil => exact absurd h (joined_ne_empty (separable_cons.1 hxs).1.1)
    | cons y ys =>
      obtain ⟨hx, hxs⟩ := separable_cons.1 hxs
      obtain ⟨hy, hys⟩ := separable_cons.1 hys
      have hlist := congrArg String.toList h
      rw [joined_cons, joined_cons, String.toList_append, String.toList_append] at hlist
      obtain ⟨hfirst, hrest⟩ := append_inj_of_stop hx.2 hy.2 (head?_continued hsep xs)
        (head?_continued hsep ys) hlist
      have htail := joined_eq_of_continued hsep (String.toList_inj.1 hrest)
      rw [String.toList_inj.1 hfirst, ih hxs hys htail]

/-! ## Sizes -/

theorem separable_sizes (hc : c.isDigit = false) (sizes : List Nat) :
    Separable c (sizes.map toString) := by
  intro item hitem
  obtain ⟨n, -, rfl⟩ := List.mem_map.1 hitem
  exact ⟨toString_ne_empty n, notMem_toString hc n⟩

theorem joined_sizes_inj (hsep : sep.toList = c :: rest) (hc : c.isDigit = false)
    {as bs : List Nat} (h : joined sep (as.map toString) = joined sep (bs.map toString)) :
    as = bs :=
  (List.map_inj_right fun _ _ => toString_inj).1
    (joined_inj hsep (separable_sizes hc as) (separable_sizes hc bs) h)

theorem bracketed_inj (hsep : sep.toList = c :: rest) (hc : c.isDigit = false) {as bs : List Nat}
    (h : bracketed sep as = bracketed sep bs) : as = bs := by
  rw [bracketed, bracketed, String.append_left_inj, String.append_right_inj] at h
  exact joined_sizes_inj hsep hc h

end Text
end TensorIR
