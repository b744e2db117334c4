import TensorIR.Binary32.Decimal
import TensorIR.Proofs.Binary32
import TensorIR.Proofs.Text

/-!
# TensorIR.Proofs.Binary32.Decimal

The text of a binary32 number determines the number.

* `readsBack_unique`: a decimal reads back as one number only. Neighbouring numbers share a midpoint,
  and it belongs to the one with the even pattern.
* `readsBack_shortest`: the decimal that the search settles on reads back. The finest grid is narrow
  enough for one of the two points next to a number to lie between its midpoints.
* `positional_inj`: positional notation determines the value of a decimal.
* `space_notMem_text`: the text of a number has no space in it.
* `text_eq_iff`: numbers with the same text are the same, or NaN both.
-/

namespace TensorIR
namespace Binary32

variable {p q c d j k m n r s : Nat} {e : Char} {x y : Binary32}

/-! ## The numbers that a decimal reads back as -/

/-- The midpoint between the numbers with patterns `p - 1` and `p`, on the scale of the grids. -/
def midpoint (p : Nat) : Nat := (unitsOf (p - 1) + unitsOf p) * halfUnit

theorem midpoint_strictMono : StrictMono midpoint := by
  intro p q h
  have hbelow : unitsOf (p - 1) ≤ unitsOf (q - 1) := unitsOf_strictMono.monotone (by omega)
  have habove : unitsOf p < unitsOf q := unitsOf_strictMono h
  exact Nat.mul_lt_mul_of_pos_right (Nat.add_lt_add_of_le_of_lt hbelow habove) (by decide)

/-- The midpoints themselves belong to numbers with even patterns only. -/
theorem readsBack_iff : ReadsBack p c j ↔
    midpoint p ≤ c * gridStep j ∧ c * gridStep j ≤ midpoint (p + 1) ∧
      (p % 2 = 1 → midpoint p ≠ c * gridStep j ∧ c * gridStep j ≠ midpoint (p + 1)) := by
  have hdef : ReadsBack p c j ↔
      if p % 2 = 0 then midpoint p ≤ c * gridStep j ∧ c * gridStep j ≤ midpoint (p + 1)
      else midpoint p < c * gridStep j ∧ c * gridStep j < midpoint (p + 1) := Iff.rfl
  rw [hdef]
  split <;> omega

theorem not_lt_of_readsBack (hp : ReadsBack p c j) (hq : ReadsBack q d k)
    (h : c * gridStep j = d * gridStep k) : ¬ p < q := by
  intro hlt
  obtain ⟨-, hpHigh, hpOdd⟩ := readsBack_iff.1 hp
  obtain ⟨hqLow, -, hqOdd⟩ := readsBack_iff.1 hq
  have hbetween : midpoint (p + 1) ≤ midpoint q := midpoint_strictMono.monotone hlt
  -- The decimal is the midpoint of two neighbours, of which one has an odd pattern.
  obtain rfl : p + 1 = q := midpoint_strictMono.injective (by omega)
  omega

theorem readsBack_unique (hp : ReadsBack p c j) (hq : ReadsBack q d k)
    (h : c * gridStep j = d * gridStep k) : p = q :=
  Nat.le_antisymm (Nat.not_lt.1 (not_lt_of_readsBack hq hp h.symm))
    (Nat.not_lt.1 (not_lt_of_readsBack hp hq h))

/-! ## The search -/

theorem readsBack_of_gridPoint? (h : gridPoint? p j = some c) : ReadsBack p c j := by
  unfold gridPoint? at h
  simp only at h
  split at h
  · case isTrue hbelow =>
    split at h
    · case isTrue habove =>
      cases h
      exact habove.1
    · cases h
      exact hbelow
  · split at h
    · case isTrue habove =>
      cases h
      exact habove
    · cases h

theorem exists_gridPoint? (h : ReadsBack p (2 * unitsOf p * halfUnit / gridStep j) j ∨
    ReadsBack p (2 * unitsOf p * halfUnit / gridStep j + 1) j) : ∃ c, gridPoint? p j = some c := by
  unfold gridPoint?
  simp only
  split
  · split <;> exact ⟨_, rfl⟩
  · case isFalse hbelow => exact ⟨_, if_pos (h.resolve_left hbelow)⟩

/-- A number is at least half a unit away from both of its midpoints. -/
theorem midpoint_add_le (hp : 0 < p) : midpoint p + halfUnit ≤ 2 * unitsOf p * halfUnit ∧
    2 * unitsOf p * halfUnit + halfUnit ≤ midpoint (p + 1) := by
  have hbelow : unitsOf (p - 1) < unitsOf p := unitsOf_strictMono (by omega)
  have habove : unitsOf p < unitsOf (p + 1) := unitsOf_strictMono (Nat.lt_succ_self p)
  rw [midpoint, midpoint, ← Nat.succ_mul, ← Nat.succ_mul]
  exact ⟨Nat.mul_le_mul_right _ (by omega), Nat.mul_le_mul_right _ (by
    show _ ≤ unitsOf p + unitsOf (p + 1)
    omega)⟩

/-- The finest grid is narrower than a unit, so the two points next to a number cannot both be
half a unit away from it. -/
theorem exists_gridPoint?_finest (hp : 0 < p) : ∃ c, gridPoint? p 0 = some c := by
  obtain ⟨hlow, hhigh⟩ := midpoint_add_le hp
  have hstep : gridStep 0 < 2 * halfUnit := by decide
  refine exists_gridPoint? ?_
  generalize 2 * unitsOf p * halfUnit = value at *
  have hbelow : value / gridStep 0 * gridStep 0 ≤ value := Nat.div_mul_le_self _ _
  have habove : value < value / gridStep 0 * gridStep 0 + gridStep 0 :=
    Nat.lt_div_mul_add (by decide)
  by_cases hnear : value < value / gridStep 0 * gridStep 0 + halfUnit
  · left
    rw [readsBack_iff]
    omega
  · right
    rw [readsBack_iff, Nat.succ_mul]
    omega

theorem readsBack_shortestFrom (hp : 0 < p) (j : Nat) :
    ReadsBack p (shortestFrom p j).1 (shortestFrom p j).2 := by
  induction j with
  | zero =>
    obtain ⟨c, hc⟩ := exists_gridPoint?_finest hp
    rw [shortestFrom, hc, Option.getD_some]
    exact readsBack_of_gridPoint? hc
  | succ j ih =>
    rw [shortestFrom]
    split
    · case h_1 c hc => exact readsBack_of_gridPoint? hc
    · exact ih

theorem readsBack_shortest (hp : 0 < p) : ReadsBack p (shortest p).1 (shortest p).2 :=
  readsBack_shortestFrom hp _

/-! ## Positional notation -/

theorem toList_padded (width n : Nat) : (padded width n).toList =
    List.replicate (width - (toString n).toList.length) '0' ++ (toString n).toList := by
  rw [padded, String.toList_ofList]

theorem isDigit_of_mem_padded (h : e ∈ (padded m n).toList) : e.isDigit = true := by
  rw [toList_padded] at h
  rcases List.mem_append.1 h with hzero | hdigit
  · rw [List.eq_of_mem_replicate hzero]
    rfl
  · exact isDigit_of_mem_toString hdigit

theorem length_padded (hm : 0 < m) (hr : r < 10 ^ m) : (padded m r).toList.length = m := by
  have hle : (toString r).toList.length ≤ m := by
    rw [toList_toString]
    exact (Nat.length_toDigits_le_iff (by decide) hm).2 hr
  rw [toList_padded, List.length_append, List.length_replicate]
  omega

/-- Zeros in front do not change the number that is read. -/
theorem ofDigitChars_padded (m r : Nat) : Nat.ofDigitChars 10 (padded m r).toList 0 = r := by
  rw [toList_padded, Nat.ofDigitChars_append, Nat.ofDigitChars_replicate_zero, Nat.mul_zero,
    ofDigitChars_toString]

theorem padded_inj (hm : 0 < m) (hr : r < 10 ^ m) (hn : 0 < n) (hs : s < 10 ^ n)
    (h : padded m r = padded n s) : m = n ∧ r = s := by
  have hlength := congrArg (fun text : String => text.toList.length) h
  have hread := congrArg (fun text : String => Nat.ofDigitChars 10 text.toList 0) h
  simp only [length_padded hm hr, length_padded hn hs] at hlength
  simp only [ofDigitChars_padded] at hread
  exact ⟨hlength, hread⟩

theorem positional_of_le (h : places ≤ j) (c : Nat) :
    positional c j = toString (c * 10 ^ (j - places)) := if_pos h

theorem positional_of_lt (h : j < places) (c : Nat) :
    positional c j = toString (c / 10 ^ (places - j)) ++ "." ++
      padded (places - j) (c % 10 ^ (places - j)) := if_neg (Nat.not_le.2 h)

theorem toList_positional_of_lt (h : j < places) (c : Nat) :
    (positional c j).toList = (toString (c / 10 ^ (places - j))).toList ++ '.' ::
      (padded (places - j) (c % 10 ^ (places - j))).toList := by
  rw [positional_of_lt h]
  simp

theorem mem_positional (h : e ∈ (positional c j).toList) : e.isDigit = true ∨ e = '.' := by
  rcases Nat.lt_or_ge j places with hj | hj
  · rw [toList_positional_of_lt hj] at h
    rcases List.mem_append.1 h with hwhole | hrest
    · exact .inl (isDigit_of_mem_toString hwhole)
    · rcases List.mem_cons.1 hrest with hdot | hfraction
      · exact .inr hdot
      · exact .inl (isDigit_of_mem_padded hfraction)
  · rw [positional_of_le hj] at h
    exact .inl (isDigit_of_mem_toString h)

theorem positional_ne_empty (c j : Nat) : positional c j ≠ "" := by
  rcases Nat.lt_or_ge j places with hj | hj
  · rw [positional_of_lt hj, String.append_assoc]
    exact fun h => toString_ne_empty _ (String.append_eq_empty_iff.1 h).1
  · rw [positional_of_le hj]
    exact toString_ne_empty _

theorem dot_mem_positional_iff : '.' ∈ (positional c j).toList ↔ j < places := by
  rcases Nat.lt_or_ge j places with hj | hj
  · rw [toList_positional_of_lt hj]
    exact iff_of_true (List.mem_append_right _ List.mem_cons_self) hj
  · rw [positional_of_le hj]
    exact iff_of_false (notMem_toString rfl _) (Nat.not_lt.2 hj)

theorem positional_inj (h : positional c j = positional d k) : c * 10 ^ j = d * 10 ^ k := by
  have hdot : j < places ↔ k < places := by
    rw [← dot_mem_positional_iff (c := c), h, dot_mem_positional_iff]
  rcases Nat.lt_or_ge j places with hj | hj
  · have hk := hdot.1 hj
    rw [positional_of_lt hj, positional_of_lt hk] at h
    obtain ⟨hwhole, hfraction⟩ :=
      Text.append_inj_at rfl (notMem_toString rfl _) (notMem_toString rfl _) h
    obtain ⟨hwidth, hfraction⟩ := padded_inj (Nat.sub_pos_of_lt hj)
      (Nat.mod_lt _ (Nat.pow_pos (by decide))) (Nat.sub_pos_of_lt hk)
      (Nat.mod_lt _ (Nat.pow_pos (by decide))) hfraction
    have hwhole := toString_inj hwhole
    obtain rfl : j = k := by omega
    rw [← Nat.div_add_mod c (10 ^ (places - j)), hwhole, hfraction, Nat.div_add_mod]
  · have hk : places ≤ k := Nat.not_lt.1 fun hk => Nat.not_lt.2 hj (hdot.2 hk)
    rw [positional_of_le hj, positional_of_le hk] at h
    have hscale {i : Nat} (hi : places ≤ i) : 10 ^ i = 10 ^ (i - places) * 10 ^ places := by
      rw [← Nat.pow_add, Nat.sub_add_cancel hi]
    rw [hscale hj, hscale hk, ← Nat.mul_assoc, ← Nat.mul_assoc, toString_inj h]

/-! ## Signs and magnitudes -/

/-- The text of a magnitude. -/
def magnitudeText (p : Nat) : String :=
  if p = infinityPattern then "inf"
  else if p = 0 then "0"
  else positional (shortest p).1 (shortest p).2

theorem text_of_isNaN (h : x.isNaN = true) : x.text = "NaN" := if_pos h

theorem text_of_not_isNaN (h : x.isNaN = false) :
    x.text = (if x.signBit then "-" else "") ++ magnitudeText x.pattern := by
  simp only [text, h, isInfinite, isZero, magnitudeText, decide_eq_true_eq, Bool.false_eq_true,
    if_false]
  split
  · rfl
  · split <;> rfl

/-- The text of a magnitude that is not infinite is a decimal that reads back as it. -/
theorem exists_decimal (hp : p ≠ infinityPattern) :
    ∃ c j, magnitudeText p = positional c j ∧ ReadsBack p c j := by
  rw [magnitudeText, if_neg hp]
  by_cases hzero : p = 0
  · subst hzero
    exact ⟨0, places, rfl, by decide⟩
  · rw [if_neg hzero]
    exact ⟨_, _, rfl, readsBack_shortest (Nat.pos_of_ne_zero hzero)⟩

theorem mem_magnitudeText (h : e ∈ (magnitudeText p).toList) :
    e.isDigit = true ∨ e ∈ ['.', 'i', 'n', 'f'] := by
  by_cases hp : p = infinityPattern
  · rw [magnitudeText, if_pos hp] at h
    exact .inr (List.mem_cons_of_mem _ h)
  · obtain ⟨c, j, hdecimal, -⟩ := exists_decimal hp
    rw [hdecimal] at h
    rcases mem_positional h with hdigit | rfl
    · exact .inl hdigit
    · exact .inr List.mem_cons_self

theorem magnitudeText_ne_empty (p : Nat) : magnitudeText p ≠ "" := by
  by_cases hp : p = infinityPattern
  · rw [magnitudeText, if_pos hp]
    decide
  · obtain ⟨c, j, hdecimal, -⟩ := exists_decimal hp
    rw [hdecimal]
    exact positional_ne_empty c j

theorem magnitudeText_ne_inf (hp : p ≠ infinityPattern) : magnitudeText p ≠ "inf" := by
  obtain ⟨c, j, hdecimal, -⟩ := exists_decimal hp
  rw [hdecimal]
  intro h
  have hletter : 'i' ∈ (positional c j).toList := by
    rw [h]
    decide
  rcases mem_positional hletter with hdigit | hdot
  · cases hdigit
  · cases hdot

theorem magnitudeText_inj (h : magnitudeText p = magnitudeText q) : p = q := by
  have hinf : magnitudeText infinityPattern = "inf" := rfl
  by_cases hp : p = infinityPattern
  · subst hp
    by_cases hq : q = infinityPattern
    · exact hq.symm
    · exact absurd (h.symm.trans hinf) (magnitudeText_ne_inf hq)
  · by_cases hq : q = infinityPattern
    · subst hq
      exact absurd (h.trans hinf) (magnitudeText_ne_inf hp)
    · obtain ⟨c, j, hc, hreadsP⟩ := exists_decimal hp
      obtain ⟨d, k, hd, hreadsQ⟩ := exists_decimal hq
      have hvalue : c * 10 ^ j = d * 10 ^ k := positional_inj (hc.symm.trans (h.trans hd))
      have hgrid (c j : Nat) : c * gridStep j = c * 10 ^ j * 2 ^ 150 := by
        rw [Nat.mul_assoc, ← Nat.shiftLeft_eq]
        rfl
      exact readsBack_unique hreadsP hreadsQ (by rw [hgrid, hgrid, hvalue])

/-! ## Numbers -/

theorem eq_of_signBit_of_pattern (hsign : x.signBit = y.signBit) (hpattern : x.pattern = y.pattern) :
    x = y := by
  have hbit : 0x80000000 ≤ x.bits.toNat ↔ 0x80000000 ≤ y.bits.toNat := decide_eq_decide.1 hsign
  have hx := x.bits.toNat_lt
  have hy := y.bits.toNat_lt
  have hbits : x.bits.toNat = y.bits.toNat := by
    rw [pattern, pattern] at hpattern
    omega
  cases x
  cases y
  exact congrArg mk (UInt32.toNat_inj.1 hbits)

theorem mem_text_of_not_isNaN (hx : x.isNaN = false) (h : e ∈ x.text.toList) :
    e.isDigit = true ∨ e ∈ ['-', '.', 'i', 'n', 'f'] := by
  rw [text_of_not_isNaN hx, String.toList_append] at h
  rcases List.mem_append.1 h with hsign | hmagnitude
  · split at hsign
    · rw [List.mem_singleton.1 hsign]
      exact .inr List.mem_cons_self
    · cases hsign
  · exact (mem_magnitudeText hmagnitude).imp_right (List.mem_cons_of_mem _)

theorem space_notMem_text (x : Binary32) : ' ' ∉ x.text.toList := by
  cases hx : x.isNaN with
  | true =>
    rw [text_of_isNaN hx]
    decide
  | false =>
    intro h
    rcases mem_text_of_not_isNaN hx h with hdigit | hsymbol
    · cases hdigit
    · revert hsymbol
      decide

theorem text_ne_empty (x : Binary32) : x.text ≠ "" := by
  cases hx : x.isNaN with
  | true =>
    rw [text_of_isNaN hx]
    decide
  | false =>
    rw [text_of_not_isNaN hx]
    exact fun h => magnitudeText_ne_empty _ (String.append_eq_empty_iff.1 h).2

theorem text_ne_nan (hx : x.isNaN = false) : x.text ≠ "NaN" := by
  intro h
  have hletter : 'N' ∈ x.text.toList := by
    rw [h]
    decide
  rcases mem_text_of_not_isNaN hx hletter with hdigit | hsymbol
  · cases hdigit
  · revert hsymbol
    decide

/-- A sign can be told from the magnitude behind it. -/
theorem signed_inj {a b : Bool}
    (h : (if a then "-" else "") ++ magnitudeText p = (if b then "-" else "") ++ magnitudeText q) :
    a = b ∧ p = q := by
  have hplain {p q : Nat} : "-" ++ magnitudeText p ≠ "" ++ magnitudeText q := by
    intro h
    have hsign : '-' ∈ (magnitudeText q).toList := by
      rw [← String.empty_append (s := magnitudeText q), ← h, String.toList_append]
      exact List.mem_append_left _ (by decide)
    rcases mem_magnitudeText hsign with hdigit | hsymbol
    · cases hdigit
    · revert hsymbol
      decide
  cases a <;> cases b
  · exact ⟨rfl, magnitudeText_inj ((String.append_right_inj _).1 h)⟩
  · exact absurd h.symm hplain
  · exact absurd h hplain
  · exact ⟨rfl, magnitudeText_inj ((String.append_right_inj _).1 h)⟩

/-- The same number, or NaN both: the bits of a NaN do not show. -/
def SameDatum (x y : Binary32) : Prop := x = y ∨ (x.isNaN = true ∧ y.isNaN = true)

theorem text_eq_iff : x.text = y.text ↔ x.SameDatum y := by
  constructor
  · intro h
    cases hx : x.isNaN with
    | true =>
      cases hy : y.isNaN with
      | true => exact .inr ⟨hx, hy⟩
      | false => exact absurd (h.symm.trans (text_of_isNaN hx)) (text_ne_nan hy)
    | false =>
      cases hy : y.isNaN with
      | true => exact absurd (h.trans (text_of_isNaN hy)) (text_ne_nan hx)
      | false =>
        rw [text_of_not_isNaN hx, text_of_not_isNaN hy] at h
        obtain ⟨hsign, hpattern⟩ := signed_inj h
        exact .inl (eq_of_signBit_of_pattern hsign hpattern)
  · rintro (rfl | ⟨hx, hy⟩)
    · rfl
    · rw [text_of_isNaN hx, text_of_isNaN hy]

theorem sameDatum_iff_eq (hx : x.isNaN = false) : x.SameDatum y ↔ x = y := by
  refine or_iff_left fun h => ?_
  rw [hx] at h
  cases h.1

end Binary32
end TensorIR
