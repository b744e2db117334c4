import TensorIR.Fault

/-!
# TensorIR.Proofs.Attempt

Sequences of computations that may fail.

* `bind_eq_ok`, `Attempt.mapRefusal_eq_ok`, `Attempt.ofExcept_eq_ok`: what an answer of a composed
  computation says of its parts.
* `bind_eq_error_iff_left`, `bind_eq_error_iff_right`, `bind_ne_error`, `mapM_ne_error`: which part
  a failure comes from, if only one part can fail like this.
* `Attempt.guard_eq_ok_iff`, `Attempt.guard_eq_error_iff`: the same for what stands behind a guard.
* `FirstOf`, `FirstOf.unique`, `Attempt.guard_eq_refused_iff`: a row of guards refuses for the first
  cause that applies, and there is only one first cause. `firstOf_map_of_find?` is the case of one
  guard for each element of a list.
* `mapM_eq_ok`, `exists_mem_of_mapM`, `mapM_of_forall`, `mapM_range'_eq_ok`: the same for the
  elements and for the positions of a list.
* `forM_congr`, `forM_eq_ok_iff`, `forM_eq_error_iff`: a sequence of checks depends on each check
  only at the elements of its list, it passes exactly if all of them do, and otherwise fails as the
  first one that fails.
-/

namespace TensorIR

variable {ε α β : Type}

@[simp] theorem ok_bind (a : α) (f : α → Except ε β) : (Except.ok a >>= f) = f a := rfl

@[simp] theorem error_bind (e : ε) (f : α → Except ε β) : (Except.error e >>= f) = .error e := rfl

theorem bind_eq_ok {x : Except ε α} {f : α → Except ε β} {b : β} :
    x >>= f = .ok b ↔ ∃ a, x = .ok a ∧ f a = .ok b := by
  cases x with
  | error e => simp
  | ok a => simp

/-! ## Failures -/

section Failures

variable {x : Except ε α} {f : α → Except ε β} {e : ε}

theorem bind_ne_error (hx : x ≠ .error e) (hf : ∀ a, f a ≠ .error e) : x >>= f ≠ .error e := by
  cases x with
  | error cause => exact fun h => hx (by cases h; rfl)
  | ok a => exact hf a

/-- Where no continuation fails like this, the failure is that of the first part. -/
theorem bind_eq_error_iff_left (hf : ∀ a, f a ≠ .error e) : x >>= f = .error e ↔ x = .error e := by
  cases x with
  | error cause => exact ⟨fun h => by cases h; rfl, fun h => by cases h; rfl⟩
  | ok a => exact iff_of_false (hf a) nofun

/-- Where the first part does not fail like this, the failure is that of the continuation. -/
theorem bind_eq_error_iff_right (hx : x ≠ .error e) :
    x >>= f = .error e ↔ ∃ a, x = .ok a ∧ f a = .error e := by
  cases x with
  | error cause => exact iff_of_false (fun h => hx (by cases h; rfl)) nofun
  | ok a => simp

theorem mapM_ne_error (hf : ∀ a, f a ≠ .error e) (xs : List α) : xs.mapM f ≠ .error e := by
  induction xs with
  | nil => exact nofun
  | cons a xs ih =>
    rw [List.mapM_cons]
    exact bind_ne_error (hf a) fun b => bind_ne_error ih fun bs => nofun

end Failures

/-! ## Causes in order -/

/-- The first of several causes that applies, where each one comes with the condition for it. -/
inductive FirstOf : List (Prop × ε) → ε → Prop
  | here {applies : Prop} {cause : ε} {later : List (Prop × ε)} (h : applies) :
    FirstOf ((applies, cause) :: later) cause
  | later {applies : Prop} {other cause : ε} {later : List (Prop × ε)} (hother : ¬ applies)
    (h : FirstOf later cause) : FirstOf ((applies, other) :: later) cause

theorem not_firstOf_nil {cause : ε} : ¬ FirstOf [] cause := nofun

theorem firstOf_cons_iff {applies : Prop} {other cause : ε} {later : List (Prop × ε)} :
    FirstOf ((applies, other) :: later) cause ↔
      (applies ∧ other = cause) ∨ (¬ applies ∧ FirstOf later cause) := by
  constructor
  · rintro (h | ⟨hother, h⟩)
    · exact .inl ⟨h, rfl⟩
    · exact .inr ⟨hother, h⟩
  · rintro (⟨h, rfl⟩ | ⟨hother, h⟩)
    · exact .here h
    · exact .later hother h

theorem not_firstOf_of_forall {causes : List (Prop × ε)} {cause : ε}
    (h : ∀ other ∈ causes, ¬ other.1) : ¬ FirstOf causes cause := by
  intro hfirst
  induction hfirst with
  | here happlies => exact h _ List.mem_cons_self happlies
  | later _ _ ih => exact ih fun other hother => h other (List.mem_cons_of_mem _ hother)

theorem FirstOf.unique {causes : List (Prop × ε)} {cause other : ε} (h : FirstOf causes cause)
    (hother : FirstOf causes other) : cause = other := by
  induction h with
  | here happlies =>
    cases hother with
    | here => rfl
    | later hnot => exact absurd happlies hnot
  | later hnot _ ih =>
    cases hother with
    | here happlies => exact absurd happlies hnot
    | later _ hlater => exact ih hlater

theorem FirstOf.append {causes later : List (Prop × ε)} {cause : ε} (h : FirstOf causes cause) :
    FirstOf (causes ++ later) cause := by
  induction h with
  | here happlies => exact .here happlies
  | later hnot _ ih => exact .later hnot ih

theorem firstOf_append_of_forall {causes later : List (Prop × ε)} {cause : ε}
    (h : ∀ other ∈ causes, ¬ other.1) (hlater : FirstOf later cause) :
    FirstOf (causes ++ later) cause := by
  induction causes with
  | nil => exact hlater
  | cons other causes ih =>
    obtain ⟨hnot, hrest⟩ := List.forall_mem_cons.1 h
    exact .later hnot (ih hrest)

/-- Objections to the elements of a list come in the order of the elements. -/
theorem firstOf_map_of_find? {applies : α → Prop} [DecidablePred applies] {cause : α → ε}
    {xs : List α} {x : α} (h : xs.find? (fun y => applies y) = some x) :
    FirstOf (xs.map fun y => (applies y, cause y)) (cause x) := by
  induction xs with
  | nil => cases h
  | cons y xs ih =>
    by_cases hy : applies y
    · rw [List.find?_cons_of_pos (by simpa using hy)] at h
      cases h
      exact .here hy
    · rw [List.find?_cons_of_neg (by simpa using hy)] at h
      exact .later hy (ih h)

namespace Attempt

theorem mapRefusal_eq_ok {δ : Type} {f : ε → δ} {x : Attempt ε α} {a : α} :
    x.mapRefusal f = .ok a ↔ x = .ok a := by
  cases x with
  | ok b => simp
  | error e => cases e <;> simp

theorem ofExcept_eq_ok {x : Except ε α} {a : α} : ofExcept x = .ok a ↔ x = .ok a := by
  cases x <;> simp

theorem ofFault_eq_ok {x : Except Fault α} {a : α} : ofFault (ε := ε) x = .ok a ↔ x = .ok a := by
  cases x with
  | ok b => simp
  | error e => simp [ofFault]

theorem mapRefusal_eq_fault {δ : Type} {f : ε → δ} {x : Attempt ε α} {e : Fault} :
    x.mapRefusal f = .error (.fault e) ↔ x = .error (.fault e) := by
  cases x with
  | ok a => simp
  | error e' => cases e' <;> simp

/-- An injective rewording keeps failures apart. -/
theorem mapRefusal_eq_error_map {δ : Type} {f : ε → δ} (hf : ∀ c d, f c = f d → c = d)
    {x : Attempt ε α} {e : Abort ε} : x.mapRefusal f = .error (e.map f) ↔ x = .error e := by
  cases x with
  | ok a => exact iff_of_false nofun nofun
  | error e' =>
    cases e' <;> cases e <;> simp [mapRefusal, Abort.map]
    exact ⟨fun h => hf _ _ h, fun h => congrArg f h⟩

section Guards

variable {guard : Prop} [Decidable guard] {cause : ε} {x : Attempt ε α}

theorem guard_eq_ok_iff {a : α} :
    (if guard then refuse cause else x) = .ok a ↔ ¬ guard ∧ x = .ok a := by
  by_cases h : guard
  · rw [if_pos h]
    exact iff_of_false nofun fun hok => hok.1 h
  · rw [if_neg h]
    exact ⟨fun hok => ⟨h, hok⟩, And.right⟩

/-- A failure for another cause than that of the guard comes from behind the guard. -/
theorem guard_eq_error_iff {e : Abort ε} (he : e ≠ .refused cause) :
    (if guard then refuse cause else x) = .error e ↔ ¬ guard ∧ x = .error e := by
  by_cases h : guard
  · rw [if_pos h]
    exact iff_of_false (fun hfail => he (Except.error.inj hfail).symm) fun hfail => hfail.1 h
  · rw [if_neg h]
    exact ⟨fun hfail => ⟨h, hfail⟩, And.right⟩

/-- A guard comes first among the causes for which a computation is refused. -/
theorem guard_eq_refused_iff {other : ε} {later : List (Prop × ε)}
    (hx : x = .error (.refused other) ↔ FirstOf later other) :
    (if guard then refuse cause else x) = .error (.refused other) ↔
      FirstOf ((guard, cause) :: later) other := by
  rw [firstOf_cons_iff]
  by_cases h : guard
  · rw [if_pos h]
    simp [refuse, h]
  · rw [if_neg h, hx]
    simp [h]

end Guards

theorem ofExcept_ne_fault {x : Except ε α} {e : Fault} : ofExcept x ≠ .error (.fault e) := by
  cases x <;> nofun

theorem ofExcept_eq_refused {x : Except ε α} {cause : ε} :
    ofExcept x = .error (.refused cause) ↔ x = .error cause := by
  cases x <;> simp

theorem mapRefusal_ofExcept_eq_ok {δ : Type} {f : ε → δ} {x : Except ε α} {a : α} :
    (ofExcept x).mapRefusal f = .ok a ↔ x = .ok a := by
  rw [mapRefusal_eq_ok, ofExcept_eq_ok]

end Attempt

/-! ## Lists -/

theorem mapM_eq_ok {f : α → Except ε β} {xs : List α} :
    ∀ {ys : List β}, xs.mapM f = .ok ys → ys.length = xs.length ∧
      ∀ (n : Nat) (y : β), ys[n]? = some y → ∃ x, xs[n]? = some x ∧ f x = .ok y := by
  induction xs with
  | nil => intro ys h; cases h; simp
  | cons x xs ih =>
    intro ys h
    rw [List.mapM_cons] at h
    obtain ⟨y, hy, h⟩ := bind_eq_ok.1 h
    obtain ⟨rest, hrest, h⟩ := bind_eq_ok.1 h
    cases h
    obtain ⟨hlen, hall⟩ := ih hrest
    refine ⟨by simp [hlen], fun n z hz => ?_⟩
    cases n with
    | zero => cases hz; exact ⟨x, rfl, hy⟩
    | succ n => exact hall n z hz

theorem exists_mem_of_mapM {f : α → Except ε β} {xs : List α} {ys : List β}
    (h : xs.mapM f = .ok ys) {x : α} (hx : x ∈ xs) : ∃ y ∈ ys, f x = .ok y := by
  obtain ⟨hlen, hall⟩ := mapM_eq_ok h
  obtain ⟨n, hlt, rfl⟩ := List.getElem_of_mem hx
  have hy : ys[n]? = some ys[n] := List.getElem?_eq_getElem (hlen ▸ hlt)
  obtain ⟨x, hx, hfx⟩ := hall n _ hy
  rw [List.getElem?_eq_getElem hlt] at hx
  cases hx
  exact ⟨_, List.mem_of_getElem? hy, hfx⟩

theorem exists_eq_ok_of_mapM {f : α → Except ε β} {xs : List α} {ys : List β}
    (h : xs.mapM f = .ok ys) {x : α} (hx : x ∈ xs) : ∃ y, f x = .ok y := by
  obtain ⟨y, -, hy⟩ := exists_mem_of_mapM h hx
  exact ⟨y, hy⟩

/-- Where all elements have answers of a kind, the list has a list of such answers. -/
theorem mapM_of_forall {f : α → Except ε β} {P : β → Prop} {xs : List α} :
    (∀ x ∈ xs, ∃ y, f x = .ok y ∧ P y) → ∃ ys, xs.mapM f = .ok ys ∧ ∀ y ∈ ys, P y := by
  induction xs with
  | nil => intro _; exact ⟨[], rfl, List.forall_mem_nil _⟩
  | cons x xs ih =>
    intro h
    obtain ⟨y, hy, hfirst⟩ := h x List.mem_cons_self
    obtain ⟨ys, hys, hrest⟩ := ih fun z hz => h z (List.mem_cons_of_mem x hz)
    refine ⟨y :: ys, ?_, List.forall_mem_cons.2 ⟨hfirst, hrest⟩⟩
    rw [List.mapM_cons, hy, hys]
    rfl

theorem mapM_range'_eq_ok {f : Nat → Except ε β} (ys : List β) :
    ∀ start, (∀ (n : Nat) (y : β), ys[n]? = some y → f (start + n) = .ok y) →
      (List.range' start ys.length).mapM f = .ok ys := by
  induction ys with
  | nil => intro start _; rfl
  | cons y ys ih =>
    intro start h
    have hrest : (List.range' (start + 1) ys.length).mapM f = .ok ys := by
      refine ih (start + 1) fun n z hz => ?_
      rw [Nat.add_right_comm]
      exact h (n + 1) z hz
    have hfirst : f start = .ok y := h 0 y rfl
    rw [List.length_cons, List.range'_succ, List.mapM_cons, hrest, hfirst]
    rfl

theorem forM_congr {m : Type → Type} [Monad m] {f g : α → m PUnit} {xs : List α}
    (h : ∀ x ∈ xs, f x = g x) : forM xs f = forM xs g := by
  induction xs with
  | nil => rfl
  | cons x xs ih =>
    rw [List.forM_cons, List.forM_cons, h x List.mem_cons_self,
      ih fun y hy => h y (List.mem_cons_of_mem x hy)]

theorem forM_eq_ok_iff {f : α → Except ε Unit} {xs : List α} :
    forM xs f = .ok () ↔ ∀ x ∈ xs, f x = .ok () := by
  induction xs with
  | nil => exact iff_of_true rfl (List.forall_mem_nil _)
  | cons x xs ih =>
    rw [List.forM_cons, bind_eq_ok, List.forall_mem_cons, ← ih]
    exact ⟨fun ⟨_, hfirst, hrest⟩ => ⟨hfirst, hrest⟩, fun ⟨hfirst, hrest⟩ => ⟨_, hfirst, hrest⟩⟩

theorem forM_eq_error_iff {f : α → Except ε Unit} {e : ε} {xs : List α} :
    forM xs f = .error e ↔ ∃ (n : Nat) (x : α), xs[n]? = some x ∧ f x = .error e ∧
      ∀ m y, m < n → xs[m]? = some y → f y = .ok () := by
  induction xs with
  | nil => exact iff_of_false nofun fun ⟨n, x, hx, _⟩ => nomatch hx
  | cons first xs ih =>
    rw [List.forM_cons]
    cases hfirst : f first with
    | error cause =>
      constructor
      · intro h
        cases h
        exact ⟨0, first, rfl, hfirst, fun m y hm => absurd hm (Nat.not_lt_zero m)⟩
      · rintro ⟨n, x, hx, hfail, hbefore⟩
        cases n with
        | zero => cases hx; rw [← hfail, hfirst]; rfl
        | succ n => cases hfirst.symm.trans (hbefore 0 first n.succ_pos rfl)
    | ok _ =>
      rw [ok_bind, ih]
      constructor
      · rintro ⟨n, x, hx, hfail, hbefore⟩
        refine ⟨n + 1, x, hx, hfail, fun m y hm hy => ?_⟩
        cases m with
        | zero => cases hy; exact hfirst
        | succ m => exact hbefore m y (Nat.lt_of_succ_lt_succ hm) hy
      · rintro ⟨n, x, hx, hfail, hbefore⟩
        cases n with
        | zero => cases hx; cases hfirst.symm.trans hfail
        | succ n =>
          exact ⟨n, x, hx, hfail, fun m y hm hy => hbefore (m + 1) y (Nat.succ_lt_succ hm) hy⟩

end TensorIR
