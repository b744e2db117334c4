import TensorIR.Proofs.Attempt
import TensorIR.Shape.Window

/-!
# TensorIR.Proofs.Shape.Window

Windows over unbounded numbers.

* `Window.Applies`: a window can be moved over an axis of a given extent.
* `Window.places`: how many places it takes there, `⌊(extent + 2 * pad - kernel) / stride⌋ + 1`.
* `positions_eq`, `outputDims_eq`, `slide_eq_ok_iff`: the rules that are computed within the machine
  limit answer exactly for windows that apply, with these numbers.
* `Window.Overflows`, `slide_overflow_iff`, `slide_ne_fault`: sizes beyond the limit are refused by
  name, and there is no fault.
* `Window.Covers`, `covers_iff`: the number of places told without a division.
* `Window.objections`, `outputDims_exact`: what the rule for both axes answers, and the first reason
  why it does not.
-/

namespace TensorIR
namespace Window

variable {window : Window} {op : String} {extent height width : Nat}

/-- The window is not empty, fits an axis of the given extent without its padding, and moves; and
the padded axis has a machine size. -/
structure Applies (window : Window) (extent : Nat) : Prop where
  nonempty : 1 ≤ window.kernel
  fits : window.kernel ≤ extent
  moves : 1 ≤ window.stride
  padded : extent + 2 * window.pad < Size.limit

/-- The number of places the window takes along an axis. -/
def places (window : Window) (extent : Nat) : Nat :=
  (extent + 2 * window.pad - window.kernel) / window.stride + 1

theorem padded?_eq (window : Window) (extent : Nat) :
    window.padded? extent =
      if extent + 2 * window.pad < Size.limit then some (extent + 2 * window.pad) else none := by
  unfold padded?
  by_cases h : extent + 2 * window.pad < Size.limit
  · have hmul : Size.mul? window.pad 2 = some (2 * window.pad) :=
      Size.mul?_eq_some_iff.2 ⟨Nat.mul_comm _ _, by omega⟩
    have hadd : Size.add? extent (2 * window.pad) = some (extent + 2 * window.pad) :=
      Size.add?_eq_some_iff.2 ⟨rfl, h⟩
    rw [hmul, if_pos h]
    exact hadd
  · rw [if_neg h]
    cases hmul : Size.mul? window.pad 2 with
    | none => rfl
    | some padding =>
      obtain ⟨rfl, -⟩ := Size.mul?_eq_some_iff.1 hmul
      have hadd : ¬ extent + window.pad * 2 < Size.limit := by omega
      simp [Size.add?, hadd]

/-- A window that is not empty, fits and moves meets no fault: the padded axis has room for it, and
one more than the number of its steps is no more than the padded extent. -/
theorem positions_eq (hkernel : 1 ≤ window.kernel) (hfits : window.kernel ≤ extent)
    (hstride : 1 ≤ window.stride) :
    window.positions op extent =
      if extent + 2 * window.pad < Size.limit then .ok (window.places extent)
      else Attempt.refuse (.overflow op) := by
  rw [positions, padded?_eq]
  by_cases h : extent + 2 * window.pad < Size.limit
  · have hroom : Size.sub (extent + 2 * window.pad) window.kernel =
        .ok (extent + 2 * window.pad - window.kernel) := by
      rw [Size.sub, if_pos (by omega)]
    have hsteps (n : Nat) : Size.div n window.stride = .ok (n / window.stride) := by
      rw [Size.div, if_neg (by omega)]
    have hplaces : Size.add ((extent + 2 * window.pad - window.kernel) / window.stride) 1 =
        .ok (window.places extent) := by
      have hle := Nat.div_le_self (extent + 2 * window.pad - window.kernel) window.stride
      exact Size.add_eq_ok_iff.2 ⟨rfl, by rw [places]; omega⟩
    rw [if_pos h, if_pos h]
    simp only [hroom, hsteps, hplaces, ok_bind, Attempt.ofFault_ok]
  · rw [if_neg h, if_neg h]

/-- The rule for both axes: four reasons to refuse a window, in this order, and no fault. -/
theorem outputDims_eq (window : Window) (op : String) (height width : Nat) :
    window.outputDims op height width =
      if window.kernel = 0 then Attempt.refuse (.zeroKernel op)
      else if height < window.kernel ∨ width < window.kernel then
        Attempt.refuse (.kernelTooLarge op window.kernel height width)
      else if window.stride = 0 then Attempt.refuse (.zeroStride op)
      else if height + 2 * window.pad < Size.limit ∧ width + 2 * window.pad < Size.limit then
        .ok (window.places height, window.places width)
      else Attempt.refuse (.overflow op) := by
  unfold outputDims
  by_cases hkernel : window.kernel = 0
  · rw [if_pos hkernel, if_pos hkernel]
  by_cases hfits : height < window.kernel ∨ width < window.kernel
  · rw [if_neg hkernel, if_pos hfits, if_neg hkernel, if_pos hfits]
  by_cases hstride : window.stride = 0
  · simp only [if_neg hkernel, if_neg hfits, if_pos hstride]
  have hpositions {extent : Nat} (hle : window.kernel ≤ extent) :
      window.positions op extent =
        if extent + 2 * window.pad < Size.limit then .ok (window.places extent)
        else Attempt.refuse (.overflow op) :=
    positions_eq (Nat.pos_of_ne_zero hkernel) hle (Nat.pos_of_ne_zero hstride)
  rw [if_neg hkernel, if_neg hfits, if_neg hstride, if_neg hkernel, if_neg hfits, if_neg hstride,
    hpositions (by omega), hpositions (by omega)]
  by_cases hheight : height + 2 * window.pad < Size.limit
  · by_cases hwidth : width + 2 * window.pad < Size.limit
    · rw [if_pos hheight, if_pos hwidth, if_pos ⟨hheight, hwidth⟩]
      rfl
    · rw [if_pos hheight, if_neg hwidth, if_neg (by omega)]
      rfl
  · rw [if_neg hheight, if_neg (c := _ ∧ _) fun h => hheight h.1]
    rfl

theorem outputDims_eq_ok_iff {out : Nat × Nat} :
    window.outputDims op height width = .ok out ↔
      window.Applies height ∧ window.Applies width ∧
        out = (window.places height, window.places width) := by
  rw [outputDims_eq, Attempt.guard_eq_ok_iff, Attempt.guard_eq_ok_iff, Attempt.guard_eq_ok_iff]
  constructor
  · rintro ⟨hkernel, hfits, hstride, h⟩
    split at h
    · case isTrue hpadded =>
      cases h
      exact ⟨⟨by omega, by omega, by omega, hpadded.1⟩, ⟨by omega, by omega, by omega, hpadded.2⟩,
        rfl⟩
    · cases h
  · rintro ⟨⟨hkernel, hheight, hstride, hpadded⟩, ⟨-, hwidth, -, hpadded'⟩, rfl⟩
    exact ⟨by omega, by omega, by omega, if_pos ⟨hpadded, hpadded'⟩⟩

/-- The window could be moved over an image of these extents, but a padded axis is no machine
size. -/
structure Overflows (window : Window) (height width : Nat) : Prop where
  nonempty : 1 ≤ window.kernel
  fits : window.kernel ≤ height ∧ window.kernel ≤ width
  moves : 1 ≤ window.stride
  padded : Size.limit ≤ height + 2 * window.pad ∨ Size.limit ≤ width + 2 * window.pad

theorem outputDims_overflow_iff {name : String} :
    window.outputDims op height width = .error (.refused (.overflow name)) ↔
      name = op ∧ window.Overflows height width := by
  rw [outputDims_eq, Attempt.guard_eq_error_iff (by simp), Attempt.guard_eq_error_iff (by simp),
    Attempt.guard_eq_error_iff (by simp)]
  constructor
  · rintro ⟨hkernel, hfits, hstride, h⟩
    split at h
    · cases h
    · case isFalse hpadded =>
      cases h
      exact ⟨rfl, by omega, by omega, by omega, by omega⟩
  · rintro ⟨rfl, hkernel, hfits, hstride, hpadded⟩
    exact ⟨by omega, by omega, by omega, if_neg (by omega)⟩

theorem outputDims_ne_fault {e : Fault} : window.outputDims op height width ≠ .error (.fault e) := by
  rw [outputDims_eq, Ne, Attempt.guard_eq_error_iff (by simp), Attempt.guard_eq_error_iff (by simp),
    Attempt.guard_eq_error_iff (by simp)]
  rintro ⟨-, -, -, h⟩
  split at h <;> cases h

theorem ofDims_eq_ok_iff {dims : List Nat} {image : Nhwc} :
    Nhwc.ofDims op dims = .ok image ↔ dims = image.dims := by
  unfold Nhwc.ofDims
  constructor
  · intro h
    split at h
    · cases h
      rfl
    · cases h
  · rintro rfl
    rfl

theorem slide_eq_ok_iff {dims : List Nat} {image out : Nhwc} :
    window.slide op dims = .ok (image, out) ↔
      dims = image.dims ∧ window.Applies image.height ∧ window.Applies image.width ∧
        out = ⟨image.batch, window.places image.height, window.places image.width,
          image.channels⟩ := by
  unfold slide
  constructor
  · intro h
    obtain ⟨image', himage, h⟩ := bind_eq_ok.1 h
    obtain ⟨size, hsize, h⟩ := bind_eq_ok.1 h
    cases h
    obtain ⟨hheight, hwidth, rfl⟩ := outputDims_eq_ok_iff.1 hsize
    exact ⟨ofDims_eq_ok_iff.1 (Attempt.ofExcept_eq_ok.1 himage), hheight, hwidth, rfl⟩
  · rintro ⟨hdims, hheight, hwidth, rfl⟩
    have hsize : window.outputDims op image.height image.width = .ok _ :=
      outputDims_eq_ok_iff.2 ⟨hheight, hwidth, rfl⟩
    rw [ofDims_eq_ok_iff.2 hdims, Attempt.ofExcept_ok, ok_bind, hsize]
    rfl

theorem slide_overflow_iff {dims : List Nat} {name : String} :
    window.slide op dims = .error (.refused (.overflow name)) ↔
      name = op ∧ ∃ n h w c, dims = [n, h, w, c] ∧ window.Overflows h w := by
  have hrank : Attempt.ofExcept (Nhwc.ofDims op dims) ≠ .error (.refused (.overflow name)) := by
    unfold Nhwc.ofDims
    split <;> nofun
  rw [slide, bind_eq_error_iff_right hrank]
  constructor
  · rintro ⟨image, himage, h⟩
    rw [bind_eq_error_iff_left (by nofun), outputDims_overflow_iff] at h
    exact ⟨h.1, _, _, _, _, ofDims_eq_ok_iff.1 (Attempt.ofExcept_eq_ok.1 himage), h.2⟩
  · rintro ⟨hname, n, h, w, c, rfl, hover⟩
    refine ⟨⟨n, h, w, c⟩, rfl, ?_⟩
    rw [bind_eq_error_iff_left (by nofun), outputDims_overflow_iff]
    exact ⟨hname, hover⟩

theorem slide_ne_fault {dims : List Nat} {e : Fault} :
    window.slide op dims ≠ .error (.fault e) :=
  bind_ne_error Attempt.ofExcept_ne_fault fun _ => bind_ne_error outputDims_ne_fault fun _ => nofun

theorem slide_of_applies {batch channels : Nat} (hheight : window.Applies height)
    (hwidth : window.Applies width) :
    window.slide op [batch, height, width, channels] = .ok (⟨batch, height, width, channels⟩,
      ⟨batch, window.places height, window.places width, channels⟩) :=
  slide_eq_ok_iff.2 ⟨rfl, hheight, hwidth, rfl⟩

/-! ## Exactness -/

/-- There is a place for the window, the last one of `count` places lies within the padded axis, and
one place more would not. -/
structure Covers (window : Window) (extent count : Nat) : Prop where
  nonempty : 1 ≤ count
  last : (count - 1) * window.stride + window.kernel ≤ extent + 2 * window.pad
  next : extent + 2 * window.pad < count * window.stride + window.kernel

/-- The window lies within the padded axis after as many moves as there are further places. -/
theorem within_iff_lt_places (h : window.Applies extent) (moves : Nat) :
    moves * window.stride + window.kernel ≤ extent + 2 * window.pad ↔
      moves < window.places extent := by
  have hfits := h.fits
  rw [places, Nat.lt_succ_iff, Nat.le_div_iff_mul_le h.moves]
  omega

theorem covers_iff (h : window.Applies extent) {count : Nat} :
    window.Covers extent count ↔ count = window.places extent := by
  have hplaces : 1 ≤ window.places extent := Nat.le_add_left _ _
  have hlast := within_iff_lt_places h (count - 1)
  have hnext := within_iff_lt_places h count
  constructor
  · rintro ⟨hcount, hlast', hnext'⟩
    omega
  · intro hcount
    exact ⟨by omega, by omega, by omega⟩

/-- There are no more places than moves to the end of the padded axis, and one. -/
theorem places_le (h : window.Applies extent) :
    window.places extent + window.kernel ≤ extent + 2 * window.pad + 1 := by
  have hfits := h.fits
  have hsteps := Nat.div_le_self (extent + 2 * window.pad - window.kernel) window.stride
  rw [places]
  omega

/-- The objections to a window over an image, in the order in which they are raised, each with the
condition for it. -/
def objections (window : Window) (op : String) (height width : Nat) : List (Prop × ShapeError) :=
  [(window.kernel = 0, .zeroKernel op),
    (min height width < window.kernel, .kernelTooLarge op window.kernel height width),
    (window.stride = 0, .zeroStride op),
    (Size.limit ≤ height + 2 * window.pad ∨ Size.limit ≤ width + 2 * window.pad, .overflow op)]

theorem outputDims_eq_refused_iff {cause : ShapeError} :
    window.outputDims op height width = .error (.refused cause) ↔
      FirstOf (window.objections op height width) cause := by
  have hfits : height < window.kernel ∨ width < window.kernel ↔
      min height width < window.kernel := by omega
  simp only [outputDims_eq, hfits]
  refine Attempt.guard_eq_refused_iff ?_
  refine Attempt.guard_eq_refused_iff ?_
  refine Attempt.guard_eq_refused_iff ?_
  rw [firstOf_cons_iff, or_iff_left fun h => not_firstOf_nil h.2]
  by_cases hpadded : height + 2 * window.pad < Size.limit ∧ width + 2 * window.pad < Size.limit
  · rw [if_pos hpadded]
    exact iff_of_false nofun (by omega)
  · rw [if_neg hpadded]
    have hover : Size.limit ≤ height + 2 * window.pad ∨ Size.limit ≤ width + 2 * window.pad := by
      omega
    simp [Attempt.refuse, hover]

/-- The rule for both axes answers exactly for a window that is not empty, fits the image and moves,
if both padded axes have a machine size. Each answer is the number of places of the window along its
axis, which is determined by the places themselves, is a machine size, and without padding is no
more than the extent. Otherwise the rule is refused for the first objection that applies, and no
step of the computation leaves the machine sizes. -/
theorem outputDims_exact (window : Window) (op : String) (height width : Nat) :
    ((∃ out, window.outputDims op height width = .ok out) ↔
      1 ≤ window.kernel ∧ window.kernel ≤ min height width ∧ 1 ≤ window.stride ∧
        height + 2 * window.pad < Size.limit ∧ width + 2 * window.pad < Size.limit) ∧
    (∀ outHeight outWidth, window.outputDims op height width = .ok (outHeight, outWidth) →
      ∀ extent out, (extent, out) ∈ [(height, outHeight), (width, outWidth)] →
        (∀ count, window.Covers extent count ↔ count = out) ∧
        (∀ moves, moves * window.stride + window.kernel ≤ extent + 2 * window.pad ↔ moves < out) ∧
        out < Size.limit ∧ (window.pad = 0 → out ≤ extent)) ∧
    (∀ cause, window.outputDims op height width = .error (.refused cause) ↔
      FirstOf (window.objections op height width) cause) ∧
    ∀ f, window.outputDims op height width ≠ .error (.fault f) := by
  refine ⟨?_, fun outHeight outWidth h extent out hout => ?_,
    fun cause => outputDims_eq_refused_iff, fun f => outputDims_ne_fault⟩
  · simp only [outputDims_eq_ok_iff]
    constructor
    · rintro ⟨out, hheight, hwidth, -⟩
      exact ⟨hheight.nonempty, Nat.le_min.2 ⟨hheight.fits, hwidth.fits⟩, hheight.moves,
        hheight.padded, hwidth.padded⟩
    · rintro ⟨hkernel, hfits, hstride, hheight, hwidth⟩
      obtain ⟨hfitsHeight, hfitsWidth⟩ := Nat.le_min.1 hfits
      exact ⟨_, ⟨hkernel, hfitsHeight, hstride, hheight⟩, ⟨hkernel, hfitsWidth, hstride, hwidth⟩,
        rfl⟩
  · obtain ⟨hheight, hwidth, hplaces⟩ := outputDims_eq_ok_iff.1 h
    cases hplaces
    have haxis : window.Applies extent ∧ out = window.places extent := by
      rcases List.mem_cons.1 hout with h | h
      · cases h
        exact ⟨hheight, rfl⟩
      · cases List.mem_singleton.1 h
        exact ⟨hwidth, rfl⟩
    obtain ⟨happlies, rfl⟩ := haxis
    have hnonempty := happlies.nonempty
    have hpadded := happlies.padded
    have hle := places_le happlies
    exact ⟨fun count => covers_iff happlies, within_iff_lt_places happlies, by omega,
      fun hpad => by omega⟩

/-- A padded window that moves by two places, and one with two reasons to refuse it. -/
theorem outputDims_exact_strided :
    let window : Window := ⟨3, 2, 1⟩
    window.outputDims "pool" 7 10 = .ok (4, 5) ∧ window.Covers 7 4 ∧ window.Covers 10 5 ∧
      (⟨5, 0, 0⟩ : Window).outputDims "pool" 4 8 =
        .error (.refused (.kernelTooLarge "pool" 5 4 8)) := by
  intro window
  have hout : window.outputDims "pool" 7 10 = .ok (4, 5) := by decide
  have hexact := (outputDims_exact window "pool" 7 10).2.1 4 5 hout
  have hrefused := (outputDims_exact ⟨5, 0, 0⟩ "pool" 4 8).2.2.1 (.kernelTooLarge "pool" 5 4 8)
  exact ⟨hout, ((hexact 7 4 (by decide)).1 4).2 rfl, ((hexact 10 5 (by decide)).1 5).2 rfl,
    hrefused.2 (.later (by decide) (.here (by decide)))⟩

end Window
end TensorIR
