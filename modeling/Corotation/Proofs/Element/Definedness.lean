import Corotation.Proofs.Element.Triad
import Corotation.Proofs.Scalar.Partial
/-!
# Where the linearization is defined

Over the real numbers a quotient has a value even if its denominator is zero, so a formula does
not show there whether it has divided by zero. But the formulas of the linearization are written
for any scalars, and among the real numbers with an undefined value such a quotient is undefined,
and so is all that is computed from it. So they are evaluated once more at the numbers of a real
triad (`Triad.numbers`): no division was by zero if they have their real values.

The chord and spin parts of the linearization divide by the length of the chord, by the second
component of the mean y-axis, and by two. They are defined exactly where the first two of these
are not zero (`hasLinearization_iff`).
-/

namespace Corotation

/-! ## Quotients of numbers -/

namespace PartialReal

section Quotients

open Scalar

variable {x y : ℝ}

theorem div_number (h : y ≠ 0) : number x / number y = number (x / y) := if_neg h

theorem div_number_zero : number x / number 0 = undefined := if_pos rfl

/-- A quotient that is a number has a denominator other than zero. -/
theorem ne_zero_of_div_number {z : ℝ} (h : number x / number y = number z) : y ≠ 0 := by
  rintro rfl
  rw [div_number_zero] at h
  cases h

theorem ofNat_zero : (0 : PartialReal) = number 0 := by rw [ofNat_eq, Nat.cast_zero]

theorem ofNat_one : (1 : PartialReal) = number 1 := by rw [ofNat_eq, Nat.cast_one]

theorem ofNat_two : (2 : PartialReal) = number 2 := rfl

theorem half_number : (half : PartialReal) = number (1 / 2) := by
  rw [half, ofNat_one, ofNat_two, div_number two_ne_zero]

end Quotients

end PartialReal

open PartialReal

/-! ## Real data among partial numbers -/

/-- The components of a vector as numbers. -/
def Vec3.numbers (v : Vec3 ℝ) : Vec3 PartialReal := v.map .number

/-- The entries of a matrix as numbers. -/
def Mat3.numbers (m : Mat3 ℝ) : Mat3 PartialReal := m.map .number

/-- The components of an element vector as numbers. -/
def ElementVector.numbers (p : ElementVector ℝ) : ElementVector PartialReal :=
  Slots.map Vec3.numbers p

/-- The entries of a matrix with three rows as numbers. -/
def Covectors.numbers (a : Covectors ℝ) : Covectors PartialReal := Slots.map Mat3.numbers a

/-- The entries of an element matrix as numbers. -/
def ElementMatrix.numbers (a : ElementMatrix ℝ) : ElementMatrix PartialReal :=
  Slots.map Covectors.numbers a

namespace Triad

/-- The data of a triad as numbers. -/
def numbers (t : Triad ℝ) : Triad PartialReal :=
  ⟨.number t.length, t.axes.numbers, t.mean.numbers, t.nodal.map Vec3.numbers⟩

/-- The twist ratios as numbers. -/
def TwistRatios.numbers (r : TwistRatios ℝ) : TwistRatios PartialReal :=
  ⟨.number r.slope, r.first.map .number, r.second.map .number⟩

end Triad

section Algebra

variable [SeriesAngle] (v : Vec3 ℝ) (m : Mat3 ℝ) (p q : ElementVector ℝ) (a : Covectors ℝ)
  {s : ℝ}

theorem Vec3.numbers_zero : (Vec3.zero : Vec3 PartialReal) = (Vec3.zero : Vec3 ℝ).numbers :=
  Vec3.ext ofNat_zero ofNat_zero ofNat_zero

theorem Vec3.numbers_divide (hs : s ≠ 0) : v.numbers.divide (.number s) = (v.divide s).numbers :=
  Vec3.ext (div_number hs) (div_number hs) (div_number hs)

theorem Mat3.numbers_zero : (Mat3.zero : Mat3 PartialReal) = (Mat3.zero : Mat3 ℝ).numbers :=
  Mat3.ext Vec3.numbers_zero Vec3.numbers_zero Vec3.numbers_zero

theorem Mat3.numbers_identity :
    (Mat3.identity : Mat3 PartialReal) = (Mat3.identity : Mat3 ℝ).numbers :=
  Mat3.ext (Vec3.ext ofNat_one ofNat_zero ofNat_zero) (Vec3.ext ofNat_zero ofNat_one ofNat_zero)
    (Vec3.ext ofNat_zero ofNat_zero ofNat_one)

theorem Mat3.numbers_skew : Mat3.skew v.numbers = (Mat3.skew v).numbers :=
  Mat3.ext (Vec3.ext ofNat_zero rfl rfl) (Vec3.ext rfl ofNat_zero rfl)
    (Vec3.ext rfl rfl ofNat_zero)

theorem Mat3.numbers_map_div (hs : s ≠ 0) :
    m.numbers.map (Scalar.div · (.number s)) = (m.map (Scalar.div · s)).numbers :=
  Mat3.ext (Vec3.numbers_divide _ hs) (Vec3.numbers_divide _ hs) (Vec3.numbers_divide _ hs)

theorem Covectors.numbers_applyTranspose :
    a.numbers.applyTranspose v.numbers = (a.applyTranspose v).numbers := rfl

theorem ElementVector.numbers_add :
    ElementVector.add p.numbers q.numbers = (ElementVector.add p q).numbers := rfl

theorem ElementVector.numbers_turn :
    Slots.map m.numbers.apply p.numbers = ElementVector.numbers (Slots.map m.apply p) := rfl

theorem ElementMatrix.numbers_outer :
    ElementMatrix.outer p.numbers q.numbers = (ElementMatrix.outer p q).numbers := rfl

end Algebra

namespace Triad

/-! ## The parts of the formulas -/

section Parts

open Scalar

variable {α : Type} [Scalar α] (t : Triad α)

/-- The block of the chord stiffness for the axial force `n`. -/
def chordBlock (n : α) : Mat3 α :=
  ((Mat3.identity - Mat3.outer t.e1 t.e1).scale n).map (· / t.length)

theorem chordStiffness_eq (p : ElementVector α) : t.chordStiffness p =
    let d := t.chordBlock p.axial
    ⟨⟨⟨⟨d, .zero⟩, ⟨-d, .zero⟩⟩, ⟨⟨.zero, .zero⟩, ⟨.zero, .zero⟩⟩⟩,
      ⟨⟨⟨-d, .zero⟩, ⟨d, .zero⟩⟩, ⟨⟨.zero, .zero⟩, ⟨.zero, .zero⟩⟩⟩⟩ := rfl

/-- The end forces of two moments, in components of the triad. -/
def momentForces (moments : Ends (Vec3 α)) : ElementVector α :=
  ElementVector.add ((relativeSpin t.spin).i.applyTranspose moments.i)
    ((relativeSpin t.spin).j.applyTranspose moments.j)

/-- The rows by which a nodal force turns with the triad. -/
def turnRows (v : Vec3 α) : Covectors α :=
  (t.spin.mulDiagonal t.axes.transpose).mulLeft (t.axes * Mat3.skew v)

theorem triadStiffness_eq (moments : Ends (Vec3 α)) :
    t.triadStiffness moments = Slots.map t.turnRows (t.momentForces moments) := rfl

/-- The moments across the chord over its length, for the sum of the moments at the ends. -/
def acrossChord (sum : Vec3 α) : Vec3 α :=
  ⟨0, (t.twistRatios.slope * sum.x + sum.y) / t.length, sum.z / t.length⟩

theorem lengthStiffness_eq (moments : Ends (Vec3 α)) : t.lengthStiffness moments =
    ElementMatrix.outer
      (Slots.map t.axes.apply (t.spin.applyTranspose (t.acrossChord (moments.i + moments.j))))
      t.chordRow := rfl

/-- The rows of the rates of the nodal y-axes, in components of the triad. -/
def nodalRows : Ends (Covectors α) :=
  let turn := t.spin.mulDiagonal t.axes.transpose
  let back := t.axes.transpose
  t.nodal.zipWith (fun q c => (Covectors.sub c turn).mulLeft (-(Mat3.skew q)))
    ⟨⟨⟨.zero, back⟩, ⟨.zero, .zero⟩⟩, ⟨⟨.zero, .zero⟩, ⟨.zero, back⟩⟩⟩

/-- The rows of the rate of the mean y-axis. -/
def meanRow : Covectors α :=
  Slots.map (Mat3.scale half) (Covectors.add t.nodalRows.i t.nodalRows.j)

/-- The row of the rate of a ratio to the second component of the mean y-axis, by the row of
the rate of its numerator. -/
def ratioRow (numerator : ElementVector α) (ratio : α) : ElementVector α :=
  Slots.zipWith (fun a b => (a - b.scale ratio).divide t.mean.y) numerator
    (Slots.map Mat3.r2 t.meanRow)

/-- The twist gradient of the linear slots, by the row of the rate of the slope. -/
def slopeRows (length : α) (v : ElementVector α) : Covectors α :=
  Slots.map (fun w => ⟨.zero, .zero, w.divide length⟩) v

/-- The twist gradient of a rotational slot, by the rows of the rates of its two ratios. -/
def endRows (first second : ElementVector α) : Covectors α :=
  Slots.zipWith (fun f s => ⟨s.divide 2, -(f.divide 2), .zero⟩) first second

theorem twistGradient_eq : t.twistGradient =
    let first (a : Covectors α) := t.ratioRow (Slots.map Mat3.r1 a)
    let second (a : Covectors α) := t.ratioRow (Slots.map Mat3.r2 a)
    let ratios := t.twistRatios
    let slope := first t.meanRow ratios.slope
    ⟨⟨slopeRows t.length slope,
        endRows (first t.nodalRows.i ratios.first.i) (second t.nodalRows.i ratios.second.i)⟩,
      ⟨slopeRows t.length (Slots.map (- ·) slope),
        endRows (first t.nodalRows.j ratios.first.j) (second t.nodalRows.j ratios.second.j)⟩⟩ :=
  rfl

end Parts

/-! ## Their values -/

section Values

variable [SeriesAngle] {t : Triad ℝ}

theorem numbers_chordRow (t : Triad ℝ) : t.numbers.chordRow = t.chordRow.numbers := by
  unfold chordRow
  rw [Vec3.numbers_zero]
  rfl

theorem numbers_relativeSpin (a : Covectors ℝ) :
    relativeSpin a.numbers = (relativeSpin a).map Covectors.numbers := by
  unfold relativeSpin
  rw [Mat3.numbers_zero, Mat3.numbers_identity]
  rfl

theorem numbers_endRows (p q : ElementVector ℝ) :
    endRows p.numbers q.numbers = (endRows p q).numbers := by
  have htwo (v : Vec3 ℝ) :
      v.numbers.divide (Scalar.ofNat 2) = (v.divide (Scalar.ofNat 2)).numbers :=
    v.numbers_divide two_ne_zero
  unfold endRows
  rw [Vec3.numbers_zero]
  refine Slots.ext_slots ?_ ?_ ?_ ?_ <;>
    exact Mat3.ext (htwo _) (congrArg (- ·) (htwo _)) rfl

/-! ### Over the second component of the mean y-axis -/

variable (hmean : t.mean.y ≠ 0)

include hmean in
theorem numbers_twistRatios : t.numbers.twistRatios = t.twistRatios.numbers := by
  have hdiv (x : ℝ) := div_number (x := x) hmean
  simp only [twistRatios, TwistRatios.numbers, numbers, Vec3.numbers, Vec3.map, Ends.map, hdiv]

/-! ### Over the length -/

variable (hlength : t.length ≠ 0)

include hlength

theorem numbers_chordBlock (n : ℝ) :
    t.numbers.chordBlock (.number n) = (t.chordBlock n).numbers := by
  unfold chordBlock
  rw [Mat3.numbers_identity]
  exact Mat3.numbers_map_div (Mat3.scale n (.identity - Mat3.outer t.e1 t.e1)) hlength

theorem numbers_chordStiffness (p : ElementVector ℝ) :
    t.numbers.chordStiffness p.numbers = (t.chordStiffness p).numbers := by
  have hblock : t.numbers.chordBlock p.numbers.axial = (t.chordBlock p.axial).numbers :=
    numbers_chordBlock hlength _
  rw [chordStiffness_eq, hblock, Mat3.numbers_zero]
  rfl

theorem numbers_slopeRows (p : ElementVector ℝ) :
    slopeRows t.numbers.length p.numbers = (slopeRows t.length p).numbers := by
  unfold slopeRows
  rw [Vec3.numbers_zero]
  refine Slots.ext_slots ?_ ?_ ?_ ?_ <;>
    exact Mat3.ext rfl rfl (Vec3.numbers_divide _ hlength)

/-! ### Over both -/

include hmean

theorem numbers_spin : t.numbers.spin = t.spin.numbers := by
  unfold spin
  rw [numbers_twistRatios hmean]
  simp only [numbers, TwistRatios.numbers, Ends.map, div_number hlength, div_number two_ne_zero,
    ofNat_zero, ofNat_one, ofNat_two, Vec3.numbers_zero]
  rfl

theorem numbers_globalRelativeSpin :
    t.numbers.globalRelativeSpin = t.globalRelativeSpin.map Covectors.numbers := by
  unfold globalRelativeSpin
  rw [numbers_spin hmean hlength, numbers_relativeSpin]
  rfl

theorem numbers_momentForces (moments : Ends (Vec3 ℝ)) :
    t.numbers.momentForces (moments.map Vec3.numbers) = (t.momentForces moments).numbers := by
  unfold momentForces
  rw [numbers_spin hmean hlength, numbers_relativeSpin]
  simp only [Ends.map, Covectors.numbers_applyTranspose, ElementVector.numbers_add]

theorem numbers_turnRows (v : Vec3 ℝ) : t.numbers.turnRows v.numbers = (t.turnRows v).numbers := by
  unfold turnRows
  rw [numbers_spin hmean hlength, Mat3.numbers_skew]
  rfl

theorem numbers_triadStiffness (moments : Ends (Vec3 ℝ)) :
    t.numbers.triadStiffness (moments.map Vec3.numbers) = (t.triadStiffness moments).numbers := by
  have hrows := numbers_turnRows hmean hlength
  rw [triadStiffness_eq, triadStiffness_eq, numbers_momentForces hmean hlength]
  exact Slots.ext_slots (hrows _) (hrows _) (hrows _) (hrows _)

theorem numbers_acrossChord (v : Vec3 ℝ) :
    t.numbers.acrossChord v.numbers = (t.acrossChord v).numbers := by
  unfold acrossChord
  rw [numbers_twistRatios hmean]
  exact Vec3.ext ofNat_zero (div_number hlength) (div_number hlength)

theorem numbers_lengthStiffness (moments : Ends (Vec3 ℝ)) :
    t.numbers.lengthStiffness (moments.map Vec3.numbers)
      = (t.lengthStiffness moments).numbers := by
  have hsum : (moments.map Vec3.numbers).i + (moments.map Vec3.numbers).j
      = (moments.i + moments.j).numbers := rfl
  have haxes : t.numbers.axes = t.axes.numbers := rfl
  rw [lengthStiffness_eq, lengthStiffness_eq, numbers_spin hmean hlength, numbers_chordRow, hsum,
    numbers_acrossChord hmean hlength, Covectors.numbers_applyTranspose, haxes,
    ElementVector.numbers_turn, ElementMatrix.numbers_outer]

theorem numbers_nodalRows : t.numbers.nodalRows = t.nodalRows.map Covectors.numbers := by
  unfold nodalRows
  rw [numbers_spin hmean hlength, Mat3.numbers_zero]
  simp only [numbers, Ends.zipWith, Ends.map, Mat3.numbers_skew]
  rfl

theorem numbers_meanRow : t.numbers.meanRow = t.meanRow.numbers := by
  unfold meanRow
  rw [numbers_nodalRows hmean hlength, half_number]
  rfl

theorem numbers_ratioRow (p : ElementVector ℝ) (r : ℝ) :
    t.numbers.ratioRow p.numbers (.number r) = (t.ratioRow p r).numbers := by
  have hdiv (v w : Vec3 ℝ) : (v.numbers - w.numbers.scale (.number r)).divide t.numbers.mean.y
      = ((v - w.scale r).divide t.mean.y).numbers := Vec3.numbers_divide (v - w.scale r) hmean
  unfold ratioRow
  rw [numbers_meanRow hmean hlength]
  exact Slots.ext_slots (hdiv _ t.meanRow.i.lin.r2) (hdiv _ t.meanRow.i.rot.r2)
    (hdiv _ t.meanRow.j.lin.r2) (hdiv _ t.meanRow.j.rot.r2)

theorem numbers_twistGradient : t.numbers.twistGradient = t.twistGradient.numbers := by
  have hfirst (a : Covectors ℝ) (r : ℝ) :
      t.numbers.ratioRow (Slots.map Mat3.r1 a.numbers) (.number r)
        = (t.ratioRow (Slots.map Mat3.r1 a) r).numbers :=
    numbers_ratioRow hmean hlength (Slots.map Mat3.r1 a) r
  have hsecond (a : Covectors ℝ) (r : ℝ) :
      t.numbers.ratioRow (Slots.map Mat3.r2 a.numbers) (.number r)
        = (t.ratioRow (Slots.map Mat3.r2 a) r).numbers :=
    numbers_ratioRow hmean hlength (Slots.map Mat3.r2 a) r
  have hneg (p : ElementVector ℝ) :
      Slots.map (- ·) p.numbers = ElementVector.numbers (Slots.map (- ·) p) := rfl
  rw [twistGradient_eq, twistGradient_eq, numbers_twistRatios hmean,
    numbers_meanRow hmean hlength, numbers_nodalRows hmean hlength]
  simp only [TwistRatios.numbers, Ends.map, hfirst, hsecond, hneg, numbers_slopeRows hlength,
    numbers_endRows]
  rfl

theorem numbers_twistStiffness (moments : Ends (Vec3 ℝ)) :
    t.numbers.twistStiffness (moments.map Vec3.numbers) = (t.twistStiffness moments).numbers := by
  unfold twistStiffness
  rw [numbers_twistGradient hmean hlength]
  rfl

end Values

/-! ## The linearization -/

section Linearization

variable [SeriesAngle] {t : Triad ℝ}

/-- The chord and spin parts of the linearization are defined: among partial numbers each of
them has its real value, whatever the forces and moments are. -/
structure HasLinearization (t : Triad ℝ) : Prop where
  twistRatios : t.numbers.twistRatios = t.twistRatios.numbers
  spin : t.numbers.spin = t.spin.numbers
  chordRow : t.numbers.chordRow = t.chordRow.numbers
  relativeSpin : t.numbers.globalRelativeSpin = t.globalRelativeSpin.map Covectors.numbers
  twistGradient : t.numbers.twistGradient = t.twistGradient.numbers
  chordStiffness (p : ElementVector ℝ) :
    t.numbers.chordStiffness p.numbers = (t.chordStiffness p).numbers
  triadStiffness (moments : Ends (Vec3 ℝ)) :
    t.numbers.triadStiffness (moments.map Vec3.numbers) = (t.triadStiffness moments).numbers
  lengthStiffness (moments : Ends (Vec3 ℝ)) :
    t.numbers.lengthStiffness (moments.map Vec3.numbers) = (t.lengthStiffness moments).numbers
  twistStiffness (moments : Ends (Vec3 ℝ)) :
    t.numbers.twistStiffness (moments.map Vec3.numbers) = (t.twistStiffness moments).numbers

/-- **The chord and spin parts are defined exactly where neither the length nor the second
component of the mean y-axis is zero.** The spin divides by the one, its ratios by the other. -/
theorem hasLinearization_iff : t.HasLinearization ↔ t.length ≠ 0 ∧ t.mean.y ≠ 0 := by
  constructor
  · intro h
    have hinverse := congrArg (fun a : Covectors PartialReal => a.i.lin.r2.z) h.spin
    have hslope := congrArg TwistRatios.slope h.twistRatios
    refine ⟨ne_zero_of_div_number (x := 1) (z := 1 / t.length) ?_, ne_zero_of_div_number hslope⟩
    rw [← ofNat_one]
    exact hinverse
  · rintro ⟨hlength, hmean⟩
    exact {
      twistRatios := numbers_twistRatios hmean
      spin := numbers_spin hmean hlength
      chordRow := numbers_chordRow t
      relativeSpin := numbers_globalRelativeSpin hmean hlength
      twistGradient := numbers_twistGradient hmean hlength
      chordStiffness := numbers_chordStiffness hlength
      triadStiffness := numbers_triadStiffness hmean hlength
      lengthStiffness := numbers_lengthStiffness hmean hlength
      twistStiffness := numbers_twistStiffness hmean hlength }

/-- The linearization of a frame is defined. -/
theorem IsFrame.hasLinearization (h : t.IsFrame) : t.HasLinearization :=
  hasLinearization_iff.mpr ⟨h.length_pos.ne', h.mean_y.ne'⟩

end Linearization

end Triad

end Corotation
