import Corotation.Proofs.Element.Covariance
import Corotation.Proofs.Frame.Geometry
import Corotation.Transformation.Lifecycle
/-!
# Reference geometry in other coordinates

Two systems of coordinates differ by a rotation and a shift of the origin. What a
model gives as a point is rotated and shifted, what it gives as a vector is
rotated, and offsets that are components along the local axes stay as they are.

Chord, orientation and offsets are then those of the first system, rotated
(`referenceOf_image`), and where they are refused in one system they are refused
in the other for the same reason: the failures differ in no more than the
coordinates that they quote (`Failure.blank`).
-/

namespace Corotation

/-! ## Failures without their numbers -/

/-- The cause without the numbers that it quotes. -/
def Degeneracy.blank {α : Type} : Degeneracy α → Degeneracy Unit
  | zeroLength element point => .zeroLength element (point.map fun _ => ())
  | parallelReference element vector => .parallelReference element (vector.map fun _ => ())
  | startingChord => .startingChord
  | collapsedChord => .collapsedChord
  | parallelMeanAxis => .parallelMeanAxis
  | deformedLength tag => .deformedLength tag

/-- The cause without the numbers that it quotes. -/
def Divergence.blank {α : Type} : Divergence α → Divergence Unit
  | singularTangent step iteration _ => .singularTangent step iteration ()
  | notConverged step iterations residual _ =>
    .notConverged step iterations (residual.map fun _ => ()) ()

/-- The failure without the numbers that it quotes: its kind, its cause and the
names in it. -/
def Failure.blank {α : Type} : Failure α → Failure Unit
  | missingNode tag => .missingNode tag
  | degenerate cause => .degenerate cause.blank
  | uninitialized tag => .uninitialized tag
  | outdated tag => .outdated tag
  | unstable _ => .unstable ()
  | divergence cause => .divergence cause.blank
  | malformed cause => .malformed cause
  | fault cause => .fault cause

/-- A result that is the image of another one: its value is the image of the
value, and where there is none the failures differ in numbers only. -/
def IsImage {β γ : Type} (f : β → γ) : Except (Failure ℝ) β → Except (Failure ℝ) γ → Prop
  | .ok b, .ok b' => b' = f b
  | .error e, .error e' => e'.blank = e.blank
  | _, _ => False

namespace IsImage

variable {β β' γ γ' : Type} {f : β → β'} {g : γ → γ'}

/-- Both results are values, or both are failures. -/
theorem cases {x : Except (Failure ℝ) β} {x' : Except (Failure ℝ) β'} (h : IsImage f x x') :
    (∃ b, x = .ok b ∧ x' = .ok (f b))
      ∨ ∃ e e', x = .error e ∧ x' = .error e' ∧ e'.blank = e.blank := by
  cases x with
  | error e =>
    cases x' with
    | error e' => exact .inr ⟨e, e', rfl, rfl, h⟩
    | ok b' => exact h.elim
  | ok b =>
    cases x' with
    | error e' => exact h.elim
    | ok b' => exact .inl ⟨b, rfl, congrArg Except.ok h⟩

/-- A second step on the value and on its image. -/
theorem bind {x : Except (Failure ℝ) β} {x' : Except (Failure ℝ) β'}
    {next : β → Except (Failure ℝ) γ} {next' : β' → Except (Failure ℝ) γ'} (h : IsImage f x x')
    (hnext : ∀ b, IsImage g (next b) (next' (f b))) : IsImage g (x >>= next) (x' >>= next') := by
  rcases h.cases with ⟨b, rfl, rfl⟩ | ⟨e, e', rfl, rfl, he⟩
  · exact hnext b
  · exact he

/-- A function of the value and of its image. -/
theorem map {x : Except (Failure ℝ) β} {x' : Except (Failure ℝ) β'} {h : β → γ} {h' : β' → γ'}
    (hx : IsImage f x x') (heq : ∀ b, h' (f b) = g (h b)) : IsImage g (x.map h) (x'.map h') := by
  rcases hx.cases with ⟨b, rfl, rfl⟩ | ⟨e, e', rfl, rfl, he⟩
  · exact heq b
  · exact he

end IsImage

/-! ## Other coordinates -/

/-- The way from one system of coordinates to another. -/
structure Coordinates [SeriesAngle] where
  /-- The rotation between them. -/
  rotation : Mat3 ℝ
  /-- The first origin in the second system. -/
  shift : Vec3 ℝ
  isRotation : rotation.IsRotation

namespace Coordinates

variable [SeriesAngle] (f : Coordinates)

/-- A vector in the second system. -/
noncomputable def vector (v : Vec3 ℝ) : Vec3 ℝ := f.rotation.apply v

/-- A point in the second system. -/
noncomputable def point (x : Vec3 ℝ) : Vec3 ℝ := f.vector x + f.shift

/-- A displacement in the second system, its rotational part like its linear
part. -/
noncomputable def displacement (d : Displacement ℝ) : Displacement ℝ := d.map f.vector

/-- A node in the second system. -/
noncomputable def node (n : Node ℝ) : Node ℝ :=
  { n with
    position := f.point n.position, trial := f.displacement n.trial,
    committed := f.displacement n.committed }

/-- A configuration in the second system. Offsets along the local axes are the
same in both. -/
noncomputable def configuration (config : Configuration ℝ) : Configuration ℝ :=
  { config with
    vecxz := f.vector config.vecxz,
    offsets :=
      if config.flags.isLocal then config.offsets else config.offsets.map (Ends.map f.vector) }

/-- A reference geometry in the second system. -/
noncomputable def reference (r : Reference ℝ) : Reference ℝ :=
  ⟨r.length, f.vector r.chord, f.rotation * r.axes, r.offset.map f.vector⟩

/-- A chord in the second system. -/
noncomputable def chord (c : Chord ℝ) : Chord ℝ := ⟨c.length, f.vector c.vector⟩

variable (u v : Vec3 ℝ)

theorem vector_norm : (f.vector v).norm = v.norm := f.isRotation.norm_apply v

theorem vector_add : f.vector (u + v) = f.vector u + f.vector v := Mat3.apply_add ..

theorem vector_sub : f.vector (u - v) = f.vector u - f.vector v := Mat3.apply_sub ..

theorem vector_smul (s : ℝ) : f.vector (s • v) = s • f.vector v := Mat3.apply_smul ..

theorem vector_zero : f.vector 0 = 0 := Mat3.apply_zero _

theorem vector_eq_zero {v : Vec3 ℝ} : f.vector v = 0 ↔ v = 0 := by
  rw [← Vec3.norm_eq_zero, f.vector_norm, Vec3.norm_eq_zero]

theorem vector_cross : f.vector (u.cross v) = (f.vector u).cross (f.vector v) :=
  f.isRotation.apply_cross u v

theorem point_sub : f.point u - f.point v = f.vector (u - v) := by
  rw [point, point, vector_sub]
  abel

/-- The axes of rotated vectors. -/
theorem ofColumns_vector (w : Vec3 ℝ) : Mat3.ofColumns (f.vector u) (f.vector v) (f.vector w)
    = f.rotation * .ofColumns u v w := by
  ext <;> rfl

/-! ## The reference geometry -/

/-- **The chord** between two points. -/
theorem chord_image (xi xj : Vec3 ℝ) (element : Label) :
    IsImage f.chord (Corotation.chord xi xj element)
      (Corotation.chord (f.point xi) (f.point xj) element) := by
  unfold Corotation.chord
  simp only [Scalar.le_real, point_sub, vector_norm]
  split
  · rfl
  · rfl

/-- **The orientation** of a chord. -/
theorem orientation_image (tol : Tolerances ℝ) (dX v : Vec3 ℝ) (element : Label) :
    IsImage (f.rotation * ·) (orientation tol dX v element)
      (orientation tol (f.vector dX) (f.vector v) element) := by
  have hlimit : parallelLimit tol (f.vector v) = parallelLimit tol v := by
    rw [parallelLimit_eq, parallelLimit_eq, vector_norm]
  have hdirection (u : Vec3 ℝ) : u.norm⁻¹ • f.vector u = f.vector (u.norm⁻¹ • u) :=
    (f.vector_smul u _).symm
  unfold orientation
  simp only [Scalar.le_real, Vec3.divide_eq_smul, hlimit, vector_norm, hdirection,
    ← vector_cross]
  split
  · rfl
  · exact f.ofColumns_vector _ _ _

/-- Offsets along the local axes of both systems. -/
theorem localOffsets_image (tol : Tolerances ℝ) (dX v : Vec3 ℝ) (o : Ends (Vec3 ℝ))
    (element : Label) : IsImage (Ends.map f.vector)
      ((orientation tol dX v element).map fun r => o.map r.apply)
      ((orientation tol (f.vector dX) (f.vector v) element).map fun r => o.map r.apply) :=
  (f.orientation_image tol dX v element).map fun _ =>
    Ends.ext (Mat3.mul_apply _ _ _) (Mat3.mul_apply _ _ _)

/-- **The offsets**, however they are to be read. -/
theorem globalOffsets_image (tol : Tolerances ℝ) (xi xj : Vec3 ℝ) (config : Configuration ℝ) :
    IsImage (Ends.map f.vector)
      (globalOffsets tol xi xj config.vecxz config.offsets config.flags config.tag)
      (globalOffsets tol (f.point xi) (f.point xj) (f.vector config.vecxz)
        (f.configuration config).offsets config.flags config.tag) := by
  obtain ⟨tag, vecxz, offsets, flags⟩ := config
  have hscale (o : Ends (Vec3 ℝ)) (s : ℝ) :
      (o.map f.vector).map (Vec3.scale s) = (o.map (Vec3.scale s)).map f.vector :=
    Ends.ext (f.vector_smul _ _).symm (f.vector_smul _ _).symm
  cases offsets with
  | none =>
    have hnone : (f.configuration ⟨tag, vecxz, none, flags⟩).offsets = none := ite_self _
    rw [hnone]
    exact Ends.ext f.vector_zero.symm f.vector_zero.symm
  | some o =>
    unfold globalOffsets configuration
    rcases (f.chord_image xi xj tag).cases with ⟨c, hc, hc'⟩ | ⟨e, e', hc, hc', he⟩ <;>
      rw [hc, hc'] <;> cases hlocal : flags.isLocal <;> cases hnormalized : flags.isNormalized
    · rfl
    · exact hscale o c.length
    · exact f.localOffsets_image tol _ _ o tag
    · exact f.localOffsets_image tol _ _ _ tag
    · rfl
    · exact he
    · exact he
    · exact he

/-- **The reference geometry** is that of the first system, rotated, and is refused
where that is. -/
theorem referenceOf_image (tol : Tolerances ℝ) (config : Configuration ℝ)
    (position : Ends (Vec3 ℝ)) :
    IsImage f.reference (Transformation.referenceOf tol config position)
      (Transformation.referenceOf tol (f.configuration config) (position.map f.point)) := by
  have hend (x o : Vec3 ℝ) : f.point x + f.vector o = f.point (x + o) := by
    rw [point, point, vector_add]
    abel
  unfold Transformation.referenceOf
  refine (f.globalOffsets_image tol position.i position.j config).bind fun o => ?_
  have hchord := f.chord_image (position.i + o.i) (position.j + o.j) config.tag
  rw [← hend, ← hend] at hchord
  refine hchord.bind fun c => ?_
  exact (f.orientation_image tol c.vector config.vecxz config.tag).bind fun m => rfl

end Coordinates

end Corotation
