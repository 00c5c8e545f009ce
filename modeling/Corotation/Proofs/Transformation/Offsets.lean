import Corotation.Proofs.Element.Slots
import Corotation.Transformation.Projection
/-!
# Offset arms and tangent weights

The link takes rates of the nodes to rates of the ends of the chord, which a
spin moves across its arm; its transpose takes end forces back, with the
moments of the arms. Under turning arms the nodal forces move by the stiffness
of the arms as well (`hasRate_link_transpose`). Arms that turn with the body
turn all of this with them.

The tangents of the local rotations weigh the local increments: their term is
`Tᵀ diag(w) T` with `p tan θ` for the weight of each local rotation
(`tangentTerm_eq`, `tangentWeights_eq`).
-/

namespace Corotation

namespace Transformation

variable [SeriesAngle]

theorem link_apply (arm : Ends (Vec3 ℝ)) (x : ElementVector ℝ) :
    ElementMatrix.apply (link arm) x =
      ⟨⟨x.i.lin + x.i.rot.cross arm.i, x.i.rot⟩, ⟨x.j.lin + x.j.rot.cross arm.j, x.j.rot⟩⟩ := by
  refine Slots.ext_slots ?_ ?_ ?_ ?_ <;> simp [link, Covectors.apply_eq]
  · rw [Vec3.cross_anticomm arm.i, neg_neg]
  · rw [Vec3.cross_anticomm arm.j, neg_neg]

theorem link_transpose_apply (arm : Ends (Vec3 ℝ)) (p : ElementVector ℝ) :
    ElementMatrix.apply (link arm).transpose p =
      ⟨⟨p.i.lin, p.i.rot + arm.i.cross p.i.lin⟩, ⟨p.j.lin, p.j.rot + arm.j.cross p.j.lin⟩⟩ := by
  refine Slots.ext_slots ?_ ?_ ?_ ?_ <;>
    simp [ElementMatrix.transpose_apply, link, Mat3.skew_transpose, add_comm]

theorem armStiffness_apply (arm : Ends (Vec3 ℝ)) (force x : ElementVector ℝ) :
    ElementMatrix.apply (armStiffness arm force) x =
      ⟨⟨0, force.i.lin.cross (arm.i.cross x.i.rot)⟩,
       ⟨0, force.j.lin.cross (arm.j.cross x.j.rot)⟩⟩ := by
  refine Slots.ext_slots ?_ ?_ ?_ ?_ <;> simp [armStiffness, Covectors.apply_eq]

/-- **End forces carried to the nodes** by turning arms move with the forces,
and with the arms by their stiffness. -/
theorem hasRate_link_transpose {arm : ℝ → Ends (Vec3 ℝ)} {force : ℝ → ElementVector ℝ}
    {force' x : ElementVector ℝ} {s : ℝ}
    (hi : Vec3.HasRate (fun τ => (arm τ).i) (x.i.rot.cross (arm s).i) s)
    (hj : Vec3.HasRate (fun τ => (arm τ).j) (x.j.rot.cross (arm s).j) s)
    (hforce : ElementVector.HasRate force force' s) :
    ElementVector.HasRate (fun τ => ElementMatrix.apply (link (arm τ)).transpose (force τ))
      (ElementMatrix.apply (link (arm s)).transpose force'
        + ElementMatrix.apply (armStiffness (arm s) (force s)) x) s := by
  have hturn (u r f : Vec3 ℝ) : (u.cross r).cross f = f.cross (r.cross u) := by
    rw [Vec3.cross_anticomm, Vec3.cross_anticomm u r, Vec3.cross_neg, neg_neg]
  simp only [link_transpose_apply, armStiffness_apply]
  refine ⟨hforce.i_lin.congr_rate ?_,
    (hforce.i_rot.add (hi.cross hforce.i_lin)).congr_rate ?_,
    hforce.j_lin.congr_rate ?_, (hforce.j_rot.add (hj.cross hforce.j_lin)).congr_rate ?_⟩
  · exact (add_zero _).symm
  · rw [hturn]
    simp only [Ends.add_i, Screw.add_rot]
    abel
  · exact (add_zero _).symm
  · rw [hturn]
    simp only [Ends.add_j, Screw.add_rot]
    abel

/-! ## The tangents of the local rotations -/

/-- **The weights** are `p tan θ` at the six local rotations, and zero in the linear slots. -/
theorem tangentWeights_eq (p ul : ElementVector ℝ) : tangentWeights p ul =
    ⟨⟨0, ⟨p.i.rot.x * Real.tan ul.i.rot.x, p.i.rot.y * Real.tan ul.i.rot.y,
        p.i.rot.z * Real.tan ul.i.rot.z⟩⟩,
     ⟨0, ⟨p.j.rot.x * Real.tan ul.j.rot.x, p.j.rot.y * Real.tan ul.j.rot.y,
        p.j.rot.z * Real.tan ul.j.rot.z⟩⟩⟩ := rfl

/-- **The term with the tangents of the local rotations is `Tᵀ diag(w) T`.** -/
theorem tangentTerm_eq (T : ElementMatrix ℝ) (p ul : ElementVector ℝ) :
    tangentTerm T p ul
      = ElementMatrix.congruence T (ElementMatrix.diagonal (tangentWeights p ul)) := by
  refine ElementMatrix.ext_apply fun x => ?_
  rw [tangentTerm, ElementMatrix.scaleRows_eq, ElementMatrix.mul_apply, ElementMatrix.mul_apply,
    ElementMatrix.congruence_apply]

/-! ## Turned arms -/

section Turned

variable {g : Mat3 ℝ} (hg : g.IsRotation) (arm : Ends (Vec3 ℝ)) (x : ElementVector ℝ)

include hg

/-- The vector product with a turned vector, after turning the other one back. -/
theorem cross_turn (u v : Vec3 ℝ) :
    u.cross (g.apply v) = g.apply ((g.transpose.apply u).cross v) := by
  rw [hg.apply_cross, hg.apply_transpose_apply]

/-- Turning every slot back. -/
theorem map_transpose_map : Slots.map g.transpose.apply (Slots.map g.apply x) = x := by
  refine Slots.ext_slots ?_ ?_ ?_ ?_ <;> exact hg.transpose_apply_apply _

/-- **The link of turned arms** is the link between the turn and its
transpose. -/
theorem link_turn : ElementMatrix.apply (link (arm.map g.apply)) x
    = Slots.map g.apply (ElementMatrix.apply (link arm) (Slots.map g.transpose.apply x)) := by
  have hback (v : Vec3 ℝ) : v = g.apply (g.transpose.apply v) := (hg.apply_transpose_apply v).symm
  rw [link_apply, link_apply]
  refine Slots.ext_slots ?_ (hback _) ?_ (hback _) <;>
  · simp only [Ends.map, Slots.map_i_lin, Slots.map_i_rot, Slots.map_j_lin, Slots.map_j_rot,
      Mat3.apply_add, cross_turn hg]
    rw [← hback]

/-- The transposed link of turned arms. -/
theorem link_turn_transpose :
    ElementMatrix.apply (link (arm.map g.apply)).transpose (Slots.map g.apply x)
      = Slots.map g.apply (ElementMatrix.apply (link arm).transpose x) := by
  rw [link_transpose_apply, link_transpose_apply]
  refine Slots.ext_slots rfl ?_ rfl ?_ <;>
  · simp only [Ends.map, Slots.map_i_lin, Slots.map_i_rot, Slots.map_j_lin, Slots.map_j_rot,
      Mat3.apply_add, hg.apply_cross]

/-- **The stiffness of turned arms** under turned forces. -/
theorem armStiffness_turn (force : ElementVector ℝ) :
    ElementMatrix.apply (armStiffness (arm.map g.apply) (Slots.map g.apply force)) x
      = Slots.map g.apply
        (ElementMatrix.apply (armStiffness arm force) (Slots.map g.transpose.apply x)) := by
  rw [armStiffness_apply, armStiffness_apply]
  refine Slots.ext_slots (Mat3.apply_zero g).symm ?_ (Mat3.apply_zero g).symm ?_ <;>
  · simp only [Ends.map, Slots.map_i_lin, Slots.map_i_rot, Slots.map_j_lin, Slots.map_j_rot,
      hg.apply_cross, hg.apply_transpose_apply]

end Turned

end Transformation

end Corotation
