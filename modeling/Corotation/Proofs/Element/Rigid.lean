import Corotation.Proofs.Element.Pairing
import Corotation.Proofs.Space.Coordinates
/-!
# Rigid motions

The rates of two nodes in rigid motions form a space of six dimensions
(`finrank_rigidMotions`). A rate is one of them if both nodes turn alike and the
second one moves about the first with that turn (`mem_rigidMotions_iff`), so it is
known by where the nodes are from each other, and turns with the axes that it is
seen in (`map_mem_rigidMotions`).
-/

namespace Corotation

namespace ElementVector

variable [SeriesAngle] {x x' : Ends (Vec3 ℝ)} {d : ElementVector ℝ} {g : Mat3 ℝ}

/-- The rate of a rigid motion, by its translation and its spin. -/
noncomputable def rigidMotion (x : Ends (Vec3 ℝ)) : Vec3 ℝ × Vec3 ℝ →ₗ[ℝ] ElementVector ℝ where
  toFun m := rigid x m.1 m.2
  map_add' m n := by
    refine Slots.ext_slots ?_ rfl ?_ rfl <;>
    · simp [rigid]
      abel
  map_smul' s m := by
    refine Slots.ext_slots ?_ rfl ?_ rfl <;> simp [rigid]

/-- The rates of two nodes at the positions `x` in rigid motions. -/
noncomputable def rigidMotions (x : Ends (Vec3 ℝ)) : Submodule ℝ (ElementVector ℝ) :=
  LinearMap.range (rigidMotion x)

theorem mem_rigidMotions : d ∈ rigidMotions x ↔ ∃ c w, d = rigid x c w := by
  refine ⟨fun ⟨m, hm⟩ => ⟨m.1, m.2, hm.symm⟩, fun ⟨c, w, hd⟩ => ⟨(c, w), hd.symm⟩⟩

/-- A motion is known by what it does to the first node. -/
theorem rigidMotion_injective (x : Ends (Vec3 ℝ)) : Function.Injective (rigidMotion x) := by
  rintro ⟨c, w⟩ ⟨c', w'⟩ h
  obtain rfl : w = w' := congrArg (·.i.rot) h
  have hlin : c + w.cross x.i = c' + w.cross x.i := congrArg (·.i.lin) h
  rw [add_right_cancel hlin]

/-- **There are six independent ones.** -/
theorem finrank_rigidMotions (x : Ends (Vec3 ℝ)) : Module.finrank ℝ (rigidMotions x) = 6 := by
  rw [rigidMotions, LinearMap.finrank_range_of_inj (rigidMotion_injective x),
    (Vec3.coordinates.prodCongr Vec3.coordinates).finrank_eq, Module.finrank_prod,
    Module.finrank_fin_fun]

/-- **The nodes turn alike**, and the second one moves about the first. -/
theorem mem_rigidMotions_iff : d ∈ rigidMotions x
    ↔ d.i.rot = d.j.rot ∧ d.j.lin - d.i.lin = d.i.rot.cross (x.j - x.i) := by
  rw [mem_rigidMotions]
  constructor
  · rintro ⟨c, w, rfl⟩
    refine ⟨rfl, ?_⟩
    simp only [rigid, Vec3.cross_sub]
    abel
  · rintro ⟨hrot, hlin⟩
    refine ⟨d.i.lin - d.i.rot.cross x.i, d.i.rot, Slots.ext_slots ?_ rfl ?_ hrot.symm⟩
    · exact (sub_add_cancel _ _).symm
    · rw [← sub_add_cancel d.j.lin d.i.lin, hlin, Vec3.cross_sub]
      simp only [rigid]
      abel

/-- A rate seen in other axes is rigid exactly if it is. -/
theorem map_mem_rigidMotions (hg : g.IsRotation) (hx : x'.j - x'.i = g.apply (x.j - x.i)) :
    Slots.map g.apply d ∈ rigidMotions x' ↔ d ∈ rigidMotions x := by
  have hinj : Function.Injective g.apply := Function.LeftInverse.injective
    (g := g.transpose.apply) hg.transpose_apply_apply
  rw [mem_rigidMotions_iff, mem_rigidMotions_iff, hx]
  simp only [Slots.map_i_rot, Slots.map_j_rot, Slots.map_i_lin, Slots.map_j_lin]
  rw [← Mat3.apply_sub, ← hg.apply_cross, hinj.eq_iff, hinj.eq_iff]

end ElementVector

end Corotation
