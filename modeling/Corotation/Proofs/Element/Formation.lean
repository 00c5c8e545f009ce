import Corotation.Outcome
import Corotation.Proofs.Element.Definedness
/-!
# The triad under a sequence of calls

A triad is formed once from a reference chord, and then again and again from what the nodes
report. A call is accepted if its chord has a length and the mean nodal y-axis reaches across it
by more than the tolerance (`isAccepted_iff`). Any other call is refused and leaves the triad as
it is, so the triad after any sequence of calls is the one of the latest call that was accepted
(`run_eq_latest`).

The linearization reads the triad and asks for nothing more. All it relies on holds of every
triad that some call has formed (`Forms`), however many calls were refused before and after: the
axes are a rotation, the mean y-axis has no third component, and its second one, which the twist
ratios divide by, is above the tolerance (`run_forms`).
-/

namespace Corotation

/-- A call that forms the triad. -/
inductive Formation (α : Type) where
  /-- Form it from the reference chord, with the orientation of both nodes. -/
  | start (dX : Vec3 α) (reference : Mat3 α)
  /-- Form it from the deformed chord and the nodal rotations. -/
  | update (rotation : Ends (Mat3 α)) (dx : Vec3 α)

namespace Formation

/-! ## Calls -/

section Calls

variable {α : Type}

/-- The chord that the call gives. -/
def chord : Formation α → Vec3 α
  | start dX _ => dX
  | update _ dx => dx

/-- The nodal rotations that the call gives. -/
def rotation : Formation α → Ends (Mat3 α)
  | start _ reference => .both reference
  | update rotation _ => rotation

/-- The nodal y-axes that the call gives. -/
def axis (c : Formation α) : Ends (Vec3 α) := c.rotation.map Mat3.c2

variable [Scalar α] (tol : Tolerances α)

/-- The triad that the call asks for. -/
def triad : Formation α → Except (Failure α) (Triad α)
  | start dX reference => Triad.ofReference tol dX reference
  | update rotation dx => Triad.ofRotations tol rotation dx

/-- The call on a triad. -/
def perform (t : Triad α) (c : Formation α) : Outcome α (Triad α) Unit :=
  match c.triad tol with
  | .ok t' => .ok t' ()
  | .error e => .fail t e

/-- The triad after a sequence of calls on a given one. -/
def runFrom (t : Triad α) (calls : List (Formation α)) : Triad α :=
  calls.foldl (fun t c => (c.perform tol t).state) t

/-- The triad after a sequence of calls. -/
def run (calls : List (Formation α)) : Triad α := runFrom tol .unset calls

/-- The call is accepted: it succeeds on every triad. -/
def IsAccepted (c : Formation α) : Prop := ∀ t, (c.perform tol t).result = .ok ()

variable {tol} {c : Formation α} {t : Triad α}

/-- **A call** puts the triad in place that it asks for, or is refused and leaves the triad as
it is. Which of the two does not depend on the triad. -/
theorem perform_cases (tol : Tolerances α) (c : Formation α) :
    (c.IsAccepted tol ∧ ∀ t, c.triad tol = .ok (c.perform tol t).state)
      ∨ (¬ c.IsAccepted tol ∧ ∀ t, (∃ e, (c.perform tol t).result = .error e)
        ∧ (c.perform tol t).state = t) := by
  unfold IsAccepted perform
  cases c.triad tol with
  | ok t' => exact .inl ⟨fun _ => rfl, fun _ => rfl⟩
  | error e => exact .inr ⟨fun h => (nomatch h .unset), fun t => ⟨⟨e, rfl⟩, rfl⟩⟩

/-- The triad of a call, whichever of the two it is, is the one of its rotations and its
chord. -/
theorem ofAxes_of_triad (h : c.triad tol = .ok t) : Triad.ofAxes tol c.axis c.chord = .ok t := by
  cases c with
  | start dX reference =>
    simp only [triad, Triad.ofReference] at h
    split_ifs at h
    exact h
  | update rotation dx => exact h

theorem run_append (calls : List (Formation α)) (c : Formation α) :
    run tol (calls ++ [c]) = (c.perform tol (run tol calls)).state := by
  simp only [run, runFrom, List.foldl_append, List.foldl_cons, List.foldl_nil]

/-- **The triad after a sequence of calls is the one of the latest accepted call.** -/
theorem run_eq_latest (calls : List (Formation α)) (h : ∃ c ∈ calls, c.IsAccepted tol) :
    ∃ before c after, calls = before ++ c :: after ∧ c.IsAccepted tol
      ∧ (∀ d ∈ after, ¬ d.IsAccepted tol) ∧ c.triad tol = .ok (run tol calls) := by
  induction calls using List.reverseRecOn with
  | nil => simp at h
  | append_singleton calls d ih =>
    rw [run_append]
    rcases perform_cases tol d with ⟨hd, htriad⟩ | ⟨hd, hrefused⟩
    · exact ⟨calls, d, [], rfl, hd, by simp, htriad _⟩
    · have hbefore : ∃ c ∈ calls, c.IsAccepted tol := by
        obtain ⟨c, hc, haccepted⟩ := h
        refine ⟨c, (List.mem_append.mp hc).resolve_right fun hc => ?_, haccepted⟩
        exact hd (List.mem_singleton.mp hc ▸ haccepted)
      obtain ⟨before, c, after, rfl, hc, hafter, htriad⟩ := ih hbefore
      have hafter' : ∀ d' ∈ after ++ [d], ¬ d'.IsAccepted tol :=
        List.forall_mem_append.mpr ⟨hafter, List.forall_mem_singleton.mpr hd⟩
      refine ⟨before, c, after ++ [d], by simp, hc, hafter', ?_⟩
      rw [(hrefused _).2]
      exact htriad

/-- Where no call was accepted there is no triad yet. -/
theorem run_eq_unset (calls : List (Formation α)) (h : ∀ c ∈ calls, ¬ c.IsAccepted tol) :
    run tol calls = .unset := by
  induction calls using List.reverseRecOn with
  | nil => rfl
  | append_singleton calls d ih =>
    obtain ⟨hbefore, hd⟩ := List.forall_mem_append.mp h
    rw [run_append, ih hbefore]
    rcases perform_cases tol d with ⟨haccepted, -⟩ | ⟨-, hrefused⟩
    · exact absurd haccepted (hd d (List.mem_singleton.mpr rfl))
    · exact (hrefused _).2

end Calls

/-! ## Formed triads over the real numbers -/

section Reals

variable [SeriesAngle] {tol : Tolerances ℝ} {c : Formation ℝ} {t : Triad ℝ}

theorem triad_of_determined (h : Triad.Determined tol c.axis c.chord) :
    c.triad tol = .ok (.between c.axis c.chord) := by
  cases c with
  | start dX reference =>
    have hlength : ¬ dX.norm ≤ 0 := not_le.mpr h.length_pos
    simp only [triad, Triad.ofReference, Scalar.le_real]
    rw [if_neg hlength]
    exact Triad.ofAxes_eq h
  | update rotation dx => exact Triad.ofAxes_eq h

/-- What a determined call does. -/
theorem perform_of_determined (h : Triad.Determined tol c.axis c.chord) (t : Triad ℝ) :
    c.perform tol t = .ok (.between c.axis c.chord) () := by
  rw [perform, triad_of_determined h]

/-- **A call is accepted** where its chord has a length and the mean of its nodal y-axes reaches
across the chord by more than the tolerance. -/
theorem isAccepted_iff : c.IsAccepted tol ↔ Triad.Determined tol c.axis c.chord := by
  constructor
  · intro h
    rcases perform_cases tol c with ⟨-, htriad⟩ | ⟨hrefused, -⟩
    · exact Triad.determined_of_ofAxes (ofAxes_of_triad (htriad .unset))
    · exact absurd h hrefused
  · intro h t
    rw [perform_of_determined h]
    rfl

/-- The triad is one that the call has formed. Its axes are a rotation with the first axis along
the chord of the call, and the nodal y-axes of the call and the half of their sum are kept in
components of it. This mean has no third component, and as second component its reach across the
chord. -/
structure Forms (tol : Tolerances ℝ) (c : Formation ℝ) (t : Triad ℝ) : Prop where
  isRotation : t.axes.IsRotation
  length : t.length = c.chord.norm
  length_pos : 0 < t.length
  first_axis : t.e1 = t.length⁻¹ • c.chord
  nodal : t.nodal = c.axis.map t.axes.transpose.apply
  mean : t.mean = (1 / 2 : ℝ) • (t.nodal.i + t.nodal.j)
  mean_z : t.mean.z = 0
  mean_y : t.mean.y = (t.e1.cross ((1 / 2 : ℝ) • (c.axis.i + c.axis.j))).norm
  across : tol.parallel < t.mean.y

/-- **The triad of an accepted call is formed by it.** -/
theorem forms_of_triad (h0 : 0 ≤ tol.parallel) (h : c.triad tol = .ok t) : c.Forms tol t := by
  have haxes := ofAxes_of_triad h
  have hdet := Triad.determined_of_ofAxes haxes
  obtain rfl : .between c.axis c.chord = t :=
    Except.ok.inj ((Triad.ofAxes_eq hdet).symm.trans haxes)
  have hframe := Triad.isMeanFrame_between h0 hdet
  have hmean := Triad.between_mean_y c.axis (hdet.normal_pos h0)
  exact {
    isRotation := hframe.isRotation
    length := rfl
    length_pos := hframe.length_pos
    first_axis := rfl
    nodal := rfl
    mean := hframe.mean.trans (Triad.meanAxis_eq _)
    mean_z := hframe.mean_z
    mean_y := hmean
    across := hmean ▸ hdet.across }

/-- A formed triad is a frame. -/
theorem Forms.isFrame (h0 : 0 ≤ tol.parallel) (h : c.Forms tol t) : t.IsFrame :=
  ⟨h.length_pos, h.isRotation, h.mean_z, h0.trans_lt h.across⟩

/-- **After any sequence of calls of which one was accepted, the triad is formed by the latest
accepted call, and no part of its linearization divides by zero.** A refused call leaves the
triad as it is. -/
theorem run_forms (h0 : 0 ≤ tol.parallel) (calls : List (Formation ℝ))
    (h : ∃ c ∈ calls, c.IsAccepted tol) :
    (∀ (c : Formation ℝ) t e, (c.perform tol t).result = .error e → (c.perform tol t).state = t)
      ∧ (∃ before c after, calls = before ++ c :: after ∧ c.IsAccepted tol
        ∧ (∀ d ∈ after, ¬ d.IsAccepted tol) ∧ c.Forms tol (run tol calls))
      ∧ (run tol calls).HasLinearization := by
  refine ⟨fun c t e he => ?_, ?_⟩
  · rcases perform_cases tol c with ⟨hc, -⟩ | ⟨-, hrefused⟩
    · rw [hc t] at he
      cases he
    · exact (hrefused t).2
  · obtain ⟨before, c, after, hcalls, hc, hafter, htriad⟩ := run_eq_latest calls h
    have hforms := forms_of_triad h0 htriad
    exact ⟨⟨before, c, after, hcalls, hc, hafter, hforms⟩, (hforms.isFrame h0).hasLinearization⟩

omit [SeriesAngle] in
/-- A chord of length two is given between two collapsed ones, with the nodes never turned. -/
theorem run_forms_stretched :
    letI : SeriesAngle := .exact
    let collapsed : Formation ℝ := .update (.both 1) 0
    let stretched : Formation ℝ := .update (.both 1) ⟨2, 0, 0⟩
    let t := run .standard [collapsed, stretched, collapsed]
    ¬ collapsed.IsAccepted .standard ∧ stretched.IsAccepted .standard
      ∧ stretched.Forms .standard t ∧ t.length = 2 ∧ t.HasLinearization := by
  let _ : SeriesAngle := .exact
  intro collapsed stretched t
  have h0 : 0 ≤ (Tolerances.standard : Tolerances ℝ).parallel := by
    change (0 : ℝ) ≤ 1 / 1000000000000
    norm_num
  have hcollapsed : ¬ collapsed.IsAccepted .standard := fun h =>
    (isAccepted_iff.mp h).length_pos.ne' Vec3.norm_zero
  have hlength : stretched.chord.norm = 2 := by
    have hsquare : stretched.chord.dot stretched.chord = 2 * 2 := by
      simp [stretched, chord, Vec3.dot_eq]
    rw [Vec3.norm_eq, hsquare, Real.sqrt_mul_self two_pos.le]
  have hnormal : Triad.normal stretched.axis stretched.chord = ⟨0, 0, 1⟩ := by
    have hmean : Triad.meanAxis stretched.axis = ⟨0, 1, 0⟩ := Triad.meanAxis_both _
    rw [Triad.normal, Triad.direction, hlength, hmean]
    ext <;> simp [stretched, chord]
  have hstretched : stretched.IsAccepted .standard := by
    refine isAccepted_iff.mpr ⟨hlength ▸ two_pos, ?_⟩
    rw [hnormal, Vec3.norm_eq]
    change (1 : ℝ) / 1000000000000 < _
    simp [Vec3.dot_eq]
    norm_num
  obtain ⟨-, ⟨before, c, after, hcalls, hc, -, hforms⟩, hlinearization⟩ :=
    run_forms h0 [collapsed, stretched, collapsed] ⟨stretched, by simp, hstretched⟩
  -- the only accepted call of the three
  have hmem : c ∈ [collapsed, stretched, collapsed] := by simp [hcalls]
  obtain rfl : c = stretched := by
    simp only [List.mem_cons, List.not_mem_nil, or_false] at hmem
    rcases hmem with rfl | rfl | rfl
    · exact absurd hc hcollapsed
    · rfl
    · exact absurd hc hcollapsed
  exact ⟨hcollapsed, hc, hforms, hforms.length.trans hlength, hlinearization⟩

end Reals

end Formation

end Corotation
