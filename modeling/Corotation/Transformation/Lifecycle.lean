import Corotation.Frame.Node
import Corotation.Transformation.Basic

/-!
# The frame transformation — its lifecycle

    attach       once: binds the nodes and sets up the reference geometry
    update       after every change of the trial displacements
    commit       on convergence
    revert       on a rejected iteration
    reset        on a new analysis

An update compares the nodal rotation components with the ones last seen and
applies the difference to the nodal orientations from the left, so that the
orientations follow the path of the solver's increments. It then evaluates the
chord, the triad, the local rotations and the tangent. Each step that can be
refused comes with the state it leaves.
-/

namespace Corotation

open Scalar

namespace Transformation

variable {ν α : Type} [Scalar α]

/-! ## Initialization -/

/-- The undeformed geometry of a configuration between two nodes. -/
def referenceOf (tol : Tolerances α) (config : Configuration α) (position : Ends (Vec3 α)) :
    Except (Failure α) (Reference α) := do
  let offset ←
    globalOffsets tol position.i position.j config.vecxz config.offsets config.flags config.tag
  let c ← chord (position.i + offset.i) (position.j + offset.j) config.tag
  let axes ← orientation tol c.vector config.vecxz config.tag
  return ⟨c.length, c.vector, axes, offset⟩

/-- The displacements found at the first initialization, remembered if there are
any. Later initializations do not look again. -/
def lookForDisplacements (trial : Ends (Displacement α)) (t : Transformation ν α) :
    Transformation ν α × List (Notice α) :=
  match t.capture with
  | .unchecked =>
    if Displacement.IsZero trial.i ∧ Displacement.IsZero trial.j then
      ({ t with capture := .none }, [])
    else ({ t with capture := .captured, initial := trial }, [.captured t.tag])
  | _ => (t, [])

/-- The nodes and the reference geometry put in place. -/
def bind (nodes : Ends ν) (r : Reference α) (t : Transformation ν α) : Transformation ν α :=
  { t with nodes := some nodes, reference := r, deformedLength := r.length, arm := r.offset }

/-- Both nodes at the given orientation, nothing seen and nothing deformed. -/
def start (q : Versor α) (t : Transformation ν α) : Transformation ν α :=
  { t with
    versor := .both q, seen := .both .zero, deformation := .zero, previous := .zero,
    tangent := none }

/-- The trial orientations and deformations made the committed ones. -/
def snapshot (t : Transformation ν α) : Transformation ν α :=
  { t with committed := t.deformation, committedVersor := t.versor }

/-- The orientations and the triad set to the reference geometry that is in
place. -/
def settle (tol : Tolerances α) (t : Transformation ν α) : Outcome α (Transformation ν α) Unit :=
  match Versor.ofMatrix t.reference.axes with
  | .error e => .fail t e
  | .ok q =>
    let t := t.start q
    match Triad.ofReference tol t.reference.chord t.reference.axes with
    | .error e => .fail t e
    | .ok triad => .ok { t with triad, stage := .initialized }.snapshot ()

/-- The two end nodes bound, and the reference configuration set up from their
positions. Exactly two nodes are needed, each with its name. -/
def attach (tol : Tolerances α) (nodes : List (Option (ν × Node α)))
    (t : Transformation ν α) : Outcome α (Transformation ν α) Unit :=
  match nodes with
  | [some (i, ni), some (j, nj)] =>
    match referenceOf tol t.config ⟨ni.position, nj.position⟩ with
    | .error e => .fail t e
    | .ok r =>
      let (t, notices) := t.lookForDisplacements ⟨ni.trial, nj.trial⟩
      let o := (t.bind ⟨i, j⟩ r).settle tol
      { o with notices := notices ++ o.notices }
  | _ => .fail t (.missingNode t.tag)

/-! ## The update -/

/-- An orientation after the rotation components went from one value to another:
the difference is applied from the left, unless it has no length. -/
def turned (alpha seen : Vec3 α) (q : Versor α) : Except (Failure α) (Versor α) :=
  let increment := alpha - seen
  if IsZero increment.norm then .ok q else Versor.compose increment q

/-- The nodal orientations brought up to the reported rotation components, the
first end before the second. An end whose turn is refused has seen its
components all the same. -/
def advance (rot : Ends (Vec3 α)) (t : Transformation ν α) :
    Outcome α (Transformation ν α) Unit :=
  let ti := { t with seen := ⟨rot.i, t.seen.j⟩ }
  match turned rot.i t.seen.i t.versor.i with
  | .error e => .fail ti e
  | .ok qi =>
    let tj := { ti with versor := ⟨qi, t.versor.j⟩, seen := ⟨rot.i, rot.j⟩ }
    match turned rot.j t.seen.j t.versor.j with
    | .error e => .fail tj e
    | .ok qj => .ok { tj with versor := ⟨qi, qj⟩ } ()

/-- The offset arms for given nodal rotations. -/
def armsOf (t : Transformation ν α) (rotation : Ends (Mat3 α)) : Ends (Vec3 α) :=
  rotation.zipWith (fun r o => (r * t.reference.axes.transpose).apply o) t.reference.offset

/-- The deformed chord for given nodal displacements and offset arms. -/
def chordOf (t : Transformation ν α) (d : Ends (Displacement α)) (arm : Ends (Vec3 α)) :
    Vec3 α :=
  let u := fun (d : Displacement α) (arm o : Vec3 α) => d.lin + arm - o
  t.reference.chord + u d.j arm.j t.reference.offset.j - u d.i arm.i t.reference.offset.i

/-- The local rotation vectors of the nodes relative to a triad. -/
def localRotations (axes : Mat3 α) (rotation : Ends (Mat3 α)) :
    Except (Failure α) (Ends (Vec3 α)) := do
  let i ← rotationVector (axes.transpose * rotation.i)
  let j ← rotationVector (axes.transpose * rotation.j)
  return ⟨i, j⟩

/-- The local deformations of an elongation and two local rotations. -/
def deformationOf (elongation : α) (theta : Ends (Vec3 α)) : ElementVector α :=
  ⟨⟨.zero, theta.i⟩, ⟨⟨elongation, 0, 0⟩, theta.j⟩⟩

/-- The kinematics of the present orientations for given nodal displacements. -/
def evaluate (tol : Tolerances α) (d : Ends (Displacement α)) (t : Transformation ν α) :
    Outcome α (Transformation ν α) Unit :=
  let rotation := t.nodalRotation
  let arm := t.armsOf rotation
  let dx := t.chordOf d arm
  let length := dx.norm
  if length ≤ 0 then .fail t (.degenerate (.deformedLength t.tag))
  else
    match Triad.ofRotations tol rotation dx with
    | .error e => .fail t e
    | .ok triad =>
      let t := { t with triad }
      match localRotations triad.axes rotation with
      | .error e => .fail t e
      | .ok theta =>
        let ul := deformationOf (length - t.reference.length) theta
        let T := ElementMatrix.mul (triad.deformationTangent tol ul) (link arm)
        .ok
          { t with
            previous := t.deformation, deformation := ul, deformedLength := length, arm,
            tangent := some T, stage := .current } ()

/-- The orientations and then the kinematics brought up to what the nodes
report. -/
def follow (tol : Tolerances α) (trial : Ends (Displacement α)) (t : Transformation ν α) :
    Outcome α (Transformation ν α) Unit :=
  let d := t.displacement trial
  (t.advance (d.map Screw.rot)).andThen fun t _ => t.evaluate tol d

/-- The names of the bound nodes of an initialized transformation. -/
def bound? (t : Transformation ν α) : Except (Failure α) (Ends ν) :=
  match t.stage, t.nodes with
  | .uninitialized, _ => .error (.uninitialized t.tag)
  | _, some nodes => .ok nodes
  | _, none => .error (.uninitialized t.tag)

/-- Deformations, lengths and tangent recomputed for the trial displacements of
the nodes. -/
def update (tol : Tolerances α) (trial : ν → Displacement α) (t : Transformation ν α) :
    Outcome α (Transformation ν α) Unit :=
  match t.bound? with
  | .error e => .fail t e
  | .ok nodes => { t with stage := .initialized }.follow tol (nodes.map trial)

/-- The trial state committed. -/
def commit (t : Transformation ν α) : Outcome α (Transformation ν α) Unit :=
  match t.bound? with
  | .error e => .fail t e
  | .ok _ => .ok t.snapshot ()

/-- The committed orientations and deformations restored, and the rotation
components last seen taken from what the nodes report now. -/
def restore (trial : Ends (Displacement α)) (t : Transformation ν α) : Transformation ν α :=
  { t with
    versor := t.committedVersor, deformation := t.committed,
    seen := (t.displacement trial).map Screw.rot }

/-- Back to the committed state. -/
def revert (tol : Tolerances α) (trial : ν → Displacement α) (t : Transformation ν α) :
    Outcome α (Transformation ν α) Unit :=
  match t.bound? with
  | .error e => .fail t e
  | .ok nodes => (t.restore (nodes.map trial)).update tol trial

/-- Back to the undeformed reference configuration, which is then committed. -/
def reset (tol : Tolerances α) (trial : ν → Displacement α) (t : Transformation ν α) :
    Outcome α (Transformation ν α) Unit :=
  match t.bound? with
  | .error e => .fail t e
  | .ok _ =>
    let t := { t with deformation := .zero }
    match Versor.ofMatrix t.reference.axes with
    | .error e => .fail t e
    | .ok q =>
      ({ t with versor := .both q, seen := .both .zero }.update tol trial).andThen
        fun t _ => t.commit

end Transformation

end Corotation
