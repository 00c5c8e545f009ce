import Corotation.Failure.Message
import Corotation.Proofs.Rotation.Versor
import Corotation.Report.Description
import Corotation.Supplied.Structure
import Corotation.Supplied.Triad
import Corotation.System.SingularValues
import Corotation.Text.Precision
import Corotation.Text.Reading
import Corotation.Transformation.Sensitivity
import Corotation.Proofs.Rotation.Extraction
import Corotation.Proofs.Rotation.Logarithm
import Corotation.Proofs.Rotation.Tangent
import Corotation.Proofs.Element.Slots
import Corotation.Proofs.Element.Triad
import Corotation.Proofs.Element.Linearization
import Corotation.Proofs.Element.Motion
import Corotation.Proofs.Element.Pairing
import Corotation.Proofs.Element.Equilibrium
import Corotation.Proofs.Element.Asymmetry
import Corotation.Proofs.Transformation.Lifecycle
import Corotation.Proofs.Transformation.Evaluation
import Corotation.Proofs.Frame.Geometry
import Corotation.Proofs.Transformation.Attachment
import Corotation.Proofs.Transformation.Session
import Corotation.Proofs.Transformation.Direction
import Corotation.Proofs.Transformation.Undeformed
import Corotation.Proofs.Transformation.Derivative
import Corotation.Proofs.Element.Covariance
import Corotation.Proofs.Transformation.RigidMotion
import Corotation.Proofs.Transformation.Objectivity
import Corotation.Proofs.Transformation.Twisted
import Corotation.Proofs.Transformation.Equilibrium
import Corotation.Proofs.Transformation.Asymmetry
import Corotation.Proofs.Transformation.Restoration
import Corotation.Proofs.Transformation.Currency
import Corotation.Proofs.Transformation.Trail
import Corotation.Proofs.Frame.Coordinates
import Corotation.Proofs.Transformation.Indifference
import Corotation.Proofs.Element.Reversal
import Corotation.Proofs.System.Assembly
import Corotation.Proofs.Transformation.Reversal
import Corotation.Proofs.Structure.Members
import Corotation.Proofs.Structure.Exchange
import Corotation.Proofs.Transformation.RigidLink
import Corotation.Proofs.Structure.Currency
import Corotation.Proofs.Structure.Restoration
import Corotation.Proofs.Structure.Equilibrium
import Corotation.Proofs.Scalar.Partial
import Corotation.Proofs.Transformation.Acceptance
import Corotation.Proofs.Transformation.Agreement
import Corotation.Proofs.Transformation.Reset
import Corotation.Proofs.Transformation.Amendment
import Corotation.Proofs.Transformation.Capture
import Corotation.Proofs.Transformation.Record
import Corotation.Proofs.Transformation.Commitment
import Corotation.Proofs.System.Partition
import Corotation.Proofs.System.Iteration
import Corotation.Proofs.System.Increments
import Corotation.Proofs.System.Elimination
import Corotation.Proofs.System.Condition
import Corotation.Proofs.System.Solve
import Corotation.Proofs.System.Linear
import Corotation.Proofs.System.Bar
import Corotation.Proofs.System.Rollback
import Corotation.Proofs.System.Account
import Corotation.Proofs.System.Supports
import Corotation.Proofs.System.Reactions
import Corotation.Proofs.System.Proportional
import Corotation.Proofs.System.Numbering
import Corotation.Proofs.Transformation.Orientation
import Corotation.Proofs.Transformation.Refusal
import Corotation.Proofs.Element.Definedness
import Corotation.Proofs.Element.Formation
import Corotation.Proofs.Transformation.Triads
import Corotation.Proofs.Space.Coordinates
import Corotation.Proofs.Space.Derivative
import Corotation.Proofs.Rotation.Series
import Corotation.Proofs.Rotation.Spin
import Corotation.Proofs.Rotation.Moment
import Corotation.Proofs.Rotation.RoundTrip
import Corotation.Proofs.Element.Rigid
import Corotation.Proofs.Frame.Section
import Corotation.Proofs.Transformation.Energy
import Corotation.Proofs.System.NodalLoad
import Corotation.Proofs.System.Gathering
import Corotation.Proofs.Frame.Orientation
