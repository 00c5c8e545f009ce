import Corotation.Proofs.Transformation.Capture
import Corotation.Report.Description
import Corotation.Supplied.Transformation
/-!
# The record of a configuration

A record holds the name and the reference vector of a configuration, and its offsets with the
flags they are read by where there are any. What is read back is therefore the configuration
itself but for the flags of absent offsets (`ofRecord_record`), which nothing looks at.

That nothing does is a statement about whole sessions. The configuration is read once, when nodes
are bound, and then only for the name in messages and remarks; so a change of it that keeps both
the name and what is bound goes with every operation (`perform_reconfigured`) and shows in no
answer of a session (`answers_reconfigured`).
-/

namespace Corotation

/-! ## A change of the configuration -/

/-- A change of configurations that keeps their names and the reference geometries that they
lead to. -/
structure Configuration.IsFaithful {α : Type} [Scalar α]
    (f : Configuration α → Configuration α) : Prop where
  tag : ∀ c, (f c).tag = c.tag
  reference : ∀ tol c position,
    Transformation.referenceOf tol (f c) position = Transformation.referenceOf tol c position

namespace Transformation

variable {ν α : Type} {f : Configuration α → Configuration α} {t : Transformation ν α}

/-- The state with its configuration changed. -/
def reconfigured (f : Configuration α → Configuration α) (t : Transformation ν α) :
    Transformation ν α := { t with config := f t.config }

variable [Scalar α] {tol : Tolerances α} (hf : Configuration.IsFaithful f)

theorem settle_reconfigured :
    (t.reconfigured f).settle tol = (t.settle tol).mapState (reconfigured f) :=
  settle_amended (g := id) (h := id)

include hf

theorem tag_reconfigured : (t.reconfigured f).tag = t.tag := hf.tag t.config

theorem bound?_reconfigured : (t.reconfigured f).bound? = t.bound? :=
  bound?_amended (g := id) (h := id) hf.tag

theorem tangent?_reconfigured : (t.reconfigured f).tangent? = t.tangent? :=
  tangent?_amended (g := id) (h := id) hf.tag

theorem lookForDisplacements_reconfigured (d : Ends (Displacement α)) :
    (t.reconfigured f).lookForDisplacements d
      = ((t.lookForDisplacements d).1.reconfigured f, (t.lookForDisplacements d).2) := by
  have htag := tag_reconfigured (t := t) hf
  have hcapture : (t.reconfigured f).capture = t.capture := rfl
  unfold lookForDisplacements
  rw [hcapture, htag]
  cases t.capture with
  | unchecked =>
    simp only
    split_ifs <;> rfl
  | none => rfl
  | captured => rfl

/-- **An attachment** finds the same reference geometry. -/
theorem attach_reconfigured (pair : List (Option (ν × Node α))) :
    (t.reconfigured f).attach tol pair = (t.attach tol pair).mapState (reconfigured f) := by
  by_cases hpair : ∃ m n, pair = [some m, some n]
  · obtain ⟨⟨i, ni⟩, ⟨j, nj⟩, rfl⟩ := hpair
    have href : referenceOf tol (t.reconfigured f).config ⟨ni.position, nj.position⟩
        = referenceOf tol t.config ⟨ni.position, nj.position⟩ := hf.reference tol t.config _
    unfold attach
    simp only [href, lookForDisplacements_reconfigured hf]
    cases referenceOf tol t.config ⟨ni.position, nj.position⟩ with
    | error e => rfl
    | ok r =>
      have hbind :
          ((t.lookForDisplacements ⟨ni.trial, nj.trial⟩).1.reconfigured f).bind ⟨i, j⟩ r
            = ((t.lookForDisplacements ⟨ni.trial, nj.trial⟩).1.bind ⟨i, j⟩ r).reconfigured f :=
        rfl
      simp only [hbind, settle_reconfigured]
      rfl
  · have hne (m n) : pair ≠ [some m, some n] := fun heq => hpair ⟨m, n, heq⟩
    rw [attach_of_not_pair _ hne, attach_of_not_pair _ hne, tag_reconfigured hf]
    rfl

end Transformation

/-! ## Sessions of supplied data -/

namespace Supplied

variable {ν α : Type}

/-- What is asked of a transformation, with what the nodes report then. -/
inductive Request (ν α : Type) where
  /-- Bind two nodes. -/
  | attach (points : List (Option (ν × Point α)))
  /-- Follow the nodes. -/
  | update (trial : ν → Option (Displacement α))
  /-- Keep the trial state. -/
  | commit
  /-- Go back to the committed state. -/
  | revert (trial : ν → Option (Displacement α))
  /-- Go back to the reference configuration. -/
  | reset (trial : ν → Option (Displacement α))
  /-- Map local forces to the nodes. -/
  | pushForce (p : Grid α)
  /-- Map a local stiffness to the nodes, at given local forces. -/
  | pushStiffness (kl p : Grid α)

/-- What it answers. -/
inductive Answer (α : Type) where
  /-- The operation was done. -/
  | done
  /-- Nodal forces. -/
  | force (f : Grid α)
  /-- A nodal stiffness. -/
  | stiffness (K : ElementMatrix α)

section Sessions

variable [Scalar α] (tol : Tolerances α)

/-- The transformation after a request, with the answer and the remarks made. -/
def Request.perform (t : Transformation ν α) :
    Request ν α → Outcome α (Transformation ν α) (Answer α)
  | attach points => (Supplied.attach tol points t).andThen fun t _ => .ok t .done
  | update trial => (following trial (fun u t => t.update tol u) t).andThen fun t _ => .ok t .done
  | commit => t.commit.andThen fun t _ => .ok t .done
  | revert trial => (following trial (fun u t => t.revert tol u) t).andThen fun t _ => .ok t .done
  | reset trial => (following trial (fun u t => t.reset tol u) t).andThen fun t _ => .ok t .done
  | pushForce p => ⟨t, [], (Supplied.pushForce t p).map .force⟩
  | pushStiffness kl p =>
    match Supplied.pushStiffness tol t kl p with
    | .ok (K, notices) => ⟨t, notices, .ok (.stiffness K)⟩
    | .error e => .fail t e

/-- The transformation after a sequence of requests, some of which may be refused. -/
def asked (t : Transformation ν α) (requests : List (Request ν α)) : Transformation ν α :=
  requests.foldl (fun t r => (r.perform tol t).state) t

/-- The answers to a sequence of requests in turn, refusals among them, with the remarks
made. -/
def answers : Transformation ν α → List (Request ν α) →
    List (List (Notice α) × Except (Failure α) (Answer α))
  | _, [] => []
  | t, r :: requests =>
    let o := r.perform tol t
    (o.notices, o.result) :: answers o.state requests

variable {tol} {f : Configuration α → Configuration α} {t : Transformation ν α}
variable (hf : Configuration.IsFaithful f)

include hf

/-- Displacements of any shape are found as before. -/
theorem attach_reconfigured (points : List (Option (ν × Point α))) :
    Supplied.attach tol points (t.reconfigured f)
      = (Supplied.attach tol points t).mapState (Transformation.reconfigured f) := by
  have hcapture : (t.reconfigured f).capture = t.capture := rfl
  unfold Supplied.attach
  cases nodes? points with
  | some nodes => exact Transformation.attach_reconfigured hf nodes
  | none =>
    simp only [Transformation.attach_reconfigured hf, hcapture, Outcome.mapState]
    split <;> rfl

/-- What follows the nodes follows them as before. -/
theorem following_reconfigured (trial : ν → Option (Displacement α))
    {g : (ν → Displacement α) → Transformation ν α → Outcome α (Transformation ν α) Unit}
    (hg : ∀ u t, g u (t.reconfigured f) = (g u t).mapState (Transformation.reconfigured f)) :
    following trial g (t.reconfigured f)
      = (following trial g t).mapState (Transformation.reconfigured f) := by
  unfold following
  rw [Transformation.bound?_reconfigured hf]
  cases t.bound? with
  | error e => rfl
  | ok nodes =>
    simp only [hg]
    split <;> rfl

/-- The projections read the tangent and the cached kinematics. -/
theorem pushForce_reconfigured (p : Grid α) :
    Supplied.pushForce (t.reconfigured f) p = Supplied.pushForce t p := by
  unfold Supplied.pushForce Transformation.pushForce
  rw [Transformation.tangent?_reconfigured hf]

theorem pushStiffness_reconfigured (kl p : Grid α) :
    Supplied.pushStiffness tol (t.reconfigured f) kl p = Supplied.pushStiffness tol t kl p := by
  unfold Supplied.pushStiffness Transformation.pushStiffness
  rw [Transformation.tangent?_reconfigured hf, Transformation.tag_reconfigured hf]
  rfl

/-- **Every request** goes with a faithful change of the configuration: it is answered in the
same way, and leaves the same state but for the change. -/
theorem perform_reconfigured (r : Request ν α) :
    r.perform tol (t.reconfigured f)
      = (r.perform tol t).mapState (Transformation.reconfigured f) := by
  have hdone {o : Outcome α (Transformation ν α) Unit} :
      ((o.mapState (Transformation.reconfigured f)).andThen fun t _ => .ok t (.done : Answer α))
        = (o.andThen fun t _ => .ok t (.done : Answer α)).mapState
          (Transformation.reconfigured f) := Outcome.mapState_andThen fun _ _ => rfl
  cases r with
  | attach points => rw [Request.perform, attach_reconfigured hf, hdone]; rfl
  | update trial =>
    rw [Request.perform, following_reconfigured hf trial fun u t =>
      Transformation.update_amended (g := id) (h := id) hf.tag fun _ _ => rfl, hdone]
    rfl
  | commit =>
    have hcommit : (t.reconfigured f).commit
        = t.commit.mapState (Transformation.reconfigured f) :=
      Transformation.commit_amended (g := id) (h := id) hf.tag
    rw [Request.perform, hcommit, hdone]
    rfl
  | revert trial =>
    rw [Request.perform, following_reconfigured hf trial fun u t =>
      Transformation.revert_amended (g := id) (h := id) hf.tag fun _ _ => rfl, hdone]
    rfl
  | reset trial =>
    rw [Request.perform, following_reconfigured hf trial fun u t =>
      Transformation.reset_amended (g := id) (h := id) hf.tag fun _ _ => rfl, hdone]
    rfl
  | pushForce p => rw [Request.perform, pushForce_reconfigured hf]; rfl
  | pushStiffness kl p =>
    simp only [Request.perform, pushStiffness_reconfigured hf]
    cases Supplied.pushStiffness tol t kl p <;> rfl

/-- **So does every session**, refused requests and all. -/
theorem answers_reconfigured (requests : List (Request ν α)) :
    answers tol (t.reconfigured f) requests = answers tol t requests
      ∧ asked tol (t.reconfigured f) requests = (asked tol t requests).reconfigured f := by
  induction requests generalizing t with
  | nil => exact ⟨rfl, rfl⟩
  | cons r requests ih =>
    obtain ⟨hanswers, hasked⟩ := ih (t := (r.perform tol t).state)
    simp only [answers, asked, List.foldl_cons, perform_reconfigured hf, Outcome.mapState]
    exact ⟨congrArg _ hanswers, hasked⟩

end Sessions

end Supplied

/-! ## What a record holds -/

namespace Configuration

variable {α : Type}

/-- The configuration without flags where there are no offsets. -/
def recorded (c : Configuration α) : Configuration α :=
  match c.offsets with
  | none => { c with flags := .none }
  | some _ => c

/-- **The flags of absent offsets serve nothing.** -/
theorem recorded_isFaithful [Scalar α] : IsFaithful fun c : Configuration α => c.recorded where
  tag c := by
    unfold recorded
    split <;> rfl
  reference tol c position := by
    obtain ⟨tag, v, offsets, flags⟩ := c
    cases offsets <;> rfl

theorem recorded_record (c : Configuration Float) : c.recorded.record = c.record := by
  obtain ⟨tag, v, offsets, flags⟩ := c
  cases offsets <;> rfl

/-- The parts of a record by their names. -/
theorem record_get? (c : Configuration Float) :
    c.record.get? "name" = some c.tag ∧ c.record.get? "vecxz" = some c.vecxz.document
      ∧ c.record.get? "offsets"
        = c.offsets.map (fun o => .list (o.toList.map Vec3.document))
      ∧ c.record.get? "offset_flags" = c.offsets.map fun _ => .int c.flags.bits := by
  obtain ⟨tag, v, offsets, flags⟩ := c
  cases offsets <;> simp [record, Document.get?]

/-- **A record is read back** as the configuration but for the flags of absent offsets. -/
theorem ofRecord_record (c : Configuration Float) :
    Supplied.ofRecord c.record = .ok c.recorded := by
  obtain ⟨hname, hvecxz, hoffsets, hflags⟩ := c.record_get?
  unfold Supplied.ofRecord
  simp only [hname, hvecxz, hoffsets, hflags]
  obtain ⟨tag, v, offsets, flags⟩ := c
  cases offsets <;> rfl

end Configuration

namespace Supplied

theorem tag_of_configuration {α : Type} [Scalar α] {tag : Label} {v : Grid α}
    {offsets : Option (Grid α)} {flags : OffsetFlags} {c : Configuration α}
    (h : configuration tag v offsets flags = .ok c) : c.tag = tag := by
  unfold configuration at h
  split at h
  · cases h
  split at h
  · cases h
    rfl
  split at h <;> cases h
  rfl

/-- A configuration has the name that was given, and the flags as they were read. -/
theorem configurationOf_eq_ok {tag : Label} {vecxz : Document} {offsets flags : Option Document}
    {c : Configuration Float} (h : configurationOf tag vecxz offsets flags = .ok c) :
    c.tag = tag ∧ flagsOf flags = .ok c.flags := by
  obtain ⟨v, -, h⟩ := exists_of_bind_eq_ok h
  obtain ⟨_, -, h⟩ := exists_of_bind_eq_ok h
  obtain ⟨o, -, h⟩ := exists_of_bind_eq_ok h
  obtain ⟨c, hc, h⟩ := exists_of_bind_eq_ok h
  obtain ⟨bits, hflags, h⟩ := exists_of_bind_eq_ok h
  have htag := tag_of_configuration hc
  cases h
  exact ⟨htag, hflags⟩

/-- **The record of a configuration is faithful.** Whatever documents a transformation was made
from, its record is read back, as a configuration with the same name and the same record, and
with the same flags where there are offsets. And a transformation made from that answers every
sequence of requests as the original does, refusals and remarks included, and is left in the same
state but for the flags of absent offsets. -/
theorem record_faithful {tag : Label} {vecxz : Document} {offsets flags : Option Document}
    {c : Configuration Float} (h : configurationOf tag vecxz offsets flags = .ok c) :
    ∃ c', ofRecord c.record = .ok c' ∧ c'.tag = tag ∧ c'.record = c.record
      ∧ (c'.offsets ≠ none → flagsOf flags = .ok c'.flags)
      ∧ ∀ (ν : Type) (tol : Tolerances Float) (requests : List (Request ν Float)),
        answers tol (.ofConfiguration c') requests = answers tol (.ofConfiguration c) requests
          ∧ asked tol (.ofConfiguration c') requests
            = (asked tol (.ofConfiguration c) requests).reconfigured fun c => c.recorded := by
  obtain ⟨htag, hflags⟩ := configurationOf_eq_ok h
  refine ⟨c.recorded, c.ofRecord_record,
    (Configuration.recorded_isFaithful.tag c).trans htag, c.recorded_record, fun hoffsets => ?_,
    fun ν tol requests => ?_⟩
  · rw [hflags]
    unfold Configuration.recorded at hoffsets ⊢
    split at hoffsets
    · exact absurd ‹_› hoffsets
    · rfl
  · have hstart : (.ofConfiguration c.recorded : Transformation ν Float)
        = (Transformation.ofConfiguration c).reconfigured fun c => c.recorded := rfl
    rw [hstart]
    exact answers_reconfigured Configuration.recorded_isFaithful requests

/-- An element without offsets may be given every flag. Its record has none of them, and what is
read back from it is another configuration that serves as well. -/
theorem record_faithful_idle_flags :
    let c : Configuration Float := ⟨.int 1, ⟨0, 0, 1⟩, none, ⟨3⟩⟩
    configurationOf (.int 1) (.list [.real 0, .real 0, .real 1]) none (some (.int (-1))) = .ok c
      ∧ ∃ c', ofRecord c.record = .ok c' ∧ c' ≠ c ∧ c'.record = c.record
        ∧ ∀ (tol : Tolerances Float) (requests : List (Request Nat Float)),
          answers tol (.ofConfiguration c') requests
            = answers tol (.ofConfiguration c) requests := by
  intro c
  have hmade : configurationOf (.int 1) (.list [.real 0, .real 0, .real 1]) none
      (some (.int (-1))) = .ok c := rfl
  obtain ⟨c', hread, -, hrecord, -, hsessions⟩ := record_faithful hmade
  have hflags : c' = { c with flags := .none } :=
    Except.ok.inj (hread.symm.trans c.ofRecord_record)
  refine ⟨hmade, c', hread, fun heq => ?_, hrecord, fun tol requests =>
    (hsessions Nat tol requests).1⟩
  exact absurd (congrArg (fun c => c.flags.bits) (hflags.symm.trans heq)) (by decide)

end Supplied

end Corotation
