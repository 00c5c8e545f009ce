import Corotation.Proofs.System.Partition
import Corotation.System.Newton
/-!
# The iterations of a load increment

What happened in a run is a list of events, and what it has done to the model can be replayed
from them (`replay`). The iterations of an increment are an approach: an evaluation, a correction,
an evaluation at the corrected displacement, and so on (`Approach`). It ends at the displacement
that it has reached in one of five ways (`Ends`, `iterate_ends`).

Along an approach nothing is committed or reverted, there is one evaluation for each correction,
and a fixed component that starts at zero stays there.
-/

namespace Corotation

namespace Newton

open Scalar

variable {σ α : Type} {n : Nat}

/-! ## Events -/

namespace Event

/-- The displacement of an evaluation. -/
def displacement? : Event n α → Option (Vector α n)
  | evaluated d => some d
  | remarked _ | committed | reverted => none

/-- The model was evaluated. -/
def isEvaluation (e : Event n α) : Bool := e.displacement?.isSome

/-- The model was committed. -/
def isCommit : Event n α → Bool
  | committed => true
  | evaluated _ | remarked _ | reverted => false

/-- The model was reverted. -/
def isRevert : Event n α → Bool
  | reverted => true
  | evaluated _ | remarked _ | committed => false

/-- What an event does to the model. -/
def effect (m : Model σ n α) (s : σ) : Event n α → σ
  | evaluated d => (m.respond d s).state
  | remarked _ => s
  | committed => m.commit?.elim s fun hook => (hook s).state
  | reverted => m.revert?.elim s fun hook => (hook s).state

/-- The function of the model that was called failed with `e`. -/
def Fails (m : Model σ n α) (s : σ) (e : Failure α) : Event n α → Prop
  | evaluated d => (m.respond d s).result = .error e
  | remarked _ => False
  | committed => ∃ hook, m.commit? = some hook ∧ (hook s).result = .error e
  | reverted => ∃ hook, m.revert? = some hook ∧ (hook s).result = .error e

end Event

/-- What events have done to the model. -/
def replay (m : Model σ n α) (s : σ) (events : List (Event n α)) : σ :=
  events.foldl (Event.effect m) s

/-- The events of an evaluation. -/
def evaluation (m : Model σ n α) (d : Vector α n) (s : σ) : List (Event n α) :=
  .evaluated d :: (m.respond d s).notices.map .remarked

variable {m : Model σ n α} {d d₀ : Vector α n} {s s₀ : σ} {events : List (Event n α)} {k : Nat}

@[simp] theorem replay_nil : replay m s [] = s := rfl

@[simp] theorem replay_append (events events' : List (Event n α)) :
    replay m s (events ++ events') = replay m (replay m s events) events' := List.foldl_append ..

/-- Remarks do nothing to the model. -/
@[simp] theorem replay_remarks (notices : List (Notice α)) :
    replay m s (notices.map Event.remarked) = s := by
  induction notices with
  | nil => rfl
  | cons notice notices ih => exact ih

@[simp] theorem replay_evaluation : replay m s (evaluation m d s) = (m.respond d s).state :=
  replay_remarks _

/-- Remarks are at no displacement. -/
theorem findSome?_remarks (notices : List (Notice α)) :
    (notices.map (Event.remarked (n := n))).findSome? Event.displacement? = none := by
  rw [List.findSome?_eq_none_iff]
  intro e he
  obtain ⟨notice, -, rfl⟩ := List.mem_map.mp he
  rfl

/-- A count that does not count remarks. -/
theorem countP_remarks (p : Event n α → Bool) (hp : ∀ notice, p (.remarked notice) = false)
    (notices : List (Notice α)) : (notices.map Event.remarked).countP p = 0 := by
  rw [List.countP_eq_zero]
  intro e he
  obtain ⟨notice, -, rfl⟩ := List.mem_map.mp he
  simp [hp]

@[simp] theorem countP_isEvaluation_evaluation :
    (evaluation m d s).countP Event.isEvaluation = 1 := by
  rw [evaluation, List.countP_cons_of_pos rfl, countP_remarks _ fun _ => rfl]

@[simp] theorem countP_isCommit_evaluation : (evaluation m d s).countP Event.isCommit = 0 := by
  rw [evaluation, List.countP_cons_of_neg Bool.false_ne_true, countP_remarks _ fun _ => rfl]

@[simp] theorem countP_isRevert_evaluation : (evaluation m d s).countP Event.isRevert = 0 := by
  rw [evaluation, List.countP_cons_of_neg Bool.false_ne_true, countP_remarks _ fun _ => rfl]

/-! ## Approaches -/

variable [Scalar α]

/-- The residual of an increment at a response. -/
def Increment.residual (inc : Increment n α) (response : Response n α) : Vector α n :=
  SystemVector.clear (SystemVector.sub inc.load response.force) inc.held

/-- It is zero where it is held, and what the forces leave of the load elsewhere. -/
theorem Increment.get_residual (inc : Increment n α) (response : Response n α) (k : Fin n) :
    (inc.residual response).get k
      = if k ∈ inc.held then 0 else inc.load.get k - response.force.get k := by
  rw [residual, SystemVector.get_clear, SystemVector.get_sub]

/-- The model answers at a displacement, with a residual that counts as converged. -/
def Balances (m : Model σ n α) (inc : Increment n α) (d : Vector α n) (s : σ) : Prop :=
  ∃ response, (m.respond d s).result = .ok response
    ∧ SystemVector.norm (inc.residual response) ≤ inc.tolerance

/-- The model answers at a displacement, with a residual that does not. -/
structure Misses (m : Model σ n α) (inc : Increment n α) (d : Vector α n) (s : σ)
    (response : Response n α) : Prop where
  answers : (m.respond d s).result = .ok response
  large : ¬ SystemVector.norm (inc.residual response) ≤ inc.tolerance

variable [Conditioned α]

/-- What the tangent makes of the residual. -/
def Increment.correction (inc : Increment n α) (response : Response n α) :
    Except (Failure α) (Solution n α) :=
  solveLinear response.tangent (inc.residual response) inc.fixed inc.conditionLimit

/-- **An approach**: so many corrections from the displacement `d₀` and the state `s₀`, with what
happened, and the displacement and the state that were reached. -/
inductive Approach (m : Model σ n α) (inc : Increment n α) (d₀ : Vector α n) (s₀ : σ) :
    Nat → Vector α n → σ → List (Event n α) → Prop
  /-- Nothing was corrected yet. -/
  | start : Approach m inc d₀ s₀ 0 d₀ s₀ []
  /-- The residual was too large, and the displacement was corrected. -/
  | correct {k : Nat} {d : Vector α n} {s : σ} {events : List (Event n α)}
      {response : Response n α} {x : Solution n α} :
      Approach m inc d₀ s₀ k d s events → Misses m inc d s response →
      inc.correction response = .ok x →
      Approach m inc d₀ s₀ (k + 1) (SystemVector.add d x.displacement) (m.respond d s).state
        (events ++ evaluation m d s)

/-- **How an approach ends** after `k` corrections, at the displacement `d` in the state `s`, if
`budget` evaluations are allowed. -/
inductive Ends (m : Model σ n α) (inc : Increment n α) (budget k : Nat) (d : Vector α n) (s : σ)
    (events : List (Event n α)) : Part σ n α (Ending n α) → Prop
  /-- No evaluation is left. -/
  | exhausted (residual : Option α) :
      k = budget → Ends m inc budget k d s events ⟨s, events, .exhausted residual⟩
  /-- The residual counts as converged. -/
  | converged :
      k < budget → Balances m inc d s →
      Ends m inc budget k d s events
        ⟨(m.respond d s).state, events ++ evaluation m d s, .converged d (k + 1)⟩
  /-- The tangent is singular. -/
  | singular {response : Response n α} {limit : α} :
      k < budget → Misses m inc d s response → inc.correction response = .error (.unstable limit) →
      Ends m inc budget k d s events
        ⟨(m.respond d s).state, events ++ evaluation m d s, .singular (k + 1) limit⟩
  /-- The linear solve fails otherwise. -/
  | unsolved {response : Response n α} {e : Failure α} :
      k < budget → Misses m inc d s response → inc.correction response = .error e →
      (∀ limit, e ≠ .unstable limit) →
      Ends m inc budget k d s events
        ⟨(m.respond d s).state, events ++ evaluation m d s, .failed e⟩
  /-- The model does not answer. -/
  | unanswered {e : Failure α} :
      k < budget → (m.respond d s).result = .error e →
      Ends m inc budget k d s events
        ⟨(m.respond d s).state, events ++ evaluation m d s, .failed e⟩

variable {inc : Increment n α}

/-- One iteration where the model does not answer. -/
theorem iterate_of_error {e : Failure α} (h : (m.respond d s).result = .error e)
    (budget iteration : Nat) (residual : Option α) :
    iterate m inc (budget + 1) iteration d residual s
      = ⟨(m.respond d s).state, evaluation m d s, .failed e⟩ := by
  simp only [iterate, h]
  rfl

/-- One iteration where the residual counts as converged. -/
theorem iterate_of_balances (h : Balances m inc d s) (budget iteration : Nat)
    (residual : Option α) :
    iterate m inc (budget + 1) iteration d residual s
      = ⟨(m.respond d s).state, evaluation m d s, .converged d iteration⟩ := by
  obtain ⟨response, hanswers, hsmall⟩ := h
  simp only [iterate, hanswers]
  exact if_pos hsmall

/-- One iteration where it does not. -/
theorem iterate_of_misses {response : Response n α} (h : Misses m inc d s response)
    (budget iteration : Nat) (residual : Option α) :
    iterate m inc (budget + 1) iteration d residual s
      = match inc.correction response with
        | .error (.unstable limit) =>
          ⟨(m.respond d s).state, evaluation m d s, .singular iteration limit⟩
        | .error e => ⟨(m.respond d s).state, evaluation m d s, .failed e⟩
        | .ok x =>
          let part := iterate m inc budget (iteration + 1) (SystemVector.add d x.displacement)
            (some (SystemVector.norm (inc.residual response))) (m.respond d s).state
          { part with events := evaluation m d s ++ part.events } := by
  simp only [iterate, h.answers]
  exact if_neg h.large

/-- The iterations go on from where an approach has come. -/
theorem iterate_ends_from (h : Approach m inc d₀ s₀ k d s events) (budget : Nat)
    (residual : Option α) :
    let part := iterate m inc budget (k + 1) d residual s
    ∃ k' d' s' events', Approach m inc d₀ s₀ k' d' s' events'
      ∧ Ends m inc (k + budget) k' d' s' events' { part with events := events ++ part.events } := by
  -- on the evaluations that are left: a correction is one step more of the approach
  induction budget generalizing k d s events residual with
  | zero =>
    refine ⟨k, d, s, events, h, ?_⟩
    simp only [iterate, List.append_nil]
    exact .exhausted residual rfl
  | succ budget ih =>
    have hlt : k < k + (budget + 1) := by omega
    intro part
    cases hresult : (m.respond d s).result with
    | error e =>
      have hpart : part = _ := iterate_of_error hresult budget (k + 1) residual
      rw [hpart]
      exact ⟨k, d, s, events, h, .unanswered hlt hresult⟩
    | ok response =>
      by_cases hsmall : SystemVector.norm (inc.residual response) ≤ inc.tolerance
      · have hbalances : Balances m inc d s := ⟨response, hresult, hsmall⟩
        have hpart : part = _ := iterate_of_balances hbalances budget (k + 1) residual
        rw [hpart]
        exact ⟨k, d, s, events, h, .converged hlt hbalances⟩
      · have hmisses : Misses m inc d s response := ⟨hresult, hsmall⟩
        have hpart : part = _ := iterate_of_misses hmisses budget (k + 1) residual
        rw [hpart]
        cases hcorrection : inc.correction response with
        | ok x =>
          obtain ⟨k', d', s', events', happroach, hends⟩ := ih (.correct h hmisses hcorrection)
            (some (SystemVector.norm (inc.residual response)))
          refine ⟨k', d', s', events', happroach, ?_⟩
          rwa [List.append_assoc, show k + 1 + budget = k + (budget + 1) by omega] at hends
        | error e =>
          refine ⟨k, d, s, events, h, ?_⟩
          cases e with
          | unstable limit => exact .singular hlt hmisses hcorrection
          | _ => exact .unsolved hlt hmisses hcorrection nofun

/-- **The iterations of an increment** are an approach and its end. -/
theorem iterate_ends (m : Model σ n α) (inc : Increment n α) (budget : Nat) (d : Vector α n)
    (residual : Option α) (s : σ) :
    ∃ k d' s' events, Approach m inc d s k d' s' events
      ∧ Ends m inc budget k d' s' events (iterate m inc budget 1 d residual s) := by
  have hstart : Approach m inc d s 0 d s [] := .start
  obtain ⟨k, d', s', events, happroach, hends⟩ := iterate_ends_from hstart budget residual
  rw [Nat.zero_add] at hends
  exact ⟨k, d', s', events, happroach, hends⟩

/-! ## What an approach keeps -/

namespace Approach

variable (h : Approach m inc d₀ s₀ k d s events)

include h

/-- The state is what the evaluations have made of it. -/
theorem replay_eq : replay m s₀ events = s := by
  induction h with
  | start => rfl
  | correct _ _ _ ih => rw [replay_append, ih, replay_evaluation]

/-- There is one evaluation for each correction. -/
theorem countP_isEvaluation : events.countP Event.isEvaluation = k := by
  induction h with
  | start => rfl
  | correct _ _ _ ih => rw [List.countP_append, ih, countP_isEvaluation_evaluation]

/-- Nothing is committed. -/
theorem countP_isCommit : events.countP Event.isCommit = 0 := by
  induction h with
  | start => rfl
  | correct _ _ _ ih => rw [List.countP_append, ih, countP_isCommit_evaluation]

/-- Nothing is reverted. -/
theorem countP_isRevert : events.countP Event.isRevert = 0 := by
  induction h with
  | start => rfl
  | correct _ _ _ ih => rw [List.countP_append, ih, countP_isRevert_evaluation]

/-- The first evaluation is at the displacement of the start. -/
theorem findSome?_displacement (later : List (Event n α)) :
    (events ++ evaluation m d s ++ later).findSome? Event.displacement? = some d₀ := by
  induction h generalizing later with
  | start => rfl
  | correct _ _ _ ih =>
    rw [List.append_assoc]
    exact ih _

/-- A fixed component stays at zero. -/
theorem get_fixed (hzero : (0 : α) + 0 = 0) {i : Fin n} (hi : (i.val : Int) ∈ inc.fixed)
    (h0 : d₀.get i = 0) : d.get i = 0 := by
  induction h with
  | start => exact h0
  | correct _ _ hcorrection ih =>
    rw [SystemVector.get_add, ih, solveLinear_get_fixed hcorrection hi, hzero]

end Approach

end Newton

end Corotation
