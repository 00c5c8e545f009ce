import Corotation.Proofs.System.Iteration
/-!
# The load increments of a run

An increment is an approach with its end. Where the approach has converged the model is committed,
where it is given up the model is reverted, and where it fails neither is done (`StepEnds`,
`loadStep_ends`). A run accepts one increment after the other, each from the displacement that
was accepted last (`Course`), up to the last one or to the first that is not accepted
(`solveNewton_cases`).
-/

namespace Corotation

namespace Newton

variable {σ α : Type} {n : Nat} {m : Model σ n α} {s : σ}

/-! ## Hooks -/

/-- The events of a call replay it, where they do what the hook does. -/
theorem replay_call {hook? : Option (σ → Outcome α σ Unit)} {event : Event n α}
    (heffect : event.effect m s = hook?.elim s fun hook => (hook s).state) :
    replay m s (call hook? event s).events = (call hook? event s).state := by
  cases hook? with
  | none => rfl
  | some hook =>
    change replay m (event.effect m s) ((hook s).notices.map .remarked) = (hook s).state
    rw [replay_remarks, heffect]
    rfl

/-- What a call counts for: the hook, if there is one and it counts. -/
theorem countP_call (p : Event n α → Bool) (hp : ∀ notice, p (.remarked notice) = false)
    (hook? : Option (σ → Outcome α σ Unit)) (event : Event n α) (s : σ) :
    (call hook? event s).events.countP p = if hook?.isSome ∧ p event then 1 else 0 := by
  cases hook? with
  | none => rfl
  | some hook =>
    change (event :: (hook s).notices.map .remarked).countP p = _
    rw [List.countP_cons, countP_remarks p hp, zero_add]
    simp

/-- A commit with a remark after it is at no displacement. -/
theorem findSome?_closing (hook? : Option (σ → Outcome α σ Unit)) (s : σ) (notice : Notice α) :
    ((call hook? (Event.committed (n := n)) s).events ++ [Event.remarked notice]).findSome?
      Event.displacement? = none := by
  cases hook? with
  | none => rfl
  | some hook =>
    change (((hook s).notices.map Event.remarked) ++ [Event.remarked notice]).findSome?
      (Event.displacement? (n := n)) = none
    rw [List.findSome?_append, findSome?_remarks]
    rfl

/-- To give up is to revert, whatever the cause. -/
theorem giveUp_eq (m : Model σ n α) (cause : Failure α) (s : σ) :
    let part : Part σ n α (Except (Failure α) Unit) := call m.revert? .reverted s
    giveUp m cause s = ⟨part.state, part.events, match part.ending with
      | .error e => e
      | .ok () => cause⟩ := by
  unfold giveUp
  cases h : (call m.revert? (Event.reverted (n := n)) s).ending with
  | error e => simp only [h]
  | ok _ => simp only [h]

/-! ## One increment -/

open Scalar

variable [Scalar α] {settings : Settings α} {F : Vector α n} {fixed : List Int}

/-- The increment with a given number, the held components being known. -/
def Settings.incrementAt (settings : Settings α) (F : Vector α n) (fixed : List Int)
    (held : List (Fin n)) (step : Nat) : Increment n α :=
  let load := SystemVector.scale (Scalar.ofNat step / Scalar.ofNat settings.steps) F
  ⟨load, settings.tolerance * larger (SystemVector.normList (SystemVector.without load held)) 1,
    held, fixed, settings.conditionLimit⟩

/-- There is an increment with a given number if the fixed components are ones that the system
has. -/
theorem increment_eq_ok_iff {step : Nat} {inc : Increment n α} :
    increment settings F fixed step = .ok inc
      ↔ ∃ held, resolve (α := α) n fixed = .ok held
        ∧ inc = settings.incrementAt F fixed held step := by
  unfold increment
  cases resolve (α := α) n fixed with
  | error e => exact ⟨nofun, by rintro ⟨_, h, -⟩; cases h⟩
  | ok held =>
    constructor
    · exact fun h => ⟨held, rfl, (Except.ok.inj h).symm⟩
    · rintro ⟨held', h, rfl⟩
      obtain rfl := Except.ok.inj h
      rfl

/-- Otherwise there is none, for the same cause. -/
theorem increment_eq_error_iff {step : Nat} {e : Failure α} :
    increment settings F fixed step = .error e ↔ resolve (α := α) n fixed = .error e := by
  unfold increment
  cases resolve (α := α) n fixed with
  | error e' => exact ⟨fun h => congrArg Except.error (Except.error.inj h),
      fun h => congrArg Except.error (Except.error.inj h)⟩
  | ok held => exact ⟨nofun, nofun⟩

/-- A component that the residual of an increment does not hold is free in its linear solve. -/
theorem notMem_fixed_of_notMem_held {step : Nat} {inc : Increment n α}
    (hinc : increment settings F fixed step = .ok inc) {k : Fin n} (hk : k ∉ inc.held) :
    (k.val : Int) ∉ inc.fixed := by
  obtain ⟨held, hheld, rfl⟩ := increment_eq_ok_iff.mp hinc
  exact fun hmem => hk ((mem_of_resolve hheld).mpr (.inl hmem))

variable [Conditioned α]

/-- **How an increment ends** after an approach with `k` corrections to the displacement `d` in the
state `s`. -/
inductive StepEnds (m : Model σ n α) (settings : Settings α) (inc : Increment n α) (step k : Nat)
    (d : Vector α n) (s : σ) (events : List (Event n α)) :
    Part σ n α (Except (Failure α) (Vector α n × Nat)) → Prop
  /-- It has converged and was committed. -/
  | accepted {done : Part σ n α (Except (Failure α) Unit)} :
      k < settings.iterations.toNat → Balances m inc d s →
      call m.commit? .committed (m.respond d s).state = done → done.ending = .ok () →
      StepEnds m settings inc step k d s events
        ⟨done.state, events ++ evaluation m d s ++ done.events
          ++ [.remarked (.converged step settings.steps (k + 1))], .ok (d, k + 1)⟩
  /-- It has converged, and to commit it has failed. -/
  | uncommitted {done : Part σ n α (Except (Failure α) Unit)} {e : Failure α} :
      k < settings.iterations.toNat → Balances m inc d s →
      call m.commit? .committed (m.respond d s).state = done → done.ending = .error e →
      StepEnds m settings inc step k d s events
        ⟨done.state, events ++ evaluation m d s ++ done.events, .error e⟩
  /-- It was given up when no evaluation was left. -/
  | exhausted {residual : Option α} {rest : Part σ n α (Failure α)} :
      k = settings.iterations.toNat →
      giveUp m (.divergence (.notConverged step settings.iterations residual inc.tolerance)) s
        = rest →
      StepEnds m settings inc step k d s events
        ⟨rest.state, events ++ rest.events, .error rest.ending⟩
  /-- It was given up at a singular tangent. -/
  | singular {response : Response n α} {limit : α} {rest : Part σ n α (Failure α)} :
      k < settings.iterations.toNat → Misses m inc d s response →
      inc.correction response = .error (.unstable limit) →
      giveUp m (.divergence (.singularTangent step (k + 1) limit)) (m.respond d s).state = rest →
      StepEnds m settings inc step k d s events
        ⟨rest.state, events ++ evaluation m d s ++ rest.events, .error rest.ending⟩
  /-- The linear solve has failed otherwise. -/
  | unsolved {response : Response n α} {e : Failure α} :
      k < settings.iterations.toNat → Misses m inc d s response →
      inc.correction response = .error e →
      (∀ limit, e ≠ .unstable limit) →
      StepEnds m settings inc step k d s events
        ⟨(m.respond d s).state, events ++ evaluation m d s, .error e⟩
  /-- The model has not answered. -/
  | unanswered {e : Failure α} :
      k < settings.iterations.toNat → (m.respond d s).result = .error e →
      StepEnds m settings inc step k d s events
        ⟨(m.respond d s).state, events ++ evaluation m d s, .error e⟩

variable {inc : Increment n α} {step k : Nat} {d : Vector α n} {events : List (Event n α)}

/-- **A load increment** is an approach and its end. -/
theorem loadStep_ends (m : Model σ n α) (hinc : increment settings F fixed step = .ok inc)
    (d : Vector α n) (s : σ) :
    ∃ k d' s' events, Approach m inc d s k d' s' events
      ∧ StepEnds m settings inc step k d' s' events (loadStep m settings F fixed step d s) := by
  obtain ⟨k, d', s', events, happroach, hends⟩ :=
    iterate_ends m inc settings.iterations.toNat d none s
  refine ⟨k, d', s', events, happroach, ?_⟩
  unfold loadStep
  simp only [hinc]
  generalize iterate m inc settings.iterations.toNat 1 d none s = part at hends
  cases hends with
  | exhausted residual hk => exact .exhausted hk rfl
  | converged hk hbalances =>
    cases hdone : (call m.commit? .committed (m.respond d' s').state).ending with
    | error e =>
      simp only
      exact .uncommitted hk hbalances rfl hdone
    | ok _ =>
      simp only
      exact .accepted hk hbalances rfl hdone
  | singular hk hmisses hcorrection => exact .singular hk hmisses hcorrection rfl
  | unsolved hk hmisses hcorrection he => exact .unsolved hk hmisses hcorrection he
  | unanswered hk hresult => exact .unanswered hk hresult

/-- An increment whose iterations have converged is accepted, unless to commit it fails. -/
theorem loadStep_of_converged (hinc : increment settings F fixed step = .ok inc) {s' : σ}
    {d' : Vector α n} {it : Nat}
    (hpart : iterate m inc settings.iterations.toNat 1 d none s = ⟨s', events, .converged d' it⟩)
    {done : Part σ n α (Except (Failure α) Unit)} (hdone : call m.commit? .committed s' = done)
    (hok : done.ending = .ok ()) :
    loadStep m settings F fixed step d s = ⟨done.state,
      events ++ done.events ++ [.remarked (.converged step settings.steps it)], .ok (d', it)⟩ := by
  simp only [loadStep, hinc, hpart, hdone, hok]

/-- An increment whose iterations have failed ends where they have. -/
theorem loadStep_of_failed (hinc : increment settings F fixed step = .ok inc) {s' : σ}
    {e : Failure α}
    (hpart : iterate m inc settings.iterations.toNat 1 d none s = ⟨s', events, .failed e⟩) :
    loadStep m settings F fixed step d s = ⟨s', events, .error e⟩ := by
  simp only [loadStep, hinc, hpart]

/-- **An accepted increment** has converged, and was committed if it can be. -/
theorem loadStep_accepted {d' : Vector α n} {it : Nat}
    (h : (loadStep m settings F fixed step d s).ending = .ok (d', it)) :
    ∃ inc k s' events, increment settings F fixed step = .ok inc ∧ Approach m inc d s k d' s' events
      ∧ k < settings.iterations.toNat ∧ Balances m inc d' s' ∧ it = k + 1
      ∧ let done := call m.commit? .committed (m.respond d' s').state
        done.ending = .ok () ∧ (loadStep m settings F fixed step d s).state = done.state
          ∧ (loadStep m settings F fixed step d s).events = events ++ (evaluation m d' s'
            ++ (done.events ++ [.remarked (.converged step settings.steps it)])) := by
  cases hinc : increment settings F fixed step with
  | error e =>
    simp only [loadStep, hinc] at h
    cases h
  | ok inc =>
    obtain ⟨k, d₁, s', events, happroach, hends⟩ := loadStep_ends m hinc d s
    generalize loadStep m settings F fixed step d s = part at h hends
    cases hends with
    | accepted hk hbalances hdone hok =>
      obtain ⟨rfl, rfl⟩ := Prod.mk.inj (Except.ok.inj h)
      subst hdone
      refine ⟨inc, k, s', events, rfl, happroach, hk, hbalances, rfl, hok, rfl, ?_⟩
      simp only [List.append_assoc]
    | _ => cases h

/-! ## A run -/

/-- **A course**: so many accepted increments from the undisplaced state, with what happened and
the iterations of each, and the displacement and the state that were reached. -/
inductive Course (m : Model σ n α) (settings : Settings α) (F : Vector α n) (fixed : List Int)
    (s₀ : σ) : Nat → Vector α n → σ → List (Event n α) → List Nat → Prop
  /-- No increment was made yet. -/
  | start : Course m settings F fixed s₀ 0 SystemVector.zero s₀ [] []
  /-- The next increment was accepted. -/
  | accept {k it : Nat} {d d' : Vector α n} {s : σ} {events : List (Event n α)} {its : List Nat} :
      Course m settings F fixed s₀ k d s events its →
      (loadStep m settings F fixed (k + 1) d s).ending = .ok (d', it) →
      Course m settings F fixed s₀ (k + 1) d' (loadStep m settings F fixed (k + 1) d s).state
        (events ++ (loadStep m settings F fixed (k + 1) d s).events) (its ++ [it])

/-- The increments end with one that is not accepted. -/
theorem loadSteps_of_error {e : Failure α}
    (h : (loadStep m settings F fixed step d s).ending = .error e) (remaining : Nat) :
    loadSteps m settings F fixed (remaining + 1) step d s
      = ⟨(loadStep m settings F fixed step d s).state,
        (loadStep m settings F fixed step d s).events, .error e⟩ := by
  simp only [loadSteps, h]

/-- They go on from one that is. -/
theorem loadSteps_of_ok {d' : Vector α n} {it : Nat}
    (h : (loadStep m settings F fixed step d s).ending = .ok (d', it)) (remaining : Nat) :
    let part := loadStep m settings F fixed step d s
    let rest := loadSteps m settings F fixed remaining (step + 1) d' part.state
    loadSteps m settings F fixed (remaining + 1) step d s = ⟨rest.state, part.events ++ rest.events,
      rest.ending.map fun (d, its) => (d, it :: its)⟩ := by
  simp only [loadSteps, h]

/-- The increments go on from where a course has come, up to the last one or to the first that is
not accepted. -/
theorem loadSteps_cases {s₀ : σ} {its : List Nat}
    (h : Course m settings F fixed s₀ k d s events its) (remaining : Nat) :
    let part := loadSteps m settings F fixed remaining (k + 1) d s
    (∃ d' its', part.ending = .ok (d', its')
        ∧ Course m settings F fixed s₀ (k + remaining) d' part.state (events ++ part.events)
          (its ++ its'))
      ∨ ∃ k' d' s' events' its' e, k' < k + remaining
        ∧ Course m settings F fixed s₀ k' d' s' events' its'
        ∧ let last := loadStep m settings F fixed (k' + 1) d' s'
          last.ending = .error e ∧ part.ending = .error e ∧ part.state = last.state
            ∧ events ++ part.events = events' ++ last.events := by
  -- on the increments that remain: an accepted one is one step more of the course
  induction remaining generalizing k d s events its with
  | zero =>
    refine .inl ⟨d, [], rfl, ?_⟩
    simpa [loadSteps] using h
  | succ remaining ih =>
    intro part
    cases hlast : (loadStep m settings F fixed (k + 1) d s).ending with
    | error e =>
      have hpart : part = _ := loadSteps_of_error hlast remaining
      rw [hpart]
      exact .inr ⟨k, d, s, events, its, e, by omega, h, hlast, rfl, rfl, rfl⟩
    | ok result =>
      obtain ⟨d₁, it⟩ := result
      have hcourse := h.accept hlast
      have hpart : part = _ := loadSteps_of_ok hlast remaining
      have hcount : k + 1 + remaining = k + (remaining + 1) := by omega
      rw [hpart, ← hcount]
      rcases ih hcourse with ⟨d', its', hending, hend⟩ |
        ⟨k', d', s', events', its', e, hk', hcourse', hlast', hending, hstate, hevents⟩
      · rw [List.append_assoc, List.append_assoc] at hend
        exact .inl ⟨d', it :: its', by rw [hending]; rfl, hend⟩
      · rw [List.append_assoc] at hevents
        exact .inr ⟨k', d', s', events', its', e, hk', hcourse', hlast', by rw [hending]; rfl,
          hstate, hevents⟩

/-- **A run** accepts all of its increments, or all before one that fails. -/
theorem solveNewton_cases (m : Model σ n α) (settings : Settings α) (F : Vector α n)
    (fixed : List Int) (s : σ) :
    let run := solveNewton m settings F fixed s
    (∃ d its, run.ending = .ok (d, its)
        ∧ Course m settings F fixed s settings.steps d run.state run.events its)
      ∨ ∃ k d s' events its e, k < settings.steps ∧ Course m settings F fixed s k d s' events its
        ∧ let last := loadStep m settings F fixed (k + 1) d s'
          last.ending = .error e ∧ run.ending = .error e ∧ run.state = last.state
            ∧ run.events = events ++ last.events := by
  have hstart : Course m settings F fixed s 0 SystemVector.zero s [] [] := .start
  have hcases := loadSteps_cases hstart settings.steps
  simp only [Nat.zero_add, List.nil_append] at hcases
  exact hcases

/-- A run that returns has accepted all of its increments. -/
theorem course_of_ok {its : List Nat}
    (h : (solveNewton m settings F fixed s).ending = .ok (d, its)) :
    let run := solveNewton m settings F fixed s
    Course m settings F fixed s settings.steps d run.state run.events its := by
  rcases solveNewton_cases m settings F fixed s with ⟨d', its', hok, hcourse⟩ |
    ⟨_, _, _, _, _, e, -, -, -, herror, -⟩
  · obtain ⟨rfl, rfl⟩ := Prod.mk.inj (Except.ok.inj (h.symm.trans hok))
    exact hcourse
  · cases h.symm.trans herror

/-! ## What a course keeps -/

namespace Course

variable {s₀ : σ} {its : List Nat} (h : Course m settings F fixed s₀ k d s events its)

include h

/-- The state is what happened to the model. -/
theorem replay_eq : replay m s₀ events = s := by
  induction h with
  | start => rfl
  | accept _ hlast ih =>
    obtain ⟨inc, k', s', events', -, happroach, -, -, -, -, hstate, hevents⟩ :=
      loadStep_accepted hlast
    rw [hevents, hstate, replay_append, ih, replay_append, happroach.replay_eq, replay_append,
      replay_evaluation, replay_append, replay_call rfl]
    rfl

/-- There is one commit for each increment, if the model can be committed. -/
theorem countP_isCommit :
    events.countP Event.isCommit = if m.commit?.isSome then k else 0 := by
  induction h with
  | start => simp
  | accept _ hlast ih =>
    obtain ⟨inc, k', s', events', -, happroach, -, -, -, -, -, hevents⟩ := loadStep_accepted hlast
    rw [hevents]
    simp only [List.countP_append, ih, happroach.countP_isCommit, countP_isCommit_evaluation,
      countP_call Event.isCommit fun _ => rfl]
    cases m.commit? with
    | none => rfl
    | some hook => simp [Event.isCommit]

/-- Nothing is reverted. -/
theorem countP_isRevert : events.countP Event.isRevert = 0 := by
  induction h with
  | start => rfl
  | accept _ hlast ih =>
    obtain ⟨inc, k', s', events', -, happroach, -, -, -, -, -, hevents⟩ := loadStep_accepted hlast
    rw [hevents]
    simp [List.countP_append, ih, happroach.countP_isRevert,
      countP_call Event.isRevert fun _ => rfl, Event.isRevert]

/-- Each increment has its number of iterations. -/
theorem length_eq : its.length = k := by
  induction h with
  | start => rfl
  | accept _ _ ih => rw [List.length_append, ih, List.length_singleton]

/-- It has at least one, and not more than are allowed. -/
theorem mem_iterations {it : Nat} (hit : it ∈ its) :
    1 ≤ it ∧ it ≤ settings.iterations.toNat := by
  induction h with
  | start => cases hit
  | accept _ hlast ih =>
    obtain ⟨_, k', _, _, -, -, hk', -, rfl, -⟩ := loadStep_accepted hlast
    rcases List.mem_append.mp hit with hit | hit
    · exact ih hit
    · obtain rfl := List.mem_singleton.mp hit
      omega

/-- Together they are the evaluations. -/
theorem sum_iterations : its.sum = events.countP Event.isEvaluation := by
  induction h with
  | start => rfl
  | accept _ hlast ih =>
    obtain ⟨inc, k', s', events', -, happroach, -, -, rfl, -, -, hevents⟩ := loadStep_accepted hlast
    rw [hevents]
    simp [List.countP_append, ih, happroach.countP_isEvaluation,
      countP_call Event.isEvaluation fun _ => rfl, Event.isEvaluation, Event.displacement?]

/-- A fixed component is at zero. -/
theorem get_fixed (hzero : (0 : α) + 0 = 0) {i : Fin n} (hi : (i.val : Int) ∈ fixed) :
    d.get i = 0 := by
  induction h with
  | start => exact SystemVector.get_zero i
  | accept _ hlast ih =>
    obtain ⟨inc, k', s', events', hinc, happroach, -⟩ := loadStep_accepted hlast
    obtain ⟨held, -, rfl⟩ := increment_eq_ok_iff.mp hinc
    exact happroach.get_fixed hzero hi ih

end Course

end Newton

end Corotation
