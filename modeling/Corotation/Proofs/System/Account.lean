import Corotation.Proofs.System.Rollback
/-!
# What a run of load increments accounts for

Where a run returns, each increment has converged and was committed then: the model was evaluated
last at the displacement that the run went on from, and its residual on the free components was
small against the load there (`Account`). Where a run gives an increment up, all increments before
it were committed, and the model was reverted after that, once and last (`GivenUp`).
-/

namespace Corotation

namespace Newton

open Scalar

variable {σ α : Type} {n : Nat} [Scalar α]

/-! ## Residuals and loads -/

/-- The load on a component in the increment with a given number. -/
def loadAt (settings : Settings α) (F : Vector α n) (step : Nat) (i : Fin n) : α :=
  Scalar.ofNat step / Scalar.ofNat settings.steps * F.get i

/-- The load on the free components. -/
def freeLoad (settings : Settings α) (F : Vector α n) (fixed : List Int) (step : Nat) : List α :=
  (freeComponents n fixed).map (loadAt settings F step)

/-- What the resisting forces leave of the load: nothing at a fixed component. -/
def freeResidual (settings : Settings α) (F : Vector α n) (fixed : List Int) (step : Nat)
    (force : Vector α n) : Vector α n :=
  Vector.ofFn fun i => if (i.val : Int) ∈ fixed then 0 else loadAt settings F step i - force.get i

/-- The model answers at a displacement, and what its forces leave of the load of an increment is
small against that load. -/
def IsBalanced (m : Model σ n α) (settings : Settings α) (F : Vector α n) (fixed : List Int)
    (step : Nat) (d : Vector α n) (s : σ) : Prop :=
  ∃ response, (m.respond d s).result = .ok response
    ∧ SystemVector.norm (freeResidual settings F fixed step response.force)
      ≤ settings.tolerance * larger (SystemVector.normList (freeLoad settings F fixed step)) 1

variable {m : Model σ n α} {settings : Settings α} {F : Vector α n} {fixed : List Int}

omit [Scalar α] in
/-- Numbers from the range of the system name components by their own numbers only. -/
theorem mem_held_iff (hfixed : ∀ i ∈ fixed, 0 ≤ i ∧ i < n) {held : List (Fin n)}
    (h : resolve (α := α) n fixed = .ok held) {k : Fin n} : k ∈ held ↔ (k.val : Int) ∈ fixed := by
  rw [mem_of_resolve h]
  refine ⟨fun hk => hk.resolve_right fun hback => ?_, .inl⟩
  have hrange := hfixed _ hback
  omega

/-- The increment with a given number has that load, and measures that residual by it. -/
theorem increment_spec (hfixed : ∀ i ∈ fixed, 0 ≤ i ∧ i < n) {step : Nat} {inc : Increment n α}
    (h : increment settings F fixed step = .ok inc) :
    (∀ response, inc.residual response = freeResidual settings F fixed step response.force)
      ∧ inc.tolerance
        = settings.tolerance
          * larger (SystemVector.normList (freeLoad settings F fixed step)) 1 := by
  obtain ⟨held, hheld, rfl⟩ := increment_eq_ok_iff.mp h
  have hmem (k : Fin n) : k ∈ held ↔ (k.val : Int) ∈ fixed := mem_held_iff hfixed hheld
  constructor
  · intro response
    refine SystemVector.ext_get fun k => ?_
    have hfree : (freeResidual settings F fixed step response.force).get k = _ :=
      Vector.getElem_ofFn k.isLt
    rw [hfree, Increment.get_residual]
    change (if _ then _ else (SystemVector.scale _ F).get _ - _) = _
    rw [SystemVector.get_scale]
    simp only [Settings.incrementAt, hmem]
    rfl
  · have hload : SystemVector.without (settings.incrementAt F fixed held step).load held
        = freeLoad settings F fixed step := by
      rw [SystemVector.without_eq, freeLoad, freeComponents]
      have hfilter : ((List.finRange n).filter fun i => i ∉ held)
          = (List.finRange n).filter fun i => !fixed.contains (i.val : Int) :=
        List.filter_congr fun i _ => by simp [hmem]
      rw [hfilter]
      exact List.map_congr_left fun i _ => SystemVector.get_scale _ F i
    change settings.tolerance * larger (SystemVector.normList (SystemVector.without
      (settings.incrementAt F fixed held step).load held)) 1 = _
    rw [hload]

/-- Numbers from the range of the system are resolved. -/
theorem exists_increment (hfixed : ∀ i ∈ fixed, 0 ≤ i ∧ i < n) (step : Nat) :
    ∃ inc, increment settings F fixed step = .ok inc := by
  obtain ⟨held, hheld⟩ : ∃ held, resolve (α := α) n fixed = .ok held :=
    exists_resolve fun i hi => ⟨by have := hfixed i hi; omega, (hfixed i hi).2⟩
  exact ⟨_, increment_eq_ok_iff.mpr ⟨held, hheld, rfl⟩⟩

/-- An increment that balances is balanced. -/
theorem Balances.isBalanced (hfixed : ∀ i ∈ fixed, 0 ≤ i ∧ i < n) {step : Nat} {inc : Increment n α}
    (hinc : increment settings F fixed step = .ok inc) {d : Vector α n} {s : σ}
    (h : Balances m inc d s) : IsBalanced m settings F fixed step d s := by
  obtain ⟨response, hanswers, hsmall⟩ := h
  obtain ⟨hresidual, htolerance⟩ := increment_spec hfixed hinc
  rw [hresidual, htolerance] at hsmall
  exact ⟨response, hanswers, hsmall⟩

/-! ## Accepted increments -/

/-- **What is known of `k` accepted increments** to the displacement `d` in the state `s`. Where the
model was committed, the latest evaluation was at the displacement from which the next one goes on,
or at `d` if there is none, and was balanced against the load of that increment. -/
structure Account (m : Model σ n α) (settings : Settings α) (F : Vector α n) (fixed : List Int)
    (s₀ : σ) (k : Nat) (d : Vector α n) (s : σ) (events : List (Event n α)) (its : List Nat) :
    Prop where
  state : s = replay m s₀ events
  length : its.length = k
  bounds : ∀ it ∈ its, 1 ≤ it ∧ (it : Int) ≤ settings.iterations
  evaluations : its.sum = events.countP Event.isEvaluation
  held : ∀ i : Fin n, (i.val : Int) ∈ fixed → d.get i = 0
  commits : events.countP Event.isCommit = if m.commit?.isSome then k else 0
  reverts : events.countP Event.isRevert = 0
  committed : ∀ before after, events = before ++ .committed :: after →
    ∃ earlier d', before = earlier ++ evaluation m d' (replay m s₀ earlier)
      ∧ (after.findSome? Event.displacement?).getD d = d'
      ∧ IsBalanced m settings F fixed (before.countP Event.isCommit + 1) d' (replay m s₀ earlier)
  last : 0 < k → ∃ earlier later,
    events = earlier ++ (evaluation m d (replay m s₀ earlier) ++ later)
      ∧ later.findSome? Event.displacement? = none
      ∧ IsBalanced m settings F fixed k d (replay m s₀ earlier)

/-- A list split at one of its members is split within its first part or within its second. -/
theorem append_eq_append_cons {β : Type} {xs ys before after : List β} {b : β}
    (h : xs ++ ys = before ++ b :: after) :
    (∃ c, xs = before ++ b :: c ∧ after = c ++ ys)
      ∨ ∃ c, before = xs ++ c ∧ ys = c ++ b :: after := by
  rcases List.append_eq_append_iff.mp h with ⟨c, hbefore, hys⟩ | ⟨c, hxs, hafter⟩
  · exact .inr ⟨c, hbefore, hys⟩
  · cases c with
    | nil => exact .inr ⟨[], by simpa using hxs.symm, by simpa using hafter.symm⟩
    | cons c cs =>
      obtain ⟨rfl, rfl⟩ := List.cons.inj hafter
      exact .inl ⟨cs, hxs, rfl⟩

variable [Conditioned α] {s s₀ : σ} {k : Nat} {d : Vector α n} {events : List (Event n α)}
variable {its : List Nat}

/-- A commit of an accepted increment comes after its last evaluation, and only remarks follow. -/
theorem split_of_commit {inc : Increment n α} {k' : Nat} {d' : Vector α n} {s' : σ}
    {events' : List (Event n α)} (happroach : Approach m inc d s k' d' s' events')
    (notice : Notice α) {before after : List (Event n α)}
    (h : events' ++ (evaluation m d' s'
      ++ ((call m.commit? .committed (m.respond d' s').state).events ++ [.remarked notice]))
        = before ++ .committed :: after) :
    m.commit?.isSome ∧ before = events' ++ evaluation m d' s'
      ∧ after.findSome? Event.displacement? = none := by
  have hcount : (call m.commit? (Event.committed (n := n)) (m.respond d' s').state).events.countP
      Event.isCommit = before.countP Event.isCommit + (after.countP Event.isCommit + 1) := by
    have hcount := congrArg (List.countP Event.isCommit) h
    have hcons : (Event.committed :: after).countP Event.isCommit
        = after.countP Event.isCommit + 1 := List.countP_cons_of_pos rfl
    simpa [List.countP_append, hcons, happroach.countP_isCommit, Event.isCommit] using hcount
  have hnot {l : List (Event n α)} (hl : l.countP Event.isCommit = 0) : Event.committed ∉ l :=
    fun hmem => List.countP_eq_zero.mp hl _ hmem rfl
  rw [countP_call Event.isCommit fun _ => rfl] at hcount
  cases hcommit : m.commit? with
  | none =>
    rw [hcommit, if_neg fun h => Bool.false_ne_true h.1] at hcount
    omega
  | some hook =>
    have hother : (events' ++ evaluation m d' s').countP Event.isCommit = 0 := by
      rw [List.countP_append, happroach.countP_isCommit, countP_isCommit_evaluation]
    set notices := (hook (m.respond d' s').state).notices ++ [notice]
    have hsplit : (events' ++ evaluation m d' s') ++ .committed :: notices.map .remarked
        = before ++ .committed :: after := by
      rw [← h, hcommit, List.append_assoc, List.map_append]
      rfl
    obtain ⟨rfl, -, rfl⟩ := (List.append_cons_inj_of_notMem (hnot hother)
      (hnot (countP_remarks _ (fun _ => rfl) notices))).mp hsplit
    exact ⟨rfl, rfl, findSome?_remarks notices⟩

/-- **At every commit of a course** the latest evaluation was balanced, at the displacement from
which the course goes on. -/
theorem Course.committed_balanced (hfixed : ∀ i ∈ fixed, 0 ≤ i ∧ i < n)
    (h : Course m settings F fixed s₀ k d s events its) {before after : List (Event n α)}
    (hsplit : events = before ++ .committed :: after) :
    ∃ earlier d', before = earlier ++ evaluation m d' (replay m s₀ earlier)
      ∧ (after.findSome? Event.displacement?).getD d = d'
      ∧ IsBalanced m settings F fixed (before.countP Event.isCommit + 1) d'
        (replay m s₀ earlier) := by
  induction h generalizing before after with
  | start => cases List.append_ne_nil_of_right_ne_nil before (List.cons_ne_nil _ after) hsplit.symm
  | @accept k it d d' s events its hcourse hlast ih =>
    obtain ⟨inc, k', s', events', hinc, happroach, -, hbalances, -, -, -, hevents⟩ :=
      loadStep_accepted hlast
    rw [hevents] at hsplit
    rcases append_eq_append_cons hsplit with ⟨after', hold, rfl⟩ | ⟨before', rfl, hnew⟩
    · -- an earlier commit: the next evaluation may be the first one of this increment
      obtain ⟨earlier, d₁, hbefore, hnext, hbalanced⟩ := ih hold
      refine ⟨earlier, d₁, hbefore, ?_, hbalanced⟩
      have hfirst := happroach.findSome?_displacement
      simp only [List.append_assoc] at hfirst
      rw [List.findSome?_append, hfirst, ← hnext]
      cases after'.findSome? Event.displacement? <;> rfl
    · -- the commit of this increment
      obtain ⟨hsome, rfl, hnone⟩ := split_of_commit happroach _ hnew
      have hs' : replay m s₀ (events ++ events') = s' := by
        rw [replay_append, hcourse.replay_eq, happroach.replay_eq]
      have hcount : (events ++ (events' ++ evaluation m d' s')).countP Event.isCommit = k := by
        rw [List.countP_append, List.countP_append, hcourse.countP_isCommit,
          happroach.countP_isCommit, countP_isCommit_evaluation, if_pos hsome, add_zero, add_zero]
      refine ⟨events ++ events', d', ?_, ?_, ?_⟩
      · rw [hs', List.append_assoc]
      · rw [hnone]
        rfl
      · rw [hcount, hs']
        exact hbalances.isBalanced hfixed hinc

/-- **The last evaluation of a course** was balanced, at the displacement that it has come to. -/
theorem Course.last_balanced (hfixed : ∀ i ∈ fixed, 0 ≤ i ∧ i < n)
    (h : Course m settings F fixed s₀ k d s events its) (hk : 0 < k) :
    ∃ earlier later, events = earlier ++ (evaluation m d (replay m s₀ earlier) ++ later)
      ∧ later.findSome? Event.displacement? = none
      ∧ IsBalanced m settings F fixed k d (replay m s₀ earlier) := by
  cases h with
  | start => cases hk
  | @accept k it d₁ _ s events its hcourse hlast =>
    obtain ⟨inc, k', s', events', hinc, happroach, -, hbalances, -, -, -, hevents⟩ :=
      loadStep_accepted hlast
    have hs' : replay m s₀ (events ++ events') = s' := by
      rw [replay_append, hcourse.replay_eq, happroach.replay_eq]
    refine ⟨events ++ events', (call m.commit? .committed (m.respond d s').state).events
      ++ [.remarked (.converged (k + 1) settings.steps it)], ?_, findSome?_closing _ _ _, ?_⟩
    · rw [hevents, hs', List.append_assoc]
    · rw [hs']
      exact hbalances.isBalanced hfixed hinc

/-- **What a course accounts for.** -/
theorem Course.account (hzero : (0 : α) + 0 = 0) (hfixed : ∀ i ∈ fixed, 0 ≤ i ∧ i < n)
    (h : Course m settings F fixed s₀ k d s events its) :
    Account m settings F fixed s₀ k d s events its where
  state := h.replay_eq.symm
  length := h.length_eq
  bounds it hit := by
    obtain ⟨hpos, hle⟩ := h.mem_iterations hit
    omega
  evaluations := h.sum_iterations
  held i hi := h.get_fixed hzero hi
  commits := h.countP_isCommit
  reverts := h.countP_isRevert
  committed _ _ hsplit := h.committed_balanced hfixed hsplit
  last hk := h.last_balanced hfixed hk

/-! ## Increments that are given up -/

/-- In the course of the events a function of the model that was called has failed with `e`. -/
def Raised (m : Model σ n α) (s₀ : σ) (events : List (Event n α)) (e : Failure α) : Prop :=
  ∃ before event after, events = before ++ event :: after ∧ event.Fails m (replay m s₀ before) e

/-- A run is interrupted by a function of the model, by the linear solve, or before anything has
happened. -/
theorem Interrupted.cases_cause {e : Failure α} (h : Interrupted m fixed s₀ events e) :
    Raised m s₀ events e ∨ e = .fault .decomposition ∨ resolve n fixed = .error e := by
  cases h with
  | unnamed he => exact .inr (.inr he)
  | unanswered _ hresult => exact .inl ⟨_, _, _, rfl, hresult⟩
  | unsolved _ _ _ he => exact .inr (.inl he)
  | uncommitted _ hcommit hresult => exact .inl ⟨_, _, _, rfl, _, hcommit, hresult⟩

omit [Scalar α] [Conditioned α] in
/-- A run that was given up has the cause of its increment, unless the revert has failed. -/
theorem GivenUp.step_eq {c : Divergence α} (h : GivenUp m s₀ k s events (.divergence c))
    (hraised : ¬ Raised m s₀ events (.divergence c)) : c.step = k + 1 := by
  have hcause : ∃ c', Failure.divergence c = .divergence c' ∧ c'.step = k + 1 := by
    cases hrevert : m.revert? with
    | none => exact (h.kept hrevert).2
    | some hook =>
      obtain ⟨before, -, hevents, hfailed | ⟨-, hcause⟩⟩ := h.reverted hook hrevert
      · exact absurd ⟨before, _, _, hevents, hook, hrevert, hfailed⟩ hraised
      · exact hcause
  obtain ⟨c', hc, hstep⟩ := hcause
  obtain rfl := Failure.divergence.inj hc
  exact hstep

/-- Where no iteration is allowed no increment is accepted. -/
theorem Course.eq_zero (h : Course m settings F fixed s₀ k d s events its)
    (hiterations : settings.iterations ≤ 0) : k = 0 := by
  have hlength := h.length_eq
  cases its with
  | nil => exact hlength.symm
  | cons it its =>
    obtain ⟨hpos, hle⟩ := h.mem_iterations List.mem_cons_self
    omega

/-- Where no iteration is allowed the first increment is given up before anything is evaluated. -/
theorem solveNewton_of_iterations_nonpos (hfixed : ∀ i ∈ fixed, 0 ≤ i ∧ i < n)
    (hsteps : 0 < settings.steps) (hiterations : settings.iterations ≤ 0) (s : σ) :
    (solveNewton m settings F fixed s).events = (call m.revert? .reverted s).events
      ∧ ∃ e, (solveNewton m settings F fixed s).ending = .error e := by
  rcases solveNewton_cases m settings F fixed s with ⟨d, its, -, hcourse⟩ |
    ⟨k, d, s', events, its, e, -, hcourse, -, herror, -, hevents⟩
  · have := hcourse.eq_zero hiterations
    omega
  · refine ⟨?_, e, herror⟩
    obtain rfl := hcourse.eq_zero hiterations
    cases hcourse
    obtain ⟨inc, hinc⟩ : ∃ inc, increment settings F fixed (0 + 1) = .ok inc :=
      exists_increment hfixed (0 + 1)
    obtain ⟨k', d', s', events', happroach, hends⟩ := loadStep_ends m hinc SystemVector.zero s
    rw [hevents, List.nil_append]
    generalize loadStep m settings F fixed (0 + 1) SystemVector.zero s = last at hends ⊢
    cases hends with
    | exhausted hk hrest =>
      obtain rfl : k' = 0 := by omega
      cases happroach
      rw [giveUp_eq] at hrest
      subst hrest
      rfl
    | _ => omega

/-- **What a run accounts for.** Where it returns, it has made all of its increments, and each has
its number of iterations, within the limit; together they are the evaluations. The displacement is
zero at the fixed components. The model was committed once for each increment and never reverted,
and at every commit its latest evaluation was the one at the accepted displacement, with a residual
that is small against the load of that increment. A divergence that no function of the model has
raised is that of an increment which the run has given up: those before it were committed, and the
model was reverted after that, once and last, also if no iteration was allowed. -/
theorem solveNewton_account (hzero : (0 : α) + 0 = 0) (m : Model σ n α) (settings : Settings α)
    (F : Vector α n) (hfixed : ∀ i ∈ fixed, 0 ≤ i ∧ i < n) (s : σ) :
    let run := solveNewton m settings F fixed s
    (∀ d its, run.ending = .ok (d, its) →
        Account m settings F fixed s settings.steps d run.state run.events its)
      ∧ (∀ c, run.ending = .error (.divergence c) → ¬ Raised m s run.events (.divergence c) →
        ∃ k < settings.steps, c.step = k + 1 ∧ GivenUp m s k run.state run.events (.divergence c))
      ∧ (0 < settings.steps → settings.iterations ≤ 0 →
        run.events = (call m.revert? .reverted s).events ∧ ∃ e, run.ending = .error e) := by
  intro run
  refine ⟨fun d its hending => (course_of_ok hending).account hzero hfixed, ?_,
    fun hsteps hiterations => solveNewton_of_iterations_nonpos hfixed hsteps hiterations s⟩
  · intro c hending hraised
    rcases (solveNewton_failed hending).2 with ⟨k, hk, hgivenUp⟩ | hinterrupted
    · exact ⟨k, hk, hgivenUp.step_eq hraised, hgivenUp⟩
    · rcases hinterrupted.cases_cause with hfailed | hfault | hresolve
      · exact absurd hfailed hraised
      · cases hfault
      · obtain ⟨inc, hinc⟩ : ∃ inc, increment settings F fixed 1 = .ok inc :=
          exists_increment hfixed 1
        cases hinc.symm.trans (increment_eq_error_iff.mpr hresolve)

/-- A bar that is pulled in two increments, and one that is given no iteration for it. -/
theorem solveNewton_account_bar :
    letI : SeriesAngle := .exact
    let pulled := solveNewton Bar.model (Bar.settings 2 25) (Bar.stretched 2) [0] Bar.rest
    let given := solveNewton Bar.model (Bar.settings 2 0) (Bar.stretched 2) [0] Bar.rest
    Account Bar.model (Bar.settings 2 25) (Bar.stretched 2) [0] Bar.rest 2 (Bar.stretched 2)
        pulled.state pulled.events [2, 2]
      ∧ GivenUp Bar.model Bar.rest 0 given.state given.events
        (.divergence (.notConverged 1 0 none 0))
      ∧ given.events = [.reverted] := by
  let _ : SeriesAngle := .exact
  have hzero : (0 : ℝ) + 0 = 0 := add_zero 0
  have hfixed : ∀ i ∈ [(0 : Int)], 0 ≤ i ∧ i < (2 : Nat) := by decide
  have hpulled : (solveNewton Bar.model (Bar.settings 2 25) (Bar.stretched 2) [0] Bar.rest).ending
      = .ok (Bar.stretched 2, [2, 2]) :=
    Bar.solveNewton_pulled two_pos two_pos (by decide) Bar.rest
  have hgiven : (solveNewton Bar.model (Bar.settings 2 0) (Bar.stretched 2) [0] Bar.rest).ending
      = .error (.divergence (.notConverged 1 0 none 0)) :=
    congrArg Part.ending (Bar.solveNewton_exhausted 1 2 Bar.rest)
  obtain ⟨hreturns, -, -⟩ := solveNewton_account hzero Bar.model (Bar.settings 2 25)
    (Bar.stretched 2) hfixed Bar.rest
  obtain ⟨-, hgivenUp, hnone⟩ := solveNewton_account hzero Bar.model (Bar.settings 2 0)
    (Bar.stretched 2) hfixed Bar.rest
  refine ⟨hreturns _ _ hpulled, ?_, (hnone two_pos le_rfl).1⟩
  obtain ⟨k, -, hstep, h⟩ := hgivenUp _ hgiven
    fun ⟨_, event, _, _, hfails⟩ => Bar.not_fails event _ _ hfails
  obtain rfl : k = 0 := (Nat.succ.inj hstep).symm
  exact h

end Newton

end Corotation
