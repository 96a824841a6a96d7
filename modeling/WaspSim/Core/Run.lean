import WaspSim.Core.Checked

/-!
# Runs of a checked transition function

A run takes one action after another, each of which must meet a guard and stop
at no assertion. An invariant of every step is an invariant of every reached
state. A transition function that emits events is run on pairs of a state and
the events so far.
-/

universe u

namespace WaspSim

variable {ε : Type u} {σ α β : Type}

/-- The states reached from `s₀` by steps that meet `guard`. -/
inductive Reaches (step : σ → α → Except ε σ) (guard : σ → α → Prop) (s₀ : σ) : σ → Prop
  | start : Reaches step guard s₀ s₀
  | next {s s' : σ} {a : α} : Reaches step guard s₀ s → guard s a → step s a = .ok s' →
      Reaches step guard s₀ s'

/-- One guarded step, which stops with `e` when the guard fails. -/
def guarded (step : σ → α → Except ε σ) (guard : σ → α → Prop) [∀ s a, Decidable (guard s a)]
    (e : ε) (s : σ) (a : α) : Except ε σ := do
  require e (guard s a)
  step s a

/-- One step of an event-emitting transition function on a state and its log. -/
def logged (step : σ → α → Except ε (σ × List β)) (s : σ × List β) (a : α) :
    Except ε (σ × List β) := do
  let (s', es) ← step s.1 a
  pure (s', s.2 ++ es)

/-- A logged step is a step, with its events behind the others. -/
theorem logged_eq_ok {step : σ → α → Except ε (σ × List β)} {s s' : σ × List β} {a : α} :
    logged step s a = .ok s' ↔
      ∃ es, step s.1 a = .ok (s'.1, es) ∧ s'.2 = s.2 ++ es := by
  obtain ⟨s', log'⟩ := s'
  simp only [logged, bind_eq_ok, pure_eq_ok, Prod.exists, Prod.mk.injEq]
  constructor
  · rintro ⟨m, es, hstep, rfl, rfl⟩
    exact ⟨es, hstep, rfl⟩
  · rintro ⟨es, hstep, rfl⟩
    exact ⟨s', es, hstep, rfl, rfl⟩

namespace Reaches

variable {step : σ → α → Except ε σ} {guard : σ → α → Prop} {s₀ s s' : σ}

/-- The invariant rule: what holds at the start and is kept by every guarded step
holds in every reached state. -/
theorem invariant (I : σ → Prop) (hstart : I s₀)
    (hstep : ∀ s a s', I s → guard s a → step s a = .ok s' → I s')
    (h : Reaches step guard s₀ s) : I s := by
  induction h with
  | start => exact hstart
  | next _ hg hs ih => exact hstep _ _ _ ih hg hs

/-- A weaker guard reaches no fewer states. -/
theorem mono {guard' : σ → α → Prop} (hle : ∀ s a, guard s a → guard' s a)
    (h : Reaches step guard s₀ s) : Reaches step guard' s₀ s := by
  induction h with
  | start => exact .start
  | next _ hg hs ih => exact .next ih (hle _ _ hg) hs

/-- Executing a list of guarded actions is a run. -/
theorem of_foldlM [∀ s a, Decidable (guard s a)] {e : ε} {as : List α}
    (h : as.foldlM (guarded step guard e) s₀ = .ok s) : Reaches step guard s₀ s := by
  refine foldlM_invariant (Reaches step guard s₀) (fun m a m' _ hm hf => ?_) h .start
  simp only [guarded, bind_eq_ok, require_eq_ok] at hf
  obtain ⟨_, hg, hs⟩ := hf
  exact .next hm hg hs

/-- Executing a list of guarded actions reaches a state, which may be tested. -/
theorem exists_of_foldlM [∀ s a, Decidable (guard s a)] {e : ε} (as : List α) {P : σ → Prop}
    [DecidablePred P]
    (h : ((as.foldlM (guarded step guard e) s₀).toOption.any fun s => decide (P s)) = true) :
    ∃ s, Reaches step guard s₀ s ∧ P s := by
  cases hrun : as.foldlM (guarded step guard e) s₀ with
  | error e' =>
    rw [hrun] at h
    cases h
  | ok s =>
    rw [hrun] at h
    exact ⟨s, of_foldlM hrun, by simpa [Except.toOption] using h⟩

end Reaches

/-- Every step that a list of actions takes from a state meets `P`. -/
def Along (step : σ → α → Except ε σ) (P : σ → α → Prop) : List α → σ → Prop
  | [], _ => True
  | a :: as, s => ∀ s', step s a = .ok s' → P s a ∧ Along step P as s'

namespace Along

variable {step : σ → α → Except ε σ} {P Q : σ → α → Prop} {s₀ s : σ}

/-- Conditions that agree on the steps from reached states agree along runs. -/
theorem congr (hPQ : ∀ s a s', Reaches step (fun _ _ => True) s₀ s → step s a = .ok s' →
    (P s a ↔ Q s a)) (as : List α) : Along step P as s₀ ↔ Along step Q as s₀ := by
  suffices hall : ∀ s, Reaches step (fun _ _ => True) s₀ s →
      (Along step P as s ↔ Along step Q as s) by
    exact hall s₀ .start
  induction as with
  | nil =>
    intro s _
    exact Iff.rfl
  | cons a as ih =>
    intro s hs
    refine forall_congr' fun s' => forall_congr' fun hstep => ?_
    exact and_congr (hPQ s a s' hs hstep) (ih s' (.next hs trivial hstep))

/-- Conditions that agree as long as an invariant holds, which the second one keeps, agree
along runs. -/
theorem iff_of_invariant (I : σ → Prop) (hstep : ∀ s a s', I s → step s a = .ok s' →
    (P s a ↔ Q s a) ∧ (Q s a → I s')) (as : List α) (hs : I s₀) :
    Along step P as s₀ ↔ Along step Q as s₀ := by
  induction as generalizing s₀ with
  | nil => exact Iff.rfl
  | cons a as ih =>
    refine forall_congr' fun s' => forall_congr' fun hs' => ?_
    obtain ⟨hiff, hkept⟩ := hstep s₀ a s' hs hs'
    constructor
    · rintro ⟨hP, hrest⟩
      have hQ := hiff.mp hP
      exact ⟨hQ, (ih (hkept hQ)).mp hrest⟩
    · rintro ⟨hQ, hrest⟩
      exact ⟨hiff.mpr hQ, (ih (hkept hQ)).mpr hrest⟩

/-- The step after a successful prefix meets the condition. -/
theorem of_append (as bs : List α) {a : α} (h : Along step P (as ++ a :: bs) s₀)
    (has : as.foldlM step s₀ = .ok s) {s' : σ} (hstep : step s a = .ok s') : P s a := by
  induction as generalizing s₀ with
  | nil =>
    obtain rfl : s₀ = s := foldlM_nil_eq_ok.mp has
    exact (h s' hstep).1
  | cons b as ih =>
    obtain ⟨m, hb, has⟩ := foldlM_cons_eq_ok.mp has
    exact ih (h m hb).2 has

end Along

/-- Feed a list of calls to a step function, collecting the replies. -/
def replay {m : Type → Type} [Monad m] {σ γ ρ : Type} (step : σ → γ → m (σ × ρ)) :
    σ → List γ → m (σ × List ρ)
  | s, [] => pure (s, [])
  | s, c :: cs => do
    let (s, r) ← step s c
    let (s, rs) ← replay step s cs
    pure (s, r :: rs)

/-- The simulation rule: when every call that the specification accepts succeeds
with the same reply and keeps `R`, so does every accepted list of calls. -/
theorem replay_simulates {ε τ σ γ ρ : Type} {impl : σ → γ → Except ε (σ × ρ)}
    {spec : τ → γ → Option (τ × ρ)} (R : σ → τ → Prop)
    (hstep : ∀ s a c a' r, R s a → spec a c = some (a', r) →
      ∃ s', impl s c = .ok (s', r) ∧ R s' a')
    {s : σ} {a a' : τ} {cs : List γ} {rs : List ρ} (hR : R s a)
    (h : replay spec a cs = some (a', rs)) :
    ∃ s', replay impl s cs = .ok (s', rs) ∧ R s' a' := by
  induction cs generalizing s a rs with
  | nil =>
    simp only [replay, Option.pure_def, Option.some.injEq, Prod.mk.injEq] at h
    obtain ⟨rfl, rfl⟩ := h
    exact ⟨s, rfl, hR⟩
  | cons c cs ih =>
    simp only [replay, Option.bind_eq_bind, Option.bind_eq_some_iff, Option.pure_def,
      Option.some.injEq, Prod.exists, Prod.mk.injEq] at h
    obtain ⟨b, r, hc, b', rs', hcs, rfl, rfl⟩ := h
    obtain ⟨m, hm, hRm⟩ := hstep s a c b r hR hc
    obtain ⟨s', hs', hR'⟩ := ih hRm hcs
    exact ⟨s', by simp [replay, hm, hs'], hR'⟩

end WaspSim
