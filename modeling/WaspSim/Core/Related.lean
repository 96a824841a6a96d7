import WaspSim.Core.Run

/-!
# Related computations

Two checked computations are related when both stop at the same assertion or both
succeed with related results. The rules follow the structure of a computation, so
a relation that every step of two programs keeps is kept by their runs.
-/

universe u v

namespace WaspSim

/-- Both computations stop with the same error, or both succeed with results in `R`. -/
inductive Related {ε : Type u} {α β : Type v} (R : α → β → Prop) :
    Except ε α → Except ε β → Prop
  | error (e : ε) : Related R (.error e) (.error e)
  | ok {a : α} {b : β} (h : R a b) : Related R (.ok a) (.ok b)

namespace Related

variable {ε : Type u} {α β γ δ : Type v} {R : α → β → Prop} {S : γ → δ → Prop}

theorem pure {a : α} {b : β} (h : R a b) :
    Related R (Pure.pure a : Except ε α) (Pure.pure b) := .ok h

/-- Sequencing related computations. -/
theorem bind {x : Except ε α} {y : Except ε β} {f : α → Except ε γ} {g : β → Except ε δ}
    (h : Related R x y) (hfg : ∀ a b, R a b → Related S (f a) (g b)) :
    Related S (x >>= f) (y >>= g) := by
  cases h with
  | error e => exact .error e
  | ok hab => exact hfg _ _ hab

/-- Equal computations are related by equality. -/
theorem of_eq {x y : Except ε α} (h : x = y) : Related Eq x y := by
  subst h
  cases x with
  | error e => exact .error e
  | ok a => exact .ok rfl

/-- A computation and the image of its result. -/
theorem of_map {g : α → β} {x : Except ε α} {y : Except ε β} (h : y = x.map g) :
    Related (fun a b => b = g a) x y := by
  subst h
  cases x with
  | error e => exact .error e
  | ok a => exact .ok rfl

/-- A weaker relation relates as much. -/
theorem mono {R' : α → β → Prop} (hle : ∀ a b, R a b → R' a b) {x : Except ε α}
    {y : Except ε β} (h : Related R x y) : Related R' x y := by
  cases h with
  | error e => exact .error e
  | ok hab => exact .ok (hle _ _ hab)

/-- Two assertions of equivalent conditions. -/
theorem require {e : ε} {p q : Prop} [Decidable p] [Decidable q] (h : p ↔ q) :
    Related Eq (require e p) (require e q) := by
  by_cases hp : p
  · simp only [WaspSim.require, hp, h.mp hp, ↓reduceIte]
    exact .ok rfl
  · simp only [WaspSim.require, hp, mt h.mpr hp, ↓reduceIte]
    exact .error e

/-- Branching on equivalent conditions. -/
theorem ite {p q : Prop} [Decidable p] [Decidable q] (h : p ↔ q) {x x' : Except ε α}
    {y y' : Except ε β} (hx : p → Related R x y) (hx' : ¬p → Related R x' y') :
    Related R (if p then x else x') (if q then y else y') := by
  by_cases hp : p
  · rw [if_pos hp, if_pos (h.mp hp)]
    exact hx hp
  · rw [if_neg hp, if_neg (mt h.mpr hp)]
    exact hx' hp

/-- Folds over one list whose steps keep a relation. -/
theorem foldlM {ι : Type v} {f : α → ι → Except ε α} {g : β → ι → Except ε β} {as : List ι}
    (hstep : ∀ a b i, i ∈ as → R a b → Related R (f a i) (g b i)) {a : α} {b : β} (h : R a b) :
    Related R (as.foldlM f a) (as.foldlM g b) := by
  induction as generalizing a b with
  | nil => exact .pure h
  | cons i as ih =>
    rw [List.foldlM_cons, List.foldlM_cons]
    refine .bind (hstep a b i List.mem_cons_self h) fun a' b' h' => ?_
    exact ih (fun a b j hj => hstep a b j (List.mem_cons_of_mem i hj)) h'

/-- What related computations return when the first succeeds. -/
theorem exists_ok {x : Except ε α} {y : Except ε β} (h : Related R x y) {a : α} (hx : x = .ok a) :
    ∃ b, y = .ok b ∧ R a b := by
  cases h with
  | error e => cases hx
  | ok hab =>
    cases hx
    exact ⟨_, rfl, hab⟩

/-- The second computation stops where the first does. -/
theorem eq_error {x : Except ε α} {y : Except ε β} (h : Related R x y) {e : ε}
    (hx : x = .error e) : y = .error e := by
  cases h with
  | error e' =>
    cases hx
    rfl
  | ok _ => cases hx

/-- A relation that two event-emitting transition functions keep is kept by their
logged runs, with related logs. -/
theorem logged {σ τ ι κ E F : Type} {step : σ → ι → Except ε (σ × List E)}
    {step' : τ → κ → Except ε (τ × List F)} {R : σ → τ → Prop} (m : ι → κ) (g : E → F)
    {as : List ι}
    (hstep : ∀ s t a, a ∈ as → R s t →
      Related (fun x y => R x.1 y.1 ∧ y.2 = x.2.map g) (step s a) (step' t (m a)))
    {s : σ} {t : τ} {log : List E} (h : R s t) :
    Related (fun x y => R x.1 y.1 ∧ y.2 = x.2.map g)
      (as.foldlM (logged step) (s, log)) ((as.map m).foldlM (logged step') (t, log.map g)) := by
  rw [List.foldlM_map]
  refine foldlM (fun x y a ha hxy => ?_) ⟨h, rfl⟩
  refine .bind (hstep x.1 y.1 a ha hxy.1) fun x' y' h' => ?_
  refine .pure ⟨h'.1, ?_⟩
  rw [hxy.2, h'.2, List.map_append]

end Related
end WaspSim
