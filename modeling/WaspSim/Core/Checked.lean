import Mathlib.Data.List.Forall2

/-!
# Checked computations

A program that may stop at a failed assertion is an `Except` computation. The
rules below invert a successful run: a bind succeeds exactly when both halves
do, a requirement exactly when its condition holds, and a fold keeps every
property that each of its steps keeps.
-/

universe u v w

namespace WaspSim

/-- An assertion: go on when `p` holds, stop with `e` otherwise. -/
def require {ε : Type u} (e : ε) (p : Prop) [Decidable p] : Except ε Unit :=
  if p then .ok () else .error e

/-- The value of an optional result whose absence is an error. -/
def fetch {ε : Type u} {α : Type v} (e : ε) : Option α → Except ε α
  | some a => .ok a
  | none => .error e

section

variable {ε : Type u} {α β : Type v} {γ : Type w} {σ : Type v}

/-- A sequence succeeds when both of its parts do. -/
@[simp] theorem bind_eq_ok {x : Except ε α} {f : α → Except ε β} {b : β} :
    x >>= f = .ok b ↔ ∃ a, x = .ok a ∧ f a = .ok b := by
  cases x with
  | error e => simp [bind, Except.bind]
  | ok a => simp [bind, Except.bind]

@[simp] theorem map_eq_ok {x : Except ε α} {f : α → β} {b : β} :
    f <$> x = .ok b ↔ ∃ a, x = .ok a ∧ f a = b := by
  cases x with
  | error e => simp [Functor.map, Except.map]
  | ok a => simp [Functor.map, Except.map]

@[simp] theorem pure_eq_ok {a b : α} : (pure a : Except ε α) = .ok b ↔ a = b := by
  simp [pure, Except.pure]

/-- An assertion is passed when it holds. -/
@[simp] theorem require_eq_ok {e : ε} {p : Prop} [Decidable p] {u : Unit} :
    require e p = .ok u ↔ p := by
  by_cases hp : p <;> simp [require, hp]

/-- A value is fetched when it is there. -/
@[simp] theorem fetch_eq_ok {e : ε} {o : Option α} {a : α} :
    fetch e o = .ok a ↔ o = some a := by
  cases o with
  | none => simp [fetch]
  | some b => simp [fetch]

@[simp] theorem foldlM_nil_eq_ok {f : σ → γ → Except ε σ} {s s' : σ} :
    List.foldlM f s [] = .ok s' ↔ s = s' := by
  simp [List.foldlM]

/-- A fold succeeds when its first step and the rest do. -/
theorem foldlM_cons_eq_ok {f : σ → γ → Except ε σ} {s s' : σ} {a : γ} {as : List γ} :
    List.foldlM f s (a :: as) = .ok s' ↔
      ∃ m, f s a = .ok m ∧ List.foldlM f m as = .ok s' := by
  simp [List.foldlM]

/-- What every step keeps, a successful fold keeps. -/
theorem foldlM_invariant {f : σ → γ → Except ε σ} (P : σ → Prop) {as : List γ}
    (hstep : ∀ s a s', a ∈ as → P s → f s a = .ok s' → P s') {s s' : σ}
    (h : as.foldlM f s = .ok s') (hs : P s) : P s' := by
  induction as generalizing s with
  | nil =>
    rw [← foldlM_nil_eq_ok.mp h]
    exact hs
  | cons a as ih =>
    obtain ⟨m, ha, has⟩ := foldlM_cons_eq_ok.mp h
    refine ih (fun s b s' hb => hstep s b s' (List.mem_cons_of_mem _ hb)) has ?_
    exact hstep s a m List.mem_cons_self hs ha

/-- A fold whose steps are those of another one on a part of its state. -/
theorem foldlM_part {τ : Type v} {f : σ → γ → Except ε σ} {g : τ → γ → Except ε τ} (part : σ → τ)
    {as : List γ} (hstep : ∀ s a s', a ∈ as → f s a = .ok s' → g (part s) a = .ok (part s'))
    {s s' : σ} (h : as.foldlM f s = .ok s') : as.foldlM g (part s) = .ok (part s') := by
  induction as generalizing s with
  | nil =>
    rw [foldlM_nil_eq_ok.mp h]
    rfl
  | cons a as ih =>
    obtain ⟨m, ha, has⟩ := foldlM_cons_eq_ok.mp h
    refine foldlM_cons_eq_ok.mpr ⟨part m, hstep s a m List.mem_cons_self ha, ?_⟩
    exact ih (fun s b s' hb => hstep s b s' (List.mem_cons_of_mem _ hb)) has

/-- A fold over the numbers below `n` carries an invariant indexed by its progress. -/
theorem foldlM_range {f : σ → Nat → Except ε σ} (P : Nat → σ → Prop) {n : Nat}
    (hstep : ∀ k s s', k < n → P k s → f s k = .ok s' → P (k + 1) s') {s s' : σ}
    (h : (List.range n).foldlM f s = .ok s') (hs : P 0 s) : P n s' := by
  induction n generalizing s' with
  | zero =>
    rw [← foldlM_nil_eq_ok.mp h]
    exact hs
  | succ n ih =>
    rw [List.range_succ, List.foldlM_append, bind_eq_ok] at h
    obtain ⟨m, hm, hlast⟩ := h
    obtain ⟨m', hm', hnil⟩ := foldlM_cons_eq_ok.mp hlast
    rw [← foldlM_nil_eq_ok.mp hnil]
    exact hstep n m m' (Nat.lt_succ_self n)
      (ih (fun k s s' hk => hstep k s s' (Nat.lt_succ_of_lt hk)) hm) hm'

/-- A successful map gives one successful result for every element, in order. -/
theorem mapM_eq_ok {f : γ → Except ε β} {as : List γ} {bs : List β} :
    as.mapM f = .ok bs ↔ List.Forall₂ (fun a b => f a = .ok b) as bs := by
  induction as generalizing bs with
  | nil =>
    rw [List.mapM_nil, pure_eq_ok, List.forall₂_nil_left_iff]
    exact eq_comm
  | cons a as ih =>
    rw [List.mapM_cons, List.forall₂_cons_left_iff]
    simp only [bind_eq_ok, pure_eq_ok, ih]
    constructor
    · rintro ⟨b, hb, bs', hbs, rfl⟩
      exact ⟨b, bs', hb, hbs, rfl⟩
    · rintro ⟨b, bs', hb, hbs, rfl⟩
      exact ⟨b, hb, bs', hbs, rfl⟩

/-- A successful map over the numbers below `n` gives the result of each at its place. -/
theorem mapM_range_eq_ok {f : Nat → Except ε β} {n : Nat} {bs : List β}
    (h : (List.range n).mapM f = .ok bs) :
    bs.length = n ∧ ∀ k < n, ∃ b, bs[k]? = some b ∧ f k = .ok b := by
  have hall := mapM_eq_ok.mp h
  have hlen : bs.length = n := by
    rw [← hall.length_eq, List.length_range]
  refine ⟨hlen, fun k hk => ?_⟩
  have hget := hall.get (i := k) (by rwa [List.length_range]) (by rwa [hlen])
  refine ⟨bs[k], List.getElem?_eq_getElem (by rwa [hlen]), ?_⟩
  simpa using hget

/-- The computation does not stop at the assertion `e`. -/
def Avoids (e : ε) (x : Except ε α) : Prop := x ≠ .error e

namespace Avoids

variable {e e' : ε}

/-- A computation that succeeds does not stop with the error. -/
theorem of_ok {x : Except ε α} {a : α} (h : x = .ok a) : Avoids e x := by
  intro he
  rw [h] at he
  cases he

theorem pure (a : α) : Avoids e (Pure.pure a : Except ε α) := of_ok rfl

/-- A sequence avoids an error that both of its parts avoid. -/
theorem bind {x : Except ε α} {f : α → Except ε β} (hx : Avoids e x)
    (hf : ∀ a, x = .ok a → Avoids e (f a)) : Avoids e (x >>= f) := by
  cases hcase : x with
  | error e₁ =>
    intro he
    have heq : e₁ = e := by simpa [Bind.bind, Except.bind] using he
    exact hx (by rw [hcase, heq])
  | ok a => exact hf a hcase

/-- An assertion with another error. -/
theorem require {p : Prop} [Decidable p] (h : e' ≠ e) : Avoids e (require e' p) := by
  intro he
  by_cases hp : p
  · simp [WaspSim.require, hp] at he
  · simp only [WaspSim.require, hp, ↓reduceIte, Except.error.injEq] at he
    exact h he

/-- A lookup with another error. -/
theorem fetch {o : Option α} (h : e' ≠ e) : Avoids e (fetch e' o) := by
  intro he
  cases o with
  | none => exact h (Except.error.inj he)
  | some a => cases he

/-- A fold avoids what its steps avoid on the states that keep `P`. -/
theorem foldlM {f : σ → γ → Except ε σ} (P : σ → Prop) {as : List γ}
    (hstep : ∀ s a s', a ∈ as → P s → f s a = .ok s' → P s')
    (havoid : ∀ s a, a ∈ as → P s → Avoids e (f s a)) {s : σ} (hs : P s) :
    Avoids e (as.foldlM f s) := by
  induction as generalizing s with
  | nil => exact .pure s
  | cons a as ih =>
    rw [List.foldlM_cons]
    refine .bind (havoid s a List.mem_cons_self hs) fun m hm => ?_
    exact ih (fun s b s' hb => hstep s b s' (List.mem_cons_of_mem _ hb))
      (fun s b hb => havoid s b (List.mem_cons_of_mem _ hb))
      (hstep s a m List.mem_cons_self hs hm)

/-- A map avoids an error that each of its steps avoids. -/
theorem mapM {f : γ → Except ε β} {as : List γ} (h : ∀ a, Avoids e (f a)) :
    Avoids e (as.mapM f) := by
  induction as with
  | nil => exact .pure []
  | cons a as ih =>
    rw [List.mapM_cons]
    exact .bind (h a) fun _ _ => .bind ih fun _ _ => .pure _

end Avoids

end

end WaspSim
