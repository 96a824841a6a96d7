import Mathlib.Algebra.BigOperators.Group.Finset.Basic
import Mathlib.Algebra.Order.Group.Multiset
import WaspSim.Core.Checked

/-!
# Computations that meet a postcondition

Total correctness of a checked computation: it stops at no assertion, and its result
satisfies the postcondition. The rules follow the structure of a computation. Conservation
laws are postconditions about what the cells of a table hold together, and such a total
moves by the difference at the one cell that an update replaces.
-/

universe u v w

namespace WaspSim

/-- The computation succeeds with a result in `P`. -/
def Meets {ε : Type u} {α : Type v} (x : Except ε α) (P : α → Prop) : Prop :=
  ∃ a, x = .ok a ∧ P a

namespace Meets

variable {ε : Type u} {α β : Type v} {γ : Type w} {P Q : α → Prop}

theorem pure {a : α} (h : P a) : Meets (Pure.pure a : Except ε α) P := ⟨a, rfl, h⟩

theorem of_eq {x : Except ε α} {a : α} (hx : x = .ok a) (h : P a) : Meets x P := ⟨a, hx, h⟩

theorem mono {x : Except ε α} (h : Meets x P) (hle : ∀ a, P a → Q a) : Meets x Q := by
  obtain ⟨a, hx, ha⟩ := h
  exact ⟨a, hx, hle a ha⟩

/-- A successful result of a computation that meets `P` is in `P`. -/
theorem of_ok {x : Except ε α} {a : α} (h : Meets x P) (hx : x = .ok a) : P a := by
  obtain ⟨b, hb, hP⟩ := h
  obtain rfl : b = a := Except.ok.inj (hb.symm.trans hx)
  exact hP

/-- The result of a computation is one that it succeeds with. -/
theorem self {x : Except ε α} (h : Meets x P) : Meets x fun a => x = .ok a ∧ P a := by
  obtain ⟨a, hx, ha⟩ := h
  exact ⟨a, hx, hx, ha⟩

/-- Sequencing: the second computation starts where the first one ends. -/
theorem bind {x : Except ε α} {f : α → Except ε β} {R : β → Prop} (hx : Meets x P)
    (hf : ∀ a, P a → Meets (f a) R) : Meets (x >>= f) R := by
  obtain ⟨a, rfl, ha⟩ := hx
  exact hf a ha

/-- Sequencing after a computation whose result is known. -/
theorem bind_ok {x : Except ε α} {a : α} (hx : x = .ok a) {f : α → Except ε β} {R : β → Prop}
    (hf : Meets (f a) R) : Meets (x >>= f) R := by
  rw [hx]
  exact hf

/-- An assertion that holds is passed. -/
theorem require {β : Type} {e : ε} {p : Prop} [Decidable p] (hp : p)
    {f : Unit → Except ε β} {R : β → Prop} (hf : Meets (f ()) R) : Meets (require e p >>= f) R := by
  rw [require_eq_ok.mpr hp]
  exact hf

/-- A value that is present is fetched. -/
theorem fetch {e : ε} {o : Option α} {a : α} (ho : o = some a) {f : α → Except ε β}
    {R : β → Prop} (hf : Meets (f a) R) : Meets (fetch e o >>= f) R := by
  rw [fetch_eq_ok.mpr ho]
  exact hf

theorem ite {p : Prop} [Decidable p] {x y : Except ε α} (hx : p → Meets x P)
    (hy : ¬p → Meets y P) : Meets (if p then x else y) P := by
  by_cases hp : p
  · rw [if_pos hp]
    exact hx hp
  · rw [if_neg hp]
    exact hy hp

/-- A computation whose errors are renamed. -/
theorem mapError {ε' : Type w} {x : Except ε α} (h : Meets x P) (f : ε → ε') :
    Meets (x.mapError f) P := by
  obtain ⟨a, rfl, ha⟩ := h
  exact ⟨a, rfl, ha⟩

/-- A fold whose every step meets an invariant meets it. -/
theorem foldlM {f : α → γ → Except ε α} (I : α → Prop) {as : List γ}
    (hstep : ∀ s a, a ∈ as → I s → Meets (f s a) I) {s : α} (hs : I s) :
    Meets (as.foldlM f s) I := by
  induction as generalizing s with
  | nil => exact .pure hs
  | cons a as ih =>
    rw [List.foldlM_cons]
    refine .bind (hstep s a List.mem_cons_self hs) fun m hm => ?_
    exact ih (fun s b hb => hstep s b (List.mem_cons_of_mem _ hb)) hm

/-- A fold that works off a list, with an invariant about what is left of it. -/
theorem foldlM_rest {f : α → γ → Except ε α} (I : α → List γ → Prop) {as : List γ}
    (hstep : ∀ s a rest, I s (a :: rest) → Meets (f s a) fun s' => I s' rest) {s : α}
    (hs : I s as) : Meets (as.foldlM f s) fun s' => I s' [] := by
  induction as generalizing s with
  | nil => exact .pure hs
  | cons a as ih =>
    rw [List.foldlM_cons]
    exact .bind (hstep s a as hs) fun m hm => ih hm

/-- A fold over the numbers below `n`, with an invariant indexed by its progress. -/
theorem foldlM_range {f : α → Nat → Except ε α} (I : Nat → α → Prop) {n : Nat}
    (hstep : ∀ k s, k < n → I k s → Meets (f s k) (I (k + 1))) {s : α} (hs : I 0 s) :
    Meets ((List.range n).foldlM f s) (I n) := by
  induction n with
  | zero => exact .pure hs
  | succ n ih =>
    rw [List.range_succ, List.foldlM_append]
    refine .bind (ih fun k s hk => hstep k s (Nat.lt_succ_of_lt hk)) fun m hm => ?_
    rw [List.foldlM_cons]
    exact .bind (hstep n m (Nat.lt_succ_self n) hm) fun m' hm' => .pure hm'

end Meets

/-- The computation stops with an error in `E`, or succeeds with a result in `P`. -/
def MeetsUnless {ε : Type u} {α : Type v} (E : ε → Prop) (x : Except ε α) (P : α → Prop) : Prop :=
  (∃ e, x = .error e ∧ E e) ∨ Meets x P

namespace MeetsUnless

variable {ε : Type u} {α β : Type v} {γ : Type w} {E : ε → Prop} {P Q : α → Prop}

theorem of_meets {x : Except ε α} (h : Meets x P) : MeetsUnless E x P := .inr h

theorem pure {a : α} (h : P a) : MeetsUnless E (Pure.pure a : Except ε α) P := .inr (.pure h)

theorem mono {x : Except ε α} (h : MeetsUnless E x P) (hle : ∀ a, P a → Q a) :
    MeetsUnless E x Q := by
  rcases h with herror | hmeets
  · exact .inl herror
  · exact .inr (hmeets.mono hle)

/-- A successful result of a computation that meets `P` is in `P`. -/
theorem of_ok {x : Except ε α} {a : α} (h : MeetsUnless E x P) (hx : x = .ok a) : P a := by
  rcases h with ⟨e, he, _⟩ | hmeets
  · rw [hx] at he
    cases he
  · exact hmeets.of_ok hx

/-- The result of a computation is one that it succeeds with. -/
theorem self {x : Except ε α} (h : MeetsUnless E x P) :
    MeetsUnless E x fun a => x = .ok a ∧ P a := by
  rcases h with herror | hmeets
  · exact .inl herror
  · exact .inr hmeets.self

/-- More errors are let through. -/
theorem weaken {E' : ε → Prop} {x : Except ε α} (h : MeetsUnless E x P) (hle : ∀ e, E e → E' e) :
    MeetsUnless E' x P := by
  rcases h with ⟨e, he, hE⟩ | hmeets
  · exact .inl ⟨e, he, hle e hE⟩
  · exact .inr hmeets

/-- Sequencing: the second computation starts where the first one ends, if it ends. -/
theorem bind {x : Except ε α} {f : α → Except ε β} {R : β → Prop} (hx : MeetsUnless E x P)
    (hf : ∀ a, P a → MeetsUnless E (f a) R) : MeetsUnless E (x >>= f) R := by
  rcases hx with ⟨e, rfl, he⟩ | ⟨a, rfl, ha⟩
  · exact .inl ⟨e, rfl, he⟩
  · exact hf a ha

/-- Sequencing after a computation whose result is known. -/
theorem bind_ok {x : Except ε α} {a : α} (hx : x = .ok a) {f : α → Except ε β} {R : β → Prop}
    (hf : MeetsUnless E (f a) R) : MeetsUnless E (x >>= f) R := by
  rw [hx]
  exact hf

/-- Sequencing after an assertion that holds. -/
theorem require {β : Type} {e : ε} {p : Prop} [Decidable p] (hp : p)
    {f : Unit → Except ε β} {R : β → Prop} (hf : MeetsUnless E (f ()) R) :
    MeetsUnless E (require e p >>= f) R := by
  rw [require_eq_ok.mpr hp]
  exact hf

/-- Sequencing after an assertion that may fail. -/
theorem check {β : Type} {e : ε} {p : Prop} [Decidable p] (he : E e)
    {f : Unit → Except ε β} {R : β → Prop} (hf : p → MeetsUnless E (f ()) R) :
    MeetsUnless E (WaspSim.require e p >>= f) R := by
  by_cases hp : p
  · exact require hp (hf hp)
  · refine .inl ⟨e, ?_, he⟩
    rw [WaspSim.require, if_neg hp]
    rfl

/-- Sequencing after a value that is present. -/
theorem fetch {e : ε} {o : Option α} {a : α} (ho : o = some a) {f : α → Except ε β}
    {R : β → Prop} (hf : MeetsUnless E (f a) R) : MeetsUnless E (fetch e o >>= f) R := by
  rw [fetch_eq_ok.mpr ho]
  exact hf

theorem ite {p : Prop} [Decidable p] {x y : Except ε α} (hx : p → MeetsUnless E x P)
    (hy : ¬p → MeetsUnless E y P) : MeetsUnless E (if p then x else y) P := by
  by_cases hp : p
  · rw [if_pos hp]
    exact hx hp
  · rw [if_neg hp]
    exact hy hp

/-- A fold whose every step meets an invariant meets it. -/
theorem foldlM {f : α → γ → Except ε α} (I : α → Prop) {as : List γ}
    (hstep : ∀ s a, a ∈ as → I s → MeetsUnless E (f s a) I) {s : α} (hs : I s) :
    MeetsUnless E (as.foldlM f s) I := by
  induction as generalizing s with
  | nil => exact .pure hs
  | cons a as ih =>
    rw [List.foldlM_cons]
    refine .bind (hstep s a List.mem_cons_self hs) fun m hm => ?_
    exact ih (fun s b hb => hstep s b (List.mem_cons_of_mem _ hb)) hm

/-- A loop whose every round meets the invariant of the next one. -/
theorem foldlM_range {f : α → Nat → Except ε α} (I : Nat → α → Prop) {n : Nat}
    (hstep : ∀ k s, k < n → I k s → MeetsUnless E (f s k) (I (k + 1))) {s : α} (hs : I 0 s) :
    MeetsUnless E ((List.range n).foldlM f s) (I n) := by
  induction n with
  | zero => exact .pure hs
  | succ n ih =>
    rw [List.range_succ, List.foldlM_append]
    refine .bind (ih fun k s hk => hstep k s (Nat.lt_succ_of_lt hk)) fun m hm => ?_
    rw [List.foldlM_cons]
    exact .bind (hstep n m (Nat.lt_succ_self n) hm) fun m' hm' => .pure hm'

end MeetsUnless

section

variable {α : Type u} {β : Type v} [AddCommMonoid β]

/-- What the cells of a table hold together, where a cell may count by its place. -/
def holding (f : Nat → α → β) : List α → β
  | [] => 0
  | a :: cells => f 0 a + holding (fun i => f (i + 1)) cells

variable {f : Nat → α → β} {cells : List α} {a b : α} {i : Nat}

@[simp] theorem holding_nil : holding f [] = 0 := rfl

@[simp] theorem holding_cons :
    holding f (a :: cells) = f 0 a + holding (fun i => f (i + 1)) cells := rfl

/-- Replacing one cell moves the total by the difference at that cell. -/
theorem holding_set (h : cells[i]? = some a) :
    holding f (cells.set i b) + f i a = holding f cells + f i b := by
  induction cells generalizing f i with
  | nil => cases h
  | cons c cells ih =>
    cases i with
    | zero =>
      obtain rfl : c = a := Option.some.inj h
      rw [List.set_cons_zero, holding_cons, holding_cons, add_comm (f 0 b), add_comm (f 0 c),
        add_right_comm]
    | succ i =>
      rw [List.set_cons_succ, holding_cons, holding_cons, add_assoc, ih h, add_assoc]

/-- What the images of cells hold together. -/
theorem holding_map {γ : Type w} {cells : List γ} {m : γ → α} :
    holding f (cells.map m) = holding (fun i c => f i (m c)) cells := by
  induction cells generalizing f with
  | nil => rfl
  | cons c cells ih => rw [List.map_cons, holding_cons, holding_cons, ih]

/-- Cells that hold nothing hold nothing together. -/
theorem holding_eq_zero (h : ∀ (i : Nat) a, cells[i]? = some a → f i a = 0) :
    holding f cells = 0 := by
  induction cells generalizing f with
  | nil => rfl
  | cons c cells ih => rw [holding_cons, h 0 c rfl, zero_add, ih fun i => h (i + 1)]

/-- Replacing one cell of a table of rows. -/
theorem holding_set_set {β : Type v} [AddCancelCommMonoid β] {f : Nat → Nat → α → β}
    {table : List (List α)} {row : List α} {a b : α} {i k : Nat} (hi : table[i]? = some row)
    (hk : row[k]? = some a) :
    holding (fun i => holding (f i)) (table.set i (row.set k b)) + f i k a =
      holding (fun i => holding (f i)) table + f i k b := by
  have hrow := holding_set (f := f i) (b := b) hk
  have htable := holding_set (f := fun i => holding (f i)) (b := row.set k b) hi
  refine add_right_cancel (b := holding (f i) row) ?_
  calc holding (fun i => holding (f i)) (table.set i (row.set k b)) + f i k a + holding (f i) row
      = holding (fun i => holding (f i)) table + (holding (f i) (row.set k b) + f i k a) := by
        rw [add_right_comm, htable, add_assoc]
    _ = holding (fun i => holding (f i)) table + f i k b + holding (f i) row := by
        rw [hrow, add_comm (holding (f i) row), add_assoc]

/-- Sums that differ in one term. -/
theorem sum_except {β : Type v} [AddCommMonoid β] {I : Finset Nat} {f g : Nat → β} {i : Nat}
    (hi : i ∈ I) (h : ∀ j, j ≠ i → f j = g j) : ∑ j ∈ I, f j + g i = ∑ j ∈ I, g j + f i := by
  have hrest : ∑ j ∈ I.erase i, f j = ∑ j ∈ I.erase i, g j :=
    Finset.sum_congr rfl fun j hj => h j (Finset.ne_of_mem_erase hj)
  rw [← Finset.add_sum_erase I f hi, ← Finset.add_sum_erase I g hi, hrest, add_comm (f i),
    add_right_comm, add_comm _ (g i)]

end

section

variable {α : Type u} {β : Type v} {f : Nat → α → Multiset β} {cells : List α} {b : β}

/-- An element of a table of multisets is in one of its cells. -/
theorem mem_holding : b ∈ holding f cells ↔ ∃ i a, cells[i]? = some a ∧ b ∈ f i a := by
  induction cells generalizing f with
  | nil => simp
  | cons c cells ih =>
    rw [holding_cons, Multiset.mem_add, ih]
    constructor
    · rintro (hb | ⟨i, a, hi, hb⟩)
      · exact ⟨0, c, rfl, hb⟩
      · exact ⟨i + 1, a, hi, hb⟩
    · rintro ⟨i, a, hi, hb⟩
      cases i with
      | zero =>
        obtain rfl : c = a := Option.some.inj hi
        exact .inl hb
      | succ i => exact .inr ⟨i, a, hi, hb⟩

/-- Cells without doubles whose elements name their cell have no doubles together. -/
theorem nodup_holding (key : β → Nat) (k : Nat)
    (hnodup : ∀ (i : Nat) a, cells[i]? = some a → (f i a).Nodup)
    (hkey : ∀ (i : Nat) a, cells[i]? = some a → ∀ b ∈ f i a, key b = k + i) :
    (holding f cells).Nodup := by
  induction cells generalizing f k with
  | nil => exact Multiset.nodup_zero
  | cons c cells ih =>
    have hrest : ∀ (i : Nat) a, cells[i]? = some a → ∀ b ∈ f (i + 1) a, key b = k + 1 + i := by
      intro i a hi b hb
      rw [hkey (i + 1) a hi b hb, Nat.add_assoc, Nat.add_comm 1 i]
    rw [holding_cons]
    refine Multiset.nodup_add.mpr ⟨hnodup 0 c rfl, ih (k + 1) (fun i => hnodup (i + 1)) hrest, ?_⟩
    rw [Multiset.disjoint_left]
    intro b hb hb'
    obtain ⟨i, a, hi, hmem⟩ := mem_holding.mp hb'
    have hfirst := hkey 0 c rfl b hb
    have hlater := hrest i a hi b hmem
    omega

/-- The element of a table without doubles is in one cell, and that cell has no doubles. -/
theorem unique_of_nodup_holding (hnodup : (holding f cells).Nodup) {i j : Nat} {a c : α}
    (hi : cells[i]? = some a) (hj : cells[j]? = some c) (hb : b ∈ f i a) (hb' : b ∈ f j c) :
    i = j ∧ (f i a).Nodup := by
  induction cells generalizing f i j with
  | nil => cases hi
  | cons d cells ih =>
    rw [holding_cons] at hnodup
    obtain ⟨hfirst, hrest, hdisjoint⟩ := Multiset.nodup_add.mp hnodup
    have hapart : ∀ (k : Nat) e, cells[k]? = some e → b ∈ f (k + 1) e → b ∉ f 0 d := by
      intro k e hk he hd
      exact Multiset.disjoint_left.mp hdisjoint hd (mem_holding.mpr ⟨k, e, hk, he⟩)
    cases i with
    | zero =>
      obtain rfl : d = a := Option.some.inj hi
      cases j with
      | zero => exact ⟨rfl, hfirst⟩
      | succ j => exact absurd hb (hapart j c hj hb')
    | succ i =>
      cases j with
      | zero =>
        obtain rfl : d = c := Option.some.inj hj
        exact absurd hb' (hapart i a hi hb)
      | succ j =>
        obtain ⟨heq, hnodup⟩ := ih hrest hi hj hb hb'
        exact ⟨congrArg Nat.succ heq, hnodup⟩

/-- The element of a sum without doubles is in one term. -/
theorem unique_of_nodup_sum {I : Finset Nat} {g : Nat → Multiset β}
    (hnodup : (∑ k ∈ I, g k).Nodup) {i j : Nat} (hi : i ∈ I) (hj : j ∈ I) (hb : b ∈ g i)
    (hb' : b ∈ g j) : i = j := by
  by_contra hne
  rw [← Finset.add_sum_erase I g hi] at hnodup
  have hrest : b ∈ ∑ k ∈ I.erase i, g k :=
    Multiset.mem_sum.mpr ⟨j, Finset.mem_erase.mpr ⟨Ne.symm hne, hj⟩, hb'⟩
  exact Multiset.disjoint_left.mp (Multiset.nodup_add.mp hnodup).2.2 hb hrest

end

end WaspSim
