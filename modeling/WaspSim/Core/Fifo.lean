import Mathlib.Algebra.Order.BigOperators.Group.List
import Mathlib.Algebra.Order.Group.Nat
import Mathlib.Algebra.Ring.Nat
import Mathlib.Data.List.Basic
import Mathlib.Data.Nat.ModEq
import Mathlib.Tactic.Common

/-!
# First-in first-out windows and their rings

Items of a first-in first-out queue are numbered by the ticket of their arrival.
The queue is the window of tickets that have arrived and not yet left. A ring of
`n` slots shows such a window when ticket `t` lives in slot `t % n`; since at
most `n` tickets are alive, no two of them share a slot.
-/

namespace WaspSim

/-- A queue whose items carry consecutive tickets, the oldest being `popped`. -/
structure Fifo (ι : Type*) where
  /-- How many items have left, which is also the ticket of the head. -/
  popped : Nat
  /-- The items still queued, oldest first. -/
  items : List ι

namespace Fifo

variable {ι ε : Type*}

/-- The queue before any arrival. -/
def empty : Fifo ι := ⟨0, []⟩

/-- How many items have arrived, which is also the next ticket. -/
def pushed (f : Fifo ι) : Nat := f.popped + f.items.length

/-- The item holding ticket `t`, when it is still queued. -/
def get? (f : Fifo ι) (t : Nat) : Option ι :=
  if f.popped ≤ t then f.items[t - f.popped]? else none

/-- Arrival of an item at the tail. -/
def push (f : Fifo ι) (i : ι) : Fifo ι := ⟨f.popped, f.items ++ [i]⟩

/-- Departure of the head. -/
def pop (f : Fifo ι) : Fifo ι := ⟨f.popped + 1, f.items.tail⟩

/-- A change to the item holding ticket `t`. -/
def modify (f : Fifo ι) (t : Nat) (g : ι → ι) : Fifo ι :=
  ⟨f.popped, f.items.modify (t - f.popped) g⟩

@[simp] theorem popped_empty : (empty : Fifo ι).popped = 0 := rfl

@[simp] theorem items_empty : (empty : Fifo ι).items = [] := rfl

@[simp] theorem popped_push (f : Fifo ι) (i : ι) : (f.push i).popped = f.popped := rfl

@[simp] theorem items_push (f : Fifo ι) (i : ι) : (f.push i).items = f.items ++ [i] := rfl

@[simp] theorem popped_pop (f : Fifo ι) : f.pop.popped = f.popped + 1 := rfl

@[simp] theorem items_pop (f : Fifo ι) : f.pop.items = f.items.tail := rfl

@[simp] theorem popped_modify (f : Fifo ι) (t : Nat) (g : ι → ι) :
    (f.modify t g).popped = f.popped := rfl

@[simp] theorem length_modify (f : Fifo ι) (t : Nat) (g : ι → ι) :
    (f.modify t g).items.length = f.items.length := by
  simp [modify]

@[simp] theorem pushed_empty : (empty : Fifo ι).pushed = 0 := rfl

/-- A push is counted. -/
@[simp] theorem pushed_push (f : Fifo ι) (i : ι) : (f.push i).pushed = f.pushed + 1 := by
  simp only [pushed, popped_push, items_push, List.length_append, List.length_singleton]
  omega

@[simp] theorem pushed_modify (f : Fifo ι) (t : Nat) (g : ι → ι) :
    (f.modify t g).pushed = f.pushed := by
  simp [pushed]

/-- A pop does not change how many items were pushed. -/
theorem pushed_pop {f : Fifo ι} (h : f.items ≠ []) : f.pop.pushed = f.pushed := by
  have hpos : 0 < f.items.length := List.length_pos_iff.mpr h
  simp only [pushed, popped_pop, items_pop, List.length_tail]
  omega

/-- The tickets still queued are those from `popped` up to `pushed`. -/
theorem get?_isSome_iff {f : Fifo ι} {t : Nat} :
    (f.get? t).isSome ↔ f.popped ≤ t ∧ t < f.pushed := by
  unfold get? pushed
  by_cases h : f.popped ≤ t
  · simp only [h, ↓reduceIte, true_and, isSome_getElem?]
    omega
  · simp [h]

/-- Only the items between pop and push are found. -/
theorem mem_of_get? {f : Fifo ι} {t : Nat} {i : ι} (h : f.get? t = some i) :
    f.popped ≤ t ∧ t < f.pushed :=
  get?_isSome_iff.mp (by simp [h])

/-- Every item between pop and push is found. -/
theorem exists_get? {f : Fifo ι} {t : Nat} (hlo : f.popped ≤ t) (hhi : t < f.pushed) :
    ∃ i, f.get? t = some i :=
  Option.isSome_iff_exists.mp (get?_isSome_iff.mpr ⟨hlo, hhi⟩)

@[simp] theorem get?_empty (t : Nat) : (empty : Fifo ι).get? t = none := by
  simp [get?, empty]

/-- The head is the item with the oldest ticket. -/
theorem get?_popped (f : Fifo ι) : f.get? f.popped = f.items.head? := by
  simp [get?, List.head?_eq_getElem?]

/-- The new item is found under its number. -/
theorem get?_push_self (f : Fifo ι) (i : ι) : (f.push i).get? f.pushed = some i := by
  simp [get?, push, pushed]

/-- The other items stay under their numbers. -/
theorem get?_push_of_ne {f : Fifo ι} {i : ι} {t : Nat} (h : t ≠ f.pushed) :
    (f.push i).get? t = f.get? t := by
  unfold get? push
  unfold pushed at h
  by_cases hle : f.popped ≤ t
  · simp only [hle, ↓reduceIte]
    by_cases hlt : t - f.popped < f.items.length
    · exact List.getElem?_append_left hlt
    · rw [List.getElem?_eq_none (by simp; omega), List.getElem?_eq_none (by omega)]
  · simp [hle]

/-- The item under a number after a push. -/
theorem get?_push {f : Fifo ι} {i : ι} {t : Nat} :
    (f.push i).get? t = if t = f.pushed then some i else f.get? t := by
  by_cases h : t = f.pushed
  · simp only [h, ↓reduceIte]
    exact get?_push_self f i
  · simp only [h, ↓reduceIte]
    exact get?_push_of_ne h

/-- The item under a number after a pop. -/
theorem get?_pop {f : Fifo ι} {t : Nat} :
    f.pop.get? t = if t = f.popped then none else f.get? t := by
  unfold get? pop
  by_cases h : t = f.popped
  · simp [h]
  · by_cases hle : f.popped ≤ t
    · have hsucc : t - f.popped = t - (f.popped + 1) + 1 := by omega
      have hle' : f.popped + 1 ≤ t := by omega
      simp only [hle, hle', h, ↓reduceIte, List.getElem?_tail]
      rw [← hsucc]
    · have hle' : ¬f.popped + 1 ≤ t := by omega
      simp [hle, hle', h]

/-- The item that was modified. -/
theorem get?_modify_self {f : Fifo ι} {t : Nat} {g : ι → ι} {i : ι} (h : f.get? t = some i) :
    (f.modify t g).get? t = some (g i) := by
  have hle : f.popped ≤ t := (mem_of_get? h).1
  simp only [get?, hle, ↓reduceIte] at h
  simp [get?, modify, hle, h]

/-- The other items stay. -/
theorem get?_modify_of_ne {f : Fifo ι} {t u : Nat} {g : ι → ι} (ht : f.popped ≤ t)
    (h : u ≠ t) : (f.modify t g).get? u = f.get? u := by
  unfold get? modify
  by_cases hle : f.popped ≤ u
  · have hne : t - f.popped ≠ u - f.popped := by omega
    simp [hle, hne]
  · simp [hle]

/-- The item under a number after one was modified. -/
theorem get?_modify {f : Fifo ι} {t u : Nat} {g : ι → ι} {i : ι} (h : f.get? t = some i) :
    (f.modify t g).get? u = if u = t then some (g i) else f.get? u := by
  by_cases hu : u = t
  · subst hu
    simp [get?_modify_self h]
  · simp [hu, get?_modify_of_ne (mem_of_get? h).1 hu]

/-- Changing the item that arrived last. -/
theorem modify_push (f : Fifo ι) (i : ι) (g : ι → ι) :
    (f.push i).modify f.pushed g = f.push (g i) := by
  have h : (f.items ++ [i]).modify f.items.length g = f.items ++ [g i] := by
    induction f.items with
    | nil => rfl
    | cons x xs ih => simp [ih]
  simp [modify, push, pushed, h]

/-- The total weight of the queued items. -/
def weight (h : ι → Nat) (f : Fifo ι) : Nat := (f.items.map h).sum

@[simp] theorem weight_empty (h : ι → Nat) : (empty : Fifo ι).weight h = 0 := rfl

/-- A new item adds its weight. -/
theorem weight_push (h : ι → Nat) (f : Fifo ι) (i : ι) :
    (f.push i).weight h = f.weight h + h i := by
  simp [weight]

/-- The first item takes its weight along. -/
theorem weight_pop (h : ι → Nat) {f : Fifo ι} {i : ι} (hi : f.items.head? = some i) :
    h i + f.pop.weight h = f.weight h := by
  obtain ⟨is, his⟩ := List.head?_eq_some_iff.mp hi
  simp [weight, his]

/-- A modified item moves the weight by the difference. -/
theorem weight_modify (h : ι → Nat) {f : Fifo ι} {t : Nat} {i : ι} (g : ι → ι)
    (ht : f.get? t = some i) : (f.modify t g).weight h + h i = f.weight h + h (g i) := by
  have hle : f.popped ≤ t := (mem_of_get? ht).1
  simp only [get?, hle, ↓reduceIte] at ht
  have hmodify : ∀ (l : List ι) (k : Nat), l[k]? = some i →
      ((l.modify k g).map h).sum + h i = (l.map h).sum + h (g i) := by
    intro l
    induction l with
    | nil =>
      intro k hk
      simp at hk
    | cons x xs ih =>
      intro k hk
      cases k with
      | zero =>
        obtain rfl : x = i := by simpa using hk
        simp only [List.modify_zero_cons, List.map_cons, List.sum_cons]
        omega
      | succ k =>
        have hrest := ih k (by simpa using hk)
        simp only [List.modify_succ_cons, List.map_cons, List.sum_cons]
        omega
  exact hmodify f.items _ ht

/-- A queued item weighs at most as much as the queue. -/
theorem weight_le {h : ι → Nat} {f : Fifo ι} {t : Nat} {i : ι} (ht : f.get? t = some i) :
    h i ≤ f.weight h := by
  have hle : f.popped ≤ t := (mem_of_get? ht).1
  simp only [get?, hle, ↓reduceIte] at ht
  exact List.le_sum_of_mem (List.mem_map_of_mem (List.mem_of_getElem? ht))

end Fifo
end WaspSim
