import Mathlib.Data.Nat.ModEq
import WaspSim.Scheduler.Order

/-!
# Round-robin order

`order_lrr` rotates a list behind the element issued last. The two-level scheduler
rotates its active warps so after each issue; after the issue of a pair it rotates
twice, the second time by the consumer's position from before the first rotation.
-/

namespace WaspSim

variable {α : Type} {input : List α}

/-- The loop of `order_lrr` walks the list cyclically. -/
theorem orderLrrFrom_eq {iter count : Nat} (hiter : iter ≤ input.length)
    (hcount : count ≤ input.length) :
    orderLrrFrom input iter count = (input.rotate iter).take count := by
  induction count generalizing iter with
  | zero => rfl
  | succ count ih =>
    have hstart : ∃ start, start < input.length ∧
        (if iter = input.length then 0 else iter) = start ∧
        input.rotate iter = input.rotate start := by
      by_cases hend : iter = input.length
      · exact ⟨0, by omega, if_pos hend, by rw [hend, List.rotate_length, List.rotate_zero]⟩
      · exact ⟨iter, by omega, if_neg hend, rfl⟩
    obtain ⟨start, hlt, hif, hrotate⟩ := hstart
    have hnext := ih (Nat.succ_le_of_lt hlt) (by omega)
    simp only [orderLrrFrom, hif]
    rw [hnext, hrotate, List.getElem?_eq_getElem hlt, Option.toList_some, List.singleton_append]
    -- one step of the walk is one rotation
    have hcons : input.rotate start =
        input[start] :: (input.drop (start + 1) ++ input.take start) := by
      rw [List.rotate_eq_drop_append_take hlt.le, List.drop_eq_getElem_cons hlt, List.cons_append]
    have hsucc : input.rotate (start + 1) =
        (input.drop (start + 1) ++ input.take start) ++ [input[start]] := by
      rw [← List.rotate_rotate, hcons, List.rotate_cons_succ, List.rotate_zero]
    have hlen : count ≤ (input.drop (start + 1) ++ input.take start).length := by
      simp only [List.length_append, List.length_drop, List.length_take]
      omega
    rw [hcons, hsucc, List.take_succ_cons, List.take_append_of_le_length hlen]

/-- Ordering a whole list puts the element issued last at its end. -/
theorem orderLrr_eq {last : Nat} (hlast : last < input.length) :
    orderLrr input last input.length = .ok (input.rotate (last + 1)) := by
  have hne : last ≠ input.length := hlast.ne
  have hall := orderLrrFrom_eq (Nat.succ_le_of_lt hlast) (le_refl input.length)
  have hfull : (input.rotate (last + 1)).take input.length = input.rotate (last + 1) :=
    List.take_of_length_le (List.length_rotate input _).le
  simp only [orderLrr, require, le_refl, ↓reduceIte, hne, bind, Except.bind, pure, Except.pure,
    hall, hfull]

/-- Without an element issued last, the list keeps its order. -/
theorem orderLrr_end : orderLrr input input.length input.length = .ok input := by
  have hall := orderLrrFrom_eq (Nat.zero_le input.length) (le_refl input.length)
  rw [List.rotate_zero, List.take_length] at hall
  simp only [orderLrr, require, le_refl, ↓reduceIte, bind, Except.bind, pure, Except.pure, hall]

namespace SchedulerUnit

/-- `do_on_warp_issued` of the two-level scheduler on its active warps, for an iterator into
them. -/
def rotateActive (active : List α) (prioritizedIter : Nat) : Except Halt (List α) :=
  orderLrr active prioritizedIter active.length

/-- The active warps after the issue of a pair; both iterators were taken before it. -/
def afterPair (active : List α) (prodIter consIter : Nat) : Except Halt (List α) := do
  let active ← rotateActive active prodIter
  rotateActive active consIter

/-- The active warps after a single issue of each warp of a pair, one after the other. -/
def afterSingles [DecidableEq α] (active : List α) (prod cons : α) : Except Halt (List α) := do
  let active ← rotateActive active (active.idxOf prod)
  rotateActive active (active.idxOf cons)

variable {active : List α} {i j : Nat}

/-- A pair rotates by both positions. -/
theorem afterPair_eq (hi : i < active.length) (hj : j < active.length) :
    afterPair active i j = .ok (active.rotate (i + 1 + (j + 1))) := by
  have hlen : j < (active.rotate (i + 1)).length := by
    rw [List.length_rotate]
    exact hj
  simp only [afterPair, rotateActive, orderLrr_eq hi, bind, Except.bind]
  rw [orderLrr_eq hlen, List.rotate_rotate]

/-- A rotation behind an element ends with it. -/
theorem getLast?_rotate (hj : j < active.length) :
    (active.rotate (j + 1)).getLast? = some active[j] := by
  rw [List.getLast?_eq_getElem?, List.length_rotate, List.getElem?_rotate (by omega),
    show active.length - 1 + (j + 1) = active.length + j by omega, Nat.add_mod_left,
    Nat.mod_eq_of_lt hj, List.getElem?_eq_getElem hj]

variable [DecidableEq α]

theorem rotateActive_idxOf {a : α} (ha : a ∈ active) :
    rotateActive active (active.idxOf a) = .ok (active.rotate (active.idxOf a + 1)) :=
  orderLrr_eq (List.idxOf_lt_length_of_mem ha)

/-- Two single issues leave the consumer with the lowest priority. -/
theorem afterSingles_eq (hnodup : active.Nodup) (hi : i < active.length) (hj : j < active.length) :
    afterSingles active active[i] active[j] = .ok (active.rotate (j + 1)) := by
  have hprod := rotateActive_idxOf (List.getElem_mem hi)
  rw [hnodup.idxOf_getElem i hi] at hprod
  have hmem : active[j] ∈ active.rotate (i + 1) := List.mem_rotate.mpr (List.getElem_mem hj)
  have hcons := rotateActive_idxOf hmem
  generalize hp : (active.rotate (i + 1)).idxOf active[j] = p at hcons
  -- the place of the consumer after the first rotation
  have hlt : p < (active.rotate (i + 1)).length := by
    rw [← hp]
    exact List.idxOf_lt_length_of_mem hmem
  have hget : (active.rotate (i + 1))[p] = active[j] := by
    simp only [← hp]
    exact List.getElem_idxOf _
  rw [List.getElem_rotate, hnodup.getElem_inj_iff] at hget
  have hsum : active.rotate (i + 1 + (p + 1)) = active.rotate (j + 1) := by
    rw [← hget, ← List.rotate_rotate active ((p + (i + 1)) % active.length), List.rotate_mod,
      List.rotate_rotate]
    congr 1
    omega
  simp only [afterSingles, hnodup.idxOf_getElem i hi, hprod, bind, Except.bind, hp]
  rw [hcons, List.rotate_rotate, hsum]

/-- The order after the issue of a pair is right exactly when the producer was the last of the
active warps. -/
theorem afterPair_eq_afterSingles_iff (hnodup : active.Nodup) (hi : i < active.length)
    (hj : j < active.length) :
    (afterSingles active active[i] active[j] = .ok (active.rotate (j + 1)) ∧
        (active.rotate (j + 1)).getLast? = some active[j]) ∧
      (afterPair active i j = afterSingles active active[i] active[j] ↔
        i + 1 = active.length) := by
  refine ⟨⟨afterSingles_eq hnodup hi hj, getLast?_rotate hj⟩, ?_⟩
  rw [afterPair_eq hi hj, afterSingles_eq hnodup hi hj, Except.ok.injEq,
    hnodup.rotate_congr_iff]
  have hne : active ≠ [] := List.ne_nil_of_length_pos (by omega)
  simp only [hne, or_false]
  constructor
  · intro hmod
    have hcancel : Nat.ModEq active.length (i + 1) 0 :=
      Nat.ModEq.add_right_cancel' (j + 1) (by rw [Nat.zero_add]; exact hmod)
    have hdvd := Nat.modEq_zero_iff_dvd.mp hcancel
    exact le_antisymm hi (Nat.le_of_dvd (Nat.succ_pos i) hdvd)
  · intro hlast
    rw [hlast, Nat.add_mod_left]

/-- A producer at the end of the list, with its consumer at the front. -/
theorem afterPair_eq_afterSingles_iff_at_end :
    afterPair [5, 2, 7] 2 0 = .ok [2, 7, 5] ∧
      (afterPair [5, 2, 7] 2 0 = afterSingles [5, 2, 7] 7 5 ↔ 2 + 1 = 3) :=
  ⟨by decide, (@afterPair_eq_afterSingles_iff _ [5, 2, 7] 2 0 _ (by decide) (by decide)
    (by decide)).2⟩

/-- A producer and a consumer alone: the producer, issued first, ends up last. -/
theorem afterPair_ne_afterSingles :
    afterPair [0, 1] 0 1 = .ok [1, 0] ∧ afterSingles [0, 1] 0 1 = .ok [0, 1] := by decide

end SchedulerUnit
end WaspSim
