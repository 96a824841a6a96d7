import WaspSim.Core.Fifo

/-!
# Rings showing a window

`Shows` relates a ring of `n` slots to a window of at most `n` live tickets:
ticket `t` is shown by slot `t % n`, and every slot that shows no ticket is
free. Arrival, departure and a change of one item each touch one slot, because
live tickets have distinct residues.
-/

namespace WaspSim
namespace Ring

variable {ι ε : Type*}

/-- Two tickets of a window of width at most `n` with one residue are equal. -/
theorem eq_of_mod_eq {n lo t u : Nat} (htlo : lo ≤ t) (ht : t < lo + n) (hulo : lo ≤ u)
    (hu : u < lo + n) (h : t % n = u % n) : t = u := by
  wlog hle : t ≤ u generalizing t u
  · exact (this hulo hu htlo ht h.symm (by omega)).symm
  have hdvd : n ∣ u - t := (Nat.modEq_iff_dvd' hle).mp h
  have hzero : u - t = 0 := Nat.eq_zero_of_dvd_of_lt hdvd (by omega)
  omega

/-- The slots show the window: `live t i e` when slot content `e` shows item `i`
under ticket `t`, and `free e` when it shows nothing. -/
structure Shows (n : Nat) (live : Nat → ι → ε → Prop) (free : ε → Prop) (slots : List ε)
    (f : Fifo ι) : Prop where
  /-- The ring has `n` slots. -/
  size : slots.length = n
  /-- No more tickets are alive than there are slots. -/
  bounded : f.items.length ≤ n
  /-- A live ticket is shown by its slot. -/
  liveAt : ∀ t i, f.get? t = some i → ∃ e, slots[t % n]? = some e ∧ live t i e
  /-- A slot of no live ticket is free. -/
  freeAt : ∀ k e, slots[k]? = some e → (∀ t, (f.get? t).isSome → t % n ≠ k) → free e

namespace Shows

variable {n : Nat} {live : Nat → ι → ε → Prop} {free : ε → Prop} {slots : List ε} {f : Fifo ι}

/-- A ring of free slots shows the empty window. -/
theorem empty (hsize : slots.length = n) (hfree : ∀ e ∈ slots, free e) :
    Shows n live free slots (Fifo.empty : Fifo ι) where
  size := hsize
  bounded := by simp
  liveAt := by simp
  freeAt k e he _ := hfree e (List.mem_of_getElem? he)

/-- Live tickets have distinct slots. -/
theorem mod_ne (h : Shows n live free slots f) {t u : Nat} {i j : ι} (ht : f.get? t = some i)
    (hu : f.get? u = some j) (hne : t ≠ u) : t % n ≠ u % n := by
  have hb := h.bounded
  have htm := Fifo.mem_of_get? ht
  have hum := Fifo.mem_of_get? hu
  unfold Fifo.pushed at htm hum
  exact fun he => hne (eq_of_mod_eq htm.1 (by omega) hum.1 (by omega) he)

/-- While a slot is left, the slot of the next ticket is free. -/
theorem free_tail (h : Shows n live free slots f) (hroom : f.items.length < n) :
    ∃ e, slots[f.pushed % n]? = some e ∧ free e := by
  have hlt : f.pushed % n < slots.length := by
    rw [h.size]
    exact Nat.mod_lt _ (by omega)
  refine ⟨slots[f.pushed % n], List.getElem?_eq_getElem hlt, ?_⟩
  refine h.freeAt _ _ (List.getElem?_eq_getElem hlt) fun t ht he => ?_
  have hm := Fifo.get?_isSome_iff.mp ht
  have heq : t = f.pushed := by
    unfold Fifo.pushed at he hm ⊢
    exact eq_of_mod_eq hm.1 (by omega) (by omega) (by omega) he
  omega

/-- Writing a live content into the free tail slot shows the arrival. -/
theorem push (h : Shows n live free slots f) (hroom : f.items.length < n) {i : ι} {e : ε}
    (hlive : live f.pushed i e) :
    Shows n live free (slots.set (f.pushed % n) e) (f.push i) := by
  have hlt : f.pushed % n < slots.length := by
    rw [h.size]
    exact Nat.mod_lt _ (by omega)
  have hpushed : ((f.push i).get? f.pushed).isSome := by simp [Fifo.get?_push_self]
  refine ⟨by simpa using h.size, ?_, fun t j hj => ?_, fun k e' hk hnone => ?_⟩
  · rw [Fifo.items_push, List.length_append, List.length_singleton]
    exact hroom
  · by_cases ht : t = f.pushed
    · subst ht
      rw [Fifo.get?_push_self, Option.some.injEq] at hj
      subst hj
      exact ⟨e, by simp [hlt], hlive⟩
    · have hold : f.get? t = some j := by rwa [Fifo.get?_push_of_ne ht] at hj
      obtain ⟨e', he', hl⟩ := h.liveAt t j hold
      have hne : f.pushed % n ≠ t % n := by
        have hm := Fifo.mem_of_get? hold
        unfold Fifo.pushed at hm ht ⊢
        exact fun he => ht (eq_of_mod_eq hm.1 (by omega) (by omega) (by omega) he.symm)
      exact ⟨e', by rwa [List.getElem?_set_ne hne], hl⟩
  · have hne : f.pushed % n ≠ k := hnone f.pushed hpushed
    rw [List.getElem?_set_ne hne] at hk
    refine h.freeAt k e' hk fun t ht => ?_
    have hm := Fifo.get?_isSome_iff.mp ht
    exact hnone t (Fifo.get?_isSome_iff.mpr ⟨hm.1, by simp; omega⟩)

/-- Freeing the slot of the head shows the departure. -/
theorem pop (h : Shows n live free slots f) (hne : f.items ≠ []) {e : ε} (hfree : free e) :
    Shows n live free (slots.set (f.popped % n) e) f.pop := by
  have hpos : 0 < f.items.length := List.length_pos_iff.mpr hne
  obtain ⟨head, hhead⟩ : ∃ i, f.get? f.popped = some i :=
    Fifo.exists_get? (le_refl _) (by unfold Fifo.pushed; omega)
  refine ⟨by simpa using h.size, ?_, fun t j hj => ?_, fun k e' hk hnone => ?_⟩
  · have hb := h.bounded
    simp only [Fifo.items_pop, List.length_tail]
    omega
  · rw [Fifo.get?_pop] at hj
    split at hj
    · cases hj
    · rename_i ht
      obtain ⟨e', he', hl⟩ := h.liveAt t j hj
      exact ⟨e', by rwa [List.getElem?_set_ne (h.mod_ne hhead hj (Ne.symm ht))], hl⟩
  · by_cases hk' : f.popped % n = k
    · subst hk'
      rw [List.getElem?_set_self'] at hk
      cases hs : slots[f.popped % n]? with
      | none => simp [hs] at hk
      | some old =>
        have he : e' = e := by simpa [hs] using hk.symm
        exact he ▸ hfree
    · rw [List.getElem?_set_ne hk'] at hk
      refine h.freeAt k e' hk fun t ht => ?_
      by_cases htp : t = f.popped
      · exact htp ▸ hk'
      · exact hnone t (by rw [Fifo.get?_pop, if_neg htp]; exact ht)

/-- Rewriting the slot of a live ticket shows the change of its item. -/
theorem modify (h : Shows n live free slots f) {t : Nat} {i : ι} (ht : f.get? t = some i)
    {g : ι → ι} {e : ε} (hlive : live t (g i) e) :
    Shows n live free (slots.set (t % n) e) (f.modify t g) := by
  obtain ⟨old, hold, _⟩ := h.liveAt t i ht
  have hlt : t % n < slots.length := List.getElem?_eq_some_iff.mp hold |>.1
  refine ⟨by simpa using h.size, by simpa using h.bounded, fun u j hj => ?_,
    fun k e' hk hnone => ?_⟩
  · rw [Fifo.get?_modify ht] at hj
    split at hj
    · rename_i hu
      subst hu
      rw [Option.some.injEq] at hj
      subst hj
      exact ⟨e, by simp [hlt], hlive⟩
    · rename_i hu
      obtain ⟨e', he', hl⟩ := h.liveAt u j hj
      exact ⟨e', by rwa [List.getElem?_set_ne (h.mod_ne ht hj (Ne.symm hu))], hl⟩
  · have hmod : ∀ u, ((f.modify t g).get? u).isSome ↔ (f.get? u).isSome := by
      intro u
      simp [Fifo.get?_isSome_iff]
    have hne : t % n ≠ k := hnone t ((hmod t).mpr (by simp [ht]))
    rw [List.getElem?_set_ne hne] at hk
    exact h.freeAt k e' hk fun u hu => hnone u ((hmod u).mpr hu)

/-- A slot that is not free shows a live ticket. -/
theorem exists_live (h : Shows n live free slots f) {k : Nat} {e : ε} (he : slots[k]? = some e)
    (hfree : ¬free e) : ∃ t i, f.get? t = some i ∧ t % n = k ∧ live t i e := by
  by_contra hnone
  apply hfree
  apply h.freeAt k e he
  intro t ht hslot
  obtain ⟨i, hi⟩ := Option.isSome_iff_exists.mp ht
  obtain ⟨e', he', hlive⟩ := h.liveAt t i hi
  rw [hslot, he, Option.some.injEq] at he'
  exact hnone ⟨t, i, hi, hslot, he' ▸ hlive⟩

private theorem sum_set (g : ε → Nat) (z : ε) {l : List ε} {k : Nat} {e : ε} (he : l[k]? = some e) :
    ((l.set k z).map g).sum + g e = (l.map g).sum + g z := by
  induction l generalizing k with
  | nil => cases he
  | cons x xs ih =>
    cases k with
    | zero =>
      obtain rfl : x = e := by simpa using he
      simp only [List.set_cons_zero, List.map_cons, List.sum_cons]
      omega
    | succ k =>
      have hrest := ih (k := k) (by simpa using he)
      simp only [List.set_cons_succ, List.map_cons, List.sum_cons]
      omega

/-- A ring weighs what its window weighs, for every weight of slots under which free
slots weigh nothing. -/
theorem sum_eq {g : ε → Nat} {w : ι → Nat} (h : Shows n live free slots f)
    (hlive : ∀ t i e, live t i e → g e = w i) (hfree : ∀ e, free e → g e = 0) {z : ε}
    (hz : free z) : (slots.map g).sum = f.weight w := by
  induction hlen : f.items.length generalizing slots f with
  | zero =>
    rw [Fifo.weight, List.eq_nil_of_length_eq_zero hlen]
    apply List.sum_eq_zero
    intro x hx
    obtain ⟨e, he, rfl⟩ := List.mem_map.mp hx
    obtain ⟨k, hk⟩ := List.mem_iff_getElem?.mp he
    apply hfree
    apply h.freeAt k e hk
    intro t ht
    have hm := Fifo.get?_isSome_iff.mp ht
    unfold Fifo.pushed at hm
    omega
  | succ m ih =>
    have hne : f.items ≠ [] := List.ne_nil_of_length_eq_add_one hlen
    obtain ⟨i, hi⟩ : ∃ i, f.get? f.popped = some i :=
      Fifo.exists_get? (le_refl _) (by unfold Fifo.pushed; omega)
    obtain ⟨e, he, hl⟩ := h.liveAt _ i hi
    have hrest := ih (h.pop hne hz) (by simp [hlen])
    have hset := sum_set g z he
    have hpop := Fifo.weight_pop w (by rw [← Fifo.get?_popped]; exact hi)
    rw [hrest, hlive _ _ _ hl, hfree z hz] at hset
    omega

end Shows

/-- The slots of the last `n` of `p` tickets still carry the stamps of these tickets,
whether the tickets are alive or not. -/
def Stamped (n : Nat) (stamp : Nat → ε → Prop) (slots : List ε) (p : Nat) : Prop :=
  ∀ t < p, p ≤ t + n → ∃ e, slots[t % n]? = some e ∧ stamp t e

namespace Stamped

variable {n p : Nat} {stamp : Nat → ε → Prop} {slots : List ε}

theorem zero : Stamped n stamp slots 0 := fun _ ht => absurd ht (Nat.not_lt_zero _)

/-- Stamping the slot of the next ticket. -/
theorem succ (h : Stamped n stamp slots p) (hsize : slots.length = n) (hpos : 0 < n) {e : ε}
    (he : stamp p e) : Stamped n stamp (slots.set (p % n) e) (p + 1) := by
  intro t ht hn
  rcases Nat.lt_succ_iff_lt_or_eq.mp ht with hlt | rfl
  · obtain ⟨e', he', hs⟩ := h t hlt (by omega)
    have hne : p % n ≠ t % n := by
      intro heq
      have := eq_of_mod_eq (n := n) hlt.le (by omega) (le_refl t) (by omega) heq
      omega
    exact ⟨e', by rwa [List.getElem?_set_ne hne], hs⟩
  · refine ⟨e, ?_, he⟩
    rw [List.getElem?_set_self (by rw [hsize]; exact Nat.mod_lt _ hpos)]

/-- Rewriting the slot of a recent ticket without changing its stamp. -/
theorem set (h : Stamped n stamp slots p) {t : Nat} (ht : t < p) (hn : p ≤ t + n) {e : ε}
    (he : stamp t e) : Stamped n stamp (slots.set (t % n) e) p := by
  intro u hu hun
  by_cases heq : u % n = t % n
  · obtain ⟨old, hold, _⟩ := h t ht hn
    have hut : u = t := by
      rcases Nat.le_total t u with hle | hle
      · exact eq_of_mod_eq hle (by omega) (le_refl t) (by omega) heq
      · exact (eq_of_mod_eq hle (by omega) (le_refl u) (by omega) heq.symm).symm
    subst hut
    exact ⟨e, by rw [List.getElem?_set_self (List.getElem?_eq_some_iff.mp hold).1], he⟩
  · obtain ⟨e', he', hs⟩ := h u hu hun
    exact ⟨e', by rwa [List.getElem?_set_ne (Ne.symm heq)], hs⟩

end Stamped
end Ring
end WaspSim
