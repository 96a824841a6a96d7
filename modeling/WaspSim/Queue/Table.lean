import Mathlib.Algebra.BigOperators.Group.Finset.Piecewise
import WaspSim.Queue.Operations

/-!
# Lookups and sums in a queue table

Creating a queue changes the entry of its key alone, and retiring a hardware CTA
drops exactly the entries of that CTA. A sum over the queues of a table changes
with the queue of a key by what the queue changes, and a table that loses queues
loses their share.
-/

namespace WaspSim
namespace QueueTable

variable {t t' : QueueTable} {key : QueueKey} {q : Queue}

@[simp] theorem find_eq_ok : find t key = .ok q ↔ t.lookup key = some q := by
  simp [find]

/-- Creating or finding a queue stores it under its key. -/
theorem getOrCreate_eq_ok {entries width warpSize : Nat} :
    getOrCreate t key entries width warpSize = .ok (t', q) ↔
      ((t.lookup key).getD {}).configure entries width warpSize = .ok q ∧
        t' = t.insert key q := by
  simp only [getOrCreate, bind_eq_ok, pure_eq_ok, Prod.mk.injEq]
  constructor
  · rintro ⟨q', hq, rfl, rfl⟩
    exact ⟨hq, rfl⟩
  · rintro ⟨hq, rfl⟩
    exact ⟨q, hq, rfl, rfl⟩

private theorem dlookup_filter (p : QueueKey → Bool) (key : QueueKey) :
    ∀ l : List (Sigma fun _ : QueueKey => Queue),
      (l.filter fun e => p e.1).dlookup key = if p key then l.dlookup key else none
  | [] => by simp
  | ⟨k, q⟩ :: l => by
    have ih := dlookup_filter p key l
    by_cases hk : k = key
    · subst hk
      by_cases hp : p k
      · simp [hp]
      · rw [List.filter_cons_of_neg (by simpa using hp), ih]
        simp [hp]
    · have hne : key ≠ k := Ne.symm hk
      by_cases hp : p k
      · rw [List.filter_cons_of_pos (by simpa using hp), List.dlookup_cons_ne _ _ hne, ih,
          List.dlookup_cons_ne _ _ hne]
      · rw [List.filter_cons_of_neg (by simpa using hp), ih, List.dlookup_cons_ne _ _ hne]

/-- Retiring a CTA hides its own queues and no others. -/
theorem lookup_eraseCta (t : QueueTable) (ctaHwId : Nat) (key : QueueKey) :
    (t.eraseCta ctaHwId).lookup key =
      if key.ctaHwId = ctaHwId then none else t.lookup key := by
  have h := dlookup_filter (fun k => k.ctaHwId != ctaHwId) key t.entries
  by_cases hk : key.ctaHwId = ctaHwId
  · simpa [eraseCta, AList.lookup, hk] using h
  · simpa [eraseCta, AList.lookup, hk] using h

/-- The share of a key in a sum over the queues. -/
def share (g : Queue → Nat) (t : QueueTable) (key : QueueKey) : Nat :=
  ((t.lookup key).map g).getD 0

theorem share_of_lookup {g : Queue → Nat} (h : t.lookup key = some q) : t.share g key = g q := by
  simp [share, h]

theorem share_of_not_mem {g : Queue → Nat} (h : key ∉ t) : t.share g key = 0 := by
  simp [share, AList.lookup_eq_none.mpr h]

theorem share_without (g : Queue → Nat) (t t' : QueueTable) (key : QueueKey) :
    (t.without t').share g key = if key ∈ t' then 0 else t.share g key := by
  have h := dlookup_filter (fun k => decide (k ∉ t')) key t.entries
  by_cases hk : key ∈ t'
  · simp only [share, without, AList.lookup, decide_not, hk, decide_true, Bool.not_true,
      Bool.false_eq_true, ↓reduceIte] at h ⊢
    rw [h]
    rfl
  · simp only [share, without, AList.lookup, decide_not, hk, decide_false, Bool.not_false,
      ↓reduceIte] at h ⊢
    rw [h]

private theorem sum_dlookup (g : Queue → Nat) (l : List (Sigma fun _ : QueueKey => Queue))
    (hl : l.NodupKeys) (K : Finset QueueKey) (hK : ∀ k ∈ l.keys, k ∈ K) :
    (l.map fun e => g e.2).sum = ∑ k ∈ K, ((l.dlookup k).map g).getD 0 := by
  induction l with
  | nil => simp
  | cons e l ih =>
    obtain ⟨k₀, q₀⟩ := e
    obtain ⟨hnew, hl⟩ := List.nodupKeys_cons.mp hl
    have hmem : k₀ ∈ K := hK k₀ (by simp)
    have hrest := ih hl (fun k hk => hK k (by simp [hk]))
    have hsplit : ∀ k, (((⟨k₀, q₀⟩ :: l : List (Sigma _)).dlookup k).map g).getD 0 =
        (if k = k₀ then g q₀ else 0) + ((l.dlookup k).map g).getD 0 := by
      intro k
      by_cases hk : k = k₀
      · subst hk
        rw [List.dlookup_cons_eq, List.dlookup_eq_none.mpr hnew, if_pos rfl]
        rfl
      · rw [List.dlookup_cons_ne _ _ hk, if_neg hk, Nat.zero_add]
    rw [List.map_cons, List.sum_cons, hrest, Finset.sum_congr rfl fun k _ => hsplit k,
      Finset.sum_add_distrib, Finset.sum_ite_eq' K k₀, if_pos hmem]

/-- A sum over the queues is the sum of the shares of any keys that cover the table. -/
theorem total_eq_sum (g : Queue → Nat) (t : QueueTable) {K : Finset QueueKey}
    (hK : ∀ key ∈ t, key ∈ K) : t.total g = ∑ key ∈ K, t.share g key :=
  sum_dlookup g t.entries t.nodupKeys K fun k hk => hK k (AList.mem_keys.mpr hk)

/-- What a table keeps, apart from one key, and what it loses. -/
theorem total_change {g : Queue → Nat} {a b : Nat}
    (hothers : ∀ k, k ≠ key → k ∈ t' → t'.share g k = t.share g k)
    (hkey : t'.share g key + (t.without t').share g key + a = t.share g key + b) :
    t'.total g + (t.without t').total g + a = t.total g + b := by
  have hcover : ∀ t₀ : QueueTable, t₀ = t ∨ t₀ = t' ∨ t₀ = t.without t' →
      ∀ k ∈ t₀, k ∈ insert key (t.keys.toFinset ∪ t'.keys.toFinset) := by
    rintro t₀ (rfl | rfl | rfl) k hk
    · simp [AList.mem_keys.mp hk]
    · simp [AList.mem_keys.mp hk]
    · have hsub : k ∈ t.entries.keys := (List.filter_sublist.map Sigma.fst).subset hk
      simp [AList.keys, hsub]
  rw [total_eq_sum g t' (hcover t' (.inr (.inl rfl))),
    total_eq_sum g (t.without t') (hcover _ (.inr (.inr rfl))),
    total_eq_sum g t (hcover t (.inl rfl)), ← Finset.sum_add_distrib]
  have hmem : key ∈ insert key (t.keys.toFinset ∪ t'.keys.toFinset) := Finset.mem_insert_self _ _
  rw [← Finset.add_sum_erase _ _ hmem, ← Finset.add_sum_erase _ _ hmem]
  have hrest : ∑ k ∈ (insert key (t.keys.toFinset ∪ t'.keys.toFinset)).erase key,
        (t'.share g k + (t.without t').share g k) =
      ∑ k ∈ (insert key (t.keys.toFinset ∪ t'.keys.toFinset)).erase key, t.share g k := by
    apply Finset.sum_congr rfl
    intro k hk
    rw [share_without]
    by_cases hk' : k ∈ t'
    · rw [if_pos hk', Nat.add_zero, hothers k (Finset.ne_of_mem_erase hk) hk']
    · rw [if_neg hk', share_of_not_mem hk', Nat.zero_add]
  rw [hrest]
  omega

/-- A table that keeps the share of every key it still has. -/
theorem total_keep {g : Queue → Nat} (h : ∀ k, k ∈ t' → t'.share g k = t.share g k) :
    t'.total g + (t.without t').total g = t.total g := by
  have hkey : t'.share g {} + (t.without t').share g {} + 0 = t.share g {} + 0 := by
    rw [share_without]
    by_cases hk : ({} : QueueKey) ∈ t'
    · rw [if_pos hk, h _ hk]
    · rw [if_neg hk, share_of_not_mem hk, Nat.zero_add]
  exact total_change (fun k _ => h k) hkey

end QueueTable
end WaspSim
