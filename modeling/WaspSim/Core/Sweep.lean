import Mathlib.Algebra.Order.BigOperators.Group.Finset
import Mathlib.Order.Monotone.Basic

/-!
# Sweeping down to a fixed point

A table of values is revised in place, entry after entry, and swept again as long as an entry
changed. When the revision is monotone and lowers the first table, it lowers every table after
it. A rank that falls with the entries ends the sweeps, and the table they end with is the
greatest one below the first that no revision lowers.
-/

universe u v

namespace WaspSim

namespace Sweep

variable {ι : Type u} {L : Type v} [DecidableEq ι] [DecidableEq L]

/-- Revise the entry at `h`, and note when it changed. -/
def visit (F : (ι → L) → ι → L) (s : (ι → L) × Bool) (h : ι) : (ι → L) × Bool :=
  if F s.1 h = s.1 h then s else (Function.update s.1 h (F s.1 h), true)

/-- One sweep over the entries of `order`. -/
def pass (F : (ι → L) → ι → L) (order : List ι) (S : ι → L) : (ι → L) × Bool :=
  order.foldl (visit F) (S, false)

/-- Sweep until a sweep changes nothing, `fuel` times at most. -/
def settle (F : (ι → L) → ι → L) (order : List ι) : Nat → (ι → L) → Option (ι → L)
  | 0, _ => none
  | fuel + 1, S =>
    if (pass F order S).2 = true then settle F order fuel (pass F order S).1
    else some (pass F order S).1

/-- No revision of an entry of `order` raises it. -/
def Lowers [LE L] (F : (ι → L) → ι → L) (order : List ι) (S : ι → L) : Prop :=
  ∀ h ∈ order, F S h ≤ S h

/-- What the entries of `order` rank together. -/
def total (rank : L → Nat) (order : List ι) (S : ι → L) : Nat :=
  ∑ h ∈ order.toFinset, rank (S h)

section

variable {F : (ι → L) → ι → L} {order order' : List ι} {S S' X : ι → L} {s : (ι → L) × Bool}
  {h k : ι} {fuel : Nat}

/-- A visit changes one entry only. -/
theorem visit_of_ne (hk : k ≠ h) : (visit F s h).1 k = s.1 k := by
  unfold visit
  split
  · rfl
  · exact Function.update_of_ne hk _ _

/-- A visit revises its entry. -/
theorem visit_self : (visit F s h).1 h = F s.1 h := by
  unfold visit
  split
  · next heq => exact heq.symm
  · exact Function.update_self _ _ _

/-- A visit that leaves the note unset changed nothing. -/
theorem visit_unchanged (hs : (visit F s h).2 = false) :
    visit F s h = s ∧ F s.1 h = s.1 h := by
  unfold visit at hs ⊢
  split at hs
  · next heq => exact ⟨if_pos heq, heq⟩
  · cases hs

/-- A sweep that notes no change ends where it began, at entries that no revision changes. -/
theorem foldl_unchanged (hs : (order.foldl (visit F) s).2 = false) :
    order.foldl (visit F) s = s ∧ ∀ h ∈ order, F s.1 h = s.1 h := by
  induction order generalizing s with
  | nil => exact ⟨rfl, fun h hh => absurd hh List.not_mem_nil⟩
  | cons h order ih =>
    obtain ⟨hfold, hrest⟩ := ih hs
    have hvisit : (visit F s h).2 = false := by
      rw [List.foldl_cons, hfold] at hs
      exact hs
    obtain ⟨hsame, hfix⟩ := visit_unchanged hvisit
    rw [hsame] at hfold hrest
    refine ⟨by rw [List.foldl_cons, hsame, hfold], fun k hk => ?_⟩
    cases hk with
    | head => exact hfix
    | tail _ hk => exact hrest k hk

/-- A sweep leaves alone the entries that it does not visit. -/
theorem foldl_of_not_mem (hk : k ∉ order) : (order.foldl (visit F) s).1 k = s.1 k := by
  induction order generalizing s with
  | nil => rfl
  | cons h order ih =>
    rw [List.mem_cons, not_or] at hk
    rw [List.foldl_cons, ih hk.2, visit_of_ne hk.1]

end

section

variable [PartialOrder L] {F : (ι → L) → ι → L} {order order' : List ι} {S S' X : ι → L}
  {s : (ι → L) × Bool} {h k : ι} {fuel : Nat} {rank : L → Nat}

/-- A visit that lowers its entry lowers the table. -/
theorem visit_le (hlow : F s.1 h ≤ s.1 h) : (visit F s h).1 ≤ s.1 := by
  intro k
  by_cases hk : k = h
  · rw [hk, visit_self]
    exact hlow
  · rw [visit_of_ne hk]

/-- After a visit revisions still lower their entries. -/
theorem Lowers.visit (hF : Monotone F) (hlow : Lowers F order s.1) (hh : h ∈ order) :
    Lowers F order (visit F s h).1 := by
  intro k hk
  have hle := hF (visit_le (hlow h hh)) k
  by_cases heq : k = h
  · rw [heq, visit_self]
    exact heq ▸ hle
  · rw [visit_of_ne heq]
    exact hle.trans (hlow k hk)

/-- A table that revisions of `order` only raise stays below one that it is below. -/
theorem below_visit (hF : Monotone F) (hX : X h ≤ F X h) (hle : X ≤ s.1) :
    X ≤ (visit F s h).1 := by
  intro k
  by_cases hk : k = h
  · rw [hk, visit_self]
    exact hX.trans (hF hle h)
  · rw [visit_of_ne hk]
    exact hle k

/-- What a sweep keeps: entries only fall, revisions go on lowering them, and every table that
revisions raise stays below. -/
theorem foldl_lowers (hF : Monotone F) (hsub : order' ⊆ order) (hlow : Lowers F order s.1) :
    (order'.foldl (visit F) s).1 ≤ s.1 ∧ Lowers F order (order'.foldl (visit F) s).1 ∧
      ∀ X, (∀ h ∈ order, X h ≤ F X h) → X ≤ s.1 → X ≤ (order'.foldl (visit F) s).1 := by
  induction order' generalizing s with
  | nil => exact ⟨le_refl _, hlow, fun X _ hX => hX⟩
  | cons h order' ih =>
    have hh : h ∈ order := hsub List.mem_cons_self
    obtain ⟨hle, hlow', hbelow⟩ :=
      ih (fun k hk => hsub (List.mem_cons_of_mem _ hk)) (Lowers.visit hF hlow hh)
    refine ⟨hle.trans (visit_le (hlow h hh)), hlow', fun X hX hXs => ?_⟩
    exact hbelow X hX (below_visit hF (hX h hh) hXs)

omit [DecidableEq L] in

/-- A lower table has no larger total. -/
theorem total_le (hrank : StrictMono rank) (hle : S' ≤ S) :
    total rank order S' ≤ total rank order S :=
  Finset.sum_le_sum fun h _ => hrank.monotone (hle h)

omit [DecidableEq L] in

/-- An entry that falls lowers the total. -/
theorem total_lt (hrank : StrictMono rank) (hle : S' ≤ S) (hh : h ∈ order) (hlt : S' h < S h) :
    total rank order S' < total rank order S := by
  refine Finset.sum_lt_sum (fun k _ => hrank.monotone (hle k)) ⟨h, ?_, hrank hlt⟩
  exact List.mem_toFinset.mpr hh

/-- A sweep that notes a change lowered an entry. -/
theorem foldl_changed (hF : Monotone F) (hrank : StrictMono rank) (hsub : order' ⊆ order)
    (hlow : Lowers F order s.1) (hs : s.2 = false)
    (hnote : (order'.foldl (visit F) s).2 = true) :
    total rank order (order'.foldl (visit F) s).1 < total rank order s.1 := by
  induction order' generalizing s with
  | nil => rw [List.foldl_nil, hs] at hnote; cases hnote
  | cons h order' ih =>
    have hh : h ∈ order := hsub List.mem_cons_self
    have hrest : order' ⊆ order := fun k hk => hsub (List.mem_cons_of_mem _ hk)
    cases hvisit : (visit F s h).2 with
    | false =>
      obtain ⟨hsame, _⟩ := visit_unchanged hvisit
      rw [List.foldl_cons, hsame] at hnote ⊢
      exact ih hrest hlow hs hnote
    | true =>
      -- the visit itself lowered the entry, and later visits raise none
      have hne : F s.1 h ≠ s.1 h := by
        intro heq
        rw [visit, if_pos heq, hs] at hvisit
        cases hvisit
      have hlt : (visit F s h).1 h < s.1 h := by
        rw [visit_self]
        exact lt_of_le_of_ne (hlow h hh) hne
      have hle := (foldl_lowers hF hrest (Lowers.visit hF hlow hh)).1
      rw [List.foldl_cons]
      exact (total_le hrank hle).trans_lt (total_lt hrank (visit_le (hlow h hh)) hh hlt)

/-- The sweeps end at the greatest table below the first that no revision lowers. -/
theorem settle_spec (hF : Monotone F) (hlow : Lowers F order S)
    (hrun : settle F order fuel S = some S') :
    S' ≤ S ∧ (∀ h ∈ order, F S' h = S' h) ∧ (∀ k, k ∉ order → S' k = S k) ∧
      ∀ X, (∀ h ∈ order, X h ≤ F X h) → X ≤ S → X ≤ S' := by
  induction fuel generalizing S with
  | zero => cases hrun
  | succ fuel ih =>
    obtain ⟨hle, hlow', hbelow⟩ :=
      foldl_lowers (s := (S, false)) hF (List.Subset.refl order) hlow
    rw [settle] at hrun
    split at hrun
    · obtain ⟨hle', hfix, hout, hbelow'⟩ := ih hlow' hrun
      refine ⟨hle'.trans hle, hfix, fun k hk => ?_, fun X hX hXS => ?_⟩
      · rw [hout k hk]
        exact foldl_of_not_mem hk
      · exact hbelow' X hX (hbelow X hX hXS)
    · next hnote =>
      obtain ⟨hsame, hfix⟩ := foldl_unchanged (Bool.eq_false_iff.mpr hnote)
      have hS : S' = S := by
        rw [← Option.some.inj hrun, pass, hsame]
      rw [hS]
      exact ⟨le_refl _, hfix, fun _ _ => rfl, fun X _ hXS => hXS⟩

/-- As many sweeps as the first table ranks, and one more, are enough. -/
theorem settle_isSome (hF : Monotone F) (hrank : StrictMono rank) (hlow : Lowers F order S)
    (hfuel : total rank order S < fuel) : ∃ S', settle F order fuel S = some S' := by
  induction fuel generalizing S with
  | zero => exact absurd hfuel (Nat.not_lt_zero _)
  | succ fuel ih =>
    rw [settle]
    split
    · next hnote =>
      have hfall := foldl_changed (s := (S, false)) hF hrank (List.Subset.refl order) hlow rfl hnote
      have hlow' := (foldl_lowers (s := (S, false)) hF (List.Subset.refl order) hlow).2.1
      exact ih hlow' (hfall.trans_le (Nat.lt_succ_iff.mp hfuel))
    · exact ⟨_, rfl⟩

end

end Sweep

end WaspSim
