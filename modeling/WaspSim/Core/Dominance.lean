import Mathlib.Data.Finset.Card
import Mathlib.Data.Finset.Max
import Mathlib.Data.List.Infix

/-!
# Nodes that every path passes

In a directed graph a node guards another when every path from that one to the root passes it.
The guards of a node that can reach the root lie one behind the other, so one of them is nearest,
and it is what is left when each guard strikes out the guards behind it. Guarding is the
greatest relation that holds between a node and itself, and along every edge away from the root.
-/

universe u

namespace WaspSim

/-- The paths from a node to the root, as the nodes they pass. -/
inductive PathTo {α : Type u} (E : α → α → Prop) (root : α) : α → List α → Prop
  | arrive : PathTo E root root [root]
  | step {u v : α} {p : List α} : E u v → PathTo E root v p → PathTo E root u (u :: p)

/-- `d` is on every path from `u` to the root. -/
def Guards {α : Type u} (E : α → α → Prop) (root d u : α) : Prop :=
  ∀ p, PathTo E root u p → d ∈ p

/-- The guard of `u` other than `u` that every other such guard guards. -/
structure NearestGuard {α : Type u} (E : α → α → Prop) (root i u : α) : Prop where
  ne : i ≠ u
  guards : Guards E root i u
  behind : ∀ d, d ≠ u → Guards E root d u → Guards E root d i

section

variable {α : Type u} {E : α → α → Prop} {root d e i u v : α} {p : List α}

namespace PathTo

/-- A path passes where it starts. -/
theorem head_mem (h : PathTo E root u p) : u ∈ p := by
  cases h with
  | arrive => exact List.mem_cons_self
  | step _ _ => exact List.mem_cons_self

/-- A path passes the root. -/
theorem root_mem (h : PathTo E root u p) : root ∈ p := by
  induction h with
  | arrive => exact List.mem_cons_self
  | step _ _ ih => exact List.mem_cons_of_mem _ ih

/-- A path that passes `d` goes on from it. -/
theorem suffix (h : PathTo E root u p) (hd : d ∈ p) : ∃ q, q <:+ p ∧ PathTo E root d q := by
  induction h with
  | arrive =>
    rw [List.mem_singleton] at hd
    exact ⟨_, List.suffix_refl _, hd ▸ .arrive⟩
  | @step u v p hE hp ih =>
    rcases List.mem_cons.mp hd with rfl | hd
    · exact ⟨_, List.suffix_refl _, .step hE hp⟩
    · obtain ⟨q, hq, hpath⟩ := ih hd
      exact ⟨q, hq.trans (List.suffix_cons _ _), hpath⟩

/-- A path that passes a node other than its first goes on from it by a shorter one. -/
theorem shorter (h : PathTo E root u p) (hd : d ∈ p) (hne : d ≠ u) :
    ∃ q, q.length < p.length ∧ q ⊆ p ∧ PathTo E root d q := by
  cases h with
  | arrive => exact absurd (List.mem_singleton.mp hd) hne
  | @step _ v p hE hp =>
    obtain ⟨q, hq, hpath⟩ := hp.suffix ((List.mem_cons.mp hd).resolve_left hne)
    refine ⟨q, ?_, fun x hx => List.mem_cons_of_mem _ (hq.subset hx), hpath⟩
    exact Nat.lt_succ_of_le hq.length_le

end PathTo

namespace Guards

/-- Every node guards itself. -/
theorem refl : Guards E root u u := fun _ hp => hp.head_mem

/-- The root guards every node. -/
theorem root_guards : Guards E root root u := fun _ hp => hp.root_mem

/-- Only the root guards the root. -/
theorem eq_root (h : Guards E root d root) : d = root := List.mem_singleton.mp (h _ .arrive)

/-- What guards a guard guards the node too. -/
theorem trans (hd : Guards E root d e) (he : Guards E root e u) : Guards E root d u := by
  intro p hp
  obtain ⟨q, hq, hpath⟩ := hp.suffix (he p hp)
  exact hq.subset (hd q hpath)

/-- A guard that a path has not met yet is still ahead of it. -/
theorem along (h : Guards E root d u) (hne : d ≠ u) (hE : E u v) : Guards E root d v := by
  intro p hp
  exact (List.mem_cons.mp (h _ (.step hE hp))).resolve_left hne

/-- What guards every node that an edge leads to guards the node itself. -/
theorem of_edges (hroot : u ≠ root) (h : ∀ v, E u v → Guards E root d v) :
    Guards E root d u := by
  intro p hp
  cases hp with
  | arrive => exact absurd rfl hroot
  | step hE hp => exact List.mem_cons_of_mem _ (h _ hE _ hp)

/-- A guard of a node other than the root is the node itself, or guards all that it has edges to. -/
theorem iff_edges (hroot : u ≠ root) :
    Guards E root d u ↔ d = u ∨ ∀ v, E u v → Guards E root d v := by
  constructor
  · intro h
    by_cases hne : d = u
    · exact .inl hne
    · exact .inr fun v hE => h.along hne hE
  · rintro (rfl | h)
    · exact refl
    · exact of_edges hroot h

/-- Guarding is the greatest relation that is the identity at the root and holds elsewhere only
between a node and itself, or along every edge. -/
theorem greatest {R : α → α → Prop} (hroot : ∀ d, R d root → d = root)
    (hedge : ∀ d u, u ≠ root → R d u → d = u ∨ ∀ v, E u v → R d v) (h : R d u) :
    Guards E root d u := by
  intro p hp
  induction hp with
  | arrive => exact List.mem_singleton.mpr (hroot d h)
  | @step u v p hE hp ih =>
    by_cases hu : u = root
    · subst hu
      exact List.mem_cons.mpr (.inl (hroot d h))
    · rcases hedge d u hu h with rfl | hall
      · exact List.mem_cons_self
      · exact List.mem_cons_of_mem _ (ih (hall v hE))

/-- Two nodes on paths to the root that guard each other are one. -/
theorem antisymm (hp : PathTo E root d p) (hde : Guards E root d e) (hed : Guards E root e d) :
    d = e := by
  induction hn : p.length using Nat.strong_induction_on generalizing p with
  | _ n ih =>
    by_contra hne
    -- the rest of the path from `e` leads back to `d`, and is shorter
    obtain ⟨q, hlt, _, hq⟩ := hp.shorter (hed p hp) (Ne.symm hne)
    obtain ⟨r, hle, hr⟩ := hq.suffix (hde q hq)
    exact hne (ih r.length (hn ▸ hle.length_le.trans_lt hlt) hr rfl)

/-- The guards of a node that reaches the root lie one behind the other. -/
theorem chain (hp : PathTo E root u p) (hd : Guards E root d u) (he : Guards E root e u) :
    Guards E root d e ∨ Guards E root e d := by
  induction hp with
  | arrive =>
    rw [hd.eq_root, he.eq_root]
    exact .inl refl
  | @step u v p hE hp ih =>
    by_cases hdu : d = u
    · exact .inr (hdu ▸ he)
    · by_cases heu : e = u
      · exact .inl (heu ▸ hd)
      · exact ih (hd.along hdu hE) (he.along heu hE)

end Guards

namespace NearestGuard

/-- In a finite set of nodes with the root, every other node that reaches the root has a nearest
guard among them, as far as its guards are. -/
theorem exists_nearest {V : Finset α} (hV : ∀ d, Guards E root d u → d ∈ V)
    (hp : PathTo E root u p) (hu : u ≠ root) : ∃ i ∈ V, NearestGuard E root i u := by
  classical
  -- among the other guards, take one with the most guards of `u` behind it
  let strict := V.filter fun d => d ≠ u ∧ Guards E root d u
  let behind := fun d => (V.filter fun e => Guards E root e d).card
  have hroot : root ∈ strict :=
    Finset.mem_filter.mpr ⟨hV root .root_guards, Ne.symm hu, .root_guards⟩
  obtain ⟨i, hi, hmax⟩ := strict.exists_max_image behind ⟨root, hroot⟩
  obtain ⟨hiV, hne, hguards⟩ := Finset.mem_filter.mp hi
  refine ⟨i, hiV, hne, hguards, fun d hd hdu => ?_⟩
  rcases Guards.chain hp hdu hguards with hdi | hid
  · exact hdi
  · -- `d` has at least the guards of `i`; having no more, it has `d` among those of `i`
    have hsub : (V.filter fun e => Guards E root e i) ⊆ V.filter fun e => Guards E root e d := by
      intro e he
      obtain ⟨heV, hei⟩ := Finset.mem_filter.mp he
      exact Finset.mem_filter.mpr ⟨heV, hei.trans hid⟩
    have heq := Finset.eq_of_subset_of_card_le hsub
      (hmax d (Finset.mem_filter.mpr ⟨hV d hdu, hd, hdu⟩))
    have hmem : d ∈ V.filter fun e => Guards E root e i := by
      rw [heq]
      exact Finset.mem_filter.mpr ⟨hV d hdu, .refl⟩
    exact (Finset.mem_filter.mp hmem).2

end NearestGuard

end

end WaspSim
