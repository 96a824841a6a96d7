import Mathlib.Data.List.Infix
import Mathlib.Logic.Function.Basic
import Mathlib.Logic.Relation

/-!
# Rendezvous

The members of a group meet at named places. A member that comes to a place waits there until
every member that is still present waits at the same place, and then they go on together; a
member that waits nowhere may leave. Those present have passed the same places in the same
order. A group is stuck exactly when two members wait at different places, and it then stays so.
-/

universe u v

namespace WaspSim

/-- A group that meets: who is present, where each member waits, and what each has passed. -/
@[ext] structure Rendezvous (ι : Type u) (β : Type v) where
  present : ι → Prop
  place : ι → Option β
  passed : ι → List β

namespace Rendezvous

variable {ι : Type u} {β : Type v} {r r' : Rendezvous ι β} {i j : ι} {b c : β}

/-- All members are present and have passed nothing. -/
def start (members : ι → Prop) : Rendezvous ι β where
  present := members
  place _ := none
  passed _ := []

/-- A step: a member comes to a place or leaves, or all that are present go on together. -/
inductive Step [DecidableEq ι] (r : Rendezvous ι β) : Rendezvous ι β → Prop
  | come (i : ι) (b : β) : r.present i → r.place i = none →
      Step r { r with place := Function.update r.place i (some b) }
  | leave (i : ι) : r.present i → r.place i = none →
      Step r { r with present := fun j => r.present j ∧ j ≠ i }
  | goOn (r' : Rendezvous ι β) (b : β) : (∀ i, r.present i → r.place i = some b) →
      r'.present = r.present → (∀ i, r'.place i = none) →
      (∀ i, r.present i → r'.passed i = r.passed i ++ [b]) →
      (∀ i, ¬r.present i → r'.passed i = r.passed i) → Step r r'

/-- Only members that are present wait, and those have passed all that anyone has passed. -/
structure Aligned (r : Rendezvous ι β) : Prop where
  present_of_place : ∀ i b, r.place i = some b → r.present i
  common : ∃ all, ∀ i, r.passed i <+: all ∧ (r.present i → r.passed i = all)

/-- A group that has not met is aligned. -/
theorem aligned_start (members : ι → Prop) : (start members : Rendezvous ι β).Aligned where
  present_of_place := by
    intro i b h
    cases h
  common := ⟨[], fun _ => ⟨List.prefix_refl [], fun _ => rfl⟩⟩

/-- A step keeps a group aligned. -/
theorem Aligned.step [DecidableEq ι] (h : r.Aligned) (hstep : r.Step r') : r'.Aligned := by
  cases hstep with
  | come i b hi _ =>
    refine ⟨fun j c hj => ?_, h.common⟩
    by_cases heq : j = i
    · exact heq ▸ hi
    · exact h.present_of_place j c ((Function.update_of_ne heq _ _).symm.trans hj)
  | leave i _ hnone =>
    obtain ⟨all, hall⟩ := h.common
    refine ⟨fun j c hj => ⟨h.present_of_place j c hj, ?_⟩, all, fun j => ?_⟩
    · rintro rfl
      cases hnone.symm.trans hj
    · exact ⟨(hall j).1, fun hj => (hall j).2 hj.1⟩
  | goOn _ b _ hpresent hplace hon hoff =>
    obtain ⟨all, hall⟩ := h.common
    refine ⟨fun j c hj => ?_, all ++ [b], fun j => ?_⟩
    · cases (hplace j).symm.trans hj
    · rw [hpresent]
      by_cases hj : r.present j
      · rw [hon j hj, (hall j).2 hj]
        exact ⟨List.prefix_refl _, fun _ => rfl⟩
      · rw [hoff j hj]
        exact ⟨(hall j).1.trans (List.prefix_append all [b]), fun hj' => absurd hj' hj⟩

/-- Along a whole run, those present have passed all that anyone has passed. -/
theorem Aligned.steps [DecidableEq ι] (h : r.Aligned) (hsteps : Relation.ReflTransGen Step r r') :
    r'.Aligned := by
  induction hsteps with
  | refl => exact h
  | tail _ hstep ih => exact ih.step hstep

namespace Aligned

/-- A member that is present has passed all that another one has. -/
theorem passed_le (h : r.Aligned) (i : ι) (hj : r.present j) : r.passed i <+: r.passed j := by
  obtain ⟨all, hall⟩ := h.common
  rw [(hall j).2 hj]
  exact (hall i).1

/-- Of what two members have passed, one is a prefix of the other. -/
theorem comparable (h : r.Aligned) (i j : ι) :
    r.passed i <+: r.passed j ∨ r.passed j <+: r.passed i := by
  obtain ⟨all, hall⟩ := h.common
  exact List.prefix_or_prefix_of_prefix (hall i).1 (hall j).1

end Aligned

/-- Members that wait at different places wait there for ever. -/
theorem stuck_steps [DecidableEq ι] (h : r.Aligned) (hne : b ≠ c) (hi : r.place i = some b)
    (hj : r.place j = some c) (hsteps : Relation.ReflTransGen Step r r') :
    r'.place i = some b ∧ r'.place j = some c := by
  induction hsteps with
  | refl => exact ⟨hi, hj⟩
  | @tail m m' hprev hstep ih =>
    obtain ⟨hi', hj'⟩ := ih
    have haligned := h.steps hprev
    cases hstep with
    | come k d _ hnone =>
      have hki : i ≠ k := by
        rintro rfl
        cases hnone.symm.trans hi'
      have hkj : j ≠ k := by
        rintro rfl
        cases hnone.symm.trans hj'
      exact ⟨(Function.update_of_ne hki _ _).trans hi', (Function.update_of_ne hkj _ _).trans hj'⟩
    | leave k _ _ => exact ⟨hi', hj'⟩
    | goOn _ d hall _ _ _ _ =>
      have hbi := hall i (haligned.present_of_place i b hi')
      have hcj := hall j (haligned.present_of_place j c hj')
      have hb : b = d := Option.some.inj (hi'.symm.trans hbi)
      have hc : c = d := Option.some.inj (hj'.symm.trans hcj)
      exact absurd (hb.trans hc.symm) hne

end Rendezvous
end WaspSim
