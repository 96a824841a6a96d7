import WaspSim.Correctness.Tracks

/-!
# Where queues come from

A queue appears under a key when a running warp tests or issues an instruction
that names the key, and is then as wide as that instruction. It keeps its shape
until its CTA is retired.
-/

namespace WaspSim

variable {Mem : Type}

/-- The warp and the instruction that an action tests or issues. -/
def Action.named? : Action Mem → Option (Nat × QueueInst)
  | .test w inst _ => some (w, inst)
  | .issue w inst _ _ => some (w, inst)
  | _ => none

namespace Shader

variable {cfg : Config} {kind : QueueKind} {key : QueueKey} {s s' : Shader Mem}
  {f : Fifo (Item Nat)} {log es : List Event} {read : Mem → BitVec 64 → Nat → BitVec 64}

/-- A running warp tests or issues an instruction on a queue. -/
structure Names (cfg : Config) (s : Shader Mem) (a : Action Mem) (w : Nat) (inst : QueueInst)
    (key : QueueKey) : Prop where
  named : a.named? = some (w, inst)
  running : (s.warps w).functionalDone = false
  enabled : cfg.enabled inst.kind = true
  key_eq : keyForWarp inst.kind cfg s w inst.queueId = .ok key

/-- The instruction that an issue logs names its queue. -/
theorem Issued.names {key : QueueKey} {w : Nat} {inst : QueueInst} {wi : WarpInst}
    {mask : ActiveMask} {input : LaneInput} (h : Issued cfg key s s' w inst wi) :
    Names cfg s (.issue w inst mask input) w inst key :=
  ⟨rfl, h.busy.2, h.enabled, h.key_eq⟩

/-- Testing an instruction creates no queue but the one it names. -/
private theorem canIssue_back {kind' : QueueKind} {w : Nat} {inst : QueueInst}
    {countStall ready : Bool} {q : Queue}
    (h : canIssue kind' cfg s w inst countStall = .ok (s', ready))
    (hf : Holds cfg kind key s f) (hq : s'.queue? kind key = some q) :
    s.queue? kind key = some q ∨ (inst.kind = kind ∧ cfg.enabled inst.kind = true ∧
      keyForWarp inst.kind cfg s w inst.queueId = .ok key ∧
      Configured cfg kind inst.payloadWords q) := by
  by_cases hkind : inst.kind = kind'
  · subst hkind
    obtain ⟨henabled, key', q', m, hqueue, hs', _⟩ := canIssue_eq_ok rfl h
    have hm : m.queue? kind key = some q := by
      rcases hs' with rfl | ⟨g, rfl⟩
      · exact hq
      · exact hq
    by_cases hon : kind = inst.kind ∧ key = key'
    · obtain ⟨rfl, rfl⟩ := hon
      obtain ⟨hkey, _, hq', hconf, _, _⟩ := queueFor_spec hqueue hf
      obtain rfl := Option.some.inj (hm.symm.trans hq')
      exact .inr ⟨rfl, henabled, hkey, hconf⟩
    · rw [(queueFor_frame hqueue).2.1.others kind key hon] at hm
      exact .inl hm
  · rw [canIssue_other hkind, Except.ok.injEq, Prod.mk.injEq] at h
    obtain ⟨rfl, _⟩ := h
    exact .inl hq

/-- A response creates no queue. -/
private theorem markResponse_back {inst : WarpInst} {last : Bool} {q : Queue}
    (h : markResponse cfg s inst = .ok (s', last)) (hq : s'.queue? kind key = some q) :
    ∃ q₀, s.queue? kind key = some q₀ := by
  by_cases hon : kind = inst.kind ∧ key = inst.tokenFromInst.key
  · obtain ⟨rfl, rfl⟩ := hon
    rw [markResponse_eq] at h
    unfold markMemResponse at h
    split at h
    · rw [pure_eq_ok, Prod.mk.injEq] at h
      exact ⟨q, h.1 ▸ hq⟩
    · simp only [bind_eq_ok, QueueTable.find_eq_ok] at h
      obtain ⟨q₀, hq₀, _⟩ := h
      exact ⟨q₀, hq₀⟩
  · exact ⟨q, ((markResponse_frame h).others kind key hon).symm.trans hq⟩

/-- A queue after a step was there in the same shape, or is as wide as the instruction
that named it. -/
theorem AccessStep.queue_back {a : Action Mem} (h : AccessStep cfg read s a s' es)
    (hp : Provenance cfg s log) (hf : Holds cfg kind key s f) {q : Queue}
    (hq : s'.queue? kind key = some q) :
    (∃ q₀, s.queue? kind key = some q₀ ∧ SameShape q₀ q) ∨
      ∃ w inst, Names cfg s a w inst key ∧ inst.kind = kind ∧
        Configured cfg kind inst.payloadWords q := by
  cases hq₀ : s.queue? kind key with
  | some q₀ =>
    obtain ⟨_, hstep⟩ := h.queueStep hp hf
    exact .inl ⟨q₀, rfl, hstep.keepsShape q₀ q hq₀ hq⟩
  | none =>
    right
    have hnew : ∀ {s₁ : Shader Mem}, s₁.queue? kind key = some q →
        s₁.queue? kind key ≠ s.queue? kind key := by
      intro s₁ hs₁ heq
      rw [heq, hq₀] at hs₁
      cases hs₁
    cases h with
    | quiet _ htables _ _ _ => exact absurd (queue?_congr htables kind key) (hnew hq)
    | @test w inst _ s₁ _ _ haction hrunning hrfq hsmemq =>
      obtain ⟨hf₁, _⟩ := canIssue_holds hrfq hf
      rcases canIssue_back hsmemq hf₁ hq with hq₁ | ⟨hkind, henabled, hkey, hconf⟩
      · rcases canIssue_back hrfq hf hq₁ with hq₂ | ⟨hkind, henabled, hkey, hconf⟩
        · exact absurd rfl (hnew hq₂)
        · exact ⟨w, inst, ⟨haction ▸ rfl, hrunning, henabled, hkey⟩, hkind, hconf⟩
      · have hkey' : keyForWarp inst.kind cfg s w inst.queueId = .ok key := by
          rw [← hkey, keyForWarp, keyForWarp, (canIssue_core hrfq).warps_eq]
        exact ⟨w, inst, ⟨haction ▸ rfl, hrunning, henabled, hkey'⟩, hkind, hconf⟩
    | @load w inst mask input _ haction hload hissue =>
      obtain ⟨key', wi, hissued, rfl, _⟩ := issueWarp_load_frame hload hissue
      by_cases hon : kind = inst.kind ∧ key = key'
      · obtain ⟨rfl, rfl⟩ := hon
        obtain ⟨_, _, q', _, _, heffect⟩ := issueWarp_load hload (fun k hk => by
          rw [hissued.key_eq, Except.ok.injEq] at hk
          exact hk.symm) hf hissue
        obtain rfl := Option.some.inj (hq.symm.trans heffect.queue_eq)
        exact ⟨w, inst, haction ▸ hissued.names, rfl, heffect.configured⟩
      · exact absurd (hissued.others kind key hon) (hnew hq)
    | @move w inst mask input _ haction hload hissue =>
      obtain ⟨key', wi, written, hissued, rfl, _⟩ := issueWarp_move_frame hload hissue
      by_cases hon : kind = inst.kind ∧ key = key'
      · obtain ⟨rfl, rfl⟩ := hon
        obtain ⟨_, _, q', _, _, heffect⟩ := issueWarp_move hload (fun k hk => by
          rw [hissued.key_eq, Except.ok.injEq] at hk
          exact hk.symm) hf hissue
        obtain rfl := Option.some.inj (hq.symm.trans heffect.queue_eq)
        exact ⟨w, inst, haction ▸ hissued.names, rfl, heffect.configured⟩
      · exact absurd (hissued.others kind key hon) (hnew hq)
    | answered inst out s₁ last done _ hout hmark htables _ _ _ _ =>
      rw [queue?_congr htables] at hq
      obtain ⟨q₀, hq'⟩ := markResponse_back hmark hq
      rw [queue?_congr hout, hq₀] at hq'
      cases hq'
    | completed _ _ _ _ htables _ _ _ =>
      exact absurd (queue?_congr htables kind key) (hnew hq)
    | @retire c _ htables _ _ =>
      have hlookup : s'.queue? kind key = if key.ctaHwId = c then none else s.queue? kind key := by
        rw [queue?_congr htables]
        exact QueueTable.lookup_eraseCta (s.tables kind) c key
      rw [hq₀, ite_self, hq] at hlookup
      cases hlookup

end Shader
end WaspSim
