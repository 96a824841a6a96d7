import WaspSim.Collector.Runs

/-!
# The order in which a bank is read

The queue of a bank is served from the front, one request for each step in which the bank
is not written, and new requests wait behind the old ones. How long a request waits is
therefore known when it is made, up to the writes.
-/

namespace WaspSim

namespace RfuConfig

variable {c : RfuConfig} {sizes : List Nat} {r r' : RfuRun} {b : Nat} {q : List ReadOp}

/-- The bank is read in the next step: it has not been allocated for a write. -/
def Readable (b : Nat) (r : RfuRun) : RfuAction → Prop
  | .step => r.rfu.allocatedBank[b]? ≠ some .writeAlloc
  | _ => False

instance (b : Nat) (r : RfuRun) (a : RfuAction) : Decidable (Readable b r a) := by
  cases a with
  | step => exact inferInstanceAs (Decidable (_ ≠ _))
  | issue => exact .isFalse id
  | writeback => exact .isFalse id
  | drain => exact .isFalse id

/-- The steps of a list of actions in which the bank is read. -/
def readableSteps (c : RfuConfig) (b : Nat) : List RfuAction → RfuRun → Nat
  | [], _ => 0
  | a :: as, r =>
    match c.act r a with
    | .ok r' => (if Readable b r a then 1 else 0) + readableSteps c b as r'
    | .error _ => 0

theorem served_getElem? {queue : List (List ReadOp)} {allocatedBank : List BankAlloc}
    (hlen : allocatedBank.length = queue.length) (hq : queue[b]? = some q) :
    (Arbiter.served allocatedBank queue)[b]? =
      some (if allocatedBank[b]? = some .writeAlloc then q else q.tail) := by
  have hlt : b < allocatedBank.length := hlen ▸ (List.getElem?_eq_some_iff.mp hq).1
  have ha : allocatedBank[b]? = some allocatedBank[b] := List.getElem?_eq_getElem hlt
  have hzip : (allocatedBank.zip queue)[b]? = some (allocatedBank[b], q) :=
    List.getElem?_zip_eq_some.mpr ⟨ha, hq⟩
  rw [Arbiter.served, List.getElem?_map, hzip, Option.map_some, ha]
  simp

/-- One action takes at most the front request, and that in a step that reads the bank. -/
theorem act_queue (hw : c.Wired sizes) (h : c.Sound sizes r) {a : RfuAction}
    (ha : c.Offers r a) (hs : c.act r a = .ok r') (hq : r.rfu.queue[b]? = some q) :
    ∃ new, r'.rfu.queue[b]? = some ((if Readable b r a then q.tail else q) ++ new) := by
  cases a with
  | step =>
    obtain ⟨s', hstep, hr'⟩ := bind_eq_ok.mp hs
    have hsteps := (step_meets hw h.coherent h.clear).of_ok hstep
    have hlen := h.coherent.banks_length.trans h.coherent.queue_length.symm
    obtain ⟨new, hnew⟩ := hsteps.keeps.queue b _ (served_getElem? hlen hq)
    rw [← pure_eq_ok.mp hr']
    refine ⟨new, hnew.trans ?_⟩
    by_cases hwrite : r.rfu.allocatedBank[b]? = some .writeAlloc
    · simp [Readable, hwrite]
    · simp [Readable, hwrite]
  | issue i k inst =>
    obtain ⟨regs, -, hr'⟩ := bind_eq_ok.mp hs
    rw [← pure_eq_ok.mp hr']
    exact ⟨[], by simpa [Readable] using hq⟩
  | writeback inst =>
    obtain ⟨w, hwrite, hr'⟩ := bind_eq_ok.mp hs
    obtain ⟨v, -, hv⟩ := bind_eq_ok.mp hwrite
    rw [← pure_eq_ok.mp hr', ← pure_eq_ok.mp hv]
    exact ⟨[], by simpa [Readable] using hq⟩
  | drain i k =>
    obtain ⟨regs, -, hr'⟩ := bind_eq_ok.mp hs
    obtain ⟨reg, -, hr'⟩ := bind_eq_ok.mp hr'
    rw [← pure_eq_ok.mp hr']
    exact ⟨[], by simpa [Readable] using hq⟩

/-- The queue of a sound state, some actions later. -/
theorem queue_after (hw : c.Wired sizes) (h : c.Sound sizes r) {as : List RfuAction}
    (hoffers : Along c.act c.Offers as r) (hrun : as.foldlM c.act r = .ok r')
    (hq : r.rfu.queue[b]? = some q) (hle : c.readableSteps b as r ≤ q.length) :
    ∃ new, r'.rfu.queue[b]? = some (q.drop (c.readableSteps b as r) ++ new) := by
  induction as generalizing r q with
  | nil =>
    obtain rfl := foldlM_nil_eq_ok.mp hrun
    exact ⟨[], by simpa [readableSteps] using hq⟩
  | cons a as ih =>
    obtain ⟨m, hm, hrun⟩ := foldlM_cons_eq_ok.mp hrun
    obtain ⟨ha, hrest⟩ := hoffers m hm
    have hsound := (act_meets hw h ha).of_ok hm
    obtain ⟨new, hnew⟩ := act_queue hw h ha hm hq
    have hcount : c.readableSteps b (a :: as) r =
        (if Readable b r a then 1 else 0) + c.readableSteps b as m := by
      rw [readableSteps, hm]
    rw [hcount] at hle ⊢
    by_cases hread : Readable b r a
    · rw [if_pos hread] at hnew hle ⊢
      have hlen : c.readableSteps b as m ≤ q.tail.length := by
        rw [List.length_tail]
        omega
      obtain ⟨new', hnew'⟩ := ih hsound hrest hrun hnew
        (hlen.trans (by rw [List.length_append]; exact Nat.le_add_right _ _))
      refine ⟨new ++ new', ?_⟩
      rw [hnew', List.drop_append_of_le_length hlen, List.append_assoc, Nat.add_comm,
        List.drop_tail]
    · rw [if_neg hread] at hnew hle ⊢
      rw [Nat.zero_add] at hle ⊢
      obtain ⟨new', hnew'⟩ := ih hsound hrest hrun hnew
        (hle.trans (by rw [List.length_append]; exact Nat.le_add_right _ _))
      exact ⟨new ++ new', by
        rw [hnew', List.drop_append_of_le_length hle, List.append_assoc]⟩

theorem exists_act_twoCores : ∃ r', twoCores.act twoCoresRun .step = .ok r' := ⟨_, rfl⟩

/-- In every run a bank serves its requests in order, exactly one in each step that finds the
bank free of writes: after `n` such steps the first `n` requests are gone, the others are
still there in their order, and new ones stand behind them. -/
theorem bank_in_order (hw : c.Wired sizes)
    (hr : Reaches c.act c.Offers (c.startRun sizes) r) (hq : r.rfu.queue[b]? = some q)
    {as : List RfuAction} (hoffers : Along c.act c.Offers as r)
    (hrun : as.foldlM c.act r = .ok r') (hle : c.readableSteps b as r ≤ q.length) :
    ∃ new, r'.rfu.queue[b]? = some (q.drop (c.readableSteps b as r) ++ new) :=
  queue_after hw (reaches_sound hw hr) hoffers hrun hq hle

theorem bank_in_order_twoCores : ∃ r' new, twoCores.act twoCoresRun .step = .ok r' ∧
    r'.rfu.queue[1]? = some (⟨0, 3, 5, 1, 0⟩ :: new) := by
  obtain ⟨r', hr'⟩ := exists_act_twoCores
  have hrun : [RfuAction.step].foldlM twoCores.act twoCoresRun = .ok r' :=
    foldlM_cons_eq_ok.mpr ⟨r', hr', foldlM_nil_eq_ok.mpr rfl⟩
  have hoffers : Along twoCores.act twoCores.Offers [.step] twoCoresRun :=
    fun _ _ => ⟨trivial, trivial⟩
  obtain ⟨new, hnew⟩ := bank_in_order (b := 1) twoCores_wired twoCores_reaches rfl hoffers hrun
    (by decide)
  exact ⟨r', new, hr', hnew⟩

end RfuConfig

end WaspSim
