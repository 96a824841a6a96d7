import WaspSim.Collector.Step

/-!
# What the arbiter grants

The wavefront allocator visits every cell of the request matrix, whatever diagonal it
starts from. It therefore grants the front request of every bank that has one and is not
written, and the priority pointer has no influence on the reads of a cycle.
-/

namespace WaspSim

namespace Arbiter

variable {request : Nat → Nat → Bool} {outputs square pri input output i : Nat}
  {inmatch : List (Option Nat)} {a : BankAlloc} {queue : List (List ReadOp)}
  {allocatedBank : List BankAlloc}

@[simp] theorem length_diagonal :
    (diagonal request outputs input output inmatch).length = inmatch.length := by
  induction inmatch generalizing input output with
  | nil => rfl
  | cons m inmatch ih => simp [diagonal, ih]

/-- One diagonal looks at one output for each input. -/
theorem diagonal_getElem? (hout : output < outputs) :
    (diagonal request outputs input output inmatch)[i]? = inmatch[i]?.map fun m =>
      if m = none ∧ request (input + i) ((output + i) % outputs) = true
      then some ((output + i) % outputs) else m := by
  induction inmatch generalizing input output i with
  | nil => simp [diagonal]
  | cons m inmatch ih =>
    cases i with
    | zero => simp [diagonal, Nat.mod_eq_of_lt hout]
    | succ i =>
      have hnext : (output + 1) % outputs < outputs := Nat.mod_lt _ (Nat.zero_lt_of_lt hout)
      rw [diagonal, List.getElem?_cons_succ, List.getElem?_cons_succ, ih hnext,
        Nat.mod_add_mod]
      have hi : input + 1 + i = input + (i + 1) := by omega
      have ho : output + 1 + i = output + (i + 1) := by omega
      rw [hi, ho]

@[simp] theorem length_wavefront :
    (wavefront request outputs square pri inmatch).length = inmatch.length := by
  unfold wavefront
  induction square with
  | zero => rfl
  | succ square ih => rw [List.range_succ, List.foldl_append]; simp [ih]

theorem wavefront_succ : wavefront request outputs (square + 1) pri inmatch =
    diagonal request outputs 0 ((pri + square) % outputs)
      (wavefront request outputs square pri inmatch) := by
  simp [wavefront, List.range_succ]

/-- An input is matched when it was before or has a request on a visited diagonal. -/
theorem wavefront_matched (hpos : 0 < outputs) {m : Option Nat} (hm : inmatch[i]? = some m) :
    ∃ m', (wavefront request outputs square pri inmatch)[i]? = some m' ∧
      (m' ≠ none ↔ m ≠ none ∨
        ∃ p < square, request i ((pri + p + i) % outputs) = true) := by
  induction square with
  | zero => exact ⟨m, hm, by simp⟩
  | succ square ih =>
    obtain ⟨m', hm', hiff⟩ := ih
    rw [wavefront_succ, diagonal_getElem? (Nat.mod_lt _ hpos), hm', Option.map_some,
      Nat.zero_add, Nat.mod_add_mod]
    refine ⟨_, rfl, ?_⟩
    simp only [Nat.lt_succ_iff_lt_or_eq, or_and_right, exists_or, exists_eq_left]
    rw [← or_assoc, ← hiff]
    by_cases hr : request i ((pri + square + i) % outputs) = true
    · by_cases hnone : m' = none <;> simp [hr, hnone]
    · simp [hr]

/-- The diagonals from any starting point reach every output. -/
theorem exists_diagonal (n a : Nat) {k : Nat} (hk : k < n) : ∃ p < n, (a + p) % n = k := by
  have hpos : 0 < n := Nat.zero_lt_of_lt hk
  refine ⟨(k + (n - a % n)) % n, Nat.mod_lt _ hpos, ?_⟩
  have ha : a % n < n := Nat.mod_lt _ hpos
  have hsum : a % n + (k + (n - a % n)) = k + n := by omega
  rw [Nat.add_mod_mod, ← Nat.mod_add_mod, hsum, Nat.add_mod_right, Nat.mod_eq_of_lt hk]

/-- The requests that a cycle should grant: the front of every queue whose bank is not
written. -/
def fronts (allocatedBank : List BankAlloc) (queue : List (List ReadOp)) : List ReadOp :=
  (allocatedBank.zip queue).filterMap fun b => if b.1 = .writeAlloc then none else b.2.head?

/-- The queues without the granted requests. -/
def served (allocatedBank : List BankAlloc) (queue : List (List ReadOp)) : List (List ReadOp) :=
  (allocatedBank.zip queue).map fun b => if b.1 = .writeAlloc then b.2 else b.2.tail

/-- A matching that covers exactly the written banks and those with a request grants the
fronts. -/
theorem grant_eq (hm : inmatch.length = queue.length) (ha : allocatedBank.length = queue.length)
    (hmatch : ∀ (i : Nat) m a q, inmatch[i]? = some m → allocatedBank[i]? = some a →
      queue[i]? = some q → (m ≠ none ↔ a = .writeAlloc ∨ q ≠ [])) :
    grant inmatch allocatedBank queue =
      .ok (fronts allocatedBank queue, served allocatedBank queue) := by
  induction queue generalizing inmatch allocatedBank with
  | nil =>
    rw [List.length_eq_zero_iff.mp hm, List.length_eq_zero_iff.mp ha]
    rfl
  | cons q queue ih =>
    obtain ⟨m, inmatch, rfl⟩ := List.exists_cons_of_length_eq_add_one hm
    obtain ⟨a, allocatedBank, rfl⟩ := List.exists_cons_of_length_eq_add_one ha
    have hrest := ih (Nat.succ.inj hm) (Nat.succ.inj ha) fun i => hmatch (i + 1)
    have hfirst : m ≠ none ↔ a = .writeAlloc ∨ q ≠ [] := hmatch 0 m a q rfl rfl rfl
    rw [grant, hrest]
    by_cases hw : a = .writeAlloc
    · simp [hw, fronts, served, bind, Except.bind, pure, Except.pure]
    · cases q with
      | nil =>
        have hnone : m = none := by simpa [hw] using hfirst
        simp [hw, hnone, fronts, served, bind, Except.bind, pure, Except.pure]
      | cons op ops =>
        have hsome : m ≠ none := hfirst.mpr (.inr (List.cons_ne_nil op ops))
        simp [hw, hsome, fronts, served, bind, Except.bind, pure, Except.pure]

theorem writes_getElem? (ha : allocatedBank[i]? = some a) :
    (writes allocatedBank)[i]? = some (if a = .writeAlloc then some 0 else none) := by
  rw [writes, List.getElem?_map, ha, Option.map_some]

theorem request_of_front {op : ReadOp} {ops : List ReadOp} (hq : queue[i]? = some (op :: ops)) :
    Arbiter.request queue i op.cu = true := by simp [Arbiter.request, hq]

theorem not_request_of_empty (hq : queue[i]? = some []) (output : Nat) :
    ¬Arbiter.request queue i output = true := by simp [Arbiter.request, hq]

/-- The allocator matches the written banks and those with a request, and no others. -/
theorem matched_iff {numCollectors lastCu : Nat} {m : Option Nat} {q : List ReadOp}
    (hpos : 0 < numCollectors) (hcu : ∀ op ∈ q.head?, op.cu < numCollectors)
    (hm : (wavefront (Arbiter.request queue) numCollectors (max queue.length numCollectors)
      lastCu (writes allocatedBank))[i]? = some m)
    (ha : allocatedBank[i]? = some a) (hq : queue[i]? = some q) :
    m ≠ none ↔ a = .writeAlloc ∨ q ≠ [] := by
  obtain ⟨m', hm', hiff⟩ := wavefront_matched hpos (writes_getElem? ha)
  obtain rfl : m' = m := Option.some.inj (hm'.symm.trans hm)
  rw [hiff]
  constructor
  · rintro (hw | ⟨p, -, hr⟩)
    · exact .inl (by simpa using hw)
    · refine .inr fun hnil => ?_
      rw [hnil] at hq
      exact not_request_of_empty hq _ hr
  · rintro (hw | hne)
    · exact .inl (by simp [hw])
    · obtain ⟨op, ops, rfl⟩ := List.exists_cons_of_ne_nil hne
      obtain ⟨p, hp, hpk⟩ := exists_diagonal numCollectors (lastCu + i) (hcu op rfl)
      refine .inr ⟨p, hp.trans_le (Nat.le_max_right _ _), ?_⟩
      rw [Nat.add_right_comm, hpk]
      exact request_of_front hq

/-- A cycle grants the front request of every bank that has one and is not written,
wherever the priority pointer stands. -/
theorem allocateReads_eq {numCollectors lastCu : Nat} (hpos : 0 < numCollectors)
    (hcu : ∀ q ∈ queue, ∀ op ∈ q.head?, op.cu < numCollectors)
    (ha : allocatedBank.length = queue.length) :
    allocateReads numCollectors queue allocatedBank lastCu =
      .ok (fronts allocatedBank queue, served allocatedBank queue,
        (lastCu + 1) % numCollectors) := by
  have hlen : (wavefront (Arbiter.request queue) numCollectors
      (max queue.length numCollectors) lastCu (writes allocatedBank)).length = queue.length := by
    rw [length_wavefront, writes, List.length_map, ha]
  have hgrant := grant_eq hlen ha fun i m a q hm ha hq =>
    matched_iff hpos (hcu q (List.mem_of_getElem? hq)) hm ha hq
  unfold allocateReads
  simp only [require, if_pos hcu, hgrant]
  rfl

end Arbiter

end WaspSim
