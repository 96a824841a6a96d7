import WaspSim.Correctness.Window

/-!
# What issuing a queue instruction does

A load that issues reserves the next ticket of its queue, stores the words its
executed lanes read and waits for as many responses as it made accesses. A move
that issues finds a ready head, writes its words to the destination of every
executed lane, and removes it.
-/

namespace WaspSim
namespace Shader

variable {Mem : Type} {cfg : Config} {kind : QueueKind} {key : QueueKey} {s s' : Shader Mem}
  {key₀ : QueueKey} {f : Fifo (Item Nat)} {i : Item Nat} {read : Mem → BitVec 64 → Nat → BitVec 64}

/-- The item carries `value` at the lanes and words in `D`. -/
def Filled (D : Nat → Nat → Prop) (value : Nat → Nat → BitVec 64) (i : Item Nat) : Prop :=
  ∀ lane word, D lane word → i.payload lane word = value lane word

/-- An entry that holds some words holds fewer. -/
theorem Filled.mono {D D' : Nat → Nat → Prop} {value : Nat → Nat → BitVec 64}
    (h : Filled D value i) (hle : ∀ lane word, D' lane word → D lane word) :
    Filled D' value i :=
  fun lane word hd => h lane word (hle lane word hd)

/-- A stored word is one more that the entry holds. -/
theorem Filled.store {D : Nat → Nat → Prop} {value : Nat → Nat → BitVec 64}
    (h : Filled D value i) (lane word : Nat) :
    Filled (fun l w => D l w ∨ (l = lane ∧ w = word)) value
      (i.store lane word (value lane word)) := by
  intro l w hd
  by_cases hsame : l = lane ∧ w = word
  · obtain ⟨rfl, rfl⟩ := hsame
    simp [Item.store]
  · simp only [Item.store, hsame, ↓reduceIte]
    exact h l w (hd.resolve_right hsame)

/-- A stage of a load's functional execution: the entry reserved for it is the tail
item, and holds the values of the lanes and words in `D` when data is modelled. -/
def Storing (cfg : Config) (kind : QueueKind) (key : QueueKey) (q : Queue)
    (f : Fifo (Item Nat)) (owner : Nat) (value : Nat → Nat → BitVec 64) (s₀ : Shader Mem)
    (D : Nat → Nat → Prop) (s : Shader Mem) : Prop :=
  ∃ i : Item Nat, Changes kind key s₀ s q (f.push i) ∧ i.owner = owner ∧
    (cfg.modelsData kind = true → Filled D value i)

/-- Storing a word of a lane through the token of the tail item. -/
theorem functionalStoreLane_spec {q : Queue} {owner lane word : Nat}
    {value : Nat → Nat → BitVec 64} {s₀ : Shader Mem} {D : Nat → Nat → Prop} {inst : WarpInst}
    (hs : Storing cfg kind key q f owner value s₀ D s)
    (htoken : inst.tokenFromInst = q.tokenAt key f.pushed)
    (h : functionalStoreLane kind cfg s inst lane word (value lane word) = .ok s') :
    Storing cfg kind key q f owner value s₀ (fun l w => D l w ∨ (l = lane ∧ w = word)) s' := by
  obtain ⟨i, hchanges, howner, hfilled⟩ := hs
  by_cases hdata : cfg.modelsData kind = true
  · simp only [functionalStoreLane, hdata, Bool.true_eq_false, ↓reduceIte, bind_eq_ok,
      QueueTable.find_eq_ok, pure_eq_ok] at h
    obtain ⟨q₁, hq₁, q₂, hset, rfl⟩ := h
    obtain ⟨q₁', hq₁', hshape, hrep⟩ := hchanges.changed
    have hkey : inst.tokenFromInst.key = key := by rw [htoken]; rfl
    obtain rfl : q₁ = q₁' := by
      rw [hkey] at hq₁
      unfold queue? at hq₁'
      simpa [hq₁] using hq₁'
    rw [htoken, ← hshape.tokenAt_eq] at hset
    have htail : (f.push i).get? f.pushed = some i := Fifo.get?_push_self f i
    obtain ⟨hlane, hword⟩ := hrep.range_of_setLaneValue htail hset
    obtain ⟨q₂', hset', hrep', hshape'⟩ :=
      hrep.setLaneValue htail key hlane hword (value lane word)
    obtain rfl : q₂ = q₂' := by simpa [hset] using hset'
    rw [Fifo.modify_push] at hrep'
    refine ⟨i.store lane word (value lane word), ?_, howner,
      fun _ => (hfilled hdata).store lane word⟩
    rw [hkey]
    exact ⟨hchanges.onQueue.trans (.putQueue s kind key q₂), q₂, queue?_putQueue s kind key q₂,
      hshape.trans hshape', hrep'⟩
  · have heq : cfg.modelsData kind = false := by simpa using hdata
    simp only [functionalStoreLane, heq, ↓reduceIte, pure_eq_ok] at h
    exact ⟨i, h ▸ hchanges, howner, fun hd => absurd hd hdata⟩

/-- Executing a lane stores every word of its payload. -/
theorem ldExec_spec {q : Queue} {owner lane : Nat} {input : LaneInput} {s₀ : Shader Mem}
    {D : Nat → Nat → Prop} {inst : WarpInst} (hkind : inst.kind = kind)
    (hs : Storing cfg kind key q f owner
      (fun lane word => read s₀.mem (input.addr lane word) input.size) s₀ D s)
    (htoken : inst.tokenFromInst = q.tokenAt key f.pushed)
    (h : ldExec inst.kind cfg read s inst input lane = .ok s') :
    Storing cfg kind key q f owner
      (fun lane word => read s₀.mem (input.addr lane word) input.size) s₀
      (fun l w => D l w ∨ (l = lane ∧ w < inst.payloadWords)) s' := by
  have hrun := foldlM_range
    (fun n => Storing cfg kind key q f owner
      (fun lane word => read s₀.mem (input.addr lane word) input.size) s₀
      (fun l w => D l w ∨ (l = lane ∧ w < n)))
    (fun n m m' _ hm hf => ?_) h ?_
  · exact hrun
  · have hmem : m.mem = s₀.mem := by
      obtain ⟨_, hchanges, _⟩ := hm
      exact hchanges.onQueue.core.mem_eq
    rw [hkind, hmem] at hf
    obtain ⟨i, hchanges, howner, hfilled⟩ := functionalStoreLane_spec hm htoken hf
    refine ⟨i, hchanges, howner, fun hd => (hfilled hd).mono fun l w hlw => ?_⟩
    rcases hlw with hlw | ⟨rfl, hw⟩
    · exact .inl (.inl hlw)
    · rcases Nat.lt_succ_iff_lt_or_eq.mp hw with hw | rfl
      · exact .inl (.inr ⟨rfl, hw⟩)
      · exact .inr ⟨rfl, rfl⟩
  · obtain ⟨i, hchanges, howner, hfilled⟩ := hs
    refine ⟨i, hchanges, howner, fun hd => (hfilled hd).mono fun l w hlw => ?_⟩
    rcases hlw with hlw | ⟨_, hw⟩
    · exact hlw
    · omega

/-- Executing a load stores the words of every executed lane and collects its accesses. -/
theorem funcExecLoad_spec {q : Queue} {owner : Nat} {input : LaneInput} {s₀ : Shader Mem}
    {inst inst' : WarpInst} (hkind : inst.kind = kind)
    (hs : Storing cfg kind key q f owner
      (fun lane word => read s₀.mem (input.addr lane word) input.size) s₀ (fun _ _ => False) s₀)
    (htoken : inst.tokenFromInst = q.tokenAt key f.pushed)
    (h : funcExecLoad cfg read s₀ inst input = .ok (s', inst')) :
    Storing cfg kind key q f owner
      (fun lane word => read s₀.mem (input.addr lane word) input.size) s₀
      (fun l w => l < cfg.warpSize ∧ executes inst.activeMask input l = true ∧
        w < inst.payloadWords) s' ∧
      inst' = { inst with
        activeMask := maskAfter cfg.warpSize input inst.activeMask
        accessqCount := input.accesses } ∧
      (inst'.activeMask = 0 → inst'.accessqCount = 0) := by
  obtain ⟨hfold, _, rfl, hoff⟩ := funcExecLoad_ok h
  refine ⟨?_, rfl, hoff⟩
  refine foldlM_range
    (fun n => Storing cfg kind key q f owner
      (fun lane word => read s₀.mem (input.addr lane word) input.size) s₀
      (fun l w => l < n ∧ executes inst.activeMask input l = true ∧ w < inst.payloadWords))
    (fun n m m' _ hm hf => ?_) hfold ?_
  · by_cases hex : executes inst.activeMask input n = true
    · simp only [hex, ↓reduceIte] at hf
      obtain ⟨i, hchanges, howner, hfilled⟩ := ldExec_spec hkind hm htoken hf
      refine ⟨i, hchanges, howner, fun hd => (hfilled hd).mono fun l w hlw => ?_⟩
      obtain ⟨hl, hexl, hw⟩ := hlw
      rcases Nat.lt_succ_iff_lt_or_eq.mp hl with hl | rfl
      · exact .inl ⟨hl, hexl, hw⟩
      · exact .inr ⟨rfl, hw⟩
    · simp only [hex, Bool.false_eq_true, ↓reduceIte, pure_eq_ok] at hf
      obtain ⟨i, hchanges, howner, hfilled⟩ := hm
      refine ⟨i, hf ▸ hchanges, howner, fun hd => (hfilled hd).mono fun l w hlw => ?_⟩
      obtain ⟨hl, hexl, hw⟩ := hlw
      rcases Nat.lt_succ_iff_lt_or_eq.mp hl with hl | rfl
      · exact ⟨hl, hexl, hw⟩
      · exact absurd hexl hex
  · obtain ⟨i, hchanges, howner, hfilled⟩ := hs
    exact ⟨i, hchanges, howner, fun hd => (hfilled hd).mono fun l w hlw => by omega⟩

/-- An issued load, seen from the window under its key: the queue holds the window
with the new item at its tail. -/
structure IssuedLoad (cfg : Config) (read : Mem → BitVec 64 → Nat → BitVec 64)
    (key : QueueKey) (f : Fifo (Item Nat)) (s s' : Shader Mem) (inst : QueueInst)
    (activeMask : ActiveMask) (input : LaneInput) (wi : WarpInst) (q : Queue) (i : Item Nat) :
    Prop where
  room : f.items.length < (cfg.options inst.kind).entries
  queue_eq : s'.queue? inst.kind key = some q
  configured : Configured cfg inst.kind inst.payloadWords q
  represents : Represents q (f.push i)
  token_eq : wi.tokenFromInst = q.tokenAt key f.pushed
  shape : ∀ q₀, s.queue? inst.kind key = some q₀ → SameShape q₀ q
  owner_eq : i.owner = s.nextUid
  total_eq : i.total = input.accesses
  marked_eq : i.marked = 0
  payload_eq : cfg.modelsData inst.kind = true → ∀ lane word, lane < cfg.warpSize →
    executes activeMask input lane = true → word < inst.payloadWords →
    i.payload lane word = read s.mem (input.addr lane word) input.size

/-- `prepare_issue` of a load pushes an item that waits for no response yet. -/
theorem prepareIssue_load {inst inst' : WarpInst} (henabled : cfg.enabled kind = true)
    (hkind : inst.kind = kind) (hload : inst.load = true)
    (hf : ∀ key, keyForWarp kind cfg s inst.warpId inst.queueId = .ok key → key = key₀)
    (hold : Holds cfg kind key₀ s f)
    (h : prepareIssue kind cfg s inst = .ok (s', inst')) :
    keyForWarp kind cfg s inst.warpId inst.queueId = .ok key₀ ∧
      ∃ q q₀, Configured cfg kind inst.payloadWords q₀ ∧ Represents q₀ f ∧
        (∀ q₁, s.queue? kind key₀ = some q₁ → q₀ = q₁) ∧ f.items.length < q₀.entries ∧
        s'.queue? kind key₀ = some q ∧ OnQueue kind key₀ s s' ∧ SameShape q₀ q ∧
        Represents q (f.push (Item.reserve inst.uid inst.activeMask 0)) ∧
        inst' = inst.writeTokenToInst (q.tokenAt key₀ f.pushed) ∧
        inst'.tokenFromInst = q.tokenAt key₀ f.pushed := by
  simp only [prepareIssue, henabled, hkind, hload, Bool.true_eq_false, ne_eq, not_true_eq_false,
    or_self, ↓reduceIte, bind_eq_ok, require_eq_ok, Prod.exists, pure_eq_ok, Prod.mk.injEq] at h
  obtain ⟨m, key', q₀, hqueue, _, hfull, q, token, hreserve, rfl, rfl⟩ := h
  have hkey : key' = key₀ := by
    simp only [queueFor, bind_eq_ok, pure_eq_ok, Prod.exists, Prod.mk.injEq] at hqueue
    obtain ⟨key'', hkey, _, _, _, _, rfl, _⟩ := hqueue
    exact hf _ hkey
  subst hkey
  obtain ⟨hkey, honq, hq₀, hconf, hrep, hsame⟩ := queueFor_spec hqueue hold
  have hroom := hrep.full_eq_false_iff.mp hfull
  obtain ⟨q', hreserve', hrep', hshape⟩ :=
    hrep.reserveTail hroom inst.uid key' inst.activeMask 0
  rw [hreserve', Except.ok.injEq, Prod.mk.injEq] at hreserve
  obtain ⟨rfl, rfl⟩ := hreserve
  have hchanges : Changes kind key' m (m.putQueue kind key' q') q₀
      (f.push (Item.reserve inst.uid inst.activeMask 0)) := .of_putQueue hshape hrep'
  have hcount := (hchanges.count kind (fun c => { c with
      reservations := c.reservations + 1
      maxOccupancy := max c.maxOccupancy q'.occupancy })).countStage kind 0
  obtain ⟨q'', hq'', _, _⟩ := hcount.changed
  have hput : q' = q'' := by
    have hq' : (((m.putQueue kind key' q').count kind fun c => { c with
        reservations := c.reservations + 1
        maxOccupancy := max c.maxOccupancy q'.occupancy }).countStage kind 0).queue? kind key' =
          some q' := by
      cases kind with
      | rfq => exact queue?_putQueue m .rfq key' q'
      | smemq => exact queue?_putQueue m .smemq key' q'
    simpa [hq'] using hq''
  subst hput
  refine ⟨hkey, q', q₀, hconf, hrep, hsame, hroom, hq'', honq.trans hcount.onQueue, hshape, hrep',
    by rw [hshape.tokenAt_eq], ?_⟩
  -- the token written to the copy is the one read back from it
  obtain ⟨_, _, hkey₀⟩ := keyForWarp_eq_ok.mp hkey
  rw [hshape.tokenAt_eq]
  refine WarpInst.tokenFromInst_writeTokenToInst (congrArg QueueKey.queueId hkey₀)
    (congrArg QueueKey.srcStageId hkey₀) (congrArg QueueKey.dstStageId hkey₀) ?_
  exact hconf.width_eq.trans (QueueInst.payloadWords_eq _)

/-- Closing a load makes its item wait for the accesses it made. -/
theorem afterFuncExec_load {inst : WarpInst} {q : Queue} (henabled : cfg.enabled kind = true)
    (hkind : inst.kind = kind) (hload : inst.load = true)
    (htoken : inst.tokenFromInst = q.tokenAt key f.pushed) (hq : s.queue? kind key = some q)
    (hrep : Represents q (f.push i)) (h : afterFuncExec kind cfg s inst = .ok s') :
    Changes kind key s s' q (f.push (i.await inst.accessqCount)) := by
  have hkey : inst.tokenFromInst.key = key := by rw [htoken]; rfl
  simp only [afterFuncExec, henabled, hkind, hload, Bool.true_eq_false, ne_eq, not_true_eq_false,
    or_self, ↓reduceIte, bind_eq_ok, QueueTable.find_eq_ok, pure_eq_ok, hkey] at h
  obtain ⟨q₁, hq₁, q₂, hset, rfl⟩ := h
  obtain rfl : q = q₁ := by
    unfold queue? at hq
    simpa [hq] using hq₁
  rw [htoken] at hset
  obtain ⟨q₂', hset', hrep', hshape⟩ :=
    hrep.setPendingResponses (Fifo.get?_push_self f i) key inst.accessqCount
  obtain rfl : q₂ = q₂' := by simpa [hset] using hset'
  rw [Fifo.modify_push] at hrep'
  exact .of_putQueue hshape hrep'

/-- Issuing a load. -/
theorem issueWarp_load {warpId : Nat} {inst : QueueInst} {activeMask : ActiveMask}
    {input : LaneInput} {es : List Event} (hload : inst.load = true)
    (hf : ∀ key, keyForWarp inst.kind cfg s warpId inst.queueId = .ok key → key = key₀)
    (hold : Holds cfg inst.kind key₀ s f)
    (h : issueWarp cfg read s warpId inst activeMask input = .ok (s', es)) :
    ∃ wi value q i, es = [.loaded wi (executes activeMask input) value] ∧
      IssuedLoad cfg read key₀ f s s' inst activeMask input wi q i := by
  obtain ⟨_, henabled, s₂, inst₂, s₃, wi, s₅, hprep, hinst₂, hexec, hwiInst, hafter, rfl, rfl⟩ :=
    issueWarp_load_eq_ok hload h
  obtain ⟨_, q, q₀, hconf, hrep₀, hsame, hroom, hq, honq, hshape, hrep, hwrite, htoken⟩ :=
    prepareIssue_load (s := issuing s warpId) henabled rfl hload
      (fun key hk => hf key (by rwa [keyForWarp_issuing] at hk)) hold hprep
  have hconf₁ := hconf.of_sameShape hshape
  have hkind₂ : inst₂.kind = inst.kind := by rw [hinst₂]
  have hmem : s₂.mem = s.mem := honq.core.mem_eq
  have hstart : Storing cfg inst.kind key₀ q f s.nextUid
      (fun lane word => read s₂.mem (input.addr lane word) input.size) s₂ (fun _ _ => False) s₂ :=
    ⟨_, ⟨.refl _ _ s₂, q, hq, .refl q, hrep⟩, rfl, fun _ _ _ hd => hd.elim⟩
  obtain ⟨⟨i, hchanges, howner, hfilled⟩, hwi, _⟩ :=
    funcExecLoad_spec hkind₂ hstart htoken hexec
  have hwiToken : wi.tokenFromInst = q.tokenAt key₀ f.pushed := by rw [hwi]; exact htoken
  have hwiKind : wi.kind = inst.kind := by rw [hwiInst]
  have hclosed : Changes inst.kind key₀ s₂ s₅ q (f.push (i.await wi.accessqCount)) :=
    hchanges.trans fun q₁ hq₁ hshape₁ hrep₁ =>
      afterFuncExec_load henabled hwiKind (by rw [hwiInst]; exact hload)
        (hwiToken.trans (hshape₁.tokenAt_eq key₀ f.pushed).symm) hq₁ hrep₁ hafter
  obtain ⟨q₂, hq₂, hshape₂, hrep₂⟩ := hclosed.changed
  have hmask : inst₂.activeMask = activeMask := by rw [hwrite]; rfl
  have hwords : inst₂.payloadWords = inst.payloadWords := by rw [hinst₂]
  refine ⟨wi, _, q₂, _, by rw [hmask], ?_, hq₂, hconf₁.of_sameShape hshape₂, hrep₂,
    hwiToken.trans (hshape₂.tokenAt_eq key₀ f.pushed).symm, fun q' hq' => ?_, howner,
    by rw [hwi]; rfl, rfl, fun hd lane word hl hex hw => ?_⟩
  · rw [← hconf.entries_eq]
    exact hroom
  · obtain rfl := hsame q' hq'
    exact hshape.trans hshape₂
  · rw [← hmem]
    refine hfilled hd lane word ⟨hl, ?_, ?_⟩
    · rw [hmask]
      exact hex
    · rw [hwords]
      exact hw

/-- The lanes that a map over lanes visited have their own results. -/
theorem writtenTo_eq {g : Nat → Except Halt (List (BitVec 64))} {lanes : List Nat}
    {writes : List (Nat × List (BitVec 64))} {lane : Nat}
    (h : List.Forall₂ (fun l w => ∃ words, g l = .ok words ∧ (l, words) = w) lanes writes)
    (hlane : lane ∈ lanes) : g lane = .ok (writtenTo writes lane) := by
  induction h with
  | nil => cases hlane
  | @cons l w lanes writes hl _ ih =>
    obtain ⟨words, hwords, rfl⟩ := hl
    by_cases heq : l = lane
    · subst heq
      simpa [writtenTo] using hwords
    · have hmem : lane ∈ lanes := (List.mem_cons.mp hlane).resolve_left (Ne.symm heq)
      simpa [writtenTo, heq] using ih hmem

/-- A lane of a move receives the words of the head item. -/
theorem movExec_spec {inst : WarpInst} {q : Queue} {lane : Nat} {words : List (BitVec 64)}
    (hkind : inst.kind = kind) (hdata : cfg.modelsData kind = true)
    (hq : s.queue? kind inst.tokenFromInst.key = some q) (hrep : Represents q f)
    (hi : f.items.head? = some i) (h : moveExec cfg s inst lane = .ok words) :
    ∀ word < inst.payloadWords, (inst.vectorDst = true ∨ word = 0) →
      words[word]? = some (i.payload lane word) := by
  intro word hword hdst
  rw [moveExec_eq] at h
  obtain ⟨v, hv, hread⟩ := movExec_reads h word hword hdst
  simp only [functionalReadLane, hkind, hdata, Bool.true_eq_false, ↓reduceIte, bind_eq_ok,
    QueueTable.find_eq_ok] at hread
  obtain ⟨q', hq', hread⟩ := hread
  obtain rfl : q = q' := by
    unfold queue? at hq
    simpa [hq] using hq'
  obtain ⟨⟨j, hj, hready⟩, hlane, hw⟩ := hrep.range_of_headLaneValue hread
  obtain rfl : i = j := by simpa [hi] using hj
  rw [hrep.headLaneValue hi hready hlane hw, Except.ok.injEq] at hread
  rw [hv, hread]

/-- An issued move, seen from the window under its key: the head was ready, and its
values went to the lanes that executed. -/
structure IssuedMove (cfg : Config) (key : QueueKey) (f : Fifo (Item Nat)) (s s' : Shader Mem)
    (inst : QueueInst) (activeMask : ActiveMask) (input : LaneInput)
    (written : Nat → List (BitVec 64)) (q : Queue) (i : Item Nat) : Prop where
  head_eq : f.items.head? = some i
  ready : i.Ready
  queue_eq : s'.queue? inst.kind key = some q
  configured : Configured cfg inst.kind inst.payloadWords q
  represents : Represents q f.pop
  shape : ∀ q₀, s.queue? inst.kind key = some q₀ → SameShape q₀ q
  written_eq : cfg.modelsData inst.kind = true → ∀ lane word, lane < cfg.warpSize →
    executes activeMask input lane = true → word < inst.payloadWords →
    (inst.vectorDst = true ∨ word = 0) → (written lane)[word]? = some (i.payload lane word)

/-- `prepare_issue` of a move names its queue. -/
theorem prepareIssue_move {inst inst' : WarpInst} (henabled : cfg.enabled kind = true)
    (hkind : inst.kind = kind) (hload : inst.load = false)
    (hf : ∀ key, keyForWarp kind cfg s inst.warpId inst.queueId = .ok key → key = key₀)
    (hold : Holds cfg kind key₀ s f)
    (h : prepareIssue kind cfg s inst = .ok (s', inst')) :
    keyForWarp kind cfg s inst.warpId inst.queueId = .ok key₀ ∧
      ∃ q, Configured cfg kind inst.payloadWords q ∧ Represents q f ∧
        (∀ q₁, s.queue? kind key₀ = some q₁ → q = q₁) ∧
        s'.queue? kind key₀ = some q ∧ OnQueue kind key₀ s s' ∧
        inst' = inst.writeTokenToInst
          { key := key₀, payloadWordsPerLane := inst.payloadWords, valid := true } := by
  simp only [prepareIssue, henabled, hkind, hload, Bool.true_eq_false, Bool.false_eq_true, ne_eq,
    not_true_eq_false, or_self, ↓reduceIte, bind_eq_ok, Prod.exists, pure_eq_ok,
    Prod.mk.injEq] at h
  obtain ⟨m, key', q, hqueue, rfl, rfl⟩ := h
  have hkey : key' = key₀ := by
    simp only [queueFor, bind_eq_ok, pure_eq_ok, Prod.exists, Prod.mk.injEq] at hqueue
    obtain ⟨key'', hkey, _, _, _, _, rfl, _⟩ := hqueue
    exact hf _ hkey
  subst hkey
  obtain ⟨hkey, honq, hq, hconf, hrep, hsame⟩ := queueFor_spec hqueue hold
  have hchanges : Changes kind key' s m q f := ⟨honq, q, hq, .refl q, hrep⟩
  have hstage := hchanges.countStage kind 1
  have hq' : (m.countStage kind 1).queue? kind key' = some q := by
    cases kind with
    | rfq => exact hq
    | smemq => exact hq
  exact ⟨hkey, q, hconf, hrep, hsame, hq', hstage.onQueue, rfl⟩

/-- Closing a move removes the head, which must be ready. -/
theorem afterFuncExec_move {inst : WarpInst} {q : Queue} (henabled : cfg.enabled kind = true)
    (hkind : inst.kind = kind) (hload : inst.load = false) (hkey : inst.tokenFromInst.key = key)
    (hq : s.queue? kind key = some q) (hrep : Represents q f)
    (h : afterFuncExec kind cfg s inst = .ok s') :
    (∃ i, f.items.head? = some i ∧ i.Ready) ∧ Changes kind key s s' q f.pop := by
  simp only [afterFuncExec, henabled, hkind, hload, Bool.true_eq_false, Bool.false_eq_true, ne_eq,
    not_true_eq_false, or_self, ↓reduceIte, bind_eq_ok, require_eq_ok, QueueTable.find_eq_ok,
    pure_eq_ok, hkey] at h
  obtain ⟨q₁, hq₁, _, hready, q₂, hconsume, rfl⟩ := h
  obtain rfl : q = q₁ := by
    unfold queue? at hq
    simpa [hq] using hq₁
  obtain ⟨i, hi, hiready⟩ := hrep.headReady_iff.mp hready
  obtain ⟨q₂', hconsume', hrep', hshape⟩ := hrep.consumeHead hi hiready
  obtain rfl : q₂ = q₂' := by simpa [hconsume] using hconsume'
  have hchanges : Changes kind key s (s.putQueue kind key q₂) q f.pop := .of_putQueue hshape hrep'
  exact ⟨⟨i, hi, hiready⟩, hchanges.count kind _⟩

/-- Issuing a move. -/
theorem issueWarp_move {warpId : Nat} {inst : QueueInst} {activeMask : ActiveMask}
    {input : LaneInput} {es : List Event} (hload : inst.load = false)
    (hf : ∀ key, keyForWarp inst.kind cfg s warpId inst.queueId = .ok key → key = key₀)
    (hold : Holds cfg inst.kind key₀ s f)
    (h : issueWarp cfg read s warpId inst activeMask input = .ok (s', es)) :
    ∃ wi written q i, es = [.moved wi (executes activeMask input) written] ∧
      IssuedMove cfg key₀ f s s' inst activeMask input written q i := by
  obtain ⟨_, henabled, s₂, inst₂, writes, s₄, hprep, hinst₂, hexec, hafter, rfl, rfl⟩ :=
    issueWarp_move_eq_ok hload h
  have hload₂ : inst₂.load = false := by rw [hinst₂]; exact hload
  obtain ⟨hkey, q, hconf, hrep, hsame, hq, _, hwrite⟩ :=
    prepareIssue_move (s := issuing s warpId) henabled rfl hload
      (fun key hk => hf key (by rwa [keyForWarp_issuing] at hk)) hold hprep
  rw [keyForWarp_issuing] at hkey
  have htokenKey : inst₂.tokenFromInst.key = key₀ := by
    rw [hwrite]
    exact (tokenFromInst_prepared _ hkey rfl rfl).1
  have hkind₂ : inst₂.kind = inst.kind := by rw [hinst₂]
  have hmask : inst₂.activeMask = activeMask := by rw [hwrite]; rfl
  have hwords : inst₂.payloadWords = inst.payloadWords := by rw [hinst₂]
  have hdst : inst₂.vectorDst = inst.vectorDst := by rw [hinst₂]
  obtain ⟨⟨i, hi, hready⟩, hclosed⟩ := afterFuncExec_move henabled hkind₂ hload₂
    htokenKey hq hrep hafter
  obtain ⟨q₂, hq₂, hshape₂, hrep₂⟩ := hclosed.changed
  refine ⟨inst₂, writtenTo writes, q₂, i, by rw [hmask], hi, hready, hq₂,
    hconf.of_sameShape hshape₂, hrep₂, fun q' hq' => ?_, fun hd lane word hl hex hw hdest => ?_⟩
  · obtain rfl := hsame q' hq'
    exact hshape₂
  · have hlane : lane ∈ (List.range cfg.warpSize).filter (executes inst₂.activeMask input) := by
      rw [List.mem_filter, List.mem_range, hmask]
      exact ⟨hl, hex⟩
    have hall := mapM_eq_ok.mp hexec
    simp only [bind_eq_ok, pure_eq_ok] at hall
    have hwords' := movExec_spec hkind₂ hd (htokenKey ▸ hq) hrep hi (writtenTo_eq hall hlane)
    exact hwords' word (by rw [hwords]; exact hw) (by rw [hdst]; exact hdest)

end Shader
end WaspSim
