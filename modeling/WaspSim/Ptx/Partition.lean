import WaspSim.Ptx.BasicBlocks

/-!
# The blocks partition a function

Going over the lines, the second loop of `create_basic_blocks` is inside a block behind its last
instruction, or has opened one and still passes the labels before its first instruction. Either
way two instructions in a row are in one block, and then control can only fall through, or one
ends its block and the other begins the next.
-/

namespace WaspSim

/-- Line `k` is an instruction. -/
def IsInst (lines : List PtxLine) (k : Nat) : Prop := ∃ pI, lines[k]? = some (.inst pI)

/-- `j'` is the instruction behind instruction `j`. -/
def Follows (lines : List PtxLine) (j j' : Nat) : Prop :=
  IsInst lines j ∧ findNextRealInstruction lines (j + 1) = some j'

/-- What holds of two instructions in a row, given the blocks of the lines and the first and
the last lines of the blocks. -/
def Joined (lines : List PtxLine) (assigned : List Nat) (begins ends : List (Option Nat))
    (j j' : Nat) : Prop :=
  ∃ b, assigned[j]? = some b ∧
    (assigned[j']? = some b ∧ j' = j + 1 ∧
        (∀ line, lines[j]? = some line → line.endsBlock = false) ∨
      assigned[j']? = some (b + 1) ∧ ends[b]? = some (some j) ∧ begins[b + 1]? = some (some j'))

section

variable {lines : List PtxLine} {line : PtxLine} {i j j' k : Nat}

/-- The search ends at an instruction. -/
theorem IsInst.of_next (h : findNextRealInstruction lines k = some j) : IsInst lines j :=
  (findNextRealInstruction_eq_some.mp h).2.1

theorem IsInst.lt (h : IsInst lines k) : k < lines.length := by
  obtain ⟨pI, hk⟩ := h
  exact (List.getElem?_eq_some_iff.mp hk).1

/-- The next instruction from an instruction on is that one. -/
theorem IsInst.next_self (h : IsInst lines k) : findNextRealInstruction lines k = some k := by
  refine findNextRealInstruction_eq_some.mpr ⟨Nat.le_refl k, h, fun i hki hik => ?_⟩
  omega

/-- A label is passed. -/
theorem next_of_label {name : String} (h : lines[k]? = some (.label name)) :
    findNextRealInstruction lines k = findNextRealInstruction lines (k + 1) := by
  apply Option.ext
  intro j
  constructor
  · intro hj
    obtain ⟨hkj, ⟨pI, hinst⟩, hlabels⟩ := findNextRealInstruction_eq_some.mp hj
    refine findNextRealInstruction_eq_some.mpr ⟨?_, ⟨pI, hinst⟩, fun i hki => hlabels i (by omega)⟩
    rcases Nat.lt_or_eq_of_le hkj with hlt | rfl
    · exact hlt
    · rw [h] at hinst
      cases hinst
  · intro hj
    obtain ⟨hkj, hinst, hlabels⟩ := findNextRealInstruction_eq_some.mp hj
    refine findNextRealInstruction_eq_some.mpr ⟨by omega, hinst, fun i hki hij => ?_⟩
    rcases Nat.lt_or_eq_of_le hki with hlt | rfl
    · exact hlabels i hlt hij
    · exact ⟨name, h⟩

/-- Only one instruction stands before a given one. -/
theorem Follows.unique (h : Follows lines j k) (h' : Follows lines j' k) : j = j' := by
  obtain ⟨⟨pI, hj⟩, hnext⟩ := h
  obtain ⟨⟨pJ, hj'⟩, hnext'⟩ := h'
  obtain ⟨hjk, _, hlabels⟩ := findNextRealInstruction_eq_some.mp hnext
  obtain ⟨hjk', _, hlabels'⟩ := findNextRealInstruction_eq_some.mp hnext'
  rcases Nat.lt_trichotomy j j' with hlt | heq | hlt
  · obtain ⟨name, hname⟩ := hlabels j' hlt hjk'
    rw [hname] at hj'
    cases hj'
  · exact heq
  · obtain ⟨name, hname⟩ := hlabels' j hlt hjk
    rw [hname] at hj
    cases hj

/-- The first instruction follows none. -/
theorem Follows.ne_first (h : Follows lines j k)
    (hfirst : findNextRealInstruction lines 0 = some k) :
    False := by
  obtain ⟨⟨pI, hj⟩, hnext⟩ := h
  obtain ⟨hjk, _, _⟩ := findNextRealInstruction_eq_some.mp hnext
  obtain ⟨_, _, hlabels⟩ := findNextRealInstruction_eq_some.mp hfirst
  obtain ⟨name, hname⟩ := hlabels j (Nat.zero_le j) hjk
  rw [hname] at hj
  cases hj

theorem getElem?_extended {β : Type} {l l' : List β} {b : β} (h : l <+: l')
    (hb : l[i]? = some b) : l'[i]? = some b := by
  obtain ⟨t, rfl⟩ := h
  rw [List.getElem?_append_left (List.getElem?_eq_some_iff.mp hb).1]
  exact hb

/-- Instructions joined in one block stay so while the lists grow. -/
theorem Joined.mono {assigned assigned' : List Nat} {begins begins' ends ends' : List (Option Nat)}
    (hassigned : assigned <+: assigned') (hbegins : begins <+: begins') (hends : ends <+: ends')
    (h : Joined lines assigned begins ends j j') : Joined lines assigned' begins' ends' j j' := by
  obtain ⟨b, hb, hcase⟩ := h
  refine ⟨b, getElem?_extended hassigned hb, ?_⟩
  rcases hcase with ⟨hj', hrest⟩ | ⟨hj', he, hb'⟩
  · exact .inl ⟨getElem?_extended hassigned hj', hrest⟩
  · exact .inr ⟨getElem?_extended hassigned hj', getElem?_extended hends he,
      getElem?_extended hbegins hb'⟩

end

namespace Cutting

/-- The first lines of the blocks. -/
def begins (c : Cutting) : List (Option Nat) := (c.closed ++ [c.back]).map BasicBlock.ptxBegin

/-- The last lines of the blocks before the last one. -/
def ends (c : Cutting) : List (Option Nat) := c.closed.map BasicBlock.ptxEnd

/-- Behind an instruction of the last block. -/
structure Inside (lines : List PtxLine) (k : Nat) (c : Cutting) : Prop where
  behind : ∃ j, k = j + 1 ∧ IsInst lines j ∧ c.lastRealInst = j ∧
    c.assigned[j]? = some c.closed.length
  begun : ∀ i, c.back.ptxBegin = some i → i < k

/-- Before the first instruction of the last block. -/
structure Before (lines : List PtxLine) (k : Nat) (c : Cutting) : Prop where
  next : findNextRealInstruction lines k = c.back.ptxBegin
  joined : ∀ j first, findNextRealInstruction lines k = some first → Follows lines j first →
    ∃ b, c.closed.length = b + 1 ∧ c.assigned[j]? = some b ∧ c.ends[b]? = some (some j)
  start : ∀ first, findNextRealInstruction lines k = some first →
    findNextRealInstruction lines 0 = some first → c.closed = []

/-- What is settled about the lines before line `k`. -/
structure Cut (lines : List PtxLine) (k : Nat) (c : Cutting) : Prop where
  assigned : c.assigned.length = k
  exits : ∀ blk ∈ c.closed ++ [c.back], blk.isExit = false
  begins : ∀ b x, c.begins[b]? = some x → ∃ i, x = some i ∧ IsInst lines i ∧
    (b < c.closed.length → i < k) ∧ (i < k → c.assigned[i]? = some b)
  ends : ∀ b x, c.ends[b]? = some x → ∃ i, x = some i ∧ IsInst lines i ∧ c.assigned[i]? = some b
  joined : ∀ j j', Follows lines j j' → j' < k → Joined lines c.assigned c.begins c.ends j j'
  first : ∀ j, findNextRealInstruction lines 0 = some j →
    c.begins[0]? = some (some j) ∧ (j < k → c.assigned[j]? = some 0)
  place : Inside lines k c ∨ Before lines k c

/-- The second loop before line `k`. -/
structure Loop (lines : List PtxLine) (k : Nat) (c : Cutting) : Prop extends Cut lines k c where
  leaders : c.leaders = leadersBehind lines (k - 1)
  label : Before lines k c → ∀ j, k = j + 1 → ∃ name, lines[j]? = some (.label name)

section

variable {lines : List PtxLine} {c : Cutting} {line : PtxLine} {j k first : Nat}

theorem begins_getElem?_last : c.begins[c.closed.length]? = some c.back.ptxBegin := by
  rw [begins, List.getElem?_map, List.getElem?_concat_length, Option.map_some]

theorem length_ends : c.ends.length = c.closed.length := List.length_map _

/-- A block that begins is closed or open. -/
theorem begins_lt {b : Nat} {x : Option Nat} (h : c.begins[b]? = some x) :
    b < c.closed.length ∨ b = c.closed.length := by
  have hlt := (List.getElem?_eq_some_iff.mp h).1
  rw [begins, List.length_map, List.length_append, List.length_singleton] at hlt
  omega

/-- A leader is met where one leads. -/
theorem Loop.head_iff (hc : Loop lines k c) (hk : k < lines.length) :
    c.leaders.head? = some k ↔ ∃ j, k = j + 1 ∧ leads lines k = true := by
  rw [hc.leaders]
  cases k with
  | zero =>
    refine ⟨fun h => absurd h leadersBehind_head_zero, ?_⟩
    rintro ⟨j, hj, _⟩
    cases hj
  | succ k =>
    rw [Nat.add_sub_cancel, leadersBehind_head hk]
    exact ⟨fun h => ⟨k, rfl, h⟩, fun ⟨_, _, h⟩ => h⟩

/-- The leaders behind line `k`, when it is none itself. -/
theorem Loop.leaders_same (hc : Loop lines k c) (hk : k < lines.length)
    (h : c.leaders.head? ≠ some k) : c.leaders = leadersBehind lines k := by
  cases k with
  | zero => exact hc.leaders
  | succ k =>
    have hno : leads lines (k + 1) ≠ true := by
      rwa [Ne, hc.leaders, Nat.add_sub_cancel, leadersBehind_head hk] at h
    rw [hc.leaders, Nat.add_sub_cancel, leadersBehind_cons hk, if_neg hno]

/-- A leader that the loop meets is done with. -/
theorem Loop.leaders_met (hc : Loop lines k c) (hk : k < lines.length)
    (h : c.leaders.head? = some k) : c.leaders.tail = leadersBehind lines k := by
  obtain ⟨j, rfl, hleads⟩ := (hc.head_iff hk).mp h
  rw [hc.leaders, Nat.add_sub_cancel, leadersBehind_cons hk, if_pos hleads]
  rfl

/-- No leader is met behind a label. -/
theorem Before.no_leader (hlabel : ∀ j, k = j + 1 → ∃ name, lines[j]? = some (.label name)) :
    ¬ ∃ j, k = j + 1 ∧ leads lines k = true := by
  rintro ⟨j, rfl, hleads⟩
  obtain ⟨name, hname⟩ := hlabel j rfl
  cases hline : lines[j + 1]? with
  | none =>
    rw [leads, hname, hline] at hleads
    cases hleads
  | some line =>
    rw [leads_succ hname hline, PtxLine.isLabel, Bool.not_true, Bool.and_false] at hleads
    cases hleads

@[simp] theorem assign_begins : (c.assign lines k).begins = c.begins := rfl

@[simp] theorem assign_ends : (c.assign lines k).ends = c.ends := rfl

/-- An assignment adds to the list. -/
theorem assigned_grows : c.assigned <+: (c.assign lines k).assigned := List.prefix_append _ _

/-- A line is assigned to the open block. -/
theorem Cut.assigned_self (hc : Cut lines k c) :
    (c.assign lines k).assigned[k]? = some c.closed.length := by
  have h : (c.assigned ++ [c.closed.length])[c.assigned.length]? = some c.closed.length :=
    List.getElem?_concat_length
  rwa [hc.assigned] at h

/-- Two instructions in a row, the second of which is the line to be assigned. -/
theorem Cut.joined_self (hc : Cut lines k c) (hk : IsInst lines k)
    (hstay : Inside lines k c → leads lines k = false) (hj : Follows lines j k) :
    Joined lines (c.assign lines k).assigned c.begins c.ends j k := by
  rcases hc.place with hin | hbefore
  · obtain ⟨⟨j', rfl, hj', _, hassigned⟩, _⟩ := hin
    have heq : j = j' := hj.unique ⟨hj', hk.next_self⟩
    subst heq
    refine ⟨_, getElem?_extended assigned_grows hassigned, .inl ⟨hc.assigned_self, rfl, ?_⟩⟩
    intro line hline
    obtain ⟨pI, hpI⟩ := hk
    have hleads := hstay ⟨⟨j, rfl, hj', ‹_›, hassigned⟩, ‹_›⟩
    rw [leads_succ hline hpI, PtxLine.isLabel, Bool.false_and, Bool.or_false] at hleads
    exact hleads
  · obtain ⟨b, hlen, hassigned, hend⟩ := hbefore.joined j k hk.next_self hj
    refine ⟨b, getElem?_extended assigned_grows hassigned, .inr ⟨?_, hend, ?_⟩⟩
    · rw [hc.assigned_self, hlen]
    · rw [← hlen, begins_getElem?_last, ← hbefore.next, hk.next_self]

/-- The line where an unfinished block stands is its first or behind it. -/
theorem Cut.begin_self (hc : Cut lines k c) {b : Nat} (hb : c.begins[b]? = some (some k)) :
    b = c.closed.length := by
  rcases begins_lt hb with hlt | heq
  · obtain ⟨i, hi, _, hold, _⟩ := hc.begins b _ hb
    cases hi
    exact absurd (hold hlt) (Nat.lt_irrefl k)
  · exact heq

theorem Cut.first_self (hc : Cut lines k c) (hk : findNextRealInstruction lines 0 = some k) :
    c.closed.length = 0 := by
  have hinst := IsInst.of_next hk
  rcases hc.place with hin | hbefore
  · obtain ⟨⟨j, rfl, hj, _⟩, _⟩ := hin
    exact (Follows.ne_first ⟨hj, hinst.next_self⟩ hk).elim
  · rw [hbefore.start k hinst.next_self hk, List.length_nil]

/-- A line that leads no block is assigned to the last one. -/
theorem Cut.assign (hc : Cut lines k c) (hstay : Inside lines k c → leads lines k = false)
    (hplace : Inside lines (k + 1) (c.assign lines k) ∨ Before lines (k + 1) (c.assign lines k)) :
    Cut lines (k + 1) (c.assign lines k) where
  assigned := by
    rw [Cutting.assign, List.length_append, hc.assigned, List.length_singleton]
  exits := hc.exits
  begins b x hb := by
    obtain ⟨i, rfl, hi, hold, hassigned⟩ := hc.begins b x hb
    refine ⟨i, rfl, hi, fun hlt => Nat.lt_succ_of_lt (hold hlt), fun hik => ?_⟩
    rcases Nat.lt_succ_iff_lt_or_eq.mp hik with hlt | rfl
    · exact getElem?_extended assigned_grows (hassigned hlt)
    · rw [hc.begin_self hb]
      exact hc.assigned_self
  ends b x hb := by
    obtain ⟨i, rfl, hi, hassigned⟩ := hc.ends b x hb
    exact ⟨i, rfl, hi, getElem?_extended assigned_grows hassigned⟩
  joined j j' hj hj' := by
    rcases Nat.lt_succ_iff_lt_or_eq.mp hj' with hlt | rfl
    · exact (hc.joined j j' hj hlt).mono assigned_grows List.prefix_rfl List.prefix_rfl
    · exact hc.joined_self (.of_next hj.2) hstay hj
  first j hj := by
    obtain ⟨hbegin, hassigned⟩ := hc.first j hj
    refine ⟨hbegin, fun hjk => ?_⟩
    rcases Nat.lt_succ_iff_lt_or_eq.mp hjk with hlt | rfl
    · exact getElem?_extended assigned_grows (hassigned hlt)
    · rw [hc.assigned_self, hc.first_self hj]
  place := hplace

/-- Behind an instruction the block goes on. -/
theorem Cut.inside_assign (hc : Cut lines k c) (hk : IsInst lines k) :
    Inside lines (k + 1) (c.assign lines k) := by
  obtain ⟨pI, hpI⟩ := hk
  refine ⟨⟨k, rfl, ⟨pI, hpI⟩, ?_, hc.assigned_self⟩, fun i hi => ?_⟩
  · rw [Cutting.assign, hpI]
  · rcases hc.place with hin | hbefore
    · exact Nat.lt_succ_of_lt (hin.begun i hi)
    · have hnext : findNextRealInstruction lines k = some i := hbefore.next.trans hi
      rw [IsInst.next_self ⟨pI, hpI⟩] at hnext
      cases hnext
      exact Nat.lt_succ_self k

/-- Behind a label the block has not begun yet. -/
theorem Before.assign {name : String} (hbefore : Before lines k c)
    (hk : lines[k]? = some (.label name)) : Before lines (k + 1) (c.assign lines k) := by
  have hnext := next_of_label hk
  constructor
  case next => rw [← hnext]; exact hbefore.next
  case joined =>
    intro j first hfirst hj
    obtain ⟨b, hlen, hassigned, hend⟩ := hbefore.joined j first (hnext ▸ hfirst) hj
    exact ⟨b, hlen, getElem?_extended assigned_grows hassigned, hend⟩
  case start =>
    intro first hfirst
    exact hbefore.start first (hnext ▸ hfirst)

/-- A block that goes on is not before its first instruction. -/
theorem Cut.not_before (hc : Cut lines k c) (hin : Inside lines k c) : ¬ Before lines k c := by
  intro hbefore
  obtain ⟨i, hi, _⟩ := hc.begins _ _ begins_getElem?_last
  have hlt := hin.begun i hi
  have hnext := hbefore.next
  rw [hi] at hnext
  have hle := (findNextRealInstruction_eq_some.mp hnext).1
  omega

/-- The block that a leader opens. -/
def opened (c : Cutting) (first : Nat) : Cutting :=
  { c with
    leaders := c.leaders.tail
    closed := c.closed ++ [{ c.back with ptxEnd := some c.lastRealInst }]
    back := { ptxBegin := some first, ptxEnd := none, isEntry := false, isExit := false }
    lastRealInst := first }

/-- At a leader a block is opened. -/
theorem atLeader_of_head (h : c.leaders.head? = some k)
    (hnext : findNextRealInstruction lines k = some first) :
    c.atLeader lines k = c.opened first := by
  rw [atLeader, if_pos h, hnext]
  rfl

theorem opened_begins : (c.opened first).begins = c.begins ++ [some first] := by
  simp [begins, opened]

theorem opened_ends : (c.opened first).ends = c.ends ++ [some c.lastRealInst] := by
  simp [ends, opened]

theorem opened_length : (c.opened first).closed.length = c.closed.length + 1 :=
  List.length_append

/-- A leader that is met behind an instruction opens a block before its first one. -/
theorem Cut.opened (hc : Cut lines k c) (hin : Inside lines k c)
    (hnext : findNextRealInstruction lines k = some first) :
    Cut lines k (c.opened first) ∧ Before lines k (c.opened first) := by
  obtain ⟨⟨last, rfl, hlast, hlastReal, hassigned⟩, hbegun⟩ := hin
  have hfollows : Follows lines last first := ⟨hlast, hnext⟩
  have hlen : c.ends.length = c.closed.length := length_ends
  have hbefore : Before lines (last + 1) (c.opened first) := by
    constructor
    case next => exact hnext
    case joined =>
      intro j first' hfirst hj
      cases hnext.symm.trans hfirst
      cases hj.unique hfollows
      refine ⟨c.closed.length, opened_length, hassigned, ?_⟩
      rw [opened_ends, ← hlen, List.getElem?_concat_length, hlastReal]
    case start =>
      intro first' hfirst hzero
      cases hnext.symm.trans hfirst
      exact (hfollows.ne_first hzero).elim
  refine ⟨?_, hbefore⟩
  constructor
  case assigned => exact hc.assigned
  case exits =>
    intro blk hblk
    rw [Cutting.opened, List.mem_append, List.mem_append, List.mem_singleton, List.mem_singleton]
      at hblk
    rcases hblk with (hblk | rfl) | rfl
    · exact hc.exits blk (List.mem_append_left _ hblk)
    · exact hc.exits c.back (List.mem_append_right _ List.mem_cons_self)
    · rfl
  case begins =>
    intro b x hb
    rw [opened_begins, List.getElem?_append] at hb
    split at hb
    · obtain ⟨i, rfl, hi, hold, hi'⟩ := hc.begins b x hb
      refine ⟨i, rfl, hi, fun _ => ?_, hi'⟩
      rcases begins_lt hb with hlt | rfl
      · exact hold hlt
      · rw [begins_getElem?_last] at hb
        exact hbegun i (Option.some.inj hb)
    · next hge =>
      have hb0 : b = c.begins.length := by
        have hlt := (List.getElem?_eq_some_iff.mp hb).1
        rw [List.length_singleton] at hlt
        omega
      rw [hb0, Nat.sub_self] at hb
      cases hb
      refine ⟨first, rfl, .of_next hnext, fun hlt => ?_, fun hlt => ?_⟩
      · rw [opened_length] at hlt
        rw [hb0, Cutting.begins, List.length_map, List.length_append, List.length_singleton] at hlt
        omega
      · have hle := (findNextRealInstruction_eq_some.mp hnext).1
        omega
  case ends =>
    intro b x hb
    rw [opened_ends, List.getElem?_append] at hb
    split at hb
    · exact hc.ends b x hb
    · next hge =>
      have hb0 : b = c.closed.length := by
        have hlt := (List.getElem?_eq_some_iff.mp hb).1
        rw [List.length_singleton] at hlt
        omega
      rw [hb0, hlen, Nat.sub_self] at hb
      cases hb
      exact ⟨last, by rw [hlastReal], hlast, hb0 ▸ hassigned⟩
  case joined =>
    intro j j' hj hj'
    rw [opened_begins, opened_ends]
    exact (hc.joined j j' hj hj').mono List.prefix_rfl (List.prefix_append _ _)
      (List.prefix_append _ _)
  case first =>
    intro j hj
    obtain ⟨hbegin, hfirst⟩ := hc.first j hj
    rw [opened_begins]
    exact ⟨getElem?_extended (List.prefix_append _ _) hbegin, hfirst⟩
  case place => exact .inr hbefore

/-- Assigning a line, once it is settled whether a block opens there. -/
theorem Cut.assign_loop (hc : Cut lines k c) (hk : lines[k]? = some line)
    (hleaders : c.leaders = leadersBehind lines k)
    (hstay : Inside lines k c → leads lines k = false) :
    Loop lines (k + 1) (c.assign lines k) := by
  cases line with
  | inst pI =>
    have hin := hc.inside_assign ⟨pI, hk⟩
    have hcut := hc.assign hstay (.inl hin)
    exact ⟨hcut, hleaders, fun hbefore => absurd hbefore (hcut.not_before hin)⟩
  | label name =>
    have hbefore : Before lines k c := by
      refine hc.place.resolve_left fun hin => ?_
      obtain ⟨j, rfl, ⟨pI, hj⟩, _⟩ := hin.behind
      have hleads := hstay hin
      rw [leads_succ hj hk, PtxLine.isLabel, PtxLine.isLabel, Bool.not_false, Bool.and_true,
        Bool.or_true] at hleads
      cases hleads
    refine ⟨hc.assign hstay (.inr (hbefore.assign hk)), hleaders, fun _ j hj => ⟨name, ?_⟩⟩
    rw [← Nat.succ.inj hj]
    exact hk

/-- One round of the second loop, as long as an instruction follows. -/
theorem Loop.round (hc : Loop lines k c) (hnext : findNextRealInstruction lines k = some first) :
    Loop lines (k + 1) (c.next lines k) := by
  have hle := (findNextRealInstruction_eq_some.mp hnext).1
  have hk : k < lines.length := Nat.lt_of_le_of_lt hle (IsInst.of_next hnext).lt
  have hline := List.getElem?_eq_getElem hk
  by_cases hhead : c.leaders.head? = some k
  · have hin : Inside lines k c := by
      refine hc.place.resolve_right fun hbefore => ?_
      exact Before.no_leader (hc.label hbefore) ((hc.head_iff hk).mp hhead)
    obtain ⟨hcut, hbefore⟩ := hc.toCut.opened hin hnext
    rw [Cutting.next, atLeader_of_head hhead hnext]
    refine hcut.assign_loop hline (hc.leaders_met hk hhead) fun hin' => ?_
    exact absurd hbefore (hcut.not_before hin')
  · rw [Cutting.next, atLeader, if_neg hhead]
    refine hc.toCut.assign_loop hline (hc.leaders_same hk hhead) fun hin => ?_
    by_contra hleads
    obtain ⟨j, hj, _⟩ := hin.behind
    exact hhead ((hc.head_iff hk).mpr ⟨j, hj, by simpa using hleads⟩)

/-- Later lines only have been assigned. -/
structure Assigns (c c' : Cutting) : Prop where
  closed : c'.closed = c.closed
  ptxBegin : c'.back.ptxBegin = c.back.ptxBegin
  isExit : c'.back.isExit = c.back.isExit
  lastRealInst : c'.lastRealInst = c.lastRealInst
  assigned : c.assigned <+: c'.assigned

/-- Behind the last instruction only labels are left. -/
theorem assigns_next (hnext : findNextRealInstruction lines k = none) :
    Assigns c (c.next lines k) := by
  have hlast : ∀ c' : Cutting, (c'.assign lines k).lastRealInst = c'.lastRealInst := by
    intro c'
    rw [assign]
    split
    · next pI hk => exact absurd hk (findNextRealInstruction_eq_none.mp hnext k (Nat.le_refl k) pI)
    · rfl
  have hleader : Assigns c (c.atLeader lines k) := by
    rw [atLeader]
    split
    · rw [hnext]
      exact ⟨rfl, rfl, rfl, rfl, List.prefix_rfl⟩
    · exact ⟨rfl, rfl, rfl, rfl, List.prefix_rfl⟩
  exact ⟨hleader.closed, hleader.ptxBegin, hleader.isExit, (hlast _).trans hleader.lastRealInst,
    hleader.assigned.trans assigned_grows⟩

/-- The loop begins at the first line. -/
theorem Loop.start (hplain : StartsPlain lines)
    (hfirst : findNextRealInstruction lines 0 = some first) :
    Loop lines 0 (Cutting.start lines first) where
  assigned := rfl
  exits blk hblk := by
    rw [List.mem_singleton.mp hblk]
    rfl
  begins b x hb := by
    cases b with
    | zero =>
      cases hb
      exact ⟨first, rfl, .of_next hfirst, fun h => absurd h (Nat.not_lt_zero _),
        fun h => absurd h (Nat.not_lt_zero _)⟩
    | succ b => cases hb
  ends b x hb := by cases hb
  joined _ _ _ h := absurd h (Nat.not_lt_zero _)
  first j hj := by
    cases hfirst.symm.trans hj
    exact ⟨rfl, fun h => absurd h (Nat.not_lt_zero _)⟩
  place := .inr ⟨hfirst, fun j first' hnext hj => (hj.ne_first hnext).elim, fun _ _ _ => rfl⟩
  leaders := leaders_tail hplain
  label _ j hj := by cases hj

/-- The run: before the last instruction and right behind it, everything is settled. -/
theorem Loop.run (hc : Loop lines 0 c) {last : Nat} (hlast : IsInst lines last)
    (hk : k ≤ last + 1) : Loop lines k ((List.range k).foldl (next lines) c) := by
  induction k with
  | zero => exact hc
  | succ k ih =>
    rw [List.range_succ, List.foldl_append]
    cases hnext : findNextRealInstruction lines k with
    | some first => exact (ih (by omega)).round hnext
    | none =>
      obtain ⟨pI, hpI⟩ := hlast
      exact absurd hpI (findNextRealInstruction_eq_none.mp hnext last (by omega) pI)

/-- The rest of the run assigns labels. -/
theorem assigns_run {last : Nat} (hnone : findNextRealInstruction lines (last + 1) = none)
    (hk : last + 1 ≤ k) :
    Assigns ((List.range (last + 1)).foldl (next lines) c)
      ((List.range k).foldl (next lines) c) := by
  induction hk with
  | refl => exact ⟨rfl, rfl, rfl, rfl, List.prefix_rfl⟩
  | @step k hk ih =>
    have hrest : findNextRealInstruction lines k = none := by
      refine findNextRealInstruction_eq_none.mpr fun i hi => ?_
      exact findNextRealInstruction_eq_none.mp hnone i (Nat.le_trans hk hi)
    have hnext := assigns_next (c := (List.range k).foldl (next lines) c) hrest
    have hsucc : (List.range (k + 1)).foldl (next lines) c =
        ((List.range k).foldl (next lines) c).next lines k := by
      rw [List.range_succ, List.foldl_append]
      rfl
    rw [hsucc]
    exact ⟨hnext.closed.trans ih.closed, hnext.ptxBegin.trans ih.ptxBegin,
      hnext.isExit.trans ih.isExit, hnext.lastRealInst.trans ih.lastRealInst,
      ih.assigned.trans hnext.assigned⟩

end

end Cutting

/-- The last instruction of a function that has one. -/
theorem exists_last {lines : List PtxLine} {k : Nat} (hk : IsInst lines k) :
    ∃ last, IsInst lines last ∧ findNextRealInstruction lines (last + 1) = none := by
  induction hn : lines.length - k using Nat.strongRecOn generalizing k with
  | _ n ih =>
    cases hnext : findNextRealInstruction lines (k + 1) with
    | none => exact ⟨k, hk, hnext⟩
    | some j =>
      have hj : IsInst lines j := .of_next hnext
      have hlt := hj.lt
      have hle := (findNextRealInstruction_eq_some.mp hnext).1
      exact ih (lines.length - j) (by omega) hj rfl

namespace BasicBlocks

/-- The line of the first instruction of a block. -/
def beginOf (bbs : BasicBlocks) (b : Nat) : Option Nat := bbs.blocks[b]?.bind BasicBlock.ptxBegin

/-- The line of the last instruction of a block. -/
def endOf (bbs : BasicBlocks) (b : Nat) : Option Nat := bbs.blocks[b]?.bind BasicBlock.ptxEnd

/-- The blocks are runs of instructions one behind the other, with the exit block at the end. -/
structure Partition (lines : List PtxLine) (bbs : BasicBlocks) : Prop where
  length : 2 ≤ bbs.blocks.length
  exit : ∀ b blk, bbs.blocks[b]? = some blk →
    (blk.isExit = true ↔ b + 1 = bbs.blocks.length) ∧ (blk.isExit = true → blk.ptxBegin = none)
  begins : ∀ b, b + 1 < bbs.blocks.length →
    ∃ i, bbs.beginOf b = some i ∧ IsInst lines i ∧ bbs.assigned[i]? = some b
  ends : ∀ b, b + 1 < bbs.blocks.length →
    ∃ i, bbs.endOf b = some i ∧ IsInst lines i ∧ bbs.assigned[i]? = some b
  joined : ∀ j j', Follows lines j j' → ∃ b, bbs.assigned[j]? = some b ∧
    (bbs.assigned[j']? = some b ∧ j' = j + 1 ∧
        (∀ line, lines[j]? = some line → line.endsBlock = false) ∨
      bbs.assigned[j']? = some (b + 1) ∧ bbs.endOf b = some j ∧ bbs.beginOf (b + 1) = some j')
  first : ∀ j, findNextRealInstruction lines 0 = some j →
    bbs.beginOf 0 = some j ∧ bbs.assigned[j]? = some 0
  last : ∀ j, IsInst lines j → findNextRealInstruction lines (j + 1) = none →
    ∃ b, b + 2 = bbs.blocks.length ∧ bbs.assigned[j]? = some b ∧ bbs.endOf b = some j

end BasicBlocks

section

variable {lines : List PtxLine} {bbs : BasicBlocks}

theorem getElem?_append_pair {β : Type} {l : List β} {x y : β} {b : Nat} :
    (l ++ [x, y])[b]? = if b ≤ l.length then (l ++ [x])[b]? else [y][b - (l.length + 1)]? := by
  have hsplit : l ++ [x, y] = l ++ [x] ++ [y] := by rw [List.append_assoc]; rfl
  rw [hsplit, List.getElem?_append, List.length_append, List.length_singleton]
  simp only [Nat.lt_succ_iff]

variable {c c' : Cutting} {last b : Nat} {x : Option Nat}

/-- The open block and the exit block follow the closed ones. -/
theorem length_blocks : c.blocks.length = c.closed.length + 2 := List.length_append

/-- The first lines of the blocks are those of the loop. -/
theorem beginOf_blocks {assigned : List Nat} (hb : c.begins[b]? = some x) :
    BasicBlocks.beginOf { blocks := c.blocks, assigned } b = x := by
  have hle : b ≤ c.closed.length := by
    rcases Cutting.begins_lt hb with hlt | heq <;> omega
  change c.blocks[b]?.bind BasicBlock.ptxBegin = x
  rw [Cutting.blocks, getElem?_append_pair, if_pos hle]
  rcases Nat.lt_or_eq_of_le hle with hlt | rfl
  · rw [Cutting.begins, List.getElem?_map, List.getElem?_append_left hlt,
      Option.map_eq_some_iff] at hb
    obtain ⟨blk, hblk, rfl⟩ := hb
    rw [List.getElem?_append_left hlt, hblk, Option.bind_some]
  · rw [Cutting.begins_getElem?_last] at hb
    rw [List.getElem?_concat_length, Option.bind_some]
    exact Option.some.inj hb

/-- The last lines of the blocks before the last one are those of the loop. -/
theorem endOf_blocks {assigned : List Nat} (hb : c.ends[b]? = some x) :
    BasicBlocks.endOf { blocks := c.blocks, assigned } b = x := by
  change c.blocks[b]?.bind BasicBlock.ptxEnd = x
  rw [Cutting.ends, List.getElem?_map, Option.map_eq_some_iff] at hb
  obtain ⟨blk, hblk, rfl⟩ := hb
  rw [Cutting.blocks, List.getElem?_append_left (List.getElem?_eq_some_iff.mp hblk).1, hblk,
    Option.bind_some]

theorem endOf_blocks_last {assigned : List Nat} :
    BasicBlocks.endOf { blocks := c.blocks, assigned } c.closed.length = some c.lastRealInst := by
  change c.blocks[c.closed.length]?.bind BasicBlock.ptxEnd = _
  rw [Cutting.blocks, getElem?_append_pair, if_pos (Nat.le_refl _), List.getElem?_concat_length,
    Option.bind_some]

/-- Only the last block is the exit block, and it has no first instruction. -/
theorem isExit_blocks {blk : BasicBlock} (hc : ∀ blk ∈ c.closed ++ [c.back], blk.isExit = false)
    (hblk : c.blocks[b]? = some blk) :
    (blk.isExit = true ↔ b + 1 = c.blocks.length) ∧ (blk.isExit = true → blk.ptxBegin = none) := by
  rw [length_blocks]
  rw [Cutting.blocks, getElem?_append_pair] at hblk
  split at hblk
  · next hle =>
    have hno : blk.isExit = false := by
      rcases List.mem_append.mp (List.mem_iff_getElem?.mpr ⟨b, hblk⟩) with hmem | hmem
      · exact hc blk (List.mem_append_left _ hmem)
      · rw [List.mem_singleton.mp hmem]
        exact hc c.back (List.mem_append_right _ List.mem_cons_self)
    rw [hno]
    refine ⟨⟨fun h => absurd h Bool.false_ne_true, fun h => ?_⟩,
      fun h => absurd h Bool.false_ne_true⟩
    omega
  · next hgt =>
    have hlt := (List.getElem?_eq_some_iff.mp hblk).1
    rw [List.length_singleton] at hlt
    have hb : b - (c.closed.length + 1) = 0 := by omega
    rw [hb] at hblk
    cases hblk
    exact ⟨⟨fun _ => by omega, fun _ => rfl⟩, fun _ => rfl⟩

/-- There is one last instruction. -/
theorem last_unique {j : Nat} (hlast : IsInst lines last)
    (hnone : findNextRealInstruction lines (last + 1) = none) (hj : IsInst lines j)
    (hjnone : findNextRealInstruction lines (j + 1) = none) : j = last := by
  obtain ⟨pI, hpI⟩ := hj
  obtain ⟨pJ, hpJ⟩ := hlast
  rcases Nat.lt_trichotomy j last with hlt | heq | hlt
  · exact absurd hpJ (findNextRealInstruction_eq_none.mp hjnone last hlt pJ)
  · exact heq
  · exact absurd hpI (findNextRealInstruction_eq_none.mp hnone j hlt pI)

/-- The blocks of the loop, when it is done with the last instruction. -/
theorem partition_of_loop (hc : Cutting.Loop lines (last + 1) c) (hlast : IsInst lines last)
    (hnone : findNextRealInstruction lines (last + 1) = none) (h : Cutting.Assigns c c') :
    BasicBlocks.Partition lines { blocks := c'.blocks, assigned := c'.assigned } := by
  have hbegins : c'.begins = c.begins := by
    rw [Cutting.begins, Cutting.begins, h.closed, List.map_append, List.map_append,
      List.map_singleton,
      List.map_singleton, h.ptxBegin]
  have hends : c'.ends = c.ends := by rw [Cutting.ends, Cutting.ends, h.closed]
  have hlen : c'.blocks.length = c.closed.length + 2 := by rw [length_blocks, h.closed]
  have hexits : ∀ blk ∈ c'.closed ++ [c'.back], blk.isExit = false := by
    intro blk hblk
    rcases List.mem_append.mp hblk with hblk | hblk
    · exact hc.exits blk (List.mem_append_left _ (h.closed ▸ hblk))
    · rw [List.mem_singleton.mp hblk, h.isExit]
      exact hc.exits c.back (List.mem_append_right _ List.mem_cons_self)
  have hin : Cutting.Inside lines (last + 1) c := by
    refine hc.place.resolve_right fun hbefore => ?_
    obtain ⟨name, hname⟩ := hc.label hbefore last rfl
    obtain ⟨pI, hpI⟩ := hlast
    rw [hname] at hpI
    cases hpI
  obtain ⟨j, hj, _, hreal, hself⟩ := hin.behind
  cases Nat.succ.inj hj
  have hlastEnd : BasicBlocks.endOf { blocks := c'.blocks, assigned := c'.assigned }
      c.closed.length = some last := by
    rw [← h.closed, endOf_blocks_last, h.lastRealInst, hreal]
  have hbehind : ∀ j', IsInst lines j' → j' < last + 1 := by
    rintro j' ⟨pI, hpI⟩
    by_contra hge
    exact findNextRealInstruction_eq_none.mp hnone j' (by omega) pI hpI
  constructor
  case length =>
    change 2 ≤ c'.blocks.length
    omega
  case exit => exact fun b blk hblk => isExit_blocks hexits hblk
  case begins =>
    intro b hb
    change b + 1 < c'.blocks.length at hb
    have hlt : b < c.begins.length := by
      rw [Cutting.begins, List.length_map, List.length_append, List.length_singleton]
      omega
    have hget := List.getElem?_eq_getElem hlt
    obtain ⟨i, hi, hinst, hold, hself'⟩ := hc.begins b _ hget
    refine ⟨i, (beginOf_blocks (by rw [hbegins]; exact hget)).trans hi, hinst, ?_⟩
    refine getElem?_extended h.assigned (hself' ?_)
    rcases Cutting.begins_lt hget with hb' | rfl
    · exact hold hb'
    · have hback := Option.some.inj (hget.symm.trans Cutting.begins_getElem?_last)
      exact hin.begun i (hback.symm.trans hi)
  case ends =>
    intro b hb
    change b + 1 < c'.blocks.length at hb
    rcases Nat.lt_or_ge b c.closed.length with hlt | hge
    · rw [← Cutting.length_ends] at hlt
      have hget := List.getElem?_eq_getElem hlt
      obtain ⟨i, hi, hinst, hself'⟩ := hc.ends b _ hget
      exact ⟨i, (endOf_blocks (by rw [hends]; exact hget)).trans hi, hinst,
        getElem?_extended h.assigned hself'⟩
    · have hbl : b = c.closed.length := by omega
      subst hbl
      exact ⟨last, hlastEnd, hlast, getElem?_extended h.assigned hself⟩
  case joined =>
    intro j j' hj
    obtain ⟨b, hb, hcase⟩ := hc.joined j j' hj (hbehind j' (.of_next hj.2))
    refine ⟨b, getElem?_extended h.assigned hb, ?_⟩
    rcases hcase with ⟨hsame, hrest⟩ | ⟨hnext, hend, hbegin⟩
    · exact .inl ⟨getElem?_extended h.assigned hsame, hrest⟩
    · exact .inr ⟨getElem?_extended h.assigned hnext, endOf_blocks (hends ▸ hend),
        beginOf_blocks (hbegins ▸ hbegin)⟩
  case first =>
    intro j hj
    obtain ⟨hbegin, hfirst⟩ := hc.first j hj
    exact ⟨beginOf_blocks (hbegins ▸ hbegin),
      getElem?_extended h.assigned (hfirst (hbehind j (.of_next hj)))⟩
  case last =>
    intro j hj hjnone
    cases last_unique hlast hnone hj hjnone
    exact ⟨c.closed.length, hlen.symm, getElem?_extended h.assigned hself, hlastEnd⟩

/-- The blocks of a function that starts plainly partition it. -/
theorem createBasicBlocks_partition (hplain : StartsPlain lines)
    (h : createBasicBlocks lines = some bbs) : bbs.Partition lines := by
  rw [createBasicBlocks, Option.bind_eq_bind, Option.bind_eq_some_iff] at h
  obtain ⟨first, hfirst, h⟩ := h
  cases Option.some.inj h
  obtain ⟨last, hlast, hnone⟩ := exists_last (.of_next hfirst)
  have hloop := (Cutting.Loop.start hplain hfirst).run hlast (Nat.le_refl _)
  exact partition_of_loop hloop hlast hnone
    (Cutting.assigns_run hnone (Nat.succ_le_of_lt hlast.lt))

/-- The next instruction from a line on is the first one or stands behind another. -/
theorem first_or_follows {i k : Nat} (hk : findNextRealInstruction lines i = some k) :
    findNextRealInstruction lines 0 = some k ∨ ∃ j, Follows lines j k := by
  induction i with
  | zero => exact .inl hk
  | succ i ih =>
    cases hline : lines[i]? with
    | none =>
      have hlt := (IsInst.of_next hk).lt
      have hle := (findNextRealInstruction_eq_some.mp hk).1
      rw [List.getElem?_eq_none_iff] at hline
      omega
    | some line =>
      cases line with
      | inst pI => exact .inr ⟨i, ⟨pI, hline⟩, hk⟩
      | label name => exact ih ((next_of_label hline).trans hk)

namespace BasicBlocks.Partition

/-- A block begins behind every label. -/
theorem label (h : bbs.Partition lines) {i k : Nat} {name : String}
    (hi : lines[i]? = some (.label name)) (hk : findNextRealInstruction lines i = some k) :
    ∃ b, bbs.assigned[k]? = some b ∧ bbs.beginOf b = some k := by
  rcases first_or_follows hk with hfirst | ⟨j, hj⟩
  · obtain ⟨hbegin, hassigned⟩ := h.first k hfirst
    exact ⟨0, hassigned, hbegin⟩
  · obtain ⟨b, _, ⟨_, rfl, _⟩ | ⟨hassigned, _, hbegin⟩⟩ := h.joined j k hj
    · -- no label stands between two instructions of one block
      obtain ⟨hle, ⟨pJ, hpJ⟩, hlabels⟩ := findNextRealInstruction_eq_some.mp hk
      obtain ⟨⟨pI, hpI⟩, _⟩ := hj
      have hij : i ≤ j := by
        by_contra hgt
        have heq : i = j + 1 := by omega
        rw [heq, hpJ] at hi
        cases hi
      obtain ⟨name', hname⟩ := hlabels j hij (Nat.lt_succ_self j)
      rw [hname] at hpI
      cases hpI
    · exact ⟨b + 1, hassigned, hbegin⟩

/-- A block with a first instruction is not the exit block. -/
theorem begin_lt (h : bbs.Partition lines) {b k : Nat} (hb : bbs.beginOf b = some k) :
    b + 1 < bbs.blocks.length := by
  rw [BasicBlocks.beginOf, Option.bind_eq_some_iff] at hb
  obtain ⟨blk, hblk, hbegin⟩ := hb
  obtain ⟨hexit, hnone⟩ := h.exit b blk hblk
  have hlt := (List.getElem?_eq_some_iff.mp hblk).1
  have hne : b + 1 ≠ bbs.blocks.length := by
    intro heq
    rw [hnone (hexit.mpr heq)] at hbegin
    cases hbegin
  omega

/-- The exit block has no first instruction. -/
theorem begin_exit (h : bbs.Partition lines) : bbs.beginOf (bbs.blocks.length - 1) = none := by
  cases hb : bbs.beginOf (bbs.blocks.length - 1) with
  | none => rfl
  | some k =>
    have hlt := h.begin_lt hb
    have hlen := h.length
    omega

/-- A block ends at every instruction after which a block starts. -/
theorem endsBlock (h : bbs.Partition lines) {j : Nat} {pI : FlowInst}
    (hj : lines[j]? = some (.inst pI)) (hends : pI.endsBlock = true) :
    ∃ b, b + 1 < bbs.blocks.length ∧ bbs.assigned[j]? = some b ∧ bbs.endOf b = some j := by
  cases hnext : findNextRealInstruction lines (j + 1) with
  | none =>
    obtain ⟨b, hb, hassigned, hend⟩ := h.last j ⟨pI, hj⟩ hnext
    exact ⟨b, by omega, hassigned, hend⟩
  | some k =>
    obtain ⟨b, hassigned, ⟨_, _, hno⟩ | ⟨_, hend, hbegin⟩⟩ := h.joined j k ⟨⟨pI, hj⟩, hnext⟩
    · rw [show pI.endsBlock = false from hno _ hj] at hends
      cases hends
    · have hlt := h.begin_lt hbegin
      exact ⟨b, by omega, hassigned, hend⟩

end BasicBlocks.Partition

/-- Control enters a block at its first instruction only, since labels stand before first ones and
falling from one block into another reaches a first one, and leaves it at its last one only. -/
theorem basicBlocks_straight (hplain : StartsPlain lines) (h : createBasicBlocks lines = some bbs) :
    (∀ i k name, lines[i]? = some (.label name) → findNextRealInstruction lines i = some k →
        ∃ b, bbs.assigned[k]? = some b ∧ bbs.beginOf b = some k) ∧
      (∀ j pI, lines[j]? = some (.inst pI) → pI.endsBlock = true →
        ∃ b, bbs.assigned[j]? = some b ∧ bbs.endOf b = some j) ∧
      ∀ j j', Follows lines j j' → ∃ b, bbs.assigned[j]? = some b ∧
        (bbs.assigned[j']? = some b ∨
          bbs.assigned[j']? = some (b + 1) ∧ bbs.endOf b = some j ∧
            bbs.beginOf (b + 1) = some j') := by
  have hpart := createBasicBlocks_partition hplain h
  refine ⟨fun i k name hi hk => hpart.label hi hk, fun j pI hj hends => ?_, fun j j' hj => ?_⟩
  · obtain ⟨b, _, hassigned, hend⟩ := hpart.endsBlock hj hends
    exact ⟨b, hassigned, hend⟩
  · obtain ⟨b, hb, hcase⟩ := hpart.joined j j' hj
    exact ⟨b, hb, hcase.imp_left fun h => h.1⟩

theorem basicBlocks_straight_skip : ∃ bbs, createBasicBlocks Loader.skipLines = some bbs ∧
    ∃ b, bbs.assigned[4]? = some b ∧ bbs.beginOf b = some 4 := by
  have hplain : StartsPlain Loader.skipLines := by
    intro first rest h
    cases h
    exact ⟨rfl, fun h => absurd h Bool.false_ne_true⟩
  exact ⟨_, rfl, (basicBlocks_straight hplain rfl).1 3 4 "SKIP" rfl rfl⟩

end

end WaspSim
