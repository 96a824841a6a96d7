import WaspSim.Ptx.Assembly

/-!
# Where the instructions lie

The first loop of `ptx_assemble` never stops, and it lays the instructions out without gaps: an
instruction is found at its offset and at its PC, and nothing else is found there. A label has
the offset of the next instruction.
-/

namespace WaspSim

namespace FlowInst

/-- Every instruction takes a place. -/
theorem instSize_pos (pI : FlowInst) : 0 < pI.instSize := by
  unfold instSize maxInstSize
  split <;> omega

theorem instSize_le (pI : FlowInst) : pI.instSize ≤ maxInstSize := by
  unfold instSize maxInstSize
  split <;> omega

/-- The size of an instruction is a multiple of 4. -/
theorem instSize_mod (pI : FlowInst) : pI.instSize % 4 = 0 := by
  unfold instSize maxInstSize
  split <;> rfl

end FlowInst

/-- The offset of line `k`, behind the instructions before it. -/
def offset : List PtxLine → Nat → Nat
  | _, 0 => 0
  | [], _ + 1 => 0
  | line :: lines, k + 1 => line.size + offset lines k

/-- A branch, or another instruction whose first operand is a label. -/
def FlowInst.namesLabel (pI : FlowInst) : Prop :=
  pI.opcode = .bra ∨ pI.opcode = .breakaddr ∨ pI.opcode = .callp

/-- The cells of a memory that the lines fill, when `mk` names the instruction of a line. -/
def image {β : Type} (mk : Nat → β) : Nat → List PtxLine → List (Option β)
  | _, [] => []
  | k, .label _ :: lines => image mk (k + 1) lines
  | k, .inst pI :: lines =>
    (some (mk k) :: List.replicate (pI.instSize - 1) none) ++ image mk (k + 1) lines

section

variable {β : Type} {mk : Nat → β} {lines : List PtxLine} {line : PtxLine} {pI : FlowInst}
  {b : β} {j k o : Nat} {name : String}

@[simp] theorem offset_zero : offset lines 0 = 0 := by
  cases lines <;> rfl

@[simp] theorem offset_nil : offset [] k = 0 := by
  cases k <;> rfl

@[simp] theorem offset_cons_succ : offset (line :: lines) (k + 1) = line.size + offset lines k :=
  rfl

/-- The offset of the next line. -/
theorem offset_succ (hk : lines[k]? = some line) :
    offset lines (k + 1) = offset lines k + line.size := by
  induction lines generalizing k with
  | nil => cases hk
  | cons first lines ih =>
    cases k with
    | zero =>
      cases hk
      rw [offset_cons_succ, offset_zero, offset_zero, Nat.add_comm]
    | succ k => rw [offset_cons_succ, offset_cons_succ, ih hk, Nat.add_assoc]

/-- Offsets grow with the lines. -/
theorem offset_mono (hjk : j ≤ k) : offset lines j ≤ offset lines k := by
  induction lines generalizing j k with
  | nil => exact Nat.le_of_eq (by rw [offset_nil, offset_nil])
  | cons line lines ih =>
    cases j with
    | zero => exact Nat.zero_le _
    | succ j =>
      cases k with
      | zero => omega
      | succ k =>
        rw [offset_cons_succ, offset_cons_succ]
        exact Nat.add_le_add_left (ih (by omega)) _

/-- An instruction ends before the next line begins. -/
theorem offset_lt (hj : lines[j]? = some (.inst pI)) (hjk : j < k) :
    offset lines j + pI.instSize ≤ offset lines k := by
  have hsucc := offset_succ hj
  have hle : offset lines (j + 1) ≤ offset lines k := offset_mono (by omega)
  rw [hsucc] at hle
  exact hle

/-- Two instructions at one offset are one. -/
theorem offset_inj {pJ : FlowInst} (hj : lines[j]? = some (.inst pI))
    (hk : lines[k]? = some (.inst pJ)) (heq : offset lines j = offset lines k) : j = k := by
  have hi := pI.instSize_pos
  have hi' := pJ.instSize_pos
  rcases Nat.lt_trichotomy j k with hlt | rfl | hlt
  · have hle := offset_lt hj hlt
    omega
  · rfl
  · have hle := offset_lt hk hlt
    omega

/-- Four-byte offsets, since the instructions take 4 or 8 bytes. -/
theorem offset_mod : offset lines k % 4 = 0 := by
  induction lines generalizing k with
  | nil => rw [offset_nil]
  | cons line lines ih =>
    cases k with
    | zero => rfl
    | succ k =>
      rw [offset_cons_succ]
      cases line with
      | label name =>
        rw [PtxLine.size, Nat.zero_add]
        exact ih
      | inst pI =>
        have hsize : pI.instSize % 4 = 0 := pI.instSize_mod
        have hrest := ih (k := k)
        rw [PtxLine.size]
        omega

/-- The memory has a place for each byte. -/
theorem image_length : (image mk k lines).length = offset lines lines.length := by
  induction lines generalizing k with
  | nil => rfl
  | cons line lines ih =>
    rw [List.length_cons, offset_cons_succ]
    cases line with
    | label name =>
      rw [image, ih, PtxLine.size, Nat.zero_add]
    | inst pI =>
      have hpos := pI.instSize_pos
      rw [image, List.length_append, ih, List.length_cons, List.length_replicate, PtxLine.size]
      omega

/-- Exactly the instructions are found in an image, each at its offset. -/
theorem image_get : (image mk k lines)[o]? = some (some b) ↔
    ∃ j pI, lines[j]? = some (.inst pI) ∧ o = offset lines j ∧ b = mk (k + j) := by
  induction lines generalizing k o with
  | nil => simp [image]
  | cons line lines ih =>
    cases line with
    | label name =>
      rw [image, ih]
      constructor
      · rintro ⟨j, pI, hj, rfl, rfl⟩
        refine ⟨j + 1, pI, hj, ?_, by rw [Nat.add_right_comm, Nat.add_assoc]⟩
        rw [offset_cons_succ, PtxLine.size, Nat.zero_add]
      · rintro ⟨j, pI, hj, rfl, rfl⟩
        cases j with
        | zero => cases hj
        | succ j =>
          refine ⟨j, pI, hj, ?_, by rw [Nat.add_right_comm, Nat.add_assoc]⟩
          rw [offset_cons_succ, PtxLine.size, Nat.zero_add]
    | inst pJ =>
      have hpos := pJ.instSize_pos
      have hlen : (some (mk k) :: List.replicate (pJ.instSize - 1) (none : Option β)).length
          = pJ.instSize := by
        rw [List.length_cons, List.length_replicate]
        omega
      rw [image, List.getElem?_append, hlen]
      split
      · next hlt =>
        -- inside the first instruction only its first byte holds it
        constructor
        · intro hget
          cases o with
          | zero =>
            rw [List.getElem?_cons_zero] at hget
            exact ⟨0, pJ, rfl, rfl, (Option.some.inj (Option.some.inj hget)).symm⟩
          | succ o =>
            rw [List.getElem?_cons_succ, List.getElem?_replicate] at hget
            split at hget <;> cases hget
        · rintro ⟨j, pI, hj, rfl, rfl⟩
          cases j with
          | zero => rfl
          | succ j =>
            rw [offset_cons_succ, PtxLine.size] at hlt
            omega
      · next hge =>
        rw [ih]
        constructor
        · rintro ⟨j, pI, hj, hoff, rfl⟩
          refine ⟨j + 1, pI, hj, ?_, by rw [Nat.add_right_comm, Nat.add_assoc]⟩
          rw [offset_cons_succ, PtxLine.size]
          omega
        · rintro ⟨j, pI, hj, rfl, rfl⟩
          cases j with
          | zero =>
            rw [offset_zero] at hge
            omega
          | succ j =>
            refine ⟨j, pI, hj, ?_, by rw [Nat.add_right_comm, Nat.add_assoc]⟩
            rw [offset_cons_succ, PtxLine.size]
            omega

end

namespace Assembly

/-- What laying out lines behind an assembly gives. -/
structure Extends (f : Nat) (lines : List PtxLine) (a a' : Assembly) : Prop where
  instrMem : a'.instrMem = a.instrMem ++ image id a.placed.length lines
  pcToInsn : a'.pcToInsn = a.pcToInsn ++ image (f, ·) a.placed.length lines
  pc : a'.pc = a.pc + offset lines lines.length
  placed_length : a'.placed.length = a.placed.length + lines.length
  placed_old : ∀ j < a.placed.length, a'.placed[j]? = a.placed[j]?
  placed : ∀ j pI, lines[j]? = some (.inst pI) → a'.placed[a.placed.length + j]? =
    some (some (a.instrMem.length + offset lines j, a.pc + offset lines j))
  finfo : ∀ j pI, lines[j]? = some (.inst pI) → a'.pcToFinfo (a.pc + offset lines j) = some f
  finfo_old : ∀ p < a.pc, a'.pcToFinfo p = a.pcToFinfo p
  labels : ∀ name o, a'.labels name = some o → a.labels name = some o ∨
    ∃ j, lines[j]? = some (.label name) ∧ o = a.instrMem.length + offset lines j
  label_mem : ∀ name, PtxLine.label name ∈ lines → ∃ o, a'.labels name = some o
  label_old : ∀ name o, a.labels name = some o → ∃ o', a'.labels name = some o'

namespace Extends

variable {f : Nat} {lines : List PtxLine} {a a₁ a' : Assembly} {name : String} {pI : FlowInst}

theorem refl : Extends f [] a a where
  instrMem := (List.append_nil _).symm
  pcToInsn := (List.append_nil _).symm
  pc := (Nat.add_zero _).symm
  placed_length := (Nat.add_zero _).symm
  placed_old _ _ := rfl
  placed _ _ hj := by cases hj
  finfo _ _ hj := by cases hj
  finfo_old _ _ := rfl
  labels _ _ h := .inl h
  label_mem _ h := absurd h List.not_mem_nil
  label_old _ o h := ⟨o, h⟩

/-- The assembly after a label. -/
theorem of_label (h : Extends f lines (a.addLabel name) a') :
    Extends f (.label name :: lines) a a' := by
  have hlen : (a.addLabel name).placed.length = a.placed.length + 1 := List.length_append
  have hself : (a.addLabel name).labels name = some a.instrMem.length :=
    Function.update_self _ _ _
  have hother : ∀ name', name' ≠ name → (a.addLabel name).labels name' = a.labels name' :=
    fun _ hne => Function.update_of_ne hne _ _
  have hmove : ∀ j, (a.addLabel name).placed.length + j = a.placed.length + (j + 1) := by
    intro j
    rw [hlen]
    omega
  constructor
  case instrMem => rw [h.instrMem, hlen, image, addLabel]
  case pcToInsn => rw [h.pcToInsn, hlen, image, addLabel]
  case pc => rw [h.pc, List.length_cons, offset_cons_succ, PtxLine.size, Nat.zero_add, addLabel]
  case placed_length => rw [h.placed_length, hmove, List.length_cons]
  case placed_old =>
    intro j hj
    rw [h.placed_old j (hlen ▸ Nat.lt_succ_of_lt hj)]
    exact List.getElem?_append_left hj
  case placed =>
    intro j pI hj
    cases j with
    | zero => cases hj
    | succ j =>
      rw [offset_cons_succ, PtxLine.size, Nat.zero_add, ← hmove]
      exact h.placed j pI hj
  case finfo =>
    intro j pI hj
    cases j with
    | zero => cases hj
    | succ j =>
      rw [offset_cons_succ, PtxLine.size, Nat.zero_add]
      exact h.finfo j pI hj
  case finfo_old => exact h.finfo_old
  case labels =>
    intro name' o ho
    rcases h.labels name' o ho with hold | ⟨j, hj, rfl⟩
    · by_cases hname : name' = name
      · rw [hname, hself] at hold
        refine .inr ⟨0, by rw [hname]; rfl, ?_⟩
        rw [offset_zero, Nat.add_zero]
        exact (Option.some.inj hold).symm
      · rw [hother name' hname] at hold
        exact .inl hold
    · refine .inr ⟨j + 1, hj, ?_⟩
      rw [offset_cons_succ, PtxLine.size, Nat.zero_add, addLabel]
  case label_mem =>
    intro name' hmem
    rcases List.mem_cons.mp hmem with heq | hmem
    · cases heq
      exact h.label_old name _ hself
    · exact h.label_mem name' hmem
  case label_old =>
    intro name' o ho
    by_cases hname : name' = name
    · exact h.label_old name' _ (by rw [hname, hself])
    · exact h.label_old name' o (by rwa [hother name' hname])

/-- The assembly after an instruction. -/
theorem of_inst (h : Extends f lines (a.addInst f pI) a') :
    Extends f (.inst pI :: lines) a a' := by
  have hpos := pI.instSize_pos
  have hlen : (a.addInst f pI).placed.length = a.placed.length + 1 := List.length_append
  have hmove : ∀ j, (a.addInst f pI).placed.length + j = a.placed.length + (j + 1) := by
    intro j
    rw [hlen]
    omega
  have hmem : (a.addInst f pI).instrMem.length = a.instrMem.length + pI.instSize := by
    rw [addInst, List.length_append, List.length_cons, List.length_replicate]
    omega
  have hpc : (a.addInst f pI).pc = a.pc + pI.instSize := rfl
  constructor
  case instrMem =>
    rw [h.instrMem, hlen, image, addInst, List.append_assoc]
    rfl
  case pcToInsn => rw [h.pcToInsn, hlen, image, addInst, List.append_assoc]
  case pc => rw [h.pc, List.length_cons, offset_cons_succ, PtxLine.size, hpc, Nat.add_assoc]
  case placed_length => rw [h.placed_length, hmove, List.length_cons]
  case placed_old =>
    intro j hj
    rw [h.placed_old j (hlen ▸ Nat.lt_succ_of_lt hj)]
    exact List.getElem?_append_left hj
  case placed =>
    intro j pJ hj
    cases j with
    | zero =>
      rw [h.placed_old _ (hlen ▸ Nat.lt_succ_self _), offset_zero]
      exact List.getElem?_concat_length
    | succ j =>
      rw [← hmove, h.placed j pJ hj, hmem, hpc, offset_cons_succ, PtxLine.size, Nat.add_assoc,
        Nat.add_assoc]
  case finfo =>
    intro j pJ hj
    cases j with
    | zero =>
      rw [offset_zero, Nat.add_zero, h.finfo_old _ (Nat.lt_add_of_pos_right hpos)]
      exact Function.update_self _ _ _
    | succ j =>
      rw [offset_cons_succ, PtxLine.size, ← Nat.add_assoc]
      exact h.finfo j pJ hj
  case finfo_old =>
    intro p hp
    rw [h.finfo_old p (Nat.lt_add_right _ hp)]
    exact Function.update_of_ne (Nat.ne_of_lt hp) _ _
  case labels =>
    intro name o ho
    rcases h.labels name o ho with hold | ⟨j, hj, rfl⟩
    · exact .inl hold
    · refine .inr ⟨j + 1, hj, ?_⟩
      rw [hmem, offset_cons_succ, PtxLine.size, Nat.add_assoc]
  case label_mem =>
    intro name hmem
    cases hmem with
    | tail _ hmem => exact h.label_mem name hmem
  case label_old => exact h.label_old

end Extends

/-- The first loop never stops, as long as the table of PCs reaches up to the PC. -/
theorem foldlM_place (f : Nat) (lines : List PtxLine) {a : Assembly}
    (hlen : a.pcToInsn.length = a.pc) :
    ∃ a', lines.foldlM (place f) a = .ok a' ∧ Extends f lines a a' := by
  induction lines generalizing a with
  | nil => exact ⟨a, rfl, .refl⟩
  | cons line lines ih =>
    cases line with
    | label name =>
      obtain ⟨a', hrun, hext⟩ := ih (a := a.addLabel name) hlen
      exact ⟨a', foldlM_cons_eq_ok.mpr ⟨_, rfl, hrun⟩, .of_label hext⟩
    | inst pI =>
      have hnext : (a.addInst f pI).pcToInsn.length = (a.addInst f pI).pc := by
        have hpos := pI.instSize_pos
        have hpc : (a.addInst f pI).pc = a.pc + pI.instSize := rfl
        rw [hpc, addInst, List.length_append, List.length_cons, List.length_replicate, hlen]
        omega
      obtain ⟨a', hrun, hext⟩ := ih hnext
      have hfound : (a.pcToInsn ++ [some (f, a.placed.length)])[a.pc]? =
          some (some (f, a.placed.length)) := by
        rw [← hlen, List.getElem?_concat_length]
      refine ⟨a', foldlM_cons_eq_ok.mpr ⟨_, ?_, hrun⟩, .of_inst hext⟩
      exact bind_eq_ok.mpr ⟨(), require_eq_ok.mpr hfound,
        bind_eq_ok.mpr ⟨(), require_eq_ok.mpr pI.instSize_le, rfl⟩⟩

/-- What one round of the second loop does. -/
theorem resolve_cases {a : Assembly} {line : PtxLine} {table table' : String → Option Nat}
    (h : a.resolve table line = .ok table') :
    (table' = table ∧ ∀ pI, line = .inst pI → ¬ pI.namesLabel) ∨
      ∃ pI o pc, line = .inst pI ∧ a.labels pI.target = some o ∧ a.pcAt o = .ok pc ∧
        table' = Function.update table pI.target (some pc) := by
  cases line with
  | label name => exact .inl ⟨(pure_eq_ok.mp h).symm, fun _ hline => by cases hline⟩
  | inst pI =>
    rw [resolve] at h
    split at h
    · obtain ⟨o, ho, h⟩ := bind_eq_ok.mp h
      obtain ⟨pc, hpc, h⟩ := bind_eq_ok.mp h
      exact .inr ⟨pI, o, pc, rfl, fetch_eq_ok.mp ho, hpc, (pure_eq_ok.mp h).symm⟩
    · next hno =>
      refine .inl ⟨(pure_eq_ok.mp h).symm, fun pJ hline => ?_⟩
      cases hline
      exact hno

/-- The labels are resolved one after another, each to the PC at its offset. -/
theorem foldlM_resolve {a : Assembly} {lines : List PtxLine} {table table' : String → Option Nat}
    (hrun : lines.foldlM a.resolve table = .ok table') :
    (∀ pI, .inst pI ∈ lines → pI.namesLabel → ∃ pc, table' pI.target = some pc) ∧
      (∀ name pc, table name = some pc → ∃ pc', table' name = some pc') ∧
      ∀ name pc, table' name = some pc → table name = some pc ∨
        ∃ o, a.labels name = some o ∧ a.pcAt o = .ok pc := by
  induction lines generalizing table with
  | nil =>
    rw [foldlM_nil_eq_ok] at hrun
    subst hrun
    exact ⟨fun _ h => absurd h List.not_mem_nil, fun _ pc h => ⟨pc, h⟩, fun _ _ h => .inl h⟩
  | cons line lines ih =>
    obtain ⟨mid, hline, hrest⟩ := foldlM_cons_eq_ok.mp hrun
    obtain ⟨hmem, hkeep, hfrom⟩ := ih hrest
    rcases resolve_cases hline with ⟨rfl, hno⟩ | ⟨pI, o, pc, rfl, ho, hpc, rfl⟩
    · refine ⟨fun pJ hJ hnames => ?_, hkeep, hfrom⟩
      rcases List.mem_cons.mp hJ with heq | hJ
      · exact absurd hnames (hno pJ heq.symm)
      · exact hmem pJ hJ hnames
    · refine ⟨fun pJ hJ hnames => ?_, fun name pc' h => ?_, fun name pc' h => ?_⟩
      · rcases List.mem_cons.mp hJ with heq | hJ
        · cases heq
          exact hkeep _ pc (Function.update_self _ _ _)
        · exact hmem pJ hJ hnames
      · by_cases hname : name = pI.target
        · exact hkeep name pc (by rw [hname, Function.update_self])
        · exact hkeep name pc' (by rwa [Function.update_of_ne hname])
      · rcases hfrom name pc' h with hmid | hlater
        · by_cases hname : name = pI.target
          · rw [hname, Function.update_self] at hmid
            cases hmid
            exact .inr ⟨o, by rw [hname]; exact ho, hpc⟩
          · rw [Function.update_of_ne hname] at hmid
            exact .inl hmid
        · exact .inr hlater

end Assembly

/-- The faults of a function in which a branch names no usable label. -/
def badLabel (e : AssemblyFault) : Prop := e = .unknownLabel ∨ e = .pastEnd

/-- The second loop stops at a label only. -/
theorem avoids_resolve {a : Assembly} {lines : List PtxLine} {table : String → Option Nat}
    {e : AssemblyFault} (he : ¬ badLabel e) : Avoids e (lines.foldlM a.resolve table) := by
  have hlabel : AssemblyFault.unknownLabel ≠ e := fun h => he (.inl h.symm)
  have hend : AssemblyFault.pastEnd ≠ e := fun h => he (.inr h.symm)
  refine .foldlM (fun _ => True) (fun _ _ _ _ _ _ => trivial) (fun table line _ _ => ?_) trivial
  cases line with
  | label name => exact .pure table
  | inst pI =>
    rw [Assembly.resolve]
    split
    · refine .bind (.fetch hlabel) fun o _ => .bind ?_ fun _ _ => .pure _
      exact .bind (.fetch hend) fun _ _ => .bind (.fetch hend) fun _ _ =>
        .bind (.fetch hend) fun _ _ => .bind (.fetch hend) fun _ _ => .pure _
    · exact .pure table

section

variable {lines : List PtxLine} {i j k : Nat} {name : String}

/-- The next instruction from a line on, with only labels before it. -/
theorem findNextRealInstruction_eq_some : findNextRealInstruction lines k = some j ↔
    k ≤ j ∧ (∃ pI, lines[j]? = some (.inst pI)) ∧
      ∀ i, k ≤ i → i < j → ∃ name, lines[i]? = some (.label name) := by
  simp only [findNextRealInstruction, Option.map_eq_some_iff, List.findIdx?_eq_some_iff_getElem]
  constructor
  · rintro ⟨d, ⟨hd, hreal, hlabels⟩, rfl⟩
    rw [List.length_drop] at hd
    rw [List.getElem_drop] at hreal
    refine ⟨Nat.le_add_right k d, ?_, fun i hki hij => ?_⟩
    · rw [List.getElem?_eq_getElem (by omega)]
      cases hline : lines[k + d] with
      | label name => rw [hline] at hreal; cases hreal
      | inst pI => exact ⟨pI, rfl⟩
    · have hlabel := hlabels (i - k) (by omega)
      rw [List.getElem_drop] at hlabel
      rw [List.getElem?_eq_getElem (by omega)]
      have hi : k + (i - k) = i := by omega
      simp only [hi] at hlabel
      cases hline : lines[i] with
      | label name => exact ⟨name, rfl⟩
      | inst pI => rw [hline] at hlabel; exact absurd rfl hlabel
  · rintro ⟨hkj, ⟨pI, hj⟩, hlabels⟩
    obtain ⟨hlt, hget⟩ := List.getElem?_eq_some_iff.mp hj
    have hsum : k + (j - k) = j := by omega
    refine ⟨j - k, ⟨by rw [List.length_drop]; omega, ?_, fun d hd => ?_⟩, hsum⟩
    · rw [List.getElem_drop]
      simp only [hsum, hget, PtxLine.isLabel, Bool.not_false]
    · obtain ⟨name, hname⟩ := hlabels (k + d) (by omega) (by omega)
      obtain ⟨_, hget⟩ := List.getElem?_eq_some_iff.mp hname
      rw [List.getElem_drop, hget, PtxLine.isLabel]
      exact Bool.false_ne_true

/-- The search fails when no instruction follows. -/
theorem findNextRealInstruction_eq_none : findNextRealInstruction lines k = none ↔
    ∀ i, k ≤ i → ∀ pI, lines[i]? ≠ some (.inst pI) := by
  simp only [findNextRealInstruction, Option.map_eq_none_iff, List.findIdx?_eq_none_iff]
  constructor
  · intro h i hki pI hi
    have hmem : .inst pI ∈ lines.drop k := by
      refine List.mem_iff_getElem?.mpr ⟨i - k, ?_⟩
      rw [List.getElem?_drop, show k + (i - k) = i by omega]
      exact hi
    cases h _ hmem
  · intro h line hline
    obtain ⟨d, hd⟩ := List.mem_iff_getElem?.mp hline
    rw [List.getElem?_drop] at hd
    cases line with
    | label name => rfl
    | inst pI => exact absurd hd (h (k + d) (Nat.le_add_right k d) pI)

/-- Labels take up no bytes. -/
theorem offset_labels (hkj : k ≤ j)
    (hlabels : ∀ i, k ≤ i → i < j → ∃ name, lines[i]? = some (.label name)) :
    offset lines j = offset lines k := by
  induction hkj with
  | refl => rfl
  | @step j hkj ih =>
    obtain ⟨name, hname⟩ := hlabels j hkj (Nat.lt_succ_self j)
    rw [offset_succ hname, PtxLine.size, Nat.add_zero]
    exact ih fun i hki hij => hlabels i hki (Nat.lt_succ_of_lt hij)

/-- The labels in front of an instruction have its offset. -/
theorem offset_findNextRealInstruction (h : findNextRealInstruction lines k = some j) :
    offset lines j = offset lines k := by
  obtain ⟨hkj, _, hlabels⟩ := findNextRealInstruction_eq_some.mp h
  exact offset_labels hkj hlabels

/-- The cell at the offset of a line holds the next instruction, when there is one. -/
theorem image_offset {β : Type} {mk : Nat → β} :
    (image mk 0 lines)[offset lines k]? =
      (findNextRealInstruction lines k).map fun j => some (mk j) := by
  cases hnext : findNextRealInstruction lines k with
  | some j =>
    obtain ⟨_, ⟨pI, hj⟩, _⟩ := findNextRealInstruction_eq_some.mp hnext
    rw [← offset_findNextRealInstruction hnext, Option.map_some]
    exact image_get.mpr ⟨j, pI, hj, rfl, by rw [Nat.zero_add]⟩
  | none =>
    have hno := findNextRealInstruction_eq_none.mp hnext
    rw [Option.map_none, List.getElem?_eq_none_iff, image_length]
    by_cases hk : k ≤ lines.length
    · refine Nat.le_of_eq (offset_labels hk fun i hki hi => ?_)
      cases hline : lines[i] with
      | label name => exact ⟨name, by rw [List.getElem?_eq_getElem hi, hline]⟩
      | inst pI =>
        exact absurd (by rw [List.getElem?_eq_getElem hi, hline]) (hno i hki pI)
    · exact offset_mono (by omega)

end

/-- What `ptx_assemble` establishes for a function, whatever tables it shares. -/
structure AssembledFunction.Placed (F : AssembledFunction) : Prop where
  aligned : F.startPc % maxInstSize = 0
  instrMem : F.instrMem = image id 0 F.lines
  placed : ∀ j pI, F.lines[j]? = some (.inst pI) →
    F.placed[j]? = some (some (offset F.lines j, F.startPc + offset F.lines j))
  labels : ∀ name o, F.labels name = some o →
    ∃ j, F.lines[j]? = some (.label name) ∧ o = offset F.lines j
  labelAddress : ∀ (j : Nat) (pI : FlowInst), F.lines[j]? = some (.inst pI) → pI.namesLabel →
    ∃ i k, F.lines[i]? = some (.label pI.target) ∧ F.labels pI.target = some (offset F.lines i) ∧
      findNextRealInstruction F.lines i = some k ∧
      F.labelAddress pI.target = some (F.startPc + offset F.lines k)

namespace Loader

/-- The shared tables hold the instructions of the assembled functions and nothing else. -/
structure Linked (l : Loader) : Prop where
  size : l.pcToInsn.length = l.nextPc
  aligned : l.nextPc % 4 = 0
  functions : ∀ (f : Nat) (F : AssembledFunction), l.functions[f]? = some F → F.Placed
  finds : ∀ f F j pI, l.functions[f]? = some F → F.lines[j]? = some (.inst pI) →
    l.pcToInsn[F.startPc + offset F.lines j]? = some (some (f, j)) ∧
      l.pcToFinfo (F.startPc + offset F.lines j) = some f
  found : ∀ p f j, l.pcToInsn[p]? = some (some (f, j)) →
    ∃ F pI, l.functions[f]? = some F ∧ F.lines[j]? = some (.inst pI) ∧
      p = F.startPc + offset F.lines j

/-- A loader without functions is linked. -/
theorem Linked.empty : Linked {} where
  size := rfl
  aligned := rfl
  functions _ _ h := by cases h
  finds _ _ _ _ h := by cases h
  found _ _ _ h := by cases h

variable {l l' : Loader} {lines : List PtxLine} {program : List (List PtxLine)}

/-- The start of a function is aligned, since the PCs before it are multiples of 4. -/
theorem start_aligned {pc : Nat} (h : pc % 4 = 0) : (pc + pc % maxInstSize) % maxInstSize = 0 := by
  unfold maxInstSize
  omega

/-- A label of an assembled function leads to the PC of the instruction after it. -/
theorem pcAt_label {a : Assembly} {pc i p : Nat} (hmem : a.instrMem = image id 0 lines)
    (hplaced : ∀ j pI, lines[j]? = some (.inst pI) →
      a.placed[j]? = some (some (offset lines j, pc + offset lines j)))
    (h : a.pcAt (offset lines i) = .ok p) :
    ∃ k, findNextRealInstruction lines i = some k ∧ p = pc + offset lines k := by
  obtain ⟨cell, hcell, h⟩ := bind_eq_ok.mp h
  obtain ⟨k, hk, h⟩ := bind_eq_ok.mp h
  obtain ⟨entry, hentry, h⟩ := bind_eq_ok.mp h
  obtain ⟨⟨o, p'⟩, hp, h⟩ := bind_eq_ok.mp h
  rw [fetch_eq_ok] at hcell hk hentry hp
  cases pure_eq_ok.mp h
  subst hk hp
  rw [hmem, image_offset, Option.map_eq_some_iff] at hcell
  obtain ⟨k', hk', hkk⟩ := hcell
  cases hkk
  obtain ⟨_, ⟨pI, hinst⟩, _⟩ := findNextRealInstruction_eq_some.mp hk'
  rw [id, hplaced k' pI hinst] at hentry
  cases hentry
  exact ⟨k', hk', rfl⟩

/-- The assembly of a function begins with the table of PCs filled up to an aligned PC. -/
theorem Linked.start (hl : l.Linked) :
    (l.pcToInsn ++ List.replicate (l.nextPc % maxInstSize) none).length =
      l.nextPc + l.nextPc % maxInstSize := by
  rw [List.length_append, List.length_replicate, hl.size]

/-- What the two loops establish for the function itself. -/
theorem placed_of_extends {a a' : Assembly} {table : String → Option Nat} {f : Nat}
    (halign : a.pc % maxInstSize = 0) (hmem : a.instrMem = []) (hplaced : a.placed = [])
    (hlabels : ∀ name, a.labels name = none) (hext : Assembly.Extends f lines a a')
    (hrun : lines.foldlM a'.resolve (fun _ => none) = .ok table) :
    AssembledFunction.Placed
      { lines, startPc := a.pc, labels := a'.labels, instrMem := a'.instrMem
        placed := a'.placed, labelAddress := table } := by
  have himage : a'.instrMem = image id 0 lines := by
    rw [hext.instrMem, hmem, hplaced, List.nil_append, List.length_nil]
  have hat : ∀ j pI, lines[j]? = some (.inst pI) →
      a'.placed[j]? = some (some (offset lines j, a.pc + offset lines j)) := by
    intro j pI hj
    have h := hext.placed j pI hj
    rwa [hplaced, hmem, List.length_nil, Nat.zero_add, List.length_nil, Nat.zero_add] at h
  have hlab : ∀ name o, a'.labels name = some o →
      ∃ j, lines[j]? = some (.label name) ∧ o = offset lines j := by
    intro name o ho
    rcases hext.labels name o ho with hold | ⟨j, hj, ho⟩
    · rw [hlabels] at hold
      cases hold
    · refine ⟨j, hj, ?_⟩
      rwa [hmem, List.length_nil, Nat.zero_add] at ho
  refine ⟨halign, himage, hat, hlab, fun j pI hj hnames => ?_⟩
  obtain ⟨hmemb, _, hfrom⟩ := Assembly.foldlM_resolve hrun
  obtain ⟨pc, hpc⟩ := hmemb pI (List.mem_iff_getElem?.mpr ⟨j, hj⟩) hnames
  rcases hfrom _ pc hpc with hnone | ⟨o, ho, hpcAt⟩
  · cases hnone
  · obtain ⟨i, hi, rfl⟩ := hlab _ o ho
    obtain ⟨k, hk, rfl⟩ := pcAt_label himage hat hpcAt
    exact ⟨i, k, hi, ho, hk, hpc⟩

/-- What the first loop and the second leave is linked. -/
theorem Linked.extend (hl : l.Linked) {a : Assembly} {table : String → Option Nat}
    (hext : Assembly.Extends l.functions.length lines
      { pcToInsn := l.pcToInsn ++ List.replicate (l.nextPc % maxInstSize) none
        pcToFinfo := l.pcToFinfo
        pc := l.nextPc + l.nextPc % maxInstSize } a)
    (hrun : lines.foldlM a.resolve (fun _ => none) = .ok table) :
    Linked
      { nextPc := a.pc
        pcToInsn := a.pcToInsn
        pcToFinfo := a.pcToFinfo
        functions := l.functions ++
          [{ lines, startPc := l.nextPc + l.nextPc % maxInstSize, labels := a.labels
             instrMem := a.instrMem, placed := a.placed, labelAddress := table }] } := by
  have hstart := hl.start
  have halign := start_aligned hl.aligned
  have hpcs := hext.pcToInsn
  have hpc : a.pc = l.nextPc + l.nextPc % maxInstSize + offset lines lines.length := hext.pc
  -- a function is an old one or the last
  have hcase : ∀ f F, (l.functions ++
      [({ lines, startPc := l.nextPc + l.nextPc % maxInstSize, labels := a.labels
          instrMem := a.instrMem, placed := a.placed,
          labelAddress := table } : AssembledFunction)])[f]? = some F →
      l.functions[f]? = some F ∨ f = l.functions.length ∧
        F = { lines, startPc := l.nextPc + l.nextPc % maxInstSize, labels := a.labels
              instrMem := a.instrMem, placed := a.placed, labelAddress := table } := by
    intro f F hF
    rw [List.getElem?_append] at hF
    split at hF
    · exact .inl hF
    · have hf : f - l.functions.length = 0 := by
        have hlt := (List.getElem?_eq_some_iff.mp hF).1
        rw [List.length_singleton] at hlt
        omega
      rw [hf] at hF
      exact .inr ⟨by omega, (Option.some.inj hF).symm⟩
  constructor
  case size =>
    change a.pcToInsn.length = a.pc
    rw [hpcs, List.length_append, hstart, image_length, hpc]
  case aligned =>
    have hoff : offset lines lines.length % 4 = 0 := offset_mod
    have hl4 := hl.aligned
    change a.pc % 4 = 0
    rw [hpc]
    unfold maxInstSize at halign ⊢
    omega
  case functions =>
    intro f F hF
    rcases hcase f F hF with hold | ⟨rfl, rfl⟩
    · exact hl.functions f F hold
    · exact placed_of_extends (a := { pcToInsn := _, pcToFinfo := _, pc := _ }) halign rfl rfl
        (fun _ => rfl) hext hrun
  case finds =>
    intro f F j pI hF hj
    rcases hcase f F hF with hold | ⟨rfl, rfl⟩
    · obtain ⟨hget, hfin⟩ := hl.finds f F j pI hold hj
      obtain ⟨hlt, _⟩ := List.getElem?_eq_some_iff.mp hget
      refine ⟨?_, ?_⟩
      · rw [hpcs, List.append_assoc, List.getElem?_append_left hlt]
        exact hget
      · refine (hext.finfo_old _ ?_).trans hfin
        rw [hl.size] at hlt
        exact Nat.lt_add_right _ hlt
    · refine ⟨?_, hext.finfo j pI hj⟩
      change a.pcToInsn[l.nextPc + l.nextPc % maxInstSize + offset lines j]? = _
      rw [hpcs, ← hstart, List.getElem?_append_right (Nat.le_add_right _ _),
        Nat.add_sub_cancel_left]
      exact image_get.mpr ⟨j, pI, hj, rfl, by rw [List.length_nil, Nat.zero_add]⟩
  case found =>
    intro p f j hp
    change a.pcToInsn[p]? = _ at hp
    rw [hpcs, List.getElem?_append] at hp
    split at hp
    · rw [List.getElem?_append] at hp
      split at hp
      · obtain ⟨F, pI, hF, hj, hpF⟩ := hl.found p f j hp
        refine ⟨F, pI, ?_, hj, hpF⟩
        exact (List.getElem?_append_left (List.getElem?_eq_some_iff.mp hF).1).trans hF
      · rw [List.getElem?_replicate] at hp
        split at hp <;> cases hp
    · next hge =>
      obtain ⟨i, pI, hi, hoff, heq⟩ := image_get.mp hp
      rw [List.length_nil, Nat.zero_add, Prod.mk.injEq] at heq
      obtain ⟨rfl, rfl⟩ := heq
      refine ⟨_, pI, List.getElem?_concat_length, hi, ?_⟩
      rw [hstart] at hoff hge
      change p = l.nextPc + l.nextPc % maxInstSize + offset lines j
      omega

/-- The step: assembling a function keeps the tables linked. -/
theorem Linked.ptxAssemble (hl : l.Linked) (h : l.ptxAssemble lines = .ok l') : l'.Linked := by
  obtain ⟨a, hplace, hext⟩ := Assembly.foldlM_place l.functions.length lines
    (a := { pcToInsn := l.pcToInsn ++ List.replicate (l.nextPc % maxInstSize) none
            pcToFinfo := l.pcToFinfo
            pc := l.nextPc + l.nextPc % maxInstSize }) hl.start
  obtain ⟨a', ha', h⟩ := bind_eq_ok.mp h
  obtain ⟨table, hrun, h⟩ := bind_eq_ok.mp h
  cases hplace.symm.trans ha'
  cases pure_eq_ok.mp h
  exact hl.extend hext hrun

/-- Assembling a function stops at a label only. -/
theorem Linked.avoids (hl : l.Linked) {e : AssemblyFault} (he : ¬ badLabel e) :
    Avoids e (l.ptxAssemble lines) := by
  obtain ⟨a, hplace, _⟩ := Assembly.foldlM_place l.functions.length lines
    (a := { pcToInsn := l.pcToInsn ++ List.replicate (l.nextPc % maxInstSize) none
            pcToFinfo := l.pcToFinfo
            pc := l.nextPc + l.nextPc % maxInstSize }) hl.start
  exact .bind (.of_ok hplace) fun _ _ => .bind (avoids_resolve he) fun _ _ => .pure _

/-- However many functions are assembled, the tables hold exactly their instructions, the
labels lead to the instructions after them, and nothing but a label stops the assembly. -/
theorem assembleAll_linked (program : List (List PtxLine)) :
    (∀ l, assembleAll {} program = .ok l → l.Linked) ∧
      Avoids .misplaced (assembleAll {} program) ∧
      Avoids .instTooLong (assembleAll {} program) := by
  have hstep : ∀ (l : Loader) lines l', lines ∈ program → l.Linked →
      l.ptxAssemble lines = .ok l' → l'.Linked := fun _ _ _ _ hl h => hl.ptxAssemble h
  have havoid : ∀ e, ¬ badLabel e → Avoids e (assembleAll {} program) := by
    intro e he
    exact .foldlM Linked hstep (fun l lines _ hl => hl.avoids he) .empty
  refine ⟨fun l hrun => foldlM_invariant Linked hstep hrun .empty, havoid _ ?_, havoid _ ?_⟩
  · rintro (h | h) <;> cases h
  · rintro (h | h) <;> cases h

/-- A predicated branch over one instruction. -/
def skipLines : List PtxLine :=
  [.inst { opcode := .other }, .inst { opcode := .bra, hasPred := true, target := "SKIP" },
    .inst { opcode := .other }, .label "SKIP", .inst { opcode := .ret }]

theorem assembleAll_linked_skip :
    ∃ l, assembleAll {} [skipLines, skipLines] = .ok l ∧ l.Linked :=
  ⟨_, rfl, (assembleAll_linked [skipLines, skipLines]).1 _ rfl⟩

end Loader

end WaspSim
