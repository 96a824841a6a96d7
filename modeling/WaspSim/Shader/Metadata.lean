import WaspSim.Core.Checked
import WaspSim.Core.Text

/-!
# Loading the queue metadata

`shader_core_config::init` reads a sidecar file in pieces of at most 511 characters,
cuts each piece at its first `#` and offers it to every field. A piece sets a field
when it starts like `key = number`; what follows the number is ignored, and a sign
is accepted.
-/

namespace WaspSim

open Text

inductive MetadataField where
  | numPipelineStages
  | producerWarpsPerCta
  | queuesPerOriginalWarp
  | payloadWordsPerLane
  | elementBits
  deriving DecidableEq, Repr

/-- The key of a field in the file. -/
def MetadataField.key : MetadataField → List Char
  | .numPipelineStages => "num_pipeline_stages".toList
  | .producerWarpsPerCta => "producer_warps_per_cta".toList
  | .queuesPerOriginalWarp => "queues_per_original_warp".toList
  | .payloadWordsPerLane => "payload_words_per_lane".toList
  | .elementBits => "element_bits".toList

/-- The metadata of one kind of queue. -/
def Metadata : Type := MetadataField → Nat

/-- The assertions on loaded metadata. -/
inductive MetadataError where
  /-- More stages than `gpgpu_wasp_max_pipeline_stages`. -/
  | stages
  | queues
  | payload
  deriving DecidableEq, Repr

namespace Metadata

/-- The values before a file is read. -/
def initial : Metadata
  | .numPipelineStages => 2
  | .producerWarpsPerCta => 0
  | .queuesPerOriginalWarp => 1
  | .payloadWordsPerLane => 3
  | .elementBits => 96

/-- The text before the first `#`. -/
def cut (line : List Char) : List Char := line.takeWhile (· != '#')

/-- The text before the first `=`. -/
def lhs (s : List Char) : List Char := s.takeWhile (· != '=')

/-- The text behind the first `=`, if there is one. -/
def rhs? (s : List Char) : Option (List Char) := (s.dropWhile (· != '=')).tail?

/-- `sscanf(line, " %127[^=]= %u", lhs, &rhs)` when it converts both. -/
def scan (line : List Char) : Option (List Char × Nat) :=
  let s := trimLeft line
  let name := (lhs s).take 127
  if name = [] then none
  else
    match s.drop name.length with
    | '=' :: rest => (scanUnsigned rest).map fun n => (name, n)
    | _ => none

/-- The value that a piece of the file, cut at its `#`, gives a field. -/
def announced (f : MetadataField) (line : List Char) : Option Nat :=
  match scan (cut line) with
  | some (name, n) => if trim name = f.key then some n else none
  | none => none

/-- `wasp_parse_metadata_value`. -/
def parseMetadataValue (line : List Char) (m : Metadata) (f : MetadataField) : Metadata :=
  match announced f line with
  | some n => Function.update m f n
  | none => m

/-- The body of the reading loop. -/
def readLine (m : Metadata) (line : List Char) : Metadata :=
  [.numPipelineStages, .producerWarpsPerCta, .queuesPerOriginalWarp, .payloadWordsPerLane,
    .elementBits].foldl (parseMetadataValue line) m

/-- `sizeof(line) - 1`. -/
def room : Nat := 511

/-- The reading loop. -/
def load (m : Metadata) (text : List Char) : Metadata := (reads room text).foldl readLine m

/-- The part of `shader_core_config::init` for one kind of queue, with the text of its file. -/
def init (maxPipelineStages : Nat) (file : Option (List Char)) : Except MetadataError Metadata := do
  let m : Metadata :=
    match file with
    | some text => load initial text
    | none => initial
  require .stages (m .numPipelineStages ≤ maxPipelineStages)
  require .queues (0 < m .queuesPerOriginalWarp)
  require .payload (0 < m .payloadWordsPerLane)
  pure m

/-- What a line says about a field: its text before the first `#` is `key = n` up to blanks, with
a decimal `n` below `2 ^ 32`. -/
def assignment (f : MetadataField) (line : List Char) : Option Nat :=
  match rhs? (cut line) with
  | some rest =>
    if trim (lhs (cut line)) = f.key ∧ IsDecimal rest then some (digitsValue (trim rest)) else none
  | none => none

/-- The value of the last line that says something about a field, or `m`. -/
def lastAssignment (m : Metadata) (text : List Char) (f : MetadataField) : Nat :=
  (((lines text).filterMap (assignment f)).getLast?).getD (m f)

/-- The condition on a line that is read at once: behind the key of a field stands a decimal
number and at most 127 characters lead from the key to the `=`, or no number begins there, or
blanks fill more than 127 characters. -/
def ShortFits (l : List Char) : Prop :=
  ∀ rest, rhs? (cut l) = some rest → (∃ f : MetadataField, trim (lhs (cut l)) = f.key) →
    if IsDecimal rest then (trimLeft (lhs (cut l))).length ≤ 127
    else 127 < (trimLeft (lhs (cut l))).length ∨ ¬StartsWithNumber rest

/-- A piece of a line starts like `key = v`: before its first `#` and its first `=` stands the key
of the field between blanks, with at most 127 characters from the key to the `=`, and behind the
`=` a number. -/
def StartsLike (f : MetadataField) (p : List Char) (v : Nat) : Prop :=
  trim (lhs (cut p)) = f.key ∧ (trimLeft (lhs (cut p))).length ≤ 127 ∧
    ∃ rest, rhs? (cut p) = some rest ∧ ReadsNumber rest v

/-- The condition on a line that is read in pieces: for a field that the line sets, the last piece
that starts like `key = v` has the number of the line, and for another field there is none. -/
def LongFits (l : List Char) : Prop :=
  ∀ f, match assignment f l with
    | some n => ∃ i, StartsLike f (piece room l i) n ∧
        ∀ j, i < j → ∀ v, ¬StartsLike f (piece room l j) v
    | none => ∀ i v, ¬StartsLike f (piece room l i) v

/-- The condition on a line. -/
def LineFits (l : List Char) : Prop := if l.length ≤ room then ShortFits l else LongFits l

/-- A line sets the field that it announces. -/
theorem readLine_apply (m : Metadata) (line : List Char) (f : MetadataField) :
    readLine m line f = (announced f line).getD (m f) := by
  have hparse : ∀ (m : Metadata) (g : MetadataField), parseMetadataValue line m g f =
      if f = g then (announced g line).getD (m f) else m f := by
    intro m g
    unfold parseMetadataValue
    cases announced g line with
    | none => simp
    | some n => exact Function.update_apply m g n f
  simp only [readLine, List.foldl_cons, List.foldl_nil, hparse]
  cases f with
  | numPipelineStages | producerWarpsPerCta | queuesPerOriginalWarp | payloadWordsPerLane
  | elementBits => simp

/-- When each step sets a field to what its argument says, the last one that says something
decides. -/
theorem foldl_last {step : Metadata → List Char → Metadata} {value : List Char → Option Nat}
    {f : MetadataField} {pieces : List (List Char)}
    (h : ∀ p ∈ pieces, ∀ m, step m p f = (value p).getD (m f)) (m : Metadata) :
    pieces.foldl step m f = ((pieces.filterMap value).getLast?).getD (m f) := by
  induction pieces generalizing m with
  | nil => rfl
  | cons p pieces ih =>
    rw [List.foldl_cons, ih (fun q hq => h q (List.mem_cons_of_mem _ hq)),
      h p List.mem_cons_self]
    cases hp : value p with
    | none => simp [hp]
    | some n =>
      rw [List.filterMap_cons_some hp, List.getLast?_cons]
      cases (pieces.filterMap value).getLast? with
      | none => rfl
      | some k => rfl

/-- Behind the characters before the first `=` comes the `=`, or nothing. -/
theorem dropWhile_eq_nil_or_cons (s : List Char) :
    s.dropWhile (· != '=') = [] ∧ rhs? s = none ∨
      ∃ rest, s.dropWhile (· != '=') = '=' :: rest ∧ rhs? s = some rest := by
  unfold rhs?
  cases htail : s.dropWhile (· != '=') with
  | nil => exact .inl ⟨rfl, rfl⟩
  | cons c cs =>
    have hc : c = '=' := by
      have hhead := List.head?_dropWhile_not (· != '=') s
      simpa [htail] using hhead
    subst hc
    exact .inr ⟨cs, rfl, rfl⟩

/-- The leading blanks of a text belong to what precedes its `=`. -/
theorem trimLeft_split (s : List Char) :
    trimLeft s = trimLeft (lhs s) ++ s.dropWhile (· != '=') := by
  have hsplit : s = lhs s ++ s.dropWhile (· != '=') := List.takeWhile_append_dropWhile.symm
  conv_lhs => rw [hsplit]
  unfold trimLeft
  rw [List.dropWhile_append]
  split
  · rename_i hempty
    rw [List.isEmpty_iff] at hempty
    rw [hempty, List.nil_append]
    rcases dropWhile_eq_nil_or_cons s with ⟨htail, _⟩ | ⟨rest, htail, _⟩
    · rw [htail]
      rfl
    · rw [htail]
      rfl
  · rfl

/-- A piece is scanned by its text around the first `=`. -/
theorem scan_eq (s : List Char) :
    scan s = if (trimLeft (lhs s)).length ≤ 127 ∧ trimLeft (lhs s) ≠ [] then
      (rhs? s).bind fun rest => (scanUnsigned rest).map fun n => (trimLeft (lhs s), n)
    else none := by
  have hname : ∀ c ∈ trimLeft (lhs s), (c != '=') = true := by
    intro c hc
    have hmem : c ∈ lhs s := (List.dropWhile_suffix isSpace).subset hc
    exact List.mem_takeWhile_imp (p := fun c => c != '=') hmem
  have hlhs : lhs (trimLeft s) = trimLeft (lhs s) := by
    rw [trimLeft_split]
    refine (List.takeWhile_append_of_pos hname).trans ?_
    rcases dropWhile_eq_nil_or_cons s with ⟨htail, _⟩ | ⟨rest, htail, _⟩
    · simp [htail]
    · simp [htail]
  unfold scan
  simp only [hlhs]
  by_cases hlength : (trimLeft (lhs s)).length ≤ 127
  · rw [List.take_of_length_le hlength]
    by_cases hne : trimLeft (lhs s) = []
    · simp [hne]
    · have hdrop : (trimLeft s).drop (trimLeft (lhs s)).length = s.dropWhile (· != '=') := by
        rw [trimLeft_split s, List.drop_left]
      rw [if_neg hne, if_pos ⟨hlength, hne⟩, hdrop]
      rcases dropWhile_eq_nil_or_cons s with ⟨htail, hrhs⟩ | ⟨rest, htail, hrhs⟩
      · rw [htail, hrhs]
        rfl
      · rw [htail, hrhs]
        rfl
  · -- the buffer is full before the `=`
    have hlong : ((trimLeft (lhs s)).take 127).length = 127 := by
      rw [List.length_take]
      omega
    have hne : (trimLeft (lhs s)).take 127 ≠ [] := by
      intro hnil
      rw [hnil] at hlong
      cases hlong
    have hdrop : (trimLeft s).drop 127 =
        (trimLeft (lhs s)).drop 127 ++ s.dropWhile (· != '=') := by
      rw [trimLeft_split s, List.drop_append_of_le_length (by omega)]
    rw [if_neg hne, if_neg fun h => hlength h.1, hlong, hdrop]
    cases hrest : (trimLeft (lhs s)).drop 127 with
    | nil =>
      have hzero := congrArg List.length hrest
      rw [List.length_drop, List.length_nil] at hzero
      omega
    | cons c cs =>
      have hc := hname c (List.mem_of_mem_drop (hrest ▸ List.mem_cons_self))
      split
      · rename_i heq
        cases heq
        cases hc
      · rfl

/-- A key has characters. -/
theorem key_ne_nil (f : MetadataField) : f.key ≠ [] := by
  cases f with
  | numPipelineStages | producerWarpsPerCta | queuesPerOriginalWarp | payloadWordsPerLane
  | elementBits => decide

/-- What a piece gives a field, by its text around the first `=`. -/
theorem announced_eq (f : MetadataField) (l : List Char) :
    announced f l = if trim (lhs (cut l)) = f.key ∧ (trimLeft (lhs (cut l))).length ≤ 127 then
      (rhs? (cut l)).bind scanUnsigned else none := by
  have htrim : trim (trimLeft (lhs (cut l))) = trim (lhs (cut l)) := by
    unfold trim trimLeft
    rw [List.dropWhile_idempotent]
  have hne : trim (lhs (cut l)) = f.key → trimLeft (lhs (cut l)) ≠ [] := by
    intro hkey hnil
    rw [trim, hnil] at hkey
    exact key_ne_nil f hkey.symm
  unfold announced
  rw [scan_eq]
  by_cases hlength : (trimLeft (lhs (cut l))).length ≤ 127
  · by_cases hkey : trim (lhs (cut l)) = f.key
    · rw [if_pos ⟨hlength, hne hkey⟩, if_pos ⟨hkey, hlength⟩]
      cases rhs? (cut l) with
      | none => rfl
      | some rest =>
        rw [Option.bind_some, Option.bind_some]
        cases scanUnsigned rest with
        | none => rfl
        | some n => simp only [Option.map_some, htrim, hkey, ↓reduceIte]
    · have hright : (if trim (lhs (cut l)) = f.key ∧ (trimLeft (lhs (cut l))).length ≤ 127 then
          (rhs? (cut l)).bind scanUnsigned else none) = none := if_neg fun h => hkey h.1
      rw [hright]
      split
      · rename_i name n hscan
        split at hscan
        · obtain ⟨rest, _, hscan⟩ := Option.bind_eq_some_iff.mp hscan
          obtain ⟨_, _, hpair⟩ := Option.map_eq_some_iff.mp hscan
          cases hpair
          rw [htrim, if_neg hkey]
        · cases hscan
      · rfl
  · rw [if_neg fun h => hlength h.1, if_neg fun h => hlength h.2]

/-- What a line says about a field, by its text around the first `=`. -/
theorem assignment_eq (f : MetadataField) (l : List Char) :
    assignment f l = if trim (lhs (cut l)) = f.key then
      (rhs? (cut l)).bind fun rest =>
        if IsDecimal rest then some (digitsValue (trim rest)) else none
      else none := by
  unfold assignment
  cases rhs? (cut l) with
  | none => simp
  | some rest => simp only [ite_and, Option.bind_some]

/-- A line that is read at once gives every field what it says exactly under the condition. -/
theorem announced_eq_assignment_iff (l : List Char) :
    (∀ f, announced f l = assignment f l) ↔ ShortFits l := by
  simp only [announced_eq, assignment_eq]
  constructor
  · rintro hall rest hrest ⟨f, hkey⟩
    have hf := hall f
    simp only [hkey, hrest, true_and, ↓reduceIte, Option.bind_some] at hf
    by_cases hdecimal : IsDecimal rest
    · rw [if_pos hdecimal] at hf ⊢
      by_contra hlength
      rw [if_neg hlength] at hf
      cases hf
    · rw [if_neg hdecimal] at hf ⊢
      by_cases hlength : (trimLeft (lhs (cut l))).length ≤ 127
      · rw [if_pos hlength] at hf
        exact .inr (scanUnsigned_eq_none_iff.mp hf)
      · exact .inl (Nat.lt_of_not_le hlength)
  · intro hfits f
    by_cases hkey : trim (lhs (cut l)) = f.key
    · cases hrest : rhs? (cut l) with
      | none => simp
      | some rest =>
        have hcond := hfits rest hrest ⟨f, hkey⟩
        simp only [hkey, true_and, ↓reduceIte, Option.bind_some]
        by_cases hdecimal : IsDecimal rest
        · rw [if_pos hdecimal] at hcond ⊢
          rw [if_pos hcond, scanUnsigned_of_isDecimal hdecimal]
        · rw [if_neg hdecimal] at hcond ⊢
          split
          · rename_i hlength
            exact scanUnsigned_eq_none_iff.mpr (hcond.resolve_left (Nat.not_lt.mpr hlength))
          · rfl
    · simp [hkey]

/-- A piece announces a value when it begins like it. -/
theorem announced_eq_some_iff {f : MetadataField} {p : List Char} {v : Nat} :
    announced f p = some v ↔ StartsLike f p v := by
  rw [announced_eq]
  constructor
  · intro h
    split at h
    · rename_i hname
      obtain ⟨rest, hrest, hnumber⟩ := Option.bind_eq_some_iff.mp h
      exact ⟨hname.1, hname.2, rest, hrest, scanUnsigned_eq_some_iff.mp hnumber⟩
    · cases h
  · rintro ⟨hkey, hlength, rest, hrest, hnumber⟩
    rw [if_pos ⟨hkey, hlength⟩, hrest]
    exact scanUnsigned_eq_some_iff.mpr hnumber

/-- A piece announces no value when it begins like none. -/
theorem announced_eq_none_iff {f : MetadataField} {p : List Char} :
    announced f p = none ↔ ∀ v, ¬StartsLike f p v := by
  simp only [Option.eq_none_iff_forall_ne_some, ne_eq, announced_eq_some_iff]

/-- The pieces of a line together give every field what the line says exactly under the
condition. -/
theorem pieces_eq_assignment_iff {l : List Char} (hline : IsLine l) :
    (∀ f, ((reads room l).filterMap (announced f)).getLast? = assignment f l) ↔ LongFits l := by
  refine forall_congr' fun f => ?_
  have hend : ∀ i, l.length ≤ i → announced f (piece room l i) = none := by
    intro i hi
    have hnil : piece room l i = [] := by
      rw [piece, List.drop_of_length_le (hi.trans (Nat.le_mul_of_pos_left i (by decide))),
        List.take_nil]
    rw [hnil]
    rfl
  rw [filterMap_reads (by decide) (announced f) rfl hline le_rfl]
  cases assignment f l with
  | some n =>
    rw [getLast?_filterMap_range hend]
    simp only [announced_eq_some_iff, announced_eq_none_iff]
  | none =>
    rw [List.getLast?_eq_none_iff, List.filterMap_eq_nil_iff]
    simp only [← announced_eq_none_iff, List.mem_range]
    constructor
    · intro h i
      rcases Nat.lt_or_ge i l.length with hlt | hge
      · exact h i hlt
      · exact hend i hge
    · exact fun h i _ => h i

/-- A line has its effect on every metadata exactly when it meets the condition. -/
theorem load_line_iff {text l : List Char} (hl : l ∈ lines text) :
    (∀ m f, load m l f = (assignment f l).getD (m f)) ↔ LineFits l := by
  have hload : ∀ m f, load m l f = (((reads room l).filterMap (announced f)).getLast?).getD (m f) :=
    fun m f => foldl_last (fun p _ m => readLine_apply m p f) m
  have hlast : (∀ m f, load m l f = (assignment f l).getD (m f)) ↔
      ∀ f, ((reads room l).filterMap (announced f)).getLast? = assignment f l := by
    simp only [hload]
    constructor
    · intro hall f
      have hzero := hall (fun _ => 0) f
      have hone := hall (fun _ => 1) f
      cases hleft : ((reads room l).filterMap (announced f)).getLast? with
      | none =>
        cases hright : assignment f l with
        | none => rfl
        | some n =>
          simp only [hleft, hright, Option.getD_none, Option.getD_some] at hzero hone
          omega
      | some k =>
        cases hright : assignment f l with
        | none =>
          simp only [hleft, hright, Option.getD_none, Option.getD_some] at hzero hone
          omega
        | some n =>
          simp only [hleft, hright, Option.getD_some] at hzero
          rw [hzero]
    · intro hall m f
      rw [hall f]
  rw [hlast]
  unfold LineFits
  split
  · rename_i hshort
    rw [← announced_eq_assignment_iff, reads_short hl hshort]
    refine forall_congr' fun f => ?_
    cases h : announced f l with
    | none => simp [h]
    | some n => simp [h]
  · exact pieces_eq_assignment_iff (isLine_of_mem_lines hl)

/-- A file is loaded line by line. -/
theorem load_eq_foldl (m : Metadata) (text : List Char) :
    load m text = (lines text).foldl load m := by
  unfold load
  rw [reads_eq_flatMap (by decide), List.foldl_flatMap]

/-- Every line of a file sets exactly what it says, whatever the fields hold, if and only if it
meets the condition. Loading a file whose lines all meet it leaves in each field the value of the
last line that says something about it, or the default. -/
theorem metadata_lines_iff (text : List Char) :
    ((∀ l ∈ lines text, ∀ m f, load m l f = (assignment f l).getD (m f)) ↔
        ∀ l ∈ lines text, LineFits l) ∧
      ((∀ l ∈ lines text, LineFits l) → ∀ maxPipelineStages m,
        init maxPipelineStages (some text) = .ok m → m = lastAssignment initial text) := by
  have hiff : (∀ l ∈ lines text, ∀ m f, load m l f = (assignment f l).getD (m f)) ↔
      ∀ l ∈ lines text, LineFits l :=
    forall_congr' fun l => forall_congr' fun hl => load_line_iff hl
  refine ⟨hiff, ?_⟩
  intro hfits maxPipelineStages m hinit
  have hlines := hiff.mpr hfits
  simp only [init, bind_eq_ok, require_eq_ok, pure_eq_ok] at hinit
  obtain ⟨_, _, _, _, _, _, rfl⟩ := hinit
  funext f
  rw [load_eq_foldl]
  exact foldl_last (fun l hl m => hlines l hl m f) initial

/-- Metadata within the bounds are accepted. -/
theorem init_eq_ok {maxPipelineStages : Nat} {text : List Char}
    (hstages : load initial text .numPipelineStages ≤ maxPipelineStages)
    (hqueues : 0 < load initial text .queuesPerOriginalWarp)
    (hpayload : 0 < load initial text .payloadWordsPerLane) :
    init maxPipelineStages (some text) = .ok (load initial text) := by
  simp only [init, require, hstages, hqueues, hpayload, ↓reduceIte]
  rfl

theorem metadata_lines_iff_of_sample :
    ∃ m, init 2 (some ("element_bits = 32 # ".toList ++ List.replicate 600 '-' ++
        "\nnum_pipeline_stages = 1\n".toList)) = .ok m ∧
      m .elementBits = 32 ∧ m .numPipelineStages = 1 := by
  let long : List Char := "element_bits = 32 # ".toList ++ List.replicate 600 '-' ++ ['\n']
  let text : List Char := "element_bits = 32 # ".toList ++ List.replicate 600 '-' ++
    "\nnum_pipeline_stages = 1\n".toList
  have hlines : lines text = [long, "num_pipeline_stages = 1\n".toList] := by decide +kernel
  have hfits : ∀ l ∈ lines text, LineFits l := by
    rw [hlines]
    intro l hl
    rcases List.mem_cons.mp hl with rfl | hl
    · have hline : IsLine long := isLine_of_mem_lines (by rw [hlines]; exact List.mem_cons_self)
      have hlength : room < long.length := by decide +kernel
      rw [LineFits, if_neg (Nat.not_le.mpr hlength), ← pieces_eq_assignment_iff hline]
      intro f
      cases f with
      | numPipelineStages | producerWarpsPerCta | queuesPerOriginalWarp | payloadWordsPerLane
      | elementBits => decide +kernel
    · rw [List.mem_singleton] at hl
      subst hl
      refine (if_pos (by decide)).mpr ?_
      intro rest hrest _
      obtain rfl : " 1\n".toList = rest := Option.some.inj hrest
      exact (if_pos (by decide)).mpr (by decide)
  have hinit : init 2 (some text) = .ok (load initial text) :=
    init_eq_ok (by decide +kernel) (by decide +kernel) (by decide +kernel)
  have hfinal := (metadata_lines_iff text).2 hfits 2 _ hinit
  exact ⟨_, hinit, (congrFun hfinal .elementBits).trans (by decide +kernel),
    (congrFun hfinal .numPipelineStages).trans (by decide +kernel)⟩

/-- A negative number becomes a large one. -/
theorem negative_number_loaded :
    ∃ m, init 2 (some "element_bits = -1\n".toList) = .ok m ∧ m .elementBits = 4294967295 ∧
      lastAssignment initial "element_bits = -1\n".toList .elementBits = 96 :=
  ⟨load initial "element_bits = -1\n".toList,
    init_eq_ok (by decide) (by decide) (by decide),
    by decide, by decide⟩

end Metadata
end WaspSim
