import Mathlib.Data.List.DropRight
import Mathlib.Data.List.TakeWhile

/-!
# Reading text

Lines of a text, read as the C library reads them: `fgets` fills a buffer of fixed
size and stops behind a newline, so that a long line comes in pieces; `%u` takes an
optional sign and digits and leaves the rest. A character stands for a byte, and a text
has no NUL among them.
-/

namespace WaspSim
namespace Text

/-- `isspace`. -/
def isSpace (c : Char) : Bool := c.toNat == 32 || (9 ≤ c.toNat && c.toNat ≤ 13)

/-- The text from its first character that is no blank. -/
def trimLeft (s : List Char) : List Char := s.dropWhile isSpace

/-- The text without the blanks around it. -/
def trim (s : List Char) : List Char := (trimLeft s).rdropWhile isSpace

/-- The number that decimal digits denote. -/
def digitsValue (ds : List Char) : Nat := ds.foldl (fun n c => 10 * n + (c.toNat - 48)) 0

/-- `atoi` of decimal digits: `strtol` in 64 bits, cut to 32 bits. -/
def atoi (ds : List Char) : Nat := min (digitsValue ds) 9223372036854775807 % 4294967296

/-- A sign in front of a number. -/
def splitSign : List Char → Bool × List Char
  | '-' :: s => (true, s)
  | '+' :: s => (false, s)
  | s => (false, s)

/-- `strtoul` of a sign and digits, in 64 bits. -/
def strtoul (negative : Bool) (n : Nat) : Nat :=
  if 18446744073709551616 ≤ n then 18446744073709551615
  else if negative then (18446744073709551616 - n) % 18446744073709551616
  else n

/-- The conversion `%u` into 32 bits, when there is a number. -/
def scanUnsigned (s : List Char) : Option Nat :=
  let (negative, s) := splitSign (trimLeft s)
  let ds := s.takeWhile Char.isDigit
  if ds = [] then none else some (strtoul negative (digitsValue ds) % 4294967296)

/-- The text is a decimal number below `2 ^ 32` between blanks. -/
def IsDecimal (s : List Char) : Prop :=
  trim s ≠ [] ∧ (trim s).all Char.isDigit = true ∧ digitsValue (trim s) < 4294967296

instance (s : List Char) : Decidable (IsDecimal s) := by unfold IsDecimal; infer_instance

/-- Behind blanks and a sign, the text begins with a digit. -/
def StartsWithNumber (s : List Char) : Prop :=
  ∃ c ∈ (splitSign (trimLeft s)).2.head?, c.isDigit = true

/-- A number as `%u` reads it: behind blanks an optional sign and digits, which no digit
follows. -/
inductive ReadsNumber : List Char → Nat → Prop
  | mk {blanks sign digits after : List Char} (hblanks : ∀ c ∈ blanks, isSpace c = true)
      (hsign : sign = [] ∨ sign = ['+'] ∨ sign = ['-']) (hne : digits ≠ [])
      (hdigits : ∀ c ∈ digits, c.isDigit = true)
      (hafter : ∀ c ∈ after.head?, c.isDigit = false) :
      ReadsNumber (blanks ++ (sign ++ (digits ++ after)))
        (strtoul (sign == ['-']) (digitsValue digits) % 4294967296)

/-- `fgets` with room for so many characters: the characters read and those left. -/
def fgets : Nat → List Char → List Char × List Char
  | 0, cs => ([], cs)
  | _ + 1, [] => ([], [])
  | n + 1, c :: cs =>
    if c = '\n' then ([c], cs) else (c :: (fgets n cs).1, (fgets n cs).2)

/-- At most `fuel` reads. -/
def readAll (room : Nat) : Nat → List Char → List (List Char)
  | 0, _ => []
  | _ + 1, [] => []
  | fuel + 1, text => (fgets room text).1 :: readAll room fuel (fgets room text).2

/-- All reads until the end of the text; each takes a character. -/
def reads (room : Nat) (text : List Char) : List (List Char) := readAll room text.length text

/-- The lines of a text with their newlines. -/
def lines : List Char → List (List Char)
  | [] => []
  | c :: cs =>
    if c = '\n' then [c] :: lines cs
    else
      match lines cs with
      | [] => [[c]]
      | l :: ls => (c :: l) :: ls

/-- The characters from `room * i` on, as many as there is room for. -/
def piece (room : Nat) (l : List Char) (i : Nat) : List Char := (l.drop (room * i)).take room

/-- A newline can only be the last character. -/
def IsLine (l : List Char) : Prop := '\n' ∉ l.dropLast

/-- A read consumes some of the text. -/
theorem fgets_length {n : Nat} (hn : 0 < n) {text : List Char} (htext : text ≠ []) :
    (fgets n text).2.length < text.length := by
  have hle : ∀ n text, (fgets n text).2.length ≤ text.length := by
    intro n text
    induction n generalizing text with
    | zero => exact Nat.le_refl _
    | succ n ih =>
      cases text with
      | nil => exact Nat.le_refl _
      | cons c cs =>
        unfold fgets
        split
        · exact Nat.le_succ _
        · exact (ih cs).trans (Nat.le_succ _)
  cases n with
  | zero => omega
  | succ n =>
    cases text with
    | nil => exact absurd rfl htext
    | cons c cs =>
      unfold fgets
      split
      · exact Nat.lt_succ_self _
      · exact Nat.lt_succ_of_le (hle n cs)

/-- Enough fuel reads everything. -/
theorem readAll_eq {room : Nat} (hroom : 0 < room) {fuel : Nat} {text : List Char}
    (hfuel : text.length ≤ fuel) : readAll room fuel text = reads room text := by
  suffices hany : ∀ {fuel fuel' : Nat} {text : List Char}, text.length ≤ fuel →
      text.length ≤ fuel' → readAll room fuel text = readAll room fuel' text by
    exact hany hfuel (Nat.le_refl _)
  intro fuel
  induction fuel with
  | zero =>
    intro fuel' text hfuel _
    obtain rfl := List.eq_nil_of_length_eq_zero (Nat.le_zero.mp hfuel)
    cases fuel' <;> rfl
  | succ fuel ih =>
    intro fuel' text hfuel hfuel'
    cases text with
    | nil => cases fuel' <;> rfl
    | cons c cs =>
      cases fuel' with
      | zero => cases hfuel'
      | succ fuel' =>
        have hshort := fgets_length hroom (List.cons_ne_nil c cs)
        unfold readAll
        rw [@ih fuel' (fgets room (c :: cs)).2 (by omega) (by omega)]

/-- The first read, and those of the rest. -/
theorem reads_cons {room : Nat} (hroom : 0 < room) {text : List Char} (htext : text ≠ []) :
    reads room text = (fgets room text).1 :: reads room (fgets room text).2 := by
  cases text with
  | nil => exact absurd rfl htext
  | cons c cs =>
    have hshort := fgets_length hroom htext
    rw [← readAll_eq hroom (Nat.le_of_lt_succ hshort)]
    rfl

/-- Reading within a line: up to the newline, or as far as there is room. -/
theorem fgets_line (n : Nat) {body : List Char} (hbody : '\n' ∉ body) (rest : List Char) :
    fgets n (body ++ '\n' :: rest) =
      if body.length < n then (body ++ ['\n'], rest)
      else (body.take n, body.drop n ++ '\n' :: rest) := by
  induction n generalizing body with
  | zero => rfl
  | succ n ih =>
    cases body with
    | nil => simp [fgets]
    | cons c body =>
      rw [List.mem_cons, not_or] at hbody
      have hc : c ≠ '\n' := Ne.symm hbody.1
      simp only [List.cons_append, fgets, hc, ↓reduceIte, ih hbody.2, List.length_cons,
        Nat.add_lt_add_iff_right]
      split
      · rfl
      · rfl

/-- Reading a text without newline. -/
theorem fgets_noNewline (n : Nat) {text : List Char} (htext : '\n' ∉ text) :
    fgets n text = (text.take n, text.drop n) := by
  induction n generalizing text with
  | zero => rfl
  | succ n ih =>
    cases text with
    | nil => rfl
    | cons c cs =>
      rw [List.mem_cons, not_or] at htext
      have hc : c ≠ '\n' := Ne.symm htext.1
      simp only [fgets, hc, ↓reduceIte, ih htext.2]
      rfl

/-- No read goes beyond a newline. -/
theorem reads_line {room : Nat} (hroom : 0 < room) {body : List Char} (hbody : '\n' ∉ body)
    (rest : List Char) :
    reads room (body ++ '\n' :: rest) = reads room (body ++ ['\n']) ++ reads room rest := by
  have hline := fgets_line room hbody
  have hne : ∀ rest, body ++ '\n' :: rest ≠ [] := fun rest => by simp
  by_cases hshort : body.length < room
  · simp only [hshort, ↓reduceIte] at hline
    rw [reads_cons hroom (hne rest), reads_cons hroom (hne []),
      hline rest, hline []]
    rfl
  · simp only [hshort, ↓reduceIte] at hline
    have hdrop : '\n' ∉ body.drop room := fun h => hbody (List.mem_of_mem_drop h)
    rw [reads_cons hroom (hne rest), reads_cons hroom (hne []),
      hline rest, hline []]
    simp only [List.cons_append]
    rw [reads_line hroom hdrop rest]
termination_by body.length
decreasing_by
  rw [List.length_drop]
  omega

/-- The first line, and those of the rest. -/
theorem lines_line {body : List Char} (hbody : '\n' ∉ body) (rest : List Char) :
    lines (body ++ '\n' :: rest) = (body ++ ['\n']) :: lines rest := by
  induction body with
  | nil => simp [lines]
  | cons c body ih =>
    rw [List.mem_cons, not_or] at hbody
    have hc : c ≠ '\n' := Ne.symm hbody.1
    simp only [List.cons_append, lines, hc, ↓reduceIte, ih hbody.2]

/-- A text without a newline is one line. -/
theorem lines_noNewline {text : List Char} (htext : '\n' ∉ text) (hne : text ≠ []) :
    lines text = [text] := by
  induction text with
  | nil => exact absurd rfl hne
  | cons c cs ih =>
    rw [List.mem_cons, not_or] at htext
    have hc : c ≠ '\n' := Ne.symm htext.1
    cases cs with
    | nil => simp [lines, hc]
    | cons d ds =>
      unfold lines
      rw [if_neg hc, ih htext.2 (List.cons_ne_nil d ds)]

/-- Induction over the lines of a text: its last line has no newline. -/
@[elab_as_elim]
theorem line_induction {motive : List Char → Prop} (text : List Char)
    (last : ∀ text, '\n' ∉ text → motive text)
    (line : ∀ body rest, '\n' ∉ body → motive rest → motive (body ++ '\n' :: rest)) :
    motive text := by
  by_cases h : '\n' ∈ text
  · obtain ⟨body, rest, htext, hbody⟩ := List.eq_append_cons_of_mem h
    have hshort : rest.length < text.length := by
      rw [htext, List.length_append, List.length_cons]
      omega
    rw [htext]
    exact line body rest hbody (line_induction rest last line)
  · exact last text h
termination_by text.length

/-- A text is read line by line. -/
theorem reads_eq_flatMap {room : Nat} (hroom : 0 < room) (text : List Char) :
    reads room text = (lines text).flatMap (reads room) := by
  induction text using line_induction with
  | last text htext =>
    by_cases hne : text = []
    · subst hne
      rfl
    · rw [lines_noNewline htext hne, List.flatMap_singleton]
  | line body rest hbody ih =>
    rw [reads_line hroom hbody, lines_line hbody, List.flatMap_cons, ih]

/-- A line that fits into the buffer is one read. -/
theorem reads_short {room : Nat} {text l : List Char} (hl : l ∈ lines text)
    (hlength : l.length ≤ room) : reads room l = [l] := by
  induction text using line_induction with
  | last text htext =>
    have hne : text ≠ [] := by
      rintro rfl
      cases hl
    rw [lines_noNewline htext hne, List.mem_singleton] at hl
    subst hl
    have hpos := List.length_pos_of_ne_nil hne
    rw [reads_cons (by omega) hne, fgets_noNewline room htext, List.take_of_length_le hlength,
      List.drop_of_length_le hlength]
    rfl
  | line body rest hbody ih =>
    rw [lines_line hbody] at hl
    rcases List.mem_cons.mp hl with rfl | hl
    · rw [List.length_append, List.length_singleton] at hlength
      rw [reads_cons (by omega) (by simp), fgets_line room hbody, if_pos (by omega)]
      rfl
    · exact ih hl

/-- The lines of a text are lines. -/
theorem isLine_of_mem_lines {text l : List Char} (hl : l ∈ lines text) : IsLine l := by
  induction text using line_induction with
  | last text htext =>
    have hne : text ≠ [] := by
      rintro rfl
      cases hl
    rw [lines_noNewline htext hne, List.mem_singleton] at hl
    subst hl
    exact fun h => htext (List.dropLast_subset _ h)
  | line body rest hbody ih =>
    rw [lines_line hbody] at hl
    rcases List.mem_cons.mp hl with rfl | hl
    · rwa [IsLine, List.dropLast_concat]
    · exact ih hl

/-- The rest of a line is a line. -/
theorem IsLine.drop {l : List Char} (h : IsLine l) (n : Nat) : IsLine (l.drop n) := by
  intro hmem
  rw [List.dropLast_eq_take, List.length_drop, Nat.sub_right_comm, ← List.drop_take,
    ← List.dropLast_eq_take] at hmem
  exact h (List.mem_of_mem_drop hmem)

/-- A read of a line takes as many characters as there is room for. -/
theorem fgets_isLine (n : Nat) {l : List Char} (h : IsLine l) :
    fgets n l = (l.take n, l.drop n) := by
  by_cases hnewline : '\n' ∈ l
  · have hne : l ≠ [] := List.ne_nil_of_mem hnewline
    have hlast : l.getLast hne = '\n' := by
      have hmem := hnewline
      rw [← List.dropLast_append_getLast hne, List.mem_append, List.mem_singleton] at hmem
      exact (hmem.resolve_left h).symm
    obtain ⟨body, rfl, hbody⟩ : ∃ body, l = body ++ ['\n'] ∧ '\n' ∉ body :=
      ⟨l.dropLast, by rw [← hlast, List.dropLast_append_getLast hne], h⟩
    rw [fgets_line n hbody]
    split
    · rename_i hlt
      have hle : (body ++ ['\n']).length ≤ n := by
        rw [List.length_append, List.length_singleton]
        exact hlt
      rw [List.take_of_length_le hle, List.drop_of_length_le hle]
    · rename_i hge
      rw [List.take_append_of_le_length (by omega), List.drop_append_of_le_length (by omega)]
  · exact fgets_noNewline n hnewline

/-- A line is read in pieces. -/
theorem filterMap_reads {α : Type} {room : Nat} (hroom : 0 < room) (g : List Char → Option α)
    (hg : g [] = none) {l : List Char} (h : IsLine l) {k : Nat} (hk : l.length ≤ k) :
    (reads room l).filterMap g = (List.range k).filterMap fun i => g (piece room l i) := by
  induction k generalizing l with
  | zero =>
    obtain rfl := List.eq_nil_of_length_eq_zero (Nat.le_zero.mp hk)
    rfl
  | succ k ih =>
    by_cases hne : l = []
    · subst hne
      have hnone : ∀ i, g (piece room [] i) = none := by
        intro i
        rw [piece, List.drop_nil, List.take_nil, hg]
      simp only [hnone, List.filterMap_none]
      rfl
    · have hpos := List.length_pos_of_ne_nil hne
      have hpiece : ∀ i, piece room l (i + 1) = piece room (l.drop room) i := by
        intro i
        rw [piece, piece, List.drop_drop, Nat.mul_succ, Nat.add_comm]
      rw [reads_cons hroom hne, fgets_isLine room h, List.range_succ_eq_map, List.filterMap_cons,
        List.filterMap_cons, List.filterMap_map,
        ih (h.drop room) (by rw [List.length_drop]; omega)]
      have hzero : piece room l 0 = l.take room := rfl
      simp only [hzero, Function.comp_def, Nat.succ_eq_add_one, hpiece]

/-- The last of the values at the numbers below `k`, behind which there are none. -/
theorem getLast?_filterMap_range {α : Type} {g : Nat → Option α} {k : Nat}
    (hend : ∀ i, k ≤ i → g i = none) (v : α) :
    ((List.range k).filterMap g).getLast? = some v ↔
      ∃ i, g i = some v ∧ ∀ j, i < j → g j = none := by
  induction k with
  | zero =>
    refine iff_of_false (by simp) ?_
    rintro ⟨i, hi, _⟩
    rw [hend i (Nat.zero_le i)] at hi
    cases hi
  | succ k ih =>
    rw [List.range_succ, List.filterMap_append]
    cases hlast : g k with
    | none =>
      have hnil : [k].filterMap g = [] := by simp [hlast]
      rw [hnil, List.append_nil]
      refine ih fun i hi => ?_
      rcases Nat.lt_or_eq_of_le hi with hlt | rfl
      · exact hend i hlt
      · exact hlast
    | some w =>
      have hsingle : [k].filterMap g = [w] := by simp [hlast]
      rw [hsingle, List.getLast?_concat, Option.some.injEq]
      constructor
      · rintro rfl
        exact ⟨k, hlast, fun j hj => hend j hj⟩
      · rintro ⟨i, hi, hlater⟩
        rcases Nat.lt_trichotomy i k with hlt | rfl | hgt
        · rw [hlater k hlt] at hlast
          cases hlast
        · exact Option.some.inj (hlast.symm.trans hi)
        · rw [hend i hgt] at hi
          cases hi

/-- A blank is neither a digit nor a sign. -/
theorem not_isDigit_of_isSpace {c : Char} (h : isSpace c = true) : c.isDigit = false := by
  simp only [isSpace, Bool.or_eq_true, Bool.and_eq_true, decide_eq_true_eq, beq_iff_eq] at h
  simp only [Char.isDigit, Bool.and_eq_false_iff, decide_eq_false_iff_not, UInt32.le_iff_toNat_le]
  left
  have hc : c.val.toNat = c.toNat := rfl
  have hzero : ('0' : Char).val.toNat = 48 := rfl
  omega

theorem splitSign_of_isDigit {c : Char} {s : List Char} (h : c.isDigit = true) :
    splitSign (c :: s) = (false, c :: s) := by
  unfold splitSign
  split
  · rename_i heq
    cases heq
    cases h
  · rename_i heq
    cases heq
    cases h
  · rfl

/-- The sign in front of a text. -/
theorem splitSign_eq (s : List Char) : ∃ sign, (sign = [] ∨ sign = ['+'] ∨ sign = ['-']) ∧
    s = sign ++ (splitSign s).2 ∧ (splitSign s).1 = (sign == ['-']) := by
  unfold splitSign
  split
  · exact ⟨['-'], .inr (.inr rfl), rfl, rfl⟩
  · exact ⟨['+'], .inr (.inl rfl), rfl, rfl⟩
  · exact ⟨[], .inl rfl, rfl, rfl⟩

/-- `%u` reads the number that stands behind the blanks. -/
theorem scanUnsigned_eq_some_iff {s : List Char} {v : Nat} :
    scanUnsigned s = some v ↔ ReadsNumber s v := by
  constructor
  · intro h
    unfold scanUnsigned at h
    obtain ⟨sign, hsign, hsplit, hnegative⟩ := splitSign_eq (trimLeft s)
    simp only [hnegative] at h
    generalize (splitSign (trimLeft s)).2 = t at h hsplit
    split at h
    · cases h
    · rename_i hne
      rw [Option.some.injEq] at h
      have htext : s = s.takeWhile isSpace ++
          (sign ++ (t.takeWhile Char.isDigit ++ t.dropWhile Char.isDigit)) := by
        rw [List.takeWhile_append_dropWhile, ← hsplit]
        exact List.takeWhile_append_dropWhile.symm
      rw [htext, ← h]
      refine .mk (fun c hc => List.mem_takeWhile_imp hc) hsign hne
        (fun c hc => List.mem_takeWhile_imp hc) fun c hc => ?_
      have hhead := List.head?_dropWhile_not Char.isDigit t
      rw [Option.mem_def.mp hc] at hhead
      simpa using hhead
  · rintro ⟨hblanks, hsign, hne, hdigits, hafter⟩
    rename_i blanks sign digits after
    obtain ⟨d, ds, rfl⟩ := List.exists_cons_of_ne_nil hne
    have hd : d.isDigit = true := hdigits d List.mem_cons_self
    have hnospace : isSpace d = false := by
      by_contra hspace
      rw [not_isDigit_of_isSpace (eq_true_of_ne_false hspace)] at hd
      cases hd
    have htrim : trimLeft (blanks ++ (sign ++ (d :: ds ++ after))) =
        sign ++ (d :: ds ++ after) := by
      rw [trimLeft, List.dropWhile_append_of_pos hblanks]
      rcases hsign with rfl | rfl | rfl
      · simp [hnospace]
      · rfl
      · rfl
    have hsplit : splitSign (sign ++ (d :: ds ++ after)) =
        (sign == ['-'], d :: ds ++ after) := by
      rcases hsign with rfl | rfl | rfl
      · exact splitSign_of_isDigit hd
      · rfl
      · rfl
    have hstop : after.takeWhile Char.isDigit = [] := by
      cases after with
      | nil => rfl
      | cons c cs => rw [List.takeWhile_cons_of_neg (by rw [hafter c rfl]; decide)]
    have htake : (d :: ds ++ after).takeWhile Char.isDigit = d :: ds := by
      rw [List.takeWhile_append_of_pos hdigits, hstop, List.append_nil]
    unfold scanUnsigned
    simp only [htrim, hsplit, htake, reduceCtorEq, ↓reduceIte]

/-- `%u` reads a decimal number. -/
theorem scanUnsigned_of_isDecimal {s : List Char} (h : IsDecimal s) :
    scanUnsigned s = some (digitsValue (trim s)) := by
  obtain ⟨hne, hall, hlt⟩ := h
  have hdigits : ∀ c ∈ trim s, c.isDigit = true := List.all_eq_true.mp hall
  have hsplit : trim s ++ (trimLeft s).rtakeWhile isSpace = trimLeft s :=
    List.rdropWhile_append_rtakeWhile
  have hblanks : ((trimLeft s).rtakeWhile isSpace).takeWhile Char.isDigit = [] := by
    rw [List.takeWhile_eq_nil_iff]
    intro hpos
    rw [Bool.not_eq_true]
    exact not_isDigit_of_isSpace (List.mem_rtakeWhile_imp (List.get_mem _ _))
  have htake : (trimLeft s).takeWhile Char.isDigit = trim s := by
    rw [← hsplit, List.takeWhile_append_of_pos hdigits, hblanks, List.append_nil]
  have hsign : splitSign (trimLeft s) = (false, trimLeft s) := by
    cases hcs : trim s with
    | nil => exact absurd hcs hne
    | cons c cs =>
      rw [← hsplit, hcs]
      exact splitSign_of_isDigit (hdigits c (by simp [hcs]))
  have hword : ¬18446744073709551616 ≤ digitsValue (trim s) := by omega
  simp only [scanUnsigned, hsign, htake, hne, ↓reduceIte, strtoul, hword, Bool.false_eq_true,
    Nat.mod_eq_of_lt hlt]

/-- `%u` fails where no number begins. -/
theorem scanUnsigned_eq_none_iff {s : List Char} : scanUnsigned s = none ↔ ¬StartsWithNumber s := by
  unfold scanUnsigned StartsWithNumber
  simp only [ite_eq_left_iff, reduceCtorEq, imp_false, Decidable.not_not]
  cases (splitSign (trimLeft s)).2 with
  | nil => simp
  | cons c cs => simp [List.takeWhile_cons]

end Text
end WaspSim
