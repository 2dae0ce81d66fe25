import Gatehouse.Toml.Quoted

/-! Quoted texts read back. Whichever of the forms a text is written in, reading takes exactly what
was written and gives the characters it was written from, in front of anything that cannot be taken
for one more closing mark.
-/

namespace Gatehouse.Toml

-------------------------------------------------------------------------------
-- Escapes
-------------------------------------------------------------------------------

/-- A hexadecimal digit's character stands for the digit. -/
theorem hexDigit?_hexChar {d : Nat} (h : d < 16)
    : hexDigit? (hexChar d) = some d := by
  have all : ∀ d < 16, hexDigit? (hexChar d) = some d := by decide
  exact all d h

/-- Four hexadecimal digits stand for the character whose number they write. -/
theorem charOfHex?_hexText {c : Char} (small : c.toNat < 65536)
    : charOfHex? (hexText c.toNat) = some c := by
  have digit (n : Nat) : hexDigit? (hexChar (n % 16)) = some (n % 16) :=
    hexDigit?_hexChar (Nat.mod_lt n (by decide))
  have whole
      : ((c.toNat / 4096 % 16 * 16 + c.toNat / 256 % 16) * 16 + c.toNat / 16 % 16) * 16
          + c.toNat % 16 = c.toNat := by
    omega
  have valid : c.toNat.isValidChar := c.valid
  simp [charOfHex?, hexText, digit, whole, valid]

/-- How a character stands in a text with escapes: as itself, under a letter, or under its number
in four digits.
-/
inductive EscapedAs (c : Char) : List Char → Prop
  | itself (plain : isPlain c = true) (noQuote : c ≠ '"') (noEscape : c ≠ '\\')
    : EscapedAs c [c]
  | letter {e : Char} (stands : escaped? e = some c)
    : EscapedAs c ['\\', e]
  | number {h₁ h₂ h₃ h₄ : Char} (stands : charOfHex? [h₁, h₂, h₃, h₄] = some c)
    : EscapedAs c ['\\', 'u', h₁, h₂, h₃, h₄]

/-- Every character is written in one of these ways; only control characters are numbered. -/
theorem escapedAs_escape (c : Char)
    : EscapedAs c (escape c) := by
  unfold escape
  split
  case h_8 noQuote noEscape =>
    split
    · next plain => exact .itself plain noQuote noEscape
    · next control =>
      have small : c.toNat < 65536 := by
        simp only [isPlain, Bool.or_eq_true, decide_eq_true_eq, Bool.and_eq_true, not_or,
          not_and] at control
        omega
      exact .number (charOfHex?_hexText small)
  all_goals exact .letter rfl

/-- An escape of one letter is no number, and no line ends behind it. -/
theorem reads_of_escaped? {e c : Char} (stands : escaped? e = some c) (rest : List Char)
    : readBasic ('\\' :: e :: rest) = Read.cons c (readBasic rest)
      ∧ readLines false ('\\' :: e :: rest) = Read.cons c (readLines false rest) := by
  have letter : e ∈ ['b', 't', 'n', 'f', 'r', '"', '\\'] := by
    unfold escaped? at stands
    split at stands <;> simp_all
  simp only [List.mem_cons, List.not_mem_nil, or_false] at letter
  rcases letter with rfl | rfl | rfl | rfl | rfl | rfl | rfl <;>
    simp [readBasic, readLines, stands, endsLine, isBlank]

/-- A character that is written in an escaped text is read on one line. -/
theorem EscapedAs.read {c : Char} {text : List Char} (written : EscapedAs c text)
    (rest : List Char)
    : readBasic (text ++ rest) = Read.cons c (readBasic rest)
      ∧ readLines false (text ++ rest) = Read.cons c (readLines false rest) := by
  cases written with
  | itself plain noQuote noEscape =>
    have noReturn : c ≠ '\r' := by
      rintro rfl
      cases plain
    have noLine : c ≠ '\n' := by
      rintro rfl
      cases plain
    constructor
    · rw [List.singleton_append, readBasic.eq_def]
      split <;> simp_all
    · rw [List.singleton_append, readLines.eq_def]
      split <;> simp_all
  | letter stands => exact reads_of_escaped? stands rest
  | number stands => simp [readBasic, readLines, stands]

-------------------------------------------------------------------------------
-- The forms on one line
-------------------------------------------------------------------------------

/-- A text with escapes reads up to its quote, by induction along the text. -/
theorem readBasic_escaped (text rest : List Char)
    : readBasic (text.flatMap escape ++ quote :: rest) = some (text, rest) := by
  induction text with
  | nil => rfl
  | cons c text ih =>
    rw [List.flatMap_cons, List.append_assoc, ((escapedAs_escape c).read _).1, ih]
    rfl

/-- A text without escapes reads up to its apostrophe, by induction along the text. -/
theorem readLiteral_append {text : List Char} (plain : ∀ c ∈ text, isPlain c = true)
    (unmarked : apostrophe ∉ text) (rest : List Char)
    : readLiteral (text ++ apostrophe :: rest) = some (text, rest) := by
  induction text with
  | nil => simp [readLiteral]
  | cons c text ih =>
    have apart : c ≠ apostrophe := fun same => unmarked (by simp [same])
    have later := ih (fun d member => plain d (List.mem_cons_of_mem c member))
      (fun member => unmarked (List.mem_cons_of_mem c member))
    rw [List.cons_append, readLiteral, if_neg apart, if_pos (plain c List.mem_cons_self), later]
    rfl

-------------------------------------------------------------------------------
-- The forms on several lines
-------------------------------------------------------------------------------

/-- Up to two marks before the closing ones belong to the text. -/
theorem closing_replicate {mark : Char} {rest : List Char} {count : Nat} (few : count ≤ 2)
    (next : rest.head? ≠ some mark)
    : closing mark (List.replicate count mark ++ rest) = (List.replicate count mark, rest) := by
  have next : ∀ c later, rest = c :: later → c ≠ mark := by
    rintro c later rfl
    simpa using next
  match count, few with
  | 0, _ =>
    cases rest with
    | nil => rfl
    | cons c later =>
      have apart := next c later rfl
      cases later <;> simp [closing, apart]
  | 1, _ =>
    cases rest with
    | nil => simp [closing]
    | cons c later =>
      have apart := next c later rfl
      simp [closing, apart]
  | 2, _ => simp [closing]

/-- A quote that is not the first of three belongs to the text. -/
theorem readLines_quote {text : List Char} (h : ∀ rest, text ≠ '"' :: '"' :: rest)
    : readLines false ('"' :: text) = Read.cons '"' (readLines false text) := by
  rw [readLines.eq_def]
  split
  case h_8 same =>
    obtain ⟨rfl, rfl⟩ := List.cons.inj same
    rfl
  all_goals simp_all

/-- Only a quote is written as a quote, and it is the third of none. -/
theorem eq_quote_of_escapeLines_head {quotes : Nat} {c : Char} {text rest : List Char}
    (h : (escapeLines quotes (c :: text) ++ rest).head? = some '"')
    : c = quote ∧ quotes < 2 := by
  rw [escapeLines] at h
  split at h
  · simp at h
  · split at h
    · next same =>
      split at h
      · next few => exact ⟨same, few⟩
      · simp at h
    · have written := escapedAs_escape c
      generalize escape c = text at h written
      cases written <;> simp_all

/-- Behind a quote, no two more quotes are written unless the text ends with them. -/
theorem escapeLines_ne_quotes {quotes : Nat} {text : List Char} (behind : 0 < quotes)
    (more : text ≠ []) (another : text = [quote] → quotes ≠ 1) (rest later : List Char)
    : escapeLines quotes text ++ rest ≠ '"' :: '"' :: later := by
  intro same
  obtain ⟨c, text, rfl⟩ := List.exists_cons_of_ne_nil more
  obtain ⟨rfl, few⟩ := eq_quote_of_escapeLines_head (by rw [same]; rfl)
  have first : quotes = 1 := by omega
  subst first
  cases text with
  | nil => exact another rfl rfl
  | cons d text =>
    have second : (escapeLines 2 (d :: text) ++ rest).head? = some '"' := by
      have tail : escapeLines 2 (d :: text) ++ rest = '"' :: later := (List.cons.inj same).2
      rw [tail]
      rfl
    exact absurd (eq_quote_of_escapeLines_head second).2 (by decide)

/-- A text on several lines with escapes reads up to its three quotes, by induction along the
text; of quotes before those, at most two are no escapes and count as the end's.
-/
theorem readLines_escapeLines {rest : List Char} (next : rest.head? ≠ some '"')
    (quotes : Nat) (text : List Char)
    : readLines false (escapeLines quotes text ++ (tripled quote ++ rest)) = some (text, rest) := by
  induction text generalizing quotes with
  | nil =>
    have closed := closing_replicate (by decide : 0 ≤ 2) next
    simpa [escapeLines, tripled, quote, readLines] using closed
  | cons c text ih =>
    rw [escapeLines]
    split
    · next line =>
      subst line
      rw [List.cons_append, readLines, if_neg (by decide), ih]
      rfl
    · split
      · next same =>
        subst same
        split
        · next few =>
          by_cases ends : text = [] ∨ text = [quote] ∧ quotes = 0
          · rcases ends with rfl | ⟨rfl, rfl⟩
            · have closed := closing_replicate (by decide : 1 ≤ 2) next
              simpa [escapeLines, tripled, quote, readLines] using closed
            · have closed := closing_replicate (by decide : 2 ≤ 2) next
              simpa [escapeLines, tripled, quote, readLines] using closed
          · have more : text ≠ [] := fun none => ends (.inl none)
            have another (single : text = [quote]) : quotes + 1 ≠ 1 :=
              fun first => ends (.inr ⟨single, Nat.succ.inj first⟩)
            have step := readLines_quote
              (escapeLines_ne_quotes (Nat.succ_pos quotes) more another (tripled quote ++ rest))
            rw [ih] at step
            exact step
        · rw [List.cons_append, List.cons_append, (reads_of_escaped? rfl _).2, ih]
          rfl
      · rw [List.append_assoc, ((escapedAs_escape c).read _).2, ih]
        rfl

-------------------------------------------------------------------------------
-- Runs of marks
-------------------------------------------------------------------------------

/-- The longest run of a mark and the run at the end, counted on from runs before the text. -/
def runsAfter (mark : Char) (before : Nat × Nat) (text : List Char) : Nat × Nat :=
  text.foldl
    (fun (longest, run) c => if c = mark then (max longest (run + 1), run + 1) else (longest, 0))
    before

theorem runsAfter_cons (mark c : Char) (longest run : Nat) (text : List Char)
    : runsAfter mark (longest, run) (c :: text)
      = runsAfter mark (if c = mark then (max longest (run + 1), run + 1) else (longest, 0)) text :=
  rfl

/-- Longer runs before a text make no shorter ones, by induction along the text. -/
theorem runsAfter_mono {mark : Char} {longest longest' run run' : Nat} (longer : longest ≤ longest')
    (more : run ≤ run') (text : List Char)
    : (runsAfter mark (longest, run) text).1 ≤ (runsAfter mark (longest', run') text).1 := by
  induction text generalizing longest longest' run run' with
  | nil => exact longer
  | cons c text ih =>
    rw [runsAfter_cons, runsAfter_cons]
    split
    · exact ih (by omega) (by omega)
    · exact ih longer (Nat.le_refl 0)

/-- The longest run before a text counts behind it, by induction along the text. -/
theorem le_runsAfter (mark : Char) (longest run : Nat) (text : List Char)
    : longest ≤ (runsAfter mark (longest, run) text).1 := by
  induction text generalizing longest run with
  | nil => exact Nat.le_refl longest
  | cons c text ih =>
    rw [runsAfter_cons]
    split
    · exact Nat.le_trans (Nat.le_max_left longest (run + 1)) (ih _ _)
    · exact ih _ _

theorem longestRun_le_cons (mark c : Char) (text : List Char)
    : longestRun mark text ≤ longestRun mark (c :: text) := by
  change (runsAfter mark (0, 0) text).1 ≤ (runsAfter mark (0, 0) (c :: text)).1
  rw [runsAfter_cons]
  split <;> exact runsAfter_mono (Nat.zero_le _) (Nat.zero_le _) text

/-- A run at the beginning of a text is not longer than the longest. -/
theorem le_longestRun_replicate (mark : Char) (count : Nat) (text : List Char)
    : count ≤ longestRun mark (List.replicate count mark ++ text) := by
  have counted (longest run : Nat) (h : longest ≤ run)
      : longest + count
        ≤ (runsAfter mark (longest, run) (List.replicate count mark ++ text)).1 := by
    induction count generalizing longest run with
    | zero => exact le_runsAfter mark longest run text
    | succ count ih =>
      rw [List.replicate_succ, List.cons_append, runsAfter_cons, if_pos rfl]
      have := ih (max longest (run + 1)) (run + 1) (by omega)
      omega
  have := counted 0 0 (Nat.le_refl 0)
  rw [Nat.zero_add] at this
  exact this

/-- A text without runs of a mark does not have the mark, by induction along the text. -/
theorem not_mem_of_longestRun {mark : Char} {text : List Char} (h : longestRun mark text = 0)
    : mark ∉ text := by
  induction text with
  | nil => simp
  | cons c text ih =>
    intro member
    rcases List.mem_cons.mp member with rfl | later
    · have := le_longestRun_replicate mark 1 text
      simp only [List.replicate_one, List.singleton_append] at this
      omega
    · have := longestRun_le_cons mark c text
      exact ih (by omega) later

theorem readLiteralLines_close (text : List Char)
    : readLiteralLines (apostrophe :: apostrophe :: apostrophe :: text)
      = some (closing apostrophe text) := by
  have first : apostrophe ≠ '\r' ∧ apostrophe ≠ '\n' := by decide
  simp [readLiteralLines, first]

/-- A character that is not the first of three apostrophes belongs to a text without escapes. -/
theorem readLiteralLines_cons {c a b : Char} {text : List Char} (plain : isPlain c = true)
    (open_ : ¬ (c = apostrophe ∧ a = apostrophe ∧ b = apostrophe))
    : readLiteralLines (c :: a :: b :: text)
      = Read.cons c (readLiteralLines (a :: b :: text)) := by
  have noReturn : c ≠ '\r' := by
    rintro rfl
    cases plain
  have noLine : c ≠ '\n' := by
    rintro rfl
    cases plain
  rw [readLiteralLines, if_neg (by simpa [and_assoc] using open_), if_pos plain]
  · exact fun same _ => noReturn same
  · exact noLine

/-- A text on several lines without escapes reads up to its three apostrophes, by induction along
the text.
-/
theorem readLiteralLines_append {text rest : List Char} (plain : ∀ c ∈ text, needsEscape c = false)
    (runs : longestRun apostrophe text ≤ 2) (next : rest.head? ≠ some apostrophe)
    : readLiteralLines (text ++ (tripled apostrophe ++ rest)) = some (text, rest) := by
  induction text with
  | nil =>
    have closed := closing_replicate (by decide : 0 ≤ 2) next
    exact (readLiteralLines_close rest).trans (congrArg some closed)
  | cons c text ih =>
    have shorter := longestRun_le_cons apostrophe c text
    have later := ih (fun d member => plain d (List.mem_cons_of_mem c member)) (by omega)
    by_cases line : c = '\n'
    · subst line
      rw [List.cons_append, readLiteralLines, later]
      rfl
    · have shown : isPlain c = true := by
        simpa [needsEscape, line] using plain c List.mem_cons_self
      match text, runs, later with
      | [], _, later =>
        by_cases mark : c = apostrophe
        · subst mark
          have closed := closing_replicate (by decide : 1 ≤ 2) next
          exact (readLiteralLines_close _).trans (congrArg some closed)
        · exact (readLiteralLines_cons shown fun all => mark all.1).trans
            (congrArg (Read.cons c) later)
      | [a], _, later =>
        by_cases marks : c = apostrophe ∧ a = apostrophe
        · obtain ⟨rfl, rfl⟩ := marks
          have closed := closing_replicate (by decide : 2 ≤ 2) next
          exact (readLiteralLines_close _).trans (congrArg some closed)
        · exact (readLiteralLines_cons shown fun all => marks ⟨all.1, all.2.1⟩).trans
            (congrArg (Read.cons c) later)
      | a :: b :: text, runs, later =>
        have open_ : ¬ (c = apostrophe ∧ a = apostrophe ∧ b = apostrophe) := by
          rintro ⟨rfl, rfl, rfl⟩
          have := le_longestRun_replicate apostrophe 3 text
          exact absurd (Nat.le_trans this runs) (by decide)
        exact (readLiteralLines_cons shown open_).trans (congrArg (Read.cons c) later)

-------------------------------------------------------------------------------
-- Quoted texts
-------------------------------------------------------------------------------

/-- A mark that is not the first of three opens a text on one line. -/
theorem readQuoted_line {mark : Char} {text : List Char} (one : ∀ rest, text ≠ mark :: mark :: rest)
    : readQuoted (mark :: text) = readQuotedLine (mark :: text) := by
  match text, one with
  | [], _ => rfl
  | [a], _ => rfl
  | a :: b :: text, one =>
    have apart (kind : Char) : (mark = kind && a = kind && b = kind) = false := by
      refine Bool.eq_false_iff.mpr fun all => ?_
      simp only [Bool.and_eq_true, decide_eq_true_eq] at all
      obtain ⟨⟨rfl, rfl⟩, rfl⟩ := all
      exact one text rfl
    simp only [readQuoted, apart, Bool.false_eq_true, if_false]

/-- The line end behind opening marks is the first one that was written. -/
theorem skipLineEnd_lead {text body : List Char}
    (h : '\n' ∉ text → ∀ c ∈ body.head?, c ≠ '\n' ∧ c ≠ '\r')
    : skipLineEnd (lead text ++ body) = body := by
  unfold lead
  split
  · rfl
  · next unbroken =>
    have first := h (by simpa using unbroken)
    unfold skipLineEnd
    split <;> simp_all

/-- Behind opening marks a text with escapes begins with no line end of its own. -/
theorem escapeLines_head {text : List Char} (unbroken : '\n' ∉ text) (rest : List Char)
    : ∀ c ∈ (escapeLines 0 text ++ (tripled quote ++ rest)).head?, c ≠ '\n' ∧ c ≠ '\r' := by
  cases text with
  | nil => simp [escapeLines, tripled, quote]
  | cons d text =>
    have apart : d ≠ '\n' := fun same => unbroken (by simp [same])
    rw [escapeLines, if_neg apart]
    split
    · simp [quote]
    · have written := escapedAs_escape d
      generalize escape d = shown at written ⊢
      cases written with
      | itself plain _ _ =>
        have noReturn : d ≠ '\r' := by
          rintro rfl
          cases plain
        simp [apart, noReturn]
      | letter => simp
      | number => simp

theorem readQuoted_lines {text rest : List Char} (next : rest.head? ≠ some '"')
    : readQuoted (tripled quote ++ lead text ++ escapeLines 0 text ++ tripled quote ++ rest)
      = some (text, rest) := by
  have skipped := skipLineEnd_lead fun unbroken : '\n' ∉ text => escapeLines_head unbroken rest
  simp only [tripled, List.append_assoc, List.cons_append, List.nil_append] at skipped ⊢
  simp only [readQuoted, decide_true, Bool.and_self, if_true, skipped]
  exact readLines_escapeLines next 0 text

theorem readQuoted_literalLines {text rest : List Char} (plain : ∀ c ∈ text, needsEscape c = false)
    (runs : longestRun apostrophe text ≤ 2) (next : rest.head? ≠ some apostrophe)
    : readQuoted (tripled apostrophe ++ lead text ++ text ++ tripled apostrophe ++ rest)
      = some (text, rest) := by
  have first (unbroken : '\n' ∉ text)
      : ∀ c ∈ (text ++ (tripled apostrophe ++ rest)).head?, c ≠ '\n' ∧ c ≠ '\r' := by
    cases text with
    | nil => simp [tripled, apostrophe]
    | cons d text =>
      have apart : d ≠ '\n' := fun same => unbroken (by simp [same])
      have noReturn : d ≠ '\r' := by
        rintro rfl
        cases plain '\r' List.mem_cons_self
      simp [apart, noReturn]
  have skipped := skipLineEnd_lead first
  have other : (apostrophe = quote) = False := by decide
  simp only [tripled, List.append_assoc, List.cons_append, List.nil_append] at skipped ⊢
  simp only [readQuoted, decide_true, Bool.and_self, if_true, skipped, other, decide_false,
    Bool.false_eq_true, if_false]
  exact readLiteralLines_append plain runs next

/-- A text on one line with escapes reads back, in front of anything but two more quotes. -/
theorem readQuoted_escaped {text rest : List Char} (next : rest.head? ≠ some quote)
    : readQuoted (quote :: text.flatMap escape ++ [quote] ++ rest) = some (text, rest) := by
  have one (later : List Char)
      : text.flatMap escape ++ ([quote] ++ rest) ≠ quote :: quote :: later := by
    intro same
    cases text with
    | nil => simp_all
    | cons c text =>
      have written := escapedAs_escape c
      rw [List.flatMap_cons] at same
      generalize escape c = shown at written same
      cases written <;> simp_all [quote]
  rw [List.append_assoc, List.cons_append, readQuoted_line one, readQuotedLine, if_pos rfl]
  exact readBasic_escaped text rest

theorem readQuoted_literal {text rest : List Char} (plain : ∀ c ∈ text, isPlain c = true)
    (unmarked : apostrophe ∉ text) (next : rest.head? ≠ some apostrophe)
    : readQuoted (apostrophe :: text ++ [apostrophe] ++ rest) = some (text, rest) := by
  have one (later : List Char)
      : text ++ ([apostrophe] ++ rest) ≠ apostrophe :: apostrophe :: later := by
    intro same
    cases text with
    | nil => simp_all
    | cons c text => simp_all
  have other : apostrophe ≠ quote := by decide
  rw [List.append_assoc, List.cons_append, readQuoted_line one, readQuotedLine, if_neg other,
    if_pos rfl]
  exact readLiteral_append plain unmarked rest

/-- A quoted text reads back, in front of the end of its line. Witness: the form it was written
in, by cases on what the text has in it.
-/
theorem readQuoted_quoted (text rest : List Char)
    : readQuoted (quoted text ++ '\n' :: rest) = some (text, '\n' :: rest) := by
  have noQuote : ('\n' :: rest).head? ≠ some '"' := by simp
  have noApostrophe : ('\n' :: rest).head? ≠ some apostrophe := by simp [apostrophe]
  have uncontrolled (h : text.any needsEscape = false) : ∀ c ∈ text, needsEscape c = false := by
    simpa using h
  unfold quoted
  dsimp only
  split
  · exact readQuoted_escaped noQuote
  · split
    · next literal =>
      simp only [Bool.and_eq_true, Bool.not_eq_true', decide_eq_true_eq] at literal
      obtain ⟨⟨controls, unbroken⟩, runs⟩ := literal
      have plain (c : Char) (member : c ∈ text) : isPlain c = true := by
        have apart : c ≠ '\n' := by
          rintro rfl
          simp [member] at unbroken
        simpa [needsEscape, apart] using uncontrolled controls c member
      exact readQuoted_literal plain (not_mem_of_longestRun runs) noApostrophe
    · split
      · exact readQuoted_lines noQuote
      · split
        · next literal =>
          simp only [Bool.and_eq_true, Bool.not_eq_true', decide_eq_true_eq] at literal
          exact readQuoted_literalLines (uncontrolled literal.1) literal.2 noApostrophe
        · split
          · exact readQuoted_lines noQuote
          · exact readQuoted_escaped noQuote

/-- The first character of a quoted text is one of the two marks. -/
theorem quoted_head (text : List Char)
    : ∃ mark later, quoted text = mark :: later ∧ (mark = quote ∨ mark = apostrophe) := by
  unfold quoted
  dsimp only
  repeat' split
  all_goals
    first
    | exact ⟨_, _, rfl, .inl rfl⟩
    | exact ⟨_, _, rfl, .inr rfl⟩

end Gatehouse.Toml
