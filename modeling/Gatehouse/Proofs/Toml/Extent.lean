import Gatehouse.Proofs.Toml.Document

/-! How far a quoted text reaches. A text that is read is no longer than the characters it is read
from, and on one line it is as long only if each of them stands for itself. So what is put between
two quotes as it is, at the end of a line, is read as itself exactly when all its characters stand
for themselves: main statement `readQuoted_itself_iff`.
-/

namespace Gatehouse.Toml

/-- A character that stands for itself between quotes. -/
structure StandsForItself (c : Char) : Prop where
  plain : isPlain c = true
  noQuote : c ≠ '"'
  noEscape : c ≠ '\\'

instance (c : Char) : Decidable (StandsForItself c) :=
  decidable_of_iff (isPlain c = true ∧ c ≠ '"' ∧ c ≠ '\\')
    ⟨fun h => ⟨h.1, h.2.1, h.2.2⟩, fun h => ⟨h.plain, h.noQuote, h.noEscape⟩⟩

instance (text : List Char) : Decidable (∀ c ∈ text, StandsForItself c) :=
  List.decidableBAll _ text

theorem Read.eq_of_cons {c : Char} {read : Read (List Char)} {value rest : List Char}
    (whole : Read.cons c read = some (value, rest))
    : ∃ later, value = c :: later ∧ read = some (later, rest) := by
  obtain ⟨⟨later, left⟩, found, same⟩ := Option.map_eq_some_iff.mp whole
  cases same
  exact ⟨later, rfl, found⟩

-------------------------------------------------------------------------------
-- Escapes stay on their line
-------------------------------------------------------------------------------

/-- A line end is no hexadecimal digit, by induction along the digits. -/
theorem line_not_mem_of_foldlM {digits : List Char} {start number : Nat}
    (counted : digits.foldlM (fun n c => (hexDigit? c).map (n * 16 + ·)) start = some number)
    : '\n' ∉ digits := by
  induction digits generalizing start with
  | nil => exact List.not_mem_nil
  | cons d digits ih =>
      rw [List.foldlM_cons] at counted
      obtain ⟨next, first, counted⟩ := Option.bind_eq_some_iff.mp counted
      rw [List.mem_cons, not_or]
      refine ⟨?_, ih counted⟩
      rintro rfl
      cases first

theorem line_not_mem_of_charOfHex? {digits : List Char} {c : Char}
    (stands : charOfHex? digits = some c)
    : '\n' ∉ digits := by
  obtain ⟨number, counted, -⟩ := Option.bind_eq_some_iff.mp stands
  exact line_not_mem_of_foldlM counted

theorem line_ne_of_escaped? {e c : Char} (stands : escaped? e = some c)
    : e ≠ '\n' := by
  rintro rfl
  cases stands

-------------------------------------------------------------------------------
-- Texts on one line
-------------------------------------------------------------------------------

/-- What a text on one line was read from: characters up to its quote, without a line end among
them and at least as many as the text has, where as many are the text itself.
-/
structure ReadFrom (value consumed : List Char) : Prop where
  line : '\n' ∉ consumed
  length : value.length ≤ consumed.length
  itself
    : value.length = consumed.length → value = consumed ∧ ∀ c ∈ consumed, StandsForItself c

/-- An escape stands for one character and is written with more. -/
theorem ReadFrom.escape {value consumed : List Char} (later : ReadFrom value consumed)
    (e : Char) (escape : List Char) (line : '\n' ∉ escape) (long : 1 < escape.length)
    : ReadFrom (e :: value) (escape ++ consumed) where
  line := by
    rw [List.mem_append, not_or]
    exact ⟨line, later.line⟩
  length := by
    have shorter := later.length
    rw [List.length_cons, List.length_append]
    omega
  itself := by
    intro same
    have shorter := later.length
    rw [List.length_cons, List.length_append] at same
    omega

theorem ReadFrom.cons {value consumed : List Char} (later : ReadFrom value consumed) {c : Char}
    (stands : StandsForItself c)
    : ReadFrom (c :: value) (c :: consumed) where
  line := by
    rw [List.mem_cons, not_or]
    refine ⟨?_, later.line⟩
    rintro rfl
    cases stands.plain
  length := Nat.succ_le_succ later.length
  itself := by
    intro same
    obtain ⟨rfl, all⟩ := later.itself (Nat.succ.inj same)
    exact ⟨rfl, List.forall_mem_cons.mpr ⟨stands, all⟩⟩

/-- A text on one line is read from what stands before its quote, by induction along the reader. -/
theorem readBasic_extent {text value rest : List Char}
    (read : readBasic text = some (value, rest))
    : ∃ consumed, text = consumed ++ '"' :: rest ∧ ReadFrom value consumed := by
  fun_induction readBasic text generalizing value rest with
  | case1 => cases read
  | case2 left =>
      cases read
      exact ⟨[], rfl, ⟨by simp, Nat.le_refl 0, fun _ => ⟨rfl, by simp⟩⟩⟩
  | case3 a b c d left e stands ih =>
      obtain ⟨later, rfl, found⟩ := Read.eq_of_cons read
      obtain ⟨consumed, rfl, before⟩ := ih found
      have digits := line_not_mem_of_charOfHex? stands
      exact ⟨_, rfl, before.escape e ['\\', 'u', a, b, c, d] (by simpa using digits) (by simp)⟩
  | case5 a b c d f g h i left e stands ih =>
      obtain ⟨later, rfl, found⟩ := Read.eq_of_cons read
      obtain ⟨consumed, rfl, before⟩ := ih found
      have digits := line_not_mem_of_charOfHex? stands
      exact ⟨_, rfl, before.escape e ['\\', 'U', a, b, c, d, f, g, h, i] (by simpa using digits)
        (by simp)⟩
  | case4 | case6 | case8 | case10 => cases read
  | case7 c left _ _ e stands ih =>
      obtain ⟨later, rfl, found⟩ := Read.eq_of_cons read
      obtain ⟨consumed, rfl, before⟩ := ih found
      have apart := line_ne_of_escaped? stands
      exact ⟨_, rfl, before.escape e ['\\', c] (by simp [apart.symm]) (by simp)⟩
  | case9 c left noQuote _ _ _ plain ih =>
      obtain ⟨later, rfl, found⟩ := Read.eq_of_cons read
      obtain ⟨consumed, rfl, before⟩ := ih found
      simp only [ne_eq, Bool.and_eq_true, decide_eq_true_eq] at plain
      have stands : StandsForItself c := ⟨plain.2, noQuote, plain.1⟩
      exact ⟨c :: consumed, rfl, before.cons stands⟩

-------------------------------------------------------------------------------
-- Texts on several lines
-------------------------------------------------------------------------------

/-- Of the marks behind closing ones, at most two belong to the text. -/
theorem closing_extent {mark : Char} {text marks rest : List Char}
    (closed : closing mark text = (marks, rest))
    : text = marks ++ rest ∧ (marks = [] ∨ marks = [mark] ∨ marks = [mark, mark]) := by
  unfold closing at closed
  split at closed
  · split at closed
    · next first =>
      subst first
      split at closed
      · next second =>
        subst second
        cases closed
        exact ⟨rfl, .inr (.inr rfl)⟩
      · cases closed
        exact ⟨rfl, .inr (.inl rfl)⟩
    · cases closed
      exact ⟨rfl, .inl rfl⟩
  · split at closed
    · next first =>
      subst first
      cases closed
      exact ⟨rfl, .inr (.inl rfl)⟩
    · cases closed
      exact ⟨rfl, .inl rfl⟩
  · cases closed
    exact ⟨rfl, .inl rfl⟩

/-- A text is read from what stands before three quotes, and that is no shorter. -/
def EndsBefore (value text rest : List Char) : Prop :=
  ∃ consumed, text = consumed ++ (tripled quote ++ rest) ∧ value.length ≤ consumed.length

namespace EndsBefore

variable {value text rest : List Char}

/-- What is passed over makes no text shorter. -/
theorem skip (before : EndsBefore value text rest) (front : List Char)
    : EndsBefore value (front ++ text) rest := by
  obtain ⟨consumed, rfl, shorter⟩ := before
  refine ⟨front ++ consumed, (List.append_assoc _ _ _).symm, ?_⟩
  rw [List.length_append]
  omega

/-- A character is read from one character or more. -/
theorem cons (before : EndsBefore value text rest) (c d : Char) (front : List Char)
    : EndsBefore (c :: value) (d :: (front ++ text)) rest := by
  obtain ⟨consumed, rfl, shorter⟩ := before
  refine ⟨d :: (front ++ consumed), by rw [List.cons_append, List.append_assoc], ?_⟩
  rw [List.length_cons, List.length_cons, List.length_append]
  omega

end EndsBefore

/-- A text on several lines ends before its three quotes, by induction along the reader. -/
theorem readLines_extent {trimming : Bool} {text value rest : List Char}
    (read : readLines trimming text = some (value, rest))
    : EndsBefore value text rest := by
  fun_induction readLines trimming text generalizing value rest with
  | case1 => cases read
  | case2 trimming left =>
      obtain ⟨rfl, marks⟩ := closing_extent (Option.some.inj read)
      refine ⟨value, ?_, Nat.le_refl _⟩
      rcases marks with rfl | rfl | rfl <;> rfl
  | case3 left ih => exact (ih read).skip ['\r', '\n']
  | case4 trimming left _ ih =>
      obtain ⟨later, rfl, found⟩ := Read.eq_of_cons read
      exact (ih found).cons '\n' '\r' ['\n']
  | case5 left ih => exact (ih read).skip ['\n']
  | case6 trimming left _ ih =>
      obtain ⟨later, rfl, found⟩ := Read.eq_of_cons read
      exact (ih found).cons '\n' '\n' []
  | case7 trimming a b c d left e _ ih =>
      obtain ⟨later, rfl, found⟩ := Read.eq_of_cons read
      exact (ih found).cons e '\\' ['u', a, b, c, d]
  | case9 trimming a b c d f g h i left e _ ih =>
      obtain ⟨later, rfl, found⟩ := Read.eq_of_cons read
      exact (ih found).cons e '\\' ['U', a, b, c, d, f, g, h, i]
  | case11 trimming c left _ _ _ ih => exact (ih read).skip ['\\']
  | case12 trimming c left _ _ _ e _ ih =>
      obtain ⟨later, rfl, found⟩ := Read.eq_of_cons read
      exact (ih found).cons e '\\' [c]
  | case14 trimming c left _ _ _ _ _ _ _ ih => exact (ih read).skip [c]
  | case15 trimming c left _ _ _ _ _ _ _ _ ih =>
      obtain ⟨later, rfl, found⟩ := Read.eq_of_cons read
      exact (ih found).cons c c []
  | case8 | case10 | case13 | case16 => cases read

-------------------------------------------------------------------------------
-- A text between two quotes
-------------------------------------------------------------------------------

/-- Characters that stand for themselves are read up to the quote, by induction along them. -/
theorem readBasic_itself {text : List Char} (stand : ∀ c ∈ text, StandsForItself c)
    (rest : List Char)
    : readBasic (text ++ quote :: rest) = some (text, rest) := by
  induction text with
  | nil => rfl
  | cons c text ih =>
      obtain ⟨⟨plain, noQuote, noEscape⟩, others⟩ := List.forall_mem_cons.mp stand
      have first := ((EscapedAs.itself plain noQuote noEscape).read (text ++ quote :: rest)).1
      rw [ih others] at first
      exact first

/-- On its line, a text of as many characters as stand between two quotes is what stands there. -/
theorem standsForItself_of_readBasic {text rest left : List Char}
    (read : readBasic (text ++ quote :: '\n' :: rest) = some (text, left))
    : ∀ c ∈ text, StandsForItself c := by
  obtain ⟨consumed, whole, before⟩ := readBasic_extent read
  have shorter := before.length
  rcases List.append_eq_append_iff.mp whole with ⟨more, rfl, behind⟩ | ⟨more, rfl, behind⟩
  · -- The quote that ends it would stand behind a line end.
    cases more with
    | nil =>
        rw [List.append_nil] at before
        exact (before.itself rfl).2
    | cons c more =>
        obtain ⟨-, behind⟩ := List.cons.inj behind
        cases more with
        | nil => cases behind
        | cons d more =>
            obtain ⟨rfl, -⟩ := List.cons.inj behind
            exact absurd (by simp) before.line
  · rw [List.length_append] at shorter
    obtain rfl : more = [] := List.length_eq_zero_iff.mp (by omega)
    rw [List.append_nil] at before ⊢
    exact (before.itself rfl).2

/-- Behind three quotes no text of so many characters is read, unless two quotes in a row follow. -/
theorem not_readLines_itself {text rest left behind : List Char}
    (single : ¬ [quote, quote] <:+: rest)
    (opens : text ++ quote :: '\n' :: rest = quote :: quote :: behind)
    : readLines false (skipLineEnd behind) ≠ some (text, left) := by
  intro read
  obtain ⟨consumed, whole, shorter⟩ := readLines_extent read
  obtain ⟨front, skipped⟩ : ∃ front, behind = front ++ skipLineEnd behind := by
    unfold skipLineEnd
    split
    · exact ⟨['\r', '\n'], rfl⟩
    · exact ⟨['\n'], rfl⟩
    · exact ⟨[], rfl⟩
  have lined : text ++ quote :: '\n' :: rest
      = (quote :: quote :: (front ++ consumed)) ++ (tripled quote ++ left) := by
    rw [opens, skipped, whole]
    simp
  have long : text.length + 2 ≤ (quote :: quote :: (front ++ consumed)).length := by
    simp only [List.length_cons, List.length_append]
    omega
  rcases List.append_eq_append_iff.mp lined with ⟨more, long_, ends⟩ | ⟨more, long_, ends⟩
  · rw [long_, List.length_append] at long
    match more, ends, long with
    | c :: d :: more, ends, _ =>
      obtain ⟨-, ends⟩ := List.cons.inj ends
      obtain ⟨-, rfl⟩ := List.cons.inj ends
      exact single ⟨more, quote :: left, by simp [tripled]⟩
  · rw [long_, List.length_append] at long
    omega

/-- Characters that stand for themselves do so between two quotes. -/
theorem readQuoted_itself {text : List Char} (stand : ∀ c ∈ text, StandsForItself c)
    (rest : List Char)
    : readQuoted (quote :: (text ++ quote :: '\n' :: rest)) = some (text, '\n' :: rest) := by
  have one (behind : List Char) : text ++ quote :: '\n' :: rest ≠ quote :: quote :: behind := by
    intro same
    cases text with
    | nil => cases (List.cons.inj (List.cons.inj same).2).1
    | cons c text => exact (stand c List.mem_cons_self).noQuote (List.cons.inj same).1
  rw [readQuoted_line one, readQuotedLine, if_pos rfl]
  exact readBasic_itself stand _

/-- Between two quotes at the end of a line, with no two quotes in a row behind it, a text is read
as itself exactly when all its characters stand for themselves.
-/
theorem readQuoted_itself_iff {text rest : List Char} (single : ¬ [quote, quote] <:+: rest)
    : (∃ left, readQuoted (quote :: (text ++ quote :: '\n' :: rest)) = some (text, left))
      ↔ ∀ c ∈ text, StandsForItself c := by
  constructor
  · rintro ⟨left, read⟩
    by_cases opens : ∃ behind, text ++ quote :: '\n' :: rest = quote :: quote :: behind
    · obtain ⟨behind, opens⟩ := opens
      rw [opens] at read
      exact absurd read (not_readLines_itself single opens)
    · rw [readQuoted_line fun behind same => opens ⟨behind, same⟩, readQuotedLine,
        if_pos rfl] at read
      exact standsForItself_of_readBasic read
  · intro stand
    exact ⟨'\n' :: rest, readQuoted_itself stand rest⟩

/-- A value may stand between two quotes as it is when its characters stand for themselves. -/
theorem readsAs_itself {text : String} (stand : ∀ c ∈ text.toList, StandsForItself c)
    : ReadsAs (quote :: (text.toList ++ [quote])) (.string text) where
  reads := by
    intro fuel rest long
    obtain ⟨fuel, rfl⟩ : ∃ n, fuel = n + 1 := ⟨fuel - 1, by omega⟩
    have shown : quote :: (text.toList ++ [quote]) ++ '\n' :: rest
        = quote :: (text.toList ++ quote :: '\n' :: rest) := by
      simp
    rw [shown, readValue_plain (by decide) (by decide), if_pos (by decide),
      readQuoted_itself stand rest]
    simp
  opens := ⟨quote, _, rfl, rfl⟩

end Gatehouse.Toml
