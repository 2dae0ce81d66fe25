import Gatehouse.Json.Value
import Gatehouse.Proofs.Text.Numeral

/-! JSON texts read piece by piece. A word or a number is ended by the character behind it, so texts
that begin with no character of these are read one after another, and what each of them says is
taken by the builder of values in turn.
-/

namespace Gatehouse.Json

-------------------------------------------------------------------------------
-- Tokens
-------------------------------------------------------------------------------

/-- A character that goes on no word and no number. -/
structure EndsToken (c : Char) : Prop where
  noWord : c.isLower = false
  noNumber : isNumberChar c = false

instance (c : Char) : Decidable (EndsToken c) :=
  decidable_of_iff (c.isLower = false ∧ isNumberChar c = false)
    ⟨fun h => ⟨h.1, h.2⟩, fun h => ⟨h.noWord, h.noNumber⟩⟩

/-- A character that stands for itself in a string. -/
structure IsPlain (c : Char) : Prop where
  noQuote : c ≠ '"'
  noEscape : c ≠ '\\'
  noControl : ¬ c.toNat < 0x20

instance (c : Char) : Decidable (IsPlain c) :=
  decidable_of_iff (c ≠ '"' ∧ c ≠ '\\' ∧ ¬ c.toNat < 0x20)
    ⟨fun h => ⟨h.1, h.2.1, h.2.2⟩, fun h => ⟨h.noQuote, h.noEscape, h.noControl⟩⟩

instance (text : List Char) : Decidable (∀ c ∈ text, IsPlain c) :=
  List.decidableBAll _ text

/-- What a reader is in, a word or a number, is ended by a character that does not go on. -/
theorem Scanner.step_of_close {scanner : Scanner} {tokens : List Token}
    (ended : scanner.close = ⟨.between, tokens⟩) {c : Char} (ends : EndsToken c)
    : scanner.step c = (⟨.between, tokens⟩ : Scanner).step c := by
  obtain ⟨scan, read⟩ := scanner
  cases scan with
  | between =>
      cases ended
      rfl
  | word written => simp [step, ends.noWord, resume, ended]
  | number written => simp [step, ends.noNumber, resume, ended]
  | string | escape | unit | broken => cases ended

/-- A text that is read as tokens, of which the last may have to be ended. -/
def Spells (text : List Char) (tokens : List Token) : Prop :=
  ∀ before,
    (text.foldl Scanner.step ⟨.between, before⟩).close = ⟨.between, tokens.reverse ++ before⟩

namespace Spells

variable {text more : List Char} {tokens further : List Token}

theorem nil : Spells [] [] := fun _ => rfl

/-- Texts are read one after another when the second ends what the first has left open. -/
theorem append (first : Spells text tokens) (later : Spells more further)
    (ends : ∀ c ∈ more.head?, EndsToken c)
    : Spells (text ++ more) (tokens ++ further) := by
  intro before
  have ended := first before
  have whole := later (tokens.reverse ++ before)
  rw [List.foldl_append, List.reverse_append, List.append_assoc, ← whole]
  cases more with
  | nil => exact ended
  | cons c more =>
      rw [List.foldl_cons, List.foldl_cons, Scanner.step_of_close ended (ends c rfl)]

theorem blank {c : Char} (blank : Scanner.isBlank c = true) (later : Spells text tokens)
    : Spells (c :: text) tokens := by
  intro before
  have passed : Scanner.step ⟨.between, before⟩ c = ⟨.between, before⟩ := by
    simp [Scanner.step, Scanner.enter, blank]
  rw [List.foldl_cons, passed]
  exact later before

/-- A character that is a token of its own. -/
theorem mark {c : Char} {token : Token}
    (emits : ∀ before, Scanner.step ⟨.between, before⟩ c = ⟨.between, token :: before⟩)
    (later : Spells text tokens)
    : Spells (c :: text) (token :: tokens) := by
  intro before
  have whole := later (token :: before)
  rw [List.foldl_cons, emits, whole]
  simp

/-- Digits go on a number, by induction along them. -/
theorem foldl_digits {digits : List Char} (each : ∀ c ∈ digits, Numeral.isDigit c = true)
    (read : List Char) (before : List Token)
    : digits.foldl Scanner.step ⟨.number read, before⟩
      = ⟨.number (digits.reverse ++ read), before⟩ := by
  induction digits generalizing read with
  | nil => rfl
  | cons c digits ih =>
      obtain ⟨digit, others⟩ := List.forall_mem_cons.mp each
      have goesOn : Scanner.step ⟨.number read, before⟩ c = ⟨.number (c :: read), before⟩ := by
        simp [Scanner.step, isNumberChar, digit]
      rw [List.foldl_cons, goesOn, ih others]
      simp

theorem apart_of_isDigit {c : Char} (digit : Numeral.isDigit c = true)
    : Scanner.isBlank c = false ∧ c.isLower = false := by
  have bounds := Numeral.digit_bounds digit
  have apart (d : Char) (other : Numeral.isDigit d = false) := Numeral.ne_of_isDigit digit other
  constructor
  · simp [Scanner.isBlank, apart ' ' rfl, apart '\n' rfl, apart '\t' rfl, apart '\r' rfl]
  · have below : c.toNat < 'a'.toNat := Nat.lt_of_le_of_lt bounds.2 (by decide)
    have early : ¬ 'a'.val ≤ c.val := fun lower =>
      absurd (UInt32.le_iff_toNat_le.mp lower) (Nat.not_le.mpr below)
    exact Bool.and_eq_false_iff.mpr (.inl (decide_eq_false early))

/-- The digits of a number are a number. -/
theorem isNumber_digits (n : Nat)
    : isNumber (Numeral.digits n) = true := by
  obtain ⟨c, later, shown, each⟩ := Numeral.exists_digits n
  have whole : (c :: later).takeWhile Numeral.isDigit = c :: later := by
    rw [← List.append_nil (c :: later), List.takeWhile_append_of_pos each, List.takeWhile_nil]
  have unsigned : isNumber (c :: later) = isMagnitude (c :: later) := by
    unfold isNumber
    split
    · next same =>
      cases same
      cases each '-' List.mem_cons_self
    · rfl
  rw [shown, unsigned]
  unfold isMagnitude
  split
  · next rest same =>
    have zero : n = 0 := Numeral.eq_zero_of_digits_head (by rw [shown, same]; rfl)
    rw [same, zero, Numeral.digits, if_pos (by decide)] at shown
    cases shown
    rfl
  · rw [whole]
    simp [isFraction, isExponent]

theorem digits (n : Nat)
    : Spells (Numeral.digits n) [.number (Numeral.digits n)] := by
  intro before
  obtain ⟨c, later, shown, each⟩ := Numeral.exists_digits n
  obtain ⟨digit, others⟩ := List.forall_mem_cons.mp each
  have begins : Scanner.step ⟨.between, before⟩ c = ⟨.number [c], before⟩ := by
    obtain ⟨solid, noWord⟩ := apart_of_isDigit digit
    simp [Scanner.step, Scanner.enter, solid, noWord, digit]
  have number := isNumber_digits n
  rw [shown] at number ⊢
  rw [List.foldl_cons, begins, foldl_digits others]
  simp [Scanner.close, number, Scanner.emit]

theorem foldl_string {text : List Char} (plain : ∀ c ∈ text, IsPlain c)
    (read : List Piece) (before : List Token)
    : text.foldl Scanner.step ⟨.string read, before⟩
      = ⟨.string ((text.map Piece.char).reverse ++ read), before⟩ := by
  induction text generalizing read with
  | nil => rfl
  | cons c text ih =>
      obtain ⟨⟨noQuote, noEscape, noControl⟩, others⟩ := List.forall_mem_cons.mp plain
      have goesOn
          : Scanner.step ⟨.string read, before⟩ c = ⟨.string (.char c :: read), before⟩ := by
        simp only [Scanner.step, if_neg noQuote, if_neg noEscape, if_neg noControl]
      rw [List.foldl_cons, goesOn, ih others]
      simp

/-- A text between quotes is a string. -/
theorem quoted {text : List Char} (plain : ∀ c ∈ text, IsPlain c)
    : Spells ('"' :: text ++ ['"']) [.string (text.map .char)] := by
  intro before
  have opens : Scanner.step ⟨.between, before⟩ '"' = ⟨.string [], before⟩ := rfl
  rw [List.cons_append, List.foldl_cons, opens, List.foldl_append, foldl_string plain]
  simp [Scanner.step, Scanner.emit, Scanner.close]

end Spells

theorem tokens?_eq {text : List Char} {tokens : List Token} (spells : Spells text tokens)
    : tokens? text = some tokens := by
  have whole := spells []
  rw [List.append_nil] at whole
  unfold tokens? Scanner.finish?
  rw [Scanner.start, whole]
  simp

-------------------------------------------------------------------------------
-- Values
-------------------------------------------------------------------------------

/-- Reading a text takes a builder of values from one state to another. -/
def Reads (text : List Char) (before after : Builder) : Prop :=
  ∃ tokens, Spells text tokens ∧ tokens.foldl Builder.step before = after

namespace Reads

variable {text more : List Char} {before middle after : Builder}

theorem nil (builder : Builder)
    : Reads [] builder builder :=
  ⟨[], .nil, rfl⟩

theorem append (first : Reads text before middle) (later : Reads more middle after)
    (ends : ∀ c ∈ more.head?, EndsToken c)
    : Reads (text ++ more) before after := by
  obtain ⟨tokens, spells, rfl⟩ := first
  obtain ⟨further, then_, rfl⟩ := later
  exact ⟨tokens ++ further, spells.append then_ ends, List.foldl_append⟩

theorem blank {c : Char} (blank : Scanner.isBlank c = true) (later : Reads text before after)
    : Reads (c :: text) before after := by
  obtain ⟨tokens, spells, built⟩ := later
  exact ⟨tokens, spells.blank blank, built⟩

theorem blanks {indent : List Char} (blank : ∀ c ∈ indent, Scanner.isBlank c = true)
    (later : Reads text before after)
    : Reads (indent ++ text) before after := by
  induction indent with
  | nil => exact later
  | cons c indent ih =>
      obtain ⟨first, others⟩ := List.forall_mem_cons.mp blank
      exact (ih others).blank first

theorem mark {c : Char} {token : Token}
    (emits : ∀ read, Scanner.step ⟨.between, read⟩ c = ⟨.between, token :: read⟩)
    (later : Reads text (before.step token) after)
    : Reads (c :: text) before after := by
  obtain ⟨tokens, spells, built⟩ := later
  exact ⟨token :: tokens, spells.mark emits, built⟩

end Reads

/-- Where a value may begin, a token that ends no array begins one. -/
theorem Builder.step_value {token : Token} (begins : token ≠ .closeArray) (frames : List Frame)
    (mayClose : Bool)
    : (value frames mayClose).step token = beginValue frames token := by
  cases token with
  | closeArray => contradiction
  | _ => simp [step]

/-- A text that is read as a value wherever one may begin. -/
def WritesValue (text : List Char) (v : Value) : Prop :=
  ∀ frames mayClose, Reads text (.value frames mayClose) (.supply v frames)

namespace WritesValue

theorem of_token {text : List Char} {token : Token} {v : Value} (spells : Spells text [token])
    (begins : token ≠ .closeArray)
    (supplies : ∀ frames, Builder.beginValue frames token = .supply v frames)
    : WritesValue text v := by
  intro frames mayClose
  refine ⟨[token], spells, ?_⟩
  rw [List.foldl_cons, List.foldl_nil, Builder.step_value begins, supplies]

theorem null : WritesValue "null".toList .null :=
  of_token (fun _ => rfl) nofun fun _ => rfl

theorem boolean (b : Bool)
    : WritesValue (if b then "true".toList else "false".toList) (.boolean b) := by
  cases b <;> exact of_token (fun _ => rfl) nofun fun _ => rfl

theorem digits (n : Nat)
    : WritesValue (Numeral.digits n) (.number (Numeral.digits n)) :=
  of_token (.digits n) nofun fun _ => rfl

theorem decode_map_char (text : List Char)
    : Piece.decode (text.map .char) = some text := by
  induction text with
  | nil => rfl
  | cons c text ih => simp [Piece.decode, ih]

theorem quoted {text : List Char} (plain : ∀ c ∈ text, IsPlain c)
    : WritesValue ('"' :: text ++ ['"']) (.string (some text)) := by
  refine of_token (.quoted plain) nofun fun frames => ?_
  rw [Builder.beginValue, decode_map_char]

/-- A text that is read as a value wherever one may begin is that value as a whole. -/
theorem read?_eq {text : List Char} {v : Value} (writes : WritesValue text v)
    : Value.read? text = some v := by
  obtain ⟨tokens, spells, built⟩ := writes [] false
  unfold Value.read?
  rw [tokens?_eq spells, Builder.start]
  simp only [built, Builder.supply]

end WritesValue

end Gatehouse.Json
