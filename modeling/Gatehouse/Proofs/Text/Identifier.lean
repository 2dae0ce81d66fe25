import Gatehouse.Identity
import Gatehouse.Proofs.Text.Numeral

/-! Identifiers as texts. An identifier is read from exactly those texts in which its number is
written in decimal digits, behind at most one plus sign and with blanks around it.
-/

namespace Gatehouse

-------------------------------------------------------------------------------
-- Blanks around a text
-------------------------------------------------------------------------------

namespace Text

theorem trimStart_of_solid {text : List Char} (solid : ∀ c ∈ text, isBlank c = false)
    : trimStart text = text := by
  cases text with
  | nil => rfl
  | cons c rest => simp [trimStart, solid c List.mem_cons_self]

/-- Of a text without blanks nothing but blanks around it is trimmed. -/
theorem trim_surrounded {before core after : List Char}
    (blank : ∀ c ∈ before, isBlank c = true) (solid : ∀ c ∈ core, isBlank c = false)
    (behind : ∀ c ∈ after, isBlank c = true)
    : trim (before ++ core ++ after) = core := by
  have started : trimStart (before ++ core ++ after) = trimStart (core ++ after) := by
    rw [List.append_assoc]
    exact List.dropWhile_append_of_pos blank
  have reversed : ∀ c ∈ core.reverse, isBlank c = false :=
    fun c member => solid c (List.mem_reverse.mp member)
  unfold trim
  rw [started]
  cases core with
  | nil =>
      have nothing : trimStart (after ++ []) = trimStart [] :=
        List.dropWhile_append_of_pos behind
      rw [List.append_nil] at nothing
      rw [List.nil_append, nothing]
      rfl
  | cons c rest =>
      have kept : trimStart (c :: rest ++ after) = c :: rest ++ after :=
        List.dropWhile_cons_of_neg (by simp [solid c List.mem_cons_self])
      have ended
          : trimStart (after.reverse ++ (c :: rest).reverse) = trimStart (c :: rest).reverse :=
        List.dropWhile_append_of_pos fun d member => behind d (List.mem_reverse.mp member)
      rw [kept, List.reverse_append, ended, trimStart_of_solid reversed, List.reverse_reverse]

/-- A text is what is left of it when it is trimmed, with blanks around. -/
theorem exists_trim (text : List Char)
    : ∃ before after,
        text = before ++ trim text ++ after
        ∧ (∀ c ∈ before, isBlank c = true)
        ∧ ∀ c ∈ after, isBlank c = true := by
  have blanks (text : List Char) : ∀ c ∈ text.takeWhile isBlank, isBlank c = true :=
    fun c member => List.all_eq_true.mp List.all_takeWhile c member
  have split (text : List Char) : text.takeWhile isBlank ++ trimStart text = text :=
    List.takeWhile_append_dropWhile
  have back := congrArg List.reverse (split (trimStart text).reverse)
  rw [List.reverse_append, List.reverse_reverse] at back
  refine ⟨text.takeWhile isBlank, ((trimStart text).reverse.takeWhile isBlank).reverse, ?_,
    blanks text, fun c member => blanks _ c (List.mem_reverse.mp member)⟩
  rw [List.append_assoc, trim, back, split]

end Text

-------------------------------------------------------------------------------
-- Numerals of words
-------------------------------------------------------------------------------

namespace Numeral

/-- Digits that are read add to the value, by induction along them. -/
theorem le_value (start : Nat) (digits : List Char)
    : start ≤ value start digits := by
  induction digits generalizing start with
  | nil => exact Nat.le_refl start
  | cons c rest ih =>
      calc start ≤ start * 10 + (c.toNat - 48) := by omega
        _ ≤ value (start * 10 + (c.toNat - 48)) rest := ih _

/-- Digits are read as a word exactly when that is what they stand for, by induction along them. A
value that passes 2^64 does not come below it again.
-/
theorem readDigits_eq_ok_iff {n : Nat} {text : List Char} {word : UInt64} (h : n < Nat.pow 2 64)
    : readDigits n text = .ok word
      ↔ (∀ c ∈ text, isDigit c = true) ∧ value n text = word.toNat := by
  induction text generalizing n with
  | nil =>
      have whole : (UInt64.ofNat n).toNat = n := UInt64.toNat_ofNat_of_lt' h
      simp only [readDigits, Except.ok.injEq, ← UInt64.toNat_inj, whole, value, List.foldl_nil,
        List.not_mem_nil, false_implies, implies_true, true_and]
  | cons c rest ih =>
      cases digit : digit? c with
      | none =>
          have other : ¬ isDigit c = true := by simp [isDigit, digit]
          simp only [readDigits, digit, reduceCtorEq, List.forall_mem_cons, other, false_and]
      | some d =>
          have own : isDigit c = true := by simp [isDigit, digit]
          have same : c.toNat - 48 = d := by
            unfold digit? at digit
            split at digit
            · exact Option.some.inj digit
            · cases digit
          have step : value n (c :: rest) = value (n * 10 + d) rest := by
            simp only [value, List.foldl_cons, same]
          simp only [readDigits, digit, List.forall_mem_cons, own, true_and, step]
          split
          · next fits => exact ih fits
          · next large =>
            have least := le_value (n * 10 + d) rest
            have most : word.toNat < Nat.pow 2 64 := word.toNat_lt
            simp only [reduceCtorEq, false_iff, not_and]
            omega

/-- A word is read from digits that stand for it, behind at most one plus sign. -/
theorem readWord_eq_ok_iff {text : List Char} {word : UInt64}
    : readWord text = .ok word
      ↔ ∃ sign digits,
          text = sign ++ digits
          ∧ (sign = [] ∨ sign = ['+'])
          ∧ digits ≠ []
          ∧ (∀ c ∈ digits, isDigit c = true)
          ∧ value 0 digits = word.toNat := by
  have zero : 0 < Nat.pow 2 64 := by decide
  constructor
  · intro read
    unfold readWord at read
    split at read
    · cases read
    · next rest =>
      split at read
      · cases read
      · next some_ =>
        obtain ⟨each, stands⟩ := (readDigits_eq_ok_iff zero).mp read
        exact ⟨['+'], rest, rfl, .inr rfl, by simpa using some_, each, stands⟩
    · next some_ _ =>
      obtain ⟨each, stands⟩ := (readDigits_eq_ok_iff zero).mp read
      exact ⟨[], _, rfl, .inl rfl, some_, each, stands⟩
  · rintro ⟨sign, digits, rfl, signs, some_, each, stands⟩
    have read := (readDigits_eq_ok_iff zero).mpr ⟨each, stands⟩
    obtain ⟨c, rest, rfl⟩ := List.exists_cons_of_ne_nil some_
    rcases signs with rfl | rfl
    · exact (readWord_of_digit (each c List.mem_cons_self)).trans read
    · exact read

end Numeral

-------------------------------------------------------------------------------
-- Identifiers
-------------------------------------------------------------------------------

namespace Id

variable {subject : Subject}

/-- An identifier is written as a text: in decimal digits that stand for its number, which may
begin with zeros, behind at most one plus sign and with blanks around.
-/
def WrittenAs (id : Id subject) (text : String) : Prop :=
  ∃ before sign digits after,
    text.toList = before ++ (sign ++ digits) ++ after
    ∧ (∀ c ∈ before, Text.isBlank c = true)
    ∧ (∀ c ∈ after, Text.isBlank c = true)
    ∧ (sign = [] ∨ sign = ['+'])
    ∧ digits ≠ []
    ∧ (∀ c ∈ digits, Numeral.isDigit c = true)
    ∧ Numeral.value 0 digits = id.word.toNat

/-- An identifier is read from the texts that it is written as, and from no others. -/
theorem read_eq_ok_iff {text : String} {id : Id subject}
    : read text = .ok id ↔ id.WrittenAs text := by
  have read_iff : read text = .ok id ↔ Numeral.readWord (Text.trim text.toList) = .ok id.word := by
    unfold read
    cases Numeral.readWord (Text.trim text.toList) with
    | error fault => simp [Except.map]
    | ok word =>
        simp only [Except.map, Except.ok.injEq]
        exact ⟨fun same => congrArg Id.word same, fun same => congrArg Id.mk same⟩
  rw [read_iff, Numeral.readWord_eq_ok_iff]
  constructor
  · rintro ⟨sign, digits, left, signs, some_, each, stands⟩
    obtain ⟨before, after, whole, blank, behind⟩ := Text.exists_trim text.toList
    exact ⟨before, sign, digits, after, left ▸ whole, blank, behind, signs, some_, each, stands⟩
  · rintro ⟨before, sign, digits, after, whole, blank, behind, signs, some_, each, stands⟩
    have solid : ∀ c ∈ sign ++ digits, Text.isBlank c = false := by
      intro c member
      rcases List.mem_append.mp member with inSign | inDigits
      · rcases signs with rfl | rfl
        · cases inSign
        · rw [List.mem_singleton.mp inSign]
          rfl
      · exact Text.isBlank_of_isDigit (each c inDigits)
    rw [whole, Text.trim_surrounded blank solid behind]
    exact ⟨sign, digits, rfl, signs, some_, each, stands⟩

/-- An identifier is written as its text, also behind blanks. -/
theorem writtenAs_blanks_text {blanks : List Char} (blank : ∀ c ∈ blanks, Text.isBlank c = true)
    (id : Id subject)
    : id.WrittenAs (String.ofList (blanks ++ id.text.toList)) := by
  refine ⟨blanks, [], Numeral.digits id.word.toNat, [], ?_, blank, nofun, .inl rfl,
    Numeral.digits_ne_nil _, fun c => Numeral.isDigit_of_mem, Numeral.value_digits _⟩
  rw [String.toList_ofList, text, Numeral.text, String.toList_ofList, List.append_nil,
    List.nil_append]

/-- An identifier is read back from its text, and from its text after blanks. -/
theorem read_blanks_text {blanks : List Char} (blank : ∀ c ∈ blanks, Text.isBlank c = true)
    (id : Id subject)
    : read (String.ofList (blanks ++ id.text.toList)) = .ok id :=
  read_eq_ok_iff.mpr (writtenAs_blanks_text blank id)

theorem read_text (id : Id subject)
    : read id.text = .ok id := by
  have whole := read_blanks_text (nofun : ∀ c ∈ ([] : List Char), _) id
  rw [List.nil_append, String.ofList_toList] at whole
  exact whole

end Id

end Gatehouse
