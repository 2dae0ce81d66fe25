import Gatehouse.Proofs.Text.Numeral
import Gatehouse.Toml.Scalar

/-! Numbers read back. What is written of a whole number is read as that number, and what is
written of a double is read as a double and as nothing else, so that it reads back whenever the
reader of doubles inverts their writer.
-/

namespace Gatehouse.Toml

-------------------------------------------------------------------------------
-- Tokens
-------------------------------------------------------------------------------

/-- What a scalar may be written as: characters of tokens, with a dash at most in front. -/
structure IsToken (text : List Char) : Prop where
  chars : ∀ c ∈ text, isTokenChar c = true
  undashed : '-' ∉ text.tail

/-- A token ends before a character of no token, other than the mark between hours and minutes. -/
structure EndsToken (rest : List Char) : Prop where
  starts : ∃ c later, rest = c :: later ∧ isTokenChar c = false ∧ c ≠ ':'

theorem isTokenChar_of_isDigit {c : Char} (digit : Numeral.isDigit c = true)
    : isTokenChar c = true := by
  have bounds := Numeral.digit_bounds digit
  have isDigit : c.isDigit = true := by
    simp only [Char.isDigit, Bool.and_eq_true, decide_eq_true_eq]
    exact ⟨UInt32.le_iff_toNat_le.mpr bounds.1, UInt32.le_iff_toNat_le.mpr bounds.2⟩
  simp [isTokenChar, Char.isAlphanum, isDigit]

/-- Characters of tokens that a text begins with are those of the token it begins with. -/
theorem exists_of_append_eq {token rest front back : List Char} (ends : EndsToken rest)
    (chars : ∀ c ∈ front, isTokenChar c = true) (same : token ++ rest = front ++ back)
    : ∃ more, token = front ++ more ∧ back = more ++ rest := by
  obtain ⟨c, later, rfl, other, _⟩ := ends.starts
  rcases List.append_eq_append_iff.mp same with ⟨more, rfl, whole⟩ | ⟨more, rfl, rfl⟩
  · cases more with
    | nil => exact ⟨[], by simp, by simpa using whole.symm⟩
    | cons d more =>
      obtain ⟨rfl, _⟩ := List.cons.inj whole
      have := chars c (by simp)
      simp [other] at this
  · exact ⟨more, rfl, rfl⟩

-------------------------------------------------------------------------------
-- Tokens are no dates
-------------------------------------------------------------------------------

theorem eq_of_readTwo? {most number : Nat} {text rest : List Char}
    (h : readTwo? most text = some (number, rest))
    : ∃ a b, text = a :: b :: rest ∧ Numeral.isDigit a = true ∧ Numeral.isDigit b = true := by
  unfold readTwo? at h
  split at h
  · next a b later =>
    split at h
    · next digits =>
      simp only [Bool.and_eq_true] at digits
      cases h
      exact ⟨a, b, rfl, digits.1.1, digits.1.2⟩
    · cases h
  · cases h

theorem eq_of_drop? {c : Char} {text rest : List Char} (h : drop? c text = some rest)
    : text = c :: rest := by
  unfold drop? at h
  split at h
  · cases h
  · split at h
    · next same =>
      cases h
      rw [same]
    · cases h

/-- A time of day has its mark where a token would go on or end. -/
theorem IsToken.afterTime? {token rest : List Char} (written : IsToken token)
    (ends : EndsToken rest)
    : afterTime? (token ++ rest) = none := by
  refine Option.eq_none_iff_forall_ne_some.mpr fun left h => ?_
  unfold Toml.afterTime? at h
  obtain ⟨⟨hour, afterHour⟩, first, h⟩ := Option.bind_eq_some_iff.mp h
  obtain ⟨afterMark, mark, _⟩ := Option.bind_eq_some_iff.mp h
  obtain ⟨a, b, whole, digitA, digitB⟩ := eq_of_readTwo? first
  obtain rfl := eq_of_drop? mark
  have chars : ∀ c ∈ [a, b], isTokenChar c = true := by
    simp [isTokenChar_of_isDigit digitA, isTokenChar_of_isDigit digitB]
  obtain ⟨more, rfl, later⟩ := exists_of_append_eq ends chars whole
  obtain ⟨c, end_, rfl, other, apart⟩ := ends.starts
  cases more with
  | nil => exact apart (List.cons.inj later).1.symm
  | cons d more =>
    obtain ⟨rfl, _⟩ := List.cons.inj later
    have := written.chars ':' (by simp)
    simp [isTokenChar] at this

/-- A date has its dash behind four digits, where a token has none. -/
theorem IsToken.afterDate? {token rest : List Char} (written : IsToken token)
    (ends : EndsToken rest)
    : afterDate? (token ++ rest) = none := by
  unfold Toml.afterDate?
  split
  · next a b c d later whole =>
    split
    · next digits =>
      have dash : isTokenChar '-' = true := by decide
      have chars : ∀ e ∈ [a, b, c, d, '-'], isTokenChar e = true := by
        simp only [List.all_cons, List.all_nil, Bool.and_true, Bool.and_eq_true] at digits
        obtain ⟨digitA, digitB, digitC, digitD⟩ := digits
        simp [isTokenChar_of_isDigit digitA, isTokenChar_of_isDigit digitB,
          isTokenChar_of_isDigit digitC, isTokenChar_of_isDigit digitD, dash]
      obtain ⟨more, rfl, _⟩ := exists_of_append_eq ends chars whole
      exact absurd written.undashed (by simp)
    · rfl
  · rfl

/-- A token is read as a number, unless it is one of the two words for truth values. -/
theorem IsToken.readScalar {token rest : List Char} (written : IsToken token)
    (ends : EndsToken rest) (noTruth : token ≠ ['t', 'r', 'u', 'e'])
    (noFalsehood : token ≠ ['f', 'a', 'l', 's', 'e'])
    : readScalar (token ++ rest)
      = match readInteger? token, readFloat? token with
        | some n, _ => some (.integer n, rest)
        | none, some x => some (.float x, rest)
        | none, none => none := by
  have taken : (token ++ rest).takeWhile isTokenChar = token := by
    obtain ⟨c, later, rfl, other, _⟩ := ends.starts
    rw [List.takeWhile_append_of_pos written.chars, List.takeWhile_cons_of_neg (by simp [other]),
      List.append_nil]
  have noDate : afterDateTime? (token ++ rest) = none := by
    simp [afterDateTime?, written.afterDate? ends]
  unfold Toml.readScalar
  cases whole : readInteger? token with
  | some n =>
      simp [noDate, written.afterTime? ends, taken, noTruth, noFalsehood, whole]
  | none =>
      cases real : readFloat? token <;>
        simp [noDate, written.afterTime? ends, taken, noTruth, noFalsehood, whole, real]

-------------------------------------------------------------------------------
-- Whole numbers
-------------------------------------------------------------------------------

/-- Digits without underscores are taken as they are, by induction along them. -/
theorem plainDigits?_self {text : List Char} (digits : ∀ c ∈ text, Numeral.isDigit c = true)
    (more : text ≠ [])
    : plainDigits? Numeral.isDigit text = some text := by
  fun_induction plainDigits? Numeral.isDigit text with
  | case1 => exact absurd rfl more
  | case2 c digit => rfl
  | case3 c other => simp_all
  | case4 c rest digit ih =>
    have := digits '_' (by simp)
    cases this
  | case5 c rest other => simp_all
  | case6 c rest one underscored digit ih =>
    rw [ih (fun d member => digits d (List.mem_cons_of_mem c member)) (by simpa using one)]
    rfl
  | case7 c rest one underscored other => simp_all

/-- What is read of digits consists of digits and underscores, by induction along it. -/
theorem of_plainDigits? {isDigit : Char → Bool} {text read : List Char}
    (h : plainDigits? isDigit text = some read)
    : ∀ c ∈ text, isDigit c = true ∨ c = '_' := by
  fun_induction plainDigits? isDigit text generalizing read with
  | case1 => cases h
  | case2 c digit => simpa using .inl digit
  | case3 c other => cases h
  | case4 c rest digit ih =>
    obtain ⟨later, read, _⟩ := Option.map_eq_some_iff.mp h
    intro d member
    rcases List.mem_cons.mp member with rfl | member
    · exact .inl digit
    · rcases List.mem_cons.mp member with rfl | member
      · exact .inr rfl
      · exact ih read d member
  | case5 c rest other => cases h
  | case6 c rest one underscored digit ih =>
    obtain ⟨later, read, _⟩ := Option.map_eq_some_iff.mp h
    intro d member
    rcases List.mem_cons.mp member with rfl | member
    · exact .inl digit
    · exact ih read d member
  | case7 c rest one underscored other => cases h

theorem hexDigit?_digitChar {d : Nat} (h : d < 10)
    : hexDigit? (Numeral.digitChar d) = some d := by
  have all : ∀ d < 10, hexDigit? (Numeral.digitChar d) = some d := by decide
  exact all d h

/-- A numeral stands for its number, by induction along the digits. -/
theorem numberOf_digits (n : Nat)
    : numberOf 10 (Numeral.digits n) = n := by
  induction n using Nat.strongRecOn with
  | _ n ih =>
    unfold Numeral.digits
    split
    · next small => simp [numberOf, hexDigit?_digitChar small]
    · next large =>
      have before := ih (n / 10) (by omega)
      unfold numberOf at before ⊢
      rw [List.foldl_append, before]
      simp only [List.foldl_cons, List.foldl_nil,
        hexDigit?_digitChar (Nat.mod_lt n (by decide : 0 < 10)), Option.getD_some]
      omega

theorem wholeDigits?_digits (n : Nat)
    : wholeDigits? (Numeral.digits n) = some (Numeral.digits n) := by
  have taken := plainDigits?_self (fun _ => Numeral.isDigit_of_mem) (Numeral.digits_ne_nil n)
  unfold wholeDigits?
  rw [taken]
  split
  · next d rest same =>
    have whole := Option.some.inj same
    have zero := Numeral.eq_zero_of_digits_head (n := n) (by rw [whole]; rfl)
    subst zero
    simp [Numeral.digits] at whole
  · rfl

/-- A text of digits and points has no letter and no sign in it. -/
theorem of_digit_or_point {c : Char} (h : Numeral.isDigit c = true ∨ c = '.')
    : isTokenChar c = true ∧ c ≠ '-' ∧ c ≠ '+' ∧ c ≠ 'x' ∧ c ≠ 'o' ∧ c ≠ 'b' := by
  rcases h with digit | rfl
  · refine ⟨isTokenChar_of_isDigit digit, ?_, ?_, ?_, ?_, ?_⟩ <;>
      (rintro rfl; cases digit)
  · decide

/-- A token without letters is read as a number in base ten, after its sign. -/
theorem readInteger?_eq {token : List Char} (unlettered : ∀ c ∈ token, c ≠ 'x' ∧ c ≠ 'o' ∧ c ≠ 'b')
    : readInteger? token
      = (wholeDigits? (splitSign token).2).bind fun digits =>
          inRange? (if (splitSign token).1 then -(numberOf 10 digits : Int)
            else numberOf 10 digits) := by
  unfold readInteger?
  dsimp only
  split
  · exact absurd rfl (unlettered 'x' (by simp)).1
  · exact absurd rfl (unlettered 'o' (by simp)).2.1
  · exact absurd rfl (unlettered 'b' (by simp)).2.2
  · rfl

theorem splitSign_self {text : List Char} (unsigned : ∀ c ∈ text, c ≠ '-' ∧ c ≠ '+')
    : splitSign text = (false, text) := by
  unfold splitSign
  split
  · exact absurd rfl (unsigned '-' (by simp)).1
  · exact absurd rfl (unsigned '+' (by simp)).2
  · rfl

theorem inRange?_natCast {n : Nat} (h : n < Nat.pow 2 63)
    : inRange? n = some (n : Int) := by
  have low : -((Nat.pow 2 63 : Nat) : Int) ≤ (n : Int) :=
    Int.le_trans (Int.neg_nonpos_of_nonneg (Int.natCast_nonneg _)) (Int.natCast_nonneg n)
  unfold inRange?
  exact if_pos ⟨low, Int.ofNat_lt.mpr h⟩

/-- The numeral of a number that fits is read as that number. -/
theorem readInteger?_digits {n : Nat} (h : n < Nat.pow 2 63)
    : readInteger? (Numeral.digits n) = some (n : Int) := by
  have plain (c : Char) (member : c ∈ Numeral.digits n) :=
    of_digit_or_point (.inl (Numeral.isDigit_of_mem member))
  rw [readInteger?_eq fun c member => (plain c member).2.2.2,
    splitSign_self fun c member => ⟨(plain c member).2.1, (plain c member).2.2.1⟩,
    wholeDigits?_digits, Option.bind_some, numberOf_digits, if_neg Bool.false_ne_true]
  exact inRange?_natCast h

/-- The numeral of a number that fits is the value of that number. -/
theorem readScalar_digits {n : Nat} {rest : List Char} (h : n < Nat.pow 2 63)
    (ends : EndsToken rest)
    : readScalar (Numeral.digits n ++ rest) = some (.integer n, rest) := by
  have plain (c : Char) (member : c ∈ Numeral.digits n) :=
    of_digit_or_point (.inl (Numeral.isDigit_of_mem member))
  have written : IsToken (Numeral.digits n) := {
    chars := fun c member => (plain c member).1
    undashed := fun member => (plain '-' (List.mem_of_mem_tail member)).2.1 rfl }
  have noWord (c : Char) (word : List Char) (letter : Numeral.isDigit c = false)
      : Numeral.digits n ≠ c :: word := by
    intro same
    have := Numeral.isDigit_of_mem (n := n) (c := c) (by simp [same])
    simp [letter] at this
  rw [written.readScalar ends (noWord 't' _ rfl) (noWord 'f' _ rfl), readInteger?_digits h]

-------------------------------------------------------------------------------
-- Doubles
-------------------------------------------------------------------------------

/-- How a double is written: as one of three words, or with a point among digits. -/
inductive WrittenFloat : List Char → Prop
  | nan : WrittenFloat ['n', 'a', 'n']
  | infinite : WrittenFloat ['i', 'n', 'f']
  | negativeInfinite : WrittenFloat ['-', 'i', 'n', 'f']
  | finite {body : List Char} (negative : Bool)
      (chars : ∀ c ∈ body, Numeral.isDigit c = true ∨ c = '.') (point : '.' ∈ body)
    : WrittenFloat ((if negative then ['-'] else []) ++ body)

/-- A decimal is written with digits and points. -/
theorem of_mem_positional {d : Decimal.Scaled} {c : Char} (member : c ∈ d.positional)
    : Numeral.isDigit c = true ∨ c = '.' := by
  unfold Decimal.Scaled.positional at member
  split at member
  · exact .inl (Numeral.isDigit_of_mem member)
  · dsimp only at member
    rcases List.mem_append.mp member with whole | fraction
    · exact .inl (Numeral.isDigit_of_mem whole)
    · rcases List.mem_cons.mp fraction with point | places
      · exact .inr point
      · refine .inl ?_
        rcases List.mem_append.mp places with zero | digit
        · rw [List.eq_of_mem_replicate zero]
          rfl
        · exact Numeral.isDigit_of_mem digit

/-- A point among digits, after a sign when the number is negative. -/
theorem WrittenFloat.of_digits {digits : List Char} (negative : Bool)
    (chars : ∀ c ∈ digits, Numeral.isDigit c = true ∨ c = '.')
    : WrittenFloat
        (let text := if negative then '-' :: digits else digits
        if text.contains '.' then text else text ++ ['.', '0']) := by
  have signed (body : List Char)
      : (if negative then '-' :: body else body) = (if negative then ['-'] else []) ++ body := by
    cases negative <;> rfl
  dsimp only
  rw [signed]
  by_cases point : ((if negative then ['-'] else []) ++ digits).contains '.' = true
  · rw [if_pos point]
    refine .finite negative chars ?_
    cases negative <;> simpa using point
  · rw [if_neg point, List.append_assoc]
    refine .finite negative (fun c member => ?_) (by simp)
    rcases List.mem_append.mp member with digit | tail
    · exact chars c digit
    · rcases List.mem_cons.mp tail with point | zero
      · exact .inr point
      · cases List.mem_singleton.mp zero
        exact .inl rfl

theorem writtenFloat_floatText (x : Float)
    : WrittenFloat (floatText x) := by
  unfold floatText Decimal.plainText
  cases Decimal.magnitude x with
  | nan => exact .nan
  | infinite =>
    dsimp only
    split
    · exact .negativeInfinite
    · exact .infinite
  | finite value =>
    refine .of_digits (Decimal.isNegative x) fun c member => ?_
    split at member
    · cases List.mem_singleton.mp member
      exact .inl rfl
    · exact of_mem_positional member

theorem WrittenFloat.isToken {text : List Char} (written : WrittenFloat text)
    : IsToken text := by
  cases written with
  | nan => exact ⟨List.all_eq_true.mp (by decide), by decide⟩
  | infinite => exact ⟨List.all_eq_true.mp (by decide), by decide⟩
  | negativeInfinite => exact ⟨List.all_eq_true.mp (by decide), by decide⟩
  | @finite body negative chars point =>
    have token (c : Char) (member : c ∈ body) := of_digit_or_point (chars c member)
    have noDash (member : '-' ∈ body) : False := (token '-' member).2.1 rfl
    constructor
    · intro c member
      rcases List.mem_append.mp member with sign | member
      · cases negative <;> simp_all [isTokenChar]
      · exact (token c member).1
    · cases negative with
      | false => exact fun member => noDash (List.mem_of_mem_tail member)
      | true => exact noDash

/-- What is written of a double is no whole number. -/
theorem WrittenFloat.readInteger? {text : List Char} (written : WrittenFloat text)
    : readInteger? text = none := by
  cases written with
  | nan => rfl
  | infinite => rfl
  | negativeInfinite => rfl
  | @finite body negative chars point =>
    have token (c : Char) (member : c ∈ body) := of_digit_or_point (chars c member)
    have unlettered
        : ∀ c ∈ (if negative then ['-'] else []) ++ body, c ≠ 'x' ∧ c ≠ 'o' ∧ c ≠ 'b' := by
      intro c member
      rcases List.mem_append.mp member with sign | member
      · cases negative with
        | false => cases sign
        | true =>
          cases List.mem_singleton.mp sign
          decide
      · exact (token c member).2.2.2
    have split : (splitSign ((if negative then ['-'] else []) ++ body)).2 = body := by
      cases negative with
      | false =>
        exact congrArg Prod.snd
          (splitSign_self fun c member => ⟨(token c member).2.1, (token c member).2.2.1⟩)
      | true => rfl
    have none_ : plainDigits? Numeral.isDigit body = none := by
      refine Option.eq_none_iff_forall_ne_some.mpr fun digits read => ?_
      rcases of_plainDigits? read '.' point with digit | underscore
      · cases digit
      · cases underscore
    rw [readInteger?_eq unlettered, split]
    simp [wholeDigits?, none_]

/-- What is written of a double is the value of a double, the one that the reader of doubles makes
of it.
-/
theorem readScalar_floatText {x y : Float} {rest : List Char} (ends : EndsToken rest)
    (read : readFloat? (floatText x) = some y)
    : readScalar (floatText x ++ rest) = some (.float y, rest) := by
  have written := writtenFloat_floatText x
  generalize floatText x = text at written read
  have noWord : text ≠ ['t', 'r', 'u', 'e'] ∧ text ≠ ['f', 'a', 'l', 's', 'e'] := by
    refine ⟨?_, ?_⟩
    · rintro rfl
      cases read
    · rintro rfl
      cases read
  rw [written.isToken.readScalar ends noWord.1 noWord.2, written.readInteger?, read]

end Gatehouse.Toml
