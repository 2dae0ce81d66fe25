import Gatehouse.Config.Document
import Gatehouse.Proofs.Toml.Quoted
import Gatehouse.Proofs.Toml.Scalar

/-! Documents read back. A value, a line and a document each are read as what they were written
from, the lines one after another and whatever stands behind them; sections of different names with
different keys make the document that has them in order.
-/

namespace Gatehouse.Toml

-------------------------------------------------------------------------------
-- Layout
-------------------------------------------------------------------------------

/-- A character that begins a line with something on it. -/
structure OpensLine (c : Char) : Prop where
  solid : isBlank c = false
  noComment : c ≠ '#'
  noLine : c ≠ '\n'
  noReturn : c ≠ '\r'

instance (c : Char) : Decidable (OpensLine c) :=
  decidable_of_iff (isBlank c = false ∧ c ≠ '#' ∧ c ≠ '\n' ∧ c ≠ '\r')
    ⟨fun h => ⟨h.1, h.2.1, h.2.2.1, h.2.2.2⟩, fun h => ⟨h.solid, h.noComment, h.noLine, h.noReturn⟩⟩

theorem OpensLine.skipBlanks {c : Char} (opens : OpensLine c) (blanks text : List Char)
    (blank : ∀ d ∈ blanks, isBlank d = true)
    : skipBlanks (blanks ++ c :: text) = c :: text := by
  unfold Toml.skipBlanks
  rw [List.dropWhile_append_of_pos blank, List.dropWhile_cons_of_neg (by simp [opens.solid])]

/-- Blanks are skipped up to what begins a line. -/
theorem OpensLine.skipLayout {c : Char} (opens : OpensLine c) {blanks text : List Char}
    {fuel : Nat} (blank : ∀ d ∈ blanks, isBlank d = true) (enough : 0 < fuel)
    : skipLayout fuel (blanks ++ c :: text) = c :: text := by
  obtain ⟨fuel, rfl⟩ : ∃ n, fuel = n + 1 := ⟨fuel - 1, by omega⟩
  have stays := opens.skipBlanks [] text (by simp)
  have goesOn : endLine? (c :: text) = none := by
    unfold endLine?
    rw [List.nil_append] at stays
    rw [stays]
    split
    · next same => exact absurd (List.cons.inj same).1 opens.noComment
    · unfold afterLineEnd?
      split
      · contradiction
      · next same => exact absurd (List.cons.inj same).1 opens.noLine
      · next same => exact absurd (List.cons.inj same).1 opens.noReturn
      · rfl
  simp [Toml.skipLayout, opens.skipBlanks blanks text blank, goesOn]

theorem OpensLine.skipLayout_self {c : Char} (opens : OpensLine c) (fuel : Nat) (text : List Char)
    : Toml.skipLayout fuel (c :: text) = c :: text := by
  cases fuel with
  | zero => rfl
  | succ fuel =>
    have noBlanks : ∀ d ∈ [], isBlank d = true := fun _ => nofun
    exact opens.skipLayout noBlanks (Nat.succ_pos fuel)

theorem skipLayout_line (fuel : Nat) (text : List Char)
    : skipLayout (fuel + 1) ('\n' :: text) = skipLayout fuel text := by
  rfl

-------------------------------------------------------------------------------
-- Values
-------------------------------------------------------------------------------

/-- A text that is read as a value, so far as the reader's fuel reaches. -/
structure ReadsAs (text : List Char) (value : Value) : Prop where
  reads
    : ∀ (fuel : Nat) (rest : List Char),
        text.length < fuel
        → readValue fuel maxDepth (text ++ '\n' :: rest) = some (value, '\n' :: rest)
  opens : ∃ c more, text = c :: more ∧ isBlank c = false

/-- A value that is no container is a quoted text or a scalar. -/
theorem readValue_plain {c : Char} (noArray : c ≠ '[') (noTable : c ≠ '\x7b') (fuel depth : Nat)
    (text : List Char)
    : readValue (fuel + 1) depth (c :: text)
      = if c = quote || c = apostrophe then
          (readQuoted (c :: text)).map fun (chars, rest) => (.string (String.ofList chars), rest)
        else readScalar (c :: text) := by
  unfold readValue
  split
  · next same => exact absurd (List.cons.inj same).1 noArray
  · next same => exact absurd (List.cons.inj same).1 noTable
  · next same =>
    obtain ⟨rfl, rfl⟩ := List.cons.inj same
    rfl
  · contradiction

theorem readValue_scalar {text rest : List Char} {value : Value}
    (token : ∀ c ∈ text, isTokenChar c = true) (more : text ≠ [])
    (read : readScalar (text ++ rest) = some (value, rest)) (fuel depth : Nat)
    : readValue (fuel + 1) depth (text ++ rest) = some (value, rest) := by
  obtain ⟨c, later, rfl⟩ := List.exists_cons_of_ne_nil more
  have first := token c List.mem_cons_self
  have apart (d : Char) (other : isTokenChar d = false) : c ≠ d := by
    rintro rfl
    simp [first] at other
  have unmarked : ¬ ((c = quote || c = apostrophe) = true) := by
    simp [apart quote (by decide), apart apostrophe (by decide)]
  rw [List.cons_append, readValue_plain (apart '[' (by decide)) (apart '\x7b' (by decide)),
    if_neg unmarked]
  exact read

theorem endsToken_cons {c : Char} (h : isTokenChar c = false ∧ c ≠ ':') (rest : List Char)
    : EndsToken (c :: rest) :=
  ⟨c, rest, rfl, h.1, h.2⟩

theorem readsAs_scalar {text : List Char} {value : Value}
    (token : ∀ c ∈ text, isTokenChar c = true) (more : text ≠ [])
    (read : ∀ rest, readScalar (text ++ '\n' :: rest) = some (value, '\n' :: rest))
    : ReadsAs text value where
  reads := by
    intro fuel rest long
    obtain ⟨fuel, rfl⟩ : ∃ n, fuel = n + 1 := ⟨fuel - 1, by omega⟩
    exact readValue_scalar token more (read rest) fuel maxDepth
  opens := by
    obtain ⟨c, later, rfl⟩ := List.exists_cons_of_ne_nil more
    refine ⟨c, later, rfl, Bool.eq_false_iff.mpr fun blank => ?_⟩
    have first := token c List.mem_cons_self
    simp only [isBlank, Bool.or_eq_true, decide_eq_true_eq] at blank
    rcases blank with rfl | rfl <;> cases first

theorem readsAs_digits {n : Nat} (h : n < Nat.pow 2 63)
    : ReadsAs (Numeral.digits n) (.integer n) :=
  readsAs_scalar (fun _ member => isTokenChar_of_isDigit (Numeral.isDigit_of_mem member))
    (Numeral.digits_ne_nil n) fun rest => readScalar_digits h (endsToken_cons (by decide) rest)

/-- A double is read as what the reader of doubles makes of it. -/
theorem readsAs_float {x y : Float} (read : readFloat? (floatText x) = some y)
    : ReadsAs (floatText x) (.float y) := by
  have more : floatText x ≠ [] := by
    intro none_
    rw [none_] at read
    cases read
  refine readsAs_scalar (writtenFloat_floatText x).isToken.chars more fun rest => ?_
  exact readScalar_floatText (endsToken_cons (by decide) rest) read

theorem readsAs_quoted (text : String)
    : ReadsAs (quoted text.toList) (.string text) where
  reads := by
    intro fuel rest long
    obtain ⟨fuel, rfl⟩ : ∃ n, fuel = n + 1 := ⟨fuel - 1, by omega⟩
    obtain ⟨mark, later, shown, isMark⟩ := quoted_head text.toList
    have read := readQuoted_quoted text.toList rest
    have opens : (mark = quote || mark = apostrophe) = true := by simpa using isMark
    have plain : mark ≠ '[' ∧ mark ≠ '\x7b' := by
      rcases isMark with rfl | rfl <;> decide
    rw [shown] at read ⊢
    rw [List.cons_append, readValue_plain plain.1 plain.2, if_pos opens, ← List.cons_append, read]
    simp
  opens := by
    obtain ⟨mark, later, shown, isMark⟩ := quoted_head text.toList
    refine ⟨mark, later, shown, ?_⟩
    rcases isMark with rfl | rfl <;> rfl

-------------------------------------------------------------------------------
-- Arrays
-------------------------------------------------------------------------------

/-- The items of an array as they are written, each on a line of its own. -/
def itemLines (items : List (List Char)) : List Char :=
  items.flatMap fun item => List.replicate 4 ' ' ++ item ++ [',', '\n']

theorem opensLine_of_isDigit {c : Char} (digit : Numeral.isDigit c = true)
    : OpensLine c := by
  have bounds := Numeral.digit_bounds digit
  refine ⟨Bool.eq_false_iff.mpr fun blank => ?_, ?_, ?_, ?_⟩
  · simp only [isBlank, Bool.or_eq_true, decide_eq_true_eq] at blank
    rcases blank with rfl | rfl <;> cases digit
  all_goals
    rintro rfl
    cases digit

/-- An array goes on with an item, and what follows the item decides how it goes on. -/
theorem readItems_digits {n : Nat} (fits : n < Nat.pow 2 63) {text tail : List Char}
    (begins : skipLayout text.length text = Numeral.digits n ++ tail) (ends : EndsToken tail)
    (fuel depth : Nat)
    : readItems (fuel + 2) depth text
      = match skipLayout tail.length tail with
        | ',' :: rest =>
            (readItems (fuel + 1) depth rest).map fun (items, rest) => (.integer n :: items, rest)
        | ']' :: rest => some ([.integer n], rest)
        | _ => none := by
  have read := readValue_scalar
    (fun _ member => isTokenChar_of_isDigit (Numeral.isDigit_of_mem member))
    (Numeral.digits_ne_nil n) (readScalar_digits fits ends) fuel depth
  obtain ⟨c, digits, shown, each⟩ := Numeral.exists_digits n
  have noEnd : c ≠ ']' := Numeral.ne_of_isDigit (each c List.mem_cons_self) rfl
  unfold readItems
  rw [begins]
  split
  · next same =>
    rw [shown] at same
    exact absurd (List.cons.inj same).1 noEnd
  · rw [read]
    rfl

/-- Items on lines of their own read up to their bracket, by induction over the items. -/
theorem readItems_itemLines {numbers : List Nat} (fit : ∀ n ∈ numbers, n < Nat.pow 2 63)
    {fuel : Nat} (long : numbers.length ≤ fuel) (depth : Nat) (rest : List Char)
    : readItems (fuel + 1) depth
        ('\n' :: (itemLines (numbers.map Numeral.digits) ++ ']' :: rest))
      = some (numbers.map fun n => .integer n, rest) := by
  induction numbers generalizing fuel with
  | nil =>
    have bracket : OpensLine ']' := by decide
    unfold readItems
    simp only [itemLines, List.map_nil, List.flatMap_nil, List.nil_append, List.length_cons,
      skipLayout_line, bracket.skipLayout_self]
  | cons n numbers ih =>
    obtain ⟨fuel, rfl⟩ : ∃ m, fuel = m + 1 := ⟨fuel - 1, by simp at long; omega⟩
    have later := ih (fun m member => fit m (List.mem_cons_of_mem n member))
      (by simpa using long : numbers.length ≤ fuel)
    obtain ⟨c, digits, shown, each⟩ := Numeral.exists_digits n
    have opens : OpensLine c := opensLine_of_isDigit (each c List.mem_cons_self)
    have blank (d : Char) (member : d ∈ List.replicate 4 ' ') : isBlank d = true := by
      rw [List.eq_of_mem_replicate member]
      rfl
    have line
        : itemLines ((n :: numbers).map Numeral.digits) ++ ']' :: rest
          = List.replicate 4 ' ' ++ c :: (digits ++ ',' :: '\n'
              :: (itemLines (numbers.map Numeral.digits) ++ ']' :: rest)) := by
      simp [itemLines, shown]
    have begins
        : skipLayout ('\n' :: (itemLines ((n :: numbers).map Numeral.digits) ++ ']' :: rest)).length
            ('\n' :: (itemLines ((n :: numbers).map Numeral.digits) ++ ']' :: rest))
          = Numeral.digits n
            ++ ',' :: '\n' :: (itemLines (numbers.map Numeral.digits) ++ ']' :: rest) := by
      rw [line, List.length_cons, skipLayout_line, opens.skipLayout blank (by simp), shown]
      rfl
    have comma : OpensLine ',' := by decide
    rw [readItems_digits (fit n List.mem_cons_self) begins (endsToken_cons (by decide) _),
      comma.skipLayout_self]
    simp only [later, Option.map_some, List.map_cons]

theorem itemLines_length (items : List (List Char))
    : 6 * items.length ≤ (itemLines items).length := by
  induction items with
  | nil => exact Nat.le_refl 0
  | cons item items ih =>
    simp only [itemLines, List.flatMap_cons, List.length_append, List.length_replicate,
      List.length_cons, List.length_nil] at ih ⊢
    omega

/-- An array that is no item of another is read from behind its bracket. -/
theorem readValue_array {fuel : Nat} {text rest : List Char} {items : List Value}
    (read : readItems fuel (maxDepth - 1) text = some (items, rest))
    : readValue (fuel + 1) maxDepth ('[' :: text) = some (.array items, rest) := by
  have deep : maxDepth ≠ 0 := by decide
  unfold readValue
  simp only [if_neg deep, read, Option.map_some]

/-- An array of numbers is read as they are, however many it has. -/
theorem readsAs_arrayText {numbers : List Nat} (fit : ∀ n ∈ numbers, n < Nat.pow 2 63)
    : ReadsAs (Config.arrayText (numbers.map Numeral.digits))
        (.array (numbers.map fun n : Nat => .integer n)) where
  reads := by
    intro fuel rest long
    match numbers, fit, long with
    | [], _, long =>
      obtain ⟨fuel, rfl⟩ : ∃ m, fuel = m + 2 :=
        ⟨fuel - 2, by simp [Config.arrayText] at long; omega⟩
      exact readValue_array rfl
    | [n], fit, long =>
      obtain ⟨c, digits, shown, each⟩ := Numeral.exists_digits n
      have opens : OpensLine c := opensLine_of_isDigit (each c List.mem_cons_self)
      have bracket : OpensLine ']' := by decide
      obtain ⟨fuel, rfl⟩ : ∃ m, fuel = m + 3 :=
        ⟨fuel - 3, by simp [Config.arrayText, shown] at long; omega⟩
      have begins
          : skipLayout (Numeral.digits n ++ ']' :: '\n' :: rest).length
              (Numeral.digits n ++ ']' :: '\n' :: rest)
            = Numeral.digits n ++ ']' :: '\n' :: rest := by
        rw [shown]
        exact opens.skipLayout_self _ _
      have read := readItems_digits (fit n List.mem_cons_self) begins
        (endsToken_cons (by decide) _) fuel (maxDepth - 1)
      rw [bracket.skipLayout_self] at read
      simpa [Config.arrayText] using readValue_array read
    | n :: m :: numbers, fit, long =>
      have lines := itemLines_length ((n :: m :: numbers).map Numeral.digits)
      have shown
          : Config.arrayText ((n :: m :: numbers).map Numeral.digits)
            = '[' :: '\n' :: (itemLines ((n :: m :: numbers).map Numeral.digits) ++ [']']) :=
        rfl
      have many : (n :: m :: numbers).length + 2 ≤ fuel := by
        simp only [shown, List.length_cons, List.length_append, List.length_nil,
          List.length_map] at lines long ⊢
        omega
      obtain ⟨fuel, rfl⟩ : ∃ m, fuel = m + 2 := ⟨fuel - 2, by omega⟩
      have read := readItems_itemLines fit (by omega : (n :: m :: numbers).length ≤ fuel)
        (maxDepth - 1) ('\n' :: rest)
      have whole := readValue_array read
      simpa [Config.arrayText, itemLines] using whole
  opens := by
    unfold Config.arrayText
    split <;> exact ⟨'[', _, rfl, by decide⟩

-------------------------------------------------------------------------------
-- Keys and lines
-------------------------------------------------------------------------------

/-- A name that is a key as it stands. -/
structure IsBare (name : String) : Prop where
  chars : ∀ c ∈ name.toList, isKeyChar c = true
  more : name.toList ≠ []

instance (name : String) : Decidable (IsBare name) :=
  decidable_of_iff (name.toList.all isKeyChar = true ∧ name.toList ≠ [])
    ⟨fun h => ⟨List.all_eq_true.mp h.1, h.2⟩, fun h => ⟨List.all_eq_true.mpr h.chars, h.more⟩⟩

theorem ne_of_isKeyChar {c d : Char} (key : isKeyChar c = true) (other : isKeyChar d = false)
    : c ≠ d := by
  rintro rfl
  simp [key] at other

/-- A bare key is read up to the blanks behind it. -/
theorem readKey_bare {name : String} (bare : IsBare name) {rest : List Char}
    (ends : ∃ c later, rest = c :: later ∧ isKeyChar c = false)
    (single : (skipBlanks rest).head? ≠ some '.')
    : readKey maxDepth (name.toList ++ rest) = some (([], name), skipBlanks rest) := by
  obtain ⟨c, later, shown⟩ := List.exists_cons_of_ne_nil bare.more
  have first : isKeyChar c = true := bare.chars c (by simp [shown])
  have solid : isBlank c = false := by
    simp [isBlank, ne_of_isKeyChar first (by decide : isKeyChar ' ' = false),
      ne_of_isKeyChar first (by decide : isKeyChar '\t' = false)]
  have starts : skipBlanks (name.toList ++ rest) = name.toList ++ rest := by
    rw [shown]
    exact List.dropWhile_cons_of_neg (by simp [solid])
  have taken : (name.toList ++ rest).takeWhile isKeyChar = name.toList := by
    obtain ⟨d, more, rfl, other⟩ := ends
    rw [List.takeWhile_append_of_pos bare.chars, List.takeWhile_cons_of_neg (by simp [other]),
      List.append_nil]
  have unquoted : readQuotedLine (name.toList ++ rest) = none := by
    rw [shown]
    simp [readQuotedLine, ne_of_isKeyChar first (by decide : isKeyChar quote = false),
      ne_of_isKeyChar first (by decide : isKeyChar apostrophe = false)]
  have named : readName (name.toList ++ rest) = some (name, rest) := by
    simp [readName, unquoted, taken, bare.more]
  rw [show maxDepth = 78 + 1 from rfl, readKey, starts, named]
  dsimp only
  split
  · next same =>
    rw [same] at single
    exact absurd rfl single
  · rfl

/-- A text that is read as a line, whatever stands behind it. -/
structure WritesLine (text : List Char) (line : Line) : Prop where
  reads : ∀ rest, readLine (text ++ rest) = some (line, rest)
  opens : ∃ c more, text = c :: more ∧ OpensLine c

theorem endLine?_line (rest : List Char)
    : endLine? ('\n' :: rest) = some rest := by
  rfl

/-- The header of a table is a line. -/
theorem writesLine_header {name : String} (bare : IsBare name)
    : WritesLine ('[' :: name.toList ++ [']', '\n']) (.table [] name) where
  reads := by
    intro rest
    have key : readKey maxDepth (name.toList ++ ']' :: '\n' :: rest)
        = some (([], name), ']' :: '\n' :: rest) :=
      readKey_bare bare ⟨']', _, rfl, by decide⟩ (by simp [skipBlanks, isBlank])
    obtain ⟨c, later, shown⟩ := List.exists_cons_of_ne_nil bare.more
    have noBracket : c ≠ '[' :=
      ne_of_isKeyChar (bare.chars c (by simp [shown])) (by decide)
    simp only [List.append_assoc, List.cons_append, List.nil_append]
    unfold readLine
    split
    · next same =>
      rw [shown] at same
      simp [noBracket] at same
    · next same =>
      obtain ⟨-, rfl⟩ := List.cons.inj same
      rw [key]
      simp only [endLine?_line, Option.map_some]
    · next other => exact absurd rfl (other _)
  opens := ⟨'[', _, rfl, by decide⟩

/-- What begins a bare key begins a line with an entry on it. -/
theorem IsBare.opens {name : String} (bare : IsBare name)
    : ∃ c more, name.toList = c :: more ∧ OpensLine c ∧ c ≠ '[' := by
  obtain ⟨c, more, shown⟩ := List.exists_cons_of_ne_nil bare.more
  have first : isKeyChar c = true := bare.chars c (by simp [shown])
  refine ⟨c, more, shown, ⟨?_, ?_, ?_, ?_⟩, ne_of_isKeyChar first (by decide)⟩
  · simp [isBlank, ne_of_isKeyChar first (by decide : isKeyChar ' ' = false),
      ne_of_isKeyChar first (by decide : isKeyChar '\t' = false)]
  all_goals exact ne_of_isKeyChar first (by decide)

/-- An entry is read as its value is, and only the end of the line may stand behind it. -/
theorem readLine_entry {key : String} (bare : IsBare key) {c : Char} (solid : isBlank c = false)
    (text : List Char)
    : readLine (key.toList ++ ' ' :: '=' :: ' ' :: c :: text)
      = (readValue (2 * ((' ' :: c :: text).length + 1)) maxDepth (c :: text)).bind fun read =>
          (endLine? read.2).map fun rest => (.entry [] key read.1, rest) := by
  have starts : skipBlanks (' ' :: c :: text) = c :: text := by
    unfold skipBlanks
    rw [List.dropWhile_cons_of_pos (by decide), List.dropWhile_cons_of_neg (by simp [solid])]
  have named : readKey maxDepth (key.toList ++ ' ' :: '=' :: ' ' :: c :: text)
      = some (([], key), '=' :: ' ' :: c :: text) :=
    readKey_bare bare ⟨' ', _, rfl, by decide⟩ (by simp [skipBlanks, isBlank])
  obtain ⟨d, later, shown, -, noBracket⟩ := bare.opens
  unfold readLine
  split
  · next same =>
    rw [shown] at same
    exact absurd (List.cons.inj same).1 noBracket
  · next same =>
    rw [shown] at same
    exact absurd (List.cons.inj same).1 noBracket
  · rw [named]
    simp only [starts]
    cases readValue (2 * ((' ' :: c :: text).length + 1)) maxDepth (c :: text) <;> rfl

/-- An entry is a line. -/
theorem writesLine_entry {key : String} (bare : IsBare key) {text : List Char} {value : Value}
    (read : ReadsAs text value)
    : WritesLine (Config.entryText key text) (.entry [] key value) where
  reads := by
    intro rest
    obtain ⟨c, more, rfl, solid⟩ := read.opens
    have value := read.reads (2 * ((' ' :: c :: (more ++ '\n' :: rest)).length + 1)) rest
      (by simp only [List.length_cons, List.length_append]; omega)
    rw [List.cons_append] at value
    simp only [Config.entryText, List.append_assoc, List.cons_append, List.nil_append]
    rw [readLine_entry bare solid, value, Option.bind_some, endLine?_line, Option.map_some]
  opens := by
    obtain ⟨c, later, shown, opens, -⟩ := bare.opens
    exact ⟨c, later ++ (' ' :: '=' :: ' ' :: text ++ ['\n']), by simp [Config.entryText, shown],
      opens⟩

/-- A text of written lines, with empty lines before some of them. -/
inductive WritesLines : List Char → List Line → Prop
  | nil : WritesLines [] []
  | empty {text lines} (later : WritesLines text lines) : WritesLines ('\n' :: text) lines
  | line {text line more lines} (first : WritesLine text line) (later : WritesLines more lines)
    : WritesLines (text ++ more) (line :: lines)

theorem WritesLines.append {text more : List Char} {lines further : List Line}
    (written : WritesLines text lines) (later : WritesLines more further)
    : WritesLines (text ++ more) (lines ++ further) := by
  induction written with
  | nil => exact later
  | empty _ ih => exact .empty ih
  | line first _ ih =>
    rw [List.append_assoc]
    exact .line first ih

/-- Written lines are read one after another, by induction over them. -/
theorem WritesLines.readLinesOf {text : List Char} {lines : List Line}
    (written : WritesLines text lines) {fuel : Nat} (enough : text.length < fuel)
    : readLinesOf fuel text = some lines := by
  induction written generalizing fuel with
  | nil =>
    obtain ⟨fuel, rfl⟩ : ∃ n, fuel = n + 1 := ⟨fuel - 1, by omega⟩
    rfl
  | @empty text lines _ ih =>
    obtain ⟨fuel, rfl⟩ : ∃ n, fuel = n + 1 := ⟨fuel - 1, by omega⟩
    have shorter : text.length < fuel + 1 := by
      simp only [List.length_cons] at enough
      omega
    have later := ih shorter
    unfold Toml.readLinesOf at later ⊢
    rwa [List.length_cons, skipLayout_line]
  | @line text line more lines first _ ih =>
    obtain ⟨fuel, rfl⟩ : ∃ n, fuel = n + 1 := ⟨fuel - 1, by omega⟩
    obtain ⟨c, tail, shown, opens⟩ := first.opens
    have shorter : more.length < fuel := by
      rw [shown] at enough
      simp only [List.length_append, List.length_cons] at enough
      omega
    have later := ih shorter
    have stays (fuel : Nat) : skipLayout fuel (text ++ more) = text ++ more := by
      rw [shown]
      exact opens.skipLayout_self fuel _
    unfold Toml.readLinesOf
    rw [stays]
    split
    · next none_ =>
      rw [shown] at none_
      cases none_
    · rw [first.reads more]
      simp only [later, Option.map_some]

/-- A text that begins with no mark is read by its lines. -/
theorem read?_eq {text : String} (unmarked : text.toList.head? ≠ some byteOrderMark)
    : read? text
      = (readLinesOf (text.toList.length + 1) text.toList).bind document? := by
  unfold read?
  cases chars : text.toList with
  | nil => rfl
  | cons c rest =>
      have apart : c ≠ byteOrderMark := by
        rintro rfl
        rw [chars] at unmarked
        exact unmarked rfl
      simp only [if_neg apart]

/-- A text of written lines is read as the document of these lines. -/
theorem WritesLines.read? {text : List Char} {lines : List Line} (written : WritesLines text lines)
    (unmarked : text.head? ≠ some byteOrderMark)
    : read? (String.ofList text) = document? lines := by
  have chars : (String.ofList text).toList = text := String.toList_ofList
  rw [read?_eq (by rwa [chars]), chars, written.readLinesOf (Nat.lt_succ_self _)]
  rfl

-------------------------------------------------------------------------------
-- Documents
-------------------------------------------------------------------------------

/-- The lines of a section: its header, and its entries in order. -/
def sectionLines (section_ : String × Entries) : List Line :=
  .table [] section_.1 :: section_.2.map fun entry => .entry [] entry.1 entry.2

/-- Entries without a key have no value under it. -/
theorem Entries.find?_append {key : String} {entries : Entries}
    (absent : key ∉ entries.map Prod.fst) (more : Entries)
    : Entries.find? key (entries ++ more) = more.find? key := by
  induction entries with
  | nil => rfl
  | cons entry entries ih =>
    have apart : entry.1 ≠ key := fun same => absent (by simp [same])
    rw [List.cons_append, Entries.find?, if_neg apart]
    exact ih fun member => absent (List.mem_cons_of_mem _ member)

theorem Entries.set_append {key : String} {entries : Entries}
    (absent : key ∉ entries.map Prod.fst) (old new : Value)
    : Entries.set key new (entries ++ [(key, old)]) = entries ++ [(key, new)] := by
  induction entries with
  | nil => simp [Entries.set]
  | cons entry entries ih =>
    have apart : entry.1 ≠ key := fun same => absent (by simp [same])
    rw [List.cons_append, Entries.set, if_neg apart,
      ih fun member => absent (List.mem_cons_of_mem _ member)]
    rfl

/-- An entry goes to the end of the table that was opened last. -/
theorem Draft.add?_entry {name key : String} {before done : Entries}
    (opened : name ∉ before.map Prod.fst) (fresh : key ∉ done.map Prod.fst) (value : Value)
    : Draft.add? ⟨before ++ [(name, .table .header done)], [name]⟩ (.entry [] key value)
      = some ⟨before ++ [(name, .table .header (done ++ [(key, value)]))], [name]⟩ := by
  have found : Entries.find? name (before ++ [(name, .table .header done)])
      = some (.table .header done) := by
    rw [Entries.find?_append opened]
    simp [Entries.find?]
  have absent : Entries.find? key done = none := by
    rw [← List.append_nil done, Entries.find?_append fresh]
    rfl
  simp [Draft.add?, Entries.change?, found, Entries.addDotted?, Entries.add?, absent,
    Entries.set_append opened]

/-- The entries of a section go into its table, by induction over them. -/
theorem foldlM_entries {name : String} {before done pairs : Entries}
    (opened : name ∉ before.map Prod.fst) (distinct : ((done ++ pairs).map Prod.fst).Nodup)
    : (pairs.map fun entry => Line.entry [] entry.1 entry.2).foldlM Draft.add?
        ⟨before ++ [(name, .table .header done)], [name]⟩
      = some ⟨before ++ [(name, .table .header (done ++ pairs))], [name]⟩ := by
  induction pairs generalizing done with
  | nil => simp
  | cons entry pairs ih =>
    have fresh : entry.1 ∉ done.map Prod.fst := by
      intro member
      rw [List.map_append, List.nodup_append] at distinct
      exact distinct.2.2 entry.1 member entry.1 (by simp) rfl
    have later := ih (by simpa using distinct : ((done ++ [entry] ++ pairs).map Prod.fst).Nodup)
    rw [List.map_cons, List.foldlM_cons, Draft.add?_entry opened fresh]
    simpa using later

/-- A section comes to the end of the document. -/
theorem foldlM_section {section_ : String × Entries} {draft : Draft}
    (fresh : section_.1 ∉ draft.entries.map Prod.fst) (distinct : (section_.2.map Prod.fst).Nodup)
    : (sectionLines section_).foldlM Draft.add? draft
      = some ⟨draft.entries ++ [(section_.1, .table .header section_.2)], [section_.1]⟩ := by
  have absent : Entries.find? section_.1 draft.entries = none := by
    rw [← List.append_nil draft.entries, Entries.find?_append fresh]
    rfl
  have opened : draft.add? (.table [] section_.1)
      = some ⟨draft.entries ++ [(section_.1, .table .header [])], [section_.1]⟩ := by
    simp [Draft.add?, Entries.change?, Entries.openTable?, absent]
  have keys : (([] ++ section_.2).map Prod.fst).Nodup := by simpa using distinct
  have filled := foldlM_entries fresh keys
  rw [sectionLines, List.foldlM_cons, opened]
  simpa using filled

/-- Sections come to the end of the document one after another, by induction over them. -/
theorem foldlM_sections {sections : List (String × Entries)} {draft : Draft}
    (names : (draft.entries.map Prod.fst ++ sections.map Prod.fst).Nodup)
    (keys : ∀ section_ ∈ sections, (section_.2.map Prod.fst).Nodup)
    : ((sections.flatMap sectionLines).foldlM Draft.add? draft).map Draft.entries
      = some (draft.entries
          ++ sections.map fun section_ => (section_.1, .table .header section_.2)) := by
  induction sections generalizing draft with
  | nil => simp
  | cons first sections ih =>
    have fresh : first.1 ∉ draft.entries.map Prod.fst := by
      intro member
      rw [List.nodup_append] at names
      exact names.2.2 first.1 member first.1 (by simp) rfl
    let next : Draft := ⟨draft.entries ++ [(first.1, .table .header first.2)], [first.1]⟩
    have later : ((sections.flatMap sectionLines).foldlM Draft.add? next).map Draft.entries = _ :=
      ih (by simpa [next] using names)
        fun section_ member => keys section_ (List.mem_cons_of_mem first member)
    rw [List.flatMap_cons, List.foldlM_append,
      foldlM_section fresh (keys first List.mem_cons_self)]
    simpa [next] using later

/-- Sections of different names make the document that has them in order. -/
theorem document?_sections {sections : List (String × Entries)}
    (names : (sections.map Prod.fst).Nodup)
    (keys : ∀ section_ ∈ sections, (section_.2.map Prod.fst).Nodup)
    : document? (sections.flatMap sectionLines)
      = some (sections.map fun section_ => (section_.1, .table .header section_.2)) := by
  have fresh : (Draft.empty.entries.map Prod.fst ++ sections.map Prod.fst).Nodup := by
    simpa [Draft.empty] using names
  exact foldlM_sections fresh keys

/-- Entries as they are written one after another; one that is left out writes nothing. -/
inductive WritesEntries : List (List Char) → Entries → Prop
  | nil : WritesEntries [] []
  | absent {texts entries} (later : WritesEntries texts entries)
    : WritesEntries ([] :: texts) entries
  | entry {key text value texts entries} (bare : IsBare key) (read : ReadsAs text value)
      (later : WritesEntries texts entries)
    : WritesEntries (Config.entryText key text :: texts) ((key, value) :: entries)

/-- An entry that may be left out is there when it has a value. -/
theorem WritesEntries.optional {α : Type} {key : String} (bare : IsBare key) {present : Option α}
    {text : α → List Char} {value : α → Value}
    (read : ∀ a ∈ present, ReadsAs (text a) (value a)) {texts : List (List Char)}
    {entries : Entries} (later : WritesEntries texts entries)
    : WritesEntries (Config.optionalEntry key (present.map text) :: texts)
        ((present.map fun a => (key, value a)).toList ++ entries) := by
  cases present with
  | none => exact .absent later
  | some a => exact .entry bare (read a rfl) later

theorem WritesEntries.writesLines {texts : List (List Char)} {entries : Entries}
    (written : WritesEntries texts entries)
    : WritesLines texts.flatten (entries.map fun entry => .entry [] entry.1 entry.2) := by
  induction written with
  | nil => exact .nil
  | absent _ ih => exact ih
  | entry bare read _ ih => exact .line (writesLine_entry bare read) ih

theorem writesLines_section {name : String} {texts : List (List Char)} {entries : Entries}
    (bare : IsBare name) (written : WritesEntries texts entries)
    : WritesLines (Config.sectionText name texts) (sectionLines (name, entries)) := by
  have header := WritesLines.line (writesLine_header bare) written.writesLines
  simpa [Config.sectionText, sectionLines] using header

/-- Sections with an empty line between any two are written lines, by induction over them. -/
theorem writesLines_intercalate {sections : List (List Char × (String × Entries))}
    (each : ∀ written ∈ sections, WritesLines written.1 (sectionLines written.2))
    : WritesLines (['\n'].intercalate (sections.map Prod.fst))
        ((sections.map Prod.snd).flatMap sectionLines) := by
  induction sections with
  | nil => exact .nil
  | cons first sections ih =>
    have one := each first List.mem_cons_self
    have later := ih fun written member => each written (List.mem_cons_of_mem first member)
    cases sections with
    | nil => simpa [List.intercalate] using one
    | cons second sections =>
      have whole := one.append (.empty later)
      simpa [List.intercalate, List.intersperse] using whole

end Gatehouse.Toml
