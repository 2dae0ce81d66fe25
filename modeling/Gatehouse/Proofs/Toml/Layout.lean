import Gatehouse.Proofs.Toml.Document

/-! Documents with comments. Layout between lines is skipped whatever fuel is left for it, so a text
of comments, empty lines and written lines is read line by line up to whatever stands behind them.
-/

namespace Gatehouse.Toml

-------------------------------------------------------------------------------
-- Layout is skipped
-------------------------------------------------------------------------------

theorem skipBlanks_length_le (text : List Char)
    : (skipBlanks text).length ≤ text.length :=
  (List.dropWhile_suffix isBlank).length_le

/-- Behind a line end less is left, unless nothing was. -/
theorem afterLineEnd?_length {text rest : List Char} (ends : afterLineEnd? text = some rest)
    : rest.length ≤ text.length ∧ (text ≠ [] → rest.length < text.length) := by
  unfold afterLineEnd? at ends
  split at ends
  · cases ends
    exact ⟨Nat.le_refl 0, fun more => absurd rfl more⟩
  · cases ends
    simp
  · cases ends
    simp only [List.length_cons]
    omega
  · cases ends

/-- The end of a line takes something off, by cases on whether a comment stands before it. -/
theorem endLine?_length {text rest : List Char} (ends : endLine? text = some rest)
    (more : text ≠ [])
    : rest.length < text.length := by
  have positive := List.length_pos_iff.mpr more
  have shorter := skipBlanks_length_le text
  unfold endLine? at ends
  split at ends
  · next comment begins =>
    rw [begins, List.length_cons] at shorter
    have plain := (List.dropWhile_suffix isPlain (l := comment)).length_le
    have behind := (afterLineEnd?_length ends).1
    omega
  · next empty =>
    obtain ⟨behind, less⟩ := afterLineEnd?_length ends
    by_cases nothing : skipBlanks text = []
    · rw [nothing] at behind
      exact Nat.lt_of_le_of_lt behind positive
    · exact Nat.lt_of_lt_of_le (less nothing) shorter

/-- Fuel beyond the length of a text makes no difference to its layout, by induction over the
fuel.
-/
theorem skipLayout_eq {n m : Nat} {text : List Char} (long : text.length ≤ n)
    (longer : text.length ≤ m)
    : skipLayout n text = skipLayout m text := by
  have nothing (n : Nat) : skipLayout n [] = [] := by
    cases n with
    | zero => rfl
    | succ n => simp [skipLayout, skipBlanks]
  induction n generalizing m text with
  | zero =>
      rw [List.length_eq_zero_iff.mp (Nat.le_zero.mp long), nothing, nothing]
  | succ n ih =>
      cases m with
      | zero => rw [List.length_eq_zero_iff.mp (Nat.le_zero.mp longer), nothing, nothing]
      | succ m =>
          have shorter := skipBlanks_length_le text
          rw [skipLayout, skipLayout]
          split
          · rfl
          · next more =>
            cases ends : endLine? (skipBlanks text) with
            | none => rfl
            | some next =>
                have less := endLine?_length ends (by simpa using more)
                exact ih (by omega) (by omega)

-------------------------------------------------------------------------------
-- Lines in front of a text
-------------------------------------------------------------------------------

/-- A text is read as lines up to a rest, whatever that is read as; each line takes one step of the
reader, and layout takes none.
-/
structure ReadsUpTo (text : List Char) (lines : List Line) (rest : List Char) : Prop where
  reads : ∀ fuel, readLinesOf (fuel + lines.length) text = (readLinesOf fuel rest).map (lines ++ ·)
  length : rest.length + lines.length ≤ text.length

namespace ReadsUpTo

variable {text more rest : List Char} {lines further : List Line}

theorem refl (text : List Char)
    : ReadsUpTo text [] text where
  reads := by
    intro fuel
    simp
  length := Nat.le_refl _

theorem trans (first : ReadsUpTo text lines more) (later : ReadsUpTo more further rest)
    : ReadsUpTo text (lines ++ further) rest where
  reads := by
    intro fuel
    have steps : fuel + (lines ++ further).length = fuel + further.length + lines.length := by
      rw [List.length_append]
      omega
    rw [steps, first.reads, later.reads]
    simp [Function.comp_def]
  length := by
    have one := first.length
    have two := later.length
    rw [List.length_append]
    omega

/-- Layout in front of a text changes nothing about how it is read. -/
theorem layout {front : List Char}
    (skips : ∀ n rest, skipLayout (n + 1) (front ++ rest) = skipLayout n rest)
    (some_ : front ≠ []) (later : ReadsUpTo text lines rest)
    : ReadsUpTo (front ++ text) lines rest where
  reads := by
    intro fuel
    rw [← later.reads]
    cases fuel + lines.length with
    | zero => rfl
    | succ fuel =>
        have positive := List.length_pos_iff.mpr some_
        obtain ⟨extra, length⟩ : ∃ extra, (front ++ text).length = text.length + extra + 1 :=
          ⟨front.length - 1, by rw [List.length_append]; omega⟩
        rw [readLinesOf, readLinesOf, length, skips,
          skipLayout_eq (Nat.le_add_right _ extra) (Nat.le_refl _)]
  length := by
    have short := later.length
    rw [List.length_append]
    omega

theorem empty (later : ReadsUpTo text lines rest)
    : ReadsUpTo ("\n".toList ++ text) lines rest :=
  later.layout (fun n rest => skipLayout_line n rest) (by simp)

/-- A comment is passed over with the end of its line. -/
theorem comment {words : List Char} (plain : words.dropLast.all isPlain = true)
    (ends : words.getLast? = some '\n') (later : ReadsUpTo text lines rest)
    : ReadsUpTo ((String.ofList ('#' :: words)).toList ++ text) lines rest := by
  obtain ⟨own, rfl⟩ := List.getLast?_eq_some_iff.mp ends
  rw [List.dropLast_concat] at plain
  rw [String.toList_ofList]
  refine later.layout (fun n rest => ?_) (by simp)
  have passed : (own ++ '\n' :: rest).dropWhile isPlain = '\n' :: rest := by
    rw [List.dropWhile_append_of_pos (List.all_eq_true.mp plain),
      List.dropWhile_cons_of_neg (by decide)]
  have begins (words : List Char) : skipBlanks ('#' :: words) = '#' :: words :=
    List.dropWhile_cons_of_neg (by decide)
  have behind : endLine? ('#' :: (own ++ '\n' :: rest)) = some rest := by
    rw [endLine?, begins]
    simp only [passed]
    rfl
  have shown : '#' :: (own ++ ['\n']) ++ rest = '#' :: (own ++ '\n' :: rest) := by simp
  rw [shown, skipLayout]
  simp only [begins, List.isEmpty_cons, Bool.false_eq_true, if_false, behind]

/-- A written line is read in one step. -/
theorem line {front : List Char} {line : Line} (written : WritesLine front line)
    (later : ReadsUpTo text lines rest)
    : ReadsUpTo (front ++ text) (line :: lines) rest where
  reads := by
    intro fuel
    obtain ⟨c, tail, rfl, opens⟩ := written.opens
    have stays (n : Nat) : skipLayout n (c :: tail ++ text) = c :: tail ++ text :=
      opens.skipLayout_self n _
    rw [List.length_cons, ← Nat.add_assoc, readLinesOf, stays]
    simp only [List.cons_append]
    rw [← List.cons_append, written.reads]
    simp only [later.reads, Option.map_map]
    rfl
  length := by
    obtain ⟨c, tail, rfl, -⟩ := written.opens
    have short := later.length
    simp only [List.length_cons, List.length_append]
    omega

theorem header {name : String} {chars : List Char} (bare : IsBare name)
    (shown : chars = '[' :: name.toList ++ [']', '\n']) (later : ReadsUpTo text lines rest)
    : ReadsUpTo ((String.ofList chars).toList ++ text) (.table [] name :: lines) rest := by
  subst shown
  rw [String.toList_ofList]
  exact later.line (writesLine_header bare)

theorem entry {key : String} {chars written : List Char} {value : Value} (bare : IsBare key)
    (read : ReadsAs written value) (shown : chars = Config.entryText key written)
    (later : ReadsUpTo text lines rest)
    : ReadsUpTo ((String.ofList chars).toList ++ text) (.entry [] key value :: lines) rest := by
  subst shown
  rw [String.toList_ofList]
  exact later.line (writesLine_entry bare read)

/-- A text that is read to its end is read as its lines. -/
theorem readLinesOf_eq (whole : ReadsUpTo text lines [])
    : readLinesOf (text.length + 1) text = some lines := by
  have short := whole.length
  obtain ⟨spare, steps⟩ : ∃ spare, text.length + 1 = spare + 1 + lines.length :=
    ⟨text.length - lines.length, by omega⟩
  rw [steps, whole.reads, readLinesOf]
  simp [skipLayout]

/-- What stands behind such lines has been read when the whole has. -/
theorem of_readLinesOf {all : List Line} (first : ReadsUpTo text lines rest)
    (read : readLinesOf (text.length + 1) text = some all)
    : ∃ fuel later, readLinesOf (fuel + 1) rest = some later ∧ all = lines ++ later := by
  have short := first.length
  obtain ⟨spare, steps⟩ : ∃ spare, text.length + 1 = spare + 1 + lines.length :=
    ⟨text.length - lines.length, by omega⟩
  rw [steps, first.reads] at read
  obtain ⟨later, found, same⟩ := Option.map_eq_some_iff.mp read
  exact ⟨spare, later, found, same.symm⟩

end ReadsUpTo

/-- When a text goes on with an entry between quotes, and lines are read off it, the first is that
entry, up to the quote that ends it.
-/
theorem exists_of_readLinesOf_quoted {key : String} (bare : IsBare key) {fuel : Nat}
    {text : List Char} {lines : List Line}
    (read : readLinesOf (fuel + 1) (key.toList ++ ' ' :: '=' :: ' ' :: quote :: text) = some lines)
    : ∃ chars left more,
        readQuoted (quote :: text) = some (chars, left)
        ∧ (endLine? left).isSome
        ∧ lines = .entry [] key (.string (String.ofList chars)) :: more := by
  obtain ⟨c, later, shown, opens, -⟩ := bare.opens
  have stays (n : Nat)
      : skipLayout n (key.toList ++ ' ' :: '=' :: ' ' :: quote :: text)
        = key.toList ++ ' ' :: '=' :: ' ' :: quote :: text := by
    rw [shown]
    exact opens.skipLayout_self n _
  have entry := readLine_entry bare (by decide : isBlank quote = false) text
  rw [Nat.mul_succ, readValue_plain (by decide) (by decide), if_pos (by decide)] at entry
  rw [readLinesOf, stays] at read
  split at read
  · next nothing =>
    rw [shown] at nothing
    cases nothing
  · rw [entry] at read
    cases quoted : readQuoted (quote :: text) with
    | none => simp [quoted] at read
    | some found =>
        obtain ⟨chars, left⟩ := found
        rw [quoted] at read
        cases ends : endLine? left with
        | none => simp [ends] at read
        | some behind =>
            simp only [Option.map_some, Option.bind_some, ends] at read
            obtain ⟨more, -, same⟩ := Option.map_eq_some_iff.mp read
            exact ⟨chars, left, more, rfl, by rw [ends]; rfl, same.symm⟩

end Gatehouse.Toml
