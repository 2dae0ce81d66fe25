import Gatehouse.Audit
import Gatehouse.Proofs.Reminder.Notice
import Gatehouse.Proofs.Time.Written
import Gatehouse.Verification.Gate

/-! Texts in lines. A text that is put together from lines falls into these lines again, for
nothing that is written on a line begins a new one.
-/

namespace Gatehouse

/-- A piece of text that stays on one line. -/
def SingleLine (text : List Char) : Prop :=
  ∀ c ∈ text, c ≠ '\n' ∧ c ≠ '\r'

namespace SingleLine

theorem append {text more : List Char} (first : SingleLine text) (second : SingleLine more)
    : SingleLine (text ++ more) := by
  intro c member
  exact (List.mem_append.mp member).elim (first c) (second c)

theorem cons {c : Char} {text : List Char} (first : c ≠ '\n' ∧ c ≠ '\r')
    (second : SingleLine text)
    : SingleLine (c :: text) := by
  intro d member
  rcases List.mem_cons.mp member with rfl | later
  · exact first
  · exact second d later

theorem string_append {text more : String} (first : SingleLine text.toList)
    (second : SingleLine more.toList)
    : SingleLine (text ++ more).toList := by
  rw [String.toList_append]
  exact append first second

instance (text : List Char) : Decidable (SingleLine text) :=
  decidable_of_iff (text.all fun c => c != '\n' && c != '\r') (by simp [SingleLine])

/-- A digit stays on its line. -/
theorem of_isDigit {text : List Char} (digits : ∀ c ∈ text, Numeral.isDigit c = true)
    : SingleLine text := by
  intro c member
  have digit := digits c member
  constructor
  · rintro rfl
    cases digit
  · rintro rfl
    cases digit

theorem digits (n : Nat)
    : SingleLine (Numeral.digits n) :=
  of_isDigit fun _ => Numeral.isDigit_of_mem

theorem numeral (n : Nat)
    : SingleLine (Numeral.text n).toList := by
  unfold Numeral.text
  rw [String.toList_ofList]
  exact digits n

theorem padded (width n : Nat)
    : SingleLine (Numeral.padded width n) := by
  refine append (fun c member => ?_) (digits n)
  rw [List.eq_of_mem_replicate member]
  decide

theorem mention (role : RoleId)
    : SingleLine role.mention.toList := by
  exact string_append (string_append (by decide) (numeral _)) (by decide)

/-- An instant is written on one line. -/
theorem offsetText (at_ : Instant)
    : SingleLine at_.offsetText.toList := by
  unfold Instant.offsetText
  rw [String.toList_ofList]
  have marks : SingleLine ['-', '+', 'T', ':', '.'] := by decide
  refine append (Instant.forall_mem_clockText (fun c digit => ?_) marks at_) (by decide)
  exact of_isDigit (List.forall_mem_singleton.mpr digit) c List.mem_cons_self

/-- A double with fixed places is written on one line. -/
theorem fixedText (x : Float) (places : Nat)
    : SingleLine (Decimal.fixedText x places).toList := by
  have sign : SingleLine (if Decimal.isNegative x then ['-'] else []) := by
    split <;> decide
  unfold Decimal.fixedText
  dsimp only
  split
  · decide
  · rw [String.toList_ofList]
    exact sign.append (by decide)
  · rw [String.toList_ofList]
    exact sign.append ((digits _).append (cons (by decide) (padded _ _)))

end SingleLine

-------------------------------------------------------------------------------
-- Falling into lines
-------------------------------------------------------------------------------

namespace AuditSink

/-- What stays on a line is added to the line begun, by induction over it. -/
theorem cut_append {text : List Char} (single : SingleLine text) (line rest : List Char)
    : lines.cut line (text ++ rest) = lines.cut (text.reverse ++ line) rest := by
  induction text generalizing line with
  | nil => rfl
  | cons c later ih =>
      have here := (single c List.mem_cons_self).1
      have after : SingleLine later := fun d member => single d (List.mem_cons_of_mem _ member)
      have step
          : lines.cut line (c :: (later ++ rest)) = lines.cut (c :: line) (later ++ rest) := by
        rw [lines.cut]
        exact here
      rw [List.reverse_cons, List.append_assoc, List.singleton_append, ← ih after (c :: line),
        List.cons_append, step]

/-- A line that is ended is the first line of the text. -/
theorem lines_line {text : List Char} (single : SingleLine text) (rest : List Char)
    : lines (text ++ '\n' :: rest) = text :: lines rest := by
  unfold lines
  rw [cut_append single, List.append_nil, lines.cut, List.reverse_reverse]
  intro before same
  have member : '\r' ∈ text := List.mem_reverse.mp (same ▸ List.mem_cons_self)
  exact (single '\r' member).2 rfl

/-- A line that is begun and not ended is the last line of the text. -/
theorem lines_last {text : List Char} (single : SingleLine text) (begun : text ≠ [])
    : lines text = [text] := by
  have whole := cut_append single [] []
  rw [List.append_nil, List.append_nil] at whole
  unfold lines
  rw [whole, lines.cut, if_neg, List.reverse_reverse]
  simp [begun]

/-- Lines that are ended each are the lines of their text, by induction over them. -/
theorem lines_flatMap {whole : List (List Char)} (single : ∀ line ∈ whole, SingleLine line)
    (rest : List Char)
    : lines ((whole.flatMap fun line => line ++ ['\n']) ++ rest) = whole ++ lines rest := by
  induction whole with
  | nil => rfl
  | cons line later ih =>
      rw [List.flatMap_cons, List.append_assoc, List.append_assoc, List.singleton_append,
        lines_line (single line List.mem_cons_self),
        ih fun other member => single other (List.mem_cons_of_mem _ member), List.cons_append]

end AuditSink

end Gatehouse
