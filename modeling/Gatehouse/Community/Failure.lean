import Gatehouse.Ordered.Rank
import Gatehouse.Text.Numeral

/-! Failures of calls to a chat platform. Each failure has a code of a fixed order, by which
failures of a batch are counted and listed.
-/

namespace Gatehouse

inductive FailureCode
  | rateLimited
  | forbidden
  | notFound
  | unavailable
  | http (status : UInt16)
  | other
deriving DecidableEq, Repr

namespace FailureCode

/-- The place of a code among all. -/
def place : FailureCode → Nat
  | rateLimited => 0
  | forbidden => 1
  | notFound => 2
  | unavailable => 3
  | http status => status.toNat + 4
  | other => UInt16.size + 4

def ofPlace : Nat → FailureCode
  | 0 => rateLimited
  | 1 => forbidden
  | 2 => notFound
  | 3 => unavailable
  | n + 4 => if n < UInt16.size then http (UInt16.ofNat n) else other

/-- A code is found again at its place. -/
theorem ofPlace_place (code : FailureCode)
    : ofPlace code.place = code := by
  cases code with
  | http status => simp [place, ofPlace, status.toNat_lt_size]
  | other => simp [place, ofPlace]
  | rateLimited | forbidden | notFound | unavailable => rfl

/-- Codes go in the order of their constructors, those of HTTP by status. -/
instance : Ranked FailureCode where
  rank := place
  rank_injective {a b} h := by rw [← ofPlace_place a, h, ofPlace_place b]

def ofStatus (status : UInt16) : FailureCode :=
  match status.toNat with
  | 429 => rateLimited
  | 403 => forbidden
  | 404 => notFound
  | 502 | 503 | 504 => unavailable
  | _ => http status

def text : FailureCode → String
  | rateLimited => "rate-limited"
  | forbidden => "forbidden"
  | notFound => "not-found"
  | unavailable => "unavailable"
  | http status => "http-" ++ Numeral.text status.toNat
  | other => "other"

end FailureCode

structure CallFailure where
  code : FailureCode
  message : String
deriving DecidableEq, Repr

namespace CallFailure

def text (failure : CallFailure) : String :=
  failure.code.text ++ ": " ++ failure.message

def notFound (message : String) : CallFailure := ⟨.notFound, message⟩

end CallFailure

/-- The outcome of a call that may fail. -/
abbrev Outcome (α : Type) := Except CallFailure α

end Gatehouse
