import Gatehouse.Time.Timer

/-! Tickers. A tick is due a period after the one before; when it is taken more than a little late,
the next one is due a period after it was taken. Where a ticker cannot be had, the program panics.
-/

namespace Gatehouse

/-- A ticker, with the time in nanoseconds at which its next tick is due. -/
structure Ticker where
  due : Nat
  period : Duration
deriving DecidableEq, Repr

namespace Ticker

/-- The first tick is due at once. There is no ticker without a period. -/
def start? (now : Nat) (period : Duration) : Option Ticker :=
  if period.isZero then none else some ⟨now, period⟩

/-- A tick taken so much later than it was due is still in time. -/
def patience : Nat := 5000000

/-- Take a tick. The one after a late tick has to be at a time that can be told, while the one
after a tick in time is else due thirty years on.
-/
def take? (ticker : Ticker) (now : Nat) : Option Ticker :=
  if ticker.due + patience < now then
    (Timer.after? now ticker.period).map ({ ticker with due := · })
  else
    some { ticker with
      due := (Timer.after? ticker.due ticker.period).getD (now + Timer.farFuture.nanos) }

end Ticker

end Gatehouse
