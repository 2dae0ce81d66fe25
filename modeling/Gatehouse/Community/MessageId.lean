import Gatehouse.Identity
import Gatehouse.Time.Instant

/-! Message identifiers tell when their message was posted. The upper 42 bits count milliseconds
since the start of 2015, the lower 22 bits are a sequence number; so identifiers go by time.
-/

namespace Gatehouse.MessageId

/-- The start of 2015 in milliseconds since the start of 1970. -/
def epochMillis : Nat := 1420070400000

/-- The identifiers of one millisecond. -/
def sequences : Nat := Nat.pow 2 22

/-- Milliseconds since the start of 2015; earlier instants count as that start. -/
def millisSinceEpoch (at_ : Instant) : Nat :=
  at_.unixMillis.toNat - epochMillis

/-- The identifier of a message posted at an instant, with the low bits of a running number. -/
def mint (at_ : Instant) (sequence : Nat) : MessageId :=
  ⟨UInt64.ofNat (millisSinceEpoch at_ * sequences + sequence % sequences)⟩

/-- Milliseconds since the start of 1970 that an identifier tells. -/
def unixMillis (id : MessageId) : Nat :=
  id.word.toNat / sequences + epochMillis

/-- When the message was posted, to the millisecond. -/
def createdAt (id : MessageId) : Instant :=
  (Instant.ofUnixMillis? id.unixMillis).getD Instant.epoch

end Gatehouse.MessageId
