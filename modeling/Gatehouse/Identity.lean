import Gatehouse.Ordered.Rank
import Gatehouse.Text.Blank
import Gatehouse.Text.Numeral

/-! Identifiers of the things a community consists of. All are 64-bit words, written in decimal;
what a word names is part of its type, so a role cannot stand where a member is meant.
-/

namespace Gatehouse

/-- What an identifier names. -/
inductive Subject
  | community
  | member
  | role
  | channel
  | message

/-- An identifier of a thing of the given kind. -/
structure Id (subject : Subject) where
  word : UInt64
deriving DecidableEq

abbrev CommunityId := Id .community
abbrev MemberId := Id .member
abbrev RoleId := Id .role
abbrev ChannelId := Id .channel
abbrev MessageId := Id .message

namespace Id

variable {subject : Subject}

instance : Inhabited (Id subject) := ⟨⟨0⟩⟩

/-- Identifiers go by their number. -/
instance : Ranked (Id subject) where
  rank id := id.word.toNat
  rank_injective := by
    rintro ⟨a⟩ ⟨b⟩ h
    exact congrArg Id.mk (UInt64.toNat_inj.mp h)

def text (id : Id subject) : String := Numeral.text id.word.toNat

/-- Read an identifier from a text, blanks around it ignored. -/
def read (text : String) : Except Numeral.Fault (Id subject) :=
  (Numeral.readWord (Text.trim text.toList)).map Id.mk

end Id

/-- The role that every member of a community holds; it has the community's number. -/
def CommunityId.everyone (community : CommunityId) : RoleId := ⟨community.word⟩

/-- The markup that addresses everyone who holds a role. -/
def RoleId.mention (role : RoleId) : String :=
  "<@&" ++ role.text ++ ">"

end Gatehouse
