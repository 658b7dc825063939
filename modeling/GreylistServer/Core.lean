/-
The verdicts of the policy chain and the remarks that travel with them.
-/
import GreylistServer.Triplet

namespace GreylistServer

/-- `dunno` and `defer` stop the chain, `cont` passes on to the next module. -/
inductive ActionType where
  | dunno
  | defer
  | cont
  | error
deriving Repr, DecidableEq

/-- Remarks for the reply and the log. -/
structure Extra where
  comment : Str := []
  prefixText : Str := []
  diff : Nat := 0
  count : Nat := 0
deriving Repr, DecidableEq

namespace Extra

def setComment (extra : Extra) (c : Str) : Extra :=
  { extra with comment := c }

def setPrefix (extra : Extra) (p : Str) : Extra :=
  { extra with prefixText := p }

def set (extra : Extra) (p : Str) (c t : Nat) : Extra :=
  { extra with prefixText := p, count := c, diff := t }

end Extra

/-- What a policy leaves behind: its verdict or exception, the remarks and the
triplet with the members it has filled. -/
structure Outcome where
  action : Except Error ActionType
  extra : Extra
  triplet : Triplet

end GreylistServer
