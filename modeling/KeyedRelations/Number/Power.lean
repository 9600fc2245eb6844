/-!
# Powers

Powers of the two bases in which numbers are written: two for patterns, ten for texts.
-/

namespace KeyedRelations

def twoTo (k : Nat) : Nat := Nat.pow 2 k

def tenTo (k : Nat) : Nat := Nat.pow 10 k

end KeyedRelations
