import MsrSafe.Lib.Mask

/-! Snapshots of a store of words: a snapshot holds a value for some of the keys,
and putting it back changes only the bits of the masks. Putting back is an
action of the snapshots. -/

namespace Snapshot

variable {K : Type} {w : Nat} (mask : K → BitVec w)

def empty : K → Option (BitVec w) := fun _ => none

variable {mask} {snapshot : K → Option (BitVec w)} {store : K → BitVec w} {k : K}

end Snapshot
