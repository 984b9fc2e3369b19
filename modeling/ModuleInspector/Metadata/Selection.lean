/-!
# Member selection

Which members an enumeration shows: a member passes when its visibility and its storage are both
asked for, and inherited members take part unless only declared ones are.
-/

namespace ModuleInspector

/-- The members an enumeration asks for. -/
structure Selection where
  declaredOnly : Bool
  instances : Bool
  statics : Bool
  publics : Bool
  nonPublics : Bool
  deriving DecidableEq

namespace Selection

/-- The selection of a mask; bits without a meaning are dropped. -/
def ofBits (bits : UInt32) : Selection where
  declaredOnly := bits &&& 0x2 != 0
  instances := bits &&& 0x4 != 0
  statics := bits &&& 0x8 != 0
  publics := bits &&& 0x10 != 0
  nonPublics := bits &&& 0x20 != 0

/-- The mask of a selection. -/
def bits (s : Selection) : Nat :=
  (if s.declaredOnly then 0x2 else 0) + (if s.instances then 0x4 else 0) +
    (if s.statics then 0x8 else 0) + (if s.publics then 0x10 else 0) +
    (if s.nonPublics then 0x20 else 0)

/-- Public instance and static members with the inherited ones, and the others on request. -/
def forVisibility (includeNonPublic : Bool) : Selection where
  declaredOnly := false
  instances := true
  statics := true
  publics := true
  nonPublics := includeNonPublic

/-- Whether a member with this visibility and storage is selected. -/
def selects (s : Selection) (isPublic isStatic : Bool) : Bool :=
  (if isPublic then s.publics else s.nonPublics) && (if isStatic then s.statics else s.instances)

end Selection

end ModuleInspector
