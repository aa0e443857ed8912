/-!
# Why a text is no instant
-/

namespace SchemaForge

/-- Why a text is refused as a date and time. -/
inductive InstantError
  | tooShort
  | invalid
  | outOfRange
  | tooLong
  | impossible
  deriving DecidableEq, Repr

/-- The words for a cause. -/
def InstantError.message : InstantError → String
  | tooShort => "premature end of input"
  | invalid => "input contains invalid characters"
  | outOfRange => "input is out of range"
  | tooLong => "trailing input"
  | impossible => "no possible date and time matching input"

end SchemaForge
