import PacedFeed.Double

namespace PacedFeed

-- What a report, a setting or an event says, before it is written out in any format.
inductive Datum where
  | flag (value : Bool)
  | count (value : Nat)
  | real (value : Double)
  | name (value : String)
  | group (fields : List (String × Datum))

end PacedFeed
