import HeaderBridge.Text

namespace HeaderBridge.Text

/-- The row of distances below a row, for one more byte of the first text. The entry to the left is
`left`, the one above it `corner`. -/
def distanceRow (a : UInt8) : Nat → Nat → Text → List Nat → List Nat
  | corner, left, b :: bs, above :: row =>
    let here := if a = b then corner else 1 + min (min left above) corner
    here :: distanceRow a above here bs row
  | _, _, _, _ => []

def distances (t : Text) (s : Text) : List Nat :=
  s.foldl (fun row a =>
    match row with
    | [] => []
    | first :: rest => (first + 1) :: distanceRow a first (first + 1) t rest)
    (List.range (t.length + 1))

def distance (s t : Text) : Nat := (distances t s).getLast?.getD 0

end HeaderBridge.Text
