import HeaderBridge.Text

namespace HeaderBridge.Text

def sixBits? (b : UInt8) : Option Nat :=
  if 'A' ≤ b && b ≤ 'Z' then some (b.toNat - 65)
  else if 'a' ≤ b && b ≤ 'z' then some (b.toNat - 71)
  else if isDigitByte b then some (b.toNat + 4)
  else if b == '+' then some 62
  else if b == '/' then some 63
  else none

def base64Groups : Text → Option Text
  | [] => some []
  | [a, b, c, d] => do
    let high := (← sixBits? a) * 64 + (← sixBits? b)
    if c == '=' && d == '=' then return [(high / 16).toUInt8]
    let middle := high * 64 + (← sixBits? c)
    if d == '=' then return [(middle / 1024).toUInt8, (middle / 4).toUInt8]
    let whole := middle * 64 + (← sixBits? d)
    return [(whole / 65536).toUInt8, (whole / 256).toUInt8, whole.toUInt8]
  | a :: b :: c :: d :: rest => do
    let group :=
      (((← sixBits? a) * 64 + (← sixBits? b)) * 64 + (← sixBits? c)) * 64 + (← sixBits? d)
    return (group / 65536).toUInt8 :: (group / 256).toUInt8 :: group.toUInt8 ::
      (← base64Groups rest)
  | _ => none

def ofBase64? (t : Text) : Option Text :=
  base64Groups (t.filter fun b => b != newline && b != ('\r' : Char).toUInt8)

end HeaderBridge.Text
