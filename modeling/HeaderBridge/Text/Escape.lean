import HeaderBridge.Text.Integer

namespace HeaderBridge.Text

def codeWidth (b : UInt8) : Nat :=
  if b == 'x' then 2 else if b == 'u' then 4 else if b == 'U' then 8 else 0

def codeChar? (digits : Text) : Option Char :=
  ((Text.digitsValue? 16 digits).filter fun n => decide n.isValidChar).map Char.ofNat

end HeaderBridge.Text
