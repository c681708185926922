import HeaderBridge.Text.Category

namespace HeaderBridge.Text

def hexDigit (n : Nat) : UInt8 := if n < 10 then '0' + n.toUInt8 else 'a' + (n - 10).toUInt8

def hex (width n : Nat) : Text :=
  (List.range width).reverse.map fun i => hexDigit (n / Nat.pow 16 i % 16)

/-- One character between quotes of the kind `quote`. With `ascii` all others are escaped. -/
def escapeCell (ascii : Bool) (quote : Char) (c : Cell) : Text :=
  if c.char = quote || c.char = '\\' then "\\" ++ ofChar c.char
  else if isPrintable c.char && !(c.char = replacement && c.bytes.length = 1) &&
      (!ascii || isAscii c.char) then c.bytes
  else match c.char.toNat with
    | 0x07 => "\\a"
    | 0x08 => "\\b"
    | 0x0C => "\\f"
    | 0x0A => "\\n"
    | 0x0D => "\\r"
    | 0x09 => "\\t"
    | 0x0B => "\\v"
    | n =>
      if c.bytes.length = 1 then "\\x" ++ c.bytes.flatMap fun b => hex 2 b.toNat
      else if n < 0x10000 then "\\u" ++ hex 4 n
      else "\\U" ++ hex 8 n

def quoteWith (ascii : Bool) (quote : Char) (t : Text) : Text :=
  ofChar quote ++ (cells t).flatMap (escapeCell ascii quote) ++ ofChar quote

def quoted (t : Text) : Text := quoteWith false '"' t

end HeaderBridge.Text
