namespace HeaderBridge

abbrev Text := List UInt8

instance charToByte : Coe Char UInt8 := ⟨Char.toUInt8⟩

def newline : UInt8 := '\n'

namespace Text

def ofChar (c : Char) : Text := String.utf8EncodeChar c

def ofChars (cs : List Char) : Text := cs.flatMap ofChar

def ofString (s : String) : Text := ofChars s.toList

instance stringToText : Coe String Text := ⟨ofString⟩

def ofNat (n : Nat) : Text := ofString (toString n)

def ofInt (n : Int) : Text := ofString (toString n)

def replacement : Char := Char.ofNat 0xFFFD

def isContinuation (b : UInt8) : Bool := 0x80 ≤ b && b ≤ 0xBF

/-- The least second byte of a sequence that starts with `a`: overlong forms are excluded. -/
def secondMin (a : UInt8) : UInt8 := if a = 0xE0 then 0xA0 else if a = 0xF0 then 0x90 else 0x80

/-- The greatest second byte of a sequence that starts with `a`: surrogates and code points above
U+10FFFF are excluded. -/
def secondMax (a : UInt8) : UInt8 := if a = 0xED then 0x9F else if a = 0xF4 then 0x8F else 0xBF

def payload (b : UInt8) : Nat := b.toNat % 64

def firstChar (a : UInt8) (rest : Text) : Char × Nat :=
  if a < 0x80 then (Char.ofNat a.toNat, 1)
  else if a < 0xC2 || 0xF4 < a then (replacement, 1)
  else match rest with
    | [] => (replacement, 1)
    | b :: rest =>
      if b < secondMin a || secondMax a < b then (replacement, 1)
      else if a < 0xE0 then (Char.ofNat (a.toNat % 32 * 64 + payload b), 2)
      else match rest with
        | [] => (replacement, 1)
        | c :: rest =>
          if !isContinuation c then (replacement, 1)
          else if a < 0xF0 then (Char.ofNat (a.toNat % 16 * 4096 + payload b * 64 + payload c), 3)
          else match rest with
            | [] => (replacement, 1)
            | d :: _ =>
              if !isContinuation d then (replacement, 1)
              else
                (Char.ofNat
                  (a.toNat % 8 * 262144 + payload b * 4096 + payload c * 64 + payload d), 4)

/-- A character together with the bytes it was read from. -/
structure Cell where
  char : Char
  bytes : Text
deriving Repr, DecidableEq

def cells : Text → List Cell
  | [] => []
  | a :: rest =>
    let first := firstChar a rest
    ⟨first.1, a :: rest.take (first.2 - 1)⟩ :: cells (rest.drop (first.2 - 1))
termination_by t => t.length

/-- The bytes that a list of cells was read from. -/
def ofCells (cs : List Cell) : Text := cs.flatMap Cell.bytes

def chars (t : Text) : List Char := (cells t).map Cell.char

def charCount (t : Text) : Nat := (cells t).length

def isWellFormed (t : Text) : Bool :=
  (cells t).all fun c => c.char != replacement || c.bytes.length != 1

def isBlank (c : Char) : Bool :=
  let n := c.toNat
  (0x09 ≤ n && n ≤ 0x0D) || n == 0x20 || n == 0x85 || n == 0xA0 || n == 0x1680 ||
    (0x2000 ≤ n && n ≤ 0x200A) || n == 0x2028 || n == 0x2029 || n == 0x202F || n == 0x205F ||
      n == 0x3000

def Cell.isBlank (c : Cell) : Bool := Text.isBlank c.char

/-- Puts one cell in front of the words that follow it. The flag says whether the first of those
words starts at the very next cell. -/
def pushCell (c : Cell) : List Text × Bool → List Text × Bool
  | (words, joined) =>
    if c.isBlank then (words, false)
    else match words, joined with
      | w :: rest, true => ((c.bytes ++ w) :: rest, true)
      | words, _ => (c.bytes :: words, true)

/-- The maximal runs of cells that are not blank. -/
def words (t : Text) : List Text := ((cells t).foldr pushCell ([], false)).1

def join (separator : Text) (ts : List Text) : Text := List.intercalate separator ts

/-- Drops blanks at both ends and folds every other run of blanks into one space. -/
def collapse (t : Text) : Text := join " " (words t)

def trimStart (t : Text) : Text := ofCells ((cells t).dropWhile Cell.isBlank)

def trimEnd (t : Text) : Text := ofCells ((cells t).reverse.dropWhile Cell.isBlank).reverse

def trim (t : Text) : Text := trimEnd (trimStart t)

def dropTrailing (b : UInt8) (t : Text) : Text := (t.reverse.dropWhile (· == b)).reverse

/-- Cuts at every byte `b`, which is dropped; there is always one part more than there are cuts. -/
def splitAt (b : UInt8) : Text → List Text
  | [] => [[]]
  | a :: rest =>
    if a = b then [] :: splitAt b rest
    else match splitAt b rest with
      | [] => [[a]]
      | part :: parts => (a :: part) :: parts

def lines (t : Text) : List Text := splitAt newline t

def after? (start t : Text) : Option Text :=
  if start.isPrefixOf t then some (t.drop start.length) else none

def before? (ending t : Text) : Option Text :=
  if ending.isSuffixOf t then some (t.take (t.length - ending.length)) else none

def withoutEnding (ending t : Text) : Text := (before? ending t).getD t

def hasBlock (part : Text) : Text → Bool
  | [] => part.isEmpty
  | a :: rest => part.isPrefixOf (a :: rest) || hasBlock part rest

def slice (t : Text) (first last : Nat) : Text := (t.drop first).take (last - first)

def spaces (n : Nat) : Text := List.replicate n ' '

def le (a b : Text) : Bool := decide (a ≤ b)

def sort (ts : List Text) : List Text := ts.mergeSort le

@[simp] theorem mem_sort {t : Text} {ts : List Text} : t ∈ sort ts ↔ t ∈ ts := List.mem_mergeSort

def orElse (t fallback : Text) : Text := if t.isEmpty then fallback else t

def isDigitByte (b : UInt8) : Bool := '0' ≤ b && b ≤ '9'

def isLetterByte (b : UInt8) : Bool := ('a' ≤ b && b ≤ 'z') || ('A' ≤ b && b ≤ 'Z')

def isNameStart (b : UInt8) : Bool := isLetterByte b || b == '_'

def isNameByte (b : UInt8) : Bool := isNameStart b || isDigitByte b

end Text
end HeaderBridge
