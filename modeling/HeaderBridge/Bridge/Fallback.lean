import HeaderBridge.Text

namespace HeaderBridge

def leadingQualifiers : List Text := ["const", "volatile", "constexpr", "static"]

def trailingQualifiers : List Text := ["const", "volatile"]

def dropLeading (t qualifier : Text) : Text := (Text.after? (qualifier ++ " ") t).getD t

/-- A trailing qualifier is one only if it is not the end of a longer name and not the whole
text. -/
def dropTrailing (t qualifier : Text) : Text :=
  match Text.before? qualifier t with
  | some rest => if rest.getLast?.any (!Text.isNameByte ·) then Text.trim rest else t
  | none => t

def dropQualifiers (t : Text) : Text :=
  trailingQualifiers.foldl dropTrailing (leadingQualifiers.foldl dropLeading t)

/-- Drops qualifiers for as long as that shortens the text. -/
def dropAllQualifiers (t : Text) : Text :=
  if (dropQualifiers t).length < t.length then dropAllQualifiers (dropQualifiers t) else t
termination_by t.length

def stripQualifiers (type : Text) : Text := dropAllQualifiers (Text.collapse type)

def integerWords : List Text :=
  ["signed", "unsigned", "short", "int", "long", "char", "wchar_t", "char8_t", "char16_t",
    "char32_t"]

def signMarks : List Text := ["", "u"]

def bitWidths : List Text := ["8", "16", "32", "64"]

def sizedIntegers : List Text :=
  signMarks.flatMap fun u =>
    ((bitWidths ++ (["max", "ptr"] : List Text)).map fun (w : Text) => u ++ "int" ++ w ++ "_t") ++
      ((["fast", "least"] : List Text).flatMap fun k =>
        bitWidths.map fun (w : Text) => u ++ "int_" ++ k ++ w ++ "_t")

def integerNames : List Text := sizedIntegers ++ (["size_t", "ssize_t", "ptrdiff_t"] : List Text)

def isInteger (t : Text) : Bool :=
  integerNames.contains ((Text.after? "std::" t).getD t) ||
    (!(Text.words t).isEmpty && (Text.words t).all integerWords.contains)

def isReference (type : Text) : Bool := ("&" : Text).isSuffixOf (Text.trim type)

def isRvalueReference (type : Text) : Bool := ("&&" : Text).isSuffixOf (Text.trim type)

def isVoid (type : Text) : Bool := stripQualifiers type == ("void" : Text)

/-- The expression for the fallback of a return type, empty for `void`. Types that are not known are
value-initialised. -/
def fallbackValue (type : Text) : Text :=
  let t := stripQualifiers type
  if t == ("void" : Text) then []
  else if isReference t then "std::decay_t<" ++ Text.collapse type ++ ">\x7b\x7d"
  else if ("*" : Text).isSuffixOf t then "nullptr"
  else if t == ("bool" : Text) then "false"
  else if t == ("float" : Text) then "0.0f"
  else if t == ("double" : Text) || t == ("long double" : Text) then "0.0"
  else if isInteger t then "0"
  else t ++ "\x7b\x7d"

end HeaderBridge
