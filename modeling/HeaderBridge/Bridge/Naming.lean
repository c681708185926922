import HeaderBridge.Fault.Kinds
import HeaderBridge.Text.Category

namespace HeaderBridge

inductive Naming
  /-- Appends the suffix: `IShape` becomes `IShapeBridge`. -/
  | append (suffix : Text)
  /-- Drops the marker first, if an upper-case letter follows it: `IWork` becomes `WorkBridge`, and
  `Item` stays `ItemBridge`. -/
  | strip (marker suffix : Text)
deriving Repr, DecidableEq

namespace Naming

def defaultSuffix : Text := "Bridge"

def defaultMarker : Text := "I"

def startsUpper : Text → Bool
  | [] => false
  | a :: rest => Text.isUpper (Text.firstChar a rest).1

def bridgeName : Naming → Text → Text
  | append suffix, name => name ++ suffix
  | strip marker suffix, name =>
    match Text.after? marker name with
    | some rest => if !marker.isEmpty && startsUpper rest then rest ++ suffix else name ++ suffix
    | none => name ++ suffix

def named (kind marker suffix : Text) : Except Fault Naming :=
  if kind.isEmpty || kind == ("suffix" : Text) then .ok (append suffix)
  else if kind == ("strip-prefix" : Text) then .ok (strip marker suffix)
  else .error <| .ofNotice <|
    (Notice.configuration "naming" ("unknown naming convention " ++ Text.quoted kind)).hint
      "Use \"suffix\" or \"strip-prefix\""

end Naming

inductive Style
  /-- Checks for an implementation before every call and falls back to a default value. -/
  | guarded
  | direct
deriving Repr, DecidableEq

namespace Style

def name : Style → Text
  | guarded => "guarded"
  | direct => "direct"

def named (name : Text) : Except Fault Style :=
  if name.isEmpty || name == guarded.name then .ok guarded
  else if name == direct.name then .ok direct
  else .error <| .ofNotice <|
    (Notice.configuration "style" ("unknown forwarding style " ++ Text.quoted name)).hint
      "Use \"guarded\" or \"direct\""

end Style
end HeaderBridge
