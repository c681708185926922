import HeaderBridge.Text

namespace HeaderBridge

namespace Template

structure Pair where
  name : Text
  description : Text
  declaration : Text
  definition : Text
deriving Repr, DecidableEq

def marker : Text := "// Auto generated file"

def declarationSuffix : Text := ".h.tmpl"

def definitionSuffix : Text := ".cpp.tmpl"

def declarationName (pair : Text) : Text := pair ++ declarationSuffix

def definitionName (pair : Text) : Text := pair ++ definitionSuffix

namespace Pair

def slot (field : String) : Text := "\x7b\x7b." ++ Text.ofString field ++ "\x7d\x7d"

def bridge : Text := slot "BridgeName"

def page (lines : List Text) : Text := (marker :: lines).flatMap (· ++ [newline])

def uniquePtr : Pair :=
  let held : Text := "std::unique_ptr<" ++ slot "QualifiedInterfaceName" ++ ">"
  { name := "unique-ptr"
    description := "bridge owns the implementation through std::unique_ptr"
    declaration := page
      ["#pragma once",
       "#include <memory>",
       "",
       slot "ForwardDeclaration",
       "",
       "class " ++ bridge ++ " \x7b",
       "public:",
       "    explicit " ++ bridge ++ "(" ++ held ++ "&& impl);",
       "    ~" ++ bridge ++ "();",
       "",
       slot "MethodDeclarations",
       "private:",
       "    " ++ held ++ " impl_;",
       "\x7d;",
       "",
       "// Factory constructor taking the real interface",
       "std::unique_ptr<" ++ bridge ++ "> make" ++ bridge ++ "(" ++ held ++ "&& impl);"]
    definition := page
      ["#include \"" ++ slot "BridgeHeader" ++ "\"",
       "#include \"" ++ slot "InterfaceHeader" ++ "\"",
       "",
       bridge ++ "::" ++ bridge ++ "(" ++ held ++ "&& impl)",
       "    : impl_(std::move(impl)) \x7b\x7d",
       "",
       bridge ++ "::~" ++ bridge ++ "() = default;",
       "",
       slot "MethodDefinitions",
       "",
       "std::unique_ptr<" ++ bridge ++ "> make" ++ bridge ++ "(" ++ held ++ "&& impl) \x7b",
       "    return std::make_unique<" ++ bridge ++ ">(std::move(impl));",
       "\x7d"] }

def sharedPtr : Pair :=
  let held : Text := "std::shared_ptr<" ++ slot "QualifiedInterfaceName" ++ ">"
  { name := "shared-ptr"
    description := "bridge shares the implementation through std::shared_ptr"
    declaration := page
      ["#pragma once",
       "#include <memory>",
       "",
       slot "ForwardDeclaration",
       "",
       "class " ++ bridge ++ " \x7b",
       "public:",
       "    explicit " ++ bridge ++ "(" ++ held ++ " impl);",
       "",
       slot "MethodDeclarations",
       "private:",
       "    " ++ held ++ " impl_;",
       "\x7d;",
       "",
       "// Factory constructor sharing the real interface",
       "std::shared_ptr<" ++ bridge ++ "> make" ++ bridge ++ "(" ++ held ++ " impl);"]
    definition := page
      ["#include \"" ++ slot "BridgeHeader" ++ "\"",
       "#include \"" ++ slot "InterfaceHeader" ++ "\"",
       "",
       "#include <utility>",
       "",
       bridge ++ "::" ++ bridge ++ "(" ++ held ++ " impl)",
       "    : impl_(std::move(impl)) \x7b\x7d",
       "",
       slot "MethodDefinitions",
       "",
       "std::shared_ptr<" ++ bridge ++ "> make" ++ bridge ++ "(" ++ held ++ " impl) \x7b",
       "    return std::make_shared<" ++ bridge ++ ">(std::move(impl));",
       "\x7d"] }

/-- The pairs that need no template files, by name. -/
def builtIn : List Pair := [sharedPtr, uniquePtr]

def default : Text := "unique-ptr"

def named? (name : Text) : Option Pair := builtIn.find? (·.name == name)

def absence (name : Text) : Text := "template pair not found: " ++ name

end Pair
end Template
end HeaderBridge
