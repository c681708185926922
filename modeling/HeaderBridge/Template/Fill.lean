import HeaderBridge.Fault.Kinds
import HeaderBridge.Template.Execute

namespace HeaderBridge.Template

/-- The text of a template on a value. The fault says whether the template could not be read or
could not be executed; the execution relays what stopped it. -/
def fill (name template : Text) (v : Value) : Except Fault Text :=
  match parse functionNames name template with
  | none => .error (.template name "parse" (some .untold))
  | some ds =>
    match invoke ds (maxDepth + 1) name v with
    | none => .error (.template name "execute" (some (.relayed .untold)))
    | some t => .ok t

end HeaderBridge.Template
