import MacroFamilies.Query
import MacroFamilies.Template.Basic
import MacroFamilies.Text.Replace
/-!
# Template stores

A template store is a directory whose files are templates. A template is called by the path that
leads to it from the store.
-/

namespace MacroFamilies

/-- The templates below a directory. -/
structure TemplateStore where
  root : String
  deriving DecidableEq, Repr

namespace TemplateStore

/-- How a store calls the file that names lead to; backslashes count as slashes. -/
def templateName (names : Location) : String :=
  String.ofList (Text.replaceChar '\\' '/' ("/".intercalate names).toList)

def unsearchable (s : TemplateStore) (fault : SystemFault) : Diagnostic :=
  let cause := "IO error for operation on " ++ s.root ++ ": " ++ fault.text
  { kind := .io
    message := "failed to walk '" ++ s.root ++ "': " ++ cause
    cause := some cause }

def discover (s : TemplateStore) : Inquiry (List String) := do
  match ← Inquiry.listFiles s.root with
  | .ok files => return (files.map templateName).mergeSort
  | .error fault => throw (s.unsearchable fault)

def inventory (s : TemplateStore) (found : Except Diagnostic (List String)) : String :=
  match found with
  | .ok (name :: names) => "templates found in '" ++ s.root ++ "': " ++ commaList (name :: names)
  | _ => "no templates found in '" ++ s.root ++ "'"

/-- Reads the template of a name. If its file cannot be read, the help line says which templates
there are. -/
def load (s : TemplateStore) (name : String) : Inquiry Template := do
  let path := Path.join s.root name
  match ← Inquiry.readText path with
  | .ok text => .ofExcept (Template.parse name text)
  | .error fault =>
    let help := s.inventory (← s.discover.attempt)
    throw (.io "read template" path fault.text help)

end TemplateStore

end MacroFamilies
