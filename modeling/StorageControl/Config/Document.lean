/-
# Configuration documents

A configuration is kept in a YAML document. What a document leaves out has its default value, and
a blank document leaves out everything.
-/
import StorageControl.Config
import StorageControl.Yaml.Fit

namespace StorageControl.Config

/-- The configuration in a document. -/
def ofDocument (text : String) : Except ConfigFault Config :=
  if Text.isBlankText text then .ok {}
  else
    match (Yaml.Document.parse? text).bind (·.read Config.codec) with
    | none => .error .malformed
    | some c => c.check.map fun _ => c

/-- The configuration in the file at a path, given its content or the reason why it cannot be
read. -/
def ofFile (path : String) (content : Except String String) : Except ConfigFault Config :=
  match content with
  | .error reason => .error (.unreadable path reason)
  | .ok text => ofDocument text

end StorageControl.Config
