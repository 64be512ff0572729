import Compound.Config.Basic
import Compound.Object
import Compound.Registry.Tag

/-!
Notices are what registries tell a log. Each has a level and a text.
-/
namespace Compound

inductive Notice where
  | primitivesPresent
  | primitivesMissing (missing : List Capability)
  | creating (autoReclaim : Bool)
  | tagged (id : ObjectId) (tag : Tag)
  | registered (box : ObjectId)
  | created (box : ObjectId)
  | released (box : ObjectId)
  | reclaimed (entries objects : Nat)
  | validating (value : String) (cls : Class)
  deriving DecidableEq, Repr

/-- How an identity is written in texts. -/
def idText (id : ObjectId) : String := "#" ++ Decimal.text id

namespace Notice

def level : Notice → String
  | primitivesMissing _ => "error"
  | validating .. => "trace"
  | _ => "debug"

def text : Notice → String
  | primitivesPresent => "host provides all weak-reference primitives"
  | primitivesMissing missing =>
    "host is missing required primitives: ["
      ++ ", ".intercalate (missing.map Capability.name) ++ "]"
  | creating autoReclaim =>
    "creating registry (auto_reclaim: " ++ (if autoReclaim then "true" else "false") ++ ")"
  | tagged id tag => "tagged " ++ idText id ++ " as " ++ tag.display
  | registered box => "registered box " ++ idText box
  | created box => "created box " ++ idText box
  | released box => "released box " ++ idText box
  | reclaimed entries objects =>
    "reclaimed " ++ Decimal.text entries ++ " entries for " ++ Decimal.text objects
      ++ " dropped objects"
  | validating value cls => "validating " ++ value ++ " as " ++ cls.describe

/-- A line of the log. -/
def line (n : Notice) : String := n.level ++ ": " ++ n.text

end Notice

end Compound
