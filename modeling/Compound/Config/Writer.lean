import Compound.Config.Reader

/-!
Writing a configuration: one object with every field, in the order of the fields and
without blanks.
-/
namespace Compound.Config

def writeBool (b : Bool) : String := if b then "true" else "false"

/-- Members between braces. -/
def writeObject (members : List (String × String)) : String :=
  "\x7b" ++ ",".intercalate (members.map fun m => "\"" ++ m.1 ++ "\":" ++ m.2) ++ "\x7d"

def writeCapabilities (caps : Capabilities) : String :=
  writeObject (Capability.all.map fun c => (c.field, writeBool (caps.has c)))

def write (config : Config) : String :=
  writeObject
    [(Field.capabilities.label, writeCapabilities config.capabilities),
      (Field.autoReclaim.label, writeBool config.autoReclaim)]

end Compound.Config
