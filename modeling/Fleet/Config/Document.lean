import Fleet.Config.Validation
import Fleet.Toml.Document
import Fleet.Toml.Shape
import Fleet.Toml.Writer

/-!
# Configuration documents

Configurations are written in TOML.  `Config.parse` reads one and validates it; what it
writes with `toToml` it reads back.
-/

namespace Fleet.Config

/-- The configuration that a document describes, not validated yet. -/
def ofToml? (text : String) : Option Config := do
  let document ← Toml.ofString? text
  ofJson? (← shape.ofToml? document)

def parse (text : String) : Except ConfigError Config :=
  match ofToml? text with
  | none => .error .document
  | some c => do
    c.validate
    .ok c

def toToml (c : Config) : String := Toml.write c.toJson

/-- Whether what is written reads back as the same configuration. -/
def readsBack (c : Config) : Bool :=
  match parse c.toToml with
  | .ok c' => c'.toJson.compact == c.toJson.compact
  | .error _ => false

end Fleet.Config
