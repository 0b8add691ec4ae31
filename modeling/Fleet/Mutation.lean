import Fleet.Access
import Fleet.Registry
import Fleet.Source

/-!
# Why a mutation is refused

The causes for which provisioning or removing by hand comes to nothing.
-/

namespace Fleet

inductive MutationError where
  | denied (error : PermissionDenied)
  | unknownSource (name : String)
  | unsupportedLabel (source : SourceName) (label : Option Label)
  | zeroWorkload
  | request (error : RequestError)
  | registry (error : RegistryError)

def MutationError.message : MutationError → String
  | .denied e => e.message
  | .unknownSource name => "unknown capacity source: " ++ name
  | .unsupportedLabel source label =>
    "source " ++ source.text ++ " cannot provision label " ++ Label.display label
  | .zeroWorkload => "excess workload must be at least 1"
  | .request e => e.message
  | .registry e => e.message

end Fleet
