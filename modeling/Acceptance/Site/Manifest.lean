import Acceptance.Site.Form
import Acceptance.Yaml

/-!
# Site descriptors in manifests
-/

namespace Acceptance

/-- Reads the descriptor from the text of a manifest. -/
def Site.ofManifest (text : String) : Except Error Site :=
  match Yaml.parse? text with
  | some object => Site.ofObject object
  | none => .error (.serialization "malformed manifest")

end Acceptance
