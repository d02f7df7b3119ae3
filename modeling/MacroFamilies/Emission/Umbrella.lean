import MacroFamilies.Artifact
/-!
# The umbrella

One file that includes others, in the order in which they were made.
-/

namespace MacroFamilies.Emission

def umbrella (fileName : String) (members : List Artifact) : Artifact :=
  ⟨fileName, ["#pragma once", ""] ++ members.map fun m => includeLine m.fileName⟩

end MacroFamilies.Emission
