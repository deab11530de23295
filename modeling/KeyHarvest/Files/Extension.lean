/-
The extension of a path: what follows the last dot of its last part, in
lower case. Both kinds of slashes separate parts.
-/
import KeyHarvest.Text.Lower

namespace KeyHarvest

/-- The extension of a path without the dot, empty when there is none. -/
def extensionOf (path : Text) : Text :=
  let slashed := path.map fun (c : CodePoint) => if c = '\\' then CodePoint.ofChar '/' else c
  let part := Text.afterLast '/' slashed
  if part.contains (CodePoint.ofChar '.') then Text.lower (Text.afterLast '.' part) else []

end KeyHarvest
