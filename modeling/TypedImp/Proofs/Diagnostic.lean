import TypedImp.Proofs.Failures
import TypedImp.Proofs.Source.Lines

/-!
# Diagnostics point at failures

A failure of a source lies in it, and its diagnostic shows the line in which the failure begins,
with marks below the characters of this line that belong to it.
-/

namespace TypedImp

namespace Diagnostic

end Diagnostic

end TypedImp
