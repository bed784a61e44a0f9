import DotBackend.Data.CollapsedText
import DotBackend.Workspaces.RecordPatches

/-!
# Settings that validate again

All settings but currencies are brought to one spelling before they are checked. A currency is
cut to size, or checked for letters and digits, before it is upper-cased, so its upper-cased form
may be too long or hold a mark that is neither.
-/

namespace DotBackend.Workspaces

open Data

section Settings

variable (library : Library)

variable {library} {value kept : Json} {currency : String}

variable {settings out : Fields}

end Settings

end DotBackend.Workspaces
