import DotBackend.Workspaces.StableSettings

/-!
# When an accepted app can be loaded

A stored specification is validated whenever it is read. It is accepted as it is exactly when the
upper-cased currencies of its modules are currencies themselves, and then every module of it is
found for the records that belong to it.
-/

namespace DotBackend.Workspaces

open Data

section Modules

variable {library : Library} {module : AppModule} {seen : List String} {rawModule : Json}

end Modules

/-! ## A letter that is upper-cased to two -/

end DotBackend.Workspaces
