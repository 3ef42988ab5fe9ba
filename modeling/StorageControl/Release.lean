/-
# The release

Under which name and number the program is released.
-/

namespace StorageControl.Release

/-- The name of the program. -/
def name : String := "storage-bridge"

/-- The number of the release. -/
def version : String := "0.2.0"

end StorageControl.Release
