/-!
# Filesystem numbers
-/

namespace BucketFs

/-- The number that tells a filesystem instance from every other one. -/
abbrev FsId := Nat

end BucketFs
