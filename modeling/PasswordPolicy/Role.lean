/-!
# What a list of classes is for

**Required** lists ask for characters: the range of a class is a demand. **Allowed** lists permit
them: the range of a class only caps how many are used.
-/

namespace PasswordPolicy

inductive Role where
  | required
  | allowed
  deriving DecidableEq

end PasswordPolicy
