/-! # Employee accounts

The rows of `platform_users` that every store of the control plane joins.
-/

namespace PlatformClaw

inductive UserStatus where
  | active
  | disabled
  deriving Repr, DecidableEq

inductive GlobalRole where
  | member
  | admin
  deriving Repr, DecidableEq

structure PlatformUserRow where
  id : String
  accountId : String
  displayName : Option String
  status : UserStatus
  globalRole : GlobalRole
  deriving Repr, DecidableEq

end PlatformClaw
