/-!
# Scopes

A scope is the name under which deployments compete: the group at the top of a hierarchy of groups.
The device itself and deployments made on the device are scopes too; no group membership stands
behind them.

Specification: A.2, B.6.
-/

namespace Rollout

/-- What starts the name of a scope that is a single device. -/
def deviceStart : String := "thing/"

def localScopeName : String := "LOCAL_DEPLOYMENT"

/-- The name under which deployments compete. -/
structure Scope where
  name : String
  deriving DecidableEq, Repr

/-- Whether a scope does not depend on the membership of the device in groups. -/
def Scope.isExempt (scope : Scope) : Bool :=
  deviceStart.toList.isPrefixOf scope.name.toList || scope.name = localScopeName

end Rollout
