/-
**The two roles a host operation addresses.**
-/

namespace IrohTunnel.Ownership

inductive Role
  | serve | access
  deriving DecidableEq, Repr

def Role.name : Role → String
  | .serve => "serve"
  | .access => "access"

def otherRole : Role → Role
  | .serve => .access
  | .access => .serve

theorem otherRole_ne (role : Role) : otherRole role ≠ role := by
  cases role <;> exact Role.noConfusion

end IrohTunnel.Ownership
