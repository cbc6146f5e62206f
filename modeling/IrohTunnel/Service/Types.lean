/-
**What the service operations share: their errors, and who may install where.**
-/

import IrohTunnel.Library.OsText

namespace IrohTunnel.Service

open IrohTunnel.Library

/-! ### Errors -/

/-- An error of the service operations: a `CliError`, or any other with its contexts, outermost
first. -/
inductive Error
  | config (text : String)
  | permission (text : String)
  | service (text : String)
  | conflict (text : String)
  | other (contexts : List String)
  deriving DecidableEq, Repr

/-- `format!("{e:#}")`. -/
def Error.display : Error → String
  | .config text => "config error: " ++ text
  | .permission text => "permission error: " ++ text
  | .service text => "service error: " ++ text
  | .conflict text => text
  | .other contexts => String.intercalate ": " contexts

/-- What one call of the operating system answers: done, or an error with this text. -/
abbrev Answer := Except String Unit

/-! ### Scopes and environments -/

inductive ServiceScope
  | system | user
  deriving DecidableEq, Repr

/-- What the install-time scope decision depends on. -/
structure Environment where
  elevated : Bool
  canAnswer : Bool
  deriving DecidableEq, Repr

inductive ScopeDecision
  | chosen (scope : ServiceScope)
  | needsChoice
  deriving DecidableEq, Repr

/-- An explicit request wins; otherwise an elevated process installs a system service, and another
one must choose if it can answer. -/
def decideInstallScope (requested : Option ServiceScope) (env : Environment) : ScopeDecision :=
  match requested with
  | some scope => .chosen scope
  | none =>
      if env.elevated then .chosen .system
      else if env.canAnswer then .needsChoice
      else .chosen .user

/-- The command-line flag of a scope. -/
def flag : ServiceScope → String
  | .system => "--system"
  | .user => "--user"

/-- The restart policy that the templates share. -/
structure RestartPolicy where
  onFailure : Bool
  delaySecs : UInt64
  deriving DecidableEq, Repr

def RestartPolicy.DEFAULT : RestartPolicy := { onFailure := true, delaySecs := 5 }

/-- The environment variables of a registration. -/
def ENV_TRUSTED_UID : String := "IROH_TUNNEL_TRUSTED_UID"
def ENV_STATE_DIR : String := "IROH_TUNNEL_STATE_DIR"

end IrohTunnel.Service
