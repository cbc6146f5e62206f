/-
**`service install` at a terminal: the questions it asks, and what their answers allow.**

The command asks the installer again after each need it reports, with the answer added to its
request. Between two of its turns other commands may change what is registered and what the system
answers.

* `dialogue_consents` — a system registration is written at most once, and over another account's
  only after that replacement was shown and agreed to at a terminal;
* `dialogue_asks` — no question is put twice, and on a host that nothing else changes the command
  ends within three turns.
-/

import IrohTunnel.Service.Pinned
import Mathlib.Data.List.Chain

namespace IrohTunnel.Service

open IrohTunnel.Library
open IrohTunnel.Config (isWhitespace)
open IrohTunnel.Ownership (Role)

namespace Dialogue

/-! ### One command -/

/-- The scope flags of a command. -/
structure ScopeArgs where
  user : Bool := false
  system : Bool := false

/-- What one `service install` is given by its arguments, its environment and `PATH`. -/
structure Invocation where
  role : Role
  config : Option OsPath := none
  scope : ScopeArgs := {}
  onPath : Option OsPath := none
  currentExe : Except Error OsPath := .error (.other ["failed to resolve current executable"])
  sudoUser : Option String := none
  stateDir : Option OsPath := none

def explicitScope (args : ScopeArgs) : Option ServiceScope :=
  match args.user, args.system with
  | _, true => some .system
  | true, _ => some .user
  | _, _ => none

/-- The executable to register: the one on `PATH`, else the running one. -/
def resolveTunnelExecutableWith (onPath : Option OsPath) (currentExe : Except Error OsPath) :
    Except Error OsPath :=
  match onPath with
  | some path => .ok path
  | none => currentExe

/-- The first request of the loop of `install`. -/
def Invocation.request (given : Invocation) : Except Error InstallRequest := do
  let tunnelExecutable ← resolveTunnelExecutableWith given.onPath given.currentExe
  .ok
    { role := given.role, scope := explicitScope given.scope, config := given.config
      tunnelExecutable, sudoUser := given.sudoUser, invokingUser := none
      stateDirOverride := given.stateDir.filter (· ≠ []), retarget := none }

/-! ### Questions -/

/-- One round of the loop: what the installer finds registered, what the system answers to it, and
what becomes of a prompt. -/
structure Turn where
  found : OsPath → Option String
  calls : Calls
  /-- The prompt is written and flushed. -/
  prompt : Except String Unit := .ok ()
  /-- `read_line`; `none` at the end of the input. -/
  line : Except String (Option String) := .ok none

/-- A question that was put, and the line read as its answer. -/
structure Exchange where
  need : InstallNeed
  question : String
  line : Option String
  deriving DecidableEq, Repr

/-- What a need was answered with, and the question that was put for it, if one was. -/
structure Asked (α : Type) where
  result : Except Error α
  exchanges : List Exchange := []

/-- Put a question and read a line. -/
def Turn.ask {α : Type} (turn : Turn) (need : InstallNeed) (question : String)
    (next : Option String → Except Error α) : Asked α :=
  match turn.prompt, turn.line with
  | .error text, _ => { result := .error (.other [text]) }
  | .ok (), .error text => { result := .error (.other [text]) }
  | .ok (), .ok line => { result := next line, exchanges := [{ need, question, line }] }

def trimmed (answer : String) : List Char := Text.trim isWhitespace answer.toList

/-- `trim().to_ascii_lowercase()`. -/
def normalized (answer : String) : String := String.ofList ((trimmed answer).map Char.toLower)

/-- Map an answer to a scope; empty means user. -/
def parseScopeAnswer (calls : AccountCalls) (answer : String) : Except Error ServiceScope :=
  let other := normalized answer
  if other ∈ ["", "u", "user"] then .ok .user
  else if other ∈ ["s", "system"] then .ok .system
  else .error (.config (s!"unrecognised scope {calls.debug other}; answer `user` or `system`, " ++
    "or pass --user / --system"))

def SCOPE_QUESTION : String :=
  "Install as a `user` service (no privileges, runs for your account) " ++
    "or a `system` service (needs sudo/root)? [user]: "

/-- `ask_scope`. -/
def askScope (turn : Turn) : Asked ServiceScope :=
  turn.ask .scopeChoice SCOPE_QUESTION fun
    | none => .error (.config "no answer to the scope prompt; pass --user or --system")
    | some answer => parseScopeAnswer turn.calls.toAccountCalls answer

/-- `ask_user`: the account of a system install, which Windows has not. -/
def askUser (backend : Backend) (role : Role) (turn : Turn) : Asked String :=
  if backend = .windows then
    { result := .error (.service "system services are not supported on this platform") }
  else
    turn.ask .invokingUser
        "Which user's configuration should the system service use? (user name): " fun
      | none => .error (unknownUser "no answer to the user prompt" role)
      | some answer => .ok (String.ofList (trimmed answer))

/-- The user name of an account; where there is no user database, none is found. -/
def accountName (calls : AccountCalls) (uid : UInt32) : String :=
  (calls.byUid uid).elim "?" Account.name

/-- Whose the registration is that would be replaced. -/
def describePrevious (calls : AccountCalls) : Option Pin → String
  | some pin =>
      s!"user {accountName calls pin.uid} (uid {pin.uid}, config {pin.config.display})"
  | none => "an unknown owner (no pin recorded)"

/-- The question of `confirm_retarget`. -/
def retargetQuestion (calls : AccountCalls) (previous : Option Pin) (proposed : Pin) : String :=
  s!"A system service is already installed for {describePrevious calls previous}. Retarget it " ++
    s!"to user {accountName calls proposed.uid} (config {proposed.config.display})? " ++
    "Both users' config files are kept. [y/N]: "

def declined (why : String) : Error :=
  .service (why ++ "; the existing service and both users' config files are unchanged")

/-- Whether a line agrees; no line does not. -/
def agrees (line : Option String) : Bool := normalized (line.getD "") ∈ ["y", "yes"]

/-- `confirm_retarget`: refused without a terminal. -/
def confirmRetarget (previous : Option Pin) (proposed : Pin) (canAnswer : Bool) (turn : Turn) :
    Asked RetargetConsent :=
  let calls := turn.calls.toAccountCalls
  if canAnswer then
    turn.ask (.retarget previous proposed) (retargetQuestion calls previous proposed) fun line =>
      if agrees line then .ok { previous, proposed } else .error (declined "retarget declined")
  else
    { result := .error (declined
        (s!"a system service already exists for {describePrevious calls previous} and " ++
          "retargeting needs a confirmation that cannot be asked without a terminal; run this " ++
          "install interactively")) }

/-- The request with the answer to one need. -/
def answered (backend : Backend) (env : Environment) (request : InstallRequest) (turn : Turn) :
    InstallNeed → Asked InstallRequest
  | .scopeChoice =>
      let asked := askScope turn
      { asked with result := asked.result.map fun scope => { request with scope := some scope } }
  | .invokingUser =>
      let asked := askUser backend request.role turn
      { asked with
        result := asked.result.map fun name => { request with invokingUser := some name } }
  | .retarget previous proposed =>
      let asked := confirmRetarget previous proposed env.canAnswer turn
      { asked with
        result := asked.result.map fun consent => { request with retarget := some consent } }

end Dialogue

/-! ### The loop -/

open Dialogue

/-- The state of the loop of `install`, and ghost what it asked and wrote so far. -/
structure Dialogue where
  request : InstallRequest
  asked : List Exchange := []
  written : List Written := []
  /-- What the command returned. -/
  result : Option (Except Error Unit) := none

namespace Dialogue

/-- One round of the loop. -/
def turn (backend : Backend) (env : Environment) (state : Dialogue) (turn : Turn) : Dialogue :=
  let (outcome, after) :=
    installVia backend { registrations := turn.found } turn.calls state.request env
  let state := { state with written := state.written ++ after.writes }
  match outcome with
  | .error error => { state with result := some (.error error) }
  | .ok .installed => { state with result := some (.ok ()) }
  | .ok (.needs need) =>
      let asked := answered backend env state.request turn need
      let state := { state with asked := state.asked ++ asked.exchanges }
      match asked.result with
      | .error error => { state with result := some (.error error) }
      | .ok request => { state with request }

/-- The command, round after round, until it returns. -/
def machine (backend : Backend) (env : Environment) : Machine Dialogue Turn where
  init state := ∃ given : Invocation, ∃ request,
    given.request = .ok request ∧ state = { request }
  step state next := if state.result.isSome then none else some (state.turn backend env next)

/-! ### One round -/

/-- What the installer needs before it installs. -/
def Needs (backend : Backend) (env : Environment) (next : Turn) (request : InstallRequest)
    (need : InstallNeed) : Prop :=
  planInstall backend next.calls
    (existingRegistration backend { registrations := next.found } next.calls request.role) request
    env = .ok (.needs need)

/-- What one round writes. -/
def writes (backend : Backend) (env : Environment) (next : Turn) (request : InstallRequest) :
    List Written :=
  (installVia backend { registrations := next.found } next.calls request env).2.writes

/-- One request has the answer to a need that the other one lacked. -/
def Supplied (request supplied : InstallRequest) : InstallNeed → Prop
  | .scopeChoice => ∃ scope, supplied = { request with scope := some scope }
  | .invokingUser => ∃ name, supplied = { request with invokingUser := some name }
  | .retarget previous proposed =>
      supplied = { request with retarget := some { previous, proposed } }

section Rounds

variable {backend : Backend} {env : Environment} {next : Turn} {request supplied : InstallRequest}
  {need : InstallNeed} {state : Dialogue}

theorem elevated_of_ensureElevated {calls : Calls}
    (passed : ensureElevated calls request env = .ok ()) : env.elevated = true := by
  unfold ensureElevated at passed
  split at passed
  · assumption
  · obtain ⟨config, -, passed⟩ := Lists.bind_eq_ok.mp passed
    obtain ⟨path, -, passed⟩ := Lists.bind_eq_ok.mp passed
    simp [ensurePrivilege] at passed

/-- Only a process that is not elevated must choose a scope, and only when none was given. -/
theorem needsChoice_of_decidedScope (undecided : decidedScope backend request env = .needsChoice) :
    request.scope = none ∧ env.elevated = false := by
  unfold decidedScope decideInstallScope at undecided
  split at undecided
  · cases undecided
  · rename_i unset
    refine ⟨?_, ?_⟩
    · split at unset
      · cases given : request.scope with
        | none => rfl
        | some scope => simp [given] at unset
      · exact unset
    · split at undecided
      · cases undecided
      · rename_i unelevated
        simpa using unelevated

/-- What the installer needs, and when. -/
theorem needs_cases (asks : Needs backend env next request need) :
    (need = .scopeChoice ∧ decidedScope backend request env = .needsChoice) ∨
    (env.elevated = true ∧ need = .invokingUser ∧ systemTarget next.calls request = .ok none) ∨
    (env.elevated = true ∧ ∃ target, systemTarget next.calls request = .ok (some target) ∧
      planForTarget next.calls
        (existingRegistration backend { registrations := next.found } next.calls request.role)
        request target = .ok (.needs need)) := by
  unfold Needs planInstall at asks
  split at asks
  · cases asks
  · split at asks
    · rename_i undecided
      cases asks
      exact .inl ⟨rfl, undecided⟩
    · rename_i scope chosen
      obtain ⟨-, -, asks⟩ := Lists.bind_eq_ok.mp asks
      split at asks
      · obtain ⟨done, passed, asks⟩ := Lists.bind_eq_ok.mp asks
        have elevated := elevated_of_ensureElevated passed
        obtain ⟨target, resolved, asks⟩ := Lists.bind_eq_ok.mp asks
        cases target with
        | none =>
          simp only at asks
          split at asks
          · cases asks
            exact .inr (.inl ⟨elevated, rfl, resolved⟩)
          · cases asks
        | some target => exact .inr (.inr ⟨elevated, target, resolved, asks⟩)
      · obtain ⟨given, -, asks⟩ := Lists.bind_eq_ok.mp asks
        obtain ⟨config, -, asks⟩ := Lists.bind_eq_ok.mp asks
        obtain ⟨state, -, asks⟩ := Lists.bind_eq_ok.mp asks
        obtain ⟨-, -, asks⟩ := Lists.bind_eq_ok.mp asks
        obtain ⟨-, -, asks⟩ := Lists.bind_eq_ok.mp asks
        obtain ⟨-, -, asks⟩ := Lists.bind_eq_ok.mp asks
        cases asks

theorem retargetDecision_eq_needs {existing : Option String} {target : Target}
    {consent : Option RetargetConsent} {previous : Option Pin} {proposed : Pin}
    (asks : retargetDecision existing target consent = .needs previous proposed) :
    ∃ body, existing = some body ∧ previous = Pin.find body ∧ proposed = target.pin ∧
      consent ≠ some { previous, proposed } := by
  cases existing with
  | none => cases asks
  | some body =>
    dsimp only [retargetDecision] at asks
    split at asks
    · cases asks
    · split at asks
      · cases asks
      · rename_i refused
        cases asks
        refine ⟨body, rfl, rfl, rfl, ?_⟩
        rintro rfl
        exact refused (by simp)

/-- The only need of a system install with a target is the consent that it lacks. -/
theorem needs_of_planForTarget {calls : Calls} {existing : Option String} {target : Target}
    (asks : planForTarget calls existing request target = .ok (.needs need)) :
    ∃ body, existing = some body ∧ need = .retarget (Pin.find body) target.pin ∧
      request.retarget ≠ some { previous := Pin.find body, proposed := target.pin } := by
  unfold planForTarget at asks
  obtain ⟨-, -, asks⟩ := Lists.bind_eq_ok.mp asks
  obtain ⟨-, -, asks⟩ := Lists.bind_eq_ok.mp asks
  obtain ⟨text, -, asks⟩ := Lists.bind_eq_ok.mp asks
  obtain ⟨-, -, asks⟩ := Lists.bind_eq_ok.mp asks
  split at asks
  · rename_i previous proposed decided
    cases asks
    obtain ⟨body, found, rfl, rfl, unagreed⟩ := retargetDecision_eq_needs decided
    exact ⟨body, found, rfl, unagreed⟩
  · cases asks

theorem invokingUser_of_chooseAccount {calls : AccountCalls} {asked : Request}
    {user : Option String} (unknown : chooseAccount calls asked user = .ok none) : user = none := by
  unfold chooseAccount at unknown
  split at unknown
  · obtain ⟨path, -, unknown⟩ := Lists.bind_eq_ok.mp unknown
    obtain ⟨owner, -, unknown⟩ := Lists.bind_eq_ok.mp unknown
    split at unknown <;> cases unknown
  · cases unknown
  · obtain ⟨path, -, unknown⟩ := Lists.bind_eq_ok.mp unknown
    obtain ⟨owner, -, unknown⟩ := Lists.bind_eq_ok.mp unknown
    cases unknown
  · split at unknown
    · rfl
    · split at unknown <;> cases unknown

/-- The user is asked for only while none was named. -/
theorem invokingUser_of_systemTarget {calls : Calls}
    (unknown : systemTarget calls request = .ok none) : request.invokingUser = none := by
  have resolved : ∃ asked, resolveTargetAccount calls.toAccountCalls asked request.invokingUser =
      .ok none := by
    unfold systemTarget at unknown
    split at unknown
    · exact ⟨_, unknown⟩
    · obtain ⟨path, -, unknown⟩ := Lists.bind_eq_ok.mp unknown
      exact ⟨_, unknown⟩
  obtain ⟨asked, resolved⟩ := resolved
  obtain ⟨account, chosen, resolved⟩ := Lists.bind_eq_ok.mp resolved
  cases account with
  | some account =>
    obtain ⟨path, -, resolved⟩ := Lists.bind_eq_ok.mp resolved
    obtain ⟨dir, -, resolved⟩ := Lists.bind_eq_ok.mp resolved
    cases resolved
  | none => exact invokingUser_of_chooseAccount chosen

theorem supplied_of_answered
    (gave : (answered backend env request next need).result = .ok supplied) :
    Supplied request supplied need := by
  cases need with
  | scopeChoice =>
    obtain ⟨scope, -, rfl⟩ := Lists.map_eq_ok.mp gave
    exact ⟨scope, rfl⟩
  | invokingUser =>
    obtain ⟨name, -, rfl⟩ := Lists.map_eq_ok.mp gave
    exact ⟨name, rfl⟩
  | retarget previous proposed =>
    obtain ⟨consent, confirmed, rfl⟩ := Lists.map_eq_ok.mp gave
    have named : consent = { previous, proposed } := by
      unfold confirmRetarget at confirmed
      dsimp only at confirmed
      split at confirmed
      · unfold Turn.ask at confirmed
        split at confirmed
        · cases confirmed
        · cases confirmed
        · dsimp only at confirmed
          split at confirmed <;> cases confirmed
          rfl
      · cases confirmed
    rw [named]
    rfl

/-- An install that succeeds wrote a registration. -/
theorem writes_of_backendInstall {host : Host} {calls : Calls} {plan : InstallPlan}
    (installed : (backendInstall backend host calls request plan).1 = .ok ()) :
    ∃ written, (backendInstall backend host calls request plan).2.writes =
      host.writes ++ [written] := by
  unfold backendInstall at installed ⊢
  dsimp only at installed ⊢
  split at installed
  · cases installed
  · cases installed
  · split at installed
    · cases installed
    · exact ⟨_, rfl⟩

/-- A round ends the command, or puts one question and adds its answer to the request. -/
theorem turn_cases (backend : Backend) (env : Environment) (next : Turn) (state : Dialogue) :
    (∃ result, (result = .ok () → (writes backend env next state.request).length = 1) ∧
      state.turn backend env next =
        { state with
          written := state.written ++ writes backend env next state.request
          result := some result }) ∨
    ∃ need, Needs backend env next state.request need ∧
      ((∃ error, state.turn backend env next =
        { state with
          asked := state.asked ++ (answered backend env state.request next need).exchanges
          result := some (.error error) }) ∨
      ∃ request, (answered backend env state.request next need).result = .ok request ∧
        state.turn backend env next =
          { state with
            request
            asked := state.asked ++
              (answered backend env state.request next need).exchanges }) := by
  unfold turn writes installVia
  cases planned : planInstall backend next.calls
    (existingRegistration backend { registrations := next.found } next.calls state.request.role)
    state.request env with
  | error error => exact .inl ⟨.error error, nofun, rfl⟩
  | ok outcome =>
    cases outcome with
    | ready plan =>
      dsimp only
      refine .inl ?_
      cases installed : (backendInstall backend { registrations := next.found } next.calls
        state.request plan).1 with
      | error error => exact ⟨.error error, nofun, rfl⟩
      | ok done =>
        refine ⟨.ok (), fun _ => ?_, rfl⟩
        obtain ⟨written, wrote⟩ := writes_of_backendInstall installed
        rw [wrote]
        rfl
    | needs need =>
      refine .inr ⟨need, planned, ?_⟩
      dsimp only
      cases gave : (answered backend env state.request next need).result with
      | error error => exact .inl ⟨error, by rw [List.append_nil]⟩
      | ok request => exact .inr ⟨request, rfl, by rw [List.append_nil]⟩

end Rounds

theorem step_eq_some {backend : Backend} {env : Environment} {state after : Dialogue}
    {next : Turn} : (machine backend env).step state next = some after ↔
      state.result = none ∧ after = state.turn backend env next := by
  show (if state.result.isSome then none else some (state.turn backend env next)) = some after ↔ _
  rw [Option.ite_none_left_eq_some, Option.some.injEq, Option.not_isSome_iff_eq_none,
    eq_comm (a := after)]

/-- A command starts without consent. -/
theorem retarget_of_request {given : Invocation} {request : InstallRequest}
    (isRequest : given.request = .ok request) : request.retarget = none := by
  obtain ⟨executable, -, same⟩ := Lists.bind_eq_ok.mp isRequest
  cases same
  rfl

/-! ### Consent -/

/-- The person at the terminal was shown this replacement and agreed to it. -/
def Agreed (env : Environment) (asked : List Exchange) (consent : RetargetConsent) : Prop :=
  env.canAnswer = true ∧ ∃ calls line, agrees line = true ∧
    { need := .retarget consent.previous consent.proposed
      question := retargetQuestion calls consent.previous consent.proposed
      line } ∈ asked

/-- The scope of a request is the one first given, or else the answer to the scope question, which
only a process that is not elevated puts. -/
def Scoped (env : Environment) (asked : List Exchange) (given : Option ServiceScope)
    (request : InstallRequest) : Prop :=
  request.scope = given ∨
  (given = none ∧ env.elevated = false ∧ ∃ scope calls line, request.scope = some scope ∧
    { need := .scopeChoice, question := SCOPE_QUESTION, line := some line } ∈ asked ∧
    parseScopeAnswer calls line = .ok scope)

/-- A registration is of the scope that was chosen for it; a system one carries the pin of its
target, and replaces another account's, or one without a pin, only as agreed. -/
def Consented (backend : Backend) (env : Environment) (asked : List Exchange)
    (given : Option ServiceScope) (written : Written) : Prop :=
  Scoped env asked given written.request ∧
  decidedScope backend written.request env = .chosen written.scope ∧
  (written.scope = .system →
    ∃ target, systemTarget written.calls written.request = .ok (some target) ∧
      written.pin = some target.pin ∧ written.config = target.config ∧
      ∀ body, written.existing = some body →
        (∃ previous, Pin.find body = some previous ∧ previous.uid = target.account.uid) ∨
        Agreed env asked { previous := Pin.find body, proposed := target.pin })

/-- The invariant of the loop: what the request says was answered at the terminal, and the command
ends with its first write. -/
structure Faithful (backend : Backend) (env : Environment) (given : Option ServiceScope)
    (state : Dialogue) : Prop where
  consent : ∀ consent, state.request.retarget = some consent → Agreed env state.asked consent
  inScope : Scoped env state.asked given state.request
  written : ∀ written ∈ state.written, Consented backend env state.asked given written
  unwritten : state.result = none → state.written = []
  once : state.written.length ≤ 1
  succeeded : state.result = some (.ok ()) → state.written.length = 1

section Consents

variable {backend : Backend} {env : Environment} {next : Turn} {state : Dialogue}

theorem Agreed.mono {asked more : List Exchange} {consent : RetargetConsent}
    (agreed : Agreed env asked consent) : Agreed env (asked ++ more) consent := by
  obtain ⟨canAnswer, calls, line, agree, member⟩ := agreed
  exact ⟨canAnswer, calls, line, agree, List.mem_append_left _ member⟩

/-- A retarget is confirmed by an agreeing line to its question, at a terminal. -/
theorem agreed_of_confirmRetarget {previous : Option Pin} {proposed : Pin}
    {consent : RetargetConsent} {asked : List Exchange}
    (confirmed : (confirmRetarget previous proposed env.canAnswer next).result = .ok consent) :
    consent = { previous, proposed } ∧
      Agreed env (asked ++ (confirmRetarget previous proposed env.canAnswer next).exchanges)
        { previous, proposed } := by
  unfold confirmRetarget at confirmed ⊢
  dsimp only at confirmed ⊢
  split at confirmed
  · rename_i canAnswer
    rw [if_pos canAnswer]
    unfold Turn.ask at confirmed ⊢
    split at confirmed
    · cases confirmed
    · cases confirmed
    · rename_i line _ read
      dsimp only at confirmed
      split at confirmed
      · rename_i agree
        cases confirmed
        exact ⟨rfl, canAnswer, _, line, agree, List.mem_append_right _ (List.mem_singleton_self _)⟩
      · cases confirmed
  · cases confirmed

theorem Scoped.mono {asked more : List Exchange} {given : Option ServiceScope}
    {request : InstallRequest} (inScope : Scoped env asked given request) :
    Scoped env (asked ++ more) given request := by
  rcases inScope with same | ⟨unset, unelevated, scope, calls, line, chosen, member, parsed⟩
  · exact .inl same
  · exact .inr ⟨unset, unelevated, scope, calls, line, chosen, List.mem_append_left _ member,
      parsed⟩

theorem Consented.mono {asked more : List Exchange} {given : Option ServiceScope}
    {written : Written} (consented : Consented backend env asked given written) :
    Consented backend env (asked ++ more) given written := by
  obtain ⟨inScope, decided, system⟩ := consented
  refine ⟨inScope.mono, decided, fun isSystem => ?_⟩
  obtain ⟨target, resolved, pin, config, allowed⟩ := system isSystem
  exact ⟨target, resolved, pin, config, fun body existing => (allowed body existing).imp_right
    Agreed.mono⟩

/-- The scope that is answered was asked for. -/
theorem scoped_of_askScope {scope : ServiceScope} {asked : List Exchange}
    (chose : (askScope next).result = .ok scope) :
    ∃ line, { need := .scopeChoice, question := SCOPE_QUESTION, line := some line } ∈
        asked ++ (askScope next).exchanges ∧
      parseScopeAnswer next.calls.toAccountCalls line = .ok scope := by
  unfold askScope Turn.ask at chose ⊢
  split at chose
  · cases chose
  · cases chose
  · rename_i line _ read
    cases line with
    | none => cases chose
    | some line => exact ⟨line, List.mem_append_right _ (List.mem_singleton_self _), chose⟩

/-- What one round registers is consented to, where its request is. -/
theorem consented_of_writes {asked : List Exchange} {given : Option ServiceScope}
    {written : Written}
    (agreed : ∀ consent, state.request.retarget = some consent → Agreed env asked consent)
    (inScope : Scoped env asked given state.request)
    (wrote : written ∈ writes backend env next state.request) :
    Consented backend env asked given written := by
  unfold writes at wrote
  rcases writes_of_installVia with none | ⟨plan, path, planned, found, -, appended⟩
  · rw [none] at wrote
    cases wrote
  · rw [appended] at wrote
    obtain rfl := List.mem_singleton.mp wrote
    rcases ready_of_planInstall planned with ⟨chosen, target, resolved, planned⟩ |
      ⟨chosen, user, -⟩
    · obtain ⟨-, rfl, mayReplace⟩ := ready_of_planForTarget planned
      refine ⟨inScope, chosen, fun _ => ⟨target, resolved, rfl, rfl, fun body existing => ?_⟩⟩
      have read : existingRegistration backend { registrations := next.found } next.calls
          state.request.role = some body := by
        simpa only [existingRegistration, found] using existing
      exact (mayReplace body read).imp_right (agreed _)
    · refine ⟨inScope, by rw [chosen, user], fun system => ?_⟩
      exact absurd (user.symm.trans system) (by decide)

theorem length_writes_le {request : InstallRequest} :
    (writes backend env next request).length ≤ 1 := by
  unfold writes
  rcases writes_of_installVia with none | ⟨_, _, _, _, _, appended⟩
  · rw [none]
    exact Nat.zero_le _
  · rw [appended]
    exact le_refl _

/-- The answer to a need is in the request only as it was given. -/
theorem faithful_of_answered {asked : List Exchange} {given : Option ServiceScope}
    {request supplied : InstallRequest} {need : InstallNeed}
    (agreed : ∀ consent, request.retarget = some consent → Agreed env asked consent)
    (inScope : Scoped env asked given request) (asks : Needs backend env next request need)
    (gave : (answered backend env request next need).result = .ok supplied) :
    (∀ consent, supplied.retarget = some consent →
      Agreed env (asked ++ (answered backend env request next need).exchanges) consent) ∧
    Scoped env (asked ++ (answered backend env request next need).exchanges) given supplied := by
  cases need with
  | scopeChoice =>
    obtain ⟨scope, chose, rfl⟩ := Lists.map_eq_ok.mp gave
    refine ⟨fun consent isGiven => (agreed consent isGiven).mono, ?_⟩
    rcases needs_cases asks with ⟨-, undecided⟩ | ⟨-, other, -⟩ | ⟨-, target, -, planned⟩
    · obtain ⟨unset, unelevated⟩ := needsChoice_of_decidedScope undecided
      obtain ⟨line, put, parsed⟩ := scoped_of_askScope chose
      refine .inr ⟨?_, unelevated, scope, _, line, rfl, put, parsed⟩
      rcases inScope with same | ⟨none, -⟩
      · exact same.symm.trans unset
      · exact none
    · cases other
    · obtain ⟨body, -, other, -⟩ := needs_of_planForTarget planned
      cases other
  | invokingUser =>
    obtain ⟨name, -, rfl⟩ := Lists.map_eq_ok.mp gave
    exact ⟨fun consent isGiven => (agreed consent isGiven).mono, inScope.mono⟩
  | retarget previous proposed =>
    obtain ⟨consent, confirmed, rfl⟩ := Lists.map_eq_ok.mp gave
    obtain ⟨rfl, isAgreed⟩ := agreed_of_confirmRetarget confirmed
    refine ⟨?_, inScope.mono⟩
    intro consent isGiven
    obtain rfl := Option.some.inj isGiven
    exact isAgreed

theorem faithful_turn {given : Option ServiceScope} (holds : Faithful backend env given state)
    (running : state.result = none) :
    Faithful backend env given (state.turn backend env next) := by
  have unwritten := holds.unwritten running
  rcases turn_cases backend env next state with
    ⟨result, installed, after⟩ | ⟨need, asks, ⟨error, after⟩ | ⟨request, gave, after⟩⟩
  · rw [after]
    refine ⟨holds.consent, holds.inScope, fun written member => ?_, nofun, ?_, fun done => ?_⟩
    · rw [unwritten] at member
      exact consented_of_writes holds.consent holds.inScope member
    · rw [unwritten]
      exact length_writes_le
    · rw [unwritten]
      exact installed (Option.some.inj done)
  · rw [after]
    exact ⟨fun consent given => (holds.consent consent given).mono, holds.inScope.mono,
      fun written member => (holds.written written member).mono, nofun, holds.once, nofun⟩
  · rw [after]
    obtain ⟨consent, inScope⟩ := faithful_of_answered holds.consent holds.inScope asks gave
    exact ⟨consent, inScope, fun written member => (holds.written written member).mono,
      fun _ => unwritten, holds.once, fun done => absurd (running.symm.trans done) nofun⟩

end Consents

/-- **Nothing is registered without consent.** However the system and its registrations change
between the rounds of a command, it writes at most one registration, and exactly one if it succeeds.
That is of the scope given or, only where none was given and the process is not elevated, of the one
answered at the terminal, else of the default; a system one carries the pin of its target, and what
it replaces is that account's own registration, or the replacement of exactly that pin by exactly
this one was shown at a terminal and agreed to. -/
theorem dialogue_consents (backend : Backend) (env : Environment) (start final : Dialogue)
    (rounds : List Turn) (initial : (machine backend env).init start)
    (ran : (machine backend env).run start rounds = some final) :
    final.written.length ≤ 1 ∧
    (final.result = some (.ok ()) → final.written.length = 1) ∧
    ∀ written ∈ final.written,
      Consented backend env final.asked start.request.scope written := by
  have keeps : ∀ state next after, Faithful backend env start.request.scope state → True →
      (machine backend env).step state next = some after →
        Faithful backend env start.request.scope after := by
    intro state next after holds _ taken
    obtain ⟨running, rfl⟩ := step_eq_some.mp taken
    exact faithful_turn holds running
  have begins : Faithful backend env start.request.scope start := by
    obtain ⟨given, request, isRequest, rfl⟩ := initial
    refine ⟨fun consent isGiven => ?_, .inl rfl, fun written member => ?_, fun _ => rfl,
      Nat.zero_le _, fun done => ?_⟩
    · have unset := retarget_of_request isRequest
      rw [show request.retarget = some consent from isGiven] at unset
      cases unset
    · cases member
    · cases done
  have holds := @Machine.run_keeps _ _ (machine backend env) (fun _ _ => True)
    (Faithful backend env start.request.scope) keeps start final rounds begins
    ((machine backend env).meets_true start rounds) ran
  exact ⟨holds.once, holds.succeeded, holds.written⟩

/-! ### A system service of nobody, replaced by alice's -/

open OsString (encode)

/-- `sudo iroh-tunnel serve service install --system` by alice, at a terminal. -/
def aliceAtTerminal : Invocation where
  role := .serve
  scope := { system := true }
  onPath := some (encode "/opt/iroh-tunnel")
  sudoUser := some "alice"
  stateDir := some (encode "/")

def rootTerminal : Environment := { elevated := true, canAnswer := true }

/-- A host whose service has no pin, with alice's answer to its question. -/
def unpinnedHost : Turn where
  found _ := some ""
  calls := rootCalls
  line := .ok (some " YES\n")

theorem dialogue_consents_alice :
    ∃ final, (machine .systemd rootTerminal).run { request := installForAlice.request }
        [unpinnedHost, unpinnedHost] = some final ∧
      final.asked.map Exchange.need =
        [.retarget none { config := encode "/tmp/serve.toml", uid := 1000 }] ∧
      final.written.length = 1 := by
  refine ⟨_, rfl, by rfl, (dialogue_consents .systemd rootTerminal
    { request := installForAlice.request } _ [unpinnedHost, unpinnedHost]
    ⟨aliceAtTerminal, _, rfl, rfl⟩ rfl).2.1 (by rfl)⟩

/-! ### Questions -/

/-- The replacement that a question shows. -/
def replacement : InstallNeed → Option RetargetConsent
  | .retarget previous proposed => some { previous, proposed }
  | _ => none

/-- The needs for which questions were put. -/
def needs (state : Dialogue) : List InstallNeed := state.asked.map Exchange.need

/-- Only a process that is not elevated is asked for the scope, and for nothing else; the scope and
the user are asked for once, and no replacement is shown twice in a row. -/
structure Orderly (env : Environment) (needs : List InstallNeed) : Prop where
  scope : ∀ need ∈ needs, need = .scopeChoice ↔ env.elevated = false
  scopeOnce : needs.count .scopeChoice ≤ 1
  userOnce : needs.count .invokingUser ≤ 1
  fresh : (needs.filterMap replacement).IsChain (· ≠ ·)

/-- The request has what was answered. -/
structure Remembers (needs : List InstallNeed) (request : InstallRequest) : Prop where
  scope : .scopeChoice ∈ needs → request.scope ≠ none
  user : .invokingUser ∈ needs → request.invokingUser ≠ none
  consent : request.retarget = (needs.filterMap replacement).getLast?

/-- The question that was put is in the log, unless no answer was read. -/
def Asked.Logged {α : Type} (asked : Asked α) (need : InstallNeed) : Prop :=
  asked.exchanges.map Exchange.need = [need] ∨
  asked.exchanges = [] ∧ ∃ error, asked.result = .error error

/-- Every run of rounds from a request ends after this many answers. -/
def EndsWithin (backend : Backend) (env : Environment) (next : Turn) :
    Nat → InstallRequest → Prop
  | 0, request => ∀ need, ¬ Needs backend env next request need
  | answers + 1, request => ∀ need supplied, Needs backend env next request need →
      Supplied request supplied need → EndsWithin backend env next answers supplied

section Questions

variable {backend : Backend} {env : Environment} {next : Turn} {request supplied : InstallRequest}
  {need : InstallNeed} {asked : List InstallNeed}

theorem elevated_of_needs (asks : Needs backend env next request need) :
    need = .scopeChoice ↔ env.elevated = false := by
  rcases needs_cases asks with ⟨rfl, undecided⟩ | ⟨elevated, rfl, -⟩ |
    ⟨elevated, target, -, planned⟩
  · exact iff_of_true rfl (needsChoice_of_decidedScope undecided).2
  · exact iff_of_false nofun (by simp [elevated])
  · obtain ⟨body, -, rfl, -⟩ := needs_of_planForTarget planned
    exact iff_of_false nofun (by simp [elevated])

theorem scope_of_needs (asks : Needs backend env next request .scopeChoice) :
    request.scope = none := by
  rcases needs_cases asks with ⟨-, undecided⟩ | ⟨-, other, -⟩ | ⟨-, target, -, planned⟩
  · exact (needsChoice_of_decidedScope undecided).1
  · cases other
  · obtain ⟨body, -, other, -⟩ := needs_of_planForTarget planned
    cases other

theorem user_of_needs (asks : Needs backend env next request .invokingUser) :
    request.invokingUser = none := by
  rcases needs_cases asks with ⟨other, -⟩ | ⟨-, -, unknown⟩ | ⟨-, target, -, planned⟩
  · cases other
  · exact invokingUser_of_systemTarget unknown
  · obtain ⟨body, -, other, -⟩ := needs_of_planForTarget planned
    cases other

theorem consent_of_needs {consent : RetargetConsent}
    (asks : Needs backend env next request need) (shows : replacement need = some consent) :
    request.retarget ≠ some consent := by
  rcases needs_cases asks with ⟨rfl, -⟩ | ⟨-, rfl, -⟩ | ⟨-, target, -, planned⟩
  · cases shows
  · cases shows
  · obtain ⟨body, -, rfl, unagreed⟩ := needs_of_planForTarget planned
    cases shows
    exact unagreed

theorem orderly_append (orderly : Orderly env asked) (remembers : Remembers asked request)
    (asks : Needs backend env next request need) : Orderly env (asked ++ [need]) := by
  refine ⟨fun other member => ?_, ?_, ?_, ?_⟩
  · rcases List.mem_append.mp member with before | now
    · exact orderly.scope other before
    · rw [List.mem_singleton.mp now]
      exact elevated_of_needs asks
  · rw [List.count_append, List.count_singleton]
    split
    · rename_i same
      rw [eq_of_beq same] at asks
      have unasked : .scopeChoice ∉ asked := fun was => remembers.scope was (scope_of_needs asks)
      rw [List.count_eq_zero.mpr unasked]
    · exact orderly.scopeOnce
  · rw [List.count_append, List.count_singleton]
    split
    · rename_i same
      rw [eq_of_beq same] at asks
      have unasked : .invokingUser ∉ asked := fun was => remembers.user was (user_of_needs asks)
      rw [List.count_eq_zero.mpr unasked]
    · exact orderly.userOnce
  · rw [List.filterMap_append]
    cases shows : replacement need with
    | none =>
      rw [List.filterMap_cons_none shows, List.filterMap_nil, List.append_nil]
      exact orderly.fresh
    | some consent =>
      rw [List.filterMap_cons_some shows, List.filterMap_nil]
      refine List.isChain_append.mpr ⟨orderly.fresh, List.isChain_singleton _, ?_⟩
      rintro last isLast first isFirst rfl
      obtain rfl := Option.some.inj isFirst
      exact consent_of_needs asks shows (remembers.consent.trans isLast)

theorem remembers_append (remembers : Remembers asked request)
    (supplies : Supplied request supplied need) : Remembers (asked ++ [need]) supplied := by
  cases need with
  | scopeChoice =>
    obtain ⟨scope, rfl⟩ := supplies
    refine ⟨nofun, fun was => remembers.user (by simpa using was), ?_⟩
    rw [List.filterMap_append]
    exact remembers.consent.trans (by simp [replacement])
  | invokingUser =>
    obtain ⟨name, rfl⟩ := supplies
    refine ⟨fun was => remembers.scope (by simpa using was), nofun, ?_⟩
    rw [List.filterMap_append]
    exact remembers.consent.trans (by simp [replacement])
  | retarget previous proposed =>
    obtain rfl := supplies
    refine ⟨fun was => remembers.scope (by simpa using was),
      fun was => remembers.user (by simpa using was), ?_⟩
    rw [List.filterMap_append]
    simp [replacement]

theorem logged_ask {α : Type} (turn : Turn) (need : InstallNeed) (question : String)
    (answer : Option String → Except Error α) : (turn.ask need question answer).Logged need := by
  unfold Turn.ask
  split
  · exact .inr ⟨rfl, _, rfl⟩
  · exact .inr ⟨rfl, _, rfl⟩
  · exact .inl rfl

theorem Asked.Logged.map {α β : Type} {asked : Asked α} {f : α → β} (logged : asked.Logged need) :
    ({ asked with result := asked.result.map f } : Asked β).Logged need := by
  rcases logged with put | ⟨none, error, failed⟩
  · exact .inl put
  · exact .inr ⟨none, error, by rw [failed]; rfl⟩

theorem logged_answered (need : InstallNeed) :
    (answered backend env request next need).Logged need := by
  cases need with
  | scopeChoice => exact (logged_ask next _ _ _).map
  | invokingUser =>
    refine Asked.Logged.map ?_
    unfold askUser
    split
    · exact .inr ⟨rfl, _, rfl⟩
    · exact logged_ask next _ _ _
  | retarget previous proposed =>
    refine Asked.Logged.map ?_
    unfold confirmRetarget
    dsimp only
    split
    · exact logged_ask next _ _ _
    · exact .inr ⟨rfl, _, rfl⟩

/-- The questions stay in order, and a request still running has all their answers. -/
theorem orderly_turn {state : Dialogue} (orderly : Orderly env state.needs)
    (remembers : Remembers state.needs state.request) :
    Orderly env (state.turn backend env next).needs ∧
    ((state.turn backend env next).result = none →
      Remembers (state.turn backend env next).needs (state.turn backend env next).request) := by
  rcases turn_cases backend env next state with
    ⟨result, -, after⟩ | ⟨need, asks, ⟨error, after⟩ | ⟨request, gave, after⟩⟩
  · rw [after]
    exact ⟨orderly, nofun⟩
  · rw [after]
    refine ⟨?_, nofun⟩
    unfold needs
    rw [List.map_append]
    rcases logged_answered need with put | ⟨none, -⟩
    · rw [put]
      exact orderly_append orderly remembers asks
    · rw [none, List.map_nil, List.append_nil]
      exact orderly
  · rw [after]
    unfold needs
    rw [List.map_append]
    rcases logged_answered need with put | ⟨-, error, failed⟩
    · rw [put]
      exact ⟨orderly_append orderly remembers asks,
        fun _ => remembers_append remembers (supplied_of_answered gave)⟩
    · rw [failed] at gave
      cases gave

/-! ### The end of the command -/

theorem endsWithin_of_agreed {target : Target} {body : String}
    (elevated : env.elevated = true)
    (resolved : systemTarget next.calls request = .ok (some target))
    (found : existingRegistration backend { registrations := next.found } next.calls request.role =
      some body)
    (agreed : request.retarget = some { previous := Pin.find body, proposed := target.pin }) :
    EndsWithin backend env next 0 request := by
  intro need asks
  rcases needs_cases asks with ⟨-, undecided⟩ | ⟨-, -, unknown⟩ | ⟨-, other, same, planned⟩
  · rw [(needsChoice_of_decidedScope undecided).2] at elevated
    cases elevated
  · rw [resolved] at unknown
    cases unknown
  · rw [resolved] at same
    cases same
    obtain ⟨otherBody, isBody, -, unagreed⟩ := needs_of_planForTarget planned
    rw [found] at isBody
    cases isBody
    exact unagreed agreed

theorem endsWithin_of_unelevated (unelevated : env.elevated = false)
    (chosen : request.scope ≠ none) : EndsWithin backend env next 0 request := by
  intro need asks
  obtain rfl := (elevated_of_needs asks).mpr unelevated
  exact chosen (scope_of_needs asks)

/-- A consent that was asked for is the last answer that the installer needs. -/
theorem endsWithin_of_retarget {previous : Option Pin} {proposed : Pin}
    (asks : Needs backend env next request (.retarget previous proposed))
    (supplies : Supplied request supplied (.retarget previous proposed)) :
    EndsWithin backend env next 0 supplied := by
  obtain rfl := supplies
  rcases needs_cases asks with ⟨other, -⟩ | ⟨-, other, -⟩ | ⟨elevated, target, resolved, planned⟩
  · cases other
  · cases other
  · obtain ⟨body, found, shown, -⟩ := needs_of_planForTarget planned
    cases shown
    exact endsWithin_of_agreed elevated resolved found rfl

theorem endsWithin_of_user (elevated : env.elevated = true) (named : request.invokingUser ≠ none) :
    EndsWithin backend env next 1 request := by
  intro need supplied asks supplies
  cases need with
  | scopeChoice =>
    rw [(elevated_of_needs asks).mp rfl] at elevated
    cases elevated
  | invokingUser => exact absurd (user_of_needs asks) named
  | retarget previous proposed => exact endsWithin_of_retarget asks supplies

theorem EndsWithin.succ {answers : Nat} (ends : EndsWithin backend env next answers request) :
    EndsWithin backend env next (answers + 1) request := by
  induction answers generalizing request with
  | zero => exact fun need supplied asks _ => (ends need asks).elim
  | succ answers ih =>
      exact fun need supplied asks supplies => ih (ends need supplied asks supplies)

/-- Two answers are enough, whatever the first request. -/
theorem endsWithin_two (request : InstallRequest) : EndsWithin backend env next 2 request := by
  intro need supplied asks supplies
  cases need with
  | scopeChoice =>
    have unelevated := (elevated_of_needs asks).mp rfl
    obtain ⟨scope, rfl⟩ := supplies
    exact (endsWithin_of_unelevated unelevated (Option.some_ne_none scope)).succ
  | invokingUser =>
    have elevated : env.elevated = true := by
      have other : ¬ env.elevated = false := fun unelevated =>
        InstallNeed.noConfusion ((elevated_of_needs asks).mpr unelevated)
      simpa using other
    obtain ⟨name, rfl⟩ := supplies
    exact endsWithin_of_user elevated (Option.some_ne_none name)
  | retarget previous proposed => exact (endsWithin_of_retarget asks supplies).succ

/-- The run rule: on a host that stays the same, a command that runs ends with its last answer. -/
theorem length_le_of_endsWithin {answers : Nat} {rounds : List Turn} {state final : Dialogue}
    (ends : EndsWithin backend env next answers state.request)
    (steady : ∀ round ∈ rounds, round.found = next.found ∧ round.calls = next.calls)
    (ran : (machine backend env).run state rounds = some final) :
    rounds.length ≤ answers + 1 := by
  induction rounds generalizing answers state with
  | nil => exact Nat.zero_le _
  | cons round rest ih =>
    obtain ⟨after, taken, ran⟩ := (machine backend env).run_cons_eq_some.mp ran
    obtain ⟨running, rfl⟩ := step_eq_some.mp taken
    have returned (done : (state.turn backend env round).result ≠ none) : rest = [] := by
      cases rest with
      | nil => rfl
      | cons later rest =>
        obtain ⟨_, taken, -⟩ := (machine backend env).run_cons_eq_some.mp ran
        exact absurd (step_eq_some.mp taken).1 done
    have same : round.found = next.found ∧ round.calls = next.calls :=
      steady round List.mem_cons_self
    rcases turn_cases backend env round state with
      ⟨result, -, after⟩ | ⟨need, asks, ⟨error, after⟩ | ⟨request, gave, after⟩⟩
    · rw [returned (by rw [after]; exact nofun)]
      simp
    · rw [returned (by rw [after]; exact nofun)]
      simp
    · have asksSteady : Needs backend env next state.request need := by
        unfold Needs at asks ⊢
        rwa [same.1, same.2] at asks
      have supplies := supplied_of_answered gave
      cases answers with
      | zero => exact absurd asksSteady (ends need)
      | succ answers =>
        have later := ends need request asksSteady supplies
        have sameRequest : (state.turn backend env round).request = request := by rw [after]
        rw [List.length_cons]
        exact Nat.succ_le_succ (ih (sameRequest ▸ later)
          (fun other member => steady other (List.mem_cons_of_mem _ member)) ran)

end Questions

/-- **No question is put twice.** In every run of a command, only a process that is not elevated is
asked for the scope, and for nothing else; the scope and the user are asked for at most once, and
the same replacement is never shown twice in a row. While nothing else changes the host, the command
ends within three rounds. -/
theorem dialogue_asks (backend : Backend) (env : Environment) (start final : Dialogue)
    (rounds : List Turn) (initial : (machine backend env).init start)
    (ran : (machine backend env).run start rounds = some final) :
    Orderly env final.needs ∧
    ∀ place : Turn, (∀ round ∈ rounds, round.found = place.found ∧ round.calls = place.calls) →
      rounds.length ≤ 3 := by
  obtain ⟨given, request, isRequest, rfl⟩ := initial
  constructor
  · have keeps : ∀ state next after, (Orderly env state.needs ∧
        (state.result = none → Remembers state.needs state.request)) → True →
        (machine backend env).step state next = some after →
          Orderly env after.needs ∧
          (after.result = none → Remembers after.needs after.request) := by
      rintro state next after ⟨orderly, remembers⟩ _ taken
      obtain ⟨running, rfl⟩ := step_eq_some.mp taken
      exact orderly_turn orderly (remembers running)
    have orderly : Orderly env [] :=
      ⟨fun need member => absurd member List.not_mem_nil, Nat.zero_le _, Nat.zero_le _,
        List.isChain_nil⟩
    have remembers : Remembers [] request :=
      ⟨fun was => absurd was List.not_mem_nil, fun was => absurd was List.not_mem_nil,
        retarget_of_request isRequest⟩
    have holds := @Machine.run_keeps _ _ (machine backend env) (fun _ _ => True)
      (fun state => Orderly env state.needs ∧
        (state.result = none → Remembers state.needs state.request)) keeps { request } final rounds
      ⟨orderly, fun _ => remembers⟩ ((machine backend env).meets_true _ rounds) ran
    exact holds.1
  · intro place steady
    have ends : EndsWithin backend env place 2 request := endsWithin_two request
    exact @length_le_of_endsWithin backend env place 2 rounds { request } final ends steady ran

/-- The replacement is shown once, and the command ends in time. -/
theorem dialogue_asks_alice :
    Orderly rootTerminal [.retarget none { config := encode "/tmp/serve.toml", uid := 1000 }] ∧
      [unpinnedHost, unpinnedHost].length ≤ 3 := by
  have asks := dialogue_asks .systemd rootTerminal { request := installForAlice.request } _
    [unpinnedHost, unpinnedHost] ⟨aliceAtTerminal, _, rfl, rfl⟩ rfl
  exact ⟨asks.1, asks.2 unpinnedHost (by simp)⟩

end Dialogue

end IrohTunnel.Service
