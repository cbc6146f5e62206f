/-
**A POSIX shell: what running a script does.**

What the utilities answer and how the processes are numbered is an argument (`World`), by what has
happened before; redirections succeed. There is no pathname or tilde expansion. The positional
parameters other than `$0` to `$9`, the special built-in utilities other than `export`, `return` and
`exit`, assignments before a command name, and background commands that are not named by a path are
outside the fragment: a run that comes to one has no result.

* `expandWords` — the fields of the words of a command;
* `exec`, `runScript` — a run, with the fuel that it needs at most;
* `exec_assignment`, `exec_export` — the first commands of a list, one at a time.
-/

import IrohTunnel.Library.ShellCommands
import Mathlib.Data.List.DropRight

namespace IrohTunnel.Library.Shell

abbrev Text := List Char

/-! ### State -/

/-- A redirection with its expanded target. -/
structure Target where
  descriptor : Text
  kind : Redirection
  text : Text
  deriving DecidableEq, Repr

inductive Event
  /-- A utility was run with these arguments, its name first, and ended with a status. -/
  | called (arguments : List Text) (targets : List Target) (status : Nat)
  /-- A background process was started. -/
  | started (arguments : List Text) (targets : List Target)
  deriving DecidableEq, Repr

/-- The exit status and the standard output of a utility, and the number of a process. -/
structure World where
  utility : List Event → List Text → Nat × Text
  process : List Event → Text

structure State where
  values : Text → Option Text
  exported : List Text := []
  functions : List (Text × Command) := []
  /-- `$0`, and `$1` on. -/
  script : Text
  arguments : List Text
  /-- `$?`. -/
  status : Nat := 0
  /-- `$!`. -/
  lastProcess : Text := []
  /-- Ghost for the caller of a substitution: what went to the standard output. -/
  output : Text := []
  events : List Event := []

inductive Flow
  | next | returned | exited
  deriving DecidableEq, Repr

def State.assign (name value : Text) (state : State) : State :=
  { state with values := fun other => if other = name then some value else state.values other }

/-! ### Expansion -/

def decimal (number : Nat) : Text := Nat.toDigits 10 number

/-- The number of a text of digits; another character counts for nothing. -/
def number (text : Text) : Nat :=
  (text.filter Char.isDigit).foldl (fun total digit => 10 * total + (digit.toNat - 48)) 0

/-- The value of a parameter; one that is not set is empty. -/
def State.parameter (state : State) (name : Text) : Option Text :=
  match name with
  | ['?'] => some (decimal state.status)
  | ['!'] => some state.lastProcess
  | ['0'] => some state.script
  | [char] =>
      if char.isDigit then some (state.arguments.getD (char.toNat - 49) [])
      else if isNameStart char then some ((state.values name).getD []) else none
  | char :: _ => if isNameStart char then some ((state.values name).getD []) else none
  | [] => none

/-- A sum of numbers and variables. -/
def State.sum (state : State) (body : Text) : Text :=
  let term (text : Text) : Nat :=
    number (if text.head?.any isNameStart then (state.values text).getD [] else text)
  decimal (((body.filter (· ≠ ' ')).splitOn '+').foldl (fun total text => total + term text) 0)

/-- A command substitution: its output without the newlines at its end. -/
def substituteWith (run : Command → State → Option (Flow × State)) (body : Text) (state : State) :
    Option (Text × State) := do
  let program ← parseProgram body
  let (_, inner) ← run program { state with output := [] }
  some (inner.output.rdropWhile (· = '\n'),
    { state with events := inner.events, status := inner.status })

section Expansion

variable (substitute : Text → State → Option (Text × State))

def expandPiece (state : State) : Piece → Option (Text × State)
  | .plain text | .quoted text => some (text, state)
  | .parameter _ name => (state.parameter name).map (·, state)
  | .substitution _ body => substitute body state
  | .arithmetic _ body => some (state.sum body, state)

/-- The result of the expansion is split into fields. -/
def Piece.splits : Piece → Bool
  | .parameter inQuotes _ | .substitution inQuotes _ | .arithmetic inQuotes _ => !inQuotes
  | .plain _ | .quoted _ => false

/-- The fields of a word: the ones that have ended, and the current one. -/
structure Fields where
  ended : List Text := []
  current : Option Text := none

def Fields.add (fields : Fields) (text : Text) : Fields :=
  { fields with current := some (fields.current.getD [] ++ text) }

def Fields.all (fields : Fields) : List Text := fields.ended ++ fields.current.toList

/-- Unquoted text: blanks end the current field. -/
def Fields.split (fields : Fields) (text : Text) : Fields :=
  text.foldl (fun fields char =>
    if [' ', '\t', '\n'].contains char then { ended := fields.all } else fields.add [char]) fields

/-- The fields of a word. -/
def expandFields (fields : Fields) (state : State) : Word → Option (List Text × State)
  | [] => some (fields.all, state)
  | piece :: rest => do
      let (text, state) ← expandPiece substitute state piece
      expandFields (if piece.splits then fields.split text else fields.add text) state rest

/-- A word where no fields are split. -/
def expandText (state : State) : Word → Option (Text × State)
  | [] => some ([], state)
  | piece :: rest => do
      let (text, state) ← expandPiece substitute state piece
      let (others, state) ← expandText state rest
      return (text ++ others, state)

def expandWords (state : State) : List Word → Option (List Text × State)
  | [] => some ([], state)
  | word :: rest => do
      let (fields, state) ← expandFields substitute {} state word
      let (others, state) ← expandWords state rest
      return (fields ++ others, state)

def expandRedirects (state : State) : List Redirect → Option (List Target × State)
  | [] => some ([], state)
  | redirect :: rest => do
      let (text, state) ← expandText substitute state redirect.target
      let (others, state) ← expandRedirects state rest
      let descriptor := if redirect.descriptor = [] then ['1'] else redirect.descriptor
      return ({ descriptor, kind := redirect.kind, text } :: others, state)

def assignAll (state : State) : List Assignment → Option State
  | [] => some state
  | assignment :: rest => do
      let (value, state) ← expandText substitute state assignment.value
      assignAll (state.assign assignment.name value) rest

end Expansion

/-! ### Commands -/

/-- The special built-in utilities that have no meaning here. -/
def unsupported : List String :=
  [":", ".", "break", "continue", "eval", "exec", "readonly", "set", "shift", "times", "trap",
    "unset"]

/-- `export`, for arguments `name=value` and `name`. -/
def State.export (state : State) (arguments : List Text) : State :=
  arguments.foldl (fun state argument =>
    match splitAssignment argument with
    | some (name, value) =>
        let state := state.assign name value
        { state with exported := state.exported ++ [name] }
    | none => { state with exported := state.exported ++ [argument] }) { state with status := 0 }

/-- A utility runs: its output is seen where it is not redirected. -/
def World.call (world : World) (arguments : List Text) (targets : List Target) (state : State) :
    State :=
  let (status, output) := world.utility state.events arguments
  { state with
    status
    output := if targets.any (·.descriptor = ['1']) then state.output else state.output ++ output
    events := state.events ++ [.called arguments targets status] }

/-- A background process starts. -/
def World.start (world : World) (arguments : List Text) (targets : List Target) (state : State) :
    State :=
  { state with
    status := 0
    lastProcess := world.process state.events
    events := state.events ++ [.started arguments targets] }

/-- The text of a pattern without expansions. -/
def patternText : Word → Option Text
  | [] => some []
  | .plain text :: rest | .quoted text :: rest => (patternText rest).map (text ++ ·)
  | _ => none

/-- A pattern of `case`: a star, or a text. -/
def matchesPattern (subject : Text) (pattern : Word) : Bool :=
  pattern = [.plain ['*']] || patternText pattern = some subject

/-- The body of the first arm that matches. -/
def selectArm (subject : Text) : Command → Option Command
  | .arm patterns body others =>
      if patterns.any (matchesPattern subject) then some body else selectArm subject others
  | _ => none

section Run

variable (world : World) (run : Command → State → Option (Flow × State))

/-- A command by its name: a special built-in, a function or a utility. -/
def callNamed (name : Text) (arguments : List Text) (targets : List Target) (state : State) :
    Option (Flow × State) :=
  let status := (arguments.head?.map number).getD state.status
  if name = "export".toList then some (.next, state.export arguments)
  else if name = "return".toList then some (.returned, { state with status })
  else if name = "exit".toList then some (.exited, { state with status })
  else if unsupported.any (·.toList = name) then none
  else
    match state.functions.find? (·.1 = name) with
    | some (_, body) => do
        let (flow, after) ← run body { state with arguments }
        let after := { after with arguments := state.arguments }
        return (if flow = .exited then .exited else .next, after)
    | none => some (.next, world.call (name :: arguments) targets state)

/-- A simple command with these fields: without any it only assigns. -/
def execFields (assignments : List Assignment) (targets : List Target) (state : State) :
    List Text → Option (Flow × State)
  | [] => do
      let state ← assignAll (substituteWith run) { state with status := 0 } assignments
      return (.next, state)
  | name :: arguments =>
      if assignments ≠ [] then none else callNamed world run name arguments targets state

def execSimple (assignments : List Assignment) (words : List Word) (redirects : List Redirect)
    (state : State) : Option (Flow × State) := do
  let (fields, state) ← expandWords (substituteWith run) state words
  let (targets, state) ← expandRedirects (substituteWith run) state redirects
  execFields world run assignments targets state fields

end Run

/-- The command is named by the path of its file. -/
def isPathname (fields : List Text) : Bool := fields.head?.any (·.contains '/')

/-- A run of a command. -/
def exec (world : World) : Nat → Command → State → Option (Flow × State)
  | 0, _, _ => none
  | fuel + 1, command, state =>
      match command with
      | .skip => some (.next, state)
      | .simple assignments words redirects =>
          execSimple world (exec world fuel) assignments words redirects state
      | .sequence first second => do
          let (flow, state) ← exec world fuel first state
          if flow = .next then exec world fuel second state else some (flow, state)
      | .andIf first second => do
          let (flow, state) ← exec world fuel first state
          if flow = .next ∧ state.status = 0 then exec world fuel second state
          else some (flow, state)
      | .orIf first second => do
          let (flow, state) ← exec world fuel first state
          if flow = .next ∧ state.status ≠ 0 then exec world fuel second state
          else some (flow, state)
      | .background (.simple [] words redirects) => do
          let (fields, inner) ← expandWords (substituteWith (exec world fuel)) state words
          let (targets, inner) ← expandRedirects (substituteWith (exec world fuel)) inner redirects
          if isPathname fields then
            return (.next, world.start fields targets { state with events := inner.events })
          else none
      | .background _ => none
      | .ifThen condition body => do
          let (flow, state) ← exec world fuel condition state
          if flow ≠ .next then some (flow, state)
          else if state.status = 0 then exec world fuel body state
          else some (.next, { state with status := 0 })
      | .whileDo condition body => do
          let (flow, state) ← exec world fuel condition state
          if flow ≠ .next then some (flow, state)
          else if state.status ≠ 0 then some (.next, { state with status := 0 })
          else do
            let (flow, state) ← exec world fuel body state
            if flow = .next then exec world fuel (.whileDo condition body) state
            else some (flow, state)
      | .function name body =>
          some (.next, { state with functions := (name, body) :: state.functions, status := 0 })
      | .caseOf word arms => do
          let (subject, state) ← expandText (substituteWith (exec world fuel)) state word
          match selectArm subject arms with
          | some body => exec world fuel body state
          | none => some (.next, { state with status := 0 })
      | .arm _ _ _ => none

/-- A run of a script in this environment. -/
def runScript (world : World) (fuel : Nat) (environment : Text → Option Text) (script : Text)
    (arguments : List Text) (text : Text) : Option State := do
  let program ← parseProgram text
  let (_, final) ← exec world fuel program { values := environment, script, arguments }
  return final

/-! ### The first commands of a run -/

/-- The text is a name. -/
def isName : Text → Bool
  | [] => false
  | first :: rest => isNameStart first && rest.all isNameChar

/-- A name and an equals sign before a value. -/
theorem splitAssignment_append {name : Text} (named : isName name = true) (text : Text) :
    splitAssignment (name ++ '=' :: text) = some (name, text) := by
  cases name with
  | nil => cases named
  | cons first rest =>
      obtain ⟨starts, chars⟩ := (Bool.and_eq_true _ _).mp named
      have equals : isNameChar '=' = false := by decide
      have taken : (rest ++ '=' :: text).takeWhile isNameChar = rest := by
        rw [List.takeWhile_append_of_pos (List.all_eq_true.mp chars), List.takeWhile_cons, equals]
        exact List.append_nil _
      have dropped : (rest ++ '=' :: text).dropWhile isNameChar = '=' :: text := by
        rw [List.dropWhile_append_of_pos (List.all_eq_true.mp chars), List.dropWhile_cons, equals]
        rfl
      rw [List.cons_append, splitAssignment, starts, taken, dropped]
      rfl

section Run

variable {world : World} {fuel : Nat} {rest : Command} {state : State}

/-- Where the first command of a list has run, the others follow. -/
theorem exec_sequence {first : Command} {middle : State}
    (ran : exec world fuel first state = some (.next, middle)) :
    exec world (fuel + 1) (.sequence first rest) state = exec world fuel rest middle := by
  show (exec world fuel first state).bind _ = _
  rw [ran]
  rfl

theorem exec_assignment {name text : Text} :
    exec world (fuel + 2)
      (.sequence (.simple [{ name, value := [.quoted text] }] [] []) rest) state =
      exec world (fuel + 1) rest { state.assign name text with status := 0 } := by
  refine exec_sequence ?_
  show some (Flow.next, ({ state with status := 0 } : State).assign name (text ++ [])) = _
  rw [List.append_nil]
  rfl

theorem exec_export {name text : Text} {word : Word} (named : isName name = true)
    (expands : expandFields (substituteWith (exec world fuel)) {} state word =
      some ([name ++ '=' :: text], state)) :
    exec world (fuel + 2) (.sequence (.simple [] [[.plain "export".toList], word] []) rest) state =
      exec world (fuel + 1) rest
        { state.assign name text with exported := state.exported ++ [name], status := 0 } := by
  refine exec_sequence ?_
  have words : expandWords (substituteWith (exec world fuel)) state
      [[.plain "export".toList], word] =
        some (["export".toList, name ++ '=' :: text], state) := by
    have first : expandFields (substituteWith (exec world fuel)) {} state
        [.plain "export".toList] = some (["export".toList], state) := rfl
    simp only [expandWords, first, expands, Option.bind_eq_bind, Option.bind_some]
    rfl
  show execSimple world (exec world fuel) [] _ [] state = _
  unfold execSimple
  rw [words]
  show some (Flow.next, state.export [name ++ '=' :: text]) = _
  unfold State.export
  rw [List.foldl_cons, splitAssignment_append named]
  rfl

/-! ### Runs that end -/

/-- A run of the command ends so, where it has fuel enough. -/
def Ends (world : World) (command : Command) (state : State) (result : Flow × State) : Prop :=
  ∃ fuel, exec world fuel command state = some result

variable {result : Flow × State}

theorem ends_assignment {name text : Text} :
    Ends world (.sequence (.simple [{ name, value := [.quoted text] }] [] []) rest) state result ↔
      Ends world rest { state.assign name text with status := 0 } result := by
  constructor
  · rintro ⟨_ | _ | fuel, ran⟩
    · cases ran
    · cases ran
    · exact ⟨fuel + 1, exec_assignment.symm.trans ran⟩
  · rintro ⟨_ | fuel, ran⟩
    · cases ran
    · exact ⟨fuel + 2, exec_assignment.trans ran⟩

theorem ends_export {name text : Text} {word : Word} (named : isName name = true)
    (expands : ∀ run, expandFields (substituteWith run) {} state word =
      some ([name ++ '=' :: text], state)) :
    Ends world (.sequence (.simple [] [[.plain "export".toList], word] []) rest) state result ↔
      Ends world rest
        { state.assign name text with exported := state.exported ++ [name], status := 0 }
        result := by
  constructor
  · rintro ⟨_ | _ | fuel, ran⟩
    · cases ran
    · cases ran
    · exact ⟨fuel + 1, (exec_export named (expands _)).symm.trans ran⟩
  · rintro ⟨_ | fuel, ran⟩
    · cases ran
    · exact ⟨fuel + 2, (exec_export named (expands _)).trans ran⟩

/-! ### Words that are one field -/

variable {substitute : Text → State → Option (Text × State)}

theorem expandFields_plain (text : Text) :
    expandFields substitute {} state [.plain text] = some ([text], state) := rfl

theorem expandFields_around {name value : Text} (before after : Text)
    (found : state.parameter name = some value) :
    expandFields substitute {} state
        [.quoted before, .parameter true name, .quoted after] =
      some ([before ++ value ++ after], state) := by
  show (Option.bind ((state.parameter name).map (·, state)) _) = _
  rw [found]
  rfl

/-- The word `"$name"`. -/
def quotedParameter (name : Text) : Word := [.quoted [], .parameter true name, .quoted []]

theorem expandFields_quotedParameter {name value : Text}
    (found : state.parameter name = some value) :
    expandFields substitute {} state (quotedParameter name) = some ([value], state) := by
  rw [quotedParameter, expandFields_around [] [] found, List.nil_append, List.append_nil]

theorem expandText_quotedParameter {name value : Text}
    (found : state.parameter name = some value) :
    expandText substitute state (quotedParameter name) = some (value, state) := by
  simp [quotedParameter, expandText, expandPiece, found]

theorem expandRedirects_cons {redirect : Redirect} {text : Text} {redirects : List Redirect}
    {targets : List Target}
    (first : expandText substitute state redirect.target = some (text, state))
    (others : expandRedirects substitute state redirects = some (targets, state)) :
    expandRedirects substitute state (redirect :: redirects) =
      some ({ descriptor := if redirect.descriptor = [] then ['1'] else redirect.descriptor
              kind := redirect.kind, text } :: targets, state) := by
  rw [expandRedirects, first]
  show Option.bind (expandRedirects substitute state redirects) _ = _
  rw [others]
  rfl

theorem expandWords_cons {word : Word} {field : Text} {words : List Word}
    {fields : List Text} (first : expandFields substitute {} state word = some ([field], state))
    (others : expandWords substitute state words = some (fields, state)) :
    expandWords substitute state (word :: words) = some (field :: fields, state) := by
  rw [expandWords, first]
  show Option.bind (expandWords substitute state words) _ = _
  rw [others]
  rfl

/-- A parameter without quotes as the last word. -/
theorem expandWords_parameter {name value : Text} (found : state.parameter name = some value) :
    expandWords substitute state [[.parameter false name]] =
      some ((Fields.split {} value).all, state) := by
  show (Option.bind (Option.bind ((state.parameter name).map (·, state)) _) _) = _
  rw [found]
  show some (_ ++ [], state) = _
  rw [List.append_nil]
  rfl

theorem expandWords_nil : expandWords substitute state [] = some ([], state) := rfl

/-! ### Runs whose fuel is known -/

/-- With at least this fuel, a run of the command ends so. -/
def Runs (world : World) (fuel : Nat) (command : Command) (state : State) (result : Flow × State) :
    Prop :=
  ∀ more, exec world (more + fuel) command state = some result

namespace Runs

variable {first second : Command} {middle : State} {flow : Flow}

theorem weaken {command : Command} (ran : Runs world fuel command state result) (more : Nat) :
    Runs world (more + fuel) command state result := fun other => by
  rw [← Nat.add_assoc]
  exact ran (other + more)

theorem ends {command : Command} (ran : Runs world fuel command state result) :
    Ends world command state result := ⟨0 + fuel, ran 0⟩

theorem skip : Runs world 1 .skip state (.next, state) := fun _ => rfl

theorem function {name : Text} {body : Command} :
    Runs world 1 (.function name body) state
      (.next, { state with functions := (name, body) :: state.functions, status := 0 }) :=
  fun _ => rfl

theorem sequence (ran : Runs world fuel first state (.next, middle))
    (others : Runs world fuel second middle result) :
    Runs world (fuel + 1) (.sequence first second) state result := fun more => by
  rw [← Nat.add_assoc, exec_sequence (ran more)]
  exact others more

/-- The commands behind one that leaves the script are not run. -/
theorem sequence_left (ran : Runs world fuel first state (flow, middle)) (left : flow ≠ .next) :
    Runs world (fuel + 1) (.sequence first second) state (flow, middle) := fun more => by
  show (exec world (more + fuel) first state).bind _ = _
  rw [ran more, Option.bind_some]
  exact if_neg left

/-- The second command of an and-list is not run. -/
theorem andIf_failed (ran : Runs world fuel first state (.next, middle))
    (failed : middle.status ≠ 0) :
    Runs world (fuel + 1) (.andIf first second) state (.next, middle) := fun more => by
  show (exec world (more + fuel) first state).bind _ = _
  rw [ran more, Option.bind_some]
  exact if_neg fun both => failed both.2

/-- The body is not run. -/
theorem ifThen_failed (ran : Runs world fuel first state (.next, middle))
    (failed : middle.status ≠ 0) :
    Runs world (fuel + 1) (.ifThen first second) state
      (.next, { middle with status := 0 }) := fun more => by
  show (exec world (more + fuel) first state).bind _ = _
  rw [ran more, Option.bind_some]
  exact (if_neg (fun other => other rfl)).trans (if_neg failed)

/-- The first arm matches. -/
theorem caseOf {word pattern : Word} {subject : Text} {others : Command}
    (expands : ∀ run, expandText (substituteWith run) state word = some (subject, state))
    (text : patternText pattern = some subject) (ran : Runs world fuel first state result) :
    Runs world (fuel + 1) (.caseOf word (.arm [pattern] first others)) state result :=
  fun more => by
  have selected : selectArm subject (.arm [pattern] first others) = some first := by
    rw [selectArm, List.any_cons, matchesPattern, text]
    simp only [decide_true, Bool.or_true, Bool.true_or, if_true]
  show (expandText (substituteWith (exec world (more + fuel))) state word).bind _ = _
  rw [expands, Option.bind_some]
  dsimp only
  rw [selected]
  exact ran more

section Named

variable {words : List Word} {redirects : List Redirect} {name : Text} {arguments : List Text}
  {targets : List Target}

/-- A command with a name is what that name stands for. -/
theorem simple (expands : ∀ run, expandWords (substituteWith run) state words =
      some (name :: arguments, state))
    (directs : ∀ run, expandRedirects (substituteWith run) state redirects = some (targets, state))
    (named : ∀ more, callNamed world (exec world (more + fuel)) name arguments targets state =
      some result) :
    Runs world (fuel + 1) (.simple [] words redirects) state result := fun more => by
  show execSimple world (exec world (more + fuel)) [] words redirects state = _
  unfold execSimple
  rw [expands]
  show (expandRedirects (substituteWith (exec world (more + fuel))) state redirects).bind _ = _
  rw [directs]
  exact named more

/-- The name is not one of a special built-in utility. -/
def isSpecial (name : Text) : Bool :=
  ("export" :: "return" :: "exit" :: unsupported).any (·.toList = name)

theorem callNamed_plain {run : Command → State → Option (Flow × State)}
    (plain : isSpecial name = false) :
    callNamed world run name arguments targets state =
      match state.functions.find? (·.1 = name) with
      | some (_, body) => do
          let (flow, after) ← run body { state with arguments }
          let after := { after with arguments := state.arguments }
          return (if flow = .exited then .exited else .next, after)
      | none => some (.next, world.call (name :: arguments) targets state) := by
  simp only [isSpecial, List.any_cons, Bool.or_eq_false_iff, decide_eq_false_iff_not] at plain
  unfold callNamed
  rw [if_neg (Ne.symm plain.1), if_neg (Ne.symm plain.2.1), if_neg (Ne.symm plain.2.2.1),
    plain.2.2.2, if_neg Bool.false_ne_true]

/-- A utility is called. -/
theorem call (expands : ∀ run, expandWords (substituteWith run) state words =
      some (name :: arguments, state))
    (directs : ∀ run, expandRedirects (substituteWith run) state redirects = some (targets, state))
    (plain : isSpecial name = false) (utility : state.functions.find? (·.1 = name) = none) :
    Runs world 1 (.simple [] words redirects) state
      (.next, world.call (name :: arguments) targets state) := by
  have named : ∀ more, callNamed world (exec world (more + 0)) name arguments targets state =
      some (.next, world.call (name :: arguments) targets state) := fun more => by
    rw [callNamed_plain plain, utility]
  exact simple expands directs named

/-- A function is called, and comes to its end. -/
theorem callFunction {body : Command} {after : State}
    (expands : ∀ run, expandWords (substituteWith run) state words =
      some (name :: arguments, state))
    (directs : ∀ run, expandRedirects (substituteWith run) state redirects = some (targets, state))
    (plain : isSpecial name = false)
    (found : state.functions.find? (·.1 = name) = some (name, body))
    (ran : Runs world fuel body { state with arguments } (.next, after)) :
    Runs world (fuel + 1) (.simple [] words redirects) state
      (.next, { after with arguments := state.arguments }) := by
  refine simple expands directs fun more => ?_
  rw [callNamed_plain plain, found]
  show (exec world (more + fuel) body _).bind _ = _
  rw [ran more]
  rfl

theorem exit (expands : ∀ run, expandWords (substituteWith run) state words =
      some ("exit".toList :: arguments, state)) :
    Runs world 1 (.simple [] words []) state
      (.exited, { state with status := (arguments.head?.map number).getD state.status }) := by
  have other : "exit".toList ≠ "export".toList ∧ "exit".toList ≠ "return".toList := by decide
  have named : ∀ more, callNamed world (exec world (more + 0)) "exit".toList arguments [] state =
      some (.exited, { state with status := (arguments.head?.map number).getD state.status }) :=
    fun more => by
      unfold callNamed
      rw [if_neg other.1, if_neg other.2, if_pos rfl]
  exact simple expands (fun _ => rfl) named

/-- A program that is named by its path is started. -/
theorem background (expands : ∀ run, expandWords (substituteWith run) state words =
      some (arguments, state))
    (directs : ∀ run, expandRedirects (substituteWith run) state redirects = some (targets, state))
    (path : isPathname arguments = true) :
    Runs world 1 (.background (.simple [] words redirects)) state
      (.next, world.start arguments targets state) := fun more => by
  show (expandWords (substituteWith (exec world more)) state words).bind _ = _
  rw [expands, Option.bind_some]
  show (expandRedirects (substituteWith (exec world more)) state redirects).bind _ = _
  rw [directs, Option.bind_some]
  exact if_pos path

end Named

end Runs

end Run

end IrohTunnel.Library.Shell
