/-
**A POSIX shell: what a program keeps in every run.**

`Limits` says which variables a program may not assign, which names it may run and what it may start
in the background; `Command.within` checks it on the text, substitutions included.

* `exec_holds` — a program within its limits keeps them in every run, through its functions, loops
  and substitutions, and whatever the utilities answer.
-/

import IrohTunnel.Library.ShellRuns

namespace IrohTunnel.Library.Shell

/-! ### Limits -/

/-- What a program may do. -/
structure Limits where
  /-- The variables that it gives no value. -/
  fixed : List Text
  /-- The variables that are exported before it runs. -/
  exported : List Text := []
  /-- The functions and utilities that it runs. -/
  names : List Text
  /-- The commands that it may start in the background. -/
  starts : List Word → Bool

/-- The texts of the command substitutions of a word. -/
def Word.bodies (word : Word) : List Text :=
  word.filterMap fun
    | .substitution _ body => some body
    | _ => none

/-- A command without words, or one with a name of the program's. -/
def namedWithin (limits : Limits) : List Word → Bool
  | [] => true
  | [.plain name] :: _ => limits.names.contains name && name ≠ "export".toList
  | _ => false

section Within

variable (limits : Limits)

/-- A command within the limits, where `inner` says so of the text of a substitution. -/
def Command.withinBy (inner : Text → Bool) : Command → Bool
  | .skip => true
  | .simple assignments words redirects =>
      namedWithin limits words && words.all (·.bodies.all inner) &&
        redirects.all (·.target.bodies.all inner) &&
        assignments.all fun assignment =>
          !limits.fixed.contains assignment.name && assignment.value.bodies.all inner
  | .sequence first second | .andIf first second | .orIf first second | .ifThen first second
  | .whileDo first second => first.withinBy inner && second.withinBy inner
  | .background (.simple [] words redirects) =>
      limits.starts words && words.all (·.bodies.all inner) &&
        redirects.all (·.target.bodies.all inner)
  | .background _ => false
  | .function _ body => body.withinBy inner
  | .caseOf word arms => word.bodies.all inner && arms.withinBy inner
  | .arm _ body others => body.withinBy inner && others.withinBy inner

/-- The text of a substitution, with at most this depth of substitutions in it. -/
def bodyWithin : Nat → Text → Bool
  | 0, _ => false
  | depth + 1, body => (parseProgram body).all (Command.withinBy limits (bodyWithin depth))

/-- A command within the limits, substitutions included. -/
def Command.Within (command : Command) : Prop :=
  ∃ depth, command.withinBy limits (bodyWithin limits depth) = true

/-- The substitutions of a word are within the limits. -/
def Word.Within (word : Word) : Prop :=
  ∀ body ∈ word.bodies, ∀ program, parseProgram body = some program → program.Within limits

/-- What holds of the state of a shell that runs a program within its limits. -/
structure State.Holds (values : Text → Option Text) (allowed : List Text → Prop) (state : State) :
    Prop where
  values : ∀ name ∈ limits.fixed, state.values name = values name
  exported : ∀ name ∈ limits.exported, name ∈ state.exported
  functions : ∀ entry ∈ state.functions, entry.2.Within limits
  called : ∀ arguments targets status, .called arguments targets status ∈ state.events →
    ∃ name ∈ limits.names, arguments.head? = some name
  started : ∀ arguments targets, .started arguments targets ∈ state.events → allowed arguments

end Within

variable {limits : Limits} {values : Text → Option Text} {allowed : List Text → Prop}

theorem Word.within_of_all {depth : Nat} {word : Word}
    (within : word.bodies.all (bodyWithin limits depth) = true) : word.Within limits := by
  intro body member program parsed
  have inner := List.all_eq_true.mp within body member
  cases depth with
  | zero => cases inner
  | succ depth =>
      refine ⟨depth, ?_⟩
      rw [bodyWithin, parsed] at inner
      exact inner

theorem Word.Within.tail {piece : Piece} {rest : Word}
    (within : Word.Within limits (piece :: rest)) : Word.Within limits rest := fun body member =>
  within body (by
    unfold Word.bodies at member ⊢
    rw [List.filterMap_cons]
    split
    · exact member
    · exact List.mem_cons_of_mem _ member)

/-! ### Expansion -/

namespace State.Holds

variable {state : State}

theorem assign (holds : state.Holds limits values allowed) {name : Text}
    (free : name ∉ limits.fixed) (value : Text) :
    (state.assign name value).Holds limits values allowed :=
  { holds with
    values := fun other member => by
      have differs : other ≠ name := by
        rintro rfl
        exact free member
      exact (if_neg differs).trans (holds.values other member) }

theorem call (world : World) (holds : state.Holds limits values allowed) {name : Text}
    (member : name ∈ limits.names) (arguments : List Text) (targets : List Target) :
    (world.call (name :: arguments) targets state).Holds limits values allowed :=
  { holds with
    called := fun others targets status found => by
      rcases List.mem_append.mp found with earlier | last
      · exact holds.called others targets status earlier
      · cases List.mem_singleton.mp last
        exact ⟨name, member, rfl⟩
    started := fun others targets found => by
      rcases List.mem_append.mp found with earlier | last
      · exact holds.started others targets earlier
      · cases List.mem_singleton.mp last }

theorem start (world : World) (holds : state.Holds limits values allowed) {arguments : List Text}
    (meant : allowed arguments) (targets : List Target) :
    (world.start arguments targets state).Holds limits values allowed :=
  { holds with
    called := fun others targets status found => by
      rcases List.mem_append.mp found with earlier | last
      · exact holds.called others targets status earlier
      · cases List.mem_singleton.mp last
    started := fun others targets found => by
      rcases List.mem_append.mp found with earlier | last
      · exact holds.started others targets earlier
      · cases List.mem_singleton.mp last
        exact meant }

/-- The events of commands run apart, in the state around them. -/
theorem of_inner {inner : State} (holds : state.Holds limits values allowed)
    (after : inner.Holds limits values allowed) :
    ({ state with events := inner.events }).Holds limits values allowed :=
  { holds with called := after.called, started := after.started }

theorem output (holds : state.Holds limits values allowed) (output : Text) :
    ({ state with output }).Holds limits values allowed :=
  { holds with values := holds.values }

theorem status (holds : state.Holds limits values allowed) (status : Nat) :
    ({ state with status }).Holds limits values allowed :=
  { holds with values := holds.values }

theorem arguments (holds : state.Holds limits values allowed) (arguments : List Text) :
    ({ state with arguments }).Holds limits values allowed :=
  { holds with values := holds.values }

theorem function (holds : state.Holds limits values allowed) {name : Text} {body : Command}
    (within : body.Within limits) :
    ({ state with functions := (name, body) :: state.functions, status := 0 }).Holds limits values
      allowed :=
  { holds with
    functions := fun entry member => by
      rcases List.mem_cons.mp member with rfl | member
      · exact within
      · exact holds.functions entry member }

end State.Holds

section Expansion

variable {run : Command → State → Option (Flow × State)}

/-- Every run of a program within its limits keeps them. -/
def Keeps (limits : Limits) (values : Text → Option Text) (allowed : List Text → Prop)
    (run : Command → State → Option (Flow × State)) : Prop :=
  ∀ {command state flow after}, command.Within limits → state.Holds limits values allowed →
    run command state = some (flow, after) → after.Holds limits values allowed

variable (keeps : Keeps limits values allowed run) {state after : State}
include keeps

theorem substituteWith_holds {body text : Text}
    (within : ∀ program, parseProgram body = some program → program.Within limits)
    (holds : state.Holds limits values allowed)
    (done : substituteWith run body state = some (text, after)) :
    after.Holds limits values allowed := by
  obtain ⟨program, parsed, done⟩ := Option.bind_eq_some_iff.mp done
  obtain ⟨⟨flow, inner⟩, ran, done⟩ := Option.bind_eq_some_iff.mp done
  have kept := keeps (within program parsed) (holds.output []) ran
  cases done
  exact { holds with called := kept.called, started := kept.started }

theorem expandPiece_holds {piece : Piece} {rest : Word} {text : Text}
    (within : Word.Within limits (piece :: rest)) (holds : state.Holds limits values allowed)
    (done : expandPiece (substituteWith run) state piece = some (text, after)) :
    after.Holds limits values allowed := by
  cases piece with
  | plain text | quoted text | arithmetic inQuotes body =>
      cases done
      exact holds
  | parameter inQuotes name =>
      obtain ⟨value, -, same⟩ := Option.map_eq_some_iff.mp done
      cases same
      exact holds
  | substitution inQuotes body =>
      exact substituteWith_holds keeps (within body List.mem_cons_self) holds done

theorem expandFields_holds {word : Word} {fields : Fields} {texts : List Text}
    (within : word.Within limits) (holds : state.Holds limits values allowed)
    (done : expandFields (substituteWith run) fields state word = some (texts, after)) :
    after.Holds limits values allowed := by
  induction word generalizing fields state with
  | nil =>
      cases done
      exact holds
  | cons piece rest hyp =>
      obtain ⟨⟨text, next⟩, first, done⟩ := Option.bind_eq_some_iff.mp done
      exact hyp within.tail (expandPiece_holds keeps within holds first) done

theorem expandText_holds {word : Word} {text : Text} (within : word.Within limits)
    (holds : state.Holds limits values allowed)
    (done : expandText (substituteWith run) state word = some (text, after)) :
    after.Holds limits values allowed := by
  induction word generalizing state text with
  | nil =>
      cases done
      exact holds
  | cons piece rest hyp =>
      obtain ⟨⟨first, next⟩, expanded, done⟩ := Option.bind_eq_some_iff.mp done
      obtain ⟨⟨others, last⟩, expandedRest, done⟩ := Option.bind_eq_some_iff.mp done
      cases done
      exact hyp within.tail (expandPiece_holds keeps within holds expanded) expandedRest

theorem expandWords_holds {words : List Word} {fields : List Text}
    (within : ∀ word ∈ words, word.Within limits) (holds : state.Holds limits values allowed)
    (done : expandWords (substituteWith run) state words = some (fields, after)) :
    after.Holds limits values allowed := by
  induction words generalizing state fields with
  | nil =>
      cases done
      exact holds
  | cons word rest hyp =>
      obtain ⟨⟨first, next⟩, expanded, done⟩ := Option.bind_eq_some_iff.mp done
      obtain ⟨⟨others, last⟩, expandedRest, done⟩ := Option.bind_eq_some_iff.mp done
      cases done
      exact hyp (fun word member => within word (List.mem_cons_of_mem _ member))
        (expandFields_holds keeps (within word List.mem_cons_self) holds expanded) expandedRest

theorem expandRedirects_holds {redirects : List Redirect} {targets : List Target}
    (within : ∀ redirect ∈ redirects, redirect.target.Within limits)
    (holds : state.Holds limits values allowed)
    (done : expandRedirects (substituteWith run) state redirects = some (targets, after)) :
    after.Holds limits values allowed := by
  induction redirects generalizing state targets with
  | nil =>
      cases done
      exact holds
  | cons redirect rest hyp =>
      obtain ⟨⟨text, next⟩, expanded, done⟩ := Option.bind_eq_some_iff.mp done
      obtain ⟨⟨others, last⟩, expandedRest, done⟩ := Option.bind_eq_some_iff.mp done
      cases done
      exact hyp (fun redirect member => within redirect (List.mem_cons_of_mem _ member))
        (expandText_holds keeps (within redirect List.mem_cons_self) holds expanded) expandedRest

theorem assignAll_holds {assignments : List Assignment}
    (within : ∀ assignment ∈ assignments,
      assignment.name ∉ limits.fixed ∧ assignment.value.Within limits)
    (holds : state.Holds limits values allowed)
    (done : assignAll (substituteWith run) state assignments = some after) :
    after.Holds limits values allowed := by
  induction assignments generalizing state with
  | nil =>
      cases done
      exact holds
  | cons assignment rest hyp =>
      obtain ⟨⟨value, next⟩, expanded, done⟩ := Option.bind_eq_some_iff.mp done
      obtain ⟨free, valueWithin⟩ := within assignment List.mem_cons_self
      exact hyp (fun other member => within other (List.mem_cons_of_mem _ member))
        ((expandText_holds keeps valueWithin holds expanded).assign free value) done

end Expansion

/-! ### Commands -/

/-- A command with a name has it as its first field. -/
theorem expandWords_named {run : Command → State → Option (Flow × State)} {state after : State}
    {name : Text} {words : List Word} {fields : List Text}
    (done : expandWords (substituteWith run) state ([.plain name] :: words) =
      some (fields, after)) : ∃ arguments, fields = name :: arguments := by
  rw [expandWords, expandFields_plain, Option.bind_eq_bind, Option.bind_some] at done
  obtain ⟨⟨others, last⟩, -, same⟩ := Option.bind_eq_some_iff.mp done
  cases same
  exact ⟨others, rfl⟩

/-- The fields of the words of a command within the limits. -/
theorem named_of_within {run : Command → State → Option (Flow × State)} {state after : State}
    {words : List Word} (named : namedWithin limits words = true) {name : Text}
    {arguments : List Text}
    (expanded : expandWords (substituteWith run) state words = some (name :: arguments, after)) :
    name ∈ limits.names ∧ name ≠ "export".toList := by
  unfold namedWithin at named
  split at named
  · cases expanded
  · obtain ⟨others, same⟩ := expandWords_named expanded
    cases same
    simpa only [Bool.and_eq_true, List.contains_iff_mem, decide_eq_true_eq] using named
  · cases named

section Commands

variable {world : World} {run : Command → State → Option (Flow × State)}
  (keeps : Keeps limits values allowed run) {state after : State} {flow : Flow}
include keeps

theorem callNamed_holds {name : Text} {arguments : List Text} {targets : List Target}
    (member : name ∈ limits.names) (other : name ≠ "export".toList)
    (holds : state.Holds limits values allowed)
    (done : callNamed world run name arguments targets state = some (flow, after)) :
    after.Holds limits values allowed := by
  unfold callNamed at done
  rw [if_neg other] at done
  split at done
  · cases done
    exact holds.status _
  split at done
  · cases done
    exact holds.status _
  split at done
  · cases done
  cases found : state.functions.find? (·.1 = name) with
  | none =>
      rw [found] at done
      cases done
      exact holds.call world member arguments targets
  | some entry =>
      rw [found] at done
      obtain ⟨⟨bodyFlow, inner⟩, ran, done⟩ := Option.bind_eq_some_iff.mp done
      have within := holds.functions entry (List.mem_of_find?_eq_some found)
      cases done
      exact (keeps within (holds.arguments arguments) ran).arguments _

theorem execFields_holds {assignments : List Assignment} {fields : List Text}
    {targets : List Target}
    (named : ∀ name arguments, fields = name :: arguments →
      name ∈ limits.names ∧ name ≠ "export".toList)
    (within : ∀ assignment ∈ assignments,
      assignment.name ∉ limits.fixed ∧ assignment.value.Within limits)
    (holds : state.Holds limits values allowed)
    (done : execFields world run assignments targets state fields = some (flow, after)) :
    after.Holds limits values allowed := by
  cases fields with
  | nil =>
      rw [execFields, Option.bind_eq_bind, Option.bind_eq_some_iff] at done
      obtain ⟨last, assigned, same⟩ := done
      cases same
      exact assignAll_holds keeps within (holds.status 0) assigned
  | cons name arguments =>
      obtain ⟨member, other⟩ := named name arguments rfl
      rw [execFields] at done
      split at done
      · cases done
      · exact callNamed_holds keeps member other holds done

theorem execSimple_holds {assignments : List Assignment} {words : List Word}
    {redirects : List Redirect} (named : namedWithin limits words = true)
    (wordsWithin : ∀ word ∈ words, word.Within limits)
    (redirectsWithin : ∀ redirect ∈ redirects, redirect.target.Within limits)
    (assignmentsWithin : ∀ assignment ∈ assignments,
      assignment.name ∉ limits.fixed ∧ assignment.value.Within limits)
    (holds : state.Holds limits values allowed)
    (done : execSimple world run assignments words redirects state = some (flow, after)) :
    after.Holds limits values allowed := by
  obtain ⟨⟨fields, afterWords⟩, expanded, done⟩ := Option.bind_eq_some_iff.mp done
  obtain ⟨⟨targets, afterTargets⟩, directed, done⟩ := Option.bind_eq_some_iff.mp done
  exact execFields_holds keeps (fun _ _ same => named_of_within named (same ▸ expanded))
    assignmentsWithin
    (expandRedirects_holds keeps redirectsWithin
      (expandWords_holds keeps wordsWithin holds expanded) directed) done

end Commands

/-- The selected arm of a `case` is within the limits. -/
theorem Command.Within.selectArm {subject : Text} {arms body : Command}
    (within : arms.Within limits) (selected : Shell.selectArm subject arms = some body) :
    body.Within limits := by
  obtain ⟨depth, within⟩ := within
  refine ⟨depth, ?_⟩
  induction arms with
  | arm patterns first others _ hyp =>
      rw [Command.withinBy, Bool.and_eq_true] at within
      unfold Shell.selectArm at selected
      split at selected
      · cases selected
        exact within.1
      · exact hyp selected within.2
  | _ => cases selected

/-- The second part of a command, where it is run. -/
theorem Keeps.second {run : Command → State → Option (Flow × State)}
    (keeps : Keeps limits values allowed run) {goes : Prop} [Decidable goes] {second : Command}
    {middle after : State} {stopped flow : Flow} (within : second.Within limits)
    (held : middle.Holds limits values allowed)
    (done : (if goes then run second middle else some (stopped, middle)) = some (flow, after)) :
    after.Holds limits values allowed := by
  split at done
  · exact keeps within held done
  · cases done
    exact held

theorem Word.within_of_words {depth : Nat} {words : List Word}
    (within : (words.all fun word => word.bodies.all (bodyWithin limits depth)) = true) :
    ∀ word ∈ words, word.Within limits := fun word member =>
  within_of_all (List.all_eq_true.mp within word member)

theorem Word.within_of_targets {depth : Nat} {redirects : List Redirect}
    (within : (redirects.all fun redirect =>
      redirect.target.bodies.all (bodyWithin limits depth)) = true) :
    ∀ redirect ∈ redirects, redirect.target.Within limits := fun redirect member =>
  within_of_all (List.all_eq_true.mp within redirect member)

/-- **A program within its limits keeps them in every run.** The induction is on the fuel. -/
theorem exec_holds (world : World)
    (meant : ∀ run words state fields after, limits.starts words = true →
      state.Holds limits values allowed →
      expandWords (substituteWith run) state words = some (fields, after) → allowed fields)
    (fuel : Nat) : Keeps limits values allowed (exec world fuel) := by
  induction fuel with
  | zero =>
      intro command state flow after within holds done
      cases done
  | succ fuel keeps =>
      intro command state flow after within holds done
      obtain ⟨depth, checked⟩ := within
      cases command with
      | skip =>
          cases done
          exact holds
      | simple assignments words redirects =>
          simp only [Command.withinBy, Bool.and_eq_true] at checked
          obtain ⟨⟨⟨named, wordsWithin⟩, targetsWithin⟩, assignmentsWithin⟩ := checked
          refine execSimple_holds keeps named (Word.within_of_words wordsWithin)
            (Word.within_of_targets targetsWithin) (fun assignment member => ?_) holds done
          have free := List.all_eq_true.mp assignmentsWithin assignment member
          rw [Bool.and_eq_true] at free
          exact ⟨by simpa using free.1, Word.within_of_all free.2⟩
      | sequence first second =>
          simp only [Command.withinBy, Bool.and_eq_true] at checked
          obtain ⟨⟨firstFlow, middle⟩, ran, done⟩ := Option.bind_eq_some_iff.mp done
          exact keeps.second ⟨depth, checked.2⟩ (keeps ⟨depth, checked.1⟩ holds ran) done
      | andIf first second =>
          simp only [Command.withinBy, Bool.and_eq_true] at checked
          obtain ⟨⟨firstFlow, middle⟩, ran, done⟩ := Option.bind_eq_some_iff.mp done
          exact keeps.second ⟨depth, checked.2⟩ (keeps ⟨depth, checked.1⟩ holds ran) done
      | orIf first second =>
          simp only [Command.withinBy, Bool.and_eq_true] at checked
          obtain ⟨⟨firstFlow, middle⟩, ran, done⟩ := Option.bind_eq_some_iff.mp done
          exact keeps.second ⟨depth, checked.2⟩ (keeps ⟨depth, checked.1⟩ holds ran) done
      | ifThen condition body =>
          simp only [Command.withinBy, Bool.and_eq_true] at checked
          obtain ⟨⟨conditionFlow, middle⟩, ran, done⟩ := Option.bind_eq_some_iff.mp done
          have held := keeps ⟨depth, checked.1⟩ holds ran
          dsimp only at done
          split at done
          · cases done
            exact held
          split at done
          · exact keeps ⟨depth, checked.2⟩ held done
          · cases done
            exact held.status 0
      | whileDo condition body =>
          have again := checked
          simp only [Command.withinBy, Bool.and_eq_true] at checked
          obtain ⟨⟨conditionFlow, middle⟩, ran, done⟩ := Option.bind_eq_some_iff.mp done
          have held := keeps ⟨depth, checked.1⟩ holds ran
          dsimp only at done
          split at done
          · cases done
            exact held
          split at done
          · cases done
            exact held.status 0
          obtain ⟨⟨bodyFlow, last⟩, ranBody, done⟩ := Option.bind_eq_some_iff.mp done
          exact keeps.second ⟨depth, again⟩ (keeps ⟨depth, checked.2⟩ held ranBody) done
      | function name body =>
          cases done
          exact holds.function ⟨depth, checked⟩
      | caseOf word arms =>
          simp only [Command.withinBy, Bool.and_eq_true] at checked
          obtain ⟨⟨subject, middle⟩, expanded, done⟩ := Option.bind_eq_some_iff.mp done
          have held := expandText_holds keeps (Word.within_of_all checked.1) holds expanded
          dsimp only at done
          cases selected : selectArm subject arms with
          | none =>
              rw [selected] at done
              cases done
              exact held.status 0
          | some body =>
              rw [selected] at done
              exact keeps (Command.Within.selectArm ⟨depth, checked.2⟩ selected) held done
      | arm patterns body others => cases done
      | background command =>
          cases command with
          | simple assignments words redirects =>
              cases assignments with
              | cons first rest => cases done
              | nil =>
                  simp only [Command.withinBy, Bool.and_eq_true] at checked
                  obtain ⟨⟨starts, wordsWithin⟩, targetsWithin⟩ := checked
                  obtain ⟨⟨fields, afterWords⟩, expanded, done⟩ := Option.bind_eq_some_iff.mp done
                  obtain ⟨⟨targets, inner⟩, directed, done⟩ := Option.bind_eq_some_iff.mp done
                  have held := expandRedirects_holds keeps (Word.within_of_targets targetsWithin)
                    (expandWords_holds keeps (Word.within_of_words wordsWithin) holds expanded)
                    directed
                  dsimp only at done
                  split at done
                  · cases done
                    exact (holds.of_inner held).start world
                      (meant _ _ _ _ _ starts holds expanded) targets
                  · cases done
          | _ => cases done

end IrohTunnel.Library.Shell
