/-
**A POSIX shell: how the tokens of a script are grouped into commands.**

The fragment has no pipelines, no `!`, `elif`, `else`, `for` or `until`, no subshells and no
redirections of compound commands: a script with one of them has no commands here.

* `Command` — the commands, with lists and the arms of `case` as commands of their own;
* `parseProgram` — the commands of a text, `none` where the grammar is not met.
-/

import IrohTunnel.Library.ShellWords

namespace IrohTunnel.Library.Shell

/-! ### Commands -/

/-- The redirection of a simple command, and the word it goes to. -/
structure Redirect where
  descriptor : List Char
  kind : Redirection
  target : Word
  deriving DecidableEq, Repr

/-- An assignment at the start of a simple command. -/
structure Assignment where
  name : List Char
  value : Word
  deriving DecidableEq, Repr

inductive Command
  | skip
  | simple (assignments : List Assignment) (words : List Word) (redirects : List Redirect)
  | sequence (first second : Command)
  | andIf (first second : Command)
  | orIf (first second : Command)
  | background (command : Command)
  | ifThen (condition body : Command)
  | whileDo (condition body : Command)
  | function (name : List Char) (body : Command)
  | caseOf (word : Word) (arms : Command)
  /-- One arm of a `case`, before the others. -/
  | arm (patterns : List Word) (body others : Command)
  deriving DecidableEq, Repr

/-! ### Grammar -/

/-- The name and the rest of `name=rest`. -/
def splitAssignment : List Char → Option (List Char × List Char)
  | [] => none
  | char :: rest =>
      if !isNameStart char then none
      else
        let name := rest.takeWhile isNameChar
        match rest.dropWhile isNameChar with
        | '=' :: value => some (char :: name, value)
        | _ => none

/-- The assignment that a word is. -/
def Word.assignment : Word → Option Assignment
  | .plain text :: rest =>
      (splitAssignment text).map fun (name, value) =>
        { name, value := if value = [] then rest else .plain value :: rest }
  | _ => none

/-- A simple command: its assignments, words and redirections, in order. -/
def parseSimple (assignments : List Assignment) (words : List Word) (redirects : List Redirect) :
    List Token → Option (Command × List Token)
  | .word word :: rest =>
      match if words = [] then word.assignment else none with
      | some assignment => parseSimple (assignments ++ [assignment]) words redirects rest
      | none => parseSimple assignments (words ++ [word]) redirects rest
  | .redirect descriptor kind :: .word target :: rest =>
      parseSimple assignments words (redirects ++ [{ descriptor, kind, target }]) rest
  | .redirect _ _ :: _ => none
  | tokens =>
      if assignments = [] ∧ words = [] ∧ redirects = [] then none
      else some (.simple assignments words redirects, tokens)

def skipNewlines : List Token → List Token
  | .newline :: rest => skipNewlines rest
  | tokens => tokens

/-- The patterns of an arm up to its parenthesis, one after another. -/
def parsePatterns (patterns : List Word) : List Token → Option (List Word × List Token)
  | .word word :: .operator .pipe :: rest => parsePatterns (patterns ++ [word]) rest
  | .word word :: .operator .rightParen :: rest => some (patterns ++ [word], rest)
  | _ => none

/-- The word is these characters, outside quotes. -/
def Word.is (word : Word) (text : String) : Bool := word = [.plain text.toList]

/-- The reserved words that end a list. -/
def endsList (word : Word) : Bool :=
  ["then", "fi", "do", "done", "esac", "\x7d"].any word.is

/-- What is to be parsed. -/
inductive Goal
  | list
  | andOr
  /-- The rest of an and-or list, after its first commands. -/
  | andOrRest (first : Command)
  | command
  | arms
  deriving DecidableEq, Repr

/-- One reserved word. -/
def expect (text : String) : List Token → Option (List Token)
  | .word word :: rest => if word.is text then some rest else none
  | _ => none

/-- The fuel bounds the depth of the grammar; a script needs no more than a few for each token. -/
def parse : Nat → Goal → List Token → Option (Command × List Token)
  | 0, _, _ => none
  | fuel + 1, .list, tokens =>
      match skipNewlines tokens with
      | [] => some (.skip, [])
      | .operator .doubleSemicolon :: rest => some (.skip, .operator .doubleSemicolon :: rest)
      | .word word :: rest =>
          if endsList word then some (.skip, .word word :: rest)
          else do
            let (first, rest) ← parse fuel .andOr (.word word :: rest)
            match rest with
            | .operator .semicolon :: rest | .newline :: rest => do
                let (second, rest) ← parse fuel .list rest
                return (.sequence first second, rest)
            | .operator .ampersand :: rest => do
                let (second, rest) ← parse fuel .list rest
                return (.sequence (.background first) second, rest)
            | rest => return (.sequence first .skip, rest)
      | _ => none
  | fuel + 1, .andOr, tokens => do
      let (first, rest) ← parse fuel .command tokens
      parse fuel (.andOrRest first) rest
  | fuel + 1, .andOrRest first, tokens =>
      match tokens with
      | .operator .andIf :: rest => do
          let (second, rest) ← parse fuel .command (skipNewlines rest)
          parse fuel (.andOrRest (.andIf first second)) rest
      | .operator .orIf :: rest => do
          let (second, rest) ← parse fuel .command (skipNewlines rest)
          parse fuel (.andOrRest (.orIf first second)) rest
      | _ => some (first, tokens)
  | fuel + 1, .command, tokens =>
      match tokens with
      | .word word :: rest =>
          if word.is "if" then do
            let (condition, rest) ← parse fuel .list rest
            let rest ← expect "then" rest
            let (body, rest) ← parse fuel .list rest
            return (.ifThen condition body, ← expect "fi" rest)
          else if word.is "while" then do
            let (condition, rest) ← parse fuel .list rest
            let rest ← expect "do" rest
            let (body, rest) ← parse fuel .list rest
            return (.whileDo condition body, ← expect "done" rest)
          else if word.is "\x7b" then do
            let (body, rest) ← parse fuel .list rest
            return (body, ← expect "\x7d" rest)
          else if word.is "case" then
            match rest with
            | .word subject :: rest => do
                let (arms, rest) ← parse fuel .arms (← expect "in" rest)
                return (.caseOf subject arms, rest)
            | _ => none
          else
            match word, rest with
            | [.plain name], .operator .leftParen :: .operator .rightParen :: rest => do
                let (body, rest) ← parse fuel .command (skipNewlines rest)
                return (.function name body, rest)
            | _, _ => if word.is "!" then none else parseSimple [] [] [] tokens
      | _ => parseSimple [] [] [] tokens
  | fuel + 1, .arms, tokens =>
      match expect "esac" (skipNewlines tokens) with
      | some rest => some (.skip, rest)
      | none => do
          let (patterns, rest) ← parsePatterns [] (skipNewlines tokens)
          let (body, rest) ← parse fuel .list rest
          match rest with
          | .operator .doubleSemicolon :: rest => do
              let (others, rest) ← parse fuel .arms rest
              return (.arm patterns body others, rest)
          | _ => return (.arm patterns body .skip, ← expect "esac" rest)

/-- The commands of the tokens of a script. -/
def parseTokens (tokens : List Token) : Option Command := do
  match ← parse (8 * tokens.length + 8) .list tokens with
  | (command, []) => some command
  | _ => none

def parseProgram (text : List Char) : Option Command := do parseTokens (← tokenize text)

end IrohTunnel.Library.Shell
