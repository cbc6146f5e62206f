/-
**The command that a refused operation suggests.**

It is the argument list behind `sudo`, each argument quoted where it needs it.
`ensurePrivilege_rerun` says that a shell makes of it exactly this list, whatever the arguments are:
an argument without quotes has no character that means anything to a shell, and between single
quotes only a single quote does.
-/

import IrohTunnel.Library.Lists
import IrohTunnel.Library.ShellFields
import IrohTunnel.Service.Install

namespace IrohTunnel.Service

open IrohTunnel.Library
open IrohTunnel.Library.Shell (Word Piece Spells isPlain isStill)

/-! ### One argument -/

/-- `shell_quote` leaves a text of these characters as it is. -/
def isBare (char : Char) : Bool := char.isAlphanum || "_@%+=:,./-".toList.contains char

/-- None of them means anything to a shell. -/
theorem plain_of_isBare {char : Char} (bare : isBare char = true) :
    isPlain char = true ∧ isStill char = true := by
  have active : ("\n \t#\\'\"$`&|;>()<".toList).any isBare = false := by decide
  have expands : "~*?[".toList.any isBare = false := by decide
  constructor
  · rw [isPlain, Bool.not_eq_true', Bool.eq_false_iff, ne_eq, List.contains_iff_mem]
    intro special
    exact absurd bare (Bool.eq_false_iff.mp (Lists.eq_false_of_any active char special))
  · rw [isStill, Bool.not_eq_true', Bool.eq_false_iff, ne_eq, List.contains_iff_mem]
    intro special
    exact absurd bare (Bool.eq_false_iff.mp (Lists.eq_false_of_any expands char special))

/-- The word that an argument is quoted as. -/
def quotedWord (arg : String) : Word :=
  if arg ≠ "" ∧ arg.toList.all isBare then [.plain arg.toList]
  else (Shell.singleQuoted [] arg.toList).map .quoted

theorem spells_shellQuote (arg : String) : Spells (shellQuote arg).toList (quotedWord arg) := by
  by_cases bare : arg ≠ "" ∧ arg.toList.all isBare
  · have same : shellQuote arg = arg := if_pos bare
    rw [same, quotedWord, if_pos bare]
    obtain ⟨nonempty, all⟩ := bare
    cases chars : arg.toList with
    | nil => exact absurd (String.toList_eq_nil_iff.mp chars) nonempty
    | cons char rest =>
      rw [chars, List.all_eq_true] at all
      refine Shell.spells_plain (List.all_eq_true.mpr fun char member => ?_)
      exact (plain_of_isBare (all char member)).1
  · have same : (shellQuote arg).toList =
        '\'' :: (Shell.inSingleQuotes arg.toList ++ ['\'']) := by
      have quoted : shellQuote arg = _ := if_neg bare
      simp only [quoted, String.toList_append, String.toList_ofList]
      exact List.append_assoc ['\''] _ ['\'']
    rw [same, quotedWord, if_neg bare]
    exact Shell.spells_singleQuoted arg.toList

theorem still_quotedWord (arg : String) : (quotedWord arg).Still := by
  unfold quotedWord
  split
  · rename_i bare
    refine ⟨List.cons_ne_nil _ _, List.forall_mem_singleton.mpr ?_⟩
    refine List.all_eq_true.mpr fun char member => ?_
    exact (plain_of_isBare (List.all_eq_true.mp bare.2 char member)).2
  · refine ⟨fun none => Shell.singleQuoted_ne_nil _ _ (List.map_eq_nil_iff.mp none), ?_⟩
    rintro _ member
    obtain ⟨text, -, rfl⟩ := List.mem_map.mp member
    trivial

theorem text_quotedWord (arg : String) : (quotedWord arg).flatMap Piece.text = arg.toList := by
  unfold quotedWord
  split
  · exact List.append_nil _
  · rw [List.flatMap_map]
    exact List.flatMap_id'.trans (Shell.flatten_singleQuoted [] arg.toList)

/-! ### The whole command -/

/-- The refusal, with the command it suggests. -/
def suggestion (command : String) : String :=
  "a system service needs root/Administrator, and nothing was changed (no automatic " ++
    "elevation, no fallback to a user service). Re-run as an elevated user: " ++
    s!"`{command}` (an elevated terminal on Windows), or use --user."

def elevation : Word := [.plain "sudo".toList]

/-- What `ensure_privilege` suggests to run. -/
def rerunCommand (rerun : List String) : String :=
  "sudo " ++ String.intercalate " " (rerun.map shellQuote)

theorem toList_command (rerun : List String) :
    (rerunCommand rerun).toList =
      "sudo".toList ++
        ' ' :: List.intercalate [' '] (rerun.map fun arg => (shellQuote arg).toList) := by
  have text : "sudo ".toList = "sudo".toList ++ [' '] := by decide
  rw [rerunCommand, String.toList_append, String.toList_intercalate, List.map_map, text,
    List.append_assoc]
  rfl

theorem intercalate_cons (first : List Char) (rest : List (List Char)) :
    ' ' :: List.intercalate [' '] (first :: rest) = (first :: rest).flatMap (' ' :: ·) := by
  induction rest generalizing first with
  | nil => simp
  | cons second rest ih =>
    rw [List.intercalate_cons_cons, List.flatMap_cons, ← ih]
    simp

theorem tokenize_command (rerun : List String) :
    Shell.tokenize (rerunCommand rerun).toList =
      some (.word elevation :: rerun.map fun arg => .word (quotedWord arg)) := by
  have named : elevation ≠ [] ∧ Spells "sudo".toList elevation :=
    ⟨List.cons_ne_nil _ _, Shell.spells_plain (by decide)⟩
  cases rerun with
  | nil => exact Shell.tokenize_word_blank named
  | cons arg rest =>
    have blanks : ' ' :: List.intercalate [' ']
          ((arg :: rest).map fun arg => (shellQuote arg).toList) =
        (arg :: rest).flatMap fun arg => ' ' :: (shellQuote arg).toList := by
      refine (intercalate_cons _ _).trans ?_
      exact List.flatMap_map (fun arg => (shellQuote arg).toList) (' ' :: ·) (arg :: rest)
    rw [toList_command, blanks]
    exact Shell.tokenize_words named fun arg _ =>
      ⟨(still_quotedWord arg).nonempty, spells_shellQuote arg⟩

/-- A shell makes of the suggested command one simple command, and of its words the arguments behind
`sudo`, whatever its expansions would find. -/
theorem ensurePrivilege_rerun (rerun : List String) :
    ∃ command words,
      ensurePrivilege .system false rerun = .error (.permission (suggestion command)) ∧
      Shell.parseProgram command.toList = some (.sequence (.simple [] words []) .skip) ∧
      ∀ setting : Shell.Setting,
        setting.expandAll words = "sudo".toList :: rerun.map String.toList := by
  refine ⟨rerunCommand rerun, elevation :: rerun.map quotedWord, ?_, ?_, fun setting => ?_⟩
  · rw [ensurePrivilege, if_neg (by decide)]
    rfl
  · unfold Shell.parseProgram
    rw [tokenize_command]
    have assigns : Word.assignment [.plain "sudo".toList] = none := by decide
    have parsed := Shell.parseTokens_words (rerun.map quotedWord) assigns (by decide) (by decide)
    rw [List.map_map] at parsed
    exact parsed
  · have one (arg : String) : setting.expandWord (quotedWord arg) = [arg.toList] := by
      rw [setting.expandWord_of_still (still_quotedWord arg), text_quotedWord]
    have elevated : setting.expandWord elevation = ["sudo".toList] :=
      setting.expandWord_of_still ⟨List.cons_ne_nil _ _, List.forall_mem_singleton.mpr rfl⟩
    rw [Shell.Setting.expandAll, List.flatMap_cons, elevated, List.flatMap_map]
    simp only [one]
    exact congrArg _ List.map_eq_flatMap.symm

end IrohTunnel.Service
