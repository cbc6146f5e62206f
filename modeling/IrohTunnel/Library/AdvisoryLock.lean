/-
**Advisory file locks, shared and exclusive.**

Every party has the list of locks it holds; `tryLock` asks whether a further lock is compatible with
all of them. The parties are numbered by their place in the list.

* `Exclusion` — two parties hold the same file only when both hold it shared;
* `Exclusion.set_subset`, `Exclusion.set_cons`, `Exclusion.append` — releasing locks, taking a lock
  that `tryLock` grants and a new party without locks keep it.
-/

import Mathlib.Data.List.Basic

namespace IrohTunnel.Library

inductive LockKind
  | exclusive | shared
  deriving DecidableEq, Repr

/-- A lock on a file. -/
structure Lock (File : Type) where
  file : File
  kind : LockKind
  deriving DecidableEq, Repr

variable {File : Type} [DecidableEq File]

/-- Two locks may be held at once: they are on different files or both shared. -/
def Lock.Compatible (first second : Lock File) : Prop :=
  first.file = second.file → first.kind = .shared ∧ second.kind = .shared

instance (first second : Lock File) : Decidable (first.Compatible second) :=
  inferInstanceAs (Decidable (_ → _))

/-- Whether the lock is granted while the parties hold `holders`. -/
def tryLock (holders : List (List (Lock File))) (lock : Lock File) : Bool :=
  holders.all fun held => held.all fun other => decide (other.Compatible lock)

/-- Two parties hold the same file only when both hold it shared. -/
def Exclusion (holders : List (List (Lock File))) : Prop :=
  ∀ (i j : Nat) (held other : List (Lock File)), i ≠ j → holders[i]? = some held →
    holders[j]? = some other → ∀ first ∈ held, ∀ second ∈ other, first.Compatible second

variable {holders : List (List (Lock File))} {index : Nat} {held : List (Lock File)}

omit [DecidableEq File] in
theorem Lock.Compatible.symm {first second : Lock File} (compatible : first.Compatible second) :
    second.Compatible first :=
  fun same => (compatible same.symm).symm

theorem compatible_of_tryLock {lock : Lock File} (granted : tryLock holders lock = true)
    {held : List (Lock File)} (member : held ∈ holders) {other : Lock File}
    (inside : other ∈ held) : other.Compatible lock :=
  of_decide_eq_true (List.all_eq_true.mp (List.all_eq_true.mp granted held member) other inside)

omit [DecidableEq File] in
theorem exclusion_nil : Exclusion ([] : List (List (Lock File))) := by
  intro i j held other _ found
  cases found

omit [DecidableEq File] in
/-- Giving locks back keeps the exclusion. -/
theorem Exclusion.set_subset (exclusion : Exclusion holders) {later : List (Lock File)}
    (found : holders[index]? = some held) (fewer : later ⊆ held) :
    Exclusion (holders.set index later) := by
  have origin : ∀ (i : Nat) (now : List (Lock File)), (holders.set index later)[i]? = some now →
      ∃ before, holders[i]? = some before ∧ now ⊆ before := by
    intro i now foundNow
    rw [List.getElem?_set] at foundNow
    split at foundNow
    · rename_i same
      subst same
      split at foundNow
      · cases foundNow
        exact ⟨held, found, fewer⟩
      · cases foundNow
    · exact ⟨now, foundNow, List.Subset.refl _⟩
  intro i j first second different foundFirst foundSecond lock member other otherMember
  obtain ⟨before, foundBefore, subset⟩ := origin i first foundFirst
  obtain ⟨otherBefore, foundOther, otherSubset⟩ := origin j second foundSecond
  exact exclusion i j before otherBefore different foundBefore foundOther lock (subset member) other
    (otherSubset otherMember)

/-- Taking a lock that is granted keeps the exclusion. -/
theorem Exclusion.set_cons (exclusion : Exclusion holders) {lock : Lock File}
    (found : holders[index]? = some held) (granted : tryLock holders lock = true) :
    Exclusion (holders.set index (lock :: held)) := by
  have origin : ∀ (i : Nat) (now : List (Lock File)),
      (holders.set index (lock :: held))[i]? = some now →
        ∃ before, holders[i]? = some before ∧
          ∀ other ∈ now, other ∈ before ∨ (i = index ∧ other = lock) := by
    intro i now foundNow
    rw [List.getElem?_set] at foundNow
    split at foundNow
    · rename_i same
      subst same
      split at foundNow
      · cases foundNow
        refine ⟨held, found, fun other member => ?_⟩
        rcases List.mem_cons.mp member with isNew | before
        · exact .inr ⟨rfl, isNew⟩
        · exact .inl before
      · cases foundNow
    · exact ⟨now, foundNow, fun _ member => .inl member⟩
  intro i j first second different foundFirst foundSecond one member two otherMember
  obtain ⟨before, foundBefore, split⟩ := origin i first foundFirst
  obtain ⟨otherBefore, foundOther, otherSplit⟩ := origin j second foundSecond
  rcases split one member with old | ⟨own, rfl⟩
  · rcases otherSplit two otherMember with otherOld | ⟨_, rfl⟩
    · exact exclusion i j before otherBefore different foundBefore foundOther one old two otherOld
    · exact compatible_of_tryLock granted (List.mem_of_getElem? foundBefore) old
  · rcases otherSplit two otherMember with otherOld | ⟨otherOwn, _⟩
    · exact (compatible_of_tryLock granted (List.mem_of_getElem? foundOther) otherOld).symm
    · exact absurd (own.trans otherOwn.symm) different

omit [DecidableEq File] in
/-- A new party without locks keeps the exclusion. -/
theorem Exclusion.append (exclusion : Exclusion holders) : Exclusion (holders ++ [[]]) := by
  have origin : ∀ (i : Nat) (now : List (Lock File)), (holders ++ [[]])[i]? = some now →
      now = [] ∨ holders[i]? = some now := by
    intro i now found
    rw [List.getElem?_append] at found
    split at found
    · exact .inr found
    · exact .inl (List.mem_singleton.mp (List.mem_of_getElem? found))
  intro i j first second different foundFirst foundSecond one member two otherMember
  rcases origin i first foundFirst with rfl | before
  · cases member
  · rcases origin j second foundSecond with rfl | otherBefore
    · cases otherMember
    · exact exclusion i j first second different before otherBefore one member two otherMember

omit [DecidableEq File] in
/-- A file one party holds exclusively is held by no other. -/
theorem Exclusion.absurd (exclusion : Exclusion holders) {i j : Nat} {other : List (Lock File)}
    {file : File} {kind : LockKind} (different : i ≠ j) (foundFirst : holders[i]? = some held)
    (foundSecond : holders[j]? = some other) (first : ⟨file, .exclusive⟩ ∈ held)
    (second : ⟨file, kind⟩ ∈ other) : False := by
  have both := exclusion i j held other different foundFirst foundSecond _ first _ second rfl
  exact LockKind.noConfusion both.1

end IrohTunnel.Library
