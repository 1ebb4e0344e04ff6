import DexGraft.Error

/-!
# Editing in place

An edit changes a state step by step. If it fails, what it has changed by then stays changed, so that
an edit which is to leave nothing behind has to check everything before its first change.
-/

namespace DexGraft

/-- A computation that changes a state and may fail; what it has changed stays changed. -/
abbrev Editing (σ : Type) := ExceptT Error (StateM σ)

namespace Editing

variable {σ τ α : Type}

/-- Looks something up in the state. -/
def look (f : σ → Except Error α) : Editing σ α := do
  match f (← get) with
  | .ok value => pure value
  | .error e => throw e

/-- Edits a part of the state in place, and puts back what the edit leaves of it. -/
def zoom (part : σ → Except Error τ) (put : τ → σ → σ) (edit : Editing τ α) : Editing σ α := do
  let outcome := edit.run.run (← look part)
  modify (put outcome.2)
  look fun _ => outcome.1

/-- What an edit that is granted answers, and the state that it makes. -/
def granted (edit : Editing σ α) (state : σ) : Except Error (α × σ) :=
  match edit.run.run state with
  | (.ok answer, next) => .ok (answer, next)
  | (.error e, _) => .error e

/-- The state that an edit makes if it is granted. -/
def result (edit : Editing σ Unit) (state : σ) : Except Error σ :=
  (edit.granted state).map (·.2)

end Editing

end DexGraft
