import NamespaceOwnership.Startup

/-!
# Checking the environment

The command reads the environment as the controller does when it starts, and says how the controller would run
or why it would not.
-/
open NamespaceOwnership

def readEnvironment : List String → IO Environment
  | [] => return .empty
  | name :: rest => do
    let others ← readEnvironment rest
    match ← IO.getEnv name with
    | some value => return others.set name value
    | none => return others

def main : IO UInt32 := do
  let startup := Startup.ofEnvironment (← readEnvironment Startup.variableNames)
  match startup.setup with
  | .ok _ =>
    IO.println startup.text
    return 0
  | .error _ =>
    IO.eprintln startup.text
    return 1
