import TypedClient.Declaration
import TypedClient.Fault
import TypedClient.Log

/-! A generation run: what is registered, and what is reported. A fault ends a step and leaves the
state that the step reached. -/
namespace TypedClient

structure Session where
  store : Store := {}
  log : Array LogLine := #[]
  /-- The declarations that were filled, one entry for each time. No step reads it. -/
  fills : List String := []

abbrev Build := EStateM Fault Session

namespace Build

def store : Build Store :=
  return (← get).store

def modifyStore (f : Store → Store) : Build Unit :=
  modify fun s => { s with store := f s.store }

def report (level : Level) (text : String) : Build Unit :=
  modify fun s => { s with log := s.log.push ⟨level, text⟩ }

def warn (text : String) : Build Unit :=
  report .warning text

def debug (text : String) : Build Unit :=
  report .debug text

def info (text : String) : Build Unit :=
  report .info text

def noteFill (name : String) : Build Unit :=
  modify fun s => { s with fills := s.fills ++ [name] }

/-- A pure step, which may fail. -/
def lift (result : Except Fault α) : Build α :=
  match result with
  | .ok a => pure a
  | .error fault => throw fault

end Build

end TypedClient
