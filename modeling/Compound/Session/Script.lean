import Compound.Session.Step

/-!
Scripts. A script is a list of steps; each has an answer, which tells its result, the
sizes of all registries after it, and what was logged and told during it.
-/
namespace Compound

/-- The version of the library. -/
def version : String := "0.0.1"

structure Answer where
  result : Result
  /-- The registries from the oldest on. -/
  sizes : List Registry.Sizes
  events : List String
  notices : List Notice

/-- Closing a registry lets values go in no particular order, so its events are listed in
the order of their texts. -/
def Step.sortsEvents : Step → Bool
  | .openRegistry .. => true
  | .closeRegistry _ => true
  | _ => false

namespace Session

/-- The sizes of all registries, from the oldest on. -/
def sizes (s : Session) : List Registry.Sizes :=
  s.registries.filterMap fun d => (s.host.registry? d.2).map Registry.sizes

/-- Take a step and answer it. -/
def answer (s : Session) (t : Step) : Answer × Session :=
  let (result, s) := { s with host := s.host.quiet }.step t
  let events := s.host.events
  ({ result := result
     sizes := s.sizes
     events := if t.sortsEvents then events.mergeSort else events
     notices := s.host.notices }, s)

/-- Answer steps one after the other. -/
def answers : Session → List Step → List Answer
  | _, [] => []
  | s, t :: rest =>
    let (a, s) := s.answer t
    a :: answers s rest

/-- The session at the start of a script. One that asks for it has a registry from the
start. -/
def start : Option Bool → Session
  | none => empty
  | some reclaiming => (empty.addRegistry "r" (Config.standard.withAutoReclaim reclaiming)).2

/-- Run a script. -/
def runScript (reclaiming : Option Bool) (steps : List Step) : List Answer :=
  (start reclaiming).answers steps

end Session

end Compound
