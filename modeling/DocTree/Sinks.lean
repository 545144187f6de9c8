import DocTree.Diagnostic

/-!
Places to which diagnostics are sent. A collecting sink keeps what it receives, and its clones
share what it keeps; a callback is handed every diagnostic; a logging sink keeps nothing.
-/

namespace DocTree

/-- A sink; those that keep diagnostics name the place where they keep them. -/
inductive Sink where
  | collecting (place : Nat)
  | callback (place : Nat)
  | logging
  deriving DecidableEq

/-- The place where a sink keeps diagnostics, if it keeps them. -/
def Sink.place? : Sink → Option Nat
  | .collecting place | .callback place => some place
  | .logging => none

/-- Sinks and the diagnostics that they have received, in the order of their arrival. -/
structure Sinks where
  kept : List (List Diagnostic) := []
  sinks : List Sink := []

namespace Sinks

def addCollecting (s : Sinks) : Sinks :=
  ⟨s.kept ++ [[]], s.sinks ++ [.collecting s.kept.length]⟩

def addCallback (s : Sinks) : Sinks :=
  ⟨s.kept ++ [[]], s.sinks ++ [.callback s.kept.length]⟩

def addLogging (s : Sinks) : Sinks := { s with sinks := s.sinks ++ [.logging] }

/-- Adds another sink that shares the place of the sink at an index. -/
def clone (s : Sinks) (index : Nat) : Sinks :=
  { s with sinks := s.sinks ++ s.sinks[index]?.toList }

def report (s : Sinks) (index : Nat) (diagnostics : List Diagnostic) : Sinks :=
  match s.sinks[index]?.bind Sink.place? with
  | some place => { s with kept := s.kept.modify place (· ++ diagnostics) }
  | none => s

def received (s : Sinks) (sink : Sink) : List Diagnostic :=
  (sink.place?.bind fun place => s.kept[place]?).getD []

end Sinks

end DocTree
