import DocTree.Json.Printer

/-!
What a conversion has to say about a tree. A conversion never fails: where it meets something it
does not know, it goes on in a general way and reports a diagnostic.
-/

namespace DocTree

inductive Diagnostic where
  /-- A node whose kind has no rule of its own. -/
  | unknownNodeKind (context nodeName : String)
  /-- A value that is neither text nor a node, and stays as it is. -/
  | unknownShape (value : Json)

def Diagnostic.message : Diagnostic → String
  | .unknownNodeKind context nodeName => "Unprocessed node: " ++ context ++ ":" ++ nodeName
  | .unknownShape value => "Unknown node: " ++ value.compact

end DocTree
