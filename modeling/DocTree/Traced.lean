import DocTree.Diagnostic

/-!
Results that come with the events of their making, in order. A conversion passes every node once;
what it records and reports on the way depends on the tree alone, so a traced result is a value
and a list, and nothing has to be carried from one node to the next.
-/

namespace DocTree

inductive Event where
  | enter (nodeName : String)
  | report (diagnostic : Diagnostic)
  | record (nodeName : String) (id : Option String) (attributes : Json.Members)

def Event.diagnostic? : Event → Option Diagnostic
  | .report d => some d
  | .enter _ | .record _ _ _ => none

structure Traced (α : Type) where
  value : α
  events : List Event

namespace Traced

def emit (e : Event) : Traced Unit := ⟨(), [e]⟩

instance : Monad Traced where
  pure a := ⟨a, []⟩
  bind x f := ⟨(f x.value).value, x.events ++ (f x.value).events⟩

variable {α β : Type}

@[simp] theorem value_pure (a : α) : (pure a : Traced α).value = a := rfl

@[simp] theorem events_pure (a : α) : (pure a : Traced α).events = [] := rfl

@[simp] theorem value_bind (x : Traced α) (f : α → Traced β) :
    (x >>= f).value = (f x.value).value := rfl

@[simp] theorem events_bind (x : Traced α) (f : α → Traced β) :
    (x >>= f).events = x.events ++ (f x.value).events := rfl

@[simp] theorem value_map (f : α → β) (x : Traced α) : (f <$> x).value = f x.value := rfl

@[simp] theorem events_map (f : α → β) (x : Traced α) : (f <$> x).events = x.events := by
  change x.events ++ [] = x.events
  simp

instance : LawfulMonad Traced :=
  LawfulMonad.mk' Traced
    (fun x => by
      cases x
      simp [Functor.map])
    (fun _ _ => by simp [bind, pure])
    (fun _ _ _ => by simp [bind])

@[simp] theorem value_emit (e : Event) : (emit e).value = () := rfl

@[simp] theorem events_emit (e : Event) : (emit e).events = [e] := rfl

end Traced

end DocTree
