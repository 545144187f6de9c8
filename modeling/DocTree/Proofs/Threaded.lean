import DocTree.Mdast

/-!
A traced conversion as one that carries what it has collected from node to node. A record is given
the number of those before it when it is added, and what is collected in the end is what is read off
the events.
-/

namespace DocTree

/-- What a conversion has collected so far. -/
structure Collected where
  data : List AttributeRecord := []
  diagnostics : List Diagnostic := []

namespace Collected

def record (nodeName : String) (id : Option String) (attributes : Json.Members) (c : Collected) :
    Collected :=
  { c with data := c.data ++ [⟨c.data.length, nodeName, id, attributes⟩] }

def report (diagnostic : Diagnostic) (c : Collected) : Collected :=
  { c with diagnostics := c.diagnostics ++ [diagnostic] }

def add (c : Collected) : Event → Collected
  | .enter _ => c
  | .report diagnostic => c.report diagnostic
  | .record nodeName id attributes => c.record nodeName id attributes

def addAll (c : Collected) (es : List Event) : Collected := es.foldl add c

/-- The records have the numbers from zero on. -/
def IsNumbered (c : Collected) : Prop :=
  c.data.map AttributeRecord.ordinal = List.range c.data.length

theorem IsNumbered.add {c : Collected} (h : c.IsNumbered) (e : Event) : (c.add e).IsNumbered := by
  cases e with
  | enter _ | report _ => exact h
  | record nodeName id attributes =>
      have hadded : (c.record nodeName id attributes).data.map AttributeRecord.ordinal =
          c.data.map AttributeRecord.ordinal ++ [c.data.length] := List.map_append
      have hlength : (c.record nodeName id attributes).data.length = c.data.length + 1 :=
        List.length_append
      rw [IsNumbered, Collected.add, hadded, h, hlength, List.range_succ]

theorem IsNumbered.addAll {c : Collected} (h : c.IsNumbered) (es : List Event) :
    (c.addAll es).IsNumbered := by
  induction es generalizing c with
  | nil => exact h
  | cons e es ih => exact ih (h.add e)

theorem addAll_eq (c : Collected) (es : List Event) :
    c.addAll es = ⟨c.data ++ AttributeRecord.ofEvents c.data.length es,
      c.diagnostics ++ es.filterMap Event.diagnostic?⟩ := by
  induction es generalizing c with
  | nil => simp [addAll, AttributeRecord.ofEvents]
  | cons e es ih =>
      rw [addAll, List.foldl_cons, ← addAll, ih, List.filterMap_cons]
      cases e <;> simp [add, report, record, AttributeRecord.ofEvents, Event.diagnostic?]

end Collected

namespace Traced

variable {α β : Type}

/-- The computation that collects where a traced one leaves events. -/
def threaded (x : Traced α) : StateM Collected α := do
  modify fun c => c.addAll x.events
  return x.value

theorem threaded_pure (a : α) : threaded (pure a) = pure a := rfl

theorem threaded_bind (x : Traced α) (f : α → Traced β) :
    threaded (x >>= f) = threaded x >>= fun a => threaded (f a) := by
  funext c
  change ((f x.value).value, c.addAll (x.events ++ (f x.value).events)) = _
  rw [Collected.addAll, List.foldl_append]
  rfl

theorem threaded_emit (e : Event) : threaded (emit e) = modify fun c => c.add e := rfl

end Traced

namespace Mdast

open Traced

/-- Attributes are put on record under the number of records that there are. -/
theorem threaded_recordAttributes (p : Properties) :
    threaded (recordAttributes p) =
      match p.attributes with
      | none | some [] => pure ()
      | some attributes => modify (Collected.record p.nodeName p.id attributes) := by
  rw [recordAttributes]
  match p.attributes with
  | none | some [] => rfl
  | some (_ :: _) => rfl

theorem threaded_reportUnknown (p : Properties) :
    threaded (reportUnknown p) =
      match p.kind with
      | .other => modify (Collected.report (.unknownNodeKind p.context p.nodeName))
      | _ => pure () := by
  rw [reportUnknown]
  cases p.kind <;> rfl

/-- Blocks are converted one after the other, each with what was collected before it. -/
theorem threaded_convertAll (o : Options) (ns : List Node) :
    threaded (convertAll o ns) =
      ns.mapM fun n => do return .node (← threaded (convert o n)) := by
  induction ns with
  | nil => rfl
  | cons n ns ih =>
      rw [convertAll, threaded_bind, List.mapM_cons, bind_assoc]
      simp only [threaded_bind, threaded_pure, ih, pure_bind]

/-- What is collected in the end is the outcome of the conversion, with numbered records. -/
theorem run_threaded_convert (o : Options) (n : Node) :
    let collected : Collected := ⟨(conversion o n).data, (conversion o n).diagnostics⟩
    (threaded (convert o n)).run {} = ((convert o n).value, collected) ∧
      collected.IsNumbered := by
  have hcollected : ({} : Collected).addAll (convert o n).events =
      ⟨(conversion o n).data, (conversion o n).diagnostics⟩ := by
    rw [Collected.addAll_eq, ← events_map Json.obj]
    rfl
  have hnumbered : ({} : Collected).IsNumbered := rfl
  exact ⟨congrArg ((convert o n).value, ·) hcollected, hcollected ▸ hnumbered.addAll _⟩

end Mdast

end DocTree
