import DocTree.Backend
import DocTree.Proofs.Mdast.Events

/-!
The trace of a conversion. Between its first record and its last one, the log has a record for every
node that is visited, in the order of the walk, and a warning right after the record of a node of
unknown kind.
-/

namespace DocTree

/-- What taking up a node leaves in the log. -/
def Node.logRecords (n : Node) : List LogRecord :=
  let p := n.props
  let entered := LogRecord.event .mdast .trace "converting node" [("node_name", p.nodeName)]
  match p.kind with
  | .other =>
    [entered, .event .diagnostics .warn "unprocessed node, using generic encoder"
      [("context", p.context), ("node_name", p.nodeName)]]
  | _ => [entered]

/-- Putting attributes on record is not logged. -/
theorem Node.filterMap_logRecord?_events (n : Node) :
    n.events.filterMap Event.logRecord? = n.logRecords := by
  have hrecorded (members : Option Json.Members) :
      (members.map (Event.record n.props.nodeName n.props.id)).toList.filterMap
        Event.logRecord? = [] := by
    cases members <;> rfl
  rw [events, List.filterMap_append, hrecorded, List.append_nil, unknown?, logRecords]
  cases n.props.kind <;> rfl

namespace Mdast

theorem logRecords_eq_walk (o : Options) (n : Node) :
    (conversion o n).events.filterMap Event.logRecord? = n.walk.flatMap Node.logRecords := by
  simp only [conversion, Conversion.ofTraced, Traced.events_map, events_eq_walk,
    List.filterMap_flatMap, Node.filterMap_logRecord?_events]

/-- The trace of a conversion is its walk: the span is opened, every visited node leaves its records
once and in order, and the last record counts the data. -/
theorem trace_eq_walk (o : Options) (n : Node) :
    (Backend.mdast o).trace n =
      .opened .mdast
          [("backend", "mdast"), ("flat", toString o.flat), ("root", n.props.nodeName)] ::
        (n.walk.flatMap Node.logRecords ++
          [.event .mdast .debug "mdast conversion finished"
            [("attribute_records", toString (conversion o n).data.length)]]) := by
  rw [← logRecords_eq_walk o n]
  rfl

end Mdast

end DocTree
