import DocTree.Proofs.Mdast.Payload
import DocTree.Proofs.Normal

/-!
The children of converted nodes. Whatever a conversion puts among the children of a node is an
object that begins with its type, and no `block` where children are flat. Normalizing such children
once more leaves them as they are and reports nothing, so nothing is ever reported that is not a
node.
-/

namespace DocTree

open Json (normalizeUnder normalizeItems)

/-- A node that a list of children can hold: an object that begins with its type, which is not that
of a `block` in a flat list. -/
def Settled (flat : Bool) (v : Json) : Prop :=
  ∃ type rest, v = .obj (("type", .str type) :: rest) ∧ (flat = true → type ≠ wrapperType)

theorem settled_textNode (flat : Bool) (s : String) : Settled flat (textNode s) :=
  ⟨"text", [("value", .str s)], rfl, fun _ => by decide⟩

theorem kept_of_settled {flat : Bool} {v : Json} (h : Settled flat v) : Kept flat v := by
  obtain ⟨type, rest, rfl, hflat⟩ := h
  exact fun hopen => hflat hopen.1 (Option.some.inj hopen.2)

theorem normalizeItems_of_settled {flat : Bool} {vs : List Json}
    (h : ∀ v ∈ vs, Settled flat v) : normalizeItems flat vs = pure vs := by
  have hnodes : vs.filter (fun v => (Mdast.type? v).isNone) = [] := by
    refine List.filter_eq_nil_iff.mpr fun v hv => ?_
    obtain ⟨type, rest, rfl, -⟩ := h v hv
    exact nofun
  rw [normalizeItems_of_kept fun v hv => kept_of_settled (h v hv), shapeReports, hnodes]
  rfl

namespace Mdast

open RichText (segmentsOf)

def children (o : Options) (n : Node) : List Json :=
  match n.body with
  | .flow parts => childNodes o parts
  | .titled title parts => heading n.props (childNodes o title) :: childNodes o parts
  | .nothing | .list _ | .code _ => []

/-- What a node adds to the children of another: itself, or in a flat list its own children if it
is a `block`. -/
def opened (o : Options) (n : Node) : List Json :=
  if o.flat ∧ typeName n.props = wrapperType then children o n else [.obj (record o n)]

theorem normalize_record_of_settled {o : Options} {n : Node}
    (h : ∀ v ∈ children o n, Settled o.flat v) :
    (Json.obj (record o n)).normalize o.flat = pure (opened o n) := by
  have hchildren : normalizeUnder o.flat "children" (record o n) = pure (children o n) := by
    rw [normalizeUnder_eq, lookup_record o n (by decide) (by decide)]
    cases hb : n.body with
    | flow _ | titled _ _ =>
        simp only [children, payload, hb] at h ⊢
        exact normalizeItems_of_settled h
    | nothing | list _ | code _ =>
        simp only [children, payload, hb]
        rfl
  simp only [Json.normalize, string?_type_record, hchildren, opened, Bool.and_eq_true,
    decide_eq_true_eq]
  split <;> rfl

theorem settled_opened {o : Options} {n : Node} (h : ∀ v ∈ children o n, Settled o.flat v) :
    ∀ v ∈ opened o n, Settled o.flat v := by
  intro v hv
  rw [opened] at hv
  split at hv
  · exact h v hv
  · next hkept =>
      rw [List.mem_singleton] at hv
      subst hv
      exact ⟨_, _, congrArg Json.obj (record_eq o n), fun hflat htype => hkept ⟨hflat, htype⟩⟩

/-- A child that segments become is text, or comes from a node among them. -/
theorem mem_childNodes {o : Options} {parts : List Segment} {v : Json}
    (h : v ∈ childNodes o parts) :
    (∃ s, v = textNode s) ∨ ∃ n ∈ Segment.nodes parts, v ∈ segmentNodes o (.node n) := by
  obtain ⟨part, hpart, hv⟩ := List.mem_flatMap.mp h
  cases part with
  | text s => exact .inl ⟨s, List.mem_singleton.mp hv⟩
  | node n =>
      rw [← Segment.mem_nodes, Segment.nodes_merge] at hpart
      exact .inr ⟨n, hpart, hv⟩

theorem settled_childNodes {o : Options} {parts : List Segment}
    (h : ∀ n ∈ Segment.nodes parts, ∀ v ∈ children o n, Settled o.flat v) :
    ∀ v ∈ childNodes o parts, Settled o.flat v := by
  intro v hv
  rcases mem_childNodes hv with ⟨s, rfl⟩ | ⟨n, hn, hv⟩
  · exact settled_textNode o.flat s
  · rw [segmentNodes, normalize_record_of_settled (h n hn)] at hv
    exact settled_opened (h n hn) v hv

theorem settled_children (o : Options) (n : Node) : ∀ v ∈ children o n, Settled o.flat v := by
  induction n using Node.walk_induction with
  | step n ih =>
      -- A node among the children of another is opened only once its own children are settled.
      rw [children]
      cases hb : n.body with
      | nothing | list _ | code _ => exact List.forall_mem_nil _
      | flow parts =>
          rw [hb] at ih
          exact settled_childNodes ih
      | titled title parts =>
          rw [hb] at ih
          refine List.forall_mem_cons.mpr ⟨⟨"heading", _, rfl, fun _ => by decide⟩, ?_⟩
          exact settled_childNodes fun m hm => ih m (List.mem_append_right _ hm)

theorem normalize_record (o : Options) (n : Node) :
    (Json.obj (record o n)).normalize o.flat = pure (opened o n) :=
  normalize_record_of_settled (settled_children o n)

@[simp] theorem segmentNodes_text (o : Options) (s : String) :
    segmentNodes o (.text s) = [textNode s] := rfl

@[simp] theorem segmentNodes_node (o : Options) (n : Node) :
    segmentNodes o (.node n) = opened o n := by
  rw [segmentNodes, normalize_record]
  rfl

end Mdast

end DocTree
