import DocTree.Proofs.Mdast.Rewritten
import DocTree.Proofs.Mdast.Schema
import DocTree.Proofs.Plain.Tree
import DocTree.Proofs.Program.Run
import DocTree.Proofs.Source.Keys

/-!
Texts of converted trees. Both written forms of a value are read back as that value, in the order of
its members, where it repeats no key, holds no double and nests no deeper than a text may. An Mdast
tree repeats no key and holds no double, whatever its source holds; a plain tree has the attributes
of its source in it, and repeats a key only where one of these does.
-/

namespace DocTree

open RichText (segmentsOf)
open Segment (nodes)

namespace Json

/-- A value of which a text tells everything. -/
structure Recoverable (v : Json) : Prop where
  keys : v.UniqueKeys
  floats : v.FloatFree

theorem recoverable_arr {vs : List Json} (h : ∀ v ∈ vs, Recoverable v) : Recoverable (.arr vs) :=
  ⟨uniqueKeysList_iff.mpr fun v hv => (h v hv).keys,
    floatFreeList_iff.mpr fun v hv => (h v hv).floats⟩

theorem recoverable_obj {members : Members} (hkeys : (members.map Prod.fst).Nodup)
    (h : ∀ m ∈ members, Recoverable m.2) : Recoverable (.obj members) :=
  ⟨⟨hkeys, uniqueKeysMembers_iff.mpr fun m hm => (h m hm).keys⟩,
    floatFreeMembers_iff.mpr fun m hm => (h m hm).floats⟩

theorem recoverable_str (s : String) : Recoverable (.str s) := ⟨trivial, trivial⟩

theorem recoverable_int (n : Integer) : Recoverable (.num (.int n)) := ⟨trivial, trivial⟩

theorem FloatFree.of_mem_elements {v w : Json} (h : v.FloatFree) (hw : w ∈ elements v) :
    w.FloatFree := by
  cases v with
  | null | bool _ | num _ | str _ => cases hw
  | arr items => exact floatFreeList_iff.mp h w hw
  | obj members =>
      obtain ⟨member, hmember, rfl⟩ := List.mem_map.mp hw
      exact floatFreeMembers_iff.mp h member hmember

theorem Recoverable.of_mem_elements {v w : Json} (h : Recoverable v) (hw : w ∈ elements v) :
    Recoverable w :=
  ⟨h.keys.of_mem_elements hw, h.floats.of_mem_elements hw⟩

theorem read_of_readRaw {text : String} {v : Json} (h : readRaw text = .ok v)
    (hkeys : v.UniqueKeys) : read text = .ok v := by
  rw [read, h]
  exact congrArg Except.ok (mergeRepeats_of_uniqueKeys hkeys)

/-- Either written form of a value is read as that value. -/
theorem read_written {v : Json} (h : Recoverable v) (hdepth : v.depth ≤ nestingLimit)
    (indent : Bool) : read (if indent then v.pretty else v.compact) = .ok v := by
  cases indent with
  | true => exact read_of_readRaw (readRaw_pretty h.floats hdepth) h.keys
  | false => exact read_of_readRaw (readRaw_compact h.floats hdepth) h.keys

end Json

open Json (Recoverable recoverable_arr recoverable_int recoverable_obj recoverable_str
  uniqueKeysList_iff uniqueKeysMembers_iff)

/-- What holds of texts and of the records of nodes holds of inline content, if it passes from the
items of an array to the array. -/
theorem Segment.inlineValue_of_parts {P : Json → Prop} {record : Node → Json.Members}
    {parts : List Segment} (list : ∀ vs : List Json, (∀ v ∈ vs, P v) → P (.arr vs))
    (text : ∀ s, P (.str s)) (node : ∀ n ∈ nodes parts, P (.obj (record n))) :
    P (inlineValue record parts) := by
  have hvalue : ∀ part ∈ merge parts, P (part.value record) := by
    intro part hpart
    cases part with
    | text s => exact text s
    | node n =>
        rw [← Segment.mem_nodes, Segment.nodes_merge] at hpart
        exact node n hpart
  rw [inlineValue]
  split
  · next part h => exact hvalue part (h ▸ List.mem_singleton_self part)
  · exact list _ (List.forall_mem_map.mpr hvalue)

namespace Mdast

variable {o : Options} {flat : Bool} {type : String}

theorem recoverable_positionOnLine (line : UInt64) (file : Option String) :
    Recoverable (positionOnLine line file) := by
  cases file <;> constructor <;>
    simp [positionOnLine, Json.ofNat, Json.UniqueKeys, Json.UniqueKeysMembers, Json.FloatFree,
      Json.FloatFreeMembers]

/-- What a node has around its payload holds no other nodes. -/
theorem Entry.recoverable {m : String × Json} (h : Entry flat type m) (hkey : m.1 ∉ payloadKeys) :
    Recoverable m.2 := by
  cases h with
  | source _ s | text _ _ => exact recoverable_str _
  | level _ | depth _ _ => exact recoverable_int _
  | position line file => exact recoverable_positionOnLine line file
  | children _ | items _ _ | value _ _ => simp [payloadKeys] at hkey
  | reference _ _ hv =>
      obtain rfl | ⟨s, -, rfl⟩ := hv
      · exact ⟨trivial, trivial⟩
      · exact recoverable_str s

theorem recoverable_of_mem_under {key : String} {v w : Json} (h : Recoverable v)
    (hw : w ∈ under key v) : Recoverable w := by
  cases v with
  | null | bool _ | num _ | str _ | arr _ => cases hw
  | obj members =>
      rw [under] at hw
      cases hlookup : members.lookup key with
      | none =>
          rw [hlookup] at hw
          cases hw
      | some u =>
          rw [hlookup] at hw
          obtain ⟨_, _, hmembers, -⟩ := List.lookup_eq_some_iff.mp hlookup
          have hu : Recoverable u := h.of_mem_elements (by simp [Json.elements, hmembers])
          cases u with
          | arr vs => exact hu.of_mem_elements hw
          | null | bool _ | num _ | str _ | obj _ =>
              rw [List.mem_singleton.mp hw]
              exact hu

theorem recoverable_textNode (s : String) : Recoverable (textNode s) :=
  recoverable_obj (show ["type", "value"].Nodup by decide)
    (List.forall_mem_cons.mpr
      ⟨recoverable_str _, List.forall_mem_singleton.mpr (recoverable_str s)⟩)

theorem recoverable_childNodes {parts : List Segment}
    (h : ∀ n ∈ nodes parts, Recoverable (.obj (record o n))) :
    ∀ v ∈ childNodes o parts, Recoverable v := by
  intro v hv
  obtain ⟨s, rfl⟩ | ⟨n, hn, hv⟩ := mem_childNodes hv
  · exact recoverable_textNode s
  · rw [segmentNodes_node, opened] at hv
    split at hv
    · rw [children_eq_under] at hv
      exact recoverable_of_mem_under (h n hn) hv
    · rw [List.mem_singleton.mp hv]
      exact h n hn

theorem recoverable_heading (p : Properties) {vs : List Json} (h : ∀ v ∈ vs, Recoverable v) :
    Recoverable (heading p vs) := by
  refine recoverable_obj (show ["type", "depth", "children"].Nodup by decide) ?_
  simp only [List.forall_mem_cons]
  exact ⟨recoverable_str _, recoverable_int _, recoverable_arr h, List.forall_mem_nil _⟩

theorem recoverable_item {n : Node}
    (h : ∀ m ∈ nodes (segmentsOf n.text) ++ n.blocks.getD [], Recoverable (.obj (record o m))) :
    Recoverable (item o n) := by
  obtain ⟨htext, hblocks⟩ := List.forall_mem_append.mp h
  refine recoverable_obj (show ["text", "blocks"].Nodup by decide) ?_
  simp only [List.forall_mem_cons]
  refine ⟨?_, recoverable_arr (List.forall_mem_map.mpr hblocks), List.forall_mem_nil _⟩
  cases ht : n.text with
  | none => exact recoverable_str ""
  | some t =>
      rw [ht] at htext
      exact Segment.inlineValue_of_parts (fun _ => recoverable_arr) recoverable_str htext

theorem recoverable_payload {n : Node}
    (h : ∀ m ∈ n.body.visited, Recoverable (.obj (record o m))) :
    ∀ m ∈ payload o n, Recoverable m.2 := by
  rw [payload]
  cases hb : n.body with
  | nothing => exact List.forall_mem_nil _
  | code parts => exact List.forall_mem_singleton.mpr (recoverable_str _)
  | flow parts =>
      rw [hb] at h
      exact List.forall_mem_singleton.mpr (recoverable_arr (recoverable_childNodes h))
  | titled title parts =>
      rw [hb] at h
      obtain ⟨htitle, hparts⟩ := List.forall_mem_append.mp h
      refine List.forall_mem_singleton.mpr (recoverable_arr (List.forall_mem_cons.mpr ⟨?_, ?_⟩))
      · exact recoverable_heading n.props (recoverable_childNodes htitle)
      · exact recoverable_childNodes hparts
  | list items =>
      rw [hb] at h
      refine List.forall_mem_singleton.mpr (recoverable_arr (List.forall_mem_map.mpr ?_))
      intro i hi
      exact recoverable_item fun m hm => h m (List.mem_flatMap.mpr ⟨i, hi, hm⟩)

/-- A text tells everything of an Mdast tree, whatever the attributes of its source hold. -/
theorem recoverable_record (o : Options) (n : Node) : Recoverable (.obj (record o n)) := by
  induction n using Node.walk_induction with
  | step n ih =>
      rw [record_eq]
      refine recoverable_obj (conforms_record o n).nodup_keys ?_
      refine List.forall_mem_cons.mpr ⟨recoverable_str _, ?_⟩
      simp only [List.forall_mem_append]
      refine ⟨⟨?_, recoverable_payload ih⟩, ?_⟩
      · intro m hm
        have hentry : Entry o.flat (typeName n.props) m := entry_of_mem_leading o n.props m hm
        exact hentry.recoverable (apart_leading o n.props m hm)
      · intro m hm
        have hentry : Entry o.flat (typeName n.props) m := entry_of_mem_trailing o n m hm
        exact hentry.recoverable (apart_trailing o n m hm)

end Mdast

namespace Plain

variable {n : Node}

/-- The keys that the record of a node can have, in order. -/
def memberKeys (p : Properties) : List String :=
  match p.kind with
  | .paragraph => ["name", "context", "attributes", "text"]
  | .unorderedList => ["name", "context", "items"]
  | .inlineQuoted => ["name", "context", "type", "target", "text"]
  | .document | .preamble | .section | .inlineAnchor | .inlineImage | .image | .other =>
    ["name", "context", "attributes", "title"] ++ (["blocks", "content"] ++
      ["alt", "target", "type", "id", "role", "reftext", "level"])

theorem keys_record (n : Node) :
    ((record n).map Prod.fst).Sublist (memberKeys n.props) := by
  have htext := fun key s => Mdast.keys_member? key Json.str s
  rw [record_eq, List.map_append, List.map_append, memberKeys]
  cases hk : n.props.kind with
  | paragraph | unorderedList =>
      simp only [leading, payload, body, trailing, hk]
      exact .refl _
  | inlineQuoted =>
      have hheader : (["name", "context"] : List String).Sublist ["name", "context"] := .refl _
      simp only [leading, payload, body, trailing, hk, List.map_append, List.map_nil,
        List.append_nil]
      exact ((hheader.append (htext "type" _)).append (htext "target" _)).append (.refl ["text"])
  | document | preamble | «section» | inlineAnchor | inlineImage | image | other =>
      have hpayload : ((payload n).map Prod.fst).Sublist ["blocks", "content"] := by
        simp only [payload, body, hk]
        cases n.blocks with
        | some ns => exact .cons_cons _ (List.nil_sublist _)
        | none =>
            cases n.content with
            | some t => exact .cons _ (.refl _)
            | none => exact List.nil_sublist _
      simp only [leading, trailing, hk, List.map_append]
      have hlevel := Mdast.keys_member? "level" Json.ofInt64 (n.props.level.filter (· ≠ 0))
      rw [List.append_assoc]
      refine List.Sublist.append ?_ (hpayload.append ?_)
      · exact (List.Sublist.refl ["name", "context", "attributes"]).append (htext "title" _)
      · exact ((((((htext "alt" _).append (htext "target" _)).append (htext "type" _)).append
          (htext "id" _)).append (htext "role" _)).append (htext "reftext" _)).append hlevel

theorem memberKeys_nodup (p : Properties) : (memberKeys p).Nodup := by
  cases hk : p.kind with
  | document | preamble | «section» | paragraph | unorderedList | inlineQuoted | inlineAnchor
  | inlineImage | image | other =>
      simp only [memberKeys, hk]
      decide

theorem uniqueKeys_of_mem_leading (h : n.UniqueKeys) : ∀ m ∈ leading n, m.2.UniqueKeys := by
  have hheader : ∀ m ∈ header n.props, m.2.UniqueKeys := by simp [header, Json.UniqueKeys]
  have hattributes : ∀ m ∈ attributesMember n.props, m.2.UniqueKeys :=
    List.forall_mem_singleton.mpr h.attributes
  have htext (key : String) (s : Option String) :
      ∀ m ∈ Json.member? key Json.str s, m.2.UniqueKeys :=
    Mdast.forall_mem_member? fun _ _ => trivial
  rw [leading]
  cases n.props.kind with
  | paragraph => exact List.forall_mem_append.mpr ⟨hheader, hattributes⟩
  | unorderedList => exact hheader
  | inlineQuoted =>
      simp only [List.forall_mem_append]
      exact ⟨⟨hheader, htext _ _⟩, htext _ _⟩
  | document | preamble | «section» | inlineAnchor | inlineImage | image | other =>
      simp only [List.forall_mem_append]
      exact ⟨⟨hheader, hattributes⟩, htext _ _⟩

theorem uniqueKeys_of_mem_trailing (p : Properties) : ∀ m ∈ trailing p, m.2.UniqueKeys := by
  have htext (key : String) (s : Option String) : ∀ m ∈ textMember key s, m.2.UniqueKeys :=
    Mdast.forall_mem_member? fun _ _ => trivial
  have hlevel : ∀ m ∈ Json.member? "level" Json.ofInt64 (p.level.filter (· ≠ 0)),
      m.2.UniqueKeys :=
    Mdast.forall_mem_member? fun _ _ => trivial
  rw [trailing]
  cases p.kind with
  | paragraph | unorderedList | inlineQuoted => exact List.forall_mem_nil _
  | document | preamble | «section» | inlineAnchor | inlineImage | image | other =>
      simp only [List.forall_mem_append]
      exact ⟨⟨⟨⟨⟨⟨htext _ _, htext _ _⟩, htext _ _⟩, htext _ _⟩, htext _ _⟩, htext _ _⟩, hlevel⟩

theorem uniqueKeys_of_mem_visited (h : n.UniqueKeys) :
    ∀ m ∈ (body n).visited, m.UniqueKeys := by
  intro m hm
  rw [body] at hm
  cases hk : n.props.kind with
  | paragraph =>
      rw [hk] at hm
      exact h.of_mem_children .content hm
  | inlineQuoted =>
      rw [hk] at hm
      exact h.of_mem_children .text hm
  | unorderedList =>
      rw [hk] at hm
      obtain ⟨i, hi, hm⟩ := List.mem_flatMap.mp hm
      have hitem : i.UniqueKeys := h.of_mem_children .items hi
      cases List.mem_append.mp hm with
      | inl hblocks => exact hitem.of_mem_children .blocks hblocks
      | inr htext => exact hitem.of_mem_children .text htext
  | document | preamble | «section» | inlineAnchor | inlineImage | image | other =>
      simp only [hk] at hm
      cases hblocks : n.blocks with
      | some ns =>
          rw [hblocks] at hm
          exact h.of_mem_children .blocks (show m ∈ n.blocks.getD [] from hblocks ▸ hm)
      | none =>
          rw [hblocks] at hm
          cases hcontent : n.content with
          | none =>
              rw [hcontent] at hm
              cases hm
          | some t =>
              rw [hcontent] at hm
              exact h.of_mem_children .content
                (show m ∈ nodes (segmentsOf n.content) from hcontent ▸ hm)

theorem uniqueKeys_item {i : Node}
    (h : ∀ m ∈ i.blocks.getD [] ++ nodes (segmentsOf i.text), (Json.obj (record m)).UniqueKeys) :
    (item i).UniqueKeys := by
  obtain ⟨hblocks, htext⟩ := List.forall_mem_append.mp h
  have hvalue : (Segment.inlineValue record (segmentsOf i.text)).UniqueKeys :=
    Segment.inlineValue_of_parts (fun _ => uniqueKeysList_iff.mpr) (fun _ => trivial) htext
  exact ⟨show ["text", "blocks"].Nodup by decide, hvalue,
    uniqueKeysList_iff.mpr (List.forall_mem_map.mpr hblocks), trivial⟩

theorem uniqueKeys_of_mem_payload (h : ∀ m ∈ (body n).visited, (Json.obj (record m)).UniqueKeys) :
    ∀ m ∈ payload n, m.2.UniqueKeys := by
  rw [payload]
  cases hb : body n with
  | nothing => exact List.forall_mem_nil _
  | blocks ns =>
      rw [hb] at h
      exact List.forall_mem_singleton.mpr (uniqueKeysList_iff.mpr (List.forall_mem_map.mpr h))
  | inline key parts =>
      rw [hb] at h
      exact List.forall_mem_singleton.mpr
        (Segment.inlineValue_of_parts (fun _ => uniqueKeysList_iff.mpr) (fun _ => trivial) h)
  | list items =>
      rw [hb] at h
      refine List.forall_mem_singleton.mpr (uniqueKeysList_iff.mpr (List.forall_mem_map.mpr ?_))
      intro i hi
      exact uniqueKeys_item fun m hm => h m (List.mem_flatMap.mpr ⟨i, hi, hm⟩)

/-- A plain tree repeats a key only where the attributes of its source do. -/
theorem uniqueKeys_record (h : n.UniqueKeys) : (Json.obj (record n)).UniqueKeys := by
  induction n using walk_induction with
  | step n ih =>
      refine ⟨(keys_record n).nodup (memberKeys_nodup n.props), uniqueKeysMembers_iff.mpr ?_⟩
      rw [record_eq]
      simp only [List.forall_mem_append]
      exact ⟨⟨uniqueKeys_of_mem_leading h,
        uniqueKeys_of_mem_payload fun m hm => ih m hm (uniqueKeys_of_mem_visited h m hm)⟩,
        uniqueKeys_of_mem_trailing n.props⟩

end Plain

namespace Backend

/-- Serializing does not fail, and either written form of a converted tree is read as the tree. The
attributes of a node are a map, so that no key is repeated in them. -/
theorem read_serialize (o : Options) {n : Node} (hkeys : n.UniqueKeys) :
    (Mdast.conversion o n).tree.FloatFree ∧
      ∀ b ∈ [plain, mdast o], ∀ indent, ∃ text,
        (Registry.withDefaults o).serialize n b.name indent = .ok text ∧
          b.serialize n indent = text ∧
          ((b.convert n).tree.depth ≤ Json.nestingLimit → (b.convert n).tree.FloatFree →
            Json.read text = .ok (b.convert n).tree) := by
  have hmdast : Recoverable (Mdast.conversion o n).tree := Mdast.recoverable_record o n
  have hunique : ∀ b ∈ [plain, mdast o], (b.convert n).tree.UniqueKeys :=
    List.forall_mem_cons.mpr
      ⟨Plain.uniqueKeys_record hkeys, List.forall_mem_singleton.mpr hmdast.keys⟩
  have hget : ∀ b ∈ [plain, mdast o], (Registry.withDefaults o).get b.name = .ok b :=
    List.forall_mem_cons.mpr ⟨rfl, List.forall_mem_singleton.mpr rfl⟩
  refine ⟨hmdast.floats, ?_⟩
  intro b hb indent
  refine ⟨b.serialize n indent, Program.serialize_of_get (hget b hb) n indent, rfl, ?_⟩
  intro hdepth hfloats
  exact Json.read_written ⟨hunique b hb, hfloats⟩ hdepth indent

/-- A document with attributes whose keys are a quote and the empty text. -/
def oddlyKeyed : Node :=
  ((Node.document [.inlineImage "a\n" none]).withAttribute "\"" (.arr [.arr [], .obj []]))
    |>.withAttribute "" (.obj [("\"", .str "\"")])

theorem uniqueKeys_oddlyKeyed : oddlyKeyed.UniqueKeys := by
  have hchildren : (Node.document [.inlineImage "a\n" none]).children =
      [.inlineImage "a\n" none] := rfl
  have himage : (Node.inlineImage "a\n" none).UniqueKeys := Node.uniqueKeys_iff.mpr ⟨nofun, nofun⟩
  refine Node.uniqueKeys_withAttribute (Node.uniqueKeys_withAttribute ?_ _ ?_) _ ?_
  · exact Node.uniqueKeys_iff.mpr ⟨nofun, by simpa [hchildren] using himage⟩
  · simp [Json.UniqueKeys, Json.UniqueKeysList, Json.UniqueKeysMembers]
  · simp [Json.UniqueKeys, Json.UniqueKeysMembers]

theorem read_serialize_oddlyKeyed :
    oddlyKeyed.UniqueKeys ∧
      ∀ b ∈ [plain, mdast {}], (b.convert oddlyKeyed).tree.depth ≤ Json.nestingLimit ∧
        (b.convert oddlyKeyed).tree.FloatFree ∧
        ∀ indent, Json.read (b.serialize oddlyKeyed indent) = .ok (b.convert oddlyKeyed).tree := by
  obtain ⟨hmdast, hread⟩ := read_serialize {} uniqueKeys_oddlyKeyed
  have hplain : (plain.convert oddlyKeyed).tree.FloatFree := by
    have htree : (plain.convert oddlyKeyed).tree = .obj [("name", .str "document"),
      ("context", .str "document"), ("attributes", .obj [("\"", .arr [.arr [], .obj []]),
        ("", .obj [("\"", .str "\"")])]),
      ("blocks", .arr [.obj [("name", .str "inline_image"), ("context", .str "image"),
        ("attributes", .obj []), ("target", .str "a\n")]])] := by rfl
    rw [htree]
    simp [Json.FloatFree, Json.FloatFreeMembers, Json.FloatFreeList]
  have hfloats : ∀ b ∈ [plain, mdast {}], (b.convert oddlyKeyed).tree.FloatFree :=
    List.forall_mem_cons.mpr ⟨hplain, List.forall_mem_singleton.mpr hmdast⟩
  have hdepth : ∀ b ∈ [plain, mdast {}], (b.convert oddlyKeyed).tree.depth ≤ Json.nestingLimit :=
    List.forall_mem_cons.mpr ⟨by decide, List.forall_mem_singleton.mpr (by decide)⟩
  refine ⟨uniqueKeys_oddlyKeyed, ?_⟩
  intro b hb
  refine ⟨hdepth b hb, hfloats b hb, ?_⟩
  intro indent
  obtain ⟨_, -, rfl, htext⟩ := hread b hb indent
  exact htext (hdepth b hb) (hfloats b hb)

end Backend

end DocTree
