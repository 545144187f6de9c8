import DocTree.Proofs.Mdast.Children

/-!
The grammar of converted nodes. A node is an object that begins with its type and has each key
once. The type and the key decide together what a member can hold, and for some types the keys are
always the same.
-/

namespace DocTree.Mdast

def IsTextOrNull (v : Json) : Prop := v = .null ∨ ∃ s, s ≠ "" ∧ v = .str s

/-- The text of an item: a string, a node, or strings and nodes in turn. -/
inductive IsItemText : Json → Prop where
  | text (s : String) : IsItemText (.str s)
  | node {v : Json} (h : Settled false v) : IsItemText v
  | mixed {vs : List Json} (h : ∀ v ∈ vs, (∃ s, v = .str s) ∨ Settled false v) :
      IsItemText (.arr vs)

inductive IsItem : Json → Prop where
  | mk {text : Json} {blocks : List Json} (htext : IsItemText text)
      (hblocks : ∀ b ∈ blocks, Settled false b) :
      IsItem (.obj [("text", text), ("blocks", .arr blocks)])

/-- The keys under which nodes hold text that is never empty. -/
def textKeys : List String := ["title", "alt", "target", "asciiDocType", "id", "role", "reftext"]

/-- What a node of a type can have after its type. -/
inductive Entry (flat : Bool) (type : String) : String × Json → Prop where
  | source {key : String} (hkey : key = "name" ∨ key = "context") (s : String) :
      Entry flat type (key, .str s)
  | text {key s : String} (hkey : key ∈ textKeys) (hs : s ≠ "") : Entry flat type (key, .str s)
  | level {n : Int64} (hn : n ≠ 0) : Entry flat type ("level", .ofInt64 n)
  | position (line : UInt64) (file : Option String) :
      Entry flat type ("position", positionOnLine line file)
  | children {vs : List Json} (h : ∀ v ∈ vs, Settled flat v) :
      Entry flat type ("children", .arr vs)
  | items {vs : List Json} (htype : type = "list") (h : ∀ v ∈ vs, IsItem v) :
      Entry flat type ("items", .arr vs)
  | value (htype : type = "text" ∨ type = "inlineCode") (s : String) :
      Entry flat type ("value", .str s)
  | reference {key : String} {v : Json} (htype : type = "link" ∨ type = "image")
      (hkey : key ∈ ["title", "alt", "url"]) (hv : IsTextOrNull v) : Entry flat type (key, v)
  | depth (htype : type = "heading") (n : Int64) : Entry flat type ("depth", .ofInt64 n)

/-- The keys after the type, where all nodes of the type have the same. -/
def exactKeys? (type : String) : Option (List String) :=
  match type with
  | "text" | "inlineCode" => some ["value"]
  | "link" => some ["title", "url", "children"]
  | "image" => some ["alt", "url"]
  | "heading" => some ["depth", "children"]
  | _ => none

def contentKeys : List String := ["children", "value", "items"]

/-- The members after the type of a node are as the type wants them. -/
structure Conforms (flat : Bool) (type : String) (rest : Json.Members) : Prop where
  entries : ∀ m ∈ rest, Entry flat type m
  nodup_keys : ("type" :: rest.map Prod.fst).Nodup
  content_le_one : ((rest.map Prod.fst).filter (· ∈ contentKeys)).length ≤ 1
  exact_keys : ∀ keys, exactKeys? type = some keys → rest.map Prod.fst = keys
  has_items : type = "list" → "items" ∈ rest.map Prod.fst

theorem conforms_text (flat : Bool) (s : String) : Conforms flat "text" [("value", .str s)] where
  entries := List.forall_mem_singleton.mpr (.value (.inl rfl) s)
  nodup_keys := show ["type", "value"].Nodup by decide
  content_le_one := show (["value"].filter (· ∈ contentKeys)).length ≤ 1 by decide
  exact_keys := fun _ h => Option.some.inj h
  has_items := fun h => absurd h (by decide)

theorem conforms_heading {flat : Bool} (n : Int64) {vs : List Json}
    (h : ∀ v ∈ vs, Settled flat v) :
    Conforms flat "heading" [("depth", .ofInt64 n), ("children", .arr vs)] where
  entries := List.forall_mem_cons.mpr ⟨.depth rfl n, List.forall_mem_singleton.mpr (.children h)⟩
  nodup_keys := show ["type", "depth", "children"].Nodup by decide
  content_le_one := show (["depth", "children"].filter (· ∈ contentKeys)).length ≤ 1 by decide
  exact_keys := fun _ h => Option.some.inj h
  has_items := fun h => absurd h (by decide)

/-- What the record of a node has after its type. -/
def entries (o : Options) (n : Node) : Json.Members :=
  leading o n.props ++ payload o n ++ trailing o n

section entries

variable {flat : Bool} {type : String}

theorem forall_mem_member? {α : Type} {P : String × Json → Prop} {key : String} {toJson : α → Json}
    {value : Option α} (h : ∀ a, value = some a → P (key, toJson a)) :
    ∀ m ∈ Json.member? key toJson value, P m := by
  cases value with
  | none => exact List.forall_mem_nil _
  | some a => exact List.forall_mem_singleton.mpr (h a rfl)

theorem ne_empty_of_nonEmpty? {s : Option String} {t : String} (h : nonEmpty? s = some t) :
    t ≠ "" := by
  simpa using Option.mem_filter_iff.mp h |>.2

theorem entry_of_mem_sourceMembers (o : Options) (p : Properties) :
    ∀ m ∈ sourceMembers o p, Entry flat type m := by
  rw [sourceMembers]
  split
  · exact List.forall_mem_nil _
  · refine List.forall_mem_cons.mpr ⟨.source (.inl rfl) _, ?_⟩
    exact List.forall_mem_singleton.mpr (.source (.inr rfl) _)

theorem entry_of_mem_textMember {key : String} (hkey : key ∈ textKeys) (s : Option String) :
    ∀ m ∈ textMember key s, Entry flat type m :=
  forall_mem_member? fun _ h => .text hkey (ne_empty_of_nonEmpty? h)

theorem entry_of_mem_positionMember (p : Properties) :
    ∀ m ∈ positionMember p, Entry flat type m := by
  refine forall_mem_member? fun pos hpos => ?_
  have h := position?_toJson p
  rw [hpos, eq_comm, Option.map_some, Option.bind_eq_some_iff] at h
  obtain ⟨l, -, h⟩ := h
  obtain ⟨line, -, h⟩ := Option.map_eq_some_iff.mp h
  rw [← h]
  exact .position line l.file

theorem isTextOrNull_textOrNull (s : Option String) : IsTextOrNull (textOrNull s) := by
  rw [textOrNull]
  cases h : nonEmpty? s with
  | none => exact .inl rfl
  | some t => exact .inr ⟨t, ne_empty_of_nonEmpty? h, rfl⟩

theorem settled_record (o : Options) (n : Node) : Settled false (.obj (record o n)) :=
  ⟨_, _, congrArg Json.obj (record_eq o n), nofun⟩

theorem typeName_of_body_list {n : Node} {items : List Node} (h : n.body = .list items) :
    typeName n.props = "list" := by
  cases hk : n.props.kind with
  | unorderedList => simp only [typeName, hk]
  | document | preamble | other | inlineQuoted =>
      simp only [Node.body, hk] at h
      split at h <;> cases h
  | «section» | paragraph | inlineAnchor | inlineImage | image =>
      simp only [Node.body, hk] at h
      cases h

theorem isItem_item (o : Options) (n : Node) : IsItem (item o n) := by
  have hpart (part : Segment) :
      (∃ s, segmentValue o part = .str s) ∨ Settled false (segmentValue o part) := by
    cases part with
    | text s => exact .inl ⟨s, rfl⟩
    | node m => exact .inr (settled_record o m)
  have hinline (parts : List Segment) : IsItemText (inlineValue o parts) := by
    rw [inlineValue]
    split
    · next part _ =>
        rcases hpart part with ⟨s, hs⟩ | hnode
        · rw [hs]
          exact .text s
        · exact .node hnode
    · exact .mixed (List.forall_mem_map.mpr fun part _ => hpart part)
  refine .mk ?_ (List.forall_mem_map.mpr fun b _ => settled_record o b)
  cases n.text with
  | none => exact .text ""
  | some t => exact hinline t.toSegments

theorem entry_of_mem_leading (o : Options) (p : Properties) :
    ∀ m ∈ leading o p, Entry flat (typeName p) m := by
  cases hk : p.kind with
  | document | preamble | other | unorderedList =>
      simp only [leading, hk]
      exact entry_of_mem_sourceMembers o p
  | inlineAnchor =>
      have htype : typeName p = "link" ∨ typeName p = "image" := .inl (by simp only [typeName, hk])
      simp only [leading, hk, List.forall_mem_cons]
      refine ⟨?_, ?_, List.forall_mem_nil _⟩
      · exact .reference htype (by decide) (isTextOrNull_textOrNull p.alt)
      · exact .reference htype (by decide) (isTextOrNull_textOrNull p.target)
  | inlineImage | image =>
      have htype : typeName p = "link" ∨ typeName p = "image" := .inr (by simp only [typeName, hk])
      simp only [leading, hk, List.forall_mem_cons]
      refine ⟨?_, ?_, List.forall_mem_nil _⟩
      · exact .reference htype (by decide) (isTextOrNull_textOrNull p.alt)
      · exact .reference htype (by decide) (isTextOrNull_textOrNull (imageTarget p))
  | «section» | paragraph | inlineQuoted =>
      simp only [leading, hk]
      exact List.forall_mem_nil _

theorem entry_of_mem_payload (o : Options) (n : Node) :
    ∀ m ∈ payload o n, Entry o.flat (typeName n.props) m := by
  have hchildren := settled_children o n
  cases hb : n.body with
  | nothing =>
      simp only [payload, hb]
      exact List.forall_mem_nil _
  | flow _ | titled _ _ =>
      simp only [children, hb] at hchildren
      simp only [payload, hb]
      exact List.forall_mem_singleton.mpr (.children hchildren)
  | list items =>
      simp only [payload, hb]
      refine List.forall_mem_singleton.mpr (.items (typeName_of_body_list hb) ?_)
      exact List.forall_mem_map.mpr fun i _ => isItem_item o i
  | code parts =>
      simp only [payload, hb]
      refine List.forall_mem_singleton.mpr (.value (.inr ?_) _)
      obtain ⟨hk, hs⟩ := Node.quoted_of_body_code hb
      simp only [typeName, hk, hs]

theorem entry_of_mem_details (n : Node) : ∀ m ∈ details n, Entry flat type m := by
  have hlevel : ∀ m ∈ Json.member? "level" Json.ofInt64 (n.props.level.filter (· ≠ 0)),
      Entry flat type m :=
    forall_mem_member? fun k hk => .level (by simpa using (Option.mem_filter_iff.mp hk).2)
  simp only [details, List.forall_mem_append]
  refine ⟨⟨⟨⟨⟨⟨⟨?_, ?_⟩, ?_⟩, ?_⟩, ?_⟩, ?_⟩, ?_⟩, hlevel⟩
  all_goals exact entry_of_mem_textMember (by decide) _

theorem entry_of_mem_trailing (o : Options) (n : Node) :
    ∀ m ∈ trailing o n, Entry flat type m := by
  cases hk : n.props.kind with
  | document | preamble | other =>
      simp only [trailing, hk]
      exact List.forall_mem_append.mpr
        ⟨entry_of_mem_details n, entry_of_mem_positionMember n.props⟩
  | «section» | paragraph | unorderedList =>
      simp only [trailing, hk]
      exact entry_of_mem_positionMember n.props
  | inlineQuoted =>
      simp only [trailing, hk]
      split
      · exact List.forall_mem_nil _
      · exact entry_of_mem_sourceMembers o n.props
  | inlineAnchor | inlineImage | image =>
      simp only [trailing, hk]
      exact List.forall_mem_nil _

theorem entry_of_mem_entries (o : Options) (n : Node) :
    ∀ m ∈ entries o n, Entry o.flat (typeName n.props) m := by
  simp only [entries, List.forall_mem_append]
  exact ⟨⟨entry_of_mem_leading o n.props, entry_of_mem_payload o n⟩, entry_of_mem_trailing o n⟩

end entries

/-- The keys that the record of a node can have after its type, in order. -/
def memberKeys (p : Properties) : List String :=
  match p.kind with
  | .document | .preamble | .other =>
    ["name", "context", "children"] ++ (textKeys ++ ["level", "position"])
  | .section | .paragraph => ["children", "position"]
  | .unorderedList => ["name", "context", "items", "position"]
  | .inlineQuoted =>
    if p.subType = some "monospaced" then ["value"] else ["children", "name", "context"]
  | .inlineAnchor => ["title", "url", "children"]
  | .inlineImage | .image => ["alt", "url"]

section keys

open List (Sublist)

theorem keys_member? {α : Type} (key : String) (toJson : α → Json) (value : Option α) :
    Sublist ((Json.member? key toJson value).map Prod.fst) [key] := by
  cases value with
  | none => exact List.nil_sublist _
  | some a => exact List.Sublist.refl _

theorem keys_sourceMembers (o : Options) (p : Properties) :
    Sublist ((sourceMembers o p).map Prod.fst) ["name", "context"] := by
  rw [sourceMembers]
  split
  · exact List.nil_sublist _
  · exact List.Sublist.refl _

theorem keys_details (n : Node) :
    Sublist ((details n).map Prod.fst) (textKeys ++ ["level"]) := by
  simp only [details, List.map_append]
  have h := fun key s => keys_member? key Json.str (nonEmpty? s)
  exact (((((((h "title" _).append (h "alt" _)).append (h "target" _)).append
    (h "asciiDocType" _)).append (h "id" _)).append (h "role" _)).append
    (h "reftext" _)).append (keys_member? "level" _ _)

theorem keys_entries (o : Options) (n : Node) :
    Sublist ((entries o n).map Prod.fst) (memberKeys n.props) := by
  have hsource := keys_sourceMembers o n.props
  have hposition : Sublist ((positionMember n.props).map Prod.fst) ["position"] :=
    keys_member? "position" _ _
  simp only [entries, List.map_append, memberKeys]
  cases hk : n.props.kind with
  | document | preamble | other =>
      have hpayload : Sublist ((payload o n).map Prod.fst) ["children"] := by
        simp only [payload, Node.body, hk]
        cases n.blocks with
        | some _ => exact .refl _
        | none =>
            cases n.content with
            | some _ => exact .refl _
            | none => exact List.nil_sublist _
      simp only [leading, trailing, hk, List.map_append]
      exact (hsource.append hpayload).append ((keys_details n).append hposition)
  | «section» | paragraph =>
      simp only [leading, payload, Node.body, trailing, hk]
      exact hposition.cons_cons "children"
  | unorderedList =>
      simp only [leading, payload, Node.body, trailing, hk]
      exact (hsource.append (.refl ["items"])).append hposition
  | inlineQuoted =>
      by_cases hs : n.props.subType = some "monospaced"
      · simp only [leading, payload, Node.body, trailing, hk, hs, if_true]
        exact .refl ["value"]
      · simp only [leading, payload, Node.body, trailing, hk, hs, if_false]
        exact hsource.cons_cons "children"
  | inlineAnchor | inlineImage | image =>
      simp only [leading, payload, Node.body, trailing, hk]
      exact .refl _

theorem memberKeys_once (p : Properties) :
    ("type" :: memberKeys p).Nodup ∧ ((memberKeys p).filter (· ∈ contentKeys)).length ≤ 1 := by
  cases hk : p.kind with
  | inlineQuoted =>
      simp only [memberKeys, hk]
      split <;> decide
  | document | preamble | other | «section» | paragraph | unorderedList | inlineAnchor
  | inlineImage | image =>
      simp only [memberKeys, hk]
      decide

theorem fixedType?_of_exactKeys? {p : Properties} {keys : List String}
    (h : exactKeys? (typeName p) = some keys) : fixedType? p = some (typeName p) := by
  refine fixedType?_of_typeName rfl ?_
  generalize typeName p = t at h
  simp only [exactKeys?] at h
  split at h
  case h_6 => cases h
  all_goals decide

theorem keys_of_exactKeys? {o : Options} {n : Node} {keys : List String}
    (h : exactKeys? (typeName n.props) = some keys) : (entries o n).map Prod.fst = keys := by
  have ht := fixedType?_of_exactKeys? h
  generalize typeName n.props = t at h ht
  cases hk : n.props.kind with
  | inlineQuoted =>
      simp only [fixedType?, hk] at ht
      split at ht
      case h_3 hs =>
        simp only [entries, leading, payload, Node.body, trailing, hk, hs]
        cases ht
        exact Option.some.inj h
      all_goals
        cases ht
      all_goals
        cases h
  | inlineAnchor | inlineImage | image =>
      simp only [fixedType?, hk] at ht
      simp only [entries, leading, payload, Node.body, trailing, hk]
      cases ht
      exact Option.some.inj h
  | document | preamble | «section» | paragraph | unorderedList | other =>
      simp only [fixedType?, hk] at ht
      cases ht
      all_goals cases h

theorem items_of_list {o : Options} {n : Node} (h : typeName n.props = "list") :
    "items" ∈ (entries o n).map Prod.fst := by
  have ht := fixedType?_of_typeName h (by decide)
  cases hk : n.props.kind with
  | unorderedList => simp [entries, payload, Node.body, hk]
  | inlineQuoted =>
      simp only [fixedType?, hk] at ht
      split at ht <;> exact absurd ht (by decide)
  | document | preamble | «section» | paragraph | inlineAnchor | inlineImage | image | other =>
      simp only [fixedType?, hk] at ht
      exact absurd ht (by decide)

end keys

theorem conforms_record (o : Options) (n : Node) :
    Conforms o.flat (typeName n.props) (entries o n) where
  entries := entry_of_mem_entries o n
  nodup_keys := ((keys_entries o n).cons_cons "type").nodup (memberKeys_once n.props).1
  content_le_one := Nat.le_trans ((keys_entries o n).filter _).length_le (memberKeys_once n.props).2
  exact_keys := fun _ => keys_of_exactKeys?
  has_items := items_of_list

end DocTree.Mdast
