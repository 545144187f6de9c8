import DocTree.Error
import DocTree.Proofs.Json.Written
import DocTree.Proofs.Source.Reading
import DocTree.Proofs.Source.Shape
import DocTree.Proofs.Visited

/-!
Which texts are accepted as document trees. Where a text spells a value without repeated keys, it
is accepted exactly if the value has the declared shape, and the tree is the one that the shape
says. Although blocks are read from the text and inline content from its value, an element of an
inline array that is no string is accepted exactly if it is accepted among blocks, as the same node.
-/

namespace DocTree

open Json.RecordShape (Accepts filled_of_ofJson? exists_ofJson?_iff)
open Segment (nodes)

namespace Json

theorem nodup_keys_middle {before after : Members} {k : String} {w : Json}
    (h : ((before ++ (k, w) :: after).map Prod.fst).Nodup) :
    k ∉ (before ++ after).map Prod.fst ∧ ((before ++ after).map Prod.fst).Nodup := by
  rw [List.map_append, List.map_cons] at h
  rw [List.map_append]
  exact List.nodup_cons.mp (List.nodup_middle.mp h)

theorem lookup_eq_none_of_not_mem {key : String} {members : Members}
    (h : key ∉ members.map Prod.fst) : List.lookup key members = none := by
  refine List.lookup_eq_none_iff.mpr fun member hmember => bne_iff_ne.mpr fun heq => h ?_
  exact List.mem_map.mpr ⟨member, hmember, heq.symm⟩

/-- A member of an object without repeated keys is the value of its key, and all other keys have
the values that they have without it. -/
theorem lookup_middle {before after : Members} {k : String} {w : Json}
    (h : ((before ++ (k, w) :: after).map Prod.fst).Nodup) (key : String) :
    List.lookup key (before ++ (k, w) :: after) =
      if key = k then some w else List.lookup key (before ++ after) := by
  rw [List.lookup_append, List.lookup_append]
  by_cases hkey : key = k
  · subst hkey
    have hbefore : List.lookup key before = none := by
      refine lookup_eq_none_of_not_mem fun hmem => (nodup_keys_middle h).1 ?_
      rw [List.map_append]
      exact List.mem_append_left _ hmem
    rw [hbefore, List.lookup_cons_self, if_pos rfl]
    rfl
  · rw [List.lookup_cons, beq_false_of_ne hkey, if_neg hkey]

end Json

namespace Node

/-- The inline content that a node has in a field. -/
def inline? (n : Node) : NodeField → Option RichText
  | .title => n.title
  | .content => n.content
  | .text => n.text
  | _ => none

/-- Two values are the same but for one member: an inline array at the field `f` of the first, and
the elements of that array that are no strings as the blocks of the second. -/
def InlineAsBlocks (f : NodeField) (v v' : Json) : Prop :=
  ∃ before after items,
    v = .obj (before ++ (f.key, .arr items) :: after) ∧
      v' = .obj (before ++
        (NodeField.blocks.key, .arr (items.filter fun w => (text? w).isNone)) :: after)

/-- The nodes of an inline array are those that its elements without the strings are read as. -/
theorem list?_filter (items : List Json) :
    list? (items.filter fun w => (text? w).isNone) = (segments? items).map nodes := by
  induction items with
  | nil => rfl
  | cons v rest ih =>
      rw [segments?_cons]
      cases v with
      | str s =>
          rw [List.filter_cons_of_neg (by simp [text?]), ih]
          cases segments? rest <;> rfl
      | null | bool _ | num _ | arr _ | obj _ =>
          rw [List.filter_cons_of_pos (by simp [text?]), list?, ih]
          simp only [segment?]
          cases ofJson? _ <;> cases segments? rest <;> rfl

theorem exists_ofJson?_obj_iff {members : Json.Members} (hkeys : (members.map Prod.fst).Nodup) :
    (∃ n, ofJson? (.obj members) = some n) ↔
      ∀ f : NodeField, Accepts f.decode (shape.required f) (List.lookup f.key members) := by
  rw [funext ofJson?_eq, exists_ofJson?_iff lawful_shape]
  · constructor
    · rintro ⟨given, hgiven, haccepts⟩
      cases hgiven
      exact haccepts
    · exact fun haccepts => ⟨_, rfl, haccepts⟩
  · rintro _ ⟨⟩
    exact hkeys

section member

variable {before after : Json.Members} {g : NodeField} {w : Json}
  (hkeys : ((before ++ (g.key, w) :: after).map Prod.fst).Nodup)

include hkeys

/-- A member that may be missing can stand in an object exactly if its field accepts its value. -/
theorem exists_ofJson?_middle (hg : shape.required g = false) :
    (∃ n, ofJson? (.obj (before ++ (g.key, w) :: after)) = some n) ↔
      (g.decode w).isSome ∧ ∃ n, ofJson? (.obj (before ++ after)) = some n := by
  obtain ⟨habsent, hrest⟩ := Json.nodup_keys_middle hkeys
  rw [exists_ofJson?_obj_iff hkeys, exists_ofJson?_obj_iff hrest]
  simp only [Json.lookup_middle hkeys]
  constructor
  · intro h
    refine ⟨by simpa [Accepts] using h g, fun f => ?_⟩
    by_cases hf : f.key = g.key
    · rw [lawful_shape.key_injective hf, Json.lookup_eq_none_of_not_mem habsent]
      exact hg
    · simpa [hf] using h f
  · rintro ⟨hw, h⟩ f
    by_cases hf : f.key = g.key
    · rw [lawful_shape.key_injective hf, if_pos rfl]
      exact hw
    · rw [if_neg hf]
      exact h f

theorem decode_middle {n : Node} (h : ofJson? (.obj (before ++ (g.key, w) :: after)) = some n) :
    g.decode w = some (fields n g) := by
  rw [ofJson?_eq] at h
  obtain ⟨given, hgiven, hholds⟩ := filled_of_ofJson? lawful_shape h
  cases hgiven
  have hlookup : List.lookup g.key (before ++ (g.key, w) :: after) = some w := by
    rw [Json.lookup_middle hkeys, if_pos rfl]
  have hg : Json.RecordShape.Holds g.decode (shape.required g) (fields default g) (fields n g)
      (List.lookup g.key (before ++ (g.key, w) :: after)) := hholds g
  rw [hlookup] at hg
  exact hg

end member

/-- An inline field accepts an array exactly if its elements are segments, and holds these. -/
theorem decode_inline {f : NodeField} (hf : f ∈ [NodeField.title, .content, .text])
    (items : List Json) :
    shape.required f = false ∧ (f.decode (.arr items)).isSome = (segments? items).isSome ∧
      ∀ n : Node, f.decode (.arr items) = some (fields n f) →
        ∃ parts, segments? items = some parts ∧ n.inline? f = some (.segments parts) := by
  have hrich {t : Option RichText} (h : optionalRich? (.arr items) = some t) :
      ∃ parts, segments? items = some parts ∧ t = some (.segments parts) := by
    obtain ⟨parts, hparts, rfl⟩ := Option.map_eq_some_iff.mp h
    exact ⟨parts, hparts, rfl⟩
  have hsome : (optionalRich? (.arr items)).isSome = (segments? items).isSome := by
    rw [optionalRich?, Option.isSome_map]
  simp only [List.mem_cons, List.not_mem_nil, or_false] at hf
  rcases hf with rfl | rfl | rfl
  all_goals exact ⟨rfl, hsome, fun _ h => hrich h⟩

theorem blocks_of_inline {f : NodeField} (hf : f ∈ [NodeField.title, .content, .text]) {v v' : Json}
    (h : InlineAsBlocks f v v') (hv : v.UniqueKeys) (hv' : v'.UniqueKeys) :
    ((∃ n, ofJson? v = some n) ↔ ∃ n, ofJson? v' = some n) ∧
      ∀ n n', ofJson? v = some n → ofJson? v' = some n' →
        ∃ parts, n.inline? f = some (.segments parts) ∧ n'.blocks = some (nodes parts) := by
  obtain ⟨before, after, items, rfl, rfl⟩ := h
  obtain ⟨hrequired, hsome, hinline⟩ := decode_inline hf items
  have hblocks : NodeField.blocks.decode (.arr (items.filter fun w => (text? w).isNone)) =
      (segments? items).map fun parts => some (nodes parts) := by
    rw [NodeField.decode, optionalNodes?, list?_filter, Option.map_map]
    rfl
  refine ⟨?_, fun n n' hn hn' => ?_⟩
  · rw [exists_ofJson?_middle hv.1 hrequired, exists_ofJson?_middle hv'.1 rfl, hsome, hblocks,
      Option.isSome_map]
  · obtain ⟨parts, hparts, htext⟩ := hinline n (decode_middle hv.1 hn)
    have hn' := decode_middle hv'.1 hn'
    rw [hblocks, hparts] at hn'
    exact ⟨parts, htext, (Option.some.inj hn').symm⟩

theorem parse_eq_ok_iff {s : String} {v : Json} (h : Json.readRaw s = .ok v) {n : Node} :
    parse s = .ok n ↔ ofJson? v = some n := by
  rw [← read_toOption h, toOption_eq_some_iff, parse]
  cases read s <;> simp

theorem exists_invalidSource_of_parse {s : String} {e : ConvertError} (h : parse s = .error e) :
    ∃ reason, e = .invalidSource reason := by
  rw [parse] at h
  split at h
  · cases h
  · cases h
    exact ⟨_, rfl⟩

/-- A text that spells a value without repeated keys is accepted exactly if the value has the
declared shape, and any other is an invalid source. -/
theorem parse_iff_hasShape {s : String} {v : Json} (hs : Json.readRaw s = .ok v)
    (hv : v.UniqueKeys) :
    (∀ n, parse s = .ok n ↔ n.HasShape v) ∧
      ((∀ n : Node, ¬n.HasShape v) → ∃ reason, parse s = .error (.invalidSource reason)) ∧
      ∀ f ∈ [NodeField.title, .content, .text], ∀ s' v', Json.readRaw s' = .ok v' →
        v'.UniqueKeys → InlineAsBlocks f v v' →
        ((∃ n, parse s = .ok n) ↔ ∃ n, parse s' = .ok n) ∧
          ∀ n n', parse s = .ok n → parse s' = .ok n' →
            ∃ parts, n.inline? f = some (.segments parts) ∧ n'.blocks = some (nodes parts) := by
  refine ⟨fun n => (parse_eq_ok_iff hs).trans (ofJson?_eq_some_iff hv), fun hnone => ?_, ?_⟩
  · cases hparse : parse s with
    | ok n =>
        have hn := (ofJson?_eq_some_iff hv).mp ((parse_eq_ok_iff hs).mp hparse)
        exact absurd hn (hnone n)
    | error e =>
        obtain ⟨e', rfl⟩ := exists_invalidSource_of_parse hparse
        exact ⟨e', rfl⟩
  · intro f hf s' v' hs' hv' h
    simp only [parse_eq_ok_iff hs, parse_eq_ok_iff hs']
    exact blocks_of_inline hf h hv hv'

def mixedContent : Json :=
  .obj [("nodeName", .str "paragraph"),
    ("content", .arr [.str "see ", .obj [("target", .str "a"), ("nodeName", .str "anchor")]])]

def itsBlocks : Json :=
  .obj [("nodeName", .str "paragraph"),
    ("blocks", .arr [.obj [("target", .str "a"), ("nodeName", .str "anchor")]])]

theorem parse_mixedContent :
    Json.readRaw mixedContent.compact = .ok mixedContent ∧
      Json.readRaw itsBlocks.compact = .ok itsBlocks ∧
      ∃ n n', n.HasShape mixedContent ∧ parse mixedContent.compact = .ok n ∧
        parse itsBlocks.compact = .ok n' ∧
        ∃ parts, n.content = some (.segments parts) ∧ n'.blocks = some (nodes parts) := by
  have hread : Json.readRaw mixedContent.compact = .ok mixedContent :=
    Json.readRaw_compact
      (by simp [mixedContent, Json.FloatFree, Json.FloatFreeMembers, Json.FloatFreeList])
      (by decide)
  have hread' : Json.readRaw itsBlocks.compact = .ok itsBlocks :=
    Json.readRaw_compact
      (by simp [itsBlocks, Json.FloatFree, Json.FloatFreeMembers, Json.FloatFreeList])
      (by decide)
  have hkeys : mixedContent.UniqueKeys := by
    simp [mixedContent, Json.UniqueKeys, Json.UniqueKeysMembers, Json.UniqueKeysList]
  have hkeys' : itsBlocks.UniqueKeys := by
    simp [itsBlocks, Json.UniqueKeys, Json.UniqueKeysMembers, Json.UniqueKeysList]
  obtain ⟨hshape, _, hinline⟩ := parse_iff_hasShape hread hkeys
  obtain ⟨n, hn⟩ : ∃ n, ofJson? mixedContent = some n := ⟨_, rfl⟩
  have hn := (ofJson?_eq_some_iff hkeys).mp hn
  have hsame : InlineAsBlocks .content mixedContent itsBlocks :=
    ⟨[("nodeName", .str "paragraph")], [], _, rfl, rfl⟩
  obtain ⟨hiff, hnodes⟩ := hinline .content (by decide) _ _ hread' hkeys' hsame
  have hparse := (hshape n).mpr hn
  obtain ⟨n', hparse'⟩ := hiff.mp ⟨n, hparse⟩
  exact ⟨hread, hread', n, n', hn, hparse, hparse', hnodes n n' hparse hparse'⟩

end Node

end DocTree
