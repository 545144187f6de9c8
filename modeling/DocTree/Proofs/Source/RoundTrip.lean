import DocTree.Proofs.Source.Acceptance
import DocTree.Proofs.Source.Written

/-!
Reading back what is written of a document tree. The value that is written decodes to the tree
again, since it has the shape of the tree and repeats no key. The text of the value is accepted,
since the value nests no deeper than the one that the tree came from.
-/

namespace DocTree.Node

/-- What is written of a decoded tree decodes to that tree. -/
theorem ofJson?_toJson {v : Json} {n : Node} (h : ofJson? v = some n) :
    ofJson? n.toJson = some n :=
  (ofJson?_eq_some_iff ((fits_of_decoded v).1 n h).keys).mpr n.hasShape_toJson

theorem exists_json_of_parse {s : String} {n : Node} (h : parse s = .ok n) :
    ∃ v, v.depth ≤ Json.nestingLimit ∧ ofJson? v = some n := by
  rw [parse] at h
  split at h
  · next hread =>
      cases h
      exact exists_json_of_read hread
  · cases h

/-- An accepted tree without doubles is read back from its text, and written as that text again. -/
theorem parse_toJson {s : String} {n : Node} (h : parse s = .ok n) (hfloat : n.FloatFree) :
    ∃ m, parse n.toJson.compact = .ok m ∧ m = n ∧ m.toJson.compact = n.toJson.compact := by
  obtain ⟨v, hv, hn⟩ := exists_json_of_parse h
  have hdepth : n.toJson.depth ≤ Json.nestingLimit :=
    Nat.le_trans ((fits_of_decoded v).1 n hn).depth hv
  have hread : Json.readRaw n.toJson.compact = .ok n.toJson :=
    Json.readRaw_compact (floatFree_toJson hfloat) hdepth
  exact ⟨n, (parse_eq_ok_iff hread).mpr (ofJson?_toJson hn), rfl, rfl⟩

/-- A paragraph given by its fields in their order, down to a location that has a file only. -/
def positionalParagraph : Json :=
  .arr [.str "paragraph", .str "", .arr [],
    .arr [.str "see \"\n", .obj [("nodeName", .str "anchor"), ("attributes", .obj [])]],
    .null, .null, .null, .null, .null, .null, .null, .null, .null, .num (.int (.ofInt64 (-2))),
    .obj [("name", .arr [.null, .bool true])], .arr [.null, .str "a.adoc"]]

def anchorRead : Node where
  props := { nodeName := "anchor", attributes := some [] }

def paragraphRead : Node where
  props :=
    { nodeName := "paragraph", level := some (-2)
      attributes := some [("name", .arr [.null, .bool true])]
      location := some { file := some "a.adoc" } }
  title := some (.segments [])
  content := some (.segments [.text "see \"\n", .node anchorRead])

theorem floatFree_paragraphRead : paragraphRead.FloatFree := by
  have hchildren : paragraphRead.children = [anchorRead] := rfl
  have hnone : anchorRead.children = [] := rfl
  have hanchor : anchorRead.FloatFree := by
    refine floatFree_iff.mpr ⟨?_, by simp [hnone]⟩
    rintro _ ⟨⟩
    trivial
  refine floatFree_iff.mpr ⟨?_, by simpa [hchildren] using hanchor⟩
  rintro _ ⟨⟩
  simp [Json.FloatFree, Json.FloatFreeMembers, Json.FloatFreeList]

theorem parse_toJson_positional :
    parse positionalParagraph.compact = .ok paragraphRead ∧
      paragraphRead.FloatFree ∧
      ∃ m, parse paragraphRead.toJson.compact = .ok m ∧ m = paragraphRead ∧
        m.toJson.compact = paragraphRead.toJson.compact := by
  have hread : Json.readRaw positionalParagraph.compact = .ok positionalParagraph :=
    Json.readRaw_compact
      (by simp [positionalParagraph, Json.FloatFree, Json.FloatFreeMembers, Json.FloatFreeList])
      (by decide)
  have hparse : parse positionalParagraph.compact = .ok paragraphRead :=
    (parse_eq_ok_iff hread).mpr (by rfl)
  exact ⟨hparse, floatFree_paragraphRead, parse_toJson hparse floatFree_paragraphRead⟩

end DocTree.Node
