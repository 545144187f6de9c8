import DocTree.Proofs.JoinedTexts
import DocTree.Proofs.Normal

/-!
Fragments, seen from the values and from the parts that they are made of. A value is what the
fragment read from it holds; a fragment is read back from its value where it keeps no text, record
or array as another value. Parts that are put together have their texts joined, in a form that does
not show where a text was cut and that is put together from its own parts again.
-/

namespace DocTree.Fragment

section values

theorem ofJson_toJson {f : Fragment} (h : f.IsClassified) : ofJson f.toJson = f := by
  induction f using induction with
  | leaf s | node record => rfl
  | other v =>
      have hv : v.IsAtom := h v (List.mem_singleton_self v)
      cases v with
      | null | bool _ | num _ => rfl
      | str _ | arr _ | obj _ => exact hv.elim
  | sequence parts ih =>
      rw [isClassified_sequence_iff] at h
      rw [toJson, ofJson, ofList_eq_map, toList_eq_map, List.map_map]
      have hparts : parts.map (ofJson ∘ toJson) = parts.map id := by
        apply List.map_congr_left
        intro f hf
        exact ih f hf (h f hf)
      rw [hparts, List.map_id]

/-- Every value is what the fragment read from it holds. A fragment is read from its value exactly
when each other value in it, at any depth of its sequences, is null, a boolean or a number. -/
theorem ofJson_inverse_toJson :
    (∀ v : Json, (ofJson v).toJson = v) ∧
      ∀ f : Fragment, ofJson f.toJson = f ↔ f.IsClassified := by
  refine ⟨toJson_ofJson, fun f => ⟨?_, ofJson_toJson⟩⟩
  intro h
  rw [← h]
  exact isClassified_ofJson f.toJson

end values

instance : DecidablePred IsLeaf
  | .leaf s => .isTrue ⟨s, rfl⟩
  | .node _ | .sequence _ | .other _ => .isFalse fun ⟨_, h⟩ => nomatch h

def IsSequence (f : Fragment) : Prop := ∃ parts, f = .sequence parts

/-- The parts that a fragment stands for: those of a sequence, and else the fragment itself. -/
def parts : Fragment → List Fragment
  | .sequence parts => parts
  | .leaf s => [.leaf s]
  | .node record => [.node record]
  | .other v => [.other v]

/-- A fragment with joined texts: a single text, record or other value, or these in a sequence that
is not one of a single part and has no two texts next to each other. -/
inductive IsJoined : Fragment → Prop where
  | single {f : Fragment} (h : ¬ f.IsSequence) : IsJoined f
  | sequence {parts : List Fragment} (hlength : parts.length ≠ 1)
      (hparts : ∀ f ∈ parts, ¬ f.IsSequence) (hseparated : Separated IsLeaf parts) :
      IsJoined (.sequence parts)

theorem parts_of_not_isSequence {f : Fragment} (h : ¬ f.IsSequence) : f.parts = [f] := by
  cases f with
  | leaf _ | node _ | other _ => rfl
  | sequence parts => exact absurd ⟨parts, rfl⟩ h

section joining

theorem mergeLeaves_cons {f : Fragment} (h : ¬ f.IsLeaf) (rest : List Fragment) :
    mergeLeaves (f :: rest) = f :: mergeLeaves rest := by
  cases f with
  | leaf s => exact absurd ⟨s, rfl⟩ h
  | node _ | sequence _ | other _ => rfl

theorem mergeLeaves_leaf_leaf (s t : String) (rest : List Fragment) :
    mergeLeaves (.leaf s :: .leaf t :: rest) = mergeLeaves (.leaf (s ++ t) :: rest) := by
  simp only [mergeLeaves]
  cases mergeLeaves rest with
  | nil => rfl
  | cons next more => cases next <;> simp only [String.append_assoc]

/-- Joining goes on from what the rest is joined to. -/
theorem mergeLeaves_append_congr {ps qs : List Fragment} (h : mergeLeaves ps = mergeLeaves qs)
    (front : List Fragment) : mergeLeaves (front ++ ps) = mergeLeaves (front ++ qs) := by
  induction front with
  | nil => exact h
  | cons f front ih =>
      cases f with
      | leaf s => simp only [List.cons_append, mergeLeaves, ih]
      | node _ | sequence _ | other _ => simp only [List.cons_append, mergeLeaves, ih]

theorem mergeLeaves_of_separated {ps : List Fragment} (h : Separated IsLeaf ps) :
    mergeLeaves ps = ps := by
  induction ps with
  | nil => rfl
  | cons f rest ih =>
      obtain ⟨hfirst, hrest⟩ := List.isChain_cons.mp h
      by_cases hf : f.IsLeaf
      · obtain ⟨s, rfl⟩ := hf
        rw [mergeLeaves, ih hrest]
        cases rest with
        | nil => rfl
        | cons next more =>
            cases next with
            | leaf t => exact absurd ⟨⟨s, rfl⟩, ⟨t, rfl⟩⟩ (hfirst _ rfl)
            | node _ | sequence _ | other _ => rfl
      · rw [mergeLeaves_cons hf, ih hrest]

/-- The parts that are no text, in order. -/
def nonLeaves (ps : List Fragment) : List Fragment := ps.filter (¬ IsLeaf ·)

theorem nonLeaves_leaf (s : String) (rest : List Fragment) :
    nonLeaves (.leaf s :: rest) = nonLeaves rest :=
  List.filter_cons_of_neg (by simp [IsLeaf])

theorem nonLeaves_cons {f : Fragment} (h : ¬ f.IsLeaf) (rest : List Fragment) :
    nonLeaves (f :: rest) = f :: nonLeaves rest :=
  List.filter_cons_of_pos (by simpa using h)

theorem nonLeaves_mergeLeaves (ps : List Fragment) :
    nonLeaves (mergeLeaves ps) = nonLeaves ps := by
  induction ps with
  | nil => rfl
  | cons f rest ih =>
      by_cases hf : f.IsLeaf
      · obtain ⟨s, rfl⟩ := hf
        rw [nonLeaves_leaf, ← ih, mergeLeaves]
        split
        · next t more h => rw [h, nonLeaves_leaf, nonLeaves_leaf]
        · rw [nonLeaves_leaf]
      · rw [mergeLeaves_cons hf, nonLeaves_cons hf, nonLeaves_cons hf, ih]

theorem not_isSequence_of_mem_mergeLeaves {ps : List Fragment} (h : ∀ f ∈ ps, ¬ f.IsSequence) :
    ∀ f ∈ mergeLeaves ps, ¬ f.IsSequence := by
  intro f hf hsequence
  have hleaf : ¬ f.IsLeaf := by
    obtain ⟨parts, rfl⟩ := hsequence
    exact fun ⟨_, h⟩ => nomatch h
  have hmem : f ∈ nonLeaves (mergeLeaves ps) := List.mem_filter.mpr ⟨hf, by simpa using hleaf⟩
  rw [nonLeaves_mergeLeaves] at hmem
  exact h f (List.mem_of_mem_filter hmem) hsequence

/-- Adds a part at the end of joined ones. A text goes on with the text that stands there. -/
def push : List Fragment → Fragment → List Fragment
  | [], part => [part]
  | [.leaf s], .leaf t => [.leaf (s ++ t)]
  | first :: rest, part => first :: push rest part

theorem push_cons {f : Fragment} (h : ¬ f.IsLeaf) (joined : List Fragment) (part : Fragment) :
    push (f :: joined) part = f :: push joined part := by
  cases f with
  | leaf s => exact absurd ⟨s, rfl⟩ h
  | node _ | sequence _ | other _ => rfl

/-- One step of joining from the left. -/
theorem push_mergeLeaves (ps : List Fragment) (part : Fragment) :
    push (mergeLeaves ps) part = mergeLeaves (ps ++ [part]) := by
  induction ps with
  | nil => cases part <;> rfl
  | cons f rest ih =>
      by_cases hf : f.IsLeaf
      · obtain ⟨s, rfl⟩ := hf
        rw [List.cons_append, mergeLeaves, mergeLeaves, ← ih]
        cases mergeLeaves rest with
        | nil => cases part <;> rfl
        | cons next more =>
            cases next with
            | node _ | sequence _ | other _ => rfl
            | leaf t =>
                cases more with
                | cons _ _ => rfl
                | nil => cases part <;> simp [push, String.append_assoc]
      · rw [List.cons_append, mergeLeaves_cons hf, push_cons hf, ih, mergeLeaves_cons hf]

theorem foldl_push (ps qs : List Fragment) :
    qs.foldl push (mergeLeaves ps) = mergeLeaves (ps ++ qs) := by
  induction qs generalizing ps with
  | nil => rw [List.append_nil, List.foldl_nil]
  | cons part qs ih => rw [List.foldl_cons, push_mergeLeaves, ih, List.append_cons ps part qs]

/-- Texts can be joined while the parts are met one after the other. -/
theorem mergeLeaves_eq_foldl (ps : List Fragment) : mergeLeaves ps = ps.foldl push [] :=
  (foldl_push [] ps).symm

end joining

section assembling

theorem ofParts_congr {ps qs : List Fragment} (h : mergeLeaves ps = mergeLeaves qs) :
    ofParts ps = ofParts qs := by
  rw [ofParts, ofParts, h]

variable {ps : List Fragment} (h : ∀ f ∈ ps, ¬ f.IsSequence)

include h

theorem parts_ofParts : (ofParts ps).parts = mergeLeaves ps := by
  rw [ofParts]
  split
  · next single hsingle =>
      have hmem : single ∈ mergeLeaves ps := hsingle ▸ List.mem_singleton_self single
      rw [hsingle, parts_of_not_isSequence (not_isSequence_of_mem_mergeLeaves h single hmem)]
  · rfl

theorem isJoined_ofParts : (ofParts ps).IsJoined := by
  have hparts := not_isSequence_of_mem_mergeLeaves h
  rw [ofParts]
  split
  · next single hsingle =>
      have hmem : single ∈ mergeLeaves ps := hsingle ▸ List.mem_singleton_self single
      exact .single (hparts single hmem)
  · next hseveral =>
      refine .sequence ?_ hparts (separated_mergeLeaves ps)
      intro hlength
      obtain ⟨single, hsingle⟩ := List.length_eq_one_iff.mp hlength
      exact hseveral single hsingle

omit h in
theorem IsJoined.ofParts_parts {f : Fragment} (h : f.IsJoined) : ofParts f.parts = f := by
  cases h with
  | single h =>
      rw [parts_of_not_isSequence h]
      cases f <;> rfl
  | @sequence parts hlength _ hseparated =>
      rw [Fragment.parts, ofParts, mergeLeaves_of_separated hseparated]
      split
      · next single => exact absurd rfl hlength
      · rfl

end assembling

theorem textOfItems_eq_join (vs : List Json) :
    Json.textOfItems vs = String.join (vs.map Json.textContent) := by
  induction vs with
  | nil => simp [Json.textOfItems]
  | cons v rest ih => simp [Json.textOfItems, ih]

/-- Parts are put together in one form for all ways to cut their texts, with the text of the parts.
Parts among which there is no sequence give a fragment with joined texts; it has the same parts
besides texts, in the same order, and is put together from its own parts again. -/
theorem ofParts_canonical :
    (∀ xs ys s t, ofParts (xs ++ [.leaf s, .leaf t] ++ ys) =
      ofParts (xs ++ [.leaf (s ++ t)] ++ ys)) ∧
    (∀ ps, (ofParts ps).textContent = String.join (ps.map textContent)) ∧
    ∀ ps, (∀ f ∈ ps, ¬ f.IsSequence) →
      (ofParts ps).IsJoined ∧
        nonLeaves (ofParts ps).parts = nonLeaves ps ∧
        ofParts (ofParts ps).parts = ofParts ps := by
  refine ⟨fun xs ys s t => ?_, fun ps => ?_, fun ps h => ⟨isJoined_ofParts h, ?_, ?_⟩⟩
  · rw [List.append_assoc, List.append_assoc]
    exact ofParts_congr (mergeLeaves_append_congr (mergeLeaves_leaf_leaf s t ys) xs)
  · rw [textContent_ofParts, textOfItems_eq_join, toList_eq_map, List.map_map]
    rfl
  · rw [parts_ofParts h, nonLeaves_mergeLeaves]
  · exact (isJoined_ofParts h).ofParts_parts

/-- A text in three pieces, one of them empty, between a record and another value. -/
def cutParts : List Fragment :=
  [.node [("value", .str "x")], .leaf "a", .leaf "", .leaf "b", .other .null, .leaf "c"]

theorem ofParts_canonical_cut :
    (∀ f ∈ cutParts, ¬ f.IsSequence) ∧
      (ofParts cutParts).IsJoined ∧
      nonLeaves (ofParts cutParts).parts = [.node [("value", .str "x")], .other .null] ∧
      (ofParts cutParts).textContent = "xabc" := by
  have h : ∀ f ∈ cutParts, ¬ f.IsSequence := by
    intro f hf hsequence
    obtain ⟨parts, rfl⟩ := hsequence
    simp [cutParts] at hf
  obtain ⟨-, htext, hcanonical⟩ := ofParts_canonical
  obtain ⟨hjoined, hothers, -⟩ := hcanonical cutParts h
  refine ⟨h, hjoined, hothers.trans ?_, (htext cutParts).trans ?_⟩
  · rfl
  · decide

end DocTree.Fragment
