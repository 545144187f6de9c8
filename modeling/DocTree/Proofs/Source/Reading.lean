import DocTree.Proofs.Source.Fields
import DocTree.Proofs.Json.RecordReader

/-!
Reading a document tree while its text is scanned agrees with decoding the value that the text
spells. Only inline content is read as a value first; everything else is read from the text, and
the same is found either way. What is read from a text that spells no value, because of members
that are passed over, still is the tree of some value.
-/

namespace DocTree

open Json (Agrees Sound ReadError)
open Json.RecordShape (put setBy)

namespace Json

variable {k steps room : Nat}

theorem agrees_readText : Agrees k room readText text? := by
  intro cs v rest h
  obtain ⟨next, hl, hnext⟩ := readLexeme_of_readValue h
  cases v with
  | str s => rw [readText, hl, hnext rfl]; rfl
  | null | bool _ | num _ | arr _ | obj _ => rw [readText, hl]; rfl

theorem agrees_readText? : Agrees k room readText? (optional? text?) := by
  intro cs v rest h
  obtain ⟨next, hl, hnext⟩ := readLexeme_of_readValue h
  cases v with
  | null | str _ => rw [readText?, hl, hnext rfl]; rfl
  | bool _ | num _ | arr _ | obj _ => rw [readText?, hl]; rfl

theorem agrees_readSigned? : Agrees k room readSigned? (optional? signed?) := by
  intro cs v rest h
  obtain ⟨next, hl, hnext⟩ := readLexeme_of_readValue h
  cases v with
  | null => rw [readSigned?, hl, hnext rfl]; rfl
  | num n =>
      rw [readSigned?, hl, hnext rfl]
      cases n with
      | int n =>
          simp only [bind, Except.bind, lexeme, optional?, signed?]
          cases n.toInt64? <;> rfl
      | float _ => rfl
  | bool _ | str _ | arr _ | obj _ => rw [readSigned?, hl]; rfl

theorem agrees_readSize? : Agrees k room readSize? (optional? LocationField.line?) := by
  intro cs v rest h
  obtain ⟨next, hl, hnext⟩ := readLexeme_of_readValue h
  cases v with
  | null => rw [readSize?, hl, hnext rfl]; rfl
  | num n =>
      rw [readSize?, hl, hnext rfl]
      cases n with
      | int n =>
          simp only [bind, Except.bind, lexeme, optional?, LocationField.line?]
          cases n.toUInt64? <;> rfl
      | float _ => rfl
  | bool _ | str _ | arr _ | obj _ => rw [readSize?, hl]; rfl

end Json

variable {k steps room : Nat}

theorem LocationField.agrees_read (f : LocationField) : Agrees k room f.read f.decode := by
  cases f with
  | line => exact Json.agrees_readSize?
  | file => exact Json.agrees_readText?

theorem Location.agrees_read? (hk : k ≤ steps) :
    Agrees k room (read? steps room) (optional? ofJson?) := by
  intro cs v rest h
  obtain ⟨next, hl, hnext⟩ := Json.readLexeme_of_readValue h
  cases k with
  | zero => cases h
  | succ k =>
      have hfield : ∀ below, room = below + 1 →
          ∀ f l, Agrees k below (readField f l) (setField? f l) := by
        intro below _ f l
        rw [funext (readField_eq f l), funext (setField?_eq f l)]
        exact Json.RecordShape.agrees_setBy f.agrees_read l
      have hrecord : (shape.readFrom (fun _ => readField) {} steps room v.lexeme next).toOption =
          (ofJson? v).map (·, rest) :=
        Json.RecordShape.readFrom_toOption (Nat.le_of_succ_le hk) hfield h hl
      cases v with
      | null => rw [read?, hl, hnext rfl]; rfl
      | bool _ | num _ | str _ => rw [read?, hl]; rfl
      | arr _ | obj _ =>
          rw [read?, hl]
          refine
            (toOption_bind (shape.readFrom (fun _ => readField) {} steps room _ next) _).trans ?_
          rw [hrecord, optional?.eq_2 _ _ (by rintro ⟨⟩)]
          cases ofJson? _ <;> rfl

theorem agrees_readAttributes? (hk : k ≤ steps) :
    Agrees k room (readAttributes? steps room) (optional? attributes?) := by
  intro cs v rest h
  obtain ⟨next, hl, hnext⟩ := Json.readLexeme_of_readValue h
  cases v with
  | null => rw [readAttributes?, hl, hnext rfl]; rfl
  | bool _ | num _ | str _ | arr _ => rw [readAttributes?, hl]; rfl
  | obj members =>
      cases k with
      | zero => cases h
      | succ k =>
          rcases Json.readValue_succ.mp h with ⟨lexeme, _, hv⟩ | ⟨_, _, _, _, hv, _⟩ |
            ⟨below, _, _, rfl, hv, hfound, hmembers⟩
          · cases lexeme <;> cases hv
          · cases hv
          · cases hv
            cases hl.symm.trans hfound
            have hread := Json.readMembers_mono (Nat.le_of_succ_le hk) hmembers
            rw [readAttributes?, hl]
            simp only [bind, Except.bind, Json.lexeme, hread]
            rfl

theorem RichText.agrees_read? (hk : k ≤ steps) :
    Agrees k room (read? steps room) Node.optionalRich? := by
  intro cs v rest h
  rw [read?, Json.readValue_mono hk h]
  simp only [bind, Except.bind]
  cases Node.optionalRich? v <;> rfl

theorem NodeField.agrees_read
    {readNodes? : List Char → Except ReadError (Option (List Node) × List Char)}
    (hnodes : Agrees k room readNodes? Node.optionalNodes?) (hk : k ≤ steps) (f : NodeField) :
    Agrees k room (f.read readNodes? steps room) f.decode := by
  cases f with
  | nodeName | context => exact Json.agrees_readText
  | title | content | text => exact RichText.agrees_read? hk
  | blocks | items => exact hnodes
  | alt | target | subType | id | role | reftext => exact Json.agrees_readText?
  | level => exact Json.agrees_readSigned?
  | attributes => exact agrees_readAttributes? hk
  | location => exact Location.agrees_read? hk

namespace Node

/-- Values that are read in `k` steps are found as the nodes that they are decoded to. -/
structure Reads (k : Nat) : Prop where
  node : ∀ {steps room}, k ≤ steps → Agrees k room (readNode steps room) ofJson?
  nodes? : ∀ {steps room}, k ≤ steps → Agrees k room (readNodes? steps room) optionalNodes?
  nodes : ∀ {steps room first cs vs rest}, k ≤ steps →
    Json.readItems k room first cs = .ok (vs, rest) →
    (readNodes steps room first cs).toOption = (list? vs).map (·, rest)

section step

variable (hreads : Reads k) (hk : k ≤ steps)

include hreads hk

theorem agrees_readNode : Agrees (k + 1) room (readNode (steps + 1) room) ofJson? := by
  intro cs v rest h
  obtain ⟨next, hl, _⟩ := Json.readLexeme_of_readValue h
  rw [readNode, hl, ofJson?_eq]
  refine Json.RecordShape.readFrom_toOption hk (fun below _ f n => ?_) h hl
  rw [funext (readField_eq _ steps below f n)]
  exact Json.RecordShape.agrees_setBy (f.agrees_read (hreads.nodes? hk) hk) n

theorem agrees_readNodes? :
    Agrees (k + 1) room (readNodes? (steps + 1) room) optionalNodes? := by
  intro cs v rest h
  obtain ⟨next, hl, hnext⟩ := Json.readLexeme_of_readValue h
  cases v with
  | null => rw [readNodes?, hl, hnext rfl]; rfl
  | bool _ | num _ | str _ | obj _ => rw [readNodes?, hl]; rfl
  | arr items =>
      rcases Json.readValue_succ.mp h with ⟨lexeme, _, hv⟩ |
        ⟨below, _, _, rfl, hv, hfound, hitems⟩ | ⟨_, _, _, _, hv, _⟩
      · cases lexeme <;> cases hv
      · cases hv
        cases hl.symm.trans hfound
        rw [readNodes?, hl]
        refine (toOption_bind (readNodes steps below true next) _).trans ?_
        rw [hreads.nodes hk hitems, optionalNodes?]
        cases list? items <;> rfl
      · cases hv

theorem readNodes_toOption {first : Bool} {cs rest : List Char} {vs : List Json}
    (h : Json.readItems (k + 1) room first cs = .ok (vs, rest)) :
    (readNodes (steps + 1) room first cs).toOption = (list? vs).map (·, rest) := by
  rcases Json.readItems_succ.mp h with ⟨rfl, hnext⟩ |
    ⟨v, more, next, after, rfl, hnext, hv, hmore⟩
  · rw [readNodes, hnext, list?]
    rfl
  · rw [readNodes, hnext, list?]
    refine (toOption_bind (readNode steps room next) _).trans ?_
    rw [hreads.node hk hv]
    cases ofJson? v with
    | none => rfl
    | some n =>
        refine (toOption_bind (readNodes steps room false after) _).trans ?_
        rw [hreads.nodes hk hmore]
        cases list? more <;> rfl

end step

/-- The induction is on the steps that reading the value takes; blocks and items are read a step
later than the node around them. -/
theorem reads (k : Nat) : Reads k := by
  induction k with
  | zero =>
      refine ⟨fun _ _ _ _ h => ?_, fun _ _ _ _ h => ?_, fun _ h => ?_⟩
      all_goals cases h
  | succ k ih =>
      refine ⟨fun {steps room} hk => ?_, fun {steps room} hk => ?_,
        fun {steps room first cs vs rest} hk h => ?_⟩
      all_goals obtain ⟨steps, rfl⟩ : ∃ n, steps = n + 1 := ⟨steps - 1, by omega⟩
      all_goals replace hk := Nat.le_of_succ_le_succ hk
      · exact agrees_readNode ih hk
      · exact agrees_readNodes? ih hk
      · exact readNodes_toOption ih hk h

/-- A text that spells a value is read as the tree that the value is decoded to, if there is one. -/
theorem read_toOption {s : String} {v : Json} (h : Json.readRaw s = .ok v) :
    (read s).toOption = ofJson? v := by
  obtain ⟨⟨_, rest⟩, hv, h⟩ := bind_eq_ok_iff.mp h
  obtain ⟨_, hend, h⟩ := bind_eq_ok_iff.mp h
  cases h
  rw [read, toOption_bind, (reads _).node (Nat.le_refl _) hv]
  cases ofJson? v with
  | none => rfl
  | some n => simp [hend, bind, Except.bind, Except.toOption]

end Node

section soundness

namespace Json

theorem sound_readText : Sound room readText text? := by
  intro cs s rest h
  obtain ⟨⟨lexeme, next⟩, _, h⟩ := bind_eq_ok_iff.mp h
  cases lexeme with
  | str t =>
      cases h
      exact ⟨.str s, Nat.zero_le _, rfl⟩
  | null | bool _ | num _ | openList | openObject => cases h

theorem sound_readText? : Sound room readText? (optional? text?) := by
  intro cs s rest h
  obtain ⟨⟨lexeme, next⟩, _, h⟩ := bind_eq_ok_iff.mp h
  cases lexeme with
  | null =>
      cases h
      exact ⟨.null, Nat.zero_le _, rfl⟩
  | str t =>
      cases h
      exact ⟨.str t, Nat.zero_le _, rfl⟩
  | bool _ | num _ | openList | openObject => cases h

theorem sound_readSigned? : Sound room readSigned? (optional? signed?) := by
  intro cs i rest h
  obtain ⟨⟨lexeme, next⟩, _, h⟩ := bind_eq_ok_iff.mp h
  cases lexeme with
  | null =>
      cases h
      exact ⟨.null, Nat.zero_le _, rfl⟩
  | num n =>
      cases n with
      | float _ => cases h
      | int n =>
          simp only at h
          split at h
          · next hn =>
              cases h
              exact ⟨.num (.int n), Nat.zero_le _, congrArg (Option.map some) hn⟩
          · cases h
  | bool _ | str _ | openList | openObject => cases h

theorem sound_readSize? : Sound room readSize? (optional? LocationField.line?) := by
  intro cs i rest h
  obtain ⟨⟨lexeme, next⟩, _, h⟩ := bind_eq_ok_iff.mp h
  cases lexeme with
  | null =>
      cases h
      exact ⟨.null, Nat.zero_le _, rfl⟩
  | num n =>
      cases n with
      | float _ => cases h
      | int n =>
          simp only at h
          split at h
          · next hn =>
              cases h
              exact ⟨.num (.int n), Nat.zero_le _, congrArg (Option.map some) hn⟩
          · cases h
  | bool _ | str _ | openList | openObject => cases h

end Json

theorem LocationField.sound_read (f : LocationField) : Sound room f.read f.decode := by
  cases f with
  | line => exact Json.sound_readSize?
  | file => exact Json.sound_readText?

/-- A value that is not `null` is present. -/
theorem optional?_of_decode {α : Type} {decode : Json → Option α} {v : Json} {a : α}
    (hnull : decode .null = none) (h : decode v = some a) : optional? decode v = some (some a) := by
  rw [optional?.eq_2 _ _ (by rintro rfl; rw [hnull] at h; cases h), h]
  rfl

theorem Location.sound_read? : Sound room (read? steps room) (optional? ofJson?) := by
  intro cs l rest h
  obtain ⟨⟨lexeme, next⟩, _, h⟩ := bind_eq_ok_iff.mp h
  simp only at h
  split at h
  · cases h
    exact ⟨.null, Nat.zero_le _, rfl⟩
  · obtain ⟨⟨l', _⟩, hl', h⟩ := bind_eq_ok_iff.mp h
    cases h
    have hfield : ∀ below, room = below + 1 →
        ∀ f l, Sound below (readField f l) (setField? f l) := by
      intro below _ f l
      rw [funext (readField_eq f l), funext (setField?_eq f l)]
      exact Json.RecordShape.sound_setBy f.sound_read l
    obtain ⟨v, hdepth, hv⟩ := Json.RecordShape.exists_json_of_readFrom hfield hl'
    exact ⟨v, hdepth, optional?_of_decode rfl hv⟩

theorem sound_readAttributes? :
    Sound room (readAttributes? steps room) (optional? attributes?) := by
  intro cs a rest h
  obtain ⟨⟨lexeme, next⟩, _, h⟩ := bind_eq_ok_iff.mp h
  simp only at h
  split at h
  · next heq _ =>
      cases h
      exact ⟨.null, Nat.zero_le _, rfl⟩
  · cases h
  · obtain ⟨⟨members, _⟩, hmembers, h⟩ := bind_eq_ok_iff.mp h
    cases h
    exact ⟨.obj members, Nat.succ_le_succ ((Json.depth_le_of_read _).2.2 hmembers), rfl⟩
  · cases h

theorem RichText.sound_read? : Sound room (read? steps room) Node.optionalRich? := by
  intro cs t rest h
  obtain ⟨⟨v, next⟩, hv, h⟩ := bind_eq_ok_iff.mp h
  simp only at h
  split at h
  · next ht =>
      cases h
      exact ⟨v, Json.depth_le_of_readValue hv, ht⟩
  · cases h

theorem NodeField.sound_read
    {readNodes? : List Char → Except ReadError (Option (List Node) × List Char)}
    (hnodes : Sound room readNodes? Node.optionalNodes?) (f : NodeField) :
    Sound room (f.read readNodes? steps room) f.decode := by
  cases f with
  | nodeName | context => exact Json.sound_readText
  | title | content | text => exact RichText.sound_read?
  | blocks | items => exact hnodes
  | alt | target | subType | id | role | reftext => exact Json.sound_readText?
  | level => exact Json.sound_readSigned?
  | attributes => exact sound_readAttributes?
  | location => exact Location.sound_read?

namespace Node

/-- Whatever is found in `steps` steps is what some value is decoded to. -/
structure SoundReads (steps : Nat) : Prop where
  node : ∀ {room}, Sound room (readNode steps room) ofJson?
  nodes? : ∀ {room}, Sound room (readNodes? steps room) optionalNodes?
  nodes : ∀ {room first cs ns rest}, readNodes steps room first cs = .ok (ns, rest) →
    ∃ vs, (∀ w ∈ vs, w.depth ≤ room) ∧ list? vs = some ns

section step

variable (hsound : SoundReads steps)

include hsound

theorem sound_readNode : Sound room (readNode (steps + 1) room) ofJson? := by
  intro cs n rest h
  obtain ⟨⟨lexeme, next⟩, _, h⟩ := bind_eq_ok_iff.mp h
  simp only [ofJson?_eq]
  refine Json.RecordShape.exists_json_of_readFrom (fun below _ f n => ?_) h
  rw [funext (readField_eq _ steps below f n)]
  exact Json.RecordShape.sound_setBy (f.sound_read hsound.nodes?) n

theorem sound_readNodes? : Sound room (readNodes? (steps + 1) room) optionalNodes? := by
  intro cs ns rest h
  obtain ⟨⟨lexeme, next⟩, _, h⟩ := bind_eq_ok_iff.mp h
  simp only at h
  split at h
  · cases h
    exact ⟨.null, Nat.zero_le _, rfl⟩
  · cases h
  · obtain ⟨⟨ns', _⟩, hns', h⟩ := bind_eq_ok_iff.mp h
    cases h
    obtain ⟨vs, hdepth, hvs⟩ := hsound.nodes hns'
    exact ⟨.arr vs, Json.depth_arr_le_iff.mpr hdepth, by rw [optionalNodes?, hvs]; rfl⟩
  · cases h

theorem exists_list_of_readNodes {first : Bool} {cs rest : List Char} {ns : List Node}
    (h : readNodes (steps + 1) room first cs = .ok (ns, rest)) :
    ∃ vs, (∀ w ∈ vs, w.depth ≤ room) ∧ list? vs = some ns := by
  obtain ⟨next | rest', _, h⟩ := bind_eq_ok_iff.mp h
  · obtain ⟨⟨n, after⟩, hn, h⟩ := bind_eq_ok_iff.mp h
    obtain ⟨⟨more, _⟩, hmore, h⟩ := bind_eq_ok_iff.mp h
    cases h
    obtain ⟨v, hdepth, hv⟩ := hsound.node hn
    obtain ⟨vs, hdepths, hvs⟩ := hsound.nodes hmore
    refine ⟨v :: vs, List.forall_mem_cons.mpr ⟨hdepth, hdepths⟩, ?_⟩
    rw [list?, hv, hvs]
    rfl
  · cases h
    exact ⟨[], List.forall_mem_nil _, rfl⟩

end step

theorem soundReads (steps : Nat) : SoundReads steps := by
  induction steps with
  | zero =>
      refine ⟨fun h => ?_, fun h => ?_, fun h => ?_⟩
      all_goals cases h
  | succ steps ih =>
      exact ⟨fun h => sound_readNode ih h, fun h => sound_readNodes? ih h,
        exists_list_of_readNodes ih⟩

/-- Whatever is read is the tree of a value that nests no deeper than a text may. -/
theorem exists_json_of_read {s : String} {n : Node} (h : read s = .ok n) :
    ∃ v, v.depth ≤ Json.nestingLimit ∧ ofJson? v = some n := by
  obtain ⟨⟨_, rest⟩, hn, h⟩ := bind_eq_ok_iff.mp h
  obtain ⟨_, _, h⟩ := bind_eq_ok_iff.mp h
  cases h
  exact (soundReads _).node hn

end Node

end soundness

end DocTree
