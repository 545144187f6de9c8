import DocTree.Source.Written

/-!
Members of objects: looking a key up, and leaving out the members of some keys, here or at every
depth of a value. What is left keeps its order.
-/

namespace DocTree

namespace Json

theorem lookup_cons (key k : String) (v : Json) (rest : Members) :
    List.lookup key ((k, v) :: rest) = if k = key then some v else rest.lookup key := by
  by_cases h : k = key
  · simp [h]
  · have hne : (key == k) = false := by simpa using fun e => h e.symm
    simp [List.lookup_cons, hne, h]

theorem lookup_member? {α : Type} (key k : String) (toJson : α → Json) (value : Option α) :
    List.lookup key (member? k toJson value) = if k = key then value.map toJson else none := by
  cases value with
  | none => simp [member?]
  | some v => simp [member?, lookup_cons]

mutual

/-- A value without the members of some keys, at every depth. -/
def without (keys : List String) : Json → Json
  | .obj members => .obj (withoutMembers keys members)
  | .arr items => .arr (withoutItems keys items)
  | .null => .null
  | .bool b => .bool b
  | .num n => .num n
  | .str s => .str s

def withoutMembers (keys : List String) : Members → Members
  | [] => []
  | (key, v) :: rest =>
    if key ∈ keys then withoutMembers keys rest
    else (key, without keys v) :: withoutMembers keys rest

def withoutItems (keys : List String) : List Json → List Json
  | [] => []
  | v :: rest => without keys v :: withoutItems keys rest

end

mutual

theorem without_nil (v : Json) : without [] v = v := by
  cases v with
  | obj members => rw [without, withoutMembers_nil members]
  | arr items => rw [without, withoutItems_nil items]
  | null | bool _ | num _ | str _ => rfl

theorem withoutMembers_nil (members : Members) : withoutMembers [] members = members := by
  match members with
  | [] => rfl
  | (key, v) :: rest =>
      rw [withoutMembers, if_neg List.not_mem_nil, without_nil v, withoutMembers_nil rest]

theorem withoutItems_nil (vs : List Json) : withoutItems [] vs = vs := by
  match vs with
  | [] => rfl
  | v :: rest => rw [withoutItems, without_nil v, withoutItems_nil rest]

end

section keys

variable {keys : List String}

theorem withoutItems_eq (vs : List Json) : withoutItems keys vs = vs.map (without keys) := by
  induction vs with
  | nil => rfl
  | cons v vs ih => rw [withoutItems, ih, List.map_cons]

theorem withoutMembers_cons {key : String} (h : key ∉ keys) (v : Json) (rest : Members) :
    withoutMembers keys ((key, v) :: rest) =
      (key, without keys v) :: withoutMembers keys rest := by
  rw [withoutMembers, if_neg h]

theorem withoutMembers_append (as bs : Members) :
    withoutMembers keys (as ++ bs) = withoutMembers keys as ++ withoutMembers keys bs := by
  induction as with
  | nil => rfl
  | cons m rest ih =>
      obtain ⟨key, v⟩ := m
      rw [List.cons_append, withoutMembers, withoutMembers, ih]
      split <;> rfl

theorem withoutMembers_member? {α : Type} {key : String} (h : key ∉ keys) {toJson : α → Json}
    (value : Option α) (hvalue : ∀ a, (toJson a).without keys = toJson a) :
    withoutMembers keys (member? key toJson value) = member? key toJson value := by
  cases value with
  | none => rfl
  | some a =>
      rw [member?, withoutMembers_cons h, hvalue]
      rfl

theorem lookup_withoutMembers {key : String} (h : key ∉ keys) (members : Members) :
    (withoutMembers keys members).lookup key = (members.lookup key).map (without keys) := by
  induction members with
  | nil => rfl
  | cons m rest ih =>
      obtain ⟨k, v⟩ := m
      rw [withoutMembers, lookup_cons]
      by_cases hk : k = key
      · rw [if_neg (hk ▸ h), lookup_cons, if_pos hk, if_pos hk]
        rfl
      · rw [if_neg hk, ← ih]
        split
        · rfl
        · rw [lookup_cons, if_neg hk]

end keys

end Json

end DocTree
