import Mathlib.Data.List.Induction
import Mathlib.Data.List.Sort
import DocTree.Proofs.Text.ByteOrder
import DocTree.Registry

/-!
Registries after any sequence of registrations. A key leads to the backend that was the last one
to claim it, by its name or by a further name, so the order of registrations matters only where
their keys meet. Keys are claimed one by one: a backend that lost its name to a later one is still
found by the further names that it kept.
-/

namespace DocTree

theorem nodup_eraseDups {α : Type} [BEq α] [LawfulBEq α] (as : List α) :
    as.eraseDups.Nodup := by
  induction as using List.reverseRecOn with
  | nil => exact List.nodup_nil
  | append_singleton as a ih =>
      rw [List.eraseDups_append]
      by_cases h : a ∈ as
      · simpa [List.removeAll, h] using ih
      · simpa [List.removeAll, h, List.nodup_append, List.eraseDups_cons] using
          ⟨ih, fun _ hb hba => h (hba ▸ hb)⟩

namespace Registry

/-- The registry in which backends are registered one after the other. -/
def ofList (bs : List Backend) : Registry := bs.foldl register empty

theorem withDefaults_eq_ofList (o : Options) : withDefaults o = ofList [.plain, .mdast o] := rfl

theorem ofList_append_singleton (bs : List Backend) (b : Backend) :
    ofList (bs ++ [b]) = (ofList bs).register b := by
  rw [ofList, List.foldl_append]
  rfl

theorem get?_register (r : Registry) (b : Backend) (key : String) :
    (r.register b).get? key = if key ∈ b.keys then some b else r.get? key := by
  have hkeys : (b.keys.map (·, b)).lookup key = if key ∈ b.keys then some b else none := by
    induction b.keys with
    | nil => rfl
    | cons k ks ih =>
        rw [List.map_cons, List.lookup_cons, ih]
        by_cases h : key = k
        · simp [h]
        · simp [h, beq_false_of_ne h]
  rw [get?, register, List.lookup_append, hkeys]
  split <;> rfl

/-- A key leads to the last backend that claims it. -/
theorem get?_ofList (bs : List Backend) (key : String) :
    (ofList bs).get? key = bs.reverse.find? (key ∈ ·.keys) := by
  induction bs using List.reverseRecOn with
  | nil => rfl
  | append_singleton bs b ih =>
      rw [ofList_append_singleton, get?_register, ih, List.reverse_append, List.reverse_singleton,
        List.singleton_append, List.find?_cons]
      by_cases h : key ∈ b.keys <;> simp [h]

/-- Of the backends in a list, the last one that claims a key, and what is before and after it. -/
structure LastClaim (bs : List Backend) (key : String) (b : Backend) (before after : List Backend) :
    Prop where
  split : bs = before ++ b :: after
  claimed : key ∈ b.keys
  unclaimed_after : ∀ later ∈ after, key ∉ later.keys

theorem get?_ofList_eq_some_iff {bs : List Backend} {key : String} {b : Backend} :
    (ofList bs).get? key = some b ↔ ∃ before after, LastClaim bs key b before after := by
  rw [get?_ofList, List.find?_eq_some_iff_append]
  constructor
  · rintro ⟨hkey, after, before, hsplit, hlater⟩
    refine ⟨before.reverse, after.reverse, ?_, by simpa using hkey, fun later h => ?_⟩
    · simpa using congrArg List.reverse hsplit
    · simpa using hlater later (List.mem_reverse.mp h)
  · rintro ⟨before, after, hsplit, hkey, hlater⟩
    refine ⟨by simpa using hkey, after.reverse, before.reverse, by simp [hsplit], fun later h => ?_⟩
    simpa using hlater later (List.mem_reverse.mp h)

theorem get?_ofList_eq_none_iff {bs : List Backend} {key : String} :
    (ofList bs).get? key = none ↔ ∀ b ∈ bs, key ∉ b.keys := by
  simp [get?_ofList]

section Answers

variable {r s : Registry} {key : String}

theorem get_eq_ok_iff {b : Backend} : r.get key = .ok b ↔ r.get? key = some b := by
  rw [get]
  cases r.get? key <;> simp

theorem get_eq_error_iff : r.get key = .error (.backendNotFound key) ↔ r.get? key = none := by
  rw [get]
  cases r.get? key <;> simp

theorem has_iff : r.has key = true ↔ ∃ b, r.get key = .ok b := by
  simp only [get_eq_ok_iff, has, Option.isSome_iff_exists]

theorem has_eq_false_iff : r.has key = false ↔ r.get key = .error (.backendNotFound key) := by
  simp only [get_eq_error_iff, has, Option.isSome_eq_false_iff, Option.isNone_iff_eq_none]

theorem mem_names_iff : key ∈ r.names ↔ ∃ b, r.get key = .ok b ∧ b.name = key := by
  have hcanonical : r.isCanonical key = true ↔ ∃ b, r.get key = .ok b ∧ b.name = key := by
    simp only [isCanonical, Option.any_eq_true, decide_eq_true_eq, get_eq_ok_iff]
  have hentry {b : Backend} (h : r.get key = .ok b) : key ∈ r.entries.map Prod.fst := by
    obtain ⟨_, _, h, _⟩ := List.lookup_eq_some_iff.mp (get_eq_ok_iff.mp h)
    rw [h]
    simp
  rw [names, List.mem_mergeSort, List.mem_filter, List.mem_eraseDups, hcanonical]
  exact ⟨And.right, fun ⟨b, h, hname⟩ => ⟨hentry h, b, h, hname⟩⟩

theorem pairwise_names (r : Registry) : r.names.Pairwise (· < ·) := by
  have hsorted : r.names.Pairwise (· ≤ ·) := by
    refine (List.pairwise_mergeSort ?_ ?_ _).imp ?_
    · intro a b c hab hbc
      simp only [Bool.not_eq_true', decide_eq_false_iff_not, String.not_lt] at hab hbc ⊢
      exact String.le_trans hab hbc
    · intro a b
      simp only [Bool.or_eq_true, Bool.not_eq_true', decide_eq_false_iff_not, String.not_lt]
      exact String.le_total a b
    · intro a b hab
      simpa only [Bool.not_eq_true', decide_eq_false_iff_not, String.not_lt] using hab
  have hnodup : r.names.Nodup :=
    (List.mergeSort_perm _ _).nodup_iff.mpr ((nodup_eraseDups _).filter _)
  refine hsorted.imp₂ (fun a b hle hne => ?_) hnodup
  exact lt_of_le_of_ne hle hne

/-- Two registries that answer every question alike. -/
structure Agree (r s : Registry) : Prop where
  get (key : String) : r.get key = s.get key
  has (key : String) : r.has key = s.has key
  names : r.names = s.names
  serialize (n : Node) (key : String) (indent : Bool) :
    r.serialize n key indent = s.serialize n key indent

theorem Agree.of_get? (h : ∀ key, r.get? key = s.get? key) : Agree r s := by
  have hget (key : String) : r.get key = s.get key := by rw [Registry.get, Registry.get, h]
  refine ⟨hget, fun key => ?_, ?_, fun n key indent => ?_⟩
  · rw [Registry.has, Registry.has, h]
  · refine r.pairwise_names.eq_of_mem_iff s.pairwise_names fun key => ?_
    rw [mem_names_iff, mem_names_iff, hget]
  · rw [Registry.serialize, Registry.serialize, hget]

end Answers

section Reordering

variable (before after : List Backend) (b c : Backend)

theorem get?_ofList_append (bs cs : List Backend) (key : String) :
    (ofList (bs ++ cs)).get? key = ((ofList cs).get? key).or ((ofList bs).get? key) := by
  rw [get?_ofList, get?_ofList, get?_ofList, List.reverse_append, List.find?_append]

theorem get?_ofList_cons (bs : List Backend) (key : String) :
    (ofList (b :: bs)).get? key =
      ((ofList bs).get? key).or (if key ∈ b.keys then some b else none) := by
  have hone : (ofList [b]).get? key = if key ∈ b.keys then some b else none :=
    get?_register empty b key
  rw [← List.singleton_append, get?_ofList_append, hone]

/-- Neighbours without a key in common can change places. -/
theorem agree_swap (h : b.keys.Disjoint c.keys) :
    Agree (ofList (before ++ b :: c :: after)) (ofList (before ++ c :: b :: after)) := by
  refine .of_get? fun key => ?_
  simp only [get?_ofList_append, get?_ofList_cons]
  by_cases hb : key ∈ b.keys
  · have hc : key ∉ c.keys := h hb
    simp only [hb, hc, ite_true, ite_false, Option.or_none]
  · simp only [hb, ite_false, Option.or_none]

theorem agree_repeat :
    Agree (ofList (before ++ b :: b :: after)) (ofList (before ++ b :: after)) := by
  refine .of_get? fun key => ?_
  simp only [get?_ofList_append, get?_ofList_cons, Option.or_assoc, Option.or_self]

end Reordering

/-- After any sequence of registrations a key finds the last backend that claims it, and the listing
has the names of those backends that are found by their own names. Neighbours without a key in
common can change places, and a registration can be repeated. -/
theorem answers_of_registrations (bs : List Backend) :
    (∀ key b, (ofList bs).get key = .ok b ↔ ∃ before after, LastClaim bs key b before after) ∧
      (∀ key, (ofList bs).get key = .error (.backendNotFound key) ↔ ∀ b ∈ bs, key ∉ b.keys) ∧
      (∀ key, (ofList bs).has key = true ↔ ∃ b, (ofList bs).get key = .ok b) ∧
      (ofList bs).names.Pairwise (fun a b => Text.bytes a < Text.bytes b) ∧
      (∀ key, key ∈ (ofList bs).names ↔ ∃ b, (ofList bs).get key = .ok b ∧ b.name = key) ∧
      (∀ before b c after, bs = before ++ b :: c :: after → b.keys.Disjoint c.keys →
        Agree (ofList bs) (ofList (before ++ c :: b :: after))) ∧
      (∀ before b after, bs = before ++ b :: after →
        Agree (ofList (before ++ b :: b :: after)) (ofList bs)) ∧
      ∀ o, withDefaults o = ofList [.plain, .mdast o] := by
  refine ⟨fun key b => ?_, fun key => ?_, fun _ => has_iff, ?_, fun _ => mem_names_iff, ?_, ?_,
    withDefaults_eq_ofList⟩
  · rw [get_eq_ok_iff, get?_ofList_eq_some_iff]
  · rw [get_eq_error_iff, get?_ofList_eq_none_iff]
  · exact (ofList bs).pairwise_names.imp Text.bytes_lt_bytes_iff.mpr
  · rintro before b c after rfl hdisjoint
    exact agree_swap before after b c hdisjoint
  · rintro before b after rfl
    exact agree_repeat before after b

theorem defaults_swapped :
    Backend.plain.keys.Disjoint (Backend.mdast {}).keys ∧
      Agree (ofList [.plain, .mdast {}]) (ofList [.mdast {}, .plain]) := by
  have hdisjoint : Backend.plain.keys.Disjoint (Backend.mdast {}).keys := by
    simp [Backend.keys, Backend.plain, Backend.mdast]
  obtain ⟨-, -, -, -, -, hswap, -, -⟩ := answers_of_registrations [.plain, .mdast {}]
  exact ⟨hdisjoint, hswap [] .plain (.mdast {}) [] rfl hdisjoint⟩

section OwnName

variable {bs before after : List Backend} {key : String} {b : Backend}

/-- Of those that are registered after a backend, the last to claim its name has it; if none does,
the backend has it itself. -/
theorem LastClaim.get?_name (h : LastClaim bs key b before after) :
    (ofList bs).get? b.name = some (((ofList after).get? b.name).getD b) := by
  have hname : b.name ∈ b.keys := List.mem_cons_self
  rw [h.split, get?_ofList_append, get?_ofList_cons, if_pos hname]
  cases (ofList after).get? b.name <;> rfl

theorem LastClaim.notMem_after (h : LastClaim bs key b before after) : b ∉ after :=
  fun hb => h.unclaimed_after b hb h.claimed

/-- A backend that is found by a key is found by its own name just when no backend that is
registered after it claims this name. Else the last of these has the name, and the name is listed
just when it is its own. -/
theorem get_own_name (h : (ofList bs).get key = .ok b) :
    ∃ before after, LastClaim bs key b before after ∧
      ((ofList bs).get b.name = .ok b ↔ ∀ later ∈ after, b.name ∉ later.keys) ∧
      ∃ c, (ofList bs).get b.name = .ok c ∧
        (c = b ∨ ∃ between later, LastClaim after b.name c between later) ∧
        (b.name ∈ (ofList bs).names ↔ c.name = b.name) := by
  obtain ⟨before, after, hlast⟩ := get?_ofList_eq_some_iff.mp (get_eq_ok_iff.mp h)
  have hget {c : Backend} : (ofList bs).get b.name = .ok c ↔
      ((ofList after).get? b.name).getD b = c := by
    rw [get_eq_ok_iff, hlast.get?_name, Option.some_inj]
  refine ⟨before, after, hlast, ?_, _, hget.mpr rfl, ?_, ?_⟩
  · rw [hget, ← get?_ofList_eq_none_iff]
    cases hlater : (ofList after).get? b.name with
    | none => simp
    | some c =>
        obtain ⟨_, _, hc⟩ := get?_ofList_eq_some_iff.mp hlater
        have hmem : c ∈ after := by simp [hc.split]
        simpa using fun hcb : c = b => hlast.notMem_after (hcb ▸ hmem)
  · cases hlater : (ofList after).get? b.name with
    | none => exact .inl rfl
    | some c =>
        exact .inr (get?_ofList_eq_some_iff.mp hlater)
  · simp only [mem_names_iff, hget, exists_eq_left']

end OwnName

def elder : Backend := { Backend.plain with name := "a", aliases := ["x"] }

/-- A backend that takes the name of the elder. -/
def namesake : Backend := { Backend.plain with name := "a" }

/-- A backend that takes the name of the elder for a further name of its own. -/
def claimant : Backend := { Backend.plain with name := "b", aliases := ["a"] }

theorem get_own_name_of_elder :
    (ofList [elder, namesake]).get "x" = .ok elder ∧
      ∃ before after, LastClaim [elder, namesake] "x" elder before after ∧
        ((ofList [elder, namesake]).get elder.name = .ok elder ↔
          ∀ later ∈ after, elder.name ∉ later.keys) ∧
        ∃ c, (ofList [elder, namesake]).get elder.name = .ok c ∧
          (c = elder ∨ ∃ between later, LastClaim after elder.name c between later) ∧
          (elder.name ∈ (ofList [elder, namesake]).names ↔ c.name = elder.name) :=
  have h : (ofList [elder, namesake]).get "x" = .ok elder := rfl
  ⟨h, get_own_name h⟩

/-- Whoever takes the name of a backend, the old one is still found by the name that it kept; it is
not what its own name leads to, and may not even be listed. -/
theorem elder_kept_under_alias :
    ((ofList [elder, namesake]).get "x" = .ok elder ∧
      (ofList [elder, namesake]).get elder.name ≠ .ok elder) ∧
    ((ofList [elder, claimant]).get "x" = .ok elder ∧
      elder.name ∉ (ofList [elder, claimant]).names) := by
  have hnamesake : (ofList [elder, namesake]).get elder.name = .ok namesake := rfl
  have hclaimant : (ofList [elder, claimant]).get elder.name = .ok claimant := rfl
  refine ⟨⟨rfl, fun h => ?_⟩, rfl, fun h => ?_⟩
  · have haliases := congrArg Backend.aliases (Except.ok.inj (hnamesake.symm.trans h))
    exact absurd haliases (by decide)
  · obtain ⟨c, hc, hname⟩ := mem_names_iff.mp h
    obtain rfl := Except.ok.inj (hclaimant.symm.trans hc)
    exact absurd hname (by decide)

end Registry

end DocTree
