import DocTree.Config.Loader

/-!
What layers put in a place of a configuration. Keys lead to a place, one inside the other. A value
that is laid over another puts one of its own entries in that place there, and leaves the place
alone when it has none; tables on the way are joined, and so the places beside them are left alone
too. A key that is a path stands for tables inside each other.
-/

namespace DocTree.Config

theorem Entries.lookup_put (key : String) (v : Value) (entries : Entries) (name : String) :
    (Entries.put key v entries).lookup name =
      if key = name then some v else entries.lookup name := by
  induction entries with
  | nil =>
      by_cases h : key = name
      · simp [Entries.put, h]
      · simp [Entries.put, List.lookup_cons, h, beq_false_of_ne (Ne.symm h)]
  | cons entry rest ih =>
      obtain ⟨k, w⟩ := entry
      by_cases hk : k = key
      · subst hk
        by_cases h : k = name
        · simp [Entries.put, h]
        · simp [Entries.put, List.lookup_cons, h, beq_false_of_ne (Ne.symm h)]
      · by_cases h : k = name
        · subst h
          simp [Entries.put, hk, Ne.symm hk]
        · simp [Entries.put, List.lookup_cons, hk, beq_false_of_ne (Ne.symm h), ih]

namespace Value

/-- The value that keys lead to. -/
def at? : List String → Value → Option Value
  | [], v => some v
  | key :: keys, v => (v.entries.lookup key).bind (at? keys)

/-- The entries of a layer in the place that keys lead to, in order. Keys of a layer count in lower
case, so there may be several. -/
def entriesAt : List String → Value → List Value
  | [], v => [v]
  | key :: keys, v =>
    v.entries.flatMap fun (k, w) => if Text.lower k = key then entriesAt keys w else []

def isTable : Value → Bool
  | .table _ => true
  | .scalar _ _ | .list _ _ => false

def isEmptyTable : Value → Bool
  | .table entries => entries.isEmpty
  | .scalar _ _ | .list _ _ => false

/-- What a layer gives for the place that keys lead to: its entries there. An empty table gives
nothing, as there is nothing in it to be joined with what is there. -/
def given (keys : List String) (v : Value) : List Value :=
  (entriesAt keys v).filter fun w => !w.isEmptyTable

/-- As far as a layer leads to a place, it does so through tables. -/
def LeadsTo : List String → Value → Prop
  | [], _ => True
  | key :: keys, v => v.isTable = true ∧ ∀ entry ∈ v.entries, Text.lower entry.1 = key →
      LeadsTo keys entry.2

/-- Values that are as good as each other for a setting. -/
inductive Alike : Value → Value → Prop where
  | scalar (s : Scalar) (file file' : Option String) : Alike (.scalar s file) (.scalar s file')
  | list (items items' : List Value) (file file' : Option String) :
      Alike (.list items file) (.list items' file')
  | table (entries entries' : Entries) : Alike (.table entries) (.table entries')

theorem Alike.refl (v : Value) : Alike v v := by
  cases v <;> constructor

theorem Alike.trans {u v w : Value} (h : Alike u v) (h' : Alike v w) : Alike u w := by
  cases h <;> cases h' <;> constructor

/-- What counts of two layers, the upper of which may give nothing. -/
def upon (upper lower : List Value) : List Value :=
  match upper with
  | [] => lower
  | v :: vs => v :: vs

/-- What counts of layers, each of which may give nothing. The topmost comes last. -/
def topmost : List (List Value) → List Value
  | [] => []
  | lowest :: upper => upon (topmost upper) lowest

/-- A change of a value puts one of the given values in the place that keys lead to, or leaves there
what was there, if none is given. -/
def Puts (keys : List String) (given : List Value) (before after : Value) : Prop :=
  ∀ v, at? keys before = some v → ∃ w, at? keys after = some w ∧ ∃ x ∈ upon given [v], Alike w x

theorem upon_assoc (upper middle lower : List Value) :
    upon (upon upper middle) lower = upon upper (upon middle lower) := by
  cases upper <;> rfl

theorem upon_nil (upper : List Value) : upon upper [] = upper := by
  cases upper <;> rfl

/-- A layer that gives nothing has no part in what counts. -/
theorem topmost_without (lower upper : List (List Value)) :
    topmost (lower ++ [] :: upper) = topmost (lower ++ upper) := by
  induction lower with
  | nil => exact upon_nil _
  | cons lowest lower ih => simp only [List.cons_append, topmost, ih]

section Puts

variable {keys : List String} {given later : List Value} {u v w : Value}

theorem Puts.refl (keys : List String) (v : Value) : Puts keys [] v v :=
  fun w h => ⟨w, h, w, List.mem_singleton_self w, .refl w⟩

theorem Puts.trans (h : Puts keys given u v) (hlater : Puts keys later v w) :
    Puts keys (upon later given) u w := by
  intro x hx
  obtain ⟨y, hy, found, hfound, halike⟩ := h x hx
  obtain ⟨z, hz, last, hlast, halike'⟩ := hlater y hy
  refine ⟨z, hz, ?_⟩
  cases later with
  | nil =>
      rw [List.mem_singleton.mp hlast] at halike'
      exact ⟨found, hfound, halike'.trans halike⟩
  | cons _ _ => exact ⟨last, hlast, halike'⟩

/-- Only what values are as good as matters of those that are given. -/
theorem Puts.mono {given' : List Value} (h : Puts keys given u w)
    (hmem : ∀ x ∈ given, ∃ y ∈ given', Alike x y) (hnil : given = [] → given' = []) :
    Puts keys given' u w := by
  intro v hv
  obtain ⟨z, hz, x, hx, halike⟩ := h v hv
  refine ⟨z, hz, ?_⟩
  cases given with
  | nil =>
      rw [hnil rfl]
      exact ⟨x, hx, halike⟩
  | cons first rest =>
      obtain ⟨y, hy, halike'⟩ := hmem x hx
      cases given' with
      | nil => cases hy
      | cons _ _ => exact ⟨y, hy, halike.trans halike'⟩

theorem Puts.append (h : Puts keys given u v) (hlater : Puts keys later v w) :
    Puts keys (given ++ later) u w := by
  refine (h.trans hlater).mono ?_ ?_
  · intro x hx
    refine ⟨x, List.mem_append.mpr ?_, .refl x⟩
    cases later with
    | nil => exact .inl hx
    | cons _ _ => exact .inr hx
  · cases later with
    | nil => exact fun hnil => (List.append_nil _).trans hnil
    | cons _ _ => exact nofun

/-- A change of one entry reaches the places below the key of that entry. -/
theorem puts_put {key name : String} (change : Value → Value) (absent : Value)
    (h : name = key → ∀ u, Puts keys given u (change u)) :
    Puts (key :: keys) (if name = key then given else []) u
      (.table (Entries.put name (change ((u.entries.lookup name).getD absent)) u.entries)) := by
  intro v hv
  obtain ⟨inner, hinner, hinside⟩ := Option.bind_eq_some_iff.mp hv
  rw [at?, entries, Entries.lookup_put]
  by_cases hname : name = key
  · rw [if_pos hname, if_pos hname, hname, hinner]
    exact h hname inner v hinside
  · rw [if_neg hname, if_neg hname]
    exact ⟨v, hv, v, List.mem_singleton_self v, .refl v⟩

end Puts

theorem given_singleton (key : String) (keys : List String) (k : String) (v : Value) :
    given (key :: keys) (.table [(k, v)]) = if Text.lower k = key then given keys v else [] := by
  by_cases h : Text.lower k = key <;> simp [given, entriesAt, entries, h]

theorem given_cons (key : String) (keys : List String) (entry : String × Value) (rest : Entries) :
    given (key :: keys) (.table (entry :: rest)) =
      given (key :: keys) (.table [entry]) ++ given (key :: keys) (.table rest) := by
  simp [given, entriesAt, entries]

/-- A value laid over another. -/
def laidOver (v below : Value) : Value :=
  match v with
  | .table entries => overlayAll entries below
  | .scalar s file => .scalar s file
  | .list items file => .list items file

theorem overlay_eq (key : String) (v : Value) (below : Entries) :
    v.overlay key below =
      Entries.put (Text.lower key)
        (v.laidOver ((below.lookup (Text.lower key)).getD (.table []))) below := by
  cases v <;> rw [overlay] <;> rfl

theorem isTable_overlayAll (rest : Entries) (entries : Entries) :
    (overlayAll rest (.table entries)).isTable = true := by
  induction rest generalizing entries with
  | nil => rfl
  | cons entry rest ih => exact ih _

theorem alike_table_of_isTable {v : Value} (h : v.isTable = true) (entries : Entries) :
    Alike v (.table entries) := by
  cases v with
  | scalar _ _ | list _ _ => cases h
  | table _ => exact .table _ _

theorem puts_laidOver (keys : List String) (v u : Value) (h : LeadsTo keys v) :
    Puts keys (given keys v) u (v.laidOver u) := by
  induction keys generalizing v u with
  | nil =>
      intro w hw
      cases hw
      refine ⟨_, rfl, ?_⟩
      cases v with
      | scalar _ _ | list _ _ => exact ⟨_, List.mem_singleton_self _, .refl _⟩
      | table entries =>
          cases entries with
          | nil => exact ⟨u, List.mem_singleton_self u, .refl u⟩
          | cons entry rest =>
              exact ⟨_, List.mem_singleton_self _,
                alike_table_of_isTable (isTable_overlayAll rest _) _⟩
  | cons key keys ih =>
      cases v with
      | scalar _ _ | list _ _ => cases h.1
      | table entries =>
          induction entries generalizing u with
          | nil => exact Puts.refl _ u
          | cons entry rest ihrest =>
              obtain ⟨k, w⟩ := entry
              have hentry : Puts (key :: keys) (given (key :: keys) (.table [(k, w)])) u
                  (.table (w.overlay k u.entries)) := by
                rw [given_singleton, overlay_eq]
                exact puts_put w.laidOver _ fun hk inner =>
                  ih w inner (h.2 (k, w) List.mem_cons_self hk)
              rw [given_cons]
              exact hentry.append (ihrest _ ⟨rfl, fun e he => h.2 e (List.mem_cons_of_mem _ he)⟩)

end Value

namespace KeyPath

open Value

/-- Steps to a value as tables inside each other; a step to an item makes a list. -/
def spelled : List Step → Value → Value
  | [], v => v
  | .key name :: rest, v => .table [(name, spelled rest v)]
  | .item _ :: _, v => .list [v] none

/-- The entry of a table that a path to a value stands for. -/
def entry (path : KeyPath) (v : Value) : String × Value := (path.root, spelled path.steps v)

/-- Nothing is below a list, so a step to an item only matters for the place of the list. -/
theorem puts_list {keys : List String} {items : List Value} {file : Option String} (v u : Value)
    (h : LeadsTo keys (.list [v] none)) :
    Puts keys (given keys (.list [v] none)) u (.list items file) := by
  cases keys with
  | nil => exact fun _ _ => ⟨_, rfl, _, List.mem_singleton_self _, .list _ _ _ _⟩
  | cons key keys => cases h.1

theorem puts_change (keys : List String) (step : Step) (steps : List Step) (v u : Value)
    (h : LeadsTo keys (spelled (step :: steps) v)) :
    Puts keys (given keys (spelled (step :: steps) v)) u
      (change (fun name => v.overlay name) v (step :: steps) u) := by
  induction steps generalizing keys step u with
  | nil =>
      cases step with
      | key name => exact puts_laidOver keys (.table [(name, v)]) u h
      | item place => exact puts_list v u h
  | cons next rest ih =>
      cases step with
      | item place => exact puts_list v u h
      | key name =>
          cases keys with
          | nil => exact fun _ _ => ⟨_, rfl, _, List.mem_singleton_self _, .table _ _⟩
          | cons key keys =>
              rw [spelled, given_singleton]
              exact puts_put (change _ v (next :: rest)) .missing fun hname inner =>
                ih keys next inner (h.2 _ List.mem_cons_self hname)

theorem table_assign (path : KeyPath) (v : Value) (below : Entries) :
    .table (path.assign v below) =
      change (fun name => v.overlay name) v (.key path.root :: path.steps) (.table below) := by
  rw [assign]
  cases path.steps <;> rfl

theorem puts_assign (keys : List String) (path : KeyPath) (v : Value) (below : Entries)
    (h : LeadsTo keys (.table [path.entry v])) :
    Puts keys (given keys (.table [path.entry v])) (.table below)
      (.table (path.assign v below)) := by
  rw [table_assign]
  exact puts_change keys (.key path.root) path.steps v (.table below) h

end KeyPath

namespace Loader

open Value

/-- The entry that an entry of a file stands for, where its key can be a path. -/
def plainEntry (entry : String × Value) : String × Value :=
  ((KeyPath.read entry.1).getD (.single entry.1)).entry entry.2

theorem puts_overlayFile (key : String) (keys : List String) (below entries : Entries)
    (h : LeadsTo (key :: keys) (.table (entries.map plainEntry))) :
    Puts (key :: keys) (given (key :: keys) (.table (entries.map plainEntry))) (.table below)
      (.table (overlayFile below entries)) := by
  induction entries generalizing below with
  | nil => exact Puts.refl _ _
  | cons entry rest ih =>
      have hentry : LeadsTo (key :: keys) (.table [plainEntry entry]) :=
        ⟨rfl, List.forall_mem_singleton.mpr (h.2 _ List.mem_cons_self)⟩
      have hrest : LeadsTo (key :: keys) (.table (rest.map plainEntry)) :=
        ⟨rfl, fun e he => h.2 e (List.mem_cons_of_mem _ he)⟩
      rw [List.map_cons, given_cons]
      exact (KeyPath.puts_assign _ _ entry.2 below hentry).append (ih _ hrest)

end Loader

end DocTree.Config
