import DocTree.Proofs.Config.Merging
import DocTree.Proofs.Except

/-!
The single settings of a configuration: where each one is, what it is by default, and how it is
taken from the value there. Settings are complete exactly when each of them can be taken from the
value in its place, and then they are what was taken.
-/

namespace DocTree.Config

open Value

inductive Setting where
  | backend
  | pretty
  | flat
  | noAsciiDocData
  | level
  deriving DecidableEq

namespace Setting

theorem forall_iff {P : Setting → Prop} :
    (∀ t, P t) ↔ P .backend ∧ P .pretty ∧ P .flat ∧ P .noAsciiDocData ∧ P .level := by
  refine ⟨fun h => ⟨h _, h _, h _, h _, h _⟩, fun ⟨h₁, h₂, h₃, h₄, h₅⟩ t => ?_⟩
  cases t <;> assumption

def keys : Setting → List String
  | .backend => ["convert", "backend"]
  | .pretty => ["convert", "pretty"]
  | .flat => ["convert", "mdast", "flat"]
  | .noAsciiDocData => ["convert", "mdast", "no_asciidoc_data"]
  | .level => ["logging", "level"]

/-- The groups in which the settings are. -/
def groups : List (List String) := [["convert"], ["convert", "mdast"], ["logging"]]

/-- The key by which a setting is overridden. -/
def key (t : Setting) : String := ".".intercalate t.keys

def path : Setting → KeyPath
  | .backend => ⟨"convert", [.key "backend"]⟩
  | .pretty => ⟨"convert", [.key "pretty"]⟩
  | .flat => ⟨"convert", [.key "mdast", .key "flat"]⟩
  | .noAsciiDocData => ⟨"convert", [.key "mdast", .key "no_asciidoc_data"]⟩
  | .level => ⟨"logging", [.key "level"]⟩

theorem path_inj {t u : Setting} : t.path = u.path ↔ t = u := by
  cases t <;> cases u <;> decide

theorem read_key (t : Setting) : KeyPath.read t.key = some t.path := by
  cases t <;> rfl

def default : Setting → Scalar
  | .backend => .str "mdast"
  | .pretty => .bool true
  | .flat => .bool false
  | .noAsciiDocData => .bool false
  | .level => .str "warn"

theorem at?_defaults (t : Setting) :
    at? t.keys (.table defaults) = some (.scalar t.default none) := by
  cases t <;> rfl

/-- What a setting is when it is taken from a value. -/
def decode (t : Setting) (v : Value) : Except ConfigError Scalar :=
  match t with
  | .backend | .level => .str <$> toText v
  | .pretty | .flat | .noAsciiDocData => .bool <$> toBool v

end Setting

def Settings.setting (s : Settings) : Setting → Scalar
  | .backend => .str s.convert.backend
  | .pretty => .bool s.convert.pretty
  | .flat => .bool s.convert.mdast.flat
  | .noAsciiDocData => .bool s.convert.mdast.noAsciiDocData
  | .level => .str s.level

section decode

variable {v w : Value}

theorem toOption_toText (h : Alike v w) : (toText v).toOption = (toText w).toOption := by
  cases h with
  | scalar s file file' => cases s <;> rfl
  | list _ _ _ _ | table _ _ => rfl

theorem toOption_toBool (h : Alike v w) : (toBool v).toOption = (toBool w).toOption := by
  cases h with
  | list _ _ _ _ | table _ _ => rfl
  | scalar s file file' =>
      cases s with
      | missing | bool _ | int _ | float _ => rfl
      | str text =>
          simp only [toBool]
          split
          · rfl
          · split <;> rfl

/-- Values that are as good as each other give a setting the same value, if any. -/
theorem Value.Alike.decode_eq_ok_iff (h : Alike v w) (t : Setting) (a : Scalar) :
    t.decode v = .ok a ↔ t.decode w = .ok a := by
  rw [← toOption_eq_some_iff, ← toOption_eq_some_iff]
  cases t with
  | backend | level => rw [Setting.decode, Setting.decode, toOption_map, toOption_map,
      toOption_toText h]
  | pretty | flat | noAsciiDocData => rw [Setting.decode, Setting.decode, toOption_map,
      toOption_map, toOption_toBool h]

end decode

section ofEntries

variable {order : Order} {entries : Entries} {u v w : Value}

/-- Where there is no fault, it does not matter in what order faults are met. -/
theorem check_bind_eq_ok_iff {β : Type} {g : Group} {found : List ConfigError}
    {x : Except ConfigError β} {b : β} :
    (g.check order found >>= fun _ => x) = .ok b ↔ found = [] ∧ x = .ok b := by
  cases found with
  | nil => exact (and_iff_right rfl).symm
  | cons fault others => cases g <;> exact ⟨nofun, nofun⟩

/-- A setting that is there has to be one that can be taken. -/
theorem take_bind_eq_ok_iff {α β : Type} {group name : String} {size place : Nat}
    {decode : Value → Except ConfigError α} {f : α → Except ConfigError β} {b : β}
    (h : entries.lookup name = some v) :
    ((Group.named entries).take name place decode >>= fun found =>
      (Group.named entries).require group size name place found >>= f) = .ok b ↔
      ∃ a, decode v = .ok a ∧ f a = .ok b := by
  rw [bind_eq_ok_iff]
  simp only [Group.take, h]
  cases decode v <;> simp [Group.require, bind_eq_ok_iff]

theorem faults_take {α : Type} {name : String} {place : Nat}
    {decode : Value → Except ConfigError α} {a : α} (h : entries.lookup name = some v)
    (hv : decode v = .ok a) : faults ((Group.named entries).take name place decode) = [] := by
  simp only [Group.take, h, hv, faults]

theorem mdast_ofValue_eq_ok_iff {m : MdastSettings} (hflat : entries.lookup "flat" = some v)
    (hbare : entries.lookup "no_asciidoc_data" = some w) :
    MdastSettings.ofValue order (.table entries) = .ok m ↔
      toBool v = .ok m.flat ∧ toBool w = .ok m.noAsciiDocData := by
  refine check_bind_eq_ok_iff.trans ?_
  simp only [take_bind_eq_ok_iff hflat, take_bind_eq_ok_iff hbare]
  constructor
  · rintro ⟨-, flat, hv, bare, hw, h⟩
    cases h
    exact ⟨hv, hw⟩
  · rintro ⟨hv, hw⟩
    exact ⟨by rw [faults_take hflat hv, faults_take hbare hw]; rfl, _, hv, _, hw, rfl⟩

theorem convert_ofValue_eq_ok_iff {s : ConvertSettings}
    (hbackend : entries.lookup "backend" = some u) (hpretty : entries.lookup "pretty" = some v)
    (hmdast : entries.lookup "mdast" = some w) :
    ConvertSettings.ofValue order (.table entries) = .ok s ↔
      toText u = .ok s.backend ∧ toBool v = .ok s.pretty ∧
        MdastSettings.ofValue order w = .ok s.mdast := by
  refine check_bind_eq_ok_iff.trans ?_
  simp only [take_bind_eq_ok_iff hbackend, take_bind_eq_ok_iff hpretty, take_bind_eq_ok_iff hmdast]
  constructor
  · rintro ⟨-, backend, hu, pretty, hv, mdast, hw, h⟩
    cases h
    exact ⟨hu, hv, hw⟩
  · rintro ⟨hu, hv, hw⟩
    refine ⟨?_, _, hu, _, hv, _, hw, rfl⟩
    rw [faults_take hbackend hu, faults_take hpretty hv, faults_take hmdast hw]
    rfl

theorem levelOfValue_eq_ok_iff {level : String} (hlevel : entries.lookup "level" = some v) :
    levelOfValue (.table entries) = .ok level ↔ toText v = .ok level := by
  change ((Group.named entries).take "level" 0 toText >>=
    (Group.named entries).require "LoggingConfig" 1 "level" 0) = .ok level ↔ _
  simp only [Group.take, hlevel]
  cases toText v <;> simp [Group.require, bind_eq_ok_iff]

theorem ofEntries_eq_ok_iff {s : Settings} (hconvert : entries.lookup "convert" = some v)
    (hlogging : entries.lookup "logging" = some w) :
    Settings.ofEntries order entries = .ok s ↔
      ConvertSettings.ofValue order v = .ok s.convert ∧ levelOfValue w = .ok s.level := by
  refine check_bind_eq_ok_iff.trans ?_
  simp only [take_bind_eq_ok_iff hconvert, take_bind_eq_ok_iff hlogging]
  constructor
  · rintro ⟨-, convert, hv, level, hw, h⟩
    cases h
    exact ⟨hv, hw⟩
  · rintro ⟨hv, hw⟩
    exact ⟨by rw [faults_take hconvert hv, faults_take hlogging hw]; rfl, _, hv, _, hw, rfl⟩

/-- A value with something in a place below it is a table. -/
theorem exists_group_of_at? {key name : String} {keys : List String}
    (h : at? (key :: name :: keys) (.table entries) = some w) :
    ∃ inner, entries.lookup key = some (.table inner) := by
  obtain ⟨v, hv, hw⟩ := Option.bind_eq_some_iff.mp h
  cases v with
  | table inner => exact ⟨inner, hv⟩
  | scalar _ _ | list _ _ => cases hw

theorem at?_group {inner : Entries} {key : String} {keys : List String}
    (h : entries.lookup key = some (.table inner)) :
    at? (key :: keys) (.table entries) = at? keys (.table inner) := by
  rw [at?, Value.entries, h, Option.bind_some]

theorem at?_singleton (name : String) : at? [name] (.table entries) = entries.lookup name := by
  rw [at?, Value.entries]
  cases entries.lookup name <;> rfl

end ofEntries

/-- What each setting is taken from makes settings when all can be taken. -/
theorem Settings.exists_of_decode {values : Setting → Value}
    (h : ∀ t : Setting, ∃ a, t.decode (values t) = .ok a) :
    ∃ s : Settings, ∀ t : Setting, t.decode (values t) = .ok (s.setting t) := by
  obtain ⟨⟨_, hbackend⟩, ⟨_, hpretty⟩, ⟨_, hflat⟩, ⟨_, hbare⟩, ⟨_, hlevel⟩⟩ :=
    Setting.forall_iff.mp h
  obtain ⟨backend, -, rfl⟩ := map_eq_ok_iff.mp hbackend
  obtain ⟨pretty, -, rfl⟩ := map_eq_ok_iff.mp hpretty
  obtain ⟨flat, -, rfl⟩ := map_eq_ok_iff.mp hflat
  obtain ⟨bare, -, rfl⟩ := map_eq_ok_iff.mp hbare
  obtain ⟨level, -, rfl⟩ := map_eq_ok_iff.mp hlevel
  exact ⟨⟨⟨backend, pretty, ⟨flat, bare⟩⟩, level⟩,
    Setting.forall_iff.mpr ⟨hbackend, hpretty, hflat, hbare, hlevel⟩⟩

/-- Settings are taken one by one, each from the value in its place. -/
theorem ofEntries_eq_ok_iff_decode {entries : Entries} {values : Setting → Value}
    (h : ∀ t : Setting, at? t.keys (.table entries) = some (values t)) (order : Order)
    (s : Settings) :
    Settings.ofEntries order entries = .ok s ↔
      ∀ t : Setting, t.decode (values t) = .ok (s.setting t) := by
  obtain ⟨convert, hconvert⟩ := exists_group_of_at? (h .flat)
  obtain ⟨logging, hlogging⟩ := exists_group_of_at? (h .level)
  obtain ⟨mdast, hmdast⟩ := exists_group_of_at? ((at?_group hconvert).symm.trans (h .flat))
  have hbackend := h .backend
  have hpretty := h .pretty
  have hflat := h .flat
  have hbare := h .noAsciiDocData
  have hlevel := h .level
  simp only [Setting.keys, at?_group hconvert, at?_group hlogging, at?_group hmdast,
    at?_singleton] at hbackend hpretty hflat hbare hlevel
  rw [ofEntries_eq_ok_iff hconvert hlogging, convert_ofValue_eq_ok_iff hbackend hpretty hmdast,
    mdast_ofValue_eq_ok_iff hflat hbare, levelOfValue_eq_ok_iff hlevel]
  have htext {a : String} {v : Value} :
      Scalar.str <$> toText v = .ok (.str a) ↔ toText v = .ok a := by
    simp [map_eq_ok_iff]
  have hbool {a : Bool} {v : Value} :
      Scalar.bool <$> toBool v = .ok (.bool a) ↔ toBool v = .ok a := by
    simp [map_eq_ok_iff]
  simp only [Setting.forall_iff, Setting.decode, Settings.setting, htext, hbool, and_assoc]

end DocTree.Config
