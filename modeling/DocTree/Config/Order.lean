import DocTree.Config.Error
import DocTree.Config.KeyPath

/-!
Orders in which a loader goes through what has none of its own: the entries of tables, the keys that
are set, and the settings of a group. Which order it is may differ from run to run and from table to
table.
-/

namespace DocTree.Config

/-- Values that are the same up to the order of the entries in their tables. -/
inductive Value.Rearranged : Value → Value → Prop where
  | refl (v : Value) : Rearranged v v
  | trans {u v w : Value} (h : Rearranged u v) (h' : Rearranged v w) : Rearranged u w
  | entries {before after : Entries} (h : before.Perm after) :
      Rearranged (.table before) (.table after)
  | entry {v w : Value} (front : Entries) (key : String) (back : Entries) (h : Rearranged v w) :
      Rearranged (.table (front ++ (key, v) :: back)) (.table (front ++ (key, w) :: back))
  | item {v w : Value} (front back : List Value) (file : Option String) (h : Rearranged v w) :
      Rearranged (.list (front ++ v :: back) file) (.list (front ++ w :: back) file)

structure Order where
  /-- The entries of a file as they come when they are laid over others. The number tells the files
  apart that are read. -/
  ofFile : Nat → Entries → Entries
  ofFile_rearranged (place : Nat) (entries : Entries) :
    Value.Rearranged (.table entries) (.table (ofFile place entries))
  ofOverrides : List (KeyPath × Value) → List (KeyPath × Value)
  ofOverrides_perm (overrides : List (KeyPath × Value)) : (ofOverrides overrides).Perm overrides
  /-- Of the faults in a table, the one that is met first. -/
  firstFault : ConfigError → List ConfigError → ConfigError
  firstFault_mem (fault : ConfigError) (others : List ConfigError) :
    firstFault fault others ∈ fault :: others

/-- Everything comes in the order in which it is written. -/
def Order.asWritten : Order where
  ofFile _ entries := entries
  ofFile_rearranged _ entries := .refl (.table entries)
  ofOverrides overrides := overrides
  ofOverrides_perm overrides := .refl overrides
  firstFault fault _ := fault
  firstFault_mem _ _ := List.mem_cons_self

end DocTree.Config
