import RailSpec.Settings

/-!
Where settings come from: a mapping, in which the settings may be a group of their own, and
overrides.
-/

namespace RailSpec.Settings

open Record (Checked)

/-- What an entry holds: a value, or a group of entries. -/
inductive Item where
  | value (value : Value)
  | group (entries : Entries)

/-- A settings mapping before it is read. -/
abbrev Mapping := List (Key × Item)

/-- The text of a key; one that is no text is shown. -/
def Key.name : Key → String
  | .text name => name
  | .other value => value.shown.toOption.getD ""

/-- A group as the value it is, with all keys as texts. -/
def groupValue (entries : Entries) : Value :=
  .mapping (entries.map fun (key, value) => (key.name, value))

def Item.toValue : Item → Value
  | .value held => held
  | .group entries => groupValue entries

def Item.ofValue : Value → Item
  | .mapping fields => .group (entriesOf fields)
  | other => .value other

namespace Mapping

def ofFields (fields : Fields) : Mapping :=
  fields.map fun (name, value) => (.text name, Item.ofValue value)

/-- The group under a key. -/
def group? (mapping : Mapping) (name : String) : Option Entries :=
  match (mapping.find? (·.1.isText name)).map Prod.snd with
  | some (.group entries) => some entries
  | _ => none

/-- The names under which all settings may be grouped, the first that holds a group wins. -/
def groupNames : List String := ["config", "generation_config"]

/-- The entries that count: those of a group for settings, or else the mapping's own. -/
def entries (mapping : Mapping) : Entries :=
  match groupNames.findSome? mapping.group? with
  | some entries => entries
  | none => mapping.map fun (key, item) => (key, item.toValue)

end Mapping

/-- Entries with overrides put over them; a null overrides nothing. -/
def overridden (entries : Entries) (overrides : Fields) : Entries :=
  overrides.foldl (fun entries field =>
    if field.2.isNull then entries else putEntry entries field.1 field.2) entries

/-- Settings from a mapping and overrides. -/
def ofMapping (mapping : Mapping) (overrides : Fields) : Checked Settings :=
  ofEntries (overridden mapping.entries overrides)

end RailSpec.Settings
