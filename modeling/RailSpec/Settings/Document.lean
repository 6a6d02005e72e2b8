import RailSpec.Settings.Mapping
import RailSpec.Yaml

/-!
Settings documents as mappings: what the keys and values of a tree stand for. Of entries with one
key the first gives the place and the last the value.
-/

namespace RailSpec.Settings

open Yaml (Tree Fault plainValue)

/-- A truth value as the number that it counts as. -/
def counted : Value → Value
  | .bool truth => .int (if truth then 1 else 0)
  | value => value

/-- Whether two values that are no texts are the same key: numbers are if they are equal, whether
or not they are whole. -/
def sameAmount (value other : Value) : Bool :=
  match counted value, counted other with
  | .null, .null => true
  | .int number, .int another => number == another
  | .float number, .float another => number == another
  | .int number, .float another | .float another, .int number =>
    (Number.floatOfInt? number).any (· == another)
  | _, _ => false

/-- Whether two keys are the same: texts by their characters, others by what they count. -/
def sameKey : Key → Key → Bool
  | .text name, .text other => name == other
  | .other value, .other another => sameAmount value another
  | _, _ => false

/-- Puts an entry in front of others; one of them with the same key gives it its item and goes. -/
def withEntry {α : Type} (key : Key) (item : α) (entries : List (Key × α)) : List (Key × α) :=
  let later := (entries.find? fun entry => sameKey key entry.1).map Prod.snd
  (key, later.getD item) :: entries.filter fun entry => !sameKey key entry.1

/-- A key; a collection is none. -/
def treeKey : Tree → Except Fault Key
  | .plain text => do
    match ← plainValue text with
    | .text name => return .text name
    | value => return .other value
  | .quoted text => .ok (.text (String.ofList text))
  | _ => .error .broken

mutual

/-- The value of a tree. -/
def treeValue : Tree → Except Fault Value
  | .plain text => plainValue text
  | .quoted text => .ok (.text (String.ofList text))
  | .sequence items => (treeValues items).map .list
  | .mapping entries => (treeEntries entries).map groupValue

def treeValues : List Tree → Except Fault (List Value)
  | [] => .ok []
  | item :: rest => do
    let value ← treeValue item
    let values ← treeValues rest
    return value :: values

/-- The entries of a mapping. -/
def treeEntries : List (Tree × Tree) → Except Fault Entries
  | [] => .ok []
  | (key, item) :: rest => do
    let key ← treeKey key
    let value ← treeValue item
    let entries ← treeEntries rest
    return withEntry key value entries

end

/-- The item of an entry. -/
def treeItem : Tree → Except Fault Item
  | .mapping entries => (treeEntries entries).map .group
  | tree => (treeValue tree).map .value

/-- The entries of a whole document, which may hold groups. -/
def treeMapping : List (Tree × Tree) → Except Fault Mapping
  | [] => .ok []
  | (key, item) :: rest => do
    let key ← treeKey key
    let value ← treeItem item
    let entries ← treeMapping rest
    return withEntry key value entries

/-- What a document is at its top. -/
inductive Document where
  | empty
  | mapping (mapping : Mapping)
  | other (kind : String)

def treeDocument : Tree → Except Fault Document
  | .mapping entries => (treeMapping entries).map .mapping
  | tree => do
    match ← treeValue tree with
    | .null => return .empty
    | value => return .other value.kind

/-- The document of a text, in which all line ends are line feeds. -/
def readYaml (text : String) : Except Fault Document :=
  match Yaml.readDocument text with
  | some tree => treeDocument tree
  | none => .error .broken

end RailSpec.Settings
