import GraphPath.Json.Basic
import GraphPath.Settings

/-!
# Options as JSON

Options are written as an object with the names of `OptionField`, some of which have
short forms.  A field that is absent or `null` leaves its setting open; a field that is
unknown, repeated, or of the wrong type is refused.  The three tables of the grammar are
objects whose keys are single characters, of which a repeated one keeps its place and takes
the last entry; `null` removes a role.

An object with fixed fields may also be written as an array of their values in order, and
a role as an object of one `null` under its name.  Of an enclosure, fields with unknown
names are passed over, whatever they hold.
-/

namespace GraphPath

namespace JsonSource

/-- A string. -/
def string? : JsonSource → Option String
  | .string parts => text? parts
  | _ => none

/-- A string of one character. -/
def char? (source : JsonSource) : Option Char :=
  match source.string?.map String.toList with
  | some [c] => some c
  | _ => none

/-- A truth value. -/
def bool? : JsonSource → Option Bool
  | .bool b => some b
  | _ => none

/-- A count of 64 bits. -/
def count? : JsonSource → Option Nat
  | .number text =>
    match text.value? with
    | some (.integer n) => if 0 ≤ n then some n.toNat else none
    | _ => none
  | _ => none

/-- A value that may be left open with `null`. -/
def orNull? {α : Type} (read : JsonSource → Option α) : JsonSource → Option (Option α)
  | .null => some none
  | source => (read source).map some

/-- The members of an object, with their keys as text. -/
def members? : JsonSource → Option (List (String × JsonSource))
  | .object members => members.mapM fun member => (text? member.1).map (·, member.2)
  | _ => none

/-- One of a few names: a string, or an object of one `null` under the name. -/
def name? : JsonSource → Option String
  | .string parts => text? parts
  | .object [(key, .null)] => text? key
  | _ => none

/-- The values of named fields in a fixed order, each at most once: given by name in an object, or
in order in an array.  `field?` tells which field a name means; `unknown` whether other names are
passed over. -/
def fields? {φ : Type} [DecidableEq φ] (fields : List φ) (field? : String → Option φ)
    (unknown : Bool) : JsonSource → Option (List (φ × JsonSource))
  | .array items => if items.length ≤ fields.length then some (fields.zip items) else none
  | source => do
    let members ← source.members?
    if !unknown && members.any fun member => (field? member.1).isNone then none
    else
      let found := members.filterMap fun member => (field? member.1).map (·, member.2)
      if (found.map Prod.fst).Nodup then some found else none

/-- The value of one field among those found. -/
def lookup? {φ α : Type} [DecidableEq φ] (found : List (φ × JsonSource)) (field : φ)
    (read : JsonSource → Option α) : Option α :=
  match found.lookup field with
  | some source => read source
  | none => none

end JsonSource

/-! ## Roles and tables -/

namespace Modifier

/-- The modifier with a name. -/
def ofName? : String → Option Modifier
  | "parent" => some .parent
  | "root" => some .root
  | "placeholder" => some .placeholder
  | "context" => some .context
  | _ => none

end Modifier

namespace SeparatorRole

/-- The separator role with a name. -/
def ofName? : String → Option SeparatorRole
  | "property" => some .property
  | "collection" => some .collection
  | _ => none

end SeparatorRole

namespace ContainerRole

/-- The container role with a name. -/
def ofName? : String → Option ContainerRole
  | "property" => some .property
  | "quote" => some .quote
  | "call" => some .call
  | "evalProperty" => some .evalProperty
  | _ => none

end ContainerRole

/-- The fields of an enclosure. -/
inductive EnclosureField where
  | closer
  | role
  deriving DecidableEq, Repr

/-- The field of an enclosure with a name. -/
def EnclosureField.ofName? : String → Option EnclosureField
  | "closer" => some .closer
  | "role" | "exec" => some .role
  | _ => none

/-- An enclosure, both fields given. -/
def Enclosure.ofSource? (source : JsonSource) : Option Enclosure := do
  let found ← source.fields? [EnclosureField.closer, .role] EnclosureField.ofName? true
  let closer ← JsonSource.lookup? found .closer JsonSource.char?
  let name ← JsonSource.lookup? found .role JsonSource.name?
  let role ← ContainerRole.ofName? name
  some { closer, role }

/-- A table of changes for single characters. -/
def tableOfSource? {α : Type} (read : JsonSource → Option α) (source : JsonSource) :
    Option (OrderedMap Char (Option α)) := do
  let members ← source.members?
  let entries ← members.mapM fun member =>
    match member.1.toList, member.2.orNull? read with
    | [c], some role? => some (c, role?)
    | _, _ => none
  some (.ofList entries)

/-! ## Options -/

/-- The fields of options. -/
inductive OptionField where
  | prefixes
  | separators
  | containers
  | cache
  | cacheCapacity
  | advancedMode
  | autoVivify
  | maxDepth
  deriving DecidableEq, Repr

namespace OptionField

/-- All fields, in order. -/
def all : List OptionField :=
  [.prefixes, .separators, .containers, .cache, .cacheCapacity, .advancedMode, .autoVivify,
   .maxDepth]

/-- The field with a name, in full or short. -/
def ofName? : String → Option OptionField
  | "prefixes" => some .prefixes
  | "separators" => some .separators
  | "containers" => some .containers
  | "cache" => some .cache
  | "cache_capacity" => some .cacheCapacity
  | "advanced_mode" | "advanced" | "advancedMode" => some .advancedMode
  | "auto_vivify" | "force" | "autoVivify" => some .autoVivify
  | "max_depth" | "maxDepth" => some .maxDepth
  | _ => none

/-- Options with one more field read. -/
def read? (options : Options) (field : OptionField) (source : JsonSource) : Option Options :=
  match field with
  | .prefixes => do
    let table? ← source.orNull? (tableOfSource? fun source => source.name?.bind Modifier.ofName?)
    some { options with grammar.modifiers := table?.getD .empty }
  | .separators => do
    let table? ←
      source.orNull? (tableOfSource? fun source => source.name?.bind SeparatorRole.ofName?)
    some { options with grammar.separators := table?.getD .empty }
  | .containers => do
    let table? ← source.orNull? (tableOfSource? Enclosure.ofSource?)
    some { options with grammar.enclosures := table?.getD .empty }
  | .cache => do some { options with cache? := ← source.orNull? JsonSource.bool? }
  | .cacheCapacity => do some { options with cacheCapacity? := ← source.orNull? JsonSource.count? }
  | .advancedMode => do some { options with advancedMode? := ← source.orNull? JsonSource.bool? }
  | .autoVivify => do some { options with autoVivify? := ← source.orNull? JsonSource.bool? }
  | .maxDepth => do some { options with maxDepth? := ← source.orNull? JsonSource.count? }

end OptionField

namespace Options

/-- The options that a JSON text stands for. -/
def ofSource? (source : JsonSource) : Option Options := do
  let found ← source.fields? OptionField.all OptionField.ofName? false
  found.foldlM (fun options entry => OptionField.read? options entry.1 entry.2) {}

/-- **Read options** from their JSON text. -/
def read? (text : String) : Option Options := (JsonSource.read? text).bind ofSource?

end Options

end GraphPath
