import ModuleInspector.Json.Reader
import ModuleInspector.Snapshot.Decoding

/-!
# Snapshot documents

A snapshot is a JSON object that describes one module. The entries of its two lists of types are
decoded one by one: an entry that fails is left out, and the losses are reported with the
module.
-/

namespace ModuleInspector

/-- The two lists of types in a snapshot. -/
inductive TypeList
  | types
  | referencedTypes
  deriving DecidableEq

/-- The key of a list of types. -/
def TypeList.key : TypeList → String
  | types => "types"
  | referencedTypes => "referenced_types"

namespace Snapshot

/-- The ways a document fails as a whole: its text is not read, it has the wrong structure, or the
members of its root besides the lists of types are not decoded. -/
inductive DocumentError
  | unreadable (document : List UInt8) (error : Json.ReadError)
  | rootNotObject
  | notArray (list : TypeList)
  | undecodable (members : List (String × Json)) (error : DecodeError)

/-- What is reported of a list that lost entries. -/
inductive Warning
  | skipped (list : TypeList) (index : Nat) (entry : Json) (error : DecodeError)
  | incomplete (list : TypeList) (kept total : Nat)

/-- What the JSON layer says of what it refuses: the text of a document, the members of a module
and the entry of a type. -/
structure Words where
  document : List UInt8 → String
  module : List (String × Json) → String
  type : Json → String

/-- The message of a document of the wrong structure. -/
def DocumentError.message? : DocumentError → Option String
  | unreadable _ _ => none
  | rootNotObject => some "Snapshot root is not an object"
  | notArray list => some ("Snapshot member '" ++ list.key ++ "' is not an array")
  | undecodable _ _ => none

/-- The text of a document that is not a snapshot. One of the wrong structure is reported with the
place that found it. -/
def DocumentError.text (words : Words) (e : DocumentError) : String :=
  match e with
  | unreadable document _ => words.document document
  | rootNotObject => "Malformed - src/provider/snapshot.rs:54: " ++ e.message?.getD ""
  | notArray _ => "Malformed - src/provider/snapshot.rs:98: " ++ e.message?.getD ""
  | undecodable members _ => words.module members

/-- The text of a warning. -/
def Warning.text (words : Words) : Warning → String
  | skipped list index entry error =>
    "skipping " ++ list.key ++ "[" ++ toString index ++ "]: " ++
      error.message?.getD (words.type entry)
  | incomplete list kept total =>
    "loaded " ++ toString kept ++ " of " ++ toString total ++ " entries in '" ++ list.key ++ "'"

/-- The deepest nesting of containers in a document. -/
def maxDepth : Nat := 127

/-- The entries of a list of types, which may be absent. -/
def entries (list : TypeList) (members : List (String × Json)) :
    Except DocumentError (List Json) :=
  match Json.member? list.key members with
  | none => .ok []
  | some .null => .ok []
  | some (.array items) => .ok items
  | some _ => .error (.notArray list)

/-- The members of the root besides its lists of types. -/
def besidesLists (members : List (String × Json)) : List (String × Json) :=
  members.filter fun member =>
    member.1 ≠ TypeList.types.key ∧ member.1 ≠ TypeList.referencedTypes.key

/-- The decoding of an entry, if it succeeds. -/
def decoded? (value : Json) : Option TypeDef := (typeDef value).toOption

/-- The types of the entries that decode, in order. -/
def keptTypes (items : List Json) : List TypeDef := items.filterMap decoded?

/-- The entries that do not decode, with their positions counted from `start` and the reasons. -/
def lostEntries (start : Nat) : List Json → List (Nat × Json × DecodeError)
  | [] => []
  | item :: items =>
    match typeDef item with
    | .ok _ => lostEntries (start + 1) items
    | .error e => (start, item, e) :: lostEntries (start + 1) items

/-- The warnings of a list: one for every lost entry, and a count when there is one. -/
def warnings (list : TypeList) (items : List Json) : List Warning :=
  let lost := lostEntries 0 items
  lost.map (fun entry => .skipped list entry.1 entry.2.1 entry.2.2) ++
    (if lost.isEmpty then [] else [.incomplete list (items.length - lost.length) items.length])

/-- The module of a decoded document. -/
def ofJson : Json → Except DocumentError (Module × List Warning)
  | .object members =>
    match entries .types members, entries .referencedTypes members with
    | .error e, _ => .error e
    | _, .error e => .error e
    | .ok types, .ok referencedTypes =>
      match moduleMembers (keptTypes types) (keptTypes referencedTypes) (besidesLists members) with
      | .error e => .error (.undecodable (besidesLists members) e)
      | .ok module =>
        .ok (module, warnings .types types ++ warnings .referencedTypes referencedTypes)
  | _ => .error .rootNotObject

/-- The module of a document, with what was lost. -/
def parse (document : List UInt8) : Except DocumentError (Module × List Warning) :=
  match Json.read maxDepth document with
  | .error e => .error (.unreadable document e)
  | .ok value => ofJson value

end Snapshot

end ModuleInspector
