import SqlFilter.Data.Names
import SqlFilter.DateTime.Reading

/-!
Values, types and conditions as data. A node of a condition is a record with its tag under `node`
and its parts under their names; keys that no part has are ignored. It may also be the list of its
tag and its parts.
-/
namespace SqlFilter

def ValueType.toData : ValueType → Data
  | .boolean => .text "boolean"
  | .string => .text "string"
  | .integer => .text "integer"
  | .decimal => .text "decimal"
  | .dateTime => .text "date_time"
  | .null => .text "null"
  | .list element => .record [("list", element.toData)]
  | .unknown => .text "unknown"

def ValueType.ofData? (f : Format) : Data → Option ValueType
  | .record [("list", d)] => (ofData? f d).map .list
  | d => d.choice? f keys

namespace Value

mutual

def toData : Value → Data
  | .null => .text "null"
  | .bool b => .record [("bool", .bool b)]
  | .int n => .record [("int", .integer n.toInt)]
  | .decimal x => .record [("decimal", .decimal x)]
  | .string s => .record [("string", .text s)]
  | .dateTime t => .record [("date_time", .text t.isoText)]
  | .list items => .record [("list", .list (toDataList items))]

def toDataList : List Value → List Data
  | [] => []
  | v :: vs => v.toData :: toDataList vs

end

mutual

/-- A value is `null`, or a record with its kind as the only key. -/
def ofData? (f : Format) : Data → Option Value
  | .record [("bool", d)] => d.bool?.map .bool
  | .record [("int", d)] => d.int64?.map .int
  | .record [("decimal", d)] => d.decimal?.map .decimal
  | .record [("string", d)] => d.text?.map .string
  | .record [("date_time", d)] => (d.text?.bind DateTime.ofIsoText?).map .dateTime
  | .record [("list", .list items)] => (ofDataList? f items).map .list
  | d => d.choice? f [("null", .null)]

def ofDataList? (f : Format) : List Data → Option (List Value)
  | [] => some []
  | d :: ds =>
    match ofData? f d, ofDataList? f ds with
    | some v, some vs => some (v :: vs)
    | _, _ => none

end

end Value

namespace Predicate

def tags : List (String × NodeKind) :=
  [("comparison", .comparison), ("logical", .logical), ("not", .not), ("member", .memberAccess),
    ("constant", .constant), ("conditional", .conditional), ("call", .call),
    ("convert", .convert), ("parameter", .parameter)]

inductive TagForm
  | name
  /-- By name, or as the position of the name among the tags. -/
  | nameOrPosition
  deriving DecidableEq, Repr

def tag? (form : TagForm) : Data → Option NodeKind
  | .text s => tags.lookup s
  | .integer n =>
    if form = .nameOrPosition ∧ 0 ≤ n then (tags[n.toNat]?).map (·.2) else none
  | _ => none

def partKeys : NodeKind → List String
  | .comparison | .logical => ["op", "left", "right"]
  | .not => ["operand"]
  | .memberAccess => ["path"]
  | .constant => ["value", "declared"]
  | .conditional => ["test", "if_true", "if_false"]
  | .call => ["method", "receiver", "args"]
  | .convert => ["operand", "target"]
  | .parameter => ["name"]

/-- How many parts have to be there, counted from the first. -/
def leastParts : NodeKind → Nat
  | .comparison | .logical | .conditional => 3
  | .convert => 2
  | .not | .memberAccess | .constant | .call | .parameter => 1

structure Part where
  data : Data
  predicate? : Option Predicate
  list? : Option (List Predicate)

def ofParts? (kind : NodeKind) (parts : List (String × Part)) : Option Predicate :=
  let data key := (parts.lookup key).map Part.data
  let child key := (parts.lookup key).bind Part.predicate?
  match kind with
  | .comparison => do
    some (.comparison (← (← data "op").choice? .node ComparisonOp.keys) (← child "left")
      (← child "right"))
  | .logical => do
    some (.logical (← (← data "op").choice? .node LogicalOp.keys) (← child "left")
      (← child "right"))
  | .not => do
    some (.not (← child "operand"))
  | .memberAccess => do
    some (.member (← (← data "path").text?))
  | .constant => do
    let v ← Value.ofData? .node (← data "value")
    match data "declared" with
    | none | some .null => some (.constant v none)
    | some d => some (.constant v (some (← ValueType.ofData? .node d)))
  | .conditional => do
    some (.conditional (← child "test") (← child "if_true") (← child "if_false"))
  | .call => do
    let method ← (← data "method").text?
    let receiver ← match data "receiver" with
      | none | some .null => some none
      | some _ => (child "receiver").map some
    let args ← match parts.lookup "args" with
      | none => some []
      | some part => part.list?
    some (.call method receiver args)
  | .convert => do
    some (.convert (← child "operand") (← ValueType.ofData? .node (← data "target")))
  | .parameter => do
    some (.parameter (← (← data "name").text?))

/-- A node from the entries of its record. Neither the tag nor a part may stand there twice. -/
def ofEntries? (form : TagForm) (entries : List (String × Part)) : Option Predicate := do
  let kind ← tag? form (← entries.lookup "node").data
  if Data.distinct ("node" :: partKeys kind) entries then ofParts? kind entries else none

def ofItems? (form : TagForm) : List Part → Option Predicate
  | [] => none
  | tag :: parts => do
    let kind ← tag? form tag.data
    if leastParts kind ≤ parts.length ∧ parts.length ≤ (partKeys kind).length then
      ofParts? kind ((partKeys kind).zip parts)
    else none

mutual

def partOf (inner : TagForm) : Data → Part
  | .record fields => ⟨.record fields, ofEntries? inner (entriesOf inner fields), none⟩
  | .list items =>
    let parts := itemsOf inner items
    ⟨.list items, ofItems? inner parts, parts.mapM Part.predicate?⟩
  | d => ⟨d, none, none⟩

def entriesOf (inner : TagForm) : List (String × Data) → List (String × Part)
  | [] => []
  | (key, d) :: fields => (key, partOf inner d) :: entriesOf inner fields

def itemsOf (inner : TagForm) : List Data → List Part
  | [] => []
  | d :: ds => partOf inner d :: itemsOf inner ds

end

@[simp] theorem entriesOf_eq_map (inner : TagForm) (fields : List (String × Data)) :
    entriesOf inner fields = fields.map fun f => (f.1, partOf inner f.2) := by
  induction fields with
  | nil => rfl
  | cons f fields ih => simp [entriesOf, ih]

@[simp] theorem itemsOf_eq_map (inner : TagForm) (items : List Data) :
    itemsOf inner items = items.map (partOf inner) := by
  induction items with
  | nil => rfl
  | cons d ds ih => simp [itemsOf, ih]

/-- A node whose own tag is written by name; `inner` says how tags below it may be written. -/
def ofNode? (inner : TagForm) : Data → Option Predicate
  | .record fields => ofEntries? .name (entriesOf inner fields)
  | .list items => ofItems? .name (itemsOf inner items)
  | _ => none

/--
A condition from data all of which has to be readable. In JSON the tags below the root may be
written as positions.
-/
def ofData? (f : Format) (d : Data) : Option Predicate :=
  if d.isReadable then ofNode? (if f = .json then .nameOrPosition else .name) d else none

mutual

/-- A node as a record: its tag, then its parts. A type or a receiver that is none is left out. -/
def toData : Predicate → Data
  | .comparison op l r =>
    .record [("node", .text "comparison"), ("op", .text op.key), ("left", l.toData),
      ("right", r.toData)]
  | .logical op l r =>
    .record [("node", .text "logical"), ("op", .text op.key), ("left", l.toData),
      ("right", r.toData)]
  | .not p => .record [("node", .text "not"), ("operand", p.toData)]
  | .member path => .record [("node", .text "member"), ("path", .text path)]
  | .constant v declared =>
    .record ([("node", .text "constant"), ("value", v.toData)] ++
      (declared.map fun t => ("declared", t.toData)).toList)
  | .conditional t a b =>
    .record [("node", .text "conditional"), ("test", t.toData), ("if_true", a.toData),
      ("if_false", b.toData)]
  | .call method none args =>
    .record [("node", .text "call"), ("method", .text method), ("args", .list (toDataList args))]
  | .call method (some receiver) args =>
    .record [("node", .text "call"), ("method", .text method), ("receiver", receiver.toData),
      ("args", .list (toDataList args))]
  | .convert p target =>
    .record [("node", .text "convert"), ("operand", p.toData), ("target", target.toData)]
  | .parameter name => .record [("node", .text "parameter"), ("name", .text name)]

def toDataList : List Predicate → List Data
  | [] => []
  | p :: ps => p.toData :: toDataList ps

end

end Predicate

end SqlFilter
