import ReadThrough.Datum.Basic
import ReadThrough.Settings.Basic

/-!
# Reading and writing settings

Settings are read from a tree of structured data. How texts, numbers, choices and objects appear in
it is up to the kind of tree, which a reader describes; which fields there are, and what stands for
a field that is left out, is the same for all. A field of an unknown name, or one that occurs
twice, is refused. Settings are written with all their fields.
-/

namespace ReadThrough

/-- How a kind of tree is read. Every part answers nothing where the tree is not of that form. -/
structure Reader (T : Type) where
  text? : T → Option String
  /-- a natural number that is at most the limit -/
  natural? : (limit : Nat) → T → Option Nat
  bool? : T → Option Bool
  /-- whether the tree stands for nothing -/
  isNull : T → Bool
  /-- what may be left out: nothing if it is, or else the tree to be read -/
  given? : T → Option (Option T)
  list? : T → Option (List T)
  /-- an object: its fields in order -/
  fields? : T → Option (List (String × T))
  /-- an object written as the list of its values in the order of declaration -/
  positional? : T → Option (List T)
  /-- a choice: a name alone, or a name with what belongs to it -/
  choice? : T → Option (String × Option T)

namespace Reader

variable {T : Type}

/-- Find the fields of an object by name. All names must be among those given, and none may occur
twice; values without names stand for the first of them in order. -/
def object? (r : Reader T) (names : List String) (tree : T) : Option (List (String × T)) :=
  match r.fields? tree with
  | some fields =>
      let given := fields.map Prod.fst
      if given.all (names.contains ·) ∧ given.Nodup then some fields else none
  | none =>
      match r.positional? tree with
      | some values => if values.length ≤ names.length then some (names.zip values) else none
      | none => none

/-- Read a field, or take what stands for it if it is left out. -/
def field? {α : Type} (fields : List (String × T)) (name : String) (standard : α)
    (read : T → Option α) : Option α :=
  match fields.lookup name with
  | none => some standard
  | some tree => read tree

/-- Read a field that may be null. -/
def optional? {α : Type} (r : Reader T) (read : T → Option α) (tree : T) : Option (Option α) := do
  match ← r.given? tree with
  | none => some none
  | some tree => (read tree).map some

/-- Read a list. -/
def listOf? {α : Type} (r : Reader T) (read : T → Option α) (tree : T) : Option (List α) := do
  (← r.list? tree).mapM read

end Reader

/-- The largest number that `one_in` takes. -/
def maxOneIn : Nat := UInt32.size - 1

/-- The largest number that any other field takes. -/
def maxNumber : Nat := UInt64.size - 1

/-- Read an admission rule. A rule without a number may also be written with a null. -/
def Admission.read? {T : Type} (r : Reader T) (tree : T) : Option Admission :=
  match r.choice? tree with
  | some ("always", none) => some .always
  | some ("never", none) => some .never
  | some ("always", some content) => if r.isNull content then some .always else none
  | some ("never", some content) => if r.isNull content then some .never else none
  | some ("one_in", some content) => (r.natural? maxOneIn content).map .oneIn
  | _ => none

/-- The names of the fields of a group, in order. -/
def GroupSpec.fieldNames : List String :=
  ["name", "cache_bytes", "hot_ratio", "hot_admission", "fallback_to_local", "negative_ttl_ms",
    "data_dir"]

/-- Read the settings of a group. Only the name must be there. -/
def GroupSpec.read? {T : Type} (r : Reader T) (tree : T) : Option GroupSpec := do
  let fields ← r.object? GroupSpec.fieldNames tree
  pure
    { name := ← r.text? (← fields.lookup "name")
      cacheBytes :=
        ← Reader.field? fields "cache_bytes" defaultCacheBytes (r.natural? maxNumber)
      hotRatio := ← Reader.field? fields "hot_ratio" defaultHotRatio (r.natural? maxNumber)
      hotAdmission := ← Reader.field? fields "hot_admission" .always (Admission.read? r)
      fallbackToLocal := ← Reader.field? fields "fallback_to_local" true r.bool?
      negativeTtlMs :=
        ← Reader.field? fields "negative_ttl_ms" none (r.optional? (r.natural? maxNumber))
      dataDir := ← Reader.field? fields "data_dir" none (r.optional? r.text?) }

/-- The names of the fields of a node, in order. -/
def NodeSettings.fieldNames : List String :=
  ["self_url", "peers", "listen", "base_path", "replicas", "peer_timeout_ms",
    "request_timeout_ms", "groups"]

/-- Read the settings of a node. -/
def NodeSettings.read? {T : Type} (r : Reader T) (tree : T) : Option NodeSettings := do
  let fields ← r.object? NodeSettings.fieldNames tree
  pure
    { selfUrl := ← Reader.field? fields "self_url" "" r.text?
      peers := ← Reader.field? fields "peers" [] (r.listOf? r.text?)
      listen := ← Reader.field? fields "listen" defaultListen r.text?
      basePath := ← Reader.field? fields "base_path" Http.defaultBasePath r.text?
      replicas := ← Reader.field? fields "replicas" Ring.defaultReplicas (r.natural? maxNumber)
      peerTimeoutMs :=
        ← Reader.field? fields "peer_timeout_ms" defaultPeerTimeoutMs (r.natural? maxNumber)
      requestTimeoutMs :=
        ← Reader.field? fields "request_timeout_ms" defaultRequestTimeoutMs
            (r.natural? maxNumber)
      groups := ← Reader.field? fields "groups" [] (r.listOf? (GroupSpec.read? r)) }

/-! ## Structured data -/

/-- Structured data is read strictly: a text is a text and a number is an integer. -/
def Datum.reader : Reader Datum where
  text?
    | .text s => some s
    | _ => none
  natural? limit
    | .integer n => if 0 ≤ n ∧ n.toNat ≤ limit then some n.toNat else none
    | _ => none
  bool?
    | .bool b => some b
    | _ => none
  isNull
    | .null => true
    | _ => false
  given?
    | .null => some none
    | tree => some (some tree)
  list?
    | .list items => some items
    | _ => none
  fields?
    | .object fields => some fields
    | _ => none
  positional?
    | .list items => some items
    | _ => none
  choice?
    | .text s => some (s, none)
    | .object [(name, content)] => some (name, some content)
    | _ => none

/-- An admission rule as data: a name, or an object with one field for a rule with a number. -/
def Admission.toDatum : Admission → Datum
  | .always => .text "always"
  | .never => .text "never"
  | .oneIn n => .object [("one_in", .natural n)]

/-- A value that may be missing as data. -/
def Datum.ofOption {α : Type} (write : α → Datum) : Option α → Datum
  | none => .null
  | some a => write a

/-- The fields that the settings of a group are written with. -/
def GroupSpec.fields (spec : GroupSpec) : List (String × Datum) :=
  [("name", .text spec.name), ("cache_bytes", .natural spec.cacheBytes),
    ("hot_ratio", .natural spec.hotRatio), ("hot_admission", spec.hotAdmission.toDatum),
    ("fallback_to_local", .bool spec.fallbackToLocal),
    ("negative_ttl_ms", .ofOption .natural spec.negativeTtlMs),
    ("data_dir", .ofOption .text spec.dataDir)]

/-- The settings of a group as data. -/
def GroupSpec.toDatum (spec : GroupSpec) : Datum :=
  .object spec.fields

/-- The fields that the settings of a node are written with, given its groups as data. -/
def NodeSettings.fields (settings : NodeSettings) (groups : List Datum) : List (String × Datum) :=
  [("self_url", .text settings.selfUrl), ("peers", .list (settings.peers.map .text)),
    ("listen", .text settings.listen), ("base_path", .text settings.basePath),
    ("replicas", .natural settings.replicas),
    ("peer_timeout_ms", .natural settings.peerTimeoutMs),
    ("request_timeout_ms", .natural settings.requestTimeoutMs), ("groups", .list groups)]

/-- The settings of a node as data. -/
def NodeSettings.toDatum (settings : NodeSettings) : Datum :=
  .object (settings.fields (settings.groups.map GroupSpec.toDatum))

/-- What a group was made with, as data. -/
def GroupSettings.toDatum (settings : GroupSettings) : Datum :=
  .object
    [("cache_bytes", .natural settings.cacheBytes), ("hot_ratio", .natural settings.hotRatio),
      ("hot_admission", settings.hotAdmission.toDatum),
      ("fallback_to_local", .bool settings.fallbackToLocal),
      ("negative_ttl_ms", .ofOption .natural settings.negativeTtl),
      ("negative_cache_bytes", .natural settings.negativeCacheBytes)]

end ReadThrough
