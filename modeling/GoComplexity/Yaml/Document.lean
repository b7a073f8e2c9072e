import GoComplexity.Yaml.Token

/-!
# Documents

A document is a tree of nodes. Uses of an anchor are numbers, so that a node may be used inside
itself; the anchored nodes stand beside the tree. An anchor takes as its number how many names are
known when it is met, and of two nodes with one number the later one counts.
-/

namespace GoComplexity.Yaml

inductive Node where
  | scalar (tag : Option String) (style : Style) (text : String)
  | sequence (items : List Node)
  | mapping (entries : List (Node × Node))
  | reference (number : Nat)

/-- What stands where nothing is written. -/
def Node.absent : Node := .scalar none .plain ""

structure Document where
  root : Node
  /-- The anchored nodes by number, the latest one first. -/
  anchored : List (Nat × Node)

/-- The node itself, or the one it refers to. -/
def Document.follow (d : Document) : Node → Node
  | .reference n => (d.anchored.lookup n).getD .absent
  | n => n

/-- The tokens left, with the handles and anchors known. -/
structure Reader where
  tokens : List Token
  handles : List (String × String)
  names : List (String × Nat)
  anchored : List (Nat × Node)

/-- Where a node stands. -/
inductive Place where
  | block
  /-- A key or value of a block mapping, where the entries of a sequence need no indentation. -/
  | mappingPart
  | flow
deriving DecidableEq

namespace Reader

/-- Reading of a node at a place. -/
abbrev Child := Place → Reader → Option (Node × Reader)

def next? (r : Reader) : Option Token := r.tokens.head?

def skip (r : Reader) : Reader := { r with tokens := r.tokens.drop 1 }

/-- Whether the next token is one of some. -/
def sees (r : Reader) (ts : List Token) : Bool := r.next?.any ts.contains

/-- A node that is absent before some tokens. -/
def part (child : Child) (place : Place) (stops : List Token) (r : Reader) : Option (Node × Reader) :=
  if r.sees stops then some (.absent, r) else child place r

/-- The value of a mapping entry: it may be left out with its colon. -/
def valuePart (child : Child) (place : Place) (stops : List Token) (r : Reader) :
    Option (Node × Reader) :=
  if r.sees [.value] then r.skip.part child place stops else some (.absent, r)

/-- The items of a block sequence, after its start. -/
def blockSequence (child : Child) : Nat → Reader → Option (List Node × Reader)
  | 0, _ => none
  | fuel + 1, r =>
    match r.next? with
    | some .blockEntry => do
      let (item, r) ← r.skip.part child .block [.blockEntry, .blockEnd]
      let (items, r) ← blockSequence child fuel r
      return (item :: items, r)
    | some .blockEnd => some ([], r.skip)
    | _ => none

/-- The items of a sequence that is indented like the mapping around it. -/
def alignedSequence (child : Child) : Nat → Reader → Option (List Node × Reader)
  | 0, _ => none
  | fuel + 1, r =>
    if r.sees [.blockEntry] then do
      let (item, r) ← r.skip.part child .block [.blockEntry, .key, .value, .blockEnd]
      let (items, r) ← alignedSequence child fuel r
      return (item :: items, r)
    else some ([], r)

/-- The entries of a block mapping, after its start. -/
def blockMapping (child : Child) : Nat → Reader → Option (List (Node × Node) × Reader)
  | 0, _ => none
  | fuel + 1, r =>
    let stops := [.key, .value, .blockEnd]
    match r.next? with
    | some .key => do
      let (key, r) ← r.skip.part child .mappingPart stops
      let (value, r) ← r.valuePart child .mappingPart stops
      let (entries, r) ← blockMapping child fuel r
      return ((key, value) :: entries, r)
    | some .blockEnd => some ([], r.skip)
    | _ => none

/-- Passes the comma between two items of a flow collection. -/
def comma (first : Bool) (r : Reader) : Option Reader :=
  if first then some r else if r.sees [.flowEntry] then some r.skip else none

/-- A pair that stands as an item of a flow sequence, after its key token. -/
def flowPair (child : Child) (r : Reader) : Option (Node × Reader) := do
  let (key, r) ←
    if r.sees [.value, .flowEntry, .flowSequenceEnd] then some (.absent, r.skip) else child .flow r
  let (value, r) ← r.valuePart child .flow [.flowEntry, .flowSequenceEnd]
  return (.mapping [(key, value)], r)

/-- The items of a flow sequence, after its start. -/
def flowSequence (child : Child) : Nat → (first : Bool) → Reader → Option (List Node × Reader)
  | 0, _, _ => none
  | fuel + 1, first, r =>
    if r.sees [.flowSequenceEnd] then some ([], r.skip)
    else do
      let r ← r.comma first
      if r.sees [.flowSequenceEnd] then return ([], r.skip)
      let (item, r) ← if r.sees [.key] then r.skip.flowPair child else child .flow r
      let (items, r) ← flowSequence child fuel false r
      return (item :: items, r)

/-- The entries of a flow mapping, after its start. -/
def flowMapping (child : Child) :
    Nat → (first : Bool) → Reader → Option (List (Node × Node) × Reader)
  | 0, _, _ => none
  | fuel + 1, first, r =>
    if r.sees [.flowMappingEnd] then some ([], r.skip)
    else do
      let r ← r.comma first
      if r.sees [.flowMappingEnd] then return ([], r.skip)
      let (entry, r) ←
        if r.sees [.key] then do
          let (key, r) ← r.skip.part child .flow [.value, .flowEntry, .flowMappingEnd]
          let (value, r) ← r.valuePart child .flow [.flowEntry, .flowMappingEnd]
          some ((key, value), r)
        else (child .flow r).map fun (key, r) ↦ ((key, .absent), r)
      let (entries, r) ← flowMapping child fuel false r
      return (entry :: entries, r)

/-- The full form of a tag, if its handle is known. -/
def fullTag (r : Reader) (t : Tag) : Option String :=
  if t.handle == "" then some t.suffix else (r.handles.lookup t.handle).map (· ++ t.suffix)

/-- Reads an anchor and a tag, in either order and each at most once. -/
def properties (r : Reader) : Option (Option String × Option String × Reader) :=
  match r.tokens with
  | .anchor name :: .tag t :: rest =>
    (r.fullTag t).map fun tag ↦ (some name, some tag, { r with tokens := rest })
  | .tag t :: .anchor name :: rest =>
    (r.fullTag t).map fun tag ↦ (some name, some tag, { r with tokens := rest })
  | .tag t :: rest => (r.fullTag t).map fun tag ↦ (none, some tag, { r with tokens := rest })
  | .anchor name :: rest => some (some name, none, { r with tokens := rest })
  | _ => some (none, none, r)

/-- Makes an anchor's name known and gives its number. -/
def declare (name : String) (r : Reader) : Nat × Reader :=
  let number := r.names.length
  (number, { r with names := (name, number) :: r.names.filter (·.1 != name) })

/-- The part of a node after its anchor and tag. -/
def content (child : Child) (fuel : Nat) (place : Place) (tag : Option String) (bare : Bool)
    (r : Reader) : Option (Node × Reader) :=
  let missing := if bare then none else some (.scalar tag .plain "", r)
  match r.next? with
  | some (.scalar style text) => some (.scalar tag style text, r.skip)
  | some .flowSequenceStart =>
    (r.skip.flowSequence child fuel true).map fun (items, r) ↦ (.sequence items, r)
  | some .flowMappingStart =>
    (r.skip.flowMapping child fuel true).map fun (entries, r) ↦ (.mapping entries, r)
  | some .blockEntry =>
    if place == .mappingPart then
      (r.alignedSequence child fuel).map fun (items, r) ↦ (.sequence items, r)
    else missing
  | some .blockSequenceStart =>
    if place == .flow then missing
    else (r.skip.blockSequence child fuel).map fun (items, r) ↦ (.sequence items, r)
  | some .blockMappingStart =>
    if place == .flow then missing
    else (r.skip.blockMapping child fuel).map fun (entries, r) ↦ (.mapping entries, r)
  | _ => missing

/-- Reads a node. The nodes anchored inside it count as later than the node itself. -/
def node : Nat → Child
  | 0, _, _ => none
  | fuel + 1, place, r =>
    match r.next? with
    | some (.reference name) => (r.names.lookup name).map fun number ↦ (.reference number, r.skip)
    | _ => do
      let (anchor, tag, r) ← r.properties
      let earlier := r.anchored
      let (number, r) := match anchor with
        | none => (none, r)
        | some name => let (number, r) := r.declare name; (some number, r)
      let bare := anchor.isNone && tag.isNone
      let (n, r) ← content (node fuel) fuel place tag bare { r with anchored := [] }
      let own := (number.map fun number ↦ (number, n)).toList
      return (n, { r with anchored := r.anchored ++ own ++ earlier })

end Reader

/-- The handles that need no directive. -/
def standardHandles : List (String × String) := [("!", "!"), ("!!", "tag:yaml.org,2002:")]

/-- The declarations before a document: at most one version, and each handle once. -/
def handles? (ds : List Directive) : Option (List (String × String)) :=
  let declared := ds.filterMap fun
    | .handle name expansion => some (name, expansion)
    | .version => none
  if 1 < ds.count .version || !(declared.map (·.1)).Nodup then none
  else some (declared ++ standardHandles)

/-- Splits the directives off the start of some tokens. -/
def splitDirectives : List Token → List Directive × List Token
  | .directive d :: ts => let (ds, rest) := splitDirectives ts; (d :: ds, rest)
  | ts => ([], ts)

/-- Whether a document without content ends before these tokens. -/
def endsDocument : List Token → Bool
  | [] => true
  | .directive _ :: _ => true
  | .documentStart :: _ => true
  | .documentEnd :: _ => true
  | _ => false

/-- The only document of some tokens; no tokens at all are an empty document. -/
def document? (ts : List Token) : Option Document := do
  if ts.isEmpty then return ⟨.absent, []⟩
  let (ds, ts) := splitDirectives ts
  let handles ← handles? ds
  let (explicit, ts) ← match ts with
    | .documentStart :: rest => some (true, rest)
    | ts => if ds.isEmpty then some (false, ts) else none
  let r : Reader := ⟨ts, handles, [], []⟩
  let (root, r) ←
    if explicit && endsDocument ts then some (.absent, r) else r.node (2 * ts.length + 2) .block
  if (r.tokens.dropWhile (· == .documentEnd)).isEmpty then return ⟨root, r.anchored⟩ else none

/-- Reads a text that holds at most one document. -/
def read? (text : String) : Option Document := (tokens? text).bind document?

end GoComplexity.Yaml
