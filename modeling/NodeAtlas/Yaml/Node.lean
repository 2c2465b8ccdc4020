import NodeAtlas.Yaml.Token

/-!
Documents of YAML texts as trees. An alias stands for the node it names; a text without a document
stands for an empty scalar.
-/

namespace NodeAtlas.Yaml

inductive Node where
  | scalar (text : String) (style : Style) (tag : Option String)
  | sequence (items : List Node)
  | mapping (pairs : List (Node × Node))

namespace Node

/-- What stands where a node has been left out. -/
def empty (tag : Option String) : Node := scalar "" .plain tag

end Node

/-- Where a node stands. A sequence that is a key or value in a block needs no indentation. -/
inductive Place where
  | block | blockPair | flow
  deriving DecidableEq

structure Reader where
  rest : List Token
  /-- What tag handles stand for. -/
  handles : List (String × String)
  /-- Named nodes, latest first; a node has no value while it is being read. -/
  anchors : List (String × Option Node) := []

abbrev Read := StateT Reader Option

namespace Read

def refuse {α : Type} : Read α := fun _ => none

def peek : Read (Option Token) := do return (← get).rest.head?

def skip : Read Unit := modify fun s => { s with rest := s.rest.drop 1 }

/-- Reads a node, or takes it as empty before some tokens. -/
def unlessBefore (stops : List Token) (read : Read Node) : Read Node := do
  if (← peek).any stops.contains then return .empty none else read

def name (anchor : Option String) (n : Option Node) : Read Unit :=
  modify fun s => { s with anchors := (anchor.map (·, n)).toList ++ s.anchors }

/-- The node that an alias stands for. -/
def named (anchor : String) : Read Node := do
  match (← get).anchors.lookup anchor with
  | some (some n) => return n
  | _ => refuse

def resolve (handle suffix : String) : Read String := do
  if handle = "" then return suffix
  match (← get).handles.lookup handle with
  | some stem => return stem ++ suffix
  | none => refuse

def takeAnchor : Read (Option String) := do
  match ← peek with
  | some (.anchor a) =>
    skip
    return some a
  | _ => return none

def takeTag : Read (Option String) := do
  match ← peek with
  | some (.tag handle suffix) =>
    skip
    return some (← resolve handle suffix)
  | _ => return none

/-- The anchor and the tag of a node, in either order. -/
def properties : Read (Option String × Option String) := do
  match ← takeAnchor with
  | some a => return (some a, ← takeTag)
  | none =>
    match ← takeTag with
    | some t => return (← takeAnchor, some t)
    | none => return (none, none)

/-- Reads the value of a pair, which is empty without a colon. -/
def value (stops : List Token) (read : Read Node) : Read Node := do
  if (← peek) = some .value then
    skip
    unlessBefore stops read
  else return .empty none

/-- Takes the comma before every item but the first, when more is to come. -/
def comma (first : Bool) (stop : Token) : Read Unit := do
  if !first && (← peek) ≠ some stop then
    if (← peek) = some .comma then skip else refuse

/-! Every loop takes a token before it reads a node, so twice the number of tokens bounds the
depth. -/

mutual

def node : Nat → Place → Read Node
  | 0, _ => refuse
  | fuel + 1, place => do
    match ← peek with
    | some (.alias a) =>
      skip
      named a
    | _ =>
      let (anchor, tag) ← properties
      name anchor none
      let n ← content fuel place tag (anchor.isSome || tag.isSome)
      name anchor (some n)
      return n

/-- Reads a node behind its properties; only with properties it may be left out. -/
def content : Nat → Place → Option String → Bool → Read Node
  | 0, _, _, _ => refuse
  | fuel + 1, place, tag, optional => do
    match ← peek with
    | some (.scalar text style) =>
      skip
      return .scalar text style tag
    | some .flowSequenceStart =>
      skip
      return .sequence (← flowItems fuel true)
    | some .flowMappingStart =>
      skip
      return .mapping (← flowPairs fuel true)
    | t =>
      if t = some .entry && place = .blockPair then return .sequence (← looseItems fuel)
      else if t = some .sequenceStart && place ≠ .flow then
        skip
        return .sequence (← blockItems fuel)
      else if t = some .mappingStart && place ≠ .flow then
        skip
        return .mapping (← blockPairs fuel)
      else if optional then return .empty tag
      else refuse

def blockItems : Nat → Read (List Node)
  | 0 => refuse
  | fuel + 1 => do
    match ← peek with
    | some .entry =>
      skip
      let n ← unlessBefore [.entry, .blockEnd] (node fuel .block)
      return n :: (← blockItems fuel)
    | some .blockEnd =>
      skip
      return []
    | _ => refuse

/-- The items of a sequence without indentation, which no token ends. -/
def looseItems : Nat → Read (List Node)
  | 0 => refuse
  | fuel + 1 => do
    match ← peek with
    | some .entry =>
      skip
      let n ← unlessBefore [.entry, .key, .value, .blockEnd] (node fuel .block)
      return n :: (← looseItems fuel)
    | _ => return []

def blockPairs : Nat → Read (List (Node × Node))
  | 0 => refuse
  | fuel + 1 => do
    match ← peek with
    | some .key =>
      skip
      let stops := [.key, .value, .blockEnd]
      let k ← unlessBefore stops (node fuel .blockPair)
      let v ← value stops (node fuel .blockPair)
      return (k, v) :: (← blockPairs fuel)
    | some .blockEnd =>
      skip
      return []
    | _ => refuse

/-- The items of a sequence in brackets. A key in it begins a mapping of one pair. -/
def flowItems : Nat → Bool → Read (List Node)
  | 0, _ => refuse
  | fuel + 1, first => do
    comma first .flowSequenceEnd
    match ← peek with
    | some .flowSequenceEnd =>
      skip
      return []
    | some .key =>
      skip
      let stops := [.comma, .flowSequenceEnd]
      let k ← unlessBefore (.value :: stops) (node fuel .flow)
      let v ← value stops (node fuel .flow)
      return .mapping [(k, v)] :: (← flowItems fuel false)
    | _ =>
      let n ← node fuel .flow
      return n :: (← flowItems fuel false)

def flowPairs : Nat → Bool → Read (List (Node × Node))
  | 0, _ => refuse
  | fuel + 1, first => do
    comma first .flowMappingEnd
    match ← peek with
    | some .flowMappingEnd =>
      skip
      return []
    | some .key =>
      skip
      let stops := [.comma, .flowMappingEnd]
      let k ← unlessBefore (.value :: stops) (node fuel .flow)
      let v ← value stops (node fuel .flow)
      return (k, v) :: (← flowPairs fuel false)
    | _ =>
      let k ← node fuel .flow
      return (k, .empty none) :: (← flowPairs fuel false)

end

end Read

/-- The tag handles declared before a document, and the tokens behind the directives. Nothing may
be declared twice. -/
def directives : List Token → Bool → List (String × String) →
    Option (List (String × String) × List Token)
  | .version major minor :: rest, versioned, handles =>
    if versioned || major ≠ 1 || (minor ≠ 1 && minor ≠ 2) then none
    else directives rest true handles
  | .tagHandle handle stem :: rest, versioned, handles =>
    if handles.any (·.1 = handle) then none
    else directives rest versioned (handles ++ [(handle, stem)])
  | rest, _, handles => some (handles, rest)

/-- Whether a document ends before a token. -/
def endsDocument : Token → Bool
  | .version _ _ | .tagHandle _ _ | .documentStart | .documentEnd => true
  | _ => false

def standardHandles : List (String × String) := [("!", "!"), ("!!", "tag:yaml.org,2002:")]

/-- The document of some tokens, the only one in them. Directives need a marker behind them. -/
def ofTokens? (tokens : List Token) : Option Node := do
  let (handles, rest) ← directives tokens false []
  let start := fun rest => Reader.mk rest (handles ++ standardHandles) []
  let whole := Read.node (2 * tokens.length + 2) .block
  let (n, r) ← match rest with
    | .documentStart :: body =>
      if body.head?.all endsDocument then some (Node.empty none, start body)
      else whole.run (start body)
    | _ =>
      if tokens = [] then some (Node.empty none, start [])
      else if rest.length < tokens.length then none
      else whole.run (start rest)
  if r.rest.all (· = .documentEnd) then some n else none

/-- The document of a text. -/
def document? (text : String) : Option Node := (tokens? text.toList).bind ofTokens?

end NodeAtlas.Yaml
