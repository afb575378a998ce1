import ShaderBuild.Yaml.Node
import ShaderBuild.Yaml.Scan
/-!
Reading the tree of a document from its tokens.
-/
namespace ShaderBuild.Yaml

namespace Node

/-- What is left to read: the tokens, the slots of the names met so far, and the handles of tags. -/
structure Reader where
  tokens : List Token
  names : List (Text × Nat)
  handles : List (Text × Text)

namespace Reader

def next (reader : Reader) : Reader :=
  { reader with tokens := reader.tokens.drop 1 }

/-- The next token is one of the given ones, or there is none. -/
def stopsAt (reader : Reader) (stops : List Token) : Bool :=
  match reader.tokens with
  | [] => true
  | token :: _ => token ∈ stops

/-- The slot for the node that begins here, if it has a name: its number is that of the names known
before. So a name that is given again takes a new slot, and the next new name takes that one too. -/
def slot (reader : Reader) : Option Text → Option Nat × Reader
  | some name =>
    let slot := reader.names.length
    let others := reader.names.filter fun known => known.1 != name
    (some slot, { reader with names := (name, slot) :: others })
  | none => (none, reader)

/-- The whole text of a tag. -/
def resolve? (reader : Reader) (handle suffix : Text) : Option Text :=
  if handle.isEmpty then some suffix
  else (reader.handles.lookup handle).map (· ++ suffix)

/-- The name and the tag before a node, in either order; of each at most one. -/
def properties? (reader : Reader) : Option (Option Text × Option Text × Reader) :=
  match reader.tokens with
  | .anchor name :: .tag handle suffix :: _ => do
    let tag ← reader.resolve? handle suffix
    pure (some name, some tag, reader.next.next)
  | .tag handle suffix :: .anchor name :: _ => do
    let tag ← reader.resolve? handle suffix
    pure (some name, some tag, reader.next.next)
  | .anchor name :: _ => some (some name, none, reader.next)
  | .tag handle suffix :: _ => do
    let tag ← reader.resolve? handle suffix
    pure (none, some tag, reader.next)
  | _ => some (none, none, reader)

end Reader

/-- The node in its slot, if it has one. -/
def inSlot (node : Node) : Option Nat → Node
  | some slot => .named slot node
  | none => node

mutual

/-- Reads a node; block collections are read with `block`, and a sequence that is not indented with
`loose`. The fuel bounds the number of calls. -/
def node? (block loose : Bool) : Nat → Reader → Option (Node × Reader)
  | 0, _ => none
  | fuel + 1, reader =>
    match reader.tokens with
    | .alias name :: _ => do
      let slot ← reader.names.lookup name
      pure (.alias slot, reader.next)
    | _ => do
      let (name, tag, reader) ← reader.properties?
      let (slot, reader) := reader.slot name
      let (node, reader) ← content? block loose (name.isSome || tag.isSome) tag fuel reader
      pure (node.inSlot slot, reader)

/-- Reads what follows the name and the tag of a node; if it is `marked` by one of them, that may be
nothing. -/
def content? (block loose marked : Bool) (tag : Option Text) : Nat → Reader → Option (Node × Reader)
  | 0, _ => none
  | fuel + 1, reader =>
    let nothing := if marked then some (Node.scalar [] .plain tag, reader) else none
    match reader.tokens with
    | .blockEntry :: _ => if loose then looseItems? [] fuel reader else nothing
    | .scalar text style :: _ => some (.scalar text style tag, reader.next)
    | .flowSequenceStart :: _ => flowItems? true [] fuel reader.next
    | .flowMappingStart :: _ => flowFields? true [] fuel reader.next
    | token :: _ =>
      if block && token == .blockSequenceStart then items? [] fuel reader.next
      else if block && token == .blockMappingStart then fields? [] fuel reader.next
      else nothing
    | [] => nothing

/-- The items of an indented block sequence, after those read in reverse. -/
def items? (read : List Node) : Nat → Reader → Option (Node × Reader)
  | 0, _ => none
  | fuel + 1, reader =>
    match reader.tokens with
    | .blockEntry :: _ => do
      let (item, reader) ← nodeUnless? true false [.blockEntry, .blockEnd] fuel reader.next
      items? (item :: read) fuel reader
    | .blockEnd :: _ => some (.sequence read.reverse, reader.next)
    | _ => none

/-- The items of a block sequence that is not indented. -/
def looseItems? (read : List Node) : Nat → Reader → Option (Node × Reader)
  | 0, _ => none
  | fuel + 1, reader =>
    match reader.tokens with
    | .blockEntry :: _ => do
      let (item, reader) ←
        nodeUnless? true false [.blockEntry, .key, .value, .blockEnd] fuel reader.next
      looseItems? (item :: read) fuel reader
    | _ => some (.sequence read.reverse, reader)

/-- The fields of a block mapping; each has a key, which may be empty. -/
def fields? (read : List (Node × Node)) : Nat → Reader → Option (Node × Reader)
  | 0, _ => none
  | fuel + 1, reader =>
    match reader.tokens with
    | .key :: _ => do
      let (key, reader) ← nodeUnless? true true [.key, .value, .blockEnd] fuel reader.next
      let (value, reader) ← valueOrEmpty? true [.key, .value, .blockEnd] fuel reader
      fields? ((key, value) :: read) fuel reader
    | .blockEnd :: _ => some (.mapping read.reverse, reader.next)
    | _ => none

/-- The items of a sequence in brackets; a field among them is a mapping of its own. If nothing
stands between a question mark and the next sign, that sign is passed over, even a bracket that
closes. -/
def flowItems? (first : Bool) (read : List Node) : Nat → Reader → Option (Node × Reader)
  | 0, _ => none
  | fuel + 1, reader =>
    match reader.tokens with
    | .flowSequenceEnd :: _ => some (.sequence read.reverse, reader.next)
    | token :: _ => do
      let reader ← if first then some reader else if token == .flowEntry then some reader.next
        else none
      match reader.tokens with
      | .flowSequenceEnd :: _ => pure (.sequence read.reverse, reader.next)
      | .key :: _ => do
        let stops := [Token.flowEntry, .flowSequenceEnd]
        let (key, reader) ←
          if reader.next.stopsAt (.value :: stops) then some (Node.empty, reader.next.next)
          else node? false false fuel reader.next
        let (value, reader) ← valueOrEmpty? false stops fuel reader
        flowItems? false (.mapping [(key, value)] :: read) fuel reader
      | _ => do
        let (item, reader) ← node? false false fuel reader
        flowItems? false (item :: read) fuel reader
    | [] => none

/-- The fields of a mapping in braces; a word without a colon is a key without a value. -/
def flowFields? (first : Bool) (read : List (Node × Node)) : Nat → Reader → Option (Node × Reader)
  | 0, _ => none
  | fuel + 1, reader =>
    match reader.tokens with
    | .flowMappingEnd :: _ => some (.mapping read.reverse, reader.next)
    | token :: _ => do
      let reader ← if first then some reader else if token == .flowEntry then some reader.next
        else none
      let stops := [Token.flowEntry, .flowMappingEnd]
      match reader.tokens with
      | .flowMappingEnd :: _ => pure (.mapping read.reverse, reader.next)
      | .key :: _ => do
        let (key, reader) ← nodeUnless? false false (.value :: stops) fuel reader.next
        let (value, reader) ← valueOrEmpty? false stops fuel reader
        flowFields? false ((key, value) :: read) fuel reader
      | _ => do
        let (key, reader) ← node? false false fuel reader
        flowFields? false ((key, Node.empty) :: read) fuel reader
    | [] => none

/-- Reads a node, or nothing at one of the stops. -/
def nodeUnless? (block loose : Bool) (stops : List Token) : Nat → Reader → Option (Node × Reader)
  | 0, _ => none
  | fuel + 1, reader =>
    if reader.stopsAt stops then some (Node.empty, reader) else node? block loose fuel reader

/-- Reads the value after a colon; without a colon there is none. -/
def valueOrEmpty? (block : Bool) (stops : List Token) : Nat → Reader → Option (Node × Reader)
  | 0, _ => none
  | fuel + 1, reader =>
    match reader.tokens with
    | .value :: _ => nodeUnless? block block stops fuel reader.next
    | _ => some (Node.empty, reader)

end

/-- The handles that every document knows. -/
def standardHandles : List (Text × Text) :=
  [("!".toList, "!".toList), ("!!".toList, "tag:yaml.org,2002:".toList)]

/-- Reads the lines before a document: at most one version, which has to be known, and no handle
twice. -/
def preamble? (version : Bool) (handles : List (Text × Text)) :
    List Token → Option (List (Text × Text) × List Token)
  | .version major minor :: rest =>
    if version || major != 1 || !(minor == 1 || minor == 2) then none
    else preamble? true handles rest
  | .tagHandle handle start :: rest =>
    if handles.any fun known => known.1 == handle then none
    else preamble? version ((handle, start) :: handles) rest
  | rest => some (handles, rest)

/-- A bound on the calls that reading so many tokens takes. -/
def callBound (tokens : List Token) : Nat :=
  8 * tokens.length + 16

/-- Reads the one document of the tokens; `none` when there is no document at all. -/
def ofTokens? (tokens : List Token) : Option (Option Node) :=
  match tokens with
  | [] => some none
  | _ => do
    let (handles, rest) ← preamble? false [] tokens
    let explicit := rest.head? == some .documentStart
    if rest.length < tokens.length && !explicit then none
    else
      let body := if explicit then rest.drop 1 else rest
      let reader : Reader := ⟨body, [], handles ++ standardHandles⟩
      let (node, reader) ←
        if explicit && reader.stopsAt [.documentStart, .documentEnd] then some (Node.empty, reader)
        else node? true false (callBound tokens) reader
      if reader.tokens.all (· == .documentEnd) then pure (some node) else none

/-- Reads a text that holds at most one document. -/
def parse? (text : Text) : Option (Option Node) :=
  (tokens? text).bind ofTokens?

end Node

end ShaderBuild.Yaml
