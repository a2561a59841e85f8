import Commonplace.Yaml.Token

namespace Commonplace
namespace Yaml

/-!
# Nodes

The tokens of a document are put together to a tree.  A place where a node may stand but none is
written holds an empty plain scalar.  Aliases stay in the tree; the anchors that they name are
collected beside it.
-/

/-- A node of a document. -/
inductive Node where
  | alias (target : Nat)
  | scalar (tag : Option (List Char)) (text : List Char) (isPlain : Bool)
  | sequence (tag : Option (List Char)) (items : List Node)
  | mapping (tag : Option (List Char)) (entries : List (Node × Node))
  deriving Inhabited

/-- A node with an anchor: its target number and the number of events before it. -/
structure Anchored where
  target : Nat
  position : Nat
  node : Node

/-- What remains to be read, and what is known about anchors. -/
structure Parsing where
  tokens : List Token
  tagRules : List (List Char × List Char)
  /-- The target number of every anchor name. -/
  names : List (List Char × Nat)
  anchored : List Anchored
  /-- The number of events so far: one for a scalar or an alias, two for a collection. -/
  events : Nat

abbrev Step (result : Type) :=
  StateT Parsing Option result

/-- The next token, which stays where it is. -/
def next : Step (Option Token) := do
  return (<- get).tokens.head?

def drop : Step Unit :=
  modify fun state => { state with tokens := state.tokens.drop 1 }

/-- Whether the next token is one of some tokens; the end of the text counts as well. -/
def nextIsOneOf (tokens : List Token) : Step Bool := do
  match <- next with
  | some token => return tokens.contains token
  | none => return true

def countEvents (count : Nat) : Step Unit :=
  modify fun state => { state with events := state.events + count }

/-- The empty scalar that stands where nothing is written. -/
def emptyScalar : Step Node := do
  countEvents 1
  return .scalar none [] true

/-- The tag that a handle and a content stand for. -/
def fullTag (handle content : List Char) : Step (List Char) := do
  if handle.isEmpty then return content
  else
    match (<- get).tagRules.find? fun rule => rule.1 == handle with
    | some rule => return rule.2 ++ content
    | none => failure

/-- The anchor and the tag in front of a node. -/
structure Properties where
  anchor : Option (List Char)
  tag : Option (List Char)

def readAnchor : Step (Option (List Char)) := do
  match <- next with
  | some (.anchor name) =>
      drop
      return some name
  | _ => return none

def readNodeTag : Step (Option (List Char × List Char)) := do
  match <- next with
  | some (.tag handle content) =>
      drop
      return some (handle, content)
  | _ => return none

/-- Reads an anchor and a tag, in either order. -/
def readProperties : Step Properties := do
  let before <- readAnchor
  let written <- readNodeTag
  let after <- if before.isNone && written.isSome then readAnchor else pure none
  let tag <-
    match written with
    | some (handle, content) => (fullTag handle content).map some
    | none => pure none
  return ⟨before.or after, tag⟩

/-- The target number for an anchor, which is noted.  A name that is used again gets a number
beyond those of all names. -/
def noteAnchor (anchor : Option (List Char)) : Step (Option (Nat × Nat)) := do
  match anchor with
  | none => return none
  | some name =>
      let state <- get
      let target := state.names.length
      let others := state.names.filter fun entry => entry.1 != name
      set { state with names := (name, target) :: others }
      return some (target, state.events)

def keepAnchored (noted : Option (Nat × Nat)) (node : Node) : Step Node := do
  match noted with
  | none => return node
  | some (target, position) =>
      modify fun state =>
        { state with anchored := ⟨target, position, node⟩ :: state.anchored }
      return node

/-- The tag of a scalar: the mark that says only that it is not plain text is no tag. -/
def scalarTag (tag : Option (List Char)) : Option (List Char) :=
  if tag == some ['!'] then none else tag

/-- Drops the separator in front of an item of a flow collection, except the first. -/
def dropSeparator (first : Bool) : Step Unit := do
  if first then return ()
  else
    match <- next with
    | some .flowEntry => drop
    | _ => failure

mutual

/-- Reads a node.  Blocks, and items of a sequence that are not indented, are not possible
everywhere. -/
def readNode : Nat -> (inBlock bareItems : Bool) -> Step Node
  | 0, _, _ => failure
  | budget + 1, inBlock, bareItems => do
      match <- next with
      | some (.alias name) =>
          drop
          countEvents 1
          match (<- get).names.find? fun entry => entry.1 == name with
          | some entry => return .alias entry.2
          | none => failure
      | _ =>
          let properties <- readProperties
          let hasProperties := properties.anchor.isSome || properties.tag.isSome
          let noted <- noteAnchor properties.anchor
          match <- next with
          | some .blockEntry =>
              if bareItems then
                countEvents 2
                let items <- readBareItems budget
                keepAnchored noted (.sequence properties.tag items)
              else if hasProperties then
                countEvents 1
                keepAnchored noted (.scalar properties.tag [] true)
              else failure
          | some (.scalar text isPlain) =>
              drop
              countEvents 1
              keepAnchored noted (.scalar (scalarTag properties.tag) text isPlain)
          | some .flowSequence =>
              drop
              countEvents 2
              let items <- readFlowItems budget true
              keepAnchored noted (.sequence properties.tag items)
          | some .flowMapping =>
              drop
              countEvents 2
              let entries <- readFlowEntries budget true
              keepAnchored noted (.mapping properties.tag entries)
          | token =>
              if inBlock && token == some .blockSequence then
                drop
                countEvents 2
                let items <- readBlockItems budget
                keepAnchored noted (.sequence properties.tag items)
              else if inBlock && token == some .blockMapping then
                drop
                countEvents 2
                let entries <- readBlockEntries budget
                keepAnchored noted (.mapping properties.tag entries)
              else if hasProperties then
                countEvents 1
                keepAnchored noted (.scalar properties.tag [] true)
              else failure

def readBlockItems : Nat -> Step (List Node)
  | 0 => failure
  | budget + 1 => do
      match <- next with
      | some .blockEntry =>
          drop
          let item <-
            if <- nextIsOneOf [.blockEntry, .blockEnd] then emptyScalar
            else readNode budget true false
          let items <- readBlockItems budget
          return item :: items
      | some .blockEnd =>
          drop
          return []
      | _ => failure

/-- Reads the items of a sequence that is not indented. -/
def readBareItems : Nat -> Step (List Node)
  | 0 => failure
  | budget + 1 => do
      match <- next with
      | some .blockEntry =>
          drop
          let item <-
            if <- nextIsOneOf [.blockEntry, .key, .value, .blockEnd] then emptyScalar
            else readNode budget true false
          let items <- readBareItems budget
          return item :: items
      | _ => return []

def readBlockEntries : Nat -> Step (List (Node × Node))
  | 0 => failure
  | budget + 1 => do
      match <- next with
      | some .key =>
          drop
          let key <-
            if <- nextIsOneOf [.key, .value, .blockEnd] then emptyScalar
            else readNode budget true true
          let value <- readBlockValue budget
          let entries <- readBlockEntries budget
          return (key, value) :: entries
      | some .blockEnd =>
          drop
          return []
      | _ => failure

def readBlockValue : Nat -> Step Node
  | 0 => failure
  | budget + 1 => do
      match <- next with
      | some .value =>
          drop
          if <- nextIsOneOf [.key, .value, .blockEnd] then emptyScalar
          else readNode budget true true
      | _ => emptyScalar

def readFlowItems : Nat -> (first : Bool) -> Step (List Node)
  | 0, _ => failure
  | budget + 1, first => do
      match <- next with
      | some .flowSequenceEnd =>
          drop
          return []
      | _ =>
          dropSeparator first
          match <- next with
          | some .flowSequenceEnd =>
              drop
              return []
          | some .key =>
              drop
              let entry <- readSinglePair budget
              let items <- readFlowItems budget false
              return .mapping none [entry] :: items
          | _ =>
              let item <- readNode budget false false
              let items <- readFlowItems budget false
              return item :: items

/-- Reads a key and a value that are an item of a flow sequence.  Where the key is missing, the
token in its place is dropped. -/
def readSinglePair : Nat -> Step (Node × Node)
  | 0 => failure
  | budget + 1 => do
      countEvents 2
      let key <-
        if <- nextIsOneOf [.value, .flowEntry, .flowSequenceEnd] then do
          drop
          emptyScalar
        else readNode budget false false
      match <- next with
      | some .value =>
          drop
          let value <-
            if <- nextIsOneOf [.flowEntry, .flowSequenceEnd] then emptyScalar
            else readNode budget false false
          return (key, value)
      | _ =>
          let value <- emptyScalar
          return (key, value)

def readFlowEntries : Nat -> (first : Bool) -> Step (List (Node × Node))
  | 0, _ => failure
  | budget + 1, first => do
      match <- next with
      | some .flowMappingEnd =>
          drop
          return []
      | _ =>
          dropSeparator first
          match <- next with
          | some .flowMappingEnd =>
              drop
              return []
          | some .key =>
              drop
              let key <-
                if <- nextIsOneOf [.value, .flowEntry, .flowMappingEnd] then emptyScalar
                else readNode budget false false
              let value <- readFlowValue budget
              let entries <- readFlowEntries budget false
              return (key, value) :: entries
          | _ =>
              let key <- readNode budget false false
              let value <- emptyScalar
              let entries <- readFlowEntries budget false
              return (key, value) :: entries

def readFlowValue : Nat -> Step Node
  | 0 => failure
  | budget + 1 => do
      match <- next with
      | some .value =>
          drop
          if <- nextIsOneOf [.flowEntry, .flowMappingEnd] then emptyScalar
          else readNode budget false false
      | _ => emptyScalar

end

/-- The handles that stand for something in every document. -/
def standardTagRules : List (List Char × List Char) :=
  [(['!'], ['!']), (['!', '!'], "tag:yaml.org,2002:".toList)]

def readDirectives (versions : Nat) (rules : List (List Char × List Char)) :
    List Token -> Option (Bool × List (List Char × List Char) × List Token)
  | .version major minor :: rest =>
      if versions != 0 || major != 1 || (minor != 1 && minor != 2) then none
      else (readDirectives 1 rules rest).map fun found => (true, found.2)
  | .tagRule handle content :: rest =>
      if rules.any fun rule => rule.1 == handle then none
      else
        (readDirectives versions (rules ++ [(handle, content)]) rest).map fun found =>
          (true, found.2)
  | rest => some (false, rules, rest)

/-- A document: its tree, its anchored nodes and the number of its events. -/
structure Document where
  root : Node
  anchored : List Anchored
  events : Nat

def readRoot (explicit : Bool) (budget : Nat) : Step Node := do
  if explicit then
    match <- next with
    | some (.version _ _) | some (.tagRule _ _) | some .documentStart | some .documentEnd | none =>
        emptyScalar
    | _ => readNode budget true false
  else readNode budget true false

/-- Reads the only document of a text.  A text without a document is refused. -/
def documentOf (tokens : List Token) : Option Document := do
  let (directed, rules, rest) <- readDirectives 0 [] tokens
  let explicit := rest.head? == some .documentStart
  if rest.isEmpty || (directed && !explicit) then none
  else
    let start : Parsing :=
      ⟨if explicit then rest.drop 1 else rest, rules ++ standardTagRules, [], [], 0⟩
    let (root, state) <- (readRoot explicit (4 * tokens.length + 8)).run start
    if (state.tokens.dropWhile fun token => token == .documentEnd).isEmpty then
      some ⟨root, state.anchored, state.events⟩
    else none

end Yaml
end Commonplace
