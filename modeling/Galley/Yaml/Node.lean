import Galley.Yaml.Token

/-!
# YAML nodes

The tree that a sequence of tokens stands for. An alias is replaced by the node it names; one
that stands inside its own node has no tree. Aliases can make a small text stand for a huge tree,
so the number of replacements is bounded by a hundred for each node of the text.
-/

namespace Galley.Yaml

/-- A node with its tag, if it has one. Whether a scalar is plain decides what it can mean. -/
inductive Node
  | scalar (tag : Option Text) (plain : Bool) (text : Text)
  | sequence (tag : Option Text) (items : List Node)
  | mapping (tag : Option Text) (pairs : List (Node × Node))
deriving Repr

namespace Node

/-- The node that stands where nothing is written. -/
def empty : Node := .scalar none true []

/-- A node that was given a name. -/
structure Anchored where
  name : Text
  /-- The node, once it is complete, and how many aliases were replaced in it. -/
  node : Option (Node × Nat)
deriving Repr

/-- What reading nodes keeps between two of them. -/
structure Reader where
  tokens : List Token
  /-- The named nodes, in the order in which they begin. -/
  anchors : List Anchored := []
  /-- The prefixes that the handles of tags stand for. -/
  handles : List (Text × Text) := [("!", "!"), ("!!", "tag:yaml.org,2002:")]
  /-- How many nodes begin or end in the text so far. -/
  events : Nat := 0
  /-- How many aliases were replaced so far. -/
  aliases : Nat := 0
deriving Repr

namespace Reader

def next (r : Reader) : Reader := { r with tokens := r.tokens.tail }

/-- Counts the beginning or end of a node. -/
def count (r : Reader) (n : Nat) : Reader := { r with events := r.events + n }

def emptyNode (r : Reader) : Node × Reader := (.empty, r.count 1)

/-- The full form of a tag; `!` alone means no tag in particular. -/
def fullTag? (r : Reader) (handle suffix : Text) : Option Text :=
  if handle.isEmpty then some suffix else (r.handles.lookup handle).map (· ++ suffix)

/-- An anchor and a tag, in either order, each at most once. -/
def properties? (r : Reader) : Option (Option Text × Option Text × Reader) :=
  match r.tokens with
  | .anchor name :: .tag handle suffix :: tokens => do
    some (some name, some (← r.fullTag? handle suffix), { r with tokens })
  | .tag handle suffix :: .anchor name :: tokens => do
    some (some name, some (← r.fullTag? handle suffix), { r with tokens })
  | .anchor name :: tokens => some (some name, none, { r with tokens })
  | .tag handle suffix :: tokens => do
    some (none, some (← r.fullTag? handle suffix), { r with tokens })
  | _ => some (none, none, r)

/-- Begins a named node. -/
def beginAnchor (r : Reader) (name : Option Text) : Reader :=
  match name with
  | none => r
  | some name => { r with anchors := r.anchors ++ [⟨name, none⟩] }

/-- Completes the named node that was begun after `index` others and `aliases` replacements. -/
def endAnchor (r : Reader) (name : Option Text) (index aliases : Nat) (node : Node) : Reader :=
  match name with
  | none => r
  | some name =>
    { r with anchors := r.anchors.set index ⟨name, some (node, r.aliases - aliases)⟩ }

/-- The node that an alias names: the last one begun under the name. -/
def alias? (r : Reader) (name : Text) : Option (Node × Reader) := do
  let anchored ← r.anchors.reverse.find? (·.name = name)
  let (node, aliases) ← anchored.node
  some (node, { (r.count 1) with aliases := r.aliases + aliases + 1 })

/-- Whether a token ends the place where a node of a block may stand. -/
def endsBlockPlace : Option Token → Bool
  | some .key | some .value | some .blockEnd => true
  | _ => false

/-- Whether a token ends the place where a node of a flow mapping may stand. -/
def endsFlowPlace (closing : Token) (t : Option Token) : Bool :=
  t = some .flowEntry || t = some closing

mutual

/-- The node that begins here. A `block` may be a collection in block style; `indentless` admits
the items of a sequence at the indentation of the mapping around it. -/
def node? : Nat → Bool → Bool → Reader → Option (Node × Reader)
  | 0, _, _, _ => none
  | fuel + 1, block, indentless, r =>
    match r.tokens with
    | .alias name :: _ => r.next.alias? name
    | _ => do
      let (name, tag, r) ← r.properties?
      let index := r.anchors.length
      let aliases := r.aliases
      let r := r.beginAnchor name
      let (node, r) ←
        match r.tokens with
        | .blockEntry :: _ =>
          if indentless then do
            let (items, r) ← indentlessItems? fuel r
            some (Node.sequence tag items, r.count 2)
          else none
        | .scalar plain text :: _ =>
          -- The tag `!` alone makes a scalar plain in meaning without naming a type.
          let tag := if tag = some ("!" : Text) then none else tag
          some (Node.scalar tag plain text, r.next.count 1)
        | .flowSequenceStart :: _ => do
          let (items, r) ← flowItems? fuel true r.next
          some (Node.sequence tag items, r.count 2)
        | .flowMappingStart :: _ => do
          let (pairs, r) ← flowPairs? fuel true r.next
          some (Node.mapping tag pairs, r.count 2)
        | .blockSequenceStart :: _ =>
          if block then do
            let (items, r) ← blockItems? fuel r.next
            some (Node.sequence tag items, r.count 2)
          else if name.isSome || tag.isSome then some (Node.scalar tag true [], r.count 1)
          else none
        | .blockMappingStart :: _ =>
          if block then do
            let (pairs, r) ← blockPairs? fuel r.next
            some (Node.mapping tag pairs, r.count 2)
          else if name.isSome || tag.isSome then some (Node.scalar tag true [], r.count 1)
          else none
        | _ =>
          if name.isSome || tag.isSome then some (Node.scalar tag true [], r.count 1) else none
      some (node, r.endAnchor name index aliases node)

def blockItems? : Nat → Reader → Option (List Node × Reader)
  | 0, _ => none
  | fuel + 1, r =>
    match r.tokens with
    | .blockEntry :: tokens => do
      let r := { r with tokens }
      let (item, r) ←
        if tokens.head? = some .blockEntry || tokens.head? = some .blockEnd then
          some r.emptyNode
        else node? fuel true false r
      let (items, r) ← blockItems? fuel r
      some (item :: items, r)
    | .blockEnd :: tokens => some ([], { r with tokens })
    | _ => none

/-- The items of a sequence that has no indentation of its own. -/
def indentlessItems? : Nat → Reader → Option (List Node × Reader)
  | 0, _ => none
  | fuel + 1, r =>
    match r.tokens with
    | .blockEntry :: tokens => do
      let r := { r with tokens }
      let (item, r) ←
        if tokens.head? = some .blockEntry || endsBlockPlace tokens.head? then some r.emptyNode
        else node? fuel true false r
      let (items, r) ← indentlessItems? fuel r
      some (item :: items, r)
    | _ => some ([], r)

def blockPairs? : Nat → Reader → Option (List (Node × Node) × Reader)
  | 0, _ => none
  | fuel + 1, r =>
    match r.tokens with
    | .key :: tokens => do
      let r := { r with tokens }
      let (key, r) ←
        if endsBlockPlace tokens.head? then some r.emptyNode else node? fuel true true r
      let (value, r) ← blockValue? fuel r
      let (pairs, r) ← blockPairs? fuel r
      some ((key, value) :: pairs, r)
    | .blockEnd :: tokens => some ([], { r with tokens })
    | _ => none

/-- The value of a pair in block style; it may be missing. -/
def blockValue? : Nat → Reader → Option (Node × Reader)
  | 0, _ => none
  | fuel + 1, r =>
    match r.tokens with
    | .value :: tokens =>
      let r := { r with tokens }
      if endsBlockPlace tokens.head? then some r.emptyNode else node? fuel true true r
    | _ => some r.emptyNode

def flowItems? : Nat → Bool → Reader → Option (List Node × Reader)
  | 0, _, _ => none
  | fuel + 1, first, r =>
    match r.tokens with
    | .flowSequenceEnd :: tokens => some ([], { r with tokens })
    | _ => do
      let r ←
        if first then some r
        else if r.tokens.head? = some .flowEntry then some r.next
        else none
      match r.tokens with
      | .flowSequenceEnd :: tokens => some ([], { r with tokens })
      | .key :: tokens => do
        let r := { r with tokens }
        -- A pair stands for a mapping of its own.
        let (key, r) ←
          if tokens.head? = some .value || endsFlowPlace .flowSequenceEnd tokens.head? then
            some r.next.emptyNode
          else node? fuel false false r
        let (value, r) ← flowValue? fuel .flowSequenceEnd r
        let (items, r) ← flowItems? fuel false (r.count 2)
        some (.mapping none [(key, value)] :: items, r)
      | _ => do
        let (item, r) ← node? fuel false false r
        let (items, r) ← flowItems? fuel false r
        some (item :: items, r)

def flowPairs? : Nat → Bool → Reader → Option (List (Node × Node) × Reader)
  | 0, _, _ => none
  | fuel + 1, first, r =>
    match r.tokens with
    | .flowMappingEnd :: tokens => some ([], { r with tokens })
    | _ => do
      let r ←
        if first then some r
        else if r.tokens.head? = some .flowEntry then some r.next
        else none
      match r.tokens with
      | .flowMappingEnd :: tokens => some ([], { r with tokens })
      | .key :: tokens => do
        let r := { r with tokens }
        let (key, r) ←
          if tokens.head? = some .value || endsFlowPlace .flowMappingEnd tokens.head? then
            some r.emptyNode
          else node? fuel false false r
        let (value, r) ← flowValue? fuel .flowMappingEnd r
        let (pairs, r) ← flowPairs? fuel false r
        some ((key, value) :: pairs, r)
      | _ => do
        let (key, r) ← node? fuel false false r
        let (value, r) := r.emptyNode
        let (pairs, r) ← flowPairs? fuel false r
        some ((key, value) :: pairs, r)

def flowValue? : Nat → Token → Reader → Option (Node × Reader)
  | 0, _, _ => none
  | fuel + 1, closing, r =>
    match r.tokens with
    | .value :: tokens =>
      let r := { r with tokens }
      if endsFlowPlace closing tokens.head? then some r.emptyNode
      else node? fuel false false r
    | _ => some r.emptyNode

end

/-- The directives before a document, of which only versions 1.1 and 1.2 are admitted. -/
def directives? : List Token → Bool → Reader → Option (Bool × Reader)
  | .versionDirective major minor :: tokens, versioned, r =>
    if versioned || major ≠ 1 || !(minor = 1 || minor = 2) then none
    else directives? tokens true { r with tokens }
  | .tagDirective handle stem :: tokens, versioned, r =>
    if (r.handles.drop 2).any (·.1 = handle) then none
    else directives? tokens versioned { r with tokens, handles := r.handles ++ [(handle, stem)] }
  | _, versioned, r => some (versioned, r)

/-- The handles with those of directives before the defaults that they replace. -/
def settleHandles (r : Reader) : Reader :=
  { r with handles := r.handles.drop 2 ++ r.handles.take 2 }

def content? (fuel : Nat) (r : Reader) : Option (Node × Reader) :=
  match r.tokens with
  | [] | .documentStart :: _ | .documentEnd :: _ | .versionDirective _ _ :: _
  | .tagDirective _ _ :: _ => some r.emptyNode
  | _ => node? fuel true false r

end Reader

/-- The single document of a sequence of tokens; without any content it is the empty node. -/
def ofTokens? (tokens : List Token) : Option Node := do
  -- Each call reads a token or passes to a call that does.
  let fuel := 3 * tokens.length + 3
  let r : Reader := { tokens }
  let (node, r) ←
    match tokens with
    | [] => some r.emptyNode
    | .documentStart :: _ | .versionDirective _ _ :: _ | .tagDirective _ _ :: _ => do
      let (_, r) ← Reader.directives? tokens false r
      match r.tokens with
      | .documentStart :: _ => r.next.settleHandles.content? fuel
      | _ => none
    | _ => Reader.node? fuel true false r
  let rest :=
    match r.tokens with
    | .documentEnd :: tokens => tokens.dropWhile (· = Token.documentEnd)
    | tokens => tokens
  if rest.isEmpty && r.aliases ≤ 100 * r.events then some node else none

end Node

end Galley.Yaml
