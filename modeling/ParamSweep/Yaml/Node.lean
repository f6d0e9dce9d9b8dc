import ParamSweep.Yaml.Token

/-!
The nodes of a YAML document, and the grammar that builds them from tokens.

Every reader takes the tokens that are left and gives back those it has not used. A document is one
node; the text may hold no second document.
-/

namespace ParamSweep.Yaml

/-- What may be written before a node. -/
structure Properties where
  anchor : Option String := none
  tag : Option String := none
  deriving Inhabited

/-- A node as written. -/
inductive Node where
  | alias (name : String)
  | scalar (properties : Properties) (plain : Bool) (text : String)
  | sequence (properties : Properties) (items : List Node)
  | mapping (properties : Properties) (pairs : List (Node × Node))
  deriving Inhabited

namespace Node

/-- The node that stands where nothing is written. -/
def empty : Node := .scalar {} true ""

/-- The tag handles of a document and what they stand for. -/
abbrev Handles := List (String × String)

/-- The handles that every document has. -/
def defaultHandles : Handles := [("!", "!"), ("!!", "tag:yaml.org,2002:")]

/-- The full text of a tag. -/
def tagText? (handles : Handles) (handle suffix : String) : Option String :=
  if handle = "" then some suffix else (handles.lookup handle).map (· ++ suffix)

/-- The anchor and the tag before a node, in either order. -/
def properties? (handles : Handles) : List Token → Option (Properties × List Token)
  | .anchor a :: .tag h s :: rest => (tagText? handles h s).map fun t => (⟨some a, some t⟩, rest)
  | .tag h s :: .anchor a :: rest => (tagText? handles h s).map fun t => (⟨some a, some t⟩, rest)
  | .anchor a :: rest => some (⟨some a, none⟩, rest)
  | .tag h s :: rest => (tagText? handles h s).map fun t => (⟨none, some t⟩, rest)
  | rest => some ({}, rest)

/-- A scalar with its properties; the tag `!` of a scalar says nothing. -/
def ofScalar (p : Properties) (plain : Bool) (text : String) : Node :=
  .scalar (if p.tag = some "!" then { p with tag := none } else p) plain text

/-- Whether the entry of a block has no node: the next token starts another entry or ends it. -/
def endsBlockEntry : List Token → Bool
  | .key :: _ => true
  | .value :: _ => true
  | .blockEnd :: _ => true
  | [] => true
  | _ => false

mutual

/-- A node. In a `block` block collections may follow; `indentless` admits the entries of a
sequence without a block of their own. -/
def read (handles : Handles) : Nat → Bool → Bool → List Token → Option (Node × List Token)
  | 0, _, _, _ => none
  | fuel + 1, block, indentless, ts =>
    match ts with
    | .alias name :: rest => some (.alias name, rest)
    | _ => do
      let (p, rest) ← properties? handles ts
      match rest with
      | .scalar plain text :: rest => some (ofScalar p plain text, rest)
      | .flowSequenceStart :: rest => do
        let (items, rest) ← flowItems handles fuel true rest
        some (.sequence p items, rest)
      | .flowMappingStart :: rest => do
        let (pairs, rest) ← flowPairs handles fuel true rest
        some (.mapping p pairs, rest)
      | .blockEntry :: _ =>
        if indentless then do
          let (items, rest) ← looseItems handles fuel rest
          some (.sequence p items, rest)
        else bare p rest
      | .blockSequenceStart :: rest' =>
        if block then do
          let (items, rest) ← blockItems handles fuel rest'
          some (.sequence p items, rest)
        else bare p rest
      | .blockMappingStart :: rest' =>
        if block then do
          let (pairs, rest) ← blockPairs handles fuel rest'
          some (.mapping p pairs, rest)
        else bare p rest
      | rest => bare p rest

/-- The entries of a block sequence, and its end. -/
def blockItems (handles : Handles) : Nat → List Token → Option (List Node × List Token)
  | 0, _ => none
  | fuel + 1, .blockEntry :: rest => do
    let (item, rest) ←
      match rest with
      | .blockEntry :: _ => some (Node.empty, rest)
      | .blockEnd :: _ => some (Node.empty, rest)
      | _ => read handles fuel true false rest
    let (items, rest) ← blockItems handles fuel rest
    some (item :: items, rest)
  | _ + 1, .blockEnd :: rest => some ([], rest)
  | _ + 1, _ => none

/-- The entries of a sequence that has no block of its own. -/
def looseItems (handles : Handles) : Nat → List Token → Option (List Node × List Token)
  | 0, _ => none
  | fuel + 1, .blockEntry :: rest => do
    let (item, rest) ←
      match rest with
      | .blockEntry :: _ => some (Node.empty, rest)
      | _ =>
        if endsBlockEntry rest then some (Node.empty, rest) else read handles fuel true false rest
    let (items, rest) ← looseItems handles fuel rest
    some (item :: items, rest)
  | _ + 1, rest => some ([], rest)

/-- The pairs of a block mapping, and its end. -/
def blockPairs (handles : Handles) :
    Nat → List Token → Option (List (Node × Node) × List Token)
  | 0, _ => none
  | fuel + 1, .key :: rest => do
    let (key, rest) ←
      if endsBlockEntry rest then some (Node.empty, rest) else read handles fuel true true rest
    let (value, rest) ←
      match rest with
      | .value :: rest =>
        if endsBlockEntry rest then some (Node.empty, rest) else read handles fuel true true rest
      | _ => some (Node.empty, rest)
    let (pairs, rest) ← blockPairs handles fuel rest
    some ((key, value) :: pairs, rest)
  | _ + 1, .blockEnd :: rest => some ([], rest)
  | _ + 1, _ => none

/-- The items of a sequence in brackets, and the closing bracket. -/
def flowItems (handles : Handles) : Nat → Bool → List Token → Option (List Node × List Token)
  | 0, _, _ => none
  | _ + 1, _, .flowSequenceEnd :: rest => some ([], rest)
  | fuel + 1, first, ts => do
    let ts ←
      match first, ts with
      | true, ts => some ts
      | false, .flowEntry :: rest => some rest
      | false, _ => none
    match ts with
    | .flowSequenceEnd :: rest => some ([], rest)
    | .key :: rest => do
      let (pair, rest) ← flowPair handles fuel rest
      let (items, rest) ← flowItems handles fuel false rest
      some (.mapping {} [pair] :: items, rest)
    | ts => do
      let (item, rest) ← read handles fuel false false ts
      let (items, rest) ← flowItems handles fuel false rest
      some (item :: items, rest)

/-- A pair inside a sequence in brackets. Where its key is missing, the token that shows so is
passed over. -/
def flowPair (handles : Handles) : Nat → List Token → Option ((Node × Node) × List Token)
  | 0, _ => none
  | fuel + 1, ts => do
    let (key, rest) ←
      match ts with
      | .value :: rest => some (Node.empty, rest)
      | .flowEntry :: rest => some (Node.empty, rest)
      | .flowSequenceEnd :: rest => some (Node.empty, rest)
      | ts => read handles fuel false false ts
    match rest with
    | .value :: .flowEntry :: _ => some ((key, Node.empty), rest.tail)
    | .value :: .flowSequenceEnd :: _ => some ((key, Node.empty), rest.tail)
    | .value :: rest => do
      let (value, rest) ← read handles fuel false false rest
      some ((key, value), rest)
    | rest => some ((key, Node.empty), rest)

/-- The pairs of a mapping in braces, and the closing brace. -/
def flowPairs (handles : Handles) :
    Nat → Bool → List Token → Option (List (Node × Node) × List Token)
  | 0, _, _ => none
  | _ + 1, _, .flowMappingEnd :: rest => some ([], rest)
  | fuel + 1, first, ts => do
    let ts ←
      match first, ts with
      | true, ts => some ts
      | false, .flowEntry :: rest => some rest
      | false, _ => none
    match ts with
    | .flowMappingEnd :: rest => some ([], rest)
    | .key :: rest => do
      let (key, rest) ←
        match rest with
        | .value :: _ => some (Node.empty, rest)
        | .flowEntry :: _ => some (Node.empty, rest)
        | .flowMappingEnd :: _ => some (Node.empty, rest)
        | _ => read handles fuel false false rest
      let (value, rest) ←
        match rest with
        | .value :: .flowEntry :: _ => some (Node.empty, rest.tail)
        | .value :: .flowMappingEnd :: _ => some (Node.empty, rest.tail)
        | .value :: rest => read handles fuel false false rest
        | rest => some (Node.empty, rest)
      let (pairs, rest) ← flowPairs handles fuel false rest
      some ((key, value) :: pairs, rest)
    | ts => do
      let (key, rest) ← read handles fuel false false ts
      let (pairs, rest) ← flowPairs handles fuel false rest
      some ((key, Node.empty) :: pairs, rest)

/-- A node of which only properties are written; there has to be one, and a tag keeps its meaning. -/
def bare (p : Properties) (rest : List Token) : Option (Node × List Token) :=
  if p.anchor.isSome || p.tag.isSome then some (.scalar p true "", rest) else none

end

/-- The directives before a document: whether a version was named, the handles, and the rest. -/
def directives? (versioned : Bool) (handles : Handles) :
    List Token → Option (Handles × List Token)
  | .version major minor :: rest =>
    if versioned || major ≠ 1 || !(minor = 1 || minor = 2) then none
    else directives? true handles rest
  | .tagDirective handle text :: rest =>
    if handles.any (·.1 == handle) then none
    else directives? versioned (handles ++ [(handle, text)]) rest
  | rest => some (handles, rest)

/-- The content of a document after its start mark. -/
def content (handles : Handles) (ts : List Token) : Option (Node × List Token) :=
  match ts with
  | [] => some (Node.empty, [])
  | .documentEnd :: _ => some (Node.empty, ts)
  | .documentStart :: _ => none
  | .version _ _ :: _ => none
  | .tagDirective _ _ :: _ => none
  | _ => read handles (4 * ts.length + 4) true false ts

/-- The one document of a text; `none` inside when there is not even that. -/
def ofTokens? (ts : List Token) : Option (Option Node) := do
  let (own, rest) ← directives? false [] ts
  -- the directives of the document come before the handles that every document has
  let handles := own ++ defaultHandles
  let directed := rest.length < ts.length
  match rest with
  | .documentStart :: rest => do
    let (n, rest) ← content handles rest
    if rest.all (· = .documentEnd) then some (some n) else none
  | [] => if directed then none else some none
  | _ =>
    if directed then none
    else do
      let (n, rest) ← read handles (4 * rest.length + 4) true false rest
      if rest.all (· = .documentEnd) then some (some n) else none

end Node

end ParamSweep.Yaml
