import StaticSite.Yaml.Tag
import StaticSite.Yaml.Token

/-!
# YAML nodes

`Document.ofTokens?` makes the one document of a text a tree of tagged scalars, sequences and mappings. A
collection with an anchor is kept apart, and an alias stands wherever it belongs, so that a collection may
hold itself.
-/

namespace StaticSite.Yaml

inductive Node where
  | scalar (tag : Tag) (text : String)
  | sequence (tag : Tag) (items : List Node)
  | mapping (tag : Tag) (entries : List (Node × Node))
  /-- The collection with this anchor. -/
  | alias (name : String)

/-- What is left of a document, with the tag handles and the anchors known so far. -/
structure Source where
  tokens : List Token
  handles : List (String × String)
  /-- The anchored nodes; none while a node is being read. -/
  anchors : List (String × Option Node) := []

namespace Source

def empty : Node := .scalar .null ""

/-- The tag written before a node; `!` alone asks for the tag that the text gives. -/
inductive TagMark where
  | none
  | plain
  | given (tag : Tag)

def resolveTag (s : Source) : Option String → String → Except Fault TagMark
  | .none, "!" => .ok .plain
  | .none, uri => .ok (.given (.ofUri uri))
  | some handle, suffix => match s.handles.lookup handle with
    | some lead =>
      if lead ++ suffix = "!" then .ok .plain else .ok (.given (.ofUri (lead ++ suffix)))
    | .none => .error .notYaml

def TagMark.orElse (mark : TagMark) (tag : Tag) : Tag :=
  match mark with
  | .given tag => tag
  | _ => tag

def scalarTag (mark : TagMark) (plain : Bool) (text : String) : Tag :=
  match mark with
  | .given tag => tag
  | .plain => .ofPlain text
  | .none => if plain then .ofPlain text else .text

/-- The anchor and the tag before a node, in either order. -/
def properties (s : Source) : Except Fault ((Option String × TagMark) × Source) :=
  match s.tokens with
  | .anchor name :: .tag handle suffix :: rest => do
    return ((some name, ← s.resolveTag handle suffix), { s with tokens := rest })
  | .tag handle suffix :: .anchor name :: rest => do
    return ((some name, ← s.resolveTag handle suffix), { s with tokens := rest })
  | .anchor name :: rest => .ok ((some name, .none), { s with tokens := rest })
  | .tag handle suffix :: rest => do
    return ((.none, ← s.resolveTag handle suffix), { s with tokens := rest })
  | _ => .ok ((.none, .none), s)

def openAnchor (s : Source) : Option String → Except Fault Source
  | .none => .ok s
  | some name =>
    if s.anchors.any (·.1 == name) then .error .notYaml
    else .ok { s with anchors := (name, .none) :: s.anchors }

/-- A node as it stands in its place. -/
def placed (name : String) : Node → Node
  | .scalar tag text => .scalar tag text
  | _ => .alias name

def closeAnchor (s : Source) (node : Node) : Option String → Node × Source
  | .none => (node, s)
  | some name =>
    (placed name node, { s with anchors := (name, some node) :: s.anchors.filter (·.1 ≠ name) })

/-- The next token ends a value that may be missing. -/
def endsBlockValue : List Token → Bool
  | .key :: _ => true
  | .value :: _ => true
  | .blockEnd :: _ => true
  | _ => false

def endsItem : List Token → Bool
  | .blockEntry :: _ => true
  | tokens => endsBlockValue tokens

def endsBlockItem : List Token → Bool
  | .blockEntry :: _ => true
  | .blockEnd :: _ => true
  | _ => false

def endsFlowValue (close : Token) : List Token → Bool
  | .flowEntry :: _ => true
  | token :: _ => token == close
  | [] => false

def endsFlowKey (close : Token) : List Token → Bool
  | .value :: _ => true
  | tokens => endsFlowValue close tokens

/-- The comma between items, unless this is the first one. -/
def skipComma (first : Bool) (s : Source) : Except Fault Source :=
  if first then .ok s
  else match s.tokens with
    | .flowEntry :: rest => .ok { s with tokens := rest }
    | _ => .error .notYaml

mutual

/-- A node; `block` allows blocks, `indentless` a sequence that is not indented. The first argument bounds
the steps. -/
def node : Nat → Bool → Bool → Source → Except Fault (Node × Source)
  | 0, _, _, _ => .error .notYaml
  | n + 1, block, indentless, s =>
    match s.tokens with
    | .alias name :: rest => match s.anchors.lookup name with
      | some (some node) => .ok (placed name node, { s with tokens := rest })
      | some none => .ok (.alias name, { s with tokens := rest })
      | none => .error .notYaml
    | _ => do
      let ((anchor, mark), s') ← s.properties
      let bare := s'.tokens.length == s.tokens.length
      let s ← s'.openAnchor anchor
      let (node, s) ← content n block indentless bare mark s
      return s.closeAnchor node anchor

/-- A node after its anchor and tag; it may be missing only after one of them. -/
def content : Nat → Bool → Bool → Bool → TagMark → Source → Except Fault (Node × Source)
  | 0, _, _, _, _, _ => .error .notYaml
  | n + 1, block, indentless, bare, mark, s =>
    let missing : Except Fault (Node × Source) :=
      if bare then .error .notYaml else .ok (.scalar (scalarTag mark true "") "", s)
    match s.tokens with
    | .blockEntry :: _ =>
      if indentless then do
        let (items, s) ← indentlessItems n [] s
        return (.sequence (mark.orElse .sequence) items, s)
      else missing
    | .scalar plain text :: rest =>
      .ok (.scalar (scalarTag mark plain text) text, { s with tokens := rest })
    | .flowSequence :: rest => do
      let (items, s) ← flowItems n true [] { s with tokens := rest }
      return (.sequence (mark.orElse .sequence) items, s)
    | .flowMapping :: rest => do
      let (entries, s) ← flowEntries n true [] { s with tokens := rest }
      return (.mapping (mark.orElse .mapping) entries, s)
    | .blockSequence :: rest =>
      if block then do
        let (items, s) ← blockItems n [] { s with tokens := rest }
        return (.sequence (mark.orElse .sequence) items, s)
      else missing
    | .blockMapping :: rest =>
      if block then do
        let (entries, s) ← blockEntries n [] { s with tokens := rest }
        return (.mapping (mark.orElse .mapping) entries, s)
      else missing
    | _ => missing

def indentlessItems : Nat → List Node → Source → Except Fault (List Node × Source)
  | 0, _, _ => .error .notYaml
  | n + 1, before, s =>
    match s.tokens with
    | .blockEntry :: rest =>
      let s := { s with tokens := rest }
      if endsItem rest then indentlessItems n (empty :: before) s
      else do
        let (item, s) ← node n true false s
        indentlessItems n (item :: before) s
    | _ => .ok (before.reverse, s)

def blockItems : Nat → List Node → Source → Except Fault (List Node × Source)
  | 0, _, _ => .error .notYaml
  | n + 1, before, s =>
    match s.tokens with
    | .blockEntry :: rest =>
      let s := { s with tokens := rest }
      if endsBlockItem rest then blockItems n (empty :: before) s
      else do
        let (item, s) ← node n true false s
        blockItems n (item :: before) s
    | .blockEnd :: rest => .ok (before.reverse, { s with tokens := rest })
    | _ => .error .notYaml

def blockEntries : Nat → List (Node × Node) → Source → Except Fault (List (Node × Node) × Source)
  | 0, _, _ => .error .notYaml
  | n + 1, before, s =>
    match s.tokens with
    | .key :: rest => do
      let s := { s with tokens := rest }
      let (key, s) ← if endsBlockValue rest then pure (empty, s) else node n true true s
      let (v, s) ← blockValue n s
      blockEntries n ((key, v) :: before) s
    | .blockEnd :: rest => .ok (before.reverse, { s with tokens := rest })
    | _ => .error .notYaml

/-- The value of an entry of a block. -/
def blockValue : Nat → Source → Except Fault (Node × Source)
  | 0, _ => .error .notYaml
  | n + 1, s =>
    match s.tokens with
    | .value :: rest =>
      let s := { s with tokens := rest }
      if endsBlockValue rest then .ok (empty, s) else node n true true s
    | _ => .ok (empty, s)

def flowItems : Nat → Bool → List Node → Source → Except Fault (List Node × Source)
  | 0, _, _, _ => .error .notYaml
  | n + 1, first, before, s =>
    match s.tokens with
    | .flowSequenceEnd :: rest => .ok (before.reverse, { s with tokens := rest })
    | _ => do
      let s ← skipComma first s
      match s.tokens with
      | .key :: rest => do
        let s := { s with tokens := rest }
        let (key, s) ←
          if endsFlowKey .flowSequenceEnd rest then pure (empty, s) else node n false false s
        let (v, s) ← flowValue n .flowSequenceEnd s
        flowItems n false (.mapping .mapping [(key, v)] :: before) s
      | .flowSequenceEnd :: rest => return (before.reverse, { s with tokens := rest })
      | _ => do
        let (item, s) ← node n false false s
        flowItems n false (item :: before) s

def flowEntries : Nat → Bool → List (Node × Node) → Source → Except Fault (List (Node × Node) × Source)
  | 0, _, _, _ => .error .notYaml
  | n + 1, first, before, s =>
    match s.tokens with
    | .flowMappingEnd :: rest => .ok (before.reverse, { s with tokens := rest })
    | _ => do
      let s ← skipComma first s
      match s.tokens with
      | .key :: rest => do
        let s := { s with tokens := rest }
        let (key, s) ←
          if endsFlowKey .flowMappingEnd rest then pure (empty, s) else node n false false s
        let (v, s) ← flowValue n .flowMappingEnd s
        flowEntries n false ((key, v) :: before) s
      | .flowMappingEnd :: rest => return (before.reverse, { s with tokens := rest })
      | _ => do
        let (key, s) ← node n false false s
        flowEntries n false ((key, empty) :: before) s

/-- The value of an entry in brackets that `close` closes. -/
def flowValue : Nat → Token → Source → Except Fault (Node × Source)
  | 0, _, _ => .error .notYaml
  | n + 1, close, s =>
    match s.tokens with
    | .value :: rest =>
      let s := { s with tokens := rest }
      if endsFlowValue close rest then .ok (empty, s) else node n false false s
    | _ => .ok (empty, s)

end

/-! ## Documents -/

def defaultHandles : List (String × String) := [("!", "!"), ("!!", Tag.space)]

/-- The directives before a document; a handle and the version are declared once at most. -/
def directives (versioned : Bool) (handles : List (String × String)) :
    List Token → Except Fault (List (String × String) × List Token)
  | .directive (.version major) :: rest =>
    if versioned ∨ major ≠ 1 then .error .notYaml else directives true handles rest
  | .directive (.tag handle lead) :: rest =>
    if handles.any (·.1 == handle) then .error .notYaml
    else directives versioned (handles ++ [(handle, lead)]) rest
  | .directive .reserved :: rest => directives versioned handles rest
  | rest => .ok (handles, rest)

def isDocumentMark : List Token → Bool
  | [] => true
  | .directive _ :: _ => true
  | .documentStart :: _ => true
  | .documentEnd :: _ => true
  | _ => false

def document (bound : Nat) (tokens : List Token) : Except Fault (Node × Source) := do
  match tokens with
  | .directive _ :: _ | .documentStart :: _ =>
    let (handles, rest) ← directives false [] tokens
    match rest with
    | .documentStart :: rest =>
      let s : Source := { tokens := rest, handles := handles ++ defaultHandles }
      if isDocumentMark rest then return (empty, s) else node bound true false s
    | _ => throw .notYaml
  | _ => node bound true false { tokens, handles := defaultHandles }

def isDocumentEnd : Token → Bool
  | .documentEnd => true
  | _ => false

end Source

/-- A document: its root and its collections with anchors. -/
structure Document where
  root : Node
  anchored : List (String × Node)
  /-- No way into the document that enters every anchored collection once at most is so long. -/
  bound : Nat

namespace Document

/-- The node that an alias stands for. -/
def find (d : Document) (name : String) : Node := (d.anchored.lookup name).getD Source.empty

/-- A node that is no alias. -/
def shown (d : Document) : Node → Node
  | .alias name => d.find name
  | node => node

def tag (d : Document) (node : Node) : Tag :=
  match d.shown node with
  | .scalar tag _ => tag
  | .sequence tag _ => tag
  | .mapping tag _ => tag
  | .alias _ => .null

/-- The document of a text, if it holds one. -/
def ofTokens? (tokens : List Token) : Except Fault (Option Document) :=
  if tokens.isEmpty then .ok none
  else do
    let (root, s) ← Source.document (4 * tokens.length + 8) tokens
    if (s.tokens.dropWhile Source.isDocumentEnd).isEmpty then
      let anchored := s.anchors.filterMap fun (name, node) => node.map (name, ·)
      return some ⟨root, anchored, (tokens.length + 2) * (tokens.length + 2)⟩
    else throw .notYaml

end Document

end StaticSite.Yaml
