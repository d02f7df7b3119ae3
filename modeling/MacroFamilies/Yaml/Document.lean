import MacroFamilies.Yaml.Node
import MacroFamilies.Yaml.Token.Stream
/-!
# Reading a document

The tokens of a text are put together to the nodes of its first document. Reading goes on until
the document ends or a fault breaks it off; in that case the nodes read so far are kept, with a
cut behind them.

An anchor takes the slot whose number is the count of the anchor names known so far. A name that
is defined once more takes a slot without adding to the names, so a later anchor can take the same
slot; the last one that took it is what its aliases refer to.
-/

namespace MacroFamilies.Yaml

structure Builder where
  tokens : List Token
  /-- The fault behind the last token. -/
  ending : Option SyntaxFault
  /-- What tag handles stand for. -/
  handles : List (List Char × List Char) := []
  /-- The slots of the anchor names. -/
  names : List (List Char × Nat) := []
  /-- The anchored nodes that took the slots, the last first; nodes are counted as they start. -/
  slots : List (Nat × Nat) := []
  /-- The anchored nodes by their count. -/
  anchored : List (Nat × Node) := []
  /-- How many anchored nodes have started. -/
  count : Nat := 0
  /-- The fault that broke the document off. -/
  fault : Option DocumentFault := none

namespace Builder

/-- The fault behind the last token. No reader goes beyond the token that ends the text. -/
def endingFault (b : Builder) : SyntaxFault :=
  b.ending.getD ⟨.unexpectedEnd, .start, none⟩

def peek (b : Builder) : Except SyntaxFault Token :=
  match b.tokens with
  | token :: _ => .ok token
  | [] => .error b.endingFault

def skip (b : Builder) : Builder := { b with tokens := b.tokens.drop 1 }

def stop (b : Builder) (fault : DocumentFault) : Builder := { b with fault := some fault }

def stopAt (b : Builder) (fault : SyntaxFault) : Builder := b.stop (.ofSyntax fault)

def cutAt (b : Builder) (fault : SyntaxFault) : Node × Builder := (.cut, b.stopAt fault)

def stopped (b : Builder) : Bool := b.fault.isSome

/-! ## Anchors and tags -/

structure Properties where
  start : Mark
  anchor : Option (List Char) := none
  /-- Handle, suffix and place of the tag. -/
  tag : Option (List Char × List Char × Mark) := none

def properties (b : Builder) : Except SyntaxFault (Properties × Builder) := do
  let first ← b.peek
  let none : Properties := { start := first.start }
  match first.kind with
  | .anchor name =>
    let b := b.skip
    let second ← b.peek
    match second.kind with
    | .tag handle suffix =>
      return ({ none with anchor := some name, tag := some (handle, suffix, second.start) }, b.skip)
    | _ => return ({ none with anchor := some name }, b)
  | .tag handle suffix =>
    let b := b.skip
    let tagged := { none with tag := some (handle, suffix, first.start) }
    let second ← b.peek
    match second.kind with
    | .anchor name => return ({ tagged with anchor := some name }, b.skip)
    | _ => return (tagged, b)
  | _ => return (none, b)

def resolveTag (b : Builder) (p : Properties) : Except SyntaxFault (Option (List Char)) :=
  match p.tag with
  | none => .ok none
  | some ([], suffix, _) => .ok (some suffix)
  | some (handle, suffix, mark) =>
    match b.handles.lookup handle with
    | some lead => .ok (some (lead ++ suffix))
    | none => .error ⟨.undefinedTagHandle, mark, some (.node, p.start)⟩

def openAnchor (b : Builder) (anchor : Option (List Char)) : Builder :=
  match anchor with
  | none => b
  | some name =>
    let slot := b.names.length
    { b with
      names := (name, slot) :: b.names.filter (·.1 != name)
      slots := (slot, b.count) :: b.slots
      count := b.count + 1 }

/-- Keeps an anchored node once it is read; `count` is what was counted before it. -/
def closeAnchor (b : Builder) (anchor : Option (List Char)) (count : Nat) (node : Node) : Builder :=
  match anchor with
  | none => b
  | some _ => { b with anchored := (count, node) :: b.anchored }

/-! ## Nodes -/

def endsBlockEntry : TokenKind → Bool
  | .key | .value | .blockEnd => true
  | _ => false

def scalarNode (mark : Mark) (tag : Option (List Char)) (style : ScalarStyle) (text : List Char) :
    Node :=
  .scalar mark style (tag.map String.ofList) (String.ofList text)

mutual

/-- Reads a node. `block` allows block collections, and `indentless` a block sequence that is not
indented. -/
def node : Nat → (block indentless : Bool) → Builder → Node × Builder
  | 0, _, _, b => b.cutAt b.endingFault
  | fuel + 1, block, indentless, b =>
    match b.peek with
    | .error fault => b.cutAt fault
    | .ok ⟨.alias name, mark, _⟩ =>
      match b.names.lookup name with
      | some slot => (.alias mark slot, b.skip)
      | none => (.cut, b.stop (.unknownAnchor mark))
    | .ok _ =>
      match (do
          let (p, b) ← b.properties
          let token ← b.peek
          let tag ← b.resolveTag p
          return (p, tag, token, b)) with
      | .error fault => b.cutAt fault
      | .ok (p, tag, token, b) =>
        let opened := b.openAnchor p.anchor
        let (node, rest) :=
          match token.kind with
          | .scalar style text => (scalarNode p.start tag style text, opened.skip)
          | .flowSequenceStart =>
            let (items, rest) := flowItems fuel token.start true opened.skip
            (.sequence p.start items, rest)
          | .flowMappingStart =>
            let (entries, rest) := flowEntries fuel token.start true opened.skip
            (.mapping p.start entries, rest)
          | .blockEntry =>
            if indentless then
              let (items, rest) := indentlessItems fuel opened
              (.sequence p.start items, rest)
            else content p tag token block b opened
          | .blockSequenceStart =>
            if block then
              let (items, rest) := blockItems fuel token.start opened.skip
              (.sequence p.start items, rest)
            else content p tag token block b opened
          | .blockMappingStart =>
            if block then
              let (entries, rest) := blockEntries fuel token.start opened.skip
              (.mapping p.start entries, rest)
            else content p tag token block b opened
          | _ => content p tag token block b opened
        (node, rest.closeAnchor p.anchor b.count node)
where
  /-- A node without content is empty if it has an anchor or a tag, and a fault otherwise. -/
  content (p : Properties) (tag : Option (List Char)) (token : Token) (block : Bool)
      (before opened : Builder) : Node × Builder :=
    if p.anchor.isSome || tag.isSome then
      (scalarNode p.start tag .plain [], opened)
    else before.cutAt
      ⟨.nodeExpected, token.start, some (if block then .blockNode else .flowNode, p.start)⟩

def blockItems : Nat → (began : Mark) → Builder → List Node × Builder
  | 0, _, b => ([.cut], b.stopAt b.endingFault)
  | fuel + 1, began, b =>
    match b.peek with
    | .error fault => ([.cut], b.stopAt fault)
    | .ok ⟨.blockEntry, _, behind⟩ =>
      let b := b.skip
      let (item, b) := match b.peek with
        | .error fault => b.cutAt fault
        | .ok ⟨.blockEntry, _, _⟩ | .ok ⟨.blockEnd, _, _⟩ => (.blank behind, b)
        | .ok _ => node fuel true false b
      if b.stopped then ([item], b)
      else
        let (items, b) := blockItems fuel began b
        (item :: items, b)
    | .ok ⟨.blockEnd, _, _⟩ => ([], b.skip)
    | .ok token =>
      ([.cut], b.stopAt ⟨.blockEntryExpected, token.start, some (.blockSequence, began)⟩)

def indentlessItems : Nat → Builder → List Node × Builder
  | 0, b => ([.cut], b.stopAt b.endingFault)
  | fuel + 1, b =>
    match b.peek with
    | .error fault => ([.cut], b.stopAt fault)
    | .ok ⟨.blockEntry, _, behind⟩ =>
      let b := b.skip
      let (item, b) := match b.peek with
        | .error fault => b.cutAt fault
        | .ok token =>
          if token.is .blockEntry || endsBlockEntry token.kind then (.blank behind, b)
          else node fuel true false b
      if b.stopped then ([item], b)
      else
        let (items, b) := indentlessItems fuel b
        (item :: items, b)
    | .ok _ => ([], b)

def blockEntries : Nat → (began : Mark) → Builder → List (Node × Node) × Builder
  | 0, _, b => ([(.cut, .cut)], b.stopAt b.endingFault)
  | fuel + 1, began, b =>
    match b.peek with
    | .error fault => ([(.cut, .cut)], b.stopAt fault)
    | .ok ⟨.key, _, behind⟩ =>
      let (key, b) := blockPart fuel behind b.skip
      if b.stopped then ([(key, .cut)], b)
      else
        let (value, b) := match b.peek with
          | .error fault => b.cutAt fault
          | .ok ⟨.value, _, behind⟩ => blockPart fuel behind b.skip
          | .ok token => (.blank token.start, b)
        if b.stopped then ([(key, value)], b)
        else
          let (entries, b) := blockEntries fuel began b
          ((key, value) :: entries, b)
    | .ok ⟨.blockEnd, _, _⟩ => ([], b.skip)
    | .ok token =>
      ([(.cut, .cut)], b.stopAt ⟨.blockKeyExpected, token.start, some (.blockMapping, began)⟩)

def blockPart : Nat → (behind : Mark) → Builder → Node × Builder
  | 0, _, b => b.cutAt b.endingFault
  | fuel + 1, behind, b =>
    match b.peek with
    | .error fault => b.cutAt fault
    | .ok token =>
      if endsBlockEntry token.kind then (.blank behind, b) else node fuel true true b

def flowItems : Nat → (began : Mark) → (first : Bool) → Builder → List Node × Builder
  | 0, _, _, b => ([.cut], b.stopAt b.endingFault)
  | fuel + 1, began, first, b =>
    match (do
        let token ← b.peek
        if first || token.is .flowSequenceEnd then return (token, b)
        else if token.is .flowEntry then return (← b.skip.peek, b.skip)
        else .error ⟨.flowEntryExpected, token.start, some (.flowSequence, began)⟩) with
    | .error fault => ([.cut], b.stopAt fault)
    | .ok (token, b) =>
      if token.is .flowSequenceEnd then ([], b.skip)
      else
        let (item, b) :=
          if token.is .key then
            let (entries, b) := flowPair fuel b.skip
            (Node.mapping token.start entries, b)
          else node fuel false false b
        if b.stopped then ([item], b)
        else
          let (items, b) := flowItems fuel began false b
          (item :: items, b)

/-- Reads the single entry of a mapping that is written without braces in a flow sequence. -/
def flowPair : Nat → Builder → List (Node × Node) × Builder
  | 0, b => ([(.cut, .cut)], b.stopAt b.endingFault)
  | fuel + 1, b =>
    let (key, b) := match b.peek with
      | .error fault => b.cutAt fault
      | .ok token =>
        if token.is .value || token.is .flowEntry || token.is .flowSequenceEnd then
          (.blank token.stop, b.skip)
        else node fuel false false b
    if b.stopped then ([(key, .cut)], b)
    else
      let (value, b) := flowValue fuel .flowSequenceEnd b
      if b.stopped then ([(key, value)], b)
      else match b.peek with
        | .error fault => ([(key, value), (.cut, .cut)], b.stopAt fault)
        | .ok _ => ([(key, value)], b)

def flowValue : Nat → (closing : TokenKind) → Builder → Node × Builder
  | 0, _, b => b.cutAt b.endingFault
  | fuel + 1, closing, b =>
    match b.peek with
    | .error fault => b.cutAt fault
    | .ok ⟨.value, _, _⟩ =>
      let b := b.skip
      match b.peek with
      | .error fault => b.cutAt fault
      | .ok token =>
        if token.is .flowEntry || token.is closing then (.blank token.start, b)
        else node fuel false false b
    | .ok token => (.blank token.start, b)

def flowEntries : Nat → (began : Mark) → (first : Bool) → Builder → List (Node × Node) × Builder
  | 0, _, _, b => ([(.cut, .cut)], b.stopAt b.endingFault)
  | fuel + 1, began, first, b =>
    match (do
        let token ← b.peek
        if first || token.is .flowMappingEnd then return (token, b)
        else if token.is .flowEntry then return (← b.skip.peek, b.skip)
        else .error ⟨.flowPairExpected, token.start, some (.flowMapping, began)⟩) with
    | .error fault => ([(.cut, .cut)], b.stopAt fault)
    | .ok (token, b) =>
      if token.is .flowMappingEnd then ([], b.skip)
      else
        let marked := token.is .key
        let (key, b) :=
          if marked then
            let b := b.skip
            match b.peek with
            | .error fault => b.cutAt fault
            | .ok token =>
              if token.is .value || token.is .flowEntry ||
                  token.is .flowMappingEnd then (.blank token.start, b)
              else node fuel false false b
          else node fuel false false b
        if b.stopped then ([(key, .cut)], b)
        else
          let (value, b) :=
            if marked then flowValue fuel .flowMappingEnd b
            else match b.peek with
              | .error fault => b.cutAt fault
              | .ok token => (.blank token.start, b)
          if b.stopped then ([(key, value)], b)
          else
            let (entries, b) := flowEntries fuel began false b
            ((key, value) :: entries, b)

end

/-! ## The document around its root -/

def addHandle? (b : Builder) (handle lead : List Char) : Option Builder :=
  if (b.handles.lookup handle).isSome then none
  else some { b with handles := b.handles ++ [(handle, lead)] }

def directives (versioned : Bool) : Nat → Builder → Except SyntaxFault Builder
  | 0, b => .ok b
  | fuel + 1, b => do
    let token ← b.peek
    match token.kind with
    | .versionDirective major minor =>
      if versioned then .error ⟨.duplicateVersion, token.start, none⟩
      else if major = 1 ∧ (minor = 1 ∨ minor = 2) then directives true fuel b.skip
      else .error ⟨.incompatibleVersion, token.start, none⟩
    | .tagDirective handle lead =>
      match b.addHandle? handle lead with
      | some b => directives versioned fuel b.skip
      | none => .error ⟨.duplicateTagDirective, token.start, none⟩
    | _ => return b

def addDefaultHandles (b : Builder) : Builder :=
  [("!", "!"), ("!!", "tag:yaml.org,2002:")].foldl
    (fun b (handle, lead) => (b.addHandle? handle.toList lead.toList).getD b) b

def endsDocument : TokenKind → Bool
  | .versionDirective _ _ | .tagDirective _ _ | .documentStart | .documentEnd | .streamEnd => true
  | _ => false

def startsDocument : TokenKind → Bool
  | .versionDirective _ _ | .tagDirective _ _ | .documentStart => true
  | _ => false

def root (b : Builder) (fuel : Nat) : Node × Builder :=
  match (do
      let first ← b.peek
      if first.is .streamEnd then return (some (Node.blank first.start), b)
      else if startsDocument first.kind then
        let b ← b.directives false fuel
        let b := b.addDefaultHandles
        let token ← b.peek
        if !token.is .documentStart then
          .error ⟨.documentStartExpected, token.start, none⟩
        let b := b.skip
        let token ← b.peek
        return (if endsDocument token.kind then some (Node.blank token.start) else none, b)
      else return (none, b.addDefaultHandles)) with
  | .error fault => b.cutAt fault
  | .ok (some node, b) => (node, b)
  | .ok (none, b) => node fuel true false b

def finish (b : Builder) : Builder :=
  if b.stopped then b
  else match b.peek with
    | .error fault => b.stopAt fault
    | .ok token => if token.is .documentEnd then b.skip else b

def continues (b : Builder) : Bool :=
  match b.tokens.dropWhile (·.is .documentEnd) with
  | token :: _ => !token.is .streamEnd
  | [] => true

end Builder

namespace Document

def ofTokens (stream : TokenStream) : Document :=
  let start : Builder := { tokens := stream.tokens, ending := stream.fault }
  let (root, b) := start.root (3 * stream.tokens.length + 3)
  let b := b.finish
  { root := root
    slots := b.slots.filterMap fun (slot, count) => (b.anchored.lookup count).map (slot, ·)
    fault := b.fault
    continued := b.continues }

def ofText (text : List Char) : Document := ofTokens (.ofText text)

end Document

end MacroFamilies.Yaml
