import Blueprint.Yaml.Node

/-!
# Reading YAML

The grammar of YAML by recursive descent. Block collections are told from one another by the columns
in which they start: the contents of a collection start at its `margin` or behind it. A node that is
followed by a colon on its line is the first key of a mapping. The fuel bounds the depth of the
descent and the length of its loops and is taken from the length of the text (`read?`).
-/

namespace Blueprint.Yaml

/-- What is known while a document is read. -/
structure Progress where
  position : Position
  /-- The nodes that have a name, latest first; a node that is not complete has no tree yet. -/
  anchors : List (String × Option Node) := []
  /-- The prefixes that the handles of tags stand for. -/
  prefixes : List (String × String) := []
deriving Repr

/-- Reads a part of a document, or refuses it. -/
abbrev Reader (α : Type) := StateT Progress Option α

/-- The name and the tag that stand before a node. -/
structure Properties where
  anchor? : Option String := none
  tag? : Option String := none
deriving DecidableEq, Repr

namespace Properties

def isEmpty (props : Properties) : Bool :=
  props.anchor?.isNone && props.tag?.isNone

/-- Both of two groups of properties, unless a property occurs twice. -/
def and? (a b : Properties) : Option Properties :=
  if (a.anchor?.isSome && b.anchor?.isSome) || (a.tag?.isSome && b.tag?.isSome) then none
  else some ⟨a.anchor?.or b.anchor?, a.tag?.or b.tag?⟩

end Properties

namespace Reader

def here : Reader Position :=
  fun s => some (s.position, s)

def goTo (p : Position) : Reader Unit :=
  fun s => some ((), { s with position := p })

/-- Goes over characters of the line; the next place is fresh or not. -/
def goOver (count : Nat) (fresh : Bool) : Reader Unit := fun s =>
  some ((), { s with position := { s.position.advance count with fresh } })

/-- Goes to the next character that says something. -/
def skip (inFlow : Bool) : Reader Position := fun s =>
  let p := s.position.skip inFlow
  some (p, { s with position := p })

/-- Registers a name whose node is about to be read; returns the place of the entry. -/
def openAnchor (anchor? : Option String) : Reader (Option Nat) := fun s =>
  match anchor? with
  | none => some (none, s)
  | some name => some (some s.anchors.length, { s with anchors := (name, none) :: s.anchors })

/-- Gives a name that was registered its node. -/
def closeAnchor (slot? : Option Nat) (node : Node) : Reader Unit := fun s =>
  match slot? with
  | none => some ((), s)
  | some entry =>
    -- Names are added in front, so that a place is counted from the end.
    let place := s.anchors.length - 1 - entry
    some ((), { s with anchors := s.anchors.modify place fun (name, _) => (name, some node) })

/-- Reads a node that has properties; `build` gets the tag. -/
def named (props : Properties) (build : Option String → Reader Node) : Reader Node := do
  let slot? ← openAnchor props.anchor?
  let node ← build props.tag?
  closeAnchor slot? node
  return node

def scalar (props : Properties) (style : Style) (text : List Char) : Reader Node :=
  named props fun tag? =>
    let text := String.ofList text
    return .scalar (Node.scalarTag? style text tag?) style text

def nothing (props : Properties) : Reader Node :=
  scalar props .plain []

/-- The characters that may follow the name of an anchor or alias. -/
def endsAnchor : List Char → Bool
  | [] => true
  | c :: rest => endsWord (c :: rest) || c == '?' || c == ':' || c == ',' || c == ']' || c == '}' ||
      c == '%' || c == '@' || c == '`'

/-- Reads the name of an anchor or alias after its mark. -/
def anchorName : Reader String := do
  let p ← here
  let name := (p.rest.drop 1).takeWhile isWordChar
  if name.isEmpty || !endsAnchor (p.rest.drop (name.length + 1)) then failure
  goOver (name.length + 1) false
  return String.ofList name

/-- The node that an alias stands for. -/
def aliasNode : Reader Node := do
  let name ← anchorName
  fun s => match s.anchors.lookup name with
    | none => none
    -- The alias stands inside the node that it names.
    | some none => some (.endless, s)
    | some (some node) => some (node, s)

def isTagChar (c : Char) : Bool :=
  isWordChar c || c == ';' || c == '/' || c == '?' || c == ':' || c == '@' || c == '&' ||
    c == '=' || c == '+' || c == '$' || c == '.' || c == '!' || c == '~' || c == '*' ||
    c == '\'' || c == '(' || c == ')' || c == '%'

/-- Whether a character may stand in the address of a tag between angle brackets. -/
def isAddressChar (c : Char) : Bool :=
  isTagChar c || c == ',' || c == '[' || c == ']'

/-- Replaces the escapes of a tag, each a percent sign and two digits, by the bytes they denote. -/
def decodeBytes? : (fuel : Nat) → List Char → Option (List UInt8)
  | 0, _ => none
  | _ + 1, [] => some []
  | fuel + 1, '%' :: a :: b :: rest =>
    match Text.natOfDigits? 16 [a, b] with
    | some value => (decodeBytes? fuel rest).map (UInt8.ofNat value :: ·)
    | none => none
  | fuel + 1, c :: rest =>
    if c = '%' then none
    else (decodeBytes? fuel rest).map ((String.ofList [c]).toUTF8.toList ++ ·)

/-- The text of a tag with its escapes replaced. -/
def decodeTag? (text : List Char) : Option String :=
  (decodeBytes? (text.length + 1) text).bind fun bytes => String.fromUTF8? ⟨bytes.toArray⟩

/-- The handle at the front of a tag, if it has one: the part up to a second exclamation mark. -/
def handleOf (text : List Char) : Option (List Char) :=
  let word := (text.drop 1).takeWhile isWordChar
  if (text.drop (word.length + 1)).head? = some '!' then some ('!' :: word ++ ['!']) else none

/-- Reads a tag and writes it in full. -/
def tag (inFlow : Bool) : Reader String := do
  let p ← here
  let written : List Char × List Char × Nat ←
    match p.rest with
    | '!' :: '<' :: rest =>
      let address := rest.takeWhile isAddressChar
      if address.isEmpty || (rest.drop address.length).head? ≠ some '>' then failure
      else pure ([], address, address.length + 3)
    | text =>
      match handleOf text with
      | some handle =>
        let suffix := (text.drop handle.length).takeWhile isTagChar
        if suffix.isEmpty then failure else pure (handle, suffix, handle.length + suffix.length)
      | none =>
        let suffix := (text.drop 1).takeWhile isTagChar
        pure (['!'], suffix, suffix.length + 1)
  let (handle, suffix, length) := written
  let after := p.rest.drop length
  if !(endsWord after || (inFlow && after.head? == some ',')) then failure
  goOver length false
  let some suffix := decodeTag? suffix | failure
  if handle.isEmpty then return suffix
  if handle = ['!'] ∧ suffix.isEmpty then return "!"
  fun s =>
    let known := s.prefixes ++ [("!", "!"), ("!!", "tag:yaml.org,2002:")]
    (known.lookup (String.ofList handle)).map fun full => (full ++ suffix, s)

/-- Reads the properties that stand before a node on one line. The second result tells whether a
line end was crossed after them. -/
def properties (inFlow : Bool) : (fuel : Nat) → Properties → Reader (Properties × Bool)
  | 0, _ => failure
  | fuel + 1, before => do
    let p ← here
    if p.at? '&' || p.at? '!' then
      let found ← if p.at? '&' then do
          pure { anchor? := some (← anchorName), tag? := none : Properties }
        else do
          pure { anchor? := none, tag? := some (← tag inFlow) : Properties }
      let some all := before.and? found | failure
      let after ← skip inFlow
      if after.line = p.line then properties inFlow fuel all else return (all, true)
    else return (before, false)

/-- How far behind its start a key may end. -/
def keyLimit : Nat := 1024

/-- Whether what started at a place can be the key of the colon at another place. -/
def isKeyAt (start colon : Position) : Bool :=
  start.line == colon.line && colon.index ≤ start.index + keyLimit

mutual

/-- Reads a scalar, an alias or a flow collection. -/
def atom (inFlow : Bool) (margin : Nat) : (fuel : Nat) → Properties → Reader Node
  | 0, _ => failure
  | fuel + 1, props => do
    let p ← here
    if p.at? '*' then
      if props.isEmpty then aliasNode else failure
    else if p.at? '[' then
      goOver 1 false
      named props fun tag? => do
        return .sequence tag? (← flowItems margin fuel)
    else if p.at? '{' then
      goOver 1 false
      named props fun tag? => do
        return .mapping tag? (← flowEntries margin fuel)
    else if p.at? '\'' || p.at? '"' then
      let some (style, text, p) := Scalar.quoted? p | failure
      goTo p
      scalar props style text
    else if !inFlow && (p.at? '|' || p.at? '>') then
      let some (style, text, p) := Scalar.block? margin p | failure
      goTo p
      scalar props style text
    else if Scalar.startsPlain inFlow p then
      let some (text, p) := Scalar.plain? inFlow margin p | failure
      goTo p
      scalar props .plain text
    else failure

def flowNode (margin : Nat) : (fuel : Nat) → Reader Node
  | 0 => failure
  | fuel + 1 => do
    let _ ← skip true
    let (props, _) ← flowProperties fuel {}
    let p ← here
    if p.atDocumentEnd then failure
    if !props.isEmpty && (p.at? ',' || p.at? ']' || p.at? '}' || p.at? ':') then nothing props
    else atom true margin fuel props

/-- Reads the properties before a node in a flow collection, where line ends do not matter. -/
def flowProperties : (fuel : Nat) → Properties → Reader (Properties × Bool)
  | 0, _ => failure
  | fuel + 1, before => do
    let (props, crossed) ← properties true fuel before
    if crossed then flowProperties fuel props else return (props, false)

/-- Reads the value of an entry in a flow collection, if there is a colon. -/
def flowValue (margin : Nat) : (fuel : Nat) → Reader Node
  | 0 => failure
  | fuel + 1 => do
    let p ← skip true
    if p.at? ':' then
      goOver 1 false
      let p ← skip true
      if p.at? ',' || p.at? ']' || p.at? '}' then return .empty
      flowNode margin fuel
    else return .empty

/-- Reads an entry of a flow collection; there is a value only where the node is a key. In a
sequence a question mark without a key takes the mark that follows it. -/
def flowEntry (margin : Nat) (inSequence : Bool) : (fuel : Nat) → Reader (Node × Option Node)
  | 0 => failure
  | fuel + 1 => do
    let start ← skip true
    if start.atDocumentEnd then failure
    if start.at? '?' then
      goOver 1 false
      let p ← skip true
      let bare := p.at? ':' || p.at? ',' || p.at? ']' || p.at? '}'
      if bare && inSequence then goOver 1 false
      let key ← if bare then pure Node.empty else flowNode margin fuel
      return (key, some (← flowValue margin fuel))
    else
      let node ← flowNode margin fuel
      let p ← skip true
      if p.at? ':' then
        if isKeyAt start p then return (node, some (← flowValue margin fuel)) else failure
      else return (node, none)

/-- Reads the items of a flow sequence up to its closing bracket. -/
def flowItems (margin : Nat) : (fuel : Nat) → Reader (List Node)
  | 0 => failure
  | fuel + 1 => do
    let p ← skip true
    if p.at? ']' then
      goOver 1 false
      return []
    let (node, value?) ← flowEntry margin true fuel
    let item := match value? with
      | none => node
      | some value => .mapping none [(node, value)]
    let p ← skip true
    if p.at? ',' then
      goOver 1 false
      return item :: (← flowItems margin fuel)
    else if p.at? ']' then
      goOver 1 false
      return [item]
    else failure

/-- Reads the entries of a flow mapping up to its closing brace. -/
def flowEntries (margin : Nat) : (fuel : Nat) → Reader (List (Node × Node))
  | 0 => failure
  | fuel + 1 => do
    let p ← skip true
    if p.at? '}' then
      goOver 1 false
      return []
    let (key, value?) ← flowEntry margin false fuel
    let entry := (key, value?.getD .empty)
    let p ← skip true
    if p.at? ',' then
      goOver 1 false
      return entry :: (← flowEntries margin fuel)
    else if p.at? '}' then
      goOver 1 false
      return [entry]
    else failure

end

mutual

/-- Reads a node of a block collection after properties that stood on earlier lines. A block scalar
may start one column before the margin, and with `dashes` a sequence too. -/
def blockNode (margin : Nat) (dashes : Bool) : (fuel : Nat) → Properties → Reader Node
  | 0, _ => failure
  | fuel + 1, before => do
    let start ← skip false
    if start.atDocumentEnd then nothing before
    else if start.column < margin then
      if dashes && start.column + 1 == margin && start.atMark '-' then
        if !start.fresh then failure
        named before fun tag? => do
          return .sequence tag? (← dashItems start.column margin fuel)
      else if start.column + 1 == margin && (start.at? '|' || start.at? '>') then
        atom false margin fuel before
      else nothing before
    else if start.atMark '-' then
      if !start.fresh then failure
      named before fun tag? => do
        return .sequence tag? (← blockItems start.column fuel)
    else if start.atMark '?' then
      if !start.fresh then failure
      named before fun tag? => do
        return .mapping tag? (← blockEntries start.column fuel)
    else
      let (props, crossed) ← properties false fuel {}
      if crossed then
        let some all := before.and? props | failure
        blockNode margin dashes fuel all
      else
        let p ← here
        let bare := !props.isEmpty && (p.atMark ':' || p.atDocumentEnd)
        if !start.fresh || p.at? '|' || p.at? '>' then
          let some all := before.and? props | failure
          if bare then nothing all else atom false margin fuel all
        else
          let slot? ← openAnchor before.anchor?
          let first ← if bare then nothing props else atom false margin fuel props
          let colon ← skip false
          if colon.atMark ':' && isKeyAt start colon then
            goOver 1 false
            let value ← blockNode (start.column + 1) true fuel {}
            let more ← moreEntries start.column fuel
            let node := Node.mapping before.tag? ((first, value) :: more)
            closeAnchor slot? node
            return node
          else
            let some all := before.and? props | failure
            if p.at? '*' && !all.isEmpty then failure
            let node := first.withTag all.tag?
            closeAnchor slot? node
            return node
termination_by structural fuel => fuel

/-- Reads the items of a sequence whose dashes stand in a column. -/
def blockItems (column : Nat) : (fuel : Nat) → Reader (List Node)
  | 0 => failure
  | fuel + 1 => do
    let p ← skip false
    if p.atDocumentEnd || p.column < column then return []
    if !(p.column == column && p.fresh && p.atMark '-') then failure
    goOver 1 true
    let item ← blockNode (column + 1) false fuel {}
    return item :: (← blockItems column fuel)
termination_by structural fuel => fuel

/-- Reads the items of a sequence whose dashes stand in the column of the mapping that it lies
in. -/
def dashItems (column margin : Nat) : (fuel : Nat) → Reader (List Node)
  | 0 => failure
  | fuel + 1 => do
    let p ← skip false
    if !p.atDocumentEnd && p.column == column && p.fresh && p.atMark '-' then
      goOver 1 true
      let item ← blockNode margin false fuel {}
      return item :: (← dashItems column margin fuel)
    else return []
termination_by structural fuel => fuel

/-- Reads the entries of a mapping whose keys start in a column, after its first one. -/
def moreEntries (column : Nat) : (fuel : Nat) → Reader (List (Node × Node))
  | 0 => failure
  | fuel + 1 => do
    let p ← skip false
    if p.atDocumentEnd || p.column < column then return []
    blockEntries column fuel
termination_by structural fuel => fuel

/-- Reads the entries of a mapping whose keys start in a column; there is at least one. -/
def blockEntries (column : Nat) : (fuel : Nat) → Reader (List (Node × Node))
  | 0 => failure
  | fuel + 1 => do
    let start ← skip false
    if !(start.column == column && start.fresh) then failure
    if start.atMark '?' then
      goOver 1 true
      let key ← blockNode (column + 1) true fuel {}
      let p ← skip false
      let value ← if !p.atDocumentEnd && p.column == column && p.atMark ':' then do
          if !p.fresh then failure
          goOver 1 true
          blockNode (column + 1) true fuel {}
        else pure Node.empty
      return (key, value) :: (← moreEntries column fuel)
    else
      let (props, crossed) ← properties false fuel {}
      if crossed then failure
      let p ← here
      let key ← if !props.isEmpty && p.atMark ':' then nothing props
        else atom false (column + 1) fuel props
      let colon ← skip false
      if !(colon.atMark ':' && isKeyAt start colon) then failure
      goOver 1 false
      let value ← blockNode (column + 1) true fuel {}
      return (key, value) :: (← moreEntries column fuel)
termination_by structural fuel => fuel

end

/-- Reads digits of the version in a directive. -/
def versionDigits : Reader Nat := do
  let p ← here
  let digits := p.rest.takeWhile Char.isDigit
  if digits.isEmpty || 9 < digits.length then failure
  goOver digits.length p.fresh
  match Text.natOfDigits? 10 digits with
  | some value => return value
  | none => failure

/-- Goes over blanks of a directive. -/
def directiveBlanks : Reader Unit := do
  let p ← here
  goTo (p.skipWhile isSpace)

/-- Reads the handle that a directive gives a prefix. -/
def directiveHandle : Reader String := do
  let p ← here
  match p.rest with
  | '!' :: rest =>
    let word := rest.takeWhile isWordChar
    let handle ← if (rest.drop word.length).head? = some '!' then pure ('!' :: word ++ ['!'])
      else if word.isEmpty then pure ['!']
      else failure
    goOver handle.length p.fresh
    return String.ofList handle
  | _ => failure

/-- Reads directives up to the mark that starts a document. The flag tells whether the version was
given. -/
def directives : (fuel : Nat) → (versioned : Bool) → Reader Bool
  | 0, _ => failure
  | fuel + 1, versioned => do
    let p ← skip false
    if !(p.column == 0 && p.at? '%') then return false
    let name := (p.rest.drop 1).takeWhile isWordChar
    goOver (name.length + 1) p.fresh
    if !endsWord (← here).rest then failure
    let isVersion := name = "YAML".toList
    if isVersion then
      if versioned then failure
      directiveBlanks
      let major ← versionDigits
      if !(← here).at? '.' then failure
      goOver 1 p.fresh
      let minor ← versionDigits
      if !(major == 1 && (minor == 1 || minor == 2)) then failure
    else if name = "TAG".toList then
      directiveBlanks
      let handle ← directiveHandle
      if (← here).rest.isEmpty || !((← here).rest.head?.map isSpace).getD false then failure
      directiveBlanks
      let written := (← here).rest.takeWhile isAddressChar
      if written.isEmpty then failure
      goOver written.length p.fresh
      if !endsWord (← here).rest then failure
      let some full := decodeTag? written | failure
      fun s =>
        if (s.prefixes.lookup handle).isSome then none
        else some ((), { s with prefixes := (handle, full) :: s.prefixes })
    else failure
    directiveBlanks
    let after := (← here).skipComment
    if !(after.rest.isEmpty || (after.rest.head?.map isBreak).getD false) then failure
    goTo after
    let _ ← directives fuel (versioned || isVersion)
    return true

/-- Goes over the marks that end a document. -/
def documentEnds : (fuel : Nat) → Reader Unit
  | 0 => failure
  | fuel + 1 => do
    let p ← skip false
    if p.atDocumentMark ['.', '.', '.'] then
      goOver 3 false
      documentEnds fuel
    else return ()

/-- Reads a text that holds one document; nothing at all is an empty node. -/
def document (fuel : Nat) : Reader Node := do
  let directed ← directives fuel false
  let p ← skip false
  let started := p.atDocumentMark ['-', '-', '-']
  if started then goOver 3 false
  else if directed then failure
  else if p.atDocumentMark ['.', '.', '.'] then failure
  let node ← blockNode 0 false fuel {}
  documentEnds fuel
  if (← skip false).rest.isEmpty then return node else failure

end Reader

/-- Reads the one document of a text. A byte order mark in front is dropped; a second one is passed
over as a character of the first line. -/
def read? (text : String) : Option Node :=
  let characters := match text.toList with
    | '\ufeff' :: rest => rest
    | characters => characters
  if characters.all isAllowed then
    let start : Position := match characters with
      | '\ufeff' :: rest => { rest, column := 1, index := 1 }
      | characters => { rest := characters }
    (Reader.document (8 * characters.length + 64) { position := start }).map (·.1)
  else none

end Blueprint.Yaml
