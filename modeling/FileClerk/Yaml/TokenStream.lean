import FileClerk.Yaml.Token

/-!
# The tokens of a text

Tokens are read from left to right. Indentation opens and closes block collections. A key need not
be marked: a scalar, an alias or a collection in brackets turns out to be a key when a colon follows
it, on the same line and within 1024 characters. The places where such a key may have started are
kept, one for each level of brackets, and the mark of the key is put in at that place.

The readers work ahead no further than an open key makes them. So when the text has no further
token, only the tokens before the first open key have been given away, and the failure comes right
behind those.
-/

set_option autoImplicit false

namespace FileClerk.Yaml

/-- A place where an unmarked key may have started, with the number of tokens before it. A key is
required if it stands at the indentation of its mapping. -/
structure OpenKey where
  tokensBefore : Nat
  required : Bool
  index : Nat
  line : Nat
  column : Nat
  deriving DecidableEq, Repr

/-- What is known while tokens are read. The indentation is that of the innermost block collection,
or -1 without one, and the tokens read so far are in reverse. -/
structure TokenState where
  cursor : Cursor
  brackets : Nat
  indent : Int
  outer : List Int
  keyAllowed : Bool
  openKeys : List (Nat × OpenKey)
  tokens : List Token

namespace TokenState

/-- The state at the start of a text. -/
def start (text : List Char) : TokenState := ⟨.start text, 0, -1, [], true, [], []⟩

/-- The state with a further token that ends at a place. -/
def emitTo (s : TokenState) (token : Token) (cursor : Cursor) : TokenState :=
  { s with tokens := token :: s.tokens, cursor }

/-- Brackets are open. -/
def inFlow (s : TokenState) : Bool := s.brackets != 0

/-! ## Indentation -/

/-- The block collections that are indented more than a column are closed. -/
def closeFrom (column : Int) (indent : Int) : List Int → List Token → Int × List Int × List Token
  | [], tokens => (indent, [], tokens)
  | next :: outer, tokens =>
    if column < indent then closeFrom column next outer (.blockEnd :: tokens)
    else (indent, next :: outer, tokens)

/-- The block collections that are indented more than a column are closed; in brackets indentation
does not count. -/
def unindent (column : Int) (s : TokenState) : TokenState :=
  if s.inFlow then s
  else
    let (indent, outer, tokens) := closeFrom column s.indent s.outer s.tokens
    { s with indent, outer, tokens }

/-- A block collection starts at a column, if that is indented more than the one around it. Its
token goes before the last `behind` tokens. -/
def indentAt (column behind : Nat) (token : Token) (s : TokenState) : TokenState :=
  if s.indent < column then
    { s with indent := column, outer := s.indent :: s.outer,
             tokens := s.tokens.insertIdx behind token }
  else s

/-! ## Open keys -/

/-- The open key of the current brackets is given up, unless it is required. -/
def dropKey (s : TokenState) : Except Fault TokenState :=
  match s.openKeys.lookup s.brackets with
  | none => .ok s
  | some key =>
    if key.required then .error .malformed
    else .ok { s with openKeys := s.openKeys.filter (·.1 != s.brackets) }

/-- The open key is too far back to be one. -/
def isStale (s : TokenState) (key : OpenKey) : Bool :=
  key.line != s.cursor.line || key.index + 1024 < s.cursor.index

/-- Keys too far back are given up, unless they are required. -/
def dropStale (s : TokenState) : Except Fault TokenState :=
  if s.openKeys.any fun (_, key) => s.isStale key && key.required then .error .malformed
  else .ok { s with openKeys := s.openKeys.filter fun (_, key) => !s.isStale key }

/-- A key may start at the current place. -/
def openKey (s : TokenState) : Except Fault TokenState :=
  if !s.keyAllowed then .ok s
  else do
    let s ← s.dropKey
    let key : OpenKey := ⟨s.tokens.length, !s.inFlow && s.indent == s.cursor.column,
      s.cursor.index, s.cursor.line, s.cursor.column⟩
    return { s with openKeys := (s.brackets, key) :: s.openKeys }

/-! ## White space -/

/-- The place of the next token, and whether a line has ended on the way. -/
def nextPlace : Nat → Bool → Cursor → Bool × Cursor
  | 0, ended, cursor => (ended, cursor)
  | fuel + 1, ended, cursor =>
    let cursor := cursor.skipRun (· == ' ')
    let cursor := if cursor.isAt '#' then cursor.skipRun (!isBreak ·) else cursor
    match cursor.takeBreak? with
    | some (_, cursor) => nextPlace fuel true cursor
    | none => (ended, cursor)

/-- The state at the next token. Behind a line end a key may stand, outside of brackets. A byte
order mark at the start of the text is passed over. -/
def advance (s : TokenState) : TokenState :=
  let cursor := if s.cursor.index == 0 && s.cursor.isAt '\ufeff' then s.cursor.step else s.cursor
  let (ended, cursor) := nextPlace (cursor.rest.length + 1) false cursor
  { s with cursor, keyAllowed := s.keyAllowed || (ended && !s.inFlow) }

/-- No token is left. -/
def atEnd (s : TokenState) : Bool := s.advance.cursor.next.isNone

/-! ## Tokens -/

/-- A token of a whole line or document, at which all block collections end, given by its
reader. -/
def topLevel (s : TokenState) (read : Cursor → Except Fault (Token × Cursor)) :
    Except Fault TokenState := do
  let s ← (s.unindent (-1)).dropKey
  let (token, behind) ← read s.cursor
  return ({ s with keyAllowed := false }.emitTo token behind)

/-- An opening bracket, which may start a key. -/
def openFlow (s : TokenState) (token : Token) : Except Fault TokenState := do
  let s ← s.openKey
  return ({ s with brackets := s.brackets + 1, keyAllowed := true }.emitTo token s.cursor.step)

/-- A closing bracket. -/
def closeFlow (s : TokenState) (token : Token) : Except Fault TokenState := do
  let s ← s.dropKey
  match s.brackets with
  | 0 => .error .malformed
  | n + 1 => return ({ s with brackets := n, keyAllowed := false }.emitTo token s.cursor.step)

/-- A comma between entries in brackets. -/
def comma (s : TokenState) : Except Fault TokenState := do
  let s ← s.dropKey
  return ({ s with keyAllowed := true }.emitTo .comma s.cursor.step)

/-- An entry or a marked key in block context may start a collection. -/
def startBlock (s : TokenState) (token : Token) : Except Fault TokenState :=
  if s.inFlow then .ok s
  else if !s.keyAllowed then .error .malformed
  else .ok (s.indentAt s.cursor.column 0 token)

/-- The mark of an entry of a block sequence. -/
def dash (s : TokenState) : Except Fault TokenState := do
  let s ← s.startBlock .blockSequence
  let s ← { s with keyAllowed := true }.dropKey
  return (s.emitTo .dash s.cursor.step)

/-- The mark of a key. -/
def question (s : TokenState) : Except Fault TokenState := do
  let s ← s.startBlock .blockMapping
  let s ← { s with keyAllowed := !s.inFlow }.dropKey
  return (s.emitTo .key s.cursor.step)

/-- The mark of a value. If a key is open, its mark is put in, with the start of a mapping if it is
the first key of one. -/
def colon (s : TokenState) : Except Fault TokenState :=
  match s.openKeys.lookup s.brackets with
  | some key =>
    let behind := s.tokens.length - key.tokensBefore
    let s := { s with openKeys := s.openKeys.filter (·.1 != s.brackets), keyAllowed := false,
                      tokens := s.tokens.insertIdx behind .key }
    let s := if s.inFlow then s else s.indentAt key.column (behind + 1) .blockMapping
    .ok (s.emitTo .value s.cursor.step)
  | none => do
    let s ← s.startBlock .blockMapping
    let s ← { s with keyAllowed := !s.inFlow }.dropKey
    return (s.emitTo .value s.cursor.step)

/-- A token that may start a key, given by its reader. -/
def startingKey (s : TokenState) (read : Cursor → Except Fault (Token × Cursor)) :
    Except Fault TokenState := do
  let s ← s.openKey
  let (token, behind) ← read s.cursor
  return ({ s with keyAllowed := false }.emitTo token behind)

/-- A block scalar, behind which a key may stand. -/
def block (s : TokenState) (folded : Bool) : Except Fault TokenState := do
  let s ← { s with keyAllowed := true }.dropKey
  let (text, behind) ← orMalformed (blockScalar? folded s.indent s.cursor)
  return (s.emitTo (.scalar (String.ofList text) false) behind)

/-- A plain scalar, behind which a key may stand if it ends at the start of a line. -/
def plain (s : TokenState) : Except Fault TokenState := do
  let s ← s.openKey
  let scalar := plainScalar s.inFlow (s.indent + 1).toNat s.cursor
  return ({ s with keyAllowed := scalar.atLineStart }.emitTo
    (.scalar (String.ofList scalar.text) true) scalar.cursor)

/-- A quoted scalar. -/
def quoted (s : TokenState) (double : Bool) : Except Fault TokenState :=
  s.startingKey fun cursor =>
    (quotedScalar double cursor).map fun (text, behind) =>
      (.scalar (String.ofList text) false, behind)

/-- A plain scalar starts at the place. -/
def atPlain (s : TokenState) (c : Char) : Bool :=
  !(isGap c || "-?:,[]\x7b\x7d#&*!|>\x27\x22%@\x60".toList.contains c)
    || (!s.cursor.gapAhead 1 && (c == '-' || (!s.inFlow && (c == '?' || c == ':'))))

/-- The state behind the token that starts with a character. -/
def token (s : TokenState) (c : Char) : Except Fault TokenState :=
  let cursor := s.cursor
  if c == '%' && cursor.column == 0 then s.topLevel directive
  else if cursor.column == 0 && cursor.atDocumentMark then
    s.topLevel fun cursor =>
      .ok (if c == '-' then .documentStart else .documentEnd, cursor.skip 3)
  else if c == '[' then s.openFlow .openBracket
  else if c == '\x7b' then s.openFlow .openBrace
  else if c == ']' then s.closeFlow .closeBracket
  else if c == '\x7d' then s.closeFlow .closeBrace
  else if c == ',' then s.comma
  else if c == '-' && cursor.gapAhead 1 then s.dash
  else if c == '?' && (s.inFlow || cursor.gapAhead 1) then s.question
  else if c == ':' && (s.inFlow || cursor.gapAhead 1) then s.colon
  else if c == '*' then s.startingKey fun cursor =>
    (orMalformed (anchorName? cursor)).map fun (name, behind) => (.alias name, behind)
  else if c == '&' then s.startingKey fun cursor =>
    (orMalformed (anchorName? cursor)).map fun (name, behind) => (.anchor name, behind)
  else if c == '!' then s.startingKey fun cursor => orMalformed (tag? cursor)
  else if c == '|' && !s.inFlow then s.block false
  else if c == '>' && !s.inFlow then s.block true
  else if c == '\x27' then s.quoted false
  else if c == '\x22' then s.quoted true
  else if s.atPlain c then s.plain
  else .error .malformed

/-- The state behind the next token, or at the end of the text. -/
def next (s : TokenState) : Except Fault TokenState := do
  let s ← s.advance.dropStale
  let s := s.unindent s.cursor.column
  match s.cursor.next with
  | none => (s.unindent (-1)).dropKey
  | some c => s.token c

/-- The number of tokens that have been given away: those before the first open key. -/
def givenAway (s : TokenState) : Nat :=
  (s.openKeys.map fun (_, key) => key.tokensBefore).foldl min s.tokens.length

/-- The tokens given away, with a failure behind them. -/
def brokenOff (s : TokenState) (fault : Fault) : List Token :=
  s.tokens.reverse.take s.givenAway ++ [.failure fault]

/-- The tokens from a state on, out of at most `fuel` further ones. -/
def tokensFrom : Nat → TokenState → List Token
  | 0, s => s.brokenOff .malformed
  | fuel + 1, s =>
    match s.dropStale with
    | .error fault => s.brokenOff fault
    | .ok s =>
      match s.next with
      | .error fault => s.brokenOff fault
      | .ok behind => if s.atEnd then behind.tokens.reverse else tokensFrom fuel behind

end TokenState

/-- The tokens of a text. -/
def tokens (text : List Char) : List Token :=
  (TokenState.start text).tokensFrom (text.length + 2)

end FileClerk.Yaml
