import PlatformClaw.Addressing.OcPath
import PlatformClaw.Library.TextLines

/-! # Markdown files

A Markdown file is an optional frontmatter block, a preamble, and blocks that
begin at headings of the second level. The headings come from the tokenizer, a
function of the body. Editing a frontmatter value writes the whole file anew.
-/

namespace PlatformClaw.Addressing

open ScriptText TextLines

def FENCE : Text := lit "---"

structure FrontmatterEntry where
  key : Text
  value : Text
  line : Nat
  deriving Repr, DecidableEq

/-- A block as the writer needs it. -/
structure AstBlock where
  heading : Text
  bodyText : Text
  deriving Repr, DecidableEq

structure MdAst where
  raw : Text
  frontmatter : List FrontmatterEntry
  preamble : Text
  blocks : List AstBlock
  deriving Repr, DecidableEq

/-- A `##` heading of the tokens: its line within the body and its content. -/
structure Heading where
  lineIdx : Nat
  text : Text
  deriving Repr, DecidableEq

def isKeyStart (unit : Nat) : Bool :=
  ('a'.toNat ≤ unit && unit ≤ 'z'.toNat) || ('A'.toNat ≤ unit && unit ≤ 'Z'.toNat) || unit == '_'.toNat

def isKeyUnit (unit : Nat) : Bool := isKeyStart unit || isDigit unit || unit == '-'.toNat

/-- What `/^([a-zA-Z_][a-zA-Z0-9_-]*)\s*:\s*(.*)$/` captures. -/
def matchEntry (line : Text) : Option (Text × Text) :=
  let key := line.takeWhile isKeyUnit
  let rest := trimStart (line.dropWhile isKeyUnit)
  let value := trimStart (rest.drop 1)
  if key.head?.any isKeyStart ∧ rest.head? = some ':'.toNat ∧ value.any isLineTerminator = false then
    some (key, value)
  else none

/-- The same quote at both ends. -/
def isQuotedValue (value : Text) : Bool :=
  2 ≤ value.length && value.head? == value.getLast? &&
    (value.head? == some '"'.toNat || value.head? == some '\''.toNat)

def unquote (value : Text) : Text := if isQuotedValue value then inner value else value

def readEntry (line : Text) : Option (Text × Text) :=
  (matchEntry line).map fun captured => (captured.1, unquote (trim captured.2))

def readEntries (number : Nat) : List Text → List FrontmatterEntry
  | [] => []
  | line :: rest =>
    match readEntry line with
    | some (key, value) => ⟨key, value, number⟩ :: readEntries (number + 1) rest
    | none => readEntries (number + 1) rest

def fenced : List Text → Option (List Text × List Text)
  | [] => none
  | first :: rest =>
    if first = FENCE ∧ rest.contains FENCE = true then
      some (rest.take (rest.idxOf FENCE), rest.drop (rest.idxOf FENCE + 1))
    else none

def blocksFrom (bodyLines : List Text) : List Heading → List AstBlock
  | [] => []
  | heading :: rest =>
    let stop := (rest.head?.map Heading.lineIdx).getD bodyLines.length
    ⟨heading.text, joined ((bodyLines.take stop).drop (heading.lineIdx + 1))⟩ :: blocksFrom bodyLines rest

section Parsing

variable (headings : Text → List Heading)

/-- The file without a byte order mark, in lines. -/
def fileLines (raw : Text) : List Text :=
  split (if raw.head? = some BOM then raw.drop 1 else raw)

def frontmatterLines (raw : Text) : List Text :=
  match fenced (fileLines raw) with
  | some (lines, _) => lines
  | none => []

def bodyLines (raw : Text) : List Text :=
  match fenced (fileLines raw) with
  | some (_, body) => body
  | none => fileLines raw

/-- Parse a file. `headings` is what the tokenizer finds in the joined lines of the body. -/
def parseMd (raw : Text) : MdAst :=
  let body := bodyLines raw
  let h2 := headings (joined body)
  { raw
    frontmatter := readEntries 2 (frontmatterLines raw)
    preamble := joined (body.take ((h2.head?.map Heading.lineIdx).getD body.length))
    blocks := blocksFrom body h2 }

end Parsing

/-- The characters that make a value be quoted. -/
def isStructural (unit : Nat) : Bool :=
  (lit ":#&*?|<>=!%@`,[]\x7b\x7d\r\n").contains unit

def formatFrontmatterValue (value : Text) : Text :=
  if value = [] then lit "\"\""
  else if value.any isStructural then stringify value
  else value

def entryLine (key value : Text) : Text := key ++ lit ": " ++ formatFrontmatterValue value

/-- An empty part separates what follows from what is there. -/
def apart (parts : List Text) : List Text := if parts = [] then [] else parts ++ [[]]

def addBlock (parts : List Text) (block : AstBlock) : List Text :=
  apart parts ++ [lit "## " ++ block.heading] ++
    (if block.bodyText = [] then [] else [block.bodyText])

def frontmatterParts (entries : List FrontmatterEntry) : List Text :=
  if entries = [] then []
  else FENCE :: (entries.map fun entry => entryLine entry.key entry.value) ++ [FENCE]

def addPreamble (parts : List Text) (preamble : Text) : List Text :=
  if preamble = [] then parts else apart parts ++ [preamble]

def finalizeParts (ast : MdAst) : List Text :=
  ast.blocks.foldl addBlock (addPreamble (frontmatterParts ast.frontmatter) ast.preamble)

def finalize (ast : MdAst) : MdAst := { ast with raw := joined (finalizeParts ast) }

/-- `setMdOcPath` for a path whose section is `[frontmatter]`. Nothing when no entry has the key. -/
def setFrontmatter (ast : MdAst) (path : OcPath) (newValue : Text) : Except OcFailure (Option MdAst) := do
  let ocPath ← formatOcPath path
  guardSentinel newValue ocPath
  match path.item <|> path.field with
  | none => return none
  | some key =>
    match ast.frontmatter.findIdx? fun entry => entry.key = key with
    | none => return none
    | some idx =>
      return some (finalize { ast with
        frontmatter := ast.frontmatter.modify idx fun existing => { existing with value := newValue } })

end PlatformClaw.Addressing
